import PolicyExpr.Proofs.FramedSets

/-!
# Reading patterns in a frame

A pattern is read piece by piece: each piece changes the state of the reader and leaves the rest of
the text. What one piece does with a tail behind the text is what it does without, and so is, by
induction on the text, what the whole reader does.
-/
namespace PolicyExpr.Regex

/-! ## Repetitions -/

section

variable (flags : Flags)

theorem steady_blanks : Steady fun cs => some ((), cs.dropWhile Text.isBlank) := by
  intro cs
  simp only [dropWhile_isBlank_append]
  exact .same (List.dropWhile_suffix _)

theorem digits_extends {fuel fuel' : Nat} {cs : List Char} (hfuel : cs.length < fuel)
    (hfuel' : (cs ++ closing).length < fuel') :
    Extends closing cs (some (readCount.digits flags fuel cs))
      (some (readCount.digits flags fuel' (cs ++ closing))) := by
  induction fuel generalizing fuel' cs with
  | zero => omega
  | succ fuel ih =>
    obtain ⟨fuel', rfl⟩ : ∃ n, fuel' = n + 1 := ⟨fuel' - 1, by omega⟩
    cases cs with
    | nil => exact .same List.suffix_rfl
    | cons c rest =>
      simp only [List.cons_append, readCount.digits]
      split
      · have hlen := (flags.skip_suffix rest).length_le
        simp only [List.length_cons, List.length_append] at hfuel hfuel'
        refine Extends.mono ?_ (List.suffix_cons c rest)
        rcases flags.skip_append rest with h | ⟨h, h', hsign⟩
        · rw [h]
          have hrest : Extends closing (flags.skip rest) (some (readCount.digits flags fuel (flags.skip rest)))
              (some (readCount.digits flags fuel' (flags.skip rest ++ closing))) :=
            ih (by omega) (by simp only [List.length_append]; omega)
          exact (hrest.map (c :: ·)).mono (flags.skip_suffix rest)
        · have ended (fuel : Nat) : readCount.digits flags fuel [] = ([], []) := by
            cases fuel <;> rfl
          rw [h, h', ended, ended]
          exact .hidden hsign
      · exact .same List.suffix_rfl

theorem steady_readCount : Steady fun cs => some (readCount flags cs) := by
  have behind : Steady fun cs => some ((), flags.skip (cs.dropWhile Text.isBlank)) :=
    steady_blanks.bind fun _ => flags.steady_skip
  let value? (taken : List Char) : Option Nat :=
    if taken.isEmpty ∨ UInt32.size ≤ Decimal.digitsValue taken then none
    else some (Decimal.digitsValue taken)
  let ended (taken : List Char) (cs : List Char) : Option Nat × List Char :=
    (value? taken, flags.skip (cs.dropWhile Text.isBlank))
  have hended (taken : List Char) (r : List Char) :
      Extends closing r (some (ended taken r)) (some (ended taken (r ++ closing))) :=
    (behind.map fun _ => value? taken) r
  intro cs
  let counted (n : Nat) (cs : List Char) : Option Nat × List Char :=
    let x := readCount.digits flags n cs
    ended x.1 x.2
  have hblanks := (List.dropWhile_suffix (l := cs) Text.isBlank).length_le
  have hcounted (u : Unit) (r : List Char) (h : r <:+ cs) :
      Extends closing r (some (counted (cs.length + 1) r))
        (some (counted ((cs ++ closing).length + 1) (r ++ closing))) := by
    have hlen := h.length_le
    have hdigits : Extends closing r (some (readCount.digits flags (cs.length + 1) r))
        (some (readCount.digits flags ((cs ++ closing).length + 1) (r ++ closing))) :=
      digits_extends flags (by omega) (by simp only [List.length_append]; omega)
    exact hdigits.andThen (fun taken r _ => hended taken r) fun _ => rfl
  exact (steady_blanks cs).andThen hcounted fun _ => rfl

/-- The end of some bounds. -/
def closeBounds {α : Type} (bounds? : Option α) : Reader α := fun cs =>
  match cs with
  | '\x7d' :: rest => bounds?.map fun bounds => (bounds, rest)
  | _ => none

theorem steady_closeBounds {α : Type} (bounds? : Option α) : Steady (closeBounds bounds?) := by
  have done : Steady fun cs => bounds?.map fun bounds => (bounds, cs) := by
    cases bounds? with
    | none => exact Steady.none
    | some bounds => exact Steady.pure bounds
  refine (done.peek (x := '\x7d') (by decide) Steady.none).congr fun cs => ?_
  cases cs with
  | nil => rfl
  | cons c rest =>
    by_cases hc : c = '\x7d'
    · subst hc
      rfl
    · simp [closeBounds, hc]

/-- The bounds of a repetition behind the comma. -/
def readMost (least : Nat) : Reader (Nat × Option Nat) := fun cs =>
  match cs with
  | '\x7d' :: rest => some ((least, none), rest)
  | rest =>
    match readCount flags rest with
    | (some most, '\x7d' :: rest) => if least ≤ most then some ((least, some most), rest) else none
    | _ => none

theorem steady_readMost (least : Nat) : Steady (readMost flags least) := by
  let bounds? (most : Option Nat) : Option (Nat × Option Nat) :=
    most.bind fun most => if least ≤ most then some (least, some most) else none
  have closed (x : Option Nat × List Char) : closeBounds (bounds? x.1) x.2 =
      match x with
      | (some most, '\x7d' :: rest) => if least ≤ most then some ((least, some most), rest) else none
      | _ => none := by
    obtain ⟨_ | most, rest⟩ := x
    · cases rest with
      | nil => rfl
      | cons c rest => by_cases hc : c = '\x7d' <;> simp [closeBounds, bounds?, hc]
    · cases rest with
      | nil => rfl
      | cons c rest =>
        by_cases hc : c = '\x7d'
        · subst hc
          simp only [closeBounds, bounds?, Option.bind_some]
          split <;> rfl
        · simp [closeBounds, hc]
  have counted : Steady fun cs => closeBounds (bounds? (readCount flags cs).1) (readCount flags cs).2 :=
    (steady_readCount flags).bind fun most => steady_closeBounds (bounds? most)
  have endless : Steady fun rest => some ((least, (none : Option Nat)), rest) := Steady.pure _
  refine (endless.peek (x := '\x7d') (by decide) counted).congr fun cs => ?_
  cases cs with
  | nil => exact (closed (readCount flags [])).symm
  | cons c rest =>
    by_cases hc : c = '\x7d'
    · subst hc
      rfl
    · simp only [List.head?_cons, Option.some_inj, if_neg hc, closed]
      simp [readMost, hc]

/-- The bounds of a repetition behind the first of them. -/
def boundsBehind (least : Option Nat) : Reader (Nat × Option Nat) := fun cs =>
  match least, cs with
  | some least, ',' :: rest => readMost flags least (flags.skip rest)
  | some least, '\x7d' :: rest => some ((least, some least), rest)
  | _, _ => none

theorem steady_boundsBehind (least : Option Nat) : Steady (boundsBehind flags least) := by
  cases least with
  | none =>
    exact Steady.none.congr fun cs => by simp [boundsBehind]
  | some least =>
    refine (((steady_readMost flags least).skip flags).peek (x := ',') (by decide)
      (steady_closeBounds (some (least, some least)))).congr fun cs => ?_
    cases cs with
    | nil => rfl
    | cons c rest =>
      by_cases hcomma : c = ','
      · subst hcomma
        rfl
      · by_cases hbrace : c = '\x7d'
        · subst hbrace
          rfl
        · simp [boundsBehind, closeBounds, hcomma, hbrace]

theorem readBounds_eq (cs : List Char) : readBounds flags cs =
    boundsBehind flags (readCount flags (flags.skip cs)).1 (readCount flags (flags.skip cs)).2 := by
  unfold readBounds
  cases flags.skip cs with
  | nil => simp [readCount, readCount.digits, boundsBehind]
  | cons c rest => rfl

theorem steady_readBounds : Steady (readBounds flags) :=
  (((steady_readCount flags).bind (steady_boundsBehind flags)).skip flags).congr (readBounds_eq flags)

/-- The tail closes no bounds. -/
theorem readBounds_eq_none {cs : List Char} (h : flags.skip cs = []) :
    readBounds flags (cs ++ closing) = none := by
  have hcount {r : List Char} (hr : r <:+ closing) : (readCount flags r).1 = none := by
    rcases eq_of_suffix_closing hr with rfl | rfl | rfl <;> rfl
  have hskip : flags.skip (cs ++ closing) <:+ closing := by
    rcases flags.skip_append cs with h' | ⟨-, h', -⟩
    · rw [h', h]
      exact List.suffix_rfl
    · rw [h']
      exact List.nil_suffix
  rw [readBounds_eq, hcount hskip]
  rfl

/-- The bounds that a sign stands for. -/
def readSign (c : Char) : Reader (Nat × Option Nat) := fun rest =>
  if c = '?' then some ((0, some 1), rest)
  else if c = '*' then some ((0, none), rest)
  else if c = '+' then some ((1, none), rest)
  else if c = '\x7b' then (readBounds flags rest).map fun p => (p.1, flags.skip p.2)
  else none

theorem steady_readSign (c : Char) : Steady (readSign flags c) := by
  have bounds (b : Nat × Option Nat) : Steady fun rest => some (b, rest) := Steady.pure b
  exact Steady.ite (fun _ => bounds _) fun _ => Steady.ite (fun _ => bounds _) fun _ =>
    Steady.ite (fun _ => bounds _) fun _ => Steady.ite
      (fun _ => (steady_readBounds flags).andSkip flags) fun _ => Steady.none

/-- What follows a repetition: a question mark behind it does not count. -/
def dropLazy (cs : List Char) : List Char :=
  match cs with
  | '?' :: rest => rest
  | rest => rest

theorem steady_dropLazy : Steady fun cs => some ((), dropLazy cs) := by
  refine ((Steady.pure ()).peek (x := '?') (by decide) (Steady.pure ())).congr fun cs => ?_
  cases cs with
  | nil => rfl
  | cons c rest =>
    by_cases hc : c = '?'
    · subst hc
      rfl
    · simp [dropLazy, hc]

theorem readRepetition_cons (c : Char) (rest : List Char) : readRepetition flags (c :: rest) =
    (readSign flags c rest).map fun p => (p.1, dropLazy p.2) := by
  have behind (x : Option ((Nat × Option Nat) × List Char)) :
      (x >>= fun p => match p.2 with
        | '?' :: rest => pure (p.1, rest)
        | rest => pure (p.1, rest)) = x.map fun p => (p.1, dropLazy p.2) := by
    cases x with
    | none => rfl
    | some p =>
      simp only [Option.bind_eq_bind, Option.bind_some, Option.map_some, dropLazy]
      split <;> rfl
  rw [← behind]
  unfold readRepetition readSign
  by_cases hopt : c = '?'
  · subst hopt
    rfl
  · by_cases hstar : c = '*'
    · subst hstar
      rfl
    · by_cases hplus : c = '+'
      · subst hplus
        rfl
      · by_cases hbrace : c = '\x7b'
        · subst hbrace
          rfl
        · simp [hopt, hstar, hplus, hbrace]

theorem steady_repetition (c : Char) : Steady fun rest => readRepetition flags (c :: rest) := by
  refine ((steady_readSign flags c).bind fun b => steady_dropLazy.map fun _ => b).congr fun rest => ?_
  rw [readRepetition_cons]
  cases readSign flags c rest <;> rfl

end

/-! ## The start of a group -/

/-- How a group begins, without what follows. -/
inductive GroupKind where
  | directive (flags : Flags)
  | group (flags : Flags) (keeps : Bool) (name : Option String)

def GroupStart.split : GroupStart → GroupKind × List Char
  | directive flags rest => (.directive flags, rest)
  | group flags keeps name rest => (.group flags keeps name, rest)

theorem steady_readName : Steady readName := by
  intro cs
  unfold readName
  rcases span_append '>' (by decide) cs with ⟨front, r, hr, hsuffix, h, h'⟩ |
    ⟨front, front', h, h'⟩
  · rw [h, h']
    cases r with
    | nil => exact absurd rfl hr
    | cons c rest =>
      cases front with
      | nil => exact .refused
      | cons first name =>
        simp only [List.cons_append]
        split
        · exact .same ((List.suffix_cons c rest).trans hsuffix)
        · exact .refused
  · rw [h, h']
    cases front <;> cases front' <;> exact .refused

section

variable (flags : Flags)

/-- The parenthesis of the tail closes a list of flags. -/
theorem steady_readFlags (seen : List Char) (value : Bool) :
    Steady fun cs => (readFlags flags seen value cs).map fun p =>
      ((p.1, p.2.1, p.2.2.1), p.2.2.2) := by
  intro cs
  dsimp only
  induction cs generalizing flags seen value with
  | nil =>
    simp only [List.nil_append, closing, readFlags, or_true, if_true, Option.map_none]
    split
    · exact .refused
    · exact .taken rfl List.suffix_rfl
  | cons c rest ih =>
    have hrest := List.suffix_cons c rest
    simp only [List.cons_append, readFlags]
    split
    · split
      · exact .refused
      · exact .same hrest
    · split
      · exact .refused
      · split
        · exact (ih flags (c :: seen) false).mono hrest
        · cases flags.set? c value with
          | none => exact .refused
          | some flags => exact (ih flags (c :: seen) value).mono hrest

/-- A group under a name. -/
def readNamed : Reader GroupKind := fun cs =>
  (readName cs).map fun p => (.group flags true (some p.1), p.2)

/-- A group behind its flags, or flags without a group. -/
def readFlagged : Reader GroupKind := fun cs =>
  (readFlags flags [] true cs).bind fun (inner, bare, stop, rest) =>
    if stop = ')' then (if bare then none else some (.directive inner, rest))
    else some (.group inner false none, rest)

/-- A group behind its question mark. -/
def readMarked : Reader GroupKind := fun cs =>
  if cs.head? = some '=' then none
  else if cs.head? = some '!' then none
  else if cs.head? = some '<' then
    if cs.tail.head? = some '=' then none
    else if cs.tail.head? = some '!' then none
    else readNamed flags cs.tail
  else if cs.head? = some 'P' then
    if cs.tail.head? = some '<' then readNamed flags cs.tail.tail else none
  else readFlagged flags cs

theorem steady_readMarked : Steady (readMarked flags) := by
  have named : Steady (readNamed flags) :=
    steady_readName.map fun name => GroupKind.group flags true (some name)
  have flagged : Steady (readFlagged flags) := by
    let kind? (p : Flags × Bool × Char) : Option GroupKind :=
      if p.2.2 = ')' then (if p.2.1 then none else some (.directive p.1))
      else some (.group p.1 false none)
    refine ((steady_readFlags flags [] true).choose kind?).congr fun cs => ?_
    unfold readFlagged
    cases readFlags flags [] true cs with
    | none => rfl
    | some p =>
      simp only [kind?, Option.map_some, Option.bind_some]
      split_ifs <;> rfl
  exact Steady.none.peek (by decide) (Steady.none.peek (by decide) (Steady.peek (by decide)
    (Steady.none.peek (by decide) (Steady.none.peek (by decide) named))
    (Steady.peek (by decide) (named.peek (by decide) Steady.none) flagged)))

/-- How a group begins behind its parenthesis, and what follows. -/
def readKind : Reader GroupKind := fun cs => (readGroupStart flags cs).map GroupStart.split

theorem readKind_mark (cs : List Char) : readKind flags ('?' :: cs) = readMarked flags cs := by
  have hP (rest : List Char) : readFlags flags [] true ('P' :: rest) = none := rfl
  have named (rest : List Char) : ((readName rest).map fun p =>
      GroupStart.group flags true (some p.1) p.2).map GroupStart.split = readNamed flags rest := by
    rw [Option.map_map]
    rfl
  have unmarked {x : Char} {cs : List Char} (h : ∀ rest, cs = x :: rest → False) :
      cs.head? ≠ some x := fun hx =>
    let ⟨rest, hrest⟩ := List.head?_eq_some_iff.1 hx
    h rest hrest
  unfold readKind readGroupStart readMarked
  split
  · next h => cases h; rfl
  · next h => cases h; rfl
  · next h => cases h; rfl
  · next h => cases h; rfl
  · next h =>
    cases h
    exact named _
  · next rest hequal hbang h =>
    cases h
    have hequal : rest.head? ≠ some '=' := unmarked hequal
    have hbang : rest.head? ≠ some '!' := unmarked hbang
    change _ = if _ = _ then none else if _ = _ then none else readNamed flags _
    rw [List.tail_cons, if_neg hequal, if_neg hbang]
    exact named rest
  · next hequal hbang _ _ hP' hangle h =>
    cases h
    have hequal : cs.head? ≠ some '=' := unmarked hequal
    have hbang : cs.head? ≠ some '!' := unmarked hbang
    have hangle : cs.head? ≠ some '<' := unmarked hangle
    rw [if_neg hequal, if_neg hbang, if_neg hangle]
    by_cases h : cs.head? = some 'P'
    · obtain ⟨rest, rfl⟩ := List.head?_eq_some_iff.1 h
      have hangle : rest.head? ≠ some '<' := unmarked fun more hmore => hP' more (by rw [hmore])
      rw [hP, if_pos h, List.tail_cons, if_neg hangle]
      rfl
    · rw [if_neg h]
      unfold readFlagged
      cases readFlags flags [] true cs with
      | none => rfl
      | some p =>
        simp only [Option.bind_some]
        split_ifs <;> rfl
  · next h => exact (h cs rfl).elim

theorem steady_readKind : Steady (readKind flags) := by
  refine ((steady_readMarked flags).peek (x := '?') (by decide)
    (Steady.pure (.group flags true none))).congr fun cs => ?_
  cases cs with
  | nil => rfl
  | cons c rest =>
    by_cases hc : c = '?'
    · subst hc
      exact readKind_mark flags rest
    · simp [readKind, readGroupStart, GroupStart.split, hc]

end

/-! ## Patterns -/

/-- Where the reader of a pattern stands: the flags in force, the names of the groups so far, and
what was read before, in reverse. -/
structure Reading where
  flags : Flags
  names : List String
  branches : List Item
  items : List Item

namespace Reading

def push (s : Reading) (item : Item) : Reading := { s with items := item :: s.items }

/-- What was read. -/
def result (s : Reading) : Item × List String :=
  (.choice (.sequence s.items :: s.branches), s.names)

end Reading

/-- The rest of a pattern, with the names of its groups. -/
def readOn (fuel : Nat) (s : Reading) : Reader (Item × List String) := fun cs =>
  (readPattern fuel s.flags s.names s.branches s.items cs).map fun p => ((p.1, p.2.1), p.2.2)

/-- The end of a group. -/
def closeGroup (s : Reading) (keeps : Bool) (body : Item × List String) : Reader Reading := fun cs =>
  match cs with
  | ')' :: rest => some ({ s with names := body.2, items := body.1.group keeps :: s.items }, rest)
  | _ => none

/-- A group behind its start. -/
def readGroup (fuel : Nat) (s : Reading) (kind : GroupKind) : Reader Reading := fun cs =>
  match kind with
  | .directive inner => some ({ s with flags := inner, items := .none :: s.items }, cs)
  | .group inner keeps name =>
    if name.any s.names.contains then none
    else
      (readOn fuel ⟨inner, name.toList ++ s.names, [], []⟩ cs).bind fun p =>
        closeGroup s keeps p.1 p.2

/-- A repetition of what was read last. -/
def readRepeated (s : Reading) (c : Char) : Reader Reading := fun rest =>
  match s.items with
  | [] => none
  | item :: items =>
    if item.directive then none
    else
      (readRepetition s.flags (c :: rest)).map fun p =>
        ({ s with items := item.repeated p.1.1 p.1.2 :: items }, p.2)

/-- A piece of a pattern without a part of its own, which begins with a given character. -/
def readPlain (s : Reading) (c : Char) : Reader Reading := fun rest =>
  if c = '.' then (Item.any? s.flags).map fun item => (s.push item, rest)
  else if c = '^' then
    some (s.push (.ofLook (if s.flags.multiLine then .lineStart s.flags.returns else .textStart)), rest)
  else if c = '$' then
    some (s.push (.ofLook (if s.flags.multiLine then .lineEnd s.flags.returns else .textEnd)), rest)
  else if c = '?' ∨ c = '*' ∨ c = '+' ∨ c = '\x7b' then readRepeated s c rest
  else (Item.ofLetter? s.flags c.toNat false).map fun item => (s.push item, rest)

/-- A piece of a pattern, which begins with a given character and closes no group. -/
def readPiece (fuel : Nat) (s : Reading) (c : Char) : Reader Reading := fun rest =>
  if c = '|' then some (⟨s.flags, s.names, .sequence s.items :: s.branches, []⟩, rest)
  else if c = '(' then
    (readKind s.flags (s.flags.skip rest)).bind fun p => readGroup fuel s p.1 p.2
  else if c = '[' then
    (readBrackets s.flags fuel rest).map fun p =>
      (s.push { Item.ofSet p.1.set with depth := p.1.depth }, p.2)
  else if c = '\\' then
    (readEscape s.flags rest).bind fun p =>
      ((Item.ofPrimitive? s.flags p.1).map s.push).map fun s => (s, p.2)
  else readPlain s c rest

/-- The last part of a group's reading in the reader of patterns. -/
theorem readGroup_group (fuel : Nat) (s : Reading) (inner : Flags) (keeps : Bool)
    (name : Option String) (rest : List Char) :
    ((if name.any s.names.contains then none
      else
        match readPattern fuel inner (name.toList ++ s.names) [] [] rest with
        | some (item, names, ')' :: rest) =>
          readPattern fuel s.flags names s.branches (item.group keeps :: s.items) rest
        | _ => none).map fun p => ((p.1, p.2.1), p.2.2)) =
      (readGroup fuel s (.group inner keeps name) rest).bind fun p => readOn fuel p.1 p.2 := by
  unfold readGroup
  dsimp only
  split
  · rfl
  · unfold readOn
    cases readPattern fuel inner (name.toList ++ s.names) [] [] rest with
    | none => rfl
    | some p =>
      obtain ⟨item, names, r⟩ := p
      simp only [Option.map_some, Option.bind_some, closeGroup]
      split
      · next heq =>
        cases heq
        rfl
      · next hclosed =>
        split
        · exact absurd rfl (hclosed _ _ _)
        · rfl

/-- The reader takes one piece, or ends at the end of the text or of the group. -/
theorem readOn_succ (fuel : Nat) (s : Reading) (cs : List Char) :
    readOn (fuel + 1) s cs =
      match s.flags.skip cs with
      | [] => some (s.result, [])
      | c :: rest =>
        if c = ')' then some (s.result, c :: rest)
        else (readPiece fuel s c rest).bind fun p => readOn fuel p.1 p.2 := by
  have start : readOn (fuel + 1) s cs =
      (readPattern (fuel + 1) s.flags s.names s.branches s.items cs).map fun p =>
        ((p.1, p.2.1), p.2.2) := rfl
  rw [start, readPattern]
  -- One case for each character that begins a piece, in the order of the reader.
  split
  · next h =>
    rw [h]
    rfl
  · next h =>
    rw [h]
    rfl
  · next h =>
    rw [h]
    rfl
  · next rest h =>
    rw [h]
    change _ = ((readKind s.flags (s.flags.skip rest)).bind fun p => readGroup fuel s p.1 p.2).bind _
    unfold readKind
    cases readGroupStart s.flags (s.flags.skip rest) with
    | none => rfl
    | some start =>
      cases start with
      | directive inner rest => rfl
      | group inner keeps name rest => exact readGroup_group fuel s inner keeps name rest
  · next rest h =>
    rw [h]
    change _ = ((readBrackets s.flags fuel rest).map _).bind _
    cases readBrackets s.flags fuel rest <;> rfl
  · next rest h =>
    rw [h]
    change _ = ((readEscape s.flags rest).bind _).bind _
    cases readEscape s.flags rest with
    | none => rfl
    | some p =>
      simp only [Option.bind_eq_bind, Option.bind_some]
      cases Item.ofPrimitive? s.flags p.1 <;> rfl
  · next rest h =>
    rw [h]
    change _ = ((Item.any? s.flags).map _).bind _
    cases Item.any? s.flags <;> rfl
  · next h =>
    rw [h]
    rfl
  · next h =>
    rw [h]
    rfl
  · next c rest hclose hbar hopen hset hescape hdot hcaret hdollar h =>
    have plain : readPiece fuel s c rest =
        if c = '?' ∨ c = '*' ∨ c = '+' ∨ c = '\x7b' then readRepeated s c rest
        else (Item.ofLetter? s.flags c.toNat false).map fun item => (s.push item, rest) := by
      unfold readPiece readPlain
      rw [if_neg hbar, if_neg hopen, if_neg hset, if_neg hescape, if_neg hdot, if_neg hcaret,
        if_neg hdollar]
    rw [h]
    simp only [if_neg (show ¬c = ')' from hclose), plain]
    split
    · unfold readRepeated
      cases s.items with
      | nil => rfl
      | cons item items =>
        dsimp only
        split
        · rfl
        · cases readRepetition s.flags (c :: rest) <;> rfl
    · cases Item.ofLetter? s.flags c.toNat false <;> rfl

/-- With enough fuel what is left is left of the text. -/
def Keeps (fuel : Nat) : Prop := ∀ {s : Reading} {cs r : List Char} {a : Item × List String},
  2 * cs.length + 2 ≤ fuel → readOn fuel s cs = some (a, r) → r <:+ cs

theorem steady_closeGroup (s : Reading) (keeps : Bool) (body : Item × List String) :
    Steady (closeGroup s keeps body) := by
  let closed : Reading := { s with names := body.2, items := body.1.group keeps :: s.items }
  refine (Steady.uncons fun c => Steady.ite (p := c = ')') (fun _ => Steady.pure closed)
    fun _ => Steady.none).congr fun cs => ?_
  cases cs with
  | nil => rfl
  | cons c rest =>
    by_cases hc : c = ')'
    · subst hc
      rfl
    · simp [closeGroup, hc]

theorem steady_readPlain (s : Reading) (c : Char) : Steady (readPlain s c) := by
  have optional (x : Option Item) : Steady fun cs => x.map fun item => (s.push item, cs) := by
    cases x with
    | none => exact Steady.none
    | some item => exact Steady.pure (s.push item)
  have repeated : Steady (readRepeated s c) := by
    unfold readRepeated
    cases s.items with
    | nil => exact Steady.none
    | cons item items =>
      exact Steady.ite (fun _ => Steady.none) fun _ => (steady_repetition s.flags c).map fun bounds =>
        { s with items := item.repeated bounds.1 bounds.2 :: items }
  exact Steady.ite (fun _ => optional _) fun _ => Steady.ite (fun _ => Steady.pure _) fun _ =>
    Steady.ite (fun _ => Steady.pure _) fun _ => Steady.ite (fun _ => repeated) fun _ => optional _

theorem readOn_nil {fuel : Nat} (hfuel : 0 < fuel) (s : Reading) :
    readOn fuel s [] = some (s.result, []) := by
  obtain ⟨fuel, rfl⟩ : ∃ n, fuel = n + 1 := ⟨fuel - 1, by omega⟩
  rw [readOn_succ, List.suffix_nil.1 (s.flags.skip_suffix [])]

theorem readGroup_suffix {fuel : Nat} (keeping : Keeps fuel) {s s' : Reading} {kind : GroupKind}
    {cs r : List Char} (hfuel : 2 * cs.length + 2 ≤ fuel)
    (h : readGroup fuel s kind cs = some (s', r)) : r <:+ cs := by
  cases kind with
  | directive inner =>
    cases h
    exact List.suffix_rfl
  | group inner keeps name =>
    unfold readGroup at h
    dsimp only at h
    split at h
    · cases h
    · obtain ⟨p, hbody, hclose⟩ := Option.bind_eq_some_iff.1 h
      exact ((steady_closeGroup s keeps p.1).suffix hclose).trans (keeping hfuel hbody)

/-- The border at the end of a pattern that is cut off within braces: with the tail behind it the
braces are still open. -/
theorem readOn_openBrace (fuel : Nat) {s : Reading} {cs : List Char} (h : OpensBrace s.flags cs) :
    readOn fuel s (cs ++ closing) = none := by
  obtain ⟨rest, rfl, hrest⟩ := h
  cases fuel with
  | zero => rfl
  | succ fuel =>
    have hskip : s.flags.skip ('\x7b' :: (rest ++ closing)) = '\x7b' :: (rest ++ closing) := by
      unfold Flags.skip
      split <;> rfl
    have hrepetition : readRepetition s.flags ('\x7b' :: (rest ++ closing)) = none := by
      rw [readRepetition_cons]
      change (((readBounds s.flags (rest ++ closing)).map _).map _) = none
      rw [readBounds_eq_none s.flags hrest]
      rfl
    have piece : readPiece fuel s '\x7b' (rest ++ closing) = none := by
      change readRepeated s '\x7b' (rest ++ closing) = none
      unfold readRepeated
      rw [hrepetition]
      cases s.items with
      | nil => rfl
      | cons item items => simp
    rw [List.cons_append, readOn_succ, hskip]
    simp only [piece]
    rfl

section

variable {tail : List Char} (htail : IsTail tail) {fuel fuel' : Nat}

include htail

theorem readGroup_extends (s : Reading) (kind : GroupKind) {cs : List Char}
    (later : ∀ s, Extends tail cs (readOn fuel s cs) (readOn fuel' s (cs ++ tail))) :
    Extends tail cs (readGroup fuel s kind cs) (readGroup fuel' s kind (cs ++ tail)) := by
  cases kind with
  | directive inner => exact .same List.suffix_rfl
  | group inner keeps name =>
    unfold readGroup
    dsimp only
    split
    · exact .refused
    · exact (later _).bind (fun body r _ => (steady_closeGroup s keeps body).extends htail r)
        (fun _ => rfl) fun _ body _ _ _ _ h => (steady_closeGroup s keeps body).suffix h

/-- A piece is read the same with any tail, if what stands behind its start is. The one exception is
a border before a brace that is still open at the end of the text. -/
theorem readPiece_extends (keeping : tail = closing → Keeps fuel') (s : Reading) (c : Char)
    {rest : List Char} (hfuel : 2 * rest.length + 2 ≤ fuel)
    (hfuel' : 2 * (rest ++ tail).length + 2 ≤ fuel')
    (later : ∀ s r, r <:+ rest → Extends tail r (readOn fuel s r) (readOn fuel' s (r ++ tail))) :
    Extends tail rest (readPiece fuel s c rest) (readPiece fuel' s c (rest ++ tail)) ∨
      tail = closing ∧ readPiece fuel s c rest = none ∧ ∃ s' r, OpensBrace s'.flags r ∧
        readPiece fuel' s c (rest ++ tail) = some (s', r ++ closing) := by
  have one (s : Reading) (r : List Char) : Extends tail r (some (s, r)) (some (s, r ++ tail)) :=
    .same List.suffix_rfl
  unfold readPiece
  by_cases hbar : c = '|'
  · simp only [if_pos hbar]
    exact .inl (one _ rest)
  by_cases hopen : c = '('
  · simp only [if_neg hbar, if_pos hopen]
    left
    have kind := ((steady_readKind s.flags).skip s.flags).extends htail rest
    -- A list of flags may have taken the parenthesis of the tail; then the anchor is left at most.
    refine kind.bind (fun kind r hr => ?_) (fun kind => ?_) fun htail kind _ r _ hr h => ?_
    · exact readGroup_extends htail s kind fun s => later s r hr
    · have ended (s : Reading) : readOn fuel s [] = readOn fuel' s [] := by
        rw [readOn_nil (by omega), readOn_nil (by omega)]
      unfold readGroup
      simp only [ended]
    · have hlen := hr.length_le
      subst htail
      have hclosing : closing.length = 2 := rfl
      simp only [List.length_append, List.length_singleton] at hfuel' hlen
      exact readGroup_suffix (keeping rfl) (by omega) h
  by_cases hset : c = '['
  · simp only [if_neg hbar, if_neg hopen, if_pos hset]
    have brackets := (readUnion_extends s.flags htail fuel).1 hfuel hfuel'
    exact .inl (brackets.map fun set => s.push { Item.ofSet set.set with depth := set.depth })
  by_cases hescape : c = '\\'
  · simp only [if_neg hbar, if_neg hopen, if_neg hset, if_pos hescape]
    rcases htail with rfl | rfl
    · rw [List.append_nil]
      left
      refine Extends.choose ?_ fun p => (Item.ofPrimitive? s.flags p).map s.push
      rcases readEscape_extends s.flags rest with h | ⟨_, _, _, h, _⟩
      · exact h.alone
      · rw [h]
        exact .refused
    · rcases readEscape_extends s.flags rest with h | ⟨r, rfl, hbrace, h, h'⟩
      · exact .inl (h.choose fun p => (Item.ofPrimitive? s.flags p).map s.push)
      · rw [h, h']
        exact .inr ⟨rfl, rfl, s.push (.ofLook (.border s.flags.unicode)), r, hbrace, rfl⟩
  simp only [if_neg hbar, if_neg hopen, if_neg hset, if_neg hescape]
  exact .inl ((steady_readPlain s c).extends htail rest)

/-- A pattern is read the same with any tail. The induction is on the fuel, of which two units for
each character are enough. -/
theorem readOn_extends (keeping : tail = closing → ∀ fuel, Keeps fuel) {s : Reading} {cs : List Char}
    (hfuel : 2 * cs.length + 2 ≤ fuel) (hfuel' : 2 * (cs ++ tail).length + 2 ≤ fuel') :
    Extends tail cs (readOn fuel s cs) (readOn fuel' s (cs ++ tail)) := by
  induction fuel generalizing fuel' s cs with
  | zero => omega
  | succ fuel ih =>
    obtain ⟨fuel', rfl⟩ : ∃ n, fuel' = n + 1 := ⟨fuel' - 1, by omega⟩
    rw [readOn_succ]
    rcases skip_append_tail s.flags htail cs with h | ⟨h, h', hsign⟩
    · have hsuffix := s.flags.skip_suffix cs
      cases hskip : s.flags.skip cs with
      | nil =>
        rw [readOn_succ, h, hskip, List.nil_append]
        rcases htail with rfl | rfl
        · exact .same List.nil_suffix
        · exact .same List.nil_suffix
      | cons c rest =>
        rw [hskip] at hsuffix
        have hrest := (List.suffix_cons c rest).trans hsuffix
        have hlen := hsuffix.length_le
        rw [List.length_cons] at hlen
        rw [List.length_append] at hfuel'
        rw [readOn_succ, h, hskip]
        simp only [List.cons_append]
        by_cases hclose : c = ')'
        · simp only [if_pos hclose]
          exact .same hsuffix
        · simp only [if_neg hclose]
          refine Extends.mono ?_ hrest
          have later (s : Reading) (r : List Char) (hr : r <:+ rest) :
              Extends tail r (readOn fuel s r) (readOn fuel' s (r ++ tail)) :=
            ih (by have := hr.length_le; omega)
              (by have := hr.length_le; rw [List.length_append]; omega)
          rcases readPiece_extends htail (fun htail => keeping htail fuel') s c (by omega)
            (by rw [List.length_append]; omega) later with hpiece | ⟨htail, hnone, s', r, hbrace, hpiece⟩
          · refine hpiece.bind later (fun s => ?_) fun htail s _ r _ hr h => ?_
            · rw [readOn_nil (by omega), readOn_nil (by omega)]
            · have hlen := hr.length_le
              have hclosing : tail.length = 2 := by rw [htail]; rfl
              rw [List.length_singleton] at hlen
              exact keeping htail fuel' (by omega) h
          · rw [hnone, hpiece]
            simp only [Option.bind_none, Option.bind_some, readOn_openBrace fuel' hbrace]
            exact .refused
    · rw [readOn_succ, h, h']
      exact .hidden hsign

end

/-- What the reader of a pattern leaves is left of the text. -/
theorem keeps_of_fuel (fuel : Nat) : Keeps fuel := by
  intro s cs r a hfuel h
  have alone : Extends [] cs (readOn fuel s cs) (readOn fuel s (cs ++ [])) :=
    readOn_extends (.inl rfl) nofun hfuel (by simpa using hfuel)
  rw [h] at alone
  exact alone.suffix

/-- A pattern in its frame. Where it is read to its end without the frame, it is with the frame, and
up to the parenthesis, unless a comment swallows the frame. -/
theorem readOn_closing {fuel fuel' : Nat} {s : Reading} {cs : List Char}
    (hfuel : 2 * cs.length + 2 ≤ fuel) (hfuel' : 2 * (cs ++ closing).length + 2 ≤ fuel') :
    Extends closing cs (readOn fuel s cs) (readOn fuel' s (cs ++ closing)) :=
  readOn_extends (.inr rfl) (fun _ => keeps_of_fuel) hfuel hfuel'

/-- Whatever fuel is enough, the same is read. -/
theorem readOn_fuel {fuel fuel' : Nat} {s : Reading} {cs : List Char}
    (hfuel : 2 * cs.length + 2 ≤ fuel) (hfuel' : 2 * cs.length + 2 ≤ fuel') :
    readOn fuel s cs = readOn fuel' s cs := by
  have alone : Extends [] cs (readOn fuel s cs) (readOn fuel' s (cs ++ [])) :=
    readOn_extends (.inl rfl) nofun hfuel (by simpa using hfuel')
  rw [List.append_nil] at alone
  generalize readOn fuel s cs = x at alone ⊢
  generalize readOn fuel' s cs = y at alone ⊢
  cases alone with
  | same h => simp
  | hidden h => rfl
  | refused => rfl
  | taken htail h => cases htail

end PolicyExpr.Regex
