import PolicyExpr.Proofs.Framing

/-!
# Reading sets in a frame

A set in brackets is read the same in a frame and alone. Its end is its own bracket, which the tail
does not have, so what is cut off within a set is cut off with the tail behind it, too.
-/
namespace PolicyExpr.Regex

theorem dropWhile_isBlank_append (cs : List Char) :
    (cs ++ closing).dropWhile Text.isBlank = cs.dropWhile Text.isBlank ++ closing := by
  have hclosing : closing.dropWhile Text.isBlank = closing := by decide
  rw [List.dropWhile_append, hclosing]
  cases cs.dropWhile Text.isBlank <;> rfl

/-- The tail can only be mistaken for its own first character. -/
theorem head?_append_closing {cs : List Char} {x : Char} (hx : x ≠ ')') :
    (cs ++ closing).head? = some x ↔ cs.head? = some x := by
  cases cs with
  | nil => simpa [closing] using hx.symm
  | cons c rest => rfl

section

variable (flags : Flags)

theorem second?_append {cs : List Char} {c x : Char} (hx : x ≠ ')') :
    flags.second? (c :: (cs ++ closing)) = some x ↔ flags.second? (c :: cs) = some x := by
  unfold Flags.second?
  simp only [List.tail_cons, dropWhile_isBlank_append]
  split
  · cases hrest : cs.dropWhile Text.isBlank with
    | nil => exact @head?_append_closing [] x hx
    | cons d more =>
      by_cases hd : d = '#'
      · subst hd
        simp only [List.cons_append, dropWhile_isBlank_append]
        exact head?_append_closing hx
      · simp [hd]
  · exact head?_append_closing hx

/-- The end of a set's item cannot be seen from here: it is read with nothing left but the tail. -/
def DiesOut {α : Type} (x y : Option (α × List Char)) : Prop :=
  x = none ∧ ∀ a r, y = some (a, r) → r <:+ closing

theorem readSetPart_extends (c : Char) (rest : List Char) :
    Extends closing rest (readSetPart flags (c :: rest)) (readSetPart flags (c :: (rest ++ closing))) ∨
      readSetPart flags (c :: rest) = none ∧ ∃ l r,
        readSetPart flags (c :: (rest ++ closing)) = some (.look l, r) := by
  by_cases hc : c = '\\'
  · subst hc
    have hescape (cs : List Char) : readSetPart flags ('\\' :: cs) = readEscape flags cs := rfl
    rw [hescape, hescape]
    exact (readEscape_extends flags rest).imp_right fun ⟨_, _, _, h, h'⟩ => ⟨h, _, _, h'⟩
  · have hletter (cs : List Char) : readSetPart flags (c :: cs) = some (.letter c.toNat false, cs) := by
      unfold readSetPart
      split
      · next h => cases h
      · next h =>
        cases h
        exact absurd rfl hc
      · next h =>
        cases h
        rfl
    rw [hletter, hletter]
    exact .inl (.same List.suffix_rfl)

/-- One letter or set as an item. -/
def single? : Primitive → Option NestedSet
  | .letter code _ => (flags.setLetter? code).map fun code => ⟨[(code, code)], 0⟩
  | .set s => some ⟨s, 0⟩
  | .look _ => none

/-- Two letters as the ends of a range. -/
def range? : Primitive → Primitive → Option NestedSet
  | .letter a _, .letter b _ =>
    if b < a then none
    else (flags.setLetter? a).bind fun a => (flags.setLetter? b).map fun b => ⟨[(a, b)], 0⟩
  | _, _ => none

/-- An item of a set behind its first letter. -/
def itemBehind (first : Primitive) : Reader NestedSet := fun rest =>
  match flags.skip rest with
  | [] => none
  | c :: more =>
    if c ≠ '-' ∨ flags.second? (c :: more) = some ']' ∨ flags.second? (c :: more) = some '-' then
      (single? flags first).map fun s => (s, c :: more)
    else
      match flags.skip more with
      | [] => none
      | d :: more =>
        (readSetPart flags (d :: more)).bind fun p => (range? flags first p.1).map fun s => (s, p.2)

theorem readSetItem_eq (cs : List Char) :
    readSetItem flags cs = (readSetPart flags cs).bind fun p => itemBehind flags p.1 p.2 := by
  unfold readSetItem itemBehind
  cases readSetPart flags cs with
  | none => rfl
  | some p =>
    obtain ⟨first, rest⟩ := p
    simp only [Option.bind_eq_bind, Option.bind_some]
    cases flags.skip rest with
    | nil => rfl
    | cons c more =>
      simp only [List.head?_cons, List.tail_cons, ne_eq, Option.some_inj]
      split
      · cases first with
        | letter code byte =>
          simp only [single?]
          cases flags.setLetter? code <;> rfl
        | set s => rfl
        | look l => rfl
      · cases flags.skip more with
        | nil => rfl
        | cons d more =>
          dsimp only
          cases readSetPart flags (d :: more) with
          | none => rfl
          | some p =>
            obtain ⟨last, rest⟩ := p
            simp only [Option.bind_some]
            cases first with
            | letter a byte =>
              cases last with
              | letter b byte' =>
                simp only [range?]
                split
                · rfl
                · cases flags.setLetter? a
                  · rfl
                  · cases flags.setLetter? b <;> rfl
              | _ => rfl
            | _ => rfl

end

section

variable (flags : Flags)

theorem itemBehind_extends (first : Primitive) (rest : List Char) :
    Extends closing rest (itemBehind flags first rest) (itemBehind flags first (rest ++ closing)) ∨
      DiesOut (itemBehind flags first rest) (itemBehind flags first (rest ++ closing)) := by
  unfold itemBehind
  rcases flags.skip_append rest with hskip | ⟨hskip, hskip', -⟩
  · rw [hskip]
    have hsuffix := flags.skip_suffix rest
    cases hrest : flags.skip rest with
    | nil =>
      -- The tail is behind the item, which is one letter or set.
      right
      refine ⟨rfl, fun s r h => ?_⟩
      have h : ((single? flags first).map fun s => (s, closing)) = some (s, r) := h
      rw [eq_of_map_eq_some h]
    | cons c more =>
      rw [hrest] at hsuffix
      simp only [List.cons_append, second?_append flags (x := ']') (by decide),
        second?_append flags (x := '-') (by decide)]
      split
      · left
        cases single? flags first with
        | none => exact .refused
        | some s => exact .same hsuffix
      · have hmore := (flags.skip_suffix more).trans ((List.suffix_cons c more).trans hsuffix)
        rcases flags.skip_append more with hskip | ⟨hskip, hskip', -⟩
        · rw [hskip]
          cases hd : flags.skip more with
          | nil =>
            -- The tail is taken for the end of a range.
            right
            refine ⟨rfl, fun s r h => ?_⟩
            have h : ((range? flags first (.letter 41 false)).map fun s => (s, ['$'])) =
                some (s, r) := h
            rw [eq_of_map_eq_some h]
            exact List.suffix_cons ')' ['$']
          | cons d rest =>
            rw [hd] at hmore
            have hrest := (List.suffix_cons d rest).trans hmore
            simp only [List.cons_append]
            rcases readSetPart_extends flags d rest with h | ⟨h, l, r, h'⟩
            · generalize readSetPart flags (d :: rest) = x at h ⊢
              generalize readSetPart flags (d :: (rest ++ closing)) = y at h ⊢
              cases h with
              | @same last r h =>
                simp only [Option.bind_some]
                cases range? flags first last with
                | none => exact .inl .refused
                | some s => exact .inl (.same (h.trans hrest))
              | @hidden last h =>
                simp only [Option.bind_some]
                cases range? flags first last with
                | none => exact .inl .refused
                | some s => exact .inl (.hidden (hrest.mem h))
              | refused => exact .inl .refused
              | @taken last r _ h =>
                refine .inr ⟨rfl, fun s r' h' => ?_⟩
                have h' : ((range? flags first last).map fun s => (s, r)) = some (s, r') := h'
                rw [eq_of_map_eq_some h']
                exact h.trans (List.suffix_cons ')' ['$'])
            · rw [h, h']
              have no_range : range? flags first (.look l) = none := by cases first <;> rfl
              simp only [Option.bind_none, Option.bind_some, no_range, Option.map_none]
              exact .inl .refused
        · rw [hskip, hskip']
          exact .inl .refused
  · rw [hskip, hskip']
    exact .inl .refused

/-- An item is complete only with something behind it. -/
theorem readSetItem_extends (c : Char) (rest : List Char) :
    Extends closing rest (readSetItem flags (c :: rest)) (readSetItem flags (c :: (rest ++ closing))) ∨
      DiesOut (readSetItem flags (c :: rest)) (readSetItem flags (c :: (rest ++ closing))) := by
  rw [readSetItem_eq, readSetItem_eq]
  have ended (first : Primitive) : itemBehind flags first [] = none := by
    unfold itemBehind
    rw [List.suffix_nil.1 (flags.skip_suffix [])]
  rcases readSetPart_extends flags c rest with h | ⟨h, l, r, h'⟩
  · generalize readSetPart flags (c :: rest) = x at h ⊢
    generalize readSetPart flags (c :: (rest ++ closing)) = y at h ⊢
    cases h with
    | @same first r h => exact (itemBehind_extends flags first r).imp_left fun hb => hb.mono h
    | @hidden first h =>
      simp only [Option.bind_some, ended]
      exact .inl .refused
    | refused => exact .inl .refused
    | @taken first r _ h =>
      refine .inr ⟨rfl, fun s r' h' => ?_⟩
      have hr := itemBehind_extends flags first r
      have h' : itemBehind flags first r = some (s, r') := h'
      rw [h'] at hr
      rcases hr with hr | hr
      · exact (hr.suffix.trans h).trans (List.suffix_cons ')' ['$'])
      · cases hr.1
  · rw [h, h']
    have no_item : itemBehind flags (.look l) r = none := by
      unfold itemBehind
      cases flags.skip r with
      | nil => rfl
      | cons c more =>
        dsimp only
        split
        · rfl
        · cases flags.skip more with
          | nil => rfl
          | cons d more =>
            dsimp only
            cases readSetPart flags (d :: more) <;> rfl
    exact .inr ⟨rfl, fun s r' hs => nomatch no_item.symm.trans hs⟩

end

section

variable (flags : Flags)

/-- What follows the name of a set of POSIX. -/
def posixEnd (set : Option (Option CharSet)) : Reader (Option CharSet) := fun cs =>
  match cs with
  | ':' :: ']' :: rest => set.map fun s => (s, rest)
  | _ => none

theorem steady_posixEnd (set : Option (Option CharSet)) : Steady (posixEnd set) := by
  have done : Steady fun rest => set.map fun s => (s, rest) := by
    cases set with
    | none => exact Steady.none
    | some s => exact Steady.pure s
  refine (Steady.uncons fun c => Steady.ite (p := c = ':')
    (fun _ => Steady.uncons fun d => Steady.ite (p := d = ']') (fun _ => done) fun _ => Steady.none)
    fun _ => Steady.none).congr fun cs => ?_
  unfold posixEnd
  cases cs with
  | nil => rfl
  | cons c cs =>
    by_cases hc : c = ':'
    · subst hc
      cases cs with
      | nil => rfl
      | cons d rest =>
        by_cases hd : d = ']'
        · subst hd
          rfl
        · simp [hd]
    · simp [hc]

/-- The name of a set of POSIX, behind the sign that may negate it. -/
def posixBehind (negated : Bool) : Reader (Option CharSet) := fun cs =>
  match cs.span (· != ':') with
  | (name, ':' :: ']' :: rest) =>
    (CharSet.posix? (String.ofList name)).map fun s => (flags.finish? negated s, rest)
  | _ => none

theorem posixBehind_eq (negated : Bool) (cs : List Char) : posixBehind flags negated cs =
    posixEnd ((CharSet.posix? (String.ofList (cs.span (· != ':')).1)).map (flags.finish? negated))
      (cs.span (· != ':')).2 := by
  unfold posixBehind posixEnd
  obtain ⟨name, rest⟩ := cs.span (· != ':')
  dsimp only
  split
  · next heq =>
    cases heq
    cases CharSet.posix? (String.ofList name) <;> rfl
  · next hrest =>
    split
    · exact absurd rfl (hrest _ _)
    · rfl

theorem steady_posixBehind (negated : Bool) : Steady (posixBehind flags negated) := by
  intro cs
  rw [posixBehind_eq, posixBehind_eq]
  rcases span_append ':' (by decide) cs with ⟨front, r, -, hsuffix, h, h'⟩ |
    ⟨front, front', h, h'⟩
  · rw [h, h']
    exact (steady_posixEnd _ r).mono hsuffix
  · rw [h, h']
    exact .refused

/-- Whether a name begins with the sign that negates it, and what follows. -/
def posixSign (cs : List Char) : Bool × List Char :=
  match cs with
  | '^' :: more => (true, more)
  | _ => (false, cs)

theorem posixSign_of_ne {c : Char} (hc : c ≠ '^') (rest : List Char) :
    posixSign (c :: rest) = (false, c :: rest) := by
  simp [posixSign, hc]

theorem readPosix?_colon (rest : List Char) : readPosix? flags (':' :: rest) =
    posixBehind flags (posixSign rest).1 (posixSign rest).2 := rfl

theorem readPosix?_of_ne {c : Char} (hc : c ≠ ':') (rest : List Char) :
    readPosix? flags (c :: rest) = none := by
  simp [readPosix?, hc]

theorem steady_readPosix? : Steady (readPosix? flags) := by
  have behind : Steady fun rest => posixBehind flags (posixSign rest).1 (posixSign rest).2 := by
    intro rest
    cases rest with
    | nil => exact steady_posixBehind flags false []
    | cons c more =>
      by_cases hc : c = '^'
      · subst hc
        exact (steady_posixBehind flags true more).mono (List.suffix_cons '^' more)
      · simp only [List.cons_append, posixSign_of_ne hc]
        exact steady_posixBehind flags false (c :: more)
  refine (Steady.uncons fun c => Steady.ite (p := c = ':') (fun _ => behind) fun _ => Steady.none).congr
    fun cs => ?_
  cases cs with
  | nil => rfl
  | cons c rest =>
    by_cases hc : c = ':'
    · subst hc
      exact readPosix?_colon flags rest
    · rw [readPosix?_of_ne flags hc]
      exact (if_neg hc).symm

/-- Behind a set of POSIX a bracket was closed. -/
theorem suffix_of_readPosix? {cs r : List Char} {s : Option CharSet}
    (h : readPosix? flags cs = some (s, r)) : ']' :: r <:+ cs := by
  cases cs with
  | nil => cases h
  | cons c rest =>
    by_cases hc : c = ':'
    · subst hc
      rw [readPosix?_colon, posixBehind_eq] at h
      have hsign : (posixSign rest).2 <:+ rest := by
        unfold posixSign
        split
        · exact List.suffix_cons _ _
        · exact List.suffix_rfl
      unfold posixEnd at h
      simp only [List.span_eq_takeWhile_dropWhile] at h
      split at h
      · next more hdrop =>
        have hdropped : ':' :: ']' :: more <:+ (posixSign rest).2 :=
          hdrop ▸ List.dropWhile_suffix _
        have hr : r = more := eq_of_map_eq_some h
        rw [hr]
        exact ((List.suffix_cons ':' _).trans hdropped).trans
          (hsign.trans (List.suffix_cons ':' rest))
      · cases h
    · rw [readPosix?_of_ne flags hc] at h
      cases h

end

/-! ### Brackets -/

section

variable (flags : Flags) {tail : List Char} (htail : IsTail tail)

include htail

theorem readHyphens_extends {fuel fuel' : Nat} {cs : List Char} (hfuel : cs.length < fuel)
    (hfuel' : (cs ++ tail).length < fuel') :
    Extends tail cs (some (readHyphens flags fuel cs)) (some (readHyphens flags fuel' (cs ++ tail))) := by
  have other {fuel : Nat} {cs : List Char} (h : cs.head? ≠ some '-') :
      readHyphens flags fuel cs = ([], cs) := by
    unfold readHyphens
    split
    · rfl
    · exact absurd rfl h
    · rfl
  have ended (fuel : Nat) : readHyphens flags fuel [] = ([], []) := other (by simp)
  induction fuel generalizing fuel' cs with
  | zero => omega
  | succ fuel ih =>
    obtain ⟨fuel', rfl⟩ : ∃ n, fuel' = n + 1 := ⟨fuel' - 1, by omega⟩
    cases cs with
    | nil =>
      have htail : tail.head? ≠ some '-' := by rcases htail with rfl | rfl <;> decide
      rw [List.nil_append, other htail, ended]
      exact .same List.suffix_rfl
    | cons c rest =>
      by_cases hc : c = '-'
      · subst hc
        have hyphen (fuel : Nat) (rest : List Char) : readHyphens flags (fuel + 1) ('-' :: rest) =
            (⟨[(45, 45)], 0⟩ :: (readHyphens flags fuel (flags.skip rest)).1,
              (readHyphens flags fuel (flags.skip rest)).2) := rfl
        have hlen := (flags.skip_suffix rest).length_le
        simp only [List.cons_append, List.length_cons, List.length_append] at hfuel hfuel' ⊢
        rw [hyphen, hyphen]
        refine Extends.mono ?_ (List.suffix_cons '-' rest)
        rcases skip_append_tail flags htail rest with h | ⟨h, h', hsign⟩
        · rw [h]
          have hrest : Extends tail (flags.skip rest)
              (some (readHyphens flags fuel (flags.skip rest)))
              (some (readHyphens flags fuel' (flags.skip rest ++ tail))) :=
            ih (by omega) (by simp only [List.length_append]; omega)
          exact (hrest.map (⟨[(45, 45)], 0⟩ :: ·)).mono (flags.skip_suffix rest)
        · rw [h, h', ended, ended]
          exact .hidden hsign
      · rw [List.cons_append, other (by simpa using hc), other (by simpa using hc)]
        exact .same List.suffix_rfl

end

section

variable (flags : Flags)

theorem skip_suffix_closing {r : List Char} (h : r <:+ closing) : flags.skip r = r := by
  unfold Flags.skip
  split
  · rcases eq_of_suffix_closing h with rfl | rfl | rfl <;> decide
  · rfl

/-- Whether a set begins with the sign that negates it. -/
def readNegation (cs : List Char) : Bool × List Char :=
  match cs with
  | '^' :: rest => (true, flags.skip rest)
  | cs => (false, cs)

theorem steady_readNegation : Steady fun cs => some (readNegation flags cs) := by
  refine ((flags.steady_skip.map fun _ => true).peek (x := '^') (by decide)
    (Steady.pure false)).congr fun cs => ?_
  cases cs with
  | nil => rfl
  | cons c rest =>
    by_cases hc : c = '^'
    · subst hc
      rfl
    · simp [readNegation, hc]

/-- A bracket at the start of a set, where no hyphen is. -/
def readFirstBracket (hyphens : List NestedSet) (cs : List Char) : List NestedSet × List Char :=
  match hyphens, cs with
  | [], ']' :: rest => ([⟨[(93, 93)], 0⟩], flags.skip rest)
  | hyphens, cs => (hyphens, cs)

theorem steady_readFirstBracket (hyphens : List NestedSet) :
    Steady fun cs => some (readFirstBracket flags hyphens cs) := by
  cases hyphens with
  | cons s hyphens =>
    exact (Steady.pure (s :: hyphens)).congr fun cs => by simp [readFirstBracket]
  | nil =>
    refine ((flags.steady_skip.map fun _ => ([⟨[(93, 93)], 0⟩] : List NestedSet)).peek (x := ']')
      (by decide) (Steady.pure [])).congr fun cs => ?_
    cases cs with
    | nil => rfl
    | cons c rest =>
      by_cases hc : c = ']'
      · subst hc
        rfl
      · simp [readFirstBracket, hc]

/-- The start of a set: whether it is negated, and what stands for itself there. -/
def readSetStart (fuel : Nat) (cs : List Char) : (Bool × List NestedSet) × List Char :=
  let (negated, cs) := readNegation flags (flags.skip cs)
  let (hyphens, cs) := readHyphens flags fuel cs
  let (sets, cs) := readFirstBracket flags hyphens cs
  ((negated, sets), cs)

/-- A set within a set, behind its opening bracket, and the items behind it. -/
def readInner (fuel : Nat) (pending : Option (NestedSet × SetOperation)) (sets : List NestedSet) :
    Reader NestedSet := fun rest =>
  match readPosix? flags rest with
  | some (some s, rest) => readUnion flags fuel pending (⟨s, 0⟩ :: sets) rest
  | some (none, _) => none
  | none =>
    (readBrackets flags fuel rest).bind fun p => readUnion flags fuel pending (p.1 :: sets) p.2

/-- The items of a set from one that begins with a given character. -/
def readItems (fuel : Nat) (pending : Option (NestedSet × SetOperation)) (sets : List NestedSet)
    (c : Char) : Reader NestedSet := fun rest =>
  if c = '[' then readInner flags fuel pending sets rest
  else if c = ']' then some (joinSet flags pending (unionSets sets), rest)
  else
    match SetOperation.ofSigns? (c :: rest) with
    | some op =>
      readUnion flags fuel (some (joinSet flags pending (unionSets sets), op)) [] rest.tail
    | none =>
      (readSetItem flags (c :: rest)).bind fun p => readUnion flags fuel pending (p.1 :: sets) p.2

theorem readUnion_succ (fuel : Nat) (pending : Option (NestedSet × SetOperation))
    (sets : List NestedSet) (cs : List Char) :
    readUnion flags (fuel + 1) pending sets cs =
      match flags.skip cs with
      | [] => none
      | c :: rest => readItems flags fuel pending sets c rest := by
  rw [readUnion]
  unfold readItems
  cases flags.skip cs with
  | nil => rfl
  | cons c rest =>
    by_cases hopen : c = '['
    · subst hopen
      simp only [if_true]
      rfl
    · by_cases hclose : c = ']'
      · subst hclose
        rfl
      · simp only [if_neg hopen, if_neg hclose]
        split
        · next h => cases h
        · next h =>
          cases h
          exact absurd rfl hopen
        · next h =>
          cases h
          exact absurd rfl hclose
        · rw [← List.drop_one]
          rfl

end

section

variable (flags : Flags) {tail : List Char}

/-- The tail closes no set. -/
theorem readUnion_eq_none {r : List Char} (h : r <:+ closing) (fuel : Nat)
    (pending : Option (NestedSet × SetOperation)) (sets : List NestedSet) :
    readUnion flags fuel pending sets r = none := by
  have item (code : Nat) : itemBehind flags (.letter code false) [] = none := by
    unfold itemBehind
    rw [skip_suffix_closing flags (List.nil_suffix)]
  have anchor (fuel : Nat) (sets : List NestedSet) :
      readUnion flags fuel pending sets ['$'] = none := by
    cases fuel with
    | zero => rfl
    | succ fuel =>
      rw [readUnion_succ, skip_suffix_closing flags (List.suffix_cons ')' ['$'])]
      have hitem : readSetItem flags ['$'] = none := by
        rw [readSetItem_eq]
        exact item 36
      change (readSetItem flags ['$']).bind _ = none
      rw [hitem]
      rfl
  cases fuel with
  | zero => rfl
  | succ fuel =>
    rcases eq_of_suffix_closing h with rfl | rfl | rfl
    · rw [readUnion_succ, skip_suffix_closing flags h]
      change (readSetItem flags closing).bind _ = none
      cases hitem : readSetItem flags closing with
      | none => rfl
      | some p =>
        obtain ⟨s, r⟩ := p
        have hrest : r = ['$'] := by
          rw [readSetItem_eq] at hitem
          have hitem : itemBehind flags (.letter 41 false) ['$'] = some (s, r) := hitem
          unfold itemBehind at hitem
          rw [skip_suffix_closing flags (List.suffix_cons ')' ['$'])] at hitem
          exact eq_of_map_eq_some hitem
        rw [hrest]
        exact anchor fuel (s :: sets)
    · exact anchor (fuel + 1) sets
    · rw [readUnion_succ, skip_suffix_closing flags h]

/-- A set goes on behind what was read of it, and with the tail it does not end. -/
theorem extends_readUnion {α : Type} {cs : List Char} {x y : Option (α × List Char)}
    (h : Extends tail cs x y ∨ DiesOut x y) {fuel fuel' : Nat}
    {pending : Option (NestedSet × SetOperation)} {sets : α → List NestedSet}
    (hrest : ∀ a r, r <:+ cs → Extends tail r (readUnion flags fuel pending (sets a) r)
      (readUnion flags fuel' pending (sets a) (r ++ tail))) :
    Extends tail cs (x.bind fun p => readUnion flags fuel pending (sets p.1) p.2)
      (y.bind fun p => readUnion flags fuel' pending (sets p.1) p.2) := by
  rcases h with h | ⟨rfl, hdies⟩
  · cases h with
    | @same a r h => exact (hrest a r h).mono h
    | hidden h =>
      simp only [Option.bind_some, readUnion_eq_none flags List.nil_suffix]
      exact .refused
    | refused => exact .refused
    | @taken a r _ h =>
      simp only [Option.bind_some, Option.bind_none,
        readUnion_eq_none flags (h.trans (List.suffix_cons ')' ['$']))]
      exact .refused
  · cases y with
    | none => exact .refused
    | some p =>
      simp only [Option.bind_some, Option.bind_none, readUnion_eq_none flags (hdies p.1 p.2 rfl)]
      exact .refused

/-- What becomes of a set: its items are read behind its start, and there is one at least. -/
theorem readBrackets_eq (fuel : Nat) (cs : List Char) :
    readBrackets flags (fuel + 1) cs =
      (readUnion flags fuel none (readSetStart flags fuel cs).1.2.reverse
        (readSetStart flags fuel cs).2).bind fun p =>
          ((flags.finish? (readSetStart flags fuel cs).1.1 p.1.set).map fun set =>
            (⟨set, 1 + p.1.depth⟩ : NestedSet)).map fun s => (s, p.2) := by
  let start := readSetStart flags fuel cs
  have hread : readBrackets flags (fuel + 1) cs =
      if start.2.isEmpty then none
      else
        readUnion flags fuel none start.1.2.reverse start.2 >>= fun p =>
          flags.finish? start.1.1 p.1.set >>= fun set => pure (⟨set, 1 + p.1.depth⟩, p.2) := rfl
  rw [hread]
  split
  · next h =>
    have hunion : readUnion flags fuel none start.1.2.reverse start.2 = none := by
      rw [List.isEmpty_iff.1 h, readUnion_eq_none flags List.nil_suffix]
    change none = (readUnion flags fuel none start.1.2.reverse start.2).bind _
    rw [hunion]
    rfl
  · change _ = (readUnion flags fuel none start.1.2.reverse start.2).bind _
    cases readUnion flags fuel none start.1.2.reverse start.2 with
    | none => rfl
    | some p =>
      simp only [Option.bind_eq_bind, Option.bind_some]
      cases flags.finish? start.1.1 p.1.set <;> rfl

/-- Two operators are signs of their own, and the tail has none of them. -/
theorem ofSigns?_append (htail : IsTail tail) (c : Char) (rest : List Char) :
    SetOperation.ofSigns? (c :: (rest ++ tail)) = SetOperation.ofSigns? (c :: rest) := by
  cases rest with
  | cons d rest =>
    unfold SetOperation.ofSigns?
    split <;> simp_all
  | nil =>
    have single (rest : List Char) (hrest : ∀ d, rest.head? = some d → d = ')') :
        SetOperation.ofSigns? (c :: rest) = none := by
      unfold SetOperation.ofSigns?
      split
      · next h =>
        cases h
        exact absurd (hrest '&' rfl) (by decide)
      · next h =>
        cases h
        exact absurd (hrest '-' rfl) (by decide)
      · next h =>
        cases h
        exact absurd (hrest '~' rfl) (by decide)
      · rfl
    rw [List.nil_append, single [] nofun]
    refine single tail fun d hd => ?_
    rcases htail with rfl | rfl
    · cases hd
    · cases hd
      rfl

theorem ofSigns?_singleton (c : Char) : SetOperation.ofSigns? [c] = none := by
  unfold SetOperation.ofSigns?
  split <;> simp_all

variable (htail : IsTail tail)

include htail

theorem readSetItem_extends_tail (c : Char) (rest : List Char) :
    Extends tail rest (readSetItem flags (c :: rest)) (readSetItem flags (c :: (rest ++ tail))) ∨
      DiesOut (readSetItem flags (c :: rest)) (readSetItem flags (c :: (rest ++ tail))) := by
  have closed := readSetItem_extends flags c rest
  rcases htail with rfl | rfl
  · rw [List.append_nil]
    rcases closed with h | h
    · exact .inl h.alone
    · rw [h.1]
      exact .inl .refused
  · exact closed

/-- No set of POSIX ends in the tail. -/
theorem readPosix?_eq_none {rest : List Char} (h : readPosix? flags rest = none) :
    readPosix? flags (rest ++ tail) = none := by
  have hrest := (steady_readPosix? flags).extends htail rest
  rw [h] at hrest
  cases hx : readPosix? flags (rest ++ tail) with
  | none => rfl
  | some p =>
    obtain ⟨s, r⟩ := p
    rw [hx] at hrest
    cases hrest with
    | taken htail hr =>
      subst htail
      have hbracket := suffix_of_readPosix? flags hx
      -- What is left is shorter than the tail, so the bracket before it would stand in the tail.
      have hlen := hr.length_le
      have hclosing : ']' :: r <:+ closing :=
        List.suffix_of_suffix_length_le hbracket (List.suffix_append rest closing)
          (Nat.succ_le_succ hlen)
      exact absurd (hclosing.mem List.mem_cons_self) (by decide)

theorem readSetStart_extends {fuel fuel' : Nat} {cs : List Char} (hfuel : cs.length < fuel)
    (hfuel' : (cs ++ tail).length < fuel') :
    Extends tail cs (some (readSetStart flags fuel cs)) (some (readSetStart flags fuel' (cs ++ tail))) := by
  have ended (fuel : Nat) : readHyphens flags fuel [] = ([], []) := by cases fuel <;> rfl
  let behind (fuel : Nat) (negated : Bool) (cs : List Char) : (Bool × List NestedSet) × List Char :=
    let x := readHyphens flags fuel cs
    let y := readFirstBracket flags x.1 x.2
    ((negated, y.1), y.2)
  have hbehind (negated : Bool) (r : List Char) (h : r <:+ cs) :
      Extends tail r (some (behind fuel negated r)) (some (behind fuel' negated (r ++ tail))) := by
    have hr := h.length_le
    have hyphens := readHyphens_extends flags htail (lt_of_le_of_lt hr hfuel)
      (lt_of_le_of_lt (by simpa using hr) hfuel')
    let first (hyphens : List NestedSet) (cs : List Char) : (Bool × List NestedSet) × List Char :=
      let x := readFirstBracket flags hyphens cs
      ((negated, x.1), x.2)
    have hfirst (hyphens : List NestedSet) (r : List Char) :
        Extends tail r (some (first hyphens r)) (some (first hyphens (r ++ tail))) :=
      ((steady_readFirstBracket flags hyphens).map fun sets => (negated, sets)).extends htail r
    exact hyphens.andThen (fun hyphens r _ => hfirst hyphens r) fun _ => rfl
  have negation := ((steady_readNegation flags).skip flags).extends htail cs
  exact negation.andThen hbehind fun negated => by simp only [behind, ended]

/-- A set is read the same if its items are. -/
theorem readBrackets_extends {fuel fuel' : Nat} {cs : List Char} (hfuel : cs.length < fuel)
    (hfuel' : (cs ++ tail).length < fuel')
    (union : ∀ sets r, r <:+ cs → Extends tail r (readUnion flags fuel none sets r)
      (readUnion flags fuel' none sets (r ++ tail))) :
    Extends tail cs (readBrackets flags (fuel + 1) cs)
      (readBrackets flags (fuel' + 1) (cs ++ tail)) := by
  rw [readBrackets_eq, readBrackets_eq]
  have hstart := readSetStart_extends flags htail hfuel hfuel'
  generalize readSetStart flags fuel cs = x at hstart ⊢
  generalize readSetStart flags fuel' (cs ++ tail) = y at hstart ⊢
  cases hstart with
  | @same start r h =>
    exact ((union start.2.reverse r h).choose fun s => (flags.finish? start.1 s.set).map fun set =>
      (⟨set, 1 + s.depth⟩ : NestedSet)).mono h
  | hidden h =>
    simp only [readUnion_eq_none flags List.nil_suffix, Option.bind_none]
    exact .refused

section

variable {fuel fuel' : Nat} {rest : List Char}
  (union : ∀ pending sets r, r <:+ rest → Extends tail r (readUnion flags fuel pending sets r)
    (readUnion flags fuel' pending sets (r ++ tail)))
  (brackets : Extends tail rest (readBrackets flags fuel rest)
    (readBrackets flags fuel' (rest ++ tail)))
  (pending : Option (NestedSet × SetOperation)) (sets : List NestedSet)

include union brackets

theorem readInner_extends : Extends tail rest (readInner flags fuel pending sets rest)
    (readInner flags fuel' pending sets (rest ++ tail)) := by
  unfold readInner
  cases hx : readPosix? flags rest with
  | none =>
    rw [readPosix?_eq_none flags htail hx]
    exact extends_readUnion flags (.inl brackets) fun s r hr => union pending (s :: sets) r hr
  | some p =>
    have hposix := (steady_readPosix? flags).extends htail rest
    rw [hx] at hposix
    generalize readPosix? flags (rest ++ tail) = y at hposix ⊢
    cases hposix with
    | @same s r h =>
      cases s with
      | none => exact .refused
      | some s => exact (union pending (⟨s, 0⟩ :: sets) r h).mono h
    | @hidden s h =>
      cases s with
      | none => exact .refused
      | some s =>
        simp only [readUnion_eq_none flags List.nil_suffix]
        exact .refused

theorem readItems_extends (c : Char) : Extends tail rest (readItems flags fuel pending sets c rest)
    (readItems flags fuel' pending sets c (rest ++ tail)) := by
  unfold readItems
  by_cases hopen : c = '['
  · simp only [if_pos hopen]
    exact readInner_extends flags htail union brackets pending sets
  by_cases hclose : c = ']'
  · simp only [if_neg hopen, if_pos hclose]
    exact .same List.suffix_rfl
  simp only [if_neg hopen, if_neg hclose, ofSigns?_append htail]
  cases hsigns : SetOperation.ofSigns? (c :: rest) with
  | none =>
    exact extends_readUnion flags (readSetItem_extends_tail flags htail c rest)
      fun s r hr => union pending (s :: sets) r hr
  | some op =>
    cases rest with
    | nil => exact absurd ((ofSigns?_singleton c).symm.trans hsigns) nofun
    | cons d more =>
      have hmore := List.suffix_cons d more
      exact (union _ [] more hmore).mono hmore

end

/-- Sets and their items are read the same with any tail. Every call takes a character, or is the
call for the items of a set whose bracket was taken, so two units of fuel for a character are
enough. -/
theorem readUnion_extends (fuel : Nat) :
    (∀ {fuel' : Nat} {cs : List Char}, 2 * cs.length + 2 ≤ fuel →
      2 * (cs ++ tail).length + 2 ≤ fuel' →
      Extends tail cs (readBrackets flags fuel cs) (readBrackets flags fuel' (cs ++ tail))) ∧
    ∀ {fuel' : Nat} {cs : List Char} (pending : Option (NestedSet × SetOperation))
      (sets : List NestedSet), 2 * cs.length + 1 ≤ fuel → 2 * (cs ++ tail).length + 1 ≤ fuel' →
      Extends tail cs (readUnion flags fuel pending sets cs)
        (readUnion flags fuel' pending sets (cs ++ tail)) := by
  induction fuel with
  | zero => exact ⟨fun h => by omega, fun _ _ h => by omega⟩
  | succ fuel ih =>
    obtain ⟨brackets, union⟩ := ih
    simp only [List.length_append] at brackets union ⊢
    refine ⟨fun {fuel' cs} hfuel hfuel' => ?_, fun {fuel' cs} pending sets hfuel hfuel' => ?_⟩
    · obtain ⟨fuel', rfl⟩ : ∃ n, fuel' = n + 1 := ⟨fuel' - 1, by omega⟩
      refine readBrackets_extends flags htail (by omega) (by rw [List.length_append]; omega)
        fun sets r hr => ?_
      have hlen := hr.length_le
      exact union none sets (by omega) (by omega)
    · obtain ⟨fuel', rfl⟩ : ∃ n, fuel' = n + 1 := ⟨fuel' - 1, by omega⟩
      have ended : readUnion flags (fuel' + 1) pending sets tail = none :=
        readUnion_eq_none flags htail.suffix_closing _ _ _
      rw [readUnion_succ flags fuel]
      rcases skip_append_tail flags htail cs with h | ⟨h, h', -⟩
      · cases hskip : flags.skip cs with
        | nil =>
          rw [readUnion_succ, skip_suffix_closing flags htail.suffix_closing] at ended
          rw [readUnion_succ, h, hskip, List.nil_append, ended]
          exact .refused
        | cons c rest =>
          have hsuffix : c :: rest <:+ cs := hskip ▸ flags.skip_suffix cs
          have hlen := hsuffix.length_le
          rw [List.length_cons] at hlen
          rw [readUnion_succ, h, hskip]
          refine Extends.mono ?_ ((List.suffix_cons c rest).trans hsuffix)
          refine readItems_extends flags htail (fun pending sets r hr => ?_)
            (brackets (by omega) (by omega)) pending sets c
          have hr := hr.length_le
          exact union pending sets (by omega) (by omega)
      · rw [readUnion_succ, h, h']
        exact .refused

end

end PolicyExpr.Regex
