import Mathlib.Data.List.Infix
import Mathlib.Data.List.TakeWhile
import PolicyExpr.Regex

/-!
# Reading a pattern in a frame

A pattern is read in a frame: in a group, with a closing parenthesis and an anchor behind it. What
each reader makes of a text is compared with what it makes of the text with this tail. Where it reads
something, it reads the same and leaves the tail alone, unless a comment has swallowed the tail. Where
it reads nothing, the tail is of no help, since it closes nothing but the group.
-/
namespace PolicyExpr.Regex

/-- What stands behind a pattern in its frame. -/
def closing : List Char := [')', '$']

theorem eq_of_suffix_anchor {r : List Char} (h : r <:+ ['$']) : r = ['$'] ∨ r = [] := by
  simpa [List.suffix_cons_iff] using h

theorem eq_of_suffix_closing {r : List Char} (h : r <:+ closing) :
    r = closing ∨ r = ['$'] ∨ r = [] := by
  simpa [closing, List.suffix_cons_iff] using h

/-- A reader takes something from the front of a text. -/
abbrev Reader (α : Type) := List Char → Option (α × List Char)

/-- How the reading of a text changes with a tail behind the text. What is read stays, and so does
what is left of the text, with the tail behind it; only a comment hides the tail. What is not read
without the closing of a frame is either not read with it, or takes the parenthesis from it. -/
inductive Extends {α : Type} (tail cs : List Char) :
    Option (α × List Char) → Option (α × List Char) → Prop where
  | same {a : α} {r : List Char} (h : r <:+ cs) : Extends tail cs (some (a, r)) (some (a, r ++ tail))
  | hidden {a : α} (h : '#' ∈ cs) : Extends tail cs (some (a, [])) (some (a, []))
  | refused : Extends tail cs none none
  | taken {a : α} {r : List Char} (htail : tail = closing) (h : r <:+ ['$']) :
    Extends tail cs none (some (a, r))

theorem eq_of_map_eq_some {α β : Type} {x : Option α} {u r : List Char} {g : α → β} {b : β}
    (h : (x.map fun a => (g a, u)) = some (b, r)) : r = u := by
  obtain ⟨a, -, ha⟩ := Option.map_eq_some_iff.1 h
  exact (Prod.mk.inj ha).2.symm

namespace Extends

variable {α β : Type} {tail cs ds : List Char} {x y : Option (α × List Char)}

theorem mono (h : Extends tail cs x y) (hsuffix : cs <:+ ds) : Extends tail ds x y := by
  cases h with
  | same h => exact .same (h.trans hsuffix)
  | hidden h => exact .hidden (hsuffix.mem h)
  | refused => exact .refused
  | taken htail h => exact .taken htail h

theorem map (h : Extends tail cs x y) (g : α → β) :
    Extends tail cs (x.map fun p => (g p.1, p.2)) (y.map fun p => (g p.1, p.2)) := by
  cases h with
  | same h => exact .same h
  | hidden h => exact .hidden h
  | refused => exact .refused
  | taken htail h => exact .taken htail h

/-- What is left is left of the text. -/
theorem suffix {a : α} {r : List Char} (h : Extends tail cs (some (a, r)) y) : r <:+ cs := by
  cases h with
  | same h => exact h
  | hidden h => exact List.nil_suffix

/-- Reading goes on behind what was read, with a reader that takes nothing from nothing. -/
theorem bind {K K' : α → Reader β} (h : Extends tail cs x y)
    (hrest : ∀ a r, r <:+ cs → Extends tail r (K a r) (K' a (r ++ tail)))
    (hend : ∀ a, K a [] = K' a [])
    (hsuffix : tail = closing → ∀ a b r r', r <:+ ['$'] → K' a r = some (b, r') → r' <:+ r) :
    Extends tail cs (x.bind fun p => K p.1 p.2) (y.bind fun p => K' p.1 p.2) := by
  cases h with
  | @same a r h => exact (hrest a r h).mono h
  | @hidden a h =>
    simp only [Option.bind_some, ← hend]
    have hnil := hrest a [] List.nil_suffix
    cases hx : K a [] with
    | none => exact .refused
    | some p =>
      obtain ⟨b, r⟩ := p
      rw [hx] at hnil
      cases List.suffix_nil.1 hnil.suffix
      exact .hidden h
  | refused => exact .refused
  | @taken a r htail h =>
    simp only [Option.bind_some, Option.bind_none]
    cases hx : K' a r with
    | none => exact .refused
    | some p => exact .taken htail ((hsuffix htail a p.1 r p.2 h hx).trans h)

/-- What is read can still be refused. -/
theorem choose (h : Extends tail cs x y) (g : α → Option β) :
    Extends tail cs (x.bind fun p => (g p.1).map fun b => (b, p.2))
      (y.bind fun p => (g p.1).map fun b => (b, p.2)) := by
  let chosen (a : α) (r : List Char) : Option (β × List Char) := (g a).map fun b => (b, r)
  have hrest (a : α) (r : List Char) : Extends tail r (chosen a r) (chosen a (r ++ tail)) := by
    unfold chosen
    cases g a with
    | none => exact .refused
    | some b => exact .same List.suffix_rfl
  refine h.bind (fun a r _ => hrest a r) (fun _ => rfl) fun _ a b r r' _ hr => ?_
  obtain ⟨b, -, hb⟩ := Option.map_eq_some_iff.1 hr
  rw [(Prod.mk.inj hb).2]

/-- What always reads something goes on behind what was read. -/
theorem andThen {p q : α × List Char} {f f' : α → List Char → β × List Char}
    (h : Extends tail cs (some p) (some q))
    (hrest : ∀ a r, r <:+ cs → Extends tail r (some (f a r)) (some (f' a (r ++ tail))))
    (hend : ∀ a, f a [] = f' a []) :
    Extends tail cs (some (f p.1 p.2)) (some (f' q.1 q.2)) := by
  cases h with
  | @same a r h => exact (hrest a r h).mono h
  | @hidden a h =>
    have hnil : (f a []).2 = [] := List.suffix_nil.1 (hrest a [] List.nil_suffix).suffix
    have hpair : f a [] = ((f a []).1, []) := Prod.ext rfl hnil
    simp only [← hend]
    rw [hpair]
    exact .hidden h

end Extends

/-- A reader that keeps to its text when the closing of a frame is put behind it. -/
def Steady {α : Type} (R : Reader α) : Prop := ∀ cs, Extends closing cs (R cs) (R (cs ++ closing))

namespace Steady

variable {α β : Type} {R R' : Reader α}

theorem congr (h : ∀ cs, R' cs = R cs) (hR : Steady R) : Steady R' := by
  intro cs
  rw [h, h]
  exact hR cs

theorem pure (a : α) : Steady fun cs => some (a, cs) := fun _ => .same List.suffix_rfl

theorem none : Steady fun _ => (none : Option (α × List Char)) := fun _ => .refused

theorem map (hR : Steady R) (g : α → β) : Steady fun cs => (R cs).map fun p => (g p.1, p.2) :=
  fun cs => (hR cs).map g

theorem suffix (hR : Steady R) {cs r : List Char} {a : α} (h : R cs = some (a, r)) : r <:+ cs := by
  have hcs := hR cs
  rw [h] at hcs
  exact hcs.suffix

theorem bind {f : α → Reader β} (hR : Steady R) (hf : ∀ a, Steady (f a)) :
    Steady fun cs => R cs >>= fun p => f p.1 p.2 := fun cs =>
  (hR cs).bind (fun a r _ => hf a r) (fun _ => rfl) fun _ a _ _ _ _ h => (hf a).suffix h

/-- Whoever takes a character takes the parenthesis at the end. -/
theorem uncons {f : Char → Reader β} (hf : ∀ c, Steady (f c)) :
    Steady fun cs => match cs with
      | [] => Option.none
      | c :: rest => f c rest := by
  intro cs
  cases cs with
  | cons c rest => exact (hf c rest).mono (List.suffix_cons c rest)
  | nil =>
    change Extends closing [] Option.none (f ')' ['$'])
    cases hx : f ')' ['$'] with
    | none => exact .refused
    | some p => exact .taken rfl ((hf ')').suffix hx)

/-- The tail begins with a parenthesis, so what else begins a text is seen without it. -/
theorem peek {x : Char} (hx : x ≠ ')') (hR : Steady R) (hR' : Steady R') :
    Steady fun cs => if cs.head? = some x then R cs.tail else R' cs := by
  intro cs
  cases cs with
  | nil =>
    have hclosing : closing.head? ≠ some x := by simpa [closing] using hx.symm
    simp only [List.nil_append, if_neg hclosing]
    exact hR' []
  | cons c rest =>
    simp only [List.cons_append, List.head?_cons, List.tail_cons, Option.some_inj]
    by_cases hc : c = x
    · simp only [if_pos hc]
      exact (hR rest).mono (List.suffix_cons c rest)
    · simp only [if_neg hc]
      exact hR' (c :: rest)

theorem ite {p : Prop} [Decidable p] (h : p → Steady R) (h' : ¬p → Steady R') :
    Steady fun cs => if p then R cs else R' cs := by
  intro cs
  dsimp only
  split
  · next hp => exact h hp cs
  · next hp => exact h' hp cs

end Steady

/-- The tail does not have a sign that is looked for. -/
theorem span_append (sign : Char) (hsign : sign ∉ closing) (cs : List Char) :
    (∃ front r, r ≠ [] ∧ r <:+ cs ∧ cs.span (· != sign) = (front, r) ∧
      (cs ++ closing).span (· != sign) = (front, r ++ closing)) ∨
    (∃ front front', cs.span (· != sign) = (front, []) ∧
      (cs ++ closing).span (· != sign) = (front', [])) := by
  simp only [List.span_eq_takeWhile_dropWhile]
  induction cs with
  | nil =>
    have hdrop : closing.dropWhile (· != sign) = [] :=
      List.dropWhile_eq_nil_iff.2 fun c hc => bne_iff_ne.2 fun (h : c = sign) => hsign (h ▸ hc)
    exact .inr ⟨[], closing.takeWhile (· != sign), rfl, by rw [List.nil_append, hdrop]⟩
  | cons c rest ih =>
    by_cases hc : c = sign
    · exact .inl ⟨[], c :: rest, List.cons_ne_nil c rest, List.suffix_rfl, by simp [hc], by simp [hc]⟩
    · have hne : (c != sign) = true := by simpa using hc
      simp only [List.cons_append, List.takeWhile_cons, List.dropWhile_cons, hne, if_true,
        Prod.mk.injEq]
      rcases ih with ⟨front, r, hr, hsuffix, h, h'⟩ | ⟨front, front', h, h'⟩
      · rw [Prod.mk.injEq] at h h'
        exact .inl ⟨c :: front, r, hr, hsuffix.trans (List.suffix_cons c rest), ⟨by rw [h.1], h.2⟩,
          by rw [h'.1], h'.2⟩
      · rw [Prod.mk.injEq] at h h'
        exact .inr ⟨c :: front, c :: front', ⟨by rw [h.1], h.2⟩, by rw [h'.1], h'.2⟩

/-- The tails of interest: the closing of a frame, and none at all, with which nothing changes but the
fuel of the reader. -/
def IsTail (tail : List Char) : Prop := tail = [] ∨ tail = closing

theorem IsTail.suffix_closing {tail : List Char} (h : IsTail tail) : tail <:+ closing := by
  rcases h with rfl | rfl
  · exact List.nil_suffix
  · exact List.suffix_rfl

theorem Extends.alone {α : Type} {cs : List Char} {x y : Option (α × List Char)}
    (h : Extends closing cs x y) : Extends [] cs x x := by
  cases h with
  | @same a r h =>
    have hsame : Extends [] cs (some (a, r)) (some (a, r ++ [])) := .same h
    simpa using hsame
  | hidden h => exact .hidden h
  | refused => exact .refused
  | taken => exact .refused

theorem Steady.extends {α : Type} {R : Reader α} (hR : Steady R) {tail : List Char}
    (htail : IsTail tail) (cs : List Char) : Extends tail cs (R cs) (R (cs ++ tail)) := by
  rcases htail with rfl | rfl
  · rw [List.append_nil]
    exact (hR cs).alone
  · exact hR cs

/-! ## Blanks and comments -/

theorem skipSpaced_suffix (inComment : Bool) (cs : List Char) :
    skipSpaced inComment cs <:+ cs := by
  induction cs generalizing inComment with
  | nil => exact List.suffix_rfl
  | cons c rest ih =>
    have later (b : Bool) : skipSpaced b rest <:+ c :: rest :=
      (ih b).trans (List.suffix_cons c rest)
    unfold skipSpaced
    split
    · exact later _
    · split
      · exact later _
      · split
        · exact later _
        · exact List.suffix_rfl

theorem skipSpaced_closing : skipSpaced false closing = closing := by decide

/-- A comment that is open at the end of the text swallows what is behind it. -/
theorem skipSpaced_append (inComment : Bool) (cs : List Char) :
    skipSpaced inComment (cs ++ closing) = skipSpaced inComment cs ++ closing ∨
      skipSpaced inComment cs = [] ∧ skipSpaced inComment (cs ++ closing) = [] ∧
        (inComment = true ∨ '#' ∈ cs) := by
  induction cs generalizing inComment with
  | nil =>
    cases inComment with
    | true => exact .inr ⟨rfl, by decide, .inl rfl⟩
    | false => exact .inl skipSpaced_closing
  | cons c rest ih =>
    simp only [List.cons_append, skipSpaced, List.mem_cons]
    have later (b : Bool) (hsign : b = true ∨ '#' ∈ rest → inComment = true ∨ '#' = c ∨ '#' ∈ rest) :
        skipSpaced b (rest ++ closing) = skipSpaced b rest ++ closing ∨
          skipSpaced b rest = [] ∧ skipSpaced b (rest ++ closing) = [] ∧
            (inComment = true ∨ '#' = c ∨ '#' ∈ rest) :=
      (ih b).imp_right fun h => ⟨h.1, h.2.1, hsign h.2.2⟩
    split
    · next hcomment => exact later _ fun _ => .inl hcomment
    · split
      · exact later false fun h => .inr (.inr (h.resolve_left Bool.false_ne_true))
      · split
        · next hc => exact later true fun _ => .inr (.inl hc.symm)
        · exact .inl rfl

namespace Flags

variable (flags : Flags)

theorem skip_suffix (cs : List Char) : flags.skip cs <:+ cs := by
  unfold skip
  split
  · exact skipSpaced_suffix false cs
  · exact List.suffix_rfl

theorem skip_append (cs : List Char) :
    flags.skip (cs ++ closing) = flags.skip cs ++ closing ∨
      flags.skip cs = [] ∧ flags.skip (cs ++ closing) = [] ∧ '#' ∈ cs := by
  unfold skip
  split
  · exact (skipSpaced_append false cs).imp_right fun ⟨h, h', hsign⟩ =>
      ⟨h, h', hsign.resolve_left nofun⟩
  · exact .inl rfl

theorem steady_skip : Steady fun cs => some ((), flags.skip cs) := by
  intro cs
  rcases flags.skip_append cs with h | ⟨h, h', hsign⟩
  · simp only [h]
    exact .same (flags.skip_suffix cs)
  · simp only [h, h']
    exact .hidden hsign

end Flags

section

variable (flags : Flags) {tail : List Char} (htail : IsTail tail)

include htail

theorem skip_append_tail (cs : List Char) :
    flags.skip (cs ++ tail) = flags.skip cs ++ tail ∨
      flags.skip cs = [] ∧ flags.skip (cs ++ tail) = [] ∧ '#' ∈ cs := by
  rcases htail with rfl | rfl
  · simp
  · exact flags.skip_append cs

end

/-- A reader behind what does not count. -/
theorem Steady.skip {α : Type} {R : Reader α} (hR : Steady R) (flags : Flags) :
    Steady fun cs => R (flags.skip cs) :=
  flags.steady_skip.bind fun _ => hR

/-! ## Escapes -/

section

variable (flags : Flags)

theorem steady_takeCounted (count : Nat) : Steady (takeCounted flags count) := by
  induction count with
  | zero => exact (Steady.pure []).congr fun _ => rfl
  | succ count ih =>
    refine (Steady.uncons fun c => (ih.skip flags).map (c :: ·)).congr fun cs => ?_
    cases cs <;> rfl

/-- Without a closing brace there is nothing in braces. -/
theorem takeBraced_eq_none {fuel : Nat} {cs : List Char} (h : '\x7d' ∉ cs) :
    takeBraced flags fuel cs = none := by
  induction fuel generalizing cs with
  | zero => rfl
  | succ fuel ih =>
    cases cs with
    | nil => rfl
    | cons c rest =>
      have hc : c ≠ '\x7d' := fun hc => h (hc ▸ List.mem_cons_self)
      have hrest : '\x7d' ∉ flags.skip rest := fun hmem =>
        h (List.mem_cons_of_mem c ((flags.skip_suffix rest).mem hmem))
      rw [takeBraced, if_neg hc, ih hrest]
      rfl

/-- What stands in braces, however long it is. -/
def braced : Reader (List Char) := fun cs => takeBraced flags (cs.length + 1) cs

/-- More fuel than characters is of no use. -/
theorem takeBraced_eq {fuel : Nat} {cs : List Char} (h : cs.length < fuel) :
    takeBraced flags fuel cs = braced flags cs := by
  unfold braced
  generalize hn : cs.length + 1 = n
  have hle : cs.length < n := by omega
  clear hn
  induction fuel generalizing cs n with
  | zero => omega
  | succ fuel ih =>
    obtain ⟨n, rfl⟩ : ∃ m, n = m + 1 := ⟨n - 1, by omega⟩
    cases cs with
    | nil => rfl
    | cons c rest =>
      have hskip := (flags.skip_suffix rest).length_le
      simp only [List.length_cons] at h hle
      rw [takeBraced, takeBraced, ih (by omega) n (by omega)]

theorem braced_cons (c : Char) (rest : List Char) :
    braced flags (c :: rest) =
      if c = '\x7d' then some ([], rest)
      else (braced flags (flags.skip rest)).map fun p => (c :: p.1, p.2) := by
  have hskip := (flags.skip_suffix rest).length_le
  rw [braced, List.length_cons, takeBraced, takeBraced_eq flags (by omega)]

theorem steady_braced : Steady (braced flags) := by
  intro cs
  generalize hn : cs.length = n
  induction n using Nat.strong_induction_on generalizing cs with
  | h n ih =>
    cases cs with
    | nil =>
      have hnone : braced flags closing = none := takeBraced_eq_none flags (by decide)
      rw [List.nil_append, hnone]
      exact .refused
    | cons c rest =>
      have hskip := (flags.skip_suffix rest).length_le
      rw [List.length_cons] at hn
      rw [List.cons_append, braced_cons, braced_cons]
      split
      · exact .same (List.suffix_cons c rest)
      · refine Extends.map ?_ (c :: ·)
        rcases flags.skip_append rest with h | ⟨h, h', hsign⟩
        · rw [h]
          have hrest := (flags.skip_suffix rest).trans (List.suffix_cons c rest)
          exact (ih _ (by omega) (flags.skip rest) rfl).mono hrest
        · rw [h, h']
          exact .refused

end

namespace Steady

variable {α β : Type} {R : Reader α}

theorem andSkip (hR : Steady R) (flags : Flags) :
    Steady fun cs => (R cs).map fun p => (p.1, flags.skip p.2) := by
  refine (hR.bind fun a => flags.steady_skip.map fun _ => a).congr fun cs => ?_
  cases R cs <;> rfl

theorem choose (hR : Steady R) (g : α → Option β) :
    Steady fun cs => (R cs).bind fun p => (g p.1).map fun b => (b, p.2) :=
  fun cs => (hR cs).choose g

end Steady

section

variable (flags : Flags)

/-- The code point of some digits. -/
def hexCode? (digits : List Char) : Option Nat :=
  if digits.isEmpty then none else (hexValue? digits).bind scalar?

theorem steady_readHex (letter : Char) : Steady (readHex flags letter) := by
  let count := if letter = 'x' then 1 else if letter = 'u' then 3 else 7
  have braces := (((steady_braced flags).skip flags).andSkip flags).choose fun digits =>
    (hexCode? digits).map (Primitive.letter · false)
  have counted (c : Char) := (((steady_takeCounted flags count).skip flags).map (c :: ·)).choose
    fun digits => (hexCode? digits).map (Primitive.letter · (letter = 'x'))
  refine (Steady.skip (Steady.uncons fun c => Steady.ite (p := c = '\x7b')
    (fun _ => braces) fun _ => counted c) flags).congr fun cs => ?_
  have hlen := (flags.skip_suffix cs).length_le
  unfold readHex
  split
  · next h => simp only [h]
  · next rest h =>
    have hrest := (flags.skip_suffix rest).length_le
    rw [h, List.length_cons] at hlen
    have hbraced : takeBraced flags (cs.length + 1) (flags.skip rest) =
        braced flags (flags.skip rest) := takeBraced_eq flags (by omega)
    simp only [h, if_true, hbraced]
    cases braced flags (flags.skip rest) with
    | none => rfl
    | some p =>
      obtain ⟨digits, rest⟩ := p
      simp only [Option.map_some, Option.bind_some, hexCode?, Option.bind_eq_bind]
      cases digits.isEmpty
      · cases (hexValue? digits).bind scalar? <;> rfl
      · rfl
  · next rest hnil hbrace =>
    cases hskip : flags.skip cs with
    | nil => exact absurd hskip hnil
    | cons c rest =>
      have hc : c ≠ '\x7b' := fun hc => hbrace rest (by rw [hskip, hc])
      have hcount : (if letter = 'x' then 2 else if letter = 'u' then 4 else 8) = count + 1 := by
        simp only [count]
        split_ifs <;> rfl
      simp only [if_neg hc, hcount, takeCounted]
      cases takeCounted flags count (flags.skip rest) with
      | none => rfl
      | some p =>
        obtain ⟨digits, rest⟩ := p
        simp only [Option.map_some, Option.bind_some, hexCode?, Option.bind_eq_bind]
        cases (hexValue? (c :: digits)).bind scalar? <;> rfl

end

section

variable (flags : Flags)

theorem steady_readProperty (negated : Bool) : Steady (readProperty flags negated) := by
  let set? (name : List Char) : Option Primitive :=
    if !flags.unicode then none
    else (namedSet? name).bind fun s => (flags.finish? (negated != s.2) s.1).map Primitive.set
  have one (c : Char) := flags.steady_skip.map fun _ => [c]
  refine ((Steady.skip (Steady.uncons fun c => Steady.ite (p := c = '\\') (fun _ => Steady.none)
    fun _ => Steady.ite (p := c = '\x7b') (fun _ => (steady_braced flags).skip flags)
      fun _ => one c) flags).choose set?).congr fun cs => ?_
  have hlen := (flags.skip_suffix cs).length_le
  have named (name rest : List Char) : (do
      if !flags.unicode then none
      let s ← namedSet? name
      let set ← flags.finish? (negated != s.2) s.1
      return (Primitive.set set, rest)) = (set? name).map fun b => (b, rest) := by
    simp only [set?]
    cases flags.unicode
    · rfl
    · cases namedSet? name with
      | none => rfl
      | some s =>
        obtain ⟨set, unequal⟩ := s
        change (flags.finish? (negated != unequal) set >>= fun set => _) =
          ((flags.finish? (negated != unequal) set).map Primitive.set).map _
        cases flags.finish? (negated != unequal) set <;> rfl
  unfold readProperty
  cases hskip : flags.skip cs with
  | nil => rfl
  | cons c rest =>
    have hrest := (flags.skip_suffix rest).length_le
    rw [hskip, List.length_cons] at hlen
    have hbraced : takeBraced flags (cs.length + 1) (flags.skip rest) =
        braced flags (flags.skip rest) := takeBraced_eq flags (by omega)
    by_cases hslash : c = '\\'
    · subst hslash
      rfl
    · by_cases hbrace : c = '\x7b'
      · subst hbrace
        simp only [hbraced, if_neg hslash, if_true]
        cases braced flags (flags.skip rest) with
        | none => rfl
        | some p => exact named p.1 p.2
      · simp only [if_neg hslash, if_neg hbrace]
        exact named [c] (flags.skip rest)

/-- The kind of border that a name stands for. -/
def namedBorder? (name : List Char) : Option Primitive :=
  match String.ofList name with
  | "start" => some (.look (.wordStart flags.unicode))
  | "end" => some (.look (.wordEnd flags.unicode))
  | "start-half" => some (.look (.openLeft flags.unicode))
  | "end-half" => some (.look (.openRight flags.unicode))
  | _ => none

/-- Behind a border stands a brace with nothing in it but what does not count: a text that is no
pattern, and that is none with more behind it either. -/
def OpensBrace (cs : List Char) : Prop := ∃ rest, cs = '\x7b' :: rest ∧ flags.skip rest = []

theorem readBorder_brace (rest : List Char) : readBorder flags ('\x7b' :: rest) =
    match flags.skip rest with
    | [] => none
    | c :: more =>
      if c.isAlpha || c == '-' then
        (braced flags (c :: more)).bind fun p => (namedBorder? flags p.1).map fun b => (b, p.2)
      else some (.look (.border flags.unicode), '\x7b' :: rest) := by
  have hlen := (flags.skip_suffix rest).length_le
  unfold readBorder
  cases hskip : flags.skip rest with
  | nil => simp only [hskip]
  | cons c more =>
    rw [hskip] at hlen
    have hbraced : takeBraced flags (('\x7b' :: rest).length + 1) (c :: more) =
        braced flags (c :: more) := takeBraced_eq flags (by simp only [List.length_cons] at *; omega)
    simp only [hskip, hbraced]
    cases c.isAlpha || c == '-'
    · rfl
    · cases braced flags (c :: more) with
      | none => rfl
      | some p =>
        simp only [namedBorder?, Option.bind_some, Bool.not_true, Bool.false_eq_true, if_false,
          if_true]
        generalize String.ofList p.1 = name
        split <;> simp_all

theorem readBorder_extends (cs : List Char) :
    Extends closing cs (readBorder flags cs) (readBorder flags (cs ++ closing)) ∨
      OpensBrace flags cs ∧ readBorder flags cs = none ∧
        readBorder flags (cs ++ closing) = some (.look (.border flags.unicode), cs ++ closing) := by
  have other {cs : List Char} (h : cs.head? ≠ some '\x7b') :
      readBorder flags cs = some (.look (.border flags.unicode), cs) := by
    unfold readBorder
    split
    · exact absurd rfl h
    · rfl
  cases cs with
  | nil => exact .inl (.same List.suffix_rfl)
  | cons c rest =>
    by_cases hc : c = '\x7b'
    · subst hc
      rw [List.cons_append, readBorder_brace, readBorder_brace]
      rcases flags.skip_append rest with h | ⟨h, h', -⟩
      · rw [h]
        cases hskip : flags.skip rest with
        | nil => exact .inr ⟨⟨rest, rfl, hskip⟩, rfl, rfl⟩
        | cons d more =>
          left
          simp only [List.cons_append]
          split
          · have hmore : d :: more <:+ '\x7b' :: rest :=
              hskip ▸ (flags.skip_suffix rest).trans (List.suffix_cons _ rest)
            exact ((steady_braced flags).choose (namedBorder? flags) (d :: more)).mono hmore
          · exact .same List.suffix_rfl
      · rw [h, h']
        exact .inl .refused
    · left
      rw [List.cons_append, other (by simpa using hc), other (by simpa using hc)]
      exact .same List.suffix_rfl

end

section

variable (flags : Flags)

/-- Behind every letter but one a backslash is followed by something complete. -/
theorem steady_escape {c : Char} (hc : c ≠ 'b') : Steady fun rest => readEscape flags (c :: rest) := by
  have one (p : Primitive) : Steady fun rest => some (p, rest) := Steady.pure p
  have set (s : Option CharSet) : Steady fun rest => s.map fun s => (Primitive.set s, rest) := by
    cases s with
    | none => exact Steady.none
    | some s => exact Steady.pure (Primitive.set s)
  by_cases hplain : isPlainEscape c = true
  · exact (one (.letter c.toNat false)).congr fun rest => by simp only [readEscape, if_pos hplain]
  · have letters : Steady fun rest =>
        if ['d', 'D', 's', 'S', 'w', 'W'].contains c then
          (letterSet? flags c).map fun s => (Primitive.set s, rest)
        else none := Steady.ite (fun _ => set _) fun _ => Steady.none
    intro rest
    simp only [readEscape, if_neg hplain]
    split
    · exact steady_readHex flags 'x' rest
    · exact steady_readHex flags 'u' rest
    · exact steady_readHex flags 'U' rest
    · exact steady_readProperty flags false rest
    · exact steady_readProperty flags true rest
    · exact one _ rest
    · exact one _ rest
    · exact one _ rest
    · exact one _ rest
    · exact one _ rest
    · exact one _ rest
    · exact one _ rest
    · exact one _ rest
    · exact absurd rfl hc
    · exact one _ rest
    · exact one _ rest
    · exact one _ rest
    · exact letters rest

theorem readEscape_extends (cs : List Char) :
    Extends closing cs (readEscape flags cs) (readEscape flags (cs ++ closing)) ∨
      ∃ rest, cs = 'b' :: rest ∧ OpensBrace flags rest ∧ readEscape flags cs = none ∧
        readEscape flags (cs ++ closing) = some (.look (.border flags.unicode), rest ++ closing) := by
  cases cs with
  | nil =>
    left
    have htail : readEscape flags closing = some (.letter 41 false, ['$']) := rfl
    rw [List.nil_append, htail]
    exact .taken rfl List.suffix_rfl
  | cons c rest =>
    by_cases hc : c = 'b'
    · subst hc
      have hborder (cs : List Char) : readEscape flags ('b' :: cs) = readBorder flags cs := rfl
      rw [List.cons_append, hborder, hborder]
      rcases readBorder_extends flags rest with h | ⟨hbrace, h, h'⟩
      · exact .inl (h.mono (List.suffix_cons 'b' rest))
      · exact .inr ⟨rest, rfl, hbrace, h, h'⟩
    · exact .inl ((steady_escape flags hc rest).mono (List.suffix_cons c rest))

end

end PolicyExpr.Regex
