import PolicyExpr.Proofs.Adequacy
import PolicyExpr.Proofs.FramedPatterns
import PolicyExpr.Proofs.Matching

/-!
# Matching whole texts

A pattern is put as a text between anchors, in a group of its own. Where the text is a pattern, the
whole is this pattern between anchors, which matches whole texts only, unless a comment at its end
swallows the closing of the group. Where the text is none, the whole is none either, unless the text
closes the group itself.
-/
namespace PolicyExpr.Regex

/-! ## Texts as patterns -/

/-- What is read of a text: a pattern, and what stands behind it. -/
def readText (text : String) : Option (Item × List String × List Char) :=
  readPattern (2 * text.length + 2) .initial [] [] [] text.toList

/-- The pattern that a text is, where it is one to its end. -/
def item? (text : String) : Option Item :=
  match readText text with
  | some (item, _, []) => some item
  | _ => none

/-- Whether a text has a closing parenthesis beyond its groups, with which it would close a group
around it. -/
def closesFrame (text : String) : Bool :=
  match readText text with
  | some (_, _, ')' :: _) => true
  | _ => false

/-- Whether a text has an open comment at its end, which would hide the closing of a group around
it. -/
def hidesFrame (text : String) : Bool := (item? (text ++ ")$")).isSome

theorem ofText_eq (text : String) : ofText text =
    match item? text with
    | some item =>
      if maxDepth < item.depth then .error .malformed
      else
        match Layout.ofPattern? item.pattern with
        | some _ => .ok ⟨item.pattern⟩
        | none => .error .tooLarge
    | none => .error .malformed := by
  unfold ofText item? readText
  cases readPattern (2 * text.length + 2) .initial [] [] [] text.toList with
  | none => rfl
  | some p =>
    obtain ⟨item, names, rest⟩ := p
    cases rest <;> rfl

/-- The state of the reader at the start of a text. -/
def Reading.start : Reading := ⟨.initial, [], [], []⟩

/-- The reader stops at the end of the text or at a closing parenthesis. -/
theorem rest_of_readOn {fuel : Nat} {s : Reading} {cs r : List Char} {a : Item × List String}
    (h : readOn fuel s cs = some (a, r)) : r = [] ∨ ∃ rest, r = ')' :: rest := by
  induction fuel generalizing s cs with
  | zero => cases h
  | succ fuel ih =>
    rw [readOn_succ] at h
    split at h
    · cases h
      exact .inl rfl
    · next c rest _ =>
      split at h
      · next hclose =>
        cases h
        exact .inr ⟨rest, by rw [hclose]⟩
      · obtain ⟨p, -, hp⟩ := Option.bind_eq_some_iff.1 h
        exact ih hp

section

variable {text : String}

theorem readOn_of_item? {item : Item} (h : item? text = some item) :
    ∃ names, readOn (2 * text.length + 2) .start text.toList = some ((item, names), []) := by
  unfold item? at h
  split at h
  · next names hread =>
    cases h
    refine ⟨names, ?_⟩
    unfold readOn
    exact congrArg (Option.map _) hread
  · cases h

theorem item?_of_readOn {item : Item} {names : List String}
    (h : readOn (2 * text.length + 2) .start text.toList = some ((item, names), [])) :
    item? text = some item := by
  unfold readOn at h
  obtain ⟨⟨item', names', r⟩, hread, hp⟩ := Option.map_eq_some_iff.1 h
  have hread : readText text = some (item', names', r) := hread
  cases hp
  simp only [item?, hread]

theorem item?_eq_none {a : Item × List String} {rest : List Char}
    (h : readOn (2 * text.length + 2) .start text.toList = some (a, ')' :: rest)) :
    item? text = none := by
  cases hitem : item? text with
  | none => rfl
  | some item =>
    obtain ⟨names, hread⟩ := readOn_of_item? hitem
    rw [h] at hread
    cases hread

/-- A text that is no pattern and does not close a group around it is refused before its end. -/
theorem readOn_eq_none (hitem : item? text = none) (hstray : closesFrame text = false) :
    readOn (2 * text.length + 2) .start text.toList = none := by
  cases hread : readOn (2 * text.length + 2) .start text.toList with
  | none => rfl
  | some p =>
    obtain ⟨⟨item, names⟩, r⟩ := p
    rcases rest_of_readOn hread with rfl | ⟨rest, rfl⟩
    · rw [item?_of_readOn hread] at hitem
      cases hitem
    · unfold readOn at hread
      obtain ⟨⟨item', names', r⟩, hpattern, hp⟩ := Option.map_eq_some_iff.1 hread
      have hpattern : readText text = some (item', names', r) := hpattern
      cases hp
      simp [closesFrame, hpattern] at hstray

/-- Only a text with a closing parenthesis in it closes its frame. -/
theorem parenthesis_of_closesFrame (h : closesFrame text = true) : ')' ∈ text.toList := by
  unfold closesFrame at h
  split at h
  · next item names rest hread =>
    have hread : readOn (2 * text.length + 2) .start text.toList =
      some ((item, names), ')' :: rest) := congrArg (Option.map _) hread
    have hlength : text.toList.length = text.length := String.length_toList
    exact (keeps_of_fuel _ (by omega) hread).mem List.mem_cons_self
  · cases h

/-! ## Texts in a frame -/

/-- An item in a group between anchors. -/
def Item.enclosed (item : Item) : Item := ⟨item.pattern.enclosed, 2 + item.depth, false⟩

/-- The text of a pattern in a group between anchors. -/
def framed (text : String) : String := "^(?:" ++ text ++ ")$"

theorem readOn_frame (fuel : Nat) (cs : List Char) :
    readOn (fuel + 2) .start ('^' :: '(' :: '?' :: ':' :: cs) =
      ((readOn fuel .start cs).bind fun p =>
        closeGroup (Reading.start.push (.ofLook .textStart)) false p.1 p.2).bind fun p =>
          readOn fuel p.1 p.2 := by
  have hskip (cs : List Char) : Flags.initial.skip cs = cs := rfl
  rw [readOn_succ]
  change readOn (fuel + 1) (Reading.start.push (.ofLook .textStart)) ('(' :: '?' :: ':' :: cs) = _
  rw [readOn_succ]
  rfl

theorem readOn_framed {fuel : Nat} (hfuel : 2 ≤ fuel) {cs : List Char} {body : Item × List String}
    (h : readOn fuel .start cs = some (body, closing)) :
    readOn (fuel + 2) .start ('^' :: '(' :: '?' :: ':' :: cs) =
      some ((body.1.enclosed, body.2), []) := by
  obtain ⟨fuel, rfl⟩ : ∃ n, fuel = n + 2 := ⟨fuel - 2, by omega⟩
  let items := [Item.ofLook .textEnd, body.1.group false, Item.ofLook .textStart]
  have hend : readOn (fuel + 2) ⟨.initial, body.2, [], items.tail⟩ ['$'] =
    some ((Item.sequence items, body.2), []) := rfl
  have hitem : Item.sequence items = body.1.enclosed := by
    have hdepth : 1 + max (max (max 0 0) (1 + body.1.depth)) 0 = 2 + body.1.depth := by omega
    exact congrArg (Item.mk body.1.pattern.enclosed · false) hdepth
  rw [readOn_frame, h, ← hitem]
  exact hend

theorem readOn_framed_eq_none {fuel : Nat} {cs : List Char}
    (h : ∀ a r, readOn fuel .start cs = some (a, r) → r.head? ≠ some ')') :
    readOn (fuel + 2) .start ('^' :: '(' :: '?' :: ':' :: cs) = none := by
  rw [readOn_frame]
  cases hread : readOn fuel .start cs with
  | none => rfl
  | some p =>
    have hclose : closeGroup (Reading.start.push (.ofLook .textStart)) false p.1 p.2 = none := by
      unfold closeGroup
      split
      · next heq => exact absurd (by rw [heq]; rfl) (h p.1 p.2 hread)
      · rfl
    simp only [Option.bind_some, hclose, Option.bind_none]

theorem item?_eq_none_of_readOn (h : readOn (2 * text.length + 2) .start text.toList = none) :
    item? text = none := by
  cases hitem : item? text with
  | none => rfl
  | some item =>
    obtain ⟨names, hread⟩ := readOn_of_item? hitem
    rw [h] at hread
    cases hread

/-- The reader at the start of the group in a frame. -/
def readInFrame (text : String) : Option ((Item × List String) × List Char) :=
  readOn (2 * text.length + 12) .start (text.toList ++ closing)

theorem extends_readInFrame (text : String) :
    Extends closing text.toList (readOn (2 * text.length + 2) .start text.toList)
      (readInFrame text) := by
  have hlength : text.toList.length = text.length := String.length_toList
  have hclosing : closing.length = 2 := rfl
  exact readOn_closing (by omega) (by rw [List.length_append]; omega)

theorem readOn_append_closing (text : String) :
    readOn (2 * (text ++ ")$").length + 2) .start (text ++ ")$").toList = readInFrame text := by
  have hlist : (text ++ ")$").toList = text.toList ++ closing := String.toList_append
  have hlength : (text ++ ")$").length = text.length + 2 := String.length_append text ")$"
  have hshort : (text.toList ++ closing).length = text.length + 2 := by
    rw [← hlist, String.length_toList, hlength]
  rw [hlist]
  exact readOn_fuel (by omega) (by omega)

theorem readOn_text_framed (text : String) :
    readOn (2 * (framed text).length + 2) .start (framed text).toList =
      readOn (2 * text.length + 12 + 2) .start
        ('^' :: '(' :: '?' :: ':' :: (text.toList ++ closing)) := by
  have hlist : (framed text).toList = '^' :: '(' :: '?' :: ':' :: (text.toList ++ closing) := by
    simp [framed, closing]
  have hlength : (framed text).length = text.length + 6 := by
    rw [← String.length_toList, hlist]
    simp [closing, String.length_toList]
  rw [hlist, hlength]
  rfl

/-- A pattern in a frame is a pattern between anchors, unless it hides the frame. -/
theorem item?_framed {item : Item} (h : item? text = some item) :
    item? (framed text) = if hidesFrame text then none else some item.enclosed := by
  obtain ⟨names, hread⟩ := readOn_of_item? h
  have hframe := extends_readInFrame text
  have happend := readOn_append_closing text
  rw [hread] at hframe
  have hframed := readOn_text_framed text
  generalize hy : readInFrame text = y at hframe happend
  cases hframe with
  | same =>
    have hvisible : hidesFrame text = false := by
      unfold hidesFrame
      rw [item?_eq_none happend]
      rfl
    rw [readOn_framed (by omega) hy] at hframed
    rw [item?_of_readOn hframed, hvisible]
    rfl
  | hidden =>
    have hhidden : hidesFrame text = true := by
      unfold hidesFrame
      rw [item?_of_readOn happend]
      rfl
    have hnone : ∀ a r, readInFrame text = some (a, r) → r.head? ≠ some ')' := by
      intro a r hr
      rw [hy] at hr
      cases hr
      nofun
    rw [readOn_framed_eq_none hnone] at hframed
    rw [item?_eq_none_of_readOn hframed, hhidden]
    rfl

/-- What is no pattern is none in a frame, unless it closes the frame. -/
theorem item?_framed_eq_none (h : item? text = none) (hstray : closesFrame text = false) :
    item? (framed text) = none := by
  have hframe := extends_readInFrame text
  rw [readOn_eq_none h hstray] at hframe
  have hnone : ∀ a r, readInFrame text = some (a, r) → r.head? ≠ some ')' := by
    intro a r hr
    rw [hr] at hframe
    cases hframe with
    | taken _ hsuffix =>
      rcases eq_of_suffix_anchor hsuffix with rfl | rfl <;> decide
  have hframed := readOn_text_framed text
  rw [readOn_framed_eq_none hnone] at hframed
  exact item?_eq_none_of_readOn hframed

/-- Only a pattern with a sign of comments in it hides its frame. -/
theorem sign_of_hidesFrame {item : Item} (h : item? text = some item)
    (hhides : hidesFrame text = true) : '#' ∈ text.toList := by
  obtain ⟨names, hread⟩ := readOn_of_item? h
  have hframe := extends_readInFrame text
  have happend := readOn_append_closing text
  rw [hread] at hframe
  generalize readInFrame text = y at hframe happend
  cases hframe with
  | same =>
    unfold hidesFrame at hhides
    rw [item?_eq_none happend] at hhides
    cases hhides
  | hidden hsign => exact hsign

end

end PolicyExpr.Regex

namespace PolicyExpr.Operator

open Regex

/-! ## Matching -/

variable {p : String}

/-- A text that is a pattern is, between anchors, this pattern between anchors. -/
theorem anchored_of_item? {item : Item} (h : item? p = some item) : anchored p =
    if hidesFrame p = true ∨ maxDepth < 2 + item.depth then .error .malformed
    else
      match Layout.ofPattern? item.pattern.enclosed with
      | some _ => .ok ⟨item.pattern.enclosed⟩
      | none => .error .tooLarge := by
  change ofText (framed p) = _
  rw [ofText_eq, item?_framed h]
  cases hidesFrame p with
  | true => rfl
  | false => simp [Item.enclosed]

theorem anchored_of_none (h : item? p = none) (hstray : closesFrame p = false) :
    anchored p = .error .malformed := by
  change ofText (framed p) = _
  rw [ofText_eq, item?_framed_eq_none h hstray]

theorem regexMatch_text {s : String} {m m' : Metadata} :
    (regexMatch ⟨.text s, m⟩ ⟨.text p, m'⟩).kind =
      match anchored p with
      | .ok regex => .boolean (regex.isMatch s)
      | .error .malformed => .error (.pattern p) none
      | .error .tooLarge => .error (.patternSize p) none := by
  have clean : firstError? [⟨.text s, m⟩, ⟨.text p, m'⟩] = none := rfl
  have read : compilePattern ⟨.text p, m'⟩ =
    match anchored p with
    | .ok regex => .ok regex
    | .error .malformed => .error (.pattern p)
    | .error .tooLarge => .error (.patternSize p) := rfl
  unfold regexMatch
  rw [clean, read]
  cases anchored p with
  | ok regex =>
    simp only [matchCompiled, binary, clean]
    rfl
  | error refusal => cases refusal <;> rfl

/-- A pattern that is constant is read once, and the node matches each value of its left operand
with it as the operator does that reads it each time. -/
theorem equality_of_compilePattern {pattern : Value} {regex : Regex}
    (h : compilePattern pattern = .ok regex) (location : SourceLocation) (left : Compiled) :
    Compile.equality .regex location left (.constant pattern) =
      Compiled.combineAt location [left] (onOne fun v => .ok (regexMatch v pattern)) := by
  have same : (fun v => Except.ok (matchCompiled v regex pattern)) =
      fun v => (Except.ok (regexMatch v pattern) : Eval Value) := by
    funext v
    rw [regexMatch_eq_matchCompiled h]
  simp only [Compile.equality, h, same]

/-- A pattern that does not close its frame is matched against whole texts. Where it is a pattern
on its own, the match is true of the texts that it describes from their first to their last place,
and false of all others, unless the frame is hidden in a comment or makes the pattern too deep or too
large, which is an error. Where it is none, the match is an error. A pattern that is read ahead is
matched in the same way. -/
theorem regexMatch_whole_text {s : String} {m m' : Metadata} (hframe : closesFrame p = false) :
    (∀ item, item? p = some item → hidesFrame p = false → 2 + item.depth ≤ maxDepth →
      (Layout.ofPattern? item.pattern.enclosed).isSome →
        ∃ b, (regexMatch ⟨.text s, m⟩ ⟨.text p, m'⟩).kind = .boolean b ∧
          (b = true ↔ item.pattern.FullMatch s.toList)) ∧
    (∀ item, item? p = some item →
      hidesFrame p = true ∨ maxDepth < 2 + item.depth ∨
        Layout.ofPattern? item.pattern.enclosed = none →
      ∃ f, (regexMatch ⟨.text s, m⟩ ⟨.text p, m'⟩).kind = .error f none) ∧
    (item? p = none →
      (regexMatch ⟨.text s, m⟩ ⟨.text p, m'⟩).kind = .error (.pattern p) none) ∧
    ∀ regex location left, compilePattern ⟨.text p, m'⟩ = .ok regex →
      Compile.equality .regex location left (.constant ⟨.text p, m'⟩) =
        Compiled.combineAt location [left] (onOne fun v => .ok (regexMatch v ⟨.text p, m'⟩)) := by
  refine ⟨fun item hitem hvisible hdepth hsize => ?_, fun item hitem hrefused => ?_,
    fun hitem => ?_, fun regex location left h => equality_of_compilePattern h location left⟩
  · obtain ⟨layout, hlayout⟩ := Option.isSome_iff_exists.1 hsize
    have hread : anchored p = .ok ⟨item.pattern.enclosed⟩ := by
      rw [anchored_of_item? hitem, if_neg (by simp [hvisible, hdepth]), hlayout]
    refine ⟨_, regexMatch_text.trans (by rw [hread]), isMatch_enclosed⟩
  · rw [regexMatch_text, anchored_of_item? hitem]
    by_cases hmalformed : hidesFrame p = true ∨ maxDepth < 2 + item.depth
    · rw [if_pos hmalformed]
      exact ⟨_, rfl⟩
    · have hlarge : Layout.ofPattern? item.pattern.enclosed = none := by tauto
      rw [if_neg hmalformed, hlarge]
      exact ⟨_, rfl⟩
  · rw [regexMatch_text, anchored_of_none hitem hframe]

theorem regexMatch_alternatives : closesFrame "a|b*" = false ∧
    ∃ item, item? "a|b*" = some item ∧
      ∃ b, (regexMatch (.text "bb") (.text "a|b*")).kind = .boolean b ∧
        (b = true ↔ item.pattern.FullMatch "bb".toList) := by
  have hframe : closesFrame "a|b*" = false := by decide +kernel
  have hfits : (item? "a|b*").any (fun item => decide (2 + item.depth ≤ maxDepth) &&
      (Layout.ofPattern? item.pattern.enclosed).isSome) = true := by decide +kernel
  obtain ⟨item, hitem, hfits⟩ := (Option.any_eq_true _ _).1 hfits
  rw [Bool.and_eq_true, decide_eq_true_eq] at hfits
  refine ⟨hframe, item, hitem, ?_⟩
  exact (regexMatch_whole_text hframe).1 item hitem (by decide +kernel) hfits.1 hfits.2

/-- A text that closes the group around it need not be a pattern on its own, and then it matches a
text of which it describes the start. -/
theorem regexMatch_beyond_frame : ofText "a)|(?:b" = .error .malformed ∧
    (regexMatch (.text "ax") (.text "a)|(?:b")).kind = .boolean true := by
  have hitem : item? "a)|(?:b" = none := Option.isNone_iff_eq_none.1 (by decide +kernel)
  have hmatch : (match anchored "a)|(?:b" with
      | .ok regex => regex.isMatch "ax"
      | .error _ => false) = true := by decide +kernel
  refine ⟨by rw [ofText_eq, hitem], regexMatch_text.trans ?_⟩
  cases hread : anchored "a)|(?:b" with
  | ok regex =>
    rw [hread] at hmatch
    exact congrArg Kind.boolean hmatch
  | error refusal =>
    rw [hread] at hmatch
    cases hmatch

end PolicyExpr.Operator
