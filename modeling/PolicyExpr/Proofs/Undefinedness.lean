import PolicyExpr.Proofs.Absorption
import PolicyExpr.Proofs.Correspondence
import PolicyExpr.Proofs.Discipline
import PolicyExpr.Proofs.Emission

/-!
# What is undefined is wrong

Arithmetic, comparison by order and boolean operators have no use for what is undefined: wherever it
stands among the operands, the result is an error, and what a chain makes of an error is an error.
There is one way around this. A text with `+` behind it takes the text of whatever follows, and
Undefined has one. So a chain of an undefined operand is no error exactly if nothing in it is but
appended to a text.
-/
namespace PolicyExpr

open Value

namespace Value

/-- No operator but a concatenation can use it: it is an error or undefined. -/
def Unusable (v : Value) : Prop := v.isError = true ∨ v.isUndefined = true

variable {v : Value}

theorem Unusable.asNumber?_eq_none (h : v.Unusable) : v.asNumber? = none := by
  obtain ⟨kind, m⟩ := v
  cases kind with
  | number n => rcases h with h | h <;> cases h
  | _ => rfl

theorem Unusable.asBoolean?_eq_none (h : v.Unusable) : v.asBoolean? = none := by
  obtain ⟨kind, m⟩ := v
  cases kind with
  | boolean b => rcases h with h | h <;> cases h
  | _ => rfl

theorem Unusable.asText?_eq_none (h : v.Unusable) : v.asText? = none := by
  obtain ⟨kind, m⟩ := v
  cases kind with
  | text s => rcases h with h | h <;> cases h
  | _ => rfl

theorem asText?_eq_none_iff : v.asText? = none ↔ v.type ≠ .text := by
  obtain ⟨kind, m⟩ := v
  cases kind <;> simp [asText?, type, Kind.type]

theorem isError_eq_false_of_text (h : v.type = .text) : v.isError = false := by
  rw [isError, h]
  rfl

/-- A place makes no error and takes none away. -/
theorem isError_locate (v : Value) (l : SourceLocation) : (v.locate l).isError = v.isError := by
  unfold locate
  split
  · next hkind => simp [isError, type, hkind, Kind.type]
  · rfl

theorem plainText_of_isUndefined (h : v.isUndefined = true) : v.plainText = .ok "undefined" := by
  obtain ⟨kind, m⟩ := v
  cases kind with
  | undefined => rfl
  | _ => cases h

end Value

/-! ## Operators -/

namespace Operator

variable {a b e v : Value} {vs : List Value}

theorem isError_of_firstError_eq_some (h : firstError? vs = some e) : e.isError = true := by
  obtain ⟨w, hw, rfl⟩ := Option.map_eq_some_iff.1 h
  have hw : w.isError = true := List.find?_some hw
  exact hw

theorem isError_binary {op : Value → Value → Value} (h : (op a b).isError = true) :
    (binary a b op).isError = true := by
  unfold binary
  split
  · next he => exact isError_of_firstError_eq_some he
  · exact h

theorem isError_numeric (op : Decimal → Decimal → Except ArithmeticError Decimal)
    (h : a.asNumber? = none ∨ b.asNumber? = none) : (numeric a b op).isError = true := by
  refine isError_binary ?_
  split
  · next ha hb => simp [ha, hb] at h
  · rfl
  · rfl

theorem isError_comparison (accepts : Ordering → Bool)
    (h : a.asNumber? = none ∨ b.asNumber? = none) : (comparison a b accepts).isError = true := by
  refine isError_binary ?_
  split
  · next ha hb => simp [ha, hb] at h
  · rfl
  · rfl

theorem asText?_binary {op : Value → Value → Value} (h : (op a b).asText? = none) :
    (binary a b op).asText? = none := by
  unfold binary
  split
  · next he => exact Unusable.asText?_eq_none (.inl (isError_of_firstError_eq_some he))
  · exact h

/-- Arithmetic makes no texts. -/
theorem asText?_numeric (op : Decimal → Decimal → Except ArithmeticError Decimal) :
    (numeric a b op).asText? = none := by
  refine asText?_binary ?_
  split
  · split <;> rfl
  · rfl
  · rfl

theorem add_eq_numeric (h : a.asText? = none) :
    add a b = .ok (numeric a b fun x y => .ok (x.add y)) := by
  rw [add, h]

theorem add_text {front : String} (h : a.asText? = some front) (hb : b.isError = false) :
    add a b = do
      return (text (front ++ (← b.plainText))).withMetadata (mergedMetadata [a, b]) := by
  have ha := isError_eq_false_of_text (type_of_asText? h)
  simp only [add, h, firstError?, List.find?_cons, ha, hb, List.find?_nil, Option.map_none]

/-- An eager operator refuses the first operand that is no boolean. -/
theorem isError_eager (op : EagerOperator) (h : ∃ v ∈ vs, v.asBoolean? = none) :
    (eager op vs).isError = true := by
  have hsome : (vs.find? fun v => v.asBoolean?.isNone).isSome := by simpa using h
  obtain ⟨v, hv⟩ := Option.isSome_iff_exists.1 hsome
  unfold eager
  dsimp only
  rw [hv]
  dsimp only
  split
  · next herror => exact herror
  · rfl

theorem isError_unary (op : UnaryOperator) (h : v.Unusable) : (op.apply v).isError = true := by
  have hnumber := h.asNumber?_eq_none
  have hboolean := h.asBoolean?_eq_none
  cases herror : v.isError <;> cases op <;>
    simp only [UnaryOperator.apply, not, negate, plus, herror, hnumber, hboolean, if_true,
      Bool.false_eq_true, if_false, Option.isSome_none, Bool.or_false] <;> rfl

end Operator

namespace BinaryOperator

/-- Arithmetic and the comparisons by order. -/
def Numeric : BinaryOperator → Prop
  | equality _ => False
  | comparison op => op ≠ .membership
  | additive _ => True
  | multiplicative _ => True

variable {op : BinaryOperator} {a b : Value}

/-- What is no number is refused, except by `+` behind a text. -/
theorem refuses (hop : op.Numeric) (h : a.asNumber? = none ∨ b.asNumber? = none)
    (hplus : op = .additive .plus → a.asText? = none) :
    ∃ r, op.apply a b = .ok r ∧ r.isError = true := by
  cases op with
  | equality op => cases hop
  | comparison op =>
    refine ⟨_, rfl, ?_⟩
    cases op with
    | membership => exact absurd rfl hop
    | _ => exact Operator.isError_comparison _ h
  | additive op =>
    cases op with
    | plus => exact ⟨_, Operator.add_eq_numeric (hplus rfl), Operator.isError_numeric _ h⟩
    | minus => exact ⟨_, rfl, Operator.isError_numeric _ h⟩
  | multiplicative op => cases op <;> exact ⟨_, rfl, Operator.isError_numeric _ h⟩

end BinaryOperator

/-! ## Chains -/

namespace Operator

/-- An operator that has a result for every left operand with `P`, and one with `P` again, and that
has an error for what it cannot use. -/
def Refuses (P : Value → Prop) (f : Value → Value → Eval Value) : Prop :=
  ∀ a b, P a → ∃ r, f a b = .ok r ∧ P r ∧ (a.Unusable ∨ b.Unusable → r.isError = true)

section

variable {P : Value → Prop} {fs : List (Value → Value → Eval Value)} {acc : Value}
  {vs : List Value}

/-- An error stays one to the end of the chain, and any unusable operand makes one. -/
theorem chainFrom_refuses (hfs : ∀ f ∈ fs, Refuses P f) (hacc : P acc)
    (hlen : vs.length = fs.length) : ∃ r, chainFrom acc fs vs = .ok r ∧
      (acc.isError = true ∨ (∃ v ∈ vs, v.Unusable) → r.isError = true) := by
  induction fs generalizing acc vs with
  | nil =>
    cases List.eq_nil_of_length_eq_zero hlen
    exact ⟨acc, rfl, by simp⟩
  | cons f fs ih =>
    obtain ⟨v, vs, rfl⟩ := List.exists_cons_of_length_eq_add_one hlen
    obtain ⟨hf, hfs⟩ := List.forall_mem_cons.1 hfs
    obtain ⟨joined, hjoined, hP, herror⟩ := hf acc v hacc
    obtain ⟨r, hr, hrest⟩ := ih hfs hP (by simpa using hlen)
    refine ⟨r, ?_, fun h => hrest ?_⟩
    · rw [chainFrom, hjoined]
      exact hr
    · rcases h with hacc | ⟨u, hu, hunusable⟩
      · exact .inl (herror (.inl (.inl hacc)))
      · rcases List.mem_cons.1 hu with rfl | hu
        · exact .inl (herror (.inr hunusable))
        · exact .inr ⟨u, hu, hunusable⟩

theorem chain_refuses (hfs : ∀ f ∈ fs, Refuses P f) (hfront : ∀ v ∈ vs.head?, P v)
    (hlen : vs.length = fs.length + 1) (hne : fs ≠ []) (h : ∃ v ∈ vs, v.Unusable) :
    ∃ r, chain fs vs = .ok r ∧ r.isError = true := by
  obtain ⟨v, vs, rfl⟩ := List.exists_cons_of_length_eq_add_one hlen
  obtain ⟨f, fs, rfl⟩ := List.exists_cons_of_ne_nil hne
  obtain ⟨w, vs, rfl⟩ := List.exists_cons_of_length_eq_add_one (Nat.succ.inj hlen)
  obtain ⟨hf, hfs⟩ := List.forall_mem_cons.1 hfs
  obtain ⟨joined, hjoined, hP, herror⟩ := hf v w (hfront v rfl)
  obtain ⟨r, hr, hrest⟩ := chainFrom_refuses hfs hP (by simpa using hlen)
  refine ⟨r, ?_, hrest ?_⟩
  · rw [chain, chainFrom, hjoined]
    exact hr
  · obtain ⟨u, hu, hunusable⟩ := h
    rcases List.mem_cons.1 hu with rfl | hu
    · exact .inl (herror (.inl hunusable))
    · rcases List.mem_cons.1 hu with rfl | hu
      · exact .inl (herror (.inr hunusable))
      · exact .inr ⟨u, hu, hunusable⟩

end

/-- `+` and `-` where no text stands on the left, which then makes none. -/
theorem refuses_additive (op : AdditiveOperator) :
    Refuses (fun v => v.asText? = none) op.apply := by
  intro a b ha
  have unusable : a.Unusable ∨ b.Unusable → a.asNumber? = none ∨ b.asNumber? = none :=
    Or.imp Unusable.asNumber?_eq_none Unusable.asNumber?_eq_none
  cases op with
  | plus =>
    exact ⟨_, add_eq_numeric ha, asText?_numeric _, fun h => isError_numeric _ (unusable h)⟩
  | minus => exact ⟨_, rfl, asText?_numeric _, fun h => isError_numeric _ (unusable h)⟩

theorem refuses_multiplicative (op : MultiplicativeOperator) : Refuses (fun _ => True) op.apply := by
  intro a b _
  have unusable : a.Unusable ∨ b.Unusable → a.asNumber? = none ∨ b.asNumber? = none :=
    Or.imp Unusable.asNumber?_eq_none Unusable.asNumber?_eq_none
  cases op <;> exact ⟨_, rfl, trivial, fun h => isError_numeric _ (unusable h)⟩

/-- A text takes the texts of all that is appended to it. -/
theorem chainFrom_text {fs : List (Value → Value → Eval Value)} {acc : Value} {front : String}
    {vs : List Value} (hfs : ∀ f ∈ fs, f = add) (hacc : acc.asText? = some front)
    (hvs : ∀ v ∈ vs, v.isError = false) (hlen : vs.length = fs.length) :
    (chainFrom acc fs vs).map Value.kind =
      (vs.mapM plainText).map fun texts => .text (front ++ String.join texts) := by
  induction fs generalizing acc front vs with
  | nil =>
    cases List.eq_nil_of_length_eq_zero hlen
    obtain ⟨kind, m⟩ := acc
    cases kind with
    | text s =>
      cases hacc
      simp [chainFrom, Except.map, pure, Except.pure, String.join]
    | _ => cases hacc
  | cons f fs ih =>
    obtain ⟨v, vs, rfl⟩ := List.exists_cons_of_length_eq_add_one hlen
    obtain ⟨rfl, hrest⟩ := List.forall_mem_cons.1 hfs
    obtain ⟨hv, hvs⟩ := List.forall_mem_cons.1 hvs
    rw [chainFrom, add_text hacc hv, List.mapM_cons]
    cases v.plainText with
    | error fault => rfl
    | ok back =>
      have hjoined : ((text (front ++ back)).withMetadata (mergedMetadata [acc, v])).asText? =
        some (front ++ back) := rfl
      have rest := ih hrest hjoined hvs (by simpa using hlen)
      simp only [ok_bind, pure, Except.pure]
      rw [rest]
      cases vs.mapM plainText with
      | error fault => rfl
      | ok texts => simp [Except.map, String.append_assoc]

/-- What becomes of a text: an error, or a longer text. -/
theorem apply_text {op : AdditiveOperator} {acc v joined : Value} {front : String}
    (hacc : acc.asText? = some front) (h : op.apply acc v = .ok joined) :
    joined.asText? = none ∧ joined.isError = true ∨
      op = .plus ∧ v.isError = false ∧ ∃ s, joined.asText? = some s := by
  cases op with
  | minus =>
    cases h
    have no_number : acc.asNumber? = none := by
      obtain ⟨kind, m⟩ := acc
      cases kind with
      | number n => cases hacc
      | _ => rfl
    exact .inl ⟨asText?_numeric _, isError_numeric _ (.inl no_number)⟩
  | plus =>
    cases hv : v.isError with
    | true =>
      have hfirst : firstError? [acc, v] = some (v.mergeMetadata (mergedMetadata [acc, v])) := by
        simp [firstError?, isError_eq_false_of_text (type_of_asText? hacc), hv]
      cases (add_of_firstError hfirst).symm.trans h
      exact .inl ⟨Unusable.asText?_eq_none (.inl hv), hv⟩
    | false =>
      obtain ⟨back, -, h⟩ := bind_eq_ok ((add_text hacc hv).symm.trans h)
      cases h
      exact .inr ⟨rfl, rfl, _, rfl⟩

/-- A text does not survive an error or a subtraction. -/
theorem isError_chainFrom_text {ops : List AdditiveOperator} {acc r : Value} {front : String}
    {vs : List Value} (hacc : acc.asText? = some front) (hlen : vs.length = ops.length)
    (h : (∃ op ∈ ops, op ≠ .plus) ∨ ∃ v ∈ vs, v.isError = true)
    (hr : chainFrom acc (ops.map AdditiveOperator.apply) vs = .ok r) : r.isError = true := by
  induction ops generalizing acc front vs with
  | nil =>
    cases List.eq_nil_of_length_eq_zero hlen
    simp at h
  | cons op ops ih =>
    obtain ⟨v, vs, rfl⟩ := List.exists_cons_of_length_eq_add_one hlen
    have hrest : vs.length = ops.length := by simpa using hlen
    obtain ⟨joined, hjoined, hlater⟩ := bind_eq_ok hr
    rcases apply_text hacc hjoined with ⟨htext, herror⟩ | ⟨rfl, hv, s, hs⟩
    · have hrefuse : ∀ f ∈ ops.map AdditiveOperator.apply, Refuses (fun v => v.asText? = none) f :=
        List.forall_mem_map.2 fun op _ => refuses_additive op
      obtain ⟨r', hr', hstays⟩ := chainFrom_refuses hrefuse htext (by simpa using hrest)
      cases hr'.symm.trans hlater
      exact hstays (.inl herror)
    · exact ih hs hrest (by simpa [hv] using h) hlater

theorem exists_chainFrom {ops : List AdditiveOperator} {acc : Value} {vs : List Value}
    (hvs : ∀ v ∈ vs, ∃ s, v.plainText = .ok s) :
    ∃ r, chainFrom acc (ops.map AdditiveOperator.apply) vs = .ok r := by
  induction ops generalizing acc vs with
  | nil => exact ⟨acc, by simp [chainFrom]⟩
  | cons op ops ih =>
    cases vs with
    | nil => exact ⟨acc, rfl⟩
    | cons v vs =>
      obtain ⟨hv, hvs⟩ := List.forall_mem_cons.1 hvs
      obtain ⟨joined, hjoined⟩ : ∃ joined, op.apply acc v = .ok joined :=
        (BinaryOperator.additive op).exists_apply fun _ _ _ => hv
      obtain ⟨r, hr⟩ := @ih joined vs hvs
      exact ⟨r, by rw [List.map_cons, chainFrom, hjoined]; exact hr⟩

end Operator

open Operator (chain)

/-- A chain in which all is appended to a text: it begins with one, adds only, and no operand is an
error. -/
structure Concatenates (ops : List AdditiveOperator) (vs : List Value) : Prop where
  front : vs.head?.map Value.type = some .text
  adds : ∀ op ∈ ops, op = .plus
  sound : ∀ v ∈ vs, v.isError = false

/-- The result of a chain of `+` and `-` of which an operand is undefined. It is an error, unless the
chain concatenates. -/
structure IsUndefinedSum (ops : List AdditiveOperator) (vs : List Value) (r : Value) : Prop where
  refused : ¬Concatenates ops vs → r.isError = true
  concatenated : Concatenates ops vs →
    ∃ texts, vs.mapM plainText = .ok texts ∧ r.kind = .text (String.join texts)

section

variable {ops : List AdditiveOperator} {vs : List Value} {r : Value}

theorem isUndefinedSum_chain (hne : ops ≠ []) (hlen : vs.length = ops.length + 1)
    (hvs : ∃ v ∈ vs, v.isUndefined = true)
    (hr : chain (ops.map AdditiveOperator.apply) vs = .ok r) : IsUndefinedSum ops vs r := by
  obtain ⟨v, rest, rfl⟩ := List.exists_cons_of_length_eq_add_one hlen
  have hlen : rest.length = ops.length := by simpa using hlen
  have unusable : ∃ u ∈ v :: rest, u.Unusable := hvs.imp fun _ hu => ⟨hu.1, .inr hu.2⟩
  cases hfront : v.asText? with
  | none =>
    have hno : ¬Concatenates ops (v :: rest) := fun h =>
      asText?_eq_none_iff.1 hfront (by simpa using h.front)
    refine ⟨fun _ => ?_, fun h => absurd h hno⟩
    have hrefuse : ∀ f ∈ ops.map AdditiveOperator.apply,
        Operator.Refuses (fun v => v.asText? = none) f :=
      List.forall_mem_map.2 fun op _ => Operator.refuses_additive op
    obtain ⟨r', hr', herror⟩ := Operator.chain_refuses hrefuse (by simpa using hfront)
      (by simpa using hlen) (by simpa using hne) unusable
    cases hr'.symm.trans hr
    exact herror
  | some front =>
    have htext : v.type = .text := type_of_asText? hfront
    refine ⟨fun hno => ?_, fun h => ?_⟩
    · refine Operator.isError_chainFrom_text hfront hlen ?_ hr
      by_contra hall
      simp only [not_or, not_exists, not_and, not_not, Bool.not_eq_true] at hall
      exact hno ⟨by simp [htext], hall.1,
        List.forall_mem_cons.2 ⟨isError_eq_false_of_text htext, hall.2⟩⟩
    · have hadd : ∀ f ∈ ops.map AdditiveOperator.apply, f = Operator.add :=
        List.forall_mem_map.2 fun op hop => by rw [h.adds op hop]; rfl
      have closed := Operator.chainFrom_text hadd hfront (List.forall_mem_cons.1 h.sound).2
        (by simpa using hlen)
      have hr : Operator.chainFrom v (ops.map AdditiveOperator.apply) rest = .ok r := hr
      have hplain : v.plainText = .ok front := by rw [plainText, hfront]
      rw [hr] at closed
      rw [List.mapM_cons, hplain]
      cases htexts : rest.mapM plainText with
      | error fault => simp [htexts, Except.map] at closed
      | ok texts =>
        rw [htexts] at closed
        exact ⟨front :: texts, rfl, by simpa [Except.map] using closed⟩

theorem IsUndefinedSum.locate (h : IsUndefinedSum ops vs r) (l : SourceLocation) :
    IsUndefinedSum ops vs (r.locate l) where
  refused hno := by rw [isError_locate, h.refused hno]
  concatenated hall := by
    obtain ⟨texts, htexts, hkind⟩ := h.concatenated hall
    refine ⟨texts, htexts, ?_⟩
    unfold Value.locate
    split
    · next herror => cases hkind.symm.trans herror
    · exact hkind

theorem exists_chain (hlen : vs.length = ops.length + 1)
    (h : vs.head?.map Value.type = some .text → ∀ v ∈ vs, ∃ s, v.plainText = .ok s) :
    ∃ r, chain (ops.map AdditiveOperator.apply) vs = .ok r := by
  obtain ⟨v, rest, rfl⟩ := List.exists_cons_of_length_eq_add_one hlen
  cases hfront : v.asText? with
  | none =>
    have hrefuse : ∀ f ∈ ops.map AdditiveOperator.apply,
        Operator.Refuses (fun v => v.asText? = none) f :=
      List.forall_mem_map.2 fun op _ => Operator.refuses_additive op
    have hrest : rest.length = (ops.map AdditiveOperator.apply).length := by simpa using hlen
    obtain ⟨r, hr, -⟩ := Operator.chainFrom_refuses hrefuse hfront hrest
    exact ⟨r, hr⟩
  | some front =>
    have hplain := h (by simp [type_of_asText? hfront])
    exact Operator.exists_chainFrom (List.forall_mem_cons.1 hplain).2

theorem isError_product {ops : List MultiplicativeOperator} (hne : ops ≠ [])
    (hlen : vs.length = ops.length + 1) (hvs : ∃ v ∈ vs, v.isUndefined = true) :
    ∃ r, chain (ops.map MultiplicativeOperator.apply) vs = .ok r ∧ r.isError = true :=
  Operator.chain_refuses (List.forall_mem_map.2 fun op _ => Operator.refuses_multiplicative op)
    (fun _ _ => trivial) (by simpa using hlen) (by simpa using hne)
    (hvs.imp fun _ hv => ⟨hv.1, .inr hv.2⟩)

end

/-! ## Nodes -/

namespace Compiled

/-- The compiled expression is no stream and has this value in the context. -/
def HasValue (c : Compiled) (ctx : Context) (v : Value) : Prop :=
  c.nature ≠ .stream ∧ c.evaluate ctx = .ok v

/-- What a compiled expression shows in a context: its value, or what it emits in some run. -/
inductive Shows (c : Compiled) (ctx : Context) (v : Value) : Prop where
  | value (h : c.HasValue ctx v)
  | emitted {s : Stream} {schedule : List (Nat × Nat)} {journal : Journal} {course : Course Stream}
    (hstream : c.nature = .stream) (hs : c.subscribe ctx = .ok s)
    (hrun : s.pollEach schedule journal = .ok course) (hv : .value v ∈ course.answers)

/-- These may be the values of the operands at one time: the operands that have a value have it. -/
abbrev Operands (cs : List Compiled) (ctx : Context) (vs : List Value) : Prop :=
  List.Forall₂ (fun c v => ∀ u, c.HasValue ctx u → v = u) cs vs

variable {cs : List Compiled} {c : Compiled} {ctx : Context} {l : SourceLocation} {r : Value}
  {op : List Value → Eval Value}

/-- An operand that has a value emits no other. -/
theorem yields_subscribe {s : Stream} (hs : c.subscribe ctx = .ok s) :
    s.Yields (fun _ => True) fun v => ∀ u, c.HasValue ctx u → v = u := by
  cases c with
  | constant w =>
    cases hs
    exact Stream.yields_once fun u hu => Except.ok.inj hu.2
  | pure reads run =>
    obtain ⟨w, hw, hs⟩ := bind_eq_ok hs
    cases hs
    exact Stream.yields_once fun u hu => Except.ok.inj (hw.symm.trans hu.2)
  | stream subscribe =>
    have anything : (fun v => ∀ u, (Compiled.stream subscribe).HasValue ctx u → v = u) =
        fun _ => True := funext fun v => eq_true fun u hu => absurd rfl hu.1
    rw [anything]
    exact Stream.yields_any _ s

theorem slotsYield_subscribe {streams : List Stream}
    (h : List.Forall₂ (fun c s => c.subscribe ctx = .ok s) cs streams) :
    Stream.SlotsYield (fun _ => True) (cs.map fun c v => ∀ u, c.HasValue ctx u → v = u)
      (streams.map fun s => ⟨some s, none⟩) := by
  induction h with
  | nil => exact .nil
  | cons hs _ ih =>
    refine .cons ⟨nofun, ?_⟩ ih
    rintro _ ⟨⟩
    exact yields_subscribe hs

/-- Whatever a node shows is what its operator makes of its operands at one time. -/
theorem Shows.of_combineAt (hc : combineAt l cs op = .ok c) (h : c.Shows ctx r) :
    ∃ vs w, Operands cs ctx vs ∧ op vs = .ok w ∧ r = w.locate l := by
  have located {vs : List Value} (h : (do return (← op vs).locate l) = (.ok r : Eval Value)) :
      ∃ w, op vs = .ok w ∧ r = w.locate l := by
    obtain ⟨w, hw, h⟩ := bind_eq_ok h
    cases h
    exact ⟨w, hw, rfl⟩
  cases h with
  | value h =>
    obtain ⟨hn, hr⟩ := h
    rw [evaluate_combineInContext hc hn fun _ => rfl] at hr
    obtain ⟨vs, hvs, hr⟩ := bind_eq_ok hr
    obtain ⟨w, hw, hr⟩ := located hr
    refine ⟨vs, w, (forall₂_of_mapM hvs).imp fun c v hv u hu => ?_, hw, hr⟩
    exact Except.ok.inj (hv.symm.trans hu.2)
  | @emitted s schedule journal course hstream hs hrun hr =>
    obtain ⟨⟨t, ht, -⟩, rfl⟩ | ⟨constants, -, vs, v, -, -, rfl⟩ | ⟨streamless, rfl⟩ :=
      combineInContext_cases hc
    · obtain ⟨streams, hstreams, hs⟩ := bind_eq_ok hs
      have operands := forall₂_of_mapM hstreams
      have hjoin : s = .join (streams.map fun s => ⟨some s, none⟩)
          fun vs => do return (← op vs).locate l := by
        cases operands with
        | nil => cases ht
        | cons _ _ => exact (Except.ok.inj hs).symm
      rw [hjoin] at hrun
      obtain ⟨vs, hvs, hr⟩ := Stream.SlotsYield.emitted (.inr (slotsYield_subscribe operands)) hrun
        (fun _ _ _ => trivial) r hr
      obtain ⟨w, hw, hr⟩ := located hr
      exact ⟨vs, w, List.forall₂_map_left_iff.1 hvs, hw, hr⟩
    · cases hstream
    · cases hstream

end Compiled

namespace Expression

/-- The expression is compiled to no stream and has this value in the context. -/
def HasValue (e : Expression) (scope : Scope) (ctx : Context) (v : Value) : Prop :=
  ∀ c, e.compile scope = .ok c → c.HasValue ctx v

/-- These may be the values of the operands at one time: the operands that have a value have it. -/
abbrev Operands (es : List Expression) (scope : Scope) (ctx : Context) (vs : List Value) : Prop :=
  List.Forall₂ (fun e v => ∀ u, e.HasValue scope ctx u → v = u) es vs

/-- The value of the expression is undefined. -/
def Missing (e : Expression) (scope : Scope) (ctx : Context) : Prop :=
  ∃ u, e.HasValue scope ctx u ∧ u.isUndefined = true

variable {scope : Scope} {ctx : Context} {l : SourceLocation} {es : List Expression}
  {vs : List Value}

theorem operands_of_expressions {cs : List Compiled} (hcs : Compile.expressions scope es = .ok cs)
    (h : Compiled.Operands cs ctx vs) : Operands es scope ctx vs := by
  induction es generalizing cs vs with
  | nil =>
    cases hcs
    cases h
    exact .nil
  | cons e es ih =>
    obtain ⟨c, hc, hcs⟩ := bind_eq_ok hcs
    obtain ⟨cs, hrest, hcs⟩ := bind_eq_ok hcs
    cases hcs
    cases h with
    | cons hv hvs => exact .cons (fun u hu => hv u (hu c hc)) (ih hrest hvs)

theorem exists_undefined (h : Operands es scope ctx vs) (hmissing : ∃ e ∈ es, e.Missing scope ctx) :
    ∃ v ∈ vs, v.isUndefined = true := by
  induction h with
  | nil => simp at hmissing
  | @cons e v es vs hv _ ih =>
    obtain ⟨m, hm, u, hu, hundefined⟩ := hmissing
    rcases List.mem_cons.1 hm with rfl | hm
    · exact ⟨v, List.mem_cons_self, by rw [hv u hu, hundefined]⟩
    · obtain ⟨w, hw, hundefined⟩ := ih ⟨m, hm, u, hu, hundefined⟩
      exact ⟨w, List.mem_cons_of_mem _ hw, hundefined⟩

/-- A name that neither a definition nor the context binds. -/
theorem missing_name {name : String} (hlocal : scope.definitions.get? name = none)
    (h : (ctx.get name).isUndefined = true) :
    (Expression.basic l (.identifier name) [] none).Missing scope ctx := by
  refine ⟨_, fun c hc => ?_, h⟩
  obtain ⟨b, hb, hc⟩ := bind_eq_ok hc
  simp only [Compile.base, hlocal] at hb
  split at hb
  · cases hb
  · cases hb
    cases hc
    exact ⟨nofun, rfl⟩

theorem steps_append (c : Compiled) (ss ts : List Step) :
    Compile.steps scope l c (ss ++ ts) =
      (Compile.steps scope l c ss >>= fun c => Compile.steps scope l c ts) := by
  induction ss generalizing c with
  | nil => rfl
  | cons s ss ih =>
    simp only [List.cons_append, Compile.steps, bind_assoc, ih]

/-- A value without the key: an object that does not have it, or what is undefined itself. -/
def Lacks (key : String) (v : Value) : Prop :=
  v.isUndefined = true ∨ ∃ entries, v.asObject? = some entries ∧ lookup key entries = none

theorem Lacks.isUndefined {key : String} {v : Value} (h : Lacks key v) :
    (Selection.key v key).isUndefined = true := by
  rcases h with h | ⟨entries, hentries, habsent⟩
  · simp [Selection.key, Selection.passesThrough, h]
  · obtain ⟨kind, m⟩ := v
    cases kind with
    | object members =>
      cases hentries
      simp only [Selection.key, habsent]
      rfl
    | _ => cases hentries

theorem locate_of_isUndefined {v : Value} (h : v.isUndefined = true) : v.locate l = v := by
  obtain ⟨kind, m⟩ := v
  cases kind with
  | undefined => rfl
  | _ => cases h

/-- A key that what it is looked up in does not have. -/
theorem missing_key {b : Base} {ss : List Step} {key : String} {v : Value}
    (hbase : (Expression.basic l b ss none).HasValue scope ctx v) (habsent : Lacks key v) :
    (Expression.basic l b (ss ++ [.key key]) none).Missing scope ctx := by
  refine ⟨Selection.key v key, fun c hc => ?_, habsent.isUndefined⟩
  obtain ⟨first, hfirst, hc⟩ := bind_eq_ok hc
  obtain ⟨last, hlast, hc⟩ := bind_eq_ok hc
  cases hc
  rw [steps_append] at hlast
  obtain ⟨ahead, hahead, hlast⟩ := bind_eq_ok hlast
  obtain ⟨last, hstep, hlast⟩ := bind_eq_ok hlast
  cases hlast
  have hstep := Compilation.ofEval_eq_ok hstep
  have compiled : (Expression.basic l b ss none).compile scope = .ok ahead := by
    change (Compile.base scope l b >>= fun c => Compile.steps scope l c ss >>= Except.ok) = _
    rw [hfirst, ok_bind, hahead]
    rfl
  obtain ⟨hn, hv⟩ := hbase ahead compiled
  have hnature : c.nature ≠ .stream := fun h => by
    obtain ⟨s, hs, hstream⟩ := (Compiled.combineInContext_nature hstep).1 h
    cases List.mem_singleton.1 hs
    exact hn hstream
  refine ⟨hnature, ?_⟩
  have single : Compiled.evaluateAll [ahead] ctx = .ok [v] := by
    simp [Compiled.evaluateAll, List.mapM_cons, hv]
  rw [Compiled.evaluate_combineInContext hstep hnature fun _ => rfl, single]
  exact congrArg Except.ok (locate_of_isUndefined habsent.isUndefined)

/-! ### Arithmetic -/

section

variable {cs : List Compiled} {c : Compiled} {fs : List (Value → Value → Eval Value)} {r : Value}

/-- What a chain shows is what it makes of its operands at one time. -/
theorem shows_chain (hne : fs ≠ []) (hcs : Compile.expressions scope es = .ok cs)
    (hlen : es.length = fs.length + 1)
    (hc : Compile.joined cs (fun cs => Compiled.combineAt l cs (chain fs)) = .ok c)
    (h : c.Shows ctx r) : ∃ vs w, Operands es scope ctx vs ∧ vs.length = fs.length + 1 ∧
      chain fs vs = .ok w ∧ r = w.locate l := by
  rcases Compile.joined_eq_ok hc with rfl | hc
  · have hsingle := (Compile.length_expressions hcs).trans hlen
    simp [hne] at hsingle
  · obtain ⟨vs, w, hvs, hw, hr⟩ := h.of_combineAt hc
    have operands := operands_of_expressions hcs hvs
    exact ⟨vs, w, operands, operands.length_eq.symm.trans hlen, hw, hr⟩

theorem shows_addition {ops : List AdditiveOperator} (hne : ops ≠ [])
    (hc : (Expression.addition l es ops).compile scope = .ok c) (h : c.Shows ctx r) :
    ∃ vs w, Operands es scope ctx vs ∧ vs.length = ops.length + 1 ∧
      chain (ops.map AdditiveOperator.apply) vs = .ok w ∧ r = w.locate l := by
  obtain ⟨-, -, hc⟩ := bind_eq_ok hc
  obtain ⟨_, hcount, hc⟩ := bind_eq_ok hc
  obtain ⟨cs, hcs, hc⟩ := bind_eq_ok hc
  simpa using shows_chain (by simpa using hne) hcs
    (by simpa using Compile.length_eq_of_requireOperators hcount) (Compilation.ofEval_eq_ok hc) h

theorem shows_multiplication {ops : List MultiplicativeOperator} (hne : ops ≠ [])
    (hc : (Expression.multiplication l es ops).compile scope = .ok c) (h : c.Shows ctx r) :
    ∃ vs w, Operands es scope ctx vs ∧ vs.length = ops.length + 1 ∧
      chain (ops.map MultiplicativeOperator.apply) vs = .ok w ∧ r = w.locate l := by
  obtain ⟨-, -, hc⟩ := bind_eq_ok hc
  obtain ⟨_, hcount, hc⟩ := bind_eq_ok hc
  obtain ⟨cs, hcs, hc⟩ := bind_eq_ok hc
  simpa using shows_chain (by simpa using hne) hcs
    (by simpa using Compile.length_eq_of_requireOperators hcount) (Compilation.ofEval_eq_ok hc) h

end

end Expression

open Expression (Operands Lacks)

/-! ## All operators -/

/-- The operators have an error for an operand that is undefined, with one exception. -/
structure OperatorsRefuse : Prop where
  /-- Arithmetic and the comparisons by order, where `+` appends nothing to a text. -/
  binary : ∀ (op : BinaryOperator) (a b : Value), op.Numeric →
    a.isUndefined = true ∨ b.isUndefined = true → (op = .additive .plus → a.type ≠ .text) →
    ∃ r, op.apply a b = .ok r ∧ r.isError = true
  /-- The exception: a text takes the text of what is undefined. -/
  appended : ∀ (a b : Value) (front : String), a.asText? = some front → b.isUndefined = true →
    Operator.add a b =
      .ok ((text (front ++ "undefined")).withMetadata (mergedMetadata [a, b]))
  unary : ∀ (op : UnaryOperator) (v : Value), v.isUndefined = true → (op.apply v).isError = true
  eager : ∀ (op : EagerOperator) (vs : List Value), (∃ v ∈ vs, v.isUndefined = true) →
    (Operator.eager op vs).isError = true

/-- The chains of these operands, one of which is undefined, are errors, with the same exception. -/
structure ChainsRefuse (vs : List Value) : Prop where
  sum : ∀ (ops : List AdditiveOperator) (r : Value), ops ≠ [] → vs.length = ops.length + 1 →
    chain (ops.map AdditiveOperator.apply) vs = .ok r → IsUndefinedSum ops vs r
  /-- Only a chain behind a text can be without a result, where an operand has no text. -/
  exists_sum : ∀ ops : List AdditiveOperator, ops ≠ [] → vs.length = ops.length + 1 →
    (vs.head?.map Value.type = some .text → ∀ v ∈ vs, ∃ s, v.plainText = .ok s) →
    ∃ r, chain (ops.map AdditiveOperator.apply) vs = .ok r
  product : ∀ ops : List MultiplicativeOperator, ops ≠ [] → vs.length = ops.length + 1 →
    ∃ r, chain (ops.map MultiplicativeOperator.apply) vs = .ok r ∧ r.isError = true

/-- What nodes of these operands, one of which is missing, show in a context. -/
structure NodesRefuse (scope : Scope) (ctx : Context) (l : SourceLocation) (es : List Expression) :
    Prop where
  addition : ∀ (ops : List AdditiveOperator) (c : Compiled) (r : Value), ops ≠ [] →
    (Expression.addition l es ops).compile scope = .ok c → c.Shows ctx r →
    ∃ vs, Operands es scope ctx vs ∧ IsUndefinedSum ops vs r
  multiplication : ∀ (ops : List MultiplicativeOperator) (c : Compiled) (r : Value), ops ≠ [] →
    (Expression.multiplication l es ops).compile scope = .ok c → c.Shows ctx r → r.isError = true

/-- What is missing in a scope and a context. -/
structure MissingParts (scope : Scope) (ctx : Context) (l : SourceLocation) : Prop where
  /-- A name that nothing binds. -/
  name : ∀ name : String, scope.definitions.get? name = none → (ctx.get name).isUndefined = true →
    (Expression.basic l (.identifier name) [] none).Missing scope ctx
  /-- A key of something that does not have it. -/
  key : ∀ (b : Base) (ss : List Step) (key : String) (v : Value),
    (Expression.basic l b ss none).HasValue scope ctx v → Lacks key v →
    (Expression.basic l b (ss ++ [.key key]) none).Missing scope ctx

theorem operatorsRefuse : OperatorsRefuse where
  binary op a b hop h hplus := by
    have no_number {v : Value} (h : v.isUndefined = true) : v.asNumber? = none :=
      Unusable.asNumber?_eq_none (.inr h)
    exact BinaryOperator.refuses hop (h.imp no_number no_number) fun hop =>
      asText?_eq_none_iff.2 (hplus hop)
  appended a b front ha hb := by
    have hsound : b.isError = false := by
      rw [isUndefined, beq_iff_eq] at hb
      rw [isError, hb]
      rfl
    rw [Operator.add_text ha hsound, plainText_of_isUndefined hb]
    rfl
  unary op v hv := Operator.isError_unary op (.inr hv)
  eager op vs h := by
    obtain ⟨v, hv, hundefined⟩ := h
    exact Operator.isError_eager op ⟨v, hv, Unusable.asBoolean?_eq_none (.inr hundefined)⟩

theorem chainsRefuse {vs : List Value} (h : ∃ v ∈ vs, v.isUndefined = true) : ChainsRefuse vs where
  sum _ _ hne hlen hr := isUndefinedSum_chain hne hlen h hr
  exists_sum _ _ hlen := exists_chain hlen
  product _ hne hlen := isError_product hne hlen h

theorem nodesRefuse {scope : Scope} {ctx : Context} {es : List Expression}
    (h : ∃ e ∈ es, e.Missing scope ctx) (l : SourceLocation) : NodesRefuse scope ctx l es where
  addition ops c r hne hc hr := by
    obtain ⟨vs, w, hvs, hlen, hw, rfl⟩ := Expression.shows_addition hne hc hr
    have hsum := isUndefinedSum_chain hne hlen (Expression.exists_undefined hvs h) hw
    exact ⟨vs, hvs, hsum.locate l⟩
  multiplication ops c r hne hc hr := by
    obtain ⟨vs, w, hvs, hlen, hw, rfl⟩ := Expression.shows_multiplication hne hc hr
    obtain ⟨w', hw', herror⟩ := isError_product hne hlen (Expression.exists_undefined hvs h)
    cases hw'.symm.trans hw
    rw [isError_locate, herror]

/-- An operand that is undefined makes an error of arithmetic, of a comparison by order and of a
boolean operator, and of every chain that it stands in, with one exception: what is appended to a
text may be undefined. Names that nothing binds and keys that an object does not have are undefined,
so a chain of them shows nothing else, whatever else it is made of. -/
theorem results_of_undefined (scope : Scope) (ctx : Context) (l : SourceLocation) :
    OperatorsRefuse ∧
    (∀ vs : List Value, (∃ v ∈ vs, v.isUndefined = true) → ChainsRefuse vs) ∧
    (∀ es : List Expression, (∃ e ∈ es, e.Missing scope ctx) → NodesRefuse scope ctx l es) ∧
    MissingParts scope ctx l :=
  ⟨operatorsRefuse, fun _ h => chainsRefuse h, fun _ h => nodesRefuse h l,
    fun _ => Expression.missing_name, fun _ _ _ _ => Expression.missing_key⟩

/-- One case of each: among them `1 - nobody`, where nothing binds the name, and `subject.age * 1` for
a subject without an age. -/
theorem results_of_undefined_cases :
    let one : Expression := .basic .unknown (.literal (.number "1")) [] none
    let nobody : Expression := .basic .unknown (.identifier "nobody") [] none
    let age : Expression := .basic .unknown (.identifier "subject") [.key "age"] none
    let ctx := Context.ofRequest (object []) undefined undefined undefined
    (Operator.less (ofNat 1) undefined).isError = true ∧
      Operator.add (text "n=") undefined = .ok (text "n=undefined") ∧
      (Operator.negate undefined).isError = true ∧
      (Operator.eager .conjunction [boolean true, undefined]).isError = true ∧
      (∃ r, chain ([.plus, .minus].map AdditiveOperator.apply) [ofNat 1, undefined, ofNat 2] =
        .ok r ∧ r.isError = true) ∧
      (∃ r, chain ([.times].map MultiplicativeOperator.apply) [undefined, ofNat 2] = .ok r ∧
        r.isError = true) ∧
      (∃ c r, (Expression.addition .unknown [one, nobody] [.minus]).compile .empty = .ok c ∧
        c.Shows ctx r ∧ r.isError = true) ∧
      ∃ c r, (Expression.multiplication .unknown [age, one] [.times]).compile .empty = .ok c ∧
        c.Shows ctx r ∧ r.isError = true := by
  intro one nobody age ctx
  obtain ⟨operators, chains, nodes, missing⟩ := results_of_undefined .empty ctx .unknown
  have subtracts {vs : List Value} {ops : List AdditiveOperator} (h : .minus ∈ ops) :
      ¬Concatenates ops vs := fun hall => nomatch hall.adds _ h
  refine ⟨?_, operators.appended (text "n=") undefined "n=" rfl rfl,
    operators.unary .negate undefined rfl,
    operators.eager .conjunction _ ⟨undefined, by simp, rfl⟩, ?_,
    (chains _ ⟨undefined, by simp, rfl⟩).product [.times] nofun rfl, ?_, ?_⟩
  · obtain ⟨r, hr, herror⟩ := operators.binary (.comparison .less) (ofNat 1) undefined nofun
      (.inr rfl) nofun
    cases hr
    exact herror
  · have sums := chains [ofNat 1, undefined, ofNat 2] ⟨undefined, by simp, rfl⟩
    obtain ⟨r, hr⟩ := sums.exists_sum [.plus, .minus] nofun rfl nofun
    exact ⟨r, hr, (sums.sum [.plus, .minus] r nofun rfl hr).refused (subtracts (by simp))⟩
  · obtain ⟨c, hc⟩ : ∃ c, (Expression.addition .unknown [one, nobody] [.minus]).compile .empty =
      .ok c := ⟨_, rfl⟩
    have absent : nobody.Missing .empty ctx := missing.name _ rfl rfl
    have hshows : ∃ r, c.Shows ctx r := by
      cases hc
      exact ⟨_, .value ⟨nofun, rfl⟩⟩
    obtain ⟨r, hr⟩ := hshows
    obtain ⟨vs, -, hsum⟩ := (nodes _ ⟨nobody, by simp, absent⟩).addition [.minus] c r nofun hc hr
    exact ⟨c, r, hc, hr, hsum.refused (subtracts (by simp))⟩
  · obtain ⟨c, hc⟩ : ∃ c, (Expression.multiplication .unknown [age, one] [.times]).compile .empty =
      .ok c := ⟨_, rfl⟩
    have absent : age.Missing .empty ctx := by
      refine missing.key (.identifier "subject") [] "age" (object []) (fun c hc => ?_)
        (.inr ⟨[], rfl, rfl⟩)
      cases hc
      exact ⟨nofun, rfl⟩
    have hshows : ∃ r, c.Shows ctx r := by
      cases hc
      exact ⟨_, .value ⟨nofun, rfl⟩⟩
    obtain ⟨r, hr⟩ := hshows
    exact ⟨c, r, hc, hr,
      (nodes _ ⟨age, by simp, absent⟩).multiplication [.times] c r nofun hc hr⟩

/-- A name that nothing binds shows as text behind a text, and as an error in front of it. -/
theorem undefined_in_text :
    let letter : Expression := .basic .unknown (.literal (.text "a")) [] none
    let nobody : Expression := .basic .unknown (.identifier "nobody") [] none
    let shown (es : List Expression) : Prop := ∃ c v,
      (Expression.addition .unknown es [.plus]).compile .empty = .ok c ∧
        c.evaluate .empty = .ok v ∧ v.isError = false
    (Context.empty.get "nobody").isUndefined = true ∧
      Operator.add (text "a") undefined = .ok (text "aundefined") ∧
      shown [letter, nobody] ∧ ¬shown [nobody, letter] := by
  intro letter nobody shown
  refine ⟨rfl, rfl, ⟨_, _, rfl, rfl, rfl⟩, ?_⟩
  rintro ⟨c, v, hc, hv, hsound⟩
  cases hc
  cases hv
  cases hsound

end PolicyExpr
