import PolicyExpr.Proofs.Lineage

/-!
# What operators make of lineage and errors

Whichever way an operator takes, its result has the lineage of all operands and no other. Two
operands are looked at in order: the first that is an error is the result, and then it does not
matter what the operator is. Eager boolean operators look at all operands in order: the first that is
no boolean decides the error, be it an error itself or not, and if there is none the booleans are
combined. Only a concatenation can have no result, where there is no text for what it appends.
-/
namespace PolicyExpr

open Value

/-- The lineage of all of these values together, and no other. -/
def Metadata.Unites (m : Metadata) (vs : List Value) : Prop :=
  (∀ l, l ∈ m.locations ↔ ∃ v ∈ vs, l ∈ v.metadata.locations) ∧
    (m.secret = true ↔ ∃ v ∈ vs, v.isSecret = true)

theorem unites_mergedMetadata (vs : List Value) : (mergedMetadata vs).Unites vs :=
  ⟨fun _ => mem_locations_mergedMetadata, by simp [secret_mergedMetadata]⟩

theorem Value.type_of_asText? {v : Value} {s : String} (h : v.asText? = some s) :
    v.type = .text := by
  obtain ⟨kind, m⟩ := v
  cases kind with
  | text t => rfl
  | _ => cases h

/-! ## Two operands -/

/-- The operators on two operands. -/
inductive BinaryOperator where
  | equality (operator : EqualityOperator)
  | comparison (operator : ComparisonOperator)
  | additive (operator : AdditiveOperator)
  | multiplicative (operator : MultiplicativeOperator)
  deriving DecidableEq

namespace BinaryOperator

def apply : BinaryOperator → Value → Value → Eval Value
  | equality op, a, b => .ok (op.apply a b)
  | comparison op, a, b => .ok (op.apply a b)
  | additive op, a, b => op.apply a b
  | multiplicative op, a, b => op.apply a b

/-- What a concatenation appends has a text. -/
def Writable (op : BinaryOperator) (a b : Value) : Prop :=
  op = additive .plus → a.type = .text → b.isError = false → ∃ back, b.plainText = .ok back

variable {op : BinaryOperator} {a b e r : Value}

theorem metadata_apply (h : op.apply a b = .ok r) : r.metadata = mergedMetadata [a, b] := by
  cases op with
  | equality op =>
    cases h
    exact Operator.metadata_equality op a b
  | comparison op =>
    cases h
    exact Operator.metadata_comparison op a b
  | additive op => exact Operator.metadata_additive op h
  | multiplicative op => exact Operator.metadata_multiplicative op h

end BinaryOperator

namespace Operator

variable {a b e : Value}

theorem binary_of_firstError (h : firstError? [a, b] = some e) (op : Value → Value → Value) :
    binary a b op = e := by
  simp [binary, h]

theorem add_of_firstError (h : firstError? [a, b] = some e) : add a b = .ok e := by
  unfold add
  split
  · rw [h]
  · exact congrArg Except.ok (binary_of_firstError h _)

theorem regexMatch_of_firstError (h : firstError? [a, b] = some e) : regexMatch a b = e := by
  simp [regexMatch, h]

end Operator

namespace BinaryOperator

variable {op : BinaryOperator} {a b e r : Value}

/-- Every operator absorbs an error in the same way. -/
theorem apply_of_firstError (h : Operator.firstError? [a, b] = some e) : op.apply a b = .ok e := by
  have general := Operator.binary_of_firstError h
  cases op with
  | equality op =>
    cases op with
    | regex => exact congrArg Except.ok (Operator.regexMatch_of_firstError h)
    | _ => simp only [apply, EqualityOperator.apply, Operator.equal, Operator.notEqual, general]
  | comparison op =>
    cases op with
    | membership => simp only [apply, ComparisonOperator.apply, Operator.contains, general]
    | _ =>
      simp only [apply, ComparisonOperator.apply, Operator.less, Operator.lessOrEqual,
        Operator.greater, Operator.greaterOrEqual, Operator.comparison, general]
  | additive op =>
    cases op with
    | plus => exact Operator.add_of_firstError h
    | minus =>
      simp only [apply, AdditiveOperator.apply, Operator.subtract, Operator.numeric, general]
  | multiplicative op =>
    cases op <;>
      simp only [apply, MultiplicativeOperator.apply, Operator.multiply, Operator.divide,
        Operator.modulo, Operator.numeric, general]

theorem exists_apply (h : op.Writable a b) : ∃ r, op.apply a b = .ok r := by
  cases op with
  | equality op => exact ⟨_, rfl⟩
  | comparison op => exact ⟨_, rfl⟩
  | multiplicative op => cases op <;> exact ⟨_, rfl⟩
  | additive op =>
    cases op with
    | minus => exact ⟨_, rfl⟩
    | plus =>
      change ∃ r, Operator.add a b = .ok r
      unfold Operator.add
      split
      · next front hfront =>
        split
        · exact ⟨_, rfl⟩
        · next hnone =>
          obtain ⟨back, hback⟩ := h rfl (type_of_asText? hfront) (by simp_all [Operator.firstError?])
          rw [hback]
          exact ⟨_, rfl⟩
      · exact ⟨_, rfl⟩

end BinaryOperator

/-! ## Any number of operands -/

namespace EagerOperator

/-- What the operator says of booleans: all are true, one is, or an odd number of them. -/
def Holds : EagerOperator → List Bool → Prop
  | conjunction, bs => ∀ b ∈ bs, b = true
  | disjunction, bs => ∃ b ∈ bs, b = true
  | exclusive, bs => bs.count true % 2 = 1

private theorem foldl_xor (bs : List Bool) (start : Bool) :
    bs.foldl Bool.xor start = true ↔ (start.toNat + bs.count true) % 2 = 1 := by
  induction bs generalizing start with
  | nil => cases start <;> simp
  | cons b bs ih =>
    rw [List.foldl_cons, ih, List.count_cons]
    cases start <;> cases b <;> simp <;> omega

theorem combine_eq_true_iff (op : EagerOperator) (bs : List Bool) :
    op.combine bs = true ↔ op.Holds bs := by
  cases op with
  | conjunction => simp [combine, Holds]
  | disjunction => simp [combine, Holds]
  | exclusive => simpa [combine, Holds] using foldl_xor bs false

end EagerOperator

/-- The outcome of an eager operator. The first operand that is no boolean decides what is wrong: its
own error, or its type. Where all are booleans, they are combined. -/
structure IsEager (op : EagerOperator) (operands : List Value) (outcome : Kind Value) : Prop where
  refused : ∀ ahead v behind, operands = ahead ++ v :: behind →
    (∀ u ∈ ahead, u.asBoolean?.isSome) → v.asBoolean? = none →
    outcome = if v.isError then v.kind else .error (.eagerOperand op v.type) none
  combined : ∀ bs, operands.map asBoolean? = bs.map some →
    ∃ b, outcome = .boolean b ∧ (b = true ↔ op.Holds bs)

theorem isEager_eager (op : EagerOperator) (operands : List Value) :
    IsEager op operands (Operator.eager op operands).kind where
  refused ahead v behind hoperands hahead hv := by
    have hfind : operands.find? (fun u => u.asBoolean?.isNone) = some v := by
      have passed : ahead.find? (fun u => u.asBoolean?.isNone) = none := by
        simpa [List.find?_eq_none, Option.isSome_iff_ne_none] using hahead
      simp [hoperands, List.find?_append, passed, hv]
    unfold Operator.eager
    simp only [hfind]
    split <;> rfl
  combined bs hbs := by
    have hnone : operands.find? (fun u => u.asBoolean?.isNone) = none := by
      refine List.find?_eq_none.2 fun u hu => ?_
      have hmem : u.asBoolean? ∈ bs.map some := hbs ▸ List.mem_map_of_mem hu
      obtain ⟨b, -, hb⟩ := List.mem_map.1 hmem
      simp [← hb]
    have hbooleans : operands.filterMap asBoolean? = bs := by
      have hid : operands.filterMap asBoolean? = (operands.map asBoolean?).filterMap id := by
        simp [List.filterMap_map]
      rw [hid, hbs]
      simp [List.filterMap_map]
    refine ⟨op.combine bs, ?_, op.combine_eq_true_iff bs⟩
    unfold Operator.eager
    simp only [hnone, hbooleans]
    rfl

/-! ## All operators -/

/-- The result of an operator has the lineage of all operands. Of two operands the first error is the
result, with its place. An eager boolean operator is decided by the first operand that is no boolean,
and combines its operands otherwise. The concatenation of a text with something that has none is the
only one without a result. -/
theorem results_of_operands :
    (∀ (op : BinaryOperator) (a b : Value), op.Writable a b →
      ∃ r, op.apply a b = .ok r ∧ r.metadata.Unites [a, b] ∧
        (a.isError = true → r.kind = a.kind) ∧
        (a.isError = false → b.isError = true → r.kind = b.kind)) ∧
    (∀ (op : UnaryOperator) (v : Value), (op.apply v).metadata.Unites [v]) ∧
    ∀ (op : EagerOperator) (vs : List Value), (Operator.eager op vs).metadata.Unites vs ∧
      IsEager op vs (Operator.eager op vs).kind := by
  refine ⟨fun op a b hwritable => ?_, fun op v => ?_, fun op vs => ⟨?_, isEager_eager op vs⟩⟩
  · obtain ⟨r, hr⟩ := BinaryOperator.exists_apply hwritable
    have absorbs {e : Value} (he : [a, b].find? isError = some e) : r.kind = e.kind := by
      have hfirst : Operator.firstError? [a, b] = some (e.mergeMetadata (mergedMetadata [a, b])) := by
        rw [Operator.firstError?, he]
        rfl
      have same := hr.symm.trans (BinaryOperator.apply_of_firstError hfirst)
      cases same
      rfl
    refine ⟨r, hr, ?_, fun ha => absorbs ?_, fun ha hb => absorbs ?_⟩
    · rw [BinaryOperator.metadata_apply hr]
      exact unites_mergedMetadata [a, b]
    · simp [ha]
    · simp [ha, hb]
  · have lineage : (op.apply v).metadata = mergedMetadata [v] := by
      rw [Operator.metadata_unary, mergedMetadata, Metadata.mergeAll, List.map_singleton,
        List.foldl_cons, Metadata.empty_merge, List.foldl_nil]
    rw [lineage]
    exact unites_mergedMetadata [v]
  · rw [Operator.metadata_eager]
    exact unites_mergedMetadata vs

/-- A text with a place, a secret number and an error: the concatenation of the first two is secret
and keeps the place, the comparison of the last two is the error, and `^` fails for the number though
an error stands behind it. -/
theorem results_of_operands_mixed :
    let l : SourceLocation := ⟨1, 0, 1, 5⟩
    let front := (Value.text "n=").tagged l
    let back := (Value.ofNat 2).asSecret
    let lost := Value.failureAt (.reported "lost") l
    (BinaryOperator.additive .plus).Writable front back ∧
      (∃ r, Operator.add front back = .ok r ∧ l ∈ r.metadata.locations ∧ r.isSecret = true) ∧
      (Operator.less back lost).kind = lost.kind ∧
      (Operator.eager .exclusive [.boolean true, back, lost]).kind =
        .error (.eagerOperand .exclusive .number) none := by
  intro l front back lost
  obtain ⟨two, -, any⟩ := results_of_operands
  have writable : (BinaryOperator.additive .plus).Writable front back := fun _ _ _ => ⟨_, rfl⟩
  refine ⟨writable, ?_, ?_, ?_⟩
  · obtain ⟨r, hr, ⟨hplaces, hsecret⟩, -⟩ := two (.additive .plus) front back writable
    exact ⟨r, hr, (hplaces l).2 ⟨front, by simp, by decide⟩, hsecret.2 ⟨back, by simp, rfl⟩⟩
  · obtain ⟨r, hr, -, -, hsecond⟩ := two (.comparison .less) back lost nofun
    cases hr
    exact hsecond rfl rfl
  · exact (any .exclusive _).2.refused [.boolean true] back [lost] rfl (by simp [Value.boolean,
      Value.ofKind, asBoolean?]) rfl

end PolicyExpr
