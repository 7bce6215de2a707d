import Mathlib.Data.List.Forall2
import PolicyExpr.Proofs.Lineage

/-!
# Conditions filter

A condition step asks its condition about one part of its base after the other, each as `@` with its
index or key as `#`. It keeps those for which the condition is true and goes no further than the
first answer that is no boolean, which makes the error of the step. Whether a part is kept or
dropped, the answer about it stays in the lineage of the result.
-/
namespace PolicyExpr

namespace Value

/-- The lineage of a value and of others that were gathered behind it, one at a time. -/
theorem mergedMetadata_cons (v : Value) (vs : List Value) :
    mergedMetadata (v :: vs) = vs.foldl (fun m w => m.merge w.metadata) v.metadata := by
  simp [mergedMetadata, Metadata.mergeAll, Metadata.empty_merge, List.foldl_map]

theorem mergedMetadata_concat (vs : List Value) (v : Value) :
    mergedMetadata (vs ++ [v]) = (mergedMetadata vs).merge v.metadata := by
  simp [mergedMetadata, Metadata.mergeAll]

end Value

namespace Selection

open Value

/-! ## The form of a condition step -/

/-- What a condition step makes of the outcome over the parts of a container. -/
def concluded {α : Type} (wrap : List α → Value) : Except Value (List α × Metadata) → Value
  | .ok (kept, m) => (wrap kept).withMetadata m
  | .error e => e

/-- What it makes of the result for a base that has no parts. -/
def judged (base result : Value) : Value :=
  match verdict result with
  | .ok true => base.mergeMetadata result.metadata
  | .ok false => Value.undefined.withMetadata (base.metadata.merge result.metadata)
  | .error e => e.mergeMetadata base.metadata

/-- A condition step that looks at its base at all, by the kind of the base. -/
theorem condition_eq {base : Value} {test : Inner} (h : passesThrough base = false) :
    condition base test = match base.kind with
      | .array items => do
        return concluded Value.array (← keepWhere test base.metadata (elementParts items))
      | .object entries => do
        return concluded Value.object (← keepWhere test base.metadata (entryParts entries))
      | _ => do return judged base (← test base .undefined) := by
  unfold condition
  rw [if_neg (by simp [h])]
  cases base.kind with
  | array items => exact bind_congr fun out => by rcases out with e | ⟨kept, m⟩ <;> rfl
  | object entries => exact bind_congr fun out => by rcases out with e | ⟨kept, m⟩ <;> rfl
  | _ =>
    refine bind_congr fun r => ?_
    unfold judged
    rcases verdict r with e | keep
    · rfl
    · cases keep <;> rfl

/-- Nothing but errors and Undefined passes through. -/
theorem looks_of_kind {base : Value} {kind : Kind Value} (h : base.kind = kind)
    (hkind : kind.type ∉ [ValueType.error, .undefined]) : passesThrough base = false := by
  subst h
  simpa [passesThrough, isError, isUndefined, Value.type] using hkind

/-! ## Answers about parts -/

variable {α : Type} {test : Inner} {parts ahead behind : List (Part α)} {p : Part α} {base r : Value}
  {results : List Value}

/-- The results of an inner expression for some parts, in their order. -/
def Results (test : Inner) (parts : List (Part α)) (results : List Value) : Prop :=
  List.Forall₂ (fun p r => test p.part p.position = .ok r) parts results

/-- An inner expression has a wanted result for every part, or there is a first part for which it
has another result or aborts. -/
theorem results_cases (test : Inner) (parts : List (Part α)) (wanted : Value → Prop) :
    (∃ results, Results test parts results ∧ ∀ r ∈ results, wanted r) ∨
    ∃ ahead p behind results, parts = ahead ++ p :: behind ∧ Results test ahead results ∧
      (∀ r ∈ results, wanted r) ∧ ∀ r, test p.part p.position = .ok r → ¬wanted r := by
  induction parts with
  | nil => exact .inl ⟨[], .nil, by simp⟩
  | cons p rest ih =>
    by_cases hp : ∃ r, test p.part p.position = .ok r ∧ wanted r
    · obtain ⟨r, hr, hwanted⟩ := hp
      rcases ih with ⟨results, h, hall⟩ | ⟨ahead, q, behind, results, hparts, h, hall, hq⟩
      · exact .inl ⟨r :: results, .cons hr h, List.forall_mem_cons.2 ⟨hwanted, hall⟩⟩
      · refine .inr ⟨p :: ahead, q, behind, r :: results, ?_, .cons hr h,
          List.forall_mem_cons.2 ⟨hwanted, hall⟩, hq⟩
        rw [hparts, List.cons_append]
    · exact .inr ⟨[], p, rest, [], rfl, .nil, by simp, fun r hr hwanted => hp ⟨r, hr, hwanted⟩⟩

/-- Every one of these results is a boolean. -/
def AllBoolean (results : List Value) : Prop := ∀ r ∈ results, r.asBoolean?.isSome

/-- What is kept of some parts: those whose result is true, in their order. -/
def keptBy (parts : List (Part α)) (results : List Value) : List α :=
  ((parts.zip results).filter fun (_, r) => r.asBoolean? = some true).map fun (p, _) => p.kept

/-- The error of a step whose condition has no boolean as its result: the error that it has, or what
is wrong with its type. -/
def refusal (r : Value) : Kind Value :=
  if r.isError then r.kind else .error (.condition r.type) none

/-- The outcome of a filter over the parts of a base. If every result is a boolean, what is kept is
put together again. The first result that is none makes the error, whatever the parts behind it are.
In both cases the lineage is that of the base and of all results so far. A condition that aborts
makes the step abort. -/
structure IsFilter (test : Inner) (base : Value) (parts : List (Part α)) (wrap : List α → Kind Value)
    (outcome : Eval Value) : Prop where
  kept : ∀ results, Results test parts results → AllBoolean results →
    outcome = .ok ⟨wrap (keptBy parts results), mergedMetadata (base :: results)⟩
  refused : ∀ ahead p behind results r, parts = ahead ++ p :: behind →
    Results test ahead results → AllBoolean results →
    test p.part p.position = .ok r → r.asBoolean? = none →
    outcome = .ok ⟨refusal r, mergedMetadata (base :: results ++ [r])⟩
  aborted : ∀ ahead p behind results fault, parts = ahead ++ p :: behind →
    Results test ahead results → AllBoolean results →
    test p.part p.position = .error fault → outcome = .error fault

theorem verdict_of_boolean {keep : Bool} (h : r.asBoolean? = some keep) : verdict r = .ok keep := by
  obtain ⟨kind, m⟩ := r
  cases kind with
  | boolean b =>
    cases h
    rfl
  | _ => cases h

theorem verdict_of_none (h : r.asBoolean? = none) : verdict r = .error ⟨refusal r, r.metadata⟩ := by
  obtain ⟨kind, m⟩ := r
  cases kind with
  | boolean b => cases h
  | _ => rfl

/-- The results of the first parts are gathered, and the condition goes on with the others. -/
theorem keepWhere_append (h : Results test ahead results) (hboolean : AllBoolean results)
    (m : Metadata) : keepWhere test m (ahead ++ behind) =
      (keepWhere test (results.foldl (fun m r => m.merge r.metadata) m) behind).map
        (Except.map fun out => (keptBy ahead results ++ out.1, out.2)) := by
  -- Each result is merged before the condition goes on, so the lineage so far is general.
  induction h generalizing m with
  | nil =>
    simp only [List.nil_append, List.foldl_nil, keptBy, List.zip_nil_left, List.filter_nil,
      List.map_nil]
    rcases keepWhere test m behind with fault | (e | out) <;> rfl
  | @cons p r ahead results hp _ ih =>
    obtain ⟨keep, hkeep⟩ := Option.isSome_iff_exists.1 (hboolean r (by simp))
    have rest := ih (fun s hs => hboolean s (by simp [hs])) (m.merge r.metadata)
    rw [List.cons_append, keepWhere, hp, ok_bind, verdict_of_boolean hkeep]
    dsimp only
    rw [rest, List.foldl_cons]
    rcases keepWhere test _ behind with fault | (e | out)
    · rfl
    · rfl
    · cases keep <;> simp [keptBy, hkeep, Except.map, pure, Except.pure, bind, Except.bind]

theorem isFilter_of_keepWhere (test : Inner) (base : Value) (parts : List (Part α))
    (wrap : List α → Kind Value) : IsFilter test base parts wrap (do
      return concluded (fun kept => ofKind (wrap kept)) (← keepWhere test base.metadata parts)) where
  kept results h hboolean := by
    have run : keepWhere test base.metadata (parts ++ []) = _ :=
      keepWhere_append h hboolean base.metadata
    rw [List.append_nil, ← mergedMetadata_cons] at run
    rw [run]
    simp [keepWhere, Except.map, concluded, Value.withMetadata, ofKind, pure, Except.pure]
  refused ahead p behind results r hparts h hboolean hr hnone := by
    rw [hparts, keepWhere_append h hboolean, ← mergedMetadata_cons, keepWhere, hr, ok_bind,
      verdict_of_none hnone, List.cons_append, ← List.cons_append, mergedMetadata_concat,
      Metadata.merge_comm]
    rfl
  aborted ahead p behind results fault hparts h hboolean hfault := by
    rw [hparts, keepWhere_append h hboolean, keepWhere, hfault]
    rfl

/-! ## Condition steps -/

/-- A value without parts on which an operation can be done. -/
def IsScalar (v : Value) : Prop :=
  v.type ∈ [ValueType.boolean, .number, .text, .null]

instance (v : Value) : Decidable (IsScalar v) := inferInstanceAs (Decidable (_ ∈ _))

theorem judged_eq (base r : Value) : judged base r = ⟨match r.asBoolean? with
      | some true => base.kind
      | some false => .undefined
      | none => refusal r, mergedMetadata [base, r]⟩ := by
  have lineage : mergedMetadata [base, r] = base.metadata.merge r.metadata := mergedMetadata_cons _ _
  unfold judged
  rw [lineage]
  cases h : r.asBoolean? with
  | none =>
    rw [verdict_of_none h, Metadata.merge_comm]
    rfl
  | some keep =>
    rw [verdict_of_boolean h]
    cases keep <;> rfl

theorem condition_of_scalar (h : IsScalar base) (test : Inner) :
    condition base test = do return judged base (← test base .undefined) := by
  obtain ⟨kind, m⟩ := base
  have looks : passesThrough ⟨kind, m⟩ = false := by
    cases kind <;> simp_all [IsScalar, passesThrough, isError, isUndefined, Value.type, Kind.type]
  rw [condition_eq looks]
  cases kind <;> first | rfl | simp [IsScalar, Value.type, Kind.type] at h

/-- A condition step filters the elements of an array and the entries of an object. On a scalar its
condition decides between the scalar and Undefined. In each case the condition is evaluated with `@`
as the part and `#` as its index, its key or, for a scalar, Undefined, and with all other bindings of
the context. -/
theorem condition_filters (ctx : Context) (c : Compiled) (base : Value) :
    let test : Inner := fun part position =>
      c.evaluate { ctx with relative := some part, position := some position }
    (∀ items, base.kind = .array items →
      IsFilter test base (elementParts items) .array (condition base test)) ∧
    (∀ entries, base.kind = .object entries →
      IsFilter test base (entryParts entries) .object (condition base test)) ∧
    (IsScalar base →
      (∀ r, test base .undefined = .ok r → condition base test = .ok ⟨match r.asBoolean? with
          | some true => base.kind
          | some false => .undefined
          | none => refusal r, mergedMetadata [base, r]⟩) ∧
      ∀ fault, test base .undefined = .error fault → condition base test = .error fault) := by
  intro test
  refine ⟨fun items hkind => ?_, fun entries hkind => ?_, fun hscalar => ⟨fun r hr => ?_, ?_⟩⟩
  · rw [condition_eq (looks_of_kind hkind (by simp [Kind.type]))]
    simp only [hkind]
    exact isFilter_of_keepWhere test base (elementParts items) .array
  · rw [condition_eq (looks_of_kind hkind (by simp [Kind.type]))]
    simp only [hkind]
    exact isFilter_of_keepWhere test base (entryParts entries) .object
  · rw [condition_of_scalar hscalar, hr, ok_bind, judged_eq]
    rfl
  · intro fault hfault
    rw [condition_of_scalar hscalar, hfault]
    rfl

/-- `[?(@ > limit)]` with a secret limit of 2. Of 1 and 3 the second is kept, in a secret array. On 3,
a text and 4 the step fails for the text, and its error is secret. The number 1 alone is dropped. -/
theorem condition_filters_limited :
    let limit : Expression := .basic .unknown (.identifier "limit") [] none
    let e : Expression := .comparison .greater .unknown (.basic .unknown .relative [] none) limit
    let ctx : Context :=
      { Context.empty with bindings := .ofList [("limit", (Value.ofNat 2).asSecret)] }
    ∃ c, e.compile .empty = .ok c ∧
      let test : Inner := fun part position =>
        c.evaluate { ctx with relative := some part, position := some position }
      condition (.array [.ofNat 1, .ofNat 3]) test = .ok ⟨.array [.ofNat 3], .hidden⟩ ∧
      condition (.array [.ofNat 3, .text "x", .ofNat 4]) test =
        .ok ⟨.error (.comparisonOperand .text) (some .unknown), .hidden⟩ ∧
      condition (.ofNat 1) test = .ok ⟨.undefined, .hidden⟩ := by
  intro limit e ctx
  refine ⟨_, rfl, ?_⟩
  intro test
  have yes : test (.ofNat 3) (.ofNat 0) = .ok ⟨.boolean true, .hidden⟩ := rfl
  have booleans : ∀ b : Bool, (⟨.boolean b, .hidden⟩ : Value).asBoolean?.isSome := fun _ => rfl
  refine ⟨?_, ?_, ?_⟩
  · refine ((condition_filters ctx _ (.array [.ofNat 1, .ofNat 3])).1 _ rfl).kept
      [⟨.boolean false, .hidden⟩, ⟨.boolean true, .hidden⟩] (.cons rfl (.cons rfl .nil)) ?_
    simp [AllBoolean, booleans]
  · refine ((condition_filters ctx _ (.array [.ofNat 3, .text "x", .ofNat 4])).1 _ rfl).refused
      [_] _ [_] [⟨.boolean true, .hidden⟩] _ rfl (.cons yes .nil) ?_ rfl rfl
    simp [AllBoolean, booleans]
  · exact ((condition_filters ctx _ (.ofNat 1)).2.2 (by decide)).1 ⟨.boolean false, .hidden⟩ rfl

end Selection

end PolicyExpr
