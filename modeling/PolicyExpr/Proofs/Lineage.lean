import Mathlib.Order.Basic
import PolicyExpr.Proofs.Combination

/-!
# Lineage through operators

Metadata are ordered by what they contain. Every operator of the language gives a result with the
metadata of all operands, whichever of its exits it takes, and the metadata of every step that needs
nothing but its base contain those of the base. A result computed from a secret value is therefore
secret.
-/
namespace PolicyExpr

namespace Metadata

/-- One lineage contains another: all its locations, and its secrecy. -/
instance : PartialOrder Metadata where
  le a b := (∀ l ∈ a.locations, l ∈ b.locations) ∧ (a.secret = true → b.secret = true)
  le_refl _ := ⟨fun _ h => h, fun h => h⟩
  le_trans _ _ _ hab hbc := ⟨fun l h => hbc.1 l (hab.1 l h), fun h => hbc.2 (hab.2 h)⟩
  le_antisymm _ _ hab hba :=
    ext_iff_mem.2 ⟨fun l => ⟨hab.1 l, hba.1 l⟩, Bool.eq_iff_iff.2 ⟨hab.2, hba.2⟩⟩

theorem secret_of_le {a b : Metadata} (h : a ≤ b) (hs : a.secret = true) : b.secret = true := h.2 hs

theorem le_merge_left (a b : Metadata) : a ≤ a.merge b :=
  ⟨fun _ h => mem_locations_merge.2 (.inl h), fun h => by simp [h]⟩

theorem le_merge_right (a b : Metadata) : b ≤ a.merge b :=
  ⟨fun _ h => mem_locations_merge.2 (.inr h), fun h => by simp [h]⟩

theorem merge_comm (a b : Metadata) : a.merge b = b.merge a := by
  simp [ext_iff_mem, or_comm, Bool.or_comm]

theorem merge_eq_of_le {a b : Metadata} (h : a ≤ b) : a.merge b = b := by
  refine ext_iff_mem.2 ⟨fun l => ?_, ?_⟩
  · rw [mem_locations_merge, or_iff_right_of_imp (h.1 l)]
  · rw [secret_merge, Bool.or_eq_right_iff_imp]
    exact h.2

private theorem le_foldl_merge (ms : List Metadata) (start : Metadata) :
    start ≤ ms.foldl merge start ∧ ∀ m ∈ ms, m ≤ ms.foldl merge start := by
  induction ms generalizing start with
  | nil => simp
  | cons m rest ih =>
    obtain ⟨hstart, hrest⟩ := ih (start.merge m)
    refine ⟨(le_merge_left start m).trans hstart, fun n hn => ?_⟩
    rcases List.mem_cons.1 hn with rfl | hn
    · exact (le_merge_right start n).trans hstart
    · exact hrest n hn

/-- The merge of a list contains each of its members. -/
theorem le_mergeAll {m : Metadata} {ms : List Metadata} (h : m ∈ ms) : m ≤ mergeAll ms :=
  (le_foldl_merge ms empty).2 m h

private theorem secret_foldl_merge (ms : List Metadata) (start : Metadata) :
    (ms.foldl merge start).secret = (start.secret || ms.any Metadata.secret) := by
  induction ms generalizing start with
  | nil => simp
  | cons m rest ih => simp [ih, Bool.or_assoc]

/-- The merge of a list is secret exactly if one of its members is. -/
theorem secret_mergeAll (ms : List Metadata) : (mergeAll ms).secret = ms.any Metadata.secret :=
  secret_foldl_merge ms empty

private theorem mem_foldl_merge {l : SourceLocation} (ms : List Metadata) (start : Metadata) :
    l ∈ (ms.foldl merge start).locations ↔ l ∈ start.locations ∨ ∃ m ∈ ms, l ∈ m.locations := by
  induction ms generalizing start with
  | nil => simp
  | cons m rest ih => simp [ih, or_assoc]

theorem mem_locations_mergeAll {l : SourceLocation} {ms : List Metadata} :
    l ∈ (mergeAll ms).locations ↔ ∃ m ∈ ms, l ∈ m.locations := by
  simp [mergeAll, mem_foldl_merge, empty]

end Metadata

namespace Value

open Metadata

@[simp] theorem metadata_mergeMetadata (v : Value) (m : Metadata) :
    (v.mergeMetadata m).metadata = v.metadata.merge m := rfl

/-- A place does not change the lineage of an error. -/
@[simp] theorem metadata_locate (v : Value) (l : SourceLocation) :
    (v.locate l).metadata = v.metadata := by
  unfold locate
  split <;> rfl

theorem secret_mergedMetadata (vs : List Value) :
    (mergedMetadata vs).secret = vs.any isSecret := by
  rw [mergedMetadata, secret_mergeAll, List.any_map]
  rfl

theorem mem_locations_mergedMetadata {l : SourceLocation} {vs : List Value} :
    l ∈ (mergedMetadata vs).locations ↔ ∃ v ∈ vs, l ∈ v.metadata.locations := by
  simp [mergedMetadata, mem_locations_mergeAll]

theorem le_mergedMetadata {v : Value} {vs : List Value} (h : v ∈ vs) :
    v.metadata ≤ mergedMetadata vs :=
  le_mergeAll (List.mem_map_of_mem h)

end Value

namespace Operator

open Value Metadata

/-- An operator on `n` operands whose results carry the lineage of all of them. -/
def CarriesLineage (n : Nat) (op : List Value → Eval Value) : Prop :=
  ∀ vs v, vs.length = n → op vs = .ok v → ∀ u ∈ vs, u.metadata ≤ v.metadata

/-- It is enough to carry what the operands merge to. -/
theorem carriesLineage_of_merged {n : Nat} {op : List Value → Eval Value}
    (h : ∀ vs v, op vs = .ok v → mergedMetadata vs ≤ v.metadata) : CarriesLineage n op :=
  fun vs v _ hv _ hu => (le_mergedMetadata hu).trans (h vs v hv)

theorem carriesLineage_onOne {op : Value → Value} (h : ∀ u, u.metadata ≤ (op u).metadata) :
    CarriesLineage 1 (onOne fun v => .ok (op v)) := by
  intro vs v hlen hv u hu
  obtain ⟨w, rfl⟩ := List.length_eq_one_iff.1 hlen
  cases hv
  rw [List.mem_singleton.1 hu]
  exact h w

theorem carriesLineage_onTwo {op : Value → Value → Value}
    (h : ∀ a b, mergedMetadata [a, b] ≤ (op a b).metadata) :
    CarriesLineage 2 (onTwo fun a b => .ok (op a b)) := by
  intro vs v hlen hv u hu
  match vs, hlen with
  | [a, b], _ =>
    cases hv
    exact (le_mergedMetadata hu).trans (h a b)

/-- A place for errors does not lose lineage. -/
theorem CarriesLineage.located {n : Nat} {op : List Value → Eval Value} (h : CarriesLineage n op)
    (l : SourceLocation) : CarriesLineage n fun vs => do return (← op vs).locate l := by
  intro vs v hlen hv u hu
  obtain ⟨w, hw, hlocated⟩ := bind_eq_ok hv
  cases hlocated
  simpa using h vs w hlen hw u hu

/-! ## Shared exits -/

theorem metadata_firstError {vs : List Value} {e : Value} (h : firstError? vs = some e) :
    e.metadata = mergedMetadata vs := by
  obtain ⟨w, hw, rfl⟩ := Option.map_eq_some_iff.1 h
  exact merge_eq_of_le (le_mergedMetadata (List.mem_of_find?_eq_some hw))

theorem metadata_binary (left right : Value) (op : Value → Value → Value) :
    (binary left right op).metadata = mergedMetadata [left, right] := by
  unfold binary
  split
  · next he => exact metadata_firstError he
  · rfl

/-! ## Arithmetic and comparison -/

theorem metadata_add {a b v : Value} (h : add a b = .ok v) :
    v.metadata = mergedMetadata [a, b] := by
  unfold add at h
  split at h
  · split at h
    · next he =>
      cases h
      exact metadata_firstError he
    · obtain ⟨back, -, hv⟩ := bind_eq_ok h
      cases hv
      rfl
  · cases h
    exact metadata_binary _ _ _

theorem metadata_additive (op : AdditiveOperator) {a b v : Value} (h : op.apply a b = .ok v) :
    v.metadata = mergedMetadata [a, b] := by
  cases op with
  | plus => exact metadata_add h
  | minus =>
    cases h
    exact metadata_binary _ _ _

theorem metadata_multiplicative (op : MultiplicativeOperator) {a b v : Value}
    (h : op.apply a b = .ok v) : v.metadata = mergedMetadata [a, b] := by
  cases op <;> cases h <;> exact metadata_binary _ _ _

theorem metadata_comparison (op : ComparisonOperator) (a b : Value) :
    (op.apply a b).metadata = mergedMetadata [a, b] := by
  cases op <;> exact metadata_binary _ _ _

/-- A chain carries what it began with, and each operand that an operator joined to it. -/
private theorem le_chainFrom {ops : List (Value → Value → Eval Value)}
    (hops : ∀ op ∈ ops, ∀ a b v, op a b = .ok v → mergedMetadata [a, b] ≤ v.metadata)
    {vs : List Value} {acc v : Value} (hlen : vs.length = ops.length)
    (h : chainFrom acc ops vs = .ok v) : ∀ u ∈ acc :: vs, u.metadata ≤ v.metadata := by
  induction ops generalizing vs acc with
  | nil =>
    cases List.eq_nil_of_length_eq_zero hlen
    cases h
    intro u hu
    cases List.mem_singleton.1 hu
    exact le_rfl
  | cons op ops ih =>
    obtain ⟨w, ws, rfl⟩ := List.exists_cons_of_length_eq_add_one hlen
    obtain ⟨joined, hop, h⟩ := bind_eq_ok h
    have merged := hops op (by simp) acc w joined hop
    have rest := ih (fun op hm => hops op (by simp [hm])) (by simpa using hlen) h
    have ahead : ∀ u ∈ [acc, w], u.metadata ≤ v.metadata := fun u hu =>
      ((le_mergedMetadata hu).trans merged).trans (rest joined (by simp))
    intro u hu
    rcases List.mem_cons.1 hu with rfl | hu
    · exact ahead u (by simp)
    · rcases List.mem_cons.1 hu with rfl | hu
      · exact ahead u (by simp)
      · exact rest u (by simp [hu])

theorem carriesLineage_chain {ops : List (Value → Value → Eval Value)}
    (hops : ∀ op ∈ ops, ∀ a b v, op a b = .ok v → mergedMetadata [a, b] ≤ v.metadata) :
    CarriesLineage (ops.length + 1) (chain ops) := by
  intro vs v hlen hv
  obtain ⟨w, ws, rfl⟩ := List.exists_cons_of_length_eq_add_one hlen
  exact le_chainFrom hops (by simpa using hlen) hv

theorem carriesLineage_additive (ops : List AdditiveOperator) :
    CarriesLineage (ops.length + 1) (chain (ops.map AdditiveOperator.apply)) := by
  have hops : ∀ f ∈ ops.map AdditiveOperator.apply, ∀ a b v, f a b = .ok v →
      mergedMetadata [a, b] ≤ v.metadata := by
    intro f hf a b v hv
    obtain ⟨op, -, rfl⟩ := List.mem_map.1 hf
    exact (metadata_additive op hv).ge
  simpa using carriesLineage_chain hops

theorem carriesLineage_multiplicative (ops : List MultiplicativeOperator) :
    CarriesLineage (ops.length + 1) (chain (ops.map MultiplicativeOperator.apply)) := by
  have hops : ∀ f ∈ ops.map MultiplicativeOperator.apply, ∀ a b v, f a b = .ok v →
      mergedMetadata [a, b] ≤ v.metadata := by
    intro f hf a b v hv
    obtain ⟨op, -, rfl⟩ := List.mem_map.1 hf
    exact (metadata_multiplicative op hv).ge
  simpa using carriesLineage_chain hops

/-! ## Equality, booleans and containers -/

theorem metadata_regexMatch (a b : Value) :
    (regexMatch a b).metadata = mergedMetadata [a, b] := by
  unfold regexMatch
  split
  · next he => exact metadata_firstError he
  · split
    · exact metadata_binary _ _ _
    · rfl

theorem metadata_equality (op : EqualityOperator) (a b : Value) :
    (op.apply a b).metadata = mergedMetadata [a, b] := by
  cases op with
  | equal => exact metadata_binary _ _ _
  | notEqual => exact metadata_binary _ _ _
  | regex => exact metadata_regexMatch a b

theorem metadata_eager (op : EagerOperator) (vs : List Value) :
    (eager op vs).metadata = mergedMetadata vs := by
  unfold eager
  dsimp only
  split
  · next w hw =>
    split
    · exact merge_eq_of_le (le_mergedMetadata (List.mem_of_find?_eq_some hw))
    · rfl
  · rfl

theorem metadata_unary (op : UnaryOperator) (v : Value) : (op.apply v).metadata = v.metadata := by
  cases op with
  | not =>
    simp only [UnaryOperator.apply, not]
    split
    · rfl
    · split <;> rfl
  | negate =>
    simp only [UnaryOperator.apply, negate]
    split
    · rfl
    · split <;> rfl
  | plus =>
    simp only [UnaryOperator.apply, plus]
    split <;> rfl

theorem metadata_arrayOf (vs : List Value) : (arrayOf vs).metadata = mergedMetadata vs := by
  unfold arrayOf
  split
  · next he => exact metadata_firstError he
  · rfl

theorem metadata_objectOf (keys : List String) (vs : List Value) :
    (objectOf keys vs).metadata = mergedMetadata vs := by
  unfold objectOf
  split
  · next he => exact metadata_firstError he
  · rfl

end Operator

namespace Selection

open Value Metadata

theorem le_derived (result base : Value) : base.metadata ≤ (derived result base).metadata :=
  le_merge_right result.metadata _

theorem le_failed (f : Failure) (base : Value) : base.metadata ≤ (failed f base).metadata :=
  le_derived _ base

theorem le_key (base : Value) (name : String) : base.metadata ≤ (key base name).metadata := by
  unfold key
  split
  · exact le_rfl
  · split
    · split <;> exact le_derived _ base
    · exact le_failed _ base

theorem le_wildcard (base : Value) : base.metadata ≤ (wildcard base).metadata := by
  unfold wildcard
  split
  · exact le_rfl
  · split
    · exact le_rfl
    · exact le_derived _ base
    · exact le_failed _ base

theorem le_index (base : Value) (i : Int) : base.metadata ≤ (index base i).metadata := by
  unfold index
  split
  · exact le_rfl
  · split
    · split
      · exact le_derived _ base
      · exact le_failed _ base
    · exact le_failed _ base

theorem le_slice (base : Value) (from? to? step? : Option Int) :
    base.metadata ≤ (slice base from? to? step?).metadata := by
  unfold slice
  split
  · exact le_rfl
  · split
    · dsimp only
      split
      · exact le_failed _ base
      · exact le_derived _ base
    · exact le_derived _ base

theorem le_indexUnion (base : Value) (indices : List Int) :
    base.metadata ≤ (indexUnion base indices).metadata := by
  unfold indexUnion
  split
  · exact le_rfl
  · split
    · split
      · exact le_derived _ base
      · exact le_failed _ base
    · exact le_failed _ base

theorem le_keyUnion (base : Value) (keys : List String) :
    base.metadata ≤ (keyUnion base keys).metadata := by
  unfold keyUnion
  split
  · exact le_rfl
  · split
    · exact le_derived _ base
    · exact le_failed _ base

theorem le_recursive (base : Value) (found : Option (List Value)) :
    base.metadata ≤ (recursive base found).metadata := by
  unfold recursive
  split
  · exact le_derived _ base
  · exact le_failed _ base

theorem le_recursiveKey (base : Value) (name : String) :
    base.metadata ≤ (recursiveKey base name).metadata := by
  unfold recursiveKey
  split
  · exact le_rfl
  · exact le_recursive base _

theorem le_recursiveIndex (base : Value) (i : Int) :
    base.metadata ≤ (recursiveIndex base i).metadata := by
  unfold recursiveIndex
  split
  · exact le_rfl
  · exact le_recursive base _

theorem le_recursiveWildcard (base : Value) :
    base.metadata ≤ (recursiveWildcard base).metadata := by
  unfold recursiveWildcard
  split
  · exact le_rfl
  · exact le_recursive base _

end Selection

end PolicyExpr
