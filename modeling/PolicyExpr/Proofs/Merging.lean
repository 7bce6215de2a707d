import Mathlib.Order.Lattice
import PolicyExpr.Proofs.Lineage

/-!
# Merging lineage

Merging makes the metadata of values a semilattice: locations are united, secrecy is the
disjunction, and values merged in any order and in any groups have one lineage.

Metadata can be kept shared: lineage that contains something is a reference to a record, copies
refer to the same record, and merging makes a new record only for two references to different
records. Every run of such operations refers to the metadata that the definitions give.
-/
namespace PolicyExpr

/-! ## Document order -/

/-- The order of a document: by start line, start character, end line and end character. -/
def SourceLocation.Precedes (a b : SourceLocation) : Prop :=
  a.startLine < b.startLine ∨ a.startLine = b.startLine ∧
    (a.startChar < b.startChar ∨ a.startChar = b.startChar ∧
      (a.endLine < b.endLine ∨ a.endLine = b.endLine ∧ a.endChar < b.endChar))

/-- The order of ranks is the order of the document: no word reaches the base of the rank. -/
theorem SourceLocation.precedes_iff {a b : SourceLocation} : a.Precedes b ↔ a.rank < b.rank := by
  obtain ⟨a₁, a₂, a₃, a₄⟩ := a
  obtain ⟨b₁, b₂, b₃, b₄⟩ := b
  simp only [Precedes, rank, UInt32.size, UInt32.lt_iff_toNat_lt, ← UInt32.toNat_inj]
  have := a₁.toNat_lt; have := a₂.toNat_lt; have := a₃.toNat_lt; have := a₄.toNat_lt
  have := b₁.toNat_lt; have := b₂.toNat_lt; have := b₃.toNat_lt; have := b₄.toNat_lt
  omega

namespace Metadata

theorem locations_precede (m : Metadata) : m.locations.Pairwise SourceLocation.Precedes :=
  m.ascending.imp SourceLocation.precedes_iff.2

/-! ## The semilattice -/

/-- The least lineage that contains two others is their merge. -/
instance : SemilatticeSup Metadata where
  sup := merge
  le_sup_left := le_merge_left
  le_sup_right := le_merge_right
  sup_le a b c hac hbc := by
    refine ⟨fun l hl => ?_, fun hs => ?_⟩
    · exact (mem_locations_merge.1 hl).elim (hac.1 l) (hbc.1 l)
    · rw [secret_merge, Bool.or_eq_true] at hs
      exact hs.elim hac.2 hbc.2

theorem merge_assoc (a b c : Metadata) : (a.merge b).merge c = a.merge (b.merge c) :=
  sup_assoc a b c

theorem merge_self (a : Metadata) : a.merge a = a := sup_idem a

theorem merge_empty (a : Metadata) : a.merge empty = a := (merge_comm a empty).trans (empty_merge a)

theorem isEmpty_iff {m : Metadata} : m.isEmpty = true ↔ m.locations = [] ∧ m.secret = false := by
  simp [isEmpty]

/-- The merge of a list depends on its members only. -/
theorem mergeAll_congr {ms ns : List Metadata} (h : ∀ m, m ∈ ms ↔ m ∈ ns) :
    mergeAll ms = mergeAll ns := by
  refine ext_iff_mem.2 ⟨fun l => ?_, ?_⟩
  · simp only [mem_locations_mergeAll, h]
  · rw [secret_mergeAll, secret_mergeAll, Bool.eq_iff_iff, List.any_eq_true, List.any_eq_true]
    simp only [h]

/-- Lists that are merged one after the other can be merged apart. -/
theorem mergeAll_append (ms ns : List Metadata) :
    mergeAll (ms ++ ns) = (mergeAll ms).merge (mergeAll ns) := by
  refine ext_iff_mem.2 ⟨fun l => ?_, ?_⟩
  · simp [mem_locations_mergeAll, or_and_right, exists_or]
  · simp [secret_mergeAll]

end Metadata

/-! ## Groups of values -/

/-- Values in groups: each group is merged before it is merged with what stands beside it. -/
inductive Grouping where
  | nothing
  | single (v : Value)
  | pair (left right : Grouping)

namespace Grouping

/-- The values of all groups, from left to right. -/
def values : Grouping → List Value
  | nothing => []
  | single v => [v]
  | pair left right => left.values ++ right.values

/-- The metadata of all values, merged group by group. -/
def merged : Grouping → Metadata
  | nothing => .empty
  | single v => v.metadata
  | pair left right => left.merged.merge right.merged

theorem merged_eq (g : Grouping) : g.merged = Value.mergedMetadata g.values := by
  induction g with
  | nothing => rfl
  | single v => exact (Metadata.empty_merge v.metadata).symm
  | pair left right ihl ihr =>
    rw [merged, ihl, ihr, values, Value.mergedMetadata, Value.mergedMetadata, Value.mergedMetadata,
      List.map_append, Metadata.mergeAll_append]

/-- The groups do not count, nor does the order of the values. -/
theorem merged_of_perm {g : Grouping} {vs : List Value} (h : g.values.Perm vs) :
    g.merged = Value.mergedMetadata vs := by
  rw [merged_eq]
  exact Metadata.mergeAll_congr fun m => (h.map Value.metadata).mem_iff

end Grouping

/-! ## Shared records -/

namespace Shared

/-- Lineage as it is kept: nothing for no lineage, and otherwise the place of a record. -/
abbrev Reference := Option Nat

/-- The records so far. A record does not change, and new ones are added behind the others. -/
abbrev Store := List Metadata

/-- What a reference stands for. A record is not empty. -/
def Refers (store : Store) : Reference → Metadata → Prop
  | none, m => m = .empty
  | some n, m => store[n]? = some m ∧ m.isEmpty = false

/-- The metadata that a reference leads to. -/
def read (store : Store) : Reference → Metadata
  | none => .empty
  | some n => store[n]?.getD .empty

/-- Adds a record and refers to it. -/
def keep (store : Store) (m : Metadata) : Reference × Store := (some store.length, store ++ [m])

/-- Merges what two references lead to. Next to nothing the other one is shared, and so is a record
that both refer to. -/
def merge (store : Store) : Reference → Reference → Reference × Store
  | none, b => (b, store)
  | some m, none => (some m, store)
  | some m, some n =>
    if m = n then (some m, store)
    else keep store ((read store (some m)).merge (read store (some n)))

/-- Equality of lineage: of what the records hold, wherever they are. -/
def same (store : Store) : Reference → Reference → Bool
  | none, none => true
  | some m, some n => decide (read store (some m) = read store (some n))
  | _, _ => false

variable {store more : Store} {r s : Reference} {m n : Metadata}

theorem Refers.read_eq (h : Refers store r m) : read store r = m := by
  cases r with
  | none => exact h.symm
  | some i => simp [read, h.1]

/-- New records leave the references to the others as they were. -/
theorem Refers.append (h : Refers store r m) : Refers (store ++ more) r m := by
  cases r with
  | none => exact h
  | some i =>
    obtain ⟨hi, -⟩ := List.getElem?_eq_some_iff.1 h.1
    exact ⟨(List.getElem?_append_left hi).trans h.1, h.2⟩

/-- There is no reference exactly if there is no location and no secret. -/
theorem Refers.isNone_iff (h : Refers store r m) :
    r.isNone = true ↔ m.locations = [] ∧ m.secret = false := by
  rw [← Metadata.isEmpty_iff]
  cases r with
  | none =>
    cases h
    exact iff_of_true rfl rfl
  | some i => simp [h.2]

theorem refers_keep (h : m.isEmpty = false) : Refers (keep store m).2 (keep store m).1 m :=
  ⟨by simp [keep], h⟩

theorem isEmpty_merge_eq_false (h : m.isEmpty = false) : (m.merge n).isEmpty = false := by
  rw [← Bool.not_eq_true, Metadata.isEmpty_iff] at h ⊢
  rintro ⟨hlocations, hsecret⟩
  refine h ⟨List.eq_nil_iff_forall_not_mem.2 fun l hl => ?_, ?_⟩
  · have : l ∈ (m.merge n).locations := Metadata.mem_locations_merge.2 (.inl hl)
    simp [hlocations] at this
  · simp_all

/-- Merged references stand for merged metadata, whatever is shared. -/
theorem Refers.merge (hr : Refers store r m) (hs : Refers store s n) :
    Refers (merge store r s).2 (merge store r s).1 (m.merge n) := by
  cases r with
  | none =>
    cases hr
    rw [Metadata.empty_merge]
    exact hs
  | some i =>
    cases s with
    | none =>
      cases hs
      rw [Metadata.merge_empty]
      exact hr
    | some k =>
      rw [Shared.merge]
      split
      · next hik =>
        subst hik
        have hmn : m = n := Option.some.inj (hr.1.symm.trans hs.1)
        rw [← hmn, Metadata.merge_self]
        exact hr
      · rw [hr.read_eq, hs.read_eq]
        exact refers_keep (isEmpty_merge_eq_false hr.2)

/-- Merging only adds records. -/
theorem merge_appends (store : Store) (r s : Reference) :
    ∃ more, (Shared.merge store r s).2 = store ++ more := by
  unfold Shared.merge
  split
  · exact ⟨[], by simp⟩
  · exact ⟨[], by simp⟩
  · split
    · exact ⟨[], by simp⟩
    · exact ⟨_, rfl⟩

/-- References to equal lineage are recognised, also where the records are different. -/
theorem Refers.same_iff (hr : Refers store r m) (hs : Refers store s n) :
    same store r s = true ↔ m = n := by
  have hempty : Metadata.empty.isEmpty = true := rfl
  cases r with
  | none =>
    cases hr
    cases s with
    | none => exact iff_of_true rfl hs.symm
    | some k =>
      refine iff_of_false (by simp [same]) fun h => ?_
      simp [← h, hempty, Refers] at hs
  | some i =>
    cases s with
    | none =>
      cases hs
      refine iff_of_false (by simp [same]) fun h => ?_
      simp [h, hempty, Refers] at hr
    | some k => rw [same, decide_eq_true_iff, hr.read_eq, hs.read_eq]

/-! ### Runs -/

/-- A step that makes lineage. The steps before it are counted from zero; what it merges are
results of such steps, and no lineage where there is no such step. -/
inductive Step where
  | empty
  | place (l : SourceLocation)
  | hide
  | merge (first second : Nat)

/-- The lineage that a step makes of the results before it. -/
def Step.meaning (results : List Metadata) : Step → Metadata
  | empty => .empty
  | place l => .ofLocation l
  | hide => .hidden
  | merge first second =>
    (results[first]?.getD .empty).merge (results[second]?.getD .empty)

/-- A step over shared records. -/
def Step.share (store : Store) (results : List Reference) : Step → Reference × Store
  | empty => (none, store)
  | place l => keep store (.ofLocation l)
  | hide => keep store .hidden
  | merge first second =>
    Shared.merge store (results[first]?.getD none) (results[second]?.getD none)

/-- The results of all steps of a run. -/
def meanings (results : List Metadata) : List Step → List Metadata
  | [] => results
  | step :: rest => meanings (results ++ [step.meaning results]) rest

/-- The references to the results of all steps of a run, and the records. -/
def run (store : Store) (results : List Reference) : List Step → List Reference × Store
  | [] => (results, store)
  | step :: rest =>
    let (r, store) := step.share store results
    run store (results ++ [r]) rest

/-- The references of a run lead to what is meant. There is no reference exactly where there is no
location and no secret, and references are the same exactly if what they lead to is. -/
structure StandsFor (store : Store) (references : List Reference) (results : List Metadata) :
    Prop where
  leads : references.map (read store) = results
  absent : ∀ r ∈ references,
    r.isNone = true ↔ (read store r).locations = [] ∧ (read store r).secret = false
  same_iff : ∀ r ∈ references, ∀ s ∈ references,
    same store r s = true ↔ read store r = read store s

variable {references : List Reference} {results : List Metadata}

theorem refers_getD (h : List.Forall₂ (Refers store) references results) (i : Nat) :
    Refers store (references[i]?.getD none) (results[i]?.getD .empty) := by
  by_cases hi : i < references.length
  · have hi' : i < results.length := h.length_eq ▸ hi
    rw [List.getElem?_eq_getElem hi, List.getElem?_eq_getElem hi']
    exact h.get hi hi'
  · have hi' : ¬i < results.length := h.length_eq ▸ hi
    rw [List.getElem?_eq_none (by omega), List.getElem?_eq_none (by omega)]
    exact rfl

/-- A step refers to its meaning, and only adds records. -/
theorem refers_share (h : List.Forall₂ (Refers store) references results) (step : Step) :
    Refers (step.share store references).2 (step.share store references).1 (step.meaning results) ∧
      ∃ more, (step.share store references).2 = store ++ more := by
  cases step with
  | empty => exact ⟨rfl, [], by simp [Step.share]⟩
  | place l => exact ⟨refers_keep rfl, _, rfl⟩
  | hide => exact ⟨refers_keep rfl, _, rfl⟩
  | merge first second =>
    exact ⟨(refers_getD h first).merge (refers_getD h second), merge_appends _ _ _⟩

theorem refers_run (h : List.Forall₂ (Refers store) references results) (steps : List Step) :
    List.Forall₂ (Refers (run store references steps).2) (run store references steps).1
      (meanings results steps) := by
  induction steps generalizing store references results with
  | nil => exact h
  | cons step rest ih =>
    obtain ⟨hresult, more, hmore⟩ := refers_share h step
    have hbefore : List.Forall₂ (Refers (step.share store references).2) references results :=
      h.imp fun _ _ hr => hmore ▸ hr.append
    exact ih (List.rel_append hbefore (.cons hresult .nil))

theorem standsFor_of_refers (h : List.Forall₂ (Refers store) references results) :
    StandsFor store references results := by
  have leads : ∀ r ∈ references, Refers store r (read store r) := by
    induction h with
    | nil => exact nofun
    | cons hr _ ih => exact List.forall_mem_cons.2 ⟨hr.read_eq.symm ▸ hr, ih⟩
  refine ⟨?_, fun r hr => (leads r hr).isNone_iff,
    fun r hr s hs => (leads r hr).same_iff (leads s hs)⟩
  induction h with
  | nil => rfl
  | cons hr _ ih =>
    rw [List.map_cons, hr.read_eq, ih fun r hr => leads r (List.mem_cons_of_mem _ hr)]

end Shared

open Metadata

/-- Merging makes metadata a semilattice with a least element. It unites the locations and is secret
as soon as one part is; metadata are empty exactly if there is neither a location nor a secret;
locations stand in the order of the document, each once; and values merged in any groups and any
order have one lineage. Shared records do not show: whatever steps are run, the references stand for
what the steps mean. -/
theorem merge_semilattice :
    (∀ a b c : Metadata, (a.merge b).merge c = a.merge (b.merge c) ∧ a.merge b = b.merge a ∧
      a.merge a = a ∧ empty.merge a = a ∧ a.merge empty = a) ∧
    (∀ a b : Metadata, (∀ l, l ∈ (a.merge b).locations ↔ l ∈ a.locations ∨ l ∈ b.locations) ∧
      (a.merge b).secret = (a.secret || b.secret)) ∧
    (∀ m : Metadata, (m.isEmpty = true ↔ m.locations = [] ∧ m.secret = false) ∧
      m.locations.Pairwise SourceLocation.Precedes) ∧
    (∀ (g : Grouping) (vs : List Value), g.values.Perm vs → g.merged = Value.mergedMetadata vs) ∧
    ∀ steps : List Shared.Step, ∃ references store, Shared.run [] [] steps = (references, store) ∧
      Shared.StandsFor store references (Shared.meanings [] steps) :=
  ⟨fun a b c => ⟨merge_assoc a b c, merge_comm a b, merge_self a, empty_merge a, merge_empty a⟩,
    fun a b => ⟨fun _ => mem_locations_merge, secret_merge a b⟩,
    fun m => ⟨isEmpty_iff, m.locations_precede⟩,
    fun _ _ => Grouping.merged_of_perm,
    fun steps => ⟨_, _, rfl, Shared.standsFor_of_refers (Shared.refers_run .nil steps)⟩⟩

end PolicyExpr
