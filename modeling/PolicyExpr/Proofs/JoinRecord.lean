import Mathlib.Data.Set.List
import PolicyExpr.Proofs.Recording

/-!
# The record of a join

What happens to a join is the polls of its parts, the ends of its passes over them, and its
answers. Here is the law that such a record keeps: a join emits what it makes of the latest values
of all parts, first when each has had one and from then on after every pass that brought a value;
no part is polled after its end; and the join ends exactly when all its parts have ended or one has
ended without ever having had a value.
-/
namespace PolicyExpr

/-- What happens to a join. -/
inductive JoinEvent where
  /-- A part was polled; parts are counted from zero. -/
  | part (i : Nat) (answer : Answer)
  /-- A pass over the parts is done. -/
  | passed
  /-- The join answered to a poll. -/
  | answered (answer : Answer)

namespace JoinEvent

/-- The value pulled from a part. -/
def value? (i : Nat) : JoinEvent → Option Value
  | part k (.value v) => if k = i then some v else none
  | _ => none

/-- The answer of the join. -/
def answered? : JoinEvent → Option Answer
  | answered a => some a
  | _ => none

/-- The join answered with a value. -/
def emits : JoinEvent → Bool
  | answered (.value _) => true
  | _ => false

/-- How many values were pulled from a part. -/
def pulls (i : Nat) (record : List JoinEvent) : Nat := (record.filterMap (value? i)).length

/-- The last value pulled from a part. -/
def latest (i : Nat) (record : List JoinEvent) : Option Value :=
  (record.filterMap (value? i)).head?

/-- The join has emitted a value. -/
def Emitted (record : List JoinEvent) : Prop := ∃ e ∈ record, e.emits = true

/-- What happened since the latest emission. -/
def recent (record : List JoinEvent) : List JoinEvent := record.takeWhile (!·.emits)

/-- Every part has had a value. -/
def AllPulled (n : Nat) (record : List JoinEvent) : Prop := ∀ i < n, 0 < pulls i record

/-- A part has ended without ever having had a value. -/
def Starved (n : Nat) (record : List JoinEvent) : Prop :=
  ∃ i < n, part i .ended ∈ record ∧ pulls i record = 0

/-- All parts have ended, or one without ever having had a value. -/
def Over (n : Nat) (record : List JoinEvent) : Prop :=
  (∀ i < n, part i .ended ∈ record) ∨ Starved n record

/-- The last values pulled from the parts, in order. -/
def Holds (n : Nat) (record : List JoinEvent) (vs : List Value) : Prop :=
  (List.range n).map (latest · record) = vs.map some

/-- When an event may happen after those of the past, the latest of which comes first. -/
structure MayFollow (n : Nat) (combine : List Value → Eval Value) (past : List JoinEvent)
    (e : JoinEvent) : Prop where
  /-- What is emitted is made of the last values of all parts. -/
  joined : ∀ v, e = answered (.value v) → ∃ vs, Holds n past vs ∧ combine vs = .ok v
  /-- The first emission comes right after the first pass that leaves no part without a value. -/
  first : ¬Emitted past → (e.emits = true ↔ past.head? = some passed ∧ AllPulled n past)
  /-- From one emission to the next each part brings at most one value, and some part does. -/
  grows : e.emits = true → Emitted past →
    (∀ i, pulls i (recent past) ≤ 1) ∧ ∃ i < n, pulls i (recent past) = 1
  /-- Once there was an emission no value is overwritten that was not joined. -/
  kept : ∀ i v, e = part i (.value v) → Emitted past → pulls i (recent past) = 0
  known : ∀ i a, e = part i a → i < n
  live : ∀ i a, e = part i a → part i .ended ∉ past
  /-- The join answers that it has ended exactly when it is over. -/
  ending : ∀ a, e = answered a → (a = .ended ↔ Over n past)
  /-- A join that starves has not emitted anything. -/
  starving : ∀ a, e = answered a → Starved n past → ¬Emitted past
  ended : ∀ a, e = answered a → answered .ended ∈ past → a = .ended

/-- The law of joins. -/
structure Law (n : Nat) (combine : List Value → Eval Value) (record : List JoinEvent) : Prop where
  lawful : Recorded.Lawful (MayFollow n combine) record
  /-- Where the first emission is missing, the values cannot be joined. -/
  due : record.head? = some passed → ¬Emitted record → AllPulled n record →
    ∃ vs f, Holds n record vs ∧ combine vs = .error f

/-! ## Functions of a record -/

variable {i k first n : Nat} {a : Answer} {v : Value} {record new : List JoinEvent}

@[simp] theorem value?_self : value? i (part i (.value v)) = some v := by simp [value?]

theorem value?_of_ne (h : k ≠ i) : value? i (part k a) = none := by
  cases a <;> simp [value?, h]

@[simp] theorem pulls_nil : pulls i [] = 0 := rfl

@[simp] theorem pulls_passed : pulls i (passed :: record) = pulls i record := rfl

@[simp] theorem pulls_answered : pulls i (answered a :: record) = pulls i record := rfl

@[simp] theorem pulls_ended : pulls i (part k .ended :: record) = pulls i record := rfl

@[simp] theorem pulls_pending : pulls i (part k .pending :: record) = pulls i record := rfl

@[simp] theorem pulls_value :
    pulls i (part k (.value v) :: record) = pulls i record + if k = i then 1 else 0 := by
  by_cases h : k = i <;> simp [pulls, value?, h]

@[simp] theorem pulls_append : pulls i (new ++ record) = pulls i new + pulls i record := by
  simp [pulls]

theorem pulls_of_ne (h : k ≠ i) : pulls i (part k a :: record) = pulls i record := by
  cases a <;> simp [h]

@[simp] theorem latest_passed : latest i (passed :: record) = latest i record := rfl

@[simp] theorem latest_answered : latest i (answered a :: record) = latest i record := rfl

@[simp] theorem latest_ended : latest i (part k .ended :: record) = latest i record := rfl

@[simp] theorem latest_pending : latest i (part k .pending :: record) = latest i record := rfl

@[simp] theorem latest_value : latest i (part i (.value v) :: record) = some v := by
  simp [latest]

theorem latest_append (h : pulls i new = 0) : latest i (new ++ record) = latest i record := by
  have : new.filterMap (value? i) = [] := List.eq_nil_of_length_eq_zero h
  simp [latest, this]

theorem latest_eq_none_iff : latest i record = none ↔ pulls i record = 0 := by
  simp [latest, pulls]

@[simp] theorem allPulled_passed : AllPulled n (passed :: record) ↔ AllPulled n record := .rfl

@[simp] theorem allPulled_answered : AllPulled n (answered a :: record) ↔ AllPulled n record := .rfl

theorem AllPulled.append (h : AllPulled n record) : AllPulled n (new ++ record) := by
  intro i hi
  have := h i hi
  rw [pulls_append]
  omega

/-- There are last values of all parts once each has had one. -/
theorem allPulled_iff : AllPulled n record ↔ ∃ vs, Holds n record vs := by
  refine ⟨fun h => ?_, fun ⟨vs, h⟩ i hi => Nat.pos_of_ne_zero fun hnone => ?_⟩
  · have hmem : (List.range n).map (latest · record) ∈ Set.range (List.map some) := by
      rw [Set.range_list_map]
      intro value? hvalue
      obtain ⟨i, hi, rfl⟩ := List.mem_map.1 hvalue
      have hsome : latest i record ≠ none := fun hnone =>
        Nat.ne_of_gt (h i (List.mem_range.1 hi)) (latest_eq_none_iff.1 hnone)
      exact (Option.ne_none_iff_exists.1 hsome)
    exact ⟨hmem.choose, hmem.choose_spec.symm⟩
  · have hmem : latest i record ∈ vs.map some := h ▸ List.mem_map_of_mem (List.mem_range.2 hi)
    rw [latest_eq_none_iff.2 hnone] at hmem
    simp at hmem

theorem emitted_cons {e : JoinEvent} :
    Emitted (e :: record) ↔ e.emits = true ∨ Emitted record := by
  simp [Emitted]

theorem recent_cons {e : JoinEvent} (h : e.emits = false) :
    recent (e :: record) = e :: recent record := by
  simp [recent, h]

theorem recent_emission : recent (answered (.value v) :: record) = [] := rfl

/-! ## Polls of a pass -/

/-- Polls of parts from a first one on. -/
def Parts (first : Nat) (new : List JoinEvent) : Prop := ∀ e ∈ new, ∃ i a, e = part i a ∧ first ≤ i

namespace Parts

theorem nil : Parts first [] := nofun

theorem weaken (h : Parts (first + 1) new) : Parts first new := fun e he =>
  let ⟨i, a, heq, hi⟩ := h e he
  ⟨i, a, heq, Nat.le_of_succ_le hi⟩

/-- The poll of a part, before those of the parts behind it. -/
theorem cons (h : Parts (i + 1) new) (a : Answer) : Parts i (new ++ [part i a]) := by
  intro e he
  rcases List.mem_append.1 he with he | he
  · exact h.weaken e he
  · exact ⟨i, a, List.mem_singleton.1 he, Nat.le_refl i⟩

theorem not_mem_part (h : Parts first new) (hi : i < first) (a : Answer) : part i a ∉ new := by
  intro he
  obtain ⟨k, b, heq, hk⟩ := h _ he
  cases heq
  omega

theorem not_mem_answered (h : Parts first new) (a : Answer) : answered a ∉ new := by
  intro he
  obtain ⟨k, b, heq, -⟩ := h _ he
  cases heq

theorem pulls_eq_zero (h : Parts first new) (hi : i < first) : pulls i new = 0 := by
  refine List.length_eq_zero_iff.2 (List.filterMap_eq_nil_iff.2 fun e he => ?_)
  obtain ⟨k, a, rfl, hk⟩ := h e he
  exact value?_of_ne (by omega)

theorem emits (h : Parts first new) {e : JoinEvent} (he : e ∈ new) : e.emits = false := by
  obtain ⟨k, a, rfl, -⟩ := h e he
  rfl

theorem emitted_append (h : Parts first new) : Emitted (new ++ record) ↔ Emitted record := by
  refine ⟨fun ⟨e, he, hemits⟩ => ?_, fun ⟨e, he, hemits⟩ => ⟨e, by simp [he], hemits⟩⟩
  rcases List.mem_append.1 he with he | he
  · simp [h.emits he] at hemits
  · exact ⟨e, he, hemits⟩

theorem recent_append (h : Parts first new) : recent (new ++ record) = new ++ recent record :=
  List.takeWhile_append_of_pos fun e he => by simp [h.emits he]

end Parts

end JoinEvent

end PolicyExpr
