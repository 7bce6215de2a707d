import PolicyExpr.Proofs.Lineage
import PolicyExpr.Proofs.Recording

/-!
# The record of a lazy chain

What happens to a chain whose operands are streams is the subscriptions to its operands, the polls
of these, and its answers. Here is the law that such a record keeps: an operand is subscribed to
exactly when the one before it has brought the boolean that decides nothing; a subscription that
was made under an earlier value of an operand is not polled again; and what the chain emits is its
value for the latest values of its operands, up to the one that decides.
-/
namespace PolicyExpr

open Operator (lazyStep lazyOperand)

/-- What happens to a chain; its operands are counted from zero. -/
inductive ChainEvent where
  /-- An operand was subscribed to. -/
  | subscribed (i : Nat)
  /-- A subscription of an operand was polled; the subscriptions of each are counted from zero. -/
  | polled (i subscription : Nat) (answer : Answer)
  /-- The chain answered to a poll. -/
  | replied (answer : Answer)

namespace ChainEvent

/-- The boolean that decides nothing. -/
def carries (deciding : Bool) (v : Value) : Bool := v.asBoolean? == some !deciding

/-- The value pulled from an operand. -/
def value? (i : Nat) : ChainEvent → Option Value
  | polled k _ (.value v) => if k = i then some v else none
  | _ => none

/-- The answer of the chain. -/
def replied? : ChainEvent → Option Answer
  | replied a => some a
  | _ => none

/-- The operand was subscribed to. -/
def subscribes (i : Nat) : ChainEvent → Bool
  | subscribed k => k == i
  | _ => false

/-- The boolean that decides nothing was pulled from the operand. -/
def passesOn (deciding : Bool) (i : Nat) (e : ChainEvent) : Bool :=
  (e.value? i).any (carries deciding)

/-- How often an operand was subscribed to. -/
def subscriptions (i : Nat) (record : List ChainEvent) : Nat := record.countP (subscribes i)

/-- How often an operand, under any subscription, brought the boolean that decides nothing. -/
def passes (deciding : Bool) (i : Nat) (record : List ChainEvent) : Nat :=
  record.countP (passesOn deciding i)

/-- The last value pulled from an operand. -/
def latest (i : Nat) (record : List ChainEvent) : Option Value :=
  (record.filterMap (value? i)).head?

/-- The last values pulled from the first operands, in order. -/
def Holds (record : List ChainEvent) (vs : List Value) : Prop :=
  (List.range vs.length).map (latest · record) = vs.map some

/-- Nothing was pulled from an operand in front of this one since the subscription was made. -/
def Fresh (i subscription : Nat) (record : List ChainEvent) : Prop :=
  ∃ recent older, record = recent ++ subscribed i :: older ∧
    subscriptions i older = subscription ∧ ∀ h < i, ∀ e ∈ recent, e.value? h = none

/-- The value of a chain of `n` operands whose first ones have these values, the last of which
decides unless these are all. -/
structure Concludes (deciding : Bool) (l : SourceLocation) (m : Metadata) (n : Nat)
    (vs : List Value) (w : Value) : Prop where
  count : vs.length ≤ n
  carried : ∀ v ∈ vs.dropLast, carries deciding v = true
  decided : vs.length < n → ∃ v, vs.getLast? = some v ∧ carries deciding v = false
  /-- The operands behind these make no difference. -/
  value : ∀ ctx others, vs.length + others.length = n →
    Chain.evaluate deciding l ctx m (vs.map .constant ++ others) = .ok w
  metadata : w.metadata = (vs.map Value.metadata).foldl .merge m

/-- When an event may happen after those of the past, the latest of which comes first. -/
structure MayFollow (deciding : Bool) (l : SourceLocation) (m : Metadata) (n : Nat)
    (past : List ChainEvent) (e : ChainEvent) : Prop where
  opening : e = subscribed 0 ↔ past = []
  /-- The next operand is subscribed to right after the boolean that decides nothing. -/
  call : ∀ i, e = subscribed (i + 1) ↔
    i + 1 < n ∧ past.head?.any (passesOn deciding i) = true
  /-- No subscription is polled that was made under an earlier value of an operand. -/
  current : ∀ i subscription a, e = polled i subscription a → i < n ∧ Fresh i subscription past
  /-- What is emitted is the value of the chain for the latest values of its operands. -/
  reply : ∀ w, e = replied (.value w) → ∃ vs, Holds past vs ∧ Concludes deciding l m n vs w

/-- The law of chains. -/
structure Law (deciding : Bool) (l : SourceLocation) (m : Metadata) (n : Nat)
    (record : List ChainEvent) : Prop where
  lawful : Recorded.Lawful (MayFollow deciding l m n) record
  once : subscriptions 0 record = 1
  balanced : ∀ i, i + 1 < n → subscriptions (i + 1) record = passes deciding i record

/-! ## Functions of a record -/

variable {deciding : Bool} {l : SourceLocation} {m : Metadata} {n i k : Nat} {a : Answer}
  {v w : Value} {vs : List Value} {e : ChainEvent} {record past : List ChainEvent}

@[simp] theorem value?_subscribed : value? i (subscribed k) = none := rfl

@[simp] theorem value?_replied : value? i (replied a) = none := rfl

@[simp] theorem value?_ended : value? i (polled k n .ended) = none := rfl

@[simp] theorem value?_pending : value? i (polled k n .pending) = none := rfl

@[simp] theorem value?_value : value? i (polled k n (.value v)) = if k = i then some v else none :=
  rfl

/-- The event brings no value of an operand in front of this one. -/
def Quiet (i : Nat) (e : ChainEvent) : Prop := ∀ h < i, e.value? h = none

/-- The event brings no value. -/
def Silent (e : ChainEvent) : Prop := ∀ i, e.value? i = none

theorem Silent.quiet (h : Silent e) (i : Nat) : Quiet i e := fun k _ => h k

theorem Silent.passesOn (h : Silent e) : e.passesOn deciding i = false := by
  simp [ChainEvent.passesOn, h i]

theorem Quiet.weaken (h : Quiet (i + 1) e) : Quiet i e := fun k hk => h k (Nat.lt_succ_of_lt hk)

/-- A poll of an operand brings nothing of those in front of it. -/
theorem quiet_polled : Quiet i (polled i k a) := by
  intro h hh
  cases a with
  | value v => simp [Nat.ne_of_gt hh]
  | ended => rfl
  | pending => rfl

theorem latest_of_none (h : e.value? i = none) : latest i (e :: record) = latest i record := by
  simp [latest, h]

@[simp] theorem latest_value : latest i (polled i k (.value v) :: record) = some v := by
  simp [latest]

namespace Holds

theorem nil : Holds record [] := rfl

theorem concat_iff : Holds record (vs ++ [v]) ↔
    Holds record vs ∧ latest vs.length record = some v := by
  simp [Holds, List.range_succ]

theorem quiet (h : Holds record vs) (he : Quiet vs.length e) : Holds (e :: record) vs := by
  rw [Holds, ← h]
  exact List.map_congr_left fun i hi => latest_of_none (he i (List.mem_range.1 hi))

end Holds

theorem Fresh.quiet (h : Fresh i k record) (he : Quiet i e) : Fresh i k (e :: record) := by
  obtain ⟨recent, older, rfl, hk, hrecent⟩ := h
  refine ⟨e :: recent, older, rfl, hk, fun j hj e' he' => ?_⟩
  rcases List.mem_cons.1 he' with rfl | he'
  · exact he j hj
  · exact hrecent j hj e' he'

/-- A subscription that was just made. -/
theorem fresh_subscribed : Fresh i (subscriptions i record) (subscribed i :: record) :=
  ⟨[], record, rfl, rfl, nofun⟩

/-! ## Values of a chain -/

theorem metadata_exhausted : (Chain.exhausted deciding m).metadata = m := rfl

/-- An operand that carries passes on, with its metadata. -/
theorem lazyStep_of_carries (h : carries deciding v = true) (m : Metadata) (l : SourceLocation) :
    lazyStep deciding m l v = .undecided (m.merge v.metadata) := by
  obtain ⟨kind, metadata⟩ := v
  cases kind with
  | boolean b =>
    have hb : b = !deciding := by simpa [carries, Value.asBoolean?] using h
    simp [lazyStep, lazyOperand, Value.isError, Value.type, Kind.type, Value.asBoolean?, hb]
  | _ => cases h

/-- Any other operand decides, with its metadata. -/
theorem lazyStep_of_not_carries (h : carries deciding v = false) (m : Metadata)
    (l : SourceLocation) :
    ∃ w, lazyStep deciding m l v = .decided w ∧ w.metadata = m.merge v.metadata := by
  obtain ⟨kind, metadata⟩ := v
  cases kind with
  | boolean b =>
    have hb : b = deciding := by simpa [carries, Value.asBoolean?] using h
    refine ⟨(Value.boolean b).withMetadata (m.merge metadata), ?_, rfl⟩
    simp [lazyStep, lazyOperand, Value.isError, Value.type, Kind.type, Value.asBoolean?, hb]
  | _ =>
    refine ⟨_, rfl, ?_⟩
    rw [Value.metadata_locate]
    exact Metadata.merge_comm _ _

/-- Operands that carry leave a chain to those behind them. -/
theorem evaluate_of_carries (ctx : Context) (others : List Compiled)
    (h : ∀ v ∈ vs, carries deciding v = true) (m : Metadata) :
    Chain.evaluate deciding l ctx m (vs.map .constant ++ others) =
      Chain.evaluate deciding l ctx ((vs.map Value.metadata).foldl .merge m) others := by
  induction vs generalizing m with
  | nil => rfl
  | cons v vs ih =>
    simp only [List.map_cons, List.cons_append, Chain.evaluate, Compiled.evaluate, ok_bind,
      lazyStep_of_carries (h v (by simp)), List.foldl_cons]
    exact ih (fun v' hv => h v' (by simp [hv])) _

theorem concludes_decided (hcarries : ∀ v ∈ vs, carries deciding v = true)
    (hcount : vs.length < n) (hv : carries deciding v = false)
    (hw : lazyStep deciding ((vs.map Value.metadata).foldl .merge m) l v = .decided w) :
    Concludes deciding l m n (vs ++ [v]) w where
  count := by simpa using Nat.succ_le_of_lt hcount
  carried := by simpa using hcarries
  decided _ := ⟨v, by simp, hv⟩
  value ctx others _ := by
    rw [List.map_append, List.append_assoc, evaluate_of_carries ctx _ hcarries]
    simp [Chain.evaluate, Compiled.evaluate, hw, pure, Except.pure]
  metadata := by
    obtain ⟨w', hw', hmetadata⟩ := lazyStep_of_not_carries hv
      ((vs.map Value.metadata).foldl .merge m) l
    obtain rfl : w' = w := by simpa [hw] using hw'.symm
    simp [hmetadata]

theorem concludes_exhausted (hcarries : ∀ v ∈ vs, carries deciding v = true)
    (hcount : vs.length = n) :
    Concludes deciding l m n vs
      (Chain.exhausted deciding ((vs.map Value.metadata).foldl .merge m)) where
  count := Nat.le_of_eq hcount
  carried v hv := hcarries v (List.dropLast_subset vs hv)
  decided h := absurd hcount (Nat.ne_of_lt h)
  value ctx others h := by
    obtain rfl : others = [] := List.eq_nil_of_length_eq_zero (by omega)
    rw [evaluate_of_carries ctx _ hcarries]
    rfl
  metadata := metadata_exhausted

/-! ## Numbers of subscriptions -/

theorem subscribes_iff : e.subscribes i = true ↔ e = subscribed i := by
  cases e <;> simp [subscribes]

theorem once_of_lawful (h : Recorded.Lawful (MayFollow deciding l m n) record)
    (hrecord : record ≠ []) : subscriptions 0 record = 1 := by
  induction record with
  | nil => exact absurd rfl hrecord
  | cons e past ih =>
    obtain ⟨may, h⟩ := Recorded.lawful_cons.1 h
    by_cases hpast : past = []
    · subst hpast
      rw [may.opening.2 rfl]
      rfl
    · have he : e.subscribes 0 = false :=
        Bool.eq_false_iff.2 fun he => hpast (may.opening.1 (subscribes_iff.1 he))
      rw [subscriptions, List.countP_cons_of_neg (by simp [he])]
      exact ih h hpast

/-- Each boolean that decides nothing makes one subscription to the next operand, when it is not
yet to be made. -/
theorem balanced_of_lawful (h : Recorded.Lawful (MayFollow deciding l m n) record)
    (hi : i + 1 < n) :
    subscriptions (i + 1) record + (if record.head?.any (passesOn deciding i) then 1 else 0) =
      passes deciding i record := by
  induction record with
  | nil => rfl
  | cons e past ih =>
    obtain ⟨may, h⟩ := Recorded.lawful_cons.1 h
    have call : e.subscribes (i + 1) = past.head?.any (passesOn deciding i) := by
      rw [Bool.eq_iff_iff, subscribes_iff, may.call i]
      exact and_iff_right hi
    have ih := ih h
    rw [← call] at ih
    simp only [subscriptions, passes, List.countP_cons, List.head?_cons, Option.any_some] at ih ⊢
    rw [← ih]
    exact congrArg _ (if_congr .rfl rfl rfl)

end ChainEvent

end PolicyExpr
