import PolicyExpr.Proofs.Convergence
import PolicyExpr.Stream.Trace

/-!
# Driving streams that converge

A clock drives a stream that converges to its end: the trace, if nothing aborts it, ends with the
end of the stream, and the value before it is the target. Scripts without an item that waits for
ever make sources that deliver.
-/
namespace PolicyExpr

private theorem getLast?_cons_or {α : Type} (a : α) (as : List α) (before : Option α) :
    (a :: as).getLast?.or before = as.getLast?.or (some a) := by
  rw [List.getLast?_cons]
  cases as.getLast? <;> rfl

/-- A trace that goes on to the end of the stream, with a value last. -/
structure Trace.EndsWith (t : Trace) (v : Value) : Prop where
  ended : ∃ e, t.entries.getLast? = some e ∧ e.value = none
  last : t.values.getLast? = some v

namespace Stream

/-- What driving a stream on from a time gives, with enough fuel for each poll and with enough
ticks, turns and values for the whole. -/
def Drives (clock : Nat) (s : Stream) (j : Journal) (r : Eval Trace) : Prop :=
  ∃ enough, ∀ fuel ≥ enough, ∀ ticks ≥ enough, ∀ turns ≥ enough, ∀ limit ≥ enough,
    s.drive fuel ticks turns limit clock j = Halt.lift r

section

variable {clock : Nat} {s : Stream} {j : Journal} {p : Polled} {r : Eval Trace}

theorem Drives.unique {r' : Eval Trace} (h : s.Drives clock j r) (h' : s.Drives clock j r') :
    r = r' := by
  obtain ⟨m, hm⟩ := h
  obtain ⟨n, hn⟩ := h'
  have hm := hm (max m n) (by omega) (max m n) (by omega) (max m n) (by omega) (max m n) (by omega)
  have hn := hn (max m n) (by omega) (max m n) (by omega) (max m n) (by omega) (max m n) (by omega)
  exact Halt.lift_injective (hm.symm.trans hn)

/-- One turn: a poll, and what is made of its answer. -/
private theorem drives_of_answers {rp : Eval Polled} (hp : Answers clock s j rp)
    (h : ∃ enough, ∀ fuel ≥ enough, ∀ ticks ≥ enough, ∀ turns ≥ enough, ∀ limit ≥ enough,
      (Halt.lift rp >>= fun p => match p.answer with
        | .value v => do
          let trace ← drive fuel ticks turns (limit - 1) clock p.stream p.journal
          return { trace with
            entries := ⟨clock, some v, p.journal.subscriptionCount⟩ :: trace.entries }
        | .ended => return ⟨[⟨clock, none, p.journal.subscriptionCount⟩], p.journal⟩
        | .pending => drive fuel ticks turns limit (clock + 1) p.stream p.journal) =
      Halt.lift r) : s.Drives clock j r := by
  obtain ⟨m, hm⟩ := hp
  obtain ⟨n, hn⟩ := h
  refine ⟨max (max m n) clock + 1, fun fuel hfuel ticks hticks turns hturns limit hlimit => ?_⟩
  obtain ⟨k, rfl⟩ : ∃ k, turns = k + 1 := ⟨turns - 1, by omega⟩
  have hpoll : poll clock fuel s j = Halt.lift rp := hm fuel (by omega)
  rw [drive, if_pos ⟨by omega, by omega⟩, hpoll]
  exact hn fuel (by omega) ticks (by omega) k (by omega) limit (by omega)

theorem drives_of_fault {f : Fault} (hp : Answers clock s j (.error f)) :
    s.Drives clock j (.error f) :=
  drives_of_answers hp ⟨0, fun _ _ _ _ _ _ _ _ => rfl⟩

theorem drives_of_value {v : Value} (hp : Answers clock s j (.ok p)) (ha : p.answer = .value v)
    (h : p.stream.Drives clock p.journal r) :
    s.Drives clock j (r >>= fun t => .ok { t with
      entries := ⟨clock, some v, p.journal.subscriptionCount⟩ :: t.entries }) := by
  obtain ⟨n, hn⟩ := h
  refine drives_of_answers hp ⟨n + 1, fun fuel hfuel ticks hticks turns hturns limit hlimit => ?_⟩
  simp only [Halt.lift, ok_bind, ha, hn fuel (by omega) ticks (by omega) turns (by omega)
    (limit - 1) (by omega)]
  cases r <;> rfl

theorem drives_of_ended (hp : Answers clock s j (.ok p)) (ha : p.answer = .ended) :
    s.Drives clock j
      (.ok ⟨[⟨clock, none, p.journal.subscriptionCount⟩], p.journal⟩) := by
  refine drives_of_answers hp ⟨0, fun _ _ _ _ _ _ _ _ => ?_⟩
  simp only [Halt.lift, ok_bind, ha]
  rfl

theorem drives_of_pending (hp : Answers clock s j (.ok p)) (ha : p.answer = .pending)
    (h : p.stream.Drives (clock + 1) p.journal r) : s.Drives clock j r := by
  obtain ⟨n, hn⟩ := h
  refine drives_of_answers hp ⟨n, fun fuel hfuel ticks hticks turns hturns limit hlimit => ?_⟩
  simp only [Halt.lift, ok_bind, ha]
  exact hn fuel hfuel ticks hticks turns hturns limit hlimit

end

/-- A trace that goes on to the end of a stream: its last value, or else what the stream had
emitted before, is the target. -/
def Completes (target : Eval Value) (emitted : Option Value) (t : Trace) : Prop :=
  (∃ e, t.entries.getLast? = some e ∧ e.value = none) ∧
    ∃ v, t.values.getLast?.or emitted = some v ∧ target = .ok v

theorem Completes.cons {target : Eval Value} {emitted : Option Value} {v : Value} {t : Trace}
    (h : Completes target (some v) t) (clock count : Nat) :
    Completes target emitted { t with entries := ⟨clock, some v, count⟩ :: t.entries } := by
  obtain ⟨⟨e, he, hend⟩, w, hw, htarget⟩ := h
  refine ⟨⟨e, by simp [List.getLast?_cons, he], hend⟩, w, ?_, htarget⟩
  change (v :: t.values).getLast?.or emitted = some w
  rw [getLast?_cons_or]
  exact hw

/-- Driving a stream that converges comes to an end. -/
theorem Converges.drives {target : Eval Value} {emitted : Option Value} {s : Stream}
    (h : s.Converges target emitted) (clock : Nat) (j : Journal) :
    ∃ r, s.Drives clock j r ∧ ∀ t, r = .ok t → Completes target emitted t := by
  induction h generalizing clock j with
  | @intro emitted s deadline polls _ ended _ value pending =>
    -- A stream that is pending and stays as it is does so until the clock reaches the deadline.
    induction hleft : deadline - clock using Nat.strongRecOn generalizing clock j with
    | ind left ih =>
      obtain ⟨rp, hrp⟩ := polls clock j
      cases rp with
      | error f => exact ⟨.error f, drives_of_fault hrp, nofun⟩
      | ok p =>
        cases hans : p.answer with
        | value v =>
          obtain ⟨r, hr, hcompletes⟩ := value hrp hans clock p.journal
          refine ⟨_, drives_of_value hrp hans hr, fun t ht => ?_⟩
          obtain ⟨rest, hrest, ht⟩ := bind_eq_ok ht
          cases ht
          exact (hcompletes rest hrest).cons _ _
        | ended =>
          obtain ⟨v, rfl, htarget⟩ := ended hrp hans
          refine ⟨_, drives_of_ended hrp hans, fun t ht => ?_⟩
          cases ht
          exact ⟨⟨_, rfl, rfl⟩, v, rfl, htarget⟩
        | pending =>
          by_cases hsame : p.stream = s ∧ clock < deadline
          · obtain ⟨r, hr, hcompletes⟩ :=
              ih (deadline - (clock + 1)) (by omega) (clock + 1) p.journal rfl
            rw [← hsame.1] at hr
            exact ⟨r, drives_of_pending hrp hans hr, hcompletes⟩
          · obtain ⟨r, hr, hcompletes⟩ := pending hrp hans hsame (clock + 1) p.journal
            exact ⟨r, drives_of_pending hrp hans hr, hcompletes⟩

end Stream

/-! ## Scripts -/

/-- The value of an item that has one. -/
def ScriptItem.value? : ScriptItem → Option Value
  | .emit v => some v
  | _ => none

namespace Source

variable {items rest : List ScriptItem} {emitted : Option Value} {last : Value} {cursor : Nat}

private theorem drop_succ {item : ScriptItem} (h : items.drop cursor = item :: rest) :
    items.drop (cursor + 1) = rest := by
  rw [← List.tail_drop, h, List.tail_cons]

private theorem delivers_emit {v : Value} (h : items.drop cursor = .emit v :: rest)
    (hrest : (ofScript items).Delivers last (some v) (cursor + 1)) :
    (ofScript items).Delivers last emitted cursor := by
  refine .intro 0 (fun hpoll => ?_) (fun hpoll => ?_) fun hpoll _ => ?_
  all_goals
    simp only [ofScript, h, playScript] at hpoll
    cases hpoll
  exact hrest

/-- A wait that is over is passed without an answer of its own. -/
private theorem delivers_wait {time : Nat} (h : items.drop cursor = .wait time :: rest)
    (hrest : (ofScript items).Delivers last emitted (cursor + 1)) :
    (ofScript items).Delivers last emitted cursor := by
  have early : ∀ clock, clock < time →
      (ofScript items).poll clock cursor = (.pending, cursor) := by
    intro clock hclock
    simp only [ofScript, h, playScript, if_pos hclock]
  have late : ∀ clock, ¬clock < time →
      (ofScript items).poll clock cursor = (ofScript items).poll clock (cursor + 1) := by
    intro clock hclock
    simp only [ofScript, h, drop_succ h, playScript, if_neg hclock]
  have := hrest
  cases hrest with
  | intro deadline value ended pending =>
    refine .intro time (fun {clock _ _} hpoll => ?_) (fun {clock _} hpoll => ?_)
      fun {clock next} hpoll hmoved => ?_
    all_goals by_cases hclock : clock < time
    · rw [early clock hclock] at hpoll
      cases hpoll
    · exact value (late clock hclock ▸ hpoll)
    · rw [early clock hclock] at hpoll
      cases hpoll
    · exact ended (late clock hclock ▸ hpoll)
    · rw [early clock hclock] at hpoll
      cases hpoll
      exact absurd ⟨rfl, hclock⟩ hmoved
    · by_cases hnext : next = cursor + 1
      · exact hnext ▸ this
      · exact pending (late clock hclock ▸ hpoll) fun hsame => hnext hsame.1

private theorem delivers_from (h : items.drop cursor = rest)
    (hfinite : ∀ item ∈ rest, item ≠ .never)
    (hlast : (rest.filterMap ScriptItem.value?).getLast?.or emitted = some last) :
    (ofScript items).Delivers last emitted cursor := by
  induction rest generalizing cursor emitted with
  | nil =>
    refine .intro 0 (fun hpoll => ?_) (fun _ => by simpa using hlast) fun hpoll _ => ?_
    all_goals
      simp only [ofScript, h, playScript] at hpoll
      cases hpoll
  | cons item rest ih =>
    have hfinite' : ∀ item ∈ rest, item ≠ .never :=
      fun item hm => hfinite item (List.mem_cons_of_mem _ hm)
    cases item with
    | emit v =>
      refine delivers_emit h (ih (drop_succ h) hfinite' ?_)
      change (v :: rest.filterMap ScriptItem.value?).getLast?.or emitted = some last at hlast
      rwa [getLast?_cons_or] at hlast
    | wait time => exact delivers_wait h (ih (drop_succ h) hfinite' hlast)
    | never => exact absurd rfl (hfinite _ List.mem_cons_self)

/-- A script that waits for times only, and has a value, makes a source that delivers its last
value. -/
theorem delivers_ofScript (hfinite : ∀ item ∈ items, item ≠ .never)
    (hlast : (items.filterMap ScriptItem.value?).getLast? = some last) :
    (ofScript items).Delivers last none 0 :=
  delivers_from rfl hfinite (by simpa using hlast)

end Source

end PolicyExpr
