import PolicyExpr.Proofs.RecordedSwitch

/-!
# What a switch does to its streams

A switch of streams is run here with a record of every poll of its streams, every call of its
function and every answer. `record_of_switch` is the law of switches: the function is called once
for every value of the outer stream, as soon as the value is there; only the inner stream of the
latest call is polled, and every value of it is emitted; nothing is polled after its end; and the
switch ends exactly when its outer stream and its current inner stream have ended.
-/
namespace PolicyExpr

/-! ## The record of a switch -/

/-- What happens to a switch. -/
inductive SwitchEvent where
  /-- The outer stream was polled. -/
  | outer (answer : Answer)
  /-- The function that makes inner streams was called. -/
  | called (v : Value)
  /-- The inner stream of a call was polled; calls are counted from zero. -/
  | inner (call : Nat) (answer : Answer)
  /-- The switch answered to a poll. -/
  | answered (answer : Answer)

namespace SwitchEvent

/-- The value pulled from the outer stream. -/
def pulled? : SwitchEvent → Option Value
  | outer (.value v) => some v
  | _ => none

/-- The value that the function was called for. -/
def called? : SwitchEvent → Option Value
  | called v => some v
  | _ => none

/-- The answer of the switch. -/
def answered? : SwitchEvent → Option Answer
  | answered a => some a
  | _ => none

/-- How often the function was called. -/
def calls (record : List SwitchEvent) : Nat := (record.filterMap called?).length

@[simp] theorem calls_outer (a : Answer) (record : List SwitchEvent) :
    calls (outer a :: record) = calls record := rfl

@[simp] theorem calls_called (v : Value) (record : List SwitchEvent) :
    calls (called v :: record) = calls record + 1 := rfl

@[simp] theorem calls_inner (k : Nat) (a : Answer) (record : List SwitchEvent) :
    calls (inner k a :: record) = calls record := rfl

@[simp] theorem calls_answered (a : Answer) (record : List SwitchEvent) :
    calls (answered a :: record) = calls record := rfl

/-- The outer stream has ended, and so has the inner stream of the latest call, if there was
one. -/
def Over (record : List SwitchEvent) : Prop :=
  outer .ended ∈ record ∧ ∀ k, calls record = k + 1 → inner k .ended ∈ record

/-- When an event may happen after those of the past, the latest of which comes first. -/
structure MayFollow (past : List SwitchEvent) (e : SwitchEvent) : Prop where
  /-- The function is called for a value of the outer stream, right after it was pulled. -/
  call : ∀ v, e = called v ↔ past.head? = some (outer (.value v))
  /-- A value is emitted right after it was pulled from an inner stream, and only then. -/
  emission : ∀ v, e = answered (.value v) ↔ ∃ k, past.head? = some (inner k (.value v))
  /-- Only the inner stream of the latest call is polled. -/
  current : ∀ k a, e = inner k a → calls past = k + 1
  outerLive : ∀ a, e = outer a → outer .ended ∉ past
  innerLive : ∀ k a, e = inner k a → inner k .ended ∉ past
  /-- The switch answers that it has ended exactly when it is over. -/
  ending : ∀ a, e = answered a → (a = .ended ↔ Over past)
  ended : ∀ a, e = answered a → answered .ended ∈ past → a = .ended

/-- The law of switches. -/
structure Law (record : List SwitchEvent) : Prop where
  lawful : Recorded.Lawful MayFollow record
  /-- The function was called once for every value pulled from the outer stream, in order. -/
  calls : record.filterMap called? = record.filterMap pulled?
  /-- No value of the outer stream is still to be switched to. -/
  switched : ∀ v, record.head? ≠ some (outer (.value v))
  /-- No value of an inner stream is still to be emitted. -/
  emitted : ∀ k v, record.head? ≠ some (inner k (.value v))

end SwitchEvent

namespace SwitchEvent

variable {past : List SwitchEvent} {e : SwitchEvent} {v : Value} {k : Nat} {a : Answer}

theorem law_nil : Law [] := ⟨Recorded.lawful_nil _, rfl, nofun, nofun⟩

/-- An event that brings no value. -/
theorem Law.cons (h : Law past) (he : MayFollow past e) (hpulled : e.pulled? = none)
    (hcalled : e.called? = none) (hinner : ∀ k v, e ≠ inner k (.value v)) : Law (e :: past) where
  lawful := Recorded.lawful_cons.2 ⟨he, h.lawful⟩
  calls := by simpa [List.filterMap_cons, hpulled, hcalled] using h.calls
  switched v := by
    rintro ⟨⟩
    cases hpulled
  emitted k v := by
    rintro ⟨⟩
    exact hinner k v rfl

theorem Law.mayFollow_outer (h : Law past) (hlive : outer .ended ∉ past) (a : Answer) :
    MayFollow past (outer a) where
  call v := ⟨nofun, fun hv => absurd hv (h.switched v)⟩
  emission v := ⟨nofun, fun ⟨k, hk⟩ => absurd hk (h.emitted k v)⟩
  current := nofun
  outerLive _ _ := hlive
  innerLive := nofun
  ending := nofun
  ended := nofun

theorem Law.mayFollow_inner (h : Law past) (hcalls : SwitchEvent.calls past = k + 1)
    (hlive : inner k .ended ∉ past) (a : Answer) : MayFollow past (inner k a) where
  call v := ⟨nofun, fun hv => absurd hv (h.switched v)⟩
  emission v := ⟨nofun, fun ⟨k, hk⟩ => absurd hk (h.emitted k v)⟩
  current := by
    rintro _ _ ⟨⟩
    exact hcalls
  outerLive := nofun
  innerLive := by
    rintro _ _ ⟨⟩
    exact hlive
  ending := nofun
  ended := nofun

/-- The answer to a poll that brought no value. -/
theorem Law.mayFollow_answered (h : Law past) (ha : ∀ v, a ≠ .value v)
    (hover : a = .ended ↔ Over past) (hended : answered .ended ∈ past → a = .ended) :
    MayFollow past (answered a) where
  call v := ⟨nofun, fun hv => absurd hv (h.switched v)⟩
  emission v := ⟨by rintro ⟨⟩; exact absurd rfl (ha v), fun ⟨k, hk⟩ => absurd hk (h.emitted k v)⟩
  current := nofun
  outerLive := nofun
  innerLive := nofun
  ending := by
    rintro _ ⟨⟩
    exact hover
  ended := by
    rintro _ ⟨⟩
    exact hended

/-- A value of the outer stream and the call for it. -/
theorem Law.switch (h : Law past) (hlive : outer .ended ∉ past) (v : Value) :
    Law (called v :: outer (.value v) :: past) where
  lawful := by
    refine Recorded.lawful_cons.2 ⟨?_, Recorded.lawful_cons.2 ⟨h.mayFollow_outer hlive _, h.lawful⟩⟩
    refine ⟨fun w => ?_, fun w => ?_, nofun, nofun, nofun, nofun, nofun⟩
    · simp
    · simp
  calls := by simpa [List.filterMap_cons, called?, pulled?] using h.calls
  switched := nofun
  emitted := nofun

/-- A value of an inner stream and its emission. -/
theorem Law.emission (h : Law past) (hcalls : SwitchEvent.calls past = k + 1)
    (hlive : inner k .ended ∉ past) (hover : ¬Over past) (hended : answered .ended ∉ past)
    (v : Value) : Law (answered (.value v) :: inner k (.value v) :: past) where
  lawful := by
    refine Recorded.lawful_cons.2
      ⟨?_, Recorded.lawful_cons.2 ⟨h.mayFollow_inner hcalls hlive _, h.lawful⟩⟩
    refine ⟨fun w => ?_, fun w => ?_, nofun, nofun, nofun, ?_, ?_⟩
    · simp
    · simp
    · rintro _ ⟨⟩
      simpa [Over, SwitchEvent.calls, List.filterMap_cons, called?] using hover
    · rintro _ ⟨⟩
      simpa using hended
  calls := by simpa [List.filterMap_cons, called?, pulled?] using h.calls
  switched := nofun
  emitted := nofun

end SwitchEvent

namespace Switching

open SwitchEvent

/-- An inner stream, with the number of the call that made it. -/
structure Numbered where
  number : Nat
  stream : Stream

/-- Calls the function that makes inner streams. -/
def call (next : Value → Eval Stream) (v : Value) : Recorded SwitchEvent Numbered :=
  fun record => ((Halt.lift (next v)).map (⟨calls record, ·⟩), called v :: record)

/-- Polls an inner stream. -/
def askInner (poll : Poller) : Asking SwitchEvent Numbered := fun i j => do
  let r ← Asking.stream poll (inner i.number) i.stream j
  return ⟨r.answer, ⟨i.number, r.state⟩, r.journal⟩

/-- Polls a switch at a time. -/
def ask (next : Value → Eval Stream) (clock : Nat) :
    (fuel : Nat) → Asking SwitchEvent (Option Stream × Option Numbered)
  | 0, _, _ => .silent (.error .outOfFuel)
  | fuel + 1, streams, j =>
    (Recorded.switchRounds (.stream (Stream.poll clock fuel) outer)
      (askInner (Stream.poll clock fuel)) (call next) (fuel + 1) streams.1 streams.2 j).noting
      fun r => answered r.answer

/-- The switch that is polled. -/
def stream (next : Value → Eval Stream) (streams : Option Stream × Option Numbered) : Stream :=
  Recorded.switched id Numbered.stream next streams

theorem call_shows (next : Value → Eval Stream) (v : Value) :
    (call next v).Shows Numbered.stream (Halt.lift (next v)) := by
  intro record
  simp only [call]
  cases next v <;> rfl

theorem askInner_shows (poll : Poller) : (askInner poll).Shows Numbered.stream poll := by
  intro i j record
  simp only [askInner, Asking.stream]
  cases poll i.stream j <;> rfl

theorem ask_shows (next : Value → Eval Stream) (clock fuel : Nat) :
    (ask next clock fuel).Shows (stream next) (Stream.poll clock fuel) := by
  intro streams j
  cases fuel with
  | zero => exact .silent _ _
  | succ fuel =>
    exact (Recorded.switchRounds_shows (Asking.stream_shows (Stream.poll clock fuel) outer)
      (askInner_shows _) (call_shows next) (fuel + 1) streams.1 streams.2 j).noting _

/-! ### The law -/

/-- What the streams of a switch have to do with its record. -/
structure Agrees (outerStream : Option Stream) (innerStream : Option Numbered)
    (record : List SwitchEvent) : Prop where
  outer : outerStream = none ↔ outer .ended ∈ record
  current : ∀ i, innerStream = some i → calls record = i.number + 1 ∧
    inner i.number .ended ∉ record
  past : innerStream = none → ∀ k, calls record = k + 1 → inner k .ended ∈ record
  made : ∀ k a, inner k a ∈ record → k < calls record
  gone : answered .ended ∈ record → outerStream = none ∧ innerStream = none

namespace Agrees

variable {record : List SwitchEvent} {o : Option Stream} {i : Option Numbered} {s s' : Stream}
  {n : Numbered} {a : Answer}

theorem initial (s : Stream) : Agrees (some s) none [] :=
  ⟨by simp, nofun, by simp [calls], by simp, by simp⟩

theorem over_iff (h : Agrees o i record) : Over record ↔ o = none ∧ i = none := by
  rw [Over, ← h.outer]
  refine and_congr_right fun _ => ⟨fun hended => ?_, h.past⟩
  cases i with
  | none => rfl
  | some n => exact absurd (hended _ (h.current n rfl).1) (h.current n rfl).2

theorem outer_live (h : Agrees (some s) i record) : SwitchEvent.outer .ended ∉ record :=
  fun hended => nomatch h.outer.2 hended

theorem outer_unended (h : Agrees (some s) i record) : answered .ended ∉ record :=
  fun hended => nomatch (h.gone hended).1

theorem inner_unended (h : Agrees o (some n) record) : answered .ended ∉ record :=
  fun hended => nomatch (h.gone hended).2

theorem outer_pending (h : Agrees (some s) i record) :
    Agrees (some s') i (.outer .pending :: record) where
  outer := by simpa using h.outer_live
  current := by simpa using h.current
  past := by simpa using h.past
  made := by simpa using h.made
  gone hended := absurd (by simpa using hended) h.outer_unended

theorem outer_ended (h : Agrees (some s) i record) : Agrees none i (.outer .ended :: record) where
  outer := by simp
  current := by simpa using h.current
  past := by simpa using h.past
  made := by simpa using h.made
  gone hended := absurd (by simpa using hended) h.outer_unended

/-- The inner stream of a new call has not been polled. -/
theorem switch (h : Agrees (some s) i record) (v : Value) (t : Stream) :
    Agrees (some s') (some ⟨calls record, t⟩) (.called v :: .outer (.value v) :: record) where
  outer := by simpa using h.outer_live
  current := by
    rintro _ ⟨⟩
    refine ⟨by simp, fun hmem => ?_⟩
    exact Nat.lt_irrefl _ (h.made _ .ended (by simpa using hmem))
  past := nofun
  made k a hmem := by
    have := h.made k a (by simpa using hmem)
    simpa using Nat.lt_succ_of_lt this
  gone hended := absurd (by simpa using hended) h.outer_unended

theorem inner (h : Agrees o (some n) record) (t : Stream) (a : Answer) (ha : a ≠ .ended) :
    Agrees o (some ⟨n.number, t⟩) (.inner n.number a :: record) where
  outer := by simpa using h.outer
  current := by
    rintro _ ⟨⟩
    simpa [ha.symm] using h.current n rfl
  past := nofun
  made k b hmem := by
    rcases List.mem_cons.1 hmem with heq | hmem
    · cases heq
      simp [(h.current n rfl).1]
    · simpa using h.made k b hmem
  gone hended := absurd (by simpa using hended) h.inner_unended

theorem inner_ended (h : Agrees o (some n) record) :
    Agrees o none (.inner n.number .ended :: record) where
  outer := by simpa using h.outer
  current := nofun
  past _ k hk := by
    have : k = n.number := by
      have := (h.current n rfl).1
      simp only [calls_inner] at hk
      omega
    simp [this]
  made k b hmem := by
    rcases List.mem_cons.1 hmem with heq | hmem
    · cases heq
      simp [(h.current n rfl).1]
    · simpa using h.made k b hmem
  gone hended := absurd (by simpa using hended) h.inner_unended

theorem answered (h : Agrees o i record) (ha : a = .ended → o = none ∧ i = none) :
    Agrees o i (.answered a :: record) where
  outer := by simpa using h.outer
  current := by simpa using h.current
  past := by simpa using h.past
  made := by simpa using h.made
  gone hended := by
    rcases List.mem_cons.1 hended with heq | hended
    · cases heq
      exact ha rfl
    · exact h.gone hended

end Agrees

/-- The streams of a switch while nothing is left to be done. -/
def Rests (o : Option Stream) (i : Option Numbered) (record : List SwitchEvent) : Prop :=
  Law record ∧ Agrees o i record

/-- The outer stream has just had a value. -/
def Pulled (_ : Stream) (v : Value) (record : List SwitchEvent) : Prop :=
  ∃ s i past, record = .outer (.value v) :: past ∧ Rests (some s) i past

/-- The inner stream has just had a value. -/
def Emits (o : Option Stream) (n : Numbered) (v : Value) (record : List SwitchEvent) : Prop :=
  ∃ s past, record = .inner n.number (.value v) :: past ∧ Rests o (some ⟨n.number, s⟩) past

theorem outer_ensures (poll : Poller) (s : Stream) (i : Option Numbered) (j : Journal) :
    Recorded.Ensures (Rests (some s) i) (Asking.stream poll .outer s j) (fun r =>
      match r.answer with
      | .value v => Pulled r.state v
      | .ended => Rests none i
      | .pending => Rests (some r.state) i) Law := by
  refine Asking.stream_ensures (fun r record h => ?_) fun record h => h.1
  obtain ⟨answer, state, journal⟩ := r
  cases answer with
  | value v => exact ⟨s, i, record, rfl, h⟩
  | ended =>
    exact ⟨h.1.cons (h.1.mayFollow_outer h.2.outer_live _) rfl rfl nofun, h.2.outer_ended⟩
  | pending =>
    exact ⟨h.1.cons (h.1.mayFollow_outer h.2.outer_live _) rfl rfl nofun, h.2.outer_pending⟩

theorem call_ensures (next : Value → Eval Stream) (s : Stream) (v : Value) :
    Recorded.Ensures (Pulled s v) (call next v) (fun n => Rests (some s) (some n)) Law := by
  rintro _ ⟨s₀, i, past, rfl, law, agrees⟩
  have switched := law.switch agrees.outer_live v
  simp only [call]
  cases next v with
  | error f => exact switched
  | ok t => exact ⟨switched, agrees.switch v t⟩

theorem inner_ensures (poll : Poller) (o : Option Stream) (n : Numbered) (j : Journal) :
    Recorded.Ensures (Rests o (some n)) (askInner poll n j) (fun r =>
      match r.answer with
      | .value v => Emits o r.state v
      | .ended => Rests o none
      | .pending => Rests o (some r.state)) Law := by
  refine (Asking.stream_ensures (fun r record h => ?_) fun record h => h.1).bind fun r =>
    .pure fun _ h => h
  have may := h.1.mayFollow_inner (h.2.current n rfl).1 (h.2.current n rfl).2
  obtain ⟨answer, state, journal⟩ := r
  cases answer with
  | value v => exact ⟨n.stream, record, rfl, h⟩
  | ended => exact ⟨h.1.cons (may _) rfl rfl (by simp), h.2.inner_ended⟩
  | pending => exact ⟨h.1.cons (may _) rfl rfl (by simp), h.2.inner state .pending nofun⟩

/-- The answer of a switch, written down. -/
theorem rests_answered {r : Reply (Option Stream × Option Numbered)} {record : List SwitchEvent}
    (h : Recorded.SwitchAnswered Rests Emits r record) :
    Rests r.state.1 r.state.2 (.answered r.answer :: record) := by
  obtain ⟨answer, ⟨o, i⟩, journal⟩ := r
  cases answer with
  | value v =>
    obtain ⟨n, rfl, s, past, rfl, law, agrees⟩ := h
    obtain ⟨calls, live⟩ := agrees.current _ rfl
    have going : ¬Over past := fun h => nomatch (agrees.over_iff.1 h).2
    exact ⟨law.emission calls live going agrees.inner_unended v,
      (agrees.inner n.stream (.value v) nofun).answered nofun⟩
  | ended =>
    obtain ⟨⟨⟩, law, agrees⟩ := h
    have finished : Over record := agrees.over_iff.2 ⟨rfl, rfl⟩
    exact ⟨law.cons (law.mayFollow_answered nofun (by simpa using finished) fun _ => rfl)
      rfl rfl nofun, agrees.answered fun _ => ⟨rfl, rfl⟩⟩
  | pending =>
    obtain ⟨left, law, agrees⟩ := h
    have going : ¬Over record := fun h =>
      left (Prod.ext (agrees.over_iff.1 h).1 (agrees.over_iff.1 h).2)
    have unended : .answered .ended ∉ record := fun ended =>
      left (Prod.ext (agrees.gone ended).1 (agrees.gone ended).2)
    exact ⟨law.cons (law.mayFollow_answered nofun (by simpa using going)
      fun ended => absurd ended unended) rfl rfl nofun, agrees.answered nofun⟩

theorem ask_ensures (next : Value → Eval Stream) (clock fuel : Nat)
    (streams : Option Stream × Option Numbered) (j : Journal) :
    Recorded.Ensures (Rests streams.1 streams.2) (ask next clock fuel streams j)
      (fun r => Rests r.state.1 r.state.2) Law := by
  cases fuel with
  | zero => exact .silent nofun fun _ h => h.1
  | succ fuel =>
    have polls := Recorded.switchRounds_ensures (outer_ensures (Stream.poll clock fuel))
      (call_ensures next) (inner_ensures (Stream.poll clock fuel)) (fun _ _ _ h => h.1) (fuel + 1)
      streams.1 streams.2 j
    exact Recorded.Ensures.noting (polls.imp fun _ _ => rests_answered)

theorem ask_tells (next : Value → Eval Stream) (clock fuel : Nat) :
    (ask next clock fuel).Tells answered? := by
  intro streams j past
  cases fuel with
  | zero => exact .silent nofun fun _ h => h
  | succ fuel =>
    refine Recorded.Ensures.noting ((Recorded.switchRounds_keeps (P := Asking.Told answered? past)
      (fun s j => ?_) (fun v => ?_) (fun i j => ?_) (fuel + 1) streams.1 streams.2 j).imp
      fun _ _ h => Asking.Told.answer h rfl)
    · exact Asking.stream_ensures (fun r _ h => Asking.Told.cons h rfl) fun _ h => h
    · intro record h
      simp only [call]
      cases next v <;> exact h
    · exact (Asking.stream_ensures (fun r _ h => Asking.Told.cons h rfl) fun _ h => h).bind fun r =>
        .pure fun _ h => h

end Switching

/-- The law of switches. A run of polls, written down, is a run of polls of the switch, its
answers are those in the record, and the record keeps the law. -/
theorem Stream.record_of_switch (s : Stream) (next : Value → Eval Stream)
    (schedule : List (Nat × Nat)) (j : Journal) :
    let run := Asking.each (Switching.ask next) schedule (some s, none) j []
    run.1.map (fun c => { c with state := Switching.stream next c.state }) =
        (Stream.switchOver s next).pollEach schedule j ∧
      (∀ course, run.1 = .ok course →
        run.2.reverse.filterMap SwitchEvent.answered? = course.answers) ∧
      SwitchEvent.Law run.2 :=
  ⟨Asking.each_shows (Switching.ask_shows next) schedule (some s, none) j [],
    fun _ h => ((Asking.each_tells (Switching.ask_tells next) schedule _ j).result
      (Asking.told_nil _) h).reverse,
    ((Asking.each_ensures (Switching.ask_ensures next) schedule (some s, none) j).imp
      fun _ _ h => h.1).record
      (show Switching.Rests _ _ _ from ⟨SwitchEvent.law_nil, Switching.Agrees.initial s⟩)⟩

end PolicyExpr
