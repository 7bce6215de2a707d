import PolicyExpr.Coverage.Condition
import PolicyExpr.Proofs.Recording

/-!
# Conditions under coverage are what they are without

A logged condition is used as the plain one would be: it is evaluated, subscribed to, and its
streams are polled, in any order, while hits of other conditions come into the log and the log is
drained. What the uses answer, the streams and the journal are those of the plain condition, and
the log holds the outcomes since it was drained, no more and no less.
-/
namespace PolicyExpr

/-- What can be done with a condition and the log that it shares with other conditions. -/
inductive CoverageOperation where
  | evaluate (ctx : Context)
  | subscribe (ctx : Context)
  /-- Polls the stream of a subscription. Subscriptions are numbered in order. -/
  | poll (subscription clock fuel : Nat)
  /-- Another condition has an outcome. -/
  | other (hit : CoverageHit)
  | collect
  | clear

/-- What came of it. -/
inductive CoverageEvent where
  | evaluated (v : Value)
  | subscribed (ctx : Context)
  | answered (subscription : Nat) (answer : Answer)
  | other (hit : CoverageHit)
  | collected (hits : List CoverageHit)
  | cleared

/-- The streams of a condition that were subscribed to, in order, and the journal of their
sources. -/
structure CoverageSession where
  streams : List Stream
  journal : Journal

namespace CoverageSession

def subscribed (s : CoverageSession) (stream : Stream) : CoverageSession :=
  { s with streams := s.streams ++ [stream] }

def polled (s : CoverageSession) (subscription : Nat) (p : Polled) : CoverageSession :=
  ⟨s.streams.set subscription p.stream, p.journal⟩

end CoverageSession

/-! ## Uses -/

/-- Something is computed, told, and leads on. -/
def Recorded.use {ε α σ : Type} (r : Except Halt α) (event : α → ε) (next : α → σ) :
    Recorded ε σ := do
  let a ← (Recorded.silent r).noting event
  return next a

/-- An operation on a plain condition, which has no log. -/
def Compiled.operate (d : Compiled) (s : CoverageSession) :
    CoverageOperation → Recorded CoverageEvent CoverageSession
  | .evaluate ctx => .use (Halt.lift (d.evaluate ctx)) .evaluated fun _ => s
  | .subscribe ctx => .use (Halt.lift (d.subscribe ctx)) (fun _ => .subscribed ctx) s.subscribed
  | .poll subscription clock fuel =>
    match s.streams[subscription]? with
    | none => return s
    | some watched =>
      .use (watched.poll clock fuel s.journal) (fun p => .answered subscription p.answer)
        (s.polled subscription)
  | .other _ | .collect | .clear => return s

/-- An operation on a condition and its log. -/
def Condition.operate (c : Condition) (s : CoverageSession) (log : CoverageLog) :
    CoverageOperation → Recorded CoverageEvent (CoverageSession × CoverageLog)
  | .evaluate ctx =>
    .use (Halt.lift (c.evaluate ctx log)) (fun r => .evaluated r.1) fun r => (s, r.2)
  | .subscribe ctx =>
    .use (Halt.lift (c.subscribe ctx log)) (fun _ => .subscribed ctx) fun r =>
      (s.subscribed r.1, r.2)
  | .poll subscription clock fuel =>
    match s.streams[subscription]? with
    | none => return (s, log)
    | some watched =>
      .use (c.poll clock fuel watched s.journal log) (fun r => .answered subscription r.1.answer)
        fun r => (s.polled subscription r.1, r.2)
  | .other hit => do
    Recorded.note (.other hit)
    return (s, log.record hit)
  | .collect => do
    Recorded.note (.collected log.collect.1)
    return (s, log.collect.2)
  | .clear => do
    Recorded.note .cleared
    return (s, log.clear)

/-- Operations on a plain condition, one after the other. -/
def Compiled.run (d : Compiled) (s : CoverageSession) (operations : List CoverageOperation) :
    Recorded CoverageEvent CoverageSession :=
  operations.foldlM d.operate s

/-- Operations on a condition and its log, one after the other. -/
def Condition.run (c : Condition) (s : CoverageSession) (log : CoverageLog)
    (operations : List CoverageOperation) :
    Recorded CoverageEvent (CoverageSession × CoverageLog) :=
  operations.foldlM (fun r operation => c.operate r.1 r.2 operation) (s, log)

/-! ## Hits that are due -/

theorem filterMap_cons_toList {α β : Type} (f : α → Option β) (a : α) (as : List α) :
    (a :: as).filterMap f = (f a).toList ++ as.filterMap f := by
  cases h : f a <;> simp [h]

namespace CoverageEvent

/-- The event is a use of the condition. -/
def isUse : CoverageEvent → Bool
  | evaluated _ | subscribed _ | answered _ _ => true
  | other _ | collected _ | cleared => false

/-- The log is empty behind the event. -/
def drains : CoverageEvent → Bool
  | collected _ | cleared => true
  | evaluated _ | subscribed _ | answered _ _ | other _ => false

section Due

variable (index : Nat) (location : SourceLocation) (d : Compiled)

/-- The outcome that a value is. -/
def outcome? (v : Value) : Option CoverageHit := v.asBoolean?.map (⟨index, ·, location⟩)

/-- The outcome of a subscription. A stream has none before it emits. -/
def subscription? (ctx : Context) : Option CoverageHit :=
  match d.nature with
  | .constant | .pure => (d.evaluate ctx).toOption.bind (outcome? index location)
  | .stream => none

/-- The outcome of an emitted value. The one value of anything but a stream had its outcome with
the subscription. -/
def emission? (v : Value) : Option CoverageHit :=
  match d.nature with
  | .constant | .pure => none
  | .stream => outcome? index location v

/-- The hit that an event adds to the log. -/
def hit? : CoverageEvent → Option CoverageHit
  | evaluated v => outcome? index location v
  | subscribed ctx => subscription? index location d ctx
  | answered _ (.value v) => emission? index location d v
  | answered _ .pending | answered _ .ended => none
  | other hit => some hit
  | collected _ | cleared => none

/-- The hits since the log was drained, in order. -/
def pending (record : List CoverageEvent) : List CoverageHit :=
  (record.takeWhile (!·.drains)).reverse.filterMap (hit? index location d)

/-- The hits of a trace from its subscription on. -/
def traced (ctx : Context) (t : Trace) : List CoverageHit :=
  (subscription? index location d ctx).toList ++ t.values.filterMap (emission? index location d)

/-- What is collected is what is pending. -/
def May (past : List CoverageEvent) (e : CoverageEvent) : Prop :=
  ∀ hits, e = collected hits → hits = pending index location d past

end Due

variable {index : Nat} {location : SourceLocation} {d : Compiled} {record : List CoverageEvent}
  {e : CoverageEvent}

theorem pending_cons_of_drains (he : e.drains = true) :
    pending index location d (e :: record) = [] := by
  simp [pending, he]

theorem pending_cons (he : e.drains = false) :
    pending index location d (e :: record) =
      pending index location d record ++ (hit? index location d e).toList := by
  simp only [pending, List.takeWhile_cons, he, Bool.not_false, if_true, List.reverse_cons,
    List.filterMap_append, filterMap_cons_toList, List.filterMap_nil, List.append_nil]

theorem may_of_not_drains (he : e.drains = false) : May index location d record e := by
  rintro hits rfl
  cases he

end CoverageEvent

/-! ## A logged condition -/

theorem Halt.lift_map {α β : Type} (x : Eval α) (f : α → β) :
    Halt.lift (x.map f) = (Halt.lift x).map f := by
  cases x <;> rfl

namespace CoverageLog

/-- Adds hits in order. -/
def add (log : CoverageLog) (hits : List CoverageHit) : CoverageLog := ⟨log.hits ++ hits⟩

@[simp] theorem add_nil (log : CoverageLog) : log.add [] = log :=
  congrArg mk (List.append_nil log.hits)

@[simp] theorem add_add (log : CoverageLog) (hits later : List CoverageHit) :
    (log.add hits).add later = log.add (hits ++ later) :=
  congrArg mk (List.append_assoc log.hits hits later)

/-- A result without a hit. -/
theorem ok_add_nil {ε α : Type} (log : CoverageLog) (a : α) :
    (Except.ok (a, log) : Except ε (α × CoverageLog)) = .ok (a, log.add []) := by
  rw [add_nil]

end CoverageLog

namespace Condition

open CoverageEvent

section Logged

variable (index : Nat) (location : SourceLocation) (d : Compiled)

/-- A condition whose outcomes are logged. -/
def logging : Condition := ⟨index, location, d, true⟩

theorem observe_logging (log : CoverageLog) (v : Value) :
    (logging index location d).observe log v = log.add (outcome? index location v).toList := by
  cases h : v.asBoolean? <;>
    simp [observe, logging, outcome?, CoverageLog.add, CoverageLog.record, h]

/-- An evaluation gives the value of the plain condition, and logs it if it is an outcome. -/
theorem evaluate_logging (ctx : Context) (log : CoverageLog) :
    (logging index location d).evaluate ctx log =
      (d.evaluate ctx).map fun v => (v, log.add (outcome? index location v).toList) := by
  cases d with
  | constant v => exact congrArg (fun l => Except.ok (v, l)) (observe_logging ..)
  | pure readsRequest run =>
    simp only [evaluate, logging, Compiled.evaluate]
    cases run ctx with
    | error f => rfl
    | ok v => exact congrArg (fun l => Except.ok (v, l)) (observe_logging ..)
  | stream subscribe =>
    -- the value is an error, which is no outcome
    exact log.ok_add_nil _

/-- A subscription gives the stream of the plain condition, and logs the value of anything but a
stream. -/
theorem subscribe_logging (ctx : Context) (log : CoverageLog) :
    (logging index location d).subscribe ctx log =
      (d.subscribe ctx).map fun s => (s, log.add (subscription? index location d ctx).toList) := by
  have evaluated := evaluate_logging index location d ctx log
  cases d with
  | constant v =>
    simp only [subscribe, logging] at evaluated ⊢
    rw [evaluated]
    rfl
  | pure readsRequest run =>
    simp only [subscribe, logging] at evaluated ⊢
    rw [evaluated]
    simp only [Compiled.evaluate, Compiled.subscribe, subscription?, Compiled.nature]
    cases run ctx <;> rfl
  | stream subscribe =>
    simp only [Condition.subscribe, logging, Compiled.subscribe, subscription?, Compiled.nature,
      Option.toList_none, CoverageLog.add_nil]
    cases subscribe ctx <;> rfl

/-- A poll gives what the poll of the stream gives, and logs an emitted value. -/
theorem poll_logging (subscription clock fuel : Nat) (s : Stream) (journal : Journal)
    (log : CoverageLog) :
    (logging index location d).poll clock fuel s journal log =
      (s.poll clock fuel journal).map fun p =>
        (p, log.add (hit? index location d (.answered subscription p.answer)).toList) := by
  simp only [poll]
  cases s.poll clock fuel journal with
  | error h => rfl
  | ok p =>
    obtain ⟨answer, stream, journal⟩ := p
    cases answer with
    | pending => cases d <;> exact log.ok_add_nil _
    | ended => cases d <;> exact log.ok_add_nil _
    | value v =>
      cases d with
      | constant w => exact log.ok_add_nil _
      | pure readsRequest run => exact log.ok_add_nil _
      | stream subscribe => exact congrArg (fun l => Except.ok (_, l)) (observe_logging ..)

/-! ### Traces -/

/-- Driving a stream of the condition gives the trace of the stream, and logs what it emits. -/
theorem drive_logging (fuel ticks turns limit clock : Nat) (s : Stream) (journal : Journal)
    (log : CoverageLog) :
    (logging index location d).drive fuel ticks turns limit clock s journal log =
      (s.drive fuel ticks turns limit clock journal).map fun t =>
        (t, log.add (t.values.filterMap (emission? index location d))) := by
  induction turns generalizing limit clock s journal log with
  | zero => exact log.ok_add_nil _
  | succ turns ih =>
    simp only [drive, Stream.drive, poll_logging index location d 0]
    split
    · cases s.poll clock fuel journal with
      | error h => rfl
      | ok p =>
        obtain ⟨answer, stream, journal⟩ := p
        cases answer with
        | pending =>
          simp only [Except.map, ok_bind, hit?, Option.toList_none, CoverageLog.add_nil, ih]
        | ended => rfl
        | value v =>
          simp only [Except.map, ok_bind, hit?, ih, CoverageLog.add_add]
          cases Stream.drive fuel ticks turns (limit - 1) clock stream journal with
          | error h => rfl
          | ok t =>
            exact congrArg (fun hits => Except.ok (_, log.add hits))
              (filterMap_cons_toList _ v t.values).symm
    · exact log.ok_add_nil _

/-- The trace is that of the plain condition. -/
theorem trace_logging (ctx : Context) (ticks limit : Nat) (log : CoverageLog) :
    (logging index location d).trace ctx ticks limit log = (do
      let s ← Halt.lift (d.subscribe ctx)
      let t ← s.trace [] ticks limit
      return (t, log.add (traced index location d ctx t))) := by
  simp only [trace, subscribe_logging, drive_logging]
  cases d.subscribe ctx with
  | error f => rfl
  | ok s =>
    simp only [Except.map, Halt.lift, ok_bind, CoverageLog.add_add, Stream.trace]
    cases s.drive Stream.pollFuel ticks (ticks + limit) limit 0 [] <;> rfl

/-! ### Operations -/

/-- A use of the plain condition, with the hit that is due to it. -/
def loggedUse {α : Type} (log : CoverageLog) (r : Except Halt α) (event : α → CoverageEvent)
    (next : α → CoverageSession) : Recorded CoverageEvent (CoverageSession × CoverageLog) :=
  .use (r.map fun a => (a, log.add (hit? index location d (event a)).toList))
    (fun b => event b.1) fun b => (next b.1, b.2)

theorem operate_evaluate (s : CoverageSession) (log : CoverageLog) (ctx : Context) :
    (logging index location d).operate s log (.evaluate ctx) =
      loggedUse index location d log (Halt.lift (d.evaluate ctx)) evaluated fun _ => s := by
  simp only [operate, evaluate_logging, Halt.lift_map]
  rfl

theorem operate_subscribe (s : CoverageSession) (log : CoverageLog) (ctx : Context) :
    (logging index location d).operate s log (.subscribe ctx) =
      loggedUse index location d log (Halt.lift (d.subscribe ctx)) (fun _ => subscribed ctx)
        s.subscribed := by
  simp only [operate, subscribe_logging, Halt.lift_map]
  rfl

theorem operate_poll (s : CoverageSession) (log : CoverageLog) (subscription clock fuel : Nat) :
    (logging index location d).operate s log (.poll subscription clock fuel) =
      match s.streams[subscription]? with
      | none => pure (s, log)
      | some watched =>
        loggedUse index location d log (watched.poll clock fuel s.journal)
          (fun p => answered subscription p.answer) (s.polled subscription) := by
  simp only [operate, poll_logging index location d subscription]
  rfl

/-! ### Runs without the log -/

variable {index location d}

theorem loggedUse_erases {α : Type} {log : CoverageLog} {r : Except Halt α}
    {event : α → CoverageEvent} {next : α → CoverageSession}
    (hevent : ∀ a, (event a).isUse = true) :
    (loggedUse index location d log r event next).Erases isUse Prod.fst (.use r event next) := by
  cases r with
  | error h => exact fun _ => rfl
  | ok a =>
    intro record
    exact congrArg (Prod.mk _) (List.filter_cons_of_pos (hevent a)).symm

/-- Without its log an operation is one on the plain condition. -/
theorem operate_erases (s : CoverageSession) (log : CoverageLog) (operation : CoverageOperation) :
    ((logging index location d).operate s log operation).Erases isUse Prod.fst
      (d.operate s operation) := by
  cases operation with
  | evaluate ctx =>
    rw [operate_evaluate]
    exact loggedUse_erases fun _ => rfl
  | subscribe ctx =>
    rw [operate_subscribe]
    exact loggedUse_erases fun _ => rfl
  | poll subscription clock fuel =>
    rw [operate_poll, Compiled.operate]
    split
    · exact .pure _ _
    · exact loggedUse_erases fun _ => rfl
  | other hit => exact .bind_note rfl (.pure _ _)
  | collect => exact .bind_note rfl (.pure _ _)
  | clear => exact .bind_note rfl (.pure _ _)

variable (index location d) in
theorem run_erases (operations : List CoverageOperation) (s : CoverageSession) (log : CoverageLog) :
    ((logging index location d).run s log operations).Erases isUse Prod.fst
      (d.run s operations) := by
  induction operations generalizing s log with
  | nil => exact .pure _ _
  | cons operation later ih =>
    exact (operate_erases s log operation).bind fun r => ih r.1 r.2

/-! ### What the log holds -/

variable (index location d) in
/-- The log holds what is pending, and whatever was collected was pending then. -/
structure Tracks (log : CoverageLog) (record : List CoverageEvent) : Prop where
  lawful : Recorded.Lawful (May index location d) record
  pending : log.hits = pending index location d record

theorem Tracks.cons {log : CoverageLog} {record : List CoverageEvent} {e : CoverageEvent}
    (h : Tracks index location d log record) (he : e.drains = false) :
    Tracks index location d (log.add (hit? index location d e).toList) (e :: record) :=
  ⟨Recorded.lawful_cons.2 ⟨may_of_not_drains he, h.lawful⟩,
    (congrArg (· ++ _) h.pending).trans (pending_cons he).symm⟩

theorem loggedUse_tracks {α : Type} {log : CoverageLog} {r : Except Halt α}
    {event : α → CoverageEvent} {next : α → CoverageSession}
    (hevent : ∀ a, (event a).drains = false) :
    Recorded.Ensures (Tracks index location d log) (loggedUse index location d log r event next)
      (fun s => Tracks index location d s.2) (Recorded.Lawful (May index location d)) := by
  intro record h
  cases r with
  | error halt => exact h.lawful
  | ok a => exact h.cons (hevent a)

/-- Each operation leaves in the log what is pending behind it. -/
theorem operate_tracks (s : CoverageSession) (log : CoverageLog) (operation : CoverageOperation) :
    Recorded.Ensures (Tracks index location d log)
      ((logging index location d).operate s log operation)
      (fun r => Tracks index location d r.2) (Recorded.Lawful (May index location d)) := by
  cases operation with
  | evaluate ctx =>
    rw [operate_evaluate]
    exact loggedUse_tracks fun _ => rfl
  | subscribe ctx =>
    rw [operate_subscribe]
    exact loggedUse_tracks fun _ => rfl
  | poll subscription clock fuel =>
    rw [operate_poll]
    split
    · exact .pure fun _ h => h
    · exact loggedUse_tracks fun _ => rfl
  | other hit => exact fun record h => Tracks.cons (e := .other hit) h rfl
  | collect =>
    intro record h
    have collected : May index location d record (.collected log.hits) := by
      rintro hits ⟨⟩
      exact h.pending
    exact ⟨Recorded.lawful_cons.2 ⟨collected, h.lawful⟩, (pending_cons_of_drains rfl).symm⟩
  | clear =>
    intro record h
    exact ⟨Recorded.lawful_cons.2 ⟨nofun, h.lawful⟩, (pending_cons_of_drains rfl).symm⟩

variable (index location d) in
theorem run_tracks (operations : List CoverageOperation) (s : CoverageSession)
    (log : CoverageLog) :
    Recorded.Ensures (Tracks index location d log)
      ((logging index location d).run s log operations)
      (fun r => Tracks index location d r.2) (Recorded.Lawful (May index location d)) := by
  induction operations generalizing s log with
  | nil => exact .pure fun _ h => h
  | cons operation later ih => exact (operate_tracks s log operation).bind fun r => ih r.1 r.2

end Logged

end Condition

namespace Expression

open CoverageEvent

theorem compileCondition_logged (e : Expression) (scope : Scope) (index : Nat) :
    e.compileCondition scope index true =
      (e.compile scope).map (Condition.logging index e.location) := by
  rw [compileCondition]
  cases e.compile scope <;> rfl

/-- Coverage changes nothing and misses nothing. A logged condition compiles exactly if the plain
one does. Whatever is done with it, its uses end as those of the plain condition do, with the same
streams and the same journal; what is collected, and what the log holds in the end, are the
outcomes since the log was drained, in order. -/
theorem coverage_transparent (e : Expression) (scope : Scope) (index : Nat) :
    (∀ f, e.compileCondition scope index true = .error f ↔ e.compile scope = .error f) ∧
    ∀ c, e.compileCondition scope index true = .ok c → ∃ d, e.compile scope = .ok d ∧
      (∀ operations journal,
        let run := c.run ⟨[], journal⟩ .empty operations []
        let plain := d.run ⟨[], journal⟩ operations []
        plain.1 = run.1.map Prod.fst ∧ plain.2 = run.2.filter isUse ∧
        Recorded.Lawful (May index e.location d) run.2 ∧
        ∀ s log, run.1 = .ok (s, log) → log.hits = pending index e.location d run.2) ∧
      ∀ ctx ticks limit log, c.trace ctx ticks limit log = do
        let s ← Halt.lift (d.subscribe ctx)
        let t ← s.trace [] ticks limit
        return (t, log.add (traced index e.location d ctx t)) := by
  rw [compileCondition_logged]
  cases e.compile scope with
  | error f => exact ⟨fun g => by simp [Except.map], nofun⟩
  | ok d =>
    refine ⟨fun f => by simp [Except.map], ?_⟩
    rintro c ⟨⟩
    refine ⟨d, rfl, fun operations journal => ?_, Condition.trace_logging index e.location d⟩
    have start : Condition.Tracks index e.location d .empty [] := ⟨Recorded.lawful_nil _, rfl⟩
    have tracks := Condition.run_tracks index e.location d operations ⟨[], journal⟩ .empty
    have erases := Condition.run_erases index e.location d operations ⟨[], journal⟩ .empty []
    refine ⟨congrArg Prod.fst erases, congrArg Prod.snd erases, ?_, fun s log hrun => ?_⟩
    · exact (tracks.imp fun _ _ h => h.lawful).record start
    · exact (tracks.result start hrun).pending

/-- The stream `<x>` emits true, a text and false: two outcomes. -/
theorem coverage_of_environment_attribute :
    let e : Expression := .basic .unknown (.environmentAttribute "x" [] none false) [] none
    let c := Condition.logging 3 .unknown
      (AttributeFinder.compile "x" .unknown false [.constant .null, .constant .undefined])
    let x := Source.ofScript [.emit (.boolean true), .emit (.text "v"), .emit (.boolean false)]
    let ctx := { Context.empty with attributeBroker := some fun _ _ => x }
    let operations := [.subscribe ctx, .poll 0 0 9, .evaluate ctx, .poll 0 1 9, .poll 0 2 9]
    let run := c.run ⟨[], []⟩ .empty operations []
    e.compileCondition .empty 3 true = .ok c ∧ ∃ s log, run.1 = .ok (s, log) ∧
      log.hits = [⟨3, true, .unknown⟩, ⟨3, false, .unknown⟩] := by
  intro e c x ctx operations run
  have compiled : e.compileCondition .empty 3 true = .ok c := rfl
  obtain ⟨d, hd, hruns, -⟩ := (e.coverage_transparent .empty 3).2 c compiled
  cases hd
  obtain ⟨-, -, -, hlog⟩ := hruns operations []
  have ends : run.1.toOption.isSome = true := by decide +kernel +zetaReduce
  have due : pending 3 .unknown c.compiled run.2 = [⟨3, true, .unknown⟩, ⟨3, false, .unknown⟩] := by
    decide +kernel +zetaReduce
  cases hrun : run.1 with
  | error halt =>
    rw [hrun] at ends
    cases ends
  | ok r => exact ⟨compiled, r.1, r.2, rfl, (hlog _ _ hrun).trans due⟩

end Expression

end PolicyExpr
