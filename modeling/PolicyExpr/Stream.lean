import PolicyExpr.Stream.Source
import PolicyExpr.Value.Document

/-!
# Streams

A stream is composed of sources by two combinators. A join emits what it makes of the
latest values of all its parts whenever one of them has a new value. A switch maps every
value of its outer stream to an inner stream and forwards the latest inner stream only.

A stream is polled. Its state is the stream that is left after a poll, together with the
journal of all subscriptions and all polls of sources so far. A poll can go on forever, when
a source is always ready but never brings the stream forward, so it is given a limit of
rounds.
-/
namespace PolicyExpr

/-! ## Journal -/

/-- What happened to sources. Subscriptions are numbered in order. -/
inductive Event where
  | subscribed (invocation : AttributeInvocation)
  | polled (subscription : Nat) (answer : Answer)

/-- The events so far, the latest first. -/
abbrev Journal := List Event

namespace Journal

/-- The invocations of all subscriptions, in order. -/
def subscriptions (j : Journal) : List AttributeInvocation :=
  j.reverse.filterMap fun
    | .subscribed invocation => some invocation
    | .polled _ _ => none

/-- How many subscriptions there were. -/
def subscriptionCount (j : Journal) : Nat :=
  j.countP fun
    | .subscribed _ => true
    | .polled _ _ => false

/-- How many values were taken from the source of a subscription. -/
def pulled (j : Journal) (subscription : Nat) : Nat :=
  j.countP fun
    | .polled n (.value _) => n == subscription
    | _ => false

end Journal

/-! ## Streams -/

/-- A part of a join: its stream, while it lasts, and its latest value. -/
structure Slot (σ : Type) where
  live : Option σ
  latest : Option Value

/-- A stream of values. -/
inductive Stream where
  /-- Values that are there. -/
  | values (remaining : List Value)
  /-- A source to which nobody has subscribed yet. -/
  | unopened (broker : AttributeBroker) (invocation : AttributeInvocation)
  /-- A source under a subscription. -/
  | opened (subscription : Nat) (source : Source) (cursor : Nat)
  /-- Every value of a stream, changed. -/
  | map (f : Value → Value) (inner : Stream)
  /-- The first value of a stream; nothing is left behind it. -/
  | head (inner : Option Stream)
  | join (slots : List (Slot Stream)) (combine : List Value → Eval Value)
  | switch (outer inner : Option Stream) (next : Value → Except Fault Stream)

namespace Stream

instance : Inhabited Stream := ⟨values []⟩

/-- The stream of one value. -/
def once (v : Value) : Stream := values [v]

/-- The join of streams that have not been polled. Without streams it is the one value that
the join makes of nothing. -/
def joinAll (streams : List Stream) (combine : List Value → Eval Value) : Eval Stream :=
  match streams with
  | [] => do return once (← combine [])
  | streams => .ok (.join (streams.map fun s => ⟨some s, none⟩) combine)

/-- The switch over a stream that has not been polled. -/
def switchOver (outer : Stream) (next : Value → Eval Stream) : Stream :=
  switch (some outer) none next

/-- Subscribes to a source: the stream, and the journal with the subscription. -/
def subscribe (broker : AttributeBroker) (invocation : AttributeInvocation) (journal : Journal) :
    Stream × Journal :=
  let subscription := journal.subscriptionCount
  (.opened subscription (broker subscription invocation) 0, .subscribed invocation :: journal)

end Stream

/-! ## Polls -/

/-- Why a poll gives no answer. -/
inductive Halt where
  | fault (f : Fault)
  | outOfFuel
  deriving DecidableEq

/-- The answer of a poll, what is left of the stream, and the journal. -/
structure Polled where
  answer : Answer
  stream : Stream
  journal : Journal

/-- A way to poll streams. -/
abbrev Poller := Stream → Journal → Except Halt Polled

/-- A computation whose fault ends the poll. -/
def Halt.lift {α : Type} : Eval α → Except Halt α
  | .ok a => .ok a
  | .error f => .error (.fault f)

namespace Stream

/-- Polls a source under its subscription. -/
def pollSource (clock : Nat) (subscription : Nat) (source : Source) (cursor : Nat)
    (journal : Journal) : Polled :=
  let (answer, cursor) := source.poll clock cursor
  ⟨answer, .opened subscription source cursor, .polled subscription answer :: journal⟩

/-! ### Joins -/

/-- What a pass over the parts of a join has done. -/
structure JoinPass where
  slots : List (Slot Stream)
  journal : Journal
  /-- A part had a value. -/
  updated : Bool
  /-- A part had a value or ended. -/
  progressed : Bool
  /-- A part ended without ever having had a value; the parts behind it were not polled. -/
  starved : Bool

/-- Polls the parts that last, in order. -/
def joinPass (poll : Poller) : List (Slot Stream) → Journal → Except Halt JoinPass
  | [], journal => .ok ⟨[], journal, false, false, false⟩
  | slot :: rest, journal =>
    match slot.live with
    | none => do
      let pass ← joinPass poll rest journal
      return { pass with slots := slot :: pass.slots }
    | some s => do
      let p ← poll s journal
      match p.answer with
      | .value v =>
        let pass ← joinPass poll rest p.journal
        return ⟨⟨some p.stream, some v⟩ :: pass.slots, pass.journal, true, true, pass.starved⟩
      | .ended =>
        if slot.latest.isNone then return ⟨⟨none, none⟩ :: rest, p.journal, false, true, true⟩
        else
          let pass ← joinPass poll rest p.journal
          return ⟨⟨none, slot.latest⟩ :: pass.slots, pass.journal, pass.updated, true, pass.starved⟩
      | .pending =>
        let pass ← joinPass poll rest p.journal
        return { pass with slots := ⟨some p.stream, slot.latest⟩ :: pass.slots }

/-- The latest values of all parts, when each has one. -/
def latestValues (slots : List (Slot Stream)) : Option (List Value) := slots.mapM Slot.latest

/-- Passes over the parts until there is something to answer. -/
def joinRounds (poll : Poller) (combine : List Value → Eval Value) :
    (rounds : Nat) → List (Slot Stream) → Journal → Except Halt Polled
  | 0, _, _ => .error .outOfFuel
  | rounds + 1, slots, journal => do
    let pass ← joinPass poll slots journal
    if pass.starved then return ⟨.ended, .join [] combine, pass.journal⟩
    else
      match if pass.updated then latestValues pass.slots else none with
      | some vs =>
        let v ← Halt.lift (combine vs)
        return ⟨.value v, .join pass.slots combine, pass.journal⟩
      | none =>
        if pass.slots.all (·.live.isNone) then
          return ⟨.ended, .join pass.slots combine, pass.journal⟩
        else if !pass.progressed then return ⟨.pending, .join pass.slots combine, pass.journal⟩
        else joinRounds poll combine rounds pass.slots pass.journal

/-! ### Switches -/

/-- The state of a switch, and whether its outer stream had a value. -/
structure SwitchPass where
  outer : Option Stream
  inner : Option Stream
  journal : Journal
  switched : Bool

/-- Polls the outer stream, while it lasts; a value of it replaces the inner stream. -/
def switchOuter (poll : Poller) (next : Value → Eval Stream) (outer inner : Option Stream)
    (journal : Journal) : Except Halt SwitchPass :=
  match outer with
  | none => .ok ⟨none, inner, journal, false⟩
  | some s => do
    let p ← poll s journal
    match p.answer with
    | .value v =>
      let inner ← Halt.lift (next v)
      return ⟨some p.stream, some inner, p.journal, true⟩
    | .ended => return ⟨none, inner, p.journal, false⟩
    | .pending => return ⟨some p.stream, inner, p.journal, false⟩

/-- Polls the outer and then the inner stream until there is something to answer. -/
def switchRounds (poll : Poller) (next : Value → Eval Stream) :
    (rounds : Nat) → (outer inner : Option Stream) → Journal → Except Halt Polled
  | 0, _, _, _ => .error .outOfFuel
  | rounds + 1, outer, inner, journal => do
    let pass ← switchOuter poll next outer inner journal
    match pass.inner with
    | none =>
      if pass.outer.isNone then return ⟨.ended, .switch none none next, pass.journal⟩
      else if !pass.switched then return ⟨.pending, .switch pass.outer none next, pass.journal⟩
      else switchRounds poll next rounds pass.outer none pass.journal
    | some s =>
      let p ← poll s pass.journal
      match p.answer with
      | .value v => return ⟨.value v, .switch pass.outer (some p.stream) next, p.journal⟩
      | .ended =>
        if pass.outer.isNone then return ⟨.ended, .switch none none next, p.journal⟩
        else if !pass.switched then return ⟨.pending, .switch pass.outer none next, p.journal⟩
        else switchRounds poll next rounds pass.outer none p.journal
      | .pending =>
        if !pass.switched then
          return ⟨.pending, .switch pass.outer (some p.stream) next, p.journal⟩
        else switchRounds poll next rounds pass.outer (some p.stream) p.journal

/-- Polls a stream at a time. The fuel bounds the nesting of streams and the rounds of each. -/
def poll (clock : Nat) : (fuel : Nat) → Stream → Journal → Except Halt Polled
  | 0, _, _ => .error .outOfFuel
  | fuel + 1, s, journal =>
    match s with
    | .values [] => .ok ⟨.ended, .values [], journal⟩
    | .values (v :: rest) => .ok ⟨.value v, .values rest, journal⟩
    | .unopened broker invocation =>
      let subscription := journal.subscriptionCount
      .ok (pollSource clock subscription (broker subscription invocation) 0
        (.subscribed invocation :: journal))
    | .opened subscription source cursor =>
      .ok (pollSource clock subscription source cursor journal)
    | .map f inner => do
      let p ← poll clock fuel inner journal
      let answer := match p.answer with
        | .value v => .value (f v)
        | other => other
      return ⟨answer, .map f p.stream, p.journal⟩
    | .head none => .ok ⟨.ended, .head none, journal⟩
    | .head (some inner) => do
      let p ← poll clock fuel inner journal
      match p.answer with
      | .pending => return ⟨.pending, .head (some p.stream), p.journal⟩
      | answer => return ⟨answer, .head none, p.journal⟩
    | .join slots combine => joinRounds (poll clock fuel) combine (fuel + 1) slots journal
    | .switch outer inner next =>
      switchRounds (poll clock fuel) next (fuel + 1) outer inner journal

end Stream

end PolicyExpr
