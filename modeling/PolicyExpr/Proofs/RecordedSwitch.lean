import PolicyExpr.Proofs.Recording

/-!
# Switches over recorded parts

A switch is run here on parts that keep a record: its outer stream, the function that makes inner
streams of values, which may do something whenever it is called, and the inner streams. Without
the record this is the switch of the library. `switchRounds_ensures` says what a poll of a switch
keeps, for any such parts.
-/
namespace PolicyExpr

namespace Recorded

/-- The state of a switch after its outer stream was polled. -/
structure SwitchTurn (α β : Type) where
  outer : Option α
  inner : Option β
  journal : Journal
  switched : Bool

section

variable {ε α β : Type} (askOuter : Asking ε α) (askInner : Asking ε β)
  (next : Value → Recorded ε β)

/-- Polls the outer stream, while it lasts; a value of it replaces the inner stream. -/
def switchOuter (outer : Option α) (inner : Option β) (j : Journal) :
    Recorded ε (SwitchTurn α β) :=
  match outer with
  | none => return ⟨none, inner, j, false⟩
  | some s => do
    let r ← askOuter s j
    match r.answer with
    | .value v =>
      let i ← next v
      return ⟨some r.state, some i, r.journal, true⟩
    | .ended => return ⟨none, inner, r.journal, false⟩
    | .pending => return ⟨some r.state, inner, r.journal, false⟩

/-- Polls the outer and then the inner stream until there is something to answer. -/
def switchRounds : (rounds : Nat) → (outer : Option α) → (inner : Option β) → Journal →
    Recorded ε (Reply (Option α × Option β))
  | 0, _, _, _ => silent (.error .outOfFuel)
  | rounds + 1, outer, inner, j => do
    let turn ← switchOuter askOuter next outer inner j
    match turn.inner with
    | none =>
      if turn.outer.isNone then return ⟨.ended, (none, none), turn.journal⟩
      else if !turn.switched then return ⟨.pending, (turn.outer, none), turn.journal⟩
      else switchRounds rounds turn.outer none turn.journal
    | some s =>
      let r ← askInner s turn.journal
      match r.answer with
      | .value v => return ⟨.value v, (turn.outer, some r.state), r.journal⟩
      | .ended =>
        if turn.outer.isNone then return ⟨.ended, (none, none), r.journal⟩
        else if !turn.switched then return ⟨.pending, (turn.outer, none), r.journal⟩
        else switchRounds rounds turn.outer none r.journal
      | .pending =>
        if !turn.switched then return ⟨.pending, (turn.outer, some r.state), r.journal⟩
        else switchRounds rounds turn.outer (some r.state) r.journal

end

/-! ## Without the record -/

section

variable {ε α β : Type} {askOuter : Asking ε α} {askInner : Asking ε β}
  {next : Value → Recorded ε β} {outerStream : α → Stream} {innerStream : β → Stream}
  {poll : Poller} {plain : Value → Eval Stream}

/-- The turn as the library has it. -/
def SwitchTurn.pass (outerStream : α → Stream) (innerStream : β → Stream)
    (turn : SwitchTurn α β) : Stream.SwitchPass :=
  ⟨turn.outer.map outerStream, turn.inner.map innerStream, turn.journal, turn.switched⟩

/-- The two streams of a switch as one. -/
def switched (outerStream : α → Stream) (innerStream : β → Stream)
    (plain : Value → Eval Stream) (streams : Option α × Option β) : Stream :=
  .switch (streams.1.map outerStream) (streams.2.map innerStream) plain

theorem switchOuter_shows (houter : askOuter.Shows outerStream poll)
    (hnext : ∀ v, (next v).Shows innerStream (Halt.lift (plain v))) (outer : Option α)
    (inner : Option β) (j : Journal) :
    (switchOuter askOuter next outer inner j).Shows (SwitchTurn.pass outerStream innerStream)
      (Stream.switchOuter poll plain (outer.map outerStream) (inner.map innerStream) j) := by
  cases outer with
  | none => exact .pure _ _
  | some s =>
    refine (houter s j).bind fun r => ?_
    obtain ⟨answer, state, journal⟩ := r
    cases answer with
    | value v => exact (hnext v).bind fun i => .pure _ _
    | ended => exact .pure _ _
    | pending => exact .pure _ _

theorem switchRounds_shows (houter : askOuter.Shows outerStream poll)
    (hinner : askInner.Shows innerStream poll)
    (hnext : ∀ v, (next v).Shows innerStream (Halt.lift (plain v))) (rounds : Nat)
    (outer : Option α) (inner : Option β) (j : Journal) :
    (switchRounds askOuter askInner next rounds outer inner j).Shows
      (Reply.polled (switched outerStream innerStream plain))
      (Stream.switchRounds poll plain rounds (outer.map outerStream)
        (inner.map innerStream) j) := by
  induction rounds generalizing outer inner j with
  | zero => exact .silent _ _
  | succ rounds ih =>
    refine (switchOuter_shows houter hnext outer inner j).bind fun turn => ?_
    obtain ⟨outer, inner, j, turned⟩ := turn
    cases inner with
    | none =>
      cases outer with
      | none => exact .pure _ _
      | some s =>
        cases turned with
        | false => exact .pure _ _
        | true => exact ih (some s) none j
    | some i =>
      refine (hinner i j).bind fun r => ?_
      obtain ⟨answer, state, journal⟩ := r
      cases answer with
      | value v => exact .pure _ _
      | ended =>
        cases outer with
        | none => exact .pure _ _
        | some s =>
          cases turned with
          | false => exact .pure _ _
          | true => exact ih (some s) none journal
      | pending =>
        cases turned with
        | false => exact .pure _ _
        | true => exact ih outer (some state) journal

end

/-! ## What a poll keeps -/

section

variable {ε α β : Type} {askOuter : Asking ε α} {askInner : Asking ε β}
  {next : Value → Recorded ε β}
  {keeps : Option α → Option β → List ε → Prop} {pulled : α → Value → List ε → Prop}
  {fresh : α → β → List ε → Prop}
  {emits : Option α → β → Value → List ε → Prop} {halted : List ε → Prop}

/-- The record after the poll of the outer stream: where it had a value, the inner stream has not
been polled. -/
def SwitchTurned (keeps : Option α → Option β → List ε → Prop) (fresh : α → β → List ε → Prop)
    (turn : SwitchTurn α β) (record : List ε) : Prop :=
  if turn.switched then ∃ s i, turn.outer = some s ∧ turn.inner = some i ∧ fresh s i record
  else keeps turn.outer turn.inner record

/-- The record after the poll of an inner stream, by its answer. -/
def InnerAnswered (keeps : Option α → Option β → List ε → Prop)
    (emits : Option α → β → Value → List ε → Prop) (outer : Option α) (r : Reply β) :
    List ε → Prop :=
  match r.answer with
  | .value v => emits outer r.state v
  | .ended => keeps outer none
  | .pending => keeps outer (some r.state)

/-- The record after a poll of a switch, by its answer. -/
def SwitchAnswered (keeps : Option α → Option β → List ε → Prop)
    (emits : Option α → β → Value → List ε → Prop) (r : Reply (Option α × Option β))
    (record : List ε) : Prop :=
  match r.answer with
  | .value v => ∃ i, r.state.2 = some i ∧ emits r.state.1 i v record
  | .ended => r.state = (none, none) ∧ keeps none none record
  | .pending => r.state ≠ (none, none) ∧ keeps r.state.1 r.state.2 record

variable
  (houter : ∀ s inner j, Ensures (keeps (some s) inner) (askOuter s j) (fun r =>
    match r.answer with
    | .value v => pulled r.state v
    | .ended => keeps none inner
    | .pending => keeps (some r.state) inner) halted)
  (hnext : ∀ s v, Ensures (pulled s v) (next v) (fresh s) halted)
  (hfresh : ∀ s i j, Ensures (fresh s i) (askInner i j) (InnerAnswered keeps emits (some s)) halted)
  (hinner : ∀ outer i j, Ensures (keeps outer (some i)) (askInner i j)
    (InnerAnswered keeps emits outer) halted)
  (hhalted : ∀ outer inner record, keeps outer inner record → halted record)

include houter hnext

theorem switchOuter_ensures (outer : Option α) (inner : Option β) (j : Journal) :
    Ensures (keeps outer inner) (switchOuter askOuter next outer inner j)
      (SwitchTurned keeps fresh) halted := by
  cases outer with
  | none => exact .pure fun _ h => h
  | some s =>
    refine (houter s inner j).bind fun r => ?_
    obtain ⟨answer, state, journal⟩ := r
    cases answer with
    | value v => exact (hnext state v).bind fun i => .pure fun _ h => ⟨state, i, rfl, rfl, h⟩
    | ended => exact .pure fun _ h => h
    | pending => exact .pure fun _ h => h

include hfresh hinner hhalted

/-- A poll of a switch keeps what its parts keep: a poll of the outer stream, the call for a value
it had, the first poll of the inner stream that the call made, and every later one. -/
theorem switchRounds_ensures_of_fresh (rounds : Nat) (outer : Option α) (inner : Option β)
    (j : Journal) :
    Ensures (keeps outer inner) (switchRounds askOuter askInner next rounds outer inner j)
      (SwitchAnswered keeps emits) halted := by
  induction rounds generalizing outer inner j with
  | zero => exact .silent nofun fun record h => hhalted outer inner record h
  | succ rounds ih =>
    refine (switchOuter_ensures houter hnext outer inner j).bind fun turn => ?_
    obtain ⟨outer, inner, j, turned⟩ := turn
    -- Without an inner stream the answer depends on the outer one alone.
    have empty : ∀ j, Ensures (keeps outer none)
        (if outer.isNone then return ⟨.ended, (none, none), j⟩
          else if !turned then return ⟨.pending, (outer, none), j⟩
          else switchRounds askOuter askInner next rounds outer none j)
        (SwitchAnswered keeps emits) halted := by
      intro j
      cases outer with
      | none => exact .pure fun _ h => ⟨rfl, h⟩
      | some s =>
        cases turned with
        | false => exact .pure fun _ h => ⟨nofun, h⟩
        | true => exact ih (some s) none j
    cases inner with
    | none =>
      refine (empty j).mono (fun record h => ?_) (fun _ _ h => h) fun _ h => h
      cases turned with
      | false => exact h
      | true =>
        obtain ⟨s, i, -, hi, -⟩ := h
        cases hi
    | some i =>
      have polled : Ensures (SwitchTurned keeps fresh ⟨outer, some i, j, turned⟩) (askInner i j)
          (InnerAnswered keeps emits outer) halted := by
        cases turned with
        | false => exact hinner outer i j
        | true =>
          rintro record ⟨s, i', rfl, ⟨⟩, h⟩
          exact hfresh s i j record h
      refine polled.bind fun r => ?_
      obtain ⟨answer, state, journal⟩ := r
      cases answer with
      | value v => exact .pure fun _ h => ⟨state, rfl, h⟩
      | ended => exact empty journal
      | pending =>
        cases turned with
        | false => exact .pure fun _ h => ⟨by simp, h⟩
        | true => exact ih outer (some state) journal

end

/-- The same where the first poll of an inner stream is a poll like every other. -/
theorem switchRounds_ensures {ε α β : Type} {askOuter : Asking ε α} {askInner : Asking ε β}
    {next : Value → Recorded ε β} {keeps : Option α → Option β → List ε → Prop}
    {pulled : α → Value → List ε → Prop} {emits : Option α → β → Value → List ε → Prop}
    {halted : List ε → Prop}
    (houter : ∀ s inner j, Ensures (keeps (some s) inner) (askOuter s j) (fun r =>
      match r.answer with
      | .value v => pulled r.state v
      | .ended => keeps none inner
      | .pending => keeps (some r.state) inner) halted)
    (hnext : ∀ s v, Ensures (pulled s v) (next v) (fun i => keeps (some s) (some i)) halted)
    (hinner : ∀ outer i j, Ensures (keeps outer (some i)) (askInner i j) (fun r =>
      match r.answer with
      | .value v => emits outer r.state v
      | .ended => keeps outer none
      | .pending => keeps outer (some r.state)) halted)
    (hhalted : ∀ outer inner record, keeps outer inner record → halted record) (rounds : Nat)
    (outer : Option α) (inner : Option β) (j : Journal) :
    Ensures (keeps outer inner) (switchRounds askOuter askInner next rounds outer inner j)
      (SwitchAnswered keeps emits) halted :=
  switchRounds_ensures_of_fresh houter hnext (fun s i j => hinner (some s) i j) hinner hhalted
    rounds outer inner j

/-- What every part leaves alone, a poll of a switch leaves alone. -/
theorem switchRounds_keeps {ε α β : Type} {askOuter : Asking ε α} {askInner : Asking ε β}
    {next : Value → Recorded ε β} {P : List ε → Prop}
    (houter : ∀ s j, Ensures P (askOuter s j) (fun _ => P) P)
    (hnext : ∀ v, Ensures P (next v) (fun _ => P) P)
    (hinner : ∀ i j, Ensures P (askInner i j) (fun _ => P) P) (rounds : Nat) (outer : Option α)
    (inner : Option β) (j : Journal) :
    Ensures P (switchRounds askOuter askInner next rounds outer inner j) (fun _ => P) P := by
  refine (@switchRounds_ensures ε α β askOuter askInner next (fun _ _ => P) (fun _ _ => P)
    (fun _ _ _ => P) P ?_ ?_ ?_ ?_ rounds outer inner j).imp ?_
  · exact fun s _ j => (houter s j).imp fun r _ h => by
      rcases r with ⟨_ | _ | _, _, _⟩ <;> exact h
  · exact fun _ v => hnext v
  · exact fun _ i j => (hinner i j).imp fun r _ h => by
      rcases r with ⟨_ | _ | _, _, _⟩ <;> exact h
  · exact fun _ _ _ h => h
  · rintro ⟨_ | _ | _, _, _⟩ record h
    · exact h.choose_spec.2
    · exact h.2
    · exact h.2

end Recorded

end PolicyExpr
