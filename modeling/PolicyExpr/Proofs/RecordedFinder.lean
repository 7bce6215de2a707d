import PolicyExpr.Proofs.FinderRecord
import PolicyExpr.Proofs.Joining
import PolicyExpr.Proofs.RecordedSwitch

/-!
# Attribute finders that keep a record

An attribute finder is run here with a record of what happens to the join of its parameters, of
its subscriptions, of every poll of a source, and of every answer. Without the record this is the
finder of the library: a switch over the join whose inner streams are what the finder has in hand
for a vector.
-/
namespace PolicyExpr

open Value (array failureAt)

namespace Finding

open FinderEvent

/-! ## Polls and runs -/

/-- What a finder has in hand for a vector. -/
inductive Supply where
  /-- An error that is still to be emitted. -/
  | failing (e : Value)
  /-- The error was emitted. -/
  | exhausted
  /-- A source that is still to be subscribed to, for an entity that is secret or not. -/
  | wanted (broker : AttributeBroker) (invocation : AttributeInvocation) (secret : Bool)
  /-- A source under a subscription. -/
  | running (subscription : Nat) (source : Source) (cursor : Nat) (secret : Bool)

/-- What a finder does with a vector. -/
def supply (ctx : Context) (name : String) (l : SourceLocation) (parameters : Value) : Supply :=
  match parameters.asArray? with
  | some (entity :: options :: arguments) =>
    match Operator.firstError? (entity :: options :: arguments) with
    | some e => .failing (e.locate l)
    | none =>
      if entity.isUndefined then .failing (failureAt .undefinedEntity l)
      else match ctx.attributeBroker with
        | none => .failing (failureAt .noAttributeBroker l)
        | some broker =>
          .wanted broker (AttributeFinder.invocation ctx name entity options arguments)
            entity.isSecret
  | _ => .failing (failureAt .attributeParameters l)

section

variable (ctx : Context) (name : String) (l : SourceLocation)

/-- What a finder has in hand, as a stream. -/
def Supply.stream : Supply → Stream
  | failing e => .once e
  | exhausted => .values []
  | wanted broker invocation secret =>
    .map (AttributeFinder.forwarded l secret) (.unopened broker invocation)
  | running n source cursor secret =>
    .map (AttributeFinder.forwarded l secret) (.opened n source cursor)

/-- Polls a source under its subscription. -/
def serve (clock n : Nat) (source : Source) (cursor : Nat) (secret : Bool) (j : Journal) :
    Recorded FinderEvent (Reply Supply) := fun record =>
  let (answer, cursor') := source.poll clock cursor
  let forwarded := match answer with
    | .value v => .value (AttributeFinder.forwarded l secret v)
    | other => other
  (.ok ⟨forwarded, .running n source cursor' secret, .polled n answer :: j⟩,
    .polled n answer :: record)

/-- Polls what a finder has in hand. A source lies one level deeper, behind the change of its
values. -/
def watch (clock : Nat) : (fuel : Nat) → Asking FinderEvent Supply
  | 0, _, _ => .silent (.error .outOfFuel)
  | _ + 1, .failing e, j => return ⟨.value e, .exhausted, j⟩
  | _ + 1, .exhausted, j => return ⟨.ended, .exhausted, j⟩
  | 1, .wanted _ _ _, _ => .silent (.error .outOfFuel)
  | 1, .running _ _ _ _, _ => .silent (.error .outOfFuel)
  | _ + 2, .wanted broker invocation secret, j => do
    let n := j.subscriptionCount
    Recorded.note (.asked n invocation)
    serve l clock n (broker n invocation) 0 secret (.subscribed invocation :: j)
  | _ + 2, .running n source cursor secret, j => serve l clock n source cursor secret j

/-- The join of the parameters and what is in hand for its latest vector. -/
abbrev State := Option (List (Slot Stream)) × Option Supply

/-- Polls a finder that goes on. -/
def search (clock : Nat) : (fuel : Nat) → Asking FinderEvent State
  | 0, _, _ => .silent (.error .outOfFuel)
  | fuel + 1, state, j =>
    Recorded.switchRounds
      (fun slots j => (Joining.ask (fun vs => .ok (array vs)) clock fuel slots j).within .parameters)
      (watch l clock fuel) (fun vector => return supply ctx name l vector) (fuel + 1)
      state.1 state.2 j

/-- Polls a finder at a time, which may be over. The head is over after its first value. -/
def find (head : Bool) (clock fuel : Nat) : Asking FinderEvent (Option State) := fun state j =>
  match head, fuel, state with
  | false, fuel, some state => do
    let r ← search ctx name l clock fuel state j
    return ⟨r.answer, some r.state, r.journal⟩
  | true, fuel + 1, some state => do
    let r ← search ctx name l clock fuel state j
    match r.answer with
    | .pending => return ⟨.pending, some r.state, r.journal⟩
    | answer => return ⟨answer, none, r.journal⟩
  | _, 0, _ => .silent (.error .outOfFuel)
  | _, _ + 1, none => return ⟨.ended, none, j⟩

/-- Polls a finder at a time and writes its answer down. -/
def ask (head : Bool) (clock fuel : Nat) : Asking FinderEvent (Option State) := fun state j =>
  (find ctx name l head clock fuel state j).noting fun r => .answered r.answer

/-- A finder that has not been polled. -/
def unpolled (streams : List Stream) : Option State :=
  some (some (streams.map fun s => ⟨some s, none⟩), none)

/-- Subscribes to a finder and polls it again and again. -/
def run (head : Bool) (operands : List Compiled) (schedule : List (Nat × Nat)) (j : Journal) :
    Recorded FinderEvent (Course (Option State)) := do
  let streams ← Recorded.silent (Halt.lift (Compiled.subscribeAll operands ctx))
  Asking.each (ask ctx name l head) schedule (unpolled streams) j

/-- A finder as a stream. -/
def stream (head : Bool) : Option State → Stream
  | some state =>
    let found := Recorded.switched (.join · fun vs => .ok (array vs)) (Supply.stream l)
      (fun vector => .ok (AttributeFinder.values ctx name l vector)) state
    if head then .head (some found) else found
  | none => if head then .head none else .values []

end

/-! ## Without the record -/

variable {ctx : Context} {name : String} {l : SourceLocation} {head : Bool}

theorem supply_stream (ctx : Context) (name : String) (l : SourceLocation) (parameters : Value) :
    (supply ctx name l parameters).stream l =
      AttributeFinder.values ctx name l parameters := by
  unfold supply AttributeFinder.values
  cases parameters.asArray? with
  | none => rfl
  | some vs =>
    match vs with
    | [] => rfl
    | [_] => rfl
    | entity :: options :: arguments =>
      dsimp only
      cases Operator.firstError? (entity :: options :: arguments) with
      | some e => rfl
      | none =>
        cases entity.isUndefined with
        | true => rfl
        | false => cases ctx.attributeBroker <;> rfl

theorem serve_shows (clock fuel n : Nat) (source : Source) (cursor : Nat) (secret : Bool)
    (j : Journal) :
    (serve l clock n source cursor secret j).Shows (Reply.polled (Supply.stream l))
      (Stream.poll clock (fuel + 2)
        (.map (AttributeFinder.forwarded l secret) (.opened n source cursor)) j) := by
  intro record
  simp only [serve, Stream.poll, Stream.pollSource, ok_bind]
  rfl

theorem watch_shows (clock fuel : Nat) :
    (watch l clock fuel).Shows (Supply.stream l) (Stream.poll clock fuel) := by
  intro state j
  match fuel, state with
  | 0, _ => exact .silent _ _
  | _ + 1, .failing e => exact .pure _ _
  | _ + 1, .exhausted => exact .pure _ _
  | 1, .wanted _ _ _ => exact .silent _ _
  | 1, .running _ _ _ _ => exact .silent _ _
  | fuel + 2, .wanted broker invocation secret =>
    intro record
    exact serve_shows clock fuel _ _ 0 secret (.subscribed invocation :: j) _
  | fuel + 2, .running n source cursor secret => exact serve_shows clock fuel n source cursor secret j

theorem search_shows (clock fuel : Nat) :
    (search ctx name l clock fuel).Shows (fun state => stream ctx name l false (some state))
      (Stream.poll clock fuel) := by
  intro state j
  cases fuel with
  | zero => exact .silent _ _
  | succ fuel =>
    refine Recorded.switchRounds_shows (fun slots j => ?_) (watch_shows clock fuel) (fun vector => ?_)
      (fuel + 1) state.1 state.2 j
    · exact (Joining.ask_shows _ clock fuel slots j).within _
    · rw [← supply_stream]
      exact .pure _ _

theorem find_shows (clock fuel : Nat) :
    (find ctx name l head clock fuel).Shows (stream ctx name l head) (Stream.poll clock fuel) := by
  intro state j
  match head, fuel, state with
  | false, fuel, some state => exact (search_shows clock fuel state j).map fun r => rfl
  | true, fuel + 1, some state =>
    refine (search_shows clock fuel state j).bind fun r => ?_
    obtain ⟨answer, state, journal⟩ := r
    cases answer <;> exact .pure _ _
  | false, 0, none => exact .silent _ _
  | true, 0, some _ => exact .silent _ _
  | true, 0, none => exact .silent _ _
  | false, fuel + 1, none => exact .pure _ _
  | true, fuel + 1, none => exact .pure _ _

theorem subscribeAll_ne_nil {c : Compiled} {cs : List Compiled} {streams : List Stream}
    (h : Compiled.subscribeAll (c :: cs) ctx = .ok streams) : streams ≠ [] := by
  rw [Compiled.subscribeAll, List.mapM_cons] at h
  obtain ⟨s, -, h⟩ := bind_eq_ok h
  obtain ⟨rest, -, h⟩ := bind_eq_ok h
  cases h
  exact List.cons_ne_nil s rest

/-- A subscription to a finder subscribes to its parameters. -/
theorem subscribe_eq (c : Compiled) (cs : List Compiled) :
    AttributeFinder.subscribe name l head (c :: cs) ctx = do
      return stream ctx name l head (unpolled (← Compiled.subscribeAll (c :: cs) ctx)) := by
  unfold AttributeFinder.subscribe
  cases h : Compiled.subscribeAll (c :: cs) ctx with
  | error f => rfl
  | ok streams =>
    cases streams with
    | nil => exact absurd rfl (subscribeAll_ne_nil h)
    | cons s rest => cases head <;> rfl

/-- A run that keeps a record is a run of the finder. -/
theorem run_shows (c : Compiled) (cs : List Compiled) (schedule : List (Nat × Nat))
    (j : Journal) :
    (run ctx name l head (c :: cs) schedule j).Shows
      (fun course => { course with state := stream ctx name l head course.state })
      (Halt.lift (AttributeFinder.subscribe name l head (c :: cs) ctx) >>=
        (·.pollEach schedule j)) := by
  have each (streams : List Stream) : (Asking.each (ask ctx name l head) schedule
      (unpolled streams) j).Shows _ _ :=
    Asking.each_shows (fun clock fuel state j => (find_shows clock fuel state j).noting _)
      schedule (unpolled streams) j
  rw [subscribe_eq]
  intro record
  unfold run
  cases Compiled.subscribeAll (c :: cs) ctx with
  | error f => rfl
  | ok streams => exact each streams record

/-! ## The answers -/

theorem within_told (x : Recorded JoinEvent α) (told : List Answer) :
    Recorded.Ensures (Asking.Told answered? told) (x.within .parameters)
      (fun _ => Asking.Told answered? told) (Asking.Told answered? told) := by
  intro record h
  have hnone : answered? ∘ parameters = fun _ => none := rfl
  have told : Asking.Told answered? told ((x []).2.map .parameters ++ record) := by
    rw [Asking.Told, List.filterMap_append, List.filterMap_map, hnone]
    simpa [Asking.Told] using h
  unfold Recorded.within
  cases (x []).1 <;> exact told

theorem watch_told (clock fuel : Nat) (s : Supply) (j : Journal) (told : List Answer) :
    Recorded.Ensures (Asking.Told answered? told) (watch l clock fuel s j)
      (fun _ => Asking.Told answered? told) (Asking.Told answered? told) := by
  match fuel, s with
  | 0, _ => exact .silent nofun fun _ h => h
  | _ + 1, .failing w => exact .pure fun _ h => h
  | _ + 1, .exhausted => exact .pure fun _ h => h
  | 1, .wanted _ _ _ => exact .silent nofun fun _ h => h
  | 1, .running _ _ _ _ => exact .silent nofun fun _ h => h
  | _ + 2, .wanted broker i secret => exact fun record h => (h.cons rfl).cons rfl
  | _ + 2, .running k source cursor secret => exact fun record h => h.cons rfl

theorem find_told (head : Bool) (clock fuel : Nat) (state : Option State) (j : Journal)
    (told : List Answer) :
    Recorded.Ensures (Asking.Told answered? told) (find ctx name l head clock fuel state j)
      (fun _ => Asking.Told answered? told) (Asking.Told answered? told) := by
  have hsearch (fuel : Nat) (found : State) : Recorded.Ensures (Asking.Told answered? told)
      (search ctx name l clock fuel found j) (fun _ => Asking.Told answered? told)
      (Asking.Told answered? told) := by
    cases fuel with
    | zero => exact .silent nofun fun _ h => h
    | succ fuel =>
      exact Recorded.switchRounds_keeps (fun slots j => within_told _ told)
        (fun vector => .pure fun _ h => h) (fun s j => watch_told clock fuel s j told) (fuel + 1)
        found.1 found.2 j
  match head, fuel, state with
  | false, fuel, some found => exact (hsearch fuel found).bind fun r => .pure fun _ h => h
  | true, fuel + 1, some found =>
    refine (hsearch fuel found).bind fun r => ?_
    obtain ⟨answer, state, journal⟩ := r
    cases answer <;> exact .pure fun _ h => h
  | false, 0, none => exact .silent nofun fun _ h => h
  | true, 0, some _ => exact .silent nofun fun _ h => h
  | true, 0, none => exact .silent nofun fun _ h => h
  | false, fuel + 1, none => exact .pure fun _ h => h
  | true, fuel + 1, none => exact .pure fun _ h => h

theorem ask_tells (head : Bool) (clock fuel : Nat) :
    (ask ctx name l head clock fuel).Tells answered? := by
  intro state j past
  exact Recorded.Ensures.noting ((find_told head clock fuel state j past).imp
    fun _ _ h => Asking.Told.answer h rfl)

theorem run_tells (cs : List Compiled) (schedule : List (Nat × Nat)) (j : Journal) :
    Recorded.Ensures (Asking.Told answered? []) (run ctx name l head cs schedule j)
      (fun course => Asking.Told answered? course.answers.reverse) fun _ => True :=
  (Recorded.Ensures.silent (fun _ _ _ h => h) fun _ _ => trivial).bind
    fun streams => Asking.each_tells (ask_tells head) schedule (unpolled streams) j

end Finding

end PolicyExpr
