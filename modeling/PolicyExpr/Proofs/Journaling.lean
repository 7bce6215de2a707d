import PolicyExpr.Proofs.Recording

/-!
# What polls read of a journal

A poll reads of the journal only how many subscriptions there were, and only adds events to it. It
therefore does not matter to what comes which polls of sources there were before.
-/
namespace PolicyExpr

namespace Journal

variable {new journal : Journal} {n : Nat} {a : Answer} {i : AttributeInvocation}

@[simp] theorem subscriptionCount_polled :
    subscriptionCount (.polled n a :: journal) = journal.subscriptionCount :=
  List.countP_cons_of_neg Bool.false_ne_true

@[simp] theorem subscriptionCount_subscribed :
    subscriptionCount (.subscribed i :: journal) = journal.subscriptionCount + 1 :=
  List.countP_cons_of_pos rfl

@[simp] theorem subscriptionCount_append :
    subscriptionCount (new ++ journal) = new.subscriptionCount + journal.subscriptionCount :=
  List.countP_append

/-- The events make no subscription. -/
theorem subscriptionCount_eq_zero (h : ∀ e ∈ new, ∃ n a, e = .polled n a) :
    new.subscriptionCount = 0 := by
  refine List.countP_eq_zero.2 fun e he => ?_
  obtain ⟨n, a, rfl⟩ := h e he
  exact Bool.false_ne_true

end Journal

/-- A computation that reads of a journal only how many subscriptions there were, and adds events
to it; `put` sets the journal of a result. -/
def Appends {α : Type} (put : α → Journal → α) (x : Journal → Except Halt α) : Prop :=
  ∀ count, ∃ r : Except Halt (α × Journal), ∀ journal, journal.subscriptionCount = count →
    x journal = r.map fun (a, new) => put a (new ++ journal)

namespace Appends

variable {α β : Type} {put : α → Journal → α} {put' : β → Journal → β}

variable {x : Journal → Except Halt α}

theorem pure (a : α) (h : ∀ journal, x journal = .ok (put a journal)) : Appends put x :=
  fun _ => ⟨.ok (a, []), fun journal _ => h journal⟩

theorem error (halt : Halt) (h : ∀ journal, x journal = .error halt) : Appends put x :=
  fun _ => ⟨.error halt, fun journal _ => h journal⟩

/-- Events that depend on the count only. -/
theorem events (a : Nat → α) (new : Nat → Journal)
    (h : ∀ journal : Journal, x journal =
      .ok (put (a journal.subscriptionCount) (new journal.subscriptionCount ++ journal))) :
    Appends put x := by
  intro count
  refine ⟨.ok (a count, new count), ?_⟩
  rintro journal rfl
  exact h journal

theorem bind {next : α → Except Halt β} (hx : Appends put x)
    (hnext : ∀ a, Appends put' fun journal => next (put a journal)) :
    Appends put' fun journal => x journal >>= next := by
  intro count
  obtain ⟨r, hr⟩ := hx count
  cases r with
  | error halt =>
    refine ⟨.error halt, fun journal hcount => ?_⟩
    change (x journal >>= next) = _
    rw [hr journal hcount]
    rfl
  | ok a =>
    obtain ⟨a, new⟩ := a
    obtain ⟨s, hs⟩ := hnext a (new.subscriptionCount + count)
    refine ⟨s.map fun (b, new') => (b, new' ++ new), fun journal hcount => ?_⟩
    have hcount' : (new ++ journal).subscriptionCount = new.subscriptionCount + count := by
      rw [Journal.subscriptionCount_append, hcount]
    have hafter := hs (new ++ journal) hcount'
    change (x journal >>= next) = _
    rw [hr journal hcount]
    refine hafter.trans ?_
    cases s with
    | error halt => rfl
    | ok b => simp [Except.map]

/-- A result, and what the computation does on every other journal with as many subscriptions. -/
theorem result (hx : Appends put x) {journal : Journal} {a : α}
    (ha : x journal = .ok a) : ∃ b new, a = put b (new ++ journal) ∧
      ∀ other, other.subscriptionCount = journal.subscriptionCount →
        x other = .ok (put b (new ++ other)) := by
  obtain ⟨r, hr⟩ := hx journal.subscriptionCount
  have hjournal := hr journal rfl
  cases r with
  | error halt =>
    rw [ha] at hjournal
    cases hjournal
  | ok b =>
    rw [ha] at hjournal
    exact ⟨b.1, b.2, Except.ok.inj hjournal, hr⟩

end Appends

/-! ## Polls -/

namespace Polled

abbrev put (p : Polled) (journal : Journal) : Polled := { p with journal := journal }

end Polled

namespace Stream

namespace JoinPass

abbrev put (pass : JoinPass) (journal : Journal) : JoinPass := { pass with journal := journal }

end JoinPass

namespace SwitchPass

abbrev put (pass : SwitchPass) (journal : Journal) : SwitchPass := { pass with journal := journal }

end SwitchPass

section

variable {poll : Poller} (hpoll : ∀ s, Appends Polled.put (poll s))

include hpoll

theorem joinPass_appends (slots : List (Slot Stream)) :
    Appends JoinPass.put (joinPass poll slots) := by
  induction slots with
  | nil => exact .pure ⟨[], [], false, false, false⟩ fun _ => rfl
  | cons slot rest ih =>
    obtain ⟨live, latest⟩ := slot
    cases live with
    | none =>
      exact ih.bind fun pass =>
        .pure { pass with slots := ⟨none, latest⟩ :: pass.slots } fun _ => rfl
    | some s =>
      refine (hpoll s).bind fun p => ?_
      obtain ⟨answer, s', -⟩ := p
      dsimp only
      cases answer with
      | value v =>
        exact ih.bind fun pass =>
          .pure ⟨⟨some s', some v⟩ :: pass.slots, [], true, true, pass.starved⟩ fun _ => rfl
      | pending =>
        exact ih.bind fun pass =>
          .pure { pass with slots := ⟨some s', latest⟩ :: pass.slots } fun _ => rfl
      | ended =>
        cases latest with
        | none => exact .pure ⟨⟨none, none⟩ :: rest, [], false, true, true⟩ fun _ => rfl
        | some v =>
          exact ih.bind fun pass =>
            .pure ⟨⟨none, some v⟩ :: pass.slots, [], pass.updated, true, pass.starved⟩ fun _ => rfl

theorem joinRounds_appends (combine : List Value → Eval Value) (rounds : Nat)
    (slots : List (Slot Stream)) :
    Appends Polled.put (joinRounds poll combine rounds slots) := by
  induction rounds generalizing slots with
  | zero => exact .error .outOfFuel fun _ => rfl
  | succ rounds ih =>
    refine (joinPass_appends hpoll slots).bind fun pass => ?_
    obtain ⟨slots, -, updated, progressed, starved⟩ := pass
    cases starved with
    | true => exact .pure ⟨.ended, .join [] combine, []⟩ fun _ => rfl
    | false =>
      simp only [Bool.false_eq_true, if_false]
      cases (if updated then latestValues slots else none) with
      | some vs =>
        dsimp only
        cases combine vs with
        | error f => exact .error (.fault f) fun _ => rfl
        | ok v => exact .pure ⟨.value v, .join slots combine, []⟩ fun _ => rfl
      | none =>
        dsimp only
        split
        · exact .pure ⟨.ended, .join slots combine, []⟩ fun _ => rfl
        · split
          · exact .pure ⟨.pending, .join slots combine, []⟩ fun _ => rfl
          · exact ih slots

theorem switchOuter_appends (next : Value → Eval Stream) (outer inner : Option Stream) :
    Appends SwitchPass.put (switchOuter poll next outer inner) := by
  cases outer with
  | none => exact .pure ⟨none, inner, [], false⟩ fun _ => rfl
  | some s =>
    refine (hpoll s).bind fun p => ?_
    obtain ⟨answer, s', -⟩ := p
    cases answer with
    | value v =>
      have called : Appends SwitchPass.put fun journal => do
          let i ← Halt.lift (next v)
          return ⟨some s', some i, journal, true⟩ := by
        cases next v with
        | error f => exact .error (.fault f) fun _ => rfl
        | ok i => exact .pure ⟨some s', some i, [], true⟩ fun _ => rfl
      exact called
    | ended => exact .pure ⟨none, inner, [], false⟩ fun _ => rfl
    | pending => exact .pure ⟨some s', inner, [], false⟩ fun _ => rfl

theorem switchRounds_appends (next : Value → Eval Stream) (rounds : Nat)
    (outer inner : Option Stream) :
    Appends Polled.put (switchRounds poll next rounds outer inner) := by
  induction rounds generalizing outer inner with
  | zero => exact .error .outOfFuel fun _ => rfl
  | succ rounds ih =>
    refine (switchOuter_appends hpoll next outer inner).bind fun pass => ?_
    obtain ⟨outer, inner, -, switched⟩ := pass
    -- Without an inner stream the switch ends, waits or goes on with the outer one.
    have empty : Appends Polled.put fun journal =>
        if outer.isNone then .ok ⟨.ended, .switch none none next, journal⟩
        else if !switched then .ok ⟨.pending, .switch outer none next, journal⟩
        else switchRounds poll next rounds outer none journal := by
      split
      · exact .pure ⟨.ended, .switch none none next, []⟩ fun _ => rfl
      · split
        · exact .pure ⟨.pending, .switch outer none next, []⟩ fun _ => rfl
        · exact ih outer none
    cases inner with
    | none => exact empty
    | some s =>
      -- The answer of the inner stream comes first.
      dsimp +instances only
      refine (hpoll s).bind fun p => ?_
      obtain ⟨answer, s', -⟩ := p
      cases answer with
      | value v => exact .pure ⟨.value v, .switch outer (some s') next, []⟩ fun _ => rfl
      | ended => exact empty
      | pending =>
        cases switched with
        | false => exact .pure ⟨.pending, .switch outer (some s') next, []⟩ fun _ => rfl
        | true => exact ih outer (some s')

end

/-- A poll of a source. -/
theorem pollSource_appends (clock subscription : Nat) (source : Source) (cursor : Nat) :
    Appends Polled.put fun journal =>
      .ok (pollSource clock subscription source cursor journal) :=
  .events (fun _ => ⟨(source.poll clock cursor).1,
    .opened subscription source (source.poll clock cursor).2, []⟩)
    (fun _ => [.polled subscription (source.poll clock cursor).1]) fun _ => rfl

/-- Every poll reads only the count and only adds events. -/
theorem poll_appends (clock fuel : Nat) (s : Stream) :
    Appends Polled.put (poll clock fuel s) := by
  induction fuel generalizing s with
  | zero => exact .error .outOfFuel fun _ => rfl
  | succ fuel ih =>
    match s with
    | .values [] => exact .pure ⟨.ended, .values [], []⟩ fun _ => rfl
    | .values (v :: rest) => exact .pure ⟨.value v, .values rest, []⟩ fun _ => rfl
    | .unopened broker invocation =>
      exact .events
        (fun n => ⟨((broker n invocation).poll clock 0).1,
          .opened n (broker n invocation) ((broker n invocation).poll clock 0).2, []⟩)
        (fun n => [.polled n ((broker n invocation).poll clock 0).1, .subscribed invocation])
        fun _ => rfl
    | .opened subscription source cursor =>
      exact pollSource_appends clock subscription source cursor
    | .map f inner =>
      refine (ih inner).bind fun p => ?_
      obtain ⟨answer, s', -⟩ := p
      cases answer with
      | value v => exact .pure ⟨.value (f v), .map f s', []⟩ fun _ => rfl
      | pending => exact .pure ⟨.pending, .map f s', []⟩ fun _ => rfl
      | ended => exact .pure ⟨.ended, .map f s', []⟩ fun _ => rfl
    | .head none => exact .pure ⟨.ended, .head none, []⟩ fun _ => rfl
    | .head (some inner) =>
      refine (ih inner).bind fun p => ?_
      obtain ⟨answer, s', -⟩ := p
      cases answer with
      | value v => exact .pure ⟨.value v, .head none, []⟩ fun _ => rfl
      | pending => exact .pure ⟨.pending, .head (some s'), []⟩ fun _ => rfl
      | ended => exact .pure ⟨.ended, .head none, []⟩ fun _ => rfl
    | .join slots combine => exact joinRounds_appends ih combine (fuel + 1) slots
    | .switch outer inner next => exact switchRounds_appends ih next (fuel + 1) outer inner

end Stream

namespace Course

abbrev put (course : Course Stream) (journal : Journal) : Course Stream :=
  { course with journal := journal }

end Course

/-- So does every run of polls. -/
theorem Stream.pollEach_appends (schedule : List (Nat × Nat)) (s : Stream) :
    Appends Course.put (s.pollEach schedule) := by
  induction schedule generalizing s with
  | nil => exact .pure ⟨[], s, []⟩ fun _ => rfl
  | cons turn later ih =>
    refine (poll_appends turn.1 turn.2 s).bind fun p => ?_
    dsimp only
    exact (ih p.stream).bind fun course =>
      .pure { course with answers := p.answer :: course.answers } fun _ => rfl

end PolicyExpr
