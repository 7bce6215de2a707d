import PolicyExpr.Proofs.Journaling
import PolicyExpr.Proofs.Polling

/-!
# Which subscriptions belong to a stream

A stream owns the subscriptions whose sources it holds, and its parts own them apart from one
another. A poll adds events of its own subscriptions only, those that it makes included. What was
polled last in a part is therefore not polled by another, so that a stream which answers that it
is pending holds only sources that were pending when they were polled last.
-/
namespace PolicyExpr

/-! ## Answers in a journal -/

namespace Journal

variable {new journal : Journal} {n : Nat} {a : Answer}

/-- The answer of a subscription to its latest poll. -/
def lastAnswer (n : Nat) (journal : Journal) : Option Answer :=
  journal.findSome? fun
    | .polled k a => if k = n then some a else none
    | .subscribed _ => none

theorem lastAnswer_append : lastAnswer n (new ++ journal) =
    (new.lastAnswer n).or (journal.lastAnswer n) := List.findSome?_append

theorem lastAnswer_polled : lastAnswer n (.polled n a :: journal) = some a := by
  simp [lastAnswer]

/-- A subscription that was not polled has not answered. -/
theorem lastAnswer_eq_none (h : ∀ a, .polled n a ∉ new) : new.lastAnswer n = none := by
  refine List.findSome?_eq_none_iff.2 fun e he => ?_
  cases e with
  | subscribed i => rfl
  | polled k a =>
    refine if_neg fun hk => ?_
    subst hk
    exact h a he

end Journal

/-! ## Owners -/

/-- Subscriptions, and those made between two counts. -/
def Grown (N : Nat → Prop) (before after : Nat) (n : Nat) : Prop :=
  N n ∨ before ≤ n ∧ n < after

namespace Stream

mutual

/-- All sources that the stream holds under a subscription are under one of these, and no two of
them under the same. The streams that it will make hold none yet. -/
inductive Within : (N : Nat → Prop) → Stream → Prop where
  | values {N : Nat → Prop} (vs : List Value) : Within N (.values vs)
  | unopened {N : Nat → Prop} (broker : AttributeBroker) (invocation : AttributeInvocation) :
    Within N (.unopened broker invocation)
  | opened {N : Nat → Prop} {n : Nat} {source : Source} {cursor : Nat} (h : N n) :
    Within N (.opened n source cursor)
  | map {N A : Nat → Prop} {f : Value → Value} {inner : Stream} (hA : ∀ n, A n → N n)
    (h : Within A inner) : Within N (.map f inner)
  | head {N A : Nat → Prop} {inner : Option Stream} (hA : ∀ n, A n → N n)
    (h : ∀ s, inner = some s → Within A s) : Within N (.head inner)
  | join {N : Nat → Prop} {slots : List (Slot Stream)} {combine : List Value → Eval Value}
    (h : SlotsWithin N slots) : Within N (.join slots combine)
  | switch {N A B : Nat → Prop} {outer inner : Option Stream} {next : Value → Eval Stream}
    (hA : ∀ n, A n → N n) (hB : ∀ n, B n → N n) (hapart : ∀ n, A n → ¬B n)
    (houter : ∀ s, outer = some s → Within A s) (hinner : ∀ s, inner = some s → Within B s)
    (hnext : ∀ v s, next v = .ok s → Within (fun _ => False) s) :
    Within N (.switch outer inner next)

/-- The same of the live parts of a join. -/
inductive SlotsWithin : (N : Nat → Prop) → List (Slot Stream) → Prop where
  | nil {N : Nat → Prop} : SlotsWithin N []
  | cons {N A B : Nat → Prop} {slot : Slot Stream} {rest : List (Slot Stream)}
    (hA : ∀ n, A n → N n) (hB : ∀ n, B n → N n) (hapart : ∀ n, A n → ¬B n)
    (hlive : ∀ s, slot.live = some s → Within A s) (hrest : SlotsWithin B rest) :
    SlotsWithin N (slot :: rest)

end

/-- No source is under a subscription yet. -/
abbrev Fresh (s : Stream) : Prop := s.Within fun _ => False

variable {N M A B : Nat → Prop} {s : Stream} {slots : List (Slot Stream)}

theorem Within.mono (h : s.Within N) (hNM : ∀ n, N n → M n) : s.Within M := by
  cases h with
  | values vs => exact .values vs
  | unopened broker invocation => exact .unopened broker invocation
  | opened h => exact .opened (hNM _ h)
  | map hA h => exact .map (fun n hn => hNM n (hA n hn)) h
  | head hA h => exact .head (fun n hn => hNM n (hA n hn)) h
  | join h =>
    cases h with
    | nil => exact .join .nil
    | cons hA hB hapart hlive hrest =>
      exact .join (.cons (fun n hn => hNM n (hA n hn)) (fun n hn => hNM n (hB n hn)) hapart hlive
        hrest)
  | switch hA hB hapart houter hinner hnext =>
    exact .switch (fun n hn => hNM n (hA n hn)) (fun n hn => hNM n (hB n hn)) hapart houter hinner
      hnext

theorem SlotsWithin.mono (h : SlotsWithin N slots) (hNM : ∀ n, N n → M n) :
    SlotsWithin M slots := by
  cases h with
  | nil => exact .nil
  | cons hA hB hapart hlive hrest =>
    exact .cons (fun n hn => hNM n (hA n hn)) (fun n hn => hNM n (hB n hn)) hapart hlive hrest

/-! ## Streams that wait -/

/-- A stream that can go on only through sources under subscriptions, each of which has `P`, and
whose parts that last have `Q`: every live part of a join, and the outer and the inner stream of a
switch, as far as there are any. The fuel bounds the nesting. -/
inductive Awaits (P : Nat → Source → Nat → Prop) (Q : Stream → Prop) : (fuel : Nat) → Stream → Prop
    where
  | opened {fuel n : Nat} {source : Source} {cursor : Nat} (h : P n source cursor) :
    Awaits P Q (fuel + 1) (.opened n source cursor)
  | map {fuel : Nat} {f : Value → Value} {inner : Stream} (hpart : Q inner)
    (h : Awaits P Q fuel inner) : Awaits P Q (fuel + 1) (.map f inner)
  | head {fuel : Nat} {inner : Stream} (hpart : Q inner) (h : Awaits P Q fuel inner) :
    Awaits P Q (fuel + 1) (.head (some inner))
  | join {fuel : Nat} {slots : List (Slot Stream)} {combine : List Value → Eval Value}
    (hlast : ∃ slot ∈ slots, slot.live ≠ none)
    (hpart : ∀ slot ∈ slots, ∀ s, slot.live = some s → Q s)
    (h : ∀ slot ∈ slots, ∀ s, slot.live = some s → Awaits P Q fuel s) :
    Awaits P Q (fuel + 1) (.join slots combine)
  | switch {fuel : Nat} {outer inner : Option Stream} {next : Value → Eval Stream}
    (hlast : outer ≠ none ∨ inner ≠ none) (houter : ∀ s, outer = some s → Q s)
    (hinner : ∀ s, inner = some s → Q s)
    (houters : ∀ s, outer = some s → Awaits P Q fuel s)
    (hinners : ∀ s, inner = some s → Awaits P Q fuel s) :
    Awaits P Q (fuel + 1) (.switch outer inner next)

theorem Awaits.mono {P P' : Nat → Source → Nat → Prop} {Q Q' : Stream → Prop} {fuel : Nat}
    (h : s.Awaits P Q fuel) (hP : ∀ n source cursor, P n source cursor → P' n source cursor)
    (hQ : ∀ s, Q s → Q' s) : s.Awaits P' Q' fuel := by
  induction h with
  | opened h => exact .opened (hP _ _ _ h)
  | map hpart _ ih => exact .map (hQ _ hpart) ih
  | head hpart _ ih => exact .head (hQ _ hpart) ih
  | join hlast hpart _ ih => exact .join hlast (fun slot hslot s hs => hQ s (hpart slot hslot s hs)) ih
  | switch hlast houter hinner _ _ iho ihi =>
    exact .switch hlast (fun s hs => hQ s (houter s hs)) (fun s hs => hQ s (hinner s hs)) iho ihi

/-- The stream is what a poll left behind that answered that it was pending, between two moments
of the journal. -/
def LeftPending (clock : Nat) (before after : Journal) (s : Stream) : Prop :=
  ∃ (fuel : Nat) (t : Stream) (journal : Journal) (p : Polled),
    t.poll clock fuel journal = .ok p ∧ p.answer = .pending ∧ p.stream = s ∧
      before <:+ journal ∧ p.journal <:+ after

/-! ## What a poll does to subscriptions -/

/-- The events that were added are those of these subscriptions and of new ones. -/
structure Adds (N : Nat → Prop) (before after new : Journal) : Prop where
  journal : after = new ++ before
  own : ∀ n a, .polled n a ∈ new → Grown N before.subscriptionCount after.subscriptionCount n

/-- A source is one of these and was pending when it was polled last. -/
def Pends (N : Nat → Prop) (new : Journal) (n : Nat) (_ : Source) (_ : Nat) : Prop :=
  N n ∧ new.lastAnswer n = some .pending

/-- A stream that owned `N` was polled. -/
structure Outcome (clock fuel : Nat) (N : Nat → Prop) (before : Journal) (p : Polled)
    (new : Journal) : Prop where
  adds : Adds N before p.journal new
  within : p.stream.Within (Grown N before.subscriptionCount p.journal.subscriptionCount)
  waits : p.answer = .pending → p.stream.Awaits
    (Pends (Grown N before.subscriptionCount p.journal.subscriptionCount) new)
    (LeftPending clock before p.journal) fuel

/-- Every poll with this fuel has such an outcome. -/
def Keeps (clock fuel : Nat) : Prop :=
  ∀ (N : Nat → Prop) (s : Stream) (journal : Journal) (p : Polled),
    (∀ n, N n → n < journal.subscriptionCount) → s.Within N →
      s.poll clock fuel journal = .ok p → ∃ new, Outcome clock fuel N journal p new

variable {clock fuel : Nat} {before middle after new later : Journal} {p : Polled}

theorem LeftPending.mono (h : LeftPending clock middle after s) (hbefore : before <:+ middle)
    {last : Journal} (hafter : after <:+ last) : LeftPending clock before last s := by
  obtain ⟨fuel, t, journal, p, hp, hanswer, hstream, hmiddle, hlast⟩ := h
  exact ⟨fuel, t, journal, p, hp, hanswer, hstream, hbefore.trans hmiddle, hlast.trans hafter⟩

namespace Adds

theorem refl (N : Nat → Prop) (journal : Journal) : Adds N journal journal [] := ⟨rfl, nofun⟩

theorem suffix (h : Adds N before after new) : before <:+ after := ⟨new, h.journal.symm⟩

theorem count_le (h : Adds N before after new) :
    before.subscriptionCount ≤ after.subscriptionCount := by
  rw [h.journal, Journal.subscriptionCount_append]
  exact Nat.le_add_left _ _

/-- One after the other. -/
theorem trans (h : Adds N before middle new) (hlater : Adds M middle after later)
    (hM : ∀ n, M n → Grown N before.subscriptionCount middle.subscriptionCount n) :
    Adds N before after (later ++ new) where
  journal := by rw [hlater.journal, h.journal, List.append_assoc]
  own n a hmem := by
    have hcount := h.count_le
    have hcount' := hlater.count_le
    rcases List.mem_append.1 hmem with hmem | hmem
    · rcases hlater.own n a hmem with hn | hn
      · rcases hM n hn with hn | hn
        · exact .inl hn
        · exact .inr (by omega)
      · exact .inr (by omega)
    · rcases h.own n a hmem with hn | hn
      · exact .inl hn
      · exact .inr (by omega)

/-- Subscriptions apart from these, and older than what was added, were not polled. -/
theorem lastAnswer_eq_none (h : Adds N before after new) {n : Nat} (hn : ¬N n)
    (hold : n < before.subscriptionCount) : new.lastAnswer n = none := by
  refine Journal.lastAnswer_eq_none fun a hmem => ?_
  rcases h.own n a hmem with hown | hown
  · exact hn hown
  · omega

end Adds

/-- What is known of a poll is known of it with what came before. -/
theorem Outcome.behind (h : Outcome clock fuel M middle p later) (hadds : Adds N before middle new)
    (hM : ∀ n, M n → Grown N before.subscriptionCount middle.subscriptionCount n) :
    Outcome clock fuel N before p (later ++ new) := by
  have hcount := hadds.count_le
  have hcount' := h.adds.count_le
  have grown : ∀ n, Grown M middle.subscriptionCount p.journal.subscriptionCount n →
      Grown N before.subscriptionCount p.journal.subscriptionCount n := by
    rintro n (hn | hn)
    · rcases hM n hn with hn | hn
      · exact .inl hn
      · exact .inr (by omega)
    · exact .inr (by omega)
  refine ⟨hadds.trans h.adds hM, h.within.mono grown, fun hpending => ?_⟩
  refine (h.waits hpending).mono (fun n _ _ ⟨hn, hlast⟩ => ⟨grown n hn, ?_⟩)
    fun s hs => hs.mono hadds.suffix List.suffix_rfl
  rw [Journal.lastAnswer_append, hlast]
  rfl

/-! ### Two owners in turn -/

/-- Two owners apart from one another were polled, the one of `A` before the one of `B`. -/
structure InTurn (N A B : Nat → Prop) (before middle after new later : Journal) : Prop where
  first : Adds A before middle new
  second : Adds B middle after later
  firstOwned : ∀ n, A n → N n
  secondOwned : ∀ n, B n → N n
  apart : ∀ n, A n → ¬B n
  firstOld : ∀ n, A n → n < before.subscriptionCount
  secondOld : ∀ n, B n → n < before.subscriptionCount

namespace InTurn

variable {n : Nat} {source : Source} {cursor : Nat}

theorem grown_first (h : InTurn N A B before middle after new later)
    (hn : Grown A before.subscriptionCount middle.subscriptionCount n) :
    Grown N before.subscriptionCount after.subscriptionCount n := by
  have hcount := h.second.count_le
  rcases hn with hn | hn
  · exact .inl (h.firstOwned n hn)
  · exact .inr (by omega)

theorem grown_second (h : InTurn N A B before middle after new later)
    (hn : Grown B middle.subscriptionCount after.subscriptionCount n) :
    Grown N before.subscriptionCount after.subscriptionCount n := by
  have hcount := h.first.count_le
  rcases hn with hn | hn
  · exact .inl (h.secondOwned n hn)
  · exact .inr (by omega)

theorem lt_of_grown_first (h : InTurn N A B before middle after new later)
    (hn : Grown A before.subscriptionCount middle.subscriptionCount n) :
    n < middle.subscriptionCount := by
  have hcount := h.first.count_le
  rcases hn with hn | hn
  · have hold := h.firstOld n hn
    omega
  · exact hn.2

theorem not_second (h : InTurn N A B before middle after new later)
    (hn : Grown A before.subscriptionCount middle.subscriptionCount n) : ¬B n := by
  intro hB
  rcases hn with hn | hn
  · exact h.apart n hn hB
  · have hold := h.secondOld n hB
    omega

theorem grown_apart (h : InTurn N A B before middle after new later)
    (hn : Grown A before.subscriptionCount middle.subscriptionCount n) :
    ¬Grown B middle.subscriptionCount after.subscriptionCount n := by
  rintro (hB | hB)
  · exact h.not_second hn hB
  · have hold := h.lt_of_grown_first hn
    omega

theorem adds (h : InTurn N A B before middle after new later) :
    Adds N before after (later ++ new) where
  journal := by rw [h.second.journal, h.first.journal, List.append_assoc]
  own n a hmem := by
    rcases List.mem_append.1 hmem with hmem | hmem
    · exact h.grown_second (h.second.own n a hmem)
    · exact h.grown_first (h.first.own n a hmem)

/-- The second owner does not poll what the first one owns. -/
theorem pends_first (h : InTurn N A B before middle after new later)
    (hn : Pends (Grown A before.subscriptionCount middle.subscriptionCount) new n source cursor) :
    Pends (Grown N before.subscriptionCount after.subscriptionCount) (later ++ new) n source
      cursor := by
  refine ⟨h.grown_first hn.1, ?_⟩
  rw [Journal.lastAnswer_append,
    h.second.lastAnswer_eq_none (h.not_second hn.1) (h.lt_of_grown_first hn.1), hn.2]
  rfl

theorem pends_second (h : InTurn N A B before middle after new later)
    (hn : Pends (Grown B middle.subscriptionCount after.subscriptionCount) later n source
      cursor) :
    Pends (Grown N before.subscriptionCount after.subscriptionCount) (later ++ new) n source
      cursor := by
  refine ⟨h.grown_second hn.1, ?_⟩
  rw [Journal.lastAnswer_append, hn.2]
  rfl

/-- What waits in the first owner still waits. -/
theorem waits_first {clock fuel : Nat} {s : Stream} (h : InTurn N A B before middle after new later)
    (hs : LeftPending clock before middle s ∧ s.Awaits
      (Pends (Grown A before.subscriptionCount middle.subscriptionCount) new)
      (LeftPending clock before middle) fuel) :
    LeftPending clock before after s ∧ s.Awaits
      (Pends (Grown N before.subscriptionCount after.subscriptionCount) (later ++ new))
      (LeftPending clock before after) fuel :=
  ⟨hs.1.mono List.suffix_rfl h.second.suffix, hs.2.mono (fun _ _ _ hn => h.pends_first hn)
    fun _ hleft => hleft.mono List.suffix_rfl h.second.suffix⟩

theorem waits_second {clock fuel : Nat} {s : Stream}
    (h : InTurn N A B before middle after new later)
    (hs : LeftPending clock middle after s ∧ s.Awaits
      (Pends (Grown B middle.subscriptionCount after.subscriptionCount) later)
      (LeftPending clock middle after) fuel) :
    LeftPending clock before after s ∧ s.Awaits
      (Pends (Grown N before.subscriptionCount after.subscriptionCount) (later ++ new))
      (LeftPending clock before after) fuel :=
  ⟨hs.1.mono h.first.suffix List.suffix_rfl, hs.2.mono (fun _ _ _ hn => h.pends_second hn)
    fun _ hleft => hleft.mono h.first.suffix List.suffix_rfl⟩

end InTurn

/-! ### Joins -/

/-- The parts of a join, owners of `N`, were polled. -/
structure PassOutcome (clock fuel : Nat) (N : Nat → Prop) (before : Journal) (pass : JoinPass)
    (new : Journal) : Prop where
  adds : Adds N before pass.journal new
  within : SlotsWithin (Grown N before.subscriptionCount pass.journal.subscriptionCount) pass.slots
  /-- Where no part has made progress, each that lasts has just answered that it is pending. -/
  waits : pass.progressed = false → ∀ slot ∈ pass.slots, ∀ s, slot.live = some s →
    LeftPending clock before pass.journal s ∧ s.Awaits
      (Pends (Grown N before.subscriptionCount pass.journal.subscriptionCount) new)
      (LeftPending clock before pass.journal) fuel

section

variable {slot : Slot Stream} {rest : List (Slot Stream)} {pass : JoinPass}

/-- A part of which nothing was asked, before others. -/
theorem PassOutcome.skip (hpass : PassOutcome clock fuel B before pass new)
    (hslot : slot.live = none) (hB : ∀ n, B n → N n) :
    PassOutcome clock fuel N before { pass with slots := slot :: pass.slots } new where
  adds := ⟨hpass.adds.journal, fun n a hmem => (hpass.adds.own n a hmem).imp_left (hB n)⟩
  within := by
    refine .cons (A := fun _ => False) (fun _ => False.elim) (fun n hn => hn.imp_left (hB n))
      (fun _ => False.elim) (fun s hs => ?_) hpass.within
    rw [hslot] at hs
    cases hs
  waits hquiet := by
    refine List.forall_mem_cons.2 ⟨fun s hs => ?_, fun slot hslot s hs => ?_⟩
    · rw [hslot] at hs
      cases hs
    · obtain ⟨hleft, hwaits⟩ := hpass.waits hquiet slot hslot s hs
      exact ⟨hleft, hwaits.mono (fun n _ _ hn => ⟨hn.1.imp_left (hB n), hn.2⟩) fun _ h => h⟩

/-- A part that was polled, before others. -/
theorem PassOutcome.cons {latest : Option Value} {live : Option Stream}
    {updated progressed starved : Bool} (hp : Outcome clock fuel A before p new)
    (hpass : PassOutcome clock fuel B p.journal pass later)
    (hturn : InTurn N A B before p.journal pass.journal new later)
    (hlive : ∀ s, live = some s → s = p.stream)
    (hprogressed : progressed = false → pass.progressed = false ∧ p.answer = .pending ∧
      LeftPending clock before p.journal p.stream) :
    PassOutcome clock fuel N before
      ⟨⟨live, latest⟩ :: pass.slots, pass.journal, updated, progressed, starved⟩
      (later ++ new) := by
  refine ⟨hturn.adds, ?_, fun hquiet => ?_⟩
  · refine .cons (fun _ => hturn.grown_first) (fun _ => hturn.grown_second)
      (fun _ => hturn.grown_apart) (fun s hs => ?_) hpass.within
    rw [hlive s hs]
    exact hp.within
  · obtain ⟨hquiet, hpending, hleft⟩ := hprogressed hquiet
    refine List.forall_mem_cons.2 ⟨fun s hs => ?_, fun slot hslot s hs => ?_⟩
    · rw [hlive s hs]
      exact hturn.waits_first ⟨hleft, hp.waits hpending⟩
    · exact hturn.waits_second (hpass.waits hquiet slot hslot s hs)

end

/-- What a poll left that answered that it was pending. -/
theorem leftPending_of_poll (h : s.poll clock fuel before = .ok p) (hpending : p.answer = .pending) :
    LeftPending clock before p.journal p.stream :=
  ⟨fuel, s, before, p, h, hpending, rfl, List.suffix_rfl, List.suffix_rfl⟩

theorem outcome_joinPass (hpoll : Keeps clock fuel) {pass : JoinPass}
    (hold : ∀ n, N n → n < before.subscriptionCount) (hslots : SlotsWithin N slots)
    (h : joinPass (poll clock fuel) slots before = .ok pass) :
    ∃ new, PassOutcome clock fuel N before pass new := by
  induction slots generalizing N before pass with
  | nil =>
    cases h
    exact ⟨[], .refl N before, .nil, fun _ => nofun⟩
  | cons slot rest ih =>
    cases hslots with
    | @cons _ A B _ _ hA hB hapart hlive hrest =>
      have holdA : ∀ n, A n → n < before.subscriptionCount := fun n hn => hold n (hA n hn)
      have holdB : ∀ n, B n → n < before.subscriptionCount := fun n hn => hold n (hB n hn)
      -- The parts behind the first one are polled from its journal on.
      have polled {s : Stream} {p : Polled} {others : JoinPass} (hs : slot.live = some s)
          (hp : poll clock fuel s before = .ok p)
          (hothers : joinPass (poll clock fuel) rest p.journal = .ok others) :
          ∃ new later, Outcome clock fuel A before p new ∧
            PassOutcome clock fuel B p.journal others later ∧
            InTurn N A B before p.journal others.journal new later := by
        obtain ⟨new, hout⟩ := hpoll A s before p holdA (hlive s hs) hp
        have hcount := hout.adds.count_le
        obtain ⟨later, hlater⟩ :=
          ih (fun n hn => Nat.lt_of_lt_of_le (holdB n hn) hcount) hrest hothers
        exact ⟨new, later, hout, hlater, hout.adds, hlater.adds, hA, hB, hapart, holdA, holdB⟩
      cases joinPass_cons h with
      | skipped hnone hothers =>
        obtain ⟨new, hnew⟩ := ih holdB hrest hothers
        exact ⟨new, hnew.skip hnone hB⟩
      | value hs hp hv hothers =>
        obtain ⟨new, later, hout, hlater, hturn⟩ := polled hs hp hothers
        exact ⟨later ++ new, .cons hout hlater hturn (by rintro _ ⟨⟩; rfl) nofun⟩
      | pending hs hp hpending hothers =>
        obtain ⟨new, later, hout, hlater, hturn⟩ := polled hs hp hothers
        exact ⟨later ++ new, .cons hout hlater hturn (by rintro _ ⟨⟩; rfl)
          fun hquiet => ⟨hquiet, hpending, leftPending_of_poll hp hpending⟩⟩
      | ended hs hp hended hothers =>
        obtain ⟨new, later, hout, hlater, hturn⟩ := polled hs hp hothers
        exact ⟨later ++ new, .cons hout hlater hturn nofun nofun⟩
      | @starved s p hs hp hended hlatest =>
        obtain ⟨new, hout⟩ := hpoll A s before p holdA (hlive s hs) hp
        have hrest' : PassOutcome clock fuel B p.journal ⟨rest, p.journal, false, true, true⟩ [] :=
          ⟨.refl B p.journal, hrest.mono fun n hn => .inl hn, nofun⟩
        exact ⟨[] ++ new, .cons hout hrest'
          ⟨hout.adds, .refl B p.journal, hA, hB, hapart, holdA, holdB⟩ nofun nofun⟩

theorem outcome_joinRounds (hpoll : Keeps clock fuel) {combine : List Value → Eval Value}
    (rounds : Nat) (hold : ∀ n, N n → n < before.subscriptionCount) (hslots : SlotsWithin N slots)
    (h : joinRounds (poll clock fuel) combine rounds slots before = .ok p) :
    ∃ new, Outcome clock (fuel + 1) N before p new := by
  induction rounds generalizing N slots before with
  | zero => cases h
  | succ rounds ih =>
    obtain ⟨pass, hpass, hround⟩ := joinRounds_succ h
    obtain ⟨new, hout⟩ := outcome_joinPass hpoll hold hslots hpass
    cases hround with
    | starved hstarved => exact ⟨new, hout.adds, .join .nil, nofun⟩
    | emitted hvs hv => exact ⟨new, hout.adds, .join hout.within, nofun⟩
    | ended hover => exact ⟨new, hout.adds, .join hout.within, nofun⟩
    | waiting hlast hquiet =>
      have hwaits := hout.waits hquiet
      exact ⟨new, hout.adds, .join hout.within, fun _ => .join hlast
        (fun slot hslot s hs => (hwaits slot hslot s hs).1)
        fun slot hslot s hs => (hwaits slot hslot s hs).2⟩
    | again h =>
      have hold' : ∀ n, Grown N before.subscriptionCount pass.journal.subscriptionCount n →
          n < pass.journal.subscriptionCount := by
        rintro n (hn | hn)
        · exact Nat.lt_of_lt_of_le (hold n hn) hout.adds.count_le
        · exact hn.2
      obtain ⟨later, hlater⟩ := ih hold' hout.within h
      exact ⟨later ++ new, hlater.behind hout.adds fun _ hn => hn⟩

/-! ### Switches -/

/-- The outer stream of a switch, owner of `A`, was polled. -/
structure TurnOutcome (clock fuel : Nat) (A B : Nat → Prop) (before : Journal) (pass : SwitchPass)
    (new : Journal) : Prop where
  adds : Adds A before pass.journal new
  outer : ∀ s, pass.outer = some s →
    s.Within (Grown A before.subscriptionCount pass.journal.subscriptionCount)
  inner : ∀ s, pass.inner = some s → s.Within B
  waits : pass.switched = false → ∀ s, pass.outer = some s →
    LeftPending clock before pass.journal s ∧ s.Awaits
      (Pends (Grown A before.subscriptionCount pass.journal.subscriptionCount) new)
      (LeftPending clock before pass.journal) fuel

section

variable {outer inner : Option Stream} {next : Value → Eval Stream} {pass : SwitchPass}

theorem outcome_switchOuter (hpoll : Keeps clock fuel)
    (hold : ∀ n, A n → n < before.subscriptionCount) (houter : ∀ s, outer = some s → s.Within A)
    (hinner : ∀ s, inner = some s → s.Within B) (hnext : ∀ v s, next v = .ok s → s.Fresh)
    (h : switchOuter (poll clock fuel) next outer inner before = .ok pass) :
    ∃ new, TurnOutcome clock fuel A B before pass new := by
  have polled {s : Stream} {p : Polled} (hs : outer = some s)
      (hp : poll clock fuel s before = .ok p) : ∃ new, Outcome clock fuel A before p new :=
    hpoll A s before p hold (houter s hs) hp
  cases switchOuter_eq_ok h with
  | gone hnone => exact ⟨[], .refl A before, nofun, hinner, fun _ => nofun⟩
  | switched hs hp hv hi =>
    obtain ⟨new, hout⟩ := polled hs hp
    refine ⟨new, hout.adds, ?_, ?_, nofun⟩
    · rintro _ ⟨⟩
      exact hout.within
    · rintro _ ⟨⟩
      exact (hnext _ _ hi).mono fun _ => False.elim
  | ended hs hp hended =>
    obtain ⟨new, hout⟩ := polled hs hp
    exact ⟨new, hout.adds, nofun, hinner, fun _ => nofun⟩
  | pending hs hp hpending =>
    obtain ⟨new, hout⟩ := polled hs hp
    refine ⟨new, hout.adds, ?_, hinner, fun _ => ?_⟩
    · rintro _ ⟨⟩
      exact hout.within
    · rintro _ ⟨⟩
      exact ⟨leftPending_of_poll hp hpending, hout.waits hpending⟩

/-- The outcome of a switch whose outer stream was polled and then its inner stream, if there was
one. -/
theorem TurnOutcome.rest (hpass : TurnOutcome clock fuel A B before pass new)
    (hturn : InTurn N A M before pass.journal after new later)
    (hnext : ∀ v s, next v = .ok s → s.Fresh)
    (hinner : ∀ s, inner = some s →
      s.Within (Grown M pass.journal.subscriptionCount after.subscriptionCount))
    {answer : Answer}
    (hpending : answer = .pending → pass.switched = false ∧ (pass.outer ≠ none ∨ inner ≠ none) ∧
      ∀ s, inner = some s → LeftPending clock pass.journal after s ∧ s.Awaits
        (Pends (Grown M pass.journal.subscriptionCount after.subscriptionCount) later)
        (LeftPending clock pass.journal after) fuel) :
    Outcome clock (fuel + 1) N before ⟨answer, .switch pass.outer inner next, after⟩
      (later ++ new) := by
  refine ⟨hturn.adds, ?_, fun hanswer => ?_⟩
  · exact .switch (fun _ => hturn.grown_first) (fun _ => hturn.grown_second)
      (fun _ => hturn.grown_apart) hpass.outer hinner hnext
  · obtain ⟨hstayed, hlast, hinners⟩ := hpending hanswer
    have houter := fun s hs => hturn.waits_first (hpass.waits hstayed s hs)
    have hinner := fun s hs => hturn.waits_second (hinners s hs)
    exact .switch hlast (fun s hs => (houter s hs).1) (fun s hs => (hinner s hs).1)
      (fun s hs => (houter s hs).2) fun s hs => (hinner s hs).2

theorem outcome_switchRounds (hpoll : Keeps clock fuel) (rounds : Nat)
    (hold : ∀ n, N n → n < before.subscriptionCount) (hA : ∀ n, A n → N n) (hB : ∀ n, B n → N n)
    (hapart : ∀ n, A n → ¬B n) (houter : ∀ s, outer = some s → s.Within A)
    (hinner : ∀ s, inner = some s → s.Within B) (hnext : ∀ v s, next v = .ok s → s.Fresh)
    (h : switchRounds (poll clock fuel) next rounds outer inner before = .ok p) :
    ∃ new, Outcome clock (fuel + 1) N before p new := by
  induction rounds generalizing N A B outer inner before with
  | zero => cases h
  | succ rounds ih =>
    have holdA : ∀ n, A n → n < before.subscriptionCount := fun n hn => hold n (hA n hn)
    have holdB : ∀ n, B n → n < before.subscriptionCount := fun n hn => hold n (hB n hn)
    obtain ⟨pass, hpass, hround⟩ := switchRounds_succ h
    obtain ⟨new, hout⟩ := outcome_switchOuter hpoll holdA houter hinner hnext hpass
    have inTurn {after later : Journal} (hadds : Adds B pass.journal after later) :
        InTurn N A B before pass.journal after new later :=
      ⟨hout.adds, hadds, hA, hB, hapart, holdA, holdB⟩
    have polled {s : Stream} {q : Polled} (hs : pass.inner = some s)
        (hq : poll clock fuel s pass.journal = .ok q) :
        ∃ later, Outcome clock fuel B pass.journal q later := by
      have hcount := hout.adds.count_le
      exact hpoll B s pass.journal q (fun n hn => Nat.lt_of_lt_of_le (holdB n hn) hcount)
        (hout.inner s hs) hq
    -- Where the inner stream is gone, its owner has added what it added at its end.
    have gone {after : Journal} (h : InnerGone (poll clock fuel) pass after) :
        ∃ later, Adds B pass.journal after later := by
      cases h with
      | absent hnone => exact ⟨[], .refl B pass.journal⟩
      | ended hs hq hended =>
        obtain ⟨later, hlater⟩ := polled hs hq
        exact ⟨later, hlater.adds⟩
    have none_within {after : Journal} : ∀ s, (none : Option Stream) = some s →
        s.Within (Grown B pass.journal.subscriptionCount after.subscriptionCount) := nofun
    -- The next round, with what is left of the streams.
    have again {after later : Journal} {inner : Option Stream}
        (hadds : Adds B pass.journal after later)
        (hinner : ∀ s, inner = some s →
          s.Within (Grown B pass.journal.subscriptionCount after.subscriptionCount))
        (h : switchRounds (poll clock fuel) next rounds pass.outer inner after = .ok p) :
        ∃ new, Outcome clock (fuel + 1) N before p new := by
      have hturn := inTurn hadds
      have hold' : ∀ n, Grown N before.subscriptionCount after.subscriptionCount n →
          n < after.subscriptionCount := by
        rintro n (hn | hn)
        · exact Nat.lt_of_lt_of_le (hold n hn) hturn.adds.count_le
        · exact hn.2
      obtain ⟨latest, hlatest⟩ := ih hold' (fun _ => hturn.grown_first)
        (fun _ => hturn.grown_second) (fun _ => hturn.grown_apart) hout.outer hinner h
      exact ⟨latest ++ (later ++ new), hlatest.behind hturn.adds fun _ hn => hn⟩
    cases hround with
    | emitted hs hq hv =>
      obtain ⟨later, hlater⟩ := polled hs hq
      refine ⟨later ++ new, hout.rest (inTurn hlater.adds) hnext ?_ nofun⟩
      rintro _ ⟨⟩
      exact hlater.within
    | waiting hs hq hpending hstayed =>
      obtain ⟨later, hlater⟩ := polled hs hq
      refine ⟨later ++ new, hout.rest (inTurn hlater.adds) hnext ?_
        fun _ => ⟨hstayed, .inr nofun, ?_⟩⟩
      · rintro _ ⟨⟩
        exact hlater.within
      · rintro _ ⟨⟩
        exact ⟨leftPending_of_poll hq hpending, hlater.waits hpending⟩
    | again hs hq hpending h =>
      obtain ⟨later, hlater⟩ := polled hs hq
      refine again hlater.adds ?_ h
      rintro _ ⟨⟩
      exact hlater.within
    | @ended after hgone hnone =>
      obtain ⟨later, hadds⟩ := gone hgone
      have hrest : Outcome clock (fuel + 1) N before
          ⟨.ended, .switch pass.outer none next, after⟩ (later ++ new) :=
        hout.rest (inTurn hadds) hnext none_within nofun
      rw [hnone] at hrest
      exact ⟨later ++ new, hrest⟩
    | alone hgone hsome hstayed =>
      obtain ⟨later, hadds⟩ := gone hgone
      exact ⟨later ++ new, hout.rest (inTurn hadds) hnext none_within
        fun _ => ⟨hstayed, .inl hsome, nofun⟩⟩
    | aloneAgain hgone h =>
      obtain ⟨later, hadds⟩ := gone hgone
      exact again hadds none_within h

end

/-! ### All streams -/

/-- A poll of a source. -/
theorem outcome_pollSource {n : Nat} (source : Source) (cursor : Nat)
    (hadds : Adds N before middle new)
    (hn : Grown N before.subscriptionCount middle.subscriptionCount n) :
    Outcome clock (fuel + 1) N before (pollSource clock n source cursor middle)
      (.polled n (source.poll clock cursor).1 :: new) := by
  have hcount : (pollSource clock n source cursor middle).journal.subscriptionCount =
      middle.subscriptionCount := Journal.subscriptionCount_polled
  refine ⟨⟨congrArg _ hadds.journal, fun k a hmem => ?_⟩, .opened ?_,
    fun hpending => .opened ⟨?_, ?_⟩⟩
  · rw [hcount]
    rcases List.mem_cons.1 hmem with heq | hmem
    · cases heq
      exact hn
    · exact hadds.own k a hmem
  · rw [hcount]
    exact hn
  · rw [hcount]
    exact hn
  · rw [Journal.lastAnswer_polled]
    exact congrArg some hpending

/-- A subscription. -/
theorem adds_subscribed (N : Nat → Prop) (before : Journal) (invocation : AttributeInvocation) :
    Adds N before (.subscribed invocation :: before) [.subscribed invocation] :=
  ⟨rfl, by simp⟩

/-- Every poll keeps to the subscriptions of its stream. -/
theorem keeps_poll (clock fuel : Nat) : Keeps clock fuel := by
  induction fuel with
  | zero => exact fun _ _ _ _ _ _ h => nomatch h
  | succ fuel ih =>
    intro N s before p hold hs h
    cases hs with
    | values vs =>
      cases vs <;> cases h <;> exact ⟨[], .refl N before, .values _, nofun⟩
    | unopened broker invocation =>
      cases h
      refine ⟨_, outcome_pollSource _ _ (adds_subscribed N before invocation) (.inr ?_)⟩
      simp
    | opened hn =>
      cases h
      exact ⟨_, outcome_pollSource _ _ (.refl N before) (.inl hn)⟩
    | @map _ A f inner hA hinner =>
      obtain ⟨q, hq, h⟩ := bind_eq_ok h
      cases h
      obtain ⟨new, hout⟩ := ih A inner before q (fun n hn => hold n (hA n hn)) hinner hq
      have hout := hout.behind (.refl N before) fun n hn => .inl (hA n hn)
      refine ⟨_, hout.adds, .map (fun _ hn => hn) hout.within, fun hpending => ?_⟩
      have hpending : q.answer = .pending := by
        cases hanswer : q.answer <;> simp_all
      exact .map (leftPending_of_poll hq hpending) (hout.waits hpending)
    | @head _ A inner hA hinner =>
      cases inner with
      | none =>
        cases h
        exact ⟨[], .refl N before, .head (fun _ => False.elim) nofun, nofun⟩
      | some s =>
        obtain ⟨q, hq, h⟩ := bind_eq_ok h
        obtain ⟨new, hout⟩ := ih A s before q (fun n hn => hold n (hA n hn)) (hinner s rfl) hq
        have hout := hout.behind (.refl N before) fun n hn => .inl (hA n hn)
        split at h
        · next hpending =>
          cases h
          refine ⟨_, hout.adds, .head (fun _ hn => hn) ?_, fun _ => ?_⟩
          · rintro _ ⟨⟩
            exact hout.within
          · exact .head (leftPending_of_poll hq hpending) (hout.waits hpending)
        · next hanswer =>
          cases h
          exact ⟨_, hout.adds, .head (fun _ => False.elim) nofun, fun hpending =>
            absurd hpending hanswer⟩
    | @join _ slots combine hslots => exact outcome_joinRounds ih (fuel + 1) hold hslots h
    | switch hA hB hapart houter hinner hnext =>
      exact outcome_switchRounds ih (fuel + 1) hold hA hB hapart houter hinner hnext h

end Stream

end PolicyExpr
