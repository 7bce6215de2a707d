import Mathlib.Logic.Function.Iterate
import PolicyExpr.Proofs.Convergence

/-!
# Polls that return and polls that do not

One poll of a join goes round its parts until it has something to answer, and one poll of a switch
goes on as long as its outer stream has values. Over sources, which answer every poll at once, each
such poll returns unless the combinator stalls at that time, and then it never does. A join stalls
if a part that has no value stays pending while in every round some other part does not. A switch
stalls if its outer stream always has a value whose inner stream has none.
-/
namespace PolicyExpr

/-! ## Sources under a subscription -/

/-- A source under a subscription, with its cursor. -/
structure Subscription where
  number : Nat
  source : Source
  cursor : Nat

namespace Subscription

def stream (s : Subscription) : Stream := .opened s.number s.source s.cursor

/-- The subscription after a poll. -/
def next (clock : Nat) (s : Subscription) : Subscription :=
  { s with cursor := (s.source.poll clock s.cursor).2 }

/-- The answers to polls at one time, one after the other, counted from zero. -/
def answerAt (clock : Nat) : Subscription → Nat → Answer
  | s, 0 => (s.source.poll clock s.cursor).1
  | s, n + 1 => answerAt clock (s.next clock) n

@[simp] theorem answerAt_succ (clock : Nat) (s : Subscription) (n : Nat) :
    s.answerAt clock (n + 1) = (s.next clock).answerAt clock n := rfl

end Subscription

/-- A way to poll streams that gets the answers of sources. -/
def Serves (clock : Nat) (poll : Poller) : Prop :=
  ∀ (s : Subscription) (journal : Journal), poll s.stream journal =
    .ok ⟨s.answerAt clock 0, (s.next clock).stream,
      .polled s.number (s.answerAt clock 0) :: journal⟩

theorem serves_poll (clock fuel : Nat) : Serves clock (Stream.poll clock (fuel + 1)) :=
  fun _ _ => rfl

/-! ## Rounds -/

/-- A state from which going on leads to one that does not go on. -/
inductive Stops {σ : Type} (goesOn : σ → Prop) (next : σ → σ) : σ → Prop
  | now {s : σ} (h : ¬goesOn s) : Stops goesOn next s
  | later {s : σ} (h : Stops goesOn next (next s)) : Stops goesOn next s

/-- Rounds over sources: each either leaves its answer to the next one or has a result. Which of
both depends on a state, and not on what else is carried along. -/
structure Loop {σ γ : Type} (clock : Nat) (goesOn : σ → Prop) (next : σ → σ)
    (run : Poller → (rounds : Nat) → σ → γ → Except Halt Polled) : Prop where
  again : ∀ s c, goesOn s → ∃ c', ∀ poll, Serves clock poll → ∀ rounds,
    run poll (rounds + 1) s c = run poll rounds (next s) c'
  finish : ∀ s c, ¬goesOn s → ∃ r, ∀ poll, Serves clock poll → ∀ rounds,
    run poll (rounds + 1) s c = Halt.lift r
  noRound : ∀ poll s c, run poll 0 s c = .error .outOfFuel
  noPoll : ∀ poll, (∀ s j, poll s j = .error .outOfFuel) → ∀ rounds s c, goesOn s →
    run poll (rounds + 1) s c = .error .outOfFuel

namespace Loop

variable {σ γ : Type} {clock : Nat} {goesOn : σ → Prop} {next : σ → σ}
  {run : Poller → Nat → σ → γ → Except Halt Polled} {s : σ}

theorem result (h : Loop clock goesOn next run) (hs : ¬goesOn s) (c : γ) :
    ∃ enough r, ∀ poll, Serves clock poll → ∀ rounds ≥ enough,
      run poll rounds s c = Halt.lift r := by
  obtain ⟨r, hr⟩ := h.finish s c hs
  refine ⟨1, r, fun poll hpoll rounds hrounds => ?_⟩
  obtain ⟨k, rfl⟩ : ∃ k, rounds = k + 1 := ⟨rounds - 1, by omega⟩
  exact hr poll hpoll k

/-- Rounds that stop have a result, after finitely many of them. -/
theorem stops (h : Loop clock goesOn next run) (hs : Stops goesOn next s) (c : γ) :
    ∃ enough r, ∀ poll, Serves clock poll → ∀ rounds ≥ enough,
      run poll rounds s c = Halt.lift r := by
  induction hs generalizing c with
  | now hs => exact h.result hs c
  | @later s _ ih =>
    by_cases hs : goesOn s
    · obtain ⟨c', hagain⟩ := h.again s c hs
      obtain ⟨enough, r, hr⟩ := ih c'
      refine ⟨enough + 1, r, fun poll hpoll rounds hrounds => ?_⟩
      obtain ⟨k, rfl⟩ : ∃ k, rounds = k + 1 := ⟨rounds - 1, by omega⟩
      rw [hagain poll hpoll, hr poll hpoll k (by omega)]
    · exact h.result hs c

/-- Rounds that keep an invariant under which they go on use up every limit. -/
theorem outOfFuel (h : Loop clock goesOn next run) {stalls : σ → Prop}
    (hgo : ∀ {s}, stalls s → goesOn s) (hkeep : ∀ {s}, stalls s → stalls (next s))
    (hs : stalls s) (c : γ) {poll : Poller} (hpoll : Serves clock poll) (rounds : Nat) :
    run poll rounds s c = .error .outOfFuel := by
  induction rounds generalizing s c with
  | zero => exact h.noRound poll s c
  | succ rounds ih =>
    obtain ⟨c', hagain⟩ := h.again s c (hgo hs)
    rw [hagain poll hpoll]
    exact ih (hkeep hs) c'

variable {stream : Stream} {j : Journal} {c : γ}

/-- A stream that is polled in rounds that stop answers. -/
theorem answers (h : Loop clock goesOn next run) (hs : Stops goesOn next s)
    (hrun : ∀ fuel, stream.poll clock (fuel + 1) j = run (Stream.poll clock fuel) (fuel + 1) s c) :
    ∃ r, stream.Answers clock j r := by
  obtain ⟨enough, r, hr⟩ := h.stops hs c
  refine ⟨r, enough + 2, fun fuel hfuel => ?_⟩
  obtain ⟨k, rfl⟩ : ∃ k, fuel = k + 2 := ⟨fuel - 2, by omega⟩
  exact (hrun (k + 1)).trans (hr _ (serves_poll clock k) _ (by omega))

/-- A stream that is polled in rounds under such an invariant never answers. -/
theorem endless (h : Loop clock goesOn next run) {stalls : σ → Prop}
    (hgo : ∀ {s}, stalls s → goesOn s) (hkeep : ∀ {s}, stalls s → stalls (next s)) (hs : stalls s)
    (hrun : ∀ fuel, stream.poll clock (fuel + 1) j = run (Stream.poll clock fuel) (fuel + 1) s c)
    (fuel : Nat) : stream.poll clock fuel j = .error .outOfFuel := by
  cases fuel with
  | zero => rfl
  | succ fuel =>
    rw [hrun]
    -- The last unit of fuel is spent on the round, and none is left for its polls.
    cases fuel with
    | zero => exact h.noPoll _ (fun _ _ => rfl) 0 s c (hgo hs)
    | succ fuel => exact h.outOfFuel hgo hkeep hs c (serves_poll clock fuel) _

end Loop

/-! ## Parts of a join -/

namespace Slot

/-- A part whose stream is a source. -/
def opened (part : Slot Subscription) : Slot Stream :=
  ⟨part.live.map Subscription.stream, part.latest⟩

/-- A part after a poll. -/
def polled (clock : Nat) (part : Slot Subscription) : Slot Subscription :=
  match part.live with
  | none => part
  | some s =>
    match s.answerAt clock 0 with
    | .value v => ⟨some (s.next clock), some v⟩
    | .ended => ⟨none, part.latest⟩
    | .pending => ⟨some (s.next clock), part.latest⟩

/-- A part has a value at its first poll. -/
def HasValue (clock : Nat) (part : Slot Subscription) : Prop :=
  ∃ s v, part.live = some s ∧ s.answerAt clock 0 = .value v

/-- A part lasts until its poll with this number, which it answers with a value or with its end. -/
def Moves (clock : Nat) (part : Slot Subscription) (n : Nat) : Prop :=
  ∃ s, part.live = some s ∧ s.answerAt clock n ≠ .pending ∧
    ∀ k < n, s.answerAt clock k ≠ .ended

/-- A part has no value and gets none before it ends at its poll with this number. -/
def Starves (clock : Nat) (part : Slot Subscription) (n : Nat) : Prop :=
  part.latest = none ∧ ∃ s, part.live = some s ∧ s.answerAt clock n = .ended ∧
    ∀ k < n, s.answerAt clock k = .pending

/-- A part has no value, and as long as it is polled at this time it is pending. -/
def Silent (clock : Nat) (part : Slot Subscription) : Prop :=
  part.latest = none ∧ ∀ s, part.live = some s → ∀ n, s.answerAt clock n = .pending

variable {clock n : Nat} {part : Slot Subscription}

/-- A part moves after a poll as it moves one poll later. -/
theorem moves_polled : (part.polled clock).Moves clock n ↔ part.Moves clock (n + 1) := by
  obtain ⟨live, latest⟩ := part
  cases live with
  | none => simp [polled, Moves]
  | some s =>
    simp only [Moves, Nat.forall_lt_succ_left]
    cases h : s.answerAt clock 0 <;> simp [polled, h]

theorem starves_polled : (part.polled clock).Starves clock n ↔ part.Starves clock (n + 1) := by
  obtain ⟨live, latest⟩ := part
  cases live with
  | none => simp [polled, Starves]
  | some s =>
    simp only [Starves, Nat.forall_lt_succ_left]
    cases h : s.answerAt clock 0 <;> simp [polled, h]

theorem Silent.polled (h : part.Silent clock) : (part.polled clock).Silent clock := by
  obtain ⟨live, latest⟩ := part
  obtain ⟨hlatest, hpending⟩ := h
  cases live with
  | none => exact ⟨hlatest, nofun⟩
  | some s =>
    have first : s.answerAt clock 0 = .pending := hpending s rfl 0
    simp only [Slot.polled, first]
    refine ⟨hlatest, ?_⟩
    rintro _ ⟨⟩ n
    exact hpending s rfl (n + 1)

/-- What has been a value once is not lost. -/
theorem latest_polled (h : part.latest ≠ none) : (part.polled clock).latest ≠ none := by
  unfold polled
  split
  · exact h
  · split
    · simp
    · exact h
    · exact h

theorem latest_iterate (h : part.latest ≠ none) (n : Nat) :
    ((polled clock)^[n] part).latest ≠ none := by
  induction n generalizing part with
  | zero => exact h
  | succ n ih => exact ih (latest_polled h)

/-- A part that is neither silent nor starves has a value after some polls. -/
theorem exists_latest (hspeaks : ¬part.Silent clock) (hfed : ∀ n, ¬part.Starves clock n) :
    ∃ n, ((polled clock)^[n] part).latest ≠ none := by
  by_cases hlatest : part.latest = none
  · obtain ⟨s, hlive, n, hready⟩ :
        ∃ s, part.live = some s ∧ ∃ n, s.answerAt clock n ≠ .pending := by
      simpa [Silent, hlatest] using hspeaks
    clear hspeaks
    -- By induction on the number of a poll that is not pending: up to it the part may wait.
    induction n generalizing part s with
    | zero =>
      cases hfirst : s.answerAt clock 0 with
      | value v => exact ⟨1, by simp [polled, hlive, hfirst]⟩
      | ended => exact absurd ⟨hlatest, s, hlive, hfirst, by simp⟩ (hfed 0)
      | pending => exact absurd hfirst hready
    | succ n ih =>
      cases hfirst : s.answerAt clock 0 with
      | value v => exact ⟨1, by simp [polled, hlive, hfirst]⟩
      | ended => exact absurd ⟨hlatest, s, hlive, hfirst, by simp⟩ (hfed 0)
      | pending =>
        have hpolled : part.polled clock = ⟨some (s.next clock), part.latest⟩ := by
          simp [polled, hlive, hfirst]
        have hrest : ∃ k, ((polled clock)^[k] (part.polled clock)).latest ≠ none :=
          ih (fun k => mt starves_polled.1 (hfed (k + 1))) (by rw [hpolled]; exact hlatest)
            (s.next clock) (by rw [hpolled]) hready
        obtain ⟨k, hk⟩ := hrest
        exact ⟨k + 1, hk⟩
  · exact ⟨0, hlatest⟩

end Slot

/-! ## Joins -/

namespace Stream

open Slot

/-- A round of a join over these parts leaves its answer to the next one. -/
structure JoinGoesOn (clock : Nat) (parts : List (Slot Subscription)) : Prop where
  fed : ∀ part ∈ parts, ¬part.Starves clock 0
  incomplete : (∃ part ∈ parts, part.HasValue clock) →
    ∃ part ∈ parts, (part.polled clock).latest = none
  lasting : ∃ part ∈ parts, (part.polled clock).live ≠ none
  busy : ∃ part ∈ parts, part.Moves clock 0

/-- A join over these parts never gets to an answer: a part without a value stays silent, in each
round some part has a value or ends, and none ends before its first value. -/
structure JoinStalls (clock : Nat) (parts : List (Slot Subscription)) : Prop where
  silent : ∃ part ∈ parts, part.Silent clock
  busy : ∀ n, ∃ part ∈ parts, part.Moves clock n
  fed : ∀ part ∈ parts, ∀ n, ¬part.Starves clock n

variable {clock : Nat} {parts : List (Slot Subscription)}

theorem JoinStalls.goesOn (h : JoinStalls clock parts) : JoinGoesOn clock parts where
  fed part hpart := h.fed part hpart 0
  incomplete _ := by
    obtain ⟨part, hpart, hsilent⟩ := h.silent
    exact ⟨part, hpart, hsilent.polled.1⟩
  lasting := by
    obtain ⟨part, hpart, hmoves⟩ := h.busy 1
    obtain ⟨s, hlive, -⟩ := moves_polled.2 hmoves
    exact ⟨part, hpart, by simp [hlive]⟩
  busy := h.busy 0

theorem JoinStalls.polled (h : JoinStalls clock parts) :
    JoinStalls clock (parts.map (Slot.polled clock)) where
  silent := by
    obtain ⟨part, hpart, hsilent⟩ := h.silent
    exact ⟨_, List.mem_map_of_mem hpart, hsilent.polled⟩
  busy n := by
    obtain ⟨part, hpart, hmoves⟩ := h.busy (n + 1)
    exact ⟨_, List.mem_map_of_mem hpart, moves_polled.2 hmoves⟩
  fed := List.forall_mem_map.2 fun part hpart n => mt starves_polled.1 (h.fed part hpart (n + 1))

/-- Rounds over parts come to one that does not go on. -/
abbrev JoinStops (clock : Nat) (parts : List (Slot Subscription)) : Prop :=
  Stops (JoinGoesOn clock) (List.map (Slot.polled clock)) parts

theorem JoinStops.of_quiet {n : Nat} (h : ∀ part ∈ parts, ¬part.Moves clock n) :
    JoinStops clock parts := by
  induction n generalizing parts with
  | zero =>
    refine .now fun hgo => ?_
    obtain ⟨part, hpart, hmoves⟩ := hgo.busy
    exact h part hpart hmoves
  | succ n ih =>
    exact .later (ih (List.forall_mem_map.2 fun part hpart => mt moves_polled.1 (h part hpart)))

theorem JoinStops.of_starving {n : Nat} {part : Slot Subscription} (hpart : part ∈ parts)
    (h : part.Starves clock n) : JoinStops clock parts := by
  induction n generalizing parts part with
  | zero => exact .now fun hgo => hgo.fed part hpart h
  | succ n ih => exact .later (ih (List.mem_map_of_mem hpart) (starves_polled.2 h))

/-- How many parts last. -/
def liveCount (parts : List (Slot Subscription)) : Nat := parts.countP (·.live.isSome)

theorem liveCount_polled_le (clock : Nat) (parts : List (Slot Subscription)) :
    liveCount (parts.map (Slot.polled clock)) ≤ liveCount parts := by
  rw [liveCount, liveCount, List.countP_map]
  refine List.countP_mono_left fun part _ hlive => ?_
  cases h : part.live with
  | none => simp [Slot.polled, h] at hlive
  | some s => rfl

theorem liveCount_polled_lt {part : Slot Subscription} (hpart : part ∈ parts)
    (hlive : part.live.isSome = true) (hended : (part.polled clock).live = none) :
    liveCount (parts.map (Slot.polled clock)) < liveCount parts := by
  obtain ⟨before, behind, rfl⟩ := List.append_of_mem hpart
  have hbefore := liveCount_polled_le clock before
  have hbehind := liveCount_polled_le clock behind
  simp only [liveCount, List.map_append, List.map_cons, List.countP_append, List.countP_cons, hlive,
    hended] at hbefore hbehind ⊢
  simp only [Option.isSome_none, Bool.false_eq_true, if_false, if_true]
  omega

/-- Once every part has a value, a round goes on only if it makes a part end. -/
theorem JoinStops.of_complete (h : ∀ part ∈ parts, part.latest ≠ none) : JoinStops clock parts := by
  induction hcount : liveCount parts using Nat.strongRecOn generalizing parts with
  | _ count ih =>
    by_cases hgo : JoinGoesOn clock parts
    · have hpolled : ∀ part ∈ parts.map (Slot.polled clock), part.latest ≠ none :=
        List.forall_mem_map.2 fun part hpart => latest_polled (h part hpart)
      have hsilent : ∀ part ∈ parts, ¬part.HasValue clock := by
        intro part hpart hvalue
        obtain ⟨other, hother, hnone⟩ := hgo.incomplete ⟨part, hpart, hvalue⟩
        exact latest_polled (h other hother) hnone
      -- A value would be answered, so the part that moves here ends.
      obtain ⟨part, hpart, s, hlive, hready, -⟩ := hgo.busy
      have hended : (part.polled clock).live = none := by
        cases hanswer : s.answerAt clock 0 with
        | value v => exact absurd ⟨s, v, hlive, hanswer⟩ (hsilent part hpart)
        | pending => exact absurd hanswer hready
        | ended => simp [Slot.polled, hlive, hanswer]
      have hless := liveCount_polled_lt hpart (by simp [hlive]) hended
      exact .later (ih _ (hcount ▸ hless) hpolled rfl)
    · exact .now hgo

/-- Parts all of which have a value after some polls. -/
theorem JoinStops.of_filled {n : Nat}
    (h : ∀ part ∈ parts, ((Slot.polled clock)^[n] part).latest ≠ none) : JoinStops clock parts := by
  induction n generalizing parts with
  | zero => exact of_complete h
  | succ n ih => exact .later (ih (List.forall_mem_map.2 h))

theorem exists_filled (h : ∀ part ∈ parts, ∃ n, ((Slot.polled clock)^[n] part).latest ≠ none) :
    ∃ n, ∀ part ∈ parts, ((Slot.polled clock)^[n] part).latest ≠ none := by
  induction parts with
  | nil => exact ⟨0, nofun⟩
  | cons part rest ih =>
    obtain ⟨⟨m, hm⟩, hrest⟩ := List.forall_mem_cons.1 h
    obtain ⟨n, hn⟩ := ih hrest
    refine ⟨n + m, List.forall_mem_cons.2 ⟨?_, fun other hother => ?_⟩⟩
    · rw [Function.iterate_add_apply]
      exact latest_iterate hm n
    · rw [Nat.add_comm, Function.iterate_add_apply]
      exact latest_iterate (hn other hother) m

/-- A join that does not stall comes to an answer. -/
theorem JoinStops.of_not_stalls (h : ¬JoinStalls clock parts) : JoinStops clock parts := by
  by_cases hbusy : ∀ n, ∃ part ∈ parts, part.Moves clock n
  · by_cases hfed : ∀ part ∈ parts, ∀ n, ¬part.Starves clock n
    · have hspeaks : ∀ part ∈ parts, ¬part.Silent clock := fun part hpart hsilent =>
        h ⟨⟨part, hpart, hsilent⟩, hbusy, hfed⟩
      obtain ⟨n, hfilled⟩ := exists_filled fun part hpart =>
        exists_latest (hspeaks part hpart) (hfed part hpart)
      exact of_filled hfilled
    · push Not at hfed
      obtain ⟨part, hpart, n, hstarves⟩ := hfed
      exact of_starving hpart hstarves
  · push Not at hbusy
    obtain ⟨n, hquiet⟩ := hbusy
    exact of_quiet hquiet

/-! ### Passes -/

/-- What a pass over parts finds. -/
structure Passed (clock : Nat) (parts : List (Slot Subscription)) (pass : JoinPass) : Prop where
  starved : pass.starved = true ↔ ∃ part ∈ parts, part.Starves clock 0
  slots : pass.starved = false → pass.slots = (parts.map (Slot.polled clock)).map Slot.opened
  updated : pass.starved = false → (pass.updated = true ↔ ∃ part ∈ parts, part.HasValue clock)
  progressed : pass.starved = false → (pass.progressed = true ↔ ∃ part ∈ parts, part.Moves clock 0)

/-- A pass over one more part, which does not starve. -/
theorem Passed.cons {pass pass' : JoinPass} {part : Slot Subscription} (h : Passed clock parts pass)
    (hfed : ¬part.Starves clock 0) (hstarved : pass'.starved = pass.starved)
    (hslots : pass'.slots = (part.polled clock).opened :: pass.slots)
    (hupdated : pass'.updated = true ↔ part.HasValue clock ∨ pass.updated = true)
    (hprogressed : pass'.progressed = true ↔ part.Moves clock 0 ∨ pass.progressed = true) :
    Passed clock (part :: parts) pass' where
  starved := by simp [hstarved, h.starved, hfed]
  slots hnot := by simp [hslots, h.slots (hstarved ▸ hnot)]
  updated hnot := by simp [hupdated, h.updated (hstarved ▸ hnot)]
  progressed hnot := by simp [hprogressed, h.progressed (hstarved ▸ hnot)]

theorem exists_joinPass (clock : Nat) (parts : List (Slot Subscription)) (j : Journal) :
    ∃ pass, Passed clock parts pass ∧
      ∀ poll, Serves clock poll → joinPass poll (parts.map Slot.opened) j = .ok pass := by
  induction parts generalizing j with
  | nil => exact ⟨_, ⟨by simp, by simp, by simp, by simp⟩, fun _ _ => rfl⟩
  | cons part rest ih =>
    obtain ⟨live, latest⟩ := part
    cases live with
    | none =>
      obtain ⟨pass, hpass, hrun⟩ := ih j
      refine ⟨{ pass with slots := ⟨none, latest⟩ :: pass.slots }, ?_, fun poll hpoll => ?_⟩
      · exact hpass.cons (by simp [Slot.Starves]) rfl rfl (by simp [Slot.HasValue])
          (by simp [Slot.Moves])
      · simp [joinPass, Slot.opened, hrun poll hpoll]
    | some s =>
      obtain ⟨pass, hpass, hrun⟩ := ih (.polled s.number (s.answerAt clock 0) :: j)
      cases hanswer : s.answerAt clock 0 with
      | value v =>
        refine ⟨⟨⟨some (s.next clock).stream, some v⟩ :: pass.slots, pass.journal, true, true,
          pass.starved⟩, ?_, fun poll hpoll => ?_⟩
        · exact hpass.cons (by simp [Slot.Starves, hanswer]) rfl
            (by simp [Slot.polled, Slot.opened, hanswer]) (by simp [Slot.HasValue, hanswer])
            (by simp [Slot.Moves, hanswer])
        · rw [hanswer] at hrun
          simp [joinPass, Slot.opened, hpoll s j, hanswer, hrun poll hpoll]
      | pending =>
        refine ⟨{ pass with slots := ⟨some (s.next clock).stream, latest⟩ :: pass.slots }, ?_,
          fun poll hpoll => ?_⟩
        · exact hpass.cons (by simp [Slot.Starves, hanswer]) rfl
            (by simp [Slot.polled, Slot.opened, hanswer]) (by simp [Slot.HasValue, hanswer])
            (by simp [Slot.Moves, hanswer])
        · rw [hanswer] at hrun
          simp [joinPass, Slot.opened, hpoll s j, hanswer, hrun poll hpoll]
      | ended =>
        cases latest with
        | none =>
          refine ⟨⟨⟨none, none⟩ :: rest.map Slot.opened, .polled s.number .ended :: j, false, true,
            true⟩, ⟨?_, nofun, nofun, nofun⟩, fun poll hpoll => ?_⟩
          · simp [Slot.Starves, hanswer]
          · simp only [joinPass, Slot.opened, List.map_cons, Option.map_some, hpoll s j, hanswer]
            rfl
        | some w =>
          refine ⟨⟨⟨none, some w⟩ :: pass.slots, pass.journal, pass.updated, true, pass.starved⟩,
            ?_, fun poll hpoll => ?_⟩
          · exact hpass.cons (by simp [Slot.Starves]) rfl
              (by simp [Slot.polled, Slot.opened, hanswer]) (by simp [Slot.HasValue, hanswer])
              (by simp [Slot.Moves, hanswer])
          · rw [hanswer] at hrun
            simp [joinPass, Slot.opened, hpoll s j, hanswer, hrun poll hpoll]

/-! ### Rounds of a join -/

theorem latestValues_eq_none {slots : List (Slot Stream)} :
    latestValues slots = none ↔ ∃ slot ∈ slots, slot.latest = none := by
  unfold latestValues
  induction slots with
  | nil => simp
  | cons slot rest ih =>
    cases h : slot.latest with
    | none => simp [List.mapM_cons, h]
    | some v => cases hrest : rest.mapM Slot.latest <;> simpa [List.mapM_cons, h, hrest] using ih

theorem joinPass_outOfFuel {poll : Poller} (h : ∀ s j, poll s j = .error .outOfFuel)
    (hlive : ∃ part ∈ parts, part.live ≠ none) (j : Journal) :
    joinPass poll (parts.map Slot.opened) j = .error .outOfFuel := by
  induction parts with
  | nil => simp at hlive
  | cons part rest ih =>
    obtain ⟨live, latest⟩ := part
    cases live with
    | none => simp [joinPass, Slot.opened, ih (by simpa using hlive)]
    | some s => simp [joinPass, Slot.opened, h]

/-- A round goes on if its pass has not starved and has progressed, but has not found a value of
every part, and a part is left that lasts. -/
theorem Passed.goesOn_iff {pass : JoinPass} (h : Passed clock parts pass) :
    JoinGoesOn clock parts ↔ pass.starved = false ∧
      (if pass.updated then latestValues pass.slots else none) = none ∧
      pass.slots.all (·.live.isNone) = false ∧ pass.progressed = true := by
  cases hstarved : pass.starved with
  | true =>
    obtain ⟨part, hpart, hstarves⟩ := h.starved.1 hstarved
    exact ⟨fun hgo => absurd hstarves (hgo.fed part hpart), nofun⟩
  | false =>
    have hfed : ∀ part ∈ parts, ¬part.Starves clock 0 := by
      simpa [hstarved] using mt h.starved.2
    have hslots := h.slots hstarved
    have hlatest : (if pass.updated then latestValues pass.slots else none) = none ↔
        ((∃ part ∈ parts, part.HasValue clock) →
          ∃ part ∈ parts, (part.polled clock).latest = none) := by
      rw [← h.updated hstarved, hslots]
      cases pass.updated <;> simp [latestValues_eq_none, Slot.opened]
    have hlasting : pass.slots.all (·.live.isNone) = false ↔
        ∃ part ∈ parts, (part.polled clock).live ≠ none := by
      simp [hslots, Slot.opened]
    rw [hlatest, hlasting, h.progressed hstarved]
    exact ⟨fun hgo => ⟨rfl, hgo.incomplete, hgo.lasting, hgo.busy⟩,
      fun ⟨_, hincomplete, hlasting, hbusy⟩ => ⟨hfed, hincomplete, hlasting, hbusy⟩⟩

theorem loop_join (clock : Nat) (combine : List Value → Eval Value) :
    Loop clock (JoinGoesOn clock) (List.map (Slot.polled clock)) fun poll rounds parts j =>
      joinRounds poll combine rounds (parts.map Slot.opened) j where
  again parts j hgo := by
    obtain ⟨pass, hpass, hrun⟩ := exists_joinPass clock parts j
    obtain ⟨hstarved, hlatest, hlasting, hprogressed⟩ := hpass.goesOn_iff.1 hgo
    refine ⟨pass.journal, fun poll hpoll rounds => ?_⟩
    simp only [joinRounds, hrun poll hpoll, ok_bind, hstarved, hlatest, hlasting, hprogressed,
      ← hpass.slots hstarved]
    rfl
  finish parts j hgo := by
    obtain ⟨pass, hpass, hrun⟩ := exists_joinPass clock parts j
    rw [hpass.goesOn_iff] at hgo
    by_cases hstarved : pass.starved = true
    · refine ⟨.ok ⟨.ended, .join [] combine, pass.journal⟩, fun poll hpoll rounds => ?_⟩
      simp only [joinRounds, hrun poll hpoll, ok_bind, hstarved]
      rfl
    cases hlatest : (if pass.updated then latestValues pass.slots else none) with
    | some vs =>
      refine ⟨combine vs >>= fun v => .ok ⟨.value v, .join pass.slots combine, pass.journal⟩,
        fun poll hpoll rounds => ?_⟩
      simp only [joinRounds, hrun poll hpoll, ok_bind, hstarved, hlatest]
      cases combine vs <;> rfl
    | none =>
      by_cases hended : pass.slots.all (·.live.isNone) = true
      · refine ⟨.ok ⟨.ended, .join pass.slots combine, pass.journal⟩, fun poll hpoll rounds => ?_⟩
        simp only [joinRounds, hrun poll hpoll, ok_bind, hstarved, hlatest, hended]
        rfl
      · have hquiet : pass.progressed = false := by simp_all
        refine ⟨.ok ⟨.pending, .join pass.slots combine, pass.journal⟩, fun poll hpoll rounds => ?_⟩
        simp only [joinRounds, hrun poll hpoll, ok_bind, hstarved, hlatest, hended, hquiet]
        rfl
  noRound _ _ _ := rfl
  noPoll poll hpoll rounds parts j hgo := by
    obtain ⟨part, hpart, s, hlive, -⟩ := hgo.busy
    simp [joinRounds, joinPass_outOfFuel hpoll ⟨part, hpart, by simp [hlive]⟩ j]

/-! ## Switches -/

section

variable (clock : Nat) (next : Value → Eval Subscription)

/-- The inner streams of a switch whose function makes subscriptions. -/
def inners (v : Value) : Eval Stream := (next v).map Subscription.stream

/-- The poll of an outer stream with this number has a value, and the inner stream that is made of
it has none at its first poll. -/
def PassesOver (s : Subscription) (n : Nat) : Prop :=
  ∃ v i, s.answerAt clock n = .value v ∧ next v = .ok i ∧ ∀ w, i.answerAt clock 0 ≠ .value w

/-- A round of a switch over this outer stream leaves its answer to the next one. -/
def SwitchGoesOn (outer : Option Subscription) : Prop :=
  ∃ s, outer = some s ∧ PassesOver clock next s 0

/-- A switch over this outer stream never gets to an answer: the outer stream always has a value,
and no inner stream has one at once. -/
def SwitchStalls (outer : Option Subscription) : Prop :=
  ∃ s, outer = some s ∧ ∀ n, PassesOver clock next s n

end

variable {next : Value → Eval Subscription} {outer inner : Option Subscription}

theorem SwitchStalls.goesOn (h : SwitchStalls clock next outer) :
    SwitchGoesOn clock next outer := by
  obtain ⟨s, hs, hpasses⟩ := h
  exact ⟨s, hs, hpasses 0⟩

theorem SwitchStalls.polled (h : SwitchStalls clock next outer) :
    SwitchStalls clock next (outer.map (·.next clock)) := by
  obtain ⟨s, rfl, hpasses⟩ := h
  exact ⟨s.next clock, rfl, fun n => hpasses (n + 1)⟩

/-- Rounds over an outer stream come to one that does not go on. -/
abbrev SwitchStops (clock : Nat) (next : Value → Eval Subscription)
    (outer : Option Subscription) : Prop :=
  Stops (SwitchGoesOn clock next) (Option.map (·.next clock)) outer

/-- A switch that does not stall comes to an answer. -/
theorem SwitchStops.of_not_stalls (h : ¬SwitchStalls clock next outer) :
    SwitchStops clock next outer := by
  cases outer with
  | none => exact .now fun ⟨_, hs, _⟩ => nomatch hs
  | some s =>
    obtain ⟨n, hn⟩ : ∃ n, ¬PassesOver clock next s n := by simpa [SwitchStalls] using h
    clear h
    induction n generalizing s with
    | zero =>
      refine .now ?_
      rintro ⟨_, ⟨⟩, hpasses⟩
      exact hn hpasses
    | succ n ih => exact .later (ih (s.next clock) hn)

/-- A round in which the outer stream had no value has an answer. -/
theorem switchRounds_unswitched (clock : Nat) (next : Value → Eval Stream) (outer : Option Stream)
    (inner : Option Subscription) (j : Journal) : ∃ p, ∀ poll, Serves clock poll →
      ∀ before j₀ rounds, switchOuter poll next before (inner.map Subscription.stream) j₀ =
        .ok ⟨outer, inner.map Subscription.stream, j, false⟩ →
      switchRounds poll next (rounds + 1) before (inner.map Subscription.stream) j₀ = .ok p := by
  cases inner with
  | none =>
    refine ⟨⟨if outer.isNone then .ended else .pending, .switch outer none next, j⟩,
      fun poll hpoll before j₀ rounds hpass => ?_⟩
    simp only [switchRounds, hpass, ok_bind]
    cases outer <;> rfl
  | some i =>
    cases hanswer : i.answerAt clock 0 with
    | value w =>
      refine ⟨⟨.value w, .switch outer (some (i.next clock).stream) next,
        .polled i.number (.value w) :: j⟩, fun poll hpoll before j₀ rounds hpass => ?_⟩
      simp only [switchRounds, hpass, ok_bind]
      simp only [Option.map_some, hpoll i j, ok_bind, hanswer]
      rfl
    | pending =>
      refine ⟨⟨.pending, .switch outer (some (i.next clock).stream) next,
        .polled i.number .pending :: j⟩, fun poll hpoll before j₀ rounds hpass => ?_⟩
      simp only [switchRounds, hpass, ok_bind]
      simp only [Option.map_some, hpoll i j, ok_bind, hanswer]
      rfl
    | ended =>
      refine ⟨⟨if outer.isNone then .ended else .pending, .switch outer none next,
        .polled i.number .ended :: j⟩, fun poll hpoll before j₀ rounds hpass => ?_⟩
      simp only [switchRounds, hpass, ok_bind]
      simp only [Option.map_some, hpoll i j, ok_bind, hanswer]
      cases outer <;> rfl

/-- A value of the outer stream from which an inner stream is made. -/
theorem switchOuter_value {poll : Poller} (hpoll : Serves clock poll) {s i : Subscription}
    {v : Value} (hvalue : s.answerAt clock 0 = .value v) (hnext : next v = .ok i)
    (inner : Option Stream) (j : Journal) :
    switchOuter poll (inners next) (some s.stream) inner j =
      .ok ⟨some (s.next clock).stream, some i.stream, .polled s.number (.value v) :: j, true⟩ := by
  simp only [switchOuter, hpoll s j, ok_bind, hvalue, inners, hnext]
  rfl

theorem loop_switch (clock : Nat) (next : Value → Eval Subscription) :
    Loop clock (SwitchGoesOn clock next) (Option.map (·.next clock))
      fun poll rounds outer (c : Option Subscription × Journal) =>
        switchRounds poll (inners next) rounds (outer.map Subscription.stream)
          (c.1.map Subscription.stream) c.2 where
  again outer c hgo := by
    obtain ⟨inner, j⟩ := c
    obtain ⟨s, rfl, v, i, hvalue, hnext, hnone⟩ := hgo
    cases hanswer : i.answerAt clock 0 with
    | value w => exact absurd hanswer (hnone w)
    | pending =>
      refine ⟨⟨some (i.next clock), .polled i.number .pending :: .polled s.number (.value v) :: j⟩,
        fun poll hpoll rounds => ?_⟩
      simp only [switchRounds, Option.map_some, switchOuter_value hpoll hvalue hnext, ok_bind,
        hpoll i _, hanswer]
      rfl
    | ended =>
      refine ⟨⟨none, .polled i.number .ended :: .polled s.number (.value v) :: j⟩,
        fun poll hpoll rounds => ?_⟩
      simp only [switchRounds, Option.map_some, switchOuter_value hpoll hvalue hnext, ok_bind,
        hpoll i _, hanswer]
      rfl
  finish outer c hgo := by
    obtain ⟨inner, j⟩ := c
    have unswitched (left : Option Stream) (j' : Journal)
        (hpass : ∀ poll, Serves clock poll →
          switchOuter poll (inners next) (outer.map Subscription.stream)
            (inner.map Subscription.stream) j =
          .ok ⟨left, inner.map Subscription.stream, j', false⟩) :
        ∃ r, ∀ poll, Serves clock poll → ∀ rounds,
          switchRounds poll (inners next) (rounds + 1) (outer.map Subscription.stream)
            (inner.map Subscription.stream) j = Halt.lift r := by
      obtain ⟨p, hp⟩ := switchRounds_unswitched clock (inners next) left inner j'
      exact ⟨.ok p, fun poll hpoll rounds => hp poll hpoll _ j rounds (hpass poll hpoll)⟩
    cases outer with
    | none => exact unswitched none j fun _ _ => rfl
    | some s =>
      cases hvalue : s.answerAt clock 0 with
      | pending =>
        refine unswitched (some (s.next clock).stream) (.polled s.number .pending :: j)
          fun poll hpoll => ?_
        simp only [switchOuter, Option.map_some, hpoll s j, ok_bind, hvalue]
        rfl
      | ended =>
        refine unswitched none (.polled s.number .ended :: j) fun poll hpoll => ?_
        simp only [switchOuter, Option.map_some, hpoll s j, ok_bind, hvalue]
        rfl
      | value v =>
        cases hnext : next v with
        | error f =>
          refine ⟨.error f, fun poll hpoll rounds => ?_⟩
          simp only [switchRounds, switchOuter, Option.map_some, hpoll s j, ok_bind, hvalue, inners,
            hnext]
          rfl
        | ok i =>
          obtain ⟨w, hw⟩ : ∃ w, i.answerAt clock 0 = .value w := by
            by_contra hnone
            exact hgo ⟨s, rfl, v, i, hvalue, hnext, fun w hw => hnone ⟨w, hw⟩⟩
          refine ⟨.ok ⟨.value w, .switch (some (s.next clock).stream) (some (i.next clock).stream)
            (inners next), .polled i.number (.value w) :: .polled s.number (.value v) :: j⟩,
            fun poll hpoll rounds => ?_⟩
          simp only [switchRounds, Option.map_some, switchOuter_value hpoll hvalue hnext, ok_bind,
            hpoll i _, hw]
          rfl
  noRound _ _ _ := rfl
  noPoll poll hpoll rounds outer c hgo := by
    obtain ⟨s, rfl, -⟩ := hgo
    simp [switchRounds, switchOuter, hpoll]

/-! ## Polls -/

/-- A poll comes to its end, an answer or an abort of the combinator's own function, unless it
stalls; then it uses up every limit. -/
structure ReturnsUnless (stalls : Prop) (clock : Nat) (s : Stream) (j : Journal) : Prop where
  returns : ¬stalls → ∃ r, Answers clock s j r
  endless : stalls → ∀ fuel, s.poll clock fuel j = .error .outOfFuel

theorem ReturnsUnless.not_answers {stalls : Prop} {s : Stream} {j : Journal}
    (h : ReturnsUnless stalls clock s j) (hstalls : stalls) : ¬∃ r, Answers clock s j r := by
  rintro ⟨r, enough, hr⟩
  have hsettled : Halt.lift r = .error .outOfFuel :=
    (hr enough (Nat.le_refl _)).symm.trans (h.endless hstalls enough)
  cases r <;> cases hsettled

theorem join_returnsUnless (clock : Nat) (parts : List (Slot Subscription))
    (combine : List Value → Eval Value) (j : Journal) :
    ReturnsUnless (JoinStalls clock parts) clock (.join (parts.map Slot.opened) combine) j where
  returns h := (loop_join clock combine).answers (JoinStops.of_not_stalls h) fun _ => rfl
  endless h := (loop_join clock combine).endless JoinStalls.goesOn JoinStalls.polled h fun _ => rfl

theorem switch_returnsUnless (clock : Nat) (outer inner : Option Subscription)
    (next : Value → Eval Subscription) (j : Journal) :
    ReturnsUnless (SwitchStalls clock next outer) clock (.switch (outer.map Subscription.stream)
      (inner.map Subscription.stream) (inners next)) j where
  returns h :=
    (loop_switch clock next).answers (c := (inner, j)) (SwitchStops.of_not_stalls h) fun _ => rfl
  endless h := (loop_switch clock next).endless (c := (inner, j)) SwitchStalls.goesOn
    SwitchStalls.polled h fun _ => rfl

/-- Over sources, whatever they have answered before, a poll of a join and a poll of a switch come
to their end after finitely many rounds unless the join or the switch stalls, and then they never
do. -/
theorem polls_return_unless_stalling (clock : Nat) (parts : List (Slot Subscription))
    (combine : List Value → Eval Value) (outer inner : Option Subscription)
    (next : Value → Eval Subscription) (j : Journal) :
    ReturnsUnless (JoinStalls clock parts) clock (.join (parts.map Slot.opened) combine) j ∧
    ReturnsUnless (SwitchStalls clock next outer) clock (.switch (outer.map Subscription.stream)
      (inner.map Subscription.stream) (inners next)) j :=
  ⟨join_returnsUnless clock parts combine j, switch_returnsUnless clock outer inner next j⟩

end Stream

/-! ## A source that is always ready beside one that never is -/

namespace Source

/-- The source that counts its polls. -/
def ticks : Source := ⟨fun _ cursor => (.value (.ofNat cursor), cursor + 1)⟩

/-- The source that waits for ever. -/
def never : Source := .ofScript [.never]

end Source

open Source

namespace Subscription

theorem answerAt_ticks (clock k cursor n : Nat) :
    (⟨k, ticks, cursor⟩ : Subscription).answerAt clock n = .value (.ofNat (cursor + n)) := by
  induction n generalizing cursor with
  | zero => rfl
  | succ n ih => exact (ih (cursor + 1)).trans (by rw [Nat.add_right_comm, Nat.add_assoc])

theorem answerAt_never (clock k n : Nat) :
    (⟨k, never, 0⟩ : Subscription).answerAt clock n = .pending := by
  induction n with
  | zero => rfl
  | succ n ih => exact ih

end Subscription

namespace Stream

open Subscription

/-- The first poll of the join of both, and of the switch from the first to the second, has no
end. -/
theorem ticks_beside_never :
    (¬∃ r, Answers 0 (.join [⟨some (.opened 0 ticks 0), none⟩, ⟨some (.opened 1 never 0), none⟩]
      fun vs => .ok (.array vs)) [] r) ∧
    ¬∃ r, Answers 0 (.switchOver (.opened 0 ticks 0) fun _ => .ok (.opened 1 never 0)) [] r := by
  have hjoin : JoinStalls 0 [⟨some ⟨0, ticks, 0⟩, none⟩, ⟨some ⟨1, never, 0⟩, none⟩] :=
    { silent := ⟨_, .tail _ (.head _), rfl, by rintro _ ⟨⟩; exact answerAt_never 0 1⟩
      busy := fun n => ⟨_, .head _, _, rfl, by simp [answerAt_ticks], by simp [answerAt_ticks]⟩
      fed := by simp [Slot.Starves, answerAt_ticks, answerAt_never] }
  have hswitch : SwitchStalls 0 (fun _ => .ok ⟨1, never, 0⟩) (some ⟨0, ticks, 0⟩) :=
    ⟨_, rfl, fun n => ⟨_, _, answerAt_ticks 0 0 0 n, rfl, by simp [answerAt_never]⟩⟩
  exact ⟨(join_returnsUnless 0 _ _ []).not_answers hjoin,
    (switch_returnsUnless 0 _ none _ []).not_answers hswitch⟩

end Stream

end PolicyExpr
