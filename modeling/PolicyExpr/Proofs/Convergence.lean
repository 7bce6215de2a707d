import PolicyExpr.Proofs.Combination

/-!
# Streams that come to a last value

A stream converges to a value if, at whatever times it is polled, it ends after finitely many
values, at least one, the last of which is that value. It may be pending any number of times, but
unless it changes meanwhile, only up to a deadline. And it may abort, when a text has to be
written that cannot be.

The definition is an induction over what the stream can answer, for all clocks and journals at
once: nothing is assumed about the order in which sources have their values.
-/
namespace PolicyExpr

/-! ## Enough fuel -/

/-- With enough fuel a run has this result, and more fuel makes no difference. -/
def Settles {α : Type} (run : (fuel : Nat) → Except Halt α) (r : Eval α) : Prop :=
  ∃ enough, ∀ fuel ≥ enough, run fuel = Halt.lift r

theorem Halt.lift_injective {α : Type} {a b : Eval α} (h : Halt.lift a = Halt.lift b) : a = b := by
  cases a <;> cases b <;> cases h <;> rfl

namespace Settles

variable {α β : Type} {run : Nat → Except Halt α}

theorem unique {a b : Eval α} (ha : Settles run a) (hb : Settles run b) : a = b := by
  obtain ⟨m, hm⟩ := ha
  obtain ⟨n, hn⟩ := hb
  exact Halt.lift_injective ((hm (max m n) (by omega)).symm.trans (hn (max m n) (by omega)))

theorem lift (r : Eval α) : Settles (fun _ => Halt.lift r) r := ⟨0, fun _ _ => rfl⟩

/-- A run may need one unit of fuel before it goes on. -/
theorem succ {run' : Nat → Except Halt α} {r : Eval α} (h : Settles run' r)
    (hrun : ∀ fuel, run (fuel + 1) = run' fuel) : Settles run r := by
  obtain ⟨n, hn⟩ := h
  refine ⟨n + 1, fun fuel hfuel => ?_⟩
  obtain ⟨k, rfl⟩ : ∃ k, fuel = k + 1 := ⟨fuel - 1, by omega⟩
  rw [hrun, hn k (by omega)]

theorem error_bind {f : Fault} {next : α → Nat → Except Halt β} (h : Settles run (.error f)) :
    Settles (fun fuel => run fuel >>= fun a => next a fuel) (.error f) := by
  obtain ⟨n, hn⟩ := h
  exact ⟨n, fun fuel hfuel => by simp [hn fuel hfuel, Halt.lift]⟩

theorem ok_bind {a : α} {next : α → Nat → Except Halt β} {r : Eval β} (h : Settles run (.ok a))
    (hnext : Settles (next a) r) : Settles (fun fuel => run fuel >>= fun a => next a fuel) r := by
  obtain ⟨m, hm⟩ := h
  obtain ⟨n, hn⟩ := hnext
  refine ⟨max m n, fun fuel hfuel => ?_⟩
  simp [hm fuel (by omega), hn fuel (by omega), Halt.lift]

/-- One run after another. -/
theorem bind {r : Eval α} {next : α → Nat → Except Halt β} {k : α → Eval β}
    (h : Settles run r) (hnext : ∀ a, r = .ok a → Settles (next a) (k a)) :
    Settles (fun fuel => run fuel >>= fun a => next a fuel) (r >>= k) := by
  cases r with
  | error f => exact h.error_bind
  | ok a => exact h.ok_bind (hnext a rfl)

end Settles

/-- With enough fuel and enough rounds a poll has this result. -/
def RoundsSettle (run : (fuel rounds : Nat) → Except Halt Polled) (r : Eval Polled) : Prop :=
  ∃ enough, ∀ fuel ≥ enough, ∀ rounds ≥ enough, run fuel rounds = Halt.lift r

namespace RoundsSettle

variable {run : Nat → Nat → Except Halt Polled} {r : Eval Polled}

theorem lift (r : Eval Polled) : RoundsSettle (fun _ _ => Halt.lift r) r :=
  ⟨0, fun _ _ _ _ => rfl⟩

theorem diagonal (h : RoundsSettle run r) : Settles (fun fuel => run fuel (fuel + 1)) r := by
  obtain ⟨n, hn⟩ := h
  exact ⟨n, fun fuel hfuel => hn fuel hfuel (fuel + 1) (by omega)⟩

/-- A run may need one round before it goes on. -/
theorem succ {run' : Nat → Nat → Except Halt Polled} (h : RoundsSettle run' r)
    (hrun : ∀ fuel rounds, run fuel (rounds + 1) = run' fuel rounds) : RoundsSettle run r := by
  obtain ⟨n, hn⟩ := h
  refine ⟨n + 1, fun fuel hfuel rounds hrounds => ?_⟩
  obtain ⟨k, rfl⟩ : ∃ k, rounds = k + 1 := ⟨rounds - 1, by omega⟩
  rw [hrun, hn fuel (by omega) k (by omega)]

end RoundsSettle

namespace Settles

variable {α : Type} {run : Nat → Except Halt α} {next : α → Nat → Nat → Except Halt Polled}

theorem rounds_error_bind {f : Fault} (h : Settles run (.error f)) :
    RoundsSettle (fun fuel rounds => run fuel >>= fun a => next a fuel rounds) (.error f) := by
  obtain ⟨n, hn⟩ := h
  exact ⟨n, fun fuel hfuel _ _ => by simp [hn fuel hfuel, Halt.lift]⟩

theorem rounds_ok_bind {a : α} {r : Eval Polled} (h : Settles run (.ok a))
    (hnext : RoundsSettle (next a) r) :
    RoundsSettle (fun fuel rounds => run fuel >>= fun a => next a fuel rounds) r := by
  obtain ⟨m, hm⟩ := h
  obtain ⟨n, hn⟩ := hnext
  refine ⟨max m n, fun fuel hfuel rounds hrounds => ?_⟩
  simp [hm fuel (by omega), hn fuel (by omega) rounds (by omega), Halt.lift]

end Settles

/-! ## Sources -/

/-- A source delivers, from a cursor on: it gives finitely many values, the last of which is
`last`, and ends. Before each of them it may be pending, finitely often while it moves its
cursor, and up to a deadline where it does not. -/
inductive Source.Delivers (source : Source) (last : Value) : Option Value → Nat → Prop
  | intro {emitted cursor} (deadline : Nat)
    (value : ∀ {clock v next}, source.poll clock cursor = (.value v, next) →
      Delivers source last (some v) next)
    (ended : ∀ {clock next}, source.poll clock cursor = (.ended, next) → emitted = some last)
    (pending : ∀ {clock next}, source.poll clock cursor = (.pending, next) →
      ¬(next = cursor ∧ clock < deadline) → Delivers source last emitted next) :
    Delivers source last emitted cursor

namespace Stream

/-! ## Converging streams -/

/-- What a poll of a stream at a time gives, with enough fuel. -/
def Answers (clock : Nat) (s : Stream) (j : Journal) (r : Eval Polled) : Prop :=
  Settles (fun fuel => s.poll clock fuel j) r

/-- A stream that has emitted a value last converges to a target. -/
inductive Converges (target : Eval Value) : Option Value → Stream → Prop
  | intro {emitted s} (deadline : Nat)
    (polls : ∀ clock j, ∃ r, Answers clock s j r)
    (value : ∀ {clock j p v}, Answers clock s j (.ok p) → p.answer = .value v →
      Converges target (some v) p.stream)
    (ended : ∀ {clock j p}, Answers clock s j (.ok p) → p.answer = .ended →
      ∃ v, emitted = some v ∧ target = .ok v)
    (pending : ∀ {clock j p}, Answers clock s j (.ok p) → p.answer = .pending →
      ¬(p.stream = s ∧ clock < deadline) → Converges target emitted p.stream) :
    Converges target emitted s

/-- One answer of a stream that converges. -/
structure Proceeds (target : Eval Value) (deadline clock : Nat) (emitted : Option Value)
    (s : Stream) (p : Polled) : Prop where
  value : ∀ {v}, p.answer = .value v → Converges target (some v) p.stream
  ended : p.answer = .ended → ∃ v, emitted = some v ∧ target = .ok v
  pending : p.answer = .pending →
    p.stream = s ∧ clock < deadline ∨ Converges target emitted p.stream

/-- A stream that has been polled without ending: it had a value, or it changed. -/
def Follows (s' s : Stream) : Prop :=
  ∃ clock j p, Answers clock s j (.ok p) ∧ p.stream = s' ∧ p.answer ≠ .ended ∧
    (p.answer = .pending → s' ≠ s)

namespace Converges

variable {target : Eval Value} {emitted : Option Value} {s : Stream}

/-- It is enough to say what the answer to each poll is. -/
theorem of_answers (deadline : Nat)
    (h : ∀ clock j, ∃ r, Answers clock s j r ∧
      ∀ p, r = .ok p → Proceeds target deadline clock emitted s p) :
    Converges target emitted s := by
  have proceeds {clock j p} (hp : Answers clock s j (.ok p)) :
      Proceeds target deadline clock emitted s p := by
    obtain ⟨r, hr, hproceeds⟩ := h clock j
    exact hproceeds p (hr.unique hp)
  refine .intro deadline (fun clock j => ?_) (fun hp ha => (proceeds hp).value ha)
    (fun hp ha => (proceeds hp).ended ha) fun hp ha hmoved =>
      ((proceeds hp).pending ha).resolve_left hmoved
  obtain ⟨r, hr, -⟩ := h clock j
  exact ⟨r, hr⟩

theorem polls (h : Converges target emitted s) (clock : Nat) (j : Journal) :
    ∃ r, Answers clock s j r := by
  cases h with | intro _ polls => exact polls clock j

theorem value (h : Converges target emitted s) {clock : Nat} {j : Journal} {p : Polled} {v : Value}
    (hp : Answers clock s j (.ok p)) (ha : p.answer = .value v) :
    Converges target (some v) p.stream := by
  cases h with | intro _ _ value => exact value hp ha

theorem ended (h : Converges target emitted s) {clock : Nat} {j : Journal} {p : Polled}
    (hp : Answers clock s j (.ok p)) (ha : p.answer = .ended) :
    ∃ v, emitted = some v ∧ target = .ok v := by
  cases h with | intro _ _ _ ended => exact ended hp ha

theorem pending (h : Converges target emitted s) {clock : Nat} {j : Journal} {p : Polled}
    (hp : Answers clock s j (.ok p)) (ha : p.answer = .pending) :
    Converges target emitted p.stream := by
  by_cases heq : p.stream = s
  · exact heq ▸ h
  · cases h with | intro _ _ _ _ pending => exact pending hp ha fun hsame => heq hsame.1

/-- A stream that converges does not stay as it is for ever. -/
theorem waits (h : Converges target emitted s) : ∃ deadline, ∀ {clock j p},
    Answers clock s j (.ok p) → p.answer = .pending → p.stream = s → clock < deadline := by
  induction h with
  | @intro emitted s deadline _ _ _ _ _ ih =>
    by_cases hlate : ∃ clock j p, Answers clock s j (.ok p) ∧ p.answer = .pending ∧
      p.stream = s ∧ deadline ≤ clock
    · obtain ⟨clock, j, p, hp, ha, hs, hclock⟩ := hlate
      have := ih hp ha (by omega)
      rwa [hs] at this
    · exact ⟨deadline, fun {clock j p} hp ha hs =>
        Nat.lt_of_not_le fun hclock => hlate ⟨clock, j, p, hp, ha, hs, hclock⟩⟩

/-- There is no endless run of values and changes. -/
theorem acc (h : Converges target emitted s) : Acc Follows s := by
  induction h with
  | intro _ _ _ _ _ value pending =>
    refine .intro _ fun s' ⟨clock, j, p, hp, hs, hne, hpending⟩ => ?_
    subst hs
    cases ha : p.answer with
    | value v => exact value hp ha
    | pending => exact pending hp ha fun hsame => hpending ha hsame.1
    | ended => exact absurd ha hne

/-- Before its first value a stream cannot end, whatever is taken for its last one. -/
theorem weaken (h : Converges target none s) (emitted : Option Value) :
    Converges target emitted s := by
  generalize hnone : (none : Option Value) = before at h
  induction h with
  | intro deadline polls value ended _ _ pending =>
    subst hnone
    refine .intro deadline polls value (fun hp ha => ?_) fun hp ha hmoved => ?_
    · obtain ⟨v, hv, -⟩ := ended hp ha
      cases hv
    · exact pending hp ha hmoved rfl

end Converges

/-! ## Streams that are polled in rounds -/

/-- A stream that is polled in rounds converges, and the rounds of every poll come to an end. -/
structure RoundsConverge (target : Eval Value) (emitted : Option Value) (s : Stream)
    (run : (clock : Nat) → Journal → (fuel rounds : Nat) → Except Halt Polled) : Prop where
  converges : Converges target emitted s
  settles : ∀ clock j, ∃ r, RoundsSettle (run clock j) r
  answers : ∀ {clock j r}, RoundsSettle (run clock j) r → Answers clock s j r

namespace RoundsConverge

variable {target : Eval Value} {emitted : Option Value} {s : Stream}
  {run : (clock : Nat) → Journal → (fuel rounds : Nat) → Except Halt Polled}

theorem of_rounds (deadline : Nat)
    (answers : ∀ {clock j r}, RoundsSettle (run clock j) r → Answers clock s j r)
    (h : ∀ clock j, ∃ r, RoundsSettle (run clock j) r ∧
      ∀ p, r = .ok p → Proceeds target deadline clock emitted s p) :
    RoundsConverge target emitted s run where
  converges := .of_answers deadline fun clock j => by
    obtain ⟨r, hr, hproceeds⟩ := h clock j
    exact ⟨r, answers hr, hproceeds⟩
  settles clock j := by
    obtain ⟨r, hr, -⟩ := h clock j
    exact ⟨r, hr⟩
  answers := answers

/-- A round may leave its answer to the rounds of what the stream has become. -/
theorem proceeds (h : RoundsConverge target emitted s run) (clock : Nat) (j : Journal) :
    ∃ r, RoundsSettle (run clock j) r ∧
      ∀ p, r = .ok p → ∀ deadline before, Proceeds target deadline clock emitted before p := by
  obtain ⟨r, hr⟩ := h.settles clock j
  refine ⟨r, hr, fun p hp _ _ => ?_⟩
  cases hp
  have answers := h.answers hr
  exact ⟨h.converges.value answers, h.converges.ended answers,
    fun ha => .inr (h.converges.pending answers ha)⟩

end RoundsConverge

/-! ## Streams without parts -/

theorem answers_values_nil (clock : Nat) (j : Journal) :
    Answers clock (.values []) j (.ok ⟨.ended, .values [], j⟩) :=
  (Settles.lift (.ok _)).succ fun _ => rfl

theorem answers_values_cons (clock : Nat) (v : Value) (rest : List Value) (j : Journal) :
    Answers clock (.values (v :: rest)) j (.ok ⟨.value v, .values rest, j⟩) :=
  (Settles.lift (.ok _)).succ fun _ => rfl

theorem answers_opened (clock n : Nat) (source : Source) (cursor : Nat) (j : Journal) :
    Answers clock (.opened n source cursor) j (.ok (pollSource clock n source cursor j)) :=
  (Settles.lift (.ok _)).succ fun _ => rfl

theorem answers_unopened (clock : Nat) (broker : AttributeBroker) (i : AttributeInvocation)
    (j : Journal) :
    Answers clock (.unopened broker i) j (.ok (pollSource clock j.subscriptionCount
      (broker j.subscriptionCount i) 0 (.subscribed i :: j))) :=
  (Settles.lift (.ok _)).succ fun _ => rfl

/-- A single value. -/
theorem converges_once (v : Value) : Converges (.ok v) none (.once v) := by
  have nothing : Converges (.ok v) (some v) (.values []) :=
    .of_answers 0 fun clock j => ⟨_, answers_values_nil clock j, fun p hp => by
      cases hp
      exact ⟨nofun, fun _ => ⟨v, rfl, rfl⟩, nofun⟩⟩
  refine .of_answers 0 fun clock j => ⟨_, answers_values_cons clock v [] j, fun p hp => ?_⟩
  cases hp
  refine ⟨fun hv => ?_, nofun, nofun⟩
  cases hv
  exact nothing

/-- One poll of a source that delivers. -/
private theorem proceeds_source {source : Source} {last : Value} {emitted : Option Value}
    {cursor deadline clock : Nat} {j : Journal} {n : Nat} {s : Stream}
    (value : ∀ {v next}, source.poll clock cursor = (.value v, next) →
      Converges (.ok last) (some v) (.opened n source next))
    (ended : ∀ {next}, source.poll clock cursor = (.ended, next) → emitted = some last)
    (pending : ∀ {next}, source.poll clock cursor = (.pending, next) →
      .opened n source next = s ∧ clock < deadline ∨
        Converges (.ok last) emitted (.opened n source next)) :
    Proceeds (.ok last) deadline clock emitted s (pollSource clock n source cursor j) := by
  unfold pollSource
  generalize source.poll clock cursor = polled at value ended pending
  obtain ⟨answer, next⟩ := polled
  refine ⟨fun ha => ?_, fun ha => ?_, fun ha => ?_⟩
  · cases ha
    exact value rfl
  · cases ha
    exact ⟨last, ended rfl, rfl⟩
  · cases ha
    exact pending rfl

/-- A source that delivers, under a subscription. -/
theorem converges_opened {source : Source} {last : Value} {emitted : Option Value} {cursor : Nat}
    (h : source.Delivers last emitted cursor) (n : Nat) :
    Converges (.ok last) emitted (.opened n source cursor) := by
  induction h with
  | @intro emitted cursor deadline _ ended _ value pending =>
    refine .of_answers deadline fun clock j => ⟨_, answers_opened clock n source cursor j, ?_⟩
    rintro p hp
    cases hp
    refine proceeds_source value ended fun {next} hpoll => ?_
    by_cases hsame : next = cursor ∧ clock < deadline
    · exact .inl ⟨by rw [hsame.1], hsame.2⟩
    · exact .inr (pending hpoll hsame)

/-- A source that nobody has subscribed to, if it delivers under every subscription. -/
theorem converges_unopened {broker : AttributeBroker} {i : AttributeInvocation} {last : Value}
    (h : ∀ n, (broker n i).Delivers last none 0) :
    Converges (.ok last) none (.unopened broker i) := by
  refine .of_answers 0 fun clock j => ⟨_, answers_unopened clock broker i j, ?_⟩
  rintro p hp
  cases hp
  have opened := converges_opened (h j.subscriptionCount) j.subscriptionCount
  have answered := answers_opened clock j.subscriptionCount (broker j.subscriptionCount i) 0
    (.subscribed i :: j)
  refine proceeds_source (fun hpoll => ?_) (fun hpoll => ?_) fun hpoll => .inr ?_
  · simpa [pollSource, hpoll] using opened.value answered (by simp only [pollSource, hpoll])
  · obtain ⟨v, hv, -⟩ := opened.ended answered (by simp only [pollSource, hpoll])
    cases hv
  · simpa [pollSource, hpoll] using opened.pending answered (by simp only [pollSource, hpoll])

/-! ## Changed values -/

theorem answers_map {clock : Nat} {f : Value → Value} {s : Stream} {j : Journal} {r : Eval Polled}
    (h : Answers clock s j r) :
    Answers clock (.map f s) j (r >>= fun p => .ok ⟨match p.answer with
      | .value v => .value (f v)
      | other => other, .map f p.stream, p.journal⟩) :=
  (h.bind fun _ _ => Settles.lift (.ok _)).succ fun _ => rfl

theorem converges_map {target : Eval Value} {emitted : Option Value} {s : Stream}
    (h : Converges target emitted s) (f : Value → Value) :
    Converges (target >>= fun v => .ok (f v)) (emitted.map f) (.map f s) := by
  induction h with
  | @intro emitted s deadline polls _ ended _ value pending =>
    refine .of_answers deadline fun clock j => ?_
    obtain ⟨r, hr⟩ := polls clock j
    refine ⟨_, answers_map hr, fun p hp => ?_⟩
    obtain ⟨q, rfl, hp⟩ := bind_eq_ok hp
    cases hp
    refine ⟨fun ha => ?_, fun ha => ?_, fun ha => ?_⟩
    · cases hq : q.answer with
      | value w =>
        simp only [hq] at ha
        cases ha
        exact value hr hq
      | pending => simp [hq] at ha
      | ended => simp [hq] at ha
    · cases hq : q.answer with
      | value w => simp [hq] at ha
      | pending => simp [hq] at ha
      | ended =>
        obtain ⟨v, rfl, rfl⟩ := ended hr hq
        exact ⟨f v, rfl, rfl⟩
    · cases hq : q.answer with
      | value w => simp [hq] at ha
      | ended => simp [hq] at ha
      | pending =>
        by_cases hsame : q.stream = s ∧ clock < deadline
        · exact .inl ⟨by rw [hsame.1], hsame.2⟩
        · exact .inr (pending hr hq hsame)

end Stream

/-! ## Parts -/

namespace Slot

/-- A part that converges, with its latest value: while it lasts its stream does, and when it has
ended that value is the target. -/
def Converges (target : Eval Value) (a : Slot Stream) : Prop :=
  match a.live with
  | some s => s.Converges target a.latest
  | none => ∃ v, a.latest = some v ∧ target = .ok v

/-- A part that is pending at a time and stays as it is. -/
def Waits (clock : Nat) (a : Slot Stream) : Prop :=
  ∃ s j p, a.live = some s ∧ s.Answers clock j (.ok p) ∧ p.answer = .pending ∧ p.stream = s

/-- A part after a step of its stream, or after its end. -/
inductive Step (r : Stream → Stream → Prop) : Slot Stream → Slot Stream → Prop
  | live {s' s latest' latest} : r s' s → Step r ⟨some s', latest'⟩ ⟨some s, latest⟩
  | ended {s latest' latest} : Step r ⟨none, latest'⟩ ⟨some s, latest⟩

theorem acc_ended (r : Stream → Stream → Prop) (latest : Option Value) :
    Acc (Step r) ⟨none, latest⟩ :=
  .intro _ fun _ h => nomatch h

theorem acc_live {r : Stream → Stream → Prop} {s : Stream} (h : Acc r s)
    (latest : Option Value) : Acc (Step r) ⟨some s, latest⟩ := by
  induction h generalizing latest with
  | intro s _ ih =>
    refine .intro _ fun a h => ?_
    cases h with
    | live hs => exact ih _ hs _
    | ended => exact acc_ended r _

/-- A part after a poll that brought it forward. -/
abbrev Follows : Slot Stream → Slot Stream → Prop := Step Stream.Follows

theorem Converges.acc {target : Eval Value} {a : Slot Stream} (h : a.Converges target) :
    Acc Follows a := by
  obtain ⟨live, latest⟩ := a
  cases live with
  | none => exact acc_ended _ latest
  | some s => exact acc_live (Stream.Converges.acc h) latest

/-- A part that converges does not stay as it is for ever. -/
theorem Converges.waits {target : Eval Value} {a : Slot Stream} (h : a.Converges target) :
    ∃ deadline, ∀ {clock}, a.Waits clock → clock < deadline := by
  obtain ⟨live, latest⟩ := a
  cases live with
  | none => exact ⟨0, fun ⟨_, _, _, hs, _⟩ => nomatch hs⟩
  | some s =>
    obtain ⟨deadline, hdeadline⟩ := Stream.Converges.waits h
    refine ⟨deadline, fun {clock} ⟨s', j, p, hs, hp, ha, hsame⟩ => ?_⟩
    cases hs
    exact hdeadline hp ha hsame

section

variable {target : Eval Value} {s : Stream} {latest : Option Value} {clock : Nat} {j : Journal}
  {p : Polled}

theorem Converges.value (h : Converges target ⟨some s, latest⟩)
    (hp : s.Answers clock j (.ok p)) {v : Value} (ha : p.answer = .value v) :
    Converges target ⟨some p.stream, some v⟩ ∧
      Follows ⟨some p.stream, some v⟩ ⟨some s, latest⟩ :=
  ⟨Stream.Converges.value h hp ha, .live ⟨clock, j, p, hp, rfl, by simp [ha], by simp [ha]⟩⟩

theorem Converges.ended (h : Converges target ⟨some s, latest⟩)
    (hp : s.Answers clock j (.ok p)) (ha : p.answer = .ended) :
    Converges target ⟨none, latest⟩ :=
  Stream.Converges.ended h hp ha

theorem Converges.pending (h : Converges target ⟨some s, latest⟩)
    (hp : s.Answers clock j (.ok p)) (ha : p.answer = .pending) :
    Converges target ⟨some p.stream, latest⟩ ∧
      ((⟨some p.stream, latest⟩ : Slot Stream) = ⟨some s, latest⟩ ∨
        Follows ⟨some p.stream, latest⟩ ⟨some s, latest⟩) := by
  refine ⟨Stream.Converges.pending h hp ha, ?_⟩
  by_cases hs : p.stream = s
  · exact .inl (by rw [hs])
  · exact .inr (.live ⟨clock, j, p, hp, rfl, by simp [ha], fun _ => hs⟩)

end

end Slot

end PolicyExpr
