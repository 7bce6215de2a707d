import PolicyExpr.Proofs.Convergence

/-!
# Switches over streams that converge

A switch whose outer stream comes to a last value comes to what the inner stream of that value
comes to. Its outer stream may drop an inner stream at any time, also before the inner stream has
had a value; what was emitted before is then overwritten.
-/
namespace PolicyExpr.Stream

variable {outerTarget : Eval Value} {innerTarget : Value → Eval Value}
  {next : Value → Eval Stream} {outer inner outer' inner' : Option Stream}
  {latest emitted : Option Value} {clock : Nat} {j : Journal}

/-! ## The outer stream -/

/-- What a poll of the outer stream, where it lasts, does to a switch, when it has a result. -/
inductive SwitchPass.Over (clock : Nat) (next : Value → Eval Stream) (inner : Option Stream) :
    (outer : Option Stream) → SwitchPass → Prop
  | gone (j : Journal) : Over clock next inner none ⟨none, inner, j, false⟩
  | switched {s i : Stream} {j : Journal} {p : Polled} {v : Value}
    (hp : Answers clock s j (.ok p)) (hv : p.answer = .value v) (hnext : next v = .ok i) :
    Over clock next inner (some s) ⟨some p.stream, some i, p.journal, true⟩
  | ended {s : Stream} {j : Journal} {p : Polled} (hp : Answers clock s j (.ok p))
    (hended : p.answer = .ended) :
    Over clock next inner (some s) ⟨none, inner, p.journal, false⟩
  | pending {s : Stream} {j : Journal} {p : Polled} (hp : Answers clock s j (.ok p))
    (hpending : p.answer = .pending) :
    Over clock next inner (some s) ⟨some p.stream, inner, p.journal, false⟩

section

variable {s : Stream} {p : Polled} (hp : Answers clock s j (.ok p))

include hp

theorem outer_of_value {v : Value} (ha : p.answer = .value v) :
    Settles (fun fuel => switchOuter (poll clock fuel) next (some s) inner j)
      (next v >>= fun i => .ok ⟨some p.stream, some i, p.journal, true⟩) := by
  refine hp.ok_bind ?_
  simp only [ha]
  exact (Settles.lift (next v)).bind fun _ _ => .lift (.ok _)

theorem outer_of_ended (ha : p.answer = .ended) :
    Settles (fun fuel => switchOuter (poll clock fuel) next (some s) inner j)
      (.ok ⟨none, inner, p.journal, false⟩) := by
  refine hp.ok_bind ?_
  simp only [ha]
  exact .lift (.ok _)

theorem outer_of_pending (ha : p.answer = .pending) :
    Settles (fun fuel => switchOuter (poll clock fuel) next (some s) inner j)
      (.ok ⟨some p.stream, inner, p.journal, false⟩) := by
  refine hp.ok_bind ?_
  simp only [ha]
  exact .lift (.ok _)

end

theorem switchOuter_over (h : ∀ s, outer = some s → ∀ j, ∃ r, Answers clock s j r)
    (inner : Option Stream) (j : Journal) :
    ∃ r, Settles (fun fuel => switchOuter (poll clock fuel) next outer inner j) r ∧
      ∀ pass, r = .ok pass → pass.Over clock next inner outer := by
  cases outer with
  | none =>
    refine ⟨_, .lift (.ok _), fun pass hpass => ?_⟩
    cases hpass
    exact .gone j
  | some s =>
    obtain ⟨rp, hrp⟩ := h s rfl j
    cases rp with
    | error f => exact ⟨.error f, hrp.error_bind, nofun⟩
    | ok p =>
      cases hans : p.answer with
      | value v =>
        refine ⟨_, outer_of_value hrp hans, fun pass hpass => ?_⟩
        obtain ⟨i, hi, hpass⟩ := bind_eq_ok hpass
        cases hpass
        exact .switched hrp hans hi
      | ended =>
        refine ⟨_, outer_of_ended hrp hans, fun pass hpass => ?_⟩
        cases hpass
        exact .ended hrp hans
      | pending =>
        refine ⟨_, outer_of_pending hrp hans, fun pass hpass => ?_⟩
        cases hpass
        exact .pending hrp hans

/-- What a poll of the outer stream, where it lasts, has done to a switch if it converges. -/
inductive SwitchPass.Advances (clock : Nat) (outerTarget : Eval Value) (next : Value → Eval Stream)
    (outer inner : Option Stream) (latest : Option Value) : SwitchPass → Prop
  | switched {s v i} {j : Journal} (hnext : next v = .ok i)
    (houter : Slot.Converges outerTarget ⟨some s, some v⟩)
    (hfollows : Slot.Follows ⟨some s, some v⟩ ⟨outer, latest⟩) :
    Advances clock outerTarget next outer inner latest ⟨some s, some i, j, true⟩
  | stayed {outer' : Option Stream} {j : Journal}
    (houter : Slot.Converges outerTarget ⟨outer', latest⟩)
    (hstep : outer' = outer ∧ (outer ≠ none → Slot.Waits clock ⟨outer, latest⟩) ∨
      Slot.Follows ⟨outer', latest⟩ ⟨outer, latest⟩) :
    Advances clock outerTarget next outer inner latest ⟨outer', inner, j, false⟩

theorem SwitchPass.Over.advances {pass : SwitchPass} (h : pass.Over clock next inner outer)
    (houter : Slot.Converges outerTarget ⟨outer, latest⟩) :
    pass.Advances clock outerTarget next outer inner latest := by
  cases h with
  | gone j => exact .stayed houter (.inl ⟨rfl, fun hne => absurd rfl hne⟩)
  | switched hp hv hnext =>
    obtain ⟨hafter, hfollows⟩ := Slot.Converges.value houter hp hv
    exact .switched hnext hafter hfollows
  | ended hp hended => exact .stayed (Slot.Converges.ended houter hp hended) (.inr .ended)
  | @pending s j p hp hpending =>
    obtain ⟨hafter, hstep⟩ := Slot.Converges.pending houter hp hpending
    refine .stayed hafter (hstep.imp_left fun hsame => ?_)
    have hs : p.stream = s := by simpa using hsame
    exact ⟨by rw [hs], fun _ => ⟨s, j, p, rfl, hp, hpending, hs⟩⟩

/-! ## Rounds -/

/-- The rounds of a poll of a switch. -/
def switchRun (next : Value → Eval Stream) (outer inner : Option Stream) (clock : Nat)
    (j : Journal) (fuel rounds : Nat) : Except Halt Polled :=
  switchRounds (poll clock fuel) next rounds outer inner j

theorem answers_switch {r : Eval Polled}
    (h : RoundsSettle (switchRun next outer inner clock j) r) :
    Answers clock (.switch outer inner next) j r :=
  h.diagonal.succ fun _ => rfl

/-- A round in which nothing is left of the switch. -/
theorem rounds_of_over {j' : Journal}
    (hpass : Settles (fun fuel => switchOuter (poll clock fuel) next outer inner j)
      (.ok ⟨none, none, j', false⟩)) :
    RoundsSettle (switchRun next outer inner clock j) (.ok ⟨.ended, .switch none none next, j'⟩) :=
  (hpass.rounds_ok_bind (.lift (.ok _))).succ fun _ _ => rfl

/-- A round in which only the outer stream is left, and waits. -/
theorem rounds_of_alone {s : Stream} {j' : Journal}
    (hpass : Settles (fun fuel => switchOuter (poll clock fuel) next outer inner j)
      (.ok ⟨some s, none, j', false⟩)) :
    RoundsSettle (switchRun next outer inner clock j)
      (.ok ⟨.pending, .switch (some s) none next, j'⟩) :=
  (hpass.rounds_ok_bind (.lift (.ok _))).succ fun _ _ => rfl

section

/-! A round in which an inner stream is polled. -/

variable {i : Stream} {j' : Journal} {q : Polled} {switched : Bool} {r : Eval Polled}
  (hpass : Settles (fun fuel => switchOuter (poll clock fuel) next outer inner j)
    (.ok ⟨outer', some i, j', switched⟩))

include hpass

theorem rounds_of_inner_fault {f : Fault} (hq : Answers clock i j' (.error f)) :
    RoundsSettle (switchRun next outer inner clock j) (.error f) :=
  (hpass.rounds_ok_bind hq.rounds_error_bind).succ fun _ _ => rfl

variable (hq : Answers clock i j' (.ok q))

include hq

theorem rounds_of_inner_value {w : Value} (ha : q.answer = .value w) :
    RoundsSettle (switchRun next outer inner clock j)
      (.ok ⟨.value w, .switch outer' (some q.stream) next, q.journal⟩) := by
  refine (hpass.rounds_ok_bind (hq.rounds_ok_bind ?_)).succ fun _ _ => rfl
  simp only [ha]
  exact .lift (.ok _)

theorem rounds_of_inner_pending (ha : q.answer = .pending) (hstayed : switched = false) :
    RoundsSettle (switchRun next outer inner clock j)
      (.ok ⟨.pending, .switch outer' (some q.stream) next, q.journal⟩) := by
  refine (hpass.rounds_ok_bind (hq.rounds_ok_bind ?_)).succ fun _ _ => rfl
  simp only [ha, hstayed]
  exact .lift (.ok _)

theorem rounds_of_inner_pending_again (ha : q.answer = .pending) (hswitched : switched = true)
    (hr : RoundsSettle (switchRun next outer' (some q.stream) clock q.journal) r) :
    RoundsSettle (switchRun next outer inner clock j) r := by
  refine (hpass.rounds_ok_bind (hq.rounds_ok_bind ?_)).succ fun _ _ => rfl
  simp only [ha, hswitched, Bool.not_true, Bool.false_eq_true, if_false]
  exact hr

theorem rounds_of_inner_over (ha : q.answer = .ended) (houter : outer' = none) :
    RoundsSettle (switchRun next outer inner clock j)
      (.ok ⟨.ended, .switch none none next, q.journal⟩) := by
  refine (hpass.rounds_ok_bind (hq.rounds_ok_bind ?_)).succ fun _ _ => rfl
  simp only [ha, houter]
  exact .lift (.ok _)

theorem rounds_of_inner_ended {s : Stream} (ha : q.answer = .ended) (houter : outer' = some s)
    (hstayed : switched = false) :
    RoundsSettle (switchRun next outer inner clock j)
      (.ok ⟨.pending, .switch (some s) none next, q.journal⟩) := by
  refine (hpass.rounds_ok_bind (hq.rounds_ok_bind ?_)).succ fun _ _ => rfl
  simp only [ha, houter, hstayed]
  exact .lift (.ok _)

theorem rounds_of_inner_ended_again {s : Stream} (ha : q.answer = .ended) (houter : outer' = some s)
    (hswitched : switched = true)
    (hr : RoundsSettle (switchRun next (some s) none clock q.journal) r) :
    RoundsSettle (switchRun next outer inner clock j) r := by
  refine (hpass.rounds_ok_bind (hq.rounds_ok_bind ?_)).succ fun _ _ => rfl
  simp only [ha, houter, hswitched, Option.isNone_some, Bool.not_true, Bool.false_eq_true, if_false]
  exact hr

end

/-- The inner stream of a switch, with what the switch has emitted last: it converges to the
target of the outer stream's latest value, and there is none before the first one. -/
def InnerConverges (innerTarget : Value → Eval Value) (emitted : Option Value)
    (inner : Option Stream) : (latest : Option Value) → Prop
  | none => inner = none
  | some v => Slot.Converges (innerTarget v) ⟨inner, emitted⟩

theorem InnerConverges.acc (h : InnerConverges innerTarget emitted inner latest) :
    Acc Slot.Follows ⟨inner, emitted⟩ := by
  cases latest with
  | none => exact h ▸ Slot.acc_ended _ emitted
  | some v => exact Slot.Converges.acc h

theorem InnerConverges.waits (h : InnerConverges innerTarget emitted inner latest) :
    ∃ deadline, ∀ {clock}, Slot.Waits clock ⟨inner, emitted⟩ → clock < deadline := by
  cases latest with
  | none => exact ⟨0, fun ⟨_, _, _, hs, _⟩ => by rw [h] at hs; cases hs⟩
  | some v => exact Slot.Converges.waits h

/-- A switch that converges, and whose rounds come to an end. -/
abbrev SwitchConverges (target : Eval Value) (next : Value → Eval Stream)
    (emitted : Option Value) (outer inner : Option Stream) : Prop :=
  RoundsConverge target emitted (.switch outer inner next) (switchRun next outer inner)

/-- Where both streams of a switch have ended, the last value is that of the inner one. -/
theorem target_of_ended (houter : Slot.Converges outerTarget ⟨none, latest⟩)
    (hinner : InnerConverges innerTarget emitted none latest) :
    ∃ v, emitted = some v ∧ (outerTarget >>= innerTarget) = .ok v := by
  obtain ⟨v, rfl, rfl⟩ := houter
  obtain ⟨w, hw, htarget⟩ := hinner
  exact ⟨w, hw, htarget⟩

/-- A round in which the outer stream has had a value: the inner stream of that value is polled,
and where it has none yet another round follows. -/
theorem round_of_switched {target : Eval Value} {s i : Stream} {v : Value} {deadline : Nat}
    {pass : Journal}
    (hpass : Settles (fun fuel => switchOuter (poll clock fuel) next outer inner j)
      (.ok ⟨some s, some i, pass, true⟩))
    (hinner : Converges (innerTarget v) emitted i)
    (later : ∀ {inner' emitted'}, InnerConverges innerTarget emitted' inner' (some v) →
      SwitchConverges target next emitted' (some s) inner') :
    ∃ r, RoundsSettle (switchRun next outer inner clock j) r ∧
      ∀ p, r = .ok p → Proceeds target deadline clock emitted (.switch outer inner next) p := by
  obtain ⟨rp, hrp⟩ := hinner.polls clock pass
  cases rp with
  | error f => exact ⟨.error f, rounds_of_inner_fault hpass hrp, nofun⟩
  | ok q =>
    cases hans : q.answer with
    | value w =>
      refine ⟨_, rounds_of_inner_value hpass hrp hans, fun p hp => ?_⟩
      cases hp
      refine ⟨fun ha => ?_, nofun, nofun⟩
      cases ha
      have hinner' : InnerConverges innerTarget (some w) (some q.stream) (some v) :=
        hinner.value hrp hans
      exact (later hinner').converges
    | ended =>
      have hinner' : InnerConverges innerTarget emitted none (some v) := hinner.ended hrp hans
      obtain ⟨r, hr, hproceeds⟩ := (later hinner').proceeds clock q.journal
      exact ⟨r, rounds_of_inner_ended_again hpass hrp hans rfl rfl hr,
        fun p hp => hproceeds p hp _ _⟩
    | pending =>
      have hinner' : InnerConverges innerTarget emitted (some q.stream) (some v) :=
        hinner.pending hrp hans
      obtain ⟨r, hr, hproceeds⟩ := (later hinner').proceeds clock q.journal
      exact ⟨r, rounds_of_inner_pending_again hpass hrp hans rfl hr,
        fun p hp => hproceeds p hp _ _⟩

section

/-! A round in which the outer stream has had no value: what the inner stream answers, if there is
one, is the answer of the switch. -/

variable {target : Eval Value} {deadline : Nat} {pass : Journal}
  (htarget : target = (outerTarget >>= innerTarget))
  (hpass : Settles (fun fuel => switchOuter (poll clock fuel) next outer inner j)
    (.ok ⟨outer', inner, pass, false⟩))
  (houter : Slot.Converges outerTarget ⟨outer', latest⟩)
  (hstep : outer' = outer ∧ (outer ≠ none → Slot.Waits clock ⟨outer, latest⟩) ∨
    Slot.Follows ⟨outer', latest⟩ ⟨outer, latest⟩)
  (hinner : InnerConverges innerTarget emitted inner latest)
  (hdeadline : Slot.Waits clock ⟨outer, latest⟩ ∨ Slot.Waits clock ⟨inner, emitted⟩ →
    clock < deadline)
  (later : ∀ {inner' emitted'}, InnerConverges innerTarget emitted' inner' latest →
    Slot.Follows ⟨outer', latest⟩ ⟨outer, latest⟩ ∨
      outer' = outer ∧ Slot.Follows ⟨inner', emitted'⟩ ⟨inner, emitted⟩ →
    Converges target emitted' (.switch outer' inner' next))

include htarget hpass houter hstep hinner hdeadline later

private theorem round_without_inner (hnone : inner = none) :
    ∃ r, RoundsSettle (switchRun next outer inner clock j) r ∧
      ∀ p, r = .ok p → Proceeds target deadline clock emitted (.switch outer inner next) p := by
  subst hnone
  cases houter' : outer' with
  | none =>
    subst houter'
    refine ⟨_, rounds_of_over hpass, fun p hp => ?_⟩
    cases hp
    exact ⟨nofun, fun _ => htarget ▸ target_of_ended houter hinner, nofun⟩
  | some s =>
    subst houter'
    refine ⟨_, rounds_of_alone hpass, fun p hp => ?_⟩
    cases hp
    refine ⟨nofun, nofun, fun _ => ?_⟩
    rcases hstep with ⟨rfl, hwaits⟩ | hfollows
    · exact .inl ⟨rfl, hdeadline (.inl (hwaits nofun))⟩
    · exact .inr (later hinner (.inl hfollows))

private theorem round_with_inner {i : Stream} {v : Value} (hsome : inner = some i)
    (hlatest : latest = some v) :
    ∃ r, RoundsSettle (switchRun next outer inner clock j) r ∧
      ∀ p, r = .ok p → Proceeds target deadline clock emitted (.switch outer inner next) p := by
  subst hsome hlatest
  have advance : ∀ {inner' emitted'}, InnerConverges innerTarget emitted' inner' (some v) →
      Slot.Follows ⟨inner', emitted'⟩ ⟨some i, emitted⟩ →
      Converges target emitted' (.switch outer' inner' next) := by
    intro inner' emitted' hinner' hfollows
    exact later hinner' (hstep.symm.imp_right fun hsame => ⟨hsame.1, hfollows⟩)
  obtain ⟨rp, hrp⟩ := Stream.Converges.polls hinner clock pass
  cases rp with
  | error f => exact ⟨.error f, rounds_of_inner_fault hpass hrp, nofun⟩
  | ok q =>
    cases hans : q.answer with
    | value w =>
      obtain ⟨hinner', hfollows⟩ := Slot.Converges.value hinner hrp hans
      refine ⟨_, rounds_of_inner_value hpass hrp hans, fun p hp => ?_⟩
      cases hp
      refine ⟨fun ha => ?_, nofun, nofun⟩
      cases ha
      exact advance hinner' hfollows
    | ended =>
      have hinner' := Slot.Converges.ended hinner hrp hans
      cases houter' : outer' with
      | none =>
        subst houter'
        refine ⟨_, rounds_of_inner_over hpass hrp hans rfl, fun p hp => ?_⟩
        cases hp
        exact ⟨nofun, fun _ => htarget ▸ target_of_ended houter hinner', nofun⟩
      | some s =>
        subst houter'
        refine ⟨_, rounds_of_inner_ended hpass hrp hans rfl rfl, fun p hp => ?_⟩
        cases hp
        exact ⟨nofun, nofun, fun _ => .inr (advance hinner' .ended)⟩
    | pending =>
      obtain ⟨hinner', hchange⟩ := Slot.Converges.pending hinner hrp hans
      refine ⟨_, rounds_of_inner_pending hpass hrp hans rfl, fun p hp => ?_⟩
      cases hp
      refine ⟨nofun, nofun, fun _ => ?_⟩
      rcases hchange with hsame | hfollows
      · have hs : q.stream = i := by simpa using hsame
        rcases hstep with ⟨rfl, -⟩ | hfollows
        · exact .inl ⟨by rw [hs], hdeadline (.inr ⟨i, pass, q, rfl, hrp, hans, hs⟩)⟩
        · exact .inr (later hinner' (.inl hfollows))
      · exact .inr (advance hinner' hfollows)

/-- The inner stream is there only if the outer stream has had a value. -/
theorem round_of_stayed :
    ∃ r, RoundsSettle (switchRun next outer inner clock j) r ∧
      ∀ p, r = .ok p → Proceeds target deadline clock emitted (.switch outer inner next) p := by
  cases hi : inner with
  | none => exact hi ▸ round_without_inner htarget hpass houter hstep hinner hdeadline later hi
  | some i =>
    cases hl : latest with
    | none =>
      subst hi hl
      cases hinner
    | some v => exact hi ▸ round_with_inner htarget hpass houter hstep hinner hdeadline later hi hl

end

/-- One step of the argument: a switch converges if it does after every step of its outer stream,
with any inner stream, and after every step of its inner stream. -/
theorem switch_step (hnext : ∀ v s, next v = .ok s → Converges (innerTarget v) none s)
    (houter : Slot.Converges outerTarget ⟨outer, latest⟩)
    (hinner : InnerConverges innerTarget emitted inner latest)
    (ihouter : ∀ {outer' latest' inner' emitted'},
      Slot.Follows ⟨outer', latest'⟩ ⟨outer, latest⟩ →
      Slot.Converges outerTarget ⟨outer', latest'⟩ →
      InnerConverges innerTarget emitted' inner' latest' →
      SwitchConverges (outerTarget >>= innerTarget) next emitted' outer' inner')
    (ihinner : ∀ {inner' emitted'}, Slot.Follows ⟨inner', emitted'⟩ ⟨inner, emitted⟩ →
      InnerConverges innerTarget emitted' inner' latest →
      SwitchConverges (outerTarget >>= innerTarget) next emitted' outer inner') :
    SwitchConverges (outerTarget >>= innerTarget) next emitted outer inner := by
  obtain ⟨m, hm⟩ := houter.waits
  obtain ⟨n, hn⟩ := hinner.waits
  refine .of_rounds (max m n) answers_switch fun clock j => ?_
  have polls : ∀ s, outer = some s → ∀ j, ∃ r, Answers clock s j r := by
    rintro s rfl
    exact Stream.Converges.polls houter clock
  obtain ⟨rp, hrp, hpass⟩ := switchOuter_over polls inner j
  cases rp with
  | error f => exact ⟨.error f, hrp.rounds_error_bind.succ fun _ _ => rfl, nofun⟩
  | ok pass =>
    cases (hpass pass rfl).advances houter with
    | @switched s v i j' hi houter' hfollows =>
      have hfresh : Converges (innerTarget v) emitted i := (hnext v i hi).weaken emitted
      exact round_of_switched hrp hfresh fun hinner' => ihouter hfollows houter' hinner'
    | @stayed outer' j' houter' hstep =>
      refine round_of_stayed rfl hrp houter' hstep hinner (fun hwaits => ?_)
        fun hinner' hlater => ?_
      · rcases hwaits with hwaits | hwaits
        · exact Nat.lt_of_lt_of_le (hm hwaits) (Nat.le_max_left m n)
        · exact Nat.lt_of_lt_of_le (hn hwaits) (Nat.le_max_right m n)
      · rcases hlater with hfollows | ⟨rfl, hfollows⟩
        · exact (ihouter hfollows houter' hinner').converges
        · exact (ihinner hfollows hinner').converges

/-- A switch whose outer stream converges to a value and whose inner streams converge to the
targets of their outer values converges to the target of the last one. -/
theorem converges_switch (hnext : ∀ v s, next v = .ok s → Converges (innerTarget v) none s)
    (houter : Slot.Converges outerTarget ⟨outer, latest⟩)
    (hinner : InnerConverges innerTarget emitted inner latest) :
    SwitchConverges (outerTarget >>= innerTarget) next emitted outer inner := by
  -- A step of the outer stream comes with any inner stream, so the outer induction is over it.
  generalize ha : (⟨outer, latest⟩ : Slot Stream) = a at houter
  induction houter.acc generalizing outer latest inner emitted with
  | intro a _ ihouter =>
    subst ha
    generalize hb : (⟨inner, emitted⟩ : Slot Stream) = b
    have hacc : Acc Slot.Follows b := hb ▸ hinner.acc
    induction hacc generalizing inner emitted with
    | intro b _ ihinner =>
      subst hb
      exact switch_step hnext houter hinner
        (fun hfollows houter' hinner' => ihouter _ hfollows hinner' rfl houter')
        fun hfollows hinner' => ihinner _ hfollows hinner' rfl

/-- A switch that has not been polled. -/
theorem converges_switchOver {s : Stream}
    (hnext : ∀ v s, next v = .ok s → Converges (innerTarget v) none s)
    (h : Converges outerTarget none s) :
    Converges (outerTarget >>= innerTarget) none (.switchOver s next) := by
  have houter : Slot.Converges outerTarget ⟨some s, none⟩ := h
  have hinner : InnerConverges innerTarget none none none := rfl
  exact (converges_switch hnext houter hinner).converges

end PolicyExpr.Stream
