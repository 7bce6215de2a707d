import Mathlib.Data.List.Forall2
import PolicyExpr.Proofs.Convergence

/-!
# Joins of streams that converge

A join of streams that come to last values comes to what it makes of these. A round of it
lets some parts take a step while the others stay, which cannot go on for ever; whenever a part
has a new value and all have one, that is what the join has emitted last.
-/
namespace PolicyExpr

/-! ## Steps of some members -/

/-- Some members of a list take a step, at least one, and the others stay. -/
inductive SomeStep {α : Type} (r : α → α → Prop) : List α → List α → Prop
  | head {a' a as} : r a' a → SomeStep r (a' :: as) (a :: as)
  | tail {a as' as} : SomeStep r as' as → SomeStep r (a :: as') (a :: as)
  | both {a' a as' as} : r a' a → SomeStep r as' as → SomeStep r (a' :: as') (a :: as)

namespace SomeStep

variable {α : Type} {r : α → α → Prop} {a a' : α} {as as' : List α}

theorem acc_cons (ha : Acc r a) (has : Acc (SomeStep r) as) : Acc (SomeStep r) (a :: as) := by
  induction ha generalizing as with
  | intro a _ ihead =>
    induction has with
    | intro as hsmaller itail =>
      refine .intro _ fun bs hstep => ?_
      cases hstep with
      | head h => exact ihead _ h (.intro as hsmaller)
      | tail h => exact itail _ h
      | both h hs => exact ihead _ h (hsmaller _ hs)

/-- Members that cannot go on for ever cannot together either. -/
theorem acc (h : ∀ a ∈ as, Acc r a) : Acc (SomeStep r) as := by
  induction as with
  | nil => exact .intro _ fun _ hstep => nomatch hstep
  | cons a as ih => exact acc_cons (h a (by simp)) (ih fun b hb => h b (by simp [hb]))

theorem cons_head (ha : r a' a) (has : as' = as ∨ SomeStep r as' as) :
    SomeStep r (a' :: as') (a :: as) := by
  rcases has with rfl | has
  · exact .head ha
  · exact .both ha has

theorem cons_tail (ha : a' = a ∨ r a' a) (has : SomeStep r as' as) :
    SomeStep r (a' :: as') (a :: as) := by
  rcases ha with rfl | ha
  · exact .tail has
  · exact .both ha has

theorem cons (ha : a' = a ∨ r a' a) (has : as' = as ∨ SomeStep r as' as) :
    a' :: as' = a :: as ∨ SomeStep r (a' :: as') (a :: as) := by
  rcases ha with rfl | ha
  · rcases has with rfl | has
    · exact .inl rfl
    · exact .inr (.tail has)
  · exact .inr (cons_head ha has)

end SomeStep

namespace Stream

/-! ## Passes -/

/-- What a pass over parts that converge has done to them. No part ends without a value, so
every part that lasts is polled. -/
structure JoinPass.Advances (clock : Nat) (ts : List (Eval Value)) (slots : List (Slot Stream))
    (pass : JoinPass) : Prop where
  fed : pass.starved = false
  converges : List.Forall₂ Slot.Converges ts pass.slots
  steps : pass.slots = slots ∨ SomeStep Slot.Follows pass.slots slots
  progressed : pass.progressed = true → SomeStep Slot.Follows pass.slots slots
  updated : pass.updated = true → pass.progressed = true
  latest : pass.updated = false → latestValues pass.slots = latestValues slots
  waiting : pass.progressed = false → pass.slots = slots → ∀ a ∈ slots, a.live ≠ none →
    a.Waits clock

private theorem latestValues_cons (a : Slot Stream) (rest : List (Slot Stream)) :
    latestValues (a :: rest) = a.latest.bind fun v => (latestValues rest).map (v :: ·) := by
  simp only [latestValues, List.mapM_cons]
  cases a.latest <;> cases rest.mapM Slot.latest <;> rfl

/-- A part in front of a pass. -/
theorem JoinPass.Advances.cons {clock : Nat} {ts : List (Eval Value)} {slots : List (Slot Stream)}
    {pass : JoinPass} {t : Eval Value} {a a' : Slot Stream} {updated progressed : Bool}
    (h : pass.Advances clock ts slots) (ha' : a'.Converges t) (hstep : a' = a ∨ a'.Follows a)
    (hprogressed : progressed = true → pass.progressed = true ∨ a'.Follows a)
    (hupdated : updated = true → progressed = true)
    (hlatest : updated = false → pass.updated = false ∧ a'.latest = a.latest)
    (hwaiting : progressed = false → pass.progressed = false ∧ (a' = a → a.live ≠ none →
      a.Waits clock)) :
    JoinPass.Advances clock (t :: ts) (a :: slots)
      ⟨a' :: pass.slots, pass.journal, updated, progressed, pass.starved⟩ where
  fed := h.fed
  converges := .cons ha' h.converges
  steps := SomeStep.cons hstep h.steps
  progressed hp := by
    rcases hprogressed hp with hpass | hfollows
    · exact SomeStep.cons_tail hstep (h.progressed hpass)
    · exact SomeStep.cons_head hfollows h.steps
  updated := hupdated
  latest hu := by
    obtain ⟨hpass, hsame⟩ := hlatest hu
    simp only [latestValues_cons, h.latest hpass, hsame]
  waiting hp heq b hb hlive := by
    obtain ⟨hpass, hhead⟩ := hwaiting hp
    obtain ⟨ha, hslots⟩ := List.cons.inj heq
    rcases List.mem_cons.1 hb with rfl | hb
    · exact hhead ha hlive
    · exact h.waiting hpass hslots b hb hlive

section

variable {clock : Nat} {j : Journal} {s : Stream} {latest : Option Value}
  {slots : List (Slot Stream)} {p : Polled} {r : Eval JoinPass}
  (hp : Answers clock s j (.ok p))
  (hr : Settles (fun fuel => joinPass (poll clock fuel) slots p.journal) r)

include hp hr

theorem pass_of_value {v : Value} (ha : p.answer = .value v) :
    Settles (fun fuel => joinPass (poll clock fuel) (⟨some s, latest⟩ :: slots) j)
      (r >>= fun pass => .ok ⟨⟨some p.stream, some v⟩ :: pass.slots, pass.journal, true, true,
        pass.starved⟩) := by
  refine hp.ok_bind ?_
  simp only [ha]
  exact hr.bind fun _ _ => .lift (.ok _)

theorem pass_of_ended {v : Value} (ha : p.answer = .ended) :
    Settles (fun fuel => joinPass (poll clock fuel) (⟨some s, some v⟩ :: slots) j)
      (r >>= fun pass => .ok ⟨⟨none, some v⟩ :: pass.slots, pass.journal, pass.updated, true,
        pass.starved⟩) := by
  refine hp.ok_bind ?_
  simp only [ha, Option.isNone_some, Bool.false_eq_true, if_false]
  exact hr.bind fun _ _ => .lift (.ok _)

theorem pass_of_pending (ha : p.answer = .pending) :
    Settles (fun fuel => joinPass (poll clock fuel) (⟨some s, latest⟩ :: slots) j)
      (r >>= fun pass => .ok { pass with slots := ⟨some p.stream, latest⟩ :: pass.slots }) := by
  refine hp.ok_bind ?_
  simp only [ha]
  exact hr.bind fun _ _ => .lift (.ok _)

end

theorem pass_of_starvation {clock : Nat} {j : Journal} {s : Stream} {slots : List (Slot Stream)}
    {p : Polled} (hp : Answers clock s j (.ok p)) (ha : p.answer = .ended) :
    Settles (fun fuel => joinPass (poll clock fuel) (⟨some s, none⟩ :: slots) j)
      (.ok ⟨⟨none, none⟩ :: slots, p.journal, false, true, true⟩) := by
  refine hp.ok_bind ?_
  simp only [ha]
  exact .lift (.ok _)

/-- How a pass gets over some parts, when each poll of these has a result. -/
inductive JoinPass.Over (clock : Nat) : List (Slot Stream) → JoinPass → Prop
  | nil (j : Journal) : Over clock [] ⟨[], j, false, false, false⟩
  | skipped {latest : Option Value} {slots : List (Slot Stream)} {pass : JoinPass}
    (hrest : Over clock slots pass) :
    Over clock (⟨none, latest⟩ :: slots) { pass with slots := ⟨none, latest⟩ :: pass.slots }
  | value {s : Stream} {latest : Option Value} {slots : List (Slot Stream)} {j : Journal}
    {p : Polled} {v : Value} {pass : JoinPass} (hp : Answers clock s j (.ok p))
    (ha : p.answer = .value v) (hrest : Over clock slots pass) :
    Over clock (⟨some s, latest⟩ :: slots)
      ⟨⟨some p.stream, some v⟩ :: pass.slots, pass.journal, true, true, pass.starved⟩
  | ended {s : Stream} {v : Value} {slots : List (Slot Stream)} {j : Journal} {p : Polled}
    {pass : JoinPass} (hp : Answers clock s j (.ok p)) (ha : p.answer = .ended)
    (hrest : Over clock slots pass) :
    Over clock (⟨some s, some v⟩ :: slots)
      ⟨⟨none, some v⟩ :: pass.slots, pass.journal, pass.updated, true, pass.starved⟩
  | pending {s : Stream} {latest : Option Value} {slots : List (Slot Stream)} {j : Journal}
    {p : Polled} {pass : JoinPass} (hp : Answers clock s j (.ok p)) (ha : p.answer = .pending)
    (hrest : Over clock slots pass) :
    Over clock (⟨some s, latest⟩ :: slots)
      { pass with slots := ⟨some p.stream, latest⟩ :: pass.slots }
  /-- The parts behind it are not polled any more. -/
  | starved {s : Stream} {slots : List (Slot Stream)} {j : Journal} {p : Polled}
    (hp : Answers clock s j (.ok p)) (ha : p.answer = .ended) :
    Over clock (⟨some s, none⟩ :: slots) ⟨⟨none, none⟩ :: slots, p.journal, false, true, true⟩

/-- A pass over parts whose polls have results comes to an end. -/
theorem joinPass_over {clock : Nat} {slots : List (Slot Stream)}
    (h : ∀ a ∈ slots, ∀ s, a.live = some s → ∀ j, ∃ r, Answers clock s j r) (j : Journal) :
    ∃ r, Settles (fun fuel => joinPass (poll clock fuel) slots j) r ∧
      ∀ pass, r = .ok pass → pass.Over clock slots := by
  induction slots generalizing j with
  | nil =>
    refine ⟨_, .lift (.ok _), fun pass hpass => ?_⟩
    cases hpass
    exact .nil j
  | cons a slots ih =>
    obtain ⟨live, latest⟩ := a
    obtain ⟨ha, hothers⟩ := List.forall_mem_cons.1 h
    cases live with
    | none =>
      obtain ⟨r, hr, hpass⟩ := ih hothers j
      refine ⟨_, hr.bind fun pass _ => .lift (.ok _), fun pass hp => ?_⟩
      obtain ⟨rest, hrest, hp⟩ := bind_eq_ok hp
      cases hp
      exact .skipped (hpass rest hrest)
    | some s =>
      obtain ⟨rp, hrp⟩ := ha s rfl j
      cases rp with
      | error f => exact ⟨.error f, hrp.error_bind, nofun⟩
      | ok p =>
        obtain ⟨r, hr, hpass⟩ := ih hothers p.journal
        cases hans : p.answer with
        | value v =>
          refine ⟨_, pass_of_value hrp hr hans, fun pass hp => ?_⟩
          obtain ⟨rest, hrest, hp⟩ := bind_eq_ok hp
          cases hp
          exact .value hrp hans (hpass rest hrest)
        | ended =>
          cases latest with
          | none =>
            refine ⟨_, pass_of_starvation hrp hans, fun pass hp => ?_⟩
            cases hp
            exact .starved hrp hans
          | some v =>
            refine ⟨_, pass_of_ended hrp hr hans, fun pass hp => ?_⟩
            obtain ⟨rest, hrest, hp⟩ := bind_eq_ok hp
            cases hp
            exact .ended hrp hans (hpass rest hrest)
        | pending =>
          refine ⟨_, pass_of_pending hrp hr hans, fun pass hp => ?_⟩
          obtain ⟨rest, hrest, hp⟩ := bind_eq_ok hp
          cases hp
          exact .pending hrp hans (hpass rest hrest)

/-- A pass over parts that converge advances them, since none of them ends without a value. -/
theorem JoinPass.Over.advances {clock : Nat} {ts : List (Eval Value)} {slots : List (Slot Stream)}
    {pass : JoinPass} (h : pass.Over clock slots) (hslots : List.Forall₂ Slot.Converges ts slots) :
    pass.Advances clock ts slots := by
  induction h generalizing ts with
  | nil j =>
    cases hslots
    exact ⟨rfl, .nil, .inl rfl, nofun, nofun, fun _ => rfl, fun _ _ _ hm => nomatch hm⟩
  | skipped _ ih =>
    obtain _ | ⟨ha, hothers⟩ := hslots
    have adv := ih hothers
    exact adv.cons ha (.inl rfl) .inl adv.updated (fun hu => ⟨hu, rfl⟩)
      fun hp => ⟨hp, fun _ hlive => absurd rfl hlive⟩
  | value hp ha _ ih =>
    obtain _ | ⟨hpart, hothers⟩ := hslots
    obtain ⟨ha', hfollows⟩ := Slot.Converges.value hpart hp ha
    exact (ih hothers).cons ha' (.inr hfollows) (fun _ => .inr hfollows) (fun _ => rfl) nofun nofun
  | @ended _ v _ _ _ _ hp ha _ ih =>
    obtain _ | ⟨hpart, hothers⟩ := hslots
    exact (ih hothers).cons (Slot.Converges.ended hpart hp ha) (.inr .ended)
      (fun _ => .inr .ended) (fun _ => rfl) (fun hu => ⟨hu, rfl⟩) nofun
  | @pending s _ _ j p _ hp ha _ ih =>
    obtain _ | ⟨hpart, hothers⟩ := hslots
    obtain ⟨ha', hstep⟩ := Slot.Converges.pending hpart hp ha
    have adv := ih hothers
    refine adv.cons ha' hstep .inl adv.updated (fun hu => ⟨hu, rfl⟩) fun hpending => ⟨hpending, ?_⟩
    exact fun heq _ => ⟨s, j, p, rfl, hp, ha, by simpa using heq⟩
  | starved hp ha =>
    obtain _ | ⟨hpart, _⟩ := hslots
    obtain ⟨v, hv, -⟩ := Slot.Converges.ended hpart hp ha
    cases hv

/-! ## Joins -/

/-- The rounds of a poll of a join. -/
def joinRun (combine : List Value → Eval Value) (slots : List (Slot Stream)) (clock : Nat)
    (j : Journal) (fuel rounds : Nat) : Except Halt Polled :=
  joinRounds (poll clock fuel) combine rounds slots j

section

variable {ts : List (Eval Value)} {slots : List (Slot Stream)} {combine : List Value → Eval Value}
  {clock : Nat} {j : Journal} {r : Eval Polled}

theorem answers_join (h : RoundsSettle (joinRun combine slots clock j) r) :
    Answers clock (.join slots combine) j r :=
  h.diagonal.succ fun _ => rfl

/-- The fault of the first part is the fault of the join, whether or not the others have
values. -/
theorem answers_join_fault {s : Stream} {latest : Option Value} {f : Fault}
    (h : Answers clock s j (.error f)) :
    Answers clock (.join (⟨some s, latest⟩ :: slots) combine) j (.error f) := by
  have hpass : Settles (fun fuel => joinPass (poll clock fuel) (⟨some s, latest⟩ :: slots) j)
      (.error f) := h.error_bind
  exact answers_join (hpass.rounds_error_bind.succ fun _ _ => rfl)

theorem rounds_of_starvation {pass : JoinPass}
    (h : Settles (fun fuel => joinPass (poll clock fuel) slots j) (.ok pass))
    (hstarved : pass.starved = true) :
    RoundsSettle (joinRun combine slots clock j)
      (.ok ⟨.ended, .join [] combine, pass.journal⟩) := by
  refine (h.rounds_ok_bind ?_).succ fun _ _ => rfl
  simp only [hstarved, if_true]
  exact RoundsSettle.lift (.ok _)

section

variable {pass : JoinPass}
  (h : Settles (fun fuel => joinPass (poll clock fuel) slots j) (.ok pass))
  (hfed : pass.starved = false)

include h hfed

theorem rounds_of_emission {vs : List Value} (hupdated : pass.updated = true)
    (hvs : latestValues pass.slots = some vs) :
    RoundsSettle (joinRun combine slots clock j)
      (combine vs >>= fun v => .ok ⟨.value v, .join pass.slots combine, pass.journal⟩) := by
  refine (h.rounds_ok_bind ?_).succ fun _ _ => rfl
  simp only [hfed, hupdated, hvs, Bool.false_eq_true, if_false, if_true]
  cases combine vs with
  | error f => exact RoundsSettle.lift (.error f)
  | ok v => exact RoundsSettle.lift (.ok _)

variable (hnone : (if pass.updated then latestValues pass.slots else none) = none)

include hnone

theorem rounds_of_end (hended : pass.slots.all (·.live.isNone) = true) :
    RoundsSettle (joinRun combine slots clock j)
      (.ok ⟨.ended, .join pass.slots combine, pass.journal⟩) := by
  refine (h.rounds_ok_bind ?_).succ fun _ _ => rfl
  simp only [hfed, hnone, hended, Bool.false_eq_true, if_false, if_true]
  exact RoundsSettle.lift (.ok _)

theorem rounds_of_pending (hended : pass.slots.all (·.live.isNone) = false)
    (hprogressed : pass.progressed = false) :
    RoundsSettle (joinRun combine slots clock j)
      (.ok ⟨.pending, .join pass.slots combine, pass.journal⟩) := by
  refine (h.rounds_ok_bind ?_).succ fun _ _ => rfl
  simp only [hfed, hnone, hended, hprogressed, Bool.false_eq_true, Bool.not_false, if_false,
    if_true]
  exact RoundsSettle.lift (.ok _)

theorem rounds_of_progress (hended : pass.slots.all (·.live.isNone) = false)
    (hprogressed : pass.progressed = true)
    (hr : RoundsSettle (joinRun combine pass.slots clock pass.journal) r) :
    RoundsSettle (joinRun combine slots clock j) r := by
  refine (h.rounds_ok_bind ?_).succ fun _ _ => rfl
  simp only [hfed, hnone, hended, hprogressed, Bool.false_eq_true, Bool.not_true, if_false]
  exact hr

end

/-- Parts that have all ended hold their targets. -/
theorem targets_of_ended (h : List.Forall₂ Slot.Converges ts slots)
    (hended : slots.all (·.live.isNone) = true) :
    ∃ vs, latestValues slots = some vs ∧ ts.mapM id = .ok vs := by
  induction h with
  | nil => exact ⟨[], rfl, rfl⟩
  | @cons t a ts slots ha _ ih =>
    obtain ⟨live, latest⟩ := a
    simp only [List.all_cons, Bool.and_eq_true] at hended
    obtain ⟨vs, hvs, hts⟩ := ih hended.2
    cases live with
    | some s => cases hended.1
    | none =>
      obtain ⟨v, rfl, rfl⟩ : ∃ v, latest = some v ∧ t = .ok v := ha
      exact ⟨v :: vs, by simp [latestValues_cons, hvs], by simp [List.mapM_cons, hts, pure,
        Except.pure]⟩

private theorem exists_target (h : List.Forall₂ Slot.Converges ts slots) :
    ∀ a ∈ slots, ∃ t, Slot.Converges t a := by
  induction h with
  | nil => simp
  | cons ha _ ih => simpa using ⟨⟨_, ha⟩, ih⟩

theorem answers_of_converges (h : List.Forall₂ Slot.Converges ts slots) (clock : Nat) :
    ∀ a ∈ slots, ∀ s, a.live = some s → ∀ j, ∃ r, Answers clock s j r := by
  rintro ⟨live, latest⟩ ha s rfl
  obtain ⟨t, hconverges⟩ := exists_target h _ ha
  exact Stream.Converges.polls hconverges clock

theorem acc_slots (h : List.Forall₂ Slot.Converges ts slots) :
    Acc (SomeStep Slot.Follows) slots :=
  SomeStep.acc fun a ha => by
    obtain ⟨t, hconverges⟩ := exists_target h a ha
    exact hconverges.acc

/-- Parts of which one lasts stay as they are up to a deadline only. -/
theorem exists_deadline (h : List.Forall₂ Slot.Converges ts slots) :
    ∃ deadline, ∀ {clock pass}, JoinPass.Advances clock ts slots pass → pass.progressed = false →
      pass.slots = slots → slots.all (·.live.isNone) = false → clock < deadline := by
  by_cases hended : slots.all (·.live.isNone) = true
  · exact ⟨0, fun _ _ _ hlive => by simp [hended] at hlive⟩
  · obtain ⟨a, ha, hlive⟩ : ∃ a ∈ slots, a.live ≠ none := by simpa using hended
    obtain ⟨t, hconverges⟩ := exists_target h a ha
    obtain ⟨deadline, hdeadline⟩ := hconverges.waits
    exact ⟨deadline, fun hpass hp hslots _ => hdeadline (hpass.waiting hp hslots a ha hlive)⟩

/-- A round of a join of which every step of some parts converges. Where a part has a new value and
all have one, this is a value of the join; else what it has emitted last is still that of the
latest values. -/
private theorem join_round {emitted : Option Value} {pass : JoinPass} {deadline : Nat}
    (hpass : Settles (fun fuel => joinPass (poll clock fuel) slots j) (.ok pass))
    (adv : pass.Advances clock ts slots)
    (hdeadline : pass.progressed = false → pass.slots = slots →
      slots.all (·.live.isNone) = false → clock < deadline)
    (hemitted : ∀ vs, latestValues slots = some vs → ∃ v, emitted = some v ∧ combine vs = .ok v)
    (later : ∀ {emitted'}, SomeStep Slot.Follows pass.slots slots →
      (∀ vs, latestValues pass.slots = some vs → ∃ v, emitted' = some v ∧ combine vs = .ok v) →
      RoundsConverge (ts.mapM id >>= combine) emitted' (.join pass.slots combine)
        (joinRun combine pass.slots)) :
    ∃ r, RoundsSettle (joinRun combine slots clock j) r ∧ ∀ p, r = .ok p →
      Proceeds (ts.mapM id >>= combine) deadline clock emitted (.join slots combine) p := by
  by_cases hall : pass.updated = true ∧ ∃ vs, latestValues pass.slots = some vs
  · obtain ⟨hu, vs, hvs⟩ := hall
    refine ⟨_, rounds_of_emission hpass adv.fed hu hvs, fun p hp => ?_⟩
    obtain ⟨v, hv, hp⟩ := bind_eq_ok hp
    cases hp
    refine ⟨fun ha => ?_, nofun, nofun⟩
    cases ha
    refine (later (adv.progressed (adv.updated hu)) fun vs' hvs' => ?_).converges
    cases hvs.symm.trans hvs'
    exact ⟨v, rfl, hv⟩
  · have hidle : ∀ vs, latestValues pass.slots = some vs → pass.updated = false :=
      fun vs hvs => Bool.eq_false_iff.2 fun hu => hall ⟨hu, vs, hvs⟩
    have hnone : (if pass.updated then latestValues pass.slots else none) = none := by
      cases hvs : latestValues pass.slots with
      | none => simp
      | some vs => simp [hidle vs hvs]
    have hkept : ∀ vs, latestValues pass.slots = some vs →
        ∃ v, emitted = some v ∧ combine vs = .ok v :=
      fun vs hvs => hemitted vs (adv.latest (hidle vs hvs) ▸ hvs)
    cases hended : pass.slots.all (·.live.isNone) with
    | true =>
      refine ⟨_, rounds_of_end hpass adv.fed hnone hended, fun p hp => ?_⟩
      cases hp
      refine ⟨nofun, fun _ => ?_, nofun⟩
      obtain ⟨vs, hvs, hts⟩ := targets_of_ended adv.converges hended
      obtain ⟨v, hv, hcombine⟩ := hkept vs hvs
      exact ⟨v, hv, by rw [hts]; exact hcombine⟩
    | false =>
      cases hprogressed : pass.progressed with
      | true =>
        obtain ⟨r, hr, hproceeds⟩ :=
          (later (adv.progressed hprogressed) hkept).proceeds clock pass.journal
        exact ⟨r, rounds_of_progress hpass adv.fed hnone hended hprogressed hr,
          fun p hp => hproceeds p hp _ _⟩
      | false =>
        refine ⟨_, rounds_of_pending hpass adv.fed hnone hended hprogressed, fun p hp => ?_⟩
        cases hp
        refine ⟨nofun, nofun, fun _ => ?_⟩
        rcases adv.steps with hsame | hsteps
        · rw [hsame] at hended
          exact .inl ⟨by rw [hsame], hdeadline hprogressed hsame hended⟩
        · exact .inr (later hsteps hkept).converges

/-- A join of parts that converge. What it has emitted last is what it makes of the latest values,
as soon as every part has one. -/
theorem converges_join {emitted : Option Value} (h : List.Forall₂ Slot.Converges ts slots)
    (hemitted : ∀ vs, latestValues slots = some vs → ∃ v, emitted = some v ∧ combine vs = .ok v) :
    RoundsConverge (ts.mapM id >>= combine) emitted (.join slots combine)
      (joinRun combine slots) := by
  induction acc_slots h generalizing emitted with
  | intro slots _ ih =>
    obtain ⟨deadline, hdeadline⟩ := exists_deadline h
    refine .of_rounds deadline answers_join fun clock j => ?_
    obtain ⟨rp, hrp, hpass⟩ := joinPass_over (answers_of_converges h clock) j
    cases rp with
    | error f => exact ⟨.error f, hrp.rounds_error_bind.succ fun _ _ => rfl, nofun⟩
    | ok pass =>
      have adv := (hpass pass rfl).advances h
      exact join_round hrp adv (hdeadline adv) hemitted fun hsteps => ih _ hsteps adv.converges

/-- The join of streams that have not been polled. -/
theorem converges_joinAll {streams : List Stream} {s : Stream}
    (h : List.Forall₂ (fun t s => Converges t none s) ts streams)
    (hs : joinAll streams combine = .ok s) : Converges (ts.mapM id >>= combine) none s := by
  cases h with
  | nil =>
    obtain ⟨v, hv, hs⟩ := bind_eq_ok hs
    cases hs
    simpa [List.mapM_nil, pure, Except.pure, hv] using converges_once v
  | @cons t first ts rest hfirst hrest =>
    cases hs
    refine (converges_join ?_ fun vs hvs => ?_).converges
    · refine .cons hfirst ?_
      rw [List.forall₂_map_right_iff]
      exact hrest
    · simp [latestValues] at hvs

end

end Stream

end PolicyExpr
