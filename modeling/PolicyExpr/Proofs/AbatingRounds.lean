import PolicyExpr.Proofs.Abating
import PolicyExpr.Proofs.LatestJoin
import PolicyExpr.Proofs.LatestSwitch

/-!
# Joins and switches that abate

Joins and switches are polled in rounds, and what goes on for ever at one time is a part that has
no end of answers. A join of parts that abate abates. A switch has a result for every poll if those
values of its outer stream abate from which an inner stream without a value can be made, and it
abates itself if both its streams do, with all their answers.
-/
namespace PolicyExpr

namespace Stream

variable {clock : Nat} {counts : Answer → Prop} {W : Stream → Prop}

/-! ## Streams that are polled in rounds -/

/-- A poll of a stream of a class leaves one of the class, from which there is no endless run if
the answer counts. -/
structure Leaves (clock : Nat) (counts : Answer → Prop) (W : Stream → Prop) (s : Stream)
    (p : Polled) : Prop where
  within : W p.stream
  acc : counts p.answer → (p.answer = .pending → p.stream ≠ s) → Acc (Moves clock counts) p.stream

/-- A stream that is polled in rounds: these come to an end, and from the stream there is no endless
run. -/
structure RoundsAbate (clock : Nat) (counts : Answer → Prop) (W : Stream → Prop) (s : Stream)
    (run : Journal → (fuel rounds : Nat) → Except Halt Polled) : Prop where
  settles : ∀ j, ∃ r, RoundsSettle (run j) r ∧ ∀ p, r = .ok p → W p.stream
  answers : ∀ {j r}, RoundsSettle (run j) r → Answers clock s j r
  acc : Acc (Moves clock counts) s

namespace RoundsAbate

variable {s : Stream} {run : Journal → (fuel rounds : Nat) → Except Halt Polled}

theorem of_rounds (answers : ∀ {j r}, RoundsSettle (run j) r → Answers clock s j r)
    (h : ∀ j, ∃ r, RoundsSettle (run j) r ∧ ∀ p, r = .ok p → Leaves clock counts W s p) :
    RoundsAbate clock counts W s run where
  settles j := by
    obtain ⟨r, hr, hleaves⟩ := h j
    exact ⟨r, hr, fun p hp => (hleaves p hp).within⟩
  answers := answers
  acc := acc_of_answers fun j => by
    obtain ⟨r, hr, hleaves⟩ := h j
    exact ⟨r, answers hr, fun p hp => (hleaves p hp).acc⟩

/-- A round may leave its answer to the rounds of what the stream has become. -/
theorem leaves (h : RoundsAbate clock counts W s run) (j : Journal) :
    ∃ r, RoundsSettle (run j) r ∧ ∀ p, r = .ok p → ∀ before, Leaves clock counts W before p := by
  obtain ⟨r, hr, hwithin⟩ := h.settles j
  refine ⟨r, hr, fun p hp before => ⟨hwithin p hp, fun hcounts _ => ?_⟩⟩
  subst hp
  by_cases hstays : p.answer = .pending ∧ p.stream = s
  · rw [hstays.2]
    exact h.acc
  · exact h.acc.inv ⟨j, p, h.answers hr, rfl, hcounts, fun hpending heq => hstays ⟨hpending, heq⟩⟩

end RoundsAbate

end Stream

/-! ## Joins -/

/-- The stream of a part, while it lasts, is of a class. -/
def Slot.Within (W : Stream → Prop) (a : Slot Stream) : Prop := ∀ s, a.live = some s → W s

namespace Stream

section

variable {clock : Nat} {W : Stream → Prop} {slots : List (Slot Stream)}
  {r : Stream → Stream → Prop} {combine : List Value → Eval Value}

/-- What a pass over parts of a class has done to them. -/
structure JoinPass.Keeps (W : Stream → Prop) (r : Stream → Stream → Prop)
    (slots : List (Slot Stream)) (pass : JoinPass) : Prop where
  within : ∀ a ∈ pass.slots, a.Within W
  steps : pass.slots = slots ∨ SomeStep (Slot.Step r) pass.slots slots
  progressed : pass.progressed = true → SomeStep (Slot.Step r) pass.slots slots
  updated : pass.updated = true → pass.progressed = true

/-- A part in front of a pass. -/
theorem JoinPass.Keeps.cons {pass : JoinPass} {a a' : Slot Stream} {updated progressed : Bool}
    (h : pass.Keeps W r slots) (ha' : a'.Within W) (hstep : a' = a ∨ Slot.Step r a' a)
    (hprogressed : progressed = true → pass.progressed = true ∨ Slot.Step r a' a)
    (hupdated : updated = true → progressed = true) :
    JoinPass.Keeps W r (a :: slots)
      ⟨a' :: pass.slots, pass.journal, updated, progressed, pass.starved⟩ where
  within := List.forall_mem_cons.2 ⟨ha', h.within⟩
  steps := SomeStep.cons hstep h.steps
  progressed hp := by
    rcases hprogressed hp with hpass | hmoved
    · exact SomeStep.cons_tail hstep (h.progressed hpass)
    · exact SomeStep.cons_head hmoved h.steps
  updated := hupdated

/-- A pass over parts that abate keeps them in their class. -/
theorem JoinPass.Over.keeps {pass : JoinPass} (h : pass.Over clock slots)
    (hW : Abating clock Answer.Lasts W) (hslots : ∀ a ∈ slots, a.Within W) :
    pass.Keeps W (Moves clock Answer.Lasts) slots := by
  have live {s : Stream} {latest latest' : Option Value} {j : Journal} {p : Polled}
      (ha : Slot.Within W ⟨some s, latest⟩) (hp : Answers clock s j (.ok p)) :
      Slot.Within W ⟨some p.stream, latest'⟩ := by
    rintro _ ⟨⟩
    exact hW.after (ha s rfl) hp
  induction h with
  | nil j => exact ⟨nofun, .inl rfl, nofun, nofun⟩
  | skipped _ ih =>
    obtain ⟨ha, hothers⟩ := List.forall_mem_cons.1 hslots
    have keeps := ih hothers
    exact keeps.cons ha (.inl rfl) .inl keeps.updated
  | @value s latest _ j p v _ hp hv _ ih =>
    obtain ⟨ha, hothers⟩ := List.forall_mem_cons.1 hslots
    have hlasts : p.answer.Lasts := by simp [hv, Answer.Lasts]
    have hmoved : Slot.Step (Moves clock Answer.Lasts) ⟨some p.stream, some v⟩ ⟨some s, latest⟩ :=
      .live ⟨j, p, hp, rfl, hlasts, by simp [hv]⟩
    exact (ih hothers).cons (live ha hp) (.inr hmoved) (fun _ => .inr hmoved) fun _ => rfl
  | ended _ _ _ ih =>
    obtain ⟨-, hothers⟩ := List.forall_mem_cons.1 hslots
    exact (ih hothers).cons nofun (.inr .ended) (fun _ => .inr .ended) fun _ => rfl
  | @pending s latest _ j p _ hp hpending _ ih =>
    obtain ⟨ha, hothers⟩ := List.forall_mem_cons.1 hslots
    have hlasts : p.answer.Lasts := by simp [hpending, Answer.Lasts]
    have hstep : (⟨some p.stream, latest⟩ : Slot Stream) = ⟨some s, latest⟩ ∨
        Slot.Step (Moves clock Answer.Lasts) ⟨some p.stream, latest⟩ ⟨some s, latest⟩ := by
      by_cases hs : p.stream = s
      · exact .inl (by rw [hs])
      · exact .inr (.live ⟨j, p, hp, rfl, hlasts, fun _ => hs⟩)
    have keeps := ih hothers
    exact keeps.cons (live ha hp) hstep .inl keeps.updated
  | starved _ _ =>
    obtain ⟨-, hothers⟩ := List.forall_mem_cons.1 hslots
    exact ⟨List.forall_mem_cons.2 ⟨nofun, hothers⟩, .inr (.head .ended), fun _ => .head .ended,
      fun _ => rfl⟩

/-- The joins of parts of a class. -/
def Joins (W : Stream → Prop) (combine : List Value → Eval Value) (s : Stream) : Prop :=
  ∃ slots, s = .join slots combine ∧ ∀ a ∈ slots, a.Within W

/-- A round of a join, where every step of some parts leaves a join that abates. -/
theorem join_leaves {pass : JoinPass} {j : Journal}
    (hpass : Settles (fun fuel => joinPass (poll clock fuel) slots j) (.ok pass))
    (keeps : pass.Keeps W (Moves clock Answer.Lasts) slots)
    (later : SomeStep (Slot.Step (Moves clock Answer.Lasts)) pass.slots slots →
      RoundsAbate clock Answer.Lasts (Joins W combine) (.join pass.slots combine)
        (joinRun combine pass.slots clock)) :
    ∃ r, RoundsSettle (joinRun combine slots clock j) r ∧
      ∀ p, r = .ok p → Leaves clock Answer.Lasts (Joins W combine) (.join slots combine) p := by
  have within : Joins W combine (.join pass.slots combine) := ⟨_, rfl, keeps.within⟩
  cases hstarved : pass.starved with
  | true =>
    refine ⟨_, rounds_of_starvation hpass hstarved, ?_⟩
    rintro _ ⟨⟩
    exact ⟨⟨[], rfl, nofun⟩, fun hlasts => absurd rfl hlasts⟩
  | false =>
    cases hlatest : (if pass.updated then latestValues pass.slots else none) with
    | some vs =>
      obtain ⟨hupdated, hvs⟩ : pass.updated = true ∧ latestValues pass.slots = some vs := by
        simpa using hlatest
      refine ⟨_, rounds_of_emission hpass hstarved hupdated hvs, fun p hp => ?_⟩
      obtain ⟨v, -, hp⟩ := bind_eq_ok hp
      cases hp
      exact ⟨within, fun _ _ => (later (keeps.progressed (keeps.updated hupdated))).acc⟩
    | none =>
      cases hended : pass.slots.all (·.live.isNone) with
      | true =>
        refine ⟨_, rounds_of_end hpass hstarved hlatest hended, ?_⟩
        rintro _ ⟨⟩
        exact ⟨within, fun hlasts => absurd rfl hlasts⟩
      | false =>
        cases hprogressed : pass.progressed with
        | true =>
          obtain ⟨r, hr, hleaves⟩ := (later (keeps.progressed hprogressed)).leaves pass.journal
          exact ⟨r, rounds_of_progress hpass hstarved hlatest hended hprogressed hr,
            fun p hp => hleaves p hp _⟩
        | false =>
          refine ⟨_, rounds_of_pending hpass hstarved hlatest hended hprogressed, ?_⟩
          rintro _ ⟨⟩
          refine ⟨within, fun _ hmoved => ?_⟩
          rcases keeps.steps with hsame | hsteps
          · exact absurd (by rw [hsame]) (hmoved rfl)
          · exact (later hsteps).acc

theorem join_abates (hW : Abating clock Answer.Lasts W) (hslots : ∀ a ∈ slots, a.Within W) :
    RoundsAbate clock Answer.Lasts (Joins W combine) (.join slots combine)
      (joinRun combine slots clock) := by
  have hacc : Acc (SomeStep (Slot.Step (Moves clock Answer.Lasts))) slots :=
    SomeStep.acc fun a ha => by
      obtain ⟨live, latest⟩ := a
      cases live with
      | none => exact Slot.acc_ended _ latest
      | some s => exact Slot.acc_live (hW.acc (hslots _ ha s rfl)) latest
  induction hacc with
  | intro slots _ ih =>
    refine .of_rounds answers_join fun j => ?_
    obtain ⟨rp, hrp, hpass⟩ := joinPass_over (fun a ha s hs => hW.polls (hslots a ha s hs)) j
    cases rp with
    | error f => exact ⟨.error f, hrp.rounds_error_bind.succ fun _ _ => rfl, nofun⟩
    | ok pass =>
      have keeps := (hpass pass rfl).keeps hW hslots
      exact join_leaves hrp keeps fun hsteps => ih _ hsteps keeps.within

/-- Joins of parts that abate abate. -/
theorem Abating.join (hW : Abating clock Answer.Lasts W) (combine : List Value → Eval Value) :
    Abating clock Answer.Lasts (Joins W combine) where
  answers := by
    rintro _ ⟨slots, rfl, hslots⟩ j
    have rounds : RoundsAbate clock Answer.Lasts (Joins W combine) (.join slots combine) _ :=
      join_abates hW hslots
    obtain ⟨r, hr, hwithin⟩ := rounds.settles j
    exact ⟨r, rounds.answers hr, hwithin⟩
  acc := by
    rintro _ ⟨slots, rfl, hslots⟩
    exact (join_abates hW hslots).acc

theorem abates_join (h : ∀ a ∈ slots, a.Within (Abates Answer.Lasts)) :
    (Stream.join slots combine).Abates Answer.Lasts :=
  ⟨_, fun clock => (abating_abates clock _).join combine, slots, rfl, h⟩

/-- The join of streams that have not been polled. -/
theorem abates_joinAll {streams : List Stream} {s : Stream}
    (h : ∀ t ∈ streams, t.Abates Answer.Lasts) (hs : joinAll streams combine = .ok s) :
    s.Abates Answer.Lasts := by
  unfold joinAll at hs
  split at hs
  · obtain ⟨v, -, hs⟩ := bind_eq_ok hs
    cases hs
    exact abates_values [v]
  · cases hs
    refine abates_join fun a ha => ?_
    obtain ⟨t, ht, rfl⟩ := List.mem_map.1 ha
    rintro _ ⟨⟩
    exact h t ht

end

/-! ## Switches -/

/-- What the streams and the function of a switch have to do with each other, for it to abate at a
time. -/
structure Switchable (clock : Nat) (passes counts : Answer → Prop) (W V : Stream → Prop)
    (next : Value → Eval Stream) : Prop where
  outer : Abating clock passes W
  inner : Abating clock counts V
  fresh : ∀ {v i}, next v = .ok i → V i
  /-- A value that does not pass is answered at once. -/
  speaks : ∀ {v i}, next v = .ok i → ¬passes (.value v) → ∀ j p, Answers clock i j (.ok p) →
    ∃ w, p.answer = .value w
  /-- Where answers of the switch count, all of its outer stream do. -/
  counted : ∀ {a}, counts a → a.Lasts ∧ ∀ b, b.Lasts → passes b

/-- The switches over streams of two classes. -/
def Switches (W V : Stream → Prop) (next : Value → Eval Stream) (s : Stream) : Prop :=
  ∃ outer inner, s = .switch outer inner next ∧ (∀ o ∈ outer, W o) ∧ ∀ i ∈ inner, V i

section

variable {clock : Nat} {passes counts : Answer → Prop} {W V : Stream → Prop}
  {next : Value → Eval Stream} {outer inner outer' : Option Stream} {j : Journal}

/-- What a poll of the outer stream, where it lasts, has made of a switch. -/
inductive SwitchPass.Keeps (clock : Nat) (passes counts : Answer → Prop) (W : Stream → Prop)
    (next : Value → Eval Stream) (outer inner : Option Stream) : SwitchPass → Prop
  | switched {s v i} {j : Journal} (hs : W s) (hnext : next v = .ok i)
    (hmoved : passes (.value v) → Slot.Step (Moves clock passes) ⟨some s, none⟩ ⟨outer, none⟩) :
    Keeps clock passes counts W next outer inner ⟨some s, some i, j, true⟩
  | stayed {outer' : Option Stream} {j : Journal} (houter : ∀ o ∈ outer', W o)
    (hstep : ∀ {a}, counts a →
      outer' = outer ∨ Slot.Step (Moves clock passes) ⟨outer', none⟩ ⟨outer, none⟩) :
    Keeps clock passes counts W next outer inner ⟨outer', inner, j, false⟩

theorem SwitchPass.Over.keeps {pass : SwitchPass} (hpass : pass.Over clock next inner outer)
    (h : Switchable clock passes counts W V next) (houter : ∀ o ∈ outer, W o) :
    pass.Keeps clock passes counts W next outer inner := by
  cases hpass with
  | gone j => exact .stayed nofun fun _ => .inl rfl
  | @switched s i j p v hp hv hnext =>
    exact .switched (h.outer.after (houter s rfl) hp) hnext fun hpasses =>
      .live ⟨j, p, hp, rfl, by rwa [hv], by simp [hv]⟩
  | ended _ _ => exact .stayed nofun fun _ => .inr .ended
  | @pending s j p hp hpending =>
    refine .stayed (by rintro _ ⟨⟩; exact h.outer.after (houter s rfl) hp) fun ha => ?_
    by_cases hsame : p.stream = s
    · exact .inl (by rw [hsame])
    · have hpasses : passes p.answer := (h.counted ha).2 _ (by simp [hpending, Answer.Lasts])
      exact .inr (.live ⟨j, p, hp, rfl, hpasses, fun _ => hsame⟩)

/-- The rounds of a switch that abates. -/
abbrev SwitchAbates (clock : Nat) (counts : Answer → Prop) (W V : Stream → Prop)
    (next : Value → Eval Stream) (outer inner : Option Stream) : Prop :=
  RoundsAbate clock counts (Switches W V next) (.switch outer inner next)
    (switchRun next outer inner clock)

/-- A round in which the outer stream has had a value. -/
theorem switched_leaves {s i : Stream} {v : Value} {j' : Journal}
    (h : Switchable clock passes counts W V next)
    (hpass : Settles (fun fuel => switchOuter (poll clock fuel) next outer inner j)
      (.ok ⟨some s, some i, j', true⟩))
    (hs : W s) (hnext : next v = .ok i)
    (later : passes (.value v) → ∀ {inner'}, (∀ i ∈ inner', V i) →
      SwitchAbates clock counts W V next (some s) inner') :
    ∃ r, RoundsSettle (switchRun next outer inner clock j) r ∧
      ∀ p, r = .ok p → Leaves clock counts (Switches W V next) (.switch outer inner next) p := by
  have houter : ∀ o ∈ some s, W o := by
    rintro _ ⟨⟩
    exact hs
  obtain ⟨rq, hrq, hafter⟩ := h.inner.answers (h.fresh hnext) j'
  cases rq with
  | error f => exact ⟨.error f, rounds_of_inner_fault hpass hrq, nofun⟩
  | ok q =>
    have hinner : ∀ i ∈ some q.stream, V i := by
      rintro _ ⟨⟩
      exact hafter q rfl
    have passed (hnone : ∀ w, q.answer ≠ .value w) : passes (.value v) := by
      by_contra hnot
      obtain ⟨w, hw⟩ := h.speaks hnext hnot j' q hrq
      exact hnone w hw
    cases hans : q.answer with
    | value w =>
      refine ⟨_, rounds_of_inner_value hpass hrq hans, ?_⟩
      rintro _ ⟨⟩
      refine ⟨⟨_, _, rfl, houter, hinner⟩, fun ha _ => ?_⟩
      exact (later ((h.counted ha).2 _ nofun) hinner).acc
    | pending =>
      have hpasses : passes (.value v) := passed (by simp [hans])
      obtain ⟨r, hr, hleaves⟩ := (later hpasses hinner).leaves q.journal
      exact ⟨r, rounds_of_inner_pending_again hpass hrq hans rfl hr, fun p hp => hleaves p hp _⟩
    | ended =>
      have hpasses : passes (.value v) := passed (by simp [hans])
      have alone : SwitchAbates clock counts W V next (some s) none := later hpasses nofun
      obtain ⟨r, hr, hleaves⟩ := alone.leaves q.journal
      exact ⟨r, rounds_of_inner_ended_again hpass hrq hans rfl rfl hr, fun p hp => hleaves p hp _⟩

/-- A round in which the outer stream has had no value. -/
theorem stayed_leaves {j' : Journal} (h : Switchable clock passes counts W V next)
    (hpass : Settles (fun fuel => switchOuter (poll clock fuel) next outer inner j)
      (.ok ⟨outer', inner, j', false⟩))
    (houter : ∀ o ∈ outer', W o) (hinner : ∀ i ∈ inner, V i)
    (hstep : ∀ {a}, counts a →
      outer' = outer ∨ Slot.Step (Moves clock passes) ⟨outer', none⟩ ⟨outer, none⟩)
    (ihouter : ∀ {inner'}, Slot.Step (Moves clock passes) ⟨outer', none⟩ ⟨outer, none⟩ →
      (∀ i ∈ inner', V i) → SwitchAbates clock counts W V next outer' inner')
    (ihinner : ∀ {inner'}, Slot.Step (Moves clock counts) ⟨inner', none⟩ ⟨inner, none⟩ →
      (∀ i ∈ inner', V i) → SwitchAbates clock counts W V next outer inner') :
    ∃ r, RoundsSettle (switchRun next outer inner clock j) r ∧
      ∀ p, r = .ok p → Leaves clock counts (Switches W V next) (.switch outer inner next) p := by
  have unended {a : Answer} (ha : counts a) (hended : a = .ended) : False := (h.counted ha).1 hended
  have acc {a : Answer} {inner' : Option Stream} (ha : counts a) (hinner' : ∀ i ∈ inner', V i)
      (hchange : inner' = inner ∨ Slot.Step (Moves clock counts) ⟨inner', none⟩ ⟨inner, none⟩)
      (hmoved : (Stream.switch outer' inner' next) ≠ .switch outer inner next) :
      Acc (Moves clock counts) (.switch outer' inner' next) := by
    rcases hstep ha with rfl | hstep
    · rcases hchange with rfl | hchange
      · exact absurd rfl hmoved
      · exact (ihinner hchange hinner').acc
    · exact (ihouter hstep hinner').acc
  cases inner with
  | none =>
    cases outer' with
    | none =>
      refine ⟨_, rounds_of_over hpass, ?_⟩
      rintro _ ⟨⟩
      exact ⟨⟨_, _, rfl, houter, hinner⟩, fun ha => (unended ha rfl).elim⟩
    | some s =>
      refine ⟨_, rounds_of_alone hpass, ?_⟩
      rintro _ ⟨⟩
      exact ⟨⟨_, _, rfl, houter, hinner⟩, fun ha hmoved => acc ha hinner (.inl rfl) (hmoved rfl)⟩
  | some i =>
    obtain ⟨rq, hrq, hafter⟩ := h.inner.answers (hinner i rfl) j'
    cases rq with
    | error f => exact ⟨.error f, rounds_of_inner_fault hpass hrq, nofun⟩
    | ok q =>
      have hinner' : ∀ i ∈ some q.stream, V i := by
        rintro _ ⟨⟩
        exact hafter q rfl
      cases hans : q.answer with
      | value w =>
        refine ⟨_, rounds_of_inner_value hpass hrq hans, ?_⟩
        rintro _ ⟨⟩
        refine ⟨⟨_, _, rfl, houter, hinner'⟩, fun ha _ => ?_⟩
        have hchange : Slot.Step (Moves clock counts) ⟨some q.stream, none⟩ ⟨some i, none⟩ :=
          .live ⟨j', q, hrq, rfl, by rwa [hans], by simp [hans]⟩
        rcases hstep ha with rfl | hstep
        · exact (ihinner hchange hinner').acc
        · exact (ihouter hstep hinner').acc
      | pending =>
        refine ⟨_, rounds_of_inner_pending hpass hrq hans rfl, ?_⟩
        rintro _ ⟨⟩
        refine ⟨⟨_, _, rfl, houter, hinner'⟩, fun ha hmoved => acc ha hinner' ?_ (hmoved rfl)⟩
        by_cases hsame : q.stream = i
        · exact .inl (by rw [hsame])
        · exact .inr (.live ⟨j', q, hrq, rfl, by rwa [hans], fun _ => hsame⟩)
      | ended =>
        cases outer' with
        | none =>
          refine ⟨_, rounds_of_inner_over hpass hrq hans rfl, ?_⟩
          rintro _ ⟨⟩
          exact ⟨⟨_, _, rfl, nofun, nofun⟩, fun ha => (unended ha rfl).elim⟩
        | some s =>
          refine ⟨_, rounds_of_inner_ended hpass hrq hans rfl rfl, ?_⟩
          rintro _ ⟨⟩
          refine ⟨⟨_, _, rfl, houter, nofun⟩, fun ha hmoved => ?_⟩
          exact acc ha nofun (.inr .ended) (hmoved rfl)

theorem switch_abates (h : Switchable clock passes counts W V next)
    (houter : ∀ o ∈ outer, W o) (hinner : ∀ i ∈ inner, V i) :
    SwitchAbates clock counts W V next outer inner := by
  have accOuter : Acc (Slot.Step (Moves clock passes)) ⟨outer, none⟩ := by
    cases outer with
    | none => exact Slot.acc_ended _ _
    | some s => exact Slot.acc_live (h.outer.acc (houter s rfl)) none
  -- A step of the outer stream comes with any inner stream, so the outer induction is over it.
  generalize ha : (⟨outer, none⟩ : Slot Stream) = a at accOuter
  induction accOuter generalizing outer inner with
  | intro a _ ihouter =>
    subst ha
    have accInner : Acc (Slot.Step (Moves clock counts)) ⟨inner, none⟩ := by
      cases inner with
      | none => exact Slot.acc_ended _ _
      | some i => exact Slot.acc_live (h.inner.acc (hinner i rfl)) none
    generalize hb : (⟨inner, none⟩ : Slot Stream) = b at accInner
    induction accInner generalizing inner with
    | intro b _ ihinner =>
      subst hb
      refine .of_rounds answers_switch fun j => ?_
      obtain ⟨rp, hrp, hpass⟩ := switchOuter_over (fun s hs => h.outer.polls (houter s hs)) inner j
      cases rp with
      | error f => exact ⟨.error f, hrp.rounds_error_bind.succ fun _ _ => rfl, nofun⟩
      | ok pass =>
        cases (hpass pass rfl).keeps h houter with
        | @switched s v i j' hs hnext hmoved =>
          refine switched_leaves h hrp hs hnext fun hv _ hinner' => ?_
          exact ihouter _ (hmoved hv) (by rintro _ ⟨⟩; exact hs) hinner' rfl
        | @stayed outer' j' houter' hstep =>
          exact stayed_leaves h hrp houter' hinner hstep
            (fun hstep hinner' => ihouter _ hstep houter' hinner' rfl)
            fun hstep hinner' => ihinner _ hstep hinner' rfl

/-- Switches of this kind abate. -/
theorem Switchable.abating (h : Switchable clock passes counts W V next) :
    Abating clock counts (Switches W V next) where
  answers := by
    rintro _ ⟨outer, inner, rfl, houter, hinner⟩ j
    have rounds := switch_abates h houter hinner
    obtain ⟨r, hr, hwithin⟩ := rounds.settles j
    exact ⟨r, rounds.answers hr, hwithin⟩
  acc := by
    rintro _ ⟨outer, inner, rfl, houter, hinner⟩
    exact (switch_abates h houter hinner).acc

/-- The first poll of a stream, whenever it comes, has a value. -/
def Speaks (s : Stream) : Prop :=
  ∀ clock j p, Answers clock s j (.ok p) → ∃ v, p.answer = .value v

theorem speaks_once (v : Value) : (once v).Speaks := by
  intro clock j p hp
  have heq := (answers_values_cons clock v [] j).unique hp
  cases heq
  exact ⟨v, rfl⟩

/-- A switch that has not been polled. -/
theorem abates_switchOver {outer : Stream} (houter : outer.Abates passes)
    (hfresh : ∀ {v i}, next v = .ok i → i.Abates counts)
    (hspeaks : ∀ {v i}, next v = .ok i → ¬passes (.value v) → i.Speaks)
    (hcounted : ∀ {a}, counts a → a.Lasts ∧ ∀ b, b.Lasts → passes b) :
    (switchOver outer next).Abates counts := by
  refine ⟨Switches (Abates passes) (Abates counts) next, fun clock => ?_, some outer, none, rfl,
    by rintro _ ⟨⟩; exact houter, nofun⟩
  exact Switchable.abating
    { outer := abating_abates clock passes
      inner := abating_abates clock counts
      fresh := hfresh
      speaks := fun hnext hstays => hspeaks hnext hstays clock
      counted := hcounted }

end

/-! ## Streams that respond -/

/-- A stream all of whose polls, whenever they come, have results. -/
def Responds (s : Stream) : Prop := s.Abates fun _ => False

theorem Abates.responds {s : Stream} (h : s.Abates counts) : s.Responds :=
  h.mono fun _ => False.elim

end Stream

end PolicyExpr
