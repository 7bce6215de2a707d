import PolicyExpr.Proofs.Combination

/-!
# What a poll of a composed stream can do

Every way in which a pass over the parts of a join, a round of a join and a round of a switch can
end, whatever their parts are and however these are polled. Invariants of streams go through these
cases and do not look into the polls again.
-/
namespace PolicyExpr.Stream

variable {poll : Poller} {journal : Journal}

/-! ## Joins -/

/-- How a pass gets over the first of some parts. -/
inductive PassStep (poll : Poller) (slot : Slot Stream) (rest : List (Slot Stream))
    (journal : Journal) : JoinPass → Prop where
  | skipped {others : JoinPass} (hlive : slot.live = none)
    (hothers : joinPass poll rest journal = .ok others) :
    PassStep poll slot rest journal { others with slots := slot :: others.slots }
  | value {s : Stream} {p : Polled} {v : Value} {others : JoinPass} (hlive : slot.live = some s)
    (hp : poll s journal = .ok p) (hv : p.answer = .value v)
    (hothers : joinPass poll rest p.journal = .ok others) :
    PassStep poll slot rest journal
      ⟨⟨some p.stream, some v⟩ :: others.slots, others.journal, true, true, others.starved⟩
  | pending {s : Stream} {p : Polled} {others : JoinPass} (hlive : slot.live = some s)
    (hp : poll s journal = .ok p) (hpending : p.answer = .pending)
    (hothers : joinPass poll rest p.journal = .ok others) :
    PassStep poll slot rest journal
      { others with slots := ⟨some p.stream, slot.latest⟩ :: others.slots }
  | ended {s : Stream} {p : Polled} {others : JoinPass} (hlive : slot.live = some s)
    (hp : poll s journal = .ok p) (hended : p.answer = .ended)
    (hothers : joinPass poll rest p.journal = .ok others) :
    PassStep poll slot rest journal
      ⟨⟨none, slot.latest⟩ :: others.slots, others.journal, others.updated, true, others.starved⟩
  /-- The parts behind it are not polled any more. -/
  | starved {s : Stream} {p : Polled} (hlive : slot.live = some s) (hp : poll s journal = .ok p)
    (hended : p.answer = .ended) (hlatest : slot.latest = none) :
    PassStep poll slot rest journal ⟨⟨none, none⟩ :: rest, p.journal, false, true, true⟩

theorem joinPass_cons {slot : Slot Stream} {rest : List (Slot Stream)} {pass : JoinPass}
    (h : joinPass poll (slot :: rest) journal = .ok pass) :
    PassStep poll slot rest journal pass := by
  rw [joinPass] at h
  split at h
  · next hlive =>
    obtain ⟨others, hothers, h⟩ := bind_eq_ok h
    cases h
    exact .skipped hlive hothers
  · next s hlive =>
    obtain ⟨p, hp, h⟩ := bind_eq_ok h
    split at h
    · next v hv =>
      obtain ⟨others, hothers, h⟩ := bind_eq_ok h
      cases h
      exact .value hlive hp hv hothers
    · next hended =>
      split at h
      · next hlatest =>
        cases h
        exact .starved hlive hp hended (Option.isNone_iff_eq_none.1 hlatest)
      · obtain ⟨others, hothers, h⟩ := bind_eq_ok h
        cases h
        exact .ended hlive hp hended hothers
    · next hpending =>
      obtain ⟨others, hothers, h⟩ := bind_eq_ok h
      cases h
      exact .pending hlive hp hpending hothers

/-- What a join does after a pass. -/
inductive JoinRound (poll : Poller) (combine : List Value → Eval Value) (rounds : Nat)
    (pass : JoinPass) : Polled → Prop where
  | starved (h : pass.starved = true) :
    JoinRound poll combine rounds pass ⟨.ended, .join [] combine, pass.journal⟩
  | emitted {vs : List Value} {v : Value} (hvs : latestValues pass.slots = some vs)
    (hv : combine vs = .ok v) :
    JoinRound poll combine rounds pass ⟨.value v, .join pass.slots combine, pass.journal⟩
  | ended (h : ∀ slot ∈ pass.slots, slot.live = none) :
    JoinRound poll combine rounds pass ⟨.ended, .join pass.slots combine, pass.journal⟩
  | waiting (hlast : ∃ slot ∈ pass.slots, slot.live ≠ none) (hquiet : pass.progressed = false) :
    JoinRound poll combine rounds pass ⟨.pending, .join pass.slots combine, pass.journal⟩
  | again {p : Polled} (h : joinRounds poll combine rounds pass.slots pass.journal = .ok p) :
    JoinRound poll combine rounds pass p

theorem joinRounds_succ {combine : List Value → Eval Value} {rounds : Nat}
    {slots : List (Slot Stream)} {p : Polled}
    (h : joinRounds poll combine (rounds + 1) slots journal = .ok p) :
    ∃ pass, joinPass poll slots journal = .ok pass ∧ JoinRound poll combine rounds pass p := by
  obtain ⟨pass, hpass, h⟩ := bind_eq_ok h
  refine ⟨pass, hpass, ?_⟩
  split at h
  · next hstarved =>
    cases h
    exact .starved hstarved
  · split at h
    · next vs hvs =>
      obtain ⟨v, hv, h⟩ := bind_eq_ok h
      cases h
      have hlatest : latestValues pass.slots = some vs := by
        split at hvs
        · exact hvs
        · cases hvs
      exact .emitted hlatest (Halt.lift_eq_ok hv)
    · split at h
      · next hover =>
        cases h
        exact .ended (by simpa using hover)
      · next hlast =>
        split at h
        · next hquiet =>
          cases h
          exact .waiting (by simpa using hlast) (by simpa using hquiet)
        · exact .again h

/-! ## Switches -/

variable {next : Value → Eval Stream} {outer inner : Option Stream}

/-- What a poll of the outer stream of a switch makes of the switch. -/
inductive OuterStep (poll : Poller) (next : Value → Eval Stream) (outer inner : Option Stream)
    (journal : Journal) : SwitchPass → Prop where
  | gone (houter : outer = none) : OuterStep poll next outer inner journal
      ⟨none, inner, journal, false⟩
  | switched {s : Stream} {p : Polled} {v : Value} {i : Stream} (houter : outer = some s)
    (hp : poll s journal = .ok p) (hv : p.answer = .value v) (hi : next v = .ok i) :
    OuterStep poll next outer inner journal ⟨some p.stream, some i, p.journal, true⟩
  | ended {s : Stream} {p : Polled} (houter : outer = some s) (hp : poll s journal = .ok p)
    (hended : p.answer = .ended) :
    OuterStep poll next outer inner journal ⟨none, inner, p.journal, false⟩
  | pending {s : Stream} {p : Polled} (houter : outer = some s) (hp : poll s journal = .ok p)
    (hpending : p.answer = .pending) :
    OuterStep poll next outer inner journal ⟨some p.stream, inner, p.journal, false⟩

theorem switchOuter_eq_ok {pass : SwitchPass}
    (h : switchOuter poll next outer inner journal = .ok pass) :
    OuterStep poll next outer inner journal pass := by
  cases outer with
  | none =>
    cases h
    exact .gone rfl
  | some s =>
    obtain ⟨p, hp, h⟩ := bind_eq_ok h
    split at h
    · next v hv =>
      obtain ⟨i, hi, h⟩ := bind_eq_ok h
      cases h
      exact .switched rfl hp hv (Halt.lift_eq_ok hi)
    · next hended =>
      cases h
      exact .ended rfl hp hended
    · next hpending =>
      cases h
      exact .pending rfl hp hpending

/-- A switch has no inner stream, or it ended right now. -/
inductive InnerGone (poll : Poller) (pass : SwitchPass) : (after : Journal) → Prop where
  | absent (hinner : pass.inner = none) : InnerGone poll pass pass.journal
  | ended {s : Stream} {q : Polled} (hinner : pass.inner = some s)
    (hq : poll s pass.journal = .ok q) (hended : q.answer = .ended) :
    InnerGone poll pass q.journal

/-- What a switch does after the poll of its outer stream. -/
inductive SwitchRound (poll : Poller) (next : Value → Eval Stream) (rounds : Nat)
    (pass : SwitchPass) : Polled → Prop where
  | emitted {s : Stream} {q : Polled} {v : Value} (hinner : pass.inner = some s)
    (hq : poll s pass.journal = .ok q) (hv : q.answer = .value v) :
    SwitchRound poll next rounds pass
      ⟨.value v, .switch pass.outer (some q.stream) next, q.journal⟩
  | waiting {s : Stream} {q : Polled} (hinner : pass.inner = some s)
    (hq : poll s pass.journal = .ok q) (hpending : q.answer = .pending)
    (hstayed : pass.switched = false) :
    SwitchRound poll next rounds pass
      ⟨.pending, .switch pass.outer (some q.stream) next, q.journal⟩
  | again {s : Stream} {q p : Polled} (hinner : pass.inner = some s)
    (hq : poll s pass.journal = .ok q) (hpending : q.answer = .pending)
    (h : switchRounds poll next rounds pass.outer (some q.stream) q.journal = .ok p) :
    SwitchRound poll next rounds pass p
  /-- Nothing is left of the switch. -/
  | ended {after : Journal} (hgone : InnerGone poll pass after) (houter : pass.outer = none) :
    SwitchRound poll next rounds pass ⟨.ended, .switch none none next, after⟩
  /-- The outer stream alone is left. -/
  | alone {after : Journal} (hgone : InnerGone poll pass after) (houter : pass.outer ≠ none)
    (hstayed : pass.switched = false) :
    SwitchRound poll next rounds pass ⟨.pending, .switch pass.outer none next, after⟩
  | aloneAgain {after : Journal} {p : Polled} (hgone : InnerGone poll pass after)
    (h : switchRounds poll next rounds pass.outer none after = .ok p) :
    SwitchRound poll next rounds pass p

theorem switchRounds_succ {rounds : Nat} {p : Polled}
    (h : switchRounds poll next (rounds + 1) outer inner journal = .ok p) :
    ∃ pass, switchOuter poll next outer inner journal = .ok pass ∧
      SwitchRound poll next rounds pass p := by
  obtain ⟨pass, hpass, h⟩ := bind_eq_ok h
  refine ⟨pass, hpass, ?_⟩
  have empty {after : Journal} (hgone : InnerGone poll pass after)
      (h : (if pass.outer.isNone then .ok ⟨.ended, .switch none none next, after⟩
        else if !pass.switched then .ok ⟨.pending, .switch pass.outer none next, after⟩
        else switchRounds poll next rounds pass.outer none after) = .ok p) :
      SwitchRound poll next rounds pass p := by
    split at h
    · next hnone =>
      cases h
      exact .ended hgone (Option.isNone_iff_eq_none.1 hnone)
    · next hsome =>
      split at h
      · next hstayed =>
        cases h
        exact .alone hgone (by simpa using hsome) (by simpa using hstayed)
      · exact .aloneAgain hgone h
  split at h
  · next hinner => exact empty (.absent hinner) h
  · next s hinner =>
    obtain ⟨q, hq, h⟩ := bind_eq_ok h
    split at h
    · next v hv =>
      cases h
      exact .emitted hinner hq hv
    · next hended => exact empty (.ended hinner hq hended) h
    · next hpending =>
      split at h
      · next hstayed =>
        cases h
        exact .waiting hinner hq hpending (by simpa using hstayed)
      · exact .again hinner hq hpending h

end PolicyExpr.Stream
