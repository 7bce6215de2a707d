import PolicyExpr.Proofs.JoinRecord

/-!
# What a join does to its parts

A join is run here on parts that keep a record: every poll of a part, the end of every pass over
the parts, and every answer of the join. Without the record this is the join of the library.
`record_of_join` says that the record keeps the law of joins.
-/
namespace PolicyExpr

namespace Joining

open JoinEvent

/-! ## Joins that keep a record -/

/-- Polls the parts that last, in order. -/
def pass (poll : Poller) : (first : Nat) → List (Slot Stream) → Journal →
    Recorded JoinEvent Stream.JoinPass
  | _, [], j => return ⟨[], j, false, false, false⟩
  | i, slot :: rest, j =>
    match slot.live with
    | none => do
      let pass ← pass poll (i + 1) rest j
      return { pass with slots := slot :: pass.slots }
    | some s => do
      let r ← Asking.stream poll (.part i) s j
      match r.answer with
      | .value v =>
        let pass ← pass poll (i + 1) rest r.journal
        return ⟨⟨some r.state, some v⟩ :: pass.slots, pass.journal, true, true, pass.starved⟩
      | .ended =>
        if slot.latest.isNone then return ⟨⟨none, none⟩ :: rest, r.journal, false, true, true⟩
        else
          let pass ← pass poll (i + 1) rest r.journal
          return ⟨⟨none, slot.latest⟩ :: pass.slots, pass.journal, pass.updated, true, pass.starved⟩
      | .pending =>
        let pass ← pass poll (i + 1) rest r.journal
        return { pass with slots := ⟨some r.state, slot.latest⟩ :: pass.slots }

/-- Passes over the parts until there is something to answer. -/
def rounds (poll : Poller) (combine : List Value → Eval Value) :
    (rounds : Nat) → List (Slot Stream) → Journal → Recorded JoinEvent (Reply (List (Slot Stream)))
  | 0, _, _ => .silent (.error .outOfFuel)
  | rounds + 1, slots, j => do
    let pass ← (pass poll 0 slots j).noting fun _ => .passed
    if pass.starved then return ⟨.ended, [], pass.journal⟩
    else
      match if pass.updated then Stream.latestValues pass.slots else none with
      | some vs =>
        let v ← Recorded.silent (Halt.lift (combine vs))
        return ⟨.value v, pass.slots, pass.journal⟩
      | none =>
        if pass.slots.all (·.live.isNone) then return ⟨.ended, pass.slots, pass.journal⟩
        else if !pass.progressed then return ⟨.pending, pass.slots, pass.journal⟩
        else Joining.rounds poll combine rounds pass.slots pass.journal

/-- Polls a join at a time. -/
def ask (combine : List Value → Eval Value) (clock : Nat) :
    (fuel : Nat) → Asking JoinEvent (List (Slot Stream))
  | 0, _, _ => .silent (.error .outOfFuel)
  | fuel + 1, slots, j =>
    (rounds (Stream.poll clock fuel) combine (fuel + 1) slots j).noting fun r => .answered r.answer

/-! ### Without the record -/

theorem pass_shows (poll : Poller) (first : Nat) (slots : List (Slot Stream)) (j : Journal) :
    (pass poll first slots j).Shows id (Stream.joinPass poll slots j) := by
  induction slots generalizing first j with
  | nil => exact .pure _ _
  | cons slot rest ih =>
    obtain ⟨live, latest⟩ := slot
    cases live with
    | none => exact (ih (first + 1) j).bind fun pass => .pure _ _
    | some s =>
      refine (Asking.stream_shows poll (JoinEvent.part first) s j).bind fun r => ?_
      obtain ⟨answer, state, journal⟩ := r
      cases answer with
      | value v => exact (ih (first + 1) journal).bind fun pass => .pure _ _
      | pending => exact (ih (first + 1) journal).bind fun pass => .pure _ _
      | ended =>
        cases latest with
        | none => exact .pure _ _
        | some v => exact (ih (first + 1) journal).bind fun pass => .pure _ _

theorem rounds_shows (poll : Poller) (combine : List Value → Eval Value) (count : Nat)
    (slots : List (Slot Stream)) (j : Journal) :
    (rounds poll combine count slots j).Shows (Reply.polled (.join · combine))
      (Stream.joinRounds poll combine count slots j) := by
  induction count generalizing slots j with
  | zero => exact .silent _ _
  | succ count ih =>
    refine ((pass_shows poll 0 slots j).noting fun _ => .passed).bind fun pass => ?_
    obtain ⟨slots, journal, updated, progressed, starved⟩ := pass
    cases starved with
    | true => exact .pure _ _
    | false =>
      simp only [id, Bool.false_eq_true, if_false]
      cases (if updated then Stream.latestValues slots else none) with
      | some vs =>
        intro record
        simp only
        cases combine vs <;> rfl
      | none =>
        simp only
        split
        · exact .pure _ _
        · split
          · exact .pure _ _
          · exact ih slots journal

theorem ask_shows (combine : List Value → Eval Value) (clock fuel : Nat) :
    (ask combine clock fuel).Shows (.join · combine) (Stream.poll clock fuel) := by
  intro slots j
  cases fuel with
  | zero => exact .silent _ _
  | succ fuel => exact (rounds_shows _ combine (fuel + 1) slots j).noting _

/-! ### Parts and their record -/

/-- What a part has to do with the record. -/
structure Heard (i : Nat) (slot : Slot Stream) (record : List JoinEvent) : Prop where
  latest : slot.latest = JoinEvent.latest i record
  live : slot.live = none ↔ part i .ended ∈ record
  /-- A part that has ended had a value. -/
  fed : slot.live = none → 0 < pulls i record

/-- What parts, counted from a first one on, have to do with the record. -/
def Agree (first : Nat) (slots : List (Slot Stream)) (record : List JoinEvent) : Prop :=
  ∀ p ∈ slots.zipIdx first, Heard p.2 p.1 record

variable {i first n count : Nat} {slot : Slot Stream} {slots rest : List (Slot Stream)}
  {a : Answer} {v : Value} {record new past : List JoinEvent} {s : Stream} {latest : Option Value}
  {vs : List Value}

namespace Heard

theorem initial (i : Nat) (s : Stream) : Heard i ⟨some s, none⟩ [] := ⟨rfl, by simp, nofun⟩

theorem value (h : Heard i ⟨some s, latest⟩ record) (v : Value) (s' : Stream) :
    Heard i ⟨some s', some v⟩ (part i (.value v) :: record) :=
  ⟨by simp, by simpa using h.live, nofun⟩

theorem pending (h : Heard i ⟨some s, latest⟩ record) (s' : Stream) :
    Heard i ⟨some s', latest⟩ (part i .pending :: record) :=
  ⟨by simpa using h.latest, by simpa using h.live, nofun⟩

theorem ended (h : Heard i ⟨some s, some v⟩ record) :
    Heard i ⟨none, some v⟩ (part i .ended :: record) := by
  refine ⟨by simpa using h.latest, by simp, fun _ => Nat.pos_of_ne_zero fun hzero => ?_⟩
  exact nomatch h.latest.trans (latest_eq_none_iff.2 (by simpa using hzero))

theorem passed (h : Heard i slot record) : Heard i slot (.passed :: record) :=
  ⟨h.latest, by simpa using h.live, h.fed⟩

theorem answered (h : Heard i slot record) (a : Answer) : Heard i slot (.answered a :: record) :=
  ⟨h.latest, by simpa using h.live, h.fed⟩

/-- Polls of other parts make no difference. -/
theorem append (h : Heard i slot record) (hnone : pulls i new = 0) (hlive : part i .ended ∉ new) :
    Heard i slot (new ++ record) where
  latest := by rw [latest_append hnone, h.latest]
  live := by simpa [hlive] using h.live
  fed hended := by simpa [hnone] using h.fed hended

end Heard

namespace Agree

theorem cons_iff : Agree first (slot :: rest) record ↔
    Heard first slot record ∧ Agree (first + 1) rest record := by
  simp [Agree, List.zipIdx_cons]

theorem initial (first : Nat) (streams : List Stream) :
    Agree first (streams.map fun s => ⟨some s, none⟩) [] := by
  induction streams generalizing first with
  | nil => simp [Agree]
  | cons s rest ih => exact cons_iff.2 ⟨.initial first s, ih (first + 1)⟩

theorem passed (h : Agree first slots record) : Agree first slots (.passed :: record) :=
  fun p hp => (h p hp).passed

theorem answered (h : Agree first slots record) (a : Answer) :
    Agree first slots (.answered a :: record) := fun p hp => (h p hp).answered a

/-- The poll of a part in front of them. -/
theorem part (h : Agree first slots record) (hi : i < first) (a : Answer) :
    Agree first slots (.part i a :: record) := by
  intro p hp
  have : i ≠ p.2 := by
    have := (List.mem_zipIdx hp).1
    omega
  have apart : pulls p.2 [.part i a] = 0 := pulls_of_ne this
  exact (h p hp).append apart (by simp [this.symm])

/-- The last values of all parts. -/
theorem map_latest (h : Agree 0 slots record) :
    slots.map Slot.latest = (List.range slots.length).map (JoinEvent.latest · record) := by
  calc slots.map Slot.latest = (slots.zipIdx.map Prod.fst).map Slot.latest := by
        rw [List.zipIdx_map_fst]
    _ = (slots.zipIdx.map Prod.snd).map (JoinEvent.latest · record) := by
        simp only [List.map_map]
        exact List.map_congr_left fun p hp => (h p hp).latest
    _ = _ := by rw [List.zipIdx_map_snd, ← List.range_eq_range']

/-- All parts have ended when nothing is left of them. -/
theorem all_ended (h : Agree 0 slots record) :
    slots.all (·.live.isNone) = true ↔ ∀ i < slots.length, JoinEvent.part i .ended ∈ record := by
  simp only [List.all_eq_true, Option.isNone_iff_eq_none]
  refine ⟨fun hall i hi => ?_, fun hall slot hslot => ?_⟩
  · have hp : (slots[i], i) ∈ slots.zipIdx := by
      simp [List.mem_zipIdx_iff_getElem?]
    exact (h _ hp).live.1 (hall _ (List.getElem_mem hi))
  · obtain ⟨i, hi, rfl⟩ := List.getElem_of_mem hslot
    have hp : (slots[i], i) ∈ slots.zipIdx := by
      simp [List.mem_zipIdx_iff_getElem?]
    exact (h _ hp).live.2 (hall i hi)

/-- Parts that have ended had a value. -/
theorem not_starved (h : Agree 0 slots record) : ¬Starved slots.length record := by
  rintro ⟨i, hi, hended, hnone⟩
  have hp : (slots[i], i) ∈ slots.zipIdx := by
    simp [List.mem_zipIdx_iff_getElem?]
  exact absurd hnone (Nat.pos_iff_ne_zero.1 ((h _ hp).fed ((h _ hp).live.2 hended)))

end Agree

/-! ### The polls of a pass -/

variable {combine : List Value → Eval Value} {updated progressed : Bool} {journal : Journal}
  {pass : Stream.JoinPass}

/-- The parts from a first one on are still to be polled in a pass. -/
structure Ready (n : Nat) (combine : List Value → Eval Value) (first : Nat)
    (slots : List (Slot Stream)) (record : List JoinEvent) : Prop where
  lawful : Recorded.Lawful (MayFollow n combine) record
  count : first + slots.length = n
  agree : Agree first slots record
  settled : Emitted record → ∀ i, first ≤ i → pulls i (recent record) = 0
  undue : record.head? = some passed → AllPulled n record → Emitted record

/-- The parts from a first one on were polled, with new events. -/
structure Done (n : Nat) (combine : List Value → Eval Value) (first count : Nat)
    (new : List JoinEvent) (pass : Stream.JoinPass) (record : List JoinEvent) : Prop where
  lawful : Recorded.Lawful (MayFollow n combine) record
  parts : Parts first new
  once : ∀ i, pulls i new ≤ 1
  undue : record.head? = some passed → AllPulled n record → Emitted record
  starved : pass.starved = true → Starved n record
  count : pass.starved = false → pass.slots.length = count
  agree : pass.starved = false → Agree first pass.slots record
  quiet : pass.starved = false → pass.updated = false → ∀ i, pulls i new = 0
  updated : pass.starved = false → pass.updated = true →
    ∃ i < n, pulls i new = 1 ∧ part i .ended ∉ record

namespace Ready

theorem law (h : Ready n combine first slots record) : Law n combine record :=
  ⟨h.lawful, fun hhead hemitted hall => absurd (h.undue hhead hall) hemitted⟩

theorem skip (h : Ready n combine first (slot :: rest) record) :
    Ready n combine (first + 1) rest record where
  lawful := h.lawful
  count := by simpa [Nat.add_assoc, Nat.add_comm] using h.count
  agree := (Agree.cons_iff.1 h.agree).2
  settled hemitted i hi := h.settled hemitted i (Nat.le_of_succ_le hi)
  undue := h.undue

theorem heard (h : Ready n combine first (slot :: rest) record) : Heard first slot record :=
  (Agree.cons_iff.1 h.agree).1

theorem first_lt (h : Ready n combine first (slot :: rest) record) : first < n := by
  have := h.count
  simp only [List.length_cons] at this
  omega

/-- A part that lasts may be polled. -/
theorem mayFollow (h : Ready n combine first (⟨some s, latest⟩ :: rest) record) (a : Answer) :
    MayFollow n combine record (.part first a) where
  joined := nofun
  first hemitted := ⟨nofun, fun ⟨hhead, hall⟩ => absurd (h.undue hhead hall) hemitted⟩
  grows := nofun
  kept := by
    rintro _ v ⟨⟩ hemitted
    exact h.settled hemitted first (Nat.le_refl first)
  known := by
    rintro _ _ ⟨⟩
    exact h.first_lt
  live := by
    rintro _ _ ⟨⟩ hended
    exact nomatch h.heard.live.2 hended
  ending := nofun
  starving := nofun
  ended := nofun

theorem poll (h : Ready n combine first (⟨some s, latest⟩ :: rest) record) (a : Answer) :
    Ready n combine (first + 1) rest (.part first a :: record) where
  lawful := Recorded.lawful_cons.2 ⟨h.mayFollow a, h.lawful⟩
  count := h.skip.count
  agree := h.skip.agree.part (Nat.lt_succ_self first) a
  settled hemitted i hi := by
    have hemitted : Emitted record := by simpa [emitted_cons, emits] using hemitted
    rw [recent_cons rfl, pulls_of_ne (by omega)]
    exact h.skip.settled hemitted i hi
  undue := nofun

end Ready

namespace Done

theorem nil (h : Ready n combine first [] record) :
    Done n combine first 0 [] ⟨[], journal, false, false, false⟩ record where
  lawful := h.lawful
  parts := .nil
  once _ := Nat.zero_le 1
  undue := h.undue
  starved := nofun
  count _ := rfl
  agree _ := h.agree
  quiet _ _ _ := rfl
  updated := nofun

/-- A part that has ended, before the others. -/
theorem skip (h : Done n combine (first + 1) count new pass (new ++ past))
    (hslot : Heard first slot past) :
    Done n combine first (count + 1) new { pass with slots := slot :: pass.slots }
      (new ++ past) where
  lawful := h.lawful
  parts := h.parts.weaken
  once := h.once
  undue := h.undue
  starved := h.starved
  count hfed := by simpa using h.count hfed
  agree hfed := Agree.cons_iff.2 ⟨hslot.append (h.parts.pulls_eq_zero (Nat.lt_succ_self _))
    (h.parts.not_mem_part (Nat.lt_succ_self _) _), h.agree hfed⟩
  quiet := h.quiet
  updated := h.updated

/-- A part that was polled, before the others. -/
theorem poll (h : Done n combine (first + 1) count new pass (new ++ .part first a :: past))
    (hfirst : first < n) (hslot : Heard first slot (.part first a :: past))
    (hquiet : updated = false → pass.updated = false ∧ ∀ v, a ≠ .value v)
    (hupdated : updated = true → pass.updated = true ∨ slot.live ≠ none ∧ ∃ v, a = .value v) :
    Done n combine first (count + 1) (new ++ [.part first a])
      ⟨slot :: pass.slots, journal, updated, progressed, pass.starved⟩
      (new ++ .part first a :: past) where
  lawful := h.lawful
  parts := h.parts.cons a
  once i := by
    by_cases hi : i = first
    · subst hi
      rw [pulls_append, h.parts.pulls_eq_zero (Nat.lt_succ_self i), Nat.zero_add]
      cases a <;> simp
    · rw [pulls_append, pulls_of_ne (Ne.symm hi)]
      exact h.once i
  undue := h.undue
  starved := h.starved
  count hfed := by simpa using h.count hfed
  agree hfed := Agree.cons_iff.2 ⟨hslot.append (h.parts.pulls_eq_zero (Nat.lt_succ_self _))
    (h.parts.not_mem_part (Nat.lt_succ_self _) _), h.agree hfed⟩
  quiet hfed hupdated i := by
    obtain ⟨hquiet, ha⟩ := hquiet hupdated
    rw [pulls_append, h.quiet hfed hquiet i]
    cases a with
    | value v => exact absurd rfl (ha v)
    | ended => simp
    | pending => simp
  updated hfed hu := by
    rcases hupdated hu with hu | ⟨hlive, v, rfl⟩
    · obtain ⟨i, hi, hpulls, hended⟩ := h.updated hfed hu
      refine ⟨i, hi, ?_, hended⟩
      have : first ≠ i := by
        rintro rfl
        rw [h.parts.pulls_eq_zero (Nat.lt_succ_self _)] at hpulls
        cases hpulls
      rw [pulls_append, hpulls, pulls_of_ne this, pulls_nil]
    · refine ⟨first, hfirst, ?_, fun hended => hlive ?_⟩
      · simp [h.parts.pulls_eq_zero (Nat.lt_succ_self _)]
      · exact hslot.live.2 (by
          simpa [h.parts.not_mem_part (Nat.lt_succ_self _) Answer.ended] using hended)

/-- A part that ends without ever having had a value, before the others, which are not polled. -/
theorem starving (h : Ready n combine first (⟨some s, none⟩ :: rest) past) :
    Done n combine first (count + 1) [.part first .ended]
      ⟨⟨none, none⟩ :: rest, journal, false, true, true⟩ (.part first .ended :: past) where
  lawful := (h.poll .ended).lawful
  parts := Parts.nil.cons .ended
  once i := by simp
  undue := nofun
  starved _ := by
    refine ⟨first, h.first_lt, by simp, ?_⟩
    simpa using latest_eq_none_iff.1 h.heard.latest.symm
  count := nofun
  agree := nofun
  quiet := nofun
  updated := nofun

end Done

/-- A pass polls every part that lasts once, up to one that starves. -/
theorem pass_ensures (poll : Poller) (first : Nat) (slots : List (Slot Stream)) (j : Journal)
    (past : List JoinEvent) (h : Ready n combine first slots past) :
    Recorded.Ensures (· = past) (Joining.pass poll first slots j)
      (fun pass record => ∃ new, record = new ++ past ∧
        Done n combine first slots.length new pass record)
      (Law n combine) := by
  induction slots generalizing first j past with
  | nil =>
    refine .pure ?_
    rintro _ rfl
    exact ⟨[], rfl, .nil h⟩
  | cons slot rest ih =>
    obtain ⟨live, latest⟩ := slot
    cases live with
    | none =>
      refine (ih (first + 1) j past h.skip).bind fun pass => .pure ?_
      rintro _ ⟨new, rfl, done⟩
      exact ⟨new, rfl, done.skip h.heard⟩
    | some s =>
      -- The poll of the first part, and the pass over the others.
      refine Recorded.Ensures.bind (Q := fun r record => record = .part first r.answer :: past)
        (Asking.stream_ensures ?_ ?_) fun r => ?_
      · rintro r _ rfl
        rfl
      · rintro _ rfl
        exact h.law
      obtain ⟨answer, state, journal⟩ := r
      have others := ih (first + 1) journal (.part first answer :: past) (h.poll answer)
      have heard := h.heard
      cases answer with
      | value v =>
        refine others.bind fun pass => .pure ?_
        rintro _ ⟨new, rfl, done⟩
        exact ⟨new ++ [.part first (.value v)], by simp, done.poll h.first_lt (heard.value v state)
          (by simp) fun _ => .inr ⟨nofun, v, rfl⟩⟩
      | pending =>
        refine others.bind fun pass => .pure ?_
        rintro _ ⟨new, rfl, done⟩
        exact ⟨new ++ [.part first .pending], by simp, done.poll h.first_lt (heard.pending state)
          (fun hu => ⟨hu, nofun⟩) .inl⟩
      | ended =>
        cases latest with
        | some v =>
          refine others.bind fun pass => .pure ?_
          rintro _ ⟨new, rfl, done⟩
          exact ⟨new ++ [.part first .ended], by simp, done.poll h.first_lt heard.ended
            (fun hu => ⟨hu, nofun⟩) .inl⟩
        | none =>
          refine .pure ?_
          rintro _ rfl
          exact ⟨[.part first .ended], rfl, .starving h⟩

/-! ### Passes and answers -/

/-- The values that a join holds, when each of its parts has one. -/
theorem latestValues_eq_some :
    Stream.latestValues slots = some vs ↔ slots.map Slot.latest = vs.map some := by
  induction slots generalizing vs with
  | nil => cases vs <;> simp [Stream.latestValues]
  | cons slot rest ih =>
    obtain ⟨live, latest⟩ := slot
    have ih : ∀ {vs}, rest.mapM Slot.latest = some vs ↔ rest.map Slot.latest = vs.map some := ih
    cases latest with
    | none => cases vs <;> simp [Stream.latestValues, List.mapM_cons]
    | some v =>
      cases vs with
      | nil => simp [Stream.latestValues, List.mapM_cons, Option.bind_eq_some_iff]
      | cons w vs =>
        simp only [Stream.latestValues, List.mapM_cons, bind, Option.bind_some,
          Option.bind_eq_some_iff, ih, pure, Option.some.injEq, List.cons.injEq, List.map_cons]
        exact ⟨by rintro ⟨_, h, rfl, rfl⟩; exact ⟨rfl, h⟩, fun ⟨hv, h⟩ => ⟨vs, h, hv, rfl⟩⟩

theorem Agree.latestValues_iff (h : Agree 0 slots record) :
    Stream.latestValues slots = some vs ↔ Holds slots.length record vs := by
  rw [latestValues_eq_some, h.map_latest, Holds]

/-- A join whose parts may still bring something. -/
structure Going (n : Nat) (combine : List Value → Eval Value) (slots : List (Slot Stream))
    (record : List JoinEvent) : Prop where
  lawful : Recorded.Lawful (MayFollow n combine) record
  count : slots.length = n
  agree : Agree 0 slots record
  emitted : Emitted record ↔ AllPulled n record
  settled : Emitted record → ∀ i, pulls i (recent record) = 0
  ended : answered .ended ∈ record → ∀ i < n, part i .ended ∈ record

/-- A join one of whose parts has ended without a value. -/
structure Starving (n : Nat) (combine : List Value → Eval Value) (slots : List (Slot Stream))
    (record : List JoinEvent) : Prop where
  lawful : Recorded.Lawful (MayFollow n combine) record
  slots : slots = []
  starved : Starved n record
  unemitted : ¬Emitted record

/-- A join that answers, or has answered, a poll. -/
def Rests (n : Nat) (combine : List Value → Eval Value) (slots : List (Slot Stream))
    (record : List JoinEvent) : Prop :=
  Going n combine slots record ∨ Starving n combine slots record

theorem Rests.law (h : Rests n combine slots record) : Law n combine record := by
  rcases h with h | h
  · exact ⟨h.lawful, fun _ hemitted hall => absurd (h.emitted.2 hall) hemitted⟩
  · obtain ⟨i, hi, -, hnone⟩ := h.starved
    exact ⟨h.lawful, fun _ _ hall => absurd hnone (Nat.ne_of_gt (hall i hi))⟩

theorem Going.ready (h : Going n combine slots record) : Ready n combine 0 slots record where
  lawful := h.lawful
  count := by simpa using h.count
  agree := h.agree
  settled hemitted i _ := h.settled hemitted i
  undue _ := h.emitted.2

theorem not_starved_of_allPulled (h : AllPulled n record) : ¬Starved n record :=
  fun ⟨i, hi, _, hnone⟩ => absurd hnone (Nat.ne_of_gt (h i hi))

/-- The end of a pass. -/
theorem Done.lawful_passed {first : Nat} (h : Done n combine first count new pass record) :
    Recorded.Lawful (MayFollow n combine) (passed :: record) :=
  Recorded.lawful_cons.2 ⟨⟨nofun, fun hemitted => ⟨nofun, fun ⟨hhead, hall⟩ =>
    absurd (h.undue hhead hall) hemitted⟩, nofun, nofun, nofun, nofun, nofun, nofun, nofun⟩,
    h.lawful⟩

/-- An answer that is no value. -/
theorem mayFollow_answered (ha : (answered a).emits = false)
    (hall : AllPulled n record → Emitted record) (hover : a = .ended ↔ Over n record)
    (hstarved : Starved n record → ¬Emitted record)
    (hended : answered .ended ∈ record → a = .ended) : MayFollow n combine record (answered a) where
  joined := by
    rintro v ⟨⟩
    cases ha
  first hemitted := by simpa [ha] using fun _ h => hemitted (hall h)
  grows hemits := nomatch ha.symm.trans hemits
  kept := nofun
  known := nofun
  live := nofun
  ending := by
    rintro _ ⟨⟩
    exact hover
  starving := by
    rintro _ ⟨⟩
    exact hstarved
  ended := by
    rintro _ ⟨⟩
    exact hended

/-- The answer of a join that starves. -/
theorem Starving.answered (hlawful : Recorded.Lawful (MayFollow n combine) record)
    (hstarved : Starved n record) (hemitted : ¬Emitted record) :
    Starving n combine [] (.answered .ended :: record) where
  lawful := Recorded.lawful_cons.2 ⟨mayFollow_answered rfl
    (fun hall => absurd hstarved (not_starved_of_allPulled hall))
    (by simp [Over, hstarved]) (fun _ => hemitted) fun _ => rfl, hlawful⟩
  slots := rfl
  starved := by
    obtain ⟨i, hi, hended, hnone⟩ := hstarved
    exact ⟨i, hi, by simpa using hended, hnone⟩
  unemitted := by simpa [emitted_cons, emits] using hemitted

/-- Nothing is left to be polled of a join that starves. -/
theorem Starving.again (h : Starving n combine slots record) :
    Starving n combine [] (.answered .ended :: .passed :: record) := by
  have hall := fun hall => not_starved_of_allPulled hall h.starved
  refine .answered (Recorded.lawful_cons.2 ⟨⟨nofun, fun _ => ⟨nofun, fun h => absurd h.2 hall⟩,
    nofun, nofun, nofun, nofun, nofun, nofun, nofun⟩, h.lawful⟩) ?_ ?_
  · obtain ⟨i, hi, hended, hnone⟩ := h.starved
    exact ⟨i, hi, by simpa using hended, hnone⟩
  · simpa [emitted_cons, emits] using h.unemitted

namespace Going

theorem over_iff (h : Going n combine slots record) :
    Over n record ↔ slots.all (·.live.isNone) = true := by
  obtain rfl := h.count
  rw [Over, h.agree.all_ended]
  exact or_iff_left h.agree.not_starved

/-- An answer that is no value. -/
theorem answered (h : Going n combine slots record) (ha : (JoinEvent.answered a).emits = false)
    (hover : a = .ended ↔ Over n record) : Going n combine slots (.answered a :: record) where
  lawful := Recorded.lawful_cons.2 ⟨mayFollow_answered ha h.emitted.2 hover
    (fun hstarved hemitted => not_starved_of_allPulled (h.emitted.1 hemitted) hstarved)
    fun hended => hover.2 (.inl (h.ended hended)), h.lawful⟩
  count := h.count
  agree := h.agree.answered a
  emitted := by
    rw [emitted_cons, ha]
    simpa using h.emitted
  settled hemitted i := by
    have hemitted : Emitted record := by simpa [emitted_cons, ha] using hemitted
    rw [recent_cons ha, pulls_answered]
    exact h.settled hemitted i
  ended hended i hi := by
    refine List.mem_cons_of_mem _ ?_
    rcases List.mem_cons.1 hended with heq | hended
    · cases heq
      exact ((hover.1 rfl).resolve_right fun hstarved => by
        obtain rfl := h.count
        exact h.agree.not_starved hstarved) i hi
    · exact h.ended hended i hi

end Going

/-- A pass in which a part turned out to starve. -/
theorem Going.starving (h : Going n combine slots past)
    (hdone : Done n combine 0 slots.length new pass (new ++ past))
    (hstarved : pass.starved = true) :
    Starving n combine [] (.answered .ended :: .passed :: (new ++ past)) := by
  have starved := hdone.starved hstarved
  refine .answered hdone.lawful_passed ?_ fun hemitted => ?_
  · obtain ⟨i, hi, hended, hnone⟩ := starved
    exact ⟨i, hi, List.mem_cons_of_mem _ hended, hnone⟩
  · have hemitted : Emitted past := by
      simpa [emitted_cons, emits, hdone.parts.emitted_append] using hemitted
    exact not_starved_of_allPulled (h.emitted.1 hemitted).append starved

section

variable (h : Going n combine slots past) (hdone : Done n combine 0 slots.length new pass
  (new ++ past)) (hfed : pass.starved = false)

include h hdone hfed

/-- Nothing is lost of the values of a pass. -/
theorem Going.quiet (hquiet : pass.updated = true → Stream.latestValues pass.slots = none)
    (hall : AllPulled n (new ++ past)) (i : Nat) : pulls i new = 0 := by
  refine hdone.quiet hfed (Bool.eq_false_iff.2 fun hupdated => ?_) i
  obtain ⟨vs, hvs⟩ := allPulled_iff.1 hall
  obtain rfl := h.count
  have := (hdone.agree hfed).latestValues_iff.2 (hdone.count hfed ▸ hvs)
  exact nomatch this.symm.trans (hquiet hupdated)

/-- A pass after which nothing is to be emitted. -/
theorem Going.passed (hquiet : pass.updated = true → Stream.latestValues pass.slots = none) :
    Going n combine pass.slots (.passed :: (new ++ past)) where
  lawful := hdone.lawful_passed
  count := (hdone.count hfed).trans h.count
  agree := (hdone.agree hfed).passed
  emitted := by
    have quiet := h.quiet hdone hfed hquiet
    rw [emitted_cons, hdone.parts.emitted_append, h.emitted, allPulled_passed]
    simp only [emits, Bool.false_eq_true, false_or]
    refine ⟨.append, fun hall i hi => ?_⟩
    simpa [quiet hall i] using hall i hi
  settled hemitted i := by
    have hemitted : Emitted past := by
      simpa [emitted_cons, emits, hdone.parts.emitted_append] using hemitted
    have quiet := h.quiet hdone hfed hquiet (h.emitted.1 hemitted).append i
    rw [recent_cons rfl, hdone.parts.recent_append]
    simp [quiet, h.settled hemitted i]
  ended hended i hi := by
    have hended : JoinEvent.answered .ended ∈ past := by
      simpa [hdone.parts.not_mem_answered Answer.ended] using hended
    simp [h.ended hended i hi]

/-- The values that a join holds after a pass. -/
theorem Going.holds (hlatest : Stream.latestValues pass.slots = some vs) :
    Holds n (.passed :: (new ++ past)) vs := by
  obtain rfl := h.count
  exact hdone.count hfed ▸ (hdone.agree hfed).latestValues_iff.1 hlatest

/-- A value may be emitted after a pass that brought one, when each part has one. -/
theorem Going.mayFollow_emission (hupdated : pass.updated = true)
    (hlatest : Stream.latestValues pass.slots = some vs) (hv : combine vs = .ok v) :
    MayFollow n combine (.passed :: (new ++ past)) (.answered (.value v)) := by
  have holds := h.holds hdone hfed hlatest
  have all : AllPulled n (.passed :: (new ++ past)) := allPulled_iff.2 ⟨vs, holds⟩
  obtain ⟨i, hi, hpulls, hlive⟩ := hdone.updated hfed hupdated
  refine ⟨?_, ?_, fun _ hemitted => ?_, nofun, nofun, nofun, ?_, ?_, ?_⟩
  · rintro _ ⟨⟩
    exact ⟨vs, holds, hv⟩
  · simp [emits, all]
  · -- Between two emissions lies the one pass that brought the later one.
    have hemitted : Emitted past := by
      simpa [emitted_cons, emits, hdone.parts.emitted_append] using hemitted
    have hrecent (k : Nat) : pulls k (recent (.passed :: (new ++ past))) = pulls k new := by
      rw [recent_cons rfl, hdone.parts.recent_append]
      simp [h.settled hemitted k]
    exact ⟨fun k => hrecent k ▸ hdone.once k, i, hi, hrecent i ▸ hpulls⟩
  · rintro _ ⟨⟩
    refine ⟨nofun, fun hover => absurd hover (not_or.2 ⟨fun hended => hlive ?_, ?_⟩)⟩
    · simpa using hended i hi
    · exact not_starved_of_allPulled all
  · rintro _ ⟨⟩ hstarved
    exact absurd hstarved (not_starved_of_allPulled all)
  · rintro _ ⟨⟩ hended
    have hended : JoinEvent.answered .ended ∈ past := by
      simpa [hdone.parts.not_mem_answered Answer.ended] using hended
    exact absurd (List.mem_append_right _ (h.ended hended i hi)) hlive

/-- A pass after which a value is emitted. -/
theorem Going.emission (hupdated : pass.updated = true)
    (hlatest : Stream.latestValues pass.slots = some vs) (hv : combine vs = .ok v) :
    Going n combine pass.slots (.answered (.value v) :: .passed :: (new ++ past)) where
  lawful := Recorded.lawful_cons.2
    ⟨h.mayFollow_emission hdone hfed hupdated hlatest hv, hdone.lawful_passed⟩
  count := (hdone.count hfed).trans h.count
  agree := (hdone.agree hfed).passed.answered _
  emitted := by
    have all := allPulled_iff.2 ⟨vs, h.holds hdone hfed hlatest⟩
    simpa [emitted_cons, emits] using all
  settled _ i := by simp [recent_emission]
  ended hended k hk := by
    have hended : JoinEvent.answered .ended ∈ past := by
      simpa [hdone.parts.not_mem_answered Answer.ended] using hended
    simp [h.ended hended k hk]

/-- A pass after which the values cannot be joined. -/
theorem Going.law_of_error (hlatest : Stream.latestValues pass.slots = some vs) {f : Fault}
    (hf : combine vs = .error f) : Law n combine (.passed :: (new ++ past)) :=
  ⟨hdone.lawful_passed, fun _ _ _ => ⟨vs, f, h.holds hdone hfed hlatest, hf⟩⟩

end

/-! ### The law -/

/-- A pass over the parts of a join that goes on, written down. -/
theorem Going.pass_ensures (h : Going n combine slots past) (poll : Poller) (j : Journal) :
    Recorded.Ensures (· = past) ((Joining.pass poll 0 slots j).noting fun _ => .passed)
      (fun pass record => ∃ new, record = .passed :: (new ++ past) ∧
        Done n combine 0 slots.length new pass (new ++ past)) (Law n combine) := by
  refine Recorded.Ensures.noting ((Joining.pass_ensures poll 0 slots j past h.ready).imp ?_)
  rintro pass _ ⟨new, rfl, done⟩
  exact ⟨new, rfl, done⟩

/-- What a join answers after a pass that brought nothing to emit, unless it goes on `again`. -/
theorem Going.rest_ensures (h : Going n combine slots record) (progressed : Bool) (j : Journal)
    {again : Recorded JoinEvent (Reply (List (Slot Stream)))}
    (hagain : Recorded.Ensures (Rests n combine slots) again
      (fun r record => Rests n combine r.state (.answered r.answer :: record)) (Law n combine)) :
    Recorded.Ensures (· = record)
      (if slots.all (·.live.isNone) then return ⟨.ended, slots, j⟩
        else if !progressed then return ⟨.pending, slots, j⟩ else again)
      (fun r record => Rests n combine r.state (.answered r.answer :: record))
      (Law n combine) := by
  cases hended : slots.all (·.live.isNone) with
  | true =>
    refine .pure ?_
    rintro _ rfl
    exact .inl (h.answered rfl (by simp [h.over_iff, hended]))
  | false =>
    cases progressed with
    | false =>
      refine .pure ?_
      rintro _ rfl
      exact .inl (h.answered rfl (by simp [h.over_iff, hended]))
    | true =>
      exact hagain.following (.inl h)

theorem rounds_ensures (poll : Poller) (count : Nat) (slots : List (Slot Stream)) (j : Journal) :
    Recorded.Ensures (Rests n combine slots) (rounds poll combine count slots j)
      (fun r record => Rests n combine r.state (.answered r.answer :: record))
      (Law n combine) := by
  induction count generalizing slots j with
  | zero => exact .silent nofun fun _ h => h.law
  | succ count ih =>
    refine .of_each fun past h => ?_
    rcases h with going | starving
    · refine (going.pass_ensures poll j).bind fun pass => .of_each ?_
      rintro _ ⟨new, rfl, done⟩
      cases hstarved : pass.starved with
      | true =>
        refine .pure ?_
        rintro _ rfl
        exact .inr (going.starving done hstarved)
      | false =>
        simp only [Bool.false_eq_true, if_false]
        cases hvalues : (if pass.updated then Stream.latestValues pass.slots else none) with
        | some vs =>
          obtain ⟨hupdated, hlatest⟩ : pass.updated = true ∧
              Stream.latestValues pass.slots = some vs := by
            simpa using hvalues
          simp only
          cases hv : combine vs with
          | error f =>
            rintro _ rfl
            exact going.law_of_error done hstarved hlatest hv
          | ok v =>
            rintro _ rfl
            exact .inl (going.emission done hstarved hupdated hlatest hv)
        | none =>
          have going := going.passed done hstarved fun hupdated => by simpa [hupdated] using hvalues
          exact going.rest_ensures pass.progressed pass.journal (ih pass.slots pass.journal)
    · obtain rfl := starving.slots
      rintro _ rfl
      exact .inr starving.again

theorem ask_ensures (clock fuel : Nat) (slots : List (Slot Stream)) (j : Journal) :
    Recorded.Ensures (Rests n combine slots) (ask combine clock fuel slots j)
      (fun r => Rests n combine r.state) (Law n combine) := by
  cases fuel with
  | zero => exact .silent nofun fun _ h => h.law
  | succ fuel => exact (rounds_ensures _ (fuel + 1) slots j).noting

/-! ### The answers -/

theorem pass_tells (poll : Poller) (first : Nat) (slots : List (Slot Stream)) (j : Journal)
    (told : List Answer) :
    Recorded.Ensures (Asking.Told answered? told) (Joining.pass poll first slots j)
      (fun _ => Asking.Told answered? told) (Asking.Told answered? told) := by
  induction slots generalizing first j with
  | nil => exact .pure fun _ h => h
  | cons slot rest ih =>
    have others := ih (first + 1)
    obtain ⟨live, latest⟩ := slot
    cases live with
    | none => exact (others j).bind fun pass => .pure fun _ h => h
    | some s =>
      refine (Asking.stream_ensures (Q := fun _ => Asking.Told answered? told)
        (fun r _ h => Asking.Told.cons h rfl) fun _ h => h).bind fun r => ?_
      obtain ⟨answer, state, journal⟩ := r
      cases answer with
      | value v => exact (others journal).bind fun pass => .pure fun _ h => h
      | pending => exact (others journal).bind fun pass => .pure fun _ h => h
      | ended =>
        cases latest with
        | some v => exact (others journal).bind fun pass => .pure fun _ h => h
        | none => exact .pure fun _ h => h

theorem rounds_tells (poll : Poller) (count : Nat) (slots : List (Slot Stream)) (j : Journal)
    (told : List Answer) :
    Recorded.Ensures (Asking.Told answered? told) (rounds poll combine count slots j)
      (fun _ => Asking.Told answered? told) (Asking.Told answered? told) := by
  induction count generalizing slots j with
  | zero => exact .silent nofun fun _ h => h
  | succ count ih =>
    refine (Recorded.Ensures.noting (Q := fun _ => Asking.Told answered? told)
      (pass_tells poll 0 slots j told)).bind fun pass => ?_
    split
    · exact .pure fun _ h => h
    · split
      · exact Recorded.Ensures.bind (Q := fun _ => Asking.Told answered? told)
          (.silent (fun _ _ _ h => h) fun _ h => h) fun v => .pure fun _ h => h
      · split
        · exact .pure fun _ h => h
        · split
          · exact .pure fun _ h => h
          · exact ih pass.slots pass.journal

theorem ask_tells (combine : List Value → Eval Value) (clock fuel : Nat) :
    (ask combine clock fuel).Tells answered? := by
  intro slots j told
  cases fuel with
  | zero => exact .silent nofun fun _ h => h
  | succ fuel =>
    exact Recorded.Ensures.noting ((rounds_tells _ (fuel + 1) slots j told).imp
      fun _ _ h => Asking.Told.answer h rfl)

/-! ### Within larger records -/

theorem ask_stream_oblivious {ε : Type} (poll : Poller) (event : Answer → ε) (s : Stream)
    (j : Journal) : (Asking.stream poll event s j).Oblivious :=
  ((Recorded.Oblivious.silent (poll s j)).noting _).bind fun _ => .pure _

theorem pass_oblivious (poll : Poller) (first : Nat) (slots : List (Slot Stream)) (j : Journal) :
    (Joining.pass poll first slots j).Oblivious := by
  induction slots generalizing first j with
  | nil => exact .pure _
  | cons slot rest ih =>
    have others := ih (first + 1)
    obtain ⟨live, latest⟩ := slot
    cases live with
    | none => exact (others j).bind fun pass => .pure _
    | some s =>
      refine (ask_stream_oblivious poll (part first) s j).bind fun r => ?_
      obtain ⟨answer, state, journal⟩ := r
      cases answer with
      | value v => exact (others journal).bind fun pass => .pure _
      | pending => exact (others journal).bind fun pass => .pure _
      | ended =>
        cases latest with
        | some v => exact (others journal).bind fun pass => .pure _
        | none => exact .pure _

theorem rounds_oblivious (poll : Poller) (count : Nat) (slots : List (Slot Stream))
    (j : Journal) : (rounds poll combine count slots j).Oblivious := by
  induction count generalizing slots j with
  | zero => exact .silent _
  | succ count ih =>
    refine ((pass_oblivious poll 0 slots j).noting fun _ => .passed).bind fun pass => ?_
    split
    · exact .pure _
    · split
      · exact (Recorded.Oblivious.silent _).bind fun v => .pure _
      · split
        · exact .pure _
        · split
          · exact .pure _
          · exact ih pass.slots pass.journal

theorem ask_oblivious (combine : List Value → Eval Value) (clock fuel : Nat)
    (slots : List (Slot Stream)) (j : Journal) : (ask combine clock fuel slots j).Oblivious := by
  cases fuel with
  | zero => exact .silent _
  | succ fuel => exact (rounds_oblivious _ (fuel + 1) slots j).noting _

/-- A poll of a join adds its answer, after events that are no answers. -/
theorem ask_answers (combine : List Value → Eval Value) (clock fuel : Nat)
    (slots : List (Slot Stream)) (j : Journal) (past : List JoinEvent) :
    Recorded.Ensures (· = past) (ask combine clock fuel slots j)
      (fun r record => ∃ new, record = answered r.answer :: (new ++ past) ∧
        new.filterMap answered? = [])
      (fun record => ∃ new, record = new ++ past ∧ new.filterMap answered? = []) := by
  cases fuel with
  | zero => exact .silent nofun fun _ h => ⟨[], h, rfl⟩
  | succ fuel =>
    refine Recorded.Ensures.noting ?_
    rintro _ rfl
    have tells : Recorded.Ensures (Asking.Told answered? [])
        (rounds (Stream.poll clock fuel) combine (fuel + 1) slots j) _ _ :=
      rounds_tells _ _ slots j []
    have told := tells [] (Asking.told_nil _)
    rw [rounds_oblivious]
    rcases h : rounds (Stream.poll clock fuel) combine (fuel + 1) slots j [] with ⟨halt | r, new⟩
    · rw [h] at told
      exact ⟨new, rfl, told⟩
    · rw [h] at told
      exact ⟨new, rfl, told⟩

/-! ### Fuel -/

/-- A pass that cannot poll anything finds no value. -/
theorem updated_of_joinPass {poll : Poller} (h : ∀ s j, poll s j = .error .outOfFuel)
    {slots : List (Slot Stream)} {j : Journal} {pass : Stream.JoinPass}
    (hpass : Stream.joinPass poll slots j = .ok pass) : pass.updated = false := by
  induction slots generalizing j pass with
  | nil =>
    cases hpass
    rfl
  | cons slot rest ih =>
    obtain ⟨live, latest⟩ := slot
    cases live with
    | none =>
      obtain ⟨others, hothers, hpass⟩ := bind_eq_ok hpass
      have quiet : others.updated = false := ih hothers
      cases hpass
      exact quiet
    | some s => simp [Stream.joinPass, h] at hpass

/-- A join has a value only where there is fuel for it and for its parts. -/
theorem two_le_of_value {combine : List Value → Eval Value} {clock fuel : Nat}
    {slots : List (Slot Stream)} {j : Journal} {p : Polled} {v : Value}
    (hp : Stream.poll clock fuel (.join slots combine) j = .ok p) (hv : p.answer = .value v) :
    2 ≤ fuel := by
  match fuel with
  | 0 => cases hp
  | 1 =>
    obtain ⟨pass, hpass, hp⟩ := bind_eq_ok (show Stream.joinRounds _ _ 1 _ _ = _ from hp)
    have hupdated : pass.updated = false := updated_of_joinPass (fun _ _ => rfl) hpass
    simp only [hupdated, Bool.false_eq_true, if_false] at hp
    -- Without a value a pass is followed by the end, by waiting or by another round.
    split at hp
    · cases hp
      cases hv
    · split at hp
      · cases hp
        cases hv
      · split at hp
        · cases hp
          cases hv
        · cases hp
  | fuel + 2 => exact Nat.le_add_left 2 fuel

/-- A join that has not been polled. -/
theorem going_initial (s : Stream) (streams : List Stream) :
    Going (streams.length + 1) combine ((s :: streams).map fun s => ⟨some s, none⟩) [] where
  lawful := Recorded.lawful_nil _
  count := by simp
  agree := .initial 0 (s :: streams)
  emitted := ⟨by simp [Emitted], fun hall => absurd (hall 0 (Nat.succ_pos _)) (by simp)⟩
  settled _ _ := rfl
  ended := by simp

end Joining

/-- The law of joins. A run of polls, written down, is a run of polls of the join, its answers
are those in the record, and the record keeps the law. -/
theorem Stream.record_of_join (s : Stream) (streams : List Stream)
    (combine : List Value → Eval Value) (schedule : List (Nat × Nat)) (j : Journal) :
    let run := Asking.each (Joining.ask combine) schedule
      ((s :: streams).map fun s => ⟨some s, none⟩) j []
    run.1.map (fun c => { c with state := Stream.join c.state combine }) =
        (Halt.lift (Stream.joinAll (s :: streams) combine) >>= (·.pollEach schedule j)) ∧
      (∀ course, run.1 = .ok course →
        run.2.reverse.filterMap JoinEvent.answered? = course.answers) ∧
      JoinEvent.Law (streams.length + 1) combine run.2 :=
  ⟨Asking.each_shows (Joining.ask_shows combine) schedule _ j [],
    fun _ h => ((Asking.each_tells (Joining.ask_tells combine) schedule _ j).result
      (Asking.told_nil _) h).reverse,
    ((Asking.each_ensures Joining.ask_ensures schedule _ j).imp fun _ _ h => h.law).record
      (show Joining.Rests _ _ _ _ from .inl (Joining.going_initial s streams))⟩

end PolicyExpr
