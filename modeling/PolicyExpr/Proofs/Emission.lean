import PolicyExpr.Proofs.Joining
import PolicyExpr.Proofs.Journaling
import PolicyExpr.Proofs.Polling

/-!
# What streams emit

A property of the values that a stream emits is followed through its composition: each function in
it takes values with one property to values with another, and the sources supply values with the
first of all. Only the values that were really taken from sources count. The parts of a join may have
a property each.
-/
namespace PolicyExpr

/-- Every value that was taken from a source has `S`. -/
def Journal.Supplies (S : Value → Prop) (journal : Journal) : Prop :=
  ∀ n v, .polled n (.value v) ∈ journal → S v

namespace Stream

variable {S Q : Value → Prop}

theorem supplies_of_suffix {before after : Journal} (h : after.Supplies S)
    (hsuffix : before <:+ after) : before.Supplies S :=
  fun n v hmem => h n v (hsuffix.mem hmem)

/-- The stream emits only values with `Q`, as long as sources supply values with `S`. -/
inductive Yields (S : Value → Prop) : (Q : Value → Prop) → Stream → Prop where
  | values {Q : Value → Prop} {vs : List Value} (h : ∀ v ∈ vs, Q v) : Yields S Q (.values vs)
  | unopened {Q : Value → Prop} {broker : AttributeBroker} {invocation : AttributeInvocation}
    (h : ∀ v, S v → Q v) : Yields S Q (.unopened broker invocation)
  | opened {Q : Value → Prop} {n : Nat} {source : Source} {cursor : Nat} (h : ∀ v, S v → Q v) :
    Yields S Q (.opened n source cursor)
  | map {Q P : Value → Prop} {f : Value → Value} {inner : Stream} (hf : ∀ v, P v → Q (f v))
    (h : Yields S P inner) : Yields S Q (.map f inner)
  | head {Q : Value → Prop} {inner : Option Stream} (h : ∀ s, inner = some s → Yields S Q s) :
    Yields S Q (.head inner)
  | join {Q P : Value → Prop} {slots : List (Slot Stream)} {combine : List Value → Eval Value}
    (hlatest : ∀ slot ∈ slots, ∀ v, slot.latest = some v → P v)
    (hlive : ∀ slot ∈ slots, ∀ s, slot.live = some s → Yields S P s)
    (hcombine : ∀ vs v, (∀ w ∈ vs, P w) → combine vs = .ok v → Q v) :
    Yields S Q (.join slots combine)
  | switch {Q P : Value → Prop} {outer inner : Option Stream} {next : Value → Eval Stream}
    (houter : ∀ s, outer = some s → Yields S P s) (hinner : ∀ s, inner = some s → Yields S Q s)
    (hnext : ∀ v s, P v → next v = .ok s → Yields S Q s) : Yields S Q (.switch outer inner next)

/-- Whatever a poll answers has `Q`, and so has what the stream that it leaves will emit. -/
structure Yielded (S Q : Value → Prop) (p : Polled) : Prop where
  rest : p.stream.Yields S Q
  value : ∀ v, p.answer = .value v → Q v

/-- Polls keep to what streams yield. -/
structure Keeping (S : Value → Prop) (poll : Poller) : Prop where
  appends : ∀ s, Appends Polled.put (poll s)
  answers : ∀ {Q : Value → Prop} {s : Stream} {journal : Journal} {p : Polled}, s.Yields S Q →
    poll s journal = .ok p → p.journal.Supplies S → Yielded S Q p

theorem Keeping.suffix {poll : Poller} (hpoll : Keeping S poll) {s : Stream} {journal : Journal}
    {p : Polled} (h : poll s journal = .ok p) : journal <:+ p.journal := by
  obtain ⟨_, new, rfl, -⟩ := (hpoll.appends s).result h
  exact ⟨new, rfl⟩

/-! ### Joins -/

/-- Parts of a join that yield values with a property for each part. -/
def SlotsYield (S : Value → Prop) (Ps : List (Value → Prop)) (slots : List (Slot Stream)) : Prop :=
  List.Forall₂ (fun P slot => (∀ v, slot.latest = some v → P v) ∧
    ∀ s, slot.live = some s → s.Yields S P) Ps slots

/-- Values with a property each. -/
abbrev Satisfy (Ps : List (Value → Prop)) (vs : List Value) : Prop :=
  List.Forall₂ (fun P v => P v) Ps vs

theorem SlotsYield.latest {Ps : List (Value → Prop)} {slots : List (Slot Stream)} {vs : List Value}
    (h : SlotsYield S Ps slots) (hvs : latestValues slots = some vs) : Satisfy Ps vs := by
  have hlatest := Joining.latestValues_eq_some.1 hvs
  clear hvs
  induction h generalizing vs with
  | nil =>
    cases List.map_eq_nil_iff.1 hlatest.symm
    exact .nil
  | cons hslot _ ih =>
    cases vs with
    | nil => cases hlatest
    | cons v vs =>
      obtain ⟨hv, hrest⟩ := List.cons.inj hlatest
      exact .cons (hslot.1 v hv) (ih hrest)

private theorem forall_of_replicate {α β : Type} {R : α → β → Prop} {a : α} {n : Nat} {bs : List β}
    (h : List.Forall₂ R (List.replicate n a) bs) : ∀ b ∈ bs, R a b := by
  induction n generalizing bs with
  | zero =>
    cases h
    exact nofun
  | succ n ih =>
    cases h with
    | cons hb hrest => exact List.forall_mem_cons.2 ⟨hb, ih hrest⟩

private theorem replicate_of_forall {α β : Type} {R : α → β → Prop} {a : α} {bs : List β}
    (h : ∀ b ∈ bs, R a b) : List.Forall₂ R (List.replicate bs.length a) bs := by
  induction bs with
  | nil => exact .nil
  | cons b bs ih =>
    obtain ⟨hb, hrest⟩ := List.forall_mem_cons.1 h
    exact .cons hb (ih hrest)

section

variable {poll : Poller} (hpoll : Keeping S poll)

include hpoll

theorem suffix_of_joinPass {slots : List (Slot Stream)} {journal : Journal} {pass : JoinPass}
    (h : joinPass poll slots journal = .ok pass) : journal <:+ pass.journal := by
  obtain ⟨_, new, rfl, -⟩ := (joinPass_appends hpoll.appends slots).result h
  exact ⟨new, rfl⟩

theorem suffix_of_joinRounds {combine : List Value → Eval Value} {rounds : Nat}
    {slots : List (Slot Stream)} {journal : Journal} {p : Polled}
    (h : joinRounds poll combine rounds slots journal = .ok p) : journal <:+ p.journal := by
  obtain ⟨_, new, rfl, -⟩ := (joinRounds_appends hpoll.appends combine rounds slots).result h
  exact ⟨new, rfl⟩

theorem slotsYield_joinPass {Ps : List (Value → Prop)} {slots : List (Slot Stream)}
    {journal : Journal} {pass : JoinPass} (hslots : SlotsYield S Ps slots)
    (h : joinPass poll slots journal = .ok pass) (hsupply : pass.journal.Supplies S) :
    SlotsYield S Ps pass.slots := by
  induction hslots generalizing journal pass with
  | nil =>
    cases h
    exact .nil
  | @cons P slot Ps rest hslot hrest ih =>
    obtain ⟨hlatest, hlive⟩ := hslot
    -- What was polled behind a part was polled after it.
    have polled {s : Stream} {p : Polled} {others : JoinPass} (hs : slot.live = some s)
        (hp : poll s journal = .ok p) (hothers : joinPass poll rest p.journal = .ok others)
        (hsupply : others.journal.Supplies S) : Yielded S P p ∧ SlotsYield S Ps others.slots := by
      have hsuffix := suffix_of_joinPass hpoll hothers
      exact ⟨hpoll.answers (hlive s hs) hp (supplies_of_suffix hsupply hsuffix),
        ih hothers hsupply⟩
    cases joinPass_cons h with
    | skipped hnone hothers => exact .cons ⟨hlatest, hlive⟩ (ih hothers hsupply)
    | value hs hp hv hothers =>
      obtain ⟨hyielded, hslots⟩ := polled hs hp hothers hsupply
      refine .cons ⟨?_, ?_⟩ hslots
      · rintro _ ⟨⟩
        exact hyielded.value _ hv
      · rintro _ ⟨⟩
        exact hyielded.rest
    | pending hs hp hpending hothers =>
      obtain ⟨hyielded, hslots⟩ := polled hs hp hothers hsupply
      refine .cons ⟨hlatest, ?_⟩ hslots
      rintro _ ⟨⟩
      exact hyielded.rest
    | ended hs hp hended hothers =>
      exact .cons ⟨hlatest, nofun⟩ (polled hs hp hothers hsupply).2
    | starved hs hp hended hnone => exact .cons ⟨nofun, nofun⟩ hrest

/-- What a poll of a join answers, and the join that it leaves, which may be one without parts. -/
structure JoinYielded (S : Value → Prop) (Ps : List (Value → Prop))
    (combine : List Value → Eval Value) (p : Polled) : Prop where
  rest : ∃ slots, p.stream = .join slots combine ∧ (slots = [] ∨ SlotsYield S Ps slots)
  value : ∀ v, p.answer = .value v → ∃ vs, Satisfy Ps vs ∧ combine vs = .ok v

theorem joinYielded_joinRounds {Ps : List (Value → Prop)} {combine : List Value → Eval Value}
    {rounds : Nat} {slots : List (Slot Stream)} {journal : Journal} {p : Polled}
    (hslots : SlotsYield S Ps slots)
    (h : joinRounds poll combine rounds slots journal = .ok p) (hsupply : p.journal.Supplies S) :
    JoinYielded S Ps combine p := by
  induction rounds generalizing slots journal with
  | zero => cases h
  | succ rounds ih =>
    obtain ⟨pass, hpass, hround⟩ := joinRounds_succ h
    have hslots : pass.journal.Supplies S → SlotsYield S Ps pass.slots :=
      slotsYield_joinPass hpoll hslots hpass
    cases hround with
    | starved hstarved => exact ⟨⟨[], rfl, .inl rfl⟩, nofun⟩
    | @emitted vs v hvs hv =>
      refine ⟨⟨_, rfl, .inr (hslots hsupply)⟩, ?_⟩
      rintro _ ⟨⟩
      exact ⟨vs, (hslots hsupply).latest hvs, hv⟩
    | ended hover => exact ⟨⟨_, rfl, .inr (hslots hsupply)⟩, nofun⟩
    | waiting hlast hquiet => exact ⟨⟨_, rfl, .inr (hslots hsupply)⟩, nofun⟩
    | again h =>
      have hsuffix := suffix_of_joinRounds hpoll h
      exact ih (hslots (supplies_of_suffix hsupply hsuffix)) h

/-! ### Switches -/

theorem yields_switchOuter {P : Value → Prop} {next : Value → Eval Stream}
    (hnext : ∀ v s, P v → next v = .ok s → s.Yields S Q) {outer inner : Option Stream}
    {journal : Journal} {pass : SwitchPass} (houter : ∀ s, outer = some s → s.Yields S P)
    (hinner : ∀ s, inner = some s → s.Yields S Q)
    (h : switchOuter poll next outer inner journal = .ok pass)
    (hsupply : pass.journal.Supplies S) :
    (∀ s, pass.outer = some s → s.Yields S P) ∧ ∀ s, pass.inner = some s → s.Yields S Q := by
  cases switchOuter_eq_ok h with
  | gone hnone => exact ⟨nofun, hinner⟩
  | switched hs hp hv hi =>
    have hyielded := hpoll.answers (houter _ hs) hp hsupply
    refine ⟨?_, ?_⟩
    · rintro _ ⟨⟩
      exact hyielded.rest
    · rintro _ ⟨⟩
      exact hnext _ _ (hyielded.value _ hv) hi
  | ended hs hp hended => exact ⟨nofun, hinner⟩
  | pending hs hp hpending =>
    refine ⟨?_, hinner⟩
    rintro _ ⟨⟩
    exact (hpoll.answers (houter _ hs) hp hsupply).rest

theorem suffix_of_switchRounds {next : Value → Eval Stream} {rounds : Nat}
    {outer inner : Option Stream} {journal : Journal} {p : Polled}
    (h : switchRounds poll next rounds outer inner journal = .ok p) : journal <:+ p.journal := by
  obtain ⟨_, new, rfl, -⟩ := (switchRounds_appends hpoll.appends next rounds outer inner).result h
  exact ⟨new, rfl⟩

theorem answers_switchRounds {P : Value → Prop} {next : Value → Eval Stream}
    (hnext : ∀ v s, P v → next v = .ok s → s.Yields S Q) {rounds : Nat}
    {outer inner : Option Stream} {journal : Journal} {p : Polled}
    (houter : ∀ s, outer = some s → s.Yields S P) (hinner : ∀ s, inner = some s → s.Yields S Q)
    (h : switchRounds poll next rounds outer inner journal = .ok p)
    (hsupply : p.journal.Supplies S) : Yielded S Q p := by
  induction rounds generalizing outer inner journal with
  | zero => cases h
  | succ rounds ih =>
    obtain ⟨pass, hpass, hround⟩ := switchRounds_succ h
    have parts := yields_switchOuter hpoll hnext houter hinner hpass
    have none_yields : ∀ s, (none : Option Stream) = some s → s.Yields S Q := nofun
    -- The outer stream, once what the inner one has pulled since is supplied.
    have alone {after : Journal} (hgone : InnerGone poll pass after)
        (hsupply : after.Supplies S) : ∀ s, pass.outer = some s → s.Yields S P := by
      cases hgone with
      | absent hnone => exact (parts hsupply).1
      | ended hs hq hended =>
        exact (parts (supplies_of_suffix hsupply (hpoll.suffix hq))).1
    have polled {s : Stream} {q : Polled} (hs : pass.inner = some s)
        (hq : poll s pass.journal = .ok q) (hsupply : q.journal.Supplies S) :
        (∀ s, pass.outer = some s → s.Yields S P) ∧ Yielded S Q q := by
      have hparts := parts (supplies_of_suffix hsupply (hpoll.suffix hq))
      exact ⟨hparts.1, hpoll.answers (hparts.2 s hs) hq hsupply⟩
    cases hround with
    | emitted hs hq hv =>
      obtain ⟨houter, hyielded⟩ := polled hs hq hsupply
      refine ⟨.switch houter ?_ hnext, ?_⟩
      · rintro _ ⟨⟩
        exact hyielded.rest
      · rintro _ ⟨⟩
        exact hyielded.value _ hv
    | waiting hs hq hpending hstayed =>
      obtain ⟨houter, hyielded⟩ := polled hs hq hsupply
      refine ⟨.switch houter ?_ hnext, nofun⟩
      rintro _ ⟨⟩
      exact hyielded.rest
    | again hs hq hpending h =>
      have hsuffix := suffix_of_switchRounds hpoll h
      obtain ⟨houter, hyielded⟩ := polled hs hq (supplies_of_suffix hsupply hsuffix)
      refine ih houter ?_ h
      rintro _ ⟨⟩
      exact hyielded.rest
    | ended hgone hnone => exact ⟨.switch (P := P) nofun none_yields hnext, nofun⟩
    | alone hgone hsome hstayed =>
      exact ⟨.switch (alone hgone hsupply) none_yields hnext, nofun⟩
    | aloneAgain hgone h =>
      have hsuffix := suffix_of_switchRounds hpoll h
      exact ih (alone hgone (supplies_of_suffix hsupply hsuffix)) none_yields h

end

/-! ### All streams -/

/-- A poll of a source takes a value from it or none. -/
theorem answers_pollSource {clock n cursor : Nat} {source : Source} {journal : Journal}
    (h : ∀ v, S v → Q v)
    (hsupply : (pollSource clock n source cursor journal).journal.Supplies S) :
    Yielded S Q (pollSource clock n source cursor journal) := by
  refine ⟨.opened h, fun v hv => h v (hsupply n v ?_)⟩
  have hv : (source.poll clock cursor).1 = .value v := hv
  rw [← hv]
  exact List.Mem.head _

/-- Every poll answers only what the stream yields. -/
theorem keeping_poll (S : Value → Prop) (clock fuel : Nat) : Keeping S (poll clock fuel) := by
  refine ⟨poll_appends clock fuel, ?_⟩
  induction fuel with
  | zero => exact fun _ h => nomatch h
  | succ fuel ih =>
    have keeping : Keeping S (poll clock fuel) := ⟨poll_appends clock fuel, ih⟩
    intro Q s journal p hs h hsupply
    cases hs with
    | @values _ vs hvs =>
      cases vs with
      | nil =>
        cases h
        exact ⟨.values hvs, nofun⟩
      | cons v rest =>
        cases h
        obtain ⟨hv, hrest⟩ := List.forall_mem_cons.1 hvs
        refine ⟨.values hrest, ?_⟩
        rintro _ ⟨⟩
        exact hv
    | unopened hS =>
      cases h
      exact answers_pollSource hS hsupply
    | opened hS =>
      cases h
      exact answers_pollSource hS hsupply
    | @map _ P f inner hf hinner =>
      obtain ⟨q, hq, h⟩ := bind_eq_ok h
      cases h
      have answers := ih hinner hq hsupply
      obtain ⟨answer, s', journal⟩ := q
      refine ⟨.map hf answers.rest, fun v hv => ?_⟩
      cases answer with
      | value w =>
        cases hv
        exact hf w (answers.value w rfl)
      | pending => cases hv
      | ended => cases hv
    | @head _ inner hinner =>
      cases inner with
      | none =>
        cases h
        exact ⟨.head nofun, nofun⟩
      | some s =>
        obtain ⟨q, hq, h⟩ := bind_eq_ok h
        split at h
        · cases h
          refine ⟨.head ?_, nofun⟩
          rintro _ ⟨⟩
          exact (ih (hinner s rfl) hq hsupply).rest
        · cases h
          exact ⟨.head nofun, (ih (hinner s rfl) hq hsupply).value⟩
    | @join _ P slots combine hlatest hlive hcombine =>
      -- All parts have the same property.
      have hslots : SlotsYield S (List.replicate slots.length P) slots :=
        replicate_of_forall fun slot hslot => ⟨hlatest slot hslot, hlive slot hslot⟩
      obtain ⟨⟨rest, hstream, hrest⟩, hvalue⟩ := joinYielded_joinRounds keeping hslots h hsupply
      refine ⟨?_, fun v hv => ?_⟩
      · have hparts : ∀ slot ∈ rest, (∀ v, slot.latest = some v → P v) ∧
            ∀ s, slot.live = some s → s.Yields S P := by
          rcases hrest with rfl | hrest
          · exact nofun
          · exact forall_of_replicate hrest
        rw [hstream]
        exact .join (fun slot hslot => (hparts slot hslot).1)
          (fun slot hslot => (hparts slot hslot).2) hcombine
      · obtain ⟨vs, hvs, hv⟩ := hvalue v hv
        exact hcombine vs v (forall_of_replicate hvs) hv
    | switch houter hinner hnext =>
      exact answers_switchRounds keeping hnext houter hinner h hsupply

theorem suffix_of_pollEach {s : Stream} {schedule : List (Nat × Nat)} {journal : Journal}
    {course : Course Stream} (h : s.pollEach schedule journal = .ok course) :
    journal <:+ course.journal := by
  obtain ⟨_, new, rfl, -⟩ := (pollEach_appends schedule s).result h
  exact ⟨new, rfl⟩

/-- In every run the stream emits only what it yields. -/
theorem Yields.emitted {s : Stream} {schedule : List (Nat × Nat)} {journal : Journal}
    {course : Course Stream} (hs : s.Yields S Q) (h : s.pollEach schedule journal = .ok course)
    (hsupply : course.journal.Supplies S) : ∀ v, .value v ∈ course.answers → Q v := by
  induction schedule generalizing s journal course with
  | nil =>
    cases h
    exact nofun
  | cons turn later ih =>
    obtain ⟨p, hp, h⟩ := bind_eq_ok h
    obtain ⟨rest, hrest, h⟩ := bind_eq_ok h
    cases h
    have hsuffix : p.journal <:+ rest.journal := suffix_of_pollEach hrest
    have hfirst := supplies_of_suffix hsupply hsuffix
    have answers := (keeping_poll S turn.1 turn.2).answers hs hp hfirst
    intro v hv
    rcases List.mem_cons.1 hv with hv | hv
    · exact answers.value v hv.symm
    · have later : ∀ v, .value v ∈ rest.answers → Q v := ih answers.rest hrest hsupply
      exact later v hv

/-- In every run a join emits what it makes of values that its parts yield. -/
theorem SlotsYield.emitted {Ps : List (Value → Prop)} {slots : List (Slot Stream)}
    {combine : List Value → Eval Value} {schedule : List (Nat × Nat)} {journal : Journal}
    {course : Course Stream} (hslots : slots = [] ∨ SlotsYield S Ps slots)
    (h : (Stream.join slots combine).pollEach schedule journal = .ok course)
    (hsupply : course.journal.Supplies S) :
    ∀ v, .value v ∈ course.answers → ∃ vs, Satisfy Ps vs ∧ combine vs = .ok v := by
  induction schedule generalizing slots journal course with
  | nil =>
    cases h
    exact nofun
  | cons turn later ih =>
    obtain ⟨p, hp, h⟩ := bind_eq_ok h
    obtain ⟨rest, hrest, h⟩ := bind_eq_ok h
    cases h
    have hsuffix : p.journal <:+ rest.journal := suffix_of_pollEach hrest
    have hfirst := supplies_of_suffix hsupply hsuffix
    have yielded : JoinYielded S Ps combine p := by
      obtain ⟨clock, fuel⟩ := turn
      cases fuel with
      | zero => cases hp
      | succ fuel =>
        rcases hslots with rfl | hslots
        · cases hp
          exact ⟨⟨[], rfl, .inl rfl⟩, nofun⟩
        · exact joinYielded_joinRounds (keeping_poll S clock fuel) hslots hp hfirst
    obtain ⟨⟨left, hstream, hleft⟩, hvalue⟩ := yielded
    rw [hstream] at hrest
    intro v hv
    rcases List.mem_cons.1 hv with hv | hv
    · exact hvalue v hv.symm
    · exact ih hleft hrest hsupply v hv

/-! ### Composed streams -/

mutual

/-- Every stream yields values. -/
theorem yields_any (S : Value → Prop) : ∀ s : Stream, s.Yields S fun _ => True
  | .values _ => .values fun _ _ => trivial
  | .unopened _ _ => .unopened fun _ _ => trivial
  | .opened _ _ _ => .opened fun _ _ => trivial
  | .map _ inner => .map (fun _ _ => trivial) (yields_any S inner)
  | .head inner => .head (yields_any_option S inner)
  | .join slots _ =>
    .join (P := fun _ => True) (fun _ _ _ _ => trivial) (yields_any_slots S slots)
      fun _ _ _ _ => trivial
  | .switch outer inner next =>
    .switch (P := fun _ => True) (yields_any_option S outer) (yields_any_option S inner)
      fun v s _ hs => yields_any_result S (next v) s hs
termination_by structural s => s

theorem yields_any_option (S : Value → Prop) :
    ∀ inner : Option Stream, ∀ s, inner = some s → s.Yields S fun _ => True
  | none => fun s h => (Option.some_ne_none s h.symm).elim
  | some s => fun _ h => Option.some.inj h ▸ yields_any S s
termination_by structural inner => inner

theorem yields_any_slot (S : Value → Prop) :
    ∀ slot : Slot Stream, ∀ s, slot.live = some s → s.Yields S fun _ => True
  | ⟨live, _⟩ => yields_any_option S live
termination_by structural slot => slot

theorem yields_any_slots (S : Value → Prop) :
    ∀ slots : List (Slot Stream), ∀ slot ∈ slots, ∀ s, slot.live = some s →
      s.Yields S fun _ => True
  | [] => nofun
  | slot :: rest => List.forall_mem_cons.2 ⟨yields_any_slot S slot, yields_any_slots S rest⟩
termination_by structural slots => slots

theorem yields_any_result (S : Value → Prop) :
    ∀ result : Eval Stream, ∀ s, result = .ok s → s.Yields S fun _ => True
  | .error _ => nofun
  | .ok s => fun _ h => Except.ok.inj h ▸ yields_any S s
termination_by structural result => result

end

theorem yields_once {v : Value} (h : Q v) : (once v).Yields S Q := .values (by simpa using h)

theorem yields_joinAll {P : Value → Prop} {streams : List Stream}
    {combine : List Value → Eval Value} {s : Stream} (hstreams : ∀ s ∈ streams, s.Yields S P)
    (hcombine : ∀ vs v, (∀ w ∈ vs, P w) → combine vs = .ok v → Q v)
    (h : joinAll streams combine = .ok s) : s.Yields S Q := by
  unfold joinAll at h
  split at h
  · obtain ⟨v, hv, h⟩ := bind_eq_ok h
    cases h
    exact yields_once (hcombine [] v nofun hv)
  · cases h
    refine .join (fun slot hslot v hv => ?_) (fun slot hslot s hs => ?_) hcombine
    · obtain ⟨t, -, rfl⟩ := List.mem_map.1 hslot
      cases hv
    · obtain ⟨t, ht, rfl⟩ := List.mem_map.1 hslot
      cases hs
      exact hstreams _ ht

theorem yields_switchOver {P : Value → Prop} {outer : Stream} {next : Value → Eval Stream}
    (houter : outer.Yields S P) (hnext : ∀ v s, P v → next v = .ok s → s.Yields S Q) :
    (switchOver outer next).Yields S Q := by
  refine .switch ?_ nofun hnext
  rintro _ ⟨⟩
  exact houter

end Stream

end PolicyExpr
