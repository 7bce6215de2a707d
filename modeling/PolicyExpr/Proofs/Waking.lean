import PolicyExpr.Proofs.Declaration
import PolicyExpr.Proofs.Ownership
import PolicyExpr.Proofs.Subscribing

/-!
# No wake-up is lost

A stream of a compiled tree answers that it is pending only where every source that it can still
need has answered so in the same call, after all else that the call did. Nothing is therefore left
for another poll to find until a source changes: it answers that it is pending again, leaves the
stream as it is, and reads none of the functions in it.
-/
namespace PolicyExpr

namespace Stream

/-! ## Sources that are held -/

/-- The stream holds this source under a subscription and can still need it. -/
inductive Holds (n : Nat) (source : Source) (cursor : Nat) : Stream → Prop where
  | opened : Holds n source cursor (.opened n source cursor)
  | map {f : Value → Value} {inner : Stream} (h : Holds n source cursor inner) :
    Holds n source cursor (.map f inner)
  | head {inner : Stream} (h : Holds n source cursor inner) :
    Holds n source cursor (.head (some inner))
  | join {slots : List (Slot Stream)} {combine : List Value → Eval Value} {slot : Slot Stream}
    {s : Stream} (hslot : slot ∈ slots) (hlive : slot.live = some s)
    (h : Holds n source cursor s) : Holds n source cursor (.join slots combine)
  | outer {outer : Stream} {inner : Option Stream} {next : Value → Eval Stream}
    (h : Holds n source cursor outer) : Holds n source cursor (.switch (some outer) inner next)
  | inner {outer : Option Stream} {inner : Stream} {next : Value → Eval Stream}
    (h : Holds n source cursor inner) : Holds n source cursor (.switch outer (some inner) next)

variable {P : Nat → Source → Nat → Prop} {Q : Stream → Prop} {clock fuel : Nat} {s : Stream}

/-- What holds of all sources that are held, holds of those that are awaited. -/
theorem Awaits.of_holds {R : Nat → Source → Nat → Prop} (h : s.Awaits P Q fuel)
    (hR : ∀ n source cursor, s.Holds n source cursor → R n source cursor) :
    s.Awaits R Q fuel := by
  induction h with
  | opened _ => exact .opened (hR _ _ _ .opened)
  | map hpart _ ih => exact .map hpart (ih fun n source cursor h => hR n source cursor h.map)
  | head hpart _ ih => exact .head hpart (ih fun n source cursor h => hR n source cursor h.head)
  | join hlast hpart _ ih =>
    exact .join hlast hpart fun slot hslot t ht => ih slot hslot t ht
      fun n source cursor h => hR n source cursor (.join hslot ht h)
  | switch hlast houter hinner _ _ iho ihi =>
    refine .switch hlast houter hinner (fun t ht => ?_) fun t ht => ?_
    · subst ht
      exact iho t rfl fun n source cursor h => hR n source cursor h.outer
    · subst ht
      exact ihi t rfl fun n source cursor h => hR n source cursor h.inner

/-! ## Polls that change nothing -/

/-- Streams that hold the same sources in the same composition, whatever functions they apply to
values and whatever the latest values of their parts are. -/
inductive Alike : Stream → Stream → Prop where
  | opened (n : Nat) (source : Source) (cursor : Nat) :
    Alike (.opened n source cursor) (.opened n source cursor)
  | map (f g : Value → Value) {s t : Stream} (h : Alike s t) : Alike (.map f s) (.map g t)
  | head {s t : Stream} (h : Alike s t) : Alike (.head (some s)) (.head (some t))
  | join (combine combine' : List Value → Eval Value) {slots slots' : List (Slot Stream)}
    (hlive : List.Forall₂ (fun a b => a.live.isSome = b.live.isSome) slots slots')
    (h : ∀ p ∈ slots.zip slots', ∀ s t, p.1.live = some s → p.2.live = some t → Alike s t) :
    Alike (.join slots combine) (.join slots' combine')
  | switch (next next' : Value → Eval Stream) {outer outer' inner inner' : Option Stream}
    (houter : outer.isSome = outer'.isSome) (hinner : inner.isSome = inner'.isSome)
    (houters : ∀ s t, outer = some s → outer' = some t → Alike s t)
    (hinners : ∀ s t, inner = some s → inner' = some t → Alike s t) :
    Alike (.switch outer inner next) (.switch outer' inner' next')

/-- A stream that waits is like itself. -/
theorem Awaits.alike (h : s.Awaits P Q fuel) : s.Alike s := by
  induction h with
  | opened _ => exact .opened _ _ _
  | map _ _ ih => exact .map _ _ ih
  | head _ _ ih => exact .head ih
  | join _ _ _ ih =>
    refine .join _ _ (List.forall₂_same.2 fun _ _ => rfl) fun pair hpair s t hs ht => ?_
    rw [List.zip, List.zipWith_self] at hpair
    obtain ⟨slot, hslot, rfl⟩ := List.mem_map.1 hpair
    rw [hs] at ht
    cases ht
    exact ih slot hslot s hs
  | switch _ _ _ _ _ iho ihi =>
    refine .switch _ _ rfl rfl (fun s t hs ht => ?_) fun s t hs ht => ?_
    · rw [hs] at ht
      cases ht
      exact iho s hs
    · rw [hs] at ht
      cases ht
      exact ihi s hs

/-- A poll of any stream like this one polls pending sources, and does nothing else. -/
structure Idles (poll : Poller) (s : Stream) (again : Journal) : Prop where
  polls : ∀ e ∈ again, ∃ n, e = .polled n .pending
  unchanged : ∀ t, s.Alike t → ∀ journal, poll t journal = .ok ⟨.pending, t, again ++ journal⟩

section

variable {poll : Poller} {slots : List (Slot Stream)}

private theorem all_isNone_congr {slots slots' : List (Slot Stream)}
    (h : List.Forall₂ (fun a b => a.live.isSome = b.live.isSome) slots slots') :
    slots.all (·.live.isNone) = slots'.all (·.live.isNone) := by
  induction h with
  | nil => rfl
  | cons hlive _ ih => rw [List.all_cons, List.all_cons, ih, ← Option.not_isSome, hlive,
      Option.not_isSome]

/-- A pass over parts that change nothing. -/
theorem joinPass_idles
    (h : ∀ slot ∈ slots, ∀ s, slot.live = some s → ∃ again, Idles poll s again) :
    ∃ again : Journal, (∀ e ∈ again, ∃ n, e = .polled n .pending) ∧
      ∀ slots' : List (Slot Stream),
        List.Forall₂ (fun a b => a.live.isSome = b.live.isSome) slots slots' →
        (∀ p ∈ slots.zip slots', ∀ s t, p.1.live = some s → p.2.live = some t → s.Alike t) →
        ∀ journal, joinPass poll slots' journal =
          .ok ⟨slots', again ++ journal, false, false, false⟩ := by
  induction slots with
  | nil =>
    refine ⟨[], nofun, fun slots' hlive _ journal => ?_⟩
    cases hlive
    rfl
  | cons slot rest ih =>
    obtain ⟨later, hlater, hrest⟩ := ih fun slot' hslot => h slot' (List.mem_cons_of_mem _ hslot)
    obtain ⟨live, latest⟩ := slot
    cases live with
    | none =>
      refine ⟨later, hlater, fun slots' hlive hparts journal => ?_⟩
      cases hlive with
      | @cons _ slot' _ rest' hnone hlive =>
        obtain ⟨live', latest'⟩ := slot'
        have hnone : live' = none := by simpa using hnone.symm
        subst hnone
        rw [joinPass, hrest rest' hlive (fun p hp => hparts p (List.mem_cons_of_mem _ hp)) journal]
        rfl
    | some s =>
      obtain ⟨again, hs⟩ := h _ (List.Mem.head _) s rfl
      refine ⟨later ++ again, ?_, fun slots' hlive hparts journal => ?_⟩
      · exact List.forall_mem_append.2 ⟨hlater, hs.polls⟩
      · cases hlive with
        | @cons _ slot' _ rest' hsome hlive =>
          obtain ⟨live', latest'⟩ := slot'
          obtain ⟨t, rfl⟩ : ∃ t, live' = some t := Option.isSome_iff_exists.1 hsome.symm
          have hpoll := hs.unchanged t (hparts _ (List.Mem.head _) s t rfl rfl) journal
          have hpass := hrest rest' hlive (fun p hp => hparts p (List.mem_cons_of_mem _ hp))
            (again ++ journal)
          rw [← List.append_assoc] at hpass
          rw [joinPass]
          change (poll t journal >>= _) = _
          rw [hpoll]
          change (joinPass poll rest' (again ++ journal) >>= _) = _
          rw [hpass]
          rfl

/-- A join of which some part lasts, and whose parts change nothing. -/
theorem joinRounds_idles {combine : List Value → Eval Value}
    (hlast : ∃ slot ∈ slots, slot.live ≠ none)
    (h : ∀ slot ∈ slots, ∀ s, slot.live = some s → ∃ again, Idles poll s again) :
    ∃ again : Journal, (∀ e ∈ again, ∃ n, e = .polled n .pending) ∧
      ∀ t, Alike (.join slots combine) t →
        ∃ slots' combine', t = .join slots' combine' ∧ ∀ rounds journal,
          joinRounds poll combine' (rounds + 1) slots' journal =
            .ok ⟨.pending, t, again ++ journal⟩ := by
  obtain ⟨again, hpolls, hpass⟩ := joinPass_idles h
  refine ⟨again, hpolls, fun t ht => ?_⟩
  cases ht with
  | @join _ combine' _ slots' hlive hparts =>
    refine ⟨slots', combine', rfl, fun rounds journal => ?_⟩
    have hall : slots'.all (·.live.isNone) = false := by
      rw [← all_isNone_congr hlive, List.all_eq_false]
      obtain ⟨slot, hslot, hsome⟩ := hlast
      exact ⟨slot, hslot, by simpa using hsome⟩
    rw [joinRounds, hpass slots' hlive hparts journal]
    change (if slots'.all (·.live.isNone) = true then _ else _) = _
    rw [hall]
    rfl

/-- A part of a switch, if there is one, that changes nothing. -/
theorem part_idles {part : Option Stream}
    (h : ∀ s, part = some s → ∃ again, Idles poll s again) :
    ∃ again : Journal, (∀ e ∈ again, ∃ n, e = .polled n .pending) ∧
      (part = none → again = []) ∧ ∀ s, part = some s → Idles poll s again := by
  cases part with
  | none => exact ⟨[], nofun, fun _ => rfl, nofun⟩
  | some s =>
    obtain ⟨again, hs⟩ := h s rfl
    exact ⟨again, hs.polls, nofun, by rintro _ ⟨⟩; exact hs⟩

/-- A switch of which some part lasts, and whose parts change nothing. -/
theorem switchRounds_idles {outer inner : Option Stream} {next : Value → Eval Stream}
    (hlast : outer ≠ none ∨ inner ≠ none)
    (houter : ∀ s, outer = some s → ∃ again, Idles poll s again)
    (hinner : ∀ s, inner = some s → ∃ again, Idles poll s again) :
    ∃ again : Journal, (∀ e ∈ again, ∃ n, e = .polled n .pending) ∧
      ∀ t, Alike (.switch outer inner next) t →
        ∃ outer' inner' next', t = .switch outer' inner' next' ∧ ∀ rounds journal,
          switchRounds poll next' (rounds + 1) outer' inner' journal =
            .ok ⟨.pending, t, again ++ journal⟩ := by
  obtain ⟨first, hfirst, hnone, hsome⟩ := part_idles houter
  obtain ⟨second, hsecond, hnone', hsome'⟩ := part_idles hinner
  refine ⟨second ++ first, List.forall_mem_append.2 ⟨hsecond, hfirst⟩, fun t ht => ?_⟩
  cases ht with
  | @switch _ next' _ outer' _ inner' houter' hinner' houters hinners =>
    refine ⟨outer', inner', next', rfl, fun rounds journal => ?_⟩
    have turn : switchOuter poll next' outer' inner' journal =
        .ok ⟨outer', inner', first ++ journal, false⟩ := by
      cases outer with
      | none =>
        have houter' : outer' = none := by simpa using houter'.symm
        rw [houter', hnone rfl]
        rfl
      | some s =>
        obtain ⟨t, rfl⟩ : ∃ t, outer' = some t := Option.isSome_iff_exists.1 houter'.symm
        change (poll t journal >>= _) = _
        rw [(hsome s rfl).unchanged t (houters s t rfl rfl) journal]
        rfl
    rw [switchRounds, turn, List.append_assoc]
    cases inner with
    | none =>
      have hinner' : inner' = none := by simpa using hinner'.symm
      have hlast : outer'.isNone = false := by
        have hlast : outer ≠ none := by simpa using hlast
        rw [← Option.not_isSome, ← houter']
        simpa [Option.isSome_iff_ne_none] using hlast
      subst hinner'
      rw [hnone' rfl]
      change (if outer'.isNone = true then _ else _) = _
      rw [hlast]
      rfl
    | some s =>
      obtain ⟨t, rfl⟩ : ∃ t, inner' = some t := Option.isSome_iff_exists.1 hinner'.symm
      change (poll t (first ++ journal) >>= _) = _
      rw [(hsome' s rfl).unchanged t (hinners s t rfl rfl) (first ++ journal)]
      rfl

end

/-- A stream all of whose sources are still pending is not changed by another poll. -/
theorem Awaits.idles {R : Nat → Source → Nat → Prop}
    (hquiet : ∀ n source cursor, R n source cursor →
      source.poll clock cursor = (.pending, cursor))
    (h : s.Awaits R Q fuel) {fuel' : Nat} (hfuel : fuel ≤ fuel') :
    ∃ again, Idles (poll clock fuel') s again := by
  induction h generalizing fuel' with
  | @opened fuel n source cursor hR =>
    obtain ⟨fuel', rfl⟩ := Nat.exists_eq_add_of_le' hfuel
    refine ⟨[.polled n .pending], by simp, fun t ht journal => ?_⟩
    cases ht
    change Except.ok (pollSource clock n source cursor journal) = _
    rw [pollSource, hquiet n source cursor hR]
    rfl
  | @map fuel f inner _ _ ih =>
    obtain ⟨fuel', rfl⟩ := Nat.exists_eq_add_of_le' hfuel
    obtain ⟨again, hinner⟩ := ih (Nat.le_add_left fuel fuel')
    refine ⟨again, hinner.polls, fun t ht journal => ?_⟩
    cases ht with
    | @map _ g _ t ht =>
      change (poll clock (fuel' + fuel) t journal >>= _) = _
      rw [hinner.unchanged t ht journal]
      rfl
  | @head fuel inner _ _ ih =>
    obtain ⟨fuel', rfl⟩ := Nat.exists_eq_add_of_le' hfuel
    obtain ⟨again, hinner⟩ := ih (Nat.le_add_left fuel fuel')
    refine ⟨again, hinner.polls, fun t ht journal => ?_⟩
    cases ht with
    | @head _ t ht =>
      change (poll clock (fuel' + fuel) t journal >>= _) = _
      rw [hinner.unchanged t ht journal]
      rfl
  | join hlast _ _ ih =>
    obtain ⟨fuel', rfl⟩ := Nat.exists_eq_add_of_le' hfuel
    obtain ⟨again, hpolls, hrounds⟩ := joinRounds_idles hlast fun slot hslot s hs =>
      ih slot hslot s hs (Nat.le_add_left _ fuel')
    refine ⟨again, hpolls, fun t ht journal => ?_⟩
    obtain ⟨slots', combine', rfl, hrounds⟩ := hrounds t ht
    exact hrounds _ journal
  | switch hlast _ _ _ _ iho ihi =>
    obtain ⟨fuel', rfl⟩ := Nat.exists_eq_add_of_le' hfuel
    obtain ⟨again, hpolls, hrounds⟩ := switchRounds_idles hlast
      (fun s hs => iho s hs (Nat.le_add_left _ fuel'))
      fun s hs => ihi s hs (Nat.le_add_left _ fuel')
    refine ⟨again, hpolls, fun t ht journal => ?_⟩
    obtain ⟨outer', inner', next', rfl, hrounds⟩ := hrounds t ht
    exact hrounds _ journal

/-! ## Runs of polls -/

/-- The sources that a stream holds under subscriptions are among those subscribed to. -/
def Subscribed (s : Stream) (journal : Journal) : Prop :=
  ∃ N : Nat → Prop, (∀ n, N n → n < journal.subscriptionCount) ∧ s.Within N

theorem Fresh.subscribed (h : s.Fresh) (journal : Journal) : s.Subscribed journal :=
  ⟨fun _ => False, fun _ => False.elim, h⟩

theorem Subscribed.poll {journal : Journal} {p : Polled} (h : s.Subscribed journal)
    (hp : s.poll clock fuel journal = .ok p) : p.stream.Subscribed p.journal := by
  obtain ⟨N, hN, hs⟩ := h
  obtain ⟨new, hout⟩ := keeps_poll clock fuel N s journal p hN hs hp
  refine ⟨_, ?_, hout.within⟩
  rintro n (hn | hn)
  · exact Nat.lt_of_lt_of_le (hN n hn) hout.adds.count_le
  · exact hn.2

/-- Every run leaves a stream whose subscriptions are known. -/
theorem Subscribed.pollEach {schedule : List (Nat × Nat)} {journal : Journal}
    {course : Course Stream} (h : s.Subscribed journal)
    (hcourse : s.pollEach schedule journal = .ok course) :
    course.state.Subscribed course.journal := by
  induction schedule generalizing s journal course with
  | nil =>
    cases hcourse
    exact h
  | cons turn later ih =>
    obtain ⟨p, hp, hcourse⟩ := bind_eq_ok hcourse
    obtain ⟨rest, hrest, hcourse⟩ := bind_eq_ok hcourse
    cases hcourse
    have hrun : rest.state.Subscribed rest.journal := ih (h.poll hp) hrest
    exact hrun

/-- From two journals a stream goes on alike: the same answers, the same streams and the same
halts, and the same events added. -/
def GoesOnAlike (s : Stream) (journal other : Journal) : Prop :=
  ∀ schedule, ∃ later : Except Halt (Course Stream × Journal),
    s.pollEach schedule journal = later.map (fun (course, new) => course.put (new ++ journal)) ∧
      s.pollEach schedule other = later.map fun (course, new) => course.put (new ++ other)

theorem goesOnAlike {journal other : Journal}
    (h : other.subscriptionCount = journal.subscriptionCount) : s.GoesOnAlike journal other := by
  intro schedule
  obtain ⟨later, hlater⟩ := pollEach_appends schedule s journal.subscriptionCount
  exact ⟨later, hlater journal rfl, hlater other h⟩

/-! ## New streams -/

theorem slotsWithin_of_fresh {N : Nat → Prop} {slots : List (Slot Stream)}
    (h : ∀ slot ∈ slots, ∀ s, slot.live = some s → s.Fresh) : SlotsWithin N slots := by
  induction slots with
  | nil => exact .nil
  | cons slot rest ih =>
    obtain ⟨hslot, hrest⟩ := List.forall_mem_cons.1 h
    exact .cons (fun _ => False.elim) (fun _ => id) (fun _ => False.elim) hslot (ih hrest)

theorem fresh_joinAll {streams : List Stream} {combine : List Value → Eval Value}
    (hstreams : ∀ s ∈ streams, s.Fresh) (hs : joinAll streams combine = .ok s) : s.Fresh := by
  unfold joinAll at hs
  split at hs
  · obtain ⟨v, -, hs⟩ := bind_eq_ok hs
    cases hs
    exact .values _
  · cases hs
    refine .join (slotsWithin_of_fresh fun slot hslot s hs => ?_)
    obtain ⟨t, ht, rfl⟩ := List.mem_map.1 hslot
    cases hs
    exact hstreams _ ht

theorem fresh_switchOver {outer : Stream} {next : Value → Eval Stream} (houter : outer.Fresh)
    (hnext : ∀ v s, next v = .ok s → s.Fresh) : (switchOver outer next).Fresh := by
  refine .switch (A := fun _ => False) (B := fun _ => False) (fun _ => id) (fun _ => id)
    (fun _ => False.elim) ?_ nofun hnext
  rintro _ ⟨⟩
  exact houter

theorem fresh_values (ctx : Context) (name : String) (l : SourceLocation) (vector : Value) :
    (AttributeFinder.values ctx name l vector).Fresh := by
  unfold AttributeFinder.values
  split
  · split
    · exact .values _
    · split
      · exact .values _
      · split
        · exact .values _
        · exact .map (fun _ => id) (.unopened _ _)
  · exact .values _

/-- Every subscription starts with a new stream. -/
theorem inherited_fresh : Inherited fun _ s => s.Fresh where
  once _ _ := .values _
  joined := fresh_joinAll
  switched := fresh_switchOver
  first h := .head (fun _ => id) (by rintro _ ⟨⟩; exact h)
  served := fresh_values

end Stream

/-- No wake-up is lost, and a poll too many changes nothing. Where the stream of a tree answers that
it is pending, each part of it that lasts was left pending in this call, and each source that it can
still need was pending when the call polled it last. As long as these sources stay as they are,
another poll only polls some of them: it answers that it is pending, leaves the stream as it is, also
where other functions stand in it, and makes no difference to what follows. -/
theorem Expression.waits_when_pending {broker : FunctionBroker} {scope : Scope}
    {meanings : Meanings} {e : Expression} {c : Compiled} {ctx : Context} {s : Stream}
    {schedule : List (Nat × Nat)} {journal : Journal} {course : Course Stream} {clock fuel : Nat}
    {p : Polled}
    (hscope : scope.Declares .full (fun _ => True) (Environment.direct broker) meanings)
    (hc : e.compile scope = .ok c) (hs : c.subscribe ctx = .ok s)
    (hcourse : s.pollEach schedule journal = .ok course)
    (hp : course.state.poll clock fuel course.journal = .ok p) (hpending : p.answer = .pending) :
    (∃ new, p.journal = new ++ course.journal ∧
      p.stream.Awaits (fun n _ _ => new.lastAnswer n = some .pending)
        (Stream.LeftPending clock course.journal p.journal) fuel) ∧
    ∀ clock' fuel', fuel ≤ fuel' →
      (∀ n source cursor, p.stream.Holds n source cursor →
        source.poll clock' cursor = (.pending, cursor)) →
      ∃ again, p.stream.poll clock' fuel' p.journal =
          .ok ⟨.pending, p.stream, again ++ p.journal⟩ ∧
        p.stream.Idles (Stream.poll clock' fuel') again ∧
        p.stream.GoesOnAlike p.journal (again ++ p.journal) := by
  have correspondence : Correspondence .full scope _ fun c _ => c.Starts fun _ s => s.Fresh :=
    hscope.correspondence Stream.inherited_fresh.constant fun _ hrel =>
      Stream.inherited_fresh.correspondence rfl hrel
  have fresh : s.Fresh := correspondence.expression e (Sublanguage.full_admits e) hc ctx s hs
  obtain ⟨N, hN, hwithin⟩ := (fresh.subscribed journal).pollEach hcourse
  obtain ⟨new, hout⟩ := Stream.keeps_poll clock fuel N _ _ p hN hwithin hp
  have waits := hout.waits hpending
  refine ⟨⟨new, hout.adds.journal, waits.mono (fun _ _ _ hn => hn.2) fun _ h => h⟩, ?_⟩
  intro clock' fuel' hfuel hquiet
  obtain ⟨again, hagain⟩ := (waits.of_holds hquiet).idles (fun _ _ _ h => h) hfuel
  refine ⟨again, hagain.unchanged _ waits.alike _, hagain, Stream.goesOnAlike ?_⟩
  have hnone : again.subscriptionCount = 0 := Journal.subscriptionCount_eq_zero fun e he => by
    obtain ⟨n, hn⟩ := hagain.polls e he
    exact ⟨n, .pending, hn⟩
  rw [Journal.subscriptionCount_append, hnone, Nat.zero_add]

/-- The tree `<x>`, whose source serves `true` and nothing else before tick 5. -/
theorem Expression.waits_for_attribute :
    let e : Expression := .basic .unknown (.environmentAttribute "x" [] none false) [] none
    let script : List ScriptItem := [.emit (.boolean true), .wait 5, .emit (.boolean false)]
    let ctx := Context.empty.withAttributeBroker fun _ _ => .ofScript script
    ∃ c s course p again, e.compile .empty = .ok c ∧ c.subscribe ctx = .ok s ∧
      s.pollEach [(0, 9)] [] = .ok course ∧ course.state.poll 0 9 course.journal = .ok p ∧
      p.answer = .pending ∧
      p.stream.poll 4 9 p.journal = .ok ⟨.pending, p.stream, again ++ p.journal⟩ ∧
      p.stream.GoesOnAlike p.journal (again ++ p.journal) := by
  intro e script ctx
  have declared : Scope.empty.Declares .full (fun _ => True)
      (Environment.direct fun _ => .ok .undefined) .none := .start trivial
  obtain ⟨c, s, course, p, hc, hs, hcourse, hp, hpending, hquiet⟩ :
      ∃ c s course p, e.compile .empty = .ok c ∧ c.subscribe ctx = .ok s ∧
        s.pollEach [(0, 9)] [] = .ok course ∧ course.state.poll 0 9 course.journal = .ok p ∧
        p.answer = .pending ∧ ∀ n source cursor, p.stream.Holds n source cursor →
          source.poll 4 cursor = (.pending, cursor) := by
    refine ⟨_, _, _, _, rfl, rfl, rfl, rfl, rfl, fun n source cursor h => ?_⟩
    cases h with
    | inner h =>
      cases h with
      | map h =>
        cases h
        rfl
  obtain ⟨again, hpoll, -, hlater⟩ :=
    (Expression.waits_when_pending declared hc hs hcourse hp hpending).2 4 9 (Nat.le_refl 9) hquiet
  exact ⟨c, s, course, p, again, hc, hs, hcourse, hp, hpending, hpoll, hlater⟩

end PolicyExpr
