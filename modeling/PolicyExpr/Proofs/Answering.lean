import PolicyExpr.Proofs.Finding
import PolicyExpr.Proofs.OnDemand
import PolicyExpr.Proofs.Responding
import PolicyExpr.Proofs.Stalling
import PolicyExpr.Proofs.Switching

/-!
# Records that contain the answers

A record is also kept of a run that is short of fuel, and then it breaks off. Over sources a poll
of a join and a poll of a switch that are written down, given enough fuel, leave their answer as
the last event of the record, unless the join or the switch stalls; then no fuel is enough. For
whole runs, of joins, switches, chains and finders, there is enough fuel where their streams
respond, and the record then has an answer for every poll.
-/
namespace PolicyExpr

/-! ## Single polls -/

namespace Asking

variable {ε σ : Type}

/-- With enough fuel a recorded poll has this result, whatever was recorded before it, and its
answer is the last event of the record. -/
def Concludes (asking : (fuel : Nat) → Asking ε σ) (answered : Answer → ε) (s : σ) (j : Journal)
    (r : Eval Answer) : Prop :=
  ∃ enough, ∀ fuel ≥ enough, ∀ past,
    (asking fuel s j past).1.map Reply.answer = Halt.lift r ∧
      ∀ a, r = .ok a → (asking fuel s j past).2.head? = some (answered a)

/-- A recorded poll concludes unless it stalls, and then it uses up every limit. -/
structure ConcludesUnless (stalls : Prop) (asking : (fuel : Nat) → Asking ε σ)
    (answered : Answer → ε) (s : σ) (j : Journal) : Prop where
  concludes : ¬stalls → ∃ r, Concludes asking answered s j r
  endless : stalls → ∀ fuel past, (asking fuel s j past).1 = .error .outOfFuel

/-- The last event of a poll is its answer. -/
def Notes (asking : Asking ε σ) (answered : Answer → ε) : Prop :=
  ∀ s j, Recorded.Ensures (fun _ => True) (asking s j)
    (fun r record => record.head? = some (answered r.answer)) fun _ => True

theorem ensures_noting (x : Recorded ε (Reply σ)) (answered : Answer → ε) :
    Recorded.Ensures (fun _ => True) (x.noting fun r => answered r.answer)
      (fun r record => record.head? = some (answered r.answer)) fun _ => True := by
  refine .noting fun record _ => ?_
  split
  · rfl
  · trivial

/-- What is known of the polls of a stream is known of recorded ones. -/
theorem ConcludesUnless.of_returns {stalls : Prop} {asking : (fuel : Nat) → Asking ε σ}
    {answered : Answer → ε} {stream : σ → Stream} {clock : Nat} {s : σ} {j : Journal}
    (hshows : ∀ fuel, (asking fuel).Shows stream (Stream.poll clock fuel))
    (hnotes : ∀ fuel, (asking fuel).Notes answered)
    (h : Stream.ReturnsUnless stalls clock (stream s) j) :
    ConcludesUnless stalls asking answered s j where
  concludes hstalls := by
    obtain ⟨r, enough, hr⟩ := h.returns hstalls
    refine ⟨r.map Polled.answer, enough, fun fuel hfuel past => ?_⟩
    have hshown := (hshows fuel s j past).trans (hr fuel hfuel)
    have hnoted := hnotes fuel s j past trivial
    rcases hasked : asking fuel s j past with ⟨halt | reply, record⟩ <;>
      rw [hasked] at hshown hnoted
    · cases r with
      | error f =>
        cases hshown
        exact ⟨rfl, nofun⟩
      | ok p => cases hshown
    · cases r with
      | error f => cases hshown
      | ok p =>
        cases hshown
        refine ⟨rfl, ?_⟩
        rintro _ ⟨⟩
        exact hnoted
  endless hstalls fuel past := by
    have hshown := (hshows fuel s j past).trans (h.endless hstalls fuel)
    rcases hasked : (asking fuel s j past).1 with halt | reply <;> rw [hasked] at hshown
    · exact congrArg _ (Except.error.inj hshown)
    · cases hshown

end Asking

/-- A join over sources that is written down: a poll with enough fuel leaves its answer in the
record unless the join stalls. -/
theorem Joining.concludes_unless_stalling (clock : Nat) (parts : List (Slot Subscription))
    (combine : List Value → Eval Value) (j : Journal) :
    Asking.ConcludesUnless (Stream.JoinStalls clock parts) (Joining.ask combine clock)
      .answered (parts.map Slot.opened) j := by
  refine .of_returns (Joining.ask_shows combine clock) (fun fuel slots j => ?_)
    (Stream.join_returnsUnless clock parts combine j)
  cases fuel with
  | zero => exact .silent nofun fun _ _ => trivial
  | succ fuel => exact Asking.ensures_noting _ _

/-- A switch over sources that is written down: a poll with enough fuel leaves its answer in the
record unless the switch stalls. -/
theorem Switching.concludes_unless_stalling (clock : Nat) (outer : Option Subscription)
    (inner : Option (Nat × Subscription)) (next : Value → Eval Subscription) (j : Journal) :
    Asking.ConcludesUnless (Stream.SwitchStalls clock next outer)
      (Switching.ask (Stream.inners next) clock) .answered
      (outer.map Subscription.stream, inner.map fun i => ⟨i.1, i.2.stream⟩) j := by
  refine .of_returns (Switching.ask_shows (Stream.inners next) clock) (fun fuel streams j => ?_) ?_
  · cases fuel with
    | zero => exact .silent nofun fun _ _ => trivial
    | succ fuel => exact Asking.ensures_noting _ _
  · have returns := Stream.switch_returnsUnless clock outer (inner.map Prod.snd) next j
    simpa [Switching.stream, Recorded.switched, Option.map_map, Function.comp_def] using returns

/-! ## Sources that abate

Over such sources no join and no switch stalls. -/

namespace Stream

theorem not_joinStalls {clock : Nat} {parts : List (Slot Subscription)}
    (h : ∀ part ∈ parts, ∀ s, part.live = some s → s.source.Abates Answer.Lasts) :
    ¬JoinStalls clock parts := by
  intro hstalls
  have habates : (join (parts.map Slot.opened) fun _ => .ok .null).Abates Answer.Lasts := by
    refine abates_join (List.forall_mem_map.2 fun part hpart s hs => ?_)
    obtain ⟨subscription, hlive, rfl⟩ := Option.map_eq_some_iff.1 hs
    exact (h part hpart subscription hlive).opened _ _
  obtain ⟨r, hr, -⟩ := habates.answers clock []
  exact (join_returnsUnless clock parts _ []).not_answers hstalls ⟨r, hr⟩

theorem not_switchStalls {clock : Nat} {next : Value → Eval Subscription} {outer : Subscription}
    (h : outer.source.Abates Answer.Lasts) : ¬SwitchStalls clock next (some outer) := by
  intro hstalls
  have hinner {v : Value} {i : Stream} (hi : inners next v = .ok i) : i.Responds := by
    unfold inners at hi
    cases hnext : next v with
    | error f =>
      rw [hnext] at hi
      cases hi
    | ok subscription =>
      rw [hnext] at hi
      cases hi
      exact (Source.abates_uncounted _).opened _ _
  have hresponds : (switchOver outer.stream (inners next)).Responds :=
    abates_switchOver (h.opened _ _) hinner (fun _ hstays => absurd nofun hstays) False.elim
  obtain ⟨r, hr, -⟩ := hresponds.answers clock []
  exact (switch_returnsUnless clock (some outer) none next []).not_answers hstalls ⟨r, hr⟩

end Stream

/-! ## Runs -/

namespace Stream

/-- Runs at these times have this result, with enough fuel for each of their polls. -/
def RunSettles (s : Stream) (j : Journal) (clocks : List Nat) (r : Eval (Course Stream)) : Prop :=
  ∃ enough, ∀ schedule, schedule.map Prod.fst = clocks → (∀ turn ∈ schedule, enough ≤ turn.2) →
    s.pollEach schedule j = Halt.lift r

/-- Runs of a stream that responds have results. -/
theorem Responds.runSettles {s : Stream} (h : s.Responds) (j : Journal) (clocks : List Nat) :
    ∃ r, s.RunSettles j clocks r := by
  induction clocks generalizing s j with
  | nil =>
    refine ⟨.ok ⟨[], s, j⟩, 0, fun schedule hclocks _ => ?_⟩
    obtain rfl := List.map_eq_nil_iff.1 hclocks
    rfl
  | cons clock clocks ih =>
    obtain ⟨r, ⟨enough, hr⟩, hafter⟩ := h.answers clock j
    cases r with
    | error f =>
      refine ⟨.error f, enough, fun schedule hclocks hfuel => ?_⟩
      obtain ⟨⟨_, fuel⟩, later, rfl, rfl, -⟩ := List.map_eq_cons_iff.1 hclocks
      have hpoll : poll _ fuel s j = .error (.fault f) := hr fuel (hfuel _ (List.mem_cons_self ..))
      rw [pollEach, hpoll]
      rfl
    | ok p =>
      obtain ⟨r', enough', hr'⟩ := ih (hafter p rfl) p.journal
      refine ⟨r' >>= fun course => .ok { course with answers := p.answer :: course.answers },
        max enough enough', fun schedule hclocks hfuel => ?_⟩
      obtain ⟨⟨_, fuel⟩, later, rfl, rfl, hlater⟩ := List.map_eq_cons_iff.1 hclocks
      obtain ⟨hfirst, hothers⟩ := List.forall_mem_cons.1 hfuel
      have hrest : p.stream.pollEach later p.journal = Halt.lift r' :=
        hr' later hlater fun turn hturn => Nat.le_trans (Nat.le_max_right ..) (hothers turn hturn)
      have hpoll : poll _ fuel s j = .ok p := hr fuel (Nat.le_trans (Nat.le_max_left ..) hfirst)
      rw [pollEach, hpoll]
      simp only [ok_bind, hrest]
      cases r' <;> rfl

/-- A run that is not broken off has an answer for every poll. -/
theorem length_answers {s : Stream} {schedule : List (Nat × Nat)} {j : Journal}
    {course : Course Stream} (h : s.pollEach schedule j = .ok course) :
    course.answers.length = schedule.length := by
  induction schedule generalizing s j course with
  | nil =>
    cases h
    rfl
  | cons turn later ih =>
    obtain ⟨p, -, h⟩ := bind_eq_ok h
    obtain ⟨rest, hrest, h⟩ := bind_eq_ok h
    cases h
    simpa using ih hrest

end Stream

namespace Asking

variable {ε σ : Type}

/-- Recorded runs at these times are told in full: with enough fuel for each of its polls no run is
broken off, and unless it aborts its record has an answer for every poll. -/
def ToldInFull (run : (schedule : List (Nat × Nat)) → Recorded ε (Course σ))
    (answer? : ε → Option Answer) (clocks : List Nat) : Prop :=
  ∃ enough, ∀ schedule, schedule.map Prod.fst = clocks → (∀ turn ∈ schedule, enough ≤ turn.2) →
    (run schedule []).1 ≠ .error .outOfFuel ∧
      ∀ course, (run schedule []).1 = .ok course →
        (run schedule []).2.reverse.filterMap answer? = course.answers ∧
          course.answers.length = clocks.length

/-- Recorded runs of a stream that responds. -/
theorem toldInFull_of_responds {run : (schedule : List (Nat × Nat)) → Recorded ε (Course σ)}
    {answer? : ε → Option Answer} (stream : σ → Stream) (subscription : Eval Stream) {j : Journal}
    (hshows : ∀ schedule, (run schedule).Shows (fun c => { c with state := stream c.state })
      (Halt.lift subscription >>= (·.pollEach schedule j)))
    (htells : ∀ schedule, Recorded.Ensures (Told answer? []) (run schedule)
      (fun c => Told answer? c.answers.reverse) fun _ => True)
    (h : ∀ s, subscription = .ok s → s.Responds) (clocks : List Nat) :
    ToldInFull run answer? clocks := by
  cases subscription with
  | error f =>
    refine ⟨0, fun schedule _ _ => ?_⟩
    have hshown := hshows schedule []
    rcases hrun : (run schedule []).1 with halt | course <;> rw [hrun] at hshown <;> cases hshown
    exact ⟨nofun, nofun⟩
  | ok s =>
    obtain ⟨r, enough, hr⟩ := (h s rfl).runSettles j clocks
    refine ⟨enough, fun schedule hclocks hfuel => ?_⟩
    have hshown : (run schedule []).1.map (fun c => { c with state := stream c.state }) =
        s.pollEach schedule j := hshows schedule []
    have hresult := hr schedule hclocks hfuel
    refine ⟨fun hout => ?_, fun course hcourse => ⟨?_, ?_⟩⟩
    · rw [← hshown, hout] at hresult
      cases r <;> cases hresult
    · exact ((htells schedule).result (told_nil _) hcourse).reverse
    · rw [hcourse] at hshown
      rw [← hclocks, List.length_map]
      exact Stream.length_answers hshown.symm

end Asking

/-- Runs of a join whose streams abate. -/
theorem Joining.told_in_full {s : Stream} {streams : List Stream}
    (h : ∀ t ∈ s :: streams, t.Abates Answer.Lasts) (combine : List Value → Eval Value)
    (j : Journal) (clocks : List Nat) :
    Asking.ToldInFull (fun schedule => Asking.each (Joining.ask combine) schedule
      ((s :: streams).map fun s => ⟨some s, none⟩) j) JoinEvent.answered? clocks :=
  Asking.toldInFull_of_responds (.join · combine) (Stream.joinAll (s :: streams) combine)
    (fun schedule => Asking.each_shows (Joining.ask_shows combine) schedule _ j)
    (fun schedule => Asking.each_tells (Joining.ask_tells combine) schedule _ j)
    (fun _ hs => (Stream.abates_joinAll h hs).responds) clocks

/-- Runs of a switch whose inner streams respond, and those values of whose outer stream abate for
which the inner stream does not have a value at once. -/
theorem Switching.told_in_full {s : Stream} {next : Value → Eval Stream} {passes : Answer → Prop}
    (houter : s.Abates passes) (hinner : ∀ {v i}, next v = .ok i → i.Responds)
    (hspeaks : ∀ {v i}, next v = .ok i → ¬passes (.value v) → i.Speaks) (j : Journal)
    (clocks : List Nat) :
    Asking.ToldInFull (fun schedule => Asking.each (Switching.ask next) schedule (some s, none) j)
      SwitchEvent.answered? clocks := by
  refine Asking.toldInFull_of_responds (Switching.stream next) (.ok (.switchOver s next))
    (fun schedule => Asking.each_shows (Switching.ask_shows next) schedule _ j)
    (fun schedule => Asking.each_tells (Switching.ask_tells next) schedule _ j) ?_ clocks
  rintro _ ⟨⟩
  exact Stream.abates_switchOver houter hinner hspeaks False.elim

/-- Runs of a chain none of whose operands has, at one time, no end of values that leave it to the
operands behind. -/
theorem OnDemand.told_in_full {deciding : Bool} {ctx : Context} {operands : List Compiled}
    (h : Chain.OperandsAbate deciding ctx operands) (l : SourceLocation) (m : Metadata)
    (j : Journal) (clocks : List Nat) :
    Asking.ToldInFull (fun schedule => OnDemand.run deciding l ctx m operands schedule j)
      ChainEvent.replied? clocks :=
  Asking.toldInFull_of_responds (OnDemand.stream deciding l ctx)
    (Chain.subscribe deciding l ctx m operands)
    (fun schedule => OnDemand.run_shows m operands schedule j)
    (fun schedule => OnDemand.run_tells m operands schedule j)
    (fun _ hs => Chain.responds_subscribe h hs) clocks

/-- Runs of a finder whose parameters abate, whatever its sources do. -/
theorem Finding.told_in_full {ctx : Context} {operand : Compiled} {operands : List Compiled}
    (h : ∀ c ∈ operand :: operands, ∀ s, c.subscribe ctx = .ok s → s.Abates Answer.Lasts)
    (name : String) (l : SourceLocation) (head : Bool) (j : Journal) (clocks : List Nat) :
    Asking.ToldInFull (fun schedule => Finding.run ctx name l head (operand :: operands) schedule j)
      FinderEvent.answered? clocks :=
  Asking.toldInFull_of_responds (Finding.stream ctx name l head)
    (AttributeFinder.subscribe name l head (operand :: operands) ctx)
    (fun schedule => Finding.run_shows operand operands schedule j)
    (fun schedule => Finding.run_tells (operand :: operands) schedule j)
    (fun _ hs => AttributeFinder.responds_subscribe h hs) clocks

/-! ### Trees -/

section

variable {broker : FunctionBroker} {scope : Scope} {meanings : Meanings} {ctx : Context}
  (hscope : scope.Declares .full (fun _ => True) (Environment.direct broker) meanings)
  (hctx : ctx.SourcesAbate)

include hscope hctx

/-- Runs of a tree over sources that abate have results. -/
theorem Expression.runs_settle {e : Expression} {c : Compiled} {s : Stream}
    (hc : e.compile scope = .ok c) (hs : c.subscribe ctx = .ok s) (j : Journal)
    (clocks : List Nat) : ∃ r, s.RunSettles j clocks r := by
  have abates : s.Abates Answer.Lasts :=
    hscope.abating.expression e (Sublanguage.full_admits e) hc ctx s hs hctx
  exact abates.responds.runSettles j clocks

/-- Runs of a chain of operands of a tree, over sources that abate. -/
theorem Expression.chain_told_in_full {es : List Expression} {cs operands : List Compiled}
    (hcs : Compile.expressions scope es = .ok cs) (hoperands : ∀ operand ∈ operands, operand ∈ cs)
    (deciding : Bool) (l : SourceLocation) (m : Metadata) (j : Journal) (clocks : List Nat) :
    Asking.ToldInFull (fun schedule => OnDemand.run deciding l ctx m operands schedule j)
      ChainEvent.replied? clocks := by
  have abate : ∀ c ∈ cs, c.Starts Stream.AbatesIn :=
    forall_mem_of_forall₂ (hscope.abating.expressions es (Sublanguage.full_admitsAll es) hcs)
  have operandsAbate : Chain.OperandsAbate deciding ctx operands :=
    Chain.operandsAbate_of_abates fun operand hm s hs =>
      abate operand (hoperands operand hm) ctx s hs hctx
  exact OnDemand.told_in_full operandsAbate l m j clocks

/-- Runs of a finder with the options and arguments of a tree, over sources that abate. -/
theorem Compile.finder_told_in_full {opts : Option Expression} {es : List Expression}
    {entity options : Compiled} {cs : List Compiled}
    (hoptions : Compile.options scope opts = .ok options)
    (hcs : Compile.expressions scope es = .ok cs) (hentity : entity.Starts Stream.AbatesIn)
    (name : String) (l : SourceLocation) (head : Bool) (j : Journal) (clocks : List Nat) :
    Asking.ToldInFull
      (fun schedule => Finding.run ctx name l head (entity :: options :: cs) schedule j)
      FinderEvent.answered? clocks := by
  have abating := hscope.abating
  have abate : ∀ c ∈ entity :: options :: cs, c.Starts Stream.AbatesIn := by
    refine List.forall_mem_cons.2 ⟨hentity, List.forall_mem_cons.2 ⟨?_, ?_⟩⟩
    · exact abating.options opts (Sublanguage.full_admitsOptions opts) hoptions
    · exact forall_mem_of_forall₂ (abating.expressions es (Sublanguage.full_admitsAll es) hcs)
  exact Finding.told_in_full (fun c hc s hs => abate c hc ctx s hs hctx) name l head j clocks

end

end PolicyExpr
