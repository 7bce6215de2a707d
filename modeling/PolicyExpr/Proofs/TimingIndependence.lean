import PolicyExpr.Proofs.Adequacy
import PolicyExpr.Proofs.Driving
import PolicyExpr.Proofs.Faults
import PolicyExpr.Proofs.LatestJoin
import PolicyExpr.Proofs.LatestSwitch

/-!
# Timing makes no difference in the end

The stream of a tree converges to what direct interpretation makes of the last values of its
attributes, whenever the values before them arrive. Driven by a clock it ends with that value
last, or it aborts where a text cannot be written.
-/
namespace PolicyExpr

open Compiled (combineInContext subscribeAll)
open Value (array failureAt)

/-! ## Attribute finders -/

/-- The value of an attribute finder, where the source of an invocation has `last` as its last
value. -/
def AttributeFinder.settled (last : AttributeInvocation → Value) (l : SourceLocation)
    (name : String) (parameters : List Value) : Denotation := fun ctx =>
  match parameters with
  | entity :: options :: arguments =>
    match Operator.firstError? (entity :: options :: arguments) with
    | some e => .ok (e.locate l)
    | none =>
      if entity.isUndefined then .ok (failureAt .undefinedEntity l)
      else match ctx.attributeBroker with
        | none => .ok (failureAt .noAttributeBroker l)
        | some _ => .ok (forwarded l entity.isSecret
            (last (invocation ctx name entity options arguments)))
  | _ => .ok (failureAt .attributeParameters l)

/-- What trees with attribute finders are interpreted in, once all sources have ended: a finder
has the last value of its invocation, and an inner expression that compiles to a stream is
refused. -/
def Environment.settled (broker : FunctionBroker) (last : AttributeInvocation → Value)
    (scope : Scope) (meanings : Meanings) : Environment where
  functions := broker
  imports := scope.imports
  definitions := meanings
  finder := AttributeFinder.settled last
  refuses e := match e.compile scope with
    | .ok c => c.nature == .stream
    | .error _ => false

/-- Every source that a context has for an invocation delivers, with the same value last. -/
def Context.Delivers (ctx : Context) (last : AttributeInvocation → Value) : Prop :=
  ∀ broker, ctx.attributeBroker = some broker → ∀ n i, (broker n i).Delivers (last i) none 0

/-- The stream of one vector of parameters comes to the settled value. -/
theorem AttributeFinder.converges_values {ctx : Context} {last : AttributeInvocation → Value}
    (h : ctx.Delivers last) (name : String) (l : SourceLocation) (vector : Value) :
    Stream.Converges (settled last l name (vector.asArray?.getD []) ctx) none
      (values ctx name l vector) := by
  unfold values
  match vector.asArray? with
  | none | some [] | some [_] => exact Stream.converges_once _
  | some (entity :: options :: arguments) =>
    simp only [Option.getD_some, settled]
    cases Operator.firstError? (entity :: options :: arguments) with
    | some e => exact Stream.converges_once _
    | none =>
      cases entity.isUndefined with
      | true => exact Stream.converges_once _
      | false =>
        cases hbroker : ctx.attributeBroker with
        | none => exact Stream.converges_once _
        | some broker =>
          exact Stream.converges_map (Stream.converges_unopened fun n => h broker hbroker n _) _

/-! ## Compiled expressions -/

/-- The stream of an expression in a context comes to the value of its interpretation. -/
def Compiled.Flows (ctx : Context) (c : Compiled) (d : Denotation) : Prop :=
  ∀ s, c.subscribe ctx = .ok s → s.Converges (d ctx) none

namespace Compiled

variable {broker : FunctionBroker} {ctx : Context} {cs : List Compiled} {ds : List Denotation}

/-- What is no stream emits its value once. -/
theorem Flows.of_adequate {c : Compiled} {d : Denotation} (hn : c.nature ≠ .stream)
    (h : Adequate broker c d) (hctx : broker.Only ctx.functionBroker) : Flows ctx c d := by
  intro s hs
  rw [← h hn ctx hctx]
  cases c with
  | constant v =>
    cases hs
    exact Stream.converges_once v
  | pure readsRequest run =>
    obtain ⟨v, hv, hs⟩ := bind_eq_ok hs
    cases hs
    rw [evaluate, hv]
    exact Stream.converges_once v
  | stream subscribe => exact absurd rfl hn

private theorem flows_subscribeAll {streams : List Stream}
    (h : List.Forall₂ (Flows ctx) cs ds) (hs : subscribeAll cs ctx = .ok streams) :
    List.Forall₂ (fun t s => Stream.Converges t none s) (ds.map fun d => d ctx) streams := by
  induction h generalizing streams with
  | nil =>
    cases hs
    exact .nil
  | cons hcd _ ih =>
    simp only [subscribeAll, List.mapM_cons] at hs
    obtain ⟨first, hfirst, hs⟩ := bind_eq_ok hs
    obtain ⟨rest, hrest, hs⟩ := bind_eq_ok hs
    cases hs
    exact .cons (hcd first hfirst) (ih hrest)

/-- A join of operands comes to what the operator makes of their interpretations. -/
theorem flows_joinAll {op : List Value → Eval Value} {streams : List Stream} {s : Stream}
    (h : List.Forall₂ (Flows ctx) cs ds) (hstreams : subscribeAll cs ctx = .ok streams)
    (hs : Stream.joinAll streams op = .ok s) :
    s.Converges (Interpret.valuesOf ds ctx >>= op) none := by
  have targets : (ds.map fun d => d ctx).mapM id = Interpret.valuesOf ds ctx := by
    simp [Interpret.valuesOf, List.mapM_map]
  rw [← targets]
  exact Stream.converges_joinAll (flows_subscribeAll h hstreams) hs

/-- The rest of a chain is subscribed to anew for every value that decides nothing. -/
theorem flows_chain {deciding : Bool} {l : SourceLocation} {m : Metadata} {s : Stream}
    (h : List.Forall₂ (Flows ctx) cs ds) (hs : Chain.subscribe deciding l ctx m cs = .ok s) :
    s.Converges (Interpret.lazyChain deciding l m ds ctx) none := by
  induction h generalizing m s with
  | nil =>
    cases hs
    exact Stream.converges_once _
  | cons hcd _ ih =>
    obtain ⟨source, hsource, hs⟩ := bind_eq_ok hs
    cases hs
    refine Stream.converges_switchOver (fun v s hs => ?_) (hcd source hsource)
    cases hstep : Operator.lazyStep deciding m l v with
    | decided w =>
      rw [hstep] at hs
      cases hs
      exact Stream.converges_once w
    | undecided m' =>
      rw [hstep] at hs
      exact ih hs

/-- A finder subscribes anew for every vector of parameters. -/
theorem flows_finder {last : AttributeInvocation → Value} (hdelivers : ctx.Delivers last)
    {name : String} {l : SourceLocation} (h : List.Forall₂ (Flows ctx) cs ds) :
    Flows ctx (AttributeFinder.compile name l false cs) fun ctx =>
      Interpret.valuesOf ds ctx >>= fun vs => AttributeFinder.settled last l name vs ctx := by
  intro s hs
  obtain ⟨streams, hstreams, hs⟩ := bind_eq_ok hs
  obtain ⟨parameters, hparameters, hs⟩ := bind_eq_ok hs
  cases hs
  have joined : parameters.Converges
      (Interpret.valuesOf ds ctx >>= fun vs => .ok (array vs)) none :=
    flows_joinAll h hstreams hparameters
  have inner : ∀ vector s, (.ok (AttributeFinder.values ctx name l vector) : Eval Stream) = .ok s →
      s.Converges (AttributeFinder.settled last l name (vector.asArray?.getD []) ctx) none := by
    intro vector s hs
    cases hs
    exact AttributeFinder.converges_values hdelivers name l vector
  have found := Stream.converges_switchOver inner joined
  rw [bind_assoc] at found
  exact found

/-- So streams are related to interpretation as an adequate expression is. -/
theorem Flows.faithful {last : AttributeInvocation → Value} {ρ : Environment}
    (hctx : broker.Only ctx.functionBroker) (hdelivers : ctx.Delivers last)
    (hfinder : ρ.finder = AttributeFinder.settled last) :
    Faithful .headFree broker ρ fun c d => c.Adequate broker d ∧ c.Flows ctx d where
  adequate h := h.1
  streamless hn h := ⟨h, .of_adequate hn h hctx⟩
  combined {cs ds reads folding op c d} h hc hstream hd := by
    refine ⟨fun hn => absurd hstream hn, fun s hs => ?_⟩
    obtain ⟨-, rfl⟩ | ⟨-, -, vs, v, -, -, rfl⟩ | ⟨-, rfl⟩ := combineInContext_cases hc
    · obtain ⟨streams, hstreams, hs⟩ := bind_eq_ok hs
      rw [hd ctx hctx]
      exact flows_joinAll (h.imp fun _ _ => And.right) hstreams hs
    · cases hstream
    · cases hstream
  chained {deciding l cs ds} h hstream := by
    refine ⟨fun hn => absurd hstream hn, fun s hs => ?_⟩
    have hconstant : ∀ v d, Adequate broker (.constant v) d ∧ Flows ctx (.constant v) d →
        d ctx = .ok v := fun v d hv => hv.1.eq_ok hctx
    obtain ⟨v, -, hc⟩ | ⟨m, -, hc⟩ | ⟨m, rest, hf, -, hc⟩ | ⟨m, rest, -, -, hc⟩ :=
      Chain.compile_cases deciding l cs <;> rw [hc] at hs hstream
    · cases hstream
    · cases hstream
    · obtain ⟨ds', hds', heq⟩ := Chain.lazyChain_of_remaining hconstant h hf
      rw [heq]
      exact flows_chain (hds'.imp fun _ _ => And.right) hs
    · cases hstream
  finder {name l head cs ds} hhead h := by
    have hhead : head = false := by simpa [Sublanguage.headFree] using hhead
    subst hhead
    rw [hfinder]
    exact ⟨fun hn => absurd rfl hn, flows_finder hdelivers (h.imp fun _ _ => And.right)⟩

end Compiled

/-- The stream of a tree without heads comes to the value of its interpretation in the settled
environment. -/
theorem flows_of_compile {broker : FunctionBroker} {last : AttributeInvocation → Value}
    {scope : Scope} {meanings : Meanings} {e : Expression} {c : Compiled} {ctx : Context}
    (hscope : scope.Declares .headFree broker.Only (Environment.settled broker last) meanings)
    (he : Sublanguage.headFree.admits e = true) (hc : e.compile scope = .ok c)
    (hctx : broker.Only ctx.functionBroker) (hdelivers : ctx.Delivers last) :
    c.Flows ctx (e.interpret (.settled broker last scope meanings)) := by
  have correspondence : Correspondence .headFree scope (.settled broker last scope meanings)
      fun c d => c.Adequate broker d ∧ c.Flows ctx d :=
    hscope.correspondence
      (fun v => ⟨Compiled.adequate_constant v, .of_adequate (by simp [Compiled.nature])
        (Compiled.adequate_constant v) hctx⟩)
      fun h hrel => (Compiled.Flows.faithful hctx hdelivers rfl).correspondence h.broker rfl
        (h.readsOnly (fun _ _ => rfl) fun _ _ => rfl)
        (fun _ hinner => by simp [Environment.settled, Expression.compile, hinner]) hrel
  exact (correspondence.expression e he hc).2

/-! ## Runs -/

/-- A subscription in a context runs to its end with a value last. -/
def Compiled.Completes (c : Compiled) (ctx : Context) (v : Value) : Prop :=
  ∃ s t, c.subscribe ctx = .ok s ∧ s.Drives 0 [] (.ok t) ∧ t.EndsWith v

/-- A subscription, or a poll of its stream, aborts: a text cannot be written. -/
def Compiled.Aborts (c : Compiled) (ctx : Context) : Prop :=
  (∃ f, c.subscribe ctx = .error f) ∨ ∃ s f, c.subscribe ctx = .ok s ∧ s.Drives 0 [] (.error f)

theorem Compiled.Completes.not_aborts {c : Compiled} {ctx : Context} {v : Value}
    (h : c.Completes ctx v) : ¬c.Aborts ctx := by
  obtain ⟨s, t, hs, hdrives, -⟩ := h
  rintro (⟨f, hf⟩ | ⟨s', f, hs', hfault⟩)
  · cases hs.symm.trans hf
  · cases hs.symm.trans hs'
    cases hdrives.unique hfault

/-- The stream of a tree without heads, over sources that deliver at whatever times, ends with the
value that direct interpretation makes of their last values, and this exactly where no
poll aborts. -/
theorem completes_iff_not_aborts {broker : FunctionBroker} {last : AttributeInvocation → Value}
    {scope : Scope} {meanings : Meanings} {e : Expression} {c : Compiled} {ctx : Context}
    (hscope : scope.Declares .headFree broker.Only (Environment.settled broker last) meanings)
    (he : Sublanguage.headFree.admits e = true) (hc : e.compile scope = .ok c)
    (hctx : broker.Only ctx.functionBroker) (hdelivers : ctx.Delivers last) :
    (∃ v, c.Completes ctx v ∧ e.interpret (.settled broker last scope meanings) ctx = .ok v) ↔
      ¬c.Aborts ctx := by
  refine ⟨fun ⟨v, hv, _⟩ => hv.not_aborts, fun h => ?_⟩
  cases hs : c.subscribe ctx with
  | error f => exact absurd (.inl ⟨f, hs⟩) h
  | ok s =>
    have converges := flows_of_compile hscope he hc hctx hdelivers s hs
    obtain ⟨r, hr, hcompletes⟩ := converges.drives 0 []
    cases r with
    | error f => exact absurd (.inr ⟨s, f, hs, hr⟩) h
    | ok t =>
      obtain ⟨hend, v, hlast, htarget⟩ := hcompletes t rfl
      exact ⟨v, ⟨s, t, hs, hr, hend, by simpa using hlast⟩, htarget⟩

/-- `<x> || <y>`, where `x` is false twice and `y` false at first: the first subscription to `y` is
dropped, and the stream ends with what the second comes to. -/
theorem completes_disjunction :
    let broker := FunctionRegistry.empty.evaluate
    let finder (x : String) : Expression :=
      .basic .unknown (.environmentAttribute x [] none false) [] none
    let e : Expression := .lazy .disjunction .unknown [finder "x", finder "y"]
    let last (i : AttributeInvocation) : Value := .boolean (i.name = "y")
    let attributes : AttributeBroker := fun _ i => .ofScript <|
      if i.name = "y" then [.wait 1, .emit (.boolean false), .wait 3, .emit (.boolean true)]
      else [.emit (.boolean false), .wait 2, .emit (.boolean false)]
    let ctx := { Context.empty with attributeBroker := some attributes }
    ∃ c, e.compile .empty = .ok c ∧ ¬c.Aborts ctx ∧
      ∃ v, c.Completes ctx v ∧ e.interpret (.settled broker last .empty .none) ctx = .ok v := by
  intro broker finder e last attributes ctx
  have declared : Scope.empty.Declares .headFree broker.Only (Environment.settled broker last)
      .none := .start (.inl rfl)
  have delivers : ctx.Delivers last := by
    intro _ hattributes n i
    cases hattributes
    by_cases hname : i.name = "y"
    · simp only [attributes, last, hname, if_true]
      exact Source.delivers_ofScript (by simp) rfl
    · simp only [attributes, last, hname, if_false]
      exact Source.delivers_ofScript (by simp) rfl
  obtain ⟨c, hc⟩ : ∃ c, e.compile .empty = .ok c := ⟨_, rfl⟩
  have hrun : ¬c.Aborts ctx := by
    cases hc
    rintro (⟨f, hf⟩ | ⟨s, f, hs, hfault⟩)
    · cases hf
    · obtain ⟨t, ht⟩ : ∃ t, s.drive 20 20 20 20 0 [] = .ok t := by
        cases hs
        exact ⟨_, rfl⟩
      have hdrives : s.Drives 0 [] (.ok t) := by
        refine ⟨20, fun fuel hfuel ticks hticks turns hturns limit hlimit => ?_⟩
        obtain ⟨fuel, rfl⟩ : ∃ k, fuel = k + 20 := ⟨fuel - 20, by omega⟩
        obtain ⟨ticks, rfl⟩ : ∃ k, ticks = k + 20 := ⟨ticks - 20, by omega⟩
        obtain ⟨turns, rfl⟩ : ∃ k, turns = k + 20 := ⟨turns - 20, by omega⟩
        obtain ⟨limit, rfl⟩ : ∃ k, limit = k + 20 := ⟨limit - 20, by omega⟩
        cases hs
        cases ht
        rfl
      cases hfault.unique hdrives
  exact ⟨c, hc, hrun, (completes_iff_not_aborts declared rfl hc (.inl rfl) delivers).2 hrun⟩

/-- `("a" + <x>) == <y>` aborts where `x` is first a number that cannot be written, whatever it is
later and whatever `y` is. -/
theorem aborts_of_unwritable {n : Decimal} (h : n.toJson? = none) (later y : List ScriptItem) :
    let finder (x : String) : Expression :=
      .basic .unknown (.environmentAttribute x [] none false) [] none
    let e : Expression := .equality .equal .unknown
      (.addition .unknown [.basic .unknown (.literal (.text "a")) [] none, finder "x"] [.plus])
      (finder "y")
    let attributes : AttributeBroker := fun _ i =>
      .ofScript (if i.name = "x" then .emit (.number n) :: later else y)
    ∃ c, e.compile .empty = .ok c ∧
      c.Aborts { Context.empty with attributeBroker := some attributes } := by
  refine ⟨_, rfl, .inr ⟨_, .unwritable n, rfl, Stream.drives_of_fault ?_⟩⟩
  refine Stream.answers_join_fault ⟨10, fun fuel hfuel => ?_⟩
  obtain ⟨k, rfl⟩ : ∃ k, fuel = k + 10 := ⟨fuel - 10, by omega⟩
  change (Halt.lift (Operator.chain [AdditiveOperator.plus.apply] [.text "a", ⟨.number n, _⟩] >>=
    fun v => .ok (v.locate .unknown)) >>= fun v => Except.ok (Polled.mk (.value v) _ _)) = _
  rw [Operator.chain_unwritable h]
  rfl

/-- Where `x` is first a number that cannot be written and then one, and `y` is late, the direct
interpretation of `("a" + <x>) == <y>` has a result, and its run does not come to an end. -/
theorem not_completes_unwritable :
    let broker := FunctionRegistry.empty.evaluate
    let finder (x : String) : Expression :=
      .basic .unknown (.environmentAttribute x [] none false) [] none
    let e : Expression := .equality .equal .unknown
      (.addition .unknown [.basic .unknown (.literal (.text "a")) [] none, finder "x"] [.plus])
      (finder "y")
    let last (i : AttributeInvocation) : Value := if i.name = "x" then .ofNat 1 else .text "a1"
    let attributes : AttributeBroker := fun _ i => .ofScript <|
      if i.name = "x" then [.emit (.number (.ofNat (Nat.pow 10 400))), .emit (.ofNat 1)]
      else [.wait 1, .emit (.text "a1")]
    let ctx := { Context.empty with attributeBroker := some attributes }
    ctx.Delivers last ∧ ∃ c, e.compile .empty = .ok c ∧
      (∃ v, e.interpret (.settled broker last .empty .none) ctx = .ok v ∧ v.kind = .boolean true) ∧
      ¬∃ v, c.Completes ctx v := by
  intro broker finder e last attributes ctx
  have hunwritable : (Decimal.ofNat (Nat.pow 10 400)).toJson? = none := by decide +kernel
  refine ⟨?_, ?_⟩
  · intro _ hattributes n i
    cases hattributes
    by_cases hname : i.name = "x"
    · simp only [attributes, last, hname, if_true]
      exact Source.delivers_ofScript (by simp [-Nat.reducePow]) rfl
    · simp only [attributes, last, hname, if_false]
      exact Source.delivers_ofScript (by simp) rfl
  · obtain ⟨c, hc, haborts⟩ :=
      aborts_of_unwritable hunwritable [.emit (.ofNat 1)] [.wait 1, .emit (.text "a1")]
    exact ⟨c, hc, ⟨_, rfl, rfl⟩, fun ⟨v, hv⟩ => hv.not_aborts haborts⟩

end PolicyExpr
