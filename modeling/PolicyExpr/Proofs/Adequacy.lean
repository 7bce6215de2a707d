import PolicyExpr.Proofs.Declaration
import PolicyExpr.Proofs.Focus

/-!
# Compilation against direct interpretation

What is evaluated ahead of the request, or by a shorter way, has the value that direct
interpretation gives it: constants at the front of a chain, operators on constants, patterns
that are read once, and steps whose inner expression reads only `@` and `#`. A compiled
expression that is no stream is therefore its interpretation, in every context in which calls
reach the one broker of the scope.
-/
namespace PolicyExpr

open Compiled (combine combineAt combineInContext evaluateAll)
open Operator (onOne onTwo)

/-- No broker, or a given one. -/
def FunctionBroker.Only (broker : FunctionBroker) (functions : Option FunctionBroker) : Prop :=
  functions = none ∨ functions = some broker

theorem FunctionBroker.Only.getD {broker other : FunctionBroker}
    {functions : Option FunctionBroker} (h : broker.Only functions)
    (ho : broker.Only (some other)) : functions.getD other = broker := by
  rcases h with rfl | rfl
  · rcases ho with ho | ho
    · cases ho
    · exact Option.some.inj ho
  · rfl

/-- Contexts that agree on `@` and `#`, and in which calls reach a given broker. -/
structure Context.CallsAlike (broker : FunctionBroker) (ctx ctx' : Context) : Prop where
  value : ctx.relativeValue = ctx'.relativeValue
  position : ctx.relativePosition = ctx'.relativePosition
  left : broker.Only ctx.functionBroker
  right : broker.Only ctx'.functionBroker

theorem Context.CallsAlike.focus {broker : FunctionBroker} {scope : Scope}
    (hscope : broker.Only scope.functionBroker) : Focus scope (Context.CallsAlike broker) where
  value h := h.value
  position h := h.position
  within _ _ h := ⟨rfl, rfl, h.left, h.right⟩
  calls h hother := by
    rw [hother] at hscope
    rw [h.left.getD hscope, h.right.getD hscope]

/-- A call by the broker of the interpretation is the call of the interpretation. -/
theorem Compile.call_eq_interpret {other functions : FunctionBroker} {name : String}
    {l : SourceLocation} {ctx : Context} (h : ctx.functionBroker.getD other = functions) :
    call other name l ctx = Interpret.call functions name l := by
  subst h
  rfl

/-! ## Shorter ways -/

namespace Chain

variable {Q : Compiled → Denotation → Prop} {deciding : Bool} {l : SourceLocation}

/-- A chain that its constants decide has their value. -/
theorem lazyChain_of_decided {cs : List Compiled} {ds : List Denotation} {ctx : Context}
    {m : Metadata} {v : Value} (hconstant : ∀ v d, Q (.constant v) d → d ctx = .ok v)
    (hQ : List.Forall₂ Q cs ds) (h : front deciding l m cs = .decided v) :
    Interpret.lazyChain deciding l m ds ctx = .ok v := by
  induction hQ generalizing m with
  | nil => cases h
  | @cons c d cs ds hcd _ ih =>
    cases c with
    | constant w =>
      simp only [front] at h
      rw [Interpret.lazyChain, hconstant w d hcd]
      split at h
      · next hstep =>
        cases h
        simp only [ok_bind, hstep]
        rfl
      · next m' hstep =>
        simp only [ok_bind, hstep]
        exact ih h
    | pure reads run => cases h
    | stream subscribe => cases h

/-- The constants at the front of a chain leave the rest of it, with the metadata they add. -/
theorem lazyChain_of_remaining {cs rest : List Compiled} {ds : List Denotation} {ctx : Context}
    {m m' : Metadata} (hconstant : ∀ v d, Q (.constant v) d → d ctx = .ok v)
    (hQ : List.Forall₂ Q cs ds) (h : front deciding l m cs = .remaining m' rest) :
    ∃ ds', List.Forall₂ Q rest ds' ∧
      Interpret.lazyChain deciding l m ds ctx = Interpret.lazyChain deciding l m' ds' ctx := by
  induction hQ generalizing m with
  | nil => cases h; exact ⟨[], .nil, rfl⟩
  | @cons c d cs ds hcd hrest ih =>
    cases c with
    | constant w =>
      simp only [front] at h
      split at h
      · cases h
      · next m' hstep =>
        obtain ⟨ds', hQ', hds'⟩ := ih h
        refine ⟨ds', hQ', ?_⟩
        rw [Interpret.lazyChain, hconstant w d hcd]
        simp only [ok_bind, hstep]
        exact hds'
    | pure reads run => cases h; exact ⟨d :: ds, .cons hcd hrest, rfl⟩
    | stream subscribe => cases h; exact ⟨d :: ds, .cons hcd hrest, rfl⟩

end Chain

/-- A pattern that is read once matches as one that is read each time. -/
theorem Operator.regexMatch_eq_matchCompiled {a pattern : Value} {regex : Regex}
    (h : compilePattern pattern = .ok regex) :
    regexMatch a pattern = matchCompiled a regex pattern := by
  unfold regexMatch
  cases he : firstError? [a, pattern] with
  | some e => simp [matchCompiled, binary, he]
  | none => simp [h]

/-! ## Adequacy -/

/-- An expression that is no stream has the value of its interpretation, where calls reach the
broker. -/
def Compiled.Adequate (broker : FunctionBroker) (c : Compiled) (d : Denotation) : Prop :=
  c.nature ≠ .stream → ∀ ctx : Context, broker.Only ctx.functionBroker → c.evaluate ctx = d ctx

namespace Compiled

variable {broker : FunctionBroker} {ctx : Context}

theorem adequate_constant (v : Value) : Adequate broker (.constant v) fun _ => .ok v :=
  fun _ _ _ => rfl

theorem Adequate.eq_ok {v : Value} {d : Denotation} (h : Adequate broker (.constant v) d)
    (hctx : broker.Only ctx.functionBroker) : d ctx = .ok v :=
  (h (by simp [nature]) ctx hctx).symm

theorem evaluateAll_eq_valuesOf {cs : List Compiled} {ds : List Denotation}
    (h : List.Forall₂ (Adequate broker) cs ds) (streamless : ∀ c ∈ cs, c.nature ≠ .stream)
    (hctx : broker.Only ctx.functionBroker) :
    evaluateAll cs ctx = Interpret.valuesOf ds ctx := by
  induction h with
  | nil => rfl
  | cons hcd _ ih =>
    have rest := ih fun c hm => streamless c (List.mem_cons_of_mem _ hm)
    simp only [evaluateAll, Interpret.valuesOf, List.mapM_cons] at rest ⊢
    rw [hcd (streamless _ List.mem_cons_self) ctx hctx, rest]

theorem evaluate_eq_lazyChain {deciding : Bool} {l : SourceLocation} {cs : List Compiled}
    {ds : List Denotation} (h : List.Forall₂ (Adequate broker) cs ds)
    (streamless : ∀ c ∈ cs, c.nature ≠ .stream) (hctx : broker.Only ctx.functionBroker)
    (m : Metadata) :
    Chain.evaluate deciding l ctx m cs = Interpret.lazyChain deciding l m ds ctx := by
  induction h generalizing m with
  | nil => rfl
  | @cons c d cs ds hcd _ ih =>
    have head : c.evaluate ctx = d ctx := hcd (streamless _ List.mem_cons_self) ctx hctx
    have rest := ih fun c hm => streamless c (List.mem_cons_of_mem _ hm)
    rw [Chain.evaluate, Interpret.lazyChain, head]
    cases d ctx with
    | error f => rfl
    | ok v =>
      simp only [ok_bind]
      cases Operator.lazyStep deciding m l v with
      | decided w => rfl
      | undecided m' => exact rest m'

/-- A combination of adequate operands is adequate to the operator on their denotations. -/
theorem Adequate.combineInContext {cs : List Compiled} {ds : List Denotation} {reads : Bool}
    {folding : Context} {op : Context → List Value → Eval Value} {c : Compiled} {d : Denotation}
    (h : List.Forall₂ (Adequate broker) cs ds)
    (hc : Compiled.combineInContext cs reads folding op = .ok c)
    (hop : ∀ ctx : Context, broker.Only ctx.functionBroker → reads = false →
      op folding = op ctx)
    (hd : ∀ ctx : Context, broker.Only ctx.functionBroker →
      d ctx = (Interpret.valuesOf ds ctx >>= op ctx)) : Adequate broker c d := by
  intro hn ctx hctx
  have streamless : ∀ c ∈ cs, c.nature ≠ .stream := by
    have := mt (combineInContext_nature hc).2 hn
    simpa using this
  rw [evaluate_combineInContext hc hn (hop ctx hctx), evaluateAll_eq_valuesOf h streamless hctx,
    hd ctx hctx]

theorem Adequate.chain {deciding : Bool} {l : SourceLocation} {cs : List Compiled}
    {ds : List Denotation} (h : List.Forall₂ (Adequate broker) cs ds) :
    Adequate broker (Chain.compile deciding l cs) (Interpret.lazyChain deciding l .empty ds) := by
  intro hn ctx hctx
  have hconstant : ∀ v d, Adequate broker (.constant v) d → d ctx = .ok v :=
    fun v d hv => hv.eq_ok hctx
  obtain ⟨v, hf, hc⟩ | ⟨m, hf, hc⟩ | ⟨m, rest, -, -, hc⟩ | ⟨m, rest, hf, streamless, hc⟩ :=
    Chain.compile_cases deciding l cs <;> rw [hc] at hn ⊢
  · exact (Chain.lazyChain_of_decided hconstant h hf).symm
  · obtain ⟨ds', hds', heq⟩ := Chain.lazyChain_of_remaining hconstant h hf
    cases hds'
    exact heq.symm
  · exact absurd rfl hn
  · obtain ⟨ds', hds', heq⟩ := Chain.lazyChain_of_remaining hconstant h hf
    rw [heq]
    exact evaluate_eq_lazyChain hds' streamless hctx m

end Compiled

/-! ## Trees -/

/-- A relation that is adequacy for expressions that are no streams. The rest says that streams
are related to what interpretation makes of their operands. -/
structure Faithful (L : Sublanguage) (broker : FunctionBroker) (ρ : Environment)
    (Q : Compiled → Denotation → Prop) : Prop where
  adequate : ∀ {c d}, Q c d → c.Adequate broker d
  streamless : ∀ {c d}, c.nature ≠ .stream → c.Adequate broker d → Q c d
  combined : ∀ {cs ds reads folding op c d}, List.Forall₂ Q cs ds →
    combineInContext cs reads folding op = .ok c → c.nature = .stream →
    (∀ ctx : Context, broker.Only ctx.functionBroker →
      d ctx = (Interpret.valuesOf ds ctx >>= op ctx)) → Q c d
  chained : ∀ {deciding l cs ds}, List.Forall₂ Q cs ds →
    (Chain.compile deciding l cs).nature = .stream →
    Q (Chain.compile deciding l cs) (Interpret.lazyChain deciding l .empty ds)
  finder : ∀ {name l head cs ds}, L.finder head = true → List.Forall₂ Q cs ds →
    Q (AttributeFinder.compile name l head cs) fun ctx => do
      ρ.finder l name (← Interpret.valuesOf ds ctx) ctx

/-- Adequacy itself says nothing about streams. -/
theorem Compiled.Adequate.faithful (L : Sublanguage) (broker : FunctionBroker) (ρ : Environment) :
    Faithful L broker ρ (Compiled.Adequate broker) where
  adequate h := h
  streamless _ h := h
  combined _ _ hstream _ := fun hn => absurd hstream hn
  chained _ hstream := fun hn => absurd hstream hn
  finder _ _ := fun hn => absurd rfl hn

namespace Faithful

variable {L : Sublanguage} {scope : Scope} {ρ : Environment} {broker : FunctionBroker}
  {Q : Compiled → Denotation → Prop}

theorem combineInContext (h : Faithful L broker ρ Q) {cs : List Compiled} {ds : List Denotation}
    {reads : Bool} {folding : Context} {op : Context → List Value → Eval Value} {c : Compiled}
    {d : Denotation} (hQ : List.Forall₂ Q cs ds)
    (hc : Compiled.combineInContext cs reads folding op = .ok c)
    (hop : ∀ ctx : Context, broker.Only ctx.functionBroker → reads = false →
      op folding = op ctx)
    (hd : ∀ ctx : Context, broker.Only ctx.functionBroker →
      d ctx = (Interpret.valuesOf ds ctx >>= op ctx)) : Q c d := by
  by_cases hn : c.nature = .stream
  · exact h.combined hQ hc hn hd
  · exact h.streamless hn (.combineInContext (hQ.imp fun _ _ => h.adequate) hc hop hd)

/-- A step that is applied ahead of the request rebinds `@` and `#` in another context than the
request's, which makes no difference to an inner expression that is not scoped. -/
theorem relativeStep (h : Faithful L broker ρ Q) (hscope : broker.Only scope.functionBroker)
    {step : RelativeStep} {l : SourceLocation} {base inner c : Compiled} {d di : Denotation}
    {refused : Bool} (hrefused : refused = true ↔ inner.nature = .stream)
    (hreads : inner.ReadsOnly (Context.CallsAlike broker)) (hinner : Q inner di) (hbase : Q base d)
    (hc : Compile.relativeStep scope step l base inner step.apply = .ok c) :
    Q c (Interpret.relativeStep refused step l d di) := by
  obtain ⟨hn, rfl⟩ | ⟨hn, hc⟩ := Compile.relativeStep_cases hc
  · refine h.streamless (by simp [Compiled.nature]) fun _ ctx _ => ?_
    simp only [Interpret.relativeStep, hrefused.2 hn, if_true]
    rfl
  · have hrefused : refused = false := Bool.eq_false_iff.2 (mt hrefused.1 hn)
    refine h.combineInContext (.cons hbase .nil) hc (fun ctx hctx hscoped => ?_)
      fun ctx hctx => ?_
    · have same : ∀ v p, inner.evaluate (scope.foldingContext.withRelative v p) =
          inner.evaluate (ctx.withRelative v p) := fun v p =>
        hreads hn hscoped _ _ ⟨rfl, rfl, hscope, hctx⟩
      simp only [same]
    · have rebound : ∀ v p, inner.evaluate (ctx.withRelative v p) = di (ctx.withRelative v p) :=
        fun v p => h.adequate hinner hn _ hctx
      simp only [Interpret.relativeStep, hrefused, Interpret.valuesOf, rebound, List.mapM_cons]
      cases d ctx <;> simp [onOne]

/-- Such a relation is kept by every tree, where the interpreter refuses the inner expressions
that compile to streams and no others. -/
theorem correspondence (h : Faithful L broker ρ Q) (hscope : broker.Only scope.functionBroker)
    (hfunctions : ρ.functions = broker)
    (hreads : Correspondence L scope ρ fun c _ => c.ReadsOnly (Context.CallsAlike broker))
    (hrefuses : ∀ {e inner}, L.admits e = true → Compile.expression scope e = .ok inner →
      (ρ.refuses e = true ↔ inner.nature = .stream))
    (hdefinitions : ∀ name, Option.Rel Q (scope.definitions.get? name) (ρ.definitions name)) :
    Correspondence L scope ρ Q where
  imports := hreads.imports
  definitions := hdefinitions
  constant v := h.streamless (by simp [Compiled.nature]) (Compiled.adequate_constant v)
  request _ := h.streamless (by simp [Compiled.nature]) fun _ _ _ => rfl
  relative := h.streamless (by simp [Compiled.nature]) fun _ _ _ => rfl
  position := h.streamless (by simp [Compiled.nature]) fun _ _ _ => rfl
  combined _ hQ hc := h.combineInContext hQ hc (fun _ _ _ => rfl) fun _ _ => rfl
  matched {l a pattern regex da dp c} ha hp hregex hc := by
    refine h.combineInContext (.cons ha .nil) hc (fun _ _ _ => rfl) fun ctx hctx => ?_
    simp only [Interpret.applyAt, Interpret.apply, Interpret.valuesOf, List.mapM_cons,
      (h.adequate hp).eq_ok hctx]
    cases da ctx <;> simp [onOne, onTwo, Operator.regexMatch_eq_matchCompiled hregex]
  chained {deciding l cs ds} hQ := by
    by_cases hn : (Chain.compile deciding l cs).nature = .stream
    · exact h.chained hQ hn
    · exact h.streamless hn (.chain (hQ.imp fun _ _ => h.adequate))
  called {other name l cs ds c} hother hQ hc := by
    have hbroker : broker.Only (some other) := hother ▸ hscope
    refine h.combineInContext hQ hc (fun ctx hctx _ => ?_) fun ctx hctx => ?_
    · funext vs
      have folding := hscope.getD hbroker
      simp only [Compile.call, Scope.foldingContext, folding, hctx.getD hbroker]
    · rw [Compile.call_eq_interpret ((hctx.getD hbroker).trans hfunctions.symm)]
      rfl
  relativeStep _ he hinner hdi hbase hc :=
    h.relativeStep hscope (hrefuses he hinner) (hreads.expression _ he hinner) hdi hbase hc
  finder hhead hQ := h.finder hhead hQ

end Faithful

section

variable {scope : Scope} {ρ : Environment}

/-- Without attribute finders nothing compiles to a stream. -/
theorem streamless_correspondence (himports : ρ.imports = scope.imports)
    (hdefinitions : ∀ name, Option.Rel (fun c _ => c.nature ≠ .stream)
      (scope.definitions.get? name) (ρ.definitions name)) :
    Correspondence .finderFree scope ρ fun c _ => c.nature ≠ .stream where
  imports := himports
  definitions := hdefinitions
  constant _ := by simp [Compiled.nature]
  request _ := by simp [Compiled.nature]
  relative := by simp [Compiled.nature]
  position := by simp [Compiled.nature]
  combined _ h hc := by
    simpa [Compiled.combineInContext_nature hc] using forall_mem_of_forall₂ h
  matched ha _ _ hc := by simpa [Compiled.combineInContext_nature hc] using ha
  chained h := Chain.compile_nature (forall_mem_of_forall₂ h)
  called _ h hc := by
    simpa [Compiled.combineInContext_nature hc] using forall_mem_of_forall₂ h
  relativeStep _ _ _ _ hbase hc := by
    obtain ⟨-, rfl⟩ | ⟨-, hc⟩ := Compile.relativeStep_cases hc
    · simp [Compiled.nature]
    · simpa [Compiled.combineInContext_nature hc] using hbase
  finder h _ := by cases h

end

/-- In any environment that has the imports of the scope, declared trees read only what calls
to one broker make no difference to. -/
theorem Scope.Declares.readsOnly {L : Sublanguage} {broker : FunctionBroker}
    {env : Scope → Meanings → Environment} {scope : Scope} {meanings : Meanings}
    (himports : ∀ scope meanings, (env scope meanings).imports = scope.imports)
    (hdefinitions : ∀ scope meanings, (env scope meanings).definitions = meanings)
    (h : scope.Declares L broker.Only env meanings) :
    Correspondence L scope (env scope meanings) fun c _ =>
      c.ReadsOnly (Context.CallsAlike broker) :=
  h.correspondence Compiled.readsOnly_constant fun hscope hrel =>
    readsOnly_correspondence (Context.CallsAlike.focus hscope.broker) (himports _ _)
      (by simpa only [hdefinitions] using hrel)

/-- A tree without attribute finders, in a scope of such trees, compiles to a constant or a
function of the context, whose value in every context is that of direct interpretation. -/
theorem evaluate_eq_interpret {broker : FunctionBroker} {scope : Scope} {meanings : Meanings}
    {e : Expression} {c : Compiled}
    (hscope : scope.Declares .finderFree broker.Only (Environment.direct broker) meanings)
    (he : Sublanguage.finderFree.admits e = true) (hc : e.compile scope = .ok c) :
    c.nature ≠ .stream ∧
      ∀ ctx : Context, broker.Only ctx.functionBroker →
        c.evaluate ctx = e.interpret (.direct broker scope meanings) ctx := by
  have streamless {scope : Scope} {meanings : Meanings}
      (h : scope.Declares .finderFree broker.Only (Environment.direct broker) meanings) :
      Correspondence .finderFree scope (.direct broker scope meanings) fun c _ =>
        c.nature ≠ .stream :=
    h.correspondence (fun _ => by simp [Compiled.nature]) fun _ hrel =>
      streamless_correspondence rfl hrel
  have adequate : Correspondence .finderFree scope (.direct broker scope meanings)
      (Compiled.Adequate broker) :=
    hscope.correspondence Compiled.adequate_constant fun h hrel =>
      (Compiled.Adequate.faithful _ _ _).correspondence h.broker rfl
        (h.readsOnly (fun _ _ => rfl) fun _ _ => rfl)
        (fun he hinner => by simpa [Environment.direct] using (streamless h).expression _ he hinner)
        hrel
  have hn := (streamless hscope).expression e he hc
  exact ⟨hn, adequate.expression e he hc hn⟩

/-- `subject[?(@ == wanted)]` with a local `wanted`, for a subject that is a list: the compiled
condition step and the interpreted one have the same value. -/
theorem evaluate_filter_eq_interpret :
    let broker := FunctionRegistry.standard.evaluate
    let name (x : String) : Expression := .basic .unknown (.identifier x) [] none
    let text (s : String) : Expression := .basic .unknown (.literal (.text s)) [] none
    let at_ : Expression := .basic .unknown .relative [] none
    let e : Expression := .basic .unknown (.identifier "subject")
      [.condition (.equality .equal .unknown at_ (name "wanted"))] none
    let origin : Scope := ⟨.empty, some broker, .empty⟩
    let scope := origin.bind "wanted" (.constant (.text "b"))
    let meanings := Meanings.none.bind "wanted" ((text "b").interpret (.direct broker origin .none))
    let ctx := { Context.empty with subject := .array [.text "a", .text "b"] }
    ∃ c, e.compile scope = .ok c ∧ c.nature = .pure ∧
      c.evaluate ctx = e.interpret (.direct broker scope meanings) ctx := by
  intro broker name text at_ e origin scope meanings ctx
  have start : origin.Declares .finderFree broker.Only (Environment.direct broker) .none :=
    .start (.inr rfl)
  have declared : scope.Declares .finderFree broker.Only (Environment.direct broker) meanings :=
    .compiled start start rfl rfl
  exact ⟨_, rfl, rfl, (evaluate_eq_interpret declared (e := e) rfl rfl).2 ctx (.inl rfl)⟩

end PolicyExpr
