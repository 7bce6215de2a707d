import PolicyExpr.Proofs.Declaration

/-!
# What unscoped expressions read

An expression that is neither a stream nor scoped reads nothing of its context but `@`, `#` and
the function broker. This is what allows a step with such an inner expression to be applied
ahead of the request.

The induction is over a relation of contexts, `Focus`, that keeps what an unscoped expression
reads. Besides equality of the three parts there is the weaker relation of contexts in which
calls reach one broker, under which ahead-of-time and direct evaluation are compared.
-/
namespace PolicyExpr

open Compiled (combineInContext evaluateAll)

/-- A relation of contexts that keeps what unscoped expressions of a scope read. -/
structure Focus (scope : Scope) (R : Context → Context → Prop) : Prop where
  value : ∀ {ctx ctx'}, R ctx ctx' → ctx.relativeValue = ctx'.relativeValue
  position : ∀ {ctx ctx'}, R ctx ctx' → ctx.relativePosition = ctx'.relativePosition
  within : ∀ {ctx ctx'} v p, R ctx ctx' → R (ctx.withRelative v p) (ctx'.withRelative v p)
  calls : ∀ {ctx ctx' broker}, R ctx ctx' → scope.functionBroker = some broker →
    ctx.functionBroker.getD broker = ctx'.functionBroker.getD broker

/-- If an expression is not scoped then related contexts give it the same value. -/
def Compiled.ReadsOnly (R : Context → Context → Prop) (c : Compiled) : Prop :=
  c.nature ≠ .stream → c.isScoped = false →
    ∀ ctx ctx', R ctx ctx' → c.evaluate ctx = c.evaluate ctx'

namespace Compiled

variable {R : Context → Context → Prop}

theorem readsOnly_constant (v : Value) : ReadsOnly R (.constant v) :=
  fun _ _ _ _ _ => rfl

theorem readsOnly_stream {subscribe : Context → Eval Stream} : ReadsOnly R (.stream subscribe) :=
  fun h => absurd rfl h

/-- A combination reads what its operands and its operator read. -/
theorem readsOnly_combineInContext {cs : List Compiled} {reads : Bool} {folding : Context}
    {op : Context → List Value → Eval Value} {c : Compiled} (hcs : ∀ c ∈ cs, ReadsOnly R c)
    (hop : reads = false → ∀ ctx ctx', R ctx ctx' → op ctx = op ctx')
    (hc : combineInContext cs reads folding op = .ok c) : ReadsOnly R c := by
  obtain ⟨-, rfl⟩ | ⟨-, -, vs, v, -, -, rfl⟩ | ⟨streamless, rfl⟩ := combineInContext_cases hc
  · exact readsOnly_stream
  · exact readsOnly_constant v
  · intro _ hscoped ctx ctx' hR
    simp only [isScoped, Bool.or_eq_false_iff, List.any_eq_false, Bool.not_eq_true] at hscoped
    have operands : evaluateAll cs ctx = evaluateAll cs ctx' := evaluateAll_congr fun c hm =>
      hcs c hm (streamless c hm) (hscoped.2 c hm) ctx ctx' hR
    simp only [evaluate, operands, hop hscoped.1 ctx ctx' hR]

private theorem chain_congr {deciding : Bool} {l : SourceLocation} {ctx ctx' : Context}
    {cs : List Compiled} (h : ∀ c ∈ cs, c.evaluate ctx = c.evaluate ctx') (m : Metadata) :
    Chain.evaluate deciding l ctx m cs = Chain.evaluate deciding l ctx' m cs := by
  induction cs generalizing m with
  | nil => rfl
  | cons c rest ih =>
    simp only [Chain.evaluate, h c (by simp), ih fun d hd => h d (by simp [hd])]

theorem readsOnly_chain {deciding : Bool} {l : SourceLocation} {cs : List Compiled}
    (hcs : ∀ c ∈ cs, ReadsOnly R c) : ReadsOnly R (Chain.compile deciding l cs) := by
  obtain ⟨v, -, hc⟩ | ⟨m, -, hc⟩ | ⟨m, rest, -, -, hc⟩ | ⟨m, rest, hf, streamless, hc⟩ :=
    Chain.compile_cases deciding l cs <;> rw [hc]
  · exact readsOnly_constant v
  · exact readsOnly_constant _
  · exact readsOnly_stream
  · intro _ hscoped ctx ctx' hR
    simp only [isScoped, List.any_eq_false, Bool.not_eq_true] at hscoped
    exact chain_congr (fun c hm => hcs c (Chain.mem_of_front hf c hm) (streamless c hm)
      (hscoped c hm) ctx ctx' hR) m

/-- A step rebinds `@` and `#` for its inner expression, in related contexts alike. -/
theorem readsOnly_relativeStep {scope : Scope} (hR : Focus scope R) {step : RelativeStep}
    {l : SourceLocation} {base inner c : Compiled}
    {apply : Value → Selection.Inner → Eval Value} (hbase : ReadsOnly R base)
    (hinner : ReadsOnly R inner)
    (hc : Compile.relativeStep scope step l base inner apply = .ok c) : ReadsOnly R c := by
  obtain ⟨-, rfl⟩ | ⟨streamless, hc⟩ := Compile.relativeStep_cases hc
  · exact readsOnly_constant _
  · refine readsOnly_combineInContext (by simpa using hbase) (fun hreads ctx ctx' h => ?_) hc
    have rebound : ∀ v p, inner.evaluate (ctx.withRelative v p) =
        inner.evaluate (ctx'.withRelative v p) :=
      fun v p => hinner streamless hreads _ _ (hR.within v p h)
    simp only [rebound]

end Compiled

/-- Every tree keeps what its scope's definitions have: it reads only its focus. -/
theorem readsOnly_correspondence {L : Sublanguage} {scope : Scope} {ρ : Environment}
    {R : Context → Context → Prop} (hR : Focus scope R) (himports : ρ.imports = scope.imports)
    (hdefinitions : ∀ name, Option.Rel (fun c _ => c.ReadsOnly R) (scope.definitions.get? name)
      (ρ.definitions name)) :
    Correspondence L scope ρ fun c _ => c.ReadsOnly R where
  imports := himports
  definitions := hdefinitions
  constant := Compiled.readsOnly_constant
  request _ := fun _ hscoped => by cases hscoped
  relative := fun _ _ _ _ h => congrArg Except.ok (hR.value h)
  position := fun _ _ _ _ h => congrArg Except.ok (hR.position h)
  combined _ hcs hc :=
    Compiled.readsOnly_combineInContext (forall_mem_of_forall₂ hcs) (fun _ _ _ _ => rfl) hc
  matched ha _ _ hc :=
    Compiled.readsOnly_combineInContext (by simpa using ha) (fun _ _ _ _ => rfl) hc
  chained hcs := Compiled.readsOnly_chain (forall_mem_of_forall₂ hcs)
  called hbroker hcs hc := by
    refine Compiled.readsOnly_combineInContext (forall_mem_of_forall₂ hcs) ?_ hc
    intro _ ctx ctx' h
    funext vs
    simp only [Compile.call, hR.calls h hbroker]
  relativeStep _ _ _ hinner hbase hc := Compiled.readsOnly_relativeStep hR hbase hinner hc
  finder _ _ := Compiled.readsOnly_stream

/-- Contexts with the same `@`, the same `#` and the same function broker. The request, the
variables and the attribute broker may be any. -/
structure Context.SameFocus (ctx ctx' : Context) : Prop where
  value : ctx.relativeValue = ctx'.relativeValue
  position : ctx.relativePosition = ctx'.relativePosition
  functions : ctx.functionBroker = ctx'.functionBroker

theorem Context.SameFocus.focus (scope : Scope) : Focus scope Context.SameFocus where
  value h := h.value
  position h := h.position
  within _ _ h := ⟨rfl, rfl, h.functions⟩
  calls h _ := by rw [h.functions]

/-- An expression that reads nothing of the request: its value is that of every context with
the same focus. -/
abbrev Compiled.RequestFree (c : Compiled) : Prop := c.ReadsOnly Context.SameFocus

/-- Where the definitions of a scope are free of the request unless they are scoped, so is
every tree: a constant or a function of the context that is not scoped has the same value in
any two contexts with the same `@`, `#` and function broker. -/
theorem evaluate_eq_of_unscoped {scope : Scope} {e : Expression} {c : Compiled}
    (hscope : ∀ name d, scope.definitions.get? name = some d → d.RequestFree)
    (hc : e.compile scope = .ok c) (hnature : c.nature ≠ .stream) (hscoped : c.isScoped = false)
    {ctx ctx' : Context} (h : ctx.SameFocus ctx') : c.evaluate ctx = c.evaluate ctx' := by
  have correspondence : Correspondence .full scope scope.environment fun c _ => c.RequestFree :=
    readsOnly_correspondence (Context.SameFocus.focus scope) rfl
      (Scope.environment_definitions hscope)
  exact correspondence.expression e (Sublanguage.full_admits e) hc hnature hscoped ctx ctx' h

/-- `@[?(@ > limit)]` with a local `limit` is a function of the context that is not scoped: two
requests that differ in their subject get the same part of `@` from it. -/
theorem evaluate_filter_eq_of_unscoped :
    let at_ : Expression := .basic .unknown .relative [] none
    let limit : Expression := .basic .unknown (.identifier "limit") [] none
    let e : Expression :=
      .basic .unknown .relative [.condition (.comparison .greater .unknown at_ limit)] none
    let scope := Scope.empty.bind "limit" (.constant (.ofNat 1))
    let alice := { Context.empty with subject := .text "alice", relative := some (.ofNat 2) }
    let bob := { Context.empty with subject := .text "bob", relative := some (.ofNat 2) }
    ∃ c, e.compile scope = .ok c ∧ c.nature = .pure ∧ c.isScoped = false ∧
      c.evaluate alice = c.evaluate bob := by
  intro at_ limit e scope alice bob
  have hscope : ∀ name d, scope.definitions.get? name = some d → d.RequestFree := by
    intro name d hd
    rw [Scope.definitions_bind] at hd
    split at hd
    · cases hd
      exact Compiled.readsOnly_constant _
    · cases hd
  exact ⟨_, rfl, rfl, rfl,
    evaluate_eq_of_unscoped hscope (e := e) rfl (by decide) rfl ⟨rfl, rfl, rfl⟩⟩

end PolicyExpr
