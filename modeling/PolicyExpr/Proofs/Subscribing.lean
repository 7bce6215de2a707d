import PolicyExpr.Proofs.Correspondence

/-!
# What every subscription starts with

A property of streams is inherited if single values have it, if joins and switches have it when
their streams do, and if what a finder serves for a vector of parameters has it. Then the stream
that a subscription to a tree starts with has it. The property may depend on the context of the
subscription.
-/
namespace PolicyExpr

/-- A property that the streams of a context have from their parts. -/
structure Stream.Inherited (P : Context → Stream → Prop) : Prop where
  once : ∀ ctx v, P ctx (.once v)
  joined : ∀ {ctx streams combine s}, (∀ t ∈ streams, P ctx t) →
    Stream.joinAll streams combine = .ok s → P ctx s
  switched : ∀ {ctx outer next}, P ctx outer → (∀ v i, next v = .ok i → P ctx i) →
    P ctx (.switchOver outer next)
  first : ∀ {ctx s}, P ctx s → P ctx (.head (some s))
  served : ∀ ctx name l vector, P ctx (AttributeFinder.values ctx name l vector)

namespace Compiled

/-- Every subscription starts with a stream that has a property. -/
def Starts (P : Context → Stream → Prop) (c : Compiled) : Prop :=
  ∀ ctx s, c.subscribe ctx = .ok s → P ctx s

theorem forall_of_subscribeAll {P : Stream → Prop} {ctx : Context} {cs : List Compiled}
    {streams : List Stream} (hcs : ∀ c ∈ cs, ∀ s, c.subscribe ctx = .ok s → P s)
    (h : subscribeAll cs ctx = .ok streams) : ∀ s ∈ streams, P s := by
  induction cs generalizing streams with
  | nil =>
    cases h
    exact nofun
  | cons c rest ih =>
    obtain ⟨hc, hrest⟩ := List.forall_mem_cons.1 hcs
    rw [subscribeAll, List.mapM_cons] at h
    obtain ⟨s, hs, h⟩ := bind_eq_ok h
    obtain ⟨streams, hstreams, h⟩ := bind_eq_ok h
    cases h
    exact List.forall_mem_cons.2 ⟨hc s hs, ih hrest hstreams⟩

end Compiled

namespace Stream.Inherited

open Compiled (Starts)

variable {P : Context → Stream → Prop} (hP : Inherited P) {cs : List Compiled}

include hP

theorem constant (v : Value) : (Compiled.constant v).Starts P := by
  rintro ctx _ ⟨⟩
  exact hP.once ctx v

theorem pure (reads : Bool) (run : Context → Eval Value) : (Compiled.pure reads run).Starts P := by
  intro ctx s hs
  obtain ⟨v, -, hs⟩ := bind_eq_ok hs
  cases hs
  exact hP.once ctx v

theorem combineInContext {reads : Bool} {folding : Context}
    {op : Context → List Value → Eval Value} {c : Compiled} (hcs : ∀ c ∈ cs, c.Starts P)
    (hc : Compiled.combineInContext cs reads folding op = .ok c) : c.Starts P := by
  obtain ⟨-, rfl⟩ | ⟨-, -, vs, v, -, -, rfl⟩ | ⟨-, rfl⟩ := Compiled.combineInContext_cases hc
  · intro ctx s hs
    obtain ⟨streams, hstreams, hs⟩ := bind_eq_ok hs
    exact hP.joined (Compiled.forall_of_subscribeAll (fun c hc => hcs c hc ctx) hstreams) hs
  · exact hP.constant v
  · exact hP.pure _ _

theorem chain_subscribe {deciding : Bool} {l : SourceLocation} {ctx : Context} {m : Metadata}
    {s : Stream} (hcs : ∀ c ∈ cs, c.Starts P)
    (h : Chain.subscribe deciding l ctx m cs = .ok s) : P ctx s := by
  induction cs generalizing m s with
  | nil =>
    cases h
    exact hP.once ctx _
  | cons c rest ih =>
    obtain ⟨hc, hrest⟩ := List.forall_mem_cons.1 hcs
    obtain ⟨source, hsource, h⟩ := bind_eq_ok h
    cases h
    refine hP.switched (hc ctx source hsource) fun v s hs => ?_
    split at hs
    · cases hs
      exact hP.once ctx _
    · exact ih hrest hs

theorem chain {deciding : Bool} {l : SourceLocation} (hcs : ∀ c ∈ cs, c.Starts P) :
    (Chain.compile deciding l cs).Starts P := by
  obtain ⟨v, -, hc⟩ | ⟨m, -, hc⟩ | ⟨m, rest, hf, -, hc⟩ | ⟨m, rest, hf, -, hc⟩ :=
    Chain.compile_cases deciding l cs <;> rw [hc]
  · exact hP.constant v
  · exact hP.constant _
  · exact fun ctx s hs =>
      hP.chain_subscribe (fun c hm => hcs c (Chain.mem_of_front hf c hm)) hs
  · exact hP.pure _ _

theorem finder {name : String} {l : SourceLocation} {head : Bool} (hcs : ∀ c ∈ cs, c.Starts P) :
    (AttributeFinder.compile name l head cs).Starts P := by
  intro ctx s hs
  obtain ⟨streams, hstreams, hs⟩ := bind_eq_ok hs
  obtain ⟨parameters, hparameters, hs⟩ := bind_eq_ok hs
  have hfound : P ctx
      (.switchOver parameters fun vector => .ok (AttributeFinder.values ctx name l vector)) := by
    have hall : ∀ s ∈ streams, P ctx s :=
      Compiled.forall_of_subscribeAll (fun c hc => hcs c hc ctx) hstreams
    refine hP.switched (hP.joined hall hparameters) ?_
    rintro v _ ⟨⟩
    exact hP.served ctx name l v
  cases head with
  | false =>
    cases hs
    exact hfound
  | true =>
    cases hs
    exact hP.first hfound

/-- Subscriptions to trees start with such streams if those to their definitions do. -/
theorem correspondence {scope : Scope} {ρ : Environment} (himports : ρ.imports = scope.imports)
    (hdefinitions : ∀ name, Option.Rel (fun (c : Compiled) _ => c.Starts P)
      (scope.definitions.get? name) (ρ.definitions name)) :
    Correspondence .full scope ρ fun c _ => c.Starts P where
  imports := himports
  definitions := hdefinitions
  constant := hP.constant
  request _ := hP.pure _ _
  relative := hP.pure _ _
  position := hP.pure _ _
  combined _ hcs hc := hP.combineInContext (forall_mem_of_forall₂ hcs) hc
  matched ha _ _ hc := hP.combineInContext (by simpa using ha) hc
  chained hcs := hP.chain (forall_mem_of_forall₂ hcs)
  called _ hcs hc := hP.combineInContext (forall_mem_of_forall₂ hcs) hc
  relativeStep _ _ _ _ hbase hc := by
    obtain ⟨-, rfl⟩ | ⟨-, hc⟩ := Compile.relativeStep_cases hc
    · exact hP.constant _
    · exact hP.combineInContext (by simpa using hbase) hc
  finder _ hcs := hP.finder (forall_mem_of_forall₂ hcs)

end Stream.Inherited

end PolicyExpr
