import PolicyExpr.Proofs.Declaration
import PolicyExpr.Proofs.Filtering

/-!
# Secrets do not show

Two evaluations whose bindings differ in secret values only have results that are both secret or
the same. Which exit an operator, a chain or a condition takes may depend on a secret; it is
enough that every exit carries the lineage of all that was looked at before it.
-/
namespace PolicyExpr

open Compiled (combineInContext evaluateAll)
open Operator (CarriesLineage LazyOutcome lazyStep onOne)

namespace Value

/-- Both secret, or the same. -/
def Indistinct (v w : Value) : Prop := v.isSecret = true ∧ w.isSecret = true ∨ v = w

theorem Indistinct.refl (v : Value) : Indistinct v v := .inr (Eq.refl v)

theorem isSecret_of_le {v w : Value} (h : v.metadata ≤ w.metadata) (hv : v.isSecret = true) :
    w.isSecret = true :=
  Metadata.secret_of_le h hv

/-- Lists that differ in secret values only are the same, or each has a secret. -/
theorem eq_or_secret_of_forall₂ {vs ws : List Value} (h : List.Forall₂ Indistinct vs ws) :
    vs = ws ∨ (∃ u ∈ vs, u.isSecret = true) ∧ ∃ u ∈ ws, u.isSecret = true := by
  induction h with
  | nil => exact .inl rfl
  | cons hvw _ ih =>
    rcases hvw with ⟨hv, hw⟩ | rfl
    · exact .inr ⟨⟨_, List.mem_cons_self, hv⟩, ⟨_, List.mem_cons_self, hw⟩⟩
    · rcases ih with rfl | ⟨⟨u, hu, hsu⟩, ⟨w, hw, hsw⟩⟩
      · exact .inl rfl
      · exact .inr ⟨⟨u, List.mem_cons_of_mem _ hu, hsu⟩, ⟨w, List.mem_cons_of_mem _ hw, hsw⟩⟩

end Value

open Value (Indistinct isSecret_of_le)

/-- Contexts with the same function broker, whose bindings are the same or secret in both. -/
structure Context.Indistinct (ctx ctx' : Context) : Prop where
  subject : ctx.subject.Indistinct ctx'.subject
  action : ctx.action.Indistinct ctx'.action
  resource : ctx.resource.Indistinct ctx'.resource
  environment : ctx.environment.Indistinct ctx'.environment
  bindings : ∀ name, ((ctx.bindings.get? name).getD .undefined).Indistinct
    ((ctx'.bindings.get? name).getD .undefined)
  value : ctx.relativeValue.Indistinct ctx'.relativeValue
  position : ctx.relativePosition.Indistinct ctx'.relativePosition
  functions : ctx.functionBroker = ctx'.functionBroker

namespace Context.Indistinct

variable {ctx ctx' : Context}

theorem get (h : ctx.Indistinct ctx') (name : String) :
    (ctx.get name).Indistinct (ctx'.get name) := by
  unfold Context.get
  split
  · exact h.subject
  · split
    · exact h.action
    · split
      · exact h.resource
      · split
        · exact h.environment
        · exact h.bindings name

theorem within (h : ctx.Indistinct ctx') (v p : Value) :
    (ctx.withRelative v p).Indistinct (ctx'.withRelative v p) :=
  { h with value := .refl v, position := .refl p }

end Context.Indistinct

/-- Contexts that differ in secrets only get values that differ so. A stream has no value. -/
def Compiled.Secure (c : Compiled) : Prop :=
  c.nature ≠ .stream ∧ ∀ ctx ctx' : Context, ctx.Indistinct ctx' → ∀ v v',
    c.evaluate ctx = .ok v → c.evaluate ctx' = .ok v' → v.Indistinct v'

/-! ## Operators and calls -/

/-- A call carries the lineage of its arguments, whatever the broker answers. -/
theorem Compile.carriesLineage_call (broker : FunctionBroker) (name : String) (l : SourceLocation)
    (ctx : Context) (n : Nat) : CarriesLineage n (Compile.call broker name l ctx) :=
  Operator.carriesLineage_of_merged fun vs v hv => by
    unfold Compile.call at hv
    split at hv
    · next he =>
      cases hv
      exact (Operator.metadata_firstError he).ge
    · obtain ⟨w, -, hv⟩ := bind_eq_ok hv
      cases hv
      exact Metadata.le_merge_right _ _

namespace Compiled

theorem secure_constant (v : Value) : Secure (.constant v) := by
  refine ⟨by simp [nature], fun _ _ _ w w' hw hw' => ?_⟩
  cases hw
  cases hw'
  exact .refl v

private theorem evaluateAll_indistinct {cs : List Compiled} (hcs : ∀ c ∈ cs, c.Secure)
    {ctx ctx' : Context} (h : ctx.Indistinct ctx') {vs vs' : List Value}
    (hvs : evaluateAll cs ctx = .ok vs) (hvs' : evaluateAll cs ctx' = .ok vs') :
    List.Forall₂ Indistinct vs vs' := by
  induction cs generalizing vs vs' with
  | nil =>
    cases hvs
    cases hvs'
    exact .nil
  | cons c rest ih =>
    simp only [evaluateAll, List.mapM_cons] at hvs hvs'
    obtain ⟨v, hv, hvs⟩ := bind_eq_ok hvs
    obtain ⟨ws, hws, hvs⟩ := bind_eq_ok hvs
    obtain ⟨v', hv', hvs'⟩ := bind_eq_ok hvs'
    obtain ⟨ws', hws', hvs'⟩ := bind_eq_ok hvs'
    cases hvs
    cases hvs'
    exact .cons ((hcs c (by simp)).2 ctx ctx' h v v' hv hv')
      (ih (fun d hd => hcs d (by simp [hd])) hws hws')

/-- A combination of secure operands is secure, if its operator gives indistinct results for
the same operands and carries the lineage of all of them. -/
theorem Secure.combineInContext {cs : List Compiled} {reads : Bool} {folding : Context}
    {op : Context → List Value → Eval Value} {c : Compiled} (hcs : ∀ c ∈ cs, c.Secure)
    (hlineage : ∀ ctx, CarriesLineage cs.length (op ctx))
    (hop : ∀ ctx ctx' : Context, ctx.Indistinct ctx' → ∀ vs v v', op ctx vs = .ok v →
      op ctx' vs = .ok v' → v.Indistinct v')
    (hc : Compiled.combineInContext cs reads folding op = .ok c) : c.Secure := by
  obtain ⟨⟨s, hs, hn⟩, -⟩ | ⟨-, -, vs, v, -, -, rfl⟩ | ⟨-, rfl⟩ := combineInContext_cases hc
  · exact absurd hn (hcs s hs).1
  · exact secure_constant v
  · refine ⟨by simp [nature], fun ctx ctx' h v v' hv hv' => ?_⟩
    obtain ⟨vs, hvs, hv⟩ := bind_eq_ok hv
    obtain ⟨vs', hvs', hv'⟩ := bind_eq_ok hv'
    have operands := evaluateAll_indistinct hcs h hvs hvs'
    rcases Value.eq_or_secret_of_forall₂ operands with rfl | ⟨⟨u, hu, hsu⟩, ⟨w, hw, hsw⟩⟩
    · exact hop ctx ctx' h vs v v' hv hv'
    · have left := hlineage ctx vs v (forall₂_of_mapM hvs).length_eq.symm hv u hu
      have right := hlineage ctx' vs' v' (forall₂_of_mapM hvs').length_eq.symm hv' w hw
      exact .inl ⟨isSecret_of_le left hsu, isSecret_of_le right hsw⟩

end Compiled

/-! ## Chains -/

/-- What a chain goes on with after an operand, or its value, carries the lineage of the operand
and what was gathered before. -/
theorem Operator.le_lazyStep (deciding : Bool) (m : Metadata) (l : SourceLocation) (v : Value) :
    match lazyStep deciding m l v with
    | .decided w => m ≤ w.metadata ∧ v.metadata ≤ w.metadata
    | .undecided m' => m ≤ m' ∧ v.metadata ≤ m' := by
  have lineage : ∀ e, Operator.lazyOperand v = .error e → e.metadata = v.metadata := by
    intro e he
    unfold Operator.lazyOperand at he
    split at he
    · cases he
      rfl
    · split at he <;> cases he
      rfl
  unfold lazyStep
  split
  · next w hw =>
    split at hw
    · next e he =>
      cases hw
      simp only [Value.metadata_locate, Value.metadata_mergeMetadata, lineage e he]
      exact ⟨Metadata.le_merge_right _ _, Metadata.le_merge_left _ _⟩
    · split at hw <;> cases hw
      exact ⟨Metadata.le_merge_left _ _, Metadata.le_merge_right _ _⟩
  · next m' hm =>
    split at hm
    · cases hm
    · split at hm <;> cases hm
      exact ⟨Metadata.le_merge_left _ _, Metadata.le_merge_right _ _⟩

namespace Chain

variable {deciding : Bool} {l : SourceLocation} {ctx ctx' : Context}

/-- The value of a chain carries what was gathered before. -/
theorem le_evaluate {cs : List Compiled} {m : Metadata} {v : Value}
    (h : evaluate deciding l ctx m cs = .ok v) : m ≤ v.metadata := by
  induction cs generalizing m with
  | nil => cases h; exact le_rfl
  | cons c rest ih =>
    obtain ⟨w, -, h⟩ := bind_eq_ok h
    have step := Operator.le_lazyStep deciding m l w
    split at step
    · next hstep =>
      simp only [hstep] at h
      cases h
      exact step.1
    · next hstep =>
      simp only [hstep] at h
      exact step.1.trans (ih h)

/-- One secret operand makes the value of the chain behind it secret. -/
theorem isSecret_of_operand {c : Compiled} {rest : List Compiled} {m : Metadata} {w v : Value}
    (hw : c.evaluate ctx = .ok w) (hs : w.isSecret = true)
    (h : evaluate deciding l ctx m (c :: rest) = .ok v) : v.isSecret = true := by
  have step := Operator.le_lazyStep deciding m l w
  rw [evaluate, hw] at h
  split at step
  · next hstep =>
    simp only [ok_bind, hstep] at h
    cases h
    exact isSecret_of_le step.2 hs
  · next hstep =>
    simp only [ok_bind, hstep] at h
    exact Metadata.secret_of_le (step.2.trans (le_evaluate h)) hs

/-- Up to the first operand that differs two evaluations of a chain are in the same state; that
operand is secret in both. -/
theorem evaluate_indistinct {cs : List Compiled} (hcs : ∀ c ∈ cs, c.Secure)
    (h : ctx.Indistinct ctx') {m : Metadata} {v v' : Value}
    (hv : evaluate deciding l ctx m cs = .ok v) (hv' : evaluate deciding l ctx' m cs = .ok v') :
    v.Indistinct v' := by
  induction cs generalizing m with
  | nil =>
    cases hv
    cases hv'
    exact .refl _
  | cons c rest ih =>
    obtain ⟨w, hw, hnext⟩ := bind_eq_ok hv
    obtain ⟨w', hw', hnext'⟩ := bind_eq_ok hv'
    rcases (hcs c (by simp)).2 ctx ctx' h w w' hw hw' with ⟨hs, hs'⟩ | rfl
    · exact .inl ⟨isSecret_of_operand hw hs hv, isSecret_of_operand hw' hs' hv'⟩
    · split at hnext
      · next hstep =>
        simp only [hstep] at hnext'
        cases hnext
        cases hnext'
        exact .refl _
      · next hstep =>
        simp only [hstep] at hnext'
        exact ih (fun d hd => hcs d (by simp [hd])) hnext hnext'

end Chain

theorem Compiled.Secure.chain {deciding : Bool} {l : SourceLocation} {cs : List Compiled}
    (hcs : ∀ c ∈ cs, c.Secure) : (Chain.compile deciding l cs).Secure := by
  obtain ⟨v, -, hc⟩ | ⟨m, -, hc⟩ | ⟨m, rest, hf, ⟨s, hs, hn⟩, -⟩ | ⟨m, rest, hf, -, hc⟩ :=
    Chain.compile_cases deciding l cs
  · exact hc ▸ secure_constant v
  · exact hc ▸ secure_constant _
  · exact absurd hn (hcs s (Chain.mem_of_front hf s hs)).1
  · have hrest : ∀ c ∈ rest, c.Secure := fun c hm => hcs c (Chain.mem_of_front hf c hm)
    rw [hc]
    exact ⟨by simp [nature], fun _ _ h _ _ hv hv' => Chain.evaluate_indistinct hrest h hv hv'⟩

/-! ## Conditions -/

namespace Selection

/-- An error that a condition decides on has the lineage of its result. -/
theorem metadata_of_verdict {r e : Value} (h : verdict r = .error e) :
    e.metadata = r.metadata := by
  unfold verdict at h
  split at h
  · cases h
    rfl
  · split at h <;> cases h
    rfl

/-- The lineage of what was kept, or of the error that the parts end in. -/
def lineageOf {α : Type} : Except Value (List α × Metadata) → Metadata
  | .ok (_, m) => m
  | .error e => e.metadata

/-- The outcome of a condition carries what was gathered before. -/
theorem le_keepWhere {α : Type} {test : Inner} {m : Metadata} {parts : List (Part α)}
    {out : Except Value (List α × Metadata)} (h : keepWhere test m parts = .ok out) :
    m ≤ lineageOf out := by
  induction parts generalizing m out with
  | nil => cases h; exact le_rfl
  | cons p rest ih =>
    obtain ⟨r, -, h⟩ := bind_eq_ok h
    split at h
    · cases h
      exact Metadata.le_merge_right _ _
    · obtain ⟨next, hnext, h⟩ := bind_eq_ok h
      have further := (Metadata.le_merge_left m r.metadata).trans (ih hnext)
      split at h <;> cases h <;> exact further

/-- One secret result makes the outcome secret. -/
theorem secret_of_keepWhere {α : Type} {test : Inner} {m : Metadata} {p : Part α}
    {rest : List (Part α)} {r : Value} {out : Except Value (List α × Metadata)}
    (hr : test p.part p.position = .ok r) (hs : r.isSecret = true)
    (h : keepWhere test m (p :: rest) = .ok out) : (lineageOf out).secret = true := by
  rw [keepWhere, hr] at h
  simp only [ok_bind] at h
  split at h
  · next he =>
    cases h
    refine Metadata.secret_of_le (Metadata.le_merge_left _ _) ?_
    rw [metadata_of_verdict he]
    exact hs
  · obtain ⟨next, hnext, h⟩ := bind_eq_ok h
    have further : (lineageOf next).secret = true :=
      Metadata.secret_of_le ((Metadata.le_merge_right m r.metadata).trans (le_keepWhere hnext)) hs
    split at h <;> cases h <;> exact further

/-- Two runs of a condition over the same parts have the same outcome, or secret ones. -/
theorem keepWhere_indistinct {α : Type} {test test' : Inner} {m : Metadata}
    {parts : List (Part α)} (htest : ∀ v p r r', test v p = .ok r → test' v p = .ok r' →
      r.Indistinct r') {out out' : Except Value (List α × Metadata)}
    (h : keepWhere test m parts = .ok out) (h' : keepWhere test' m parts = .ok out') :
    (lineageOf out).secret = true ∧ (lineageOf out').secret = true ∨ out = out' := by
  induction parts generalizing m out out' with
  | nil =>
    cases h
    cases h'
    exact .inr rfl
  | cons p rest ih =>
    obtain ⟨r, hr, hnext⟩ := bind_eq_ok h
    obtain ⟨r', hr', hnext'⟩ := bind_eq_ok h'
    rcases htest _ _ r r' hr hr' with ⟨hs, hs'⟩ | rfl
    · exact .inl ⟨secret_of_keepWhere hr hs h, secret_of_keepWhere hr' hs' h'⟩
    · split at hnext
      · next he =>
        simp only [he] at hnext'
        cases hnext
        cases hnext'
        exact .inr rfl
      · next keep hkeep =>
        simp only [hkeep] at hnext'
        obtain ⟨next, hn, hnext⟩ := bind_eq_ok hnext
        obtain ⟨next', hn', hnext'⟩ := bind_eq_ok hnext'
        rcases ih hn hn' with ⟨hs, hs'⟩ | rfl
        · left
          split at hnext <;> split at hnext' <;> cases hnext <;> cases hnext' <;>
            exact ⟨hs, hs'⟩
        · right
          split at hnext <;> cases hnext <;> cases hnext' <;> rfl

@[simp] theorem metadata_concluded {α : Type} (wrap : List α → Value)
    (out : Except Value (List α × Metadata)) : (concluded wrap out).metadata = lineageOf out := by
  cases out <;> rfl

theorem le_judged (base result : Value) :
    base.metadata ≤ (judged base result).metadata ∧
      result.metadata ≤ (judged base result).metadata := by
  unfold judged
  split
  · exact ⟨Metadata.le_merge_left _ _, Metadata.le_merge_right _ _⟩
  · exact ⟨Metadata.le_merge_left _ _, Metadata.le_merge_right _ _⟩
  · next e he =>
    rw [← metadata_of_verdict he]
    exact ⟨Metadata.le_merge_right _ _, Metadata.le_merge_left _ _⟩

/-- A condition step carries the lineage of its base. -/
theorem le_condition {base v : Value} {test : Inner} (h : condition base test = .ok v) :
    base.metadata ≤ v.metadata := by
  by_cases hpass : passesThrough base = true
  · rw [condition, if_pos hpass] at h
    cases h
    exact le_rfl
  · rw [condition_eq (Bool.eq_false_iff.2 hpass)] at h
    split at h
    · obtain ⟨out, hout, h⟩ := bind_eq_ok h
      cases h
      simpa using le_keepWhere hout
    · obtain ⟨out, hout, h⟩ := bind_eq_ok h
      cases h
      simpa using le_keepWhere hout
    · obtain ⟨r, -, h⟩ := bind_eq_ok h
      cases h
      exact (le_judged base r).1

private theorem concluded_indistinct {α : Type} {wrap : List α → Value}
    {out out' : Except Value (List α × Metadata)}
    (h : (lineageOf out).secret = true ∧ (lineageOf out').secret = true ∨ out = out') :
    (concluded wrap out).Indistinct (concluded wrap out') := by
  rcases h with ⟨hs, hs'⟩ | rfl
  · exact .inl ⟨by simpa [Value.isSecret] using hs, by simpa [Value.isSecret] using hs'⟩
  · exact .refl _

/-- Two runs of a condition step on the same base. -/
theorem condition_indistinct {base v v' : Value} {test test' : Inner}
    (htest : ∀ w p r r', test w p = .ok r → test' w p = .ok r' → r.Indistinct r')
    (h : condition base test = .ok v) (h' : condition base test' = .ok v') :
    v.Indistinct v' := by
  by_cases hpass : passesThrough base = true
  · rw [condition, if_pos hpass] at h h'
    cases h
    cases h'
    exact .refl _
  · rw [condition_eq (Bool.eq_false_iff.2 hpass)] at h h'
    cases hkind : base.kind with
    | array items =>
      simp only [hkind] at h h'
      obtain ⟨out, hout, h⟩ := bind_eq_ok h
      obtain ⟨out', hout', h'⟩ := bind_eq_ok h'
      cases h
      cases h'
      exact concluded_indistinct (keepWhere_indistinct htest hout hout')
    | object entries =>
      simp only [hkind] at h h'
      obtain ⟨out, hout, h⟩ := bind_eq_ok h
      obtain ⟨out', hout', h'⟩ := bind_eq_ok h'
      cases h
      cases h'
      exact concluded_indistinct (keepWhere_indistinct htest hout hout')
    | _ =>
      simp only [hkind] at h h'
      obtain ⟨r, hr, h⟩ := bind_eq_ok h
      obtain ⟨r', hr', h'⟩ := bind_eq_ok h'
      cases h
      cases h'
      rcases htest _ _ r r' hr hr' with ⟨hs, hs'⟩ | rfl
      · exact .inl
          ⟨isSecret_of_le (le_judged base r).2 hs, isSecret_of_le (le_judged base r').2 hs'⟩
      · exact .refl _

end Selection

/-- A condition keeps secrets, whether its base or the results of its inner expression are. -/
theorem Compiled.Secure.conditionStep {scope : Scope} {l : SourceLocation}
    {base inner c : Compiled} (hbase : base.Secure) (hinner : inner.Secure)
    (hc : Compile.relativeStep scope .condition l base inner RelativeStep.condition.apply = .ok c) :
    c.Secure := by
  obtain ⟨hn, -⟩ | ⟨-, hc⟩ := Compile.relativeStep_cases hc
  · exact absurd hn hinner.1
  · refine Secure.combineInContext (by simpa using hbase) (fun ctx => ?_) ?_ hc
    · intro vs v hlen hv u hu
      obtain ⟨w, rfl⟩ := List.length_eq_one_iff.1 hlen
      obtain ⟨r, hr, hv⟩ := bind_eq_ok hv
      cases hv
      rw [List.mem_singleton.1 hu, Value.metadata_locate]
      exact Selection.le_condition hr
    · intro ctx ctx' h vs v v' hv hv'
      match vs with
      | [w] =>
        obtain ⟨r, hr, hv⟩ := bind_eq_ok hv
        obtain ⟨r', hr', hv'⟩ := bind_eq_ok hv'
        cases hv
        cases hv'
        have htest : ∀ u p s s', inner.evaluate (ctx.withRelative u p) = .ok s →
            inner.evaluate (ctx'.withRelative u p) = .ok s' → s.Indistinct s' :=
          fun u p s s' => hinner.2 _ _ (h.within u p) s s'
        rcases Selection.condition_indistinct htest hr hr' with ⟨hs, hs'⟩ | rfl
        · exact .inl ⟨by simpa [Value.isSecret] using hs, by simpa [Value.isSecret] using hs'⟩
        · exact .refl _
      | [] | _ :: _ :: _ =>
        cases hv
        cases hv'
        exact .refl _

/-! ## Trees -/

/-- Every tree of the sublanguage keeps secrets, in a scope that does. -/
theorem secure_correspondence {scope : Scope} {ρ : Environment}
    (himports : ρ.imports = scope.imports)
    (hdefinitions : ∀ name, Option.Rel (fun c _ => c.Secure) (scope.definitions.get? name)
      (ρ.definitions name)) :
    Correspondence .filtering scope ρ fun c _ => c.Secure where
  imports := himports
  definitions := hdefinitions
  constant := Compiled.secure_constant
  request name := by
    refine ⟨by simp [Compiled.nature], fun ctx ctx' h v v' hv hv' => ?_⟩
    cases hv
    cases hv'
    exact h.get name
  relative := by
    refine ⟨by simp [Compiled.nature], fun ctx ctx' h v v' hv hv' => ?_⟩
    cases hv
    cases hv'
    exact h.value
  position := by
    refine ⟨by simp [Compiled.nature], fun ctx ctx' h v v' hv hv' => ?_⟩
    cases hv
    cases hv'
    exact h.position
  combined {cs ds op c} hop h hc := by
    refine Compiled.Secure.combineInContext (forall_mem_of_forall₂ h) (fun _ => hop) ?_ hc
    intro _ _ _ vs v v' hv hv'
    cases hv.symm.trans hv'
    exact .refl v
  matched {l a pattern regex da dp c} ha _ _ hc := by
    have carries : CarriesLineage [a].length
        (onOne fun v => .ok (Operator.matchCompiled v regex pattern)) :=
      Operator.carriesLineage_onOne fun v =>
        (Value.le_mergedMetadata List.mem_cons_self).trans (Operator.metadata_binary v pattern _).ge
    refine Compiled.Secure.combineInContext (by simpa using ha) (fun _ => carries.located l) ?_ hc
    intro _ _ _ vs v v' hv hv'
    cases hv.symm.trans hv'
    exact .refl v
  chained h := Compiled.Secure.chain (forall_mem_of_forall₂ h)
  called {broker name l cs ds c} _ h hc := by
    refine Compiled.Secure.combineInContext (forall_mem_of_forall₂ h)
      (fun ctx => Compile.carriesLineage_call broker name l ctx _) ?_ hc
    intro ctx ctx' hctx vs v v' hv hv'
    simp only [Compile.call, hctx.functions] at hv hv'
    cases hv.symm.trans hv'
    exact .refl v
  relativeStep {step l base e inner d di c} hstep _ _ hinner hbase hc := by
    cases eq_of_beq (show (step == .condition) = true from hstep)
    exact Compiled.Secure.conditionStep hbase hinner hc
  finder h _ := by cases h

/-- Secrets do not show: where two contexts with one function broker differ in secret bindings
only, the values of a tree of operators, calls, selections and conditions are the same or secret
in both. -/
theorem indistinct_of_evaluate {scope : Scope} {broker : FunctionBroker} {meanings : Meanings}
    {e : Expression} {c : Compiled}
    (hscope : scope.Declares .filtering (fun _ => True) (Environment.direct broker) meanings)
    (he : Sublanguage.filtering.admits e = true) (hc : e.compile scope = .ok c)
    {ctx ctx' : Context} (h : ctx.Indistinct ctx') {v v' : Value} (hv : c.evaluate ctx = .ok v)
    (hv' : c.evaluate ctx' = .ok v') : v.isSecret = true ∧ v'.isSecret = true ∨ v = v' := by
  have secure : Correspondence .filtering scope (.direct broker scope meanings) fun c _ =>
      c.Secure :=
    hscope.correspondence Compiled.secure_constant fun _ hrel => secure_correspondence rfl hrel
  exact (secure.expression e he hc).2 ctx ctx' h v v' hv hv'

/-- `resource[?(allowed)]` with a secret variable `allowed` keeps the resource's element or drops
it, and both results are secret. -/
theorem indistinct_of_evaluate_filter :
    let allowed : Expression := .basic .unknown (.identifier "allowed") [] none
    let e : Expression := .basic .unknown (.identifier "resource") [.condition allowed] none
    let ctx (b : Bool) := { Context.empty with
      resource := .array [.null], bindings := .ofList [("allowed", (Value.boolean b).asSecret)] }
    ∃ c v v', e.compile .empty = .ok c ∧ (c.evaluate (ctx true) = .ok v ∧
      c.evaluate (ctx false) = .ok v' ∧ v.asArray? = some [.null] ∧ v'.asArray? = some []) ∧
      (v.isSecret = true ∧ v'.isSecret = true ∨ v = v') := by
  intro allowed e ctx
  have declared : Scope.empty.Declares .filtering (fun _ => True)
      (Environment.direct FunctionRegistry.standard.evaluate) .none := .start trivial
  have differ : (ctx true).Indistinct (ctx false) := by
    refine ⟨.refl _, .refl _, .refl _, .refl _, fun name => ?_, .refl _, .refl _, rfl⟩
    simp only [ctx, Table.ofList, List.foldl_cons, List.foldl_nil, Table.get?_insert]
    split
    · exact .inl ⟨rfl, rfl⟩
    · exact .refl _
  exact ⟨_, _, _, rfl, ⟨rfl, rfl, rfl, rfl⟩,
    indistinct_of_evaluate declared (e := e) rfl rfl differ rfl rfl⟩

end PolicyExpr
