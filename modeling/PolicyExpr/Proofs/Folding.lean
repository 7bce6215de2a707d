import PolicyExpr.Proofs.Reporting

/-!
# Folding is complete

A static tree depends on no request and on no source: it has no attribute finders, and its
identifiers are local constants. Such a tree compiles to a constant, however its steps with inner
expressions are nested. Where it may read the `@` and `#` around it, it compiles to a constant or to
a function of the context that reads nothing else.
-/
namespace PolicyExpr

open Compiled (combine combineAt combineInContext)

/-! ## Static trees -/

/-- Whether a name is that of a local constant. -/
def Scope.isConstant (scope : Scope) (name : String) : Bool :=
  match scope.definitions.get? name with
  | some (.constant _) => true
  | _ => false

namespace Static

mutual

/-- Whether a tree has no attribute finders and no identifiers but local constants. It may have `@`
and `#` inside of steps with an inner expression, and elsewhere if they are `free`. -/
def expression (scope : Scope) (free : Bool) : Expression → Bool
  | .lazy _ _ operands => expressions scope free operands
  | .eager _ _ operands => expressions scope free operands
  | .equality _ _ left right => expression scope free left && expression scope free right
  | .comparison _ _ left right => expression scope free left && expression scope free right
  | .addition _ operands _ => expressions scope free operands
  | .multiplication _ operands _ => expressions scope free operands
  | .unary _ _ operand => expression scope free operand
  | .basic _ b ss t => base scope free b && (steps scope free ss && template scope t)

def expressions (scope : Scope) (free : Bool) : List Expression → Bool
  | [] => true
  | e :: rest => expression scope free e && expressions scope free rest

def template (scope : Scope) : Option Expression → Bool
  | none => true
  | some e => expression scope true e

def base (scope : Scope) (free : Bool) : Base → Bool
  | .group e => expression scope free e
  | .literal v => literal scope free v
  | .call _ arguments => expressions scope free arguments
  | .identifier name => scope.isConstant name
  | .relative => free
  | .relativePosition => free
  | .environmentAttribute _ _ _ _ => false

def literal (scope : Scope) (free : Bool) : Literal → Bool
  | .array items => expressions scope free items
  | .object ms => members scope free ms
  | _ => true

def members (scope : Scope) (free : Bool) : List Member → Bool
  | [] => true
  | .mk _ e :: rest => expression scope free e && members scope free rest

def steps (scope : Scope) (free : Bool) : List Step → Bool
  | [] => true
  | s :: rest => step scope s && steps scope free rest

def step (scope : Scope) : Step → Bool
  | .selector e => expression scope true e
  | .condition e => expression scope true e
  | .attributeFinder _ _ _ _ _ => false
  | _ => true

end

end Static

/-- A static tree in a scope; if `free`, it may read the `@` and `#` around it. -/
def Expression.static (scope : Scope) (free : Bool) (e : Expression) : Bool :=
  Static.expression scope free e

/-! ## Settled expressions -/

/-- A compiled expression that depends on no request and no source, and if not `free` on nothing. -/
structure Compiled.Settled (free : Bool) (c : Compiled) : Prop where
  unscoped : c.isScoped = false
  constant : free = false → c.nature = .constant

namespace Compiled

variable {free : Bool} {cs : List Compiled} {c : Compiled}

theorem settled_constant (v : Value) : (Compiled.constant v).Settled free := ⟨rfl, fun _ => rfl⟩

theorem Settled.streamless (h : c.Settled free) : c.nature ≠ .stream := by
  intro hn
  have hscoped := h.unscoped
  cases c with
  | stream subscribe => cases hscoped
  | constant v => cases hn
  | pure reads run => cases hn

/-- Constants are combined to a constant. -/
theorem nature_combineInContext {folding : Context} {op : Context → List Value → Eval Value}
    (hcs : ∀ c ∈ cs, c.nature = .constant) (hc : combineInContext cs false folding op = .ok c) :
    c.nature = .constant := by
  simp only [combineInContext, natureOf_eq_constant.2 hcs, Bool.false_eq_true, if_false] at hc
  obtain ⟨vs, -, hc⟩ := bind_eq_ok hc
  obtain ⟨v, -, hc⟩ := bind_eq_ok hc
  cases hc
  rfl

/-- A combination whose operator reads no request depends on no more than its operands. -/
theorem settled_combineInContext {folding : Context} {op : Context → List Value → Eval Value}
    (hcs : ∀ c ∈ cs, c.Settled free) (hc : combineInContext cs false folding op = .ok c) :
    c.Settled free := by
  have constant : free = false → c.nature = .constant := fun hfree =>
    nature_combineInContext (fun c hm => (hcs c hm).constant hfree) hc
  refine ⟨?_, constant⟩
  obtain ⟨⟨s, hs, hn⟩, -⟩ | ⟨-, -, vs, v, -, -, rfl⟩ | ⟨-, rfl⟩ := combineInContext_cases hc
  · exact absurd hn (hcs s hs).streamless
  · rfl
  · simpa [isScoped] using fun c hm => (hcs c hm).unscoped

theorem settled_combineAt {l : SourceLocation} {op : List Value → Eval Value}
    (hcs : ∀ c ∈ cs, c.Settled free) (hc : combineAt l cs op = .ok c) : c.Settled free :=
  settled_combineInContext hcs hc

end Compiled

namespace Chain

variable {free : Bool} {deciding : Bool} {l : SourceLocation} {cs : List Compiled}

/-- Nothing is left of constants. -/
theorem front_of_constants (hcs : ∀ c ∈ cs, c.nature = .constant) (m : Metadata) :
    (∃ v, front deciding l m cs = .decided v) ∨ ∃ m', front deciding l m cs = .remaining m' [] := by
  induction cs generalizing m with
  | nil => exact .inr ⟨m, rfl⟩
  | cons c rest ih =>
    obtain ⟨hc, hrest⟩ := List.forall_mem_cons.1 hcs
    obtain ⟨v, rfl⟩ := Compiled.eq_constant_of_nature hc
    rw [front]
    split
    · next w _ => exact .inl ⟨w, rfl⟩
    · next m' _ => exact ih hrest m'

theorem nature_of_constants (hcs : ∀ c ∈ cs, c.nature = .constant) :
    (compile deciding l cs).nature = .constant := by
  have left : (∃ v, front deciding l .empty cs = .decided v) ∨
      ∃ m, front deciding l .empty cs = .remaining m [] := front_of_constants hcs .empty
  obtain ⟨v, hf⟩ | ⟨m, hf⟩ := left
  · rw [compile, hf]
    rfl
  · rw [compile, hf]
    rfl

theorem settled_compile (hcs : ∀ c ∈ cs, c.Settled free) :
    (compile deciding l cs).Settled free := by
  constructor
  · obtain ⟨v, -, hc⟩ | ⟨m, -, hc⟩ | ⟨m, rest, hf, ⟨s, hs, hn⟩, -⟩ | ⟨m, rest, hf, -, hc⟩ :=
      compile_cases deciding l cs
    · rw [hc]
      rfl
    · rw [hc]
      rfl
    · exact absurd hn (hcs s (mem_of_front hf s hs)).streamless
    · rw [hc]
      simpa [Compiled.isScoped] using fun c hm => (hcs c (mem_of_front hf c hm)).unscoped
  · exact fun hfree => nature_of_constants fun c hm => (hcs c hm).constant hfree

end Chain

/-! ## Nodes -/

namespace Compile

variable {free : Bool} {scope : Scope} {l : SourceLocation} {base inner a b c : Compiled}
  {cs : List Compiled}

theorem settled_joined {combined : List Compiled → Eval Compiled}
    (hcs : ∀ c ∈ cs, c.Settled free) (hcombined : ∀ c, combined cs = .ok c → c.Settled free)
    (hc : joined cs combined = .ok c) : c.Settled free := by
  unfold joined at hc
  split at hc
  · cases hc
    exact hcs _ (by simp)
  · exact hcombined c hc

theorem settled_binary {op : Value → Value → Eval Value} (ha : a.Settled free)
    (hb : b.Settled free) (hc : binary l a b op = .ok c) : c.Settled free :=
  Compiled.settled_combineAt (by simp [ha, hb]) hc

theorem settled_equality {op : EqualityOperator} (ha : a.Settled free) (hb : b.Settled free)
    (hc : equality op l a b = .ok c) : c.Settled free := by
  unfold equality at hc
  split at hc
  · split at hc
    · exact Compiled.settled_combineAt (by simp [ha]) hc
    · exact settled_binary ha hb hc
  · exact settled_binary ha hb hc

theorem settled_plainStep {step : Value → Value} (hbase : base.Settled free)
    (hc : plainStep l base step = .ok c) : c.Settled free :=
  Compiled.settled_combineAt (by simp [hbase]) hc

theorem settled_indexedStep {α : Type} {indices : Except Failure α} {step : Value → α → Value}
    (hbase : base.Settled free) (hc : indexedStep l base indices step = .ok c) :
    c.Settled free := by
  cases indices with
  | error f =>
    cases hc
    exact Compiled.settled_constant _
  | ok i => exact settled_plainStep hbase hc

/-- What the inner expression reads of `@` and `#` is bound by the step. -/
theorem settled_relativeStep {step : RelativeStep} {apply : Value → Selection.Inner → Eval Value}
    (hbase : base.Settled free) (hinner : inner.Settled true)
    (hc : relativeStep scope step l base inner apply = .ok c) : c.Settled free := by
  obtain ⟨-, rfl⟩ | ⟨-, hc⟩ := relativeStep_cases hc
  · exact Compiled.settled_constant _
  · rw [hinner.unscoped] at hc
    exact Compiled.settled_combineInContext (by simp [hbase]) hc

mutual

/-- A static tree that compiles is settled. -/
theorem settled_expression (scope : Scope) (free : Bool) : ∀ (e : Expression) {c : Compiled},
    Static.expression scope free e = true → expression scope e = .ok c → c.Settled free
  | .lazy op l operands, c, he, hc => by
    obtain ⟨-, -, hc⟩ := bind_eq_ok hc
    obtain ⟨cs, hcs, hc⟩ := bind_eq_ok hc
    have settled := settled_expressions scope free operands he hcs
    refine settled_joined settled (fun c hc => ?_) (Compilation.ofEval_eq_ok hc)
    cases hc
    exact Chain.settled_compile settled
  | .eager op l operands, c, he, hc => by
    obtain ⟨-, -, hc⟩ := bind_eq_ok hc
    obtain ⟨cs, hcs, hc⟩ := bind_eq_ok hc
    have settled := settled_expressions scope free operands he hcs
    exact settled_joined settled (fun c hc => Compiled.settled_combineAt settled hc)
      (Compilation.ofEval_eq_ok hc)
  | .equality op l left right, c, he, hc => by
    obtain ⟨hleft, hright⟩ := Bool.and_eq_true_iff.1 he
    obtain ⟨a, ha, hc⟩ := bind_eq_ok hc
    obtain ⟨b, hb, hc⟩ := bind_eq_ok hc
    exact settled_equality (settled_expression scope free left hleft ha)
      (settled_expression scope free right hright hb) (Compilation.ofEval_eq_ok hc)
  | .comparison op l left right, c, he, hc => by
    obtain ⟨hleft, hright⟩ := Bool.and_eq_true_iff.1 he
    obtain ⟨a, ha, hc⟩ := bind_eq_ok hc
    obtain ⟨b, hb, hc⟩ := bind_eq_ok hc
    exact settled_binary (settled_expression scope free left hleft ha)
      (settled_expression scope free right hright hb) (Compilation.ofEval_eq_ok hc)
  | .addition l operands ops, c, he, hc => by
    obtain ⟨-, -, hc⟩ := bind_eq_ok hc
    obtain ⟨-, -, hc⟩ := bind_eq_ok hc
    obtain ⟨cs, hcs, hc⟩ := bind_eq_ok hc
    have settled := settled_expressions scope free operands he hcs
    exact settled_joined settled (fun c hc => Compiled.settled_combineAt settled hc)
      (Compilation.ofEval_eq_ok hc)
  | .multiplication l operands ops, c, he, hc => by
    obtain ⟨-, -, hc⟩ := bind_eq_ok hc
    obtain ⟨-, -, hc⟩ := bind_eq_ok hc
    obtain ⟨cs, hcs, hc⟩ := bind_eq_ok hc
    have settled := settled_expressions scope free operands he hcs
    exact settled_joined settled (fun c hc => Compiled.settled_combineAt settled hc)
      (Compilation.ofEval_eq_ok hc)
  | .unary op l operand, c, he, hc => by
    obtain ⟨a, ha, hc⟩ := bind_eq_ok hc
    have settled := settled_expression scope free operand he ha
    exact Compiled.settled_combineAt (by simp [settled]) (Compilation.ofEval_eq_ok hc)
  | .basic l b ss t, c, he, hc => by
    obtain ⟨hbase, he⟩ := Bool.and_eq_true_iff.1 he
    obtain ⟨hsteps, htemplate⟩ := Bool.and_eq_true_iff.1 he
    obtain ⟨cb, hb, hc⟩ := bind_eq_ok hc
    obtain ⟨cs, hs, hc⟩ := bind_eq_ok hc
    have settled := settled_base scope free l b hbase hb
    exact settled_subtemplate scope free l t htemplate
      (settled_steps scope free l ss hsteps settled hs) hc

theorem settled_expressions (scope : Scope) (free : Bool) : ∀ (es : List Expression)
    {cs : List Compiled}, Static.expressions scope free es = true →
    expressions scope es = .ok cs → ∀ c ∈ cs, c.Settled free
  | [], _, _, hc => by
    cases hc
    exact nofun
  | e :: rest, _, he, hc => by
    obtain ⟨he, hrest⟩ := Bool.and_eq_true_iff.1 he
    obtain ⟨c, hce, hc⟩ := bind_eq_ok hc
    obtain ⟨cs, hcs, hc⟩ := bind_eq_ok hc
    cases hc
    exact List.forall_mem_cons.2
      ⟨settled_expression scope free e he hce, settled_expressions scope free rest hrest hcs⟩

theorem settled_subtemplate (scope : Scope) (free : Bool) (l : SourceLocation) :
    ∀ (t : Option Expression) {base c : Compiled}, Static.template scope t = true →
    base.Settled free → subtemplate scope l base t = .ok c → c.Settled free
  | none, _, _, _, hbase, hc => by
    cases hc
    exact hbase
  | some e, _, _, he, hbase, hc => by
    obtain ⟨inner, hinner, hc⟩ := bind_eq_ok hc
    exact settled_relativeStep hbase (settled_expression scope true e he hinner)
      (Compilation.ofEval_eq_ok hc)

theorem settled_base (scope : Scope) (free : Bool) (l : SourceLocation) : ∀ (b : Base)
    {c : Compiled}, Static.base scope free b = true → Compile.base scope l b = .ok c →
    c.Settled free
  | .group e, _, he, hc => settled_expression scope free e he hc
  | .literal v, _, he, hc => settled_literal scope free l v he hc
  | .call name arguments, _, he, hc => by
    simp only [Compile.base] at hc
    split at hc
    · cases hc
    · split at hc
      · cases hc
      · obtain ⟨cs, hcs, hc⟩ := bind_eq_ok hc
        exact Compiled.settled_combineInContext
          (settled_expressions scope free arguments he hcs) (Compilation.ofEval_eq_ok hc)
  | .identifier name, _, he, hc => by
    simp only [Compile.base] at hc
    split at hc
    · cases hc
    · simp only [Static.base, Scope.isConstant] at he
      split at he
      · next hconstant =>
        rw [hconstant] at hc
        cases hc
        exact Compiled.settled_constant _
      · cases he
  | .relative, _, he, hc => by
    cases hc
    exact ⟨rfl, fun hfree => absurd he (hfree ▸ Bool.false_ne_true)⟩
  | .relativePosition, _, he, hc => by
    cases hc
    exact ⟨rfl, fun hfree => absurd he (hfree ▸ Bool.false_ne_true)⟩
  | .environmentAttribute _ _ _ _, _, he, _ => by cases he

theorem settled_literal (scope : Scope) (free : Bool) (l : SourceLocation) : ∀ (v : Literal)
    {c : Compiled}, Static.literal scope free v = true → literal scope l v = .ok c →
    c.Settled free
  | .number raw, _, _, hc => by
    simp only [literal] at hc
    split at hc <;> cases hc <;> exact Compiled.settled_constant _
  | .text _, _, _, hc => by
    cases hc
    exact Compiled.settled_constant _
  | .boolean _, _, _, hc => by
    cases hc
    exact Compiled.settled_constant _
  | .null, _, _, hc => by
    cases hc
    exact Compiled.settled_constant _
  | .undefined, _, _, hc => by
    cases hc
    exact Compiled.settled_constant _
  | .array items, _, he, hc => by
    obtain ⟨cs, hcs, hc⟩ := bind_eq_ok hc
    exact Compiled.settled_combineInContext (settled_expressions scope free items he hcs)
      (Compilation.ofEval_eq_ok hc)
  | .object ms, _, he, hc => by
    obtain ⟨cs, hcs, hc⟩ := bind_eq_ok hc
    exact Compiled.settled_combineInContext (settled_members scope free ms he hcs)
      (Compilation.ofEval_eq_ok hc)

theorem settled_members (scope : Scope) (free : Bool) : ∀ (ms : List Member)
    {cs : List Compiled}, Static.members scope free ms = true → members scope ms = .ok cs →
    ∀ c ∈ cs, c.Settled free
  | [], _, _, hc => by
    cases hc
    exact nofun
  | .mk _ e :: rest, _, he, hc => by
    obtain ⟨he, hrest⟩ := Bool.and_eq_true_iff.1 he
    obtain ⟨c, hce, hc⟩ := bind_eq_ok hc
    obtain ⟨cs, hcs, hc⟩ := bind_eq_ok hc
    cases hc
    exact List.forall_mem_cons.2
      ⟨settled_expression scope free e he hce, settled_members scope free rest hrest hcs⟩

theorem settled_steps (scope : Scope) (free : Bool) (l : SourceLocation) : ∀ (ss : List Step)
    {base c : Compiled}, Static.steps scope free ss = true → base.Settled free →
    steps scope l base ss = .ok c → c.Settled free
  | [], _, _, _, hbase, hc => by
    cases hc
    exact hbase
  | s :: rest, _, _, he, hbase, hc => by
    obtain ⟨hstep, hrest⟩ := Bool.and_eq_true_iff.1 he
    obtain ⟨d, hd, hc⟩ := bind_eq_ok hc
    exact settled_steps scope free l rest hrest (settled_step scope free l s hstep hbase hd) hc

theorem settled_step (scope : Scope) (free : Bool) (l : SourceLocation) : ∀ (s : Step)
    {base c : Compiled}, Static.step scope s = true → base.Settled free →
    step scope l base s = .ok c → c.Settled free
  | .key _, _, _, _, hbase, hc => settled_plainStep hbase (Compilation.ofEval_eq_ok hc)
  | .wildcard, _, _, _, hbase, hc => settled_plainStep hbase (Compilation.ofEval_eq_ok hc)
  | .index _, _, _, _, hbase, hc => settled_indexedStep hbase (Compilation.ofEval_eq_ok hc)
  | .selector e, _, _, he, hbase, hc => by
    obtain ⟨inner, hinner, hc⟩ := bind_eq_ok hc
    exact settled_relativeStep hbase (settled_expression scope true e he hinner)
      (Compilation.ofEval_eq_ok hc)
  | .slice _ _ _, _, _, _, hbase, hc => settled_indexedStep hbase (Compilation.ofEval_eq_ok hc)
  | .condition e, _, _, he, hbase, hc => by
    obtain ⟨inner, hinner, hc⟩ := bind_eq_ok hc
    exact settled_relativeStep hbase (settled_expression scope true e he hinner)
      (Compilation.ofEval_eq_ok hc)
  | .indexUnion _, _, _, _, hbase, hc => settled_indexedStep hbase (Compilation.ofEval_eq_ok hc)
  | .keyUnion _, _, _, _, hbase, hc => settled_plainStep hbase (Compilation.ofEval_eq_ok hc)
  | .recursiveKey _, _, _, _, hbase, hc => settled_plainStep hbase (Compilation.ofEval_eq_ok hc)
  | .recursiveWildcard, _, _, _, hbase, hc =>
    settled_plainStep hbase (Compilation.ofEval_eq_ok hc)
  | .recursiveIndex _, _, _, _, hbase, hc =>
    settled_indexedStep hbase (Compilation.ofEval_eq_ok hc)
  | .attributeFinder _ _ _ _ _, _, _, he, _, _ => by cases he

end

end Compile

/-- Folding is complete. Let a tree without defective nodes be compiled, and let none of its
constant parts fault. If the tree is static and its `@` and `#` all stand inside of steps with an
inner expression, it compiles to a constant. If it is static but for other `@` and `#`, it compiles
to a constant or to a function of the context that reads no request. -/
theorem Expression.folding_complete {e : Expression} {scope : Scope}
    (hwell : ∀ n ∈ e.nodes, n.defect? scope.hasFunctions = none)
    (hfaultless : ∀ f, e.compile scope ≠ .error (.fault f)) :
    (e.static scope false = true → ∃ v, e.compile scope = .ok (.constant v)) ∧
    (e.static scope true = true → (∃ v, e.compile scope = .ok (.constant v)) ∨
      ∃ run, e.compile scope = .ok (.pure false run)) := by
  have reports : Compilation.Reports (Node.firstReport? scope.hasFunctions e.nodes)
      (e.compile scope) := Compile.reports_expression scope e
  obtain ⟨c, hc⟩ : ∃ c, e.compile scope = .ok c := by
    cases hcompiled : e.compile scope with
    | ok c => exact ⟨c, rfl⟩
    | error failure =>
      cases failure with
      | fault f => exact absurd hcompiled (hfaultless f)
      | defect d =>
        have hsome : Node.firstReport? scope.hasFunctions e.nodes = some d := by
          rw [hcompiled] at reports
          exact reports
        rw [Node.firstReport?_eq_none.2 hwell] at hsome
        cases hsome
  rw [hc]
  constructor
  · intro hstatic
    have settled : c.Settled false := Compile.settled_expression scope false e hstatic hc
    obtain ⟨v, rfl⟩ := Compiled.eq_constant_of_nature (settled.constant rfl)
    exact ⟨v, rfl⟩
  · intro hstatic
    have settled : c.Settled true := Compile.settled_expression scope true e hstatic hc
    cases c with
    | constant v => exact .inl ⟨v, rfl⟩
    | pure reads run =>
      have hreads : reads = false := settled.unscoped
      subst hreads
      exact .inr ⟨run, rfl⟩
    | stream subscribe => exact absurd rfl settled.streamless

/-- `[["a", wanted]][?(@[?(@ == wanted)] == [wanted])]` is folded for a constant `wanted`, though
the conditions on their own are not. -/
theorem Expression.nested_conditions_folded :
    let l : SourceLocation := .unknown
    let scope := Scope.empty.bind "wanted" (.constant (.text "b"))
    let wanted : Expression := .basic l (.identifier "wanted") [] none
    let current : Expression := .basic l .relative [] none
    let matching : Expression :=
      .basic l .relative [.condition (.equality .equal l current wanted)] none
    let condition : Expression :=
      .equality .equal l matching (.basic l (.literal (.array [wanted])) [] none)
    let row : Expression :=
      .basic l (.literal (.array [.basic l (.literal (.text "a")) [] none, wanted])) [] none
    let e : Expression := .basic l (.literal (.array [row])) [.condition condition] none
    (∃ v, e.compile scope = .ok (.constant v)) ∧
      ∃ run, condition.compile scope = .ok (.pure false run) := by
  intro l scope wanted current matching condition row e
  have well {e : Expression} (h : e.nodes.all fun n =>
      (n.defect? scope.hasFunctions).isNone) : ∀ n ∈ e.nodes,
      n.defect? scope.hasFunctions = none := by simpa using h
  have folded := (Expression.folding_complete (well (e := e) rfl) nofun).1 rfl
  have kept := (Expression.folding_complete (well (e := condition) rfl) nofun).2 rfl
  obtain ⟨v, hv⟩ | hrun := kept
  · cases hv
  · exact ⟨folded, hrun⟩

end PolicyExpr
