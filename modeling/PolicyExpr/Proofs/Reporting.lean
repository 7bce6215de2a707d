import PolicyExpr.Proofs.Combination

/-!
# Defects are reported in order

A tree is defective where one of its nodes is: a node without operands, one with the wrong number
of operators, one with an empty name, a call without functions. Compilation looks at every node,
also at those that no value depends on, and reports the first defective one. It can only be kept
from that by a fault of a constant part.
-/
namespace PolicyExpr

/-! ## Nodes -/

/-- What compilation looks at in a node before it looks at its parts. -/
inductive NodeForm where
  /-- A node that lists its operands. -/
  | operands (production : Production) (count : Nat)
  /-- A node that lists its operands and the operators between them. -/
  | chain (production : Production) (operands operators : Nat)
  | identifier (name : String)
  | call (name : String)
  | finder (name : String)

/-- A node of a tree that can be defective. -/
structure Node where
  location : SourceLocation
  form : NodeForm

namespace Node

/-- What is wrong with a node, where there are functions to call or none. -/
def defect? (functions : Bool) (n : Node) : Option Defect :=
  match n.form with
  | .operands p count => if count = 0 then some (.emptyOperands p) else none
  | .chain p operands operators =>
    if operands = 0 then some (.emptyOperands p)
    else if operators + 1 = operands then none
    else some (.operatorCount p operands operators)
  | .identifier name => if name = "" then some .missingIdentifier else none
  | .call name =>
    if name = "" then some .missingFunctionIdentifier
    else if functions then none
    else some .noFunctionBroker
  | .finder name => if name = "" then some .missingAttributeIdentifier else none

/-- The report of a defective node, with its own location. -/
def report? (functions : Bool) (n : Node) : Option CompileError :=
  (n.defect? functions).map fun d => ⟨d, some n.location⟩

/-- The report of the first defective node. -/
def firstReport? (functions : Bool) (nodes : List Node) : Option CompileError :=
  nodes.findSome? (report? functions)

mutual

/-- The nodes of a tree that can be defective, in the order of compilation: a node before its parts,
the base before the steps and these before the template, options before arguments. -/
def ofExpression : Expression → List Node
  | .lazy op l operands => ⟨l, .operands (.lazy op) operands.length⟩ :: ofExpressions operands
  | .eager op l operands => ⟨l, .operands (.eager op) operands.length⟩ :: ofExpressions operands
  | .equality _ _ left right => ofExpression left ++ ofExpression right
  | .comparison _ _ left right => ofExpression left ++ ofExpression right
  | .addition l operands ops =>
    ⟨l, .chain .addition operands.length ops.length⟩ :: ofExpressions operands
  | .multiplication l operands ops =>
    ⟨l, .chain .multiplication operands.length ops.length⟩ :: ofExpressions operands
  | .unary _ _ operand => ofExpression operand
  | .basic l b ss template => ofBase l b ++ (ofSteps ss ++ ofOptional template)

def ofExpressions : List Expression → List Node
  | [] => []
  | e :: rest => ofExpression e ++ ofExpressions rest

def ofOptional : Option Expression → List Node
  | none => []
  | some e => ofExpression e

def ofBase (l : SourceLocation) : Base → List Node
  | .group e => ofExpression e
  | .literal v => ofLiteral v
  | .call name arguments => ⟨l, .call name⟩ :: ofExpressions arguments
  | .identifier name => [⟨l, .identifier name⟩]
  | .relative => []
  | .relativePosition => []
  | .environmentAttribute name arguments options _ =>
    ⟨l, .finder name⟩ :: (ofOptional options ++ ofExpressions arguments)

def ofLiteral : Literal → List Node
  | .array items => ofExpressions items
  | .object ms => ofMembers ms
  | _ => []

def ofMembers : List Member → List Node
  | [] => []
  | .mk _ e :: rest => ofExpression e ++ ofMembers rest

def ofSteps : List Step → List Node
  | [] => []
  | s :: rest => ofStep s ++ ofSteps rest

def ofStep : Step → List Node
  | .selector e => ofExpression e
  | .condition e => ofExpression e
  | .attributeFinder l name arguments options _ =>
    ⟨l, .finder name⟩ :: (ofOptional options ++ ofExpressions arguments)
  | _ => []

end

end Node

/-- The nodes of a tree that can be defective, in the order of compilation. -/
def Expression.nodes (e : Expression) : List Node := Node.ofExpression e

/-- Whether there are functions to call. -/
def Scope.hasFunctions (scope : Scope) : Bool := scope.functionBroker.isSome

/-! ## Reports -/

namespace Node

variable {functions : Bool}

theorem firstReport?_cons (n : Node) (nodes : List Node) :
    firstReport? functions (n :: nodes) =
      (n.report? functions).or (firstReport? functions nodes) := by
  cases h : n.report? functions <;> simp [firstReport?, h]

theorem firstReport?_append (nodes others : List Node) :
    firstReport? functions (nodes ++ others) =
      (firstReport? functions nodes).or (firstReport? functions others) :=
  List.findSome?_append

theorem firstReport?_eq_none {nodes : List Node} :
    firstReport? functions nodes = none ↔ ∀ n ∈ nodes, n.defect? functions = none := by
  simp [firstReport?, report?]

theorem firstReport?_ne_none {nodes : List Node} :
    firstReport? functions nodes ≠ none ↔ ∃ n ∈ nodes, n.defect? functions ≠ none := by
  simp [firstReport?, report?]

end Node

/-- A compilation that ends with this report, or with a result where there is none. A fault may keep
it from either. -/
def Compilation.Reports {α : Type} (report : Option CompileError) : Compilation α → Prop
  | .ok _ => report = none
  | .error (.defect e) => report = some e
  | .error (.fault _) => True

namespace Compilation.Reports

variable {α β : Type} {report later : Option CompileError} {x : Compilation α}

/-- A defect is reported with the location it was found at. -/
theorem defective (d : Defect) (l : SourceLocation) :
    Reports (some ⟨d, some l⟩) (Compilation.defective d l : Compilation α) := rfl

/-- What comes later is reported only if nothing was before. -/
theorem bind {next : α → Compilation β} (hx : Reports report x)
    (hnext : ∀ a, Reports later (next a)) : Reports (report.or later) (x >>= next) := by
  cases x with
  | ok a =>
    cases hx
    exact hnext a
  | error e =>
    cases e with
    | defect e =>
      cases hx
      exact rfl
    | fault f => trivial

theorem ofEval (x : Eval α) : Reports none (Compilation.ofEval x) := by
  cases x with
  | ok a => exact rfl
  | error f => trivial

/-- A combination of what was compiled has no defects of its own. -/
theorem combined {f : α → Eval β} (hx : Reports report x) :
    Reports report (x >>= fun a => Compilation.ofEval (f a)) := by
  simpa using hx.bind fun a => ofEval (f a)

theorem map {f : α → β} (hx : Reports report x) :
    Reports report (x >>= fun a => .ok (f a)) :=
  hx.combined (f := fun a => .ok (f a))

end Compilation.Reports

namespace Compile

open Compilation (Reports)

variable {α : Type} {functions : Bool} {l : SourceLocation} {operands : List Expression}
  {report : Option CompileError} {rest : Compilation α}

/-- A node that lists its operands is looked at before them. -/
theorem reports_operands {p : Production} (hrest : Reports report rest) :
    Reports ((Node.report? functions ⟨l, .operands p operands.length⟩).or report)
      (requireOperands p l operands >>= fun _ => rest) := by
  refine Reports.bind ?_ fun _ => hrest
  cases operands <;> exact rfl

theorem reports_chain {ω : Type} {p : Production} {ops : List ω} (hrest : Reports report rest) :
    Reports ((Node.report? functions ⟨l, .chain p operands.length ops.length⟩).or report)
      (requireOperands p l operands >>= fun _ =>
        requireOperators p l operands ops >>= fun _ => rest) := by
  cases operands with
  | nil => exact rfl
  | cons e es =>
    change Reports _ (requireOperators p l (e :: es) ops >>= fun _ => rest)
    refine Reports.bind ?_ fun _ => hrest
    by_cases hops : ops.length = es.length
    · simp [requireOperators, Node.report?, Node.defect?, hops, Reports]
    · simpa [requireOperators, Node.report?, Node.defect?, hops] using
        Reports.defective (.operatorCount p (es.length + 1) ops.length) l

/-- A name is looked at before anything else of its node. -/
theorem reports_named {name : String} {missing : Defect} {n : Node}
    (hn : n.defect? functions = if name = "" then some missing else none)
    (hrest : Reports report rest) :
    Reports ((n.report? functions).or report)
      (if name = "" then Compilation.defective missing n.location else rest) := by
  by_cases hname : name = ""
  · simpa [Node.report?, hn, hname] using Reports.defective missing n.location
  · simpa [Node.report?, hn, hname] using hrest

mutual

/-- A tree compiles unless it has a defect, and the first one is reported. -/
theorem reports_expression (scope : Scope) : ∀ e : Expression,
    Reports (Node.firstReport? scope.hasFunctions (Node.ofExpression e)) (expression scope e)
  | .lazy op l operands => by
    rw [Node.ofExpression, Node.firstReport?_cons]
    exact reports_operands (reports_expressions scope operands).combined
  | .eager op l operands => by
    rw [Node.ofExpression, Node.firstReport?_cons]
    exact reports_operands (reports_expressions scope operands).combined
  | .equality op l left right => by
    rw [Node.ofExpression, Node.firstReport?_append]
    exact (reports_expression scope left).bind fun _ =>
      (reports_expression scope right).combined
  | .comparison op l left right => by
    rw [Node.ofExpression, Node.firstReport?_append]
    exact (reports_expression scope left).bind fun _ =>
      (reports_expression scope right).combined
  | .addition l operands ops => by
    rw [Node.ofExpression, Node.firstReport?_cons]
    exact reports_chain (reports_expressions scope operands).combined
  | .multiplication l operands ops => by
    rw [Node.ofExpression, Node.firstReport?_cons]
    exact reports_chain (reports_expressions scope operands).combined
  | .unary op l operand => (reports_expression scope operand).combined
  | .basic l b ss t => by
    rw [Node.ofExpression, Node.firstReport?_append, Node.firstReport?_append]
    exact (reports_base scope l b).bind fun c =>
      (reports_steps scope l c ss).bind fun c => reports_subtemplate scope l c t

theorem reports_expressions (scope : Scope) : ∀ es : List Expression,
    Reports (Node.firstReport? scope.hasFunctions (Node.ofExpressions es)) (expressions scope es)
  | [] => rfl
  | e :: rest => by
    rw [Node.ofExpressions, Node.firstReport?_append]
    exact (reports_expression scope e).bind fun _ => (reports_expressions scope rest).map

theorem reports_options (scope : Scope) : ∀ o : Option Expression,
    Reports (Node.firstReport? scope.hasFunctions (Node.ofOptional o)) (options scope o)
  | none => rfl
  | some e => reports_expression scope e

theorem reports_subtemplate (scope : Scope) (l : SourceLocation) (c : Compiled) :
    ∀ t : Option Expression,
    Reports (Node.firstReport? scope.hasFunctions (Node.ofOptional t)) (subtemplate scope l c t)
  | none => rfl
  | some e => (reports_expression scope e).combined

theorem reports_base (scope : Scope) (l : SourceLocation) : ∀ b : Base,
    Reports (Node.firstReport? scope.hasFunctions (Node.ofBase l b)) (base scope l b)
  | .group e => reports_expression scope e
  | .literal v => reports_literal scope l v
  | .call name arguments => by
    rw [Node.ofBase, Node.firstReport?_cons]
    have compiled := reports_expressions scope arguments
    by_cases hname : name = ""
    · subst hname
      exact rfl
    · simp only [base, if_neg hname]
      cases hbroker : scope.functionBroker with
      | none =>
        have hnone : scope.hasFunctions = false := by simp [Scope.hasFunctions, hbroker]
        simpa [Node.report?, Node.defect?, hname, hnone] using
          Reports.defective .noFunctionBroker l
      | some broker =>
        have hsome : scope.hasFunctions = true := by simp [Scope.hasFunctions, hbroker]
        simpa [Node.report?, Node.defect?, hname, hsome] using
          compiled.combined (f := fun cs => Compiled.combineInContext cs false
            scope.foldingContext (call broker (scope.imports.resolve name) l))
  | .identifier name => by
    rw [Node.ofBase, Node.firstReport?_cons]
    refine reports_named rfl ?_
    split <;> exact rfl
  | .relative => rfl
  | .relativePosition => rfl
  | .environmentAttribute name arguments opts head => by
    rw [Node.ofBase, Node.firstReport?_cons, Node.firstReport?_append]
    exact reports_named rfl ((reports_options scope opts).bind fun _ =>
      (reports_expressions scope arguments).map)

theorem reports_literal (scope : Scope) (l : SourceLocation) : ∀ v : Literal,
    Reports (Node.firstReport? scope.hasFunctions (Node.ofLiteral v)) (literal scope l v)
  | .number raw => by
    unfold literal
    split <;> exact rfl
  | .text _ => rfl
  | .boolean _ => rfl
  | .null => rfl
  | .undefined => rfl
  | .array items => (reports_expressions scope items).combined
  | .object ms => (reports_members scope ms).combined

theorem reports_members (scope : Scope) : ∀ ms : List Member,
    Reports (Node.firstReport? scope.hasFunctions (Node.ofMembers ms)) (members scope ms)
  | [] => rfl
  | .mk _ e :: rest => by
    rw [Node.ofMembers, Node.firstReport?_append]
    exact (reports_expression scope e).bind fun _ => (reports_members scope rest).map

theorem reports_steps (scope : Scope) (l : SourceLocation) (c : Compiled) : ∀ ss : List Step,
    Reports (Node.firstReport? scope.hasFunctions (Node.ofSteps ss)) (steps scope l c ss)
  | [] => rfl
  | s :: rest => by
    rw [Node.ofSteps, Node.firstReport?_append]
    exact (reports_step scope l c s).bind fun c => reports_steps scope l c rest

theorem reports_step (scope : Scope) (l : SourceLocation) (c : Compiled) : ∀ s : Step,
    Reports (Node.firstReport? scope.hasFunctions (Node.ofStep s)) (step scope l c s)
  | .key _ => Reports.ofEval _
  | .wildcard => Reports.ofEval _
  | .index _ => Reports.ofEval _
  | .selector e => (reports_expression scope e).combined
  | .slice _ _ _ => Reports.ofEval _
  | .condition e => (reports_expression scope e).combined
  | .indexUnion _ => Reports.ofEval _
  | .keyUnion _ => Reports.ofEval _
  | .recursiveKey _ => Reports.ofEval _
  | .recursiveWildcard => Reports.ofEval _
  | .recursiveIndex _ => Reports.ofEval _
  | .attributeFinder l' name arguments opts head => by
    rw [Node.ofStep, Node.firstReport?_cons, Node.firstReport?_append]
    exact reports_named rfl ((reports_options scope opts).bind fun _ =>
      (reports_expressions scope arguments).map)

end

end Compile

/-- Unless a constant part faults, a tree compiles exactly if none of its nodes is defective,
wherever it stands. Else the report is that of the first defective node in the order of compilation,
with the node's own location. -/
theorem Expression.first_defect_reported {e : Expression} {scope : Scope}
    (h : ∀ f, e.compile scope ≠ .error (.fault f)) :
    ((∃ c, e.compile scope = .ok c) ↔ ∀ n ∈ e.nodes, n.defect? scope.hasFunctions = none) ∧
    ((∃ err, e.compile scope = .error (.defect err)) ↔
      ∃ n ∈ e.nodes, n.defect? scope.hasFunctions ≠ none) ∧
    ∀ err, e.compile scope = .error (.defect err) ↔
      e.nodes.findSome? (Node.report? scope.hasFunctions) = some err := by
  have reports : Compilation.Reports (Node.firstReport? scope.hasFunctions e.nodes)
      (e.compile scope) := Compile.reports_expression scope e
  rw [← Node.firstReport?_eq_none, ← Node.firstReport?_ne_none]
  change _ ∧ _ ∧ ∀ err, _ ↔ Node.firstReport? scope.hasFunctions e.nodes = some err
  cases hc : e.compile scope with
  | ok c =>
    rw [hc] at reports
    have hnone : Node.firstReport? scope.hasFunctions e.nodes = none := reports
    simp [hnone]
  | error failure =>
    cases failure with
    | fault f => exact absurd hc (h f)
    | defect d =>
      rw [hc] at reports
      have hsome : Node.firstReport? scope.hasFunctions e.nodes = some d := reports
      simp [hsome]

/-- In `true || null["x"][?()] :: f()` nothing depends on the condition, which stands behind an
operand that decides and behind an index that is none; its missing identifier is reported all the
same, and before the missing functions. -/
theorem Expression.hidden_defect_reported :
    let l : SourceLocation := ⟨3, 0, 3, 1⟩
    let e : Expression := .lazy .disjunction .unknown [.boolean true,
      .basic .unknown (.literal .null) [.index "x", .condition (.basic l (.identifier "") [] none)]
        (some (.basic .unknown (.call "f" []) [] none))]
    (∀ f, e.compile .empty ≠ .error (.fault f)) ∧
      e.compile .empty = .error (.defect ⟨.missingIdentifier, some l⟩) := by
  intro l e
  have faultless : ∀ f, e.compile .empty ≠ .error (.fault f) := by
    intro f hf
    cases hf
  exact ⟨faultless, ((Expression.first_defect_reported faultless).2.2 _).2 rfl⟩

end PolicyExpr
