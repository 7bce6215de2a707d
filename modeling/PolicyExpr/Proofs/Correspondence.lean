import Mathlib.Data.List.Forall2
import PolicyExpr.Proofs.Interpreter
import PolicyExpr.Proofs.Lineage
import PolicyExpr.Proofs.Sublanguage

/-!
# Correspondences of compiled and interpreted trees

A relation between compiled expressions and denotations is a correspondence when every way in
which compilation makes an expression of compiled parts keeps it. Its main statement,
`Correspondence.expression`, is the one induction over trees of this theory: a tree of the
sublanguage that compiles is related to its interpretation. A property of compiled expressions
alone is the correspondence that does not look at the denotation.
-/
namespace PolicyExpr

open Compiled (combine combineAt combineInContext)
open Operator (CarriesLineage onOne onTwo)

/-- A relation that every node of the sublanguage keeps, under a scope and an environment. -/
structure Correspondence (L : Sublanguage) (scope : Scope) (ρ : Environment)
    (Q : Compiled → Denotation → Prop) : Prop where
  imports : ρ.imports = scope.imports
  definitions : ∀ name, Option.Rel Q (scope.definitions.get? name) (ρ.definitions name)
  constant : ∀ v, Q (.constant v) fun _ => .ok v
  request : ∀ name, Q (.pure true fun ctx => .ok (ctx.get name)) fun ctx => .ok (ctx.get name)
  relative : Q (.pure false fun ctx => .ok ctx.relativeValue) fun ctx => .ok ctx.relativeValue
  position : Q (.pure false fun ctx => .ok ctx.relativePosition) fun ctx => .ok ctx.relativePosition
  combined : ∀ {cs ds op c}, CarriesLineage cs.length op → List.Forall₂ Q cs ds →
    combine cs op = .ok c → Q c (Interpret.apply op ds)
  /-- A pattern that is constant and valid is read once. -/
  matched : ∀ {l a pattern regex da dp c}, Q a da → Q (.constant pattern) dp →
    Operator.compilePattern pattern = .ok regex →
    combineAt l [a] (onOne fun v => .ok (Operator.matchCompiled v regex pattern)) = .ok c →
    Q c (Interpret.applyAt l (onTwo fun a b => .ok (Operator.regexMatch a b)) [da, dp])
  chained : ∀ {deciding l cs ds}, List.Forall₂ Q cs ds →
    Q (Chain.compile deciding l cs) (Interpret.lazyChain deciding l .empty ds)
  called : ∀ {broker name l cs ds c}, scope.functionBroker = some broker → List.Forall₂ Q cs ds →
    combineInContext cs false scope.foldingContext (Compile.call broker name l) = .ok c →
    Q c (Interpret.apply (Interpret.call ρ.functions name l) ds)
  relativeStep : ∀ {step l base e inner d di c}, L.relativeStep step = true →
    L.admits e = true → Compile.expression scope e = .ok inner → Q inner di → Q base d →
    Compile.relativeStep scope step l base inner step.apply = .ok c →
    Q c (Interpret.relativeStep (ρ.refuses e) step l d di)
  finder : ∀ {name l head cs ds}, L.finder head = true → List.Forall₂ Q cs ds →
    Q (AttributeFinder.compile name l head cs) fun ctx => do
      ρ.finder l name (← Interpret.valuesOf ds ctx) ctx

/-- The environment of a scope that is read off its own compiled definitions. Properties of
compiled expressions alone are proved in it. -/
def Scope.environment (scope : Scope) : Environment where
  functions _ := .ok .undefined
  imports := scope.imports
  definitions name := (scope.definitions.get? name).map Compiled.evaluate
  finder _ _ _ _ := .ok .undefined
  refuses _ := false

theorem Scope.environment_definitions {scope : Scope} {P : Compiled → Prop}
    (h : ∀ name c, scope.definitions.get? name = some c → P c) (name : String) :
    Option.Rel (fun c _ => P c) (scope.definitions.get? name)
      (scope.environment.definitions name) := by
  cases hname : scope.definitions.get? name with
  | none => simp [environment, hname]
  | some c => simpa [environment, hname] using h name c hname

/-- What holds of the left of every pair holds of every member on the left. -/
theorem forall_mem_of_forall₂ {α β : Type} {P : α → Prop} {as : List α} {bs : List β}
    (h : List.Forall₂ (fun a _ => P a) as bs) : ∀ a ∈ as, P a := by
  induction h with
  | nil => simp
  | cons ha _ ih => simpa using ⟨ha, ih⟩

/-- As many operands are compiled as there are. -/
theorem Compile.length_expressions {scope : Scope} {es : List Expression} {cs : List Compiled}
    (h : Compile.expressions scope es = .ok cs) : cs.length = es.length := by
  induction es generalizing cs with
  | nil => cases h; rfl
  | cons e rest ih =>
    obtain ⟨c, -, h⟩ := bind_eq_ok h
    obtain ⟨cs, hcs, h⟩ := bind_eq_ok h
    cases h
    simp [ih hcs]

theorem Compile.length_eq_of_requireOperators {ω : Type} {p : Production} {l : SourceLocation}
    {operands : List Expression} {operators : List ω} {u : Unit}
    (h : Compile.requireOperators p l operands operators = .ok u) :
    operands.length = operators.length + 1 := by
  unfold Compile.requireOperators at h
  split at h
  · next hlen => exact hlen.symm
  · cases h

namespace Correspondence

variable {L : Sublanguage} {scope : Scope} {ρ : Environment} {Q : Compiled → Denotation → Prop}

/-- A node with one operand is that operand on both sides. -/
theorem joined {cs : List Compiled} {ds : List Denotation} {c : Compiled}
    {combined : List Compiled → Eval Compiled} {denoted : List Denotation → Denotation}
    (hQ : List.Forall₂ Q cs ds) (hcombined : ∀ c, combined cs = .ok c → Q c (denoted ds))
    (hc : Compile.joined cs combined = .ok c) : Q c (Interpret.joined ds denoted) := by
  match hQ with
  | .nil => exact hcombined c hc
  | .cons hsingle .nil => cases hc; exact hsingle
  | .cons _ (.cons _ _) => exact hcombined c hc

/-- Operators of nodes are combined with their errors placed. -/
theorem combinedAt (h : Correspondence L scope ρ Q) {l : SourceLocation} {cs : List Compiled}
    {ds : List Denotation} {op : List Value → Eval Value} {c : Compiled}
    (hop : CarriesLineage cs.length op) (hQ : List.Forall₂ Q cs ds)
    (hc : combineAt l cs op = .ok c) : Q c (Interpret.applyAt l op ds) :=
  h.combined (hop.located l) hQ hc

theorem binary (h : Correspondence L scope ρ Q) {l : SourceLocation} {a b c : Compiled}
    {da db : Denotation} {op : Value → Value → Value}
    (hop : ∀ a b, Value.mergedMetadata [a, b] ≤ (op a b).metadata) (ha : Q a da) (hb : Q b db)
    (hc : Compile.binary l a b (fun a b => .ok (op a b)) = .ok c) :
    Q c (Interpret.applyAt l (onTwo fun a b => .ok (op a b)) [da, db]) := by
  have carries : CarriesLineage [a, b].length (onTwo fun a b => .ok (op a b)) :=
    Operator.carriesLineage_onTwo hop
  exact h.combinedAt carries (.cons ha (.cons hb .nil)) hc

theorem equality (h : Correspondence L scope ρ Q) {op : EqualityOperator} {l : SourceLocation}
    {a b c : Compiled} {da db : Denotation} (ha : Q a da) (hb : Q b db)
    (hc : Compile.equality op l a b = .ok c) :
    Q c (Interpret.applyAt l (onTwo fun a b => .ok (op.apply a b)) [da, db]) := by
  have carries (a b : Value) := (Operator.metadata_equality op a b).ge
  have general := h.binary (l := l) (c := c) carries ha hb
  unfold Compile.equality at hc
  split at hc
  · next pattern =>
    split at hc
    · next regex hregex => exact h.matched ha hb hregex hc
    · exact general hc
  · exact general hc

theorem plainStep (h : Correspondence L scope ρ Q) {l : SourceLocation} {base c : Compiled}
    {d : Denotation} {step : Value → Value} (hstep : ∀ v, v.metadata ≤ (step v).metadata)
    (hbase : Q base d) (hc : Compile.plainStep l base step = .ok c) :
    Q c (Interpret.plainStep l d step) := by
  have carries : CarriesLineage [base].length (onOne fun v => .ok (step v)) :=
    Operator.carriesLineage_onOne hstep
  exact h.combinedAt carries (.cons hbase .nil) hc

theorem indexedStep (h : Correspondence L scope ρ Q) {α : Type} {l : SourceLocation}
    {base c : Compiled} {d : Denotation} {indices : Except Failure α} {step : Value → α → Value}
    (hstep : ∀ v i, v.metadata ≤ (step v i).metadata) (hbase : Q base d)
    (hc : Compile.indexedStep l base indices step = .ok c) :
    Q c (Interpret.indexedStep l d indices step) := by
  cases indices with
  | error f => cases hc; exact h.constant _
  | ok i => exact h.plainStep (fun v => hstep v i) hbase hc

mutual

/-- A tree that compiles is related to its interpretation. -/
theorem expression (h : Correspondence L scope ρ Q) : ∀ (e : Expression) {c : Compiled},
    L.admits e = true → Compile.expression scope e = .ok c → Q c (Interpret.expression ρ e)
  | .lazy op l operands, c, he, hc => by
    obtain ⟨-, -, hc⟩ := bind_eq_ok hc
    obtain ⟨cs, hcs, hc⟩ := bind_eq_ok hc
    refine joined (h.expressions operands he hcs) (fun c hc => ?_) (Compilation.ofEval_eq_ok hc)
    cases hc
    exact h.chained (h.expressions operands he hcs)
  | .eager op l operands, c, he, hc => by
    obtain ⟨-, -, hc⟩ := bind_eq_ok hc
    obtain ⟨cs, hcs, hc⟩ := bind_eq_ok hc
    have carries : CarriesLineage cs.length fun vs => .ok (Operator.eager op vs) :=
      Operator.carriesLineage_of_merged fun vs v hv => by
        cases hv
        exact (Operator.metadata_eager op vs).ge
    have hQ := h.expressions operands he hcs
    exact joined hQ (fun c hc => h.combinedAt carries hQ hc) (Compilation.ofEval_eq_ok hc)
  | .equality op l left right, c, he, hc => by
    simp only [Sublanguage.admits, Bool.and_eq_true] at he
    obtain ⟨a, ha, hc⟩ := bind_eq_ok hc
    obtain ⟨b, hb, hc⟩ := bind_eq_ok hc
    exact h.equality (h.expression left he.1 ha) (h.expression right he.2 hb)
      (Compilation.ofEval_eq_ok hc)
  | .comparison op l left right, c, he, hc => by
    simp only [Sublanguage.admits, Bool.and_eq_true] at he
    obtain ⟨a, ha, hc⟩ := bind_eq_ok hc
    obtain ⟨b, hb, hc⟩ := bind_eq_ok hc
    exact h.binary (fun a b => (Operator.metadata_comparison op a b).ge) (h.expression left he.1 ha)
      (h.expression right he.2 hb) (Compilation.ofEval_eq_ok hc)
  | .addition l operands ops, c, he, hc => by
    obtain ⟨-, -, hc⟩ := bind_eq_ok hc
    obtain ⟨_, hops, hc⟩ := bind_eq_ok hc
    obtain ⟨cs, hcs, hc⟩ := bind_eq_ok hc
    have hlen := (Compile.length_expressions hcs).trans
      (Compile.length_eq_of_requireOperators hops)
    have carries := Operator.carriesLineage_additive ops
    rw [← hlen] at carries
    have hQ := h.expressions operands he hcs
    exact joined hQ (fun c hc => h.combinedAt carries hQ hc) (Compilation.ofEval_eq_ok hc)
  | .multiplication l operands ops, c, he, hc => by
    obtain ⟨-, -, hc⟩ := bind_eq_ok hc
    obtain ⟨_, hops, hc⟩ := bind_eq_ok hc
    obtain ⟨cs, hcs, hc⟩ := bind_eq_ok hc
    have hlen := (Compile.length_expressions hcs).trans
      (Compile.length_eq_of_requireOperators hops)
    have carries := Operator.carriesLineage_multiplicative ops
    rw [← hlen] at carries
    have hQ := h.expressions operands he hcs
    exact joined hQ (fun c hc => h.combinedAt carries hQ hc) (Compilation.ofEval_eq_ok hc)
  | .unary op l operand, c, he, hc => by
    obtain ⟨a, ha, hc⟩ := bind_eq_ok hc
    have carries : CarriesLineage [a].length (onOne fun v => .ok (op.apply v)) :=
      Operator.carriesLineage_onOne fun v => (Operator.metadata_unary op v).ge
    exact h.combinedAt carries (.cons (h.expression operand he ha) .nil)
      (Compilation.ofEval_eq_ok hc)
  | .basic l b ss t, c, he, hc => by
    simp only [Sublanguage.admits, Bool.and_eq_true] at he
    obtain ⟨cb, hb, hc⟩ := bind_eq_ok hc
    obtain ⟨cs, hs, hc⟩ := bind_eq_ok hc
    exact h.template l t he.2 (h.steps l ss he.1.2 (h.base l b he.1.1 hb) hs) hc

theorem expressions (h : Correspondence L scope ρ Q) : ∀ (es : List Expression)
    {cs : List Compiled}, L.admitsAll es = true → Compile.expressions scope es = .ok cs →
    List.Forall₂ Q cs (Interpret.expressions ρ es)
  | [], _, _, hc => by cases hc; exact .nil
  | e :: rest, _, he, hc => by
    simp only [Sublanguage.admitsAll, Bool.and_eq_true] at he
    obtain ⟨c, hce, hc⟩ := bind_eq_ok hc
    obtain ⟨cs, hcs, hc⟩ := bind_eq_ok hc
    cases hc
    exact .cons (h.expression e he.1 hce) (h.expressions rest he.2 hcs)

theorem options (h : Correspondence L scope ρ Q) : ∀ (o : Option Expression) {c : Compiled},
    L.admitsOptions o = true → Compile.options scope o = .ok c → Q c (Interpret.options ρ o)
  | none, _, _, hc => by cases hc; exact h.constant _
  | some e, _, he, hc => h.expression e he hc

theorem template (h : Correspondence L scope ρ Q) (l : SourceLocation) :
    ∀ (t : Option Expression) {base c : Compiled} {d : Denotation}, L.admitsTemplate t = true →
    Q base d → Compile.subtemplate scope l base t = .ok c → Q c (Interpret.template ρ l d t)
  | none, _, _, _, _, hbase, hc => by cases hc; exact hbase
  | some e, _, _, _, he, hbase, hc => by
    simp only [Sublanguage.admitsTemplate, Bool.and_eq_true] at he
    obtain ⟨inner, hinner, hc⟩ := bind_eq_ok hc
    exact h.relativeStep he.1 he.2 hinner (h.expression e he.2 hinner) hbase
      (Compilation.ofEval_eq_ok hc)

theorem base (h : Correspondence L scope ρ Q) (l : SourceLocation) : ∀ (b : Base) {c : Compiled},
    L.admitsBase b = true → Compile.base scope l b = .ok c → Q c (Interpret.base ρ l b)
  | .group e, _, he, hc => h.expression e he hc
  | .literal v, _, he, hc => h.literal l v he hc
  | .call name arguments, _, he, hc => by
    simp only [Compile.base] at hc
    split at hc
    · cases hc
    · split at hc
      · cases hc
      · next broker hbroker =>
        obtain ⟨cs, hcs, hc⟩ := bind_eq_ok hc
        rw [Interpret.base, h.imports]
        exact h.called hbroker (h.expressions arguments he hcs) (Compilation.ofEval_eq_ok hc)
  | .identifier name, _, _, hc => by
    simp only [Compile.base] at hc
    split at hc
    · cases hc
    · have hdefinitions := h.definitions name
      simp only [Interpret.base]
      generalize scope.definitions.get? name = bound at hc hdefinitions
      generalize ρ.definitions name = meaning at hdefinitions ⊢
      cases hdefinitions with
      | none => cases hc; exact h.request name
      | some hQ => cases hc; exact hQ
  | .relative, _, _, hc => by cases hc; exact h.relative
  | .relativePosition, _, _, hc => by cases hc; exact h.position
  | .environmentAttribute name arguments opts head, _, he, hc => by
    simp only [Sublanguage.admitsBase, Bool.and_eq_true] at he
    simp only [Compile.base] at hc
    split at hc
    · cases hc
    · obtain ⟨o, ho, hc⟩ := bind_eq_ok hc
      obtain ⟨cs, hcs, hc⟩ := bind_eq_ok hc
      cases hc
      simp only [Interpret.base, h.imports]
      exact h.finder he.1.1 (.cons (h.constant .null) (.cons (h.options opts he.1.2 ho)
        (h.expressions arguments he.2 hcs)))

theorem literal (h : Correspondence L scope ρ Q) (l : SourceLocation) :
    ∀ (v : Literal) {c : Compiled}, L.admitsLiteral v = true →
    Compile.literal scope l v = .ok c → Q c (Interpret.literal ρ l v)
  | .number raw, _, _, hc => by
    simp only [Compile.literal] at hc
    split at hc
    · next n hraw =>
      cases hc
      simpa only [Interpret.literal, hraw] using h.constant (.number n)
    · next hraw =>
      cases hc
      simpa only [Interpret.literal, hraw, Compiled.invalid] using h.constant _
  | .text _, _, _, hc => by cases hc; exact h.constant _
  | .boolean _, _, _, hc => by cases hc; exact h.constant _
  | .null, _, _, hc => by cases hc; exact h.constant _
  | .undefined, _, _, hc => by cases hc; exact h.constant _
  | .array items, _, he, hc => by
    obtain ⟨cs, hcs, hc⟩ := bind_eq_ok hc
    refine h.combined (Operator.carriesLineage_of_merged fun vs v hv => ?_)
      (h.expressions items he hcs) (Compilation.ofEval_eq_ok hc)
    cases hv
    exact (Operator.metadata_arrayOf vs).ge
  | .object ms, _, he, hc => by
    obtain ⟨cs, hcs, hc⟩ := bind_eq_ok hc
    refine h.combined (Operator.carriesLineage_of_merged fun vs v hv => ?_)
      (h.members ms he hcs) (Compilation.ofEval_eq_ok hc)
    cases hv
    exact (Operator.metadata_objectOf _ vs).ge

theorem members (h : Correspondence L scope ρ Q) : ∀ (ms : List Member) {cs : List Compiled},
    L.admitsMembers ms = true → Compile.members scope ms = .ok cs →
    List.Forall₂ Q cs (Interpret.members ρ ms)
  | [], _, _, hc => by cases hc; exact .nil
  | .mk _ e :: rest, _, he, hc => by
    simp only [Sublanguage.admitsMembers, Bool.and_eq_true] at he
    obtain ⟨c, hce, hc⟩ := bind_eq_ok hc
    obtain ⟨cs, hcs, hc⟩ := bind_eq_ok hc
    cases hc
    exact .cons (h.expression e he.1 hce) (h.members rest he.2 hcs)

theorem steps (h : Correspondence L scope ρ Q) (l : SourceLocation) : ∀ (ss : List Step)
    {base c : Compiled} {d : Denotation}, L.admitsSteps ss = true → Q base d →
    Compile.steps scope l base ss = .ok c → Q c (Interpret.steps ρ l d ss)
  | [], _, _, _, _, hbase, hc => by cases hc; exact hbase
  | s :: rest, _, _, _, he, hbase, hc => by
    simp only [Sublanguage.admitsSteps, Bool.and_eq_true] at he
    obtain ⟨c, hs, hc⟩ := bind_eq_ok hc
    exact h.steps l rest he.2 (h.step l s he.1 hbase hs) hc

theorem step (h : Correspondence L scope ρ Q) (l : SourceLocation) : ∀ (s : Step)
    {base c : Compiled} {d : Denotation}, L.admitsStep s = true → Q base d →
    Compile.step scope l base s = .ok c → Q c (Interpret.step ρ l d s)
  | .key name, _, _, _, _, hbase, hc =>
    h.plainStep (fun v => Selection.le_key v name) hbase (Compilation.ofEval_eq_ok hc)
  | .wildcard, _, _, _, _, hbase, hc =>
    h.plainStep Selection.le_wildcard hbase (Compilation.ofEval_eq_ok hc)
  | .index _, _, _, _, _, hbase, hc =>
    h.indexedStep Selection.le_index hbase (Compilation.ofEval_eq_ok hc)
  | .selector e, _, _, _, he, hbase, hc => by
    simp only [Sublanguage.admitsStep, Bool.and_eq_true] at he
    obtain ⟨inner, hinner, hc⟩ := bind_eq_ok hc
    exact h.relativeStep he.1 he.2 hinner (h.expression e he.2 hinner) hbase
      (Compilation.ofEval_eq_ok hc)
  | .slice _ _ _, _, _, _, _, hbase, hc =>
    h.indexedStep (fun v (i, j, k) => Selection.le_slice v i j k) hbase
      (Compilation.ofEval_eq_ok hc)
  | .condition e, _, _, _, he, hbase, hc => by
    simp only [Sublanguage.admitsStep, Bool.and_eq_true] at he
    obtain ⟨inner, hinner, hc⟩ := bind_eq_ok hc
    exact h.relativeStep he.1 he.2 hinner (h.expression e he.2 hinner) hbase
      (Compilation.ofEval_eq_ok hc)
  | .indexUnion _, _, _, _, _, hbase, hc =>
    h.indexedStep Selection.le_indexUnion hbase (Compilation.ofEval_eq_ok hc)
  | .keyUnion keys, _, _, _, _, hbase, hc =>
    h.plainStep (fun v => Selection.le_keyUnion v keys) hbase (Compilation.ofEval_eq_ok hc)
  | .recursiveKey name, _, _, _, _, hbase, hc =>
    h.plainStep (fun v => Selection.le_recursiveKey v name) hbase (Compilation.ofEval_eq_ok hc)
  | .recursiveWildcard, _, _, _, _, hbase, hc =>
    h.plainStep Selection.le_recursiveWildcard hbase (Compilation.ofEval_eq_ok hc)
  | .recursiveIndex _, _, _, _, _, hbase, hc =>
    h.indexedStep Selection.le_recursiveIndex hbase (Compilation.ofEval_eq_ok hc)
  | .attributeFinder l' name arguments opts head, _, _, _, he, hbase, hc => by
    simp only [Sublanguage.admitsStep, Bool.and_eq_true] at he
    simp only [Compile.step] at hc
    split at hc
    · cases hc
    · obtain ⟨o, ho, hc⟩ := bind_eq_ok hc
      obtain ⟨cs, hcs, hc⟩ := bind_eq_ok hc
      cases hc
      simp only [Interpret.step, h.imports]
      exact h.finder he.1.1 (.cons hbase (.cons (h.options opts he.1.2 ho)
        (h.expressions arguments he.2 hcs)))

end

end Correspondence

end PolicyExpr
