import PolicyExpr.Proofs.Declaration

/-!
# Local definitions are transparent

A substitution puts bases in the place of identifiers, everywhere in a tree: under steps, in
conditions, selectors and templates, in the options and the arguments of attribute finders. Where
what it puts there compiles as the identifiers do in another scope, the whole tree does
(`compile_substitute`). So a tree that uses a local definition compiles to what it compiles to with
the defining tree in parentheses at each use: to the same defect, or to the same constant, function
or stream.
-/
namespace PolicyExpr

/-- The base that stands for each identifier of a node at a location. -/
abbrev Substitution := SourceLocation → (name : String) → Base

namespace Substitution

/-- Puts a base, which may depend on where it stands, for one name. -/
def single (x : String) (b : SourceLocation → Base) : Substitution := fun l name =>
  if name = x then b l else .identifier name

mutual

/-- Puts bases for the identifiers of a tree. -/
def expression (σ : Substitution) : Expression → Expression
  | .lazy op l operands => .lazy op l (expressions σ operands)
  | .eager op l operands => .eager op l (expressions σ operands)
  | .equality op l left right => .equality op l (expression σ left) (expression σ right)
  | .comparison op l left right => .comparison op l (expression σ left) (expression σ right)
  | .addition l operands ops => .addition l (expressions σ operands) ops
  | .multiplication l operands ops => .multiplication l (expressions σ operands) ops
  | .unary op l operand => .unary op l (expression σ operand)
  | .basic l b ss template => .basic l (base σ l b) (steps σ ss) (optional σ template)

def expressions (σ : Substitution) : List Expression → List Expression
  | [] => []
  | e :: rest => expression σ e :: expressions σ rest

def optional (σ : Substitution) : Option Expression → Option Expression
  | none => none
  | some e => some (expression σ e)

def base (σ : Substitution) (l : SourceLocation) : Base → Base
  | .group e => .group (expression σ e)
  | .literal v => .literal (literal σ v)
  | .call name arguments => .call name (expressions σ arguments)
  | .identifier name => σ l name
  | .environmentAttribute name arguments options head =>
    .environmentAttribute name (expressions σ arguments) (optional σ options) head
  | other => other

def literal (σ : Substitution) : Literal → Literal
  | .array items => .array (expressions σ items)
  | .object ms => .object (members σ ms)
  | other => other

def members (σ : Substitution) : List Member → List Member
  | [] => []
  | .mk key e :: rest => .mk key (expression σ e) :: members σ rest

def steps (σ : Substitution) : List Step → List Step
  | [] => []
  | s :: rest => step σ s :: steps σ rest

def step (σ : Substitution) : Step → Step
  | .selector e => .selector (expression σ e)
  | .condition e => .condition (expression σ e)
  | .attributeFinder l name arguments options head =>
    .attributeFinder l name (expressions σ arguments) (optional σ options) head
  | other => other

end

variable {σ : Substitution}

@[simp] theorem length_expressions (es : List Expression) :
    (expressions σ es).length = es.length := by
  induction es with
  | nil => rfl
  | cons e rest ih => simp [expressions, ih]

@[simp] theorem isEmpty_expressions (es : List Expression) :
    (expressions σ es).isEmpty = es.isEmpty := by
  cases es <;> rfl

@[simp] theorem keys_members (ms : List Member) :
    (members σ ms).map Member.key = ms.map Member.key := by
  induction ms with
  | nil => rfl
  | cons m rest ih =>
    obtain ⟨key, e⟩ := m
    simp [members, Member.key, ih]

end Substitution

namespace Expression

/-- The tree with bases in the place of its identifiers. -/
def substitute (e : Expression) (σ : Substitution) : Expression := Substitution.expression σ e

/-- The tree with another tree, in parentheses, in the place of a name. -/
def inline (e : Expression) (x : String) (d : Expression) : Expression :=
  e.substitute (.single x fun _ => .group d)

end Expression

namespace Compile

variable {scope : Scope} {definitions : Table String Compiled} {σ : Substitution}

@[simp] theorem requireOperands_substitute (p : Production) (l : SourceLocation)
    (es : List Expression) :
    requireOperands p l (Substitution.expressions σ es) = requireOperands p l es := by
  simp [requireOperands]

@[simp] theorem requireOperators_substitute {ω : Type} (p : Production) (l : SourceLocation)
    (es : List Expression) (ops : List ω) :
    requireOperators p l (Substitution.expressions σ es) ops = requireOperators p l es ops := by
  simp [requireOperators]

/-- In one scope the bases of a substitution compile as the identifiers do in another, which differs
in its definitions only. -/
abbrev Realizes (σ : Substitution) (scope : Scope) (definitions : Table String Compiled) : Prop :=
  ∀ l name, base scope l (σ l name) = base { scope with definitions } l (.identifier name)

mutual

theorem expression_substitute (h : Realizes σ scope definitions) : ∀ e : Expression,
    expression scope (Substitution.expression σ e) = expression { scope with definitions } e
  | .lazy op l operands => by
    simp only [Substitution.expression, expression, requireOperands_substitute,
      expressions_substitute h operands]
  | .eager op l operands => by
    simp only [Substitution.expression, expression, requireOperands_substitute,
      expressions_substitute h operands]
  | .equality op l left right => by
    simp only [Substitution.expression, expression, expression_substitute h left,
      expression_substitute h right]
  | .comparison op l left right => by
    simp only [Substitution.expression, expression, expression_substitute h left,
      expression_substitute h right]
  | .addition l operands ops => by
    simp only [Substitution.expression, expression, requireOperands_substitute,
      requireOperators_substitute, expressions_substitute h operands]
  | .multiplication l operands ops => by
    simp only [Substitution.expression, expression, requireOperands_substitute,
      requireOperators_substitute, expressions_substitute h operands]
  | .unary op l operand => by
    simp only [Substitution.expression, expression, expression_substitute h operand]
  | .basic l b ss template => by
    simp only [Substitution.expression, expression, base_substitute h l b,
      steps_substitute h l ss, subtemplate_substitute h l template]

theorem expressions_substitute (h : Realizes σ scope definitions) : ∀ es : List Expression,
    expressions scope (Substitution.expressions σ es) = expressions { scope with definitions } es
  | [] => rfl
  | e :: rest => by
    simp only [Substitution.expressions, expressions, expression_substitute h e,
      expressions_substitute h rest]

theorem options_substitute (h : Realizes σ scope definitions) : ∀ o : Option Expression,
    options scope (Substitution.optional σ o) = options { scope with definitions } o
  | none => rfl
  | some e => expression_substitute h e

theorem subtemplate_substitute (h : Realizes σ scope definitions) (l : SourceLocation) :
    ∀ (t : Option Expression) (c : Compiled),
    subtemplate scope l c (Substitution.optional σ t) =
      subtemplate { scope with definitions } l c t
  | none, _ => rfl
  | some e, c => by
    simp only [Substitution.optional, subtemplate, expression_substitute h e]
    rfl

theorem base_substitute (h : Realizes σ scope definitions) (l : SourceLocation) : ∀ b : Base,
    base scope l (Substitution.base σ l b) = base { scope with definitions } l b
  | .group e => expression_substitute h e
  | .literal v => literal_substitute h l v
  | .call name arguments => by
    simp only [Substitution.base, base, expressions_substitute h arguments]
    rfl
  | .identifier name => h l name
  | .relative => rfl
  | .relativePosition => rfl
  | .environmentAttribute name arguments opts head => by
    simp only [Substitution.base, base, options_substitute h opts,
      expressions_substitute h arguments]

theorem literal_substitute (h : Realizes σ scope definitions) (l : SourceLocation) :
    ∀ v : Literal,
    literal scope l (Substitution.literal σ v) = literal { scope with definitions } l v
  | .number _ => rfl
  | .text _ => rfl
  | .boolean _ => rfl
  | .null => rfl
  | .undefined => rfl
  | .array items => by
    simp only [Substitution.literal, literal, expressions_substitute h items]
  | .object ms => by
    simp only [Substitution.literal, literal, members_substitute h ms,
      Substitution.keys_members]

theorem members_substitute (h : Realizes σ scope definitions) : ∀ ms : List Member,
    members scope (Substitution.members σ ms) = members { scope with definitions } ms
  | [] => rfl
  | .mk _ e :: rest => by
    simp only [Substitution.members, members, expression_substitute h e,
      members_substitute h rest]

theorem steps_substitute (h : Realizes σ scope definitions) (l : SourceLocation) :
    ∀ (ss : List Step) (c : Compiled),
    steps scope l c (Substitution.steps σ ss) = steps { scope with definitions } l c ss
  | [], _ => rfl
  | s :: rest, c => by
    simp only [Substitution.steps, steps, step_substitute h l s c, steps_substitute h l rest]

theorem step_substitute (h : Realizes σ scope definitions) (l : SourceLocation) :
    ∀ (s : Step) (c : Compiled),
    step scope l c (Substitution.step σ s) = step { scope with definitions } l c s
  | .key _, _ => rfl
  | .wildcard, _ => rfl
  | .index _, _ => rfl
  | .selector e, c => by
    simp only [Substitution.step, step, expression_substitute h e]
    rfl
  | .slice _ _ _, _ => rfl
  | .condition e, c => by
    simp only [Substitution.step, step, expression_substitute h e]
    rfl
  | .indexUnion _, _ => rfl
  | .keyUnion _, _ => rfl
  | .recursiveKey _, _ => rfl
  | .recursiveWildcard, _ => rfl
  | .recursiveIndex _, _ => rfl
  | .attributeFinder _ name arguments opts head, c => by
    simp only [Substitution.step, step, options_substitute h opts,
      expressions_substitute h arguments]

end

end Compile

/-- What stands for one name and compiles as a local definition of that name can be replaced by the
definition. -/
theorem Expression.compile_substitute {scope : Scope} {x : String} {b : SourceLocation → Base}
    {c : Compiled} (hx : x ≠ "") (hb : ∀ l, Compile.base scope l (b l) = .ok c) (e : Expression) :
    (e.substitute (.single x b)).compile scope = e.compile (scope.bind x c) := by
  refine Compile.expression_substitute (fun l name => ?_) e
  have bound := scope.definitions_bind x name c
  by_cases hname : name = x
  · subst hname
    rw [if_pos rfl] at bound
    simp only [Substitution.single, if_pos, hb, Compile.base, if_neg hx]
    rw [show (scope.definitions.insert name c).get? name = some c from bound]
  · rw [if_neg hname] at bound
    simp only [Substitution.single, if_neg hname, Compile.base]
    rw [show (scope.definitions.insert x c).get? name = scope.definitions.get? name from bound]

/-- Local definitions are referentially transparent. A tree that uses a definition compiles to what
it compiles to with the defining tree, in parentheses, at every use: the report of a defect, the
nature, the scope, the value in each context and the stream in each are the same. Nothing is assumed
about other uses of the name: the definition hides an outer one, and the names in the defining tree
are those of the scope that it was compiled in. -/
theorem Expression.compile_inline {scope : Scope} {x : String} {d : Expression} {c : Compiled}
    (hx : x ≠ "") (hd : d.compile scope = .ok c) (e : Expression) :
    e.compile (scope.bind x c) = (e.inline x d).compile scope :=
  (Expression.compile_substitute hx (b := fun _ => .group d) (fun _ => hd) e).symm

/-- The definition may be a stream, and be used where none is allowed: with `now` for `<clock.now>`,
`resource[?(@ == now)] == now` is `resource[?(@ == (<clock.now>))] == (<clock.now>)`. -/
theorem Expression.compile_inline_clock :
    let l : SourceLocation := .unknown
    let clock : Expression := .basic l (.environmentAttribute "clock.now" [] none false) [] none
    let now : Expression := .basic l (.identifier "now") [] none
    let current : Expression := .basic l .relative [] none
    let e : Expression := .equality .equal l
      (.basic l (.identifier "resource") [.condition (.equality .equal l current now)] none) now
    ∃ c, clock.compile .empty = .ok c ∧ c.nature = .stream ∧
      e.compile (Scope.empty.bind "now" c) = (e.inline "now" clock).compile .empty := by
  intro l clock now current e
  exact ⟨_, rfl, rfl, Expression.compile_inline (by decide) (d := clock) rfl e⟩

end PolicyExpr
