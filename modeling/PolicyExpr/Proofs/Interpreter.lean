import PolicyExpr.Compile.Node
import PolicyExpr.Selection.Recursive

/-!
# Direct interpretation

The value of a tree in a context, computed node by node: every operand is evaluated in the
context and the operator of the node is applied to the values. Nothing is evaluated ahead of
the request, no pattern is read ahead of it, and nothing is a stream.

An environment says what the interpreter cannot read off a tree: the functions, the imports,
the meaning of local definitions, what an attribute finder makes of its parameters, and which
inner expressions a step refuses.
-/
namespace PolicyExpr

/-- The value of an expression in each context. -/
abbrev Denotation := Context → Eval Value

/-- What trees are interpreted in. -/
structure Environment where
  functions : FunctionBroker
  imports : ImportTable
  definitions : (name : String) → Option Denotation
  /-- The value of an attribute finder at a location, for entity, options and arguments. -/
  finder : SourceLocation → (name : String) → (parameters : List Value) → Denotation
  /-- The inner expressions for which a step is an error. -/
  refuses : Expression → Bool

/-- What a step makes of a base and its inner expression. The selector sees the base as `@`. -/
def RelativeStep.apply : RelativeStep → Value → Selection.Inner → Eval Value
  | .selector, v, inner => do return Selection.selector v (← inner v .undefined)
  | .condition, v, inner => Selection.condition v inner
  | .subtemplate, v, inner => Selection.subtemplate v inner

namespace Interpret

open Value
open Operator (chain onOne onTwo)
open Compile (readBounds readIndex readRecursiveIndex)

/-! ## Nodes -/

/-- The values of operands in a context, from first to last. -/
def valuesOf (ds : List Denotation) (ctx : Context) : Eval (List Value) := ds.mapM fun d => d ctx

/-- An operator on the values of operands. -/
def apply (op : List Value → Eval Value) (ds : List Denotation) : Denotation := fun ctx => do
  op (← valuesOf ds ctx)

/-- An operator of a node: an error without a place gets the node's. -/
def applyAt (l : SourceLocation) (op : List Value → Eval Value) (ds : List Denotation) :
    Denotation :=
  apply (fun vs => do return (← op vs).locate l) ds

/-- A node with one operand is that operand. -/
def joined (ds : List Denotation) (combined : List Denotation → Denotation) : Denotation :=
  match ds with
  | [single] => single
  | ds => combined ds

/-- Operands of a lazy chain are looked at from left to right, with the metadata gathered so far,
until one decides. -/
def lazyChain (deciding : Bool) (l : SourceLocation) (metadata : Metadata) :
    List Denotation → Denotation
  | [], _ => .ok ((boolean !deciding).withMetadata metadata)
  | d :: ds, ctx => do
    match Operator.lazyStep deciding metadata l (← d ctx) with
    | .decided v => return v
    | .undecided metadata => lazyChain deciding l metadata ds ctx

/-- A function call on values. -/
def call (functions : FunctionBroker) (name : String) (l : SourceLocation) (vs : List Value) :
    Eval Value :=
  match Operator.firstError? vs with
  | some e => .ok e
  | none => do
    let v ← functions ⟨name, vs⟩
    return (v.locate l).mergeMetadata (mergedMetadata vs)

/-- A step that needs nothing but its base. -/
def plainStep (l : SourceLocation) (d : Denotation) (step : Value → Value) : Denotation :=
  applyAt l (onOne fun v => .ok (step v)) [d]

/-- A step with indices. Where one is no index the node is an error, whatever its base. -/
def indexedStep {α : Type} (l : SourceLocation) (d : Denotation) (indices : Except Failure α)
    (step : Value → α → Value) : Denotation :=
  match indices with
  | .ok indices => plainStep l d fun v => step v indices
  | .error f => fun _ => .ok (failureAt f l)

/-- A step with an inner expression, which is evaluated with `@` and `#` rebound. -/
def relativeStep (refused : Bool) (step : RelativeStep) (l : SourceLocation)
    (d inner : Denotation) : Denotation := fun ctx =>
  if refused then .ok (failureAt (.streamInside step) l)
  else do
    let v ← d ctx
    let result ← step.apply v fun part position => inner (ctx.withRelative part position)
    return result.locate l

/-! ## Trees -/

mutual

/-- The meaning of an expression. -/
def expression (ρ : Environment) : Expression → Denotation
  | .lazy op l operands =>
    joined (expressions ρ operands) (lazyChain op.deciding l .empty)
  | .eager op l operands =>
    joined (expressions ρ operands) (applyAt l fun vs => .ok (Operator.eager op vs))
  | .equality op l left right =>
    applyAt l (onTwo fun a b => .ok (op.apply a b)) [expression ρ left, expression ρ right]
  | .comparison op l left right =>
    applyAt l (onTwo fun a b => .ok (op.apply a b)) [expression ρ left, expression ρ right]
  | .addition l operands ops =>
    joined (expressions ρ operands) (applyAt l (chain (ops.map AdditiveOperator.apply)))
  | .multiplication l operands ops =>
    joined (expressions ρ operands) (applyAt l (chain (ops.map MultiplicativeOperator.apply)))
  | .unary op l operand => applyAt l (onOne fun v => .ok (op.apply v)) [expression ρ operand]
  | .basic l b ss t => template ρ l (steps ρ l (base ρ l b) ss) t

def expressions (ρ : Environment) : List Expression → List Denotation
  | [] => []
  | e :: rest => expression ρ e :: expressions ρ rest

/-- The options of an attribute finder; absent ones are Undefined. -/
def options (ρ : Environment) : Option Expression → Denotation
  | none => fun _ => .ok undefined
  | some e => expression ρ e

def template (ρ : Environment) (l : SourceLocation) (d : Denotation) :
    Option Expression → Denotation
  | none => d
  | some e => relativeStep (ρ.refuses e) .subtemplate l d (expression ρ e)

def base (ρ : Environment) (l : SourceLocation) : Base → Denotation
  | .group e => expression ρ e
  | .literal v => literal ρ l v
  | .call name arguments =>
    apply (call ρ.functions (ρ.imports.resolve name) l) (expressions ρ arguments)
  | .identifier name =>
    match ρ.definitions name with
    | some d => d
    | none => fun ctx => .ok (ctx.get name)
  | .relative => fun ctx => .ok ctx.relativeValue
  | .relativePosition => fun ctx => .ok ctx.relativePosition
  | .environmentAttribute name arguments opts _ => fun ctx => do
    let vs ← valuesOf ((fun _ => .ok null) :: options ρ opts :: expressions ρ arguments) ctx
    ρ.finder l (ρ.imports.resolve name) vs ctx

def literal (ρ : Environment) (l : SourceLocation) : Literal → Denotation
  | .number raw =>
    match Decimal.ofText raw with
    | .ok n => fun _ => .ok (number n)
    | .error _ => fun _ => .ok (failureAt (.numberLiteral raw) l)
  | .text s => fun _ => .ok (text s)
  | .boolean b => fun _ => .ok (boolean b)
  | .null => fun _ => .ok null
  | .undefined => fun _ => .ok undefined
  | .array items => apply (fun vs => .ok (Operator.arrayOf vs)) (expressions ρ items)
  | .object ms =>
    apply (fun vs => .ok (Operator.objectOf (ms.map Member.key) vs)) (members ρ ms)

def members (ρ : Environment) : List Member → List Denotation
  | [] => []
  | .mk _ e :: rest => expression ρ e :: members ρ rest

/-- The steps behind a base from first to last. -/
def steps (ρ : Environment) (l : SourceLocation) (d : Denotation) : List Step → Denotation
  | [] => d
  | s :: rest => steps ρ l (step ρ l d s) rest

def step (ρ : Environment) (l : SourceLocation) (d : Denotation) : Step → Denotation
  | .key name => plainStep l d fun v => Selection.key v name
  | .wildcard => plainStep l d Selection.wildcard
  | .index raw => indexedStep l d (readIndex raw) Selection.index
  | .selector e => relativeStep (ρ.refuses e) .selector l d (expression ρ e)
  | .slice start stop step =>
    indexedStep l d (readBounds start stop step) fun v (start, stop, step) =>
      Selection.slice v start stop step
  | .condition e => relativeStep (ρ.refuses e) .condition l d (expression ρ e)
  | .indexUnion raws => indexedStep l d (raws.mapM readIndex) Selection.indexUnion
  | .keyUnion keys => plainStep l d fun v => Selection.keyUnion v keys
  | .recursiveKey name => plainStep l d fun v => Selection.recursiveKey v name
  | .recursiveWildcard => plainStep l d Selection.recursiveWildcard
  | .recursiveIndex raw => indexedStep l d (readRecursiveIndex raw) Selection.recursiveIndex
  | .attributeFinder l name arguments opts _ => fun ctx => do
    let vs ← valuesOf (d :: options ρ opts :: expressions ρ arguments) ctx
    ρ.finder l (ρ.imports.resolve name) vs ctx

end

end Interpret

namespace Expression

/-- The value of a tree in an environment, by direct interpretation. -/
def interpret (e : Expression) (ρ : Environment) : Denotation := Interpret.expression ρ e

end Expression

end PolicyExpr
