import PolicyExpr.Compile.AttributeFinder
import PolicyExpr.Compile.Chain
import PolicyExpr.Compile.Node
import PolicyExpr.Selection.Recursive

/-!
# Compilation

Every node compiles its operands and combines them by the operator of its kind, so that
constant parts of a tree are evaluated once, when the policy is loaded. A step with an inner
expression is evaluated then too, where its base is constant and the inner expression reads
only `@` and `#`.

Compilation fails on the first defect of a tree. It also fails where the evaluation of a
constant part needs a text that cannot be written.
-/
namespace PolicyExpr

namespace Compile

open Value
open Operator (chain onOne)
open Compiled (combine combineAt combineInContext invalid)
open Compilation (defective ofEval)

mutual

/-- Compiles an expression. -/
def expression (scope : Scope) : Expression → Compilation Compiled
  | .lazy op l operands => do
    requireOperands (.lazy op) l operands
    let cs ← expressions scope operands
    ofEval (joined cs fun cs => .ok (Chain.compile op.deciding l cs))
  | .eager op l operands => do
    requireOperands (.eager op) l operands
    let cs ← expressions scope operands
    ofEval (joined cs fun cs => combineAt l cs fun vs => .ok (Operator.eager op vs))
  | .equality op l left right => do
    let a ← expression scope left
    let b ← expression scope right
    ofEval (equality op l a b)
  | .comparison op l left right => do
    let a ← expression scope left
    let b ← expression scope right
    ofEval (binary l a b fun a b => .ok (op.apply a b))
  | .addition l operands ops => do
    requireOperands .addition l operands
    requireOperators .addition l operands ops
    let cs ← expressions scope operands
    ofEval (joined cs fun cs => combineAt l cs (chain (ops.map AdditiveOperator.apply)))
  | .multiplication l operands ops => do
    requireOperands .multiplication l operands
    requireOperators .multiplication l operands ops
    let cs ← expressions scope operands
    ofEval (joined cs fun cs => combineAt l cs (chain (ops.map MultiplicativeOperator.apply)))
  | .unary op l operand => do
    let c ← expression scope operand
    ofEval (combineAt l [c] (onOne fun v => .ok (op.apply v)))
  | .basic l b ss template => do
    let c ← base scope l b
    let c ← steps scope l c ss
    subtemplate scope l c template

/-- Compiles expressions from first to last. -/
def expressions (scope : Scope) : List Expression → Compilation (List Compiled)
  | [] => .ok []
  | e :: rest => do
    let c ← expression scope e
    return c :: (← expressions scope rest)

/-- Compiles the options of an attribute finder; absent ones are Undefined. -/
def options (scope : Scope) : Option Expression → Compilation Compiled
  | none => .ok (.constant undefined)
  | some e => expression scope e

/-- Compiles the template of a basic expression, where there is one. -/
def subtemplate (scope : Scope) (l : SourceLocation) (c : Compiled) :
    Option Expression → Compilation Compiled
  | none => .ok c
  | some e => do
    let template ← expression scope e
    ofEval (relativeStep scope .subtemplate l c template Selection.subtemplate)

/-- Compiles the base of a basic expression at a location. -/
def base (scope : Scope) (l : SourceLocation) : Base → Compilation Compiled
  | .group e => expression scope e
  | .literal v => literal scope l v
  | .call name arguments =>
    if name = "" then defective .missingFunctionIdentifier l
    else match scope.functionBroker with
      | none => defective .noFunctionBroker l
      | some broker => do
        let cs ← expressions scope arguments
        ofEval (combineInContext cs false scope.foldingContext
          (call broker (scope.imports.resolve name) l))
  | .identifier name =>
    if name = "" then defective .missingIdentifier l
    else match scope.definitions.get? name with
      | some c => .ok c
      | none => .ok (.pure true fun ctx => .ok (ctx.get name))
  | .relative => .ok (.pure false fun ctx => .ok ctx.relativeValue)
  | .relativePosition => .ok (.pure false fun ctx => .ok ctx.relativePosition)
  | .environmentAttribute name arguments opts head =>
    if name = "" then defective .missingAttributeIdentifier l
    else do
      let o ← options scope opts
      let cs ← expressions scope arguments
      return AttributeFinder.compile (scope.imports.resolve name) l head
        (.constant null :: o :: cs)

/-- Compiles a literal at a location. -/
def literal (scope : Scope) (l : SourceLocation) : Literal → Compilation Compiled
  | .number raw =>
    match Decimal.ofText raw with
    | .ok n => .ok (.constant (number n))
    | .error _ => .ok (invalid (.numberLiteral raw) l)
  | .text s => .ok (.constant (text s))
  | .boolean b => .ok (.constant (boolean b))
  | .null => .ok (.constant null)
  | .undefined => .ok (.constant undefined)
  | .array items => do
    let cs ← expressions scope items
    ofEval (combine cs fun vs => .ok (Operator.arrayOf vs))
  | .object ms => do
    let cs ← members scope ms
    ofEval (combine cs fun vs => .ok (Operator.objectOf (ms.map Member.key) vs))

/-- Compiles the values of members from first to last. -/
def members (scope : Scope) : List Member → Compilation (List Compiled)
  | [] => .ok []
  | .mk _ e :: rest => do
    let c ← expression scope e
    return c :: (← members scope rest)

/-- Compiles the steps behind a base from first to last. -/
def steps (scope : Scope) (l : SourceLocation) (c : Compiled) : List Step → Compilation Compiled
  | [] => .ok c
  | s :: rest => do
    let c ← step scope l c s
    steps scope l c rest

/-- Compiles one step of a basic expression at a location. -/
def step (scope : Scope) (l : SourceLocation) (c : Compiled) : Step → Compilation Compiled
  | .key name => ofEval (plainStep l c fun v => Selection.key v name)
  | .wildcard => ofEval (plainStep l c Selection.wildcard)
  | .index raw => ofEval (indexedStep l c (readIndex raw) Selection.index)
  | .selector e => do
    let selector ← expression scope e
    ofEval (selectorStep scope l c selector)
  | .slice start stop step =>
    ofEval (indexedStep l c (readBounds start stop step) fun v (start, stop, step) =>
      Selection.slice v start stop step)
  | .condition e => do
    let condition ← expression scope e
    ofEval (relativeStep scope .condition l c condition Selection.condition)
  | .indexUnion raws => ofEval (indexedStep l c (raws.mapM readIndex) Selection.indexUnion)
  | .keyUnion keys => ofEval (plainStep l c fun v => Selection.keyUnion v keys)
  | .recursiveKey name => ofEval (plainStep l c fun v => Selection.recursiveKey v name)
  | .recursiveWildcard => ofEval (plainStep l c Selection.recursiveWildcard)
  | .recursiveIndex raw =>
    ofEval (indexedStep l c (readRecursiveIndex raw) Selection.recursiveIndex)
  | .attributeFinder l name arguments opts head =>
    if name = "" then defective .missingAttributeIdentifier l
    else do
      let o ← options scope opts
      let cs ← expressions scope arguments
      return AttributeFinder.compile (scope.imports.resolve name) l head (c :: o :: cs)

end

end Compile

namespace Expression

/-- Compiles an expression against a scope. -/
def compile (e : Expression) (scope : Scope) : Compilation Compiled := Compile.expression scope e

end Expression

end PolicyExpr
