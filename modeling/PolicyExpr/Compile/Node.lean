import PolicyExpr.Operator.Container
import PolicyExpr.Operator.Symbol
import PolicyExpr.Scope
import PolicyExpr.Selection.Relative

/-!
# Nodes with compiled parts

How the compiled parts of a node are combined: matches, function calls, and the steps behind
a base.
-/
namespace PolicyExpr.Compile

open Value
open Operator (onOne onTwo)
open Compiled (combineAt combineInContext invalid)

/-! ## Operands -/

/-- A node that lists its operands has at least one. -/
def requireOperands (p : Production) (l : SourceLocation) (operands : List Expression) :
    Compilation Unit :=
  if operands.isEmpty then Compilation.defective (.emptyOperands p) l else .ok ()

/-- Between two operands there is one operator. -/
def requireOperators {ω : Type} (p : Production) (l : SourceLocation)
    (operands : List Expression) (operators : List ω) : Compilation Unit :=
  if operators.length + 1 = operands.length then .ok ()
  else Compilation.defective (.operatorCount p operands.length operators.length) l

/-- A node with one operand is that operand. -/
def joined (operands : List Compiled) (combined : List Compiled → Eval Compiled) :
    Eval Compiled :=
  match operands with
  | [single] => .ok single
  | operands => combined operands

/-! ## Operators, calls and steps -/

/-- A function call on values: the context's broker, or else the one of the scope. -/
def call (broker : FunctionBroker) (name : String) (location : SourceLocation) (ctx : Context)
    (vs : List Value) : Eval Value :=
  match Operator.firstError? vs with
  | some e => .ok e
  | none => do
    let v ← (ctx.functionBroker.getD broker) ⟨name, vs⟩
    return (v.locate location).mergeMetadata (mergedMetadata vs)

/-- An operator on two operands. -/
def binary (location : SourceLocation) (left right : Compiled) (op : Value → Value → Eval Value) :
    Eval Compiled :=
  combineAt location [left, right] (onTwo op)

/-- An equality or a match. A pattern that is constant and valid is read once. -/
def equality (operator : EqualityOperator) (location : SourceLocation) (left right : Compiled) :
    Eval Compiled :=
  let general := binary location left right fun a b => .ok (operator.apply a b)
  match operator, right with
  | .regex, .constant pattern =>
    match Operator.compilePattern pattern with
    | .ok regex =>
      combineAt location [left] (onOne fun v => .ok (Operator.matchCompiled v regex pattern))
    | .error _ => general
  | _, _ => general

/-- A step that needs nothing but its base. -/
def plainStep (location : SourceLocation) (base : Compiled) (step : Value → Value) :
    Eval Compiled :=
  combineAt location [base] (onOne fun v => .ok (step v))

/-- A step with an inner expression, which is evaluated with `@` and `#` rebound. -/
def relativeStep (scope : Scope) (step : RelativeStep) (location : SourceLocation)
    (base inner : Compiled) (apply : Value → Selection.Inner → Eval Value) : Eval Compiled :=
  if inner.nature = .stream then .ok (invalid (.streamInside step) location)
  else
    combineInContext [base] inner.isScoped scope.foldingContext fun ctx =>
      onOne fun v => do
        let result ← apply v fun part position => inner.evaluate (ctx.withRelative part position)
        return result.locate location

/-- The expression step: the selector sees the base as `@`. -/
def selectorStep (scope : Scope) (location : SourceLocation) (base selector : Compiled) :
    Eval Compiled :=
  relativeStep scope .selector location base selector fun v inner => do
    return Selection.selector v (← inner v undefined)

/-! ## Indices -/

/-- The number of an index as it was written. -/
def readIndex (raw : String) : Except Failure Int :=
  match Decimal.readInt64? raw with
  | some i => .ok i
  | none => .error (.arrayIndex raw)

/-- The number of an index of a recursive step. -/
def readRecursiveIndex (raw : String) : Except Failure Int :=
  match Decimal.readInt64? raw with
  | some i => .ok i
  | none => .error (.recursiveIndex raw)

/-- The number of an index that may be left out. -/
def readBound : Option String → Except Failure (Option Int)
  | none => .ok none
  | some raw => do return some (← readIndex raw)

/-- The bounds of a slice, the step last. -/
def readBounds (start stop step : Option String) :
    Except Failure (Option Int × Option Int × Option Int) := do
  return (← readBound start, ← readBound stop, ← readBound step)

/-- A step with indices. Where one is no index the node is an error, whatever its base. -/
def indexedStep {α : Type} (location : SourceLocation) (base : Compiled)
    (indices : Except Failure α) (step : Value → α → Value) : Eval Compiled :=
  match indices with
  | .ok indices => plainStep location base fun v => step v indices
  | .error f => .ok (invalid f location)

end PolicyExpr.Compile
