import PolicyExpr.Operator

/-!
# Boolean operators

The eager operators look at every operand, and the first that is an error or no boolean
decides the failure. A lazy chain looks at its operands one after another and stops at the
first that decides it.
-/
namespace PolicyExpr

namespace EagerOperator

/-- What the operator makes of booleans. -/
def combine : EagerOperator → List Bool → Bool
  | conjunction, bs => bs.all id
  | disjunction, bs => bs.any id
  | exclusive, bs => bs.foldl Bool.xor false

end EagerOperator

namespace Operator

open Value

/-- An eager boolean operator on any number of operands. -/
def eager (operator : EagerOperator) (operands : List Value) : Value :=
  let metadata := mergedMetadata operands
  match operands.find? fun v => v.asBoolean?.isNone with
  | some v =>
    if v.isError then v.mergeMetadata metadata
    else (failure (.eagerOperand operator v.type)).withMetadata metadata
  | none =>
    (boolean (operator.combine (operands.filterMap asBoolean?))).withMetadata metadata

/-- One operand of a lazy chain: its boolean, or the error the chain has as its result. -/
def lazyOperand (v : Value) : Except Value Bool :=
  if v.isError then .error v
  else match v.asBoolean? with
    | some b => .ok b
    | none => .error ((failure (.lazyOperand v.type)).withMetadata v.metadata)

def not (v : Value) : Value :=
  if v.isError then v
  else match v.asBoolean? with
    | some b => (boolean !b).withMetadata v.metadata
    | none => (failure (.notOperand v.type)).withMetadata v.metadata

/-- Where a lazy chain stands after an operand. -/
inductive LazyOutcome where
  /-- The value of the chain is known. -/
  | decided (v : Value)
  /-- The next operand counts; this is the metadata gathered so far. -/
  | undecided (metadata : Metadata)

/-- Looks at one operand of a lazy chain in which the boolean `deciding` decides. -/
def lazyStep (deciding : Bool) (metadata : Metadata) (location : SourceLocation) (v : Value) :
    LazyOutcome :=
  match lazyOperand v with
  | .error e => .decided ((e.mergeMetadata metadata).locate location)
  | .ok b =>
    if b = deciding then .decided ((boolean b).withMetadata (metadata.merge v.metadata))
    else .undecided (metadata.merge v.metadata)

end Operator

end PolicyExpr
