import PolicyExpr.Value.Document

/-!
# Operators: what they share

An operator whose operands contain an error has the first error as its result. Whatever
its result is, it carries the metadata of all operands.
-/
namespace PolicyExpr.Operator

open Value

/-- The first error among the operands, with the metadata of all of them. -/
def firstError? (operands : List Value) : Option Value :=
  (operands.find? isError).map fun e => e.mergeMetadata (mergedMetadata operands)

/-- An operator on two operands without errors, extended to all operands. -/
def binary (left right : Value) (op : Value → Value → Value) : Value :=
  match firstError? [left, right] with
  | some e => e
  | none => (op left right).withMetadata (mergedMetadata [left, right])

end PolicyExpr.Operator
