import PolicyExpr.Operator

/-!
# Arrays and objects of computed parts

An array or an object of parts is the first error among them, or else holds the parts that
are defined. It carries the metadata of every part, also of those it does not hold.
-/
namespace PolicyExpr.Operator

open Value

/-- An array of values: the first error, or else what is defined. -/
def arrayOf (vs : List Value) : Value :=
  match firstError? vs with
  | some e => e
  | none => (array (vs.filter fun v => !v.isUndefined)).withMetadata (mergedMetadata vs)

/-- An object of values under keys: the first error, or else what is defined. -/
def objectOf (keys : List String) (vs : List Value) : Value :=
  match firstError? vs with
  | some e => e
  | none =>
    (object (ofEntries ((keys.zip vs).filter fun e => !e.2.isUndefined))).withMetadata
      (mergedMetadata vs)

end PolicyExpr.Operator
