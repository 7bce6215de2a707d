import PolicyExpr.Decimal.Notation
import PolicyExpr.Location

/-!
# Runtime failures

A failure at run time is a value of the policy language, never an abort. Here are its causes,
and the words in which each is reported.
-/
namespace PolicyExpr

/-- The types of the policy language. -/
inductive ValueType where
  | boolean
  | number
  | text
  | array
  | object
  | null
  | undefined
  | error
  deriving DecidableEq, Repr

namespace ValueType

def name : ValueType → String
  | boolean => "Boolean"
  | number => "Number"
  | text => "Text"
  | array => "Array"
  | object => "Object"
  | null => "Null"
  | undefined => "Undefined"
  | error => "Error"

end ValueType

/-- The boolean operators that look at every operand. -/
inductive EagerOperator where
  | conjunction
  | disjunction
  | exclusive
  deriving DecidableEq, Repr

namespace EagerOperator

def name : EagerOperator → String
  | conjunction => "Eager AND"
  | disjunction => "Eager OR"
  | exclusive => "XOR"

end EagerOperator

/-- The steps whose inner expression is evaluated against a part of the base. -/
inductive RelativeStep where
  | selector
  | condition
  | subtemplate
  deriving DecidableEq, Repr

namespace RelativeStep

def name : RelativeStep → String
  | selector => "expression step"
  | condition => "condition step"
  | subtemplate => "subtemplate"

end RelativeStep

/-- The causes of runtime failures. -/
inductive Failure where
  /-- A failure that a broker or a request reports in its own words. -/
  | reported (text : String)
  | arithmeticOperand (got : ValueType)
  | arithmetic (cause : ArithmeticError)
  | comparisonOperand (got : ValueType)
  | containerOperand (got : ValueType)
  | patternOperand (got : ValueType)
  /-- A text that is no pattern. The message ends where the diagnostic of the pattern reader would
  follow: the reader's own words are left out. -/
  | pattern (text : String)
  /-- A pattern that is too large, with the reader's words for that. -/
  | patternSize (text : String)
  | eagerOperand (operator : EagerOperator) (got : ValueType)
  | lazyOperand (got : ValueType)
  | notOperand (got : ValueType)
  | negateOperand (got : ValueType)
  | plusOperand (got : ValueType)
  | keyBase (key : String) (got : ValueType)
  | wildcardBase (got : ValueType)
  | indexBase (got : ValueType)
  | indexUnionBase (got : ValueType)
  | keyUnionBase (got : ValueType)
  | indexBounds (index : Int) (size : Nat)
  | sliceStep
  | nesting
  | selector (got : ValueType)
  | condition (got : ValueType)
  | numberLiteral (raw : String)
  | arrayIndex (raw : String)
  | recursiveIndex (raw : String)
  | streamInside (step : RelativeStep)
  | streamEvaluated
  | attributeParameters
  | undefinedEntity
  | noAttributeBroker
  | unknownFunction (name : String)
  | argumentCount (name : String)
  | sizeArgument (name : String) (got : ValueType)
  | numberArgument (name : String) (got : ValueType)
  | textArgument (name : String) (got : ValueType)
  deriving DecidableEq

namespace Failure

/-- The words of a report. -/
def message : Failure → String
  | reported text => text
  | arithmeticOperand got =>
    "Arithmetic operation requires number operands, got: " ++ got.name ++ "."
  | arithmetic cause => cause.message
  | comparisonOperand got => "Comparison requires number operands, got: " ++ got.name ++ "."
  | containerOperand got =>
    "'in' requires an array, object or text right operand, got: " ++ got.name ++ "."
  | patternOperand got => "Regular expression must be text, got: " ++ got.name ++ "."
  | pattern text => "Invalid regular expression: " ++ text ++ "."
  | patternSize text =>
    "Invalid regular expression: " ++ text ++
      ". Compiled regex exceeds size limit of 10485760 bytes."
  | eagerOperand operator got =>
    operator.name ++ " requires boolean operands, got: " ++ got.name ++ "."
  | lazyOperand got => "Boolean operation requires boolean operands, got: " ++ got.name ++ "."
  | notOperand got => "Logical negation requires a boolean operand, got: " ++ got.name ++ "."
  | negateOperand got => "Arithmetic negation requires a number operand, got: " ++ got.name ++ "."
  | plusOperand got => "Unary plus requires a number operand, got: " ++ got.name ++ "."
  | keyBase key got =>
    "Key step '" ++ key ++ "' can only be applied to objects but got " ++ got.name ++ "."
  | wildcardBase got =>
    "Wildcard steps '.*' can only be applied to arrays or objects but got " ++ got.name ++ "."
  | indexBase got => "Index steps can only be applied to arrays but got " ++ got.name ++ "."
  | indexUnionBase got =>
    "Index union steps can only be applied to arrays but got " ++ got.name ++ "."
  | keyUnionBase got =>
    "Key union steps can only be applied to objects but got " ++ got.name ++ "."
  | indexBounds index size =>
    "Index " ++ toString index ++ " out of bounds for array of size " ++ toString size ++ "."
  | sliceStep => "Step must not be zero."
  | nesting => "Maximum nesting depth exceeded during recursive key/index/wildcard step."
  | selector got =>
    "Expression in expression step must return a number or text, but got " ++ got.name ++ "."
  | condition got => "Condition step requires boolean result, got: " ++ got.name ++ "."
  | numberLiteral raw => "Invalid number format: " ++ raw ++ "."
  | arrayIndex raw => "Invalid array index: " ++ raw ++ "."
  | recursiveIndex raw => "Invalid recursive index: " ++ raw ++ "."
  | streamInside step => "Stream expressions not supported in " ++ step.name ++ "."
  | streamEvaluated => "Stream expressions cannot be evaluated synchronously."
  | attributeParameters => "Missing attribute parameters."
  | undefinedEntity =>
    "Undefined value handed over as left-hand parameter to policy information point."
  | noAttributeBroker =>
    "Internal PDP Error. AttributeBroker not configured in evaluation context."
  | unknownFunction name => "Unknown function: '" ++ name ++ "'."
  | argumentCount name => "`" ++ name ++ "` expects 1 argument"
  | sizeArgument name got =>
    "`" ++ name ++ "` requires array/object/text argument. Got `" ++ got.name ++ "`."
  | numberArgument name got =>
    "`" ++ name ++ "` requires number arguments. Got `" ++ got.name ++ "`."
  | textArgument name got =>
    "`" ++ name ++ "` requires text argument. Got `" ++ got.name ++ "`."

end Failure

end PolicyExpr
