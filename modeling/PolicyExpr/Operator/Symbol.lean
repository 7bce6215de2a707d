import PolicyExpr.Expression
import PolicyExpr.Operator.Arithmetic
import PolicyExpr.Operator.Boolean
import PolicyExpr.Operator.Match
import PolicyExpr.Operator.Membership

/-!
# Symbols

The operators that the symbols of a tree stand for, and how they join the values of a list
of operands.
-/
namespace PolicyExpr

namespace EqualityOperator

/-- The operator on values. -/
def apply : EqualityOperator → Value → Value → Value
  | equal => Operator.equal
  | notEqual => Operator.notEqual
  | regex => Operator.regexMatch

end EqualityOperator

namespace ComparisonOperator

def apply : ComparisonOperator → Value → Value → Value
  | less => Operator.less
  | lessOrEqual => Operator.lessOrEqual
  | greater => Operator.greater
  | greaterOrEqual => Operator.greaterOrEqual
  | membership => Operator.contains

end ComparisonOperator

namespace AdditiveOperator

def apply : AdditiveOperator → Value → Value → Eval Value
  | plus, a, b => Operator.add a b
  | minus, a, b => .ok (Operator.subtract a b)

end AdditiveOperator

namespace MultiplicativeOperator

def apply : MultiplicativeOperator → Value → Value → Eval Value
  | times, a, b => .ok (Operator.multiply a b)
  | divide, a, b => .ok (Operator.divide a b)
  | modulo, a, b => .ok (Operator.modulo a b)

end MultiplicativeOperator

namespace UnaryOperator

def apply : UnaryOperator → Value → Value
  | not => Operator.not
  | negate => Operator.negate
  | plus => Operator.plus

end UnaryOperator

namespace Operator

/-- An operator on one operand. -/
def onOne (op : Value → Eval Value) : List Value → Eval Value
  | [v] => op v
  | _ => .ok Value.undefined

/-- An operator on two operands. -/
def onTwo (op : Value → Value → Eval Value) : List Value → Eval Value
  | [a, b] => op a b
  | _ => .ok Value.undefined

/-- Operands joined by operators from left to right. -/
def chainFrom (acc : Value) : List (Value → Value → Eval Value) → List Value → Eval Value
  | op :: ops, v :: vs => do chainFrom (← op acc v) ops vs
  | _, _ => .ok acc

/-- A chain of operands and operators. -/
def chain (ops : List (Value → Value → Eval Value)) : List Value → Eval Value
  | v :: vs => chainFrom v ops vs
  | [] => .ok Value.undefined

end Operator

end PolicyExpr
