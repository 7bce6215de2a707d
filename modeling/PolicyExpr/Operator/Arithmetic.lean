import PolicyExpr.Operator

/-!
# Arithmetic and comparison

Arithmetic is exact. A sum with a text on its left is a concatenation with the text of
whatever stands on its right.
-/
namespace PolicyExpr.Operator

open Value

/-- A numeric operator: both operands have to be numbers, the left one is looked at first. -/
def numeric (left right : Value) (op : Decimal → Decimal → Except ArithmeticError Decimal) :
    Value :=
  binary left right fun l r =>
    match l.asNumber?, r.asNumber? with
    | some a, some b =>
      match op a b with
      | .ok n => number n
      | .error cause => failure (.arithmetic cause)
    | none, _ => failure (.arithmeticOperand l.type)
    | some _, none => failure (.arithmeticOperand r.type)

def add (left right : Value) : Eval Value :=
  match left.asText? with
  | some front =>
    match firstError? [left, right] with
    | some e => .ok e
    | none => do
      let back ← right.plainText
      return (text (front ++ back)).withMetadata (mergedMetadata [left, right])
  | none => .ok (numeric left right fun a b => .ok (a.add b))

def subtract (left right : Value) : Value := numeric left right fun a b => .ok (a.sub b)

def multiply (left right : Value) : Value := numeric left right Decimal.mul

def divide (left right : Value) : Value := numeric left right Decimal.divide

def modulo (left right : Value) : Value := numeric left right Decimal.modulo

/-- A comparison accepts some of the three orders. -/
def comparison (left right : Value) (accepts : Ordering → Bool) : Value :=
  binary left right fun l r =>
    match l.asNumber?, r.asNumber? with
    | some a, some b => boolean (accepts (a.compare b))
    | none, _ => failure (.comparisonOperand l.type)
    | some _, none => failure (.comparisonOperand r.type)

def less (left right : Value) : Value := comparison left right Ordering.isLT

def lessOrEqual (left right : Value) : Value := comparison left right Ordering.isLE

def greater (left right : Value) : Value := comparison left right Ordering.isGT

def greaterOrEqual (left right : Value) : Value := comparison left right Ordering.isGE

def negate (v : Value) : Value :=
  if v.isError then v
  else match v.asNumber? with
    | some n => (number n.neg).withMetadata v.metadata
    | none => (failure (.negateOperand v.type)).withMetadata v.metadata

def plus (v : Value) : Value :=
  if v.isError || v.asNumber?.isSome then v
  else (failure (.plusOperand v.type)).withMetadata v.metadata

end PolicyExpr.Operator
