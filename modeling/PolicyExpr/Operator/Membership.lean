import PolicyExpr.Operator
import PolicyExpr.Value.Equality

/-!
# Equality and membership

`in` looks for an equal element of an array, an equal value of an object, or a stretch of a
text.
-/
namespace PolicyExpr.Operator

open Value

def equal (left right : Value) : Value := binary left right fun l r => boolean (same l r)

def notEqual (left right : Value) : Value := binary left right fun l r => boolean (!same l r)

/-- Whether a list of characters occurs in another without gaps. -/
def occursIn (needle : List Char) : List Char → Bool
  | [] => needle.isEmpty
  | c :: cs => needle.isPrefixOf (c :: cs) || occursIn needle cs

def contains (needle haystack : Value) : Value :=
  binary needle haystack fun n h =>
    match h.kind with
    | .array items => boolean (items.any fun v => same v n)
    | .object entries => boolean (entries.any fun e => same e.2 n)
    | .text s =>
      match n.asText? with
      | some t => boolean (occursIn t.toList s.toList)
      | none => boolean false
    | _ => failure (.containerOperand h.type)

end PolicyExpr.Operator
