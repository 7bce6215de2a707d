import PolicyExpr.Decimal
import PolicyExpr.Text.Blank

/-!
# Decimal notation

A number is written in plain decimal notation: a sign only when it is negative, one zero
before the point when there is no whole part, no exponent and no trailing zeros.

It is read from an optional sign, digits with at most one point among them, and an
optional decimal exponent, with blanks around the whole. The number of digits behind the
point, less the exponent, may not leave the range of `maxScale` on either side.
-/
namespace PolicyExpr

/-- Why a text is not a number. Each names the text. -/
inductive NumberError where
  | exponent (text : String)
  | malformed (text : String)
  | range (text : String)
  deriving DecidableEq

namespace NumberError

def message : NumberError → String
  | exponent text => "invalid exponent in " ++ text
  | malformed text => "invalid number " ++ text
  | range text => "number " ++ text ++ " out of range"

end NumberError

namespace Decimal

/-! ## Writing -/

/-- The digits of the magnitude, with as many zeros in front as put one before the point. -/
def paddedDigits (a : Decimal) : List Char :=
  let magnitude := Nat.toDigits 10 a.digits.natAbs
  List.replicate (a.scale + 1 - magnitude.length) '0' ++ magnitude

/-- The digits before the point. -/
def wholeDigits (a : Decimal) : List Char :=
  a.paddedDigits.take (a.paddedDigits.length - a.scale)

/-- The digits behind the point. -/
def fractionDigits (a : Decimal) : List Char :=
  a.paddedDigits.drop (a.paddedDigits.length - a.scale)

/-- The characters of a number in plain decimal notation. -/
def chars (a : Decimal) : List Char :=
  (if a.isNegative then ['-'] else []) ++ a.wholeDigits ++
    (if a.scale = 0 then [] else '.' :: a.fractionDigits)

/-- A number in plain decimal notation. -/
def text (a : Decimal) : String := String.ofList a.chars

/-! ## Reading -/

/-- The value of a list of digits. -/
def digitsValue (cs : List Char) : Nat :=
  cs.foldl (fun n c => 10 * n + (c.toNat - 48)) 0

/-- Splits a sign off: whether it is a minus, and what follows. -/
def splitSign : List Char → Bool × List Char
  | '-' :: rest => (true, rest)
  | '+' :: rest => (false, rest)
  | cs => (false, cs)

/-- Splits at the first character of a class, which is dropped; nothing follows where the
text has none. -/
def splitFirst (p : Char → Bool) (cs : List Char) : List Char × Option (List Char) :=
  match cs.dropWhile (fun c => !p c) with
  | [] => (cs, none)
  | _ :: rest => (cs.takeWhile (fun c => !p c), some rest)

/-- An optionally signed whole number that fits 64 bits. -/
def readExponent? (cs : List Char) : Option Int :=
  let (negative, digits) := splitSign cs
  if digits.isEmpty || !digits.all Char.isDigit then none
  else
    let value : Int := if negative then -(digitsValue digits : Int) else digitsValue digits
    if minInt64 ≤ value ∧ value ≤ maxInt64 then some value else none

/-- The number `digits · 10^(exponent - places)`, where that is in range. -/
def shifted? (digits : Int) (places : Nat) (exponent : Int) : Option Decimal :=
  let scale : Int := places - exponent
  if 0 ≤ scale then
    if h : scale.toNat ≤ maxScale then some (ofDigits digits scale.toNat h) else none
  else if (-scale).toNat ≤ maxScale then some (ofInt (digits * Nat.pow 10 (-scale).toNat))
  else none

/-- Reads a number. -/
def ofText (s : String) : Except NumberError Decimal :=
  let (mantissa, exponentPart) :=
    splitFirst (fun c => c == 'e' || c == 'E') (Text.trimBlanks s.toList)
  match exponentPart.elim (some 0) readExponent? with
  | none => .error (.exponent s)
  | some exponent =>
    let (negative, unsigned) := splitSign mantissa
    let (whole, fractionPart) := splitFirst (· == '.') unsigned
    let fraction := fractionPart.getD []
    if (whole ++ fraction).isEmpty || !(whole ++ fraction).all Char.isDigit then
      .error (.malformed s)
    else
      let magnitude : Int := digitsValue (whole ++ fraction)
      match shifted? (if negative then -magnitude else magnitude) fraction.length exponent with
      | some n => .ok n
      | none => .error (.range s)

/-- Reads a whole number that fits 64 bits, in any notation of numbers. -/
def readInt64? (s : String) : Option Int :=
  match ofText s with
  | .ok n => n.toInt64?
  | .error _ => none

end Decimal

namespace ArithmeticError

def message : ArithmeticError → String
  | precision => "Number exceeds the supported precision of 10000 digits."
  | divisionByZero => "Division by zero."
  | notFinite a b =>
    "Division result " ++ a.text ++ " / " ++ b.text ++ " is not representable as a finite decimal."

end ArithmeticError

end PolicyExpr
