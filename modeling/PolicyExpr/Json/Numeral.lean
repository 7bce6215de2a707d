import PolicyExpr.Json
import PolicyExpr.Binary64.Shortest

/-!
# Numbers of JSON documents

A numeral without point and exponent is read as the whole number it denotes if that fits
64 bits, as a signed or an unsigned word. Any other numeral is read as a double in two
steps: of its digits as many as fit an unsigned word make up a whole number, the digits
left over before the point only count as a shift, and those behind the point are ignored;
that number is rounded to a double and scaled by one power of ten, which is rounded too.
Where the power is out of the table of powers up to `10^308` the scaling is repeated. A
numeral whose double would be infinite has no value.

A double is written with its shortest digits: positionally when the exponent of the
leading digit lies between -5 and 15, with one digit before the point otherwise.
-/
namespace PolicyExpr.Json

/-- The parts of a numeral: sign, digits before and behind the point, sign and digits of the
exponent. -/
structure Numeral where
  negative : Bool
  whole : List Char
  fraction : Option (List Char)
  exponent : Option (Bool × List Char)

/-- The largest unsigned word. -/
def maxWord : Nat := UInt64.size - 1

/-- The largest exponent that is looked at; a larger one counts as out of range. -/
def maxExponent : Nat := 2147483647

/-- Appends digits to a number as long as the result is at most `limit`: the number, and the
digits from the first that does not fit. -/
def takeDigits (limit : Nat) : Nat → List Char → Nat × List Char
  | n, [] => (n, [])
  | n, c :: rest =>
    let next := 10 * n + (c.toNat - 48)
    if next ≤ limit then takeDigits limit next rest else (n, c :: rest)

/-- A power of ten as a double. -/
def powerOfTen? (exponent : Nat) : Option Binary64 :=
  Binary64.ofRatio? false (Nat.pow 10 exponent) 1

/-- Multiplies or divides by a power of ten of the table; below the table it divides by the
largest power again and again, at most `rounds` times. -/
def scaleByTen (x : Binary64) (exponent : Int) : Nat → Option Binary64
  | 0 => some x
  | rounds + 1 =>
    if exponent.natAbs ≤ 308 then
      (powerOfTen? exponent.natAbs).bind fun power =>
        if 0 ≤ exponent then x.mul? power else x.div? power
    else if x.isZero then some x
    else if 0 ≤ exponent then none
    else
      ((powerOfTen? 308).bind x.div?).bind fun scaled =>
        scaleByTen scaled (exponent + 308) rounds

/-- The double of a whole number and a decimal shift. -/
def shiftedFloat? (negative : Bool) (significand : Nat) (exponent : Int) : Option Binary64 :=
  ((Binary64.ofRatio? false significand 1).bind fun x =>
    scaleByTen x exponent (exponent.natAbs / 308 + 1)).map fun x => x.withSign negative

/-- The double of a numeral with the given shift of its kept digits. -/
def exponentFloat? (negative : Bool) (significand : Nat) (shift : Int) :
    Option (Bool × List Char) → Option Binary64
  | none => shiftedFloat? negative significand shift
  | some (down, digits) =>
    match takeDigits maxExponent 0 digits with
    | (exponent, []) =>
      shiftedFloat? negative significand (if down then shift - exponent else shift + exponent)
    | (_, _ :: _) =>
      if significand ≠ 0 && !down then none else some (Binary64.zero negative)

/-- The number a numeral stands for, where it is in range. -/
def Numeral.value? (n : Numeral) : Option Number :=
  let (kept, excess) := takeDigits maxWord 0 n.whole
  match n.fraction with
  | some fraction =>
    let (kept, ignored) := takeDigits maxWord kept fraction
    let shift : Int := excess.length - (fraction.length - ignored.length : Nat)
    (exponentFloat? n.negative kept shift n.exponent).map .float
  | none =>
    if n.exponent.isSome || !excess.isEmpty then
      (exponentFloat? n.negative kept excess.length n.exponent).map .float
    else if !n.negative then some (.int kept)
    else if kept = 0 || 9223372036854775808 < kept then (shiftedFloat? true kept 0).map .float
    else some (.int (-(kept : Int)))

/-- The text of a double, up to its sign. -/
def magnitudeText (x : Binary64) : List Char :=
  if x.isZero then ['0', '.', '0']
  else
    let (value, grid) := x.shortest .even
    let digits := Nat.toDigits 10 value
    let lead : Int := grid + digits.length - 1
    if -5 ≤ lead ∧ lead ≤ 15 then
      if 0 ≤ grid then digits ++ List.replicate grid.toNat '0' ++ ['.', '0']
      else if 0 ≤ lead then
        digits.take (lead.toNat + 1) ++ '.' :: digits.drop (lead.toNat + 1)
      else ['0', '.'] ++ List.replicate (-lead - 1).toNat '0' ++ digits
    else
      digits.take 1 ++ (if digits.length ≤ 1 then [] else '.' :: digits.drop 1) ++
        ['e', if lead < 0 then '-' else '+'] ++ Nat.toDigits 10 lead.natAbs

/-- The text of a number. -/
def Number.chars : Number → List Char
  | .int n => (if n < 0 then ['-'] else []) ++ Nat.toDigits 10 n.natAbs
  | .float x => (if x.negative then ['-'] else []) ++ magnitudeText x

end PolicyExpr.Json

namespace PolicyExpr.Decimal

/-- The numeral of a number in plain decimal notation. -/
def numeral (a : Decimal) : Json.Numeral where
  negative := a.isNegative
  whole := a.wholeDigits
  fraction := if a.scale = 0 then none else some a.fractionDigits
  exponent := none

/-- The number under which a decimal is written to a document: its notation is read as a
numeral, so a number beyond the doubles has none. -/
def toJson? (a : Decimal) : Option Json.Number := a.numeral.value?

end PolicyExpr.Decimal

namespace PolicyExpr.Json

/-- The exact value of a number of a document; of a double, its shortest digits. -/
def Number.toDecimal : Number → Decimal
  | .int n => Decimal.ofInt n
  | .float x => x.toDecimal

end PolicyExpr.Json
