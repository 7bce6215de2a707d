/-!
# Binary64

The finite numbers of the 64-bit binary floating-point format, as exact data: a sign, a
significand below `2^53` and the exponent of its unit, `2^(exponent - 1074)`. Every number
has one representation: the significand is at least `2^52` unless the unit is the least.

Arithmetic is exact arithmetic on natural numbers followed by one rounding to the nearest
representable number, a tie going to the even significand.
-/
namespace PolicyExpr

/-- A finite double: `± significand · 2^(exponent - 1074)`. -/
structure Binary64 where
  negative : Bool
  significand : Nat
  exponent : Nat
  significand_lt : significand < Nat.pow 2 53
  normal : Nat.pow 2 52 ≤ significand ∨ exponent = 0
  exponent_le : exponent ≤ 2045
  deriving DecidableEq

namespace Binary64

/-- The zero of a sign. -/
def zero (negative : Bool) : Binary64 :=
  ⟨negative, 0, 0, by decide, .inr rfl, by decide⟩

instance : Inhabited Binary64 := ⟨zero false⟩

def isZero (x : Binary64) : Bool := x.significand == 0

/-- The same magnitude with a given sign. -/
def withSign (x : Binary64) (negative : Bool) : Binary64 := { x with negative := negative }

/-- The number of these parts, where there is one. -/
def ofParts? (negative : Bool) (significand exponent : Nat) : Option Binary64 :=
  if h : significand < Nat.pow 2 53 ∧ (Nat.pow 2 52 ≤ significand ∨ exponent = 0) ∧
      exponent ≤ 2045 then
    some ⟨negative, significand, exponent, h.1, h.2.1, h.2.2⟩
  else none

/-- The quotient rounded to the nearest whole number, a tie to the even one. -/
def roundHalfEven (num den : Nat) : Nat :=
  let q := num / den
  let twice := 2 * (num % den)
  if twice < den then q
  else if den < twice then q + 1
  else if q % 2 = 0 then q else q + 1

/-- The number nearest `num / den`, a tie to the even significand. There is none from half a
unit above the largest finite number on. -/
def ofRatio? (negative : Bool) (num den : Nat) : Option Binary64 :=
  let scaled := num * Nat.pow 2 1074
  let exponent := (scaled / den).log2 - 52
  let significand := roundHalfEven scaled (den * Nat.pow 2 exponent)
  if significand = Nat.pow 2 53 then ofParts? negative (Nat.pow 2 52) (exponent + 1)
  else ofParts? negative significand exponent

/-- The magnitude as a multiple of the least unit, `2^-1074`. -/
def units (x : Binary64) : Nat := x.significand * Nat.pow 2 x.exponent

/-- The magnitude of a product, rounded. -/
def mul? (x y : Binary64) : Option Binary64 :=
  ofRatio? (x.negative != y.negative) (x.units * y.units) (Nat.pow 2 2148)

/-- The magnitude of a quotient, rounded; the divisor is not zero. -/
def div? (x y : Binary64) : Option Binary64 :=
  ofRatio? (x.negative != y.negative) x.units y.units

/-- The 64 bits of the interchange format: sign, eleven bits of exponent, fraction. -/
def bits (x : Binary64) : Nat :=
  (if x.negative then Nat.pow 2 63 else 0) +
    (if x.significand < Nat.pow 2 52 then x.significand
     else (x.exponent + 1) * Nat.pow 2 52 + (x.significand - Nat.pow 2 52))

/-- The bits that stand for a magnitude beyond every finite number. -/
def infinityBits (negative : Bool) : Nat :=
  (if negative then Nat.pow 2 63 else 0) + 2047 * Nat.pow 2 52

/-- The finite number of 64 bits of the interchange format; none for infinities and for what
is not a number. -/
def ofBits? (bits : Nat) : Option Binary64 :=
  let negative := bits / Nat.pow 2 63 % 2 == 1
  let biased := bits / Nat.pow 2 52 % Nat.pow 2 11
  let fraction := bits % Nat.pow 2 52
  if biased = 0 then ofParts? negative fraction 0
  else if biased = 2047 then none
  else ofParts? negative (fraction + Nat.pow 2 52) (biased - 1)

end Binary64

end PolicyExpr
