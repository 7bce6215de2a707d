/-!
# Exact decimal numbers

A number is `digits · 10^-scale`. No number keeps a trailing zero behind the point, so
two equal numbers are one value of the type, and the scale is bounded. Sum, difference,
negation and remainder are exact and always defined; product and quotient are exact or
report why there is none.
-/
namespace PolicyExpr

/-- The largest number of digits behind the point, and the largest decimal shift. -/
def maxScale : Nat := 10000

/-- An exact decimal number without trailing zeros behind the point. -/
structure Decimal where
  digits : Int
  scale : Nat
  scale_le : scale ≤ maxScale
  trimmed : scale = 0 ∨ digits % 10 ≠ 0
  deriving DecidableEq

/-- Why a product or a quotient has no value. -/
inductive ArithmeticError where
  | precision
  | divisionByZero
  | notFinite (dividend divisor : Decimal)
  deriving DecidableEq

namespace Decimal

/-- Drops zeros from the end of the digits while any stand behind the point. -/
def trim (digits : Int) : Nat → Int × Nat
  | 0 => (digits, 0)
  | scale + 1 => if digits % 10 = 0 then trim (digits / 10) scale else (digits, scale + 1)

theorem trim_scale_le (digits : Int) (scale : Nat) : (trim digits scale).2 ≤ scale := by
  induction scale generalizing digits with
  | zero => simp [trim]
  | succ n ih =>
    unfold trim
    split
    · exact Nat.le_succ_of_le (ih _)
    · simp

theorem trim_trimmed (digits : Int) (scale : Nat) :
    (trim digits scale).2 = 0 ∨ (trim digits scale).1 % 10 ≠ 0 := by
  induction scale generalizing digits with
  | zero => simp [trim]
  | succ n ih =>
    unfold trim
    split
    · exact ih _
    · next h => exact .inr h

/-- The number `digits · 10^-scale`. -/
def ofDigits (digits : Int) (scale : Nat) (h : scale ≤ maxScale) : Decimal where
  digits := (trim digits scale).1
  scale := (trim digits scale).2
  scale_le := Nat.le_trans (trim_scale_le digits scale) h
  trimmed := trim_trimmed digits scale

/-- A whole number. -/
def ofInt (n : Int) : Decimal where
  digits := n
  scale := 0
  scale_le := Nat.zero_le _
  trimmed := .inl rfl

/-- A natural number. -/
def ofNat (n : Nat) : Decimal := ofInt n

/-- The number zero. -/
def zero : Decimal := ofInt 0

instance : Inhabited Decimal := ⟨zero⟩

def isZero (a : Decimal) : Bool := a.digits == 0

def isInteger (a : Decimal) : Bool := a.scale == 0

def isNegative (a : Decimal) : Bool := a.digits < 0

/-- The digits of `a` when it is written with `scale` digits behind the point. -/
def digitsAt (a : Decimal) (scale : Nat) : Int := a.digits * Nat.pow 10 (scale - a.scale)

/-- The larger of two scales, at which both numbers are written exactly. -/
def commonScale (a b : Decimal) : Nat := max a.scale b.scale

theorem commonScale_le (a b : Decimal) : commonScale a b ≤ maxScale :=
  Nat.max_le.2 ⟨a.scale_le, b.scale_le⟩

def add (a b : Decimal) : Decimal :=
  ofDigits (a.digitsAt (commonScale a b) + b.digitsAt (commonScale a b)) (commonScale a b)
    (commonScale_le a b)

def sub (a b : Decimal) : Decimal :=
  ofDigits (a.digitsAt (commonScale a b) - b.digitsAt (commonScale a b)) (commonScale a b)
    (commonScale_le a b)

def neg (a : Decimal) : Decimal :=
  ofDigits (-a.digits) a.scale a.scale_le

/-- The product. Its scale is the sum of the scales, before zeros are dropped. -/
def mul (a b : Decimal) : Except ArithmeticError Decimal :=
  if h : a.scale + b.scale ≤ maxScale then
    .ok (ofDigits (a.digits * b.digits) (a.scale + b.scale) h)
  else .error .precision

/-- Takes the factor `p` out of `n` as often as `fuel` allows: how often, and what is left. -/
def removeFactor (p : Nat) : Nat → Nat → Nat × Nat
  | 0, n => (0, n)
  | fuel + 1, n =>
    if n % p = 0 then
      let (count, rest) := removeFactor p fuel (n / p)
      (count + 1, rest)
    else (0, n)

/-- How often the prime `p` divides `n`, and the cofactor. Since `n < 2^(log2 n + 1)`, no
prime divides a positive `n` more than `log2 n` times. -/
def factorOut (p n : Nat) : Nat × Nat := removeFactor p (n.log2 + 1) n

/-- The quotient. A reduced fraction has a finite decimal expansion exactly when its
denominator has no prime factors but two and five, and then the larger of their two
exponents is the number of digits it needs. -/
def divide (a b : Decimal) : Except ArithmeticError Decimal :=
  if b.digits = 0 then .error .divisionByZero
  else
    let common := Nat.gcd a.digits.natAbs b.digits.natAbs
    let numerator : Int := a.digits / common * b.digits.sign
    let denominator : Nat := b.digits.natAbs / common
    let (twos, odd) := factorOut 2 denominator
    let (fives, rest) := factorOut 5 odd
    if rest ≠ 1 then .error (.notFinite a b)
    else
      let extra := max twos fives
      let digits : Int := numerator * Nat.pow 10 extra / denominator
      if b.scale ≤ extra + a.scale then
        if h : extra + a.scale - b.scale ≤ maxScale then
          .ok (ofDigits digits (extra + a.scale - b.scale) h)
        else .error .precision
      else .ok (ofInt (digits * Nat.pow 10 (b.scale - (extra + a.scale))))

/-- The remainder between zero and the divisor's magnitude. -/
def modulo (a b : Decimal) : Except ArithmeticError Decimal :=
  if b.digits = 0 then .error .divisionByZero
  else
    .ok (ofDigits (a.digitsAt (commonScale a b) % b.digitsAt (commonScale a b))
      (commonScale a b) (commonScale_le a b))

/-- The order of the numbers. -/
def compare (a b : Decimal) : Ordering :=
  Ord.compare (a.digitsAt (commonScale a b)) (b.digitsAt (commonScale a b))

/-- The least signed word of 64 bits. -/
def minInt64 : Int := -9223372036854775808

/-- The largest signed word of 64 bits. -/
def maxInt64 : Int := 9223372036854775807

/-- The value as a 64-bit signed integer, where it is one. -/
def toInt64? (a : Decimal) : Option Int :=
  if a.scale = 0 ∧ minInt64 ≤ a.digits ∧ a.digits ≤ maxInt64 then some a.digits else none

end Decimal

end PolicyExpr
