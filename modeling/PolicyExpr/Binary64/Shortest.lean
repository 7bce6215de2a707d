import PolicyExpr.Binary64
import PolicyExpr.Decimal.Notation

/-!
# Shortest decimal digits of a double

A double is written with the fewest decimal digits that read back as the same double; of
two such numbers with equally many digits the nearer one is taken. The reals that read
back form an interval around the double, whose ends belong to it when the significand is
even.
-/
namespace PolicyExpr.Binary64

/-- Which of two equally near decimals is taken. -/
inductive Tie where
  | up
  | even
  deriving DecidableEq

/-- The interval of the reals that round to a number, over one denominator. -/
structure Span where
  low : Nat
  middle : Nat
  high : Nat
  den : Nat
  closed : Bool

/-- How far the interval reaches down, in quarters of a unit: half a unit, or a quarter where
the unit below is half as large. -/
def quartersBelow (x : Binary64) : Nat :=
  if x.significand = Nat.pow 2 52 ∧ 0 < x.exponent then 1 else 2

/-- The interval, which reaches half a unit up. -/
def span (x : Binary64) : Span where
  low := 4 * x.units - x.quartersBelow * Nat.pow 2 x.exponent
  middle := 4 * x.units
  high := 4 * x.units + 2 * Nat.pow 2 x.exponent
  den := 4 * Nat.pow 2 1074
  closed := x.significand % 2 = 0

/-- The exponent of the leading decimal digit of a positive quotient. -/
def leadingExponent (num den : Nat) : Int :=
  if den ≤ num then ((Nat.toDigits 10 (num / den)).length : Int) - 1
  else
    let places := (Nat.toDigits 10 (den / num)).length
    if den ≤ num * Nat.pow 10 (places - 1) then 1 - (places : Int) else -(places : Int)

/-- The multiple of `10^grid` that reads back and is nearest, where one reads back. Only the
two neighbours of the middle can be nearest. -/
def gridHit? (s : Span) (tie : Tie) (grid : Int) : Option Nat :=
  let up := Nat.pow 10 grid.toNat * s.den
  let down := Nat.pow 10 (-grid).toNat
  let below := s.middle * down / up
  let fits (c : Nat) : Bool :=
    let point := c * up
    if s.closed then s.low * down ≤ point && point ≤ s.high * down
    else s.low * down < point && point < s.high * down
  let toBelow := s.middle * down - below * up
  let toAbove := (below + 1) * up - s.middle * down
  match fits below, fits (below + 1) with
  | true, true =>
    if toBelow < toAbove then some below
    else if toAbove < toBelow then some (below + 1)
    else match tie with
      | .up => some (below + 1)
      | .even => some (if below % 2 = 0 then below else below + 1)
  | true, false => some below
  | false, true => some (below + 1)
  | false, false => none

/-- The shortest digits of a nonzero magnitude, as `digits · 10^grid` with a last digit that is
not zero. Seventeen digits always suffice. -/
def shortest (x : Binary64) (tie : Tie) : Nat × Int :=
  let s := x.span
  let lead := leadingExponent s.middle s.den
  match (List.range 17).findSome? fun (n : Nat) =>
      (gridHit? s tie (lead - n)).map fun digits => (digits, lead - n) with
  | some (digits, grid) =>
    let (zeros, kept) := Decimal.removeFactor 10 17 digits
    (kept, grid + zeros)
  | none => (0, 0)

/-- The exact decimal number of the shortest digits. -/
def toDecimal (x : Binary64) : Decimal :=
  if x.isZero then Decimal.zero
  else
    let (digits, grid) := x.shortest .up
    (Decimal.shifted? (if x.negative then -(digits : Int) else digits) 0 grid).getD Decimal.zero

end PolicyExpr.Binary64

namespace PolicyExpr.Decimal

/-- The double nearest the number; none beyond the largest finite double. -/
def toBinary64? (a : Decimal) : Option Binary64 :=
  Binary64.ofRatio? a.isNegative a.digits.natAbs (Nat.pow 10 a.scale)

end PolicyExpr.Decimal
