import Mathlib.Algebra.Order.Field.Power
import Mathlib.Tactic.Positivity
import PolicyExpr.Binary64.Shortest
import PolicyExpr.Proofs.Precision

/-!
# Shortest digits

The digits of a double that are searched for exist, read back as the double and have no zero at
their end. They are found on the first of the grids, from the leading digit of the double down, that
has a multiple in the interval of the double. The intervals of different doubles have no number in
common. Where two multiples of a grid cannot both be in an interval, a decimal in it that the search
passes is what it finds.
-/
namespace PolicyExpr.Binary64

/-! ## Leading digits -/

/-- A number lies between the powers of ten of its number of digits. -/
theorem pow_length_toDigits {n : Nat} (hn : 0 < n) :
    10 ^ ((Nat.toDigits 10 n).length - 1) ≤ n ∧ n < 10 ^ (Nat.toDigits 10 n).length := by
  have hlength : 0 < (Nat.toDigits 10 n).length := Nat.length_toDigits_pos
  refine ⟨?_, (Nat.length_toDigits_le_iff (by omega) hlength).1 le_rfl⟩
  by_cases hone : (Nat.toDigits 10 n).length = 1
  · rw [hone]
    exact hn
  · by_contra hlt
    have hfewer := (Nat.length_toDigits_le_iff (by omega) (by omega)).2 (not_le.1 hlt)
    omega

section

variable {num den : Nat} (k : Nat)

theorem pow_le_div_iff (hden : 0 < den) :
    (10 : ℚ) ^ (k : Int) ≤ num / den ↔ 10 ^ k * den ≤ num := by
  rw [zpow_natCast, le_div_iff₀ (by exact_mod_cast hden)]
  exact_mod_cast Iff.rfl

theorem div_lt_pow_iff (hden : 0 < den) :
    (num : ℚ) / den < 10 ^ (k : Int) ↔ num < 10 ^ k * den := by
  rw [zpow_natCast, div_lt_iff₀ (by exact_mod_cast hden)]
  exact_mod_cast Iff.rfl

theorem inv_pow_le_div_iff (hden : 0 < den) :
    (10 : ℚ) ^ (-(k : Int)) ≤ num / den ↔ den ≤ num * 10 ^ k := by
  rw [zpow_neg, zpow_natCast, le_div_iff₀ (by exact_mod_cast hden), inv_mul_le_iff₀ (by positivity),
    mul_comm]
  exact_mod_cast Iff.rfl

theorem div_lt_inv_pow_iff (hden : 0 < den) :
    (num : ℚ) / den < 10 ^ (-(k : Int)) ↔ num * 10 ^ k < den := by
  rw [zpow_neg, zpow_natCast, div_lt_iff₀ (by exact_mod_cast hden), lt_inv_mul_iff₀ (by positivity),
    mul_comm]
  exact_mod_cast Iff.rfl

end

theorem leadingExponent_spec {num den : Nat} (hnum : 0 < num) (hden : 0 < den) :
    (10 : ℚ) ^ leadingExponent num den ≤ num / den ∧
      (num : ℚ) / den < 10 ^ (leadingExponent num den + 1) := by
  unfold leadingExponent
  by_cases hle : den ≤ num
  · obtain ⟨hlower, hupper⟩ := pow_length_toDigits (Nat.div_pos hle hden)
    have hlength : 0 < (Nat.toDigits 10 (num / den)).length := Nat.length_toDigits_pos
    generalize (Nat.toDigits 10 (num / den)).length = length at *
    have hlead : (length : Int) - 1 = (length - 1 : Nat) := by omega
    rw [if_pos hle, sub_add_cancel, hlead, pow_le_div_iff _ hden, div_lt_pow_iff _ hden]
    exact ⟨(Nat.le_div_iff_mul_le hden).1 hlower, (Nat.div_lt_iff_lt_mul hden).1 hupper⟩
  · obtain ⟨hlower, hupper⟩ := pow_length_toDigits (Nat.div_pos (Nat.le_of_not_le hle) hnum)
    have hlength : 0 < (Nat.toDigits 10 (den / num)).length := Nat.length_toDigits_pos
    generalize (Nat.toDigits 10 (den / num)).length = length at *
    rw [Nat.le_div_iff_mul_le hnum, mul_comm] at hlower
    rw [Nat.div_lt_iff_lt_mul hnum, mul_comm] at hupper
    have hnext : -(length : Int) + 1 = -((length - 1 : Nat) : Int) := by omega
    rw [if_neg hle]
    dsimp only
    change _ ^ (if den ≤ num * 10 ^ (length - 1) then _ else _) ≤ _ ∧
      _ < _ ^ ((if den ≤ num * 10 ^ (length - 1) then _ else _) + 1)
    split
    · next hwhole =>
      have hlead : (1 : Int) - length = -((length - 1 : Nat) : Int) := by omega
      have heq : (num : ℚ) / den = 10 ^ (-((length - 1 : Nat) : Int)) := by
        rw [zpow_neg, zpow_natCast, eq_comm, inv_eq_one_div, div_eq_div_iff (by positivity)
          (by positivity), one_mul]
        exact_mod_cast le_antisymm hwhole hlower
      rw [hlead, heq]
      exact ⟨le_rfl, zpow_lt_zpow_right₀ (by norm_num) (by omega)⟩
    · next hbroken =>
      rw [hnext, inv_pow_le_div_iff _ hden, div_lt_inv_pow_iff _ hden]
      exact ⟨hupper.le, Nat.lt_of_not_le hbroken⟩

/-! ## The interval of a double -/

/-- The number is in the interval. -/
def Span.Holds (s : Span) (q : ℚ) : Prop :=
  if s.closed then s.low ≤ q * s.den ∧ q * s.den ≤ s.high
  else s.low < q * s.den ∧ q * s.den < s.high

theorem Span.Holds.convex {s : Span} {p q r : ℚ} (hp : s.Holds p) (hr : s.Holds r) (hpq : p ≤ q)
    (hqr : q ≤ r) : s.Holds q := by
  have hlower : p * s.den ≤ q * s.den := mul_le_mul_of_nonneg_right hpq (by positivity)
  have hupper : q * s.den ≤ r * s.den := mul_le_mul_of_nonneg_right hqr (by positivity)
  unfold Span.Holds at *
  split at hp
  · next hclosed =>
    rw [if_pos hclosed] at hr ⊢
    exact ⟨hp.1.trans hlower, hupper.trans hr.2⟩
  · next hopen =>
    rw [if_neg hopen] at hr ⊢
    exact ⟨hp.1.trans_le hlower, hupper.trans_lt hr.2⟩

/-- How many of the least units make one. -/
@[irreducible]
def unitsPerOne : Nat := Nat.pow 2 1074

theorem unitsPerOne_eq : Nat.pow 2 1074 = unitsPerOne := by
  unfold unitsPerOne
  rfl

theorem pow_two_pos (n : Nat) : 0 < Nat.pow 2 n := Nat.two_pow_pos n

theorem unitsPerOne_pos : 0 < unitsPerOne := by
  unfold unitsPerOne
  generalize 1074 = n
  exact pow_two_pos n

/-- The magnitude of a double. -/
def magnitude (x : Binary64) : ℚ := x.units / unitsPerOne

/-- The unit of the last place of a double. -/
def unit (x : Binary64) : ℚ := (Nat.pow 2 x.exponent : Nat) / unitsPerOne

variable {x : Binary64} {q : ℚ}

theorem magnitude_eq (x : Binary64) : x.magnitude = x.significand * x.unit := by
  rw [magnitude, unit, units, mul_div_assoc', Nat.cast_mul]

theorem unit_pos (x : Binary64) : 0 < x.unit :=
  div_pos (Nat.cast_pos.2 (pow_two_pos _)) (Nat.cast_pos.2 unitsPerOne_pos)

theorem quartersBelow_le (x : Binary64) : x.quartersBelow ≤ 2 := by
  unfold quartersBelow
  split <;> omega

theorem span_low (hx : x.significand ≠ 0) :
    (x.span.low : ℚ) = (x.magnitude - x.quartersBelow * x.unit / 4) * x.span.den := by
  have hle : x.quartersBelow * Nat.pow 2 x.exponent ≤ 4 * x.units := by
    have hquarters : x.quartersBelow ≤ 4 * x.significand := x.quartersBelow_le.trans (by omega)
    calc x.quartersBelow * Nat.pow 2 x.exponent ≤ 4 * x.significand * Nat.pow 2 x.exponent :=
          Nat.mul_le_mul_right _ hquarters
      _ = 4 * x.units := Nat.mul_assoc ..
  have hone : (unitsPerOne : ℚ) ≠ 0 := Nat.cast_ne_zero.2 unitsPerOne_pos.ne'
  simp only [span, magnitude, unit, unitsPerOne_eq]
  rw [Nat.cast_sub hle]
  push_cast
  field_simp

theorem span_high (x : Binary64) :
    (x.span.high : ℚ) = (x.magnitude + x.unit / 2) * x.span.den := by
  have hone : (unitsPerOne : ℚ) ≠ 0 := Nat.cast_ne_zero.2 unitsPerOne_pos.ne'
  simp only [span, magnitude, unit, unitsPerOne_eq]
  push_cast
  field_simp
  ring

theorem span_den_pos (x : Binary64) : 0 < x.span.den := by
  simp only [span, unitsPerOne_eq]
  exact Nat.mul_pos (by omega) unitsPerOne_pos

theorem span_middle (x : Binary64) : (x.span.middle : ℚ) / x.span.den = x.magnitude := by
  simp only [span, magnitude, unitsPerOne_eq]
  rw [Nat.cast_mul, Nat.cast_mul, mul_div_mul_left _ _ (by norm_num)]

/-- The interval reaches half a unit up, and half a unit or a quarter down. -/
theorem holds_iff (hx : x.significand ≠ 0) : x.span.Holds q ↔
    if x.significand % 2 = 0 then
      x.magnitude - x.quartersBelow * x.unit / 4 ≤ q ∧ q ≤ x.magnitude + x.unit / 2
    else x.magnitude - x.quartersBelow * x.unit / 4 < q ∧ q < x.magnitude + x.unit / 2 := by
  have hden : (0 : ℚ) < x.span.den := Nat.cast_pos.2 x.span_den_pos
  have hclosed : x.span.closed = decide (x.significand % 2 = 0) := rfl
  rw [Span.Holds, span_low hx, span_high, hclosed]
  simp only [mul_le_mul_iff_of_pos_right hden, mul_lt_mul_iff_of_pos_right hden,
    decide_eq_true_eq]

theorem quarters_mul_unit_le (x : Binary64) : (x.quartersBelow : ℚ) * x.unit ≤ 2 * x.unit := by
  have hle : (x.quartersBelow : ℚ) ≤ 2 := by exact_mod_cast x.quartersBelow_le
  exact mul_le_mul_of_nonneg_right hle x.unit_pos.le

theorem near_of_holds (hx : x.significand ≠ 0) (hq : x.span.Holds q) :
    x.magnitude - x.unit / 2 ≤ q ∧ q ≤ x.magnitude + x.unit / 2 := by
  have hunit := x.unit_pos
  have hquarters := x.quarters_mul_unit_le
  rw [holds_iff hx] at hq
  split at hq <;> constructor <;> linarith

theorem holds_magnitude (hx : x.significand ≠ 0) : x.span.Holds x.magnitude := by
  have hunit := x.unit_pos
  have hquarters : 0 < x.quartersBelow := by
    unfold quartersBelow
    split <;> omega
  have hbelow : 0 < (x.quartersBelow : ℚ) * x.unit := by positivity
  rw [holds_iff hx]
  split <;> constructor <;> linarith

/-- Less than half a unit away a number is in the interval, on the far side of a change of units
only above. -/
theorem holds_of_near (hx : x.significand ≠ 0) (hbelow : x.magnitude - x.unit / 2 < q)
    (hsame : x.quartersBelow = 1 → x.magnitude ≤ q) (habove : q < x.magnitude + x.unit / 2) :
    x.span.Holds q := by
  have hunit := x.unit_pos
  have hlower : x.magnitude - x.quartersBelow * x.unit / 4 < q := by
    by_cases hone : x.quartersBelow = 1
    · have := hsame hone
      rw [hone, Nat.cast_one, one_mul]
      linarith
    · have htwo : x.quartersBelow = 2 := by
        unfold quartersBelow at hone ⊢
        split at hone <;> simp_all
      rw [htwo, Nat.cast_ofNat]
      linarith
  rw [holds_iff hx]
  split
  · exact ⟨hlower.le, habove.le⟩
  · exact ⟨hlower, habove⟩

/-! ## Intervals of different doubles -/

section

variable {y : Binary64}

theorem unit_of_exponent_lt (h : x.exponent < y.exponent) : 2 * x.unit ≤ y.unit := by
  have hpower : 2 * Nat.pow 2 x.exponent ≤ Nat.pow 2 y.exponent :=
    Nat.pow_succ'.symm.trans_le (Nat.pow_le_pow_right (by omega) h)
  have hone : (0 : ℚ) < unitsPerOne := Nat.cast_pos.2 unitsPerOne_pos
  rw [unit, unit, mul_div_assoc', div_le_div_iff_of_pos_right hone]
  exact_mod_cast hpower

/-- With a larger unit the significand is not small, so the double is larger. -/
theorem magnitude_of_exponent_lt (h : x.exponent < y.exponent) : x.magnitude < y.magnitude := by
  have hunit := unit_of_exponent_lt h
  have hpos := x.unit_pos
  have hx : (x.significand : ℚ) < 2 ^ 53 := by exact_mod_cast x.significand_lt
  have hy : (2 : ℚ) ^ 52 ≤ y.significand := by
    exact_mod_cast y.normal.resolve_right (by omega)
  rw [magnitude_eq, magnitude_eq]
  nlinarith

/-- Doubles of one sign and one magnitude are equal. -/
theorem eq_of_magnitude (hsign : x.negative = y.negative) (h : x.magnitude = y.magnitude) :
    x = y := by
  have hexponent : x.exponent = y.exponent := by
    rcases lt_trichotomy x.exponent y.exponent with hlt | heq | hlt
    · exact absurd h (magnitude_of_exponent_lt hlt).ne
    · exact heq
    · exact absurd h (magnitude_of_exponent_lt hlt).ne'
  have hunit : x.unit = y.unit := by rw [unit, unit, hexponent]
  have hsignificand : x.significand = y.significand := by
    rw [magnitude_eq, magnitude_eq, hunit] at h
    exact_mod_cast mul_right_cancel₀ y.unit_pos.ne' h
  obtain ⟨negative, significand, exponent, _⟩ := x
  cases hsign
  cases hexponent
  cases hsignificand
  rfl

/-- Above a change of units the interval starts half a smaller unit below the power of two. -/
theorem le_low_of_exponent_lt (h : x.exponent < y.exponent) :
    (2 ^ 53 - 1 / 2) * x.unit ≤ y.magnitude - y.quartersBelow * y.unit / 4 := by
  have hunit := unit_of_exponent_lt h
  have hpos := y.unit_pos
  have hnormal := y.normal.resolve_right (by omega)
  rw [magnitude_eq]
  by_cases hleast : y.significand = Nat.pow 2 52
  · have hone : y.quartersBelow = 1 := if_pos ⟨hleast, by omega⟩
    have hpower : (y.significand : ℚ) = 2 ^ 52 := by exact_mod_cast hleast
    rw [hone, hpower]
    push_cast
    linarith
  · have hquarters := y.quarters_mul_unit_le
    have hmore : (2 ^ 52 + 1 : ℚ) * y.unit ≤ y.significand * y.unit :=
      mul_le_mul_of_nonneg_right (by exact_mod_cast lt_of_le_of_ne hnormal (Ne.symm hleast)) hpos.le
    linarith

/-- The interval of a double ends where that of a larger one starts, at the latest. If it ends
there, not both significands are even. -/
theorem high_le_low (h : x.magnitude < y.magnitude) :
    x.magnitude + x.unit / 2 ≤ y.magnitude - y.quartersBelow * y.unit / 4 ∧
      (x.significand % 2 = 0 → y.significand % 2 = 0 →
        x.magnitude + x.unit / 2 < y.magnitude - y.quartersBelow * y.unit / 4) := by
  have hpos := x.unit_pos
  -- by how much the significand has to grow is all that parity changes
  have hgrow (k : Nat) {bound : Nat} (hk : x.significand + k ≤ bound) :
      (x.significand + k : ℚ) * x.unit ≤ bound * x.unit :=
    mul_le_mul_of_nonneg_right (by exact_mod_cast hk) hpos.le
  rcases lt_trichotomy x.exponent y.exponent with hlt | heq | hlt
  · have hlow := le_low_of_exponent_lt hlt
    have hmost : x.significand < 2 ^ 53 := x.significand_lt
    rw [x.magnitude_eq]
    constructor
    · have hstep := hgrow 1 hmost
      push_cast at hstep
      linarith
    · intro heven _
      have hstep := hgrow 2 (by omega : x.significand + 2 ≤ 2 ^ 53)
      push_cast at hstep
      linarith
  · have hunit : y.unit = x.unit := by rw [unit, unit, heq]
    have hquarters := y.quarters_mul_unit_le
    rw [magnitude_eq, magnitude_eq, hunit] at h
    have hless : x.significand < y.significand := by
      exact_mod_cast lt_of_mul_lt_mul_right h hpos.le
    rw [hunit] at hquarters
    rw [x.magnitude_eq, y.magnitude_eq, hunit]
    constructor
    · have hstep := hgrow 1 hless
      push_cast at hstep
      linarith
    · intro hxeven hyeven
      have hstep := hgrow 2 (by omega : x.significand + 2 ≤ y.significand)
      push_cast at hstep
      linarith
  · exact absurd (magnitude_of_exponent_lt hlt) h.not_gt

/-- No number is in the intervals of two doubles. -/
theorem not_holds_of_magnitude_lt (hx : x.significand ≠ 0) (hy : y.significand ≠ 0)
    (hlt : x.magnitude < y.magnitude) (hxq : x.span.Holds q) : ¬ y.span.Holds q := by
  intro hyq
  obtain ⟨hle, hlt⟩ := high_le_low hlt
  rw [holds_iff hx] at hxq
  rw [holds_iff hy] at hyq
  split at hxq <;> split at hyq
  · next hxeven hyeven => exact absurd (hyq.1.trans hxq.2) (hlt hxeven hyeven).not_ge
  · exact absurd (hyq.1.trans_le hxq.2) hle.not_gt
  · exact absurd (hyq.1.trans_lt hxq.2) hle.not_gt
  · exact absurd (hyq.1.trans hxq.2) hle.not_gt

/-- A number is in the interval of one double of a sign only. -/
theorem eq_of_holds_both (hx : x.significand ≠ 0) (hy : y.significand ≠ 0)
    (hsign : x.negative = y.negative) (hxq : x.span.Holds q) (hyq : y.span.Holds q) : x = y := by
  rcases lt_trichotomy x.magnitude y.magnitude with hlt | heq | hlt
  · exact absurd hyq (not_holds_of_magnitude_lt hx hy hlt hxq)
  · exact eq_of_magnitude hsign heq
  · exact absurd hxq (not_holds_of_magnitude_lt hy hx hlt hyq)

end

/-! ## Multiples on a grid -/

variable {s : Span} {tie : Tie} {grid : Int} {c d : Nat}

/-- The multiple of the grid below the middle of an interval. -/
def gridBelow (s : Span) (grid : Int) : Nat :=
  s.middle * Nat.pow 10 (-grid).toNat / (Nat.pow 10 grid.toNat * s.den)

theorem pow_toNat (grid : Int) :
    ((Nat.pow 10 grid.toNat : Nat) : ℚ) = 10 ^ grid * (Nat.pow 10 (-grid).toNat : Nat) := by
  simp only [Nat.pow_eq]
  push_cast
  rw [← zpow_natCast, ← zpow_natCast, ← zpow_add₀ (by norm_num)]
  congr 1
  omega

theorem cast_mul_up (a : Nat) : ((a * (Nat.pow 10 grid.toNat * s.den) : Nat) : ℚ) =
    a * 10 ^ grid * s.den * (Nat.pow 10 (-grid).toNat : Nat) := by
  rw [Nat.cast_mul, Nat.cast_mul, pow_toNat grid]
  ring

theorem down_pos (grid : Int) : (0 : ℚ) < (Nat.pow 10 (-grid).toNat : Nat) :=
  Nat.cast_pos.2 (Nat.pow_pos (by omega))

/-- Whole numbers are compared as the multiples of the grid and the bounds that they stand for. -/
theorem mul_up_le_iff (a b : Nat) :
    a * (Nat.pow 10 grid.toNat * s.den) ≤ b * Nat.pow 10 (-grid).toNat ↔
      (a : ℚ) * 10 ^ grid * s.den ≤ b := by
  rw [← Nat.cast_le (α := ℚ), cast_mul_up, Nat.cast_mul,
    mul_le_mul_iff_of_pos_right (down_pos grid)]

theorem le_mul_up_iff (a b : Nat) :
    b * Nat.pow 10 (-grid).toNat ≤ a * (Nat.pow 10 grid.toNat * s.den) ↔
      (b : ℚ) ≤ a * 10 ^ grid * s.den := by
  rw [← Nat.cast_le (α := ℚ), cast_mul_up, Nat.cast_mul,
    mul_le_mul_iff_of_pos_right (down_pos grid)]

theorem gridBelow_le (s : Span) (grid : Int) :
    (gridBelow s grid : ℚ) * 10 ^ grid * s.den ≤ s.middle := by
  rw [← mul_up_le_iff]
  exact Nat.div_mul_le_self ..

theorem lt_gridAbove (hden : 0 < s.den) (grid : Int) :
    s.middle < (gridBelow s grid + 1 : Nat) * (10 : ℚ) ^ grid * s.den := by
  have hup : 0 < Nat.pow 10 grid.toNat * s.den := Nat.mul_pos (Nat.pow_pos (by omega)) hden
  rw [← not_le, ← mul_up_le_iff, not_le, mul_comm (_ + 1)]
  exact Nat.lt_mul_div_succ _ hup

/-- Whether a multiple of the grid is in the interval. -/
def fits (s : Span) (grid : Int) (c : Nat) : Bool :=
  let point := c * (Nat.pow 10 grid.toNat * s.den)
  let down := Nat.pow 10 (-grid).toNat
  if s.closed then s.low * down ≤ point && point ≤ s.high * down
  else s.low * down < point && point < s.high * down

theorem fits_iff : fits s grid c = true ↔ s.Holds (c * 10 ^ grid) := by
  unfold fits Span.Holds
  split
  · rw [Bool.and_eq_true, decide_eq_true_eq, decide_eq_true_eq, le_mul_up_iff, mul_up_le_iff]
  · rw [Bool.and_eq_true, decide_eq_true_eq, decide_eq_true_eq, ← not_le, ← not_le, mul_up_le_iff,
      le_mul_up_iff, not_le, not_le]

/-- The neighbour of the middle that is taken if both are in the interval. -/
def nearer? (s : Span) (tie : Tie) (grid : Int) : Option Nat :=
  let below := gridBelow s grid
  let up := Nat.pow 10 grid.toNat * s.den
  let toBelow := s.middle * Nat.pow 10 (-grid).toNat - below * up
  let toAbove := (below + 1) * up - s.middle * Nat.pow 10 (-grid).toNat
  if toBelow < toAbove then some below
  else if toAbove < toBelow then some (below + 1)
  else match tie with
    | .up => some (below + 1)
    | .even => some (if below % 2 = 0 then below else below + 1)

theorem nearer?_cases (s : Span) (tie : Tie) (grid : Int) :
    nearer? s tie grid = some (gridBelow s grid) ∨
      nearer? s tie grid = some (gridBelow s grid + 1) := by
  unfold nearer?
  dsimp only
  generalize gridBelow s grid = below
  cases tie <;> split_ifs <;> simp

theorem gridHit?_eq (s : Span) (tie : Tie) (grid : Int) : gridHit? s tie grid =
    if fits s grid (gridBelow s grid) then
      if fits s grid (gridBelow s grid + 1) then nearer? s tie grid
      else some (gridBelow s grid)
    else if fits s grid (gridBelow s grid + 1) then some (gridBelow s grid + 1) else none := by
  cases hbelow : fits s grid (gridBelow s grid) <;>
    cases habove : fits s grid (gridBelow s grid + 1)
  all_goals
    unfold fits gridBelow at hbelow habove
    unfold gridHit?
    dsimp only at hbelow habove ⊢
    rw [hbelow, habove]
    rfl

/-- A hit is one of the two neighbours of the middle, and in the interval. -/
theorem holds_of_gridHit? (h : gridHit? s tie grid = some d) :
    s.Holds (d * 10 ^ grid) ∧ (d = gridBelow s grid ∨ d = gridBelow s grid + 1) := by
  rw [gridHit?_eq] at h
  split_ifs at h with hbelow habove habove
  · rcases nearer?_cases s tie grid with hnearer | hnearer
    · cases h.symm.trans hnearer
      exact ⟨fits_iff.1 hbelow, .inl rfl⟩
    · cases h.symm.trans hnearer
      exact ⟨fits_iff.1 habove, .inr rfl⟩
  · cases h
    exact ⟨fits_iff.1 hbelow, .inl rfl⟩
  · cases h
    exact ⟨fits_iff.1 habove, .inr rfl⟩

theorem gridBelow_bounds (x : Binary64) (grid : Int) :
    (gridBelow x.span grid : ℚ) * 10 ^ grid ≤ x.magnitude ∧
      x.magnitude < (gridBelow x.span grid + 1 : Nat) * (10 : ℚ) ^ grid := by
  have hden : (0 : ℚ) < x.span.den := Nat.cast_pos.2 x.span_den_pos
  rw [← span_middle, le_div_iff₀ hden, div_lt_iff₀ hden]
  exact ⟨gridBelow_le _ _, lt_gridAbove x.span_den_pos _⟩

/-- A grid with a multiple in the interval of a double is hit: there are no gaps in the interval, so
that the neighbour of the middle towards the multiple is in it too. -/
theorem exists_gridHit (hx : x.significand ≠ 0) (tie : Tie) (hc : x.span.Holds (c * 10 ^ grid)) :
    ∃ d, gridHit? x.span tie grid = some d := by
  have hgrid : (0 : ℚ) ≤ 10 ^ grid := by positivity
  have hmiddle := holds_magnitude hx
  obtain ⟨hlower, hupper⟩ := gridBelow_bounds x grid
  have hneighbour : fits x.span grid (gridBelow x.span grid) = true ∨
      fits x.span grid (gridBelow x.span grid + 1) = true := by
    rw [fits_iff, fits_iff]
    rcases Nat.lt_or_ge (gridBelow x.span grid) c with hlt | hle
    · have hnext : ((gridBelow x.span grid + 1 : Nat) : ℚ) * 10 ^ grid ≤ c * 10 ^ grid :=
        mul_le_mul_of_nonneg_right (by exact_mod_cast hlt) hgrid
      exact .inr (hmiddle.convex hc hupper.le hnext)
    · have hnext : (c : ℚ) * 10 ^ grid ≤ gridBelow x.span grid * 10 ^ grid :=
        mul_le_mul_of_nonneg_right (by exact_mod_cast hle) hgrid
      exact .inl (hc.convex hmiddle hnext hlower)
  rw [gridHit?_eq]
  split_ifs with hbelow habove habove
  · rcases nearer?_cases x.span tie grid with hnearer | hnearer <;> exact ⟨_, hnearer⟩
  · exact ⟨_, rfl⟩
  · exact ⟨_, rfl⟩
  · exact absurd hneighbour (not_or.2 ⟨hbelow, habove⟩)

/-! ## The search -/

/-- The exponent of the leading decimal digit of a double. -/
def lead (x : Binary64) : Int := leadingExponent x.span.middle x.span.den

theorem lead_spec (hx : x.significand ≠ 0) :
    (10 : ℚ) ^ x.lead ≤ x.magnitude ∧ x.magnitude < 10 ^ (x.lead + 1) := by
  have hmiddle : 0 < x.span.middle :=
    Nat.mul_pos (by omega) (Nat.mul_pos (Nat.pos_of_ne_zero hx) (pow_two_pos _))
  rw [← span_middle]
  exact leadingExponent_spec hmiddle x.span_den_pos

/-- On the grid of the `n`-th digit behind the leading one a hit has one digit more than `n`, or is
the next power of ten. -/
theorem digits_of_gridHit? (hx : x.significand ≠ 0) {n : Nat}
    (h : gridHit? x.span tie (x.lead - n) = some d) : 10 ^ n ≤ d ∧ d ≤ 10 ^ (n + 1) := by
  obtain ⟨hlower, hupper⟩ := gridBelow_bounds x (x.lead - n)
  obtain ⟨hlead, hnext⟩ := lead_spec hx
  have hgrid : (0 : ℚ) < 10 ^ (x.lead - n) := by positivity
  have hten : (10 : ℚ) ≠ 0 := by norm_num
  have hleadgrid : (10 : ℚ) ^ x.lead = (10 ^ n : Nat) * 10 ^ (x.lead - n) := by
    rw [Nat.cast_pow, Nat.cast_ofNat, ← zpow_natCast, ← zpow_add₀ hten, add_sub_cancel]
  have hnextgrid : (10 : ℚ) ^ (x.lead + 1) = (10 ^ (n + 1) : Nat) * 10 ^ (x.lead - n) := by
    rw [zpow_add_one₀ hten, hleadgrid, pow_succ, Nat.cast_mul]
    ring
  have hmost := hlower.trans_lt hnext
  have hleast := hlead.trans_lt hupper
  rw [hnextgrid, mul_lt_mul_iff_of_pos_right hgrid, Nat.cast_lt] at hmost
  rw [hleadgrid, mul_lt_mul_iff_of_pos_right hgrid, Nat.cast_lt] at hleast
  rcases (holds_of_gridHit? h).2 with rfl | rfl <;> omega

/-- The grid of the seventeenth digit is finer than the interval. -/
theorem exists_holds_seventeen (hx : x.significand ≠ 0) :
    ∃ c : Nat, x.span.Holds (c * 10 ^ (x.lead - 16)) := by
  obtain ⟨hlower, hupper⟩ := gridBelow_bounds x (x.lead - 16)
  obtain ⟨hlead, -⟩ := lead_spec hx
  have hunit := x.unit_pos
  have hgrid : (10 : ℚ) ^ x.lead = 10 ^ (x.lead - 16) * 10 ^ 16 := by
    rw [← zpow_natCast, ← zpow_add₀ (by norm_num), Nat.cast_ofNat, sub_add_cancel]
  rw [magnitude_eq, hgrid] at hlead
  have hfine : (10 : ℚ) ^ (x.lead - 16) < x.unit := by
    have hsignificand : (x.significand : ℚ) < 2 ^ 53 := by exact_mod_cast x.significand_lt
    nlinarith
  generalize gridBelow x.span (x.lead - 16) = below at *
  generalize (10 : ℚ) ^ (x.lead - 16) = grid at *
  push_cast at hupper
  by_cases hquarters : x.quartersBelow = 1
  · -- the significand is the least, and the unit more than twice the grid
    have hsignificand : (x.significand : ℚ) = 2 ^ 52 := by
      unfold quartersBelow at hquarters
      split at hquarters
      · next h => exact_mod_cast h.1
      · omega
    rw [hsignificand] at hlead
    refine ⟨below + 1, holds_of_near hx ?_ ?_ ?_⟩ <;> push_cast
    · linarith
    · exact fun _ => hupper.le
    · linarith
  · by_cases hnear : x.magnitude - x.unit / 2 < below * grid
    · exact ⟨below, holds_of_near hx hnear (absurd · hquarters) (by linarith)⟩
    · refine ⟨below + 1, holds_of_near hx ?_ (absurd · hquarters) ?_⟩ <;> push_cast <;> linarith

/-- Seventeen rounds take all zeros off the end of a number of up to as many digits, and off the
next power of ten. -/
theorem removeFactor_ten (hpos : 0 < d) (hd : d ≤ 10 ^ 17) :
    d = 10 ^ (Decimal.removeFactor 10 17 d).1 * (Decimal.removeFactor 10 17 d).2 ∧
      ¬ 10 ∣ (Decimal.removeFactor 10 17 d).2 := by
  rcases Nat.lt_or_eq_of_le hd with hlt | rfl
  · exact Decimal.removeFactor_spec (by omega) hpos hlt
  · decide

theorem first_of_findSome? {β : Type} {f : Nat → Option β} {k : Nat} {found : β}
    (h : (List.range k).findSome? f = some found) :
    ∃ n < k, f n = some found ∧ ∀ m < n, f m = none := by
  obtain ⟨front, n, back, hrange, hfound, hnone⟩ := List.findSome?_eq_some_iff.1 h
  rw [List.range_eq_range', List.range'_eq_append_iff] at hrange
  obtain ⟨length, hlength, rfl, hback⟩ := hrange
  obtain ⟨hn, hpos, -⟩ := List.range'_eq_cons_iff.1 hback.symm
  refine ⟨n, by omega, hfound, fun m hm => hnone m (List.mem_range'_1.2 (by omega))⟩

/-- The digits of a double are the first hit of the search, without the zeros at its end. -/
theorem shortest_search (hx : x.significand ≠ 0) (tie : Tie) : ∃ n d zeros v : Nat,
    n < 17 ∧ gridHit? x.span tie (x.lead - n) = some d ∧
      (∀ m < n, gridHit? x.span tie (x.lead - m) = none) ∧
      d = 10 ^ zeros * v ∧ ¬ 10 ∣ v ∧ x.shortest tie = (v, x.lead - n + zeros) := by
  obtain ⟨c, hc⟩ := exists_holds_seventeen hx
  obtain ⟨last, hlast⟩ := exists_gridHit hx tie hc
  cases hfind : (List.range 17).findSome? fun n : Nat =>
      (gridHit? x.span tie (x.lead - n)).map fun digits => (digits, x.lead - n) with
  | none =>
    have hnone := List.findSome?_eq_none_iff.1 hfind 16 (by decide)
    rw [Nat.cast_ofNat, hlast] at hnone
    cases hnone
  | some found =>
    obtain ⟨n, hn, hhit, hnone⟩ := first_of_findSome? hfind
    obtain ⟨d, hd, rfl⟩ := Option.map_eq_some_iff.1 hhit
    obtain ⟨hleast, hmost⟩ := digits_of_gridHit? hx hd
    have hpos : 0 < d := (Nat.pow_pos (by omega)).trans_le hleast
    have hbound : d ≤ 10 ^ 17 := hmost.trans (Nat.pow_le_pow_right (by omega) (by omega))
    obtain ⟨hfactor, hrest⟩ := removeFactor_ten hpos hbound
    refine ⟨n, d, _, _, hn, hd, fun m hm => Option.map_eq_none_iff.1 (hnone m hm), hfactor, hrest,
      ?_⟩
    unfold lead at hfind ⊢
    unfold shortest
    dsimp only
    rw [hfind]

/-- Digits on a grid that are in the interval of a double and do not end in zero. -/
structure ReadsBack (x : Binary64) (digits : Nat) (grid : Int) : Prop where
  holds : x.span.Holds (digits * 10 ^ grid)
  trimmed : ¬ 10 ∣ digits
  digits_le : digits ≤ 10 ^ 17
  least : -340 ≤ grid
  largest : grid ≤ 340

theorem unitsPerOne_le : unitsPerOne ≤ 10 ^ 324 := by
  unfold unitsPerOne
  decide +kernel

theorem units_lt (x : Binary64) : x.units < 10 ^ 309 * unitsPerOne := by
  obtain ⟨most, hmost, hfinite⟩ : ∃ most, most = 2045 ∧
      Nat.pow 2 53 * Nat.pow 2 most < 10 ^ 309 * unitsPerOne := by
    refine ⟨2045, rfl, ?_⟩
    unfold unitsPerOne
    decide +kernel
  calc x.units ≤ Nat.pow 2 53 * Nat.pow 2 most :=
        Nat.mul_le_mul x.significand_lt.le
          (Nat.pow_le_pow_right (by omega) (hmost ▸ x.exponent_le))
    _ < 10 ^ 309 * unitsPerOne := hfinite

theorem lead_bounds (hx : x.significand ≠ 0) : -324 ≤ x.lead ∧ x.lead < 309 := by
  obtain ⟨hlower, hupper⟩ := lead_spec hx
  have hunits : 1 ≤ x.units := Nat.mul_pos (Nat.pos_of_ne_zero hx) (pow_two_pos _)
  have hleast : (10 : ℚ) ^ (-(324 : Nat) : Int) ≤ x.magnitude :=
    (inv_pow_le_div_iff 324 unitsPerOne_pos).2
      (unitsPerOne_le.trans (Nat.le_mul_of_pos_left _ hunits))
  have hlargest : x.magnitude < (10 : ℚ) ^ ((309 : Nat) : Int) :=
    (div_lt_pow_iff 309 unitsPerOne_pos).2 x.units_lt
  have hbelow := (zpow_lt_zpow_iff_right₀ (by norm_num)).1 (hleast.trans_lt hupper)
  have habove := (zpow_lt_zpow_iff_right₀ (by norm_num)).1 (hlower.trans_lt hlargest)
  omega

theorem mul_zpow_add (c : Nat) (grid : Int) (zeros : Nat) :
    (c : ℚ) * 10 ^ (grid + zeros) = (10 ^ zeros * c : Nat) * 10 ^ grid := by
  rw [zpow_add₀ (by norm_num), zpow_natCast]
  push_cast
  ring

theorem readsBack_shortest (hx : x.significand ≠ 0) (tie : Tie) :
    ReadsBack x (x.shortest tie).1 (x.shortest tie).2 := by
  obtain ⟨n, d, zeros, v, hn, hhit, -, hd, htrimmed, hshortest⟩ := shortest_search hx tie
  obtain ⟨hleast, hlargest⟩ := lead_bounds hx
  have hpos : 0 < v := Nat.pos_of_ne_zero fun hzero => htrimmed (hzero ▸ Nat.dvd_zero 10)
  have hbound : d ≤ 10 ^ 17 :=
    (digits_of_gridHit? hx hhit).2.trans (Nat.pow_le_pow_right (by omega) (by omega))
  have hzeros : zeros ≤ 17 := by
    rw [← Nat.pow_le_pow_iff_right (a := 10) (by omega)]
    exact (Nat.le_mul_of_pos_right _ hpos).trans (hd ▸ hbound)
  rw [hshortest]
  refine ⟨?_, htrimmed, ?_, by omega, by omega⟩
  · rw [mul_zpow_add, ← hd]
    exact (holds_of_gridHit? hhit).1
  · exact (Nat.le_mul_of_pos_left _ (Nat.pow_pos (by omega))).trans (hd ▸ hbound)

/-- Two multiples of a grid that is coarser than the unit are not both in the interval. -/
theorem eq_of_holds (hx : x.significand ≠ 0) (hunit : x.unit < 10 ^ grid)
    (hc : x.span.Holds (c * 10 ^ grid)) (hd : x.span.Holds (d * 10 ^ grid)) : c = d := by
  have hnot (a b : Nat) (ha : x.span.Holds (a * 10 ^ grid)) (hb : x.span.Holds (b * 10 ^ grid)) :
      ¬ a < b := by
    intro hlt
    have hstep : (a : ℚ) * 10 ^ grid + 10 ^ grid ≤ b * 10 ^ grid := by
      rw [← add_one_mul]
      exact mul_le_mul_of_nonneg_right (by exact_mod_cast hlt) (by positivity)
    have hlower := (near_of_holds hx ha).1
    have hupper := (near_of_holds hx hb).2
    linarith
  exact Nat.le_antisymm (not_lt.1 (hnot d c hd hc)) (not_lt.1 (hnot c d hc hd))

/-- A decimal in the interval is found where its grid and that of the leading digit are coarser than
the unit. The search stops before both of these grids are passed, and on the finer one no other
multiple is in the interval. -/
theorem shortest_eq_of_holds {k : Int} (hx : x.significand ≠ 0) (tie : Tie)
    (hc : x.span.Holds (c * 10 ^ k)) (hk : x.lead - 16 ≤ k) (hlead : x.unit < 10 ^ x.lead)
    (hunit : x.unit < 10 ^ k) :
    ((x.shortest tie).1 : ℚ) * 10 ^ (x.shortest tie).2 = c * 10 ^ k := by
  obtain ⟨n, d, zeros, v, hn, hhit, hnone, hd, -, hshortest⟩ := shortest_search hx tie
  obtain ⟨least, hleast⟩ : ∃ least : Nat, x.lead - least = min x.lead k :=
    ⟨(x.lead - min x.lead k).toNat, by omega⟩
  have hfine : x.unit < 10 ^ (x.lead - least) := by
    rcases le_total x.lead k with hle | hle
    · rw [hleast, min_eq_left hle]
      exact hlead
    · rw [hleast, min_eq_right hle]
      exact hunit
  -- the decimal on the finer grid
  obtain ⟨shift, hshift⟩ : ∃ shift : Nat, k = x.lead - least + shift :=
    ⟨(k - (x.lead - least)).toNat, by omega⟩
  rw [hshift, mul_zpow_add] at hc
  have hfirst : n ≤ least := by
    by_contra hlt
    obtain ⟨e, he⟩ := exists_gridHit hx tie hc
    cases he.symm.trans (hnone least (by omega))
  -- the hit on the finer grid
  obtain ⟨rest, hrest⟩ : ∃ rest : Nat, x.lead - n = x.lead - least + rest :=
    ⟨least - n, by omega⟩
  have hholds := (holds_of_gridHit? hhit).1
  rw [hrest, mul_zpow_add] at hholds
  rw [hshortest]
  calc (v : ℚ) * 10 ^ (x.lead - n + zeros) = d * 10 ^ (x.lead - n) := by rw [mul_zpow_add, ← hd]
    _ = (10 ^ rest * d : Nat) * 10 ^ (x.lead - least) := by
      rw [hrest, mul_zpow_add d (x.lead - least) rest]
    _ = (10 ^ shift * c : Nat) * 10 ^ (x.lead - least) := by
      rw [eq_of_holds hx hfine hholds hc]
    _ = c * 10 ^ k := by rw [hshift, mul_zpow_add]

end PolicyExpr.Binary64
