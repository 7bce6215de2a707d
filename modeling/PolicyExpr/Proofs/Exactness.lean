import Mathlib.Algebra.Order.Field.Basic
import Mathlib.Algebra.Order.Field.Rat
import Mathlib.Algebra.Order.Ring.Abs
import Mathlib.Tactic.FieldSimp
import Mathlib.Tactic.Linarith
import PolicyExpr.Decimal.Notation

/-!
# Decimals are exact

The digits and the scale of a decimal stand for a rational number. Trimming keeps this number and
leaves the only canonical way to write it, so equality of decimals is equality of numbers. Sum,
difference, negation, product and remainder are those of the rational numbers, and so is the order.
-/
namespace PolicyExpr.Decimal

/-- Digits that are written with a scale in the shortest way, within the bound of the scale. -/
def Canonical (digits : Int) (scale : Nat) : Prop :=
  scale ≤ maxScale ∧ (scale = 0 ∨ ¬ 10 ∣ digits)

/-- The rational number that digits and a scale stand for. -/
def rational (digits : Int) (scale : Nat) : ℚ := digits / 10 ^ scale

/-- The rational number that a decimal stands for. -/
def value (a : Decimal) : ℚ := rational a.digits a.scale

/-- The number between zero and the magnitude of `b` that differs from `a` by a multiple of `b`. -/
def IsRemainder (a b r : ℚ) : Prop := 0 ≤ r ∧ r < |b| ∧ ∃ k : ℤ, (a - r) / b = k

variable {a b : Decimal} {digits : Int} {scale : Nat}

/-! ## Canonical digits -/

theorem canonical (a : Decimal) : Canonical a.digits a.scale :=
  ⟨a.scale_le, a.trimmed.imp_right fun h => mt Int.emod_eq_zero_of_dvd h⟩

/-- A zero behind the point does not count. -/
theorem rational_succ (digits : Int) (scale : Nat) :
    rational (digits * 10) (scale + 1) = rational digits scale := by
  unfold rational
  push_cast
  rw [pow_succ, mul_div_mul_right _ _ (by norm_num)]

theorem rational_shift (digits : Int) (scale k : Nat) :
    rational (digits * 10 ^ k) (scale + k) = rational digits scale := by
  induction k with
  | zero => simp
  | succ k ih => rw [pow_succ, ← mul_assoc, ← Nat.add_assoc, rational_succ, ih]

theorem rational_trim (digits : Int) (scale : Nat) :
    rational (trim digits scale).1 (trim digits scale).2 = rational digits scale := by
  induction scale generalizing digits with
  | zero => rfl
  | succ scale ih =>
    unfold trim
    split
    · next h =>
      rw [ih, ← rational_succ, Int.ediv_mul_cancel (Int.dvd_of_emod_eq_zero h)]
    · rfl

theorem value_ofDigits (h : scale ≤ maxScale) :
    (ofDigits digits scale h).value = rational digits scale :=
  rational_trim digits scale

/-! ## Common scales -/

theorem rational_digitsAt (h : a.scale ≤ scale) : rational (a.digitsAt scale) scale = a.value := by
  have shifted := rational_shift a.digits a.scale (scale - a.scale)
  rw [Nat.add_sub_cancel' h] at shifted
  simpa [digitsAt, value] using shifted

theorem rational_digitsAt_left (a b : Decimal) :
    rational (a.digitsAt (commonScale a b)) (commonScale a b) = a.value :=
  rational_digitsAt (Nat.le_max_left _ _)

theorem rational_digitsAt_right (a b : Decimal) :
    rational (b.digitsAt (commonScale a b)) (commonScale a b) = b.value :=
  rational_digitsAt (Nat.le_max_right _ _)

theorem rational_add (m n : Int) (scale : Nat) :
    rational (m + n) scale = rational m scale + rational n scale := by
  simp [rational, add_div]

theorem rational_neg (m : Int) (scale : Nat) : rational (-m) scale = -rational m scale := by
  simp [rational, neg_div]

theorem rational_sub (m n : Int) (scale : Nat) :
    rational (m - n) scale = rational m scale - rational n scale := by
  simp [rational, sub_div]

theorem rational_mul (m n : Int) (s t : Nat) :
    rational (m * n) (s + t) = rational m s * rational n t := by
  simp [rational, pow_add, div_mul_div_comm]

theorem rational_lt_iff {m n : Int} : rational m scale < rational n scale ↔ m < n := by
  unfold rational
  rw [div_lt_div_iff_of_pos_right (by positivity)]
  exact Int.cast_lt

theorem rational_inj {m n : Int} : rational m scale = rational n scale ↔ m = n := by
  unfold rational
  rw [div_left_inj' (by positivity)]
  exact Int.cast_inj

/-! ## Operations -/

theorem value_add (a b : Decimal) : (a.add b).value = a.value + b.value := by
  rw [add, value_ofDigits, rational_add, rational_digitsAt_left, rational_digitsAt_right]

theorem value_sub (a b : Decimal) : (a.sub b).value = a.value - b.value := by
  rw [sub, value_ofDigits, rational_sub, rational_digitsAt_left, rational_digitsAt_right]

theorem value_neg (a : Decimal) : a.neg.value = -a.value := by
  rw [neg, value_ofDigits, rational_neg, value]

theorem value_of_mul {c : Decimal} (h : a.mul b = .ok c) : c.value = a.value * b.value := by
  unfold mul at h
  split at h
  · cases h
    rw [value_ofDigits, rational_mul, value, value]
  · cases h

theorem value_eq_zero_iff : b.value = 0 ↔ b.digits = 0 := by
  simp [value, rational]

/-- Two decimals are written with a common scale, and one remainder is that of the other. -/
theorem isRemainder_rational {m n : Int} (hn : n ≠ 0) (scale : Nat) :
    IsRemainder (rational m scale) (rational n scale) (rational (m % n) scale) := by
  have hpos : (0 : ℚ) < 10 ^ scale := by positivity
  have hn' : (n : ℚ) ≠ 0 := by exact_mod_cast hn
  refine ⟨?_, ?_, m / n, ?_⟩
  · exact div_nonneg (by exact_mod_cast Int.emod_nonneg m hn) hpos.le
  · have hlt : ((m % n : ℤ) : ℚ) < |(n : ℚ)| := by exact_mod_cast Int.emod_lt_abs m hn
    unfold rational
    rw [abs_div, abs_of_pos hpos]
    exact div_lt_div_of_pos_right hlt hpos
  · have hdiff : m - m % n = m / n * n := by
      rw [Int.emod_def, Int.mul_comm]
      omega
    rw [← rational_sub, hdiff]
    unfold rational
    push_cast
    field_simp

/-- There is only one remainder. -/
theorem IsRemainder.unique {x y r s : ℚ} (hr : IsRemainder x y r) (hs : IsRemainder x y s) :
    r = s := by
  obtain ⟨hr0, hry, j, hj⟩ := hr
  obtain ⟨hs0, hsy, k, hk⟩ := hs
  have hy : y ≠ 0 := by
    rintro rfl
    simp at hry
    linarith
  -- The remainders differ by a multiple of the divisor that is less than the divisor.
  have hdiff : s - r = ((j - k : ℤ) : ℚ) * y := by
    rw [div_eq_iff hy] at hj hk
    push_cast
    linarith
  have hlt : |s - r| < |y| := abs_sub_lt_iff.2 ⟨by linarith, by linarith⟩
  rw [hdiff, abs_mul] at hlt
  have hone : |((j - k : ℤ) : ℚ)| < 1 := by
    by_contra hge
    have := le_mul_of_one_le_left (abs_nonneg y) (not_lt.1 hge)
    linarith
  have hzero : j - k = 0 := Int.abs_lt_one_iff.1 (by exact_mod_cast hone)
  rw [hzero] at hdiff
  simp at hdiff
  linarith

theorem isRemainder_of_modulo {c : Decimal} (h : a.modulo b = .ok c) :
    IsRemainder a.value b.value c.value := by
  unfold modulo at h
  split at h
  · cases h
  · next hb =>
    cases h
    have hdigits : b.digitsAt (commonScale a b) ≠ 0 := by
      intro hzero
      have hvalue := rational_digitsAt_right a b
      rw [hzero, rational, Int.cast_zero, zero_div] at hvalue
      exact hb (value_eq_zero_iff.1 hvalue.symm)
    rw [value_ofDigits, ← rational_digitsAt_left a b, ← rational_digitsAt_right a b]
    exact isRemainder_rational hdigits _

theorem exists_modulo_iff : (∃ c, a.modulo b = .ok c) ↔ b.digits ≠ 0 := by
  unfold modulo
  split
  · next h => simp [h]
  · next h => simpa using h

/-! ## Equality and order -/

/-- A number has one canonical scale: at the larger of two scales the digits would end in zero. -/
theorem scale_le_of_value_eq (h : a.value = b.value) : b.scale ≤ a.scale := by
  by_contra hlt
  have hdigits : a.digitsAt b.scale = b.digits :=
    rational_inj.1 ((rational_digitsAt (Nat.le_of_not_le hlt)).trans h)
  have hten : (10 : Int) ∣ b.digits := by
    rw [← hdigits, digitsAt]
    have hpow : 10 ∣ Nat.pow 10 (b.scale - a.scale) := dvd_pow_self 10 (by omega)
    exact Dvd.dvd.mul_left (Int.natCast_dvd_natCast.2 hpow) _
  rcases b.canonical.2 with hscale | htrimmed
  · omega
  · exact htrimmed hten

theorem value_inj : a.value = b.value ↔ a = b := by
  refine ⟨fun h => ?_, fun h => h ▸ rfl⟩
  have hscale : a.scale = b.scale :=
    Nat.le_antisymm (scale_le_of_value_eq h.symm) (scale_le_of_value_eq h)
  have hdigits : a.digits = b.digits := by
    rw [value, value, hscale] at h
    exact rational_inj.1 h
  cases a
  cases b
  congr

theorem compare_eq_compare_value (a b : Decimal) :
    a.compare b = Ord.compare a.value b.value := by
  rw [compare, ← rational_digitsAt_left a b, ← rational_digitsAt_right a b]
  generalize a.digitsAt (commonScale a b) = m
  generalize b.digitsAt (commonScale a b) = n
  rcases lt_trichotomy m n with h | h | h
  · rw [compare_lt_iff_lt.2 h, compare_lt_iff_lt.2 (rational_lt_iff.2 h)]
  · rw [compare_eq_iff_eq.2 h, compare_eq_iff_eq.2 (rational_inj.2 h)]
  · rw [compare_gt_iff_gt.2 h, compare_gt_iff_gt.2 (rational_lt_iff.2 h)]

/-! ## Numbers that are obtained -/

/-- A number that reading, whole numbers and the operations lead to, in any composition. -/
inductive Obtained : Decimal → Prop where
  | read {s : String} {a : Decimal} (h : ofText s = .ok a) : Obtained a
  | whole (n : Int) : Obtained (ofInt n)
  | add {a b : Decimal} (ha : Obtained a) (hb : Obtained b) : Obtained (a.add b)
  | sub {a b : Decimal} (ha : Obtained a) (hb : Obtained b) : Obtained (a.sub b)
  | neg {a : Decimal} (ha : Obtained a) : Obtained a.neg
  | mul {a b c : Decimal} (ha : Obtained a) (hb : Obtained b) (h : a.mul b = .ok c) : Obtained c
  | divide {a b c : Decimal} (ha : Obtained a) (hb : Obtained b) (h : a.divide b = .ok c) :
    Obtained c
  | modulo {a b c : Decimal} (ha : Obtained a) (hb : Obtained b) (h : a.modulo b = .ok c) :
    Obtained c

/-- There is a product unless it is written with too many digits behind the point. -/
theorem exists_mul (h : a.scale + b.scale ≤ maxScale) : ∃ c, a.mul b = .ok c :=
  ⟨_, dif_pos h⟩

/-- The power of a tenth with this scale. -/
def tenth (scale : Nat) (h : scale ≤ maxScale) : Decimal := ⟨1, scale, h, .inr (by decide)⟩

theorem obtained_tenth (scale : Nat) (h : scale ≤ maxScale) : Obtained (tenth scale h) := by
  induction scale with
  | zero => exact .whole 1
  | succ scale ih =>
    have first : Obtained (tenth 1 (by decide)) := .read (s := "0.1") (by decide +kernel)
    obtain ⟨c, hc⟩ : ∃ c, (tenth scale (Nat.le_of_succ_le h)).mul (tenth 1 (by decide)) = .ok c :=
      exists_mul h
    have hvalue : c.value = (tenth (scale + 1) h).value :=
      (value_of_mul hc).trans (rational_mul 1 1 scale 1).symm
    rw [← value_inj.1 hvalue]
    exact .mul (ih _) first hc

/-- Every decimal is its digits times a power of a tenth. -/
theorem obtained (a : Decimal) : Obtained a := by
  obtain ⟨c, hc⟩ : ∃ c, (ofInt a.digits).mul (tenth a.scale a.scale_le) = .ok c :=
    exists_mul ((Nat.zero_add _).trans_le a.scale_le)
  have hvalue : c.value = a.value := by
    rw [value_of_mul hc, value, value, ← rational_mul]
    simp [ofInt, tenth, value]
  rw [← value_inj.1 hvalue]
  exact .mul (.whole a.digits) (obtained_tenth a.scale a.scale_le) hc

theorem canonical_iff_obtained :
    Canonical digits scale ↔ ∃ a, Obtained a ∧ a.digits = digits ∧ a.scale = scale := by
  constructor
  · rintro ⟨hscale, htrimmed⟩
    have trimmed : scale = 0 ∨ digits % 10 ≠ 0 :=
      htrimmed.imp_right fun h => mt Int.dvd_of_emod_eq_zero h
    exact ⟨⟨digits, scale, hscale, trimmed⟩, obtained _, rfl, rfl⟩
  · rintro ⟨a, -, rfl, rfl⟩
    exact a.canonical

/-- Decimals are canonical and exact. What is obtained by reading, from whole numbers and by
operations has canonical digits, and all of these are obtained. Sum, difference and negation are
those of the rational numbers, and so is a product where there is one; there is a remainder for
every divisor but zero. Decimals are the same exactly if they stand for one number, and their order
is that of their numbers. -/
theorem canonical_and_exact :
    (∀ digits scale, Canonical digits scale ↔
      ∃ a, Obtained a ∧ a.digits = digits ∧ a.scale = scale) ∧
    ∀ a b : Decimal,
      (a.add b).value = a.value + b.value ∧ (a.sub b).value = a.value - b.value ∧
      a.neg.value = -a.value ∧ (∀ c, a.mul b = .ok c → c.value = a.value * b.value) ∧
      ((∃ c, a.modulo b = .ok c) ↔ b ≠ zero) ∧
      (∀ c, a.modulo b = .ok c → ∀ r, IsRemainder a.value b.value r ↔ r = c.value) ∧
      (a = b ↔ a.value = b.value) ∧ a.compare b = Ord.compare a.value b.value ∧
      (a.compare b = .eq ↔ a = b) := by
  refine ⟨fun _ _ => canonical_iff_obtained, fun a b => ?_⟩
  have nonzero : b.digits ≠ 0 ↔ b ≠ zero := by
    have hzero : zero.value = 0 := by simp [value, rational, zero, ofInt]
    rw [Ne, ← value_eq_zero_iff, ← hzero, value_inj]
  refine ⟨value_add a b, value_sub a b, value_neg a, fun _ => value_of_mul, ?_, fun c hc r => ?_,
    value_inj.symm, compare_eq_compare_value a b, ?_⟩
  · exact exists_modulo_iff.trans nonzero
  · have hr := isRemainder_of_modulo hc
    exact ⟨fun h => h.unique hr, fun h => h ▸ hr⟩
  · rw [compare_eq_compare_value, compare_eq_iff_eq, value_inj]

end PolicyExpr.Decimal
