import PolicyExpr.Proofs.ShortestDigits

/-!
# Rounding to doubles

A quotient is rounded to the double in whose interval it is, and there is such a double where the
quotient is not too large. Whole numbers of up to 53 bits are doubles, and quotients of them are
rounded once.
-/
namespace PolicyExpr.Binary64

variable {x : Binary64} {negative : Bool} {num den : Nat}

/-! ## Rounding to a whole number -/

/-- The rounded quotient is half a unit away at most, and even where it is half a unit away. -/
theorem roundHalfEven_spec (num : Nat) (hden : 0 < den) :
    2 * (roundHalfEven num den * den) ≤ 2 * num + den ∧
      2 * num ≤ 2 * (roundHalfEven num den * den) + den ∧
      (roundHalfEven num den % 2 ≠ 0 →
        2 * (roundHalfEven num den * den) ≠ 2 * num + den ∧
          2 * num ≠ 2 * (roundHalfEven num den * den) + den) := by
  have hdivision := Nat.div_add_mod num den
  have hrest := Nat.mod_lt num hden
  have hnext : (num / den + 1) * den = num / den * den + den := Nat.succ_mul ..
  rw [mul_comm] at hdivision
  unfold roundHalfEven
  dsimp only
  split_ifs <;> omega

/-- Rounding keeps bounds that are whole. -/
theorem le_roundHalfEven {bound : Nat} (hden : 0 < den) (h : bound * den ≤ num) :
    bound ≤ roundHalfEven num den := by
  obtain ⟨-, hupper, -⟩ := roundHalfEven_spec num hden
  by_contra hlt
  have hnext : (roundHalfEven num den + 1) * den ≤ bound * den :=
    Nat.mul_le_mul_right den (Nat.lt_of_not_le hlt)
  rw [Nat.succ_mul] at hnext
  omega

theorem roundHalfEven_le {bound : Nat} (hden : 0 < den) (h : num ≤ bound * den) :
    roundHalfEven num den ≤ bound := by
  obtain ⟨hlower, -, -⟩ := roundHalfEven_spec num hden
  by_contra hlt
  have hnext : (bound + 1) * den ≤ roundHalfEven num den * den :=
    Nat.mul_le_mul_right den (Nat.lt_of_not_le hlt)
  rw [Nat.succ_mul] at hnext
  omega

theorem roundHalfEven_mul (whole : Nat) (hden : 0 < den) :
    roundHalfEven (whole * den) den = whole :=
  le_antisymm (roundHalfEven_le hden le_rfl) (le_roundHalfEven hden le_rfl)

/-! ## The parts of a rounded quotient -/

/-- The exponent in whose unit a quotient is rounded. -/
def roundedExponent (num den : Nat) : Nat := (num * unitsPerOne / den).log2 - 52

/-- The significand before it is found to be one too large. -/
def roundedSignificand (num den : Nat) : Nat :=
  roundHalfEven (num * unitsPerOne) (den * Nat.pow 2 (roundedExponent num den))

theorem ofRatio?_eq (negative : Bool) (num den : Nat) : ofRatio? negative num den =
    if roundedSignificand num den = Nat.pow 2 53 then
      ofParts? negative (Nat.pow 2 52) (roundedExponent num den + 1)
    else ofParts? negative (roundedSignificand num den) (roundedExponent num den) := by
  simp only [ofRatio?, unitsPerOne_eq]
  rfl

theorem roundedUnit_pos (num : Nat) (hden : 0 < den) :
    0 < den * Nat.pow 2 (roundedExponent num den) := Nat.mul_pos hden (pow_two_pos _)

/-- The quotient has 53 bits at most in its unit, and no fewer unless the unit is the least. -/
theorem binade (num : Nat) (hden : 0 < den) :
    (roundedExponent num den = 0 ∨
      Nat.pow 2 52 * (den * Nat.pow 2 (roundedExponent num den)) ≤ num * unitsPerOne) ∧
    num * unitsPerOne < Nat.pow 2 53 * (den * Nat.pow 2 (roundedExponent num den)) := by
  unfold roundedExponent
  generalize num * unitsPerOne = scaled
  have hscale (k e : Nat) : Nat.pow 2 k * (den * Nat.pow 2 e) = Nat.pow 2 (k + e) * den := by
    simp only [Nat.pow_eq]
    rw [pow_add]
    ring
  rw [hscale, hscale, ← Nat.div_lt_iff_lt_mul hden, ← Nat.le_div_iff_mul_le hden]
  generalize scaled / den = quotient
  constructor
  · rcases Nat.lt_or_ge 52 quotient.log2 with hlt | hle
    · right
      rw [Nat.add_sub_cancel' hlt.le]
      exact Nat.log2_self_le (by rintro rfl; simp at hlt)
    · left
      omega
  · exact Nat.lt_log2_self.trans_le (Nat.pow_le_pow_right (by omega) (by omega))

theorem roundedSignificand_le (num : Nat) (hden : 0 < den) :
    roundedSignificand num den ≤ Nat.pow 2 53 :=
  roundHalfEven_le (roundedUnit_pos num hden) (binade num hden).2.le

theorem le_roundedSignificand (num : Nat) (hden : 0 < den) :
    Nat.pow 2 52 ≤ roundedSignificand num den ∨ roundedExponent num den = 0 :=
  (binade num hden).1.symm.imp_left (le_roundHalfEven (roundedUnit_pos num hden))

/-! ## The double of a quotient -/

theorem of_ofParts? {significand exponent : Nat}
    (h : ofParts? negative significand exponent = some x) :
    x.negative = negative ∧ x.significand = significand ∧ x.exponent = exponent := by
  unfold ofParts? at h
  split at h
  · cases h
    exact ⟨rfl, rfl, rfl⟩
  · cases h

theorem Span.holds_div_iff (s : Span) (num : Nat) (hden : 0 < den) : s.Holds (num / den) ↔
    if s.closed then s.low * den ≤ num * s.den ∧ num * s.den ≤ s.high * den
    else s.low * den < num * s.den ∧ num * s.den < s.high * den := by
  have hden' : (0 : ℚ) < den := Nat.cast_pos.2 hden
  rw [Span.Holds, div_mul_eq_mul_div, le_div_iff₀ hden', div_le_iff₀ hden', lt_div_iff₀ hden',
    div_lt_iff₀ hden']
  norm_cast

/-- The interval of a double in whole numbers, a unit being `scale`. -/
theorem holds_div_iff (num : Nat) (hden : 0 < den) {scale : Nat}
    (hscale : den * Nat.pow 2 x.exponent = scale) : x.span.Holds (num / den) ↔
      if x.significand % 2 = 0 then
        4 * (x.significand * scale) - x.quartersBelow * scale ≤ 4 * (num * unitsPerOne) ∧
          4 * (num * unitsPerOne) ≤ 4 * (x.significand * scale) + 2 * scale
      else 4 * (x.significand * scale) - x.quartersBelow * scale < 4 * (num * unitsPerOne) ∧
        4 * (num * unitsPerOne) < 4 * (x.significand * scale) + 2 * scale := by
  have hlow : x.span.low * den = 4 * (x.significand * scale) - x.quartersBelow * scale := by
    simp only [span, units, ← hscale, Nat.sub_mul]
    congr 1 <;> ring
  have hhigh : x.span.high * den = 4 * (x.significand * scale) + 2 * scale := by
    simp only [span, units, ← hscale]
    ring
  have hmiddle : num * x.span.den = 4 * (num * unitsPerOne) := by
    simp only [span, unitsPerOne_eq]
    ring
  have hclosed : x.span.closed = decide (x.significand % 2 = 0) := rfl
  rw [x.span.holds_div_iff num hden, hlow, hhigh, hmiddle, hclosed]
  simp only [decide_eq_true_eq]

/-- A quotient is in the interval of the double that it is rounded to. -/
theorem holds_of_ofRatio? (hden : 0 < den) (h : ofRatio? negative num den = some x) :
    x.negative = negative ∧ x.span.Holds (num / den) := by
  obtain ⟨hlower, hupper, htie⟩ :=
    roundHalfEven_spec (num * unitsPerOne) (roundedUnit_pos num hden)
  change 2 * (roundedSignificand num den * _) ≤ _ at hlower
  change _ ≤ 2 * (roundedSignificand num den * _) + _ at hupper
  change roundedSignificand num den % 2 ≠ 0 → 2 * (roundedSignificand num den * _) ≠ _ ∧
    _ ≠ 2 * (roundedSignificand num den * _) + _ at htie
  obtain ⟨hbinade, -⟩ := binade num hden
  rw [ofRatio?_eq] at h
  generalize roundedSignificand num den = significand at *
  generalize roundedExponent num den = exponent at *
  split at h
  · next hcarry =>
    -- one too large is half as large in the next unit, and the interval reaches down less far
    obtain ⟨hnegative, hsignificand, hexponent⟩ := of_ofParts? h
    have hquarters : x.quartersBelow = 1 := if_pos ⟨hsignificand, by omega⟩
    have hscale : den * Nat.pow 2 x.exponent = 2 * (den * Nat.pow 2 exponent) := by
      rw [hexponent, Nat.pow_eq, Nat.pow_eq, pow_succ]
      ring
    have hhalf : Nat.pow 2 53 * (den * Nat.pow 2 exponent) =
        Nat.pow 2 52 * (2 * (den * Nat.pow 2 exponent)) := by
      rw [show Nat.pow 2 53 = Nat.pow 2 52 * 2 from rfl, mul_assoc]
    rw [hcarry, hhalf] at hlower hupper
    refine ⟨hnegative, (holds_div_iff num hden hscale).2 ?_⟩
    rw [hsignificand, hquarters, if_pos (by decide)]
    omega
  · next hcarry =>
    obtain ⟨hnegative, hsignificand, hexponent⟩ := of_ofParts? h
    refine ⟨hnegative, (holds_div_iff num hden rfl).2 ?_⟩
    have hquarters : x.quartersBelow = 2 ∨ x.quartersBelow = 1 ∧ significand = Nat.pow 2 52 ∧
        exponent ≠ 0 := by
      unfold quartersBelow
      rw [hsignificand, hexponent]
      split <;> omega
    rw [hexponent, hsignificand]
    generalize den * Nat.pow 2 exponent = scale at *
    rcases hquarters with htwo | ⟨hone, rfl, hexponent⟩
    · rw [htwo]
      split
      · omega
      · next hodd =>
        have hties := htie hodd
        have hpositive : scale ≤ significand * scale := Nat.le_mul_of_pos_left _ (by omega)
        omega
    · have := hbinade.resolve_left hexponent
      rw [hone, if_pos (by decide)]
      omega

theorem roundedExponent_le {bound : Nat}
    (h : num * unitsPerOne / den < Nat.pow 2 (53 + bound)) : roundedExponent num den ≤ bound := by
  unfold roundedExponent
  by_cases hzero : num * unitsPerOne / den = 0
  · simp [hzero]
  · have hlog := (Nat.log2_lt hzero).2 h
    omega

theorem ofParts?_eq {significand exponent : Nat} (hlt : significand < Nat.pow 2 53)
    (hnormal : Nat.pow 2 52 ≤ significand ∨ exponent = 0) (hle : exponent ≤ 2045) :
    ofParts? negative significand exponent =
      some ⟨negative, significand, exponent, hlt, hnormal, hle⟩ := dif_pos ⟨hlt, hnormal, hle⟩

theorem exists_unitsPerOne : ∃ places, places = 1074 ∧ unitsPerOne = Nat.pow 2 places :=
  ⟨1074, rfl, unitsPerOne_eq.symm⟩

/-- There is a double for a quotient that is not too large. -/
theorem exists_ofRatio? (negative : Bool) (hden : 0 < den) (h : num < Nat.pow 2 53 * den) :
    ∃ x, ofRatio? negative num den = some x := by
  obtain ⟨places, hplaces, hone⟩ := exists_unitsPerOne
  have hexponent : roundedExponent num den ≤ places := by
    apply roundedExponent_le
    rw [Nat.div_lt_iff_lt_mul hden, hone, Nat.pow_eq, Nat.pow_eq, pow_add]
    calc num * 2 ^ places < Nat.pow 2 53 * den * 2 ^ places :=
          Nat.mul_lt_mul_of_pos_right h (pow_two_pos _)
      _ = 2 ^ 53 * 2 ^ places * den := by
          rw [Nat.pow_eq]
          ring
  rw [ofRatio?_eq]
  split
  · exact ⟨_, ofParts?_eq (by decide) (.inl le_rfl) (by omega)⟩
  · next hcarry =>
    have hlt := Nat.lt_of_le_of_ne (roundedSignificand_le num hden) hcarry
    exact ⟨_, ofParts?_eq hlt (le_roundedSignificand num hden) (by omega)⟩

/-- Whole numbers of 53 bits are doubles. -/
theorem ofRatio?_whole {n : Nat} (hn : n < Nat.pow 2 53) :
    ∃ x, ofRatio? false n 1 = some x ∧ x.units = n * unitsPerOne := by
  obtain ⟨places, hplaces, hone⟩ := exists_unitsPerOne
  have hexponent : roundedExponent n 1 ≤ places := by
    apply roundedExponent_le
    rw [Nat.div_one, hone, Nat.pow_eq, Nat.pow_eq, pow_add]
    exact Nat.mul_lt_mul_of_pos_right hn (pow_two_pos _)
  have hscaled : n * unitsPerOne =
      n * Nat.pow 2 (places - roundedExponent n 1) * (1 * Nat.pow 2 (roundedExponent n 1)) := by
    rw [hone, one_mul, mul_assoc, Nat.pow_eq, Nat.pow_eq, Nat.pow_eq, ← pow_add,
      Nat.sub_add_cancel hexponent]
  have hsignificand : roundedSignificand n 1 = n * Nat.pow 2 (places - roundedExponent n 1) := by
    rw [roundedSignificand, hscaled]
    exact roundHalfEven_mul _ (roundedUnit_pos n Nat.one_pos)
  have hlt : roundedSignificand n 1 < Nat.pow 2 53 := by
    have hbinade := (binade n Nat.one_pos).2
    rw [hscaled, ← hsignificand] at hbinade
    exact Nat.lt_of_mul_lt_mul_right hbinade
  rw [ofRatio?_eq, if_neg hlt.ne]
  refine ⟨_, ofParts?_eq hlt (le_roundedSignificand n Nat.one_pos) (by omega), ?_⟩
  rw [hscaled, ← hsignificand, one_mul]
  rfl

/-! ## Decimals of fifteen digits -/

theorem div_pow_eq (digits places : Nat) :
    (digits : ℚ) / (10 ^ places : Nat) = digits * 10 ^ (-(places : Int)) := by
  rw [zpow_neg, zpow_natCast, div_eq_mul_inv, Nat.cast_pow, Nat.cast_ofNat]

/-- Only the least doubles have fewer than 53 bits, and they are far below `10^-22`. -/
theorem normal_of_holds {digits places : Nat} (hpos : 0 < digits) (hplaces : places ≤ 22)
    (h : x.span.Holds (digits * 10 ^ (-(places : Int)))) : Nat.pow 2 52 ≤ x.significand := by
  refine x.normal.resolve_right fun hexponent => ?_
  have hten : 0 < 10 ^ places := Nat.pow_pos (by omega)
  have hscale : 10 ^ places * Nat.pow 2 x.exponent = 10 ^ places := by
    rw [hexponent, Nat.pow_eq, pow_zero, mul_one]
  rw [← div_pow_eq, holds_div_iff digits hten hscale] at h
  have hupper : 4 * (digits * unitsPerOne) ≤
      4 * (x.significand * 10 ^ places) + 2 * 10 ^ places := by
    split at h <;> omega
  have hplaces' : 10 ^ places ≤ 10 ^ 22 := Nat.pow_le_pow_right (by omega) hplaces
  have hsignificand : x.significand * 10 ^ places ≤ Nat.pow 2 53 * 10 ^ 22 :=
    Nat.mul_le_mul x.significand_lt.le hplaces'
  have hsmall : (Nat.pow 2 53 + 1) * 10 ^ 22 < unitsPerOne := by
    unfold unitsPerOne
    decide +kernel
  have hdigits : unitsPerOne ≤ digits * unitsPerOne := Nat.le_mul_of_pos_left _ hpos
  omega

/-- A decimal of fifteen digits at most comes back from the digits of its double: in this interval
there is no other decimal on its grid. -/
theorem shortest_of_fifteen {digits places : Nat} (tie : Tie) (hpos : 0 < digits)
    (hdigits : digits < 10 ^ 15) (hplaces : places ≤ 22)
    (h : x.span.Holds (digits * 10 ^ (-(places : Int)))) :
    x.significand ≠ 0 ∧
      ((x.shortest tie).1 : ℚ) * 10 ^ (x.shortest tie).2 = digits * 10 ^ (-(places : Int)) := by
  have hnormal := normal_of_holds hpos hplaces h
  have hx : x.significand ≠ 0 := ((pow_two_pos 52).trans_le hnormal).ne'
  obtain ⟨hlower, hupper⟩ := near_of_holds hx h
  obtain ⟨hlead, hnext⟩ := lead_spec hx
  have hunit := x.unit_pos
  have hgrid : (0 : ℚ) < 10 ^ (-(places : Int)) := by positivity
  have hmagnitude : 2 ^ 52 * x.unit ≤ x.magnitude := by
    rw [magnitude_eq]
    exact mul_le_mul_of_nonneg_right (by exact_mod_cast hnormal) hunit.le
  have hmost : (digits : ℚ) * 10 ^ (-(places : Int)) < 10 ^ 15 * 10 ^ (-(places : Int)) :=
    mul_lt_mul_of_pos_right (by exact_mod_cast hdigits) hgrid
  have hfine : x.unit < 10 ^ (-(places : Int)) := by linarith
  refine ⟨hx, shortest_eq_of_holds hx tie h ?_ ?_ hfine⟩
  · have hlt : (10 : ℚ) ^ x.lead < 10 ^ (16 - (places : Int)) := by
      have hsixteen : (10 : ℚ) ^ (16 - (places : Int)) = 10 ^ 16 * 10 ^ (-(places : Int)) := by
        rw [sub_eq_add_neg, zpow_add₀ (by norm_num)]
        norm_num
      rw [hsixteen]
      linarith
    have := (zpow_lt_zpow_iff_right₀ (by norm_num)).1 hlt
    omega
  · rw [zpow_add_one₀ (by norm_num)] at hnext
    linarith

end PolicyExpr.Binary64
