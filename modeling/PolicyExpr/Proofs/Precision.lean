import Mathlib.RingTheory.Int.Basic
import Mathlib.Tactic.LinearCombination
import Mathlib.Tactic.NormNum.Prime
import PolicyExpr.Proofs.Exactness

/-!
# Products and quotients within the precision

A number may be written with some number of digits behind the point or not; a decimal needs as many
as its scale. There is a quotient exactly where no more digits are needed than a decimal may have,
and the reasons why there is none are told apart. This rests on a fraction in lowest terms, whose
digits cannot end in zero at the larger exponent of its denominator.

A product is refused for the sum of the scales of its factors, before zeros are dropped. So there is
none where too many digits are needed, but some are refused that need fewer.
-/
namespace PolicyExpr.Decimal

/-- The number is written with so many digits behind the point. -/
def Expands (x : ℚ) (places : Nat) : Prop := ∃ digits : Int, x = rational digits places

variable {a b : Decimal} {digits m n : Int} {scale places : Nat}

/-! ## Digits that are needed -/

/-- Fewer digits than written suffice exactly if the others are zeros. -/
theorem expands_rational_iff :
    Expands (rational digits scale) places ↔ 10 ^ (scale - places) ∣ digits := by
  -- At the larger of the two scales both sides are whole numbers of one unit.
  have hcommon (n : Int) : rational digits scale = rational n places ↔
      digits * 10 ^ (places - scale) = n * 10 ^ (scale - places) := by
    rw [← rational_shift digits scale (places - scale), ← rational_shift n places (scale - places),
      show scale + (places - scale) = places + (scale - places) by omega, rational_inj]
  simp only [Expands, hcommon]
  rcases Nat.le_total scale places with hle | hle
  · simp [Nat.sub_eq_zero_of_le hle]
  · simp only [Nat.sub_eq_zero_of_le hle, pow_zero, mul_one]
    exact ⟨fun ⟨n, h⟩ => Dvd.intro_left n h.symm, fun ⟨n, h⟩ => ⟨n, h.trans (mul_comm _ _)⟩⟩

theorem expands_iff_of_trimmed (h : scale = 0 ∨ ¬ 10 ∣ digits) :
    Expands (rational digits scale) places ↔ scale ≤ places := by
  rw [expands_rational_iff]
  refine ⟨fun hdvd => ?_, fun hle => by simp [Nat.sub_eq_zero_of_le hle]⟩
  by_contra hlt
  rcases h with hzero | hten
  · omega
  · exact hten ((dvd_pow_self 10 (by omega)).trans hdvd)

theorem expands_value_iff : Expands a.value places ↔ a.scale ≤ places :=
  expands_iff_of_trimmed a.canonical.2

/-! ## Factors of ten -/

theorem removeFactor_spec {p : Nat} (hp : 1 < p) {fuel n : Nat} (hn : 0 < n)
    (hfuel : n < p ^ fuel) :
    n = p ^ (removeFactor p fuel n).1 * (removeFactor p fuel n).2 ∧
      ¬ p ∣ (removeFactor p fuel n).2 := by
  induction fuel generalizing n with
  | zero =>
    rw [pow_zero] at hfuel
    omega
  | succ fuel ih =>
    unfold removeFactor
    split
    · next hmod =>
      have hdvd : p ∣ n := Nat.dvd_of_mod_eq_zero hmod
      have hpos : 0 < n / p := Nat.div_pos (Nat.le_of_dvd hn hdvd) (by omega)
      have hlt : n / p < p ^ fuel := Nat.div_lt_of_lt_mul (by rwa [← pow_succ'])
      obtain ⟨heq, hrest⟩ := ih hpos hlt
      refine ⟨?_, hrest⟩
      calc n = p * (n / p) := (Nat.mul_div_cancel' hdvd).symm
        _ = p * (p ^ (removeFactor p fuel (n / p)).1 * (removeFactor p fuel (n / p)).2) := by
          rw [← heq]
        _ = _ := by rw [pow_succ', mul_assoc]
    · next hmod => exact ⟨by simp, mt Nat.mod_eq_zero_of_dvd hmod⟩

theorem factorOut_spec {p n : Nat} (hp : 1 < p) (hn : 0 < n) :
    n = p ^ (factorOut p n).1 * (factorOut p n).2 ∧ ¬ p ∣ (factorOut p n).2 :=
  removeFactor_spec hp hn (Nat.lt_log2_self.trans_le (Nat.pow_le_pow_left hp _))

theorem factorOut_two_five {n : Nat} (hn : 0 < n) :
    let odd := (factorOut 2 n).2
    let rest := (factorOut 5 odd).2
    n = 2 ^ (factorOut 2 n).1 * 5 ^ (factorOut 5 odd).1 * rest ∧ ¬ 2 ∣ rest ∧ ¬ 5 ∣ rest := by
  intro odd rest
  obtain ⟨htwos, hodd⟩ := factorOut_spec one_lt_two hn
  have hpos : 0 < odd := by
    refine Nat.pos_of_ne_zero fun hzero => hodd ?_
    change 2 ∣ odd
    rw [hzero]
    exact dvd_zero 2
  obtain ⟨hfives, hrest⟩ := factorOut_spec (p := 5) (by norm_num) hpos
  refine ⟨?_, fun htwo => hodd ?_, hrest⟩
  · rw [mul_assoc, ← hfives, ← htwos]
  · change 2 ∣ odd
    rw [hfives]
    exact Dvd.dvd.mul_left htwo _

/-- A number that ten does not share a factor with divides no power of ten but is one. -/
theorem eq_one_of_dvd_pow_ten {rest k : Nat} (htwo : ¬ 2 ∣ rest) (hfive : ¬ 5 ∣ rest)
    (h : rest ∣ 10 ^ k) : rest = 1 := by
  have hten : Nat.Coprime 10 rest :=
    Nat.Coprime.mul_left ((Nat.Prime.coprime_iff_not_dvd (by norm_num)).2 htwo)
      ((Nat.Prime.coprime_iff_not_dvd (by norm_num)).2 hfive)
  exact (hten.pow_left k).symm.eq_one_of_dvd h

/-! ## Fractions in lowest terms -/

/-- A fraction in lowest terms that stands for a quotient of whole numbers. -/
structure LowestTerms (m n numerator : Int) (denominator : Nat) : Prop where
  positive : 0 < denominator
  coprime : IsCoprime numerator (denominator : Int)
  cross : numerator * n = m * denominator

theorem lowestTerms (m : Int) (hn : n ≠ 0) :
    LowestTerms m n (m / (Nat.gcd m.natAbs n.natAbs : Nat) * n.sign)
      (n.natAbs / Nat.gcd m.natAbs n.natAbs) := by
  have hpos : 0 < Int.gcd m n := Int.gcd_pos_of_ne_zero_right m hn
  obtain ⟨m', n', hcoprime, hm, hn'⟩ := Int.exists_gcd_one hpos
  change LowestTerms m n (m / (Int.gcd m n : Int) * n.sign) (n.natAbs / Int.gcd m n)
  generalize Int.gcd m n = g at *
  have hquotient : m / g = m' := by
    rw [hm, Int.mul_ediv_cancel _ (by omega)]
  have hsign : n.sign = n'.sign := by
    rw [hn', Int.sign_mul, Int.sign_natCast_of_ne_zero hpos.ne', mul_one]
  have hdenominator : n.natAbs / g = n'.natAbs := by
    rw [hn', Int.natAbs_mul, Int.natAbs_natCast, Nat.mul_div_cancel _ hpos]
  have hn0 : n' ≠ 0 := by
    rintro rfl
    exact hn (by rw [hn', zero_mul])
  rw [hquotient, hsign, hdenominator]
  refine ⟨Int.natAbs_pos.2 hn0, ?_, ?_⟩
  · rw [Int.isCoprime_iff_gcd_eq_one, Int.gcd, Int.natAbs_mul, Int.natAbs_sign_of_ne_zero hn0,
      mul_one, Int.natAbs_natCast]
    exact hcoprime
  · calc m' * n'.sign * n = m' * (n'.sign * n') * g := by rw [hn']; ring
      _ = m * (n'.natAbs : Int) := by rw [Int.sign_mul_self_eq_natAbs, hm]; ring

/-- At the larger exponent of its denominator a fraction in lowest terms has digits that do not end
in zero. -/
theorem LowestTerms.not_dvd {p q : Nat} (hp : p.Prime) (hpq : ¬ p ∣ q) {numerator : Int} {s t : Nat}
    (h : LowestTerms m n numerator (p ^ s * q ^ t)) (hs : 0 < s) (hle : t ≤ s)
    (hdigits : digits * (p ^ s * q ^ t : Nat) = numerator * (p * q : Nat) ^ s) :
    ¬ (p : Int) ∣ digits := by
  have hprime : Prime (p : Int) := Nat.prime_iff_prime_int.1 hp
  have hdenominator : ((p ^ s * q ^ t : Nat) : Int) ≠ 0 := by exact_mod_cast h.positive.ne'
  have hpower : ((p * q : Nat) : Int) ^ s = q ^ (s - t) * (p ^ s * q ^ t : Nat) := by
    have hq : (q : Int) ^ s = q ^ (s - t) * q ^ t := by rw [← pow_add, Nat.sub_add_cancel hle]
    push_cast
    rw [mul_pow, hq]
    ring
  have heq : digits = numerator * q ^ (s - t) := by
    apply mul_right_cancel₀ hdenominator
    rw [hdigits, hpower, mul_assoc]
  intro hdvd
  rw [heq] at hdvd
  rcases hprime.dvd_mul.1 hdvd with hnumerator | hpow
  · have hdvd : (p : Int) ∣ (p ^ s * q ^ t : Nat) :=
      Int.natCast_dvd_natCast.2 (Dvd.dvd.mul_right (dvd_pow_self p hs.ne') _)
    exact hprime.not_isUnit (h.coprime.isUnit_of_dvd' hnumerator hdvd)
  · exact hpq (Int.natCast_dvd_natCast.1 (hprime.dvd_of_dvd_pow hpow))

/-- The quotient as digits with a scale, where a power of ten makes the fraction whole. -/
theorem LowestTerms.value_div {numerator : Int} {denominator extra : Nat}
    (h : LowestTerms a.digits b.digits numerator denominator) (hb : b.digits ≠ 0)
    (hdigits : digits * denominator = numerator * 10 ^ extra) :
    a.value / b.value = rational (digits * 10 ^ (b.scale - (extra + a.scale)))
      (extra + a.scale - b.scale) := by
  have hb' : (b.digits : ℚ) ≠ 0 := by exact_mod_cast hb
  have hdenominator : (denominator : ℚ) ≠ 0 := by exact_mod_cast h.positive.ne'
  have hcross : (numerator : ℚ) * b.digits = a.digits * denominator := by exact_mod_cast h.cross
  have hdigits' : (digits : ℚ) * denominator = numerator * 10 ^ extra := by exact_mod_cast hdigits
  have hfraction : (a.digits : ℚ) * 10 ^ extra = digits * b.digits := by
    apply mul_right_cancel₀ hdenominator
    linear_combination b.digits * hdigits'.symm + 10 ^ extra * hcross.symm
  have hpower : (10 : ℚ) ^ b.scale * 10 ^ (extra + a.scale - b.scale) =
      10 ^ (b.scale - (extra + a.scale)) * (10 ^ extra * 10 ^ a.scale) := by
    simp only [← pow_add]
    congr 1
    omega
  unfold value rational
  push_cast
  rw [div_div_div_eq, div_eq_div_iff (by positivity) (by positivity)]
  linear_combination a.digits * hpower + 10 ^ (b.scale - (extra + a.scale)) * 10 ^ a.scale * hfraction

/-- Where the quotient has a finite expansion, the denominator has no factors but those of ten. -/
theorem LowestTerms.dvd_pow_ten {numerator : Int} {denominator : Nat}
    (h : LowestTerms a.digits b.digits numerator denominator) (hb : b.digits ≠ 0)
    (hx : Expands (a.value / b.value) places) : denominator ∣ 10 ^ (b.scale + places) := by
  obtain ⟨digits, hx⟩ := hx
  have hb' : (b.digits : ℚ) ≠ 0 := by exact_mod_cast hb
  have hdigits : a.digits * 10 ^ (b.scale + places) = digits * (10 ^ a.scale * b.digits) := by
    unfold value rational at hx
    rw [div_div_div_eq, div_eq_div_iff (by positivity) (by positivity)] at hx
    rw [pow_add, ← mul_assoc]
    exact_mod_cast hx
  have hwhole : numerator * 10 ^ (b.scale + places) = denominator * (digits * 10 ^ a.scale) := by
    apply mul_right_cancel₀ hb
    linear_combination 10 ^ (b.scale + places) * h.cross + denominator * hdigits
  have hdvd : (denominator : Int) ∣ 10 ^ (b.scale + places) :=
    h.coprime.symm.dvd_of_dvd_mul_left (Dvd.intro _ hwhole.symm)
  exact_mod_cast hdvd

/-- The digits of the quotient do not end in zero behind the point. -/
theorem LowestTerms.trimmed {numerator : Int} {twos fives : Nat}
    (h : LowestTerms a.digits b.digits numerator (2 ^ twos * 5 ^ fives))
    (hdigits : digits * (2 ^ twos * 5 ^ fives : Nat) = numerator * 10 ^ max twos fives) :
    max twos fives + a.scale - b.scale = 0 ∨
      ¬ 10 ∣ digits * 10 ^ (b.scale - (max twos fives + a.scale)) := by
  refine or_iff_not_imp_left.2 fun hpositive hten => ?_
  rw [Nat.sub_eq_zero_of_le (by omega), pow_zero, mul_one] at hten
  rcases Nat.eq_zero_or_pos (max twos fives) with hextra | hextra
  · -- The quotient of the digits is whole, and ends in zero only if the dividend is.
    obtain ⟨rfl, rfl⟩ : twos = 0 ∧ fives = 0 := by omega
    have hcross := h.cross
    have hscale : a.scale ≠ 0 := by omega
    simp only [pow_zero, mul_one, Nat.cast_one, max_self] at hdigits hcross
    rw [hdigits] at hten
    exact (a.canonical.2.resolve_left hscale) (hcross ▸ Dvd.dvd.mul_right hten _)
  · rcases Nat.le_total fives twos with hle | hle
    · rw [max_eq_left hle] at hdigits hextra
      exact h.not_dvd Nat.prime_two (by norm_num) hextra hle hdigits
        ((by norm_num : (2 : Int) ∣ 10).trans hten)
    · rw [max_eq_right hle] at hdigits hextra
      rw [mul_comm (2 ^ twos)] at h hdigits
      exact h.not_dvd Nat.prime_five (by norm_num) hextra hle hdigits
        ((by norm_num : (5 : Int) ∣ 10).trans hten)

/-! ## Quotients -/

/-- What a quotient can be. -/
inductive Division (a b : Decimal) : Except ArithmeticError Decimal → Prop where
  | divisionByZero (hb : b.digits = 0) : Division a b (.error .divisionByZero)
  | notFinite (hb : b.digits ≠ 0) (h : ∀ places, ¬ Expands (a.value / b.value) places) :
    Division a b (.error (.notFinite a b))
  | precision (hb : b.digits ≠ 0) (h : ∃ places, Expands (a.value / b.value) places)
    (hmax : ¬ Expands (a.value / b.value) maxScale) : Division a b (.error .precision)
  | exact {q : Decimal} (hb : b.digits ≠ 0) (h : q.value = a.value / b.value) :
    Division a b (.ok q)

/-- A fraction whose denominator has no factors but those of ten has a quotient, unless that needs
too many digits. -/
theorem LowestTerms.division {numerator : Int} {twos fives : Nat} (hb : b.digits ≠ 0)
    (h : LowestTerms a.digits b.digits numerator (2 ^ twos * 5 ^ fives))
    (hdigits : digits * (2 ^ twos * 5 ^ fives : Nat) = numerator * 10 ^ max twos fives) :
    Division a b (if b.scale ≤ max twos fives + a.scale then
        if h : max twos fives + a.scale - b.scale ≤ maxScale then .ok (ofDigits digits _ h)
        else .error .precision
      else .ok (ofInt (digits * Nat.pow 10 (b.scale - (max twos fives + a.scale))))) := by
  have hvalue := h.value_div hb hdigits
  have htrimmed := h.trimmed hdigits
  split
  · next hle =>
    rw [Nat.sub_eq_zero_of_le hle, pow_zero, mul_one] at hvalue htrimmed
    split
    · next hmax => exact .exact hb ((value_ofDigits hmax).trans hvalue.symm)
    · next hmax =>
      refine .precision hb ⟨_, _, hvalue⟩ ?_
      rwa [hvalue, expands_iff_of_trimmed htrimmed]
  · next hlt =>
    rw [Nat.sub_eq_zero_of_le (Nat.le_of_not_le hlt)] at hvalue
    exact .exact hb (by simpa [value, ofInt] using hvalue.symm)

theorem division_divide (a b : Decimal) : Division a b (a.divide b) := by
  unfold divide
  split
  · next hb => exact .divisionByZero hb
  · next hb =>
    dsimp only
    have hlowest := lowestTerms a.digits hb
    generalize a.digits / (Nat.gcd a.digits.natAbs b.digits.natAbs : Nat) * b.digits.sign =
      numerator at *
    generalize b.digits.natAbs / Nat.gcd a.digits.natAbs b.digits.natAbs = denominator at *
    obtain ⟨hfactors, htwo, hfive⟩ := factorOut_two_five hlowest.positive
    generalize (factorOut 2 denominator).1 = twos at *
    generalize factorOut 5 (factorOut 2 denominator).2 = fivesRest at *
    obtain ⟨fives, rest⟩ := fivesRest
    dsimp only at *
    split
    · next hrest =>
      refine .notFinite hb fun places hx => hrest ?_
      exact eq_one_of_dvd_pow_ten htwo hfive
        ((Dvd.intro_left _ hfactors.symm).trans (hlowest.dvd_pow_ten hb hx))
    · next hrest =>
      rw [not_not.1 hrest, mul_one] at hfactors
      subst hfactors
      refine hlowest.division hb ?_
      have hdvd : 2 ^ twos * 5 ^ fives ∣ Nat.pow 10 (max twos fives) := by
        change _ ∣ (2 * 5) ^ max twos fives
        rw [mul_pow]
        exact mul_dvd_mul (pow_dvd_pow 2 (le_max_left _ _)) (pow_dvd_pow 5 (le_max_right _ _))
      rw [Int.ediv_mul_cancel (Dvd.dvd.mul_left (Int.natCast_dvd_natCast.2 hdvd) _)]
      simp

theorem digits_eq_zero_iff : b.digits = 0 ↔ b = zero := by
  have hzero : zero.value = 0 := by simp [value, rational, zero, ofInt]
  rw [← value_eq_zero_iff, ← hzero, value_inj]

/-- Division is exact and complete. There is a quotient exactly where the divisor is not zero and
the number is written with no more digits behind the point than a decimal may have, and it is
canonical and exact. Otherwise the divisor is zero, or no number of digits is enough, or more are
needed than a decimal may have, and the error says which. -/
theorem divide_exact_and_complete (a b : Decimal) :
    ((∃ q, a.divide b = .ok q) ↔ b ≠ zero ∧ Expands (a.value / b.value) maxScale) ∧
    (∀ q, a.divide b = .ok q → Canonical q.digits q.scale ∧ q.value * b.value = a.value) ∧
    (a.divide b = .error .divisionByZero ↔ b = zero) ∧
    (a.divide b = .error (.notFinite a b) ↔
      b ≠ zero ∧ ¬ ∃ places, Expands (a.value / b.value) places) ∧
    (a.divide b = .error .precision ↔
      b ≠ zero ∧ (∃ places, Expands (a.value / b.value) places) ∧
        ¬ Expands (a.value / b.value) maxScale) := by
  rw [Ne, ← digits_eq_zero_iff]
  have hdivision := division_divide a b
  generalize a.divide b = r at hdivision
  cases hdivision with
  | divisionByZero hb => simp [hb]
  | notFinite hb h => simp [hb, h]
  | precision hb h hmax => simp [hb, h, hmax]
  | @exact q hb h =>
    have hb' : b.value ≠ 0 := mt value_eq_zero_iff.1 hb
    have hmax : Expands (a.value / b.value) maxScale := h ▸ expands_value_iff.2 q.scale_le
    have hexact : q.value * b.value = a.value := by rw [h, div_mul_cancel₀ _ hb']
    simp only [reduceCtorEq, false_iff, Except.ok.injEq, exists_eq', forall_eq', true_iff]
    exact ⟨⟨hb, hmax⟩, ⟨q.canonical, hexact⟩, hb, fun h => h.2 ⟨_, hmax⟩, fun h => h.2.2 hmax⟩

/-! ## Products -/

theorem mul_eq_error_iff {e : ArithmeticError} :
    a.mul b = .error e ↔ e = .precision ∧ maxScale < a.scale + b.scale := by
  unfold mul
  split
  · next h => simp [h]
  · next h => simp [Nat.lt_of_not_le h, eq_comm]

theorem expands_mul_iff : Expands (a.value * b.value) maxScale ↔
    10 ^ (a.scale + b.scale - maxScale) ∣ a.digits * b.digits := by
  rw [value, value, ← rational_mul, expands_rational_iff]

/-- Multiplication is exact, and refused for the sum of the scales. So there is no product where
more digits are needed than a decimal may have, and also none where fewer are needed because the
digits of the product end in as many zeros as the sum is too large. -/
theorem mul_exact_within_scales (a b : Decimal) :
    ((∃ c, a.mul b = .ok c) ↔ a.scale + b.scale ≤ maxScale) ∧
    (∀ c, a.mul b = .ok c → Canonical c.digits c.scale ∧ c.value = a.value * b.value) ∧
    (a.mul b = .error .precision ↔ ¬ Expands (a.value * b.value) maxScale ∨
      maxScale < a.scale + b.scale ∧
        10 ^ (a.scale + b.scale - maxScale) ∣ a.digits * b.digits) := by
  refine ⟨⟨fun ⟨c, hc⟩ => ?_, exists_mul⟩, fun c hc => ⟨c.canonical, value_of_mul hc⟩, ?_⟩
  · by_contra hlt
    rw [mul_eq_error_iff.2 ⟨rfl, Nat.lt_of_not_le hlt⟩] at hc
    cases hc
  · rw [mul_eq_error_iff, expands_mul_iff]
    by_cases hlt : maxScale < a.scale + b.scale
    · simp [hlt, em']
    · simp [hlt, Nat.sub_eq_zero_of_le (Nat.le_of_not_lt hlt)]

/-- One fifth of `5e-10000` is a decimal, but as a product it is refused. -/
theorem mul_refuses_expandable :
    ∃ a b c, ofText "5e-10000" = .ok a ∧ ofText "0.2" = .ok b ∧ ofText "1e-10000" = .ok c ∧
      a.value * b.value = c.value ∧ Expands (a.value * b.value) maxScale ∧
      a.mul b = .error .precision := by
  have hvalue : rational 5 10000 * rational 2 1 = rational 1 10000 := by
    rw [← rational_mul]
    exact rational_succ 1 10000
  refine ⟨⟨5, 10000, by decide, .inr (by decide)⟩, ⟨2, 1, by decide, .inr (by decide)⟩,
    tenth 10000 (by decide), by decide +kernel, by decide +kernel, by decide +kernel, hvalue,
    ⟨1, hvalue⟩, mul_eq_error_iff.2 ⟨rfl, by decide⟩⟩

end PolicyExpr.Decimal
