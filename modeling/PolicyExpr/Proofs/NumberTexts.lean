import PolicyExpr.Function
import PolicyExpr.Operator.Arithmetic
import PolicyExpr.Proofs.PlainNotation
import PolicyExpr.Proofs.Rounding
import PolicyExpr.Proofs.RoundTrip

/-!
# Texts of numbers

A number is turned into text as the number of a document, so the text is that of a 64-bit word or of
a double. It is a numeral, and means the word or the shortest digits of the double. Different words
and doubles have different texts, but many numbers become one double.
-/
namespace PolicyExpr.Decimal

/-! ## Digits on a grid -/

/-- The exponent of the leading digit of a number on a grid. -/
def leadOf (value : Nat) (grid : Int) : Int := grid + (Nat.toDigits 10 value).length - 1

/-- The exponent of a text, which always has a sign. -/
def signedExponent (lead : Int) : Exponent :=
  ⟨'e', if lead < 0 then .minus else .plus, Nat.toDigits 10 lead.natAbs⟩

/-- How the digits of a number on a grid are laid out: with a point where the leading digit is not
far from it, and in scientific notation otherwise. -/
inductive LaidOut (sign : Sign) (value : Nat) (grid : Int) : Numeral → Prop where
  | whole (hnear : -5 ≤ leadOf value grid ∧ leadOf value grid ≤ 15) (hgrid : 0 ≤ grid) :
    LaidOut sign value grid
      ⟨sign, Nat.toDigits 10 value ++ List.replicate grid.toNat '0', some ['0'], none⟩
  | pointed (hnear : -5 ≤ leadOf value grid ∧ leadOf value grid ≤ 15) (hgrid : grid < 0)
    (hlead : 0 ≤ leadOf value grid) :
    LaidOut sign value grid
      ⟨sign, (Nat.toDigits 10 value).take ((leadOf value grid).toNat + 1),
        some ((Nat.toDigits 10 value).drop ((leadOf value grid).toNat + 1)), none⟩
  | small (hnear : -5 ≤ leadOf value grid ∧ leadOf value grid ≤ 15) (hgrid : grid < 0)
    (hlead : leadOf value grid < 0) :
    LaidOut sign value grid
      ⟨sign, ['0'],
        some (List.replicate (-leadOf value grid - 1).toNat '0' ++ Nat.toDigits 10 value), none⟩
  | scientific (hfar : ¬(-5 ≤ leadOf value grid ∧ leadOf value grid ≤ 15)) :
    LaidOut sign value grid
      ⟨sign, (Nat.toDigits 10 value).take 1,
        if (Nat.toDigits 10 value).length ≤ 1 then none else some ((Nat.toDigits 10 value).drop 1),
        some (signedExponent (leadOf value grid))⟩

/-- The text of digits on a grid. -/
def digitsText (value : Nat) (grid : Int) : List Char :=
  let digits := Nat.toDigits 10 value
  let lead := leadOf value grid
  if -5 ≤ lead ∧ lead ≤ 15 then
    if 0 ≤ grid then digits ++ List.replicate grid.toNat '0' ++ ['.', '0']
    else if 0 ≤ lead then
      digits.take (lead.toNat + 1) ++ '.' :: digits.drop (lead.toNat + 1)
    else ['0', '.'] ++ List.replicate (-lead - 1).toNat '0' ++ digits
  else
    digits.take 1 ++ (if digits.length ≤ 1 then [] else '.' :: digits.drop 1) ++
      ['e', if lead < 0 then '-' else '+'] ++ Nat.toDigits 10 lead.natAbs

namespace LaidOut

variable {sign : Sign} {value : Nat} {grid : Int} {m : Numeral}

/-- The text of digits is a layout of them. -/
theorem exists_of_text (sign : Sign) (value : Nat) (grid : Int) :
    ∃ m, LaidOut sign value grid m ∧ m.chars = sign.chars ++ digitsText value grid := by
  have hchars (whole : List Char) (fraction : Option (List Char)) (x : Option Exponent) :
      (⟨sign, whole, fraction, x⟩ : Numeral).chars =
        sign.chars ++ (whole ++ fraction.elim [] ('.' :: ·) ++ x.elim [] Exponent.chars) := by
    simp [Numeral.chars, Numeral.mantissa, Numeral.unsigned]
  unfold digitsText
  dsimp only
  by_cases hnear : -5 ≤ leadOf value grid ∧ leadOf value grid ≤ 15
  · rw [if_pos hnear]
    by_cases hgrid : 0 ≤ grid
    · rw [if_pos hgrid]
      exact ⟨_, .whole hnear hgrid, by simp [hchars]⟩
    · rw [if_neg hgrid]
      by_cases hlead : 0 ≤ leadOf value grid
      · rw [if_pos hlead]
        exact ⟨_, .pointed hnear (not_le.1 hgrid) hlead, by simp [hchars]⟩
      · rw [if_neg hlead]
        exact ⟨_, .small hnear (not_le.1 hgrid) (not_le.1 hlead), by simp [hchars]⟩
  · rw [if_neg hnear]
    refine ⟨_, .scientific hnear, ?_⟩
    have hexponent : (signedExponent (leadOf value grid)).chars =
        ['e', if leadOf value grid < 0 then '-' else '+'] ++
          Nat.toDigits 10 (leadOf value grid).natAbs := by
      unfold signedExponent Exponent.chars
      split <;> rfl
    rw [hchars, Option.elim_some, hexponent]
    by_cases hone : (Nat.toDigits 10 value).length ≤ 1 <;> simp [hone]

theorem sign_eq (h : LaidOut sign value grid m) : m.sign = sign := by
  cases h <;> rfl

theorem value_signedExponent (lead : Int) : (signedExponent lead).value = lead := by
  rw [Exponent.value, ← signed_eq, signedExponent, number, Nat.ofDigitChars_ten_toDigits]
  by_cases hnegative : lead < 0
  · rw [if_pos hnegative]
    change -(lead.natAbs : Int) = lead
    omega
  · rw [if_neg hnegative]
    change (lead.natAbs : Int) = lead
    omega

/-- The digits are those of the number with zeros on either side, and each zero behind them counts
for a place of the grid. -/
theorem digits (h : LaidOut sign value grid m) : ∃ before behind : Nat,
    m.whole ++ m.fractionDigits =
      List.replicate before '0' ++ (Nat.toDigits 10 value ++ List.replicate behind '0') ∧
    m.shift - m.places = grid - behind ∧ behind ≤ grid.toNat + 1 := by
  have hlength : 0 < (Nat.toDigits 10 value).length := Nat.length_toDigits_pos
  have hlead : leadOf value grid = grid + (Nat.toDigits 10 value).length - 1 := rfl
  cases h with
  | whole hnear hgrid =>
    refine ⟨0, grid.toNat + 1, ?_, ?_, le_rfl⟩
    · simp [Numeral.fractionDigits, List.replicate_succ']
    · simp [Numeral.shift, Numeral.places, Numeral.fractionDigits]
      omega
  | pointed hnear hgrid hpoint =>
    refine ⟨0, 0, ?_, ?_, Nat.zero_le _⟩
    · simp [Numeral.fractionDigits]
    · simp [Numeral.shift, Numeral.places, Numeral.fractionDigits]
      omega
  | small hnear hgrid hpoint =>
    refine ⟨(-leadOf value grid - 1).toNat + 1, 0, ?_, ?_, Nat.zero_le _⟩
    · simp [Numeral.fractionDigits, List.replicate_succ]
    · simp [Numeral.shift, Numeral.places, Numeral.fractionDigits]
      omega
  | scientific hfar =>
    have hfraction : (if (Nat.toDigits 10 value).length ≤ 1 then none
        else some ((Nat.toDigits 10 value).drop 1)).getD [] = (Nat.toDigits 10 value).drop 1 := by
      split
      · next hone => exact (List.drop_eq_nil_of_le hone).symm
      · rfl
    refine ⟨0, 0, ?_, ?_, Nat.zero_le _⟩
    · simp only [Numeral.fractionDigits, hfraction, List.replicate_zero, List.nil_append,
        List.append_nil, List.take_append_drop]
    · simp only [Numeral.shift, Numeral.places, Numeral.fractionDigits, hfraction, Option.elim_some,
        value_signedExponent, List.length_drop]
      omega

theorem number_eq (value before behind : Nat) : number (List.replicate before '0' ++
    (Nat.toDigits 10 value ++ List.replicate behind '0')) = value * 10 ^ behind := by
  rw [number, Nat.ofDigitChars_append, Nat.ofDigitChars_replicate_zero, Nat.mul_zero,
    Nat.ofDigitChars_append, Nat.ofDigitChars_ten_toDigits, Nat.ofDigitChars_replicate_zero,
    mul_comm]

/-- However it is laid out, a numeral means the number on its grid. -/
theorem value_eq (h : LaidOut sign value grid m) : m.value = sign.factor * value * 10 ^ grid := by
  obtain ⟨before, behind, hdigits, hshift, -⟩ := h.digits
  rw [Numeral.value_eq, hshift, Numeral.digits, hdigits, number_eq, h.sign_eq,
    zpow_sub₀ (by norm_num), zpow_natCast]
  push_cast
  field_simp

theorem inRange (h : LaidOut sign value grid m) (hleast : -340 ≤ grid) (hlargest : grid ≤ 340) :
    m.InRange := by
  obtain ⟨before, behind, -, hshift, hbehind⟩ := h.digits
  have hmax : maxScale = 10000 := rfl
  rw [Numeral.InRange, hmax, abs_le]
  omega

theorem wellFormed_signedExponent {lead : Int} (hleast : -1000 ≤ lead) (hlargest : lead ≤ 1000) :
    (signedExponent lead).WellFormed where
  mark := .inl rfl
  nonempty := Nat.toDigits_ne_nil
  digits := Json.isDigit_toDigits _
  least := by
    rw [value_signedExponent]
    unfold minInt64
    omega
  largest := by
    rw [value_signedExponent]
    unfold maxInt64
    omega

theorem isDigit (h : LaidOut sign value grid m) :
    ∀ c ∈ m.whole ++ m.fractionDigits, c.isDigit = true := by
  obtain ⟨before, behind, hdigits, -, -⟩ := h.digits
  intro c hc
  rw [hdigits, List.mem_append, List.mem_append, List.mem_replicate, List.mem_replicate] at hc
  rcases hc with ⟨-, rfl⟩ | hc | ⟨-, rfl⟩
  · rfl
  · exact Json.isDigit_toDigits value c hc
  · rfl

theorem wellFormed (h : LaidOut sign value grid m) (hvalue : value ≤ 10 ^ 17) (hleast : -340 ≤ grid)
    (hlargest : grid ≤ 340) : m.WellFormed := by
  obtain ⟨before, behind, hdigits, -, -⟩ := h.digits
  refine ⟨?_, h.isDigit, ?_⟩
  · rw [hdigits]
    simp [Nat.toDigits_ne_nil]
  · intro x hx
    have hlength : (Nat.toDigits 10 value).length ≤ 18 :=
      (Nat.length_toDigits_le_iff (by omega) (by omega)).2 (by omega)
    have hlead : leadOf value grid = grid + (Nat.toDigits 10 value).length - 1 := rfl
    cases h with
    | whole => cases hx
    | pointed => cases hx
    | small => cases hx
    | scientific =>
      cases hx
      exact wellFormed_signedExponent (by omega) (by omega)

/-- A number that is not zero has its leading digit where the layout puts it. -/
theorem bounds (hpos : 0 < value) (grid : Int) :
    (10 : ℚ) ^ leadOf value grid ≤ value * 10 ^ grid ∧
      (value : ℚ) * 10 ^ grid < 10 ^ (leadOf value grid + 1) := by
  obtain ⟨hlower, hupper⟩ := Binary64.pow_length_toDigits hpos
  have hlength : 0 < (Nat.toDigits 10 value).length := Nat.length_toDigits_pos
  have hten : (10 : ℚ) ≠ 0 := by norm_num
  have hgrid : (0 : ℚ) < 10 ^ grid := by positivity
  have hlead : leadOf value grid = ((Nat.toDigits 10 value).length - 1 : Nat) + grid := by
    unfold leadOf
    omega
  have hnext : leadOf value grid + 1 = ((Nat.toDigits 10 value).length : Nat) + grid := by
    unfold leadOf
    omega
  rw [hnext, hlead, zpow_add₀ hten, zpow_add₀ hten, zpow_natCast, zpow_natCast,
    mul_le_mul_iff_of_pos_right hgrid, mul_lt_mul_iff_of_pos_right hgrid]
  exact ⟨by exact_mod_cast hlower, by exact_mod_cast hupper⟩

/-- The leading digit is near the point for numbers from `10^-5` up to `10^16`. -/
theorem near_iff (hpos : 0 < value) (grid : Int) :
    -5 ≤ leadOf value grid ∧ leadOf value grid ≤ 15 ↔
      10 ^ (-5 : Int) ≤ (value : ℚ) * 10 ^ grid ∧ (value : ℚ) * 10 ^ grid < 10 ^ (16 : Int) := by
  obtain ⟨hlower, hupper⟩ := bounds hpos grid
  have hten : (1 : ℚ) < 10 := by norm_num
  constructor
  · rintro ⟨hleast, hlargest⟩
    exact ⟨(zpow_le_zpow_right₀ hten.le hleast).trans hlower,
      hupper.trans_le (zpow_le_zpow_right₀ hten.le (by omega))⟩
  · rintro ⟨hleast, hlargest⟩
    have hbelow := (zpow_lt_zpow_iff_right₀ hten).1 (hleast.trans_lt hupper)
    have habove := (zpow_lt_zpow_iff_right₀ hten).1 (hlower.trans_lt hlargest)
    omega

theorem exists_nonzero (h : LaidOut sign value grid m) (hpos : 0 < value) :
    ∃ c ∈ m.whole ++ m.fractionDigits, c ≠ '0' := by
  obtain ⟨before, behind, hdigits, -, -⟩ := h.digits
  by_contra hzeros
  push Not at hzeros
  have hzero := (number_eq_zero_iff h.isDigit).2 hzeros
  rw [hdigits, number_eq] at hzero
  have := Nat.mul_pos hpos (Nat.pow_pos (n := behind) (by omega : 0 < 10))
  omega

/-- Digits that do not end in zero are laid out plainly where a point is put among or in front of
them. -/
theorem plain (h : LaidOut sign value grid m) (hsign : sign ≠ .plus) (htrimmed : ¬ 10 ∣ value)
    (hnear : -5 ≤ leadOf value grid ∧ leadOf value grid ≤ 15) (hgrid : grid < 0) : m.Plain := by
  have hpos : 0 < value := Nat.pos_of_ne_zero fun hzero => htrimmed (hzero ▸ Nat.dvd_zero 10)
  have hlast := getLast?_toDigits_ne (mt Nat.dvd_of_mod_eq_zero htrimmed)
  have hdigits := h.isDigit
  have hnonzero := h.exists_nonzero hpos
  cases h with
  | whole _ hwhole => omega
  | scientific hfar => exact absurd hnear hfar
  | pointed _ _ hlead =>
    have hbehind : (leadOf value grid).toNat + 1 < (Nat.toDigits 10 value).length := by
      unfold leadOf at *
      omega
    refine ⟨hsign, rfl, hdigits, ?_, fun hhead => ?_, fun hpoint => ?_, ?_, fun _ => hnonzero⟩
    · exact List.ne_nil_of_length_pos (by rw [List.length_take]; omega)
    · rw [List.head?_take, if_neg (by omega)] at hhead
      exact absurd hhead (Json.head?_toDigits hpos)
    · have hlength := congrArg List.length (Option.some.inj hpoint)
      rw [List.length_drop, List.length_nil] at hlength
      omega
    · change ((Nat.toDigits 10 value).drop _).getLast? ≠ _
      rw [List.getLast?_drop, if_neg (by omega)]
      exact hlast
  | small _ _ hlead =>
    refine ⟨hsign, rfl, hdigits, by simp, fun _ => rfl, fun hpoint => ?_, ?_, fun _ => hnonzero⟩
    · exact List.append_ne_nil_of_right_ne_nil _ Nat.toDigits_ne_nil (Option.some.inj hpoint)
    · change (_ ++ Nat.toDigits 10 value).getLast? ≠ _
      rw [List.getLast?_append_of_ne_nil _ Nat.toDigits_ne_nil]
      exact hlast

/-- Where no point is put among or in front of the digits, the text has an exponent or ends in a
zero behind the point. -/
theorem chars_cases (h : LaidOut sign value grid m) : 'e' ∈ m.chars ∨ '.' ∈ m.chars ∧
    (m.chars.getLast? = some '0' ∨
      (-5 ≤ leadOf value grid ∧ leadOf value grid ≤ 15) ∧ grid < 0) := by
  cases h with
  | whole hnear hgrid =>
    refine .inr ⟨?_, .inl ?_⟩
    · simp [Numeral.chars, Numeral.mantissa, Numeral.unsigned]
    · simp [Numeral.chars, Numeral.mantissa, Numeral.unsigned, List.getLast?_append]
  | pointed hnear hgrid _ =>
    refine .inr ⟨?_, .inr ⟨hnear, hgrid⟩⟩
    simp [Numeral.chars, Numeral.mantissa, Numeral.unsigned]
  | small hnear hgrid _ =>
    refine .inr ⟨?_, .inr ⟨hnear, hgrid⟩⟩
    simp [Numeral.chars, Numeral.mantissa, Numeral.unsigned]
  | scientific _ =>
    left
    simp [Numeral.chars, signedExponent, Exponent.chars]

end LaidOut

/-! ## Characters of plain notation -/

variable {a : Decimal}

theorem mem_chars {c : Char} (h : c ∈ a.chars) :
    c = '-' ∨ c.isDigit = true ∨ c = '.' ∧ a.scale ≠ 0 := by
  have hpadded := a.isDigit_paddedDigits
  rw [← a.whole_append_fraction] at hpadded
  rw [chars, List.mem_append, List.mem_append] at h
  rcases h with (hsign | hwhole) | hfraction
  · split at hsign
    · exact .inl (List.mem_singleton.1 hsign)
    · cases hsign
  · exact .inr (.inl (hpadded c (List.mem_append_left _ hwhole)))
  · split at hfraction
    · cases hfraction
    · next hscale =>
      rcases List.mem_cons.1 hfraction with rfl | hdigit
      · exact .inr (.inr ⟨rfl, hscale⟩)
      · exact .inr (.inl (hpadded c (List.mem_append_right _ hdigit)))

theorem exponent_notMem_chars : 'e' ∉ a.chars := by
  intro h
  rcases mem_chars h with h | h | ⟨h, -⟩
  · cases h
  · cases h
  · cases h

/-- Behind a point plain notation does not end in zero. -/
theorem of_point_mem_chars (h : '.' ∈ a.chars) :
    a.scale ≠ 0 ∧ a.chars.getLast? ≠ some '0' := by
  have hscale : a.scale ≠ 0 := by
    rcases mem_chars h with h | h | ⟨-, h⟩
    · cases h
    · cases h
    · exact h
  have hfraction : a.fractionDigits ≠ [] :=
    List.ne_nil_of_length_pos (by rw [a.length_fractionDigits]; omega)
  refine ⟨hscale, ?_⟩
  rw [chars, if_neg hscale, List.getLast?_append_of_ne_nil _ (List.cons_ne_nil _ _),
    List.getLast?_cons_of_ne_nil hfraction]
  exact a.getLast?_fractionDigits

end PolicyExpr.Decimal

namespace PolicyExpr.Json

open Decimal (Sign LaidOut leadOf digitsText)

/-! ## Numbers of documents -/

/-- The sign in front of a double. -/
def sign (x : Binary64) : Sign := if x.negative then .minus else .absent

/-- The number that the text of a number means: of a double, that of its shortest digits. -/
def Number.shown : Number → ℚ
  | .int n => n
  | .float x =>
    if x.isZero then 0
    else (sign x).factor * (x.shortest .even).1 * 10 ^ (x.shortest .even).2

variable {x : Binary64} {n : Decimal}

theorem sign_ne_plus (x : Binary64) : sign x ≠ .plus := by
  unfold sign
  split <;> nofun

theorem isMinus_sign (x : Binary64) : (sign x).isMinus = x.negative := by
  unfold sign
  cases x.negative <;> rfl

theorem sign_chars (x : Binary64) : (sign x).chars = if x.negative then ['-'] else [] := by
  unfold sign
  split <;> rfl

theorem abs_factor (x : Binary64) : |((sign x).factor : ℚ)| = 1 := by
  unfold sign
  split <;> simp [Sign.factor, Sign.isMinus]

theorem isZero_eq_false_iff : x.isZero = false ↔ x.significand ≠ 0 := beq_eq_false_iff_ne

theorem readsBack (hx : x.isZero = false) :
    x.ReadsBack (x.shortest .even).1 (x.shortest .even).2 :=
  Binary64.readsBack_shortest (isZero_eq_false_iff.1 hx) .even

/-- The text of a double that is not zero is a layout of its shortest digits. -/
theorem exists_laidOut (hx : x.isZero = false) : ∃ m,
    LaidOut (sign x) (x.shortest .even).1 (x.shortest .even).2 m ∧
      m.chars = (Number.float x).chars := by
  have htext : magnitudeText x = digitsText (x.shortest .even).1 (x.shortest .even).2 :=
    if_neg (by simp [hx])
  obtain ⟨m, hm, hchars⟩ :=
    LaidOut.exists_of_text (sign x) (x.shortest .even).1 (x.shortest .even).2
  exact ⟨m, hm, by rw [hchars, ← htext, sign_chars]; rfl⟩

theorem chars_zero (hx : x.isZero = true) :
    (Number.float x).chars = (sign x).chars ++ ['0', '.', '0'] := by
  rw [sign_chars]
  exact congrArg _ (if_pos hx)

/-- A whole number is written alike in a document. -/
theorem chars_int (h : n.scale = 0) : (Number.int n.digits).chars = n.chars := by
  have hwhole : n.wholeDigits = Nat.toDigits 10 n.digits.natAbs :=
    congrArg Numeral.whole (Decimal.numeral_whole h)
  rw [Decimal.chars, hwhole, if_pos h, List.append_nil, Number.chars]
  simp only [Decimal.isNegative, decide_eq_true_eq]

/-- The text of every number of a document is a numeral in range, which means the number shown. -/
theorem exists_numeral (j : Number) : ∃ m : Decimal.Numeral,
    m.WellFormed ∧ m.InRange ∧ m.chars = j.chars ∧ m.value = j.shown := by
  cases j with
  | int k =>
    refine ⟨(Decimal.ofInt k).plain, (Decimal.plain_isPlain _).wellFormed, Decimal.plain_inRange _,
      ?_, ?_⟩
    · rw [Decimal.chars_plain]
      exact (chars_int rfl).symm
    · rw [Decimal.value_plain, Decimal.value, Decimal.rational, Decimal.ofInt, pow_zero, div_one]
      rfl
  | float x =>
    cases hx : x.isZero with
    | true =>
      have hwell : (⟨sign x, ['0'], some ['0'], none⟩ : Decimal.Numeral).WellFormed :=
        ⟨by simp, List.all_eq_true.1 rfl, by simp⟩
      refine ⟨_, hwell, ?_, ?_, ?_⟩
      · change |(1 : Int) - 0| ≤ maxScale
        decide
      · rw [chars_zero hx]
        simp [Decimal.Numeral.chars, Decimal.Numeral.mantissa, Decimal.Numeral.unsigned]
      · rw [Decimal.Numeral.value_eq, Number.shown, if_pos hx]
        have hnumber : Decimal.number ['0', '0'] = 0 := rfl
        simp [Decimal.Numeral.digits, Decimal.Numeral.fractionDigits, hnumber]
    | false =>
      obtain ⟨m, hm, hchars⟩ := exists_laidOut hx
      have hback := readsBack hx
      refine ⟨m, hm.wellFormed hback.digits_le hback.least hback.largest,
        hm.inRange hback.least hback.largest, hchars, ?_⟩
      rw [hm.value_eq, Number.shown, if_neg (by simp [hx])]

/-- The text of a number of a document is read as the number shown. -/
theorem ofText_chars (j : Number) :
    ∃ r, Decimal.ofText (String.ofList j.chars) = .ok r ∧ r.value = j.shown := by
  obtain ⟨m, hm, hrange, hchars, hvalue⟩ := exists_numeral j
  have hspells : Decimal.Spells (String.ofList j.chars) m :=
    ⟨hm, [], [], by simp [hchars], nofun, nofun⟩
  rcases Decimal.ofText_cases hspells with ⟨-, r, hr, hr'⟩ | ⟨hout, -⟩
  · exact ⟨r, hr, hr'.trans hvalue⟩
  · exact absurd hrange hout

theorem ofText_chars_iff (j : Number) (n : Decimal) :
    Decimal.ofText (String.ofList j.chars) = .ok n ↔ j.shown = n.value := by
  obtain ⟨r, hr, hvalue⟩ := ofText_chars j
  rw [hr, Except.ok.injEq, ← hvalue, Decimal.value_inj]

/-! ## Plain texts of doubles -/

theorem shown_float (hx : x.isZero = false) : (Number.float x).shown =
    (sign x).factor * (x.shortest .even).1 * 10 ^ (x.shortest .even).2 :=
  if_neg (by simp [hx])

theorem abs_shown (hx : x.isZero = false) :
    |(Number.float x).shown| = (x.shortest .even).1 * 10 ^ (x.shortest .even).2 := by
  rw [shown_float hx, abs_mul, abs_mul, abs_factor, one_mul, abs_of_nonneg (by positivity),
    abs_of_nonneg (by positivity)]

theorem shortest_pos (hx : x.isZero = false) : 0 < (x.shortest .even).1 :=
  Nat.pos_of_ne_zero fun hzero => (readsBack hx).trimmed (hzero ▸ Nat.dvd_zero 10)

/-- The text of a double is not that of a whole number, and has an exponent or a zero at its end
where its leading digit is not near the point or its digits are whole. -/
theorem near_of_chars (h : (Number.float x).chars = n.chars) : x.isZero = false ∧ n.scale ≠ 0 ∧
    (-5 ≤ leadOf (x.shortest .even).1 (x.shortest .even).2 ∧
      leadOf (x.shortest .even).1 (x.shortest .even).2 ≤ 15) := by
  cases hx : x.isZero with
  | true =>
    rw [chars_zero hx] at h
    have hpoint : '.' ∈ n.chars := by simp [← h]
    refine absurd ?_ (Decimal.of_point_mem_chars hpoint).2
    simp [← h, List.getLast?_append]
  | false =>
    obtain ⟨m, hm, hchars⟩ := exists_laidOut hx
    rw [h] at hchars
    rcases hm.chars_cases with hexponent | ⟨hpoint, hlast | ⟨hnear, -⟩⟩
    · exact absurd (hchars ▸ hexponent) Decimal.exponent_notMem_chars
    · exact absurd (hchars ▸ hlast) (Decimal.of_point_mem_chars (hchars ▸ hpoint)).2
    · exact ⟨rfl, (Decimal.of_point_mem_chars (hchars ▸ hpoint)).1, hnear⟩

/-- The digits of a fraction lie on a grid behind the point. -/
theorem grid_neg (hx : x.isZero = false) (hscale : n.scale ≠ 0)
    (hshown : (Number.float x).shown = n.value) : (x.shortest .even).2 < 0 := by
  by_contra hgrid
  obtain ⟨k, hk⟩ := Int.eq_ofNat_of_zero_le (not_lt.1 hgrid)
  have hwhole : Decimal.Expands n.value 0 := by
    refine ⟨(sign x).factor * (x.shortest .even).1 * 10 ^ k, ?_⟩
    rw [← hshown, shown_float hx, hk, zpow_natCast, Decimal.rational]
    push_cast
    ring
  rw [Decimal.expands_value_iff] at hwhole
  omega

/-- The text of a double is that of a number in plain notation exactly if the number is a fraction
between `10^-5` and `10^16` that the shortest digits of the double give exactly. -/
theorem chars_float_eq_iff : (Number.float x).chars = n.chars ↔
    n.scale ≠ 0 ∧ (Number.float x).shown = n.value ∧ 10 ^ (-5 : Int) ≤ |n.value| ∧
      |n.value| < 10 ^ (16 : Int) := by
  constructor
  · intro h
    obtain ⟨hx, hscale, hnear⟩ := near_of_chars h
    have hshown : (Number.float x).shown = n.value := by
      rw [← ofText_chars_iff, h]
      exact n.ofText_text
    rw [← hshown, abs_shown hx]
    exact ⟨hscale, rfl, (LaidOut.near_iff (shortest_pos hx) _).1 hnear⟩
  · rintro ⟨hscale, hshown, hbounds⟩
    have hx : x.isZero = false := by
      by_contra hzero
      rw [Bool.not_eq_false] at hzero
      rw [Number.shown, if_pos hzero, eq_comm, Decimal.value_eq_zero_iff] at hshown
      exact n.trimmed.resolve_left hscale (by rw [hshown]; rfl)
    obtain ⟨m, hm, hchars⟩ := exists_laidOut hx
    rw [← hshown, abs_shown hx, ← LaidOut.near_iff (shortest_pos hx)] at hbounds
    have hplain : Decimal.IsPlain (String.ofList (Number.float x).chars) :=
      ⟨m, hm.plain (sign_ne_plus x) (readsBack hx).trimmed hbounds (grid_neg hx hscale hshown),
        by rw [hchars, String.toList_ofList]⟩
    have htext := Decimal.text_of_isPlain hplain ((ofText_chars_iff _ n).2 hshown)
    exact (String.ofList_injective htext).symm

/-! ## Texts of different numbers -/

theorem shown_eq_zero_iff : (Number.float x).shown = 0 ↔ x.isZero = true := by
  cases hx : x.isZero with
  | true => simp [Number.shown, hx]
  | false =>
    have hpos := shortest_pos hx
    have habs : 0 < |(Number.float x).shown| := by
      rw [abs_shown hx]
      positivity
    simpa using abs_pos.1 habs

theorem shown_neg_iff (hx : x.isZero = false) :
    (Number.float x).shown < 0 ↔ x.negative = true := by
  have hpos : 0 < ((x.shortest .even).1 : ℚ) := Nat.cast_pos.2 (shortest_pos hx)
  have hgrid : (0 : ℚ) < 10 ^ (x.shortest .even).2 := by positivity
  rw [shown_float hx, mul_assoc, Sign.factor, isMinus_sign]
  cases x.negative with
  | false => simpa using (mul_pos hpos hgrid).le
  | true => simpa using mul_pos hpos hgrid

/-- Texts of doubles tell the zeros apart by their signs, and the other doubles by the digits, which
are in the interval of one double only. -/
theorem float_eq_of_chars {y : Binary64} (h : (Number.float x).chars = (Number.float y).chars)
    (hshown : (Number.float x).shown = (Number.float y).shown) : x = y := by
  have hzeros : x.isZero = y.isZero := by
    rw [Bool.eq_iff_iff, ← shown_eq_zero_iff, ← shown_eq_zero_iff, hshown]
  cases hx : x.isZero with
  | true =>
    have hy := hzeros.symm.trans hx
    rw [chars_zero hx, chars_zero hy, List.append_cancel_right_eq, sign_chars, sign_chars] at h
    refine Binary64.eq_of_magnitude ?_ ?_
    · cases hsign : x.negative <;> cases hsign' : y.negative <;> simp_all
    · simp only [Binary64.isZero, beq_iff_eq] at hx hy
      rw [Binary64.magnitude_eq, Binary64.magnitude_eq, hx, hy]
      simp
  | false =>
    have hy := hzeros.symm.trans hx
    have hsign : x.negative = y.negative := by
      rw [Bool.eq_iff_iff, ← shown_neg_iff hx, ← shown_neg_iff hy, hshown]
    have hxholds := (readsBack hx).holds
    have hyholds := (readsBack hy).holds
    rw [← abs_shown hx, hshown] at hxholds
    rw [← abs_shown hy] at hyholds
    exact Binary64.eq_of_holds_both (isZero_eq_false_iff.1 hx) (isZero_eq_false_iff.1 hy) hsign
      hxholds hyholds

/-- Different numbers of a document have different texts. -/
theorem chars_inj {i j : Number} : i.chars = j.chars ↔ i = j := by
  refine ⟨fun h => ?_, congrArg _⟩
  have hshown : i.shown = j.shown := by
    obtain ⟨r, hr, hvalue⟩ := ofText_chars i
    rw [← hvalue, eq_comm, ← ofText_chars_iff, ← h, hr]
  cases i with
  | int k =>
    cases j with
    | int l => rw [Int.cast_inj.1 hshown]
    | float y =>
      have hwhole := h.symm.trans (chars_int (n := .ofInt k) rfl)
      exact absurd rfl (near_of_chars hwhole).2.1
  | float x =>
    cases j with
    | int l => exact absurd rfl (near_of_chars (h.trans (chars_int (n := .ofInt l) rfl))).2.1
    | float y => rw [float_eq_of_chars h hshown]

/-! ## Numbers in documents -/

/-- Digits that are all taken are within the limit. -/
theorem of_takeDigits {limit k : Nat} {cs : List Char} : ∀ {start : Nat}, start ≤ limit →
    takeDigits limit start cs = (k, []) → k = Nat.ofDigitChars 10 cs start ∧ k ≤ limit := by
  induction cs with
  | nil =>
    rintro start hstart ⟨⟩
    exact ⟨rfl, hstart⟩
  | cons c cs ih =>
    intro start hstart h
    unfold takeDigits at h
    dsimp only at h
    split at h
    · next hnext =>
      rw [Nat.ofDigitChars_cons]
      exact ih hnext h
    · cases h

/-- Only a whole number of 64 bits is read as a word. -/
theorem isWord_of_wholeNumeral {k value : Int} (h : (wholeNumeral k).value? = some (.int value)) :
    IsWord k := by
  rcases htaken : takeDigits maxWord 0 (Nat.toDigits 10 k.natAbs) with ⟨kept, excess⟩
  unfold Numeral.value? at h
  simp only [wholeNumeral, htaken] at h
  have hword : maxWord = 18446744073709551615 := rfl
  unfold IsWord Decimal.minInt64
  cases excess with
  | cons c rest => simp at h
  | nil =>
    obtain ⟨hkept, hmost⟩ := of_takeDigits (Nat.zero_le _) htaken
    rw [Nat.ofDigitChars_ten_toDigits] at hkept
    by_cases hnegative : k < 0
    · by_cases hout : kept = 0 ∨ 9223372036854775808 < kept
      · simp [hnegative, hout] at h
      · omega
    · omega

/-- The whole numbers of 64 bits. -/
def IsWhole64 (n : Decimal) : Prop := n.scale = 0 ∧ IsWord n.digits

theorem toJson?_of_isWhole64 (h : IsWhole64 n) : n.toJson? = some (.int n.digits) := by
  rw [Decimal.toJson?, Decimal.numeral_whole h.1, value?_wholeNumeral h.2]

/-- Any other number is written as a double. -/
theorem exists_float {j : Number} (hj : n.toJson? = some j) (h : ¬ IsWhole64 n) :
    ∃ x, j = .float x := by
  cases j with
  | float x => exact ⟨x, rfl⟩
  | int k =>
    refine absurd ?_ h
    rw [Decimal.toJson?] at hj
    by_cases hscale : n.scale = 0
    · rw [Decimal.numeral_whole hscale] at hj
      exact ⟨hscale, isWord_of_wholeNumeral hj⟩
    · simp [Numeral.value?, Decimal.numeral, hscale] at hj

/-- The text of a number in a document is plain notation exactly if the number is a whole one of 64
bits, or a fraction between `10^-5` and `10^16` that is shown exactly. -/
theorem chars_eq_iff {j : Number} (hj : n.toJson? = some j) : j.chars = n.chars ↔
    IsWhole64 n ∨ n.scale ≠ 0 ∧ j.shown = n.value ∧ 10 ^ (-5 : Int) ≤ |n.value| ∧
      |n.value| < 10 ^ (16 : Int) := by
  by_cases hwhole : IsWhole64 n
  · cases (toJson?_of_isWhole64 hwhole).symm.trans hj
    simp only [hwhole, true_or, iff_true]
    exact chars_int hwhole.1
  · obtain ⟨x, rfl⟩ := exists_float hj hwhole
    rw [chars_float_eq_iff]
    simp only [hwhole, false_or]

/-! ## Fractions of fifteen digits -/

/-- The powers of ten up to `10^22` are doubles. -/
theorem powerOfTen?_exact {k : Nat} (hk : k ≤ 22) :
    ∃ y, powerOfTen? k = some y ∧ y.units = 10 ^ k * Binary64.unitsPerOne := by
  have hpowers : ∀ k ≤ 22, (powerOfTen? k).map Binary64.units =
      some (10 ^ k * Binary64.unitsPerOne) := by
    unfold Binary64.unitsPerOne
    decide +kernel
  exact Option.map_eq_some_iff.1 (hpowers k hk)

/-- A quotient of a whole number and a power of ten that both are doubles is rounded once. -/
theorem shiftedFloat?_of_short (negative : Bool) {digits places : Nat} (hdigits : digits < 10 ^ 15)
    (hpositive : 0 < places) (hplaces : places ≤ 22) :
    ∃ x, shiftedFloat? negative digits (-(places : Int)) = some x ∧ x.negative = negative ∧
      x.span.Holds (digits * 10 ^ (-(places : Int))) := by
  obtain ⟨a, ha, haunits⟩ := Binary64.ofRatio?_whole (n := digits) (hdigits.trans (by decide))
  obtain ⟨p, hp, hpunits⟩ := powerOfTen?_exact hplaces
  have hone := Binary64.unitsPerOne_pos
  have hden : 0 < p.units := by
    rw [hpunits]
    exact Nat.mul_pos (Nat.pow_pos (by omega)) hone
  have hlt : a.units < Nat.pow 2 53 * p.units := by
    rw [haunits, hpunits]
    calc digits * Binary64.unitsPerOne < Nat.pow 2 53 * Binary64.unitsPerOne :=
          Nat.mul_lt_mul_of_pos_right (hdigits.trans (by decide)) hone
      _ ≤ Nat.pow 2 53 * (10 ^ places * Binary64.unitsPerOne) :=
          Nat.mul_le_mul_left _ (Nat.le_mul_of_pos_left _ (Nat.pow_pos (by omega)))
  obtain ⟨y, hy⟩ := Binary64.exists_ofRatio? (a.negative != p.negative) hden hlt
  have hquotient : (a.units : ℚ) / p.units = digits * 10 ^ (-(places : Int)) := by
    rw [haunits, hpunits, ← Binary64.div_pow_eq, Nat.cast_mul, Nat.cast_mul,
      mul_div_mul_right _ _ (Nat.cast_ne_zero.2 hone.ne')]
  have hholds := (Binary64.holds_of_ofRatio? hden hy).2
  rw [hquotient] at hholds
  refine ⟨y.withSign negative, ?_, rfl, hholds⟩
  have hrounds : (-(places : Int)).natAbs / 308 + 1 = 1 := by omega
  rw [shiftedFloat?, ha, Option.bind_some, hrounds, scaleByTen, if_pos (by omega), Int.natAbs_neg,
    Int.natAbs_natCast, hp, Option.bind_some, if_neg (by omega), Binary64.div?, hy, Option.map_some]

/-- A fraction of at most fifteen digits and at most 22 places. -/
structure IsShort (n : Decimal) : Prop where
  fraction : n.scale ≠ 0
  places : n.scale ≤ 22
  digits : n.digits.natAbs < 10 ^ 15

/-- Such a fraction is rounded once. -/
theorem toJson?_of_isShort (h : IsShort n) : ∃ x, n.toJson? = some (.float x) ∧
    x.negative = n.isNegative ∧ x.span.Holds (n.digits.natAbs * 10 ^ (-(n.scale : Int))) := by
  obtain ⟨x, hx, hnegative, hholds⟩ :=
    shiftedFloat?_of_short n.isNegative h.digits (Nat.pos_of_ne_zero h.fraction) h.places
  refine ⟨x, ?_, hnegative, hholds⟩
  have hnumber : Nat.ofDigitChars 10 n.fractionDigits (Nat.ofDigitChars 10 n.wholeDigits 0) =
      n.digits.natAbs := by
    rw [← Nat.ofDigitChars_append, n.whole_append_fraction]
    exact n.number_paddedDigits
  have hword : n.digits.natAbs ≤ maxWord := h.digits.le.trans (by decide)
  have hwhole : takeDigits maxWord 0 n.wholeDigits = (Nat.ofDigitChars 10 n.wholeDigits 0, []) :=
    takeDigits_eq ((hnumber ▸ ofDigitChars_ge _ _).trans hword)
  have hfraction : takeDigits maxWord (Nat.ofDigitChars 10 n.wholeDigits 0) n.fractionDigits =
      (n.digits.natAbs, []) := by
    rw [takeDigits_eq (hnumber.trans_le hword), hnumber]
  rw [Decimal.toJson?, Numeral.value?, Decimal.numeral]
  simp only [hwhole, hfraction, if_neg h.fraction, exponentFloat?, n.length_fractionDigits,
    List.length_nil, Nat.sub_zero, Nat.cast_zero, zero_sub, hx, Option.map_some]

theorem shown_of_isShort (h : IsShort n) : ∃ j, n.toJson? = some j ∧ j.shown = n.value := by
  obtain ⟨x, hx, hnegative, hholds⟩ := toJson?_of_isShort h
  have hpos : 0 < n.digits.natAbs := by
    have htrimmed := n.trimmed.resolve_left h.fraction
    omega
  obtain ⟨hsignificand, hshortest⟩ :=
    Binary64.shortest_of_fifteen .even hpos h.digits h.places hholds
  refine ⟨.float x, hx, ?_⟩
  have hsigned : (sign x).factor * (n.digits.natAbs : Int) = n.digits := by
    rw [← Decimal.signed_eq, isMinus_sign, hnegative, n.signed_natAbs]
  rw [shown_float (isZero_eq_false_iff.2 hsignificand), mul_assoc, hshortest, Decimal.value,
    Decimal.rational_eq_zpow, ← mul_assoc, ← Int.cast_natCast n.digits.natAbs, ← Int.cast_mul,
    hsigned]

/-- Whole numbers of 64 bits and short fractions are shown exactly. -/
theorem exists_shown (h : IsWhole64 n ∨ IsShort n) :
    ∃ j, n.toJson? = some j ∧ j.shown = n.value := by
  rcases h with hwhole | hshort
  · refine ⟨_, toJson?_of_isWhole64 hwhole, ?_⟩
    rw [Decimal.value, Decimal.rational, hwhole.1, pow_zero, div_one]
    rfl
  · exact shown_of_isShort hshort

end PolicyExpr.Json

namespace PolicyExpr.Value

open Json (IsWhole64 IsShort)

/-! ## Texts of number values -/

theorem plainText_number (n : Decimal) (m : Metadata) : (⟨.number n, m⟩ : Value).plainText =
    n.toJson?.elim (.error (.unwritable n)) fun j => .ok (String.ofList j.chars) := by
  change (do return (← toJson ⟨.number n, m⟩).render) = _
  rw [toJson]
  cases n.toJson? <;> rfl

theorem evaluate_toString (v : Value) :
    FunctionRegistry.standard.evaluate ⟨"standard.toString", [v]⟩ = v.plainText.map text := by
  have hfind : FunctionRegistry.standard.functions.get? "standard.toString" =
    some NativeFunction.toText := rfl
  rw [FunctionRegistry.evaluate, hfind]
  unfold NativeFunction.toText NativeFunction.unary
  dsimp only
  cases v.plainText <;> rfl

theorem add_text_number (front : String) (n : Decimal) (l m : Metadata) :
    Operator.add ⟨.text front, l⟩ ⟨.number n, m⟩ =
      (⟨.number n, m⟩ : Value).plainText.map fun back =>
        ⟨.text (front ++ back), Metadata.mergeAll [l, m]⟩ := by
  change (do return (text (front ++ (← plainText ⟨.number n, m⟩))).withMetadata _) = _
  cases plainText ⟨.number n, m⟩ <;> rfl

theorem plainText_number_iff {k : Decimal} {p : Metadata} {j : Json.Number} :
    (⟨.number k, p⟩ : Value).plainText = .ok (String.ofList j.chars) ↔ k.toJson? = some j := by
  rw [plainText_number]
  cases k.toJson? with
  | none => simp
  | some i => simp [String.ofList_inj, Json.chars_inj]

/-- The text of a number is the same for a concatenation as for a conversion. There is none where
the number is beyond the doubles. Otherwise it is read back as the number exactly if what a document
shows for it is the number, and it is plain notation exactly if the number is a whole one of 64 bits
or a fraction between `10^-5` and `10^16` that is shown exactly. It is the text of the numbers that
have the same number in a document, and of no others. Whole numbers of 64 bits and fractions of
fifteen digits and 22 places have a text and are read back. -/
theorem text_of_number (n : Decimal) (m l : Metadata) (front : String) :
    (n.toJson? = none ∧ ¬ (IsWhole64 n ∨ IsShort n) ∧
      FunctionRegistry.standard.evaluate ⟨"standard.toString", [⟨.number n, m⟩]⟩ =
        .error (.unwritable n) ∧
      Operator.add ⟨.text front, l⟩ ⟨.number n, m⟩ = .error (.unwritable n)) ∨
    ∃ j t, n.toJson? = some j ∧
      FunctionRegistry.standard.evaluate ⟨"standard.toString", [⟨.number n, m⟩]⟩ = .ok (text t) ∧
      Operator.add ⟨.text front, l⟩ ⟨.number n, m⟩ =
        .ok ⟨.text (front ++ t), Metadata.mergeAll [l, m]⟩ ∧
      (Decimal.ofText t = .ok n ↔ j.shown = n.value) ∧
      (t = n.text ↔ IsWhole64 n ∨ n.scale ≠ 0 ∧ j.shown = n.value ∧
        10 ^ (-5 : Int) ≤ |n.value| ∧ |n.value| < 10 ^ (16 : Int)) ∧
      (∀ k p, FunctionRegistry.standard.evaluate ⟨"standard.toString", [⟨.number k, p⟩]⟩ =
        .ok (text t) ↔ k.toJson? = some j) ∧
      (IsWhole64 n ∨ IsShort n → Decimal.ofText t = .ok n) := by
  rw [evaluate_toString, add_text_number, plainText_number]
  cases hj : n.toJson? with
  | none =>
    refine .inl ⟨rfl, fun h => ?_, rfl, rfl⟩
    obtain ⟨j, hj', -⟩ := Json.exists_shown h
    cases hj'.symm.trans hj
  | some j =>
    refine .inr ⟨j, String.ofList j.chars, rfl, rfl, rfl, Json.ofText_chars_iff j n, ?_,
      fun k p => ?_, ?_⟩
    · rw [← Json.chars_eq_iff hj, Decimal.text, String.ofList_inj]
    · rw [← plainText_number_iff (p := p), evaluate_toString]
      cases plainText ⟨.number k, p⟩ <;> simp [Except.map, text, ofKind]
    · intro h
      obtain ⟨j', hj', hshown⟩ := Json.exists_shown h
      cases hj'.symm.trans hj
      exact (Json.ofText_chars_iff j n).2 hshown

/-- Two numbers beyond 64 bits have one text, which is read as neither of them. -/
theorem text_beyond_words :
    let n := Decimal.ofNat 18446744073709551617
    let next := Decimal.ofNat 18446744073709551618
    FunctionRegistry.standard.evaluate ⟨"standard.toString", [number n]⟩ =
        .ok (text "1.8446744073709552e+19") ∧
      Operator.add (text "n: ") (number n) = .ok (text "n: 1.8446744073709552e+19") ∧
      FunctionRegistry.standard.evaluate ⟨"standard.toString", [number next]⟩ =
        .ok (text "1.8446744073709552e+19") ∧
      n ≠ next ∧ n.text = "18446744073709551617" ∧
      Decimal.ofText "1.8446744073709552e+19" = .ok (.ofNat 18446744073709552000) := by
  intro n next
  have htext (k : Decimal) (hk : k.toJson?.map Json.Number.chars =
      some "1.8446744073709552e+19".toList) :
      (number k).plainText = .ok "1.8446744073709552e+19" := by
    obtain ⟨j, hj, hchars⟩ := Option.map_eq_some_iff.1 hk
    rw [number, ofKind, plainText_number, hj, Option.elim_some, hchars, String.ofList_toList]
  have hn := htext n (by decide +kernel)
  refine ⟨?_, ?_, ?_, by decide, by decide +kernel, by decide +kernel⟩
  · rw [evaluate_toString, hn]
    rfl
  · have hadd := add_text_number "n: " n .empty .empty
    change _ = (number n).plainText.map _ at hadd
    rw [hn] at hadd
    exact hadd
  · rw [evaluate_toString, htext next (by decide +kernel)]
    rfl

end PolicyExpr.Value
