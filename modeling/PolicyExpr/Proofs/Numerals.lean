import Mathlib.Data.List.TakeWhile
import PolicyExpr.Proofs.Exactness

/-!
# Texts that are numbers

A numeral is a sign, digits with a point among them and an exponent, as far as these are there. What
a text is split into when it is read are the parts of the one numeral that it can be, so a text is a
number exactly if it is a numeral whose scale is in range. The number is the one that the numeral
means, and its scale can be computed in machine words.
-/
namespace PolicyExpr

/-! ## Blanks -/

namespace Text

variable {before t after : List Char}

theorem trimBlanks_of_surrounded (hbefore : ∀ c ∈ before, isBlank c = true)
    (ht : ∀ c ∈ t, isBlank c = false) (hafter : ∀ c ∈ after, isBlank c = true) :
    trimBlanks (before ++ t ++ after) = t := by
  have htail : ∀ cs : List Char, (∀ c ∈ cs, isBlank c = true) → cs.dropWhile isBlank = [] :=
    fun cs h => List.dropWhile_eq_nil_iff.2 h
  have hinner : ∀ cs : List Char, (∀ c ∈ cs, isBlank c = false) → cs.dropWhile isBlank = cs := by
    intro cs h
    cases cs with
    | nil => rfl
    | cons c rest => rw [List.dropWhile_cons_of_neg (by simp [h c])]
  unfold trimBlanks
  rw [List.append_assoc, List.dropWhile_append_of_pos hbefore]
  cases t with
  | nil => simp [htail after hafter]
  | cons c rest =>
    rw [List.cons_append, List.dropWhile_cons_of_neg (by simp [ht c]), ← List.cons_append,
      List.reverse_append, List.dropWhile_append_of_pos (by simpa using hafter),
      hinner _ fun c hc => ht c (List.mem_reverse.1 hc), List.reverse_reverse]

theorem exists_surrounded (cs : List Char) : ∃ before after, cs = before ++ trimBlanks cs ++ after ∧
    (∀ c ∈ before, isBlank c = true) ∧ ∀ c ∈ after, isBlank c = true := by
  refine ⟨cs.takeWhile isBlank, ((cs.dropWhile isBlank).reverse.takeWhile isBlank).reverse,
    ?_, fun c hc => List.mem_takeWhile_imp hc, fun c hc => ?_⟩
  · rw [trimBlanks, List.append_assoc, ← List.reverse_append, List.takeWhile_append_dropWhile,
      List.reverse_reverse, List.takeWhile_append_dropWhile]
  · exact List.mem_takeWhile_imp (List.mem_reverse.1 hc)

end Text

namespace Decimal

/-! ## Numerals -/

/-- The sign in front of a numeral. -/
inductive Sign where
  | absent
  | plus
  | minus
  deriving DecidableEq

namespace Sign

def chars : Sign → List Char
  | absent => []
  | plus => ['+']
  | minus => ['-']

def isMinus (s : Sign) : Bool := s = minus

/-- The number one with the sign. -/
def factor (s : Sign) : Int := if s.isMinus then -1 else 1

end Sign

/-- The number of a text of digits. -/
def number (digits : List Char) : Nat := Nat.ofDigitChars 10 digits 0

theorem digitsValue_eq_number (digits : List Char) : digitsValue digits = number digits := rfl

/-- A decimal exponent: its mark, its sign and its digits. -/
structure Exponent where
  mark : Char
  sign : Sign
  digits : List Char

namespace Exponent

def chars (x : Exponent) : List Char := x.mark :: (x.sign.chars ++ x.digits)

def value (x : Exponent) : Int := x.sign.factor * number x.digits

/-- An `e` before a whole number of 64 bits. -/
structure WellFormed (x : Exponent) : Prop where
  mark : x.mark = 'e' ∨ x.mark = 'E'
  nonempty : x.digits ≠ []
  digits : ∀ c ∈ x.digits, c.isDigit = true
  least : minInt64 ≤ x.value
  largest : x.value ≤ maxInt64

end Exponent

/-- The parts of a numeral: `[+|-] whole [. fraction] [e exponent]`. -/
structure Numeral where
  sign : Sign
  whole : List Char
  /-- The digits behind the point, if there is one. -/
  fraction : Option (List Char)
  exponent : Option Exponent

namespace Numeral

/-- The digits behind the point. -/
def fractionDigits (m : Numeral) : List Char := m.fraction.getD []

/-- The digits and the point. -/
def unsigned (m : Numeral) : List Char := m.whole ++ m.fraction.elim [] ('.' :: ·)

/-- What stands in front of the exponent. -/
def mantissa (m : Numeral) : List Char := m.sign.chars ++ m.unsigned

def chars (m : Numeral) : List Char := m.mantissa ++ m.exponent.elim [] Exponent.chars

def places (m : Numeral) : Nat := m.fractionDigits.length

def shift (m : Numeral) : Int := m.exponent.elim 0 Exponent.value

/-- The digits on both sides of the point as a whole number with the sign. -/
def digits (m : Numeral) : Int := m.sign.factor * number (m.whole ++ m.fractionDigits)

/-- The number that a numeral means. -/
def value (m : Numeral) : ℚ :=
  m.sign.factor * (number m.whole + number m.fractionDigits / 10 ^ m.places) * 10 ^ m.shift

/-- Digits on one side of the point at least, and an exponent that fits 64 bits. -/
structure WellFormed (m : Numeral) : Prop where
  nonempty : m.whole ++ m.fractionDigits ≠ []
  digits : ∀ c ∈ m.whole ++ m.fractionDigits, c.isDigit = true
  exponent : ∀ x, m.exponent = some x → x.WellFormed

/-- The numeral stands within the bound of the scales, on either side. -/
def InRange (m : Numeral) : Prop := |(m.places : Int) - m.shift| ≤ maxScale

end Numeral

/-- The text is the numeral, with blanks around it. -/
def Spells (s : String) (m : Numeral) : Prop :=
  m.WellFormed ∧ ∃ before after, s.toList = before ++ m.chars ++ after ∧
    (∀ c ∈ before, Text.isBlank c = true) ∧ ∀ c ∈ after, Text.isBlank c = true

/-! ## Splitting -/

section

variable {p : Char → Bool} {cs front back : List Char} {c : Char}

theorem splitFirst_of_none (h : ∀ c ∈ cs, p c = false) : splitFirst p cs = (cs, none) := by
  have hdrop : cs.dropWhile (fun c => !p c) = [] :=
    List.dropWhile_eq_nil_iff.2 fun c hc => by simp [h c hc]
  rw [splitFirst, hdrop]

theorem splitFirst_append (hfront : ∀ c ∈ front, p c = false) (hc : p c = true) :
    splitFirst p (front ++ c :: back) = (front, some back) := by
  have hpos : ∀ a ∈ front, (!p a) = true := fun a ha => by simp [hfront a ha]
  have hdrop : (front ++ c :: back).dropWhile (fun c => !p c) = c :: back := by
    rw [List.dropWhile_append_of_pos hpos]
    exact List.dropWhile_cons_of_neg (by simp [hc])
  have htake : (front ++ c :: back).takeWhile (fun c => !p c) = front := by
    rw [List.takeWhile_append_of_pos hpos]
    simp [hc]
  rw [splitFirst, hdrop, htake]

/-- A text is put together again from where it is split. -/
theorem eq_of_splitFirst {tail : Option (List Char)} (h : splitFirst p cs = (front, tail)) :
    (tail = none ∧ cs = front) ∨
      ∃ c back, tail = some back ∧ p c = true ∧ cs = front ++ c :: back := by
  have happend := cs.takeWhile_append_dropWhile (p := fun c => !p c)
  have hhead := List.head?_dropWhile_not (fun c => !p c) cs
  unfold splitFirst at h
  split at h
  · cases h
    exact .inl ⟨rfl, rfl⟩
  · next c back hdrop =>
    cases h
    rw [hdrop] at happend hhead
    exact .inr ⟨c, back, rfl, by simpa using hhead, happend.symm⟩

end

/-! ## Characters of a numeral -/

section

variable {c : Char} {s : Sign} {m : Numeral} {x : Exponent} {cs rest : List Char}

/-- The mark of an exponent. -/
def isMark (c : Char) : Bool := c == 'e' || c == 'E'

theorem isMark_eq : isMark = fun c => c == 'e' || c == 'E' := rfl

theorem isBlank_of_isDigit (h : c.isDigit = true) : Text.isBlank c = false := by
  have hrange : 48 ≤ c.toNat ∧ c.toNat ≤ 57 := by
    simpa [Char.isDigit, UInt32.le_iff_toNat_le] using h
  simp [Text.isBlank, Text.blankRanges]
  omega

theorem ne_of_isDigit {d : Char} (h : c.isDigit = true) (hd : d.isDigit = false) : c ≠ d := by
  rintro rfl
  rw [h] at hd
  cases hd

theorem mem_signChars (h : c ∈ s.chars) : c = '+' ∨ c = '-' := by
  cases s <;> simp_all [Sign.chars]

theorem splitSign_append (h : ∀ c ∈ rest.head?, c ≠ '-' ∧ c ≠ '+') :
    splitSign (s.chars ++ rest) = (s.isMinus, rest) := by
  cases s with
  | absent =>
    cases rest with
    | nil => rfl
    | cons c rest =>
      obtain ⟨hminus, hplus⟩ := h c rfl
      simp [splitSign, Sign.chars, Sign.isMinus, hminus, hplus]
  | plus => rfl
  | minus => rfl

theorem splitSign_cases (cs : List Char) :
    ∃ (s : Sign) (rest : List Char), cs = s.chars ++ rest ∧ splitSign cs = (s.isMinus, rest) := by
  unfold splitSign
  split
  · next rest => exact ⟨.minus, rest, rfl, rfl⟩
  · next rest => exact ⟨.plus, rest, rfl, rfl⟩
  · exact ⟨.absent, cs, rfl, rfl⟩

theorem signed_eq (s : Sign) (n : Nat) : (if s.isMinus then -(n : Int) else n) = s.factor * n := by
  cases s <;> simp [Sign.factor, Sign.isMinus]

theorem readExponent?_of_wellFormed (h : x.WellFormed) :
    readExponent? (x.sign.chars ++ x.digits) = some x.value := by
  have hhead : ∀ c ∈ x.digits.head?, c ≠ '-' ∧ c ≠ '+' := fun c hc =>
    have hdigit := h.digits c (List.mem_of_mem_head? hc)
    ⟨ne_of_isDigit hdigit rfl, ne_of_isDigit hdigit rfl⟩
  have hall : x.digits.all Char.isDigit = true := List.all_eq_true.2 h.digits
  have hvalue : (if x.sign.isMinus then -(digitsValue x.digits : Int) else digitsValue x.digits) =
      x.value := signed_eq x.sign (number x.digits)
  rw [readExponent?, splitSign_append hhead]
  simp only [hall, hvalue, List.isEmpty_eq_false_iff.2 h.nonempty, h.least, h.largest]
  simp

theorem exists_exponent {value : Int} (mark : Char) (hmark : mark = 'e' ∨ mark = 'E')
    (h : readExponent? cs = some value) :
    ∃ x : Exponent, x.WellFormed ∧ x.chars = mark :: cs := by
  obtain ⟨s, rest, rfl, hsplit⟩ := splitSign_cases cs
  have hsigned : (if s.isMinus then -(digitsValue rest : Int) else digitsValue rest) =
      s.factor * number rest := signed_eq s (number rest)
  rw [readExponent?, hsplit] at h
  simp only [hsigned] at h
  split at h
  · cases h
  · next hdigits =>
    split at h
    · next hrange =>
      cases h
      simp only [Bool.or_eq_true, not_or, Bool.not_eq_true, List.isEmpty_eq_false_iff,
        Bool.not_eq_false', List.all_eq_true] at hdigits
      exact ⟨⟨mark, s, rest⟩, ⟨hmark, hdigits.1, hdigits.2, hrange.1, hrange.2⟩, rfl⟩
    · cases h

theorem Numeral.WellFormed.mem_unsigned (h : m.WellFormed) (hc : c ∈ m.unsigned) :
    c = '.' ∨ c.isDigit = true := by
  have hdigits := h.digits
  rcases List.mem_append.1 hc with hc | hc
  · exact .inr (hdigits c (List.mem_append_left _ hc))
  · cases hfraction : m.fraction with
    | none => simp [hfraction] at hc
    | some fraction =>
      rw [hfraction] at hc
      rw [Numeral.fractionDigits, hfraction] at hdigits
      exact (List.mem_cons.1 hc).imp_right fun hc => hdigits c (List.mem_append_right _ hc)

theorem Numeral.WellFormed.mem_mantissa (h : m.WellFormed) (hc : c ∈ m.mantissa) :
    c = '+' ∨ c = '-' ∨ c = '.' ∨ c.isDigit = true := by
  rcases List.mem_append.1 hc with hc | hc
  · exact (mem_signChars hc).imp_right .inl
  · exact .inr (.inr (h.mem_unsigned hc))

theorem Exponent.WellFormed.mem_chars (h : x.WellFormed) (hc : c ∈ x.chars) :
    c = 'e' ∨ c = 'E' ∨ c = '+' ∨ c = '-' ∨ c.isDigit = true := by
  rcases List.mem_cons.1 hc with rfl | hc
  · exact h.mark.imp_right .inl
  · rcases List.mem_append.1 hc with hc | hc
    · exact .inr (.inr ((mem_signChars hc).imp_right .inl))
    · exact .inr (.inr (.inr (.inr (h.digits c hc))))

theorem Numeral.WellFormed.isBlank (h : m.WellFormed) (hc : c ∈ m.chars) :
    Text.isBlank c = false := by
  rcases List.mem_append.1 hc with hc | hc
  · rcases h.mem_mantissa hc with rfl | rfl | rfl | hc
    · rfl
    · rfl
    · rfl
    · exact isBlank_of_isDigit hc
  · cases hexponent : m.exponent with
    | none => simp [hexponent] at hc
    | some x =>
      rw [hexponent] at hc
      rcases (h.exponent x hexponent).mem_chars hc with rfl | rfl | rfl | rfl | hc
      · rfl
      · rfl
      · rfl
      · rfl
      · exact isBlank_of_isDigit hc

theorem Numeral.WellFormed.isMark (h : m.WellFormed) (hc : c ∈ m.mantissa) : isMark c = false := by
  rcases h.mem_mantissa hc with rfl | rfl | rfl | hc
  · rfl
  · rfl
  · rfl
  · simp [Decimal.isMark, ne_of_isDigit hc (d := 'e') rfl, ne_of_isDigit hc (d := 'E') rfl]

/-! ## Reading a numeral -/

theorem splitFirst_chars (h : m.WellFormed) : splitFirst isMark m.chars =
    (m.mantissa, m.exponent.map fun x => x.sign.chars ++ x.digits) := by
  have hmantissa : ∀ c ∈ m.mantissa, isMark c = false := fun c hc => h.isMark hc
  unfold Numeral.chars
  cases hexponent : m.exponent with
  | none =>
    change splitFirst isMark (m.mantissa ++ []) = _
    rw [List.append_nil]
    exact splitFirst_of_none hmantissa
  | some x =>
    have hmark : isMark x.mark = true := by
      rcases (h.exponent x hexponent).mark with hmark | hmark <;> rw [hmark] <;> rfl
    exact splitFirst_append hmantissa hmark

theorem splitSign_mantissa (h : m.WellFormed) :
    splitSign m.mantissa = (m.sign.isMinus, m.unsigned) := by
  refine splitSign_append fun c hc => ?_
  rcases h.mem_unsigned (List.mem_of_mem_head? hc) with rfl | hc
  · decide
  · exact ⟨ne_of_isDigit hc rfl, ne_of_isDigit hc rfl⟩

theorem splitFirst_unsigned (h : m.WellFormed) :
    splitFirst (· == '.') m.unsigned = (m.whole, m.fraction) := by
  have hwhole : ∀ c ∈ m.whole, (c == '.') = false := fun c hc =>
    beq_eq_false_iff_ne.2 (ne_of_isDigit (h.digits c (List.mem_append_left _ hc)) rfl)
  unfold Numeral.unsigned
  cases m.fraction with
  | none =>
    change splitFirst _ (m.whole ++ []) = _
    rw [List.append_nil]
    exact splitFirst_of_none hwhole
  | some fraction => exact splitFirst_append hwhole rfl

theorem readExponent?_shift (h : m.WellFormed) :
    (m.exponent.map fun x => x.sign.chars ++ x.digits).elim (some 0) readExponent? =
      some m.shift := by
  unfold Numeral.shift
  cases hexponent : m.exponent with
  | none => rfl
  | some x => exact readExponent?_of_wellFormed (h.exponent x hexponent)

/-- Reading, once it is known how the text splits. -/
theorem ofText_of_parts {s : String} {mantissa unsigned whole : List Char}
    {tail point : Option (List Char)} {exponent : Int} {negative : Bool}
    (htail : splitFirst isMark (Text.trimBlanks s.toList) = (mantissa, tail))
    (hexponent : tail.elim (some 0) readExponent? = some exponent)
    (hsign : splitSign mantissa = (negative, unsigned))
    (hpoint : splitFirst (· == '.') unsigned = (whole, point)) :
    ofText s =
      if (whole ++ point.getD []).isEmpty || !(whole ++ point.getD []).all Char.isDigit then
        .error (.malformed s)
      else
        let magnitude : Int := number (whole ++ point.getD [])
        (shifted? (if negative then -magnitude else magnitude) (point.getD []).length exponent).elim
          (.error (.range s)) .ok := by
  rw [ofText, ← isMark_eq, htail]
  simp only [hexponent, hsign, hpoint, digitsValue_eq_number]
  split
  · rfl
  · generalize shifted? _ _ _ = r
    cases r <;> rfl

/-- What a numeral is read as. -/
theorem ofText_of_spells {s : String} (h : Spells s m) : ofText s =
    (shifted? m.digits m.places m.shift).elim (.error (.range s)) .ok := by
  obtain ⟨hm, before, after, hs, hbefore, hafter⟩ := h
  have htrim : Text.trimBlanks s.toList = m.chars := by
    rw [hs]
    exact Text.trimBlanks_of_surrounded hbefore (fun c hc => hm.isBlank hc) hafter
  have hempty : (m.whole ++ m.fraction.getD []).isEmpty = false :=
    List.isEmpty_eq_false_iff.2 hm.nonempty
  have hdigits : (m.whole ++ m.fraction.getD []).all Char.isDigit = true :=
    List.all_eq_true.2 hm.digits
  rw [ofText_of_parts (htrim ▸ splitFirst_chars hm) (readExponent?_shift hm)
    (splitSign_mantissa hm) (splitFirst_unsigned hm), hempty, hdigits]
  dsimp only
  rw [signed_eq]
  rfl

theorem eq_of_point {point : Option (List Char)} {unsigned whole : List Char}
    (h : splitFirst (· == '.') unsigned = (whole, point)) :
    unsigned = whole ++ point.elim [] ('.' :: ·) := by
  rcases eq_of_splitFirst h with ⟨rfl, rfl⟩ | ⟨c, back, rfl, hc, rfl⟩
  · exact (List.append_nil _).symm
  · rw [eq_of_beq hc]
    rfl

theorem exists_exponent_of_tail {t mantissa : List Char} {tail : Option (List Char)} {value : Int}
    (h : splitFirst isMark t = (mantissa, tail))
    (hvalue : tail.elim (some 0) readExponent? = some value) :
    ∃ x : Option Exponent, t = mantissa ++ x.elim [] Exponent.chars ∧
      ∀ y, x = some y → y.WellFormed := by
  rcases eq_of_splitFirst h with ⟨rfl, rfl⟩ | ⟨c, back, rfl, hc, rfl⟩
  · exact ⟨none, (List.append_nil _).symm, nofun⟩
  · have hmark : c = 'e' ∨ c = 'E' := by simpa [isMark] using hc
    obtain ⟨x, hx, hchars⟩ := exists_exponent c hmark hvalue
    exact ⟨some x, congrArg _ hchars.symm, fun y hy => Option.some.inj hy ▸ hx⟩

/-- A text whose exponent and digits are read is a numeral. -/
theorem exists_spells {s : String} (hexponent : ofText s ≠ .error (.exponent s))
    (hmalformed : ofText s ≠ .error (.malformed s)) : ∃ m, Spells s m := by
  obtain ⟨before, after, hs, hbefore, hafter⟩ := Text.exists_surrounded s.toList
  rcases htail : splitFirst isMark (Text.trimBlanks s.toList) with ⟨mantissa, tail⟩
  obtain ⟨sign, unsigned, hmantissa, hsign⟩ := splitSign_cases mantissa
  rcases hpoint : splitFirst (· == '.') unsigned with ⟨whole, point⟩
  cases hread : tail.elim (some 0) readExponent? with
  | none =>
    refine absurd ?_ hexponent
    rw [ofText, ← isMark_eq, htail]
    simp only [hread]
  | some value =>
    obtain ⟨x, ht, hx⟩ := exists_exponent_of_tail htail hread
    rw [ofText_of_parts htail hread hsign hpoint] at hmalformed
    split at hmalformed
    · exact absurd rfl hmalformed
    · next hdigits =>
      simp only [Bool.or_eq_true, not_or, Bool.not_eq_true, List.isEmpty_eq_false_iff,
        Bool.not_eq_false', List.all_eq_true] at hdigits
      refine ⟨⟨sign, whole, point, x⟩, ⟨hdigits.1, hdigits.2, hx⟩, before, after, ?_, hbefore,
        hafter⟩
      have hchars : Text.trimBlanks s.toList =
          (⟨sign, whole, point, x⟩ : Numeral).chars := by
        rw [ht, hmantissa, eq_of_point hpoint]
        rfl
      rw [← hchars]
      exact hs

end

/-! ## The number of a numeral -/

theorem number_append (front back : List Char) :
    number (front ++ back) = 10 ^ back.length * number front + number back := by
  rw [number, Nat.ofDigitChars_append, Nat.ofDigitChars_eq_ofDigitChars_zero]
  rfl

theorem rational_eq_zpow (digits : Int) (scale : Nat) :
    rational digits scale = digits * 10 ^ (-(scale : Int)) := by
  rw [rational, zpow_neg, zpow_natCast, div_eq_mul_inv]

theorem Numeral.value_eq (m : Numeral) : m.value = m.digits * 10 ^ (m.shift - m.places) := by
  have hten : (10 : ℚ) ≠ 0 := by norm_num
  have hpower : (10 : ℚ) ^ m.places ≠ 0 := pow_ne_zero _ hten
  have hnumber : (number (m.whole ++ m.fractionDigits) : ℚ) =
      (number m.whole + number m.fractionDigits / 10 ^ m.places) * 10 ^ m.places := by
    rw [number_append, add_mul, div_mul_cancel₀ _ hpower]
    push_cast
    rw [mul_comm, Numeral.places]
  rw [Numeral.value, Numeral.digits, zpow_sub₀ hten, zpow_natCast]
  push_cast
  rw [hnumber]
  field_simp

/-- There is a number exactly where the scale is within its bound on either side. -/
theorem shifted?_cases (digits : Int) (places : Nat) (exponent : Int) :
    (|(places : Int) - exponent| ≤ maxScale ∧ ∃ n, shifted? digits places exponent = some n ∧
      n.value = digits * 10 ^ (exponent - places)) ∨
    (maxScale < |(places : Int) - exponent| ∧ shifted? digits places exponent = none) := by
  unfold shifted?
  dsimp only
  split
  · next hsign =>
    obtain ⟨scale, hscale⟩ := Int.eq_ofNat_of_zero_le hsign
    have hexponent : exponent - places = -scale := by omega
    simp only [hscale, hexponent, Int.toNat_natCast, Nat.abs_cast, Int.ofNat_le, Int.ofNat_lt]
    split
    · next hmax =>
      exact .inl ⟨hmax, _, rfl, (value_ofDigits hmax).trans (rational_eq_zpow _ _)⟩
    · next hmax => exact .inr ⟨Nat.lt_of_not_le hmax, rfl⟩
  · next hsign =>
    obtain ⟨scale, hscale⟩ : ∃ scale : Nat, exponent - places = scale :=
      Int.eq_ofNat_of_zero_le (by omega)
    have hplaces : places - exponent = -scale := by omega
    simp only [hscale, hplaces, neg_neg, abs_neg, Int.toNat_natCast, Nat.abs_cast, Int.ofNat_le,
      Int.ofNat_lt]
    split
    · next hmax =>
      refine .inl ⟨hmax, _, rfl, ?_⟩
      simp [value, rational, ofInt]
    · next hmax => exact .inr ⟨Nat.lt_of_not_le hmax, rfl⟩

/-! ## Words -/

/-- The result of an operation does not fit the word that it is put into. -/
inductive Overflow where
  | overflow

/-- A number as a word of 64 bits. -/
def word (n : Int) : Except Overflow Int64 :=
  if minInt64 ≤ n ∧ n ≤ maxInt64 then .ok (Int64.ofInt n) else .error .overflow

/-- A word as an unsigned word of 32 bits within the bound of scales, where it is one. -/
def scaleWord? (n : Int64) : Option UInt32 :=
  if 0 ≤ n.toInt ∧ n.toInt < UInt32.size then
    let scale := UInt32.ofNat n.toInt.toNat
    if scale.toNat ≤ maxScale then some scale else none
  else none

/-- The number `digits · 10^(exponent - places)`, computed in words. The difference may overflow, and
then there is no number; nothing else may. -/
def shiftedInWords (digits : Int) (places : Nat) (exponent : Int) :
    Except Overflow (Option Decimal) := do
  let places ← word places
  let exponent ← word exponent
  match word (places.toInt - exponent.toInt) with
  | .error _ => return none
  | .ok scale =>
    if 0 ≤ scale.toInt then
      return (scaleWord? scale).bind fun scale =>
        if h : scale.toNat ≤ maxScale then some (ofDigits digits scale.toNat h) else none
    else
      let shift ← word (-scale.toInt)
      return (scaleWord? shift).map fun shift => ofInt (digits * Nat.pow 10 shift.toNat)

theorem word_eq_ok {n : Int} (hmin : minInt64 ≤ n) (hmax : n ≤ maxInt64) :
    ∃ w, word n = .ok w ∧ w.toInt = n := by
  refine ⟨Int64.ofInt n, if_pos ⟨hmin, hmax⟩, Int64.toInt_ofInt_of_le ?_ ?_⟩
  · exact hmin
  · unfold maxInt64 at hmax
    omega

theorem scaleWord?_of_le {n : Int64} {scale : Nat} (hn : n.toInt = scale) (h : scale ≤ maxScale) :
    ∃ w, scaleWord? n = some w ∧ w.toNat = scale := by
  have hsmall : scale < UInt32.size := h.trans_lt (by decide)
  have hword : (UInt32.ofNat scale).toNat = scale := UInt32.toNat_ofNat_of_lt' hsmall
  refine ⟨UInt32.ofNat scale, ?_, hword⟩
  have hrange : 0 ≤ n.toInt ∧ n.toInt < UInt32.size := by omega
  rw [scaleWord?, if_pos hrange, hn, Int.toNat_natCast]
  dsimp only
  rw [hword, if_pos h]

theorem scaleWord?_of_lt {n : Int64} {scale : Nat} (hn : n.toInt = scale) (h : maxScale < scale) :
    scaleWord? n = none := by
  unfold scaleWord?
  split
  · next hrange =>
    have hword : (UInt32.ofNat scale).toNat = scale := UInt32.toNat_ofNat_of_lt' (by omega)
    rw [hn, Int.toNat_natCast]
    dsimp only
    rw [hword, if_neg (Nat.not_le_of_lt h)]
  · rfl

/-- Neither the number of places nor the exponent overflows, nor does the negation of a difference. A
difference that overflows is out of range. -/
theorem shiftedInWords_eq {digits : Int} {places : Nat} {exponent : Int}
    (hplaces : places ≤ maxInt64) (hmin : minInt64 ≤ exponent) (hmax : exponent ≤ maxInt64) :
    shiftedInWords digits places exponent = .ok (shifted? digits places exponent) := by
  have hmin64 : minInt64 = -9223372036854775808 := rfl
  have hmax64 : maxInt64 = 9223372036854775807 := rfl
  have hbound : maxScale = 10000 := rfl
  obtain ⟨p, hp, hpvalue⟩ := word_eq_ok (n := places) (by omega) hplaces
  obtain ⟨x, hx, hxvalue⟩ := word_eq_ok hmin hmax
  simp only [shiftedInWords, hp, hx, hpvalue, hxvalue, bind, Except.bind, pure, Except.pure]
  by_cases hdifference : minInt64 ≤ (places : Int) - exponent ∧ (places : Int) - exponent ≤ maxInt64
  · obtain ⟨d, hd, hdvalue⟩ := word_eq_ok hdifference.1 hdifference.2
    simp only [hd, hdvalue, shifted?]
    split
    · next hsign =>
      have hscale : d.toInt = ((places : Int) - exponent).toNat := by omega
      split
      · next hle =>
        obtain ⟨w, hw, hwvalue⟩ := scaleWord?_of_le hscale hle
        simp [hw, hwvalue, hle]
      · next hlt => rw [scaleWord?_of_lt hscale (Nat.lt_of_not_le hlt), Option.bind_none]
    · next hsign =>
      obtain ⟨n, hn, hnvalue⟩ := word_eq_ok (n := -((places : Int) - exponent)) (by omega) (by omega)
      have hscale : n.toInt = (-((places : Int) - exponent)).toNat := by omega
      simp only [hn]
      split
      · next hle =>
        obtain ⟨w, hw, hwvalue⟩ := scaleWord?_of_le hscale hle
        rw [hw, Option.map_some, hwvalue]
      · next hlt => rw [scaleWord?_of_lt hscale (Nat.lt_of_not_le hlt), Option.map_none]
  · have hover : word ((places : Int) - exponent) = .error .overflow := if_neg hdifference
    simp only [hover]
    rcases shifted?_cases digits places exponent with ⟨hle, -⟩ | ⟨-, hnone⟩
    · rw [abs_le] at hle
      omega
    · rw [hnone]

/-! ## Texts of numbers -/

theorem Spells.places_le {s : String} {m : Numeral} (h : Spells s m) : m.places ≤ s.length := by
  obtain ⟨-, before, after, hs, -, -⟩ := h
  have hchars : m.places ≤ m.chars.length := by
    simp only [Numeral.places, Numeral.fractionDigits, Numeral.chars, Numeral.mantissa,
      Numeral.unsigned, List.length_append]
    cases m.fraction with
    | none => simp
    | some fraction =>
      simp
      omega
  rw [← String.length_toList, hs]
  simp only [List.length_append]
  omega

theorem Spells.shift_bounds {s : String} {m : Numeral} (h : Spells s m) :
    minInt64 ≤ m.shift ∧ m.shift ≤ maxInt64 := by
  unfold Numeral.shift
  cases hexponent : m.exponent with
  | none => decide
  | some x => exact ⟨(h.1.exponent x hexponent).least, (h.1.exponent x hexponent).largest⟩

/-- A numeral is a number where its scale is within the bound. -/
theorem ofText_cases {s : String} {m : Numeral} (h : Spells s m) :
    (m.InRange ∧ ∃ n, ofText s = .ok n ∧ n.value = m.value) ∨
      (¬ m.InRange ∧ ofText s = .error (.range s)) := by
  rw [ofText_of_spells h, m.value_eq]
  rcases shifted?_cases m.digits m.places m.shift with ⟨hle, n, hn, hvalue⟩ | ⟨hlt, hn⟩
  · exact .inl ⟨hle, n, by rw [hn]; rfl, hvalue⟩
  · exact .inr ⟨not_le.2 hlt, by rw [hn]; rfl⟩

/-- A text is read as a number exactly if it is a numeral in range, with blanks around it, and then
the number is canonical and the one that the numeral means. A text that is no numeral is refused
for its exponent or its form. The scale of a numeral is computed in words of 64 and of 32 bits, none
of which overflows unnoticed, as a text has no more characters than a word can count. -/
theorem ofText_accepts_numerals (s : String) :
    ((∃ n, ofText s = .ok n) ↔ ∃ m, Spells s m ∧ m.InRange) ∧
    (∀ m n, Spells s m → ofText s = .ok n → Canonical n.digits n.scale ∧ n.value = m.value) ∧
    ((¬ ∃ m, Spells s m) → ofText s = .error (.exponent s) ∨ ofText s = .error (.malformed s)) ∧
    ∀ m, Spells s m → s.length ≤ maxInt64 → ∃ r,
      shiftedInWords m.digits m.places m.shift = .ok r ∧
        ofText s = r.elim (.error (.range s)) .ok := by
  refine ⟨⟨fun ⟨n, hn⟩ => ?_, fun ⟨m, hm, hrange⟩ => ?_⟩, fun m n hm hn => ?_, fun h => ?_,
    fun m hm hlength => ?_⟩
  · obtain ⟨m, hm⟩ := exists_spells (s := s) (by simp [hn]) (by simp [hn])
    rcases ofText_cases hm with ⟨hrange, -⟩ | ⟨-, herror⟩
    · exact ⟨m, hm, hrange⟩
    · cases hn.symm.trans herror
  · rcases ofText_cases hm with ⟨-, n, hn, -⟩ | ⟨hout, -⟩
    · exact ⟨n, hn⟩
    · exact absurd hrange hout
  · rcases ofText_cases hm with ⟨-, n', hn', hvalue⟩ | ⟨-, herror⟩
    · cases hn.symm.trans hn'
      exact ⟨n.canonical, hvalue⟩
    · cases hn.symm.trans herror
  · by_contra hneither
    rw [not_or] at hneither
    exact h (exists_spells hneither.1 hneither.2)
  · obtain ⟨hmin, hmax⟩ := hm.shift_bounds
    have hplaces : (m.places : Int) ≤ maxInt64 := (Int.ofNat_le.2 hm.places_le).trans hlength
    exact ⟨_, shiftedInWords_eq hplaces hmin hmax, ofText_of_spells hm⟩

/-- A numeral with a sign, a point and an exponent is read as what it means. -/
theorem ofText_accepts_scientific :
    ∃ (m : Numeral) (n : Decimal), Spells " -2.50E+1\t" m ∧ m.InRange ∧
      ofText " -2.50E+1\t" = .ok n ∧ n.value = m.value := by
  let m : Numeral := ⟨.minus, ['2'], some ['5', '0'], some ⟨'E', .plus, ['1']⟩⟩
  have hm : Spells " -2.50E+1\t" m := by
    refine ⟨⟨by decide, List.all_eq_true.1 rfl, ?_⟩, [' '], ['\t'], rfl, List.all_eq_true.1 rfl,
      List.all_eq_true.1 rfl⟩
    rintro x ⟨⟩
    exact ⟨.inr rfl, by decide, List.all_eq_true.1 rfl, by decide, by decide⟩
  have hrange : m.InRange := by
    unfold Numeral.InRange
    decide
  obtain ⟨haccepts, hvalue, -, -⟩ := ofText_accepts_numerals " -2.50E+1\t"
  obtain ⟨n, hn⟩ := haccepts.2 ⟨m, hm, hrange⟩
  exact ⟨m, n, hm, hrange, hn, (hvalue m n hm hn).2⟩

end Decimal
end PolicyExpr
