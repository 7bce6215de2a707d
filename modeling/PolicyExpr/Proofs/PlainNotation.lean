import Mathlib.Data.List.Induction
import PolicyExpr.Proofs.Numerals
import PolicyExpr.Proofs.Spelling

/-!
# Plain notation

A numeral is plain if nothing can be left out of it and it has no exponent. Each number has exactly
one plain numeral, and its notation is this numeral. So what is written is read back, a plain text
is written as it was read, and two texts mean the same number exactly if they are written alike.
-/
namespace PolicyExpr.Decimal

/-! ## Digits -/

theorem number_concat (ds : List Char) (c : Char) :
    number (ds ++ [c]) = 10 * number ds + (c.toNat - 48) := by
  simp [number, Nat.ofDigitChars_append, Nat.ofDigitChars_cons]

/-- A digit is the character of its value. -/
theorem digitChar_of_isDigit {c : Char} (h : c.isDigit = true) :
    c.toNat - 48 < 10 ∧ (c.toNat - 48).digitChar = c := by
  have hrange : 48 ≤ c.toNat ∧ c.toNat ≤ 57 := by
    simpa [Char.isDigit, UInt32.le_iff_toNat_le] using h
  have hchar : ∀ d < 10, d.digitChar = Char.ofNat (48 + d) := by decide
  refine ⟨by omega, ?_⟩
  rw [hchar _ (by omega), Nat.add_sub_cancel' hrange.1, Char.ofNat_toNat]

/-- Digits are the number that they make up, with zeros in front. -/
theorem padded_number {ds : List Char} (hne : ds ≠ []) (hds : ∀ c ∈ ds, c.isDigit = true) :
    List.replicate (ds.length - (Nat.toDigits 10 (number ds)).length) '0' ++
      Nat.toDigits 10 (number ds) = ds := by
  induction ds using List.reverseRecOn with
  | nil => exact absurd rfl hne
  | append_singleton ds c ih =>
    obtain ⟨hlt, hchar⟩ := digitChar_of_isDigit (hds c (by simp))
    have hnumber := number_concat ds c
    by_cases hsmall : number (ds ++ [c]) < 10
    · -- every digit before the last is a zero
      have hzero : number ds = 0 := by omega
      have hlast : number (ds ++ [c]) = c.toNat - 48 := by omega
      rw [Nat.toDigits_of_lt_base hsmall, hlast, hchar]
      cases ds with
      | nil => rfl
      | cons d rest =>
        have hfront := ih (by simp) fun c hc => hds c (List.mem_append_left _ hc)
        rw [hzero, Nat.toDigits_zero, ← List.replicate_succ'] at hfront
        simp only [List.length_append, List.length_cons, List.length_nil] at hfront ⊢
        rw [← hfront]
        simp
    · have hfront : ds ≠ [] := by
        rintro rfl
        have hnil : number [] = 0 := rfl
        omega
      have hdiv : number (ds ++ [c]) / 10 = number ds := by omega
      have hmod : number (ds ++ [c]) % 10 = c.toNat - 48 := by omega
      rw [Nat.toDigits_of_base_le (by omega) (by omega), hdiv, hmod, hchar, List.length_append,
        List.length_append, List.length_singleton, Nat.add_sub_add_right, ← List.append_assoc,
        ih hfront fun c hc => hds c (List.mem_append_left _ hc)]

theorem number_eq_zero_iff {ds : List Char} (hds : ∀ c ∈ ds, c.isDigit = true) :
    number ds = 0 ↔ ∀ c ∈ ds, c = '0' := by
  constructor
  · intro hzero c hc
    have hpadded := padded_number (List.ne_nil_of_mem hc) hds
    rw [hzero, Nat.toDigits_zero, ← List.replicate_succ'] at hpadded
    exact List.eq_of_mem_replicate (hpadded ▸ hc)
  · intro h
    have hzeros : ds = List.replicate ds.length '0' := List.eq_replicate_of_mem h
    rw [hzeros, number, Nat.ofDigitChars_replicate_zero, Nat.mul_zero]

theorem getLast?_toDigits (n : Nat) : (Nat.toDigits 10 n).getLast? = some (n % 10).digitChar := by
  by_cases hsmall : n < 10
  · rw [Nat.toDigits_of_lt_base hsmall, Nat.mod_eq_of_lt hsmall]
    rfl
  · rw [Nat.toDigits_of_base_le (by omega) (by omega), List.getLast?_concat]

theorem getLast?_toDigits_ne {n : Nat} (h : n % 10 ≠ 0) :
    (Nat.toDigits 10 n).getLast? ≠ some '0' := by
  have hchar : ∀ r < 10, r ≠ 0 → r.digitChar ≠ '0' := by decide
  rw [getLast?_toDigits, Ne, Option.some_inj]
  exact hchar _ (Nat.mod_lt _ (by omega)) h

/-! ## Plain numerals -/

/-- No exponent and no plus, one zero at most in front and none at the end behind the point, digits
on both sides of a point, and a minus before no zero. -/
structure Numeral.Plain (m : Numeral) : Prop where
  sign : m.sign ≠ .plus
  exponent : m.exponent = none
  digits : ∀ c ∈ m.whole ++ m.fractionDigits, c.isDigit = true
  whole : m.whole ≠ []
  leading : m.whole.head? = some '0' → m.whole = ['0']
  point : m.fraction ≠ some []
  trailing : m.fractionDigits.getLast? ≠ some '0'
  nonzero : m.sign = .minus → ∃ c ∈ m.whole ++ m.fractionDigits, c ≠ '0'

/-- A text in plain decimal notation. -/
def IsPlain (s : String) : Prop := ∃ m : Numeral, m.Plain ∧ s.toList = m.chars

/-- The plain numeral of a number. -/
def plain (a : Decimal) : Numeral where
  sign := if a.isNegative then .minus else .absent
  whole := a.wholeDigits
  fraction := if a.scale = 0 then none else some a.fractionDigits
  exponent := none

section

variable (a : Decimal)

theorem length_paddedDigits : a.paddedDigits.length =
    max (a.scale + 1) (Nat.toDigits 10 a.digits.natAbs).length := by
  simp only [paddedDigits, List.length_append, List.length_replicate]
  omega

theorem length_wholeDigits : a.wholeDigits.length = a.paddedDigits.length - a.scale := by
  rw [wholeDigits, List.length_take]
  omega

theorem length_fractionDigits : a.fractionDigits.length = a.scale := by
  have hlength := length_paddedDigits a
  rw [fractionDigits, List.length_drop]
  omega

theorem whole_append_fraction : a.wholeDigits ++ a.fractionDigits = a.paddedDigits :=
  List.take_append_drop ..

theorem number_paddedDigits : number a.paddedDigits = a.digits.natAbs := by
  rw [paddedDigits, number, Nat.ofDigitChars_append, Nat.ofDigitChars_replicate_zero, Nat.mul_zero,
    Nat.ofDigitChars_ten_toDigits]

theorem isDigit_paddedDigits : ∀ c ∈ a.paddedDigits, c.isDigit = true := by
  intro c hc
  rcases List.mem_append.1 hc with hzero | hdigit
  · rw [List.eq_of_mem_replicate hzero]
    rfl
  · exact Json.isDigit_toDigits _ c hdigit

theorem fractionDigits_plain : a.plain.fractionDigits = a.fractionDigits := by
  by_cases hscale : a.scale = 0
  · rw [List.eq_nil_of_length_eq_zero (a.length_fractionDigits.trans hscale)]
    simp [Numeral.fractionDigits, plain, hscale]
  · simp [Numeral.fractionDigits, plain, hscale]

theorem chars_plain : a.plain.chars = a.chars := by
  unfold Numeral.chars Numeral.mantissa Numeral.unsigned plain chars
  cases a.isNegative <;> by_cases hscale : a.scale = 0 <;> simp [hscale, Sign.chars]

theorem allDigits_plain : a.plain.whole ++ a.plain.fractionDigits = a.paddedDigits := by
  rw [fractionDigits_plain]
  exact a.whole_append_fraction

theorem isMinus_plain : a.plain.sign.isMinus = a.isNegative := by
  unfold plain
  cases a.isNegative <;> rfl

theorem signed_natAbs :
    (if a.isNegative then -(a.digits.natAbs : Int) else a.digits.natAbs) = a.digits := by
  unfold isNegative
  split
  · next hnegative =>
    have := of_decide_eq_true hnegative
    omega
  · next hpositive =>
    have := of_decide_eq_false (Bool.eq_false_iff.2 hpositive)
    omega

theorem plain_digits : a.plain.digits = a.digits := by
  rw [Numeral.digits, ← signed_eq, allDigits_plain, number_paddedDigits, isMinus_plain,
    signed_natAbs]

theorem plain_places : a.plain.places = a.scale := by
  rw [Numeral.places, fractionDigits_plain, length_fractionDigits]

theorem plain_inRange : a.plain.InRange := by
  have hscale := a.scale_le
  have hshift : a.plain.shift = 0 := rfl
  rw [Numeral.InRange, plain_places, hshift, sub_zero, Nat.abs_cast]
  exact_mod_cast hscale

theorem value_plain : a.plain.value = a.value := by
  have hshift : a.plain.shift = 0 := rfl
  rw [Numeral.value_eq, plain_digits, plain_places, hshift, zero_sub, value, rational_eq_zpow]

theorem wholeDigits_ne_nil : a.wholeDigits ≠ [] := by
  have hwhole := a.length_wholeDigits
  have hlength := a.length_paddedDigits
  exact List.ne_nil_of_length_pos (by omega)

/-- A number is written as a numeral without blanks around it. -/
theorem spells_text : Spells a.text a.plain := by
  refine ⟨⟨?_, ?_, nofun⟩, [], [], ?_, nofun, nofun⟩
  · exact List.append_ne_nil_of_left_ne_nil a.wholeDigits_ne_nil _
  · rw [allDigits_plain]
    exact a.isDigit_paddedDigits
  · rw [chars_plain, text]
    simp

theorem ofText_text : ofText a.text = .ok a := by
  rcases ofText_cases a.spells_text with ⟨-, b, hb, hvalue⟩ | ⟨hrange, -⟩
  · rw [hb, value_inj.1 (hvalue.trans a.value_plain)]
  · exact absurd a.plain_inRange hrange

theorem paddedDigits_of_scale_lt {a : Decimal}
    (h : a.scale < (Nat.toDigits 10 a.digits.natAbs).length) :
    a.paddedDigits = Nat.toDigits 10 a.digits.natAbs := by
  rw [paddedDigits, Nat.sub_eq_zero_of_le h]
  rfl

/-- A zero in front is the only digit before the point. -/
theorem wholeDigits_eq_zero (h : a.wholeDigits.head? = some '0') : a.wholeDigits = ['0'] := by
  have hwhole := a.length_wholeDigits
  have hlength := a.length_paddedDigits
  by_cases hscale : a.scale < (Nat.toDigits 10 a.digits.natAbs).length
  · -- the digits of a positive number start with no zero
    have hpadded := paddedDigits_of_scale_lt hscale
    rw [wholeDigits, List.head?_take, if_neg (by omega), hpadded] at h
    have hzero : a.digits.natAbs = 0 := by
      by_contra hne
      exact Json.head?_toDigits (by omega) h
    have hnone : a.scale = 0 := by
      rw [hzero, Nat.toDigits_zero] at hscale
      exact Nat.lt_one_iff.1 hscale
    rw [wholeDigits, hpadded, hnone, hzero]
    rfl
  · have hone : a.wholeDigits.length = 1 := by omega
    obtain ⟨c, hc⟩ := List.length_eq_one_iff.1 hone
    rw [hc, List.head?_singleton, Option.some_inj] at h
    rw [hc, h]

theorem getLast?_fractionDigits : a.fractionDigits.getLast? ≠ some '0' := by
  have hfraction := a.length_fractionDigits
  have hlength := a.length_paddedDigits
  by_cases hscale : a.scale = 0
  · rw [List.eq_nil_of_length_eq_zero (hfraction.trans hscale)]
    nofun
  · have hdigit : a.digits.natAbs % 10 ≠ 0 := by
      have htrimmed := a.trimmed.resolve_left hscale
      omega
    have hlast : a.paddedDigits.getLast? = (Nat.toDigits 10 a.digits.natAbs).getLast? :=
      List.getLast?_append_of_ne_nil _ Nat.toDigits_ne_nil
    rw [fractionDigits, List.getLast?_drop, if_neg (by omega), hlast]
    exact getLast?_toDigits_ne hdigit

theorem plain_isPlain : a.plain.Plain where
  sign := by
    unfold plain
    cases a.isNegative <;> nofun
  exponent := rfl
  digits := by
    rw [allDigits_plain]
    exact a.isDigit_paddedDigits
  whole := a.wholeDigits_ne_nil
  leading := a.wholeDigits_eq_zero
  point := by
    have hfraction := a.length_fractionDigits
    change (if a.scale = 0 then none else some a.fractionDigits) ≠ some []
    split
    · nofun
    · next hscale =>
      intro h
      rw [Option.some_inj.1 h] at hfraction
      exact hscale hfraction.symm
  trailing := by
    rw [fractionDigits_plain]
    exact a.getLast?_fractionDigits
  nonzero := by
    intro hsign
    have hnegative : a.isNegative = true := by
      rw [← isMinus_plain, hsign]
      rfl
    have hdigits : a.digits < 0 := of_decide_eq_true hnegative
    rw [allDigits_plain]
    by_contra hzeros
    push Not at hzeros
    have hzero := (number_eq_zero_iff a.isDigit_paddedDigits).2 hzeros
    rw [number_paddedDigits] at hzero
    omega

end

/-! ## Uniqueness -/

namespace Numeral.Plain

variable {m : Numeral}

theorem shift (hm : m.Plain) : m.shift = 0 := by
  rw [Numeral.shift, hm.exponent]
  rfl

theorem wellFormed (hm : m.Plain) : m.WellFormed where
  nonempty := List.append_ne_nil_of_left_ne_nil hm.whole _
  digits := hm.digits
  exponent := by
    rw [hm.exponent]
    nofun

theorem spells {s : String} (hm : m.Plain) (hs : s.toList = m.chars) : Spells s m :=
  ⟨hm.wellFormed, [], [], by simpa using hs, nofun, nofun⟩

theorem natAbs_digits (m : Numeral) : m.digits.natAbs = number (m.whole ++ m.fractionDigits) := by
  rw [Numeral.digits, ← signed_eq]
  split <;> omega

/-- The last digit behind the point counts. -/
theorem trimmed (hm : m.Plain) : m.places = 0 ∨ m.digits % 10 ≠ 0 := by
  rcases List.eq_nil_or_concat m.fractionDigits with hnil | ⟨ds, c, hconcat⟩
  · exact .inl (congrArg List.length hnil)
  · have htrailing := hm.trailing
    have hdigit := hm.digits c (by simp [hconcat])
    obtain ⟨hlt, hchar⟩ := digitChar_of_isDigit hdigit
    have hnumber := natAbs_digits m
    rw [hconcat, List.concat_eq_append, ← List.append_assoc, number_concat] at hnumber
    rw [hconcat, List.concat_eq_append, List.getLast?_concat, Ne, Option.some_inj, ← hchar]
      at htrailing
    have hnonzero : c.toNat - 48 ≠ 0 := fun hzero => htrailing (hzero ▸ rfl)
    omega

/-- The decimal that a plain numeral in range stands for. -/
def toDecimal (hm : m.Plain) (hrange : m.InRange) : Decimal where
  digits := m.digits
  scale := m.places
  scale_le := by
    rw [Numeral.InRange, hm.shift, sub_zero, Nat.abs_cast] at hrange
    exact_mod_cast hrange
  trimmed := hm.trimmed

theorem value_toDecimal (hm : m.Plain) (hrange : m.InRange) :
    (hm.toDecimal hrange).value = m.value := by
  rw [Decimal.value, rational_eq_zpow, m.value_eq, hm.shift, zero_sub]
  rfl

/-- Only a single digit before the point is put in front of the digits of the number. -/
theorem paddedDigits_toDecimal (hm : m.Plain) (hrange : m.InRange) :
    (hm.toDecimal hrange).paddedDigits = m.whole ++ m.fractionDigits := by
  have hpadded := padded_number hm.wellFormed.nonempty hm.digits
  rw [← natAbs_digits] at hpadded
  have hwhole := List.length_pos_of_ne_nil hm.whole
  have hlength : (m.whole ++ m.fractionDigits).length = m.whole.length + m.places :=
    List.length_append
  generalize hdigits : Nat.toDigits 10 m.digits.natAbs = digits at hpadded
  have hzeros : m.places + 1 - digits.length =
      (m.whole ++ m.fractionDigits).length - digits.length := by
    by_cases hone : m.whole.length = 1
    · omega
    · suffices (m.whole ++ m.fractionDigits).length - digits.length = 0 by omega
      by_contra hpositive
      obtain ⟨k, hk⟩ := Nat.exists_eq_succ_of_ne_zero hpositive
      rw [hk, List.replicate_succ, List.cons_append] at hpadded
      have hhead : m.whole.head? = some '0' := by
        rw [← List.head?_append_of_ne_nil _ hm.whole, ← hpadded, List.head?_cons]
      exact hone (congrArg List.length (hm.leading hhead))
  rw [← hpadded, ← hzeros, ← hdigits]
  rfl

theorem fraction_eq (hm : m.Plain) :
    m.fraction = if m.places = 0 then none else some m.fractionDigits := by
  have hpoint := hm.point
  unfold Numeral.places Numeral.fractionDigits
  cases hfraction : m.fraction with
  | none => rfl
  | some fraction =>
    have hne : fraction.length ≠ 0 := fun hlength =>
      hpoint (by rw [hfraction, List.eq_nil_of_length_eq_zero hlength])
    rw [Option.getD_some, if_neg hne]

theorem sign_eq (hm : m.Plain) : m.sign = if m.digits < 0 then .minus else .absent := by
  have hdigits : m.digits = m.sign.factor * number (m.whole ++ m.fractionDigits) := rfl
  cases hsign : m.sign with
  | absent =>
    rw [hsign, ← signed_eq] at hdigits
    have hpositive : ¬ m.digits < 0 := by
      rw [hdigits]
      exact Int.not_lt.2 (Int.natCast_nonneg _)
    rw [if_neg hpositive]
  | plus => exact absurd hsign hm.sign
  | minus =>
    obtain ⟨c, hc, hne⟩ := hm.nonzero hsign
    have hnumber : number (m.whole ++ m.fractionDigits) ≠ 0 := fun hzero =>
      hne ((number_eq_zero_iff hm.digits).1 hzero c hc)
    have hnegative : m.digits < 0 := by
      rw [hdigits, hsign, ← signed_eq]
      change -(number (m.whole ++ m.fractionDigits) : Int) < 0
      omega
    rw [if_pos hnegative]

/-- A plain numeral is the plain numeral of its number. -/
theorem plain_toDecimal (hm : m.Plain) (hrange : m.InRange) : (hm.toDecimal hrange).plain = m := by
  have hpadded := hm.paddedDigits_toDecimal hrange
  have hsplit : (m.whole ++ m.fractionDigits).length - m.places = m.whole.length := by
    rw [List.length_append, Numeral.places, Nat.add_sub_cancel]
  have hwhole : (hm.toDecimal hrange).wholeDigits = m.whole := by
    rw [wholeDigits, hpadded]
    change (m.whole ++ m.fractionDigits).take (_ - m.places) = _
    rw [hsplit, List.take_left]
  have hfraction : (hm.toDecimal hrange).fractionDigits = m.fractionDigits := by
    rw [Decimal.fractionDigits, hpadded]
    change (m.whole ++ m.fractionDigits).drop (_ - m.places) = _
    rw [hsplit, List.drop_left]
  have hsign : (if (hm.toDecimal hrange).isNegative then .minus else .absent) = m.sign := by
    simp only [hm.sign_eq, isNegative, decide_eq_true_eq]
    rfl
  calc (hm.toDecimal hrange).plain = ⟨m.sign, m.whole, m.fraction, m.exponent⟩ := by
        rw [plain, hsign, hwhole, hfraction, hm.fraction_eq, hm.exponent]
        rfl
    _ = m := rfl

end Numeral.Plain

/-- A plain text is written as it was read. -/
theorem text_of_isPlain {s : String} {a : Decimal} (hs : IsPlain s) (ha : ofText s = .ok a) :
    a.text = s := by
  obtain ⟨m, hm, hchars⟩ := hs
  rcases ofText_cases (hm.spells hchars) with ⟨hrange, b, hb, hvalue⟩ | ⟨-, herror⟩
  · cases ha.symm.trans hb
    have hdecimal : a = hm.toDecimal hrange :=
      value_inj.1 (hvalue.trans (hm.value_toDecimal hrange).symm)
    rw [text, ← chars_plain, hdecimal, hm.plain_toDecimal hrange, ← hchars, String.ofList_toList]
  · cases ha.symm.trans herror

/-! ## Writing and reading -/

/-- The text is a numeral with this value, with blanks around it. -/
def Denotes (s : String) (q : ℚ) : Prop := ∃ m, Spells s m ∧ m.value = q

theorem value_of_denotes {s : String} {a : Decimal} {q : ℚ} (ha : ofText s = .ok a)
    (hq : Denotes s q) : a.value = q := by
  obtain ⟨m, hm, rfl⟩ := hq
  rcases ofText_cases hm with ⟨-, b, hb, hvalue⟩ | ⟨-, herror⟩
  · cases ha.symm.trans hb
    exact hvalue
  · cases ha.symm.trans herror

theorem denotes_of_ofText {s : String} {a : Decimal} (ha : ofText s = .ok a) :
    Denotes s a.value := by
  obtain ⟨m, hm⟩ := exists_spells (s := s) (by simp [ha]) (by simp [ha])
  exact ⟨m, hm, (value_of_denotes ha ⟨m, hm, rfl⟩).symm⟩

theorem text_inj {a b : Decimal} : a.text = b.text ↔ a = b := by
  refine ⟨fun h => ?_, congrArg text⟩
  have hread := a.ofText_text
  rw [h, ofText_text] at hread
  exact (Except.ok.inj hread).symm

/-- Writing and reading are inverse. Every number is read back from its text. Whatever text is read,
it denotes its number, which is written in plain notation. Texts that are read are written alike
exactly if they denote the same, and a text in plain notation is written as it was read. -/
theorem reading_inverts_writing :
    (∀ a : Decimal, ofText a.text = .ok a) ∧
    (∀ (s : String) (a : Decimal), ofText s = .ok a → Denotes s a.value ∧ IsPlain a.text) ∧
    (∀ (s t : String) (a b : Decimal) (p q : ℚ), ofText s = .ok a → ofText t = .ok b →
      Denotes s p → Denotes t q → (a.text = b.text ↔ p = q)) ∧
    ∀ (s : String) (a : Decimal), IsPlain s → ofText s = .ok a → a.text = s := by
  refine ⟨ofText_text, fun s a ha => ⟨denotes_of_ofText ha, ?_⟩,
    fun s t a b p q ha hb hp hq => ?_, fun s a => text_of_isPlain⟩
  · exact ⟨a.plain, a.plain_isPlain, by rw [text, String.toList_ofList, chars_plain]⟩
  · rw [text_inj, ← value_inj, value_of_denotes ha hp, value_of_denotes hb hq]

/-- Minus twenty-five in scientific and in plain notation. -/
theorem reading_inverts_writing_scientific :
    ∃ a, ofText " -2.50E+1\t" = .ok a ∧ a.text = "-25" ∧ ofText a.text = .ok a ∧
      Denotes " -2.50E+1\t" a.value ∧ IsPlain a.text ∧
      ∀ p q, Denotes " -2.50E+1\t" p → Denotes "-25" q → p = q := by
  obtain ⟨hback, hplain, hsame, -⟩ := reading_inverts_writing
  have hread : ofText " -2.50E+1\t" = .ok (ofInt (-25)) := by rfl
  have htext : (ofInt (-25)).text = "-25" := by rfl
  have hother : ofText "-25" = .ok (ofInt (-25)) := by rfl
  exact ⟨ofInt (-25), hread, htext, hback _, (hplain _ _ hread).1, (hplain _ _ hread).2,
    fun p q hp hq => (hsame _ _ _ _ p q hread hother hp hq).1 rfl⟩

end PolicyExpr.Decimal
