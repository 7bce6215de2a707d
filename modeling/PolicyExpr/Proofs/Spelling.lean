import PolicyExpr.Json.Reader
import PolicyExpr.Json.Writer

/-!
# Texts and whole numbers of a document

The reader takes back what the writer makes of a text, whatever stands behind the closing quotation
mark: every escape is read as the character that it was written for. The same is true of a whole
number that fits 64 bits, where no numeral goes on behind it.
-/
namespace PolicyExpr.Json

/-! ## Quoted texts -/

/-- The four digits of a character below the blank spell its number. -/
theorem hexWord?_hexDigit {n : Nat} (h : n < 32) :
    hexWord? '0' '0' (hexDigit (n / 16)) (hexDigit n) = some n := by
  revert n
  decide

theorem readQuoted_escapeChar (seen : List Char) (c : Char) (rest : List Char) :
    readQuoted seen (escapeChar c ++ rest) = readQuoted (c :: seen) rest := by
  unfold escapeChar
  split
  · rfl
  · rfl
  · rfl
  · rfl
  · rfl
  · rfl
  · rfl
  next quote backslash _ _ _ _ _ =>
    split
    next hcontrol =>
      have unit := hexWord?_hexDigit hcontrol
      have alone : isLeading c.toNat = false ∧ isTrailing c.toNat = false := by
        simp [isLeading, isTrailing]
        omega
      simp only [List.cons_append, List.nil_append, readQuoted, unit, alone, Char.ofNat_toNat]
      rfl
    next hvisible =>
      have plain : (decide (c.toNat < 32) || c == '\\') = false := by
        simpa [hvisible] using backslash
      rw [List.singleton_append, readQuoted]
      · simp only [plain]
        rfl
      · exact quote
      · exact fun _ _ _ _ _ h => absurd h backslash
      · exact fun _ _ h => absurd h backslash

theorem readQuoted_escaped (cs seen rest : List Char) :
    readQuoted seen (cs.flatMap escapeChar ++ '"' :: rest) =
      some (String.ofList (seen.reverse ++ cs), rest) := by
  induction cs generalizing seen with
  | nil => simp [readQuoted]
  | cons c cs ih => simp [readQuoted_escapeChar, ih]

/-- The rest of a quoted text behind its first quotation mark. -/
def quotedRest (s : String) : List Char := s.toList.flatMap escapeChar ++ ['"']

theorem readQuoted_quotedRest (s : String) (rest : List Char) :
    readQuoted [] (quotedRest s ++ rest) = some (s, rest) := by
  simp [quotedRest, readQuoted_escaped]

/-! ## Whole numbers -/

/-- A number starts with no zero but the zero alone. -/
theorem head?_toDigits {n : Nat} (h : 0 < n) : (Nat.toDigits 10 n).head? ≠ some '0' := by
  induction n using Nat.strongRecOn with
  | ind n ih =>
    by_cases hsmall : n < 10
    · rw [Nat.toDigits_of_lt_base hsmall]
      have nonzero : ∀ n < 10, 0 < n → [n.digitChar].head? ≠ some '0' := by decide
      exact nonzero n hsmall h
    · have front := ih (n / 10) (by omega) (by omega)
      rw [Nat.toDigits_of_base_le (by omega) (by omega), List.head?_append]
      cases hhead : (Nat.toDigits 10 (n / 10)).head? with
      | none => exact absurd (List.head?_eq_none_iff.1 hhead) Nat.toDigits_ne_nil
      | some c => rwa [hhead] at front

theorem ofDigitChars_ge (n : Nat) (cs : List Char) : n ≤ Nat.ofDigitChars 10 cs n := by
  induction cs generalizing n with
  | nil => exact Nat.le_refl n
  | cons c cs ih =>
    rw [Nat.ofDigitChars_cons]
    have := ih (10 * n + (c.toNat - '0'.toNat))
    omega

/-- All digits of a number within the limit are taken. -/
theorem takeDigits_eq {limit n : Nat} {cs : List Char} (h : Nat.ofDigitChars 10 cs n ≤ limit) :
    takeDigits limit n cs = (Nat.ofDigitChars 10 cs n, []) := by
  induction cs generalizing n with
  | nil => rfl
  | cons c cs ih =>
    rw [Nat.ofDigitChars_cons] at h ⊢
    have fits : 10 * n + (c.toNat - 48) ≤ limit :=
      Nat.le_trans (ofDigitChars_ge (10 * n + (c.toNat - 48)) cs) h
    rw [takeDigits, if_pos fits]
    exact ih h

/-- A whole number that fits 64 bits, with or without sign. -/
def IsWord (n : Int) : Prop := Decimal.minInt64 ≤ n ∧ n ≤ maxWord

instance (n : Int) : Decidable (IsWord n) := inferInstanceAs (Decidable (_ ∧ _))

/-- The numeral of a whole number. -/
def wholeNumeral (n : Int) : Numeral := ⟨decide (n < 0), Nat.toDigits 10 n.natAbs, none, none⟩

theorem value?_wholeNumeral {n : Int} (h : IsWord n) : (wholeNumeral n).value? = some (.int n) := by
  obtain ⟨hlower, hupper⟩ := h
  simp only [Decimal.minInt64] at hlower
  have hmagnitude : n.natAbs ≤ maxWord := by
    simp only [maxWord, UInt64.size] at hupper ⊢
    omega
  have taken : takeDigits maxWord 0 (Nat.toDigits 10 n.natAbs) = (n.natAbs, []) := by
    rw [takeDigits_eq (by rwa [Nat.ofDigitChars_ten_toDigits]), Nat.ofDigitChars_ten_toDigits]
  simp only [Numeral.value?, wholeNumeral, taken]
  by_cases hsign : n < 0
  · have signed : (decide (n.natAbs = 0) || decide (9223372036854775808 < n.natAbs)) = false := by
      simp only [Bool.or_eq_false_iff, decide_eq_false_iff_not]
      omega
    have back : -(n.natAbs : Int) = n := by omega
    simp only [hsign, signed, back]
    rfl
  · have back : (n.natAbs : Int) = n := by omega
    simp only [hsign, back]
    rfl

theorem isDigit_toDigits (n : Nat) : ∀ c ∈ Nat.toDigits 10 n, c.isDigit = true := fun _ hc =>
  Nat.isDigit_of_mem_toDigits (by omega) (by omega) hc

/-- What may stand behind a numeral. -/
def EndsNumeral (rest : List Char) : Prop :=
  ∀ c ∈ rest.head?, c.isDigit = false ∧ c ≠ '.' ∧ c ≠ 'e' ∧ c ≠ 'E'

theorem readDigits?_toDigits (n : Nat) {rest : List Char} (h : EndsNumeral rest) :
    readDigits? (Nat.toDigits 10 n ++ rest) = some (Nat.toDigits 10 n, rest) := by
  have taken : rest.takeWhile Char.isDigit = [] ∧ rest.dropWhile Char.isDigit = rest := by
    cases rest with
    | nil => exact ⟨rfl, rfl⟩
    | cons c rest =>
      have := (h c rfl).1
      simp [this]
  unfold readDigits?
  rw [List.takeWhile_append_of_pos (isDigit_toDigits n),
    List.dropWhile_append_of_pos (isDigit_toDigits n), taken.1, taken.2,
    List.append_nil]
  split
  next hnil => exact absurd hnil Nat.toDigits_ne_nil
  next => rfl

theorem readNumeral?_int (n : Int) {rest : List Char} (h : EndsNumeral rest) :
    readNumeral? ((Number.int n).chars ++ rest) = some (wholeNumeral n, rest) := by
  have single : ¬((Nat.toDigits 10 n.natAbs).head? = some '0' ∧
      1 < (Nat.toDigits 10 n.natAbs).length) := by
    rintro ⟨hhead, hlength⟩
    by_cases hzero : n.natAbs = 0
    · simp [hzero] at hlength
    · exact head?_toDigits (by omega) hhead
  have behind : readFraction? rest = some (none, rest) ∧
      readExponent? rest = some (none, rest) := by
    cases rest with
    | nil => exact ⟨rfl, rfl⟩
    | cons c rest =>
      obtain ⟨-, hpoint, hlower, hupper⟩ := h c rfl
      constructor
      · rw [readFraction?]
        exact fun _ hc => hpoint (List.cons.inj hc).1
      · exact if_neg (not_or.2 ⟨hlower, hupper⟩)
  by_cases hsign : n < 0
  · simp [Number.chars, hsign, readNumeral?, readDigits?_toDigits _ h, single, behind, wholeNumeral]
  · -- no digit is taken for a sign
    have unsigned : ∀ cs, Nat.toDigits 10 n.natAbs ++ rest = '-' :: cs → False := by
      intro cs hcs
      cases hdigits : Nat.toDigits 10 n.natAbs with
      | nil => exact Nat.toDigits_ne_nil hdigits
      | cons c ds =>
        rw [hdigits] at hcs
        have digit := isDigit_toDigits n.natAbs c (hdigits ▸ List.mem_cons_self)
        rw [(List.cons.inj hcs).1] at digit
        exact absurd digit (by decide)
    simp [Number.chars, hsign, readNumeral?, readDigits?_toDigits _ h, single, behind,
      wholeNumeral]

end PolicyExpr.Json
