import PolicyExpr.Proofs.Layout
import PolicyExpr.Value.Document

/-!
# Values written and read

Documents spell values exactly as long as these hold whole numbers of 64 bits, have no Undefined and
no error in them and do not use the key of exact numbers. Such a value is read back from either of
its texts. What gets lost is the metadata: `bare` is the value without it.
-/
namespace PolicyExpr

/-! ## Whole numbers -/

theorem Decimal.numeral_whole {n : Decimal} (h : n.scale = 0) :
    n.numeral = Json.wholeNumeral n.digits := by
  have digits : 0 < (Nat.toDigits 10 n.digits.natAbs).length := Nat.length_toDigits_pos
  have whole : n.wholeDigits = Nat.toDigits 10 n.digits.natAbs := by
    simp [wholeDigits, paddedDigits, h, Nat.sub_eq_zero_of_le digits]
  simp [numeral, Json.wholeNumeral, whole, h, isNegative]

theorem Decimal.ofInt_digits {n : Decimal} (h : n.scale = 0) : ofInt n.digits = n := by
  obtain ⟨digits, scale, _, _⟩ := n
  cases h
  rfl

namespace Value

/-! ## Portable values -/

mutual

/-- Whether a document spells a value exactly: there is no Undefined and no error, numbers are whole
and fit 64 bits, and objects list each key once and none that is the key of exact numbers. -/
def isPortable : Value → Bool
  | ⟨.boolean _, _⟩ => true
  | ⟨.number n, _⟩ => n.isInteger && decide (Json.IsWord n.digits)
  | ⟨.text _, _⟩ => true
  | ⟨.array items, _⟩ => itemsPortable items
  | ⟨.object entries, _⟩ => decide (entries.map Prod.fst).Nodup && entriesPortable entries
  | ⟨.null, _⟩ => true
  | ⟨.undefined, _⟩ => false
  | ⟨.error _ _, _⟩ => false

def itemsPortable : List Value → Bool
  | [] => true
  | v :: rest => isPortable v && itemsPortable rest

def entriesPortable : List (String × Value) → Bool
  | [] => true
  | (key, v) :: rest => decide (key ≠ exactNumberKey) && isPortable v && entriesPortable rest

end

mutual

/-- The number of containers inside one another. -/
def nesting : Value → Nat
  | ⟨.array items, _⟩ => itemsNesting items + 1
  | ⟨.object entries, _⟩ => entriesNesting entries + 1
  | ⟨.boolean _, _⟩ => 0
  | ⟨.number _, _⟩ => 0
  | ⟨.text _, _⟩ => 0
  | ⟨.null, _⟩ => 0
  | ⟨.undefined, _⟩ => 0
  | ⟨.error _ _, _⟩ => 0

def itemsNesting : List Value → Nat
  | [] => 0
  | v :: rest => max (nesting v) (itemsNesting rest)

def entriesNesting : List (String × Value) → Nat
  | [] => 0
  | (_, v) :: rest => max (nesting v) (entriesNesting rest)

end

mutual

/-- The value without metadata, at every depth. -/
def bare : Value → Value
  | ⟨.boolean b, _⟩ => boolean b
  | ⟨.number n, _⟩ => number n
  | ⟨.text s, _⟩ => text s
  | ⟨.array items, _⟩ => array (bareItems items)
  | ⟨.object entries, _⟩ => object (bareEntries entries)
  | ⟨.null, _⟩ => null
  | ⟨.undefined, _⟩ => undefined
  | ⟨.error f l, _⟩ => ofKind (.error f l)

def bareItems : List Value → List Value
  | [] => []
  | v :: rest => bare v :: bareItems rest

def bareEntries : List (String × Value) → List (String × Value)
  | [] => []
  | (key, v) :: rest => (key, bare v) :: bareEntries rest

end

/-! ## Documents of values -/

theorem put_of_notMem {entries : List (String × Value)} {key : String} (v : Value)
    (h : key ∉ entries.map Prod.fst) : put entries key v = entries ++ [(key, v)] := by
  induction entries with
  | nil => rfl
  | cons e rest ih =>
    obtain ⟨k, w⟩ := e
    simp only [List.map_cons, List.mem_cons, not_or] at h
    rw [put, if_neg (Ne.symm h.1), ih h.2, List.cons_append]

/-- What a document has to be for a value. -/
structure Spells (j : Json) (v : Value) : Prop where
  words : j.HasWords
  nesting : j.nesting = v.nesting
  read : ofJson? j = some v.bare

mutual

/-- A portable value has a document that spells it. -/
theorem exists_spells : ∀ v : Value, v.isPortable = true → ∃ j, v.toJson = .ok j ∧ Spells j v
  | ⟨.boolean b, _⟩, _ => ⟨.bool b, rfl, trivial, rfl, rfl⟩
  | ⟨.number n, _⟩, h => by
    simp only [isPortable, Decimal.isInteger, Bool.and_eq_true, beq_iff_eq, decide_eq_true_eq] at h
    have written : n.toJson? = some (.int n.digits) := by
      rw [Decimal.toJson?, Decimal.numeral_whole h.1, Json.value?_wholeNumeral h.2]
    refine ⟨.number (.int n.digits), by simp only [toJson, written], h.2, rfl, ?_⟩
    simp only [ofJson?, Json.Number.toDecimal, Decimal.ofInt_digits h.1, bare]
  | ⟨.text s, _⟩, _ => ⟨.text s, rfl, trivial, rfl, rfl⟩
  | ⟨.array items, _⟩, h => by
    obtain ⟨js, hjs, hwords, hnesting, hread⟩ := exists_items_spell items h
    refine ⟨.array js, by simp only [toJson, hjs]; rfl, hwords, ?_, ?_⟩
    · simp only [Json.nesting, nesting, hnesting]
    · simp only [ofJson?, hread, bare, Option.map_some]
  | ⟨.object entries, _⟩, h => by
    simp only [isPortable, Bool.and_eq_true, decide_eq_true_eq] at h
    obtain ⟨js, hjs, hwords, hnesting, hread⟩ := exists_entries_spell entries h.2 h.1
    refine ⟨.object js, by simp only [toJson, hjs]; rfl, hwords, ?_, ?_⟩
    · simp only [Json.nesting, nesting, hnesting]
    · simp only [ofJson?, bare]
      exact hread [] (by simp)
  | ⟨.null, _⟩, _ => ⟨.null, rfl, trivial, rfl, rfl⟩
  | ⟨.undefined, _⟩, h => nomatch h
  | ⟨.error _ _, _⟩, h => nomatch h

theorem exists_items_spell : ∀ vs : List Value, itemsPortable vs = true →
    ∃ js, itemsToJson vs = .ok js ∧ Json.ItemsHaveWords js ∧
      Json.itemsNesting js = itemsNesting vs ∧ itemsOfJson? js = some (bareItems vs)
  | [], _ => ⟨[], rfl, trivial, rfl, rfl⟩
  | v :: rest, h => by
    simp only [itemsPortable, Bool.and_eq_true] at h
    obtain ⟨j, hj, hspells⟩ := exists_spells v h.1
    obtain ⟨js, hjs, hwords, hnesting, hread⟩ := exists_items_spell rest h.2
    refine ⟨j :: js, by simp only [itemsToJson, hj, hjs]; rfl, ⟨hspells.words, hwords⟩, ?_, ?_⟩
    · simp only [Json.itemsNesting, itemsNesting, hspells.nesting, hnesting]
    · simp only [itemsOfJson?, hspells.read, hread, bareItems]
      rfl

/-- The entries of an object are read behind others that have none of their keys. -/
theorem exists_entries_spell : ∀ es : List (String × Value), entriesPortable es = true →
    (es.map Prod.fst).Nodup → ∃ js, entriesToJson es = .ok js ∧ Json.EntriesHaveWords js ∧
      Json.entriesNesting js = entriesNesting es ∧
      ∀ seen, (∀ key ∈ es.map Prod.fst, key ∉ seen.map Prod.fst) →
        entriesOfJson? seen js = some (object (seen ++ bareEntries es))
  | [], _, _ => ⟨[], rfl, trivial, rfl, fun seen _ => by simp [entriesOfJson?, bareEntries]⟩
  | (key, v) :: rest, h, hkeys => by
    simp only [entriesPortable, Bool.and_eq_true, decide_eq_true_eq] at h
    obtain ⟨⟨hkey, hv⟩, hrest⟩ := h
    obtain ⟨hnew, hkeys⟩ := List.nodup_cons.1 hkeys
    obtain ⟨j, hj, hspells⟩ := exists_spells v hv
    obtain ⟨js, hjs, hwords, hnesting, hread⟩ := exists_entries_spell rest hrest hkeys
    refine ⟨(key, j) :: js, by simp only [entriesToJson, hj, hjs]; rfl, ⟨hspells.words, hwords⟩,
      ?_, fun seen hseen => ?_⟩
    · simp only [Json.entriesNesting, entriesNesting, hspells.nesting, hnesting]
    · have later := hread (seen ++ [(key, v.bare)]) fun other hother => by
        have apart := hseen other (List.mem_cons_of_mem key hother)
        have distinct : other ≠ key := fun h => hnew (h ▸ hother)
        simpa [distinct] using apart
      have placed := put_of_notMem v.bare (hseen key List.mem_cons_self)
      simp [entriesOfJson?, hspells.read, hkey, placed, later, bareEntries]

end

/-! ## Texts of values -/

/-- No portable value is displayed by a word of its own. -/
theorem display_of_portable {v : Value} (h : v.isPortable = true) :
    v.display = (do return (← v.toJson).render) := by
  obtain ⟨kind, m⟩ := v
  cases kind with
  | undefined => cases h
  | error f l => cases h
  | boolean b => rfl
  | number n => rfl
  | text s => rfl
  | array items => rfl
  | object entries => rfl
  | null => rfl

/-- A portable value is written and read back, from the text without blanks and from the indented
text alike. What is read has the same kinds, texts, numbers and keys in the same order at every
depth, and no metadata. -/
theorem round_trip {v : Value} (hv : v.isPortable = true) (hnesting : v.nesting < 128) :
    (∃ s, v.display = .ok s ∧ ofJsonText? s = some v.bare) ∧
    ∃ s, v.indented = .ok s ∧ ofJsonText? s = some v.bare := by
  obtain ⟨j, hj, hwords, hdepth, hread⟩ := exists_spells v hv
  have fits : j.nesting ≤ Json.maxNesting := by
    rw [hdepth, Json.maxNesting]
    omega
  have back (y : Json.Layout) : ofJsonText? (String.ofList (y.value 0 j)) = some v.bare := by
    rw [ofJsonText?, Json.read, Json.readNested_value y hwords fits, Option.bind_some, hread]
  constructor
  · refine ⟨j.render, ?_, ?_⟩
    · rw [display_of_portable hv, hj]
      rfl
    · rw [Json.render, Json.compact_eq 0]
      exact back .dense
  · refine ⟨j.renderIndented, ?_, ?_⟩
    · rw [indented, hj]
      rfl
    · rw [Json.renderIndented, Json.indentedAt_eq]
      exact back .broken

/-- The least whole number, a secret text, a backslash, and a key with a quotation mark. -/
theorem round_trip_secret :
    let least : Value := number (.ofInt Decimal.minInt64)
    let hidden : Value := ⟨.text "\\", .hidden⟩
    let v : Value := ⟨.object [("\"a\n", array [least, null]), ("b", hidden)], .hidden⟩
    v.isPortable = true ∧ v.nesting < 128 ∧
      (∃ s, v.display = .ok s ∧ ofJsonText? s = some v.bare) ∧
      ∃ s, v.indented = .ok s ∧ ofJsonText? s = some v.bare := by
  intro least hidden v
  have portable : v.isPortable = true := by decide
  have shallow : v.nesting < 128 := by decide
  exact ⟨portable, shallow, round_trip portable shallow⟩

end Value

end PolicyExpr
