import PolicyExpr.Proofs.Spelling

/-!
# Layouts of a document

A layout says where blanks stand in a written document. The two texts of a document are its texts in
two layouts, and the reader takes back a document from any: `readValue_value` is an induction over
documents, with enough fuel for the characters that are written and enough depth for the containers.
It is true of documents whose numbers are whole and fit 64 bits.
-/
namespace PolicyExpr.Json

/-! ## Layouts -/

/-- Only characters that the reader skips. -/
def Blank (cs : List Char) : Prop := ∀ c ∈ cs, isSpace c = true

theorem blank_nil : Blank [] := by simp [Blank]

theorem skipSpaces_blank {b cs : List Char} (h : Blank b) :
    skipSpaces (b ++ cs) = skipSpaces cs :=
  List.dropWhile_append_of_pos h

theorem skipSpaces_cons {c : Char} {cs : List Char} (h : isSpace c = false) :
    skipSpaces (c :: cs) = c :: cs := by
  simp [skipSpaces, h]

/-- A separator and a closing mark end a numeral. -/
theorem endsNumeral_mark {c : Char} {cs : List Char} (h : c ∈ [',', ']', '\x7d']) :
    EndsNumeral (c :: cs) := by
  rintro d ⟨⟩
  simp only [List.mem_cons, List.not_mem_nil, or_false] at h
  rcases h with rfl | rfl | rfl <;> decide

theorem endsNumeral_blank {b : List Char} {c : Char} {cs : List Char} (hb : Blank b)
    (h : EndsNumeral (c :: cs)) : EndsNumeral (b ++ c :: cs) := by
  cases b with
  | nil => exact h
  | cons d b =>
    rintro c ⟨⟩
    have space := hb d List.mem_cons_self
    simp only [isSpace, Bool.or_eq_true, beq_iff_eq] at space
    rcases space with ((rfl | rfl) | rfl) | rfl <;> decide

/-- Where blanks stand in a written document: in front of the items and the closing mark of a
container at a level, and behind a colon. -/
structure Layout where
  lineBreak : Nat → List Char
  gap : List Char
  blank_lineBreak : ∀ level, Blank (lineBreak level)
  blank_gap : Blank gap

namespace Layout

/-- The layout without blanks. -/
def dense : Layout where
  lineBreak _ := []
  gap := []
  blank_lineBreak _ := blank_nil
  blank_gap := blank_nil

/-- The layout with a line for every item. -/
def broken : Layout where
  lineBreak := Json.lineBreak
  gap := [' ']
  blank_lineBreak level := by
    simp only [Blank, Json.lineBreak, List.mem_cons, List.mem_replicate]
    rintro c (rfl | ⟨-, rfl⟩) <;> rfl
  blank_gap := by
    simp only [Blank, List.mem_singleton]
    rintro c rfl
    rfl

@[simp] theorem lineBreak_dense (level : Nat) : dense.lineBreak level = [] := rfl

@[simp] theorem gap_dense : dense.gap = [] := rfl

@[simp] theorem lineBreak_broken (level : Nat) :
    broken.lineBreak level = Json.lineBreak level := rfl

@[simp] theorem gap_broken : broken.gap = [' '] := rfl

variable (y : Layout)

mutual

/-- A document that is written in a layout. -/
def value (level : Nat) : Json → List Char
  | null => "null".toList
  | bool true => "true".toList
  | bool false => "false".toList
  | number n => n.chars
  | text s => quoted s
  | array [] => ['[', ']']
  | array (item :: rest) => '[' :: (y.lineBreak (level + 1) ++ items level (item :: rest))
  | object [] => ['\x7b', '\x7d']
  | object (entry :: rest) => '\x7b' :: (y.lineBreak (level + 1) ++ entries level (entry :: rest))

/-- Items up to the closing bracket of an array at a level. -/
def items (level : Nat) : List Json → List Char
  | [] => []
  | [item] => value (level + 1) item ++ (y.lineBreak level ++ [']'])
  | item :: next :: rest =>
    value (level + 1) item ++ ',' :: (y.lineBreak (level + 1) ++ items level (next :: rest))

/-- Entries up to the closing brace of an object at a level. -/
def entries (level : Nat) : List (String × Json) → List Char
  | [] => []
  | [(key, item)] =>
    quoted key ++ ':' :: (y.gap ++ (value (level + 1) item ++ (y.lineBreak level ++ ['\x7d'])))
  | (key, item) :: next :: rest =>
    quoted key ++ ':' :: (y.gap ++ (value (level + 1) item ++
      ',' :: (y.lineBreak (level + 1) ++ entries level (next :: rest))))

end

@[simp] theorem value_array (level : Nat) (item : Json) (rest : List Json) :
    y.value level (array (item :: rest)) =
      '[' :: (y.lineBreak (level + 1) ++ y.items level (item :: rest)) := rfl

@[simp] theorem value_object (level : Nat) (entry : String × Json)
    (rest : List (String × Json)) :
    y.value level (object (entry :: rest)) =
      '\x7b' :: (y.lineBreak (level + 1) ++ y.entries level (entry :: rest)) := rfl

end Layout

mutual

/-- The text without blanks is the text in the dense layout. Its level does not matter. -/
theorem compact_eq : ∀ (level : Nat) (j : Json), j.compact = Layout.dense.value level j
  | _, null => rfl
  | _, bool true => rfl
  | _, bool false => rfl
  | _, number _ => rfl
  | _, text _ => rfl
  | _, array [] => rfl
  | level, array (item :: rest) =>
    congrArg (List.cons '[') (compactItems_eq level (item :: rest) (List.cons_ne_nil _ _))
  | _, object [] => rfl
  | level, object (entry :: rest) =>
    congrArg (List.cons '\x7b') (compactEntries_eq level (entry :: rest) (List.cons_ne_nil _ _))

theorem compactItems_eq (level : Nat) : ∀ js : List Json, js ≠ [] →
    separated [','] (compactItems js) ++ [']'] = Layout.dense.items level js
  | [], h => absurd rfl h
  | [item], _ => by
    simp [compactItems, separated, Layout.items, compact_eq (level + 1) item]
  | item :: next :: rest, _ => by
    have ih := compactItems_eq level (next :: rest) (by simp)
    simpa [compactItems, separated, Layout.items, compact_eq (level + 1) item] using ih

theorem compactEntries_eq (level : Nat) : ∀ es : List (String × Json), es ≠ [] →
    separated [','] (compactEntries es) ++ ['\x7d'] = Layout.dense.entries level es
  | [], h => absurd rfl h
  | [(key, item)], _ => by
    simp [compactEntries, separated, Layout.entries, compact_eq (level + 1) item]
  | (key, item) :: next :: rest, _ => by
    have ih := compactEntries_eq level (next :: rest) (by simp)
    simpa [compactEntries, separated, Layout.entries, compact_eq (level + 1) item]
      using ih

end

mutual

/-- The indented text is the text in the broken layout. -/
theorem indentedAt_eq : ∀ (level : Nat) (j : Json), j.indentedAt level = Layout.broken.value level j
  | _, null => rfl
  | _, bool true => rfl
  | _, bool false => rfl
  | _, number _ => rfl
  | _, text _ => rfl
  | _, array [] => rfl
  | level, array (item :: rest) => by
    have items := indentedItems_eq level (item :: rest) (List.cons_ne_nil _ _)
    rw [Layout.value_array, ← items, ← List.append_assoc, ← List.append_assoc]
    rfl
  | _, object [] => rfl
  | level, object (entry :: rest) => by
    have entries := indentedEntries_eq level (entry :: rest) (List.cons_ne_nil _ _)
    rw [Layout.value_object, ← entries, ← List.append_assoc, ← List.append_assoc]
    rfl

theorem indentedItems_eq (level : Nat) : ∀ js : List Json, js ≠ [] →
    separated (',' :: lineBreak (level + 1)) (indentedItems (level + 1) js) ++
      (lineBreak level ++ [']']) = Layout.broken.items level js
  | [], h => absurd rfl h
  | [item], _ => by
    simp [indentedItems, separated, Layout.items, indentedAt_eq (level + 1) item]
  | item :: next :: rest, _ => by
    have ih := indentedItems_eq level (next :: rest) (by simp)
    simpa [indentedItems, separated, Layout.items, indentedAt_eq (level + 1) item]
      using ih

theorem indentedEntries_eq (level : Nat) : ∀ es : List (String × Json), es ≠ [] →
    separated (',' :: lineBreak (level + 1)) (indentedEntries (level + 1) es) ++
      (lineBreak level ++ ['\x7d']) = Layout.broken.entries level es
  | [], h => absurd rfl h
  | [(key, item)], _ => by
    simp [indentedEntries, separated, Layout.entries, indentedAt_eq (level + 1) item]
  | (key, item) :: next :: rest, _ => by
    have ih := indentedEntries_eq level (next :: rest) (by simp)
    simpa [indentedEntries, separated, Layout.entries,
      indentedAt_eq (level + 1) item] using ih

end

/-! ## Documents -/

mutual

/-- The number of containers inside one another. -/
def nesting : Json → Nat
  | null => 0
  | bool _ => 0
  | number _ => 0
  | text _ => 0
  | array js => itemsNesting js + 1
  | object es => entriesNesting es + 1

def itemsNesting : List Json → Nat
  | [] => 0
  | item :: rest => max (nesting item) (itemsNesting rest)

def entriesNesting : List (String × Json) → Nat
  | [] => 0
  | (_, item) :: rest => max (nesting item) (entriesNesting rest)

end

mutual

/-- Every number is a whole number that fits 64 bits. -/
def HasWords : Json → Prop
  | null => True
  | bool _ => True
  | number (.int n) => IsWord n
  | number (.float _) => False
  | text _ => True
  | array js => ItemsHaveWords js
  | object es => EntriesHaveWords es

def ItemsHaveWords : List Json → Prop
  | [] => True
  | item :: rest => HasWords item ∧ ItemsHaveWords rest

def EntriesHaveWords : List (String × Json) → Prop
  | [] => True
  | (_, item) :: rest => HasWords item ∧ EntriesHaveWords rest

end

/-- Whether a numeral starts with a character. -/
def startsNumeral (c : Char) : Bool := c == '-' || c.isDigit

theorem ne_of_startsNumeral {c d : Char} (hc : startsNumeral c = true)
    (hd : startsNumeral d = false) : c ≠ d := by
  rintro rfl
  simp [hc] at hd

theorem isSpace_of_startsNumeral {c : Char} (hc : startsNumeral c = true) : isSpace c = false := by
  simp only [isSpace, Bool.or_eq_false_iff, beq_eq_false_iff_ne]
  exact ⟨⟨⟨ne_of_startsNumeral hc rfl, ne_of_startsNumeral hc rfl⟩, ne_of_startsNumeral hc rfl⟩,
    ne_of_startsNumeral hc rfl⟩

theorem exists_chars_int (n : Int) :
    ∃ c cs, (Number.int n).chars = c :: cs ∧ startsNumeral c = true := by
  simp only [Number.chars]
  split
  next => exact ⟨_, _, rfl, rfl⟩
  next =>
    cases hdigits : Nat.toDigits 10 n.natAbs with
    | nil => exact absurd hdigits Nat.toDigits_ne_nil
    | cons c cs =>
      have digit := isDigit_toDigits n.natAbs c (hdigits ▸ List.mem_cons_self)
      exact ⟨c, cs, rfl, by simp [startsNumeral, digit]⟩

theorem readValue_int {n : Int} {fuel depth : Nat} {before rest : List Char} (hn : IsWord n)
    (hbefore : Blank before) (hrest : EndsNumeral rest) :
    readValue (fuel + 1) depth (before ++ ((Number.int n).chars ++ rest)) =
      some (number (.int n), rest) := by
  obtain ⟨c, cs, hchars, hc⟩ := exists_chars_int n
  have numeral := readNumeral?_int n hrest
  rw [hchars, List.cons_append] at numeral
  rw [readValue, skipSpaces_blank hbefore, hchars, List.cons_append,
    skipSpaces_cons (isSpace_of_startsNumeral hc)]
  split
  iterate 6 next h => exact absurd (List.cons.inj h).1 (ne_of_startsNumeral hc rfl)
  next => simp [numeral, value?_wholeNumeral hn]

/-- A document starts with a character that is no blank and closes no container. -/
theorem exists_value (y : Layout) (level : Nat) (j : Json) (hj : j.HasWords) :
    ∃ c cs, y.value level j = c :: cs ∧ isSpace c = false ∧ c ≠ ']' := by
  match j with
  | null => exact ⟨_, _, rfl, rfl, by decide⟩
  | bool true => exact ⟨_, _, rfl, rfl, by decide⟩
  | bool false => exact ⟨_, _, rfl, rfl, by decide⟩
  | number (.int n) =>
    obtain ⟨c, cs, hchars, hc⟩ := exists_chars_int n
    exact ⟨c, cs, hchars, isSpace_of_startsNumeral hc, ne_of_startsNumeral hc rfl⟩
  | text _ => exact ⟨_, _, rfl, rfl, by decide⟩
  | array [] => exact ⟨_, _, rfl, rfl, by decide⟩
  | array (_ :: _) => exact ⟨_, _, rfl, rfl, by decide⟩
  | object [] => exact ⟨_, _, rfl, rfl, by decide⟩
  | object (_ :: _) => exact ⟨_, _, rfl, rfl, by decide⟩

theorem exists_items (y : Layout) (level : Nat) (item : Json) (rest : List Json)
    (hitem : item.HasWords) :
    ∃ c cs, y.items level (item :: rest) = c :: cs ∧ isSpace c = false ∧ c ≠ ']' := by
  obtain ⟨c, cs, hvalue, hc⟩ := exists_value y (level + 1) item hitem
  cases rest with
  | nil => exact ⟨c, _, by rw [Layout.items, hvalue]; rfl, hc⟩
  | cons next rest => exact ⟨c, _, by rw [Layout.items, hvalue]; rfl, hc⟩

theorem exists_entries (y : Layout) (level : Nat) (entry : String × Json)
    (rest : List (String × Json)) :
    ∃ cs, y.entries level (entry :: rest) = '"' :: cs := by
  cases rest with
  | nil => exact ⟨_, rfl⟩
  | cons next rest => exact ⟨_, rfl⟩

mutual

/-- What is written in some layout is read, whatever follows that does not continue a numeral. -/
theorem readValue_value (y : Layout) : ∀ (j : Json) {level fuel depth : Nat}
    {before rest : List Char}, j.HasWords → j.nesting ≤ depth →
    (y.value level j).length ≤ fuel → Blank before → EndsNumeral rest →
    readValue fuel depth (before ++ (y.value level j ++ rest)) = some (j, rest)
  | j, level, 0, _, _, _, hj, _, hfuel, _, _ => by
    obtain ⟨c, cs, hvalue, -⟩ := exists_value y level j hj
    simp [hvalue] at hfuel
  | null, _, fuel + 1, _, before, rest, _, _, _, hbefore, _ => by
    rw [readValue, skipSpaces_blank hbefore]
    rfl
  | bool true, _, fuel + 1, _, _, _, _, _, _, hbefore, _ => by
    rw [readValue, skipSpaces_blank hbefore]
    rfl
  | bool false, _, fuel + 1, _, _, _, _, _, _, hbefore, _ => by
    rw [readValue, skipSpaces_blank hbefore]
    rfl
  | number (.int n), _, fuel + 1, _, _, _, hn, _, _, hbefore, hrest =>
    readValue_int hn hbefore hrest
  | text s, level, fuel + 1, _, _, rest, _, _, _, hbefore, _ => by
    have written : y.value level (text s) ++ rest = '"' :: (quotedRest s ++ rest) := rfl
    rw [readValue, skipSpaces_blank hbefore, written, skipSpaces_cons rfl]
    simp [readQuoted_quotedRest]
  | array [], _, fuel + 1, depth + 1, _, _, _, _, _, hbefore, _ => by
    rw [readValue, skipSpaces_blank hbefore]
    rfl
  | array (item :: items), level, fuel + 1, depth + 1, _, rest, hj, hdepth, hfuel, hbefore, _ => by
    have written : y.value level (array (item :: items)) ++ rest =
        '[' :: (y.lineBreak (level + 1) ++ (y.items level (item :: items) ++ rest)) := by
      simp
    have read : readItems fuel depth (y.items level (item :: items) ++ rest) =
        some (item :: items, rest) :=
      readItems_items y (item :: items) (List.cons_ne_nil _ _) hj
        (by simpa [nesting] using hdepth) (by simp at hfuel; omega) blank_nil
    obtain ⟨c, cs, hitems, hspace, hbracket⟩ := exists_items y level item items hj.1
    rw [hitems, List.cons_append] at read
    rw [readValue, skipSpaces_blank hbefore, written, skipSpaces_cons rfl]
    simp only [skipSpaces_blank (y.blank_lineBreak (level + 1)), hitems, List.cons_append,
      skipSpaces_cons hspace]
    -- the first item is no closing bracket, so the array is not taken for an empty one
    split
    next h => exact absurd (List.cons.inj h).1 hbracket
    next => simp [read]
  | object [], _, fuel + 1, depth + 1, _, _, _, _, _, hbefore, _ => by
    rw [readValue, skipSpaces_blank hbefore]
    rfl
  | object (entry :: entries), level, fuel + 1, depth + 1, _, rest, hj, hdepth, hfuel, hbefore,
      _ => by
    have written : y.value level (object (entry :: entries)) ++ rest =
        '\x7b' :: (y.lineBreak (level + 1) ++ (y.entries level (entry :: entries) ++ rest)) := by
      simp
    have read : readEntries fuel depth (y.entries level (entry :: entries) ++ rest) =
        some (entry :: entries, rest) :=
      readEntries_entries y (entry :: entries) (List.cons_ne_nil _ _) hj
        (by simpa [nesting] using hdepth) (by simp at hfuel; omega) blank_nil
    obtain ⟨cs, hentries⟩ := exists_entries y level entry entries
    rw [hentries, List.cons_append] at read
    rw [readValue, skipSpaces_blank hbefore, written, skipSpaces_cons rfl]
    simp [skipSpaces_blank (y.blank_lineBreak (level + 1)), hentries,
      skipSpaces_cons, isSpace, read]
  | array _, _, fuel + 1, 0, _, _, _, hdepth, _, _, _ => by simp [nesting] at hdepth
  | object _, _, fuel + 1, 0, _, _, _, hdepth, _, _, _ => by simp [nesting] at hdepth

theorem readItems_items (y : Layout) : ∀ (js : List Json) {level fuel depth : Nat}
    {before rest : List Char}, js ≠ [] → ItemsHaveWords js → itemsNesting js ≤ depth →
    (y.items level js).length ≤ fuel → Blank before →
    readItems fuel depth (before ++ (y.items level js ++ rest)) = some (js, rest)
  | [], _, _, _, _, _, h, _, _, _, _ => absurd rfl h
  | item :: items, level, 0, _, _, _, _, hj, _, hfuel, _ => by
    obtain ⟨c, cs, hitems, -⟩ := exists_items y level item items hj.1
    simp [hitems] at hfuel
  | [item], level, fuel + 1, depth, before, rest, _, hj, hdepth, hfuel, hbefore => by
    have written : y.items level [item] ++ rest =
        y.value (level + 1) item ++ (y.lineBreak level ++ ']' :: rest) := by
      simp [Layout.items]
    have read : readValue fuel depth
        (before ++ (y.value (level + 1) item ++ (y.lineBreak level ++ ']' :: rest))) =
        some (item, y.lineBreak level ++ ']' :: rest) :=
      readValue_value y item hj.1 (by simpa [itemsNesting] using hdepth)
        (by simp [Layout.items] at hfuel; omega) hbefore
        (endsNumeral_blank (y.blank_lineBreak level) (endsNumeral_mark (by simp)))
    rw [readItems, written, read]
    simp [skipSpaces_blank (y.blank_lineBreak level), skipSpaces_cons, isSpace]
  | item :: next :: items, level, fuel + 1, depth, before, rest, _, hj, hdepth, hfuel, hbefore => by
    have written : y.items level (item :: next :: items) ++ rest = y.value (level + 1) item ++
        ',' :: (y.lineBreak (level + 1) ++ (y.items level (next :: items) ++ rest)) := by
      simp [Layout.items]
    obtain ⟨hitem, hitems⟩ := Nat.max_le.1 hdepth
    simp only [Layout.items, List.length_append, List.length_cons] at hfuel
    have read : readValue fuel depth (before ++ (y.value (level + 1) item ++
          ',' :: (y.lineBreak (level + 1) ++ (y.items level (next :: items) ++ rest)))) =
        some (item, ',' :: (y.lineBreak (level + 1) ++ (y.items level (next :: items) ++ rest))) :=
      readValue_value y item hj.1 hitem (by omega) hbefore (endsNumeral_mark (by simp))
    have others : readItems fuel depth
        (y.lineBreak (level + 1) ++ (y.items level (next :: items) ++ rest)) =
        some (next :: items, rest) :=
      readItems_items y (next :: items) (List.cons_ne_nil _ _) hj.2 hitems (by omega)
        (y.blank_lineBreak (level + 1))
    rw [readItems, written, read]
    simp [skipSpaces_cons, isSpace, others]

theorem readEntries_entries (y : Layout) : ∀ (es : List (String × Json)) {level fuel depth : Nat}
    {before rest : List Char}, es ≠ [] → EntriesHaveWords es → entriesNesting es ≤ depth →
    (y.entries level es).length ≤ fuel → Blank before →
    readEntries fuel depth (before ++ (y.entries level es ++ rest)) = some (es, rest)
  | [], _, _, _, _, _, h, _, _, _, _ => absurd rfl h
  | entry :: entries, level, 0, _, _, _, _, _, _, hfuel, _ => by
    obtain ⟨cs, hentries⟩ := exists_entries y level entry entries
    simp [hentries] at hfuel
  | [(key, item)], level, fuel + 1, depth, before, rest, _, hj, hdepth, hfuel, hbefore => by
    have written : y.entries level [(key, item)] ++ rest = '"' :: (quotedRest key ++ ':' ::
        (y.gap ++ (y.value (level + 1) item ++ (y.lineBreak level ++ '\x7d' :: rest)))) := by
      simp [Layout.entries, quoted, quotedRest]
    have read : readValue fuel depth
        (y.gap ++ (y.value (level + 1) item ++ (y.lineBreak level ++ '\x7d' :: rest))) =
        some (item, y.lineBreak level ++ '\x7d' :: rest) :=
      readValue_value y item hj.1 (by simpa [entriesNesting] using hdepth)
        (by simp [Layout.entries] at hfuel; omega) y.blank_gap
        (endsNumeral_blank (y.blank_lineBreak level) (endsNumeral_mark (by simp)))
    rw [readEntries, skipSpaces_blank hbefore, written, skipSpaces_cons rfl]
    simp [readQuoted_quotedRest, read, skipSpaces_blank (y.blank_lineBreak level), skipSpaces_cons,
      isSpace]
  | (key, item) :: next :: entries, level, fuel + 1, depth, before, rest, _, hj, hdepth, hfuel,
      hbefore => by
    have written : y.entries level ((key, item) :: next :: entries) ++ rest = '"' ::
        (quotedRest key ++ ':' :: (y.gap ++ (y.value (level + 1) item ++
        ',' :: (y.lineBreak (level + 1) ++ (y.entries level (next :: entries) ++ rest))))) := by
      simp [Layout.entries, quoted, quotedRest]
    obtain ⟨hitem, hentries⟩ := Nat.max_le.1 hdepth
    simp only [Layout.entries, List.length_append, List.length_cons] at hfuel
    have read : readValue fuel depth (y.gap ++ (y.value (level + 1) item ++
          ',' :: (y.lineBreak (level + 1) ++ (y.entries level (next :: entries) ++ rest)))) =
        some (item, ',' ::
          (y.lineBreak (level + 1) ++ (y.entries level (next :: entries) ++ rest))) :=
      readValue_value y item hj.1 hitem (by omega) y.blank_gap (endsNumeral_mark (by simp))
    have others : readEntries fuel depth
        (y.lineBreak (level + 1) ++ (y.entries level (next :: entries) ++ rest)) =
        some (next :: entries, rest) :=
      readEntries_entries y (next :: entries) (List.cons_ne_nil _ _) hj.2 hentries (by omega)
        (y.blank_lineBreak (level + 1))
    rw [readEntries, skipSpaces_blank hbefore, written, skipSpaces_cons rfl]
    simp [readQuoted_quotedRest, read, skipSpaces_cons, isSpace, others]

end

/-- A document that is written in some layout is read, unless it nests too deep. -/
theorem readNested_value (y : Layout) {j : Json} {depth : Nat} (hj : j.HasWords)
    (hdepth : j.nesting ≤ depth) : readNested depth (String.ofList (y.value 0 j)) = some j := by
  have fuel : (y.value 0 j).length ≤ 2 * (y.value 0 j).length + 2 := by omega
  have read : readValue (2 * (y.value 0 j).length + 2) depth ([] ++ (y.value 0 j ++ [])) =
      some (j, []) :=
    readValue_value y j hj hdepth fuel blank_nil (by rintro c ⟨⟩)
  rw [List.nil_append, List.append_nil] at read
  rw [readNested, String.toList_ofList, String.length_ofList, read]
  rfl

end PolicyExpr.Json
