import Mathlib.Data.List.Induction
import PolicyExpr.Proofs.Layout
import PolicyExpr.Proofs.Sameness
import PolicyExpr.Value.Document

/-!
# Documents read as values

A document is mirrored by its value: what is an object there is an object here, with the same keys
in the order of their first occurrence, each with the value of its last one. The only key that is
not like the others is that of exact numbers. As long as it stands alone in its objects, the reader
gives every document the value that mirrors it, and refuses a document exactly if a text under this
key spells no number. Beside other entries it loses those in front of it, and with entries behind
it the document is refused.
-/
namespace PolicyExpr

/-! ## The key of exact numbers -/

namespace Json

mutual

/-- Whether the key of exact numbers, in each object that has it, is the only entry. -/
def exactAlone : Json → Bool
  | null => true
  | bool _ => true
  | number _ => true
  | text _ => true
  | array items => itemsExactAlone items
  | object entries =>
    (!(entries.map Prod.fst).contains Value.exactNumberKey || entries.length == 1) &&
      entriesExactAlone entries

def itemsExactAlone : List Json → Bool
  | [] => true
  | item :: rest => exactAlone item && itemsExactAlone rest

def entriesExactAlone : List (String × Json) → Bool
  | [] => true
  | (_, item) :: rest => exactAlone item && entriesExactAlone rest

end

/-- Whether a document is a text that spells a number. -/
def spellsNumber : Json → Bool
  | text s => (Decimal.ofText s).isOk
  | _ => false

mutual

/-- Whether everything under the key of exact numbers spells a number. -/
def exactSpelled : Json → Bool
  | null => true
  | bool _ => true
  | number _ => true
  | text _ => true
  | array items => itemsExactSpelled items
  | object entries => entriesExactSpelled entries

def itemsExactSpelled : List Json → Bool
  | [] => true
  | item :: rest => exactSpelled item && itemsExactSpelled rest

def entriesExactSpelled : List (String × Json) → Bool
  | [] => true
  | (key, item) :: rest =>
    (key != Value.exactNumberKey || item.spellsNumber) && exactSpelled item &&
      entriesExactSpelled rest

end

theorem field?_concat (done : List (String × Json)) (key other : String) (item : Json) :
    (object (done ++ [(key, item)])).field? other =
      if key = other then some item else (object done).field? other := by
  simp [field?]

/-- A document that spells a number is a text. -/
theorem exists_of_spellsNumber {j : Json} (h : j.spellsNumber = true) :
    ∃ s n, j = text s ∧ Decimal.ofText s = .ok n := by
  cases j with
  | text s =>
    rw [spellsNumber] at h
    cases hread : Decimal.ofText s with
    | ok n => exact ⟨s, n, rfl, hread⟩
    | error e => simp [hread, Except.isOk, Except.toBool] at h
  | _ => cases h

/-- An object in which the key of exact numbers stands alone has no other entry. -/
theorem exists_exact {entries : List (String × Json)} (h : (object entries).exactAlone = true)
    (hkey : Value.exactNumberKey ∈ entries.map Prod.fst) :
    ∃ item, entries = [(Value.exactNumberKey, item)] := by
  rw [exactAlone, List.contains_iff_mem.2 hkey] at h
  match entries, h, hkey with
  | [(key, item)], _, hkey =>
    cases List.mem_singleton.1 hkey
    exact ⟨item, rfl⟩

theorem exactSpelled_exact (item : Json) :
    (object [(Value.exactNumberKey, item)]).exactSpelled = item.spellsNumber := by
  have spelled : item.spellsNumber = true → item.exactSpelled = true := fun h => by
    obtain ⟨s, n, rfl, -⟩ := exists_of_spellsNumber h
    rfl
  simpa [exactSpelled, entriesExactSpelled] using spelled

theorem exists_field? {entries : List (String × Json)} {key : String}
    (h : key ∈ entries.map Prod.fst) :
    ∃ item, (object entries).field? key = some item ∧ item ∈ entries.map Prod.snd := by
  induction entries using List.reverseRecOn with
  | nil => cases h
  | append_singleton rest e ih =>
    obtain ⟨k, item⟩ := e
    rw [field?_concat]
    by_cases hk : k = key
    · exact ⟨item, by rw [if_pos hk], by simp⟩
    · rw [if_neg hk]
      have hrest : key ∈ rest.map Prod.fst := by simpa [Ne.symm hk] using h
      obtain ⟨found, hfound, hmem⟩ := ih hrest
      exact ⟨found, hfound, by simp [List.mem_map.1 hmem]⟩

end Json

namespace Value

/-- The value that a document stands for. -/
inductive Mirrors : Json → Value → Prop where
  | null : Mirrors .null null
  | boolean (b : Bool) : Mirrors (.bool b) (boolean b)
  | number (n : Json.Number) : Mirrors (.number n) (number n.toDecimal)
  | text (s : String) : Mirrors (.text s) (text s)
  | array {items : List Json} {vs : List Value} (items_mirror : List.Forall₂ Mirrors items vs) :
    Mirrors (.array items) (array vs)
  /-- The form of exact numbers. -/
  | exact {s : String} {n : Decimal} (spells : Decimal.ofText s = .ok n) :
    Mirrors (.object [(exactNumberKey, .text s)]) (.number n)
  /-- Each key in the place of its first occurrence and with the value of its last one. -/
  | object {entries : List (String × Json)} {fields : List (String × Value)}
    (plain : exactNumberKey ∉ entries.map Prod.fst)
    (keys : fields.map Prod.fst = (entries.map Prod.fst).eraseDups)
    (values : ∀ key item v, (Json.object entries).field? key = some item →
      lookup key fields = some v → Mirrors item v) :
    Mirrors (.object entries) (object fields)

/-! ## Entries of an object -/

/-- What the reader has gathered of an object when it has read some of its entries. -/
structure Gathered (done : List (String × Json)) (seen : List (String × Value)) : Prop where
  keys : seen.map Prod.fst = (done.map Prod.fst).eraseDups
  values : ∀ key item v, (Json.object done).field? key = some item → lookup key seen = some v →
    Mirrors item v

theorem eraseDups_concat (keys : List String) (key : String) :
    (keys ++ [key]).eraseDups =
      if key ∈ keys then keys.eraseDups else keys.eraseDups ++ [key] := by
  rw [List.eraseDups_append]
  by_cases h : key ∈ keys <;> simp [List.removeAll, h, List.eraseDups_cons]

theorem nodup_eraseDups (keys : List String) : keys.eraseDups.Nodup := by
  induction keys using List.reverseRecOn with
  | nil => simp
  | append_singleton keys key ih =>
    rw [eraseDups_concat]
    split
    · exact ih
    · next h =>
      refine List.nodup_append.2 ⟨ih, by simp, fun k hk l hl => ?_⟩
      cases List.mem_singleton.1 hl
      rintro rfl
      exact h (List.mem_eraseDups.1 hk)

theorem keys_put (entries : List (String × Value)) (key : String) (v : Value) :
    (put entries key v).map Prod.fst =
      if key ∈ entries.map Prod.fst then entries.map Prod.fst
      else entries.map Prod.fst ++ [key] := by
  induction entries with
  | nil => simp [put]
  | cons e rest ih =>
    obtain ⟨k, w⟩ := e
    by_cases hk : k = key
    · simp [put, hk]
    · by_cases hrest : key ∈ rest.map Prod.fst
      · simp [put, hk, ih, hrest]
      · simp [put, hk, ih, hrest, Ne.symm hk]

theorem mem_keys_of_lookup {fields : List (String × Value)} {key : String} {v : Value}
    (h : lookup key fields = some v) : key ∈ fields.map Prod.fst :=
  isSome_lookup_iff.1 (by simp [h])

theorem Gathered.nil : Gathered [] [] := ⟨rfl, fun _ _ _ h => nomatch h⟩

/-- One more entry: a new key comes last, and a repeated one gets the new value in its place. -/
theorem Gathered.put {done : List (String × Json)} {seen : List (String × Value)} {item : Json}
    {v : Value} (h : Gathered done seen) (key : String) (hv : Mirrors item v) :
    Gathered (done ++ [(key, item)]) (put seen key v) where
  keys := by
    have old : key ∈ seen.map Prod.fst ↔ key ∈ done.map Prod.fst := by
      rw [h.keys, List.mem_eraseDups]
    rw [keys_put, List.map_append, List.map_singleton, eraseDups_concat, ← h.keys]
    simp only [old]
  values other stored w hfield hlookup := by
    rw [Json.field?_concat] at hfield
    rw [lookup_put] at hlookup
    by_cases hkey : key = other
    · rw [if_pos hkey] at hfield hlookup
      cases hfield
      cases hlookup
      exact hv
    · rw [if_neg hkey] at hfield hlookup
      exact h.values other stored w hfield hlookup

/-- The value of an object is no text. -/
theorem asText?_entriesOfJson? {seen : List (String × Value)} {entries : List (String × Json)}
    {v : Value} (h : entriesOfJson? seen entries = some v) : v.asText? = none := by
  induction entries generalizing seen with
  | nil =>
    cases h
    rfl
  | cons e rest ih =>
    obtain ⟨key, item⟩ := e
    rw [entriesOfJson?] at h
    obtain ⟨w, -, h⟩ := Option.bind_eq_some_iff.1 h
    split at h
    · split at h
      · cases h
        rfl
      · cases h
    · exact ih h

/-- Only a text is read as a text. -/
theorem eq_text_of_ofJson? {j : Json} {v : Value} {s : String} (h : ofJson? j = some v)
    (hs : v.asText? = some s) : j = .text s := by
  cases j with
  | text t =>
    cases h
    cases hs
    rfl
  | array items =>
    obtain ⟨vs, -, rfl⟩ := Option.map_eq_some_iff.1 h
    cases hs
  | object entries => cases hs.symm.trans (asText?_entriesOfJson? h)
  | null =>
    cases h
    cases hs
  | bool b =>
    cases h
    cases hs
  | number n =>
    cases h
    cases hs

/-- The key of exact numbers ends the reading of the entries around it: the value is the number that
its text spells, the entries in front of it have to be readable and are dropped, and with entries
behind it there is no value. -/
theorem entriesOfJson?_exact (before behind : List (String × Json)) (item : Json)
    (hplain : exactNumberKey ∉ before.map Prod.fst) (seen : List (String × Value)) (v : Value) :
    entriesOfJson? seen (before ++ (exactNumberKey, item) :: behind) = some v ↔
      (∀ e ∈ before, (ofJson? e.2).isSome = true) ∧ behind = [] ∧
        ∃ s n, item = .text s ∧ Decimal.ofText s = .ok n ∧ v = number n := by
  induction before generalizing seen with
  | nil =>
    simp only [List.nil_append, entriesOfJson?]
    constructor
    · intro h
      obtain ⟨w, hw, hnumber⟩ := Option.bind_eq_some_iff.1 h
      cases hs : w.asText? with
      | none => simp [hs] at hnumber
      | some s =>
        obtain rfl := eq_text_of_ofJson? hw hs
        cases hread : Decimal.ofText s with
        | error e => simp [hs, hread] at hnumber
        | ok n =>
          cases behind with
          | nil =>
            have hv : v = number n := by simpa [hs, hread] using hnumber.symm
            exact ⟨List.forall_mem_nil _, rfl, s, n, rfl, hread, hv⟩
          | cons e rest => simp [hs, hread] at hnumber
    · rintro ⟨-, rfl, s, n, rfl, hread, rfl⟩
      simp [ofJson?, asText?, text, ofKind, hread]
  | cons e rest ih =>
    obtain ⟨key, first⟩ := e
    rw [List.map_cons, List.mem_cons, not_or] at hplain
    rw [List.cons_append, entriesOfJson?]
    cases hfirst : ofJson? first with
    | none => simp [hfirst]
    | some w => simpa [Ne.symm hplain.1, hfirst] using ih hplain.2 (put seen key w)

/-- An object in the form of exact numbers is a number if its text spells one. -/
theorem ofJson?_exact (item : Json) :
    (item.spellsNumber = true →
      ∃ v, ofJson? (.object [(exactNumberKey, item)]) = some v ∧
        Mirrors (.object [(exactNumberKey, item)]) v) ∧
    (item.spellsNumber = false → ofJson? (.object [(exactNumberKey, item)]) = none) := by
  have reads := entriesOfJson?_exact [] [] item nofun []
  constructor
  · intro h
    obtain ⟨s, n, rfl, hn⟩ := Json.exists_of_spellsNumber h
    exact ⟨number n, (reads _).2 ⟨nofun, rfl, s, n, rfl, hn, rfl⟩, .exact hn⟩
  · intro h
    refine Option.eq_none_iff_forall_ne_some.2 fun v hv => ?_
    obtain ⟨-, -, s, n, rfl, hn, -⟩ := (reads v).1 hv
    simp [Json.spellsNumber, hn, Except.isOk, Except.toBool] at h

/-! ## Documents -/

mutual

/-- A document in which the key of exact numbers stands alone and spells numbers is read as the
value that mirrors it. -/
theorem exists_mirror : ∀ j : Json, j.exactAlone = true → j.exactSpelled = true →
    ∃ v, ofJson? j = some v ∧ Mirrors j v
  | .null, _, _ => ⟨_, rfl, .null⟩
  | .bool b, _, _ => ⟨_, rfl, .boolean b⟩
  | .number n, _, _ => ⟨_, rfl, .number n⟩
  | .text s, _, _ => ⟨_, rfl, .text s⟩
  | .array items, halone, hspelled => by
    obtain ⟨vs, hvs, hmirror⟩ := exists_mirrors items halone hspelled
    exact ⟨array vs, by rw [ofJson?, hvs, Option.map_some], .array hmirror⟩
  | .object entries, halone, hspelled => by
    by_cases hplain : exactNumberKey ∉ entries.map Prod.fst
    · rw [Json.exactAlone, Bool.and_eq_true] at halone
      obtain ⟨fields, hfields, hgathered⟩ :=
        exists_gathered entries hplain halone.2 hspelled [] [] .nil
      exact ⟨object fields, hfields, .object hplain hgathered.keys hgathered.values⟩
    · obtain ⟨item, rfl⟩ := Json.exists_exact halone (not_not.1 hplain)
      rw [Json.exactSpelled_exact] at hspelled
      exact (ofJson?_exact item).1 hspelled

theorem exists_mirrors : ∀ items : List Json, Json.itemsExactAlone items = true →
    Json.itemsExactSpelled items = true →
    ∃ vs, itemsOfJson? items = some vs ∧ List.Forall₂ Mirrors items vs
  | [], _, _ => ⟨[], rfl, .nil⟩
  | item :: rest, halone, hspelled => by
    rw [Json.itemsExactAlone, Bool.and_eq_true] at halone
    rw [Json.itemsExactSpelled, Bool.and_eq_true] at hspelled
    obtain ⟨v, hv, hmirror⟩ := exists_mirror item halone.1 hspelled.1
    obtain ⟨vs, hvs, hmirrors⟩ := exists_mirrors rest halone.2 hspelled.2
    exact ⟨v :: vs, by simp [itemsOfJson?, hv, hvs], .cons hmirror hmirrors⟩

/-- The entries behind those that are gathered already. -/
theorem exists_gathered : ∀ rest : List (String × Json), exactNumberKey ∉ rest.map Prod.fst →
    Json.entriesExactAlone rest = true → Json.entriesExactSpelled rest = true →
    ∀ done seen, Gathered done seen →
      ∃ fields, entriesOfJson? seen rest = some (object fields) ∧ Gathered (done ++ rest) fields
  | [], _, _, _, done, seen, h => ⟨seen, rfl, by simpa using h⟩
  | (key, item) :: rest, hplain, halone, hspelled, done, seen, h => by
    rw [Json.entriesExactAlone, Bool.and_eq_true] at halone
    rw [Json.entriesExactSpelled, Bool.and_eq_true, Bool.and_eq_true] at hspelled
    rw [List.map_cons, List.mem_cons, not_or] at hplain
    obtain ⟨v, hv, hmirror⟩ := exists_mirror item halone.1 hspelled.1.2
    obtain ⟨fields, hfields, hgathered⟩ :=
      exists_gathered rest hplain.2 halone.2 hspelled.2 _ _ (h.put key hmirror)
    refine ⟨fields, ?_, by simpa using hgathered⟩
    simp [entriesOfJson?, hv, Ne.symm hplain.1, hfields]

end

mutual

/-- A document in which a text under the key of exact numbers spells no number is refused. -/
theorem ofJson?_eq_none : ∀ j : Json, j.exactAlone = true → j.exactSpelled = false →
    ofJson? j = none
  | .array items, halone, hspelled => by
    rw [ofJson?, itemsOfJson?_eq_none items halone hspelled, Option.map_none]
  | .object entries, halone, hspelled => by
    by_cases hplain : exactNumberKey ∉ entries.map Prod.fst
    · rw [Json.exactAlone, Bool.and_eq_true] at halone
      exact entriesOfJson?_eq_none entries hplain halone.2 hspelled []
    · obtain ⟨item, rfl⟩ := Json.exists_exact halone (not_not.1 hplain)
      rw [Json.exactSpelled_exact] at hspelled
      exact (ofJson?_exact item).2 hspelled

theorem itemsOfJson?_eq_none : ∀ items : List Json, Json.itemsExactAlone items = true →
    Json.itemsExactSpelled items = false → itemsOfJson? items = none
  | item :: rest, halone, hspelled => by
    rw [Json.itemsExactAlone, Bool.and_eq_true] at halone
    rw [Json.itemsExactSpelled, Bool.and_eq_false_iff] at hspelled
    rcases hspelled with hitem | hrest
    · simp [itemsOfJson?, ofJson?_eq_none item halone.1 hitem]
    · simp [itemsOfJson?, itemsOfJson?_eq_none rest halone.2 hrest]

theorem entriesOfJson?_eq_none : ∀ rest : List (String × Json),
    exactNumberKey ∉ rest.map Prod.fst → Json.entriesExactAlone rest = true →
    Json.entriesExactSpelled rest = false → ∀ seen, entriesOfJson? seen rest = none
  | (key, item) :: rest, hplain, halone, hspelled, seen => by
    rw [Json.entriesExactAlone, Bool.and_eq_true] at halone
    rw [List.map_cons, List.mem_cons, not_or] at hplain
    have hkey : (key != exactNumberKey) = true := bne_iff_ne.2 (Ne.symm hplain.1)
    rw [Json.entriesExactSpelled, hkey, Bool.true_or, Bool.true_and, Bool.and_eq_false_iff]
      at hspelled
    rcases hspelled with hitem | hrest
    · simp [entriesOfJson?, ofJson?_eq_none item halone.1 hitem]
    · simp [entriesOfJson?, Ne.symm hplain.1,
        entriesOfJson?_eq_none rest hplain.2 halone.2 hrest]

end

/-! ## One value -/

/-- Entries are determined by their keys and by what is looked up under them. -/
theorem eq_of_lookup {fields others : List (String × Value)}
    (hkeys : fields.map Prod.fst = others.map Prod.fst) (hnodup : (fields.map Prod.fst).Nodup)
    (h : ∀ key v w, lookup key fields = some v → lookup key others = some w → v = w) :
    fields = others := by
  induction fields generalizing others with
  | nil => exact (List.map_eq_nil_iff.1 hkeys.symm).symm
  | cons e rest ih =>
    obtain ⟨key, v⟩ := e
    cases others with
    | nil => cases hkeys
    | cons e' rest' =>
      obtain ⟨key', w⟩ := e'
      obtain ⟨hkey, hrest⟩ := List.cons.inj hkeys
      cases hkey
      obtain ⟨hnew, hnodup⟩ := List.nodup_cons.1 hnodup
      have heads : v = w := h key v w (by simp [lookup]) (by simp [lookup])
      rw [heads, ih hrest hnodup fun other x y hx hy => ?_]
      have hother : key ≠ other := by
        rintro rfl
        exact hnew (mem_keys_of_lookup hx)
      exact h other x y (by simpa [lookup, hother] using hx) (by simpa [lookup, hother] using hy)

mutual

/-- No document is mirrored by two values. -/
theorem Mirrors.unique : ∀ (j : Json) {v w : Value}, Mirrors j v → Mirrors j w → v = w
  | .null, _, _, .null, .null => rfl
  | .bool _, _, _, .boolean _, .boolean _ => rfl
  | .number _, _, _, .number _, .number _ => rfl
  | .text _, _, _, .text _, .text _ => rfl
  | .array items, _, _, .array hv, .array hw => by rw [Mirrors.unique_items items hv hw]
  | .object entries, _, _, hv, hw => by
    have one := Mirrors.unique_entries entries
    cases hv with
    | exact hn =>
      cases hw with
      | exact hm => rw [Except.ok.inj (hn.symm.trans hm)]
      | object plain => simp at plain
    | object plain keys values =>
      cases hw with
      | exact hm => simp at plain
      | object _ keys' values' =>
        refine congrArg Value.object (eq_of_lookup (keys.trans keys'.symm) ?_ ?_)
        · rw [keys]
          exact nodup_eraseDups _
        · intro key v w hv hw
          have hkey : key ∈ entries.map Prod.fst := by
            rw [← List.mem_eraseDups, ← keys]
            exact mem_keys_of_lookup hv
          obtain ⟨item, hitem, hmem⟩ := Json.exists_field? hkey
          exact one item hmem (values key item v hitem hv) (values' key item w hitem hw)

theorem Mirrors.unique_items : ∀ (items : List Json) {vs ws : List Value},
    List.Forall₂ Mirrors items vs → List.Forall₂ Mirrors items ws → vs = ws
  | [], _, _, .nil, .nil => rfl
  | item :: rest, _, _, .cons hv hvs, .cons hw hws => by
    rw [Mirrors.unique item hv hw, Mirrors.unique_items rest hvs hws]

theorem Mirrors.unique_entries : ∀ (entries : List (String × Json)),
    ∀ item ∈ entries.map Prod.snd, ∀ {v w : Value}, Mirrors item v → Mirrors item w → v = w
  | (_, first) :: rest, item, hmem, _, _, hv, hw => by
    rw [List.map_cons, List.mem_cons] at hmem
    rcases hmem with hfirst | hrest
    · rw [hfirst] at hv hw
      exact Mirrors.unique first hv hw
    · exact Mirrors.unique_entries rest item hrest hv hw

end

/-! ## Texts -/

/-- A text that is read as a document in which the key of exact numbers stands alone: it is refused
exactly if a text under that key spells no number, and otherwise it is read as the one value that
mirrors the document. There every object is an object with exactly its distinct keys in the order of
their first occurrence, each with the value of its last one, unless it is the form of a number. -/
theorem objects_mirrored {s : String} {j : Json} (hread : Json.read s = some j)
    (halone : j.exactAlone = true) :
    (j.exactSpelled = true → ∃ v, ofJsonText? s = some v ∧ ∀ w, Mirrors j w ↔ w = v) ∧
    (j.exactSpelled = false → ofJsonText? s = none) := by
  rw [ofJsonText?, hread, Option.bind_some]
  refine ⟨fun hspelled => ?_, ofJson?_eq_none j halone⟩
  obtain ⟨v, hv, hmirror⟩ := exists_mirror j halone hspelled
  exact ⟨v, hv, fun w => ⟨fun hw => Mirrors.unique j hw hmirror, fun hw => hw ▸ hmirror⟩⟩

/-- A repeated key, an empty key and an exact number inside an array. -/
theorem objects_mirrored_nested :
    let s := "\x7b\"b\":1,\"\":[\x7b\"$serde_json::private::Number\":\"1.50\"\x7d],\"b\":null\x7d"
    let form : Json := .object [(exactNumberKey, .text "1.50")]
    let j : Json := .object [("b", .number (.int 1)), ("", .array [form]), ("b", .null)]
    Json.read s = some j ∧ j.exactAlone = true ∧ j.exactSpelled = true ∧
      ∃ v, ofJsonText? s = some v ∧ ∀ w, Mirrors j w ↔ w = v := by
  intro s form j
  have hwritten : s = String.ofList (Json.Layout.dense.value 0 j) := by decide +kernel
  have hone : Json.IsWord 1 := by decide
  have hwords : j.HasWords := ⟨hone, ⟨⟨trivial, trivial⟩, trivial⟩, trivial, trivial⟩
  have hread : Json.read s = some j := by
    rw [hwritten]
    exact Json.readNested_value .dense hwords (by decide)
  have halone : j.exactAlone = true := by decide
  have hspelled : j.exactSpelled = true := by decide +kernel
  exact ⟨hread, halone, hspelled, (objects_mirrored hread halone).1 hspelled⟩

/-- The form of exact numbers is an object in the document, and its value is none. -/
theorem object_read_as_number :
    let s := "\x7b\"$serde_json::private::Number\":\"1\"\x7d"
    let form : Json := .object [(exactNumberKey, .text "1")]
    Json.read s = some form ∧ ofJsonText? s = some (number (.ofInt 1)) ∧
      (number (.ofInt 1)).asObject? = none := by
  intro s form
  have hwritten : s = String.ofList (Json.Layout.dense.value 0 form) := by decide +kernel
  have hread : Json.read s = some form := by
    rw [hwritten]
    exact Json.readNested_value .dense ⟨trivial, trivial⟩ (by decide)
  have hnumber : Decimal.ofText "1" = .ok (.ofInt 1) := by decide +kernel
  refine ⟨hread, ?_, rfl⟩
  rw [ofJsonText?, hread, Option.bind_some]
  simp [form, ofJson?, entriesOfJson?, asText?, text, ofKind, hnumber]

/-! ## The key of exact numbers beside other entries -/

/-- A text that is read as an object with the key of exact numbers, wherever that stands first: its
value is the number spelled there or none. The entries in front of the key are lost, and with
entries behind it the text is refused. -/
theorem ofJsonText?_exact {s : String} (before behind : List (String × Json)) (item : Json)
    (hread : Json.read s = some (.object (before ++ (exactNumberKey, item) :: behind)))
    (hplain : exactNumberKey ∉ before.map Prod.fst) (v : Value) :
    ofJsonText? s = some v ↔
      (∀ e ∈ before, (ofJson? e.2).isSome = true) ∧ behind = [] ∧
        ∃ t n, item = .text t ∧ Decimal.ofText t = .ok n ∧ v = number n := by
  rw [ofJsonText?, hread, Option.bind_some, ofJson?]
  exact entriesOfJson?_exact before behind item hplain [] v

/-- An entry in front of the key is lost. -/
theorem entry_lost_before_exact :
    let s := "\x7b\"a\":1,\"$serde_json::private::Number\":\"1\"\x7d"
    Json.read s = some (.object [("a", .number (.int 1)), (exactNumberKey, .text "1")]) ∧
      ofJsonText? s = some (number (.ofInt 1)) := by
  intro s
  let j : Json := .object [("a", .number (.int 1)), (exactNumberKey, .text "1")]
  have hwritten : s = String.ofList (Json.Layout.dense.value 0 j) := by decide +kernel
  have hone : Json.IsWord 1 := by decide
  have hread : Json.read s = some j := by
    rw [hwritten]
    exact Json.readNested_value .dense ⟨hone, trivial, trivial⟩ (by decide)
  have hnumber : Decimal.ofText "1" = .ok (.ofInt 1) := by decide +kernel
  refine ⟨hread, (ofJsonText?_exact [_] [] _ hread (by decide) _).2 ⟨?_, rfl, ?_⟩⟩
  · exact List.forall_mem_singleton.2 rfl
  · exact ⟨"1", .ofInt 1, rfl, hnumber, rfl⟩

/-- With the same entry behind the key the text is refused. -/
theorem entry_refused_behind_exact :
    let s := "\x7b\"$serde_json::private::Number\":\"1\",\"a\":1\x7d"
    Json.read s = some (.object [(exactNumberKey, .text "1"), ("a", .number (.int 1))]) ∧
      ofJsonText? s = none := by
  intro s
  let j : Json := .object [(exactNumberKey, .text "1"), ("a", .number (.int 1))]
  have hwritten : s = String.ofList (Json.Layout.dense.value 0 j) := by decide +kernel
  have hone : Json.IsWord 1 := by decide
  have hread : Json.read s = some j := by
    rw [hwritten]
    exact Json.readNested_value .dense ⟨trivial, hone, trivial⟩ (by decide)
  refine ⟨hread, Option.eq_none_iff_forall_ne_some.2 fun v hv => ?_⟩
  obtain ⟨-, hbehind, -⟩ := (ofJsonText?_exact [] [_] _ hread nofun v).1 hv
  cases hbehind

end Value

end PolicyExpr
