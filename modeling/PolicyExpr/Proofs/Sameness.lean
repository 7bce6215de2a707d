import Mathlib.Data.List.Forall2
import Mathlib.Data.List.Nodup
import Mathlib.Data.List.Perm.Subperm
import Mathlib.Logic.Relation
import PolicyExpr.Proofs.Exactness
import PolicyExpr.Value.Equality

/-!
# Equality of values is an equivalence

Two values are equal if they have the same kind and equal parts: arrays position by position, objects
key by key. So equality is an equivalence, and neither metadata nor the order of entries count at any
depth. As long as the keys of objects are unique it may be decided by counting entries and looking
up those of one side only.
-/
namespace PolicyExpr.Value

variable {v w : Value} {as bs : List Value} {es fs : List (String × Value)} {key : String}

/-! ## Induction on the parts -/

theorem sizeOf_element {items : List Value} (hkind : v.kind = .array items) (h : w ∈ items) :
    sizeOf w < sizeOf v := by
  obtain ⟨kind, m⟩ := v
  cases hkind
  have smaller := List.sizeOf_lt_of_mem h
  simp only [Value.mk.sizeOf_spec, Kind.array.sizeOf_spec]
  omega

theorem sizeOf_field {e : String × Value} (hkind : v.kind = .object es) (h : e ∈ es) :
    sizeOf e.2 < sizeOf v := by
  obtain ⟨kind, m⟩ := v
  obtain ⟨key, w⟩ := e
  cases hkind
  have smaller := List.sizeOf_lt_of_mem h
  simp only [Value.mk.sizeOf_spec, Kind.object.sizeOf_spec, Prod.mk.sizeOf_spec] at smaller ⊢
  omega

/-- What holds of a value whose elements and fields it holds of, holds of all values. -/
theorem induct {P : Value → Prop}
    (step : ∀ v : Value, (∀ items, v.kind = .array items → ∀ w ∈ items, P w) →
      (∀ entries, v.kind = .object entries → ∀ e ∈ entries, P e.2) → P v) (v : Value) : P v :=
  step v (fun _ hkind w h => have := sizeOf_element hkind h; induct step w)
    (fun _ hkind e h => have := sizeOf_field hkind h; induct step e.2)
termination_by sizeOf v

/-! ## Look-up -/

theorem isSome_lookup_iff : (lookup key es).isSome ↔ key ∈ es.map Prod.fst := by
  induction es with
  | nil => simp [lookup]
  | cons e rest ih =>
    obtain ⟨k, v⟩ := e
    by_cases h : k = key
    · simp [lookup, h]
    · simp [lookup, h, ih, Ne.symm h]

theorem entry_mem_of_lookup (h : lookup key es = some v) : (key, v) ∈ es := by
  induction es with
  | nil => cases h
  | cons e rest ih =>
    obtain ⟨k, w⟩ := e
    by_cases hk : k = key
    · rw [lookup, if_pos hk] at h
      cases h
      simp [hk]
    · rw [lookup, if_neg hk] at h
      exact List.mem_cons_of_mem _ (ih h)

/-- Where keys are unique every entry is found. -/
theorem lookup_of_mem (hkeys : (es.map Prod.fst).Nodup) (h : (key, v) ∈ es) :
    lookup key es = some v := by
  induction es with
  | nil => cases h
  | cons e rest ih =>
    obtain ⟨k, w⟩ := e
    obtain ⟨hnew, hrest⟩ := List.nodup_cons.1 hkeys
    rcases List.mem_cons.1 h with heq | h
    · cases heq
      simp [lookup]
    · have distinct : k ≠ key := fun hk => hnew (List.mem_map.2 ⟨(key, v), h, hk.symm⟩)
      rw [lookup, if_neg distinct, ih hrest h]

theorem lookup_perm (h : es.Perm fs) (hkeys : (es.map Prod.fst).Nodup) (key : String) :
    lookup key es = lookup key fs := by
  have hothers : (fs.map Prod.fst).Nodup := (h.map Prod.fst).nodup_iff.1 hkeys
  cases hlookup : lookup key es with
  | some v => exact (lookup_of_mem hothers (h.mem_iff.1 (entry_mem_of_lookup hlookup))).symm
  | none =>
    cases hother : lookup key fs with
    | none => rfl
    | some v =>
      have found := lookup_of_mem hkeys (h.mem_iff.2 (entry_mem_of_lookup hother))
      rw [hlookup] at found
      cases found

/-- A value that is replaced shows under its key at most. -/
theorem lookup_changed (front back : List (String × Value)) (key other : String) (a b : Value) :
    lookup other (front ++ (key, a) :: back) = lookup other (front ++ (key, b) :: back) ∨
      lookup other (front ++ (key, a) :: back) = some a ∧
        lookup other (front ++ (key, b) :: back) = some b := by
  induction front with
  | nil =>
    by_cases h : key = other
    · exact .inr (by simp [lookup, h])
    · exact .inl (by simp [lookup, h])
  | cons e rest ih =>
    obtain ⟨k, v⟩ := e
    by_cases h : k = other
    · exact .inl (by simp [lookup, h])
    · simpa [lookup, h] using ih

/-! ## Equal kinds -/

/-- The same length, and equal values at each position. -/
structure SameItems (as bs : List Value) : Prop where
  length : as.length = bs.length
  values : ∀ i (h : i < as.length) (h' : i < bs.length), same as[i] bs[i] = true

/-- The same keys, and equal values under each. -/
structure SameFields (es fs : List (String × Value)) : Prop where
  keys : ∀ key, (lookup key es).isSome = (lookup key fs).isSome
  values : ∀ key a b, lookup key es = some a → lookup key fs = some b → same a b = true

/-- The same kind of datum with equal parts. -/
inductive SameKind : Kind Value → Kind Value → Prop where
  | boolean (b : Bool) : SameKind (.boolean b) (.boolean b)
  | number (n : Decimal) : SameKind (.number n) (.number n)
  | text (s : String) : SameKind (.text s) (.text s)
  | array {as bs : List Value} (h : SameItems as bs) :
    SameKind (.array as) (.array bs)
  | object {es fs : List (String × Value)} (h : SameFields es fs) :
    SameKind (.object es) (.object fs)
  | null : SameKind .null .null
  | undefined : SameKind .undefined .undefined
  | error {f g : Failure} (k l : Option SourceLocation) (h : f.message = g.message) :
    SameKind (.error f k) (.error g l)

theorem sameItems_iff : sameItems as bs = true ↔ SameItems as bs := by
  induction as generalizing bs with
  | nil =>
    cases bs with
    | nil => exact ⟨fun _ => ⟨rfl, nofun⟩, fun _ => rfl⟩
    | cons b bs => exact ⟨nofun, fun h => nomatch h.length⟩
  | cons a as ih =>
    cases bs with
    | nil => exact ⟨nofun, fun h => nomatch h.length⟩
    | cons b bs =>
      rw [sameItems, Bool.and_eq_true, ih]
      constructor
      · rintro ⟨hfirst, hrest⟩
        refine ⟨congrArg (· + 1) hrest.length, fun i h h' => ?_⟩
        cases i with
        | zero => exact hfirst
        | succ i => exact hrest.values i (Nat.lt_of_succ_lt_succ h) (Nat.lt_of_succ_lt_succ h')
      · exact fun h => ⟨h.values 0 (Nat.succ_pos _) (Nat.succ_pos _), Nat.succ.inj h.length,
          fun i hi hi' => h.values (i + 1) (Nat.succ_lt_succ hi) (Nat.succ_lt_succ hi')⟩

theorem keysWithin_iff : keysWithin es fs = true ↔
    ∀ key, (lookup key es).isSome = true → (lookup key fs).isSome = true := by
  simp only [keysWithin, List.all_eq_true, isSome_lookup_iff, List.mem_map]
  constructor
  · rintro h key ⟨e, he, rfl⟩
    exact h e he
  · exact fun h e he => h e.1 ⟨e, he, rfl⟩

theorem sameEntries_iff {seen : List String} : sameEntries seen es fs = true ↔
    ∀ key ∉ seen, ∀ a, lookup key es = some a → ∃ b, lookup key fs = some b ∧ same a b = true := by
  induction es generalizing seen with
  | nil => simp [sameEntries, lookup]
  | cons e rest ih =>
    obtain ⟨k, v⟩ := e
    rw [sameEntries, Bool.and_eq_true, Bool.or_eq_true, ih]
    constructor
    · rintro ⟨hfirst, hrest⟩ key hkey a ha
      by_cases hk : k = key
      · subst hk
        rw [lookup, if_pos rfl] at ha
        cases ha
        rcases hfirst with hseen | hfound
        · exact absurd (by simpa using hseen) hkey
        · split at hfound
          · exact ⟨_, ‹_›, hfound⟩
          · cases hfound
      · rw [lookup, if_neg hk] at ha
        exact hrest key (by simp [hkey, Ne.symm hk]) a ha
    · refine fun h => ⟨?_, fun key hkey a ha => ?_⟩
      · by_cases hseen : k ∈ seen
        · exact .inl (by simpa using hseen)
        · obtain ⟨b, hb, hsame⟩ := h k hseen v (by simp [lookup])
          exact .inr (by rwa [hb])
      · rw [List.mem_cons, not_or] at hkey
        exact h key hkey.2 a (by rwa [lookup, if_neg (Ne.symm hkey.1)])

theorem sameFields_iff : (keysWithin fs es && sameEntries [] es fs) = true ↔ SameFields es fs := by
  rw [Bool.and_eq_true, keysWithin_iff, sameEntries_iff]
  constructor
  · rintro ⟨hkeys, hentries⟩
    refine ⟨fun key => Bool.eq_iff_iff.2 ⟨fun h => ?_, hkeys key⟩, fun key a b ha hb => ?_⟩
    · obtain ⟨a, ha⟩ := Option.isSome_iff_exists.1 h
      obtain ⟨b, hb, -⟩ := hentries key List.not_mem_nil a ha
      rw [hb]
      rfl
    · obtain ⟨c, hc, hsame⟩ := hentries key List.not_mem_nil a ha
      cases hb.symm.trans hc
      exact hsame
  · refine fun h => ⟨fun key hkey => by rwa [h.keys], fun key _ a ha => ?_⟩
    obtain ⟨b, hb⟩ := Option.isSome_iff_exists.1 ((h.keys key).symm.trans (by rw [ha]; rfl))
    exact ⟨b, hb, h.values key a b ha hb⟩

/-- Equality is having the same kind with equal parts. -/
theorem same_iff : same v w = true ↔ SameKind v.kind w.kind := by
  constructor
  · intro h
    unfold same at h
    split at h
    · exact beq_iff_eq.1 h ▸ .boolean _
    · exact beq_iff_eq.1 h ▸ .number _
    · exact beq_iff_eq.1 h ▸ .text _
    · exact .array (sameItems_iff.1 h)
    · exact .object (sameFields_iff.1 h)
    · exact .null
    · exact .undefined
    · exact .error _ _ (beq_iff_eq.1 h)
    · cases h
  · obtain ⟨kind, m⟩ := v
    obtain ⟨other, n⟩ := w
    intro h
    cases h with
    | boolean | number | text => simp [same]
    | array h => simpa only [same] using sameItems_iff.2 h
    | object h => simpa only [same] using sameFields_iff.2 h
    | null | undefined => rfl
    | error _ _ h => simpa [same] using h

/-! ## Equivalence -/

theorem SameFields.refl (h : ∀ e ∈ es, same e.2 e.2 = true) : SameFields es es where
  keys _ := rfl
  values key a b ha hb := by
    cases ha.symm.trans hb
    exact h (key, a) (entry_mem_of_lookup ha)

/-- Equality is reflexive. -/
theorem same_refl (v : Value) : same v v = true := by
  induction v using induct with
  | step v items entries =>
    rw [same_iff]
    cases hkind : v.kind with
    | boolean b => exact .boolean b
    | number n => exact .number n
    | text s => exact .text s
    | array vs => exact .array ⟨rfl, fun i h _ => items vs hkind vs[i] (List.getElem_mem h)⟩
    | object es => exact .object (.refl (entries es hkind))
    | null => exact .null
    | undefined => exact .undefined
    | error f l => exact .error l l rfl

/-- Equality is symmetric. -/
theorem same_symm (h : same v w = true) : same w v = true := by
  induction v using induct generalizing w with
  | step v items entries =>
    rw [same_iff] at h ⊢
    generalize hv : v.kind = k at h
    generalize w.kind = l at h ⊢
    cases h with
    | boolean b => exact .boolean b
    | number n => exact .number n
    | text s => exact .text s
    | array h =>
      exact .array ⟨h.length.symm, fun i hi hi' =>
        items _ hv _ (List.getElem_mem hi') (h.values i hi' hi)⟩
    | object h =>
      exact .object ⟨fun key => (h.keys key).symm, fun key b a hb ha =>
        entries _ hv (key, a) (entry_mem_of_lookup ha) (h.values key a b ha hb)⟩
    | null => exact .null
    | undefined => exact .undefined
    | error k l h => exact .error l k h.symm

theorem same_comm (v w : Value) : same v w = same w v :=
  Bool.eq_iff_iff.2 ⟨same_symm, same_symm⟩

/-- Equality is transitive. -/
theorem same_trans {u : Value} (h : same u v = true) (h' : same v w = true) : same u w = true := by
  induction u using induct generalizing v w with
  | step u items entries =>
    rw [same_iff] at h h' ⊢
    generalize hu : u.kind = k at h ⊢
    generalize v.kind = l at h h'
    generalize w.kind = l' at h' ⊢
    cases h with
    | boolean b => exact h'
    | number n => exact h'
    | text s => exact h'
    | array h =>
      cases h' with
      | array h' =>
        refine .array ⟨h.length.trans h'.length, fun i hi hi' => ?_⟩
        have middle := h.length ▸ hi
        exact items _ hu _ (List.getElem_mem hi) (h.values i hi middle) (h'.values i middle hi')
    | object h =>
      cases h' with
      | object h' =>
        refine .object ⟨fun key => (h.keys key).trans (h'.keys key), fun key a c ha hc => ?_⟩
        obtain ⟨b, hb⟩ := Option.isSome_iff_exists.1 ((h'.keys key).trans (by rw [hc]; rfl))
        exact entries _ hu (key, a) (entry_mem_of_lookup ha) (h.values key a b ha hb)
          (h'.values key b c hb hc)
    | null => exact h'
    | undefined => exact h'
    | error k l h =>
      cases h' with
      | error l l' h' => exact .error k l' (h.trans h')

/-- Equal values are equal to the same values. -/
theorem same_congr (h : same v w = true) (u : Value) : same v u = same w u :=
  Bool.eq_iff_iff.2 ⟨same_trans (same_symm h), same_trans h⟩

/-! ## What does not count -/

/-- A single change that does not count: other metadata on a value, or other places for the entries
of an object, be it the value itself or an element or a field of it at any depth. -/
inductive Rewritten : Value → Value → Prop where
  | metadata (kind : Kind Value) (m n : Metadata) : Rewritten ⟨kind, m⟩ ⟨kind, n⟩
  | order {es fs : List (String × Value)} (h : es.Perm fs) (hkeys : (es.map Prod.fst).Nodup)
    (m : Metadata) : Rewritten ⟨.object es, m⟩ ⟨.object fs, m⟩
  | element {a b : Value} (h : Rewritten a b) (front back : List Value) (m : Metadata) :
    Rewritten ⟨.array (front ++ a :: back), m⟩ ⟨.array (front ++ b :: back), m⟩
  | field {a b : Value} (h : Rewritten a b) (key : String) (front back : List (String × Value))
    (m : Metadata) :
    Rewritten ⟨.object (front ++ (key, a) :: back), m⟩ ⟨.object (front ++ (key, b) :: back), m⟩

theorem sameItems_changed {a b : Value} (h : same a b = true) (front back : List Value) :
    sameItems (front ++ a :: back) (front ++ b :: back) = true := by
  induction front with
  | nil =>
    have behind : sameItems back back = true := sameItems_iff.2 ⟨rfl, fun i _ _ => same_refl back[i]⟩
    simp [sameItems, h, behind]
  | cons v front ih => simp [sameItems, same_refl v, ih]

theorem sameFields_changed {a b : Value} (h : same a b = true) (key : String)
    (front back : List (String × Value)) :
    SameFields (front ++ (key, a) :: back) (front ++ (key, b) :: back) where
  keys other := by
    rcases lookup_changed front back key other a b with heq | ⟨ha, hb⟩
    · rw [heq]
    · rw [ha, hb]
      rfl
  values other c d hc hd := by
    rcases lookup_changed front back key other a b with heq | ⟨ha, hb⟩
    · cases hc.symm.trans (heq.trans hd)
      exact same_refl c
    · cases hc.symm.trans ha
      cases hd.symm.trans hb
      exact h

theorem same_of_rewritten (h : Rewritten v w) : same v w = true := by
  induction h with
  | metadata kind m n =>
    have equal := same_iff.1 (same_refl ⟨kind, m⟩)
    exact same_iff.2 equal
  | order h hkeys m =>
    refine same_iff.2 (.object ⟨fun key => ?_, fun key a b ha hb => ?_⟩)
    · rw [lookup_perm h hkeys]
    · rw [lookup_perm h hkeys, hb] at ha
      cases ha
      exact same_refl _
  | element h front back m ih =>
    exact same_iff.2 (.array (sameItems_iff.1 (sameItems_changed ih front back)))
  | field h key front back m ih => exact same_iff.2 (.object (sameFields_changed ih key front back))

/-- Changes that do not count, one after another. -/
theorem same_of_rewrites (h : Relation.ReflTransGen Rewritten v w) : same v w = true := by
  induction h with
  | refl => exact same_refl v
  | tail _ hlast ih => exact same_trans ih (same_of_rewritten hlast)

/-! ## Counting -/

mutual

/-- Equality that looks up the entries of one object in the other and compares their numbers. -/
def sameByCount : Value → Value → Bool
  | ⟨.boolean a, _⟩, ⟨.boolean b, _⟩ => a == b
  | ⟨.number a, _⟩, ⟨.number b, _⟩ => a == b
  | ⟨.text a, _⟩, ⟨.text b, _⟩ => a == b
  | ⟨.array as, _⟩, ⟨.array bs, _⟩ => itemsByCount as bs
  | ⟨.object es, _⟩, ⟨.object fs, _⟩ => es.length == fs.length && entriesByCount es fs
  | ⟨.null, _⟩, ⟨.null, _⟩ => true
  | ⟨.undefined, _⟩, ⟨.undefined, _⟩ => true
  | ⟨.error a _, _⟩, ⟨.error b _, _⟩ => a.message == b.message
  | _, _ => false

def itemsByCount : List Value → List Value → Bool
  | [], [] => true
  | a :: as, b :: bs => sameByCount a b && itemsByCount as bs
  | _, _ => false

def entriesByCount : List (String × Value) → List (String × Value) → Bool
  | [], _ => true
  | (key, a) :: rest, others =>
    (match lookup key others with
      | some b => sameByCount a b
      | none => false) && entriesByCount rest others

end

/-- Every object has each of its keys once, at every depth. -/
inductive UniqueKeys : Value → Prop where
  | leaf {v : Value} (harray : v.asArray? = none) (hobject : v.asObject? = none) : UniqueKeys v
  | array {items : List Value} {m : Metadata} (h : ∀ v ∈ items, UniqueKeys v) :
    UniqueKeys ⟨.array items, m⟩
  | object {entries : List (String × Value)} {m : Metadata} (hkeys : (entries.map Prod.fst).Nodup)
    (h : ∀ e ∈ entries, UniqueKeys e.2) : UniqueKeys ⟨.object entries, m⟩

theorem entriesByCount_iff : entriesByCount es fs = true ↔
    ∀ e ∈ es, ∃ b, lookup e.1 fs = some b ∧ sameByCount e.2 b = true := by
  induction es with
  | nil => simp [entriesByCount]
  | cons e rest ih =>
    obtain ⟨key, a⟩ := e
    rw [entriesByCount, Bool.and_eq_true, ih, List.forall_mem_cons]
    refine and_congr_left fun _ => ?_
    cases lookup key fs with
    | none => simp
    | some b => simp

/-- Keys that are unique on both sides, as many here as there, all of these among those: then those
are among these. -/
theorem mem_keys_of_count (hes : (es.map Prod.fst).Nodup) (hlength : es.length = fs.length)
    (hsubset : ∀ key ∈ es.map Prod.fst, key ∈ fs.map Prod.fst) (hkey : key ∈ fs.map Prod.fst) :
    key ∈ es.map Prod.fst := by
  have within : (es.map Prod.fst).Subperm (fs.map Prod.fst) := List.subperm_of_subset hes hsubset
  have perm := within.perm_of_length_le (by simp [hlength])
  exact perm.mem_iff.2 hkey

theorem itemsByCount_eq (h : ∀ a ∈ as, ∀ b ∈ bs, sameByCount a b = same a b) :
    itemsByCount as bs = sameItems as bs := by
  induction as generalizing bs with
  | nil => cases bs <;> rfl
  | cons a as ih =>
    cases bs with
    | nil => rfl
    | cons b bs =>
      have first := h a List.mem_cons_self b List.mem_cons_self
      have rest : itemsByCount as bs = sameItems as bs := ih fun c hc d hd =>
        h c (List.mem_cons_of_mem a hc) d (List.mem_cons_of_mem b hd)
      rw [itemsByCount, sameItems, first, rest]

/-- One inclusion and a count are enough where keys are unique. -/
theorem countedFields_iff (hes : (es.map Prod.fst).Nodup) (hfs : (fs.map Prod.fst).Nodup)
    (h : ∀ e ∈ es, ∀ f ∈ fs, sameByCount e.2 f.2 = same e.2 f.2) :
    (es.length == fs.length && entriesByCount es fs) = true ↔ SameFields es fs := by
  rw [Bool.and_eq_true, beq_iff_eq, entriesByCount_iff]
  constructor
  · rintro ⟨hlength, hentries⟩
    have subset : ∀ key ∈ es.map Prod.fst, key ∈ fs.map Prod.fst := by
      intro key hkey
      obtain ⟨e, he, rfl⟩ := List.mem_map.1 hkey
      obtain ⟨b, hb, -⟩ := hentries e he
      exact List.mem_map.2 ⟨(e.1, b), entry_mem_of_lookup hb, rfl⟩
    refine ⟨fun key => Bool.eq_iff_iff.2 ?_, fun key a b ha hb => ?_⟩
    · rw [isSome_lookup_iff, isSome_lookup_iff]
      exact ⟨subset key, mem_keys_of_count hes hlength subset⟩
    · obtain ⟨c, hc, hsame⟩ := hentries (key, a) (entry_mem_of_lookup ha)
      cases hb.symm.trans hc
      exact h (key, a) (entry_mem_of_lookup ha) (key, b) (entry_mem_of_lookup hb) ▸ hsame
  · intro hfields
    have keys : ∀ key, key ∈ es.map Prod.fst ↔ key ∈ fs.map Prod.fst := fun key => by
      rw [← isSome_lookup_iff, ← isSome_lookup_iff, hfields.keys]
    refine ⟨?_, fun e he => ?_⟩
    · have perm := (List.perm_ext_iff_of_nodup hes hfs).2 keys
      simpa using perm.length_eq
    · have ha := lookup_of_mem hes he
      obtain ⟨b, hb⟩ := Option.isSome_iff_exists.1
        ((hfields.keys e.1).symm.trans (by rw [ha]; rfl))
      exact ⟨b, hb, (h e he (e.1, b) (entry_mem_of_lookup hb)).trans (hfields.values e.1 e.2 b ha hb)⟩

theorem UniqueKeys.elements {items : List Value} {m : Metadata} (h : UniqueKeys ⟨.array items, m⟩) :
    ∀ v ∈ items, UniqueKeys v := by
  cases h with
  | leaf harray => cases harray
  | array h => exact h

theorem UniqueKeys.fields {m : Metadata} (h : UniqueKeys ⟨.object es, m⟩) :
    (es.map Prod.fst).Nodup ∧ ∀ e ∈ es, UniqueKeys e.2 := by
  cases h with
  | leaf _ hobject => cases hobject
  | object hkeys h => exact ⟨hkeys, h⟩

/-- Where keys are unique, equality may be decided by counting. -/
theorem sameByCount_eq (hv : UniqueKeys v) (hw : UniqueKeys w) : sameByCount v w = same v w := by
  induction v using induct generalizing w with
  | step v items entries =>
    obtain ⟨kind, m⟩ := v
    obtain ⟨other, n⟩ := w
    cases kind with
    | boolean a => cases other <;> rfl
    | number a => cases other <;> rfl
    | text a => cases other <;> rfl
    | null => cases other <;> rfl
    | undefined => cases other <;> rfl
    | error f l => cases other <;> rfl
    | array as =>
      cases other with
      | array bs =>
        rw [sameByCount, same]
        exact itemsByCount_eq fun a ha b hb =>
          items as rfl a ha (hv.elements a ha) (hw.elements b hb)
      | _ => rfl
    | object es =>
      cases other with
      | object fs =>
        rw [sameByCount, same]
        refine Bool.eq_iff_iff.2 ((countedFields_iff hv.fields.1 hw.fields.1 ?_).trans
          sameFields_iff.symm)
        exact fun e he f hf => entries es rfl e he (hv.fields.2 e he) (hw.fields.2 f hf)
      | _ => rfl

/-! ## Equality -/

theorem same_number_iff (a b : Decimal) (m n : Metadata) :
    same ⟨.number a, m⟩ ⟨.number b, n⟩ = true ↔ a.value = b.value := by
  rw [same, beq_iff_eq, Decimal.value_inj]

theorem same_array_iff (as bs : List Value) (m n : Metadata) :
    same ⟨.array as, m⟩ ⟨.array bs, n⟩ = true ↔ as.length = bs.length ∧
      ∀ i (h : i < as.length) (h' : i < bs.length), same as[i] bs[i] = true := by
  rw [same, sameItems_iff]
  exact ⟨fun h => ⟨h.length, h.values⟩, fun h => ⟨h.1, h.2⟩⟩

theorem same_object_iff (es fs : List (String × Value)) (m n : Metadata) :
    same ⟨.object es, m⟩ ⟨.object fs, n⟩ = true ↔
      (∀ key, key ∈ es.map Prod.fst ↔ key ∈ fs.map Prod.fst) ∧
      ∀ key a b, lookup key es = some a → lookup key fs = some b → same a b = true := by
  rw [same, sameFields_iff]
  simp only [← isSome_lookup_iff, ← Bool.eq_iff_iff]
  exact ⟨fun h => ⟨h.keys, h.values⟩, fun h => ⟨h.1, h.2⟩⟩

theorem type_eq_of_same (h : same v w = true) : v.type = w.type := by
  rw [same_iff] at h
  unfold type
  generalize v.kind = k at h ⊢
  generalize w.kind = l at h ⊢
  cases h <;> rfl

/-- Equality of values is an equivalence. It does not see metadata at any depth, nor the order of
entries. Arrays are equal if they are of one length and equal position by position, objects if they
have the same keys and equal values under each, numbers if they are the same number, and values of
different types are never equal. Where keys are unique this is what a comparison finds that looks up
the entries of one object in the other and counts those of both. -/
theorem same_equivalence :
    (∀ v, same v v = true) ∧ (∀ v w, same v w = same w v) ∧
    (∀ u v w, same u v = true → same v w = true → same u w = true) ∧
    (∀ v v' w w', Relation.ReflTransGen Rewritten v v' → Relation.ReflTransGen Rewritten w w' →
      same v w = same v' w') ∧
    (∀ as bs m n, same ⟨.array as, m⟩ ⟨.array bs, n⟩ = true ↔ as.length = bs.length ∧
      ∀ i (h : i < as.length) (h' : i < bs.length), same as[i] bs[i] = true) ∧
    (∀ es fs m n, same ⟨.object es, m⟩ ⟨.object fs, n⟩ = true ↔
      (∀ key, key ∈ es.map Prod.fst ↔ key ∈ fs.map Prod.fst) ∧
      ∀ key a b, lookup key es = some a → lookup key fs = some b → same a b = true) ∧
    (∀ a b m n, same ⟨.number a, m⟩ ⟨.number b, n⟩ = true ↔ a.value = b.value) ∧
    (∀ v w, v.type.name ≠ w.type.name → same v w = false) ∧
    ∀ v w, UniqueKeys v → UniqueKeys w → sameByCount v w = same v w := by
  refine ⟨same_refl, same_comm, fun _ _ _ => same_trans, fun v v' w w' hv hw => ?_, same_array_iff,
    same_object_iff, same_number_iff, fun v w hname => ?_, fun _ _ => sameByCount_eq⟩
  · calc same v w = same v' w := same_congr (same_of_rewrites hv) w
      _ = same w v' := same_comm v' w
      _ = same w' v' := same_congr (same_of_rewrites hw) v'
      _ = same v' w' := same_comm w' v'
  · by_contra h
    exact hname (congrArg ValueType.name (type_eq_of_same (by simpa using h)))

/-- An object is equal to itself with its entries swapped and a secret inside, however compared. -/
theorem same_swapped_entries :
    let v : Value := object [("a", ofNat 1), ("b", array [null])]
    let w : Value := object [("b", array [null.asSecret]), ("a", ofNat 1)]
    Relation.ReflTransGen Rewritten v w ∧ UniqueKeys v ∧ UniqueKeys w ∧ same v w = true ∧
      sameByCount v w = true ∧ same w v = true ∧ same v v = true := by
  intro v w
  have leaf (u : Value) (harray : u.asArray? = none) (hobject : u.asObject? = none) :
      UniqueKeys u := .leaf harray hobject
  have swapped : Rewritten v (object [("b", array [null]), ("a", ofNat 1)]) :=
    .order (.swap _ _ []) (by decide) .empty
  have hidden : Rewritten (object [("b", array [null]), ("a", ofNat 1)]) w :=
    .field (.element (.metadata .null .empty _) [] [] .empty) "b" [] [("a", ofNat 1)] .empty
  have rewritten : Relation.ReflTransGen Rewritten v w :=
    (Relation.ReflTransGen.single swapped).tail hidden
  have keys (u : Value) (hu : u.asArray? = none) (hu' : u.asObject? = none) : UniqueKeys (array [u]) :=
    .array (by simpa using leaf u hu hu')
  have hv : UniqueKeys v := .object (by decide) (by
    simpa using ⟨leaf (ofNat 1) rfl rfl, keys null rfl rfl⟩)
  have hw : UniqueKeys w := .object (by decide) (by
    simpa using ⟨keys null.asSecret rfl rfl, leaf (ofNat 1) rfl rfl⟩)
  obtain ⟨reflexive, symmetric, transitive, invariant, -, -, -, -, counted⟩ := same_equivalence
  have equal : same v w = true := (invariant v v v w .refl rewritten).symm.trans (reflexive v)
  have back : same w v = true := (symmetric w v).trans equal
  exact ⟨rewritten, hv, hw, equal, (counted v w hv hw).trans equal, back,
    transitive v w v equal back⟩

end PolicyExpr.Value
