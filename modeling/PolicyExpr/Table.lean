/-!
# Tables

A finite map with its keys in ascending order, so that two tables with the same content are
equal and are listed in the same order.
-/
namespace PolicyExpr

/-- A finite map, sorted by key. -/
structure Table (κ α : Type) [Ord κ] where
  entries : List (κ × α)
  ascending : entries.Pairwise (fun a b => compare a.1 b.1 = .lt) := by simp

namespace Table

variable {κ α : Type} [Ord κ]

/-- The table without entries. -/
def empty : Table κ α := { entries := [] }

instance : Inhabited (Table κ α) := ⟨empty⟩

/-- The value of a key in a list of entries. -/
def find? (key : κ) : List (κ × α) → Option α
  | [] => none
  | (k, v) :: rest => if compare key k = .eq then some v else find? key rest

/-- The value of a key. -/
def get? (t : Table κ α) (key : κ) : Option α := find? key t.entries

def contains (t : Table κ α) (key : κ) : Bool := (t.get? key).isSome

/-- The values in the order of their keys. -/
def values (t : Table κ α) : List α := t.entries.map Prod.snd

/-- Changes the value of a key, in its place in a list of entries. -/
def place (key : κ) (change : Option α → α) : List (κ × α) → List (κ × α)
  | [] => [(key, change none)]
  | (k, v) :: rest =>
    match compare key k with
    | .lt => (key, change none) :: (k, v) :: rest
    | .eq => (k, change (some v)) :: rest
    | .gt => (k, v) :: place key change rest

theorem mem_place_key {key : κ} {change : Option α → α} {x : κ × α} {es : List (κ × α)}
    (h : x ∈ place key change es) : x.1 = key ∨ ∃ y ∈ es, y.1 = x.1 := by
  induction es with
  | nil => simp_all [place]
  | cons e rest ih =>
    obtain ⟨k, v⟩ := e
    unfold place at h
    split at h
    · rcases List.mem_cons.1 h with rfl | h
      · exact .inl rfl
      · exact .inr ⟨x, h, rfl⟩
    · rcases List.mem_cons.1 h with rfl | h
      · exact .inr ⟨(k, v), by simp, rfl⟩
      · exact .inr ⟨x, by simp [h], rfl⟩
    · rcases List.mem_cons.1 h with rfl | h
      · exact .inr ⟨(k, v), by simp, rfl⟩
      · rcases ih h with h | ⟨y, hy, hyx⟩
        · exact .inl h
        · exact .inr ⟨y, by simp [hy], hyx⟩

theorem ascending_place [Std.TransOrd κ] {key : κ} {change : Option α → α} {es : List (κ × α)}
    (h : es.Pairwise (fun a b => compare a.1 b.1 = .lt)) :
    (place key change es).Pairwise (fun a b => compare a.1 b.1 = .lt) := by
  induction es with
  | nil => simp [place]
  | cons e rest ih =>
    obtain ⟨k, v⟩ := e
    have hp := List.pairwise_cons.1 h
    unfold place
    split
    · next hlt =>
      refine List.pairwise_cons.2 ⟨fun x hx => ?_, h⟩
      rcases List.mem_cons.1 hx with rfl | hx
      · exact hlt
      · exact Std.TransCmp.lt_trans hlt (hp.1 x hx)
    · exact List.pairwise_cons.2 ⟨fun x hx => hp.1 x hx, hp.2⟩
    · next hgt =>
      refine List.pairwise_cons.2 ⟨fun x hx => ?_, ih hp.2⟩
      rcases mem_place_key hx with hkey | ⟨y, hy, hyx⟩
      · rw [hkey]
        exact Std.OrientedCmp.gt_iff_lt.1 hgt
      · rw [← hyx]
        exact hp.1 y hy

/-- A key below all keys of a list has no value there. -/
theorem find?_eq_none [Std.TransOrd κ] {key : κ} {es : List (κ × α)}
    (h : ∀ x ∈ es, compare key x.1 = .lt) : find? key es = none := by
  induction es with
  | nil => rfl
  | cons e rest ih =>
    have he := h e (by simp)
    simp [find?, he, ih fun x hx => h x (by simp [hx])]

/-- A change shows at its key and nowhere else. -/
theorem find?_place [Std.TransOrd κ] {key other : κ} {change : Option α → α} {es : List (κ × α)}
    (h : es.Pairwise (fun a b => compare a.1 b.1 = .lt)) :
    find? other (place key change es) =
      if compare other key = .eq then some (change (find? key es)) else find? other es := by
  induction es with
  | nil => simp [place, find?]
  | cons e rest ih =>
    obtain ⟨k, v⟩ := e
    have hp := List.pairwise_cons.1 h
    unfold place
    split
    · next hlt =>
      have hnone : find? key ((k, v) :: rest) = none := by
        refine find?_eq_none fun x hx => ?_
        rcases List.mem_cons.1 hx with rfl | hx
        · exact hlt
        · exact Std.TransCmp.lt_trans hlt (hp.1 x hx)
      rw [hnone, find?]
    · next heq =>
      have hok : compare other k = compare other key :=
        (Std.TransCmp.congr_right heq).symm
      simp only [find?, hok, heq, if_true]
      split <;> rfl
    · next hgt =>
      have hne : compare key k ≠ .eq := by simp [hgt]
      simp only [find?, ih hp.2, hne, if_false]
      by_cases hk : compare other k = .eq
      · have : compare other key ≠ .eq := fun ho =>
          hne (Std.TransCmp.eq_trans (Std.OrientedCmp.eq_symm ho) hk)
        simp [hk, this]
      · simp [hk]

/-- Changes the value of a key. -/
def modify [Std.TransOrd κ] (t : Table κ α) (key : κ) (change : Option α → α) : Table κ α where
  entries := place key change t.entries
  ascending := ascending_place t.ascending

/-- Sets the value of a key. -/
def insert [Std.TransOrd κ] (t : Table κ α) (key : κ) (value : α) : Table κ α :=
  t.modify key fun _ => value

/-- A change shows at its key and nowhere else. -/
theorem get?_modify [Std.TransOrd κ] (t : Table κ α) (key other : κ) (change : Option α → α) :
    (t.modify key change).get? other =
      if compare other key = .eq then some (change (t.get? key)) else t.get? other :=
  find?_place t.ascending

/-- The value that is set is the value of its key. -/
theorem get?_insert [Std.TransOrd κ] (t : Table κ α) (key other : κ) (value : α) :
    (t.insert key value).get? other =
      if compare other key = .eq then some value else t.get? other :=
  get?_modify t key other fun _ => value

/-- A key has the value that stands beside it. -/
theorem find?_eq_some_iff [Std.TransOrd κ] [Std.LawfulEqOrd κ] {key : κ} {v : α}
    {es : List (κ × α)} (h : es.Pairwise (fun a b => compare a.1 b.1 = .lt)) :
    find? key es = some v ↔ (key, v) ∈ es := by
  induction es with
  | nil => simp [find?]
  | cons e rest ih =>
    obtain ⟨k, w⟩ := e
    have hp := List.pairwise_cons.1 h
    rw [find?]
    split
    · next heq =>
      cases Std.LawfulEqCmp.eq_of_compare heq
      have hbehind : (key, v) ∉ rest := fun hmem => by
        simpa [Std.ReflCmp.compare_self] using hp.1 _ hmem
      simp [hbehind, eq_comm]
    · next hne =>
      have hkey : key ≠ k := fun heq => hne (heq ▸ Std.ReflCmp.compare_self)
      simp [hkey, ih hp.2]

theorem mem_entries_iff [Std.TransOrd κ] [Std.LawfulEqOrd κ] {t : Table κ α} {key : κ} {v : α} :
    (key, v) ∈ t.entries ↔ t.get? key = some v :=
  (find?_eq_some_iff t.ascending).symm

/-- Tables with the same values under all keys are the same table. -/
theorem ext_get? [Std.TransOrd κ] [Std.LawfulEqOrd κ] {s t : Table κ α}
    (h : ∀ key, s.get? key = t.get? key) : s = t := by
  have nodup (u : Table κ α) : u.entries.Nodup := u.ascending.imp fun hlt heq => by
    simp [heq, Std.ReflCmp.compare_self] at hlt
  have hmem : ∀ e, e ∈ s.entries ↔ e ∈ t.entries := fun e => by
    rw [mem_entries_iff, mem_entries_iff, h]
  have hperm := (List.perm_ext_iff_of_nodup (nodup s) (nodup t)).2 hmem
  have hentries : s.entries = t.entries := by
    refine hperm.eq_of_pairwise (fun a b _ _ hab hba => ?_) s.ascending t.ascending
    rw [Std.OrientedCmp.gt_iff_lt.2 hab] at hba
    cases hba
  cases s
  cases t
  cases hentries
  rfl

/-- The table of some entries; a later one replaces an earlier one. -/
def ofList [Std.TransOrd κ] (entries : List (κ × α)) : Table κ α :=
  entries.foldl (fun t e => t.insert e.1 e.2) empty

end Table

end PolicyExpr
