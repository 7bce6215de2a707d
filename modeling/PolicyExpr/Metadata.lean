import PolicyExpr.Location

/-!
# Metadata of values

Every value carries the locations of the values it was computed from and a flag that
says whether any of them was secret. Metadata are merged whenever values are combined:
the locations are united and the result is secret as soon as one part is.
-/
namespace PolicyExpr

/-- The lineage of a value. Locations stand in document order, each once. -/
structure Metadata where
  locations : List SourceLocation
  secret : Bool
  ascending : Ascending locations := by simp
  deriving DecidableEq

namespace Metadata

/-- No lineage. -/
def empty : Metadata := { locations := [], secret := false }

/-- The lineage of a value that comes from one place. -/
def ofLocation (l : SourceLocation) : Metadata := { locations := [l], secret := false }

/-- The lineage of a value that must not be shown. -/
def hidden : Metadata := { locations := [], secret := true }

/-- No location and not secret. -/
def isEmpty (m : Metadata) : Bool := m.locations.isEmpty && !m.secret

/-- The lineage of what is computed from two values. -/
def merge (a b : Metadata) : Metadata where
  locations := unionLocations a.locations b.locations
  secret := a.secret || b.secret
  ascending := ascending_unionLocations a.ascending

@[simp] theorem mem_locations_merge {a b : Metadata} {l : SourceLocation} :
    l ∈ (a.merge b).locations ↔ l ∈ a.locations ∨ l ∈ b.locations :=
  mem_unionLocations

@[simp] theorem secret_merge (a b : Metadata) : (a.merge b).secret = (a.secret || b.secret) := rfl

/-- Metadata with the same locations and the same flag are equal. -/
theorem ext_iff_mem {a b : Metadata} :
    a = b ↔ (∀ l, l ∈ a.locations ↔ l ∈ b.locations) ∧ a.secret = b.secret := by
  constructor
  · rintro rfl
    simp
  · rintro ⟨hl, hs⟩
    have := eq_of_ascending a.ascending b.ascending hl
    cases a
    cases b
    simp_all

/-- The empty lineage adds nothing. -/
theorem empty_merge (m : Metadata) : empty.merge m = m :=
  ext_iff_mem.2 (by simp [empty])

/-- The merge of a whole list. -/
def mergeAll (ms : List Metadata) : Metadata := ms.foldl merge empty

end Metadata

end PolicyExpr
