/-!
# Source locations

A location is the span of a node in a policy document: start line and character,
then end line and character, four 32-bit words as the policy parser reports them.
Locations are ordered by their four words in that order, which is document order;
`rank` packs the words into one number so that this order is an order of numbers.
-/
namespace PolicyExpr

/-- The span of a node in a policy document. -/
structure SourceLocation where
  startLine : UInt32
  startChar : UInt32
  endLine : UInt32
  endChar : UInt32
  deriving DecidableEq, Repr

namespace SourceLocation

/-- The location of a node whose document gives none. -/
def unknown : SourceLocation := ⟨0, 0, 0, 0⟩

instance : Inhabited SourceLocation := ⟨unknown⟩

/-- The four words as the digits of one number, the start line first. -/
def rank (l : SourceLocation) : Nat :=
  ((l.startLine.toNat * UInt32.size + l.startChar.toNat) * UInt32.size + l.endLine.toNat) *
      UInt32.size +
    l.endChar.toNat

/-- Locations with one rank are one location: each word is below the base. -/
theorem rank_injective {a b : SourceLocation} (h : a.rank = b.rank) : a = b := by
  obtain ⟨a₁, a₂, a₃, a₄⟩ := a
  obtain ⟨b₁, b₂, b₃, b₄⟩ := b
  simp only [rank, UInt32.size] at h
  have := a₁.toNat_lt; have := a₂.toNat_lt; have := a₃.toNat_lt; have := a₄.toNat_lt
  have := b₁.toNat_lt; have := b₂.toNat_lt; have := b₃.toNat_lt; have := b₄.toNat_lt
  have h₁ : a₁.toNat = b₁.toNat := by omega
  have h₂ : a₂.toNat = b₂.toNat := by omega
  have h₃ : a₃.toNat = b₃.toNat := by omega
  have h₄ : a₄.toNat = b₄.toNat := by omega
  simp [UInt32.toNat_inj.1 h₁, UInt32.toNat_inj.1 h₂, UInt32.toNat_inj.1 h₃,
    UInt32.toNat_inj.1 h₄]

/-- The number under which coverage keeps the condition that starts here. -/
def positionKey (l : SourceLocation) : Nat :=
  l.startLine.toNat * 100000 + l.startChar.toNat

/-- `startLine:startChar-endLine:endChar`. -/
def text (l : SourceLocation) : String :=
  toString l.startLine.toNat ++ ":" ++ toString l.startChar.toNat ++ "-" ++
    toString l.endLine.toNat ++ ":" ++ toString l.endChar.toNat

/-- A report about this place: `startLine:startChar: kind: report`. -/
def message (l : SourceLocation) (kind report : String) : String :=
  toString l.startLine.toNat ++ ":" ++ toString l.startChar.toNat ++ ": " ++ kind ++ ": " ++
    report

end SourceLocation

/-! ## Sets of locations -/

/-- The order of a list of locations in which each comes before the next. -/
abbrev Ascending (ls : List SourceLocation) : Prop :=
  ls.Pairwise fun a b => a.rank < b.rank

/-- Puts a location into its place; one that is there already stays alone. -/
def insertLocation (l : SourceLocation) : List SourceLocation → List SourceLocation
  | [] => [l]
  | m :: rest =>
    if l.rank < m.rank then l :: m :: rest
    else if l.rank = m.rank then m :: rest
    else m :: insertLocation l rest

theorem mem_insertLocation {l x : SourceLocation} {ls : List SourceLocation} :
    x ∈ insertLocation l ls ↔ x = l ∨ x ∈ ls := by
  induction ls with
  | nil => simp [insertLocation]
  | cons m rest ih =>
    unfold insertLocation
    split
    · simp
    · split
      · next h =>
        have : l = m := SourceLocation.rank_injective h
        simp [this]
      · simp [ih]
        grind

theorem ascending_insertLocation {l : SourceLocation} {ls : List SourceLocation}
    (h : Ascending ls) : Ascending (insertLocation l ls) := by
  induction ls with
  | nil => simp [insertLocation]
  | cons m rest ih =>
    have hm := List.pairwise_cons.1 h
    unfold insertLocation
    split
    · next hlt =>
      refine List.pairwise_cons.2 ⟨fun x hx => ?_, h⟩
      rcases List.mem_cons.1 hx with rfl | hx
      · exact hlt
      · exact Nat.lt_trans hlt (hm.1 x hx)
    · split
      · exact h
      · next hlt hne =>
        refine List.pairwise_cons.2 ⟨fun x hx => ?_, ih hm.2⟩
        rcases mem_insertLocation.1 hx with rfl | hx
        · omega
        · exact hm.1 x hx

/-- Ascending lists with the same members are the same list. -/
theorem eq_of_ascending {as bs : List SourceLocation} (ha : Ascending as) (hb : Ascending bs)
    (h : ∀ x, x ∈ as ↔ x ∈ bs) : as = bs := by
  induction as generalizing bs with
  | nil =>
    cases bs with
    | nil => rfl
    | cons b bs => exact absurd ((h b).2 (by simp)) (by simp)
  | cons a as ih =>
    cases bs with
    | nil => exact absurd ((h a).1 (by simp)) (by simp)
    | cons b bs =>
      have ha' := List.pairwise_cons.1 ha
      have hb' := List.pairwise_cons.1 hb
      have hab : a = b := by
        rcases List.mem_cons.1 ((h a).1 (by simp)) with rfl | h₁
        · rfl
        · rcases List.mem_cons.1 ((h b).2 (by simp)) with rfl | h₂
          · rfl
          · have := hb'.1 a h₁
            have := ha'.1 b h₂
            omega
      subst hab
      congr 1
      refine ih ha'.2 hb'.2 fun x => ?_
      constructor
      · intro hx
        rcases List.mem_cons.1 ((h x).1 (List.mem_cons_of_mem _ hx)) with rfl | hx'
        · exact absurd (ha'.1 x hx) (Nat.lt_irrefl _)
        · exact hx'
      · intro hx
        rcases List.mem_cons.1 ((h x).2 (List.mem_cons_of_mem _ hx)) with rfl | hx'
        · exact absurd (hb'.1 x hx) (Nat.lt_irrefl _)
        · exact hx'

/-- The union of two sets of locations. -/
def unionLocations (as bs : List SourceLocation) : List SourceLocation :=
  bs.foldr insertLocation as

theorem mem_unionLocations {x : SourceLocation} {as bs : List SourceLocation} :
    x ∈ unionLocations as bs ↔ x ∈ as ∨ x ∈ bs := by
  unfold unionLocations
  induction bs with
  | nil => simp
  | cons b bs ih =>
    simp only [List.foldr_cons, mem_insertLocation, ih, List.mem_cons]
    grind

theorem ascending_unionLocations {as bs : List SourceLocation} (h : Ascending as) :
    Ascending (unionLocations as bs) := by
  unfold unionLocations
  induction bs with
  | nil => simpa using h
  | cons b bs ih => exact ascending_insertLocation ih

end PolicyExpr
