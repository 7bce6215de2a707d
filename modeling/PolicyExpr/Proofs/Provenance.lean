import PolicyExpr.Proofs.Discipline

/-!
# Where errors come from

Errors stand in values, also inside of arrays and objects, and each names a place or none. To have
errors with certain places only is a discipline: no operator and no selection makes up a place, and
a node that sees to an error gives it its own.
-/
namespace PolicyExpr

namespace Value

/-- An error in the value, the value itself or nested in it, has this place. -/
inductive Carries (l : SourceLocation) : Value → Prop where
  | error {f : Failure} {m : Metadata} : Carries l ⟨.error f (some l), m⟩
  | item {items : List Value} {m : Metadata} {v : Value} (hv : v ∈ items) (h : Carries l v) :
    Carries l ⟨.array items, m⟩
  | entry {entries : List (String × Value)} {m : Metadata} {e : String × Value}
    (he : e ∈ entries) (h : Carries l e.2) : Carries l ⟨.object entries, m⟩

/-- Errors in the value that have a place have one of these. -/
def Sourced (places : SourceLocation → Prop) (v : Value) : Prop := ∀ l, v.Carries l → places l

/-- An error that has no place. -/
def isUnplaced (v : Value) : Bool :=
  match v.kind with
  | .error _ none => true
  | _ => false

/-- Errors in the value that have a place have one of these. Where `strict`, the value itself is
no error without a place. -/
structure Placed (strict : Bool) (places : SourceLocation → Prop) (v : Value) : Prop where
  sourced : v.Sourced places
  placed : strict = true → v.isUnplaced = false

variable {places : SourceLocation → Prop} {strict : Bool} {v w : Value} {vs : List Value}
  {es : List (String × Value)} {m : Metadata} {l : SourceLocation}

/-- Metadata do not matter. -/
theorem Sourced.of_kind (h : v.Sourced places) (hkind : w.kind = v.kind) : w.Sourced places := by
  obtain ⟨kind, _⟩ := v
  obtain ⟨_, _⟩ := w
  cases hkind
  intro l hl
  cases hl with
  | error => exact h l .error
  | item hv hcarries => exact h l (.item hv hcarries)
  | entry he hcarries => exact h l (.entry he hcarries)

theorem Placed.of_kind (h : v.Placed strict places) (hkind : w.kind = v.kind) :
    w.Placed strict places := by
  refine ⟨h.sourced.of_kind hkind, fun hstrict => ?_⟩
  rw [isUnplaced, hkind]
  exact h.placed hstrict

theorem sourced_leaf (harray : v.asArray? = none) (hobject : v.asObject? = none)
    (herror : ∀ f l, v.kind ≠ .error f (some l)) : v.Sourced places := by
  intro l hl
  cases hl with
  | error => exact absurd rfl (herror _ l)
  | item => cases harray
  | entry => cases hobject

theorem sourced_failure (f : Failure) : (failure f).Sourced places :=
  sourced_leaf rfl rfl nofun

theorem sourced_array : (array vs).Sourced places ↔ ∀ v ∈ vs, v.Sourced places := by
  refine ⟨fun h v hv l hl => h l (.item hv hl), fun h l hl => ?_⟩
  cases hl with
  | item hv hl => exact h _ hv l hl

theorem sourced_object : (object es).Sourced places ↔ ∀ e ∈ es, e.2.Sourced places := by
  refine ⟨fun h e he l hl => h l (.entry he hl), fun h l hl => ?_⟩
  cases hl with
  | entry he hl => exact h _ he l hl

theorem Sourced.placed_of_isError (h : v.Sourced places) (hv : v.isError = false) :
    v.Placed strict places := by
  refine ⟨h, fun _ => ?_⟩
  unfold isUnplaced
  split
  · next hkind =>
    rw [isError, type, hkind] at hv
    cases hv
  · rfl

/-- A place makes an error that has none placed. -/
theorem placed_locate (hl : places l) (h : v.Sourced places) :
    (v.locate l).Placed strict places := by
  unfold locate
  split
  · refine ⟨fun l' hl' => ?_, fun _ => rfl⟩
    cases hl'
    exact hl
  · next hkind =>
    refine ⟨h, fun _ => ?_⟩
    unfold isUnplaced
    split
    · next f hv => exact absurd hv (hkind f)
    · rfl

/-- An error that is placed has a place, and one of these. -/
theorem Placed.place_of_isError (h : v.Placed true places) (hv : v.isError = true) :
    ∃ f l, v.kind = .error f (some l) ∧ places l := by
  obtain ⟨hsourced, hplaced⟩ := h
  obtain ⟨kind, m⟩ := v
  cases kind with
  | error f place =>
    cases place with
    | none => cases hplaced rfl
    | some l => exact ⟨f, l, rfl, hsourced l .error⟩
  | _ => cases hv

end Value

open Value

/-- Errors whose places, if they have some, are among these. Nodes have to place theirs. -/
def Discipline.placed (places : SourceLocation → Prop) : Discipline where
  Holds
    | false => Sourced places
    | true => Placed true places
  Part := Sourced places
  Place := places
  of_kind {strict _ _} h hkind := by
    cases strict with
    | false => exact Sourced.of_kind h hkind
    | true => exact Placed.of_kind h hkind
  leaf := sourced_leaf
  array := sourced_array
  object := sourced_object
  part h _ _ := h
  whole h := h
  lax h := h.sourced
  strict := Sourced.placed_of_isError
  locate := placed_locate

end PolicyExpr
