import PolicyExpr.Function
import PolicyExpr.Proofs.Exactness

/-!
# Largest and least arguments

The functions that pick an extremal argument go through their arguments with the best one so far.
What they pick is the first argument whose number lies beyond the numbers of all arguments, in the
order of the rational numbers, and they pick it as it is, with its metadata. An argument that is no
number makes them fail, wherever it stands.
-/
namespace PolicyExpr

theorem Value.asNumber?_eq_none_iff {v : Value} : v.asNumber? = none ↔ v.type ≠ .number := by
  obtain ⟨kind, m⟩ := v
  cases kind <;> simp [asNumber?, type, Kind.type]

theorem Value.exists_asNumber? {v : Value} (h : v.type = .number) : ∃ n, v.asNumber? = some n :=
  Option.ne_none_iff_exists'.1 fun hnone => asNumber?_eq_none_iff.1 hnone h

namespace NativeFunction

/-! ## Extremal arguments -/

/-- An argument that is a number beyond the numbers among all arguments, itself included. -/
def IsExtremal (beyond : ℚ → ℚ → Prop) (args : List Value) (v : Value) : Prop :=
  ∃ n, v.asNumber? = some n ∧
    ∀ w ∈ args, ∀ m, w.asNumber? = some m → beyond n.value m.value

/-- The first extremal argument: none of those before it is extremal. -/
def IsFirstExtremal (beyond : ℚ → ℚ → Prop) (args : List Value) (v : Value) : Prop :=
  ∃ before after, args = before ++ v :: after ∧ IsExtremal beyond args v ∧
    ∀ w ∈ before, ¬IsExtremal beyond args w

/-- The first argument that is no number is of this type. -/
def FirstOther (args : List Value) (type : ValueType) : Prop :=
  ∃ before v after, args = before ++ v :: after ∧ (∀ w ∈ before, w.type = .number) ∧
    v.type ≠ .number ∧ type = v.type

/-- A function that picks the first extremal argument, and fails at one that is no number. -/
structure Picks (beyond : ℚ → ℚ → Prop) (f : NativeFunction) : Prop where
  fails_iff : ∀ name args,
    (∃ cause, f name args = .ok (.error cause)) ↔ ∃ v ∈ args, v.type ≠ .number
  names_type : ∀ name args cause, f name args = .ok (.error cause) →
    ∃ type, FirstOther args type ∧ cause = .numberArgument name type
  picks : ∀ name args, args ≠ [] → (∀ v ∈ args, v.type = .number) →
    ∃ v, f name args = .ok (.ok v) ∧ IsFirstExtremal beyond args v
  nothing : ∀ name, f name [] = .ok (.ok Value.undefined)

/-- A comparison that finds a number better exactly if the other one is not beyond it. -/
structure Prefers (better : Decimal → Decimal → Bool) (beyond : ℚ → ℚ → Prop) : Prop where
  trans : ∀ {x y z}, beyond x y → beyond y z → beyond x z
  total : ∀ x y, beyond x y ∨ beyond y x
  better_iff : ∀ n m, better n m = true ↔ ¬beyond m.value n.value

theorem prefers_larger : Prefers (fun n m => (n.compare m).isGT) (· ≥ ·) where
  trans h₁ h₂ := ge_trans h₁ h₂
  total x y := (le_total x y).symm
  better_iff n m := by
    rw [Decimal.compare_eq_compare_value, Ordering.isGT_iff_eq_gt, compare_gt_iff_gt, ge_iff_le,
      not_le]

theorem prefers_smaller : Prefers (fun n m => (n.compare m).isLT) (· ≤ ·) where
  trans h₁ h₂ := le_trans h₁ h₂
  total x y := le_total x y
  better_iff n m := by
    rw [Decimal.compare_eq_compare_value, Ordering.isLT_iff_eq_lt, compare_lt_iff_lt, not_le]

/-! ## Going through the arguments -/

variable {better : Decimal → Decimal → Bool} {beyond : ℚ → ℚ → Prop} {name : String}
  {args seen rest : List Value} {v w : Value} {n m : Decimal}

/-- More arguments do not make an argument extremal. -/
theorem IsExtremal.of_append (h : IsExtremal beyond (seen ++ rest) v) :
    IsExtremal beyond seen v := by
  obtain ⟨n, hn, hall⟩ := h
  exact ⟨n, hn, fun w hw => hall w (List.mem_append_left rest hw)⟩

theorem Prefers.refl (h : Prefers better beyond) (x : ℚ) : beyond x x :=
  (h.total x x).elim id id

/-- The number of an extremal argument is beyond each number among the arguments. -/
theorem IsExtremal.ahead (h : IsExtremal beyond args v) (hv : v.asNumber? = some n)
    (hw : w ∈ args) (hm : w.asNumber? = some m) : beyond n.value m.value := by
  obtain ⟨k, hk, hall⟩ := h
  cases hv.symm.trans hk
  exact hall w hw m hm

theorem IsFirstExtremal.single (h : Prefers better beyond) (hv : v.asNumber? = some n) :
    IsFirstExtremal beyond [v] v := by
  refine ⟨[], [], rfl, ⟨n, hv, fun w hw m hm => ?_⟩, by simp⟩
  cases List.mem_singleton.1 hw
  cases hv.symm.trans hm
  exact h.refl _

/-- A better argument becomes the first extremal one. -/
theorem IsFirstExtremal.replaced (h : Prefers better beyond)
    (hfirst : IsFirstExtremal beyond seen w) (hw : w.asNumber? = some m)
    (hv : v.asNumber? = some n) (hbetter : better n m = true) :
    IsFirstExtremal beyond (seen ++ [v]) v := by
  obtain ⟨before, after, hseen, hextremal, -⟩ := hfirst
  have behind : ¬beyond m.value n.value := (h.better_iff n m).1 hbetter
  have ahead : beyond n.value m.value := (h.total n.value m.value).resolve_right behind
  refine ⟨seen, [], rfl, ⟨n, hv, fun u hu k hk => ?_⟩, fun u hu hall => ?_⟩
  · rcases List.mem_append.1 hu with hu | hu
    · exact h.trans ahead (hextremal.ahead hw hu hk)
    · cases List.mem_singleton.1 hu
      cases hv.symm.trans hk
      exact h.refl _
  · -- What was extremal before is behind the best one so far, and this one is behind `v`.
    have ⟨k, hk, _⟩ := hall
    have below : beyond m.value k.value := hextremal.ahead hw hu hk
    have above : beyond k.value n.value := hall.ahead hk (by simp) hv
    exact behind (h.trans below above)

/-- An argument that is not better leaves the first extremal one in its place. -/
theorem IsFirstExtremal.kept (h : Prefers better beyond) (hfirst : IsFirstExtremal beyond seen w)
    (hw : w.asNumber? = some m) (hv : v.asNumber? = some n) (hbetter : better n m = false) :
    IsFirstExtremal beyond (seen ++ [v]) w := by
  obtain ⟨before, after, hseen, hextremal, hbefore⟩ := hfirst
  have ahead : beyond m.value n.value := by
    by_contra hbehind
    simp [(h.better_iff n m).2 hbehind] at hbetter
  refine ⟨before, after ++ [v], by simp [hseen], ⟨m, hw, fun u hu k hk => ?_⟩,
    fun u hu hall => hbefore u hu hall.of_append⟩
  rcases List.mem_append.1 hu with hu | hu
  · exact hextremal.ahead hw hu hk
  · cases List.mem_singleton.1 hu
    cases hv.symm.trans hk
    exact ahead

/-- From the best of the arguments so far to the best of all. -/
theorem exists_extremumFrom (h : Prefers better beyond) (hfirst : IsFirstExtremal beyond seen w)
    (hw : w.asNumber? = some m) (hrest : ∀ u ∈ rest, u.type = .number) :
    ∃ u, extremumFrom better name (some (w, m)) rest = .ok u ∧
      IsFirstExtremal beyond (seen ++ rest) u := by
  induction rest generalizing seen w m with
  | nil => exact ⟨w, rfl, by simpa using hfirst⟩
  | cons v rest ih =>
    obtain ⟨hv, hrest⟩ := List.forall_mem_cons.1 hrest
    obtain ⟨n, hn⟩ := Value.exists_asNumber? hv
    have split : seen ++ v :: rest = (seen ++ [v]) ++ rest := by simp
    rw [split]
    simp only [extremumFrom, hn]
    cases hbetter : better n m with
    | true => simpa using ih (hfirst.replaced h hw hn hbetter) hn hrest
    | false => simpa using ih (hfirst.kept h hw hn hbetter) hw hrest

/-- The way through the arguments stops at the first one that is no number, whatever is the best
one so far. -/
theorem extremumFrom_eq_error {best : Option (Value × Decimal)} {cause : Failure}
    (h : extremumFrom better name best args = .error cause) :
    ∃ type, FirstOther args type ∧ cause = .numberArgument name type := by
  induction args generalizing best with
  | nil => cases h
  | cons v rest ih =>
    unfold extremumFrom at h
    split at h
    · next hnone =>
      cases h
      exact ⟨v.type, ⟨[], v, rest, rfl, by simp, Value.asNumber?_eq_none_iff.1 hnone, rfl⟩, rfl⟩
    · next n hn =>
      obtain ⟨type, ⟨before, u, after, hrest, hbefore, hu⟩, hcause⟩ := ih h
      have hv : v.type = .number := by
        by_contra hother
        simp [Value.asNumber?_eq_none_iff.2 hother] at hn
      refine ⟨type, ⟨v :: before, u, after, by simp [hrest], ?_, hu⟩, hcause⟩
      exact List.forall_mem_cons.2 ⟨hv, hbefore⟩

theorem exists_extremumFrom_eq_error {best : Option (Value × Decimal)} (hv : v ∈ args)
    (hother : v.type ≠ .number) : ∃ cause, extremumFrom better name best args = .error cause := by
  induction args generalizing best with
  | nil => cases hv
  | cons u rest ih =>
    unfold extremumFrom
    split
    · exact ⟨_, rfl⟩
    · next n hn =>
      rcases List.mem_cons.1 hv with rfl | hv
      · simp [Value.asNumber?_eq_none_iff.2 hother] at hn
      · exact ih hv

/-- The way through all arguments picks the first extremal one. -/
theorem picks_extremumFrom (h : Prefers better beyond) :
    Picks beyond fun name args => .ok (extremumFrom better name none args) where
  fails_iff name args := by
    constructor
    · rintro ⟨cause, hcause⟩
      obtain ⟨type, ⟨before, v, after, rfl, -, hv, -⟩, -⟩ :=
        extremumFrom_eq_error (Except.ok.inj hcause)
      exact ⟨v, by simp, hv⟩
    · rintro ⟨v, hv, hother⟩
      obtain ⟨cause, hcause⟩ : ∃ cause, extremumFrom better name none args = .error cause :=
        exists_extremumFrom_eq_error hv hother
      exact ⟨cause, by rw [hcause]⟩
  names_type name args cause hcause := extremumFrom_eq_error (Except.ok.inj hcause)
  picks name args hargs hnumbers := by
    cases args with
    | nil => exact absurd rfl hargs
    | cons v rest =>
      obtain ⟨hv, hrest⟩ := List.forall_mem_cons.1 hnumbers
      obtain ⟨n, hn⟩ := Value.exists_asNumber? hv
      obtain ⟨u, hu, hfirst⟩ : ∃ u, extremumFrom better name (some (v, n)) rest = .ok u ∧
          IsFirstExtremal beyond ([v] ++ rest) u :=
        exists_extremumFrom h (.single h hn) hn hrest
      refine ⟨u, ?_, hfirst⟩
      rw [← hu]
      simp only [extremumFrom, hn]
  nothing _ := rfl

end NativeFunction

open NativeFunction

/-- The standard functions for the largest and the least argument pick an extremal argument. They
fail exactly if some argument is no number, with the type of the first such one; of some numbers
they give the first that is at least, or at most, as large as all of them, as it was handed over;
and of no arguments they make Undefined. -/
theorem extremum_selects :
    Picks (· ≥ ·) NativeFunction.max ∧ Picks (· ≤ ·) NativeFunction.min ∧
      FunctionRegistry.standard.functions.get? "math.max" = some NativeFunction.max ∧
      FunctionRegistry.standard.functions.get? "math.min" = some NativeFunction.min ∧
      ∀ name type, (Failure.numberArgument name type).message =
        "`" ++ name ++ "` requires number arguments. Got `" ++ type.name ++ "`." :=
  ⟨picks_extremumFrom prefers_larger, picks_extremumFrom prefers_smaller, rfl, rfl,
    fun _ _ => rfl⟩

end PolicyExpr
