import Mathlib.Algebra.Order.Field.Basic
import Mathlib.Algebra.Order.Field.Rat
import Mathlib.Tactic.Linarith
import Mathlib.Tactic.Positivity
import Mathlib.Tactic.Ring
import PolicyExpr.Proofs.Numerals
import PolicyExpr.Selection

/-!
# Slices

A slice selects what Python selects: the positions `start + n * step` for every natural number `n`
below `(stop - start) / step`. They are walked through one by one until the stop is reached. In words
of 64 bits the same walk ends, stays within the array and does nothing that overflows: where the next
position does not fit a word, the stop has been passed.
-/
namespace PolicyExpr.Selection

open Decimal (maxInt64 minInt64)

/-! ## The slices of Python -/

/-- The least position that a bound may stand for: the first, or the one before it when a slice runs
backwards. -/
def lowerLimit (step : Int) : Int := if 0 < step then 0 else -1

/-- The greatest position that a bound may stand for: the one behind the last, or the last when a
slice runs backwards. -/
def upperLimit (step : Int) (size : Nat) : Int := if 0 < step then size else size - 1

/-- A bound counts from the end when it is negative, and is not taken beyond the limit that it then
runs into. -/
def pythonBound (bound? : Option Int) (absent step : Int) (size : Nat) : Int :=
  match bound? with
  | none => absent
  | some i => if i < 0 then max (i + size) (lowerLimit step) else min i (upperLimit step size)

/-- Where a slice starts. -/
def pythonStart (from? : Option Int) (step : Int) (size : Nat) : Int :=
  pythonBound from? (if 0 < step then lowerLimit step else upperLimit step size) step size

/-- Where a slice stops. -/
def pythonStop (to? : Option Int) (step : Int) (size : Nat) : Int :=
  pythonBound to? (if 0 < step then upperLimit step size else lowerLimit step) step size

/-- The positions of `sequence[from:to:step]` in a sequence of `size` elements: `start + n * step`
for all `n` with `0 ≤ n < (stop - start) / step`. -/
structure IsPythonSlice (from? to? : Option Int) (step : Int) (size : Nat)
    (positions : List Nat) : Prop where
  position : ∀ n (h : n < positions.length),
    (positions[n] : Int) = pythonStart from? step size + n * step
  count : ∀ n : Nat, n < positions.length ↔
    (n : ℚ) < (pythonStop to? step size - pythonStart from? step size : Int) / step

section

variable {step stop i absent : Int} {bound? from? to? : Option Int} {size : Nat}

/-! ## Walks -/

/-- The stop lies ahead of a position, in the direction of the step. -/
def Ahead (step stop i : Int) : Prop := (0 < step ∧ i < stop) ∨ (step < 0 ∧ stop < i)

instance (step stop i : Int) : Decidable (Ahead step stop i) := inferInstanceAs (Decidable (_ ∨ _))

/-- A stop that lies ahead of a later position lies ahead of an earlier one. -/
theorem Ahead.of_later {n : Nat} (h : Ahead step stop (i + n * step)) : Ahead step stop i := by
  rcases h with ⟨hstep, h⟩ | ⟨hstep, h⟩
  · have forward : 0 ≤ n * step := by positivity
    exact .inl ⟨hstep, by omega⟩
  · have backward : 0 ≤ n * -step := Int.mul_nonneg (by omega) (by omega)
    rw [Int.mul_neg] at backward
    exact .inr ⟨hstep, by omega⟩

/-- The stop lies ahead exactly as long as the number of steps is below the quotient. -/
theorem ahead_iff_lt_div (hstep : step ≠ 0) (n : Nat) :
    Ahead step stop (i + n * step) ↔ (n : ℚ) < (stop - i : Int) / step := by
  rcases lt_or_gt_of_ne hstep with h | h
  · have sign : (step : ℚ) < 0 := by exact_mod_cast h
    rw [lt_div_iff_of_neg sign]
    norm_cast
    unfold Ahead
    omega
  · have sign : (0 : ℚ) < step := by exact_mod_cast h
    rw [lt_div_iff₀ sign]
    norm_cast
    unfold Ahead
    omega

/-- The position that is reached by one step and `n` more. -/
theorem step_add (i step : Int) (n : Nat) : i + step + n * step = i + (n + 1 : Nat) * step := by
  push_cast
  ring

theorem slicePositions_succ (count : Nat) : slicePositions step stop (count + 1) i =
    if Ahead step stop i then i.toNat :: slicePositions step stop count (i + step) else [] := rfl

theorem slicePositions_of_not_ahead {count : Nat} (h : ¬ Ahead step stop i) :
    slicePositions step stop count i = [] := by
  cases count with
  | zero => rfl
  | succ count => rw [slicePositions_succ, if_neg h]

/-- A walk that is not cut short has its positions one step apart, as long as the stop lies ahead. -/
theorem getElem?_slicePositions {count : Nat} (hcount : ¬ Ahead step stop (i + count * step))
    (n : Nat) : (slicePositions step stop count i)[n]? =
      if Ahead step stop (i + n * step) then some (i + n * step).toNat else none := by
  induction count generalizing i n with
  | zero =>
    have ended : ¬ Ahead step stop i := by simpa using hcount
    rw [if_neg (mt Ahead.of_later ended)]
    rfl
  | succ count ih =>
    by_cases ahead : Ahead step stop i
    · rw [slicePositions_succ, if_pos ahead]
      cases n with
      | zero => simp [ahead]
      | succ n => rw [List.getElem?_cons_succ, ih (by rwa [step_add]), step_add]
    · rw [slicePositions_of_not_ahead ahead, if_neg (mt Ahead.of_later ahead)]
      rfl

/-! ## Bounds -/

theorem lowerLimit_le_upperLimit (step : Int) (size : Nat) :
    lowerLimit step ≤ upperLimit step size := by
  unfold lowerLimit upperLimit
  split <;> omega

theorem pythonBound_between (hlower : lowerLimit step ≤ absent)
    (hupper : absent ≤ upperLimit step size) :
    lowerLimit step ≤ pythonBound bound? absent step size ∧
      pythonBound bound? absent step size ≤ upperLimit step size := by
  cases bound? with
  | none => exact ⟨hlower, hupper⟩
  | some i =>
    unfold pythonBound lowerLimit upperLimit
    dsimp only
    split <;> split <;> omega

theorem pythonStart_between (from? : Option Int) (step : Int) (size : Nat) :
    lowerLimit step ≤ pythonStart from? step size ∧
      pythonStart from? step size ≤ upperLimit step size := by
  have order := lowerLimit_le_upperLimit step size
  apply pythonBound_between
  · split <;> omega
  · split <;> omega

theorem pythonStop_between (to? : Option Int) (step : Int) (size : Nat) :
    lowerLimit step ≤ pythonStop to? step size ∧
      pythonStop to? step size ≤ upperLimit step size := by
  have order := lowerLimit_le_upperLimit step size
  apply pythonBound_between
  · split <;> omega
  · split <;> omega

/-- As long as the stop lies ahead, a position is one of the array. -/
theorem within_of_ahead {n : Nat}
    (h : Ahead step (pythonStop to? step size) (pythonStart from? step size + n * step)) :
    0 ≤ pythonStart from? step size + n * step ∧
      pythonStart from? step size + n * step < size := by
  have start := pythonStart_between from? step size
  have stop := pythonStop_between to? step size
  unfold lowerLimit upperLimit at start stop
  rcases h with ⟨hstep, h⟩ | ⟨hstep, h⟩
  · have forward : 0 ≤ n * step := by positivity
    rw [if_pos hstep, if_pos hstep] at start stop
    omega
  · have backward : 0 ≤ n * -step := Int.mul_nonneg (by omega) (by omega)
    rw [Int.mul_neg] at backward
    rw [if_neg (by omega), if_neg (by omega)] at start stop
    omega

/-- As many steps as the array has elements lead past the stop. -/
theorem not_ahead_of_size (from? to? : Option Int) (step : Int) (size : Nat) :
    ¬ Ahead step (pythonStop to? step size) (pythonStart from? step size + size * step) := by
  have start := pythonStart_between from? step size
  have stop := pythonStop_between to? step size
  unfold lowerLimit upperLimit at start stop
  rintro (⟨hstep, h⟩ | ⟨hstep, h⟩)
  · have far : (size : Int) * 1 ≤ size * step := Int.mul_le_mul_of_nonneg_left (by omega) (by omega)
    rw [if_pos hstep, if_pos hstep] at start stop
    omega
  · have far : (size : Int) * 1 ≤ size * -step :=
      Int.mul_le_mul_of_nonneg_left (by omega) (by omega)
    rw [Int.mul_neg] at far
    rw [if_neg (by omega), if_neg (by omega)] at start stop
    omega

theorem sliceBound_eq_pythonBound (bound? : Option Int) (absent step : Int) (size : Nat) :
    sliceBound bound? absent (lowerLimit step) (upperLimit step size) size =
      pythonBound bound? absent step size := by
  cases bound? with
  | none => rfl
  | some i =>
    unfold sliceBound pythonBound lowerLimit upperLimit
    dsimp only
    split <;> split <;> omega

theorem sliced_eq (from? to? : Option Int) (step : Int) (size : Nat) :
    sliced from? to? step size =
      slicePositions step (pythonStop to? step size) size (pythonStart from? step size) := by
  unfold sliced pythonStart pythonStop
  rw [← sliceBound_eq_pythonBound, ← sliceBound_eq_pythonBound]
  unfold lowerLimit upperLimit
  split <;> rfl

/-- The positions of a slice are those of Python, all within the array. -/
theorem isPythonSlice_sliced (from? to? : Option Int) (hstep : step ≠ 0) (size : Nat) :
    IsPythonSlice from? to? step size (sliced from? to? step size) ∧
      ∀ p ∈ sliced from? to? step size, p < size := by
  have element := getElem?_slicePositions (not_ahead_of_size from? to? step size)
  rw [← sliced_eq] at element
  have reached (n : Nat) : n < (sliced from? to? step size).length ↔
      Ahead step (pythonStop to? step size) (pythonStart from? step size + n * step) := by
    rw [← not_le, ← List.getElem?_eq_none_iff, element]
    split <;> simp_all
  have position (n : Nat) (h : n < (sliced from? to? step size).length) :
      (sliced from? to? step size)[n] = (pythonStart from? step size + n * step).toNat := by
    have at_n := element n
    rw [if_pos ((reached n).1 h), List.getElem?_eq_getElem h] at at_n
    exact Option.some.inj at_n
  refine ⟨⟨fun n h => ?_, fun n => ?_⟩, fun p hp => ?_⟩
  · have within := within_of_ahead ((reached n).1 h)
    rw [position n h]
    omega
  · rw [reached, ahead_iff_lt_div hstep]
  · obtain ⟨n, h, rfl⟩ := List.getElem_of_mem hp
    have within := within_of_ahead ((reached n).1 h)
    rw [position n h]
    omega

end

/-! ## Words -/

/-- What must not happen when a slice is computed in words of 64 bits. -/
inductive SliceFault where
  | overflow (cause : Decimal.Overflow)
  | invertedBounds
  | outOfBounds

/-- A number as a word. -/
def sliceWord (n : Int) : Except SliceFault Int64 := (Decimal.word n).mapError .overflow

/-- A word, moved between two others. The lower one must not be the greater one. -/
def clampWord (value lower upper : Int64) : Except SliceFault Int64 :=
  if lower ≤ upper then
    .ok (if value < lower then lower else if upper < value then upper else value)
  else .error .invertedBounds

/-- A bound of a slice, in words. -/
def boundInWords (bound? : Option Int64) (absent lower upper len : Int64) :
    Except SliceFault Int64 :=
  match bound? with
  | none => .ok absent
  | some v =>
    if v < 0 then do clampWord (← sliceWord (v.toInt + len.toInt)) lower upper
    else clampWord v lower upper

/-- The sum of two words, where it is a word. -/
def sumWord? (a b : Int64) : Option Int64 := (Decimal.word (a.toInt + b.toInt)).toOption

theorem sumWord?_eq_some {a b j : Int64} (h : sumWord? a b = some j) :
    j.toInt = a.toInt + b.toInt := by
  unfold sumWord? Decimal.word at h
  split at h
  · next hrange =>
    obtain ⟨w, hw, hvalue⟩ := Decimal.word_eq_ok hrange.1 hrange.2
    rw [Decimal.word, if_pos hrange] at hw
    cases hw
    cases h
    exact hvalue
  · cases h

/-- A sum that is no word lies behind all words, in the direction of the second summand. -/
theorem not_ahead_of_sumWord? {step stop i : Int64} (h : sumWord? i step = none) :
    ¬ Ahead step.toInt stop.toInt (i.toInt + step.toInt) := by
  have first := i.toInt_lt
  have firstLower := i.le_toInt
  have last := stop.toInt_lt
  have lastLower := stop.le_toInt
  unfold sumWord? Decimal.word at h
  split at h
  · cases h
  · next hrange =>
    unfold minInt64 maxInt64 at hrange
    unfold Ahead
    omega

/-- How far the stop is ahead. -/
def distance (step stop i : Int) : Nat := (if 0 < step then stop - i else i - stop).toNat

/-- A step that does not overflow brings the walk closer to its stop. -/
theorem distance_lt {step stop i j : Int64} (ahead : Ahead step.toInt stop.toInt i.toInt)
    (next : sumWord? i step = some j) :
    distance step.toInt stop.toInt j.toInt < distance step.toInt stop.toInt i.toInt := by
  have moved := sumWord?_eq_some next
  unfold Ahead at ahead
  unfold distance
  split <;> omega

/-- Walks through an array of `size` elements until the stop is reached, or until the next position
does not fit a word. -/
def walkInWords (size : Nat) (step stop i : Int64) : Except SliceFault (List Nat) :=
  if _ahead : Ahead step.toInt stop.toInt i.toInt then
    if 0 ≤ i.toInt ∧ i.toInt < size then
      match _next : sumWord? i step with
      | some j => (walkInWords size step stop j).map (i.toInt.toNat :: ·)
      | none => .ok [i.toInt.toNat]
    else .error .outOfBounds
  else .ok []
termination_by distance step.toInt stop.toInt i.toInt
decreasing_by exact distance_lt _ahead _next

/-- The positions of a slice with a step other than zero, computed in words. -/
def slicedInWords (from? to? : Option Int64) (step : Int64) (size : Nat) :
    Except SliceFault (List Nat) := do
  let len ← sliceWord size
  if 0 < step then
    let start ← boundInWords from? 0 0 len len
    let stop ← boundInWords to? len 0 len len
    walkInWords size step stop start
  else
    let last ← sliceWord (len.toInt - 1)
    let start ← boundInWords from? last (-1) last len
    let stop ← boundInWords to? (-1) (-1) last len
    walkInWords size step stop start

/-- A walk in words is not stopped by an overflow before it ends, nor does it leave the array, if
none of its positions does. -/
theorem walkInWords_eq {size count : Nat} {step stop i : Int64}
    (hcount : ¬ Ahead step.toInt stop.toInt (i.toInt + count * step.toInt))
    (within : ∀ n : Nat, Ahead step.toInt stop.toInt (i.toInt + n * step.toInt) →
      0 ≤ i.toInt + n * step.toInt ∧ i.toInt + n * step.toInt < size) :
    walkInWords size step stop i = .ok (slicePositions step.toInt stop.toInt count i.toInt) := by
  induction count generalizing i with
  | zero =>
    have ended : ¬ Ahead step.toInt stop.toInt i.toInt := by simpa using hcount
    rw [walkInWords, dif_neg ended]
    rfl
  | succ count ih =>
    rw [walkInWords, slicePositions_succ]
    split
    · next ahead =>
      have inside : 0 ≤ i.toInt ∧ i.toInt < size := by simpa using within 0 (by simpa using ahead)
      rw [if_pos inside]
      split
      · next j hj =>
        have moved := sumWord?_eq_some hj
        rw [ih (by rwa [moved, step_add]) (fun n hn => ?_), moved]
        · rfl
        · rw [moved, step_add] at hn ⊢
          exact within (n + 1) hn
      · next hnone =>
        rw [slicePositions_of_not_ahead (not_ahead_of_sumWord? hnone)]
    · rfl

theorem sliceWord_eq_ok {n : Int} (hmin : minInt64 ≤ n) (hmax : n ≤ maxInt64) :
    ∃ w, sliceWord n = .ok w ∧ w.toInt = n := by
  obtain ⟨w, hw, hvalue⟩ := Decimal.word_eq_ok hmin hmax
  exact ⟨w, by rw [sliceWord, hw]; rfl, hvalue⟩

theorem clampWord_eq_ok {value lower upper : Int64} (h : lower.toInt ≤ upper.toInt) :
    ∃ w, clampWord value lower upper = .ok w ∧
      w.toInt = max lower.toInt (min upper.toInt value.toInt) := by
  refine ⟨_, if_pos (Int64.le_iff_toInt_le.2 h), ?_⟩
  simp only [Int64.lt_iff_toInt_lt]
  split
  · omega
  · split <;> omega

/-- The length is added to negative bounds only, and so the sum is a word. -/
theorem boundInWords_eq_ok (bound? : Option Int64) (absent : Int64) {lower upper len : Int64}
    {step : Int} {size : Nat} (hlower : lower.toInt = lowerLimit step)
    (hupper : upper.toInt = upperLimit step size) (hlen : len.toInt = size) :
    ∃ w, boundInWords bound? absent lower upper len = .ok w ∧
      w.toInt = pythonBound (bound?.map Int64.toInt) absent.toInt step size := by
  rw [← sliceBound_eq_pythonBound, ← hlower, ← hupper]
  have order : lower.toInt ≤ upper.toInt := by
    rw [hlower, hupper]
    exact lowerLimit_le_upperLimit step size
  cases bound? with
  | none => exact ⟨absent, rfl, rfl⟩
  | some v =>
    have upperEnd := len.toInt_lt
    have lowerEnd := v.le_toInt
    simp only [boundInWords, Option.map_some, sliceBound, Int64.lt_iff_toInt_lt, Int64.toInt_zero]
    split
    · next negative =>
      obtain ⟨sum, hsum, hvalue⟩ := sliceWord_eq_ok (n := v.toInt + len.toInt)
        (by unfold minInt64; omega) (by unfold maxInt64; omega)
      rw [hsum, ← hlen, ← hvalue]
      exact clampWord_eq_ok order
    · exact clampWord_eq_ok order

theorem walkInWords_of_bounds {from? to? : Option Int} {step start stop : Int64} {size : Nat}
    (hstart : start.toInt = pythonStart from? step.toInt size)
    (hstop : stop.toInt = pythonStop to? step.toInt size) :
    walkInWords size step stop start = .ok (sliced from? to? step.toInt size) := by
  have ended := not_ahead_of_size from? to? step.toInt size
  have within (n : Nat) (ahead : Ahead step.toInt (pythonStop to? step.toInt size)
      (pythonStart from? step.toInt size + n * step.toInt)) := within_of_ahead ahead
  rw [sliced_eq]
  rw [← hstart, ← hstop] at ended within ⊢
  exact walkInWords_eq ended within

/-- In words the positions are the same: nothing overflows, no bounds are inverted and no element is
looked for outside the array. -/
theorem slicedInWords_eq (from? to? : Option Int64) (step : Int64) {size : Nat}
    (hsize : size ≤ maxInt64) :
    slicedInWords from? to? step size =
      .ok (sliced (from?.map Int64.toInt) (to?.map Int64.toInt) step.toInt size) := by
  obtain ⟨len, hlen, hlenValue⟩ := sliceWord_eq_ok (n := size) (by unfold minInt64; omega) hsize
  simp only [slicedInWords, hlen, bind, Except.bind, Int64.lt_iff_toInt_lt, Int64.toInt_zero]
  split
  · next forward =>
    have lower : (0 : Int64).toInt = lowerLimit step.toInt := (if_pos forward).symm
    have upper : len.toInt = upperLimit step.toInt size := by
      rw [upperLimit, if_pos forward, hlenValue]
    obtain ⟨start, hstart, hstartValue⟩ :=
      boundInWords_eq_ok from? 0 lower upper hlenValue
    obtain ⟨stop, hstop, hstopValue⟩ :=
      boundInWords_eq_ok to? len lower upper hlenValue
    simp only [hstart, hstop]
    refine walkInWords_of_bounds ?_ ?_
    · rw [hstartValue, pythonStart, if_pos forward, lower]
    · rw [hstopValue, pythonStop, if_pos forward, upper]
  · next backward =>
    obtain ⟨last, hlast, hlastValue⟩ := sliceWord_eq_ok (n := len.toInt - 1)
      (by unfold minInt64; omega) (by omega)
    have lower : (-1 : Int64).toInt = lowerLimit step.toInt := (if_neg backward).symm
    have upper : last.toInt = upperLimit step.toInt size := by
      rw [upperLimit, if_neg backward, hlastValue, hlenValue]
    obtain ⟨start, hstart, hstartValue⟩ :=
      boundInWords_eq_ok from? last lower upper hlenValue
    obtain ⟨stop, hstop, hstopValue⟩ :=
      boundInWords_eq_ok to? (-1) lower upper hlenValue
    simp only [hlast, hstart, hstop]
    refine walkInWords_of_bounds ?_ ?_
    · rw [hstartValue, pythonStart, if_neg backward, upper]
    · rw [hstopValue, pythonStop, if_neg backward, lower]

/-! ## Selected elements -/

theorem filterMap_getElem? {α : Type} {items : List α} {positions : List Nat}
    (h : ∀ p ∈ positions, p < items.length) :
    (positions.filterMap (items.toArray[·]?)).map some = positions.map (items[·]?) := by
  induction positions with
  | nil => rfl
  | cons p rest ih =>
    obtain ⟨hp, hrest⟩ := List.forall_mem_cons.1 h
    have found : items.toArray[p]? = some items[p] := by simp [hp]
    rw [List.filterMap_cons_some found, List.map_cons, List.map_cons, ih hrest,
      List.getElem?_eq_getElem hp]

/-- A slice of an array selects the elements that Python selects, in the same order, and carries the
metadata of the array. In words of 64 bits the positions are found without an overflow, without
inverted bounds and without leaving the array, which has no more elements than a word can count. -/
theorem slice_follows_python (items : List Value) (m : Metadata) (from? to? step? : Option Int64)
    (hstep : step? ≠ some 0) :
    ∃ positions selected,
      IsPythonSlice (from?.map Int64.toInt) (to?.map Int64.toInt) (step?.getD 1).toInt items.length
        positions ∧
      (∀ p ∈ positions, p < items.length) ∧
      selected.map some = positions.map (items[·]?) ∧
      slice ⟨.array items, m⟩ (from?.map Int64.toInt) (to?.map Int64.toInt) (step?.map Int64.toInt) =
        ⟨.array selected, m⟩ ∧
      (items.length ≤ maxInt64 →
        slicedInWords from? to? (step?.getD 1) items.length = .ok positions) := by
  have one : (1 : Int64).toInt = 1 := by decide
  have hvalue : (step?.map Int64.toInt).getD 1 = (step?.getD 1).toInt := by
    rw [← one, Option.getD_map]
  have hnonzero : (step?.getD 1).toInt ≠ 0 := by
    cases step? with
    | none => decide
    | some step => exact fun h => hstep (congrArg some (Int64.toInt_inj.1 h))
  obtain ⟨hslice, hwithin⟩ := isPythonSlice_sliced (from?.map Int64.toInt) (to?.map Int64.toInt)
    hnonzero items.length
  refine ⟨_, _, hslice, hwithin, filterMap_getElem? hwithin, ?_, slicedInWords_eq from? to? _⟩
  rw [slice, if_neg (by simp [passesThrough, Value.isError, Value.isUndefined, Value.type, Kind.type])]
  simp only [hvalue, if_neg hnonzero]
  exact congrArg (Value.mk _) (Metadata.empty_merge m)

/-- The longest step backwards, from the last of three elements. -/
theorem slice_longest_step :
    let items : List Value := [.ofNat 1, .ofNat 2, .ofNat 3]
    some Int64.minValue ≠ some 0 ∧ items.length ≤ maxInt64 ∧
    ∃ positions selected,
      IsPythonSlice (some 2) none Int64.minValue.toInt 3 positions ∧
      (∀ p ∈ positions, p < 3) ∧ selected.map some = positions.map (items[·]?) ∧
      slice ⟨.array items, .hidden⟩ (some 2) none (some Int64.minValue.toInt) =
        ⟨.array selected, .hidden⟩ ∧
      (items.length ≤ maxInt64 → slicedInWords (some 2) none Int64.minValue 3 = .ok positions) := by
  intro items
  have nonzero : some Int64.minValue ≠ some 0 := by decide
  exact ⟨nonzero, by decide,
    slice_follows_python items .hidden (some 2) none (some Int64.minValue) nonzero⟩

end PolicyExpr.Selection
