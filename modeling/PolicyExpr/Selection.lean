import PolicyExpr.Operator

/-!
# Selections

What each kind of step selects from a base. Undefined and errors pass through every step
unchanged. The result of a step carries the metadata of its base.
-/
namespace PolicyExpr.Selection

open Value

/-- Whether every step leaves this base as it is. -/
def passesThrough (base : Value) : Bool := base.isError || base.isUndefined

/-- A result with the metadata of its base. -/
def derived (result base : Value) : Value := result.mergeMetadata base.metadata

/-- A failing step on a base. -/
def failed (f : Failure) (base : Value) : Value := derived (failure f) base

/-- The position of an index in an array of `size` elements; a negative index counts from the
end. -/
def position? (index : Int) (size : Nat) : Option Nat :=
  let i := if index < 0 then index + size else index
  if 0 ≤ i ∧ i < size then some i.toNat else none

/-! ## Keys and indices -/

def key (base : Value) (name : String) : Value :=
  if passesThrough base then base
  else match base.kind with
    | .object entries =>
      match lookup name entries with
      | some v => derived v base
      | none => derived undefined base
    | _ => failed (.keyBase name base.type) base

def wildcard (base : Value) : Value :=
  if passesThrough base then base
  else match base.kind with
    | .array _ => base
    | .object entries => derived (array (entries.map Prod.snd)) base
    | _ => failed (.wildcardBase base.type) base

def index (base : Value) (index : Int) : Value :=
  if passesThrough base then base
  else match base.kind with
    | .array items =>
      match (position? index items.length).bind (items[·]?) with
      | some v => derived v base
      | none => failed (.indexBounds index items.length) base
    | _ => failed (.indexBase base.type) base

/-! ## Slices -/

/-- A bound of a slice: the default where none is given, and otherwise the index, counted from
the end when it is negative, moved into the range from `lowest` to `highest`. -/
def sliceBound (bound : Option Int) (default lowest highest : Int) (size : Nat) : Int :=
  match bound with
  | none => default
  | some i => max lowest (min highest (if i < 0 then i + size else i))

/-- At most `count` positions from `i` on, `step` apart, before `stop` is reached. -/
def slicePositions (step stop : Int) : (count : Nat) → (i : Int) → List Nat
  | 0, _ => []
  | count + 1, i =>
    if (0 < step ∧ i < stop) ∨ (step < 0 ∧ stop < i) then
      i.toNat :: slicePositions step stop count (i + step)
    else []

/-- The positions that a slice with a step other than zero selects. Each lies in the array and
differs from the others, so there are at most `size`. -/
def sliced (from? to? : Option Int) (step : Int) (size : Nat) : List Nat :=
  if 0 < step then
    slicePositions step (sliceBound to? size 0 size size) size (sliceBound from? 0 0 size size)
  else
    slicePositions step (sliceBound to? (-1) (-1) (size - 1) size) size
      (sliceBound from? (size - 1) (-1) (size - 1) size)

def slice (base : Value) (from? to? step? : Option Int) : Value :=
  if passesThrough base then base
  else match base.kind with
    | .array items =>
      let step := step?.getD 1
      if step = 0 then failed .sliceStep base
      else
        let elements := items.toArray
        derived (array ((sliced from? to? step items.length).filterMap (elements[·]?))) base
    | _ => derived undefined base

/-! ## Unions -/

/-- The elements at the given indices, up to the first index that is out of bounds. -/
def elementsAt (items : List Value) : List Int → Except Int (List Value)
  | [] => .ok []
  | index :: rest =>
    match (position? index items.length).bind (items[·]?) with
    | some v => do return v :: (← elementsAt items rest)
    | none => .error index

def indexUnion (base : Value) (indices : List Int) : Value :=
  if passesThrough base then base
  else match base.kind with
    | .array items =>
      match elementsAt items indices with
      | .ok selected => derived (array selected) base
      | .error index => failed (.indexBounds index items.length) base
    | _ => failed (.indexUnionBase base.type) base

def keyUnion (base : Value) (keys : List String) : Value :=
  if passesThrough base then base
  else match base.kind with
    | .object entries => derived (array (keys.filterMap (lookup · entries))) base
    | _ => failed (.keyUnionBase base.type) base

/-! ## Selectors -/

/-- A number selects an element, a text selects a key. -/
def selector (base selector : Value) : Value :=
  if passesThrough base then base
  else if selector.isError then selector.mergeMetadata base.metadata
  else match selector.kind with
    | .number n =>
      match n.toInt64? with
      | some i => index base i
      | none => failed (.arrayIndex n.text) base
    | .text name => key base name
    | _ => failed (.selector selector.type) base

end PolicyExpr.Selection
