import PolicyExpr.Selection

/-!
# Recursive steps

A recursive step looks at everything inside its base, parents before children. It fails
when something lies more than `maxDepth` levels below the base.
-/
namespace PolicyExpr.Selection

open Value

/-- The number of levels below the base that a recursive step looks at. -/
def maxDepth : Nat := 500

mutual

/-- The containers in a value, itself included, parents first; none where the value nests
deeper than `maxDepth`, counted from `depth`. -/
def containers (depth : Nat) : Value → Option (List Value)
  | ⟨kind, metadata⟩ =>
    if maxDepth < depth then none
    else match kind with
      | .array items =>
        (itemContainers (depth + 1) items).map (⟨.array items, metadata⟩ :: ·)
      | .object entries =>
        (entryContainers (depth + 1) entries).map (⟨.object entries, metadata⟩ :: ·)
      | _ => some []

def itemContainers (depth : Nat) : List Value → Option (List Value)
  | [] => some []
  | v :: rest => do
    let first ← containers depth v
    return first ++ (← itemContainers depth rest)

def entryContainers (depth : Nat) : List (String × Value) → Option (List Value)
  | [] => some []
  | (_, v) :: rest => do
    let first ← containers depth v
    return first ++ (← entryContainers depth rest)

end

mutual

/-- Everything strictly inside a value, parents first; none where the value nests too deep. -/
def descendants (depth : Nat) : Value → Option (List Value)
  | ⟨kind, _⟩ =>
    if maxDepth < depth then none
    else match kind with
      | .array items => itemDescendants (depth + 1) items
      | .object entries => entryDescendants (depth + 1) entries
      | _ => some []

def itemDescendants (depth : Nat) : List Value → Option (List Value)
  | [] => some []
  | v :: rest => do
    let below ← descendants depth v
    return v :: below ++ (← itemDescendants depth rest)

def entryDescendants (depth : Nat) : List (String × Value) → Option (List Value)
  | [] => some []
  | (_, v) :: rest => do
    let below ← descendants depth v
    return v :: below ++ (← entryDescendants depth rest)

end

/-- The step whose result lists what was found in the base, if it does not nest too deep. -/
def recursive (base : Value) (found : Option (List Value)) : Value :=
  match found with
  | some vs => derived (array vs) base
  | none => failed .nesting base

/-- The values of a key in every object in the base. -/
def recursiveKey (base : Value) (name : String) : Value :=
  if passesThrough base then base
  else recursive base ((containers 0 base).map fun vs =>
    vs.filterMap fun v => v.asObject?.bind (lookup name))

/-- The elements at an index of every array in the base. -/
def recursiveIndex (base : Value) (index : Int) : Value :=
  if passesThrough base then base
  else recursive base ((containers 0 base).map fun vs =>
    vs.filterMap fun v => v.asArray?.bind fun items =>
      (position? index items.length).bind (items[·]?))

/-- Everything in the base. -/
def recursiveWildcard (base : Value) : Value :=
  if passesThrough base then base else recursive base (descendants 0 base)

end PolicyExpr.Selection
