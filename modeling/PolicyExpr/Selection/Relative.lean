import PolicyExpr.Selection

/-!
# Steps with an inner expression

A condition and a template are applied to the parts of a base, each with its position: the
index of an element, the key of an entry, Undefined for a base that has no parts. Here they
are functions of the part and the position.
-/
namespace PolicyExpr.Selection

open Value

/-- An inner expression, as a function of a part of the base and its position. -/
abbrev Inner := (part position : Value) → Eval Value

/-- What a condition's result decides: keep, drop, or the error of the step. -/
def verdict (result : Value) : Except Value Bool :=
  if result.isError then .error result
  else match result.asBoolean? with
    | some keep => .ok keep
    | none => .error ((failure (.condition result.type)).withMetadata result.metadata)

/-- A part of a container as the condition sees it: what is kept, the part and its position. -/
structure Part (α : Type) where
  kept : α
  part : Value
  position : Value

/-- The parts of an array. -/
def elementParts (items : List Value) : List (Part Value) :=
  items.mapIdx fun i v => ⟨v, v, ofNat i⟩

/-- The parts of an object. -/
def entryParts (entries : List (String × Value)) : List (Part (String × Value)) :=
  entries.map fun e => ⟨e, e.2, text e.1⟩

/-- Keeps the parts for which the condition holds, and gathers the metadata of every result.
The first part whose condition fails decides the error. -/
def keepWhere {α : Type} (test : Inner) (metadata : Metadata) :
    List (Part α) → Eval (Except Value (List α × Metadata))
  | [] => .ok (.ok ([], metadata))
  | p :: rest => do
    let result ← test p.part p.position
    match verdict result with
    | .error e => return .error (e.mergeMetadata metadata)
    | .ok keep =>
      match ← keepWhere test (metadata.merge result.metadata) rest with
      | .error e => return .error e
      | .ok (kept, metadata) => return .ok (if keep then p.kept :: kept else kept, metadata)

def condition (base : Value) (test : Inner) : Eval Value :=
  if passesThrough base then .ok base
  else match base.kind with
    | .array items => do
      match ← keepWhere test base.metadata (elementParts items) with
      | .ok (kept, metadata) => return (array kept).withMetadata metadata
      | .error e => return e
    | .object entries => do
      match ← keepWhere test base.metadata (entryParts entries) with
      | .ok (kept, metadata) => return (object kept).withMetadata metadata
      | .error e => return e
    | _ => do
      let result ← test base undefined
      match verdict result with
      | .ok true => return base.mergeMetadata result.metadata
      | .ok false => return undefined.withMetadata (base.metadata.merge result.metadata)
      | .error e => return e.mergeMetadata base.metadata

/-- The results of a template for every part, without Undefined, up to the first error. -/
def mapParts {α : Type} (template : Inner) : List (Part α) → Eval (Except Value (List Value))
  | [] => .ok (.ok [])
  | p :: rest => do
    let v ← template p.part p.position
    if v.isError then return .error v
    else match ← mapParts template rest with
      | .error e => return .error e
      | .ok vs => return .ok (if v.isUndefined then vs else v :: vs)

def subtemplate (base : Value) (template : Inner) : Eval Value :=
  if passesThrough base then .ok base
  else match base.kind with
    | .array items => do
      match ← mapParts template (elementParts items) with
      | .ok vs => return derived (array vs) base
      | .error e => return e.mergeMetadata base.metadata
    | _ => do return derived (← template base undefined) base

end PolicyExpr.Selection
