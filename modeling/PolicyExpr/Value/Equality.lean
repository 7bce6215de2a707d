import PolicyExpr.Value

/-!
# Equality of values

Values are equal when they are the same datum: metadata do not count at any depth, nor does
the order of entries, nor the place of an error. Objects are equal when they have the same
keys and equal values under each.
-/
namespace PolicyExpr.Value

/-- Whether every key of `entries` is one of `others`. -/
def keysWithin (entries others : List (String × Value)) : Bool :=
  entries.all fun e => (lookup e.1 others).isSome

mutual

/-- Equality of values. -/
def same : Value → Value → Bool
  | ⟨.boolean a, _⟩, ⟨.boolean b, _⟩ => a == b
  | ⟨.number a, _⟩, ⟨.number b, _⟩ => a == b
  | ⟨.text a, _⟩, ⟨.text b, _⟩ => a == b
  | ⟨.array as, _⟩, ⟨.array bs, _⟩ => sameItems as bs
  | ⟨.object as, _⟩, ⟨.object bs, _⟩ => keysWithin bs as && sameEntries [] as bs
  | ⟨.null, _⟩, ⟨.null, _⟩ => true
  | ⟨.undefined, _⟩, ⟨.undefined, _⟩ => true
  | ⟨.error a _, _⟩, ⟨.error b _, _⟩ => a.message == b.message
  | _, _ => false

/-- Equality position by position. -/
def sameItems : List Value → List Value → Bool
  | [], [] => true
  | a :: as, b :: bs => same a b && sameItems as bs
  | _, _ => false

/-- Whether each key has an equal value in `others`; keys already `seen` do not count again. -/
def sameEntries (seen : List String) : List (String × Value) → List (String × Value) → Bool
  | [], _ => true
  | (key, a) :: rest, others =>
    (seen.contains key ||
      match lookup key others with
      | some b => same a b
      | none => false) &&
    sameEntries (key :: seen) rest others

end

end PolicyExpr.Value
