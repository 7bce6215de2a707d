import PolicyExpr.Failure
import PolicyExpr.Metadata

/-!
# Values

The data of the policy language: a kind of datum with the metadata it was computed under.
Containers hold values with metadata of their own. An object lists its entries in order
of insertion; where a key occurs twice the first entry counts.
-/
namespace PolicyExpr

/-- A datum whose parts are of type `α`. -/
inductive Kind (α : Type) where
  | boolean (value : Bool)
  | number (value : Decimal)
  | text (value : String)
  | array (items : List α)
  | object (entries : List (String × α))
  | null
  | undefined
  | error (failure : Failure) (location : Option SourceLocation)

/-- A value of the policy language. -/
structure Value where
  kind : Kind Value
  metadata : Metadata

namespace Kind

/-- The type of a datum. -/
def type {α : Type} : Kind α → ValueType
  | boolean _ => .boolean
  | number _ => .number
  | text _ => .text
  | array _ => .array
  | object _ => .object
  | null => .null
  | undefined => .undefined
  | error _ _ => .error

end Kind

namespace Value

/-! ## Construction -/

/-- A datum without lineage. -/
def ofKind (kind : Kind Value) : Value := ⟨kind, .empty⟩

def boolean (b : Bool) : Value := ofKind (.boolean b)

def number (n : Decimal) : Value := ofKind (.number n)

def ofNat (n : Nat) : Value := number (Decimal.ofNat n)

def text (s : String) : Value := ofKind (.text s)

def array (items : List Value) : Value := ofKind (.array items)

def object (entries : List (String × Value)) : Value := ofKind (.object entries)

def null : Value := ofKind .null

def undefined : Value := ofKind .undefined

/-- A failure whose place is not known yet. -/
def failure (f : Failure) : Value := ofKind (.error f none)

/-- A failure at a place. -/
def failureAt (f : Failure) (l : SourceLocation) : Value := ofKind (.error f (some l))

instance : Inhabited Value := ⟨undefined⟩

/-! ## Observation -/

def type (v : Value) : ValueType := v.kind.type

def isError (v : Value) : Bool := v.type == .error

def isUndefined (v : Value) : Bool := v.type == .undefined

def isSecret (v : Value) : Bool := v.metadata.secret

def asBoolean? (v : Value) : Option Bool :=
  match v.kind with
  | .boolean b => some b
  | _ => none

def asNumber? (v : Value) : Option Decimal :=
  match v.kind with
  | .number n => some n
  | _ => none

/-- The number as a 64-bit signed integer. -/
def asInt64? (v : Value) : Option Int := v.asNumber?.bind Decimal.toInt64?

def asText? (v : Value) : Option String :=
  match v.kind with
  | .text s => some s
  | _ => none

def asArray? (v : Value) : Option (List Value) :=
  match v.kind with
  | .array items => some items
  | _ => none

def asObject? (v : Value) : Option (List (String × Value)) :=
  match v.kind with
  | .object entries => some entries
  | _ => none

/-! ## Metadata -/

def withMetadata (v : Value) (m : Metadata) : Value := ⟨v.kind, m⟩

/-- The value with more lineage. -/
def mergeMetadata (v : Value) (m : Metadata) : Value := ⟨v.kind, v.metadata.merge m⟩

/-- The value tagged with a place it comes from. -/
def tagged (v : Value) (l : SourceLocation) : Value := v.mergeMetadata (.ofLocation l)

/-- The value flagged as secret. -/
def asSecret (v : Value) : Value := v.mergeMetadata .hidden

/-- The lineage of what is computed from all of these values. -/
def mergedMetadata (vs : List Value) : Metadata := Metadata.mergeAll (vs.map Value.metadata)

/-- Places an error that has no place yet. -/
def locate (v : Value) (l : SourceLocation) : Value :=
  match v.kind with
  | .error f none => ⟨.error f (some l), v.metadata⟩
  | _ => v

/-! ## Entries of objects -/

/-- The value of a key. -/
def lookup (key : String) : List (String × Value) → Option Value
  | [] => none
  | (k, v) :: rest => if k = key then some v else lookup key rest

/-- Sets a key: in place where it exists, at the end otherwise. -/
def put (entries : List (String × Value)) (key : String) (value : Value) :
    List (String × Value) :=
  match entries with
  | [] => [(key, value)]
  | (k, v) :: rest => if k = key then (k, value) :: rest else (k, v) :: put rest key value

/-- A key has the value that is set, and every other key the value it had. -/
theorem lookup_put (entries : List (String × Value)) (key other : String) (value : Value) :
    lookup other (put entries key value) =
      if key = other then some value else lookup other entries := by
  induction entries with
  | nil => simp [put, lookup]
  | cons e rest ih =>
    obtain ⟨k, v⟩ := e
    by_cases hk : k = key
    · subst hk
      by_cases ho : k = other <;> simp [put, lookup, ho]
    · by_cases ho : k = other
      · subst ho
        simp [put, lookup, hk, Ne.symm hk]
      · simp [put, lookup, hk, ho, ih]

/-- Entries put one after another: a key keeps its first place and its last value. -/
def ofEntries (entries : List (String × Value)) : List (String × Value) :=
  entries.foldl (fun object e => put object e.1 e.2) []

end Value

end PolicyExpr
