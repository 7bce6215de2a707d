import PolicyExpr.Binary64

/-!
# JSON documents

A JSON document as data. Objects keep their entries as written, in order, with repeated
keys; a number is a whole number that fits 64 bits, with or without sign, or a double.
-/
namespace PolicyExpr

/-- A number of a JSON document. -/
inductive Json.Number where
  | int (value : Int)
  | float (value : Binary64)
  deriving DecidableEq

/-- A JSON document. -/
inductive Json where
  | null
  | bool (value : Bool)
  | number (value : Json.Number)
  | text (value : String)
  | array (items : List Json)
  | object (entries : List (String × Json))

namespace Json

instance : Inhabited Json := ⟨null⟩

/-- A whole number as a document. -/
def ofInt (n : Int) : Json := number (.int n)

/-- A natural number as a document. -/
def ofNat (n : Nat) : Json := number (.int n)

/-- The value of a key: its last entry counts. -/
def field? (key : String) : Json → Option Json
  | object entries => entries.foldl (fun found e => if e.1 = key then some e.2 else found) none
  | _ => none

def asText? : Json → Option String
  | text s => some s
  | _ => none

def asBool? : Json → Option Bool
  | bool b => some b
  | _ => none

def asInt? : Json → Option Int
  | number (.int n) => some n
  | _ => none

def asArray? : Json → Option (List Json)
  | array items => some items
  | _ => none

end Json

end PolicyExpr
