import PolicyExpr.Json.Reader
import PolicyExpr.Json.Writer
import PolicyExpr.Value

/-!
# Values as JSON

Values are written as JSON documents: Undefined as null, an error as an object with its
message. A number is written as the document's number type has it, so a number beyond the
doubles cannot be written; this is the only fault of the library.

Every document is read as a value without metadata. An entry under the key of exact numbers
turns the object around it into the number that its text spells.
-/
namespace PolicyExpr

/-- The one thing that has no result: the text of a number beyond the doubles. -/
inductive Fault where
  | unwritable (number : Decimal)
  deriving DecidableEq

/-- A computation that may need a text that cannot be written. -/
abbrev Eval := Except Fault

namespace Value

/-! ## Writing -/

mutual

/-- The document of a value. -/
def toJson : Value → Eval Json
  | ⟨.boolean b, _⟩ => .ok (.bool b)
  | ⟨.number n, _⟩ =>
    match n.toJson? with
    | some number => .ok (.number number)
    | none => .error (.unwritable n)
  | ⟨.text s, _⟩ => .ok (.text s)
  | ⟨.array items, _⟩ => do return .array (← itemsToJson items)
  | ⟨.object entries, _⟩ => do return .object (← entriesToJson entries)
  | ⟨.null, _⟩ => .ok .null
  | ⟨.undefined, _⟩ => .ok .null
  | ⟨.error f _, _⟩ => .ok (.object [("error", .text f.message)])

def itemsToJson : List Value → Eval (List Json)
  | [] => .ok []
  | v :: rest => do
    let item ← toJson v
    return item :: (← itemsToJson rest)

def entriesToJson : List (String × Value) → Eval (List (String × Json))
  | [] => .ok []
  | (key, v) :: rest => do
    let value ← toJson v
    return (key, value) :: (← entriesToJson rest)

end

/-- The text of a value: its document without blanks, but a bare Undefined and a bare error
have words of their own. -/
def display (v : Value) : Eval String :=
  match v.kind with
  | .undefined => .ok "undefined"
  | .error f _ => .ok ("ERROR[" ++ f.message ++ "]")
  | _ => do return (← v.toJson).render

/-- The text a value contributes to a concatenation: a text as it is, anything else its
display. -/
def plainText (v : Value) : Eval String :=
  match v.asText? with
  | some s => .ok s
  | none => v.display

/-- The indented document of a value. -/
def indented (v : Value) : Eval String := do return (← v.toJson).renderIndented

/-! ## Reading -/

/-- The key under which an object spells an exact number. -/
def exactNumberKey : String := "$serde_json::private::Number"

mutual

/-- The value of a document. -/
def ofJson? : Json → Option Value
  | .null => some null
  | .bool b => some (boolean b)
  | .number n => some (number n.toDecimal)
  | .text s => some (text s)
  | .array items => (itemsOfJson? items).map array
  | .object entries => entriesOfJson? [] entries

def itemsOfJson? : List Json → Option (List Value)
  | [] => some []
  | item :: rest => do
    let v ← ofJson? item
    return v :: (← itemsOfJson? rest)

/-- The value of an object's entries, behind those already `seen`. -/
def entriesOfJson? (seen : List (String × Value)) : List (String × Json) → Option Value
  | [] => some (object seen)
  | (key, item) :: rest => do
    let v ← ofJson? item
    if key = exactNumberKey then
      match v.asText?.map Decimal.ofText, rest with
      | some (.ok n), [] => some (number n)
      | _, _ => none
    else entriesOfJson? (put seen key v) rest

end

/-- Reads a value from the text of a JSON document. -/
def ofJsonText? (s : String) : Option Value := (Json.read s).bind ofJson?

end Value

end PolicyExpr
