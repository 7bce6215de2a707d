import PolicyExpr.Json
import PolicyExpr.Location

/-!
# Locations as JSON

A location is an object of four words; the end may be left out. A field is read where it
stands, and an optional field is filled in only where it is absent.
-/
namespace PolicyExpr

namespace Json

/-- A field that has to be there. -/
def required? {α : Type} (read : Json → Option α) (key : String) (j : Json) : Option α :=
  (j.field? key).bind read

/-- A field that is filled in where it is absent. -/
def defaulted? {α : Type} (read : Json → Option α) (key : String) (default : α) (j : Json) :
    Option α :=
  match j.field? key with
  | some v => read v
  | none => some default

/-- A value that may be null. -/
def nullable? {α : Type} (read : Json → Option α) : Json → Option (Option α)
  | null => some none
  | j => (read j).map some

/-- A list whose items are all read. -/
def list? {α : Type} (read : Json → Option α) (j : Json) : Option (List α) :=
  j.asArray?.bind fun items => items.mapM read

/-- An unsigned word of 32 bits. -/
def asWord? (j : Json) : Option UInt32 :=
  match j.asInt? with
  | some n => if 0 ≤ n ∧ n < UInt32.size then some n.toNat.toUInt32 else none
  | none => none

def ofWord (w : UInt32) : Json := ofNat w.toNat

end Json

namespace SourceLocation

def toJson (l : SourceLocation) : Json :=
  .object [("startLine", .ofWord l.startLine), ("startChar", .ofWord l.startChar),
    ("endLine", .ofWord l.endLine), ("endChar", .ofWord l.endChar)]

def ofJson? (j : Json) : Option SourceLocation := do
  let startLine ← j.required? Json.asWord? "startLine"
  let startChar ← j.required? Json.asWord? "startChar"
  let endLine ← j.defaulted? Json.asWord? "endLine" 0
  let endChar ← j.defaulted? Json.asWord? "endChar" 0
  return ⟨startLine, startChar, endLine, endChar⟩

end SourceLocation

end PolicyExpr
