/-!
# Imports

A policy document imports functions and attributes of libraries under a short name: an
alias, or else the function's own name. A name with a point in it is never short.
-/
namespace PolicyExpr

/-- An import of one function from a library, which is named by its steps. -/
structure Import where
  library : List String
  function : String
  alias? : Option String
  deriving DecidableEq

namespace Import

/-- An import without alias. -/
def ofName (library : List String) (function : String) : Import := ⟨library, function, none⟩

def withAlias (i : Import) (name : String) : Import := { i with alias? := some name }

/-- The full name: the steps of the library and the function's name, with points between. -/
def qualifiedName (i : Import) : String :=
  let path := String.intercalate "." i.library
  if path.isEmpty then i.function else path ++ "." ++ i.function

end Import

/-- The imports of a policy document, in order. -/
structure ImportTable where
  imports : List Import
  deriving DecidableEq

namespace ImportTable

def empty : ImportTable := ⟨[]⟩

def push (t : ImportTable) (i : Import) : ImportTable := ⟨t.imports ++ [i]⟩

def isEmpty (t : ImportTable) : Bool := t.imports.isEmpty

/-- The full name that a name stands for. An alias comes before the name of a function that was
imported without one, and a name that nothing matches stands for itself. -/
def resolve (t : ImportTable) (name : String) : String :=
  if name.toList.contains '.' then name
  else
    let byAlias := t.imports.find? fun i => i.alias? == some name
    let byName := t.imports.find? fun i => i.alias?.isNone && i.function == name
    match byAlias.orElse fun _ => byName with
    | some i => i.qualifiedName
    | none => name

end ImportTable

end PolicyExpr
