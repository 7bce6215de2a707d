import PolicyExpr.Import
import PolicyExpr.Location.Document

/-!
# Imports as JSON
-/
namespace PolicyExpr

namespace Import

def toJson (i : Import) : Json :=
  .object [("libSteps", .array (i.library.map .text)), ("functionName", .text i.function),
    ("alias", i.alias?.elim .null .text)]

def ofJson? (j : Json) : Option Import := do
  let library ← j.required? (Json.list? Json.asText?) "libSteps"
  let function ← j.required? Json.asText? "functionName"
  let alias? ← j.defaulted? (Json.nullable? Json.asText?) "alias" none
  return ⟨library, function, alias?⟩

end Import

namespace ImportTable

def toJson (t : ImportTable) : Json := .object [("imports", .array (t.imports.map Import.toJson))]

end ImportTable

end PolicyExpr
