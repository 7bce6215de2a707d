import PolicyExpr.Coverage
import PolicyExpr.Location.Document

/-!
# Coverage as JSON

A hit is a flat object with the four words of its location. A summary lists its conditions
under their positions, in ascending order.
-/
namespace PolicyExpr

namespace Json

/-- An unsigned number of 64 bits. -/
def asIndex? (j : Json) : Option Nat :=
  match j.asInt? with
  | some n => if 0 ≤ n ∧ n < UInt64.size then some n.toNat else none
  | none => none

end Json

namespace CoverageHit

def toJson (hit : CoverageHit) : Json :=
  .object [("statementIndex", .ofNat hit.statementIndex), ("result", .bool hit.result),
    ("startLine", .ofWord hit.location.startLine), ("endLine", .ofWord hit.location.endLine),
    ("startChar", .ofWord hit.location.startChar), ("endChar", .ofWord hit.location.endChar)]

def ofJson? (j : Json) : Option CoverageHit := do
  let statementIndex ← j.required? Json.asIndex? "statementIndex"
  let result ← j.required? Json.asBool? "result"
  let startLine ← j.required? Json.asWord? "startLine"
  let endLine ← j.required? Json.asWord? "endLine"
  let startChar ← j.required? Json.asWord? "startChar"
  let endChar ← j.required? Json.asWord? "endChar"
  return ⟨statementIndex, result, ⟨startLine, startChar, endLine, endChar⟩⟩

end CoverageHit

namespace ConditionCoverage

def toJson (c : ConditionCoverage) : Json :=
  .object [("statementIndex", .ofNat c.statementIndex), ("location", c.location.toJson),
    ("trueHits", .ofNat c.trueHits), ("falseHits", .ofNat c.falseHits)]

end ConditionCoverage

namespace CoverageSummary

def toJson (s : CoverageSummary) : Json :=
  .object [("conditions",
    .object (s.conditions.entries.map fun e => (toString e.1, e.2.toJson)))]

end CoverageSummary

end PolicyExpr
