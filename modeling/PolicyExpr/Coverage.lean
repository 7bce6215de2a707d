import PolicyExpr.Binary64
import PolicyExpr.Location
import PolicyExpr.Table

/-!
# Coverage of conditions

Every boolean outcome of a condition is a hit. A log keeps the hits in order until they are
collected. A summary counts them by the position at which their condition starts, so that
conditions that start at one place are counted as one.
-/
namespace PolicyExpr

/-- An outcome of a condition of a policy body. -/
structure CoverageHit where
  statementIndex : Nat
  result : Bool
  location : SourceLocation
  deriving DecidableEq

/-! ## Logs -/

/-- The hits that were not collected yet, in order. -/
structure CoverageLog where
  hits : List CoverageHit
  deriving DecidableEq

namespace CoverageLog

def empty : CoverageLog := ⟨[]⟩

instance : Inhabited CoverageLog := ⟨empty⟩

def record (log : CoverageLog) (hit : CoverageHit) : CoverageLog := ⟨log.hits ++ [hit]⟩

/-- Takes the hits out of the log. -/
def collect (log : CoverageLog) : List CoverageHit × CoverageLog := (log.hits, empty)

/-- Discards the hits. -/
def clear (_ : CoverageLog) : CoverageLog := empty

def size (log : CoverageLog) : Nat := log.hits.length

def isEmpty (log : CoverageLog) : Bool := log.hits.isEmpty

end CoverageLog

/-! ## Summaries -/

/-- The outcomes of one condition. Index and location are those of its first hit. -/
structure ConditionCoverage where
  statementIndex : Nat
  location : SourceLocation
  trueHits : Nat
  falseHits : Nat
  deriving DecidableEq

namespace ConditionCoverage

/-- A condition without outcomes, as its first hit names it. -/
def ofHit (hit : CoverageHit) : ConditionCoverage := ⟨hit.statementIndex, hit.location, 0, 0⟩

/-- Counts an outcome. -/
def count (c : ConditionCoverage) (result : Bool) : ConditionCoverage :=
  if result then { c with trueHits := c.trueHits + 1 } else { c with falseHits := c.falseHits + 1 }

/-- How many of the two outcomes were seen. -/
def outcomes (c : ConditionCoverage) : Nat := min 1 c.trueHits + min 1 c.falseHits

/-- Both outcomes were seen. -/
def isFullyCovered (c : ConditionCoverage) : Bool := c.outcomes == 2

end ConditionCoverage

/-- The outcomes of conditions, by the position at which each starts. -/
structure CoverageSummary where
  conditions : Table Nat ConditionCoverage

namespace CoverageSummary

def empty : CoverageSummary := ⟨.empty⟩

instance : Inhabited CoverageSummary := ⟨empty⟩

/-- Counts a hit. -/
def add (s : CoverageSummary) (hit : CoverageHit) : CoverageSummary :=
  ⟨s.conditions.modify hit.location.positionKey fun known =>
    (known.getD (.ofHit hit)).count hit.result⟩

/-- Counts hits in order. -/
def addAll (s : CoverageSummary) (hits : List CoverageHit) : CoverageSummary := hits.foldl add s

def ofHits (hits : List CoverageHit) : CoverageSummary := empty.addAll hits

/-- How many outcomes were seen, of all conditions. -/
def outcomes (s : CoverageSummary) : Nat :=
  s.conditions.values.foldl (fun n c => n + c.outcomes) 0

/-- The fraction of outcomes that were seen, of two for each condition; zero where there is no
condition. -/
def branchCoverage (s : CoverageSummary) : Binary64 :=
  let size := s.conditions.entries.length
  if size = 0 then .zero false
  else (Binary64.ofRatio? false s.outcomes (2 * size)).getD (.zero false)

end CoverageSummary

end PolicyExpr
