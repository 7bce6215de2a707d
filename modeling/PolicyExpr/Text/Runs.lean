import PolicyExpr.Text.CodeRanges

/-!
# Tables of runs

A table assigns a code to every code point. It is written as runs, each a length in decimal
digits and a code in letters, from the first code point on.
-/
namespace PolicyExpr.Text

/-- The runs of a table: the code point behind each run and its code, in ascending order. -/
abbrev Runs := Array (Nat × String)

namespace Runs

/-- A table that is being read: the runs so far, where the last of them ends, and the length and
the code of the next, as far as they were read. -/
structure Reading where
  runs : Runs
  stop : Nat
  length : Nat
  code : List Char

/-- Ends the run whose code has been read. -/
def Reading.close (r : Reading) : Reading :=
  if r.code.isEmpty then r
  else
    { runs := r.runs.push (r.stop + r.length, String.ofList r.code.reverse)
      stop := r.stop + r.length
      length := 0
      code := [] }

/-- Reads one character: a digit behind a code starts the next run. -/
def Reading.next (r : Reading) (c : Char) : Reading :=
  if c.isDigit then
    let r := r.close
    { r with length := 10 * r.length + (c.toNat - 48) }
  else { r with code := c :: r.code }

/-- The table that is written on some lines. -/
def ofLines (lines : List String) : Runs :=
  let start : Reading := ⟨#[], 0, 0, []⟩
  ((lines.flatMap String.toList).foldl Reading.next start).close.runs

/-- The runs with the code points where they begin, from `start` on. -/
def pairsWhere (p : String → Bool) (start : Nat) : List (Nat × String) → List (Nat × Nat)
  | [] => []
  | (stop, code) :: rest =>
    if p code then (start, stop - 1) :: pairsWhere p stop rest else pairsWhere p stop rest

/-- The code points whose codes have a property. -/
def rangesWhere (runs : Runs) (p : String → Bool) : CodeRanges :=
  CodeRanges.joined (pairsWhere p 0 runs.toList)

end Runs

end PolicyExpr.Text
