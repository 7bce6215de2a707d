import PolicyExpr.Regex.Program

/-!
# Regular expressions

A text is a regular expression when it reads as a pattern to its end, nests at most 250
levels deep, and has a program of at most ten mebibytes. It matches a text that has a
stretch anywhere in it which the pattern describes.
-/
namespace PolicyExpr

/-- A regular expression. -/
structure Regex where
  pattern : Regex.Pattern Regex.CharSet Regex.Look

namespace Regex

def maxDepth : Nat := 250

/-- Why a text is no regular expression. -/
inductive Refusal where
  | malformed
  | tooLarge
  deriving DecidableEq

/-- Reads a regular expression. Every call of the reader takes a character or ends a part that
began with one. -/
def ofText (s : String) : Except Refusal Regex :=
  match readPattern (2 * s.length + 2) .initial [] [] [] s.toList with
  | some (item, _, []) =>
    if maxDepth < item.depth then .error .malformed
    else
      match Layout.ofPattern? item.pattern with
      | some _ => .ok ⟨item.pattern⟩
      | none => .error .tooLarge
  | _ => .error .malformed

/-- Whether some stretch of a text matches. -/
def isMatch (r : Regex) (s : String) : Bool :=
  let ss := sites none s.toList
  let all := Nat.pow 2 ss.length - 1
  (r.pattern.onSites CharSet.at Look.holds ss).image ss.length all != 0

end Regex

end PolicyExpr
