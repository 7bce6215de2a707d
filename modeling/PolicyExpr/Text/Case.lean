import PolicyExpr.Text.CaseTable
import PolicyExpr.Text.Property

/-!
# Upper and lower case

The full case mappings of Unicode, without the rules of single languages: a character may
become several. The capital sigma is the one letter whose lower case depends on what stands
around it, as it has a form of its own at the end of a word.

Simple case folding maps a character to one character; two characters are alike up to case
when they fold to the same one.
-/
namespace PolicyExpr.Text

namespace CaseRun

/-- The image of a code point in the run. -/
def map? (r : CaseRun) (c : Nat) : Option Nat :=
  if r.first ≤ c ∧ c - r.first < r.count * r.stride ∧ (c - r.first) % r.stride = 0 then
    some (c + r.offset).toNat
  else none

/-- The code points of the run with their images. -/
def pairs (r : CaseRun) : List (Nat × Nat) :=
  (List.range r.count).map fun i =>
    let c := r.first + r.stride * i
    (c, (c + r.offset).toNat)

end CaseRun

/-- The image of a code point under runs; itself where no run has it. -/
def mapRuns (runs : List CaseRun) (c : Nat) : Nat :=
  (runs.findSome? (·.map? c)).getD c

/-- The mapping of a character under runs and the table of longer mappings. -/
def mapCase (runs : List CaseRun) (long : List (Nat × List Nat)) (c : Char) : List Char :=
  match long.lookup c.toNat with
  | some codes => codes.map Char.ofNat
  | none => [Char.ofNat (mapRuns runs c.toNat)]

/-- The upper case of a text. -/
def toUpper (s : String) : String :=
  String.ofList (s.toList.flatMap (mapCase upperRuns longUpper))

/-- Whether behind characters that case ignores stands one that has case. -/
def casedBehindIgnored (cs : List Char) : Bool :=
  match cs.dropWhile fun c => caseIgnorable.contains c.toNat with
  | c :: _ => cased.contains c.toNat
  | [] => false

/-- The lower case of a capital sigma: the final form where a letter stands before it and none
behind it. -/
def lowerSigma (before after : List Char) : Char :=
  if casedBehindIgnored before && !casedBehindIgnored after then 'ς' else 'σ'

/-- The lower case of characters, with those before them in reverse. -/
def lowerChars (before : List Char) : List Char → List Char
  | [] => []
  | c :: after =>
    (if c = 'Σ' then [lowerSigma before after] else mapCase lowerRuns longLower c) ++
      lowerChars (c :: before) after

/-- The lower case of a text. -/
def toLower (s : String) : String := String.ofList (lowerChars [] s.toList)

/-- The code points that folding changes, with what they fold to. -/
def foldPairs : List (Nat × Nat) := foldRuns.flatMap CaseRun.pairs

/-- The set with all characters that are alike up to case with one of its members: with what
the members fold to, and with all that folds to the same. -/
def CodeRanges.foldCase (set : CodeRanges) : CodeRanges :=
  let folded := set.union (.ofPoints ((foldPairs.filter fun p => set.contains p.1).map (·.2)))
  folded.union (.ofPoints ((foldPairs.filter fun p => folded.contains p.2).map (·.1)))

end PolicyExpr.Text
