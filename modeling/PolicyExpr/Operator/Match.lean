import PolicyExpr.Operator
import PolicyExpr.Regex

/-!
# Matching

`=~` asks whether the whole of a text matches a regular expression, which is put between
anchors for that. What is no text never matches.
-/
namespace PolicyExpr.Operator

open Value

/-- The regular expression of a pattern between anchors. -/
def anchored (pattern : String) : Except Regex.Refusal Regex :=
  Regex.ofText ("^(?:" ++ pattern ++ ")$")

/-- The regular expression of an operand. -/
def compilePattern (pattern : Value) : Except Failure Regex :=
  match pattern.asText? with
  | none => .error (.patternOperand pattern.type)
  | some p =>
    match anchored p with
    | .ok regex => .ok regex
    | .error .malformed => .error (.pattern p)
    | .error .tooLarge => .error (.patternSize p)

/-- Matching against a regular expression that was read from `pattern`. -/
def matchCompiled (left : Value) (regex : Regex) (pattern : Value) : Value :=
  binary left pattern fun l _ =>
    match l.asText? with
    | some s => boolean (regex.isMatch s)
    | none => boolean false

/-- Matching against the text of an operand. -/
def regexMatch (left pattern : Value) : Value :=
  match firstError? [left, pattern] with
  | some e => e
  | none =>
    match compilePattern pattern with
    | .ok regex => matchCompiled left regex pattern
    | .error f => (failure f).withMetadata (mergedMetadata [left, pattern])

end PolicyExpr.Operator
