import PolicyExpr.Expression

/-!
# Defects of expressions

A defect stops the compilation of a whole policy. It is reported in its own words, and with
the location of the node that has it.
-/
namespace PolicyExpr

/-- The productions of the grammar whose nodes list their operands. -/
inductive Production where
  | lazy (operator : LazyOperator)
  | eager (operator : EagerOperator)
  | addition
  | multiplication
  deriving DecidableEq

namespace Production

def name : Production → String
  | lazy operator => operator.name
  | eager operator => operator.name
  | addition => "Addition"
  | multiplication => "Multiplication"

end Production

/-- What is wrong with a node. -/
inductive Defect where
  | noFunctionBroker
  | missingIdentifier
  | missingFunctionIdentifier
  | missingAttributeIdentifier
  | emptyOperands (production : Production)
  | operatorCount (production : Production) (operands operators : Nat)
  deriving DecidableEq

namespace Defect

def message : Defect → String
  | noFunctionBroker => "No function broker available."
  | missingIdentifier => "Missing identifier."
  | missingFunctionIdentifier => "Missing function identifier."
  | missingAttributeIdentifier => "Missing attribute identifier."
  | emptyOperands production => production.name ++ " requires at least one operand."
  | operatorCount production operands operators =>
    production.name ++ " has " ++ toString operands ++ " operands but " ++ toString operators ++
      " operators."

end Defect

/-- A defect and the place of the node that has it, where it is known. -/
structure CompileError where
  defect : Defect
  location : Option SourceLocation
  deriving DecidableEq

namespace CompileError

/-- A defect whose place is not known yet. -/
def ofDefect (d : Defect) : CompileError := ⟨d, none⟩

/-- Places an error that has no place yet. -/
def locate (e : CompileError) (l : SourceLocation) : CompileError :=
  { e with location := some (e.location.getD l) }

/-- The report, which begins with the place. -/
def message (e : CompileError) : String :=
  match e.location with
  | some l => l.message "error" e.defect.message
  | none => e.defect.message

end CompileError

namespace Defect

/-- The defect of a node at a place. -/
def located (d : Defect) (l : SourceLocation) : CompileError := (CompileError.ofDefect d).locate l

end Defect

end PolicyExpr
