import PolicyExpr.Compiled
import PolicyExpr.Defect
import PolicyExpr.Import

/-!
# Scopes

A scope is what an expression is compiled against: the local definitions made before it, the
functions and the imports. Here is also how a compilation can end: with the first defect of
the tree, or with the fault of a constant part.
-/
namespace PolicyExpr

/-- What an expression is compiled against. -/
structure Scope where
  definitions : Table String Compiled
  functionBroker : Option FunctionBroker
  imports : ImportTable

namespace Scope

def empty : Scope := ⟨.empty, none, .empty⟩

/-- Binds a local definition. -/
def bind (scope : Scope) (name : String) (c : Compiled) : Scope :=
  { scope with definitions := scope.definitions.insert name c }

/-- The context in which constant parts are evaluated: no request, only the functions. -/
def foldingContext (scope : Scope) : Context :=
  { Context.empty with functionBroker := scope.functionBroker }

end Scope

/-- Why there is no compiled expression. -/
inductive CompileFailure where
  | defect (e : CompileError)
  | fault (f : Fault)

/-- A compilation. -/
abbrev Compilation := Except CompileFailure

namespace Compilation

/-- A defect at a place. -/
def defective {α : Type} (d : Defect) (l : SourceLocation) : Compilation α :=
  .error (.defect (d.located l))

/-- A combination, which may evaluate constants. -/
def ofEval {α : Type} : Eval α → Compilation α
  | .ok a => .ok a
  | .error f => .error (.fault f)

end Compilation

end PolicyExpr
