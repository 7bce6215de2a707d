import PolicyExpr.Proofs.Correspondence

/-!
# Local definitions

A scope comes about by definitions, one after another, each a constant or a tree that was
compiled in a scope of the same kind. Beside the compiled definitions stand their meanings: a
constant means its value, a tree what the interpreter makes of it in the scope it was compiled
in. A correspondence that every such scope can go on with holds of all of them.
-/
namespace PolicyExpr

/-- The meanings of local definitions. -/
abbrev Meanings := (name : String) → Option Denotation

namespace Meanings

def none : Meanings := fun _ => Option.none

/-- Binds a local definition. -/
def bind (meanings : Meanings) (name : String) (d : Denotation) : Meanings := fun other =>
  if other = name then some d else meanings other

end Meanings

/-- What trees without attribute finders are interpreted in: calls reach the broker, and no
inner expression is refused. -/
def Environment.direct (broker : FunctionBroker) (scope : Scope) (meanings : Meanings) :
    Environment where
  functions := broker
  imports := scope.imports
  definitions := meanings
  finder _ _ _ _ := .ok .undefined
  refuses _ := false

namespace Scope

variable {L : Sublanguage} {brokers : Option FunctionBroker → Prop}
  {env : Scope → Meanings → Environment} {scope : Scope} {meanings : Meanings}

theorem definitions_bind (scope : Scope) (name other : String) (c : Compiled) :
    (scope.bind name c).definitions.get? other =
      if other = name then some c else scope.definitions.get? other := by
  simp only [bind, Table.get?_insert, Std.compare_eq_iff_eq]

/-- A scope of definitions from a sublanguage, and their meanings. All scopes involved have
function brokers of one kind, which says whether there may be none. -/
inductive Declares (L : Sublanguage) (brokers : Option FunctionBroker → Prop)
    (env : Scope → Meanings → Environment) : Scope → Meanings → Prop where
  | start {functions imports} (hbroker : brokers functions) :
    Declares L brokers env ⟨.empty, functions, imports⟩ .none
  | constant {scope meanings name v} (hscope : Declares L brokers env scope meanings) :
    Declares L brokers env (scope.bind name (.constant v)) (meanings.bind name fun _ => .ok v)
  | compiled {scope meanings origin originMeanings name e c}
    (hscope : Declares L brokers env scope meanings)
    (horigin : Declares L brokers env origin originMeanings) (he : L.admits e = true)
    (hc : e.compile origin = .ok c) :
    Declares L brokers env (scope.bind name c)
      (meanings.bind name (e.interpret (env origin originMeanings)))

theorem Declares.broker (h : Declares L brokers env scope meanings) :
    brokers scope.functionBroker := by
  induction h with
  | start hbroker => exact hbroker
  | constant _ ih => exact ih
  | compiled _ _ _ _ ih _ => exact ih

/-- Related definitions stay related when a related pair is bound. -/
private theorem rel_bind {Q : Compiled → Denotation → Prop} {name : String} {c : Compiled}
    {d : Denotation} (h : ∀ name, Option.Rel Q (scope.definitions.get? name) (meanings name))
    (hQ : Q c d) (other : String) :
    Option.Rel Q ((scope.bind name c).definitions.get? other) (meanings.bind name d other) := by
  simp only [definitions_bind, Meanings.bind]
  split
  · exact .some hQ
  · exact h other

/-- Definitions are related to their meanings by every relation that each scope's trees keep. -/
theorem Declares.related {Q : Compiled → Denotation → Prop}
    (hconstant : ∀ v, Q (.constant v) fun _ => .ok v)
    (step : ∀ {scope meanings}, Declares L brokers env scope meanings →
      (∀ name, Option.Rel Q (scope.definitions.get? name) (meanings name)) →
      Correspondence L scope (env scope meanings) Q)
    (h : Declares L brokers env scope meanings) :
    ∀ name, Option.Rel Q (scope.definitions.get? name) (meanings name) := by
  induction h with
  | start _ => exact fun _ => .none
  | constant _ ih => exact rel_bind ih (hconstant _)
  | compiled _ horigin he hc ih iho =>
    exact rel_bind ih ((step horigin iho).expression _ he hc)

/-- So every such relation is a correspondence. -/
theorem Declares.correspondence {Q : Compiled → Denotation → Prop}
    (hconstant : ∀ v, Q (.constant v) fun _ => .ok v)
    (step : ∀ {scope meanings}, Declares L brokers env scope meanings →
      (∀ name, Option.Rel Q (scope.definitions.get? name) (meanings name)) →
      Correspondence L scope (env scope meanings) Q)
    (h : Declares L brokers env scope meanings) :
    Correspondence L scope (env scope meanings) Q :=
  step h (h.related hconstant step)

end Scope

end PolicyExpr
