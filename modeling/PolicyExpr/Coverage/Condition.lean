import PolicyExpr.Compile
import PolicyExpr.Coverage
import PolicyExpr.Stream.Trace

/-!
# Conditions under coverage

A condition of a policy body, compiled so that its boolean outcomes can be logged. Every
evaluation of a condition that is not a stream has an outcome, and so has every subscription
to it; a stream has an outcome with each boolean value that it emits.
-/
namespace PolicyExpr

/-- A compiled condition, the place of it, and whether its outcomes are logged. -/
structure Condition where
  statementIndex : Nat
  location : SourceLocation
  compiled : Compiled
  logged : Bool

namespace Condition

/-- The nature of the condition. A logged one is never a constant, as each evaluation of it
counts. -/
def nature (c : Condition) : Nature :=
  if c.logged then Nature.pure.join c.compiled.nature else c.compiled.nature

def isScoped (c : Condition) : Bool := c.compiled.isScoped

/-- Logs the outcome that a value is, if it is one. -/
def observe (c : Condition) (log : CoverageLog) (v : Value) : CoverageLog :=
  if c.logged then
    match v.asBoolean? with
    | some result => log.record ⟨c.statementIndex, result, c.location⟩
    | none => log
  else log

/-- The value in a context. -/
def evaluate (c : Condition) (ctx : Context) (log : CoverageLog) : Eval (Value × CoverageLog) := do
  let v ← c.compiled.evaluate ctx
  match c.compiled with
  | .stream _ => return (v, log)
  | _ => return (v, c.observe log v)

/-- The stream of values in a context. A condition that is no stream is evaluated for it. -/
def subscribe (c : Condition) (ctx : Context) (log : CoverageLog) : Eval (Stream × CoverageLog) :=
  match c.compiled with
  | .stream subscribe => do return (← subscribe ctx, log)
  | _ => do
    let (v, log) ← c.evaluate ctx log
    return (.once v, log)

/-- Polls a stream of the condition. -/
def poll (c : Condition) (clock fuel : Nat) (s : Stream) (journal : Journal) (log : CoverageLog) :
    Except Halt (Polled × CoverageLog) := do
  let p ← s.poll clock fuel journal
  match c.compiled, p.answer with
  | .stream _, .value v => return (p, c.observe log v)
  | _, _ => return (p, log)

/-- Drives a stream of the condition as `Stream.drive` does. -/
def drive (c : Condition) (fuel ticks : Nat) : (turns limit clock : Nat) → Stream → Journal →
    CoverageLog → Except Halt (Trace × CoverageLog)
  | 0, _, _, _, journal, log => .ok (⟨[], journal⟩, log)
  | turns + 1, limit, clock, s, journal, log =>
    if clock < ticks ∧ 0 < limit then do
      let (p, log) ← c.poll clock fuel s journal log
      let count := p.journal.subscriptionCount
      match p.answer with
      | .value v =>
        let (trace, log) ← c.drive fuel ticks turns (limit - 1) clock p.stream p.journal log
        return ({ trace with entries := ⟨clock, some v, count⟩ :: trace.entries }, log)
      | .ended => return (⟨[⟨clock, none, count⟩], p.journal⟩, log)
      | .pending => c.drive fuel ticks turns limit (clock + 1) p.stream p.journal log
    else .ok (⟨[], journal⟩, log)

/-- The trace of the condition in a context. -/
def trace (c : Condition) (ctx : Context) (ticks limit : Nat) (log : CoverageLog) :
    Except Halt (Trace × CoverageLog) := do
  let (s, log) ← Halt.lift (c.subscribe ctx log)
  c.drive Stream.pollFuel ticks (ticks + limit) limit 0 s [] log

end Condition

namespace Expression

/-- Compiles a condition of a policy body. -/
def compileCondition (e : Expression) (scope : Scope) (statementIndex : Nat) (logged : Bool) :
    Compilation Condition := do
  return ⟨statementIndex, e.location, ← e.compile scope, logged⟩

end Expression

end PolicyExpr
