import PolicyExpr.Stream

/-!
# Traces

A stream is driven by a clock that starts at zero: it is polled as long as it answers with
values, and the clock goes on when it is pending. What it answered is its trace.
-/
namespace PolicyExpr

/-- A value or the end of a stream, with the time of it and the number of subscriptions made
until then. -/
structure TraceEntry where
  tick : Nat
  /-- None for the end. -/
  value : Option Value
  subscriptions : Nat

/-- The trace of a stream, and the journal of its sources. -/
structure Trace where
  entries : List TraceEntry
  journal : Journal

namespace Trace

/-- The values of a trace. -/
def values (t : Trace) : List Value := t.entries.filterMap TraceEntry.value

end Trace

namespace Stream

/-- The fuel of a single poll. -/
def pollFuel : Nat := 1000000

/-- Drives a stream on until it ends, the clock stops or the limit of values is reached. -/
def drive (fuel ticks : Nat) : (turns limit clock : Nat) → Stream → Journal → Except Halt Trace
  | 0, _, _, _, journal => .ok ⟨[], journal⟩
  | turns + 1, limit, clock, s, journal =>
    if clock < ticks ∧ 0 < limit then do
      let p ← s.poll clock fuel journal
      let count := p.journal.subscriptionCount
      match p.answer with
      | .value v =>
        let trace ← drive fuel ticks turns (limit - 1) clock p.stream p.journal
        return { trace with entries := ⟨clock, some v, count⟩ :: trace.entries }
      | .ended => return ⟨[⟨clock, none, count⟩], p.journal⟩
      | .pending => drive fuel ticks turns limit (clock + 1) p.stream p.journal
    else .ok ⟨[], journal⟩

/-- The trace of a stream. Every turn takes one value of the limit or one tick of the clock. -/
def trace (s : Stream) (journal : Journal) (ticks limit : Nat) : Except Halt Trace :=
  s.drive pollFuel ticks (ticks + limit) limit 0 journal

end Stream

end PolicyExpr
