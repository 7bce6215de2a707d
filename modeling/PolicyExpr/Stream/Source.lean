import PolicyExpr.Value

/-!
# Attribute sources

A source delivers values over time. It is polled: at each poll it hands out its next value,
is pending, or has ended. What it answers depends on the clock and on its cursor, a number
that it moves itself; every subscription starts with the cursor at zero.
-/
namespace PolicyExpr

/-- The answer of a poll. -/
inductive Answer where
  | value (v : Value)
  | pending
  | ended

/-- A source of values: its answer at a time, and where it moves its cursor. -/
structure Source where
  poll : (clock cursor : Nat) → Answer × Nat

/-- What an attribute broker is asked for. Durations are in milliseconds. -/
structure AttributeInvocation where
  name : String
  entity : Value
  arguments : List Value
  initialTimeout : Nat
  pollInterval : Nat
  backoff : Nat
  retries : Nat
  fresh : Bool

/-- Supplies the sources of attributes: one for each subscription, which are counted from
zero. -/
abbrev AttributeBroker := (subscription : Nat) → AttributeInvocation → Source

/-! ## Scripted sources -/

/-- A line of a script. -/
inductive ScriptItem where
  | emit (v : Value)
  /-- Nothing before a time. -/
  | wait (time : Nat)
  /-- Nothing more, ever. -/
  | never

/-- Plays a script on from a position: passed waits are skipped. -/
def playScript (clock position : Nat) : List ScriptItem → Answer × Nat
  | [] => (.ended, position)
  | .emit v :: _ => (.value v, position + 1)
  | .wait time :: rest =>
    if clock < time then (.pending, position) else playScript clock (position + 1) rest
  | .never :: _ => (.pending, position)

namespace Source

/-- The source that plays a script, with its position as the cursor. -/
def ofScript (items : List ScriptItem) : Source :=
  ⟨fun clock position => playScript clock position (items.drop position)⟩

end Source

end PolicyExpr
