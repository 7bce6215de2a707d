import PolicyExpr.Compiled
import PolicyExpr.Operator.Boolean

/-!
# Lazy chains

A chain of `||` or `&&`. Constants at its front are looked at once and for all; the operands
from the first other one on are looked at in each context, one after another. Where one of
them is a stream, an operand is subscribed to only when the one before it has emitted a
value that decides nothing, and anew for each such value.
-/
namespace PolicyExpr.Chain

open Operator

/-- What the constants at the front of a chain leave of it. -/
inductive Front where
  | decided (v : Value)
  | remaining (metadata : Metadata) (operands : List Compiled)

/-- Looks at the constants at the front of a chain. -/
def front (deciding : Bool) (location : SourceLocation) (metadata : Metadata) :
    List Compiled → Front
  | .constant v :: rest =>
    match lazyStep deciding metadata location v with
    | .decided v => .decided v
    | .undecided metadata => front deciding location metadata rest
  | operands => .remaining metadata operands

/-- The value of a chain that nothing decides. -/
def exhausted (deciding : Bool) (metadata : Metadata) : Value :=
  (Value.boolean !deciding).withMetadata metadata

/-- The value of a chain in a context. -/
def evaluate (deciding : Bool) (location : SourceLocation) (ctx : Context) (metadata : Metadata) :
    List Compiled → Eval Value
  | [] => .ok (exhausted deciding metadata)
  | operand :: rest => do
    match lazyStep deciding metadata location (← operand.evaluate ctx) with
    | .decided v => return v
    | .undecided metadata => evaluate deciding location ctx metadata rest

/-- The stream of a chain in a context. -/
def subscribe (deciding : Bool) (location : SourceLocation) (ctx : Context) (metadata : Metadata) :
    List Compiled → Eval Stream
  | [] => .ok (.once (exhausted deciding metadata))
  | operand :: rest => do
    let source ← operand.subscribe ctx
    return .switchOver source fun v =>
      match lazyStep deciding metadata location v with
      | .decided v => .ok (.once v)
      | .undecided metadata => subscribe deciding location ctx metadata rest

/-- A chain of compiled operands. -/
def compile (deciding : Bool) (location : SourceLocation) (operands : List Compiled) : Compiled :=
  match front deciding location .empty operands with
  | .decided v => .constant v
  | .remaining metadata [] => .constant (exhausted deciding metadata)
  | .remaining metadata operands =>
    if operands.any (·.nature == .stream) then
      .stream fun ctx => subscribe deciding location ctx metadata operands
    else
      .pure (operands.any Compiled.isScoped) fun ctx =>
        evaluate deciding location ctx metadata operands

end PolicyExpr.Chain
