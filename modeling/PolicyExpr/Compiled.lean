import PolicyExpr.Context
import PolicyExpr.Operator
import PolicyExpr.Stream

/-!
# Compiled expressions

An expression compiles to a constant, to a function of the context, or to a stream for each
context. An operator on compiled operands has the greatest nature of them: on constants it
is applied at once, in a context for that purpose, and a stream among the operands makes it
a join.
-/
namespace PolicyExpr

/-- How an expression depends on its context, from not at all to over time. -/
inductive Nature where
  | constant
  | pure
  | stream
  deriving DecidableEq, Repr

namespace Nature

/-- The natures in order. -/
def rank : Nature → Nat
  | constant => 0
  | pure => 1
  | stream => 2

/-- The greater of two natures. -/
def join (a b : Nature) : Nature := if a.rank < b.rank then b else a

def name : Nature → String
  | constant => "Constant"
  | pure => "Pure"
  | stream => "Stream"

end Nature

/-- A compiled expression. -/
inductive Compiled where
  | constant (v : Value)
  /-- A function of the context. It is scoped when it reads more of the context than `@`, `#`
  and the function broker. -/
  | pure (readsRequest : Bool) (run : Context → Eval Value)
  | stream (subscribe : Context → Eval Stream)

namespace Compiled

instance : Inhabited Compiled := ⟨constant .undefined⟩

def nature : Compiled → Nature
  | constant _ => .constant
  | pure _ _ => .pure
  | stream _ => .stream

/-- Whether the result depends on the request or on variables. -/
def isScoped : Compiled → Bool
  | constant _ => false
  | pure readsRequest _ => readsRequest
  | stream _ => true

def constant? : Compiled → Option Value
  | constant v => some v
  | _ => none

/-- The value in a context. A stream has none but an error. -/
def evaluate (c : Compiled) (ctx : Context) : Eval Value :=
  match c with
  | constant v => .ok v
  | pure _ run => run ctx
  | stream _ => .ok (.failure .streamEvaluated)

/-- The stream of values in a context. A function of the context is applied once, as the context
never changes under a subscription. -/
def subscribe (c : Compiled) (ctx : Context) : Eval Stream :=
  match c with
  | constant v => .ok (.once v)
  | pure _ run => do return .once (← run ctx)
  | stream subscribe => subscribe ctx

/-- The greatest nature of some operands. -/
def natureOf (operands : List Compiled) : Nature :=
  operands.foldl (fun n c => n.join c.nature) .constant

/-- The values of operands in a context, from first to last. -/
def evaluateAll (operands : List Compiled) (ctx : Context) : Eval (List Value) :=
  operands.mapM fun c => c.evaluate ctx

/-- The streams of operands in a context, from first to last. -/
def subscribeAll (operands : List Compiled) (ctx : Context) : Eval (List Stream) :=
  operands.mapM fun c => c.subscribe ctx

/-- An operator that reads the context, on compiled operands. Where it reads the request it is
not applied before there is one; on constants it is otherwise applied in `folding`. -/
def combineInContext (operands : List Compiled) (readsRequest : Bool) (folding : Context)
    (op : Context → List Value → Eval Value) : Eval Compiled :=
  match natureOf operands with
  | .stream =>
    .ok (.stream fun ctx => do
      let streams ← subscribeAll operands ctx
      Stream.joinAll streams (op ctx))
  | .constant =>
    if readsRequest then .ok (.pure true fun ctx => do op ctx (← evaluateAll operands ctx))
    else do
      let values ← evaluateAll operands folding
      return .constant (← op folding values)
  | .pure =>
    .ok (.pure (readsRequest || operands.any isScoped) fun ctx => do
      op ctx (← evaluateAll operands ctx))

/-- An operator on compiled operands. -/
def combine (operands : List Compiled) (op : List Value → Eval Value) : Eval Compiled :=
  combineInContext operands false .empty fun _ => op

/-- An operator of a node: an error without a place gets the node's. -/
def combineAt (location : SourceLocation) (operands : List Compiled)
    (op : List Value → Eval Value) : Eval Compiled :=
  combine operands fun vs => do return (← op vs).locate location

/-- The error of a node as a constant. -/
def invalid (f : Failure) (location : SourceLocation) : Compiled :=
  .constant (.failureAt f location)

end Compiled

end PolicyExpr
