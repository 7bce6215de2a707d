import PolicyExpr.Table
import PolicyExpr.Text.Case
import PolicyExpr.Value.Document

/-!
# Functions

A function broker evaluates calls by name and arguments. A registry is the broker of a
table of native functions; a native function gives a value or fails with a cause, and both
a failure and an unknown name are values of the language.
-/
namespace PolicyExpr

/-- A call of a named function. -/
structure FunctionCall where
  name : String
  arguments : List Value

/-- Evaluates function calls. -/
abbrev FunctionBroker := FunctionCall → Eval Value

/-- A function of the library: it is told the name it is called by. -/
abbrev NativeFunction := (name : String) → (arguments : List Value) → Eval (Except Failure Value)

namespace NativeFunction

open Value

/-- A function of one argument. -/
def unary (f : String → Value → Eval (Except Failure Value)) : NativeFunction := fun name args =>
  match args with
  | [v] => f name v
  | _ => .ok (.error (.argumentCount name))

/-- The number of elements, of entries or of characters. -/
def length : NativeFunction := unary fun name v =>
  .ok <| match v.kind with
    | .array items => .ok (ofNat items.length)
    | .object entries => .ok (ofNat entries.length)
    | .text s => .ok (ofNat s.length)
    | _ => .error (.sizeArgument name v.type)

/-- The text of a value. -/
def toText : NativeFunction := unary fun _ v => do return .ok (text (← v.plainText))

/-- A mapping of texts. -/
def onText (f : String → String) : NativeFunction := unary fun name v =>
  .ok <| match v.asText? with
    | some s => .ok (text (f s))
    | none => .error (.textArgument name v.type)

def lowerCase : NativeFunction := onText Text.toLower

def upperCase : NativeFunction := onText Text.toUpper

/-- Goes on through arguments with the best one so far, which a better one replaces. -/
def extremumFrom (better : Decimal → Decimal → Bool) (name : String) :
    Option (Value × Decimal) → List Value → Except Failure Value
  | best, [] => .ok (best.elim undefined Prod.fst)
  | best, v :: rest =>
    match v.asNumber? with
    | none => .error (.numberArgument name v.type)
    | some n =>
      let best := match best with
        | none => (v, n)
        | some (w, m) => if better n m then (v, n) else (w, m)
      extremumFrom better name (some best) rest

/-- The first of the largest arguments; Undefined where there is none. -/
def max : NativeFunction := fun name args =>
  .ok (extremumFrom (fun n m => (n.compare m).isGT) name none args)

/-- The first of the least arguments; Undefined where there is none. -/
def min : NativeFunction := fun name args =>
  .ok (extremumFrom (fun n m => (n.compare m).isLT) name none args)

end NativeFunction

/-- A table of native functions. -/
structure FunctionRegistry where
  functions : Table String NativeFunction

namespace FunctionRegistry

def empty : FunctionRegistry := ⟨.empty⟩

def register (r : FunctionRegistry) (name : String) (f : NativeFunction) : FunctionRegistry :=
  ⟨r.functions.insert name f⟩

def contains (r : FunctionRegistry) (name : String) : Bool := r.functions.contains name

/-- The functions of the standard library. -/
def standard : FunctionRegistry :=
  ⟨.ofList [("standard.length", .length), ("standard.toString", .toText),
    ("math.max", .max), ("math.min", .min),
    ("string.toLowerCase", .lowerCase), ("string.toUpperCase", .upperCase)]⟩

/-- Evaluates a call by the function of its name. -/
def evaluate (r : FunctionRegistry) : FunctionBroker := fun call =>
  match r.functions.get? call.name with
  | none => .ok (.failure (.unknownFunction call.name))
  | some f => do
    match ← f call.name call.arguments with
    | .ok v => return v
    | .error cause => return .failure cause

end FunctionRegistry

end PolicyExpr
