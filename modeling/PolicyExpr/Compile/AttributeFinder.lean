import PolicyExpr.Compiled
import PolicyExpr.Selection

/-!
# Attribute finders

The entity, the options and the arguments of an attribute finder are joined into a vector of
parameters. For each vector the broker is asked for one source, unless an error among the
parameters, an undefined entity or a missing broker makes that pointless; the values of
this source are forwarded until the next vector.

Options are looked up in the options of the finder and then in those that the variable
`SAPL` holds for all finders. A value that is no number, no whole number that fits 64 bits,
or negative, counts as absent.
-/
namespace PolicyExpr.AttributeFinder

open Value

/-- The variable that holds options for all finders, and its key. -/
def optionsVariable : String := "SAPL"

def optionsKey : String := "attributeFinderOptions"

/-- The value of an option: the first of two objects that has it counts. -/
def option? (options defaults : Value) (name : String) : Option Value :=
  ((options.asObject?).bind (lookup name)).orElse fun _ => (defaults.asObject?).bind (lookup name)

/-- The natural number of an option, or a default. -/
def natural (options defaults : Value) (name : String) (default : Nat) : Nat :=
  match (option? options defaults name).bind asInt64? with
  | some n => if n < 0 then default else n.toNat
  | none => default

/-- The invocation for one vector of parameters. -/
def invocation (ctx : Context) (name : String) (entity options : Value) (arguments : List Value) :
    AttributeInvocation :=
  let defaults := Selection.key (ctx.get optionsVariable) optionsKey
  { name := name
    entity := entity
    arguments := arguments
    initialTimeout := natural options defaults "initialTimeOutMs" 3000
    pollInterval := natural options defaults "pollIntervalMs" 30000
    backoff := natural options defaults "backoffMs" 1000
    retries := natural options defaults "retries" 3
    fresh := ((option? options defaults "fresh").bind asBoolean?).getD false }

/-- A value of the broker as the finder forwards it: placed and tagged with the finder's
location, and secret if the entity is. -/
def forwarded (location : SourceLocation) (secret : Bool) (v : Value) : Value :=
  let v := (v.locate location).tagged location
  if secret then v.asSecret else v

/-- The stream of one vector of parameters: entity, options, arguments. -/
def values (ctx : Context) (name : String) (location : SourceLocation) (parameters : Value) :
    Stream :=
  match parameters.asArray? with
  | some (entity :: options :: arguments) =>
    match Operator.firstError? (entity :: options :: arguments) with
    | some e => .once (e.locate location)
    | none =>
      if entity.isUndefined then .once (failureAt .undefinedEntity location)
      else match ctx.attributeBroker with
        | none => .once (failureAt .noAttributeBroker location)
        | some broker =>
          .map (forwarded location entity.isSecret)
            (.unopened broker (invocation ctx name entity options arguments))
  | _ => .once (failureAt .attributeParameters location)

/-- The stream of a finder in a context. The head is its first value. -/
def subscribe (name : String) (location : SourceLocation) (head : Bool) (operands : List Compiled)
    (ctx : Context) : Eval Stream := do
  let streams ← Compiled.subscribeAll operands ctx
  let parameters ← Stream.joinAll streams fun vs => .ok (array vs)
  let found := Stream.switchOver parameters fun vector => .ok (values ctx name location vector)
  return if head then .head (some found) else found

/-- A finder with compiled operands: entity, options, arguments. -/
def compile (name : String) (location : SourceLocation) (head : Bool) (operands : List Compiled) :
    Compiled :=
  .stream (subscribe name location head operands)

end PolicyExpr.AttributeFinder
