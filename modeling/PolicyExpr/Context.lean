import PolicyExpr.Function
import PolicyExpr.Stream.Source

/-!
# Evaluation contexts

A context binds the four parts of an authorization request, the variables of the policy, and
what an inner expression is applied to. It may bring brokers for functions and attributes.
-/
namespace PolicyExpr

/-- The bindings of one request. -/
structure Context where
  subject : Value
  action : Value
  resource : Value
  environment : Value
  bindings : Table String Value
  relative : Option Value
  position : Option Value
  functionBroker : Option FunctionBroker
  attributeBroker : Option AttributeBroker

namespace Context

/-- A context for a request, without variables and brokers. -/
def ofRequest (subject action resource environment : Value) : Context where
  subject := subject
  action := action
  resource := resource
  environment := environment
  bindings := .empty
  relative := none
  position := none
  functionBroker := none
  attributeBroker := none

/-- The context in which everything is Undefined. -/
def empty : Context := ofRequest .undefined .undefined .undefined .undefined

instance : Inhabited Context := ⟨empty⟩

def withVariable (ctx : Context) (name : String) (v : Value) : Context :=
  { ctx with bindings := ctx.bindings.insert name v }

def withBindings (ctx : Context) (bindings : Table String Value) : Context :=
  { ctx with bindings := bindings }

def withFunctionBroker (ctx : Context) (broker : FunctionBroker) : Context :=
  { ctx with functionBroker := some broker }

def withAttributeBroker (ctx : Context) (broker : AttributeBroker) : Context :=
  { ctx with attributeBroker := some broker }

/-- The context of an inner expression: `@` is a value and `#` its position. -/
def withRelative (ctx : Context) (v position : Value) : Context :=
  { ctx with relative := some v, position := some position }

/-- The value of a name: the parts of the request come before the variables. -/
def get (ctx : Context) (name : String) : Value :=
  if name = "subject" then ctx.subject
  else if name = "action" then ctx.action
  else if name = "resource" then ctx.resource
  else if name = "environment" then ctx.environment
  else (ctx.bindings.get? name).getD .undefined

/-- The value of `@`. -/
def relativeValue (ctx : Context) : Value := ctx.relative.getD .undefined

/-- The value of `#`. -/
def relativePosition (ctx : Context) : Value := ctx.position.getD .undefined

end Context

end PolicyExpr
