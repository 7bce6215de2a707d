import PolicyExpr.Failure

/-!
# Expressions

The tree of a policy expression as a parser hands it over. A basic expression is a base
with a chain of steps and perhaps a template; numbers and indices are kept as they were
written and are read when the expression is compiled.
-/
namespace PolicyExpr

/-- The boolean operators that stop at the first operand that decides them. -/
inductive LazyOperator where
  | disjunction
  | conjunction
  deriving DecidableEq, Repr

namespace LazyOperator

def name : LazyOperator → String
  | disjunction => "Lazy OR"
  | conjunction => "Lazy AND"

/-- The boolean that decides a chain. -/
def deciding : LazyOperator → Bool
  | disjunction => true
  | conjunction => false

end LazyOperator

inductive EqualityOperator where
  | equal
  | notEqual
  | regex
  deriving DecidableEq, Repr

inductive ComparisonOperator where
  | less
  | lessOrEqual
  | greater
  | greaterOrEqual
  | membership
  deriving DecidableEq, Repr

inductive AdditiveOperator where
  | plus
  | minus
  deriving DecidableEq, Repr

inductive MultiplicativeOperator where
  | times
  | divide
  | modulo
  deriving DecidableEq, Repr

inductive UnaryOperator where
  | not
  | negate
  | plus
  deriving DecidableEq, Repr

mutual

/-- An expression. Each kind but the last is one level of precedence. -/
inductive Expression where
  | lazy (operator : LazyOperator) (location : SourceLocation) (operands : List Expression)
  | eager (operator : EagerOperator) (location : SourceLocation) (operands : List Expression)
  | equality (operator : EqualityOperator) (location : SourceLocation) (left right : Expression)
  | comparison (operator : ComparisonOperator) (location : SourceLocation)
      (left right : Expression)
  /-- The first operand, an operator, the second operand, and so on, from left to right. -/
  | addition (location : SourceLocation) (operands : List Expression)
      (operators : List AdditiveOperator)
  | multiplication (location : SourceLocation) (operands : List Expression)
      (operators : List MultiplicativeOperator)
  | unary (operator : UnaryOperator) (location : SourceLocation) (operand : Expression)
  | basic (location : SourceLocation) (base : Base) (steps : List Step)
      (template : Option Expression)

/-- What a basic expression begins with. -/
inductive Base where
  | group (expression : Expression)
  | literal (value : Literal)
  | call (name : String) (arguments : List Expression)
  | identifier (name : String)
  /-- `@`, the value that an inner expression is applied to. -/
  | relative
  /-- `#`, the position of that value. -/
  | relativePosition
  /-- `<name(arguments)[options]>`, or `|<…>` for its first value only. -/
  | environmentAttribute (name : String) (arguments : List Expression) (options : Option Expression)
      (head : Bool)

inductive Literal where
  | object (members : List Member)
  | array (items : List Expression)
  | number (raw : String)
  | text (value : String)
  | boolean (value : Bool)
  | null
  | undefined

inductive Member where
  | mk (key : String) (value : Expression)

/-- One step of the chain behind a base. -/
inductive Step where
  | key (name : String)
  | wildcard
  | index (raw : String)
  | selector (expression : Expression)
  | slice (start stop step : Option String)
  | condition (expression : Expression)
  | indexUnion (raws : List String)
  | keyUnion (keys : List String)
  | recursiveKey (name : String)
  | recursiveWildcard
  | recursiveIndex (raw : String)
  | attributeFinder (location : SourceLocation) (name : String) (arguments : List Expression)
      (options : Option Expression) (head : Bool)

end

namespace Member

def key : Member → String
  | mk key _ => key

def value : Member → Expression
  | mk _ value => value

end Member

namespace Expression

instance : Inhabited Expression := ⟨basic .unknown .relative [] none⟩

/-- The location of the node. -/
def location : Expression → SourceLocation
  | lazy _ l _ => l
  | eager _ l _ => l
  | equality _ l _ _ => l
  | comparison _ l _ _ => l
  | addition l _ _ => l
  | multiplication l _ _ => l
  | unary _ l _ => l
  | basic l _ _ _ => l

/-- The same node at another location. -/
def moveTo (l : SourceLocation) : Expression → Expression
  | lazy op _ es => lazy op l es
  | eager op _ es => eager op l es
  | equality op _ a b => equality op l a b
  | comparison op _ a b => comparison op l a b
  | addition _ es ops => addition l es ops
  | multiplication _ es ops => multiplication l es ops
  | unary op _ e => unary op l e
  | basic _ b ss t => basic l b ss t

/-- A base with steps, without a location. -/
def ofBase (base : Base) (steps : List Step) : Expression := basic .unknown base steps none

def ofLiteral (value : Literal) : Expression := ofBase (.literal value) []

def number (raw : String) : Expression := ofLiteral (.number raw)

def text (value : String) : Expression := ofLiteral (.text value)

def boolean (value : Bool) : Expression := ofLiteral (.boolean value)

def identifier (name : String) : Expression := ofBase (.identifier name) []

end Expression

end PolicyExpr
