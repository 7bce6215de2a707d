import PolicyExpr.Expression
import PolicyExpr.Location.Document

/-!
# Expressions as JSON

Every node is an object with a tag that names its kind and one field for each part. Written
trees have all fields, only an absent template is left out. Read trees may leave out a
location, empty lists and absent options, and may have fields that mean nothing.

A tag is a text; inside another node it may also be the number of the kind.
-/
namespace PolicyExpr

open Json (required? defaulted? nullable? list? asText? asBool?)

/-! ## Operators -/

/-- The words for the members of an enumeration, in order. -/
abbrev Words (α : Type) := List (String × α)

namespace Words

/-- The member with a given word. -/
def member? {α : Type} (words : Words α) (word : String) : Option α := words.lookup word

/-- An operator: its word, or an object whose only key is the word and that says no more. -/
def ofJson? {α : Type} (words : Words α) : Json → Option α
  | .text word => words.member? word
  | .object [(word, .null)] => words.member? word
  | .object [(word, .object [])] => words.member? word
  | _ => none

end Words

namespace EqualityOperator

def symbol : EqualityOperator → String
  | equal => "=="
  | notEqual => "!="
  | regex => "=~"

def words : Words EqualityOperator := [equal, notEqual, regex].map fun o => (o.symbol, o)

end EqualityOperator

namespace ComparisonOperator

def symbol : ComparisonOperator → String
  | less => "<"
  | lessOrEqual => "<="
  | greater => ">"
  | greaterOrEqual => ">="
  | membership => "in"

def words : Words ComparisonOperator :=
  [less, lessOrEqual, greater, greaterOrEqual, membership].map fun o => (o.symbol, o)

end ComparisonOperator

namespace AdditiveOperator

def symbol : AdditiveOperator → String
  | plus => "+"
  | minus => "-"

def words : Words AdditiveOperator := [plus, minus].map fun o => (o.symbol, o)

end AdditiveOperator

namespace MultiplicativeOperator

def symbol : MultiplicativeOperator → String
  | times => "*"
  | divide => "/"
  | modulo => "%"

def words : Words MultiplicativeOperator := [times, divide, modulo].map fun o => (o.symbol, o)

end MultiplicativeOperator

namespace UnaryOperator

def symbol : UnaryOperator → String
  | not => "!"
  | negate => "-"
  | plus => "+"

def words : Words UnaryOperator := [not, negate, plus].map fun o => (o.symbol, o)

end UnaryOperator

/-! ## Writing -/

/-- A node of a kind with its fields. -/
def Json.tagged (tag kind : String) (fields : List (String × Json)) : Json :=
  .object ((tag, .text kind) :: fields)

/-- The tag of an eager operator. -/
def EagerOperator.tag : EagerOperator → String
  | .disjunction => "EagerOr"
  | .exclusive => "ExclusiveOr"
  | .conjunction => "EagerAnd"

/-- The tag of a lazy operator. -/
def LazyOperator.tag : LazyOperator → String
  | .disjunction => "LazyOr"
  | .conjunction => "LazyAnd"

/-- A text or null. -/
def Json.ofOptionText (s : Option String) : Json := s.elim .null .text

mutual

def Expression.toJson : Expression → Json
  | .lazy op l es =>
    .tagged "type" op.tag [("location", l.toJson), ("operands", .array (expressionsToJson es))]
  | .eager op l es =>
    .tagged "type" op.tag [("location", l.toJson), ("operands", .array (expressionsToJson es))]
  | .equality op l a b =>
    .tagged "type" "Equality" [("location", l.toJson), ("operator", .text op.symbol),
      ("left", a.toJson), ("right", b.toJson)]
  | .comparison op l a b =>
    .tagged "type" "Comparison" [("location", l.toJson), ("operator", .text op.symbol),
      ("left", a.toJson), ("right", b.toJson)]
  | .addition l es ops =>
    .tagged "type" "Addition" [("location", l.toJson),
      ("operands", .array (expressionsToJson es)),
      ("operators", .array (ops.map fun o => .text o.symbol))]
  | .multiplication l es ops =>
    .tagged "type" "Multiplication" [("location", l.toJson),
      ("operands", .array (expressionsToJson es)),
      ("operators", .array (ops.map fun o => .text o.symbol))]
  | .unary op l e =>
    .tagged "type" "Unary" [("location", l.toJson), ("operator", .text op.symbol),
      ("operand", e.toJson)]
  | .basic l base steps template =>
    .tagged "type" "Basic" ([("location", l.toJson), ("base", base.toJson),
      ("steps", .array (stepsToJson steps))] ++ templateToJson template)

def Base.toJson : Base → Json
  | .group e => .tagged "type" "Group" [("expression", e.toJson)]
  | .literal v => .tagged "type" "Value" [("value", v.toJson)]
  | .call name args =>
    .tagged "type" "Function" [("name", .text name),
      ("arguments", .array (expressionsToJson args))]
  | .identifier name => .tagged "type" "Identifier" [("name", .text name)]
  | .relative => .tagged "type" "Relative" []
  | .relativePosition => .tagged "type" "RelativeLocation" []
  | .environmentAttribute name args options head =>
    .tagged "type" "EnvironmentAttribute" [("name", .text name),
      ("arguments", .array (expressionsToJson args)), ("options", optionToJson options),
      ("head", .bool head)]

def Literal.toJson : Literal → Json
  | .object members => .tagged "kind" "Object" [("members", .array (membersToJson members))]
  | .array items => .tagged "kind" "Array" [("items", .array (expressionsToJson items))]
  | .number raw => .tagged "kind" "Number" [("raw", .text raw)]
  | .text value => .tagged "kind" "String" [("value", .text value)]
  | .boolean value => .tagged "kind" "Boolean" [("value", .bool value)]
  | .null => .tagged "kind" "Null" []
  | .undefined => .tagged "kind" "Undefined" []

def Step.toJson : Step → Json
  | .key name => .tagged "type" "Key" [("name", .text name)]
  | .wildcard => .tagged "type" "Wildcard" []
  | .index raw => .tagged "type" "Index" [("index", .text raw)]
  | .selector e => .tagged "type" "Expression" [("expression", e.toJson)]
  | .slice start stop step =>
    .tagged "type" "Slice" [("from", .ofOptionText start), ("to", .ofOptionText stop),
      ("step", .ofOptionText step)]
  | .condition e => .tagged "type" "Condition" [("condition", e.toJson)]
  | .indexUnion raws => .tagged "type" "IndexUnion" [("indices", .array (raws.map .text))]
  | .keyUnion keys => .tagged "type" "AttributeUnion" [("keys", .array (keys.map .text))]
  | .recursiveKey name => .tagged "type" "RecursiveKey" [("name", .text name)]
  | .recursiveWildcard => .tagged "type" "RecursiveWildcard" []
  | .recursiveIndex raw => .tagged "type" "RecursiveIndex" [("index", .text raw)]
  | .attributeFinder l name args options head =>
    .tagged "type" "AttributeFinder" [("location", l.toJson), ("name", .text name),
      ("arguments", .array (expressionsToJson args)), ("options", optionToJson options),
      ("head", .bool head)]

def expressionsToJson : List Expression → List Json
  | [] => []
  | e :: rest => e.toJson :: expressionsToJson rest

def stepsToJson : List Step → List Json
  | [] => []
  | s :: rest => s.toJson :: stepsToJson rest

def membersToJson : List Member → List Json
  | [] => []
  | .mk key value :: rest =>
    .object [("key", .text key), ("value", value.toJson)] :: membersToJson rest

def optionToJson : Option Expression → Json
  | none => .null
  | some e => e.toJson

/-- The field of a template, where there is one. -/
def templateToJson : Option Expression → List (String × Json)
  | none => []
  | some e => [("subtemplate", e.toJson)]

end

/-! ## Reading -/

/-- The kind of a node among the kinds of its sort. -/
def Json.kind? (nested : Bool) (tag : String) (kinds : List String) (j : Json) : Option String :=
  match j.field? tag with
  | some (.text kind) => if kinds.contains kind then some kind else none
  | some (.number (.int n)) => if nested ∧ 0 ≤ n then kinds[n.toNat]? else none
  | _ => none

/-- A location, where the node has one. -/
def Json.location? (j : Json) : Option SourceLocation :=
  j.defaulted? SourceLocation.ofJson? "location" .unknown

namespace Member

def decode (expression : Json → Option Expression) (j : Json) : Option Member := do
  let key ← j.required? asText? "key"
  let value ← j.required? expression "value"
  return .mk key value

end Member

namespace Literal

def kinds : List String := ["Object", "Array", "Number", "String", "Boolean", "Null", "Undefined"]

def decode (expression : Json → Option Expression) (j : Json) : Option Literal := do
  match ← j.kind? true "kind" kinds with
  | "Object" => return .object (← j.defaulted? (list? (Member.decode expression)) "members" [])
  | "Array" => return .array (← j.defaulted? (list? expression) "items" [])
  | "Number" => return .number (← j.required? asText? "raw")
  | "String" => return .text (← j.required? asText? "value")
  | "Boolean" => return .boolean (← j.required? asBool? "value")
  | "Null" => return .null
  | "Undefined" => return .undefined
  | _ => none

end Literal

namespace Base

def kinds : List String :=
  ["Group", "Value", "Function", "Identifier", "Relative", "RelativeLocation",
    "EnvironmentAttribute"]

def decode (expression : Json → Option Expression) (j : Json) : Option Base := do
  match ← j.kind? true "type" kinds with
  | "Group" => return .group (← j.required? expression "expression")
  | "Value" => return .literal (← j.required? (Literal.decode expression) "value")
  | "Function" =>
    let name ← j.required? asText? "name"
    let args ← j.defaulted? (list? expression) "arguments" []
    return .call name args
  | "Identifier" => return .identifier (← j.required? asText? "name")
  | "Relative" => return .relative
  | "RelativeLocation" => return .relativePosition
  | "EnvironmentAttribute" =>
    let name ← j.required? asText? "name"
    let args ← j.defaulted? (list? expression) "arguments" []
    let options ← j.defaulted? (nullable? expression) "options" none
    let head ← j.defaulted? asBool? "head" false
    return .environmentAttribute name args options head
  | _ => none

end Base

namespace Step

def kinds : List String :=
  ["Key", "Wildcard", "Index", "Expression", "Slice", "Condition", "IndexUnion",
    "AttributeUnion", "RecursiveKey", "RecursiveWildcard", "RecursiveIndex", "AttributeFinder"]

def decode (expression : Json → Option Expression) (j : Json) : Option Step := do
  match ← j.kind? true "type" kinds with
  | "Key" => return .key (← j.required? asText? "name")
  | "Wildcard" => return .wildcard
  | "Index" => return .index (← j.required? asText? "index")
  | "Expression" => return .selector (← j.required? expression "expression")
  | "Slice" =>
    let start ← j.defaulted? (nullable? asText?) "from" none
    let stop ← j.defaulted? (nullable? asText?) "to" none
    let step ← j.defaulted? (nullable? asText?) "step" none
    return .slice start stop step
  | "Condition" => return .condition (← j.required? expression "condition")
  | "IndexUnion" => return .indexUnion (← j.required? (list? asText?) "indices")
  | "AttributeUnion" => return .keyUnion (← j.required? (list? asText?) "keys")
  | "RecursiveKey" => return .recursiveKey (← j.required? asText? "name")
  | "RecursiveWildcard" => return .recursiveWildcard
  | "RecursiveIndex" => return .recursiveIndex (← j.required? asText? "index")
  | "AttributeFinder" =>
    let l ← j.location?
    let name ← j.required? asText? "name"
    let args ← j.defaulted? (list? expression) "arguments" []
    let options ← j.defaulted? (nullable? expression) "options" none
    let head ← j.defaulted? asBool? "head" false
    return .attributeFinder l name args options head
  | _ => none

end Step

namespace Expression

def kinds : List String :=
  ["LazyOr", "LazyAnd", "EagerOr", "ExclusiveOr", "EagerAnd", "Equality", "Comparison",
    "Addition", "Multiplication", "Unary", "Basic"]

/-- Reads an expression that nests at most `fuel` levels. -/
def decode (nested : Bool) : (fuel : Nat) → Json → Option Expression
  | 0, _ => none
  | fuel + 1, j => do
    let part := decode true fuel
    let kind ← j.kind? nested "type" kinds
    let l ← j.location?
    match kind with
    | "LazyOr" => return .lazy .disjunction l (← j.required? (list? part) "operands")
    | "LazyAnd" => return .lazy .conjunction l (← j.required? (list? part) "operands")
    | "EagerOr" => return .eager .disjunction l (← j.required? (list? part) "operands")
    | "ExclusiveOr" => return .eager .exclusive l (← j.required? (list? part) "operands")
    | "EagerAnd" => return .eager .conjunction l (← j.required? (list? part) "operands")
    | "Equality" =>
      let op ← j.required? EqualityOperator.words.ofJson? "operator"
      let a ← j.required? part "left"
      let b ← j.required? part "right"
      return .equality op l a b
    | "Comparison" =>
      let op ← j.required? ComparisonOperator.words.ofJson? "operator"
      let a ← j.required? part "left"
      let b ← j.required? part "right"
      return .comparison op l a b
    | "Addition" =>
      let es ← j.required? (list? part) "operands"
      let ops ← j.required? (list? AdditiveOperator.words.ofJson?) "operators"
      return .addition l es ops
    | "Multiplication" =>
      let es ← j.required? (list? part) "operands"
      let ops ← j.required? (list? MultiplicativeOperator.words.ofJson?) "operators"
      return .multiplication l es ops
    | "Unary" =>
      let op ← j.required? UnaryOperator.words.ofJson? "operator"
      let e ← j.required? part "operand"
      return .unary op l e
    | "Basic" =>
      let base ← j.required? (Base.decode part) "base"
      let steps ← j.defaulted? (list? (Step.decode part)) "steps" []
      let template ← j.defaulted? (nullable? part) "subtemplate" none
      return .basic l base steps template
    | _ => none

end Expression

mutual

/-- The number of levels of a document. -/
def Json.height : Json → Nat
  | .array items => 1 + itemsHeight items
  | .object entries => 1 + entriesHeight entries
  | _ => 1

def itemsHeight : List Json → Nat
  | [] => 0
  | j :: rest => max j.height (itemsHeight rest)

def entriesHeight : List (String × Json) → Nat
  | [] => 0
  | (_, j) :: rest => max j.height (entriesHeight rest)

end

namespace Expression

/-- Reads an expression. Every level of the tree is a level of the document. -/
def ofJson? (j : Json) : Option Expression := decode false j.height j

end Expression

end PolicyExpr
