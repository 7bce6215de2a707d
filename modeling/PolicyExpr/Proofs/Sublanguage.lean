import PolicyExpr.Expression

/-!
# Sublanguages

Some properties hold of trees without attribute finders only, or of trees whose steps with an
inner expression are conditions. A sublanguage says which of these nodes a tree may have; every
other kind of node belongs to all sublanguages.
-/
namespace PolicyExpr

/-- The nodes that a tree may have beside those of every sublanguage: steps with an inner
expression by their kind, attribute finders by whether they take only the head. -/
structure Sublanguage where
  relativeStep : RelativeStep → Bool
  finder : (head : Bool) → Bool

namespace Sublanguage

/-- The whole language. -/
def full : Sublanguage := ⟨fun _ => true, fun _ => true⟩

/-- No attribute finders. -/
def finderFree : Sublanguage := ⟨fun _ => true, fun _ => false⟩

/-- Attribute finders with all their values, none that takes only the head. -/
def headFree : Sublanguage := ⟨fun _ => true, fun head => !head⟩

/-- No attribute finders, and conditions as the only steps with an inner expression. -/
def filtering : Sublanguage := ⟨fun step => step == .condition, fun _ => false⟩

mutual

/-- Whether a tree has only nodes of the sublanguage. -/
def admits (L : Sublanguage) : Expression → Bool
  | .lazy _ _ operands => L.admitsAll operands
  | .eager _ _ operands => L.admitsAll operands
  | .equality _ _ left right => L.admits left && L.admits right
  | .comparison _ _ left right => L.admits left && L.admits right
  | .addition _ operands _ => L.admitsAll operands
  | .multiplication _ operands _ => L.admitsAll operands
  | .unary _ _ operand => L.admits operand
  | .basic _ base steps template =>
    L.admitsBase base && L.admitsSteps steps && L.admitsTemplate template

def admitsAll (L : Sublanguage) : List Expression → Bool
  | [] => true
  | e :: rest => L.admits e && L.admitsAll rest

def admitsOptions (L : Sublanguage) : Option Expression → Bool
  | none => true
  | some e => L.admits e

def admitsTemplate (L : Sublanguage) : Option Expression → Bool
  | none => true
  | some e => L.relativeStep .subtemplate && L.admits e

def admitsBase (L : Sublanguage) : Base → Bool
  | .group e => L.admits e
  | .literal v => L.admitsLiteral v
  | .call _ arguments => L.admitsAll arguments
  | .environmentAttribute _ arguments options head =>
    L.finder head && L.admitsOptions options && L.admitsAll arguments
  | _ => true

def admitsLiteral (L : Sublanguage) : Literal → Bool
  | .array items => L.admitsAll items
  | .object members => L.admitsMembers members
  | _ => true

def admitsMembers (L : Sublanguage) : List Member → Bool
  | [] => true
  | .mk _ e :: rest => L.admits e && L.admitsMembers rest

def admitsSteps (L : Sublanguage) : List Step → Bool
  | [] => true
  | s :: rest => L.admitsStep s && L.admitsSteps rest

def admitsStep (L : Sublanguage) : Step → Bool
  | .selector e => L.relativeStep .selector && L.admits e
  | .condition e => L.relativeStep .condition && L.admits e
  | .attributeFinder _ _ arguments options head =>
    L.finder head && L.admitsOptions options && L.admitsAll arguments
  | _ => true

end

@[simp] theorem full_relativeStep (step : RelativeStep) : full.relativeStep step = true := rfl

@[simp] theorem full_finder (head : Bool) : full.finder head = true := rfl

mutual

/-- The whole language has every tree. -/
theorem full_admits : ∀ e : Expression, full.admits e = true
  | .lazy _ _ operands | .eager _ _ operands | .addition _ operands _
  | .multiplication _ operands _ => by simp [admits, full_admitsAll operands]
  | .equality _ _ left right | .comparison _ _ left right => by
    simp [admits, full_admits left, full_admits right]
  | .unary _ _ operand => by simp [admits, full_admits operand]
  | .basic _ base steps template => by
    simp [admits, full_admitsBase base, full_admitsSteps steps, full_admitsTemplate template]

theorem full_admitsAll : ∀ es : List Expression, full.admitsAll es = true
  | [] => rfl
  | e :: rest => by simp [admitsAll, full_admits e, full_admitsAll rest]

theorem full_admitsOptions : ∀ options : Option Expression, full.admitsOptions options = true
  | none => rfl
  | some e => by simp [admitsOptions, full_admits e]

theorem full_admitsTemplate : ∀ template : Option Expression, full.admitsTemplate template = true
  | none => rfl
  | some e => by simp [admitsTemplate, full_admits e]

theorem full_admitsBase : ∀ base : Base, full.admitsBase base = true
  | .group e => by simp [admitsBase, full_admits e]
  | .literal v => by simp [admitsBase, full_admitsLiteral v]
  | .call _ arguments => by simp [admitsBase, full_admitsAll arguments]
  | .environmentAttribute _ arguments options _ => by
    simp [admitsBase, full_admitsOptions options, full_admitsAll arguments]
  | .identifier _ | .relative | .relativePosition => by simp [admitsBase]

theorem full_admitsLiteral : ∀ v : Literal, full.admitsLiteral v = true
  | .array items => by simp [admitsLiteral, full_admitsAll items]
  | .object members => by simp [admitsLiteral, full_admitsMembers members]
  | .number _ | .text _ | .boolean _ | .null | .undefined => by simp [admitsLiteral]

theorem full_admitsMembers : ∀ members : List Member, full.admitsMembers members = true
  | [] => rfl
  | .mk _ e :: rest => by simp [admitsMembers, full_admits e, full_admitsMembers rest]

theorem full_admitsSteps : ∀ steps : List Step, full.admitsSteps steps = true
  | [] => rfl
  | s :: rest => by simp [admitsSteps, full_admitsStep s, full_admitsSteps rest]

theorem full_admitsStep : ∀ s : Step, full.admitsStep s = true
  | .selector e => by simp [admitsStep, full_admits e]
  | .condition e => by simp [admitsStep, full_admits e]
  | .attributeFinder _ _ arguments options _ => by
    simp [admitsStep, full_admitsOptions options, full_admitsAll arguments]
  | .key _ | .wildcard | .index _ | .slice _ _ _ | .indexUnion _ | .keyUnion _
  | .recursiveKey _ | .recursiveWildcard | .recursiveIndex _ => by simp [admitsStep]

end

end Sublanguage

end PolicyExpr
