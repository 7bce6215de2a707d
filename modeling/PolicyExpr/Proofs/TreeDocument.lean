import PolicyExpr.Expression.Document

/-!
# Trees written and read

Every tree is read back from the document that it is written to. The proof is an induction over
trees, with a case for each kind of node. A part of a node is a field of its document and lower than
it, so the reader is left with enough fuel for it.
-/
namespace PolicyExpr

open Json (required? defaulted? nullable? list? asText? asBool?)

/-! ## Fields -/

namespace Json

variable {α : Type} {read : Json → Option α} {key : String} {j v : Json}

theorem required?_of_field (h : j.field? key = some v) : j.required? read key = read v := by
  rw [required?, h, Option.bind_some]

theorem defaulted?_of_field {default : α} (h : j.field? key = some v) :
    j.defaulted? read key default = read v := by
  rw [defaulted?, h]

theorem list?_map {write : α → Json} (h : ∀ a, read (write a) = some a) (as : List α) :
    list? read (.array (as.map write)) = some as := by
  change (as.map write).mapM read = some as
  induction as with
  | nil => rfl
  | cons a rest ih => simp [h, ih]

theorem list?_cons {js : List Json} {a : α} {as : List α} (ha : read j = some a)
    (has : list? read (.array js) = some as) : list? read (.array (j :: js)) = some (a :: as) := by
  change js.mapM read = some as at has
  change (j :: js).mapM read = some (a :: as)
  simp [ha, has]

theorem height_le_of_items {js : List Json} {n : Nat} (h : (array (j :: js)).height ≤ n) :
    j.height ≤ n ∧ (array js).height ≤ n := by
  simp only [height, itemsHeight] at h ⊢
  omega

/-- A field is lower than the node that it is a field of. -/
theorem height_le_of_field {fields : List (String × Json)} {n : Nat}
    (h : (object fields).height ≤ n + 1) (hmem : j ∈ fields.map Prod.snd) : j.height ≤ n := by
  have entry : j.height ≤ entriesHeight fields := by
    clear h
    induction fields with
    | nil => cases hmem
    | cons e rest ih =>
      obtain ⟨k, v⟩ := e
      rw [entriesHeight]
      rcases List.mem_cons.1 hmem with rfl | hrest
      · exact Nat.le_max_left _ _
      · exact Nat.le_trans (ih hrest) (Nat.le_max_right _ _)
  rw [height] at h
  omega

theorem height_le_of_part {fields : List (String × Json)} {n : Nat}
    (h : (object fields).height ≤ n) (hmem : j ∈ fields.map Prod.snd) : j.height ≤ n :=
  height_le_of_field (Nat.le_succ_of_le h) hmem

theorem asWord?_ofWord (w : UInt32) : asWord? (ofWord w) = some w := by
  have bound : w.toNat < UInt32.size := w.toNat_lt
  have back : (w.toNat : Int).toNat.toUInt32 = w := UInt32.ofNat_toNat
  rw [ofWord, ofNat, asWord?]
  simp only [asInt?]
  rw [if_pos ⟨Int.natCast_nonneg _, Int.ofNat_lt.2 bound⟩, back]

end Json

@[simp] theorem SourceLocation.ofJson?_toJson (l : SourceLocation) : ofJson? l.toJson = some l := by
  have startLine : l.toJson.required? Json.asWord? "startLine" = some l.startLine :=
    (Json.required?_of_field rfl).trans (Json.asWord?_ofWord l.startLine)
  have startChar : l.toJson.required? Json.asWord? "startChar" = some l.startChar :=
    (Json.required?_of_field rfl).trans (Json.asWord?_ofWord l.startChar)
  have endLine : l.toJson.defaulted? Json.asWord? "endLine" 0 = some l.endLine :=
    (Json.defaulted?_of_field rfl).trans (Json.asWord?_ofWord l.endLine)
  have endChar : l.toJson.defaulted? Json.asWord? "endChar" 0 = some l.endChar :=
    (Json.defaulted?_of_field rfl).trans (Json.asWord?_ofWord l.endChar)
  simp only [ofJson?, startLine, startChar, endLine, endChar]
  rfl

/-! ## Operators and options -/

@[simp] theorem EqualityOperator.ofJson?_symbol (o : EqualityOperator) :
    words.ofJson? (.text o.symbol) = some o := by
  cases o <;> rfl

@[simp] theorem ComparisonOperator.ofJson?_symbol (o : ComparisonOperator) :
    words.ofJson? (.text o.symbol) = some o := by
  cases o <;> rfl

@[simp] theorem AdditiveOperator.ofJson?_symbol (o : AdditiveOperator) :
    words.ofJson? (.text o.symbol) = some o := by
  cases o <;> rfl

@[simp] theorem MultiplicativeOperator.ofJson?_symbol (o : MultiplicativeOperator) :
    words.ofJson? (.text o.symbol) = some o := by
  cases o <;> rfl

@[simp] theorem UnaryOperator.ofJson?_symbol (o : UnaryOperator) :
    words.ofJson? (.text o.symbol) = some o := by
  cases o <;> rfl

@[simp] theorem list?_texts (texts : List String) :
    list? asText? (.array (texts.map Json.text)) = some texts :=
  have reads (s : String) : asText? (.text s) = some s := rfl
  Json.list?_map reads texts

@[simp] theorem nullable?_ofOptionText (s : Option String) :
    nullable? asText? (.ofOptionText s) = some s := by
  cases s <;> rfl

theorem Expression.nullable?_toJson (read : Json → Option Expression) (e : Expression) :
    nullable? read e.toJson = (read e.toJson).map some := by
  cases e <;> rfl

/-! ## Nodes -/

section Nodes

attribute [local simp] Json.tagged Json.kind? Json.field? Json.location? required? defaulted?
  asText? asBool? Expression.kinds Base.kinds Literal.kinds Step.kinds

mutual

/-- With as much fuel as the document of a tree is high, the tree is read from it. -/
theorem Expression.decode_toJson : ∀ (e : Expression) (nested : Bool) (fuel : Nat),
    e.toJson.height ≤ fuel → Expression.decode nested fuel e.toJson = some e
  | .lazy op l es, nested, fuel + 1, h => by
    have operands := Expression.list?_toJson es fuel (Json.height_le_of_field h (by simp))
    cases op <;> simp [Expression.decode, Expression.toJson, LazyOperator.tag, operands]
  | .eager op l es, nested, fuel + 1, h => by
    have operands := Expression.list?_toJson es fuel (Json.height_le_of_field h (by simp))
    cases op <;> simp [Expression.decode, Expression.toJson, EagerOperator.tag, operands]
  | .equality op l a b, nested, fuel + 1, h => by
    have left := a.decode_toJson true fuel (Json.height_le_of_field h (by simp))
    have right := b.decode_toJson true fuel (Json.height_le_of_field h (by simp))
    simp [Expression.decode, Expression.toJson, left, right]
  | .comparison op l a b, nested, fuel + 1, h => by
    have left := a.decode_toJson true fuel (Json.height_le_of_field h (by simp))
    have right := b.decode_toJson true fuel (Json.height_le_of_field h (by simp))
    simp [Expression.decode, Expression.toJson, left, right]
  | .addition l es ops, nested, fuel + 1, h => by
    have operands := Expression.list?_toJson es fuel (Json.height_le_of_field h (by simp))
    have operators := Json.list?_map AdditiveOperator.ofJson?_symbol ops
    simp [Expression.decode, Expression.toJson, operands, operators]
  | .multiplication l es ops, nested, fuel + 1, h => by
    have operands := Expression.list?_toJson es fuel (Json.height_le_of_field h (by simp))
    have operators := Json.list?_map MultiplicativeOperator.ofJson?_symbol ops
    simp [Expression.decode, Expression.toJson, operands, operators]
  | .unary op l e, nested, fuel + 1, h => by
    have operand := e.decode_toJson true fuel (Json.height_le_of_field h (by simp))
    simp [Expression.decode, Expression.toJson, operand]
  | .basic l base steps none, nested, fuel + 1, h => by
    have hbase := base.decode_toJson fuel (Json.height_le_of_field h (by simp))
    have hsteps := Step.list?_toJson steps fuel (Json.height_le_of_field h (by simp))
    simp [Expression.decode, Expression.toJson, templateToJson, hbase, hsteps]
  | .basic l base steps (some e), nested, fuel + 1, h => by
    have hbase := base.decode_toJson fuel (Json.height_le_of_field h (by simp))
    have hsteps := Step.list?_toJson steps fuel (Json.height_le_of_field h (by simp))
    have template := e.decode_toJson true fuel
      (Json.height_le_of_field h (by simp [templateToJson]))
    simp [Expression.decode, Expression.toJson, templateToJson, hbase, hsteps,
      e.nullable?_toJson, template]
  | e, _, 0, h => by
    cases e <;> simp [Expression.toJson, Json.height] at h

theorem Expression.list?_toJson : ∀ (es : List Expression) (fuel : Nat),
    (Json.array (expressionsToJson es)).height ≤ fuel →
    list? (Expression.decode true fuel) (.array (expressionsToJson es)) = some es
  | [], _, _ => rfl
  | e :: rest, fuel, h => by
    have heights := Json.height_le_of_items h
    exact Json.list?_cons (e.decode_toJson true fuel heights.1)
      (Expression.list?_toJson rest fuel heights.2)

theorem Expression.nullable?_optionToJson : ∀ (o : Option Expression) (fuel : Nat),
    (optionToJson o).height ≤ fuel →
    nullable? (Expression.decode true fuel) (optionToJson o) = some o
  | none, _, _ => rfl
  | some e, fuel, h => by
    rw [optionToJson, e.nullable?_toJson, e.decode_toJson true fuel h]
    rfl

theorem Base.decode_toJson : ∀ (b : Base) (fuel : Nat), b.toJson.height ≤ fuel →
    Base.decode (Expression.decode true fuel) b.toJson = some b
  | .group e, fuel, h => by
    have grouped := e.decode_toJson true fuel (Json.height_le_of_part h (by simp))
    simp [Base.decode, Base.toJson, grouped]
  | .literal v, fuel, h => by
    have value := v.decode_toJson fuel (Json.height_le_of_part h (by simp))
    simp [Base.decode, Base.toJson, value]
  | .call name args, fuel, h => by
    have arguments := Expression.list?_toJson args fuel (Json.height_le_of_part h (by simp))
    simp [Base.decode, Base.toJson, arguments]
  | .identifier name, _, _ => rfl
  | .relative, _, _ => rfl
  | .relativePosition, _, _ => rfl
  | .environmentAttribute name args opts head, fuel, h => by
    have arguments := Expression.list?_toJson args fuel (Json.height_le_of_part h (by simp))
    have options := Expression.nullable?_optionToJson opts fuel (Json.height_le_of_part h (by simp))
    simp [Base.decode, Base.toJson, arguments, options]

theorem Literal.decode_toJson : ∀ (v : Literal) (fuel : Nat), v.toJson.height ≤ fuel →
    Literal.decode (Expression.decode true fuel) v.toJson = some v
  | .object ms, fuel, h => by
    have members := Member.list?_toJson ms fuel (Json.height_le_of_part h (by simp))
    simp [Literal.decode, Literal.toJson, members]
  | .array es, fuel, h => by
    have items := Expression.list?_toJson es fuel (Json.height_le_of_part h (by simp))
    simp [Literal.decode, Literal.toJson, items]
  | .number _, _, _ => rfl
  | .text _, _, _ => rfl
  | .boolean _, _, _ => rfl
  | .null, _, _ => rfl
  | .undefined, _, _ => rfl

theorem Member.list?_toJson : ∀ (ms : List Member) (fuel : Nat),
    (Json.array (membersToJson ms)).height ≤ fuel →
    list? (Member.decode (Expression.decode true fuel)) (.array (membersToJson ms)) = some ms
  | [], _, _ => rfl
  | .mk key e :: rest, fuel, h => by
    have heights := Json.height_le_of_items h
    have value := e.decode_toJson true fuel (Json.height_le_of_part heights.1 (by simp))
    exact Json.list?_cons (by simp [Member.decode, value]) (Member.list?_toJson rest fuel heights.2)

theorem Step.list?_toJson : ∀ (ss : List Step) (fuel : Nat),
    (Json.array (stepsToJson ss)).height ≤ fuel →
    list? (Step.decode (Expression.decode true fuel)) (.array (stepsToJson ss)) = some ss
  | [], _, _ => rfl
  | s :: rest, fuel, h => by
    have heights := Json.height_le_of_items h
    exact Json.list?_cons (s.decode_toJson fuel heights.1) (Step.list?_toJson rest fuel heights.2)

theorem Step.decode_toJson : ∀ (s : Step) (fuel : Nat), s.toJson.height ≤ fuel →
    Step.decode (Expression.decode true fuel) s.toJson = some s
  | .key _, _, _ => rfl
  | .wildcard, _, _ => rfl
  | .index _, _, _ => rfl
  | .selector e, fuel, h => by
    have selector := e.decode_toJson true fuel (Json.height_le_of_part h (by simp))
    simp [Step.decode, Step.toJson, selector]
  | .slice start stop step, _, _ => by simp [Step.decode, Step.toJson]
  | .condition e, fuel, h => by
    have condition := e.decode_toJson true fuel (Json.height_le_of_part h (by simp))
    simp [Step.decode, Step.toJson, condition]
  | .indexUnion raws, _, _ => by simp [Step.decode, Step.toJson]
  | .keyUnion keys, _, _ => by simp [Step.decode, Step.toJson]
  | .recursiveKey _, _, _ => rfl
  | .recursiveWildcard, _, _ => rfl
  | .recursiveIndex _, _, _ => rfl
  | .attributeFinder l name args opts head, fuel, h => by
    have arguments := Expression.list?_toJson args fuel (Json.height_le_of_part h (by simp))
    have options := Expression.nullable?_optionToJson opts fuel (Json.height_le_of_part h (by simp))
    simp [Step.decode, Step.toJson, arguments, options]

end

end Nodes

/-! ## Trees -/

namespace Expression

/-- The document that a tree is written to after it was read from another. -/
def rewritten (j : Json) : Option Json := (ofJson? j).map toJson

/-- A tree is read back from the document that it is written to. So reading a document and writing
the tree again changes the way in which the tree is spelled and not the tree, and doing so twice
changes nothing more. -/
theorem ofJson?_inverts_toJson (e : Expression) (j : Json) :
    ofJson? e.toJson = some e ∧ (rewritten j).bind ofJson? = ofJson? j ∧
      (rewritten j).bind rewritten = rewritten j := by
  have back (e : Expression) : ofJson? e.toJson = some e :=
    e.decode_toJson false e.toJson.height (Nat.le_refl _)
  refine ⟨back e, ?_⟩
  simp only [rewritten]
  cases ofJson? j with
  | none => exact ⟨rfl, rfl⟩
  | some d => simp [rewritten, back d]

end Expression

end PolicyExpr
