import Mathlib.Logic.Relation
import PolicyExpr.Proofs.Upholding

/-!
# Containers are clean

Undefined and errors never end up inside of arrays and objects. Whatever puts parts into a container
drops those that are undefined and answers an error instead of the container, and whatever takes
parts from a container takes what was clean before.
-/
namespace PolicyExpr

namespace Value

/-- One value is an element of the other or a field of it. -/
inductive IsPart (w : Value) : Value → Prop where
  | element {items : List Value} {m : Metadata} (h : w ∈ items) : IsPart w ⟨.array items, m⟩
  | field {entries : List (String × Value)} {m : Metadata} {key : String}
    (h : (key, w) ∈ entries) : IsPart w ⟨.object entries, m⟩

/-- No element and no field of the value, at any depth, is an error or undefined. The value itself
may be. -/
def Clean (v : Value) : Prop :=
  ∀ w, Relation.TransGen IsPart w v → w.isError = false ∧ w.isUndefined = false

/-- A clean value that is no error and not undefined, as the parts of clean values are. -/
structure CleanPart (v : Value) : Prop where
  clean : v.Clean
  isError : v.isError = false
  isUndefined : v.isUndefined = false

variable {v w : Value} {vs : List Value} {es : List (String × Value)}

theorem clean_iff : v.Clean ↔ ∀ w : Value, w.IsPart v → w.CleanPart := by
  constructor
  · intro h w hw
    obtain ⟨herror, hundefined⟩ := h w (.single hw)
    exact ⟨fun u hu => h u (hu.tail hw), herror, hundefined⟩
  · intro h w hw
    cases hw with
    | single hw => exact ⟨(h w hw).isError, (h w hw).isUndefined⟩
    | tail hinside hpart => exact (h _ hpart).clean w hinside

theorem IsPart.of_kind (h : w.IsPart v) {u : Value} (hkind : u.kind = v.kind) : w.IsPart u := by
  obtain ⟨kind, m⟩ := u
  cases h with
  | element hw =>
    cases hkind
    exact .element hw
  | field hw =>
    cases hkind
    exact .field hw

theorem Clean.of_kind (h : v.Clean) (hkind : w.kind = v.kind) : w.Clean :=
  clean_iff.2 fun u hu => clean_iff.1 h u (hu.of_kind hkind.symm)

theorem clean_leaf (harray : v.asArray? = none) (hobject : v.asObject? = none) : v.Clean := by
  refine clean_iff.2 fun w hw => ?_
  cases hw with
  | element => cases harray
  | field => cases hobject

theorem clean_array : (array vs).Clean ↔ ∀ v ∈ vs, v.CleanPart := by
  rw [clean_iff]
  constructor
  · exact fun h v hv => h v (.element hv)
  · intro h w hw
    cases hw with
    | element hw => exact h w hw

theorem clean_object : (object es).Clean ↔ ∀ e ∈ es, e.2.CleanPart := by
  rw [clean_iff]
  constructor
  · exact fun h e he => h e.2 (.field he)
  · intro h w hw
    cases hw with
    | field hw => exact h _ hw

theorem Clean.locate (h : v.Clean) (l : SourceLocation) : (v.locate l).Clean := by
  unfold Value.locate
  split
  · exact clean_leaf rfl rfl
  · exact h

end Value

open Value

/-- Clean values, wherever nodes are. -/
def Discipline.clean : Discipline where
  Holds _ := Clean
  Part := CleanPart
  Place _ := True
  of_kind := Clean.of_kind
  leaf harray hobject _ := clean_leaf harray hobject
  array := clean_array
  object := clean_object
  part h herror hundefined := ⟨h, herror, hundefined⟩
  whole := CleanPart.clean
  lax h := h
  strict h _ := h
  locate _ h := h.locate _

/-- A context whose bindings are clean, with no functions of its own but the standard ones. -/
structure Context.Clean (ctx : Context) : Prop where
  bound : ∀ name, (ctx.get name).Clean
  relative : ctx.relativeValue.Clean
  position : ctx.relativePosition.Clean
  functions : ∀ broker, ctx.functionBroker = some broker →
    broker = FunctionRegistry.standard.evaluate

/-- A scope whose definitions are clean constants, with no functions but the standard ones. -/
structure Scope.Clean (scope : Scope) : Prop where
  functions : ∀ broker, scope.functionBroker = some broker →
    broker = FunctionRegistry.standard.evaluate
  definitions : ∀ name c, scope.definitions.get? name = some c → ∃ v, c = .constant v ∧ v.Clean

theorem Context.Clean.upholds {ctx : Context} (h : ctx.Clean) (strict : Bool) :
    ctx.Upholds .clean strict where
  bound := h.bound
  relative := h.relative
  position := h.position
  functions broker hbroker := by
    rw [h.functions broker hbroker]
    exact FunctionRegistry.upholds_standard

theorem Scope.Clean.upholds {scope : Scope} (h : scope.Clean) : scope.Upholds .clean where
  functions broker hbroker := by
    rw [h.functions broker hbroker]
    exact FunctionRegistry.upholds_standard
  definitions name c hc := by
    obtain ⟨v, rfl, hv⟩ := h.definitions name c hc
    exact Compiled.upholds_constant (D := .clean) hv

/-- Containers are clean. Where functions are the standard ones, and definitions, bindings and the
values that sources supply are clean, every value that a tree evaluates to is clean, and so is every
value that its stream emits. -/
theorem Expression.containers_are_clean {scope : Scope} {e : Expression} {c : Compiled}
    (hscope : scope.Clean) (hc : e.compile scope = .ok c) :
    (∀ ctx v, ctx.Clean → c.evaluate ctx = .ok v → v.Clean) ∧
    ∀ ctx s schedule journal course, ctx.Clean → c.subscribe ctx = .ok s →
      s.pollEach schedule journal = .ok course → course.journal.Supplies Value.Clean →
      ∀ v, .value v ∈ course.answers → v.Clean := by
  have upheld : c.Upholds .clean := hscope.upholds.expression e (fun _ _ => trivial) hc
  constructor
  · intro ctx v hctx hv
    cases c with
    | stream subscribe =>
      cases hv
      exact clean_leaf rfl rfl
    | constant w => exact (upheld.evaluate nofun true ctx (hctx.upholds true)).result hv
    | pure reads run => exact (upheld.evaluate nofun true ctx (hctx.upholds true)).result hv
  · intro ctx s schedule journal course hctx hs hcourse hsupply v hv
    exact upheld.emitted (hctx.upholds true) hs hcourse hsupply v hv

/-- The trees `[subject, undefined]` and `[<x>, undefined]`, where the source of `<x>` serves the
subject. -/
theorem Expression.undefined_left_out :
    let pair (b : Base) : Expression := .basic .unknown (.literal (.array
      [.basic .unknown b [] none, .basic .unknown (.literal .undefined) [] none])) [] none
    let subject : Value := .array [.boolean true]
    let ctx : Context := { Context.empty with
      subject := subject
      attributeBroker := some fun _ _ => .ofScript [.emit subject] }
    (∃ c v, (pair (.identifier "subject")).compile .empty = .ok c ∧ c.evaluate ctx = .ok v ∧
      v.asArray? = some [subject] ∧ v.Clean) ∧
    ∃ c s course v items, (pair (.environmentAttribute "x" [] none false)).compile .empty = .ok c ∧
      c.subscribe ctx = .ok s ∧ s.pollEach [(0, 9)] [] = .ok course ∧
      .value v ∈ course.answers ∧ v.asArray? = some items ∧ items.length = 1 ∧ v.Clean := by
  intro pair subject ctx
  have scope : Scope.empty.Clean := ⟨nofun, nofun⟩
  have served : subject.Clean := by
    refine clean_array.2 fun v hv => ?_
    cases List.mem_singleton.1 hv
    exact ⟨clean_leaf rfl rfl, rfl, rfl⟩
  have bindings : ctx.Clean := by
    refine ⟨fun name => ?_, clean_leaf rfl rfl, clean_leaf rfl rfl, nofun⟩
    by_cases hname : name = "subject"
    · rw [hname]
      exact served
    · have hget : ctx.get name = Context.empty.get name := by simp [ctx, Context.get, hname]
      have empty : Context.empty.Upholds .clean true := Context.upholds_empty
      rw [hget]
      exact empty.bound name
  constructor
  · obtain ⟨c, v, hc, hv, hitems⟩ : ∃ c v, (pair (.identifier "subject")).compile .empty = .ok c ∧
        c.evaluate ctx = .ok v ∧ v.asArray? = some [subject] := ⟨_, _, rfl, rfl, rfl⟩
    exact ⟨c, v, hc, hv, hitems, (Expression.containers_are_clean scope hc).1 ctx v bindings hv⟩
  · obtain ⟨c, s, course, v, items, invocation, hc, hs, hcourse, hanswers, hitems, hlength,
        hjournal⟩ : ∃ c s course v items invocation,
          (pair (.environmentAttribute "x" [] none false)).compile .empty = .ok c ∧
          c.subscribe ctx = .ok s ∧ s.pollEach [(0, 9)] [] = .ok course ∧
          course.answers = [.value v] ∧ v.asArray? = some items ∧ items.length = 1 ∧
          course.journal = [.polled 0 (.value subject), .subscribed invocation] :=
      ⟨_, _, _, _, _, _, rfl, rfl, rfl, rfl, rfl, rfl, rfl⟩
    have supplied : course.journal.Supplies Value.Clean := by
      intro n w hw
      rw [hjournal] at hw
      obtain hw | hw := List.mem_cons.1 hw
      · cases hw
        exact served
      · cases List.mem_singleton.1 hw
    have emitted : .value v ∈ course.answers := by rw [hanswers]; exact List.mem_singleton_self _
    exact ⟨c, s, course, v, items, hc, hs, hcourse, emitted, hitems, hlength,
      (Expression.containers_are_clean scope hc).2 ctx s _ _ course bindings hs hcourse supplied v
        emitted⟩

end PolicyExpr
