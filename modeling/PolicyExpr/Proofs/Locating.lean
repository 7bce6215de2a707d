import PolicyExpr.Proofs.Provenance
import PolicyExpr.Proofs.Upholding

/-!
# Every error has a place

An error that an expression evaluates to, or that its stream emits, has a place: that of a node of
the tree, or one that came with an error from a binding or a broker. A node need not place an error
itself, but some node on its way out does. Inside a step with an inner expression an error may still
have none, as `@` may be one that was nested in a binding; the step then gives it its own.
-/
namespace PolicyExpr

variable {places : SourceLocation → Prop}

/-! ## Contexts -/

/-- A broker from whose answers errors have these places, as long as those of its arguments do. A
call on which it faults has no answer, so a broker may be cut down to the calls that are made. -/
def FunctionBroker.Sourced (places : SourceLocation → Prop) (broker : FunctionBroker) : Prop :=
  ∀ call, (∀ v ∈ call.arguments, v.Sourced places ∧ v.isError = false) →
    (broker call).Gives (Value.Sourced places)

/-- A context whose bindings are placed, and whose functions are sourced. -/
structure Context.Placed (strict : Bool) (places : SourceLocation → Prop) (ctx : Context) :
    Prop where
  bound : ∀ name, (ctx.get name).Placed strict places
  relative : ctx.relativeValue.Placed strict places
  position : ctx.relativePosition.Placed strict places
  functions : ∀ broker, ctx.functionBroker = some broker → broker.Sourced places

theorem Context.Placed.upholds {ctx : Context} (h : ctx.Placed true places) :
    ctx.Upholds (.placed places) true := ⟨h.bound, h.relative, h.position, h.functions⟩

theorem Value.placed_undefined : undefined.Placed true places :=
  Sourced.placed_of_isError (sourced_leaf rfl rfl nofun) rfl

theorem Context.placed_empty : Context.empty.Placed true places := by
  have upheld : Context.empty.Upholds (.placed places) true := Context.upholds_empty
  exact ⟨upheld.bound, upheld.relative, upheld.position, upheld.functions⟩

/-! ## Definitions -/

namespace Scope

/-- A scope that comes about by definitions, each a constant or a tree. These are the places of all
nodes of the trees and of all errors in the constants and from the functions, and no constant is an
error without a place. -/
inductive Within (places : SourceLocation → Prop) : Scope → Prop where
  | start {functions : Option FunctionBroker} {imports : ImportTable}
    (h : ∀ broker, functions = some broker → broker.Sourced places) :
    Within places ⟨.empty, functions, imports⟩
  | constant {scope : Scope} {name : String} {v : Value} (hscope : Within places scope)
    (hv : v.Placed true places) : Within places (scope.bind name (.constant v))
  | compiled {scope origin : Scope} {name : String} {e : Expression} {c : Compiled}
    (hscope : Within places scope) (horigin : Within places origin)
    (he : ∀ l ∈ e.locations, places l) (hc : e.compile origin = .ok c) :
    Within places (scope.bind name c)

theorem Within.upholds {scope : Scope} (h : scope.Within places) :
    scope.Upholds (.placed places) := by
  induction h with
  | start h => exact ⟨h, nofun⟩
  | constant _ hv ih => exact ih.bind _ (Compiled.upholds_constant (D := .placed places) hv)
  | compiled _ _ he hc ih iho => exact ih.bind _ (iho.expression _ he hc)

end Scope

/-- Every error has a place. Let there be some places: those of all nodes of a tree and of the trees
of its definitions, and those of all errors in constants, in bindings, in answers of functions and in
values taken from sources, nested ones included. Where no binding itself is an error without a place,
every error that the tree evaluates to and every error that its stream emits has one of these
places, even though functions and sources may supply errors without any. -/
theorem Expression.errors_have_places {scope : Scope} {e : Expression} {c : Compiled}
    (hscope : scope.Within places) (he : ∀ l ∈ e.locations, places l)
    (hc : e.compile scope = .ok c) :
    (∀ ctx v, ctx.Placed true places → c.nature ≠ .stream → c.evaluate ctx = .ok v →
      v.isError = true → ∃ f l, v.kind = .error f (some l) ∧ places l) ∧
    ∀ ctx s schedule journal course, ctx.Placed true places → c.subscribe ctx = .ok s →
      s.pollEach schedule journal = .ok course →
      course.journal.Supplies (Value.Sourced places) →
      ∀ v, .value v ∈ course.answers → v.isError = true →
        ∃ f l, v.kind = .error f (some l) ∧ places l := by
  have placed : c.Upholds (.placed places) := hscope.upholds.expression e he hc
  refine ⟨fun ctx v hctx hn hv herror => ?_, ?_⟩
  · have hplaced : v.Placed true places := (placed.evaluate hn true ctx hctx.upholds).result hv
    exact hplaced.place_of_isError herror
  · intro ctx s schedule journal course hctx hs hcourse hsupply v hv herror
    have hplaced : v.Placed true places := placed.emitted hctx.upholds hs hcourse hsupply v hv
    exact hplaced.place_of_isError herror

/-- The tree `subject.k`, where the subject holds an error without a place under this key. -/
theorem Expression.nested_error_has_place :
    let l : SourceLocation := ⟨1, 0, 1, 9⟩
    let e : Expression := .basic l (.identifier "subject") [.key "k"] none
    let ctx := { Context.empty with subject := .object [("k", .failure (.reported "lost"))] }
    ∃ c v, e.compile .empty = .ok c ∧ c.evaluate ctx = .ok v ∧ v.isError = true ∧
      ∃ f, v.kind = .error f (some l) := by
  intro l e ctx
  have within : Scope.empty.Within (· = l) := .start nofun
  have nodes : ∀ l' ∈ e.locations, l' = l := by
    intro l' hl'
    exact List.mem_singleton.1 hl'
  have bindings : ctx.Placed true (· = l) := by
    refine ⟨fun name => ?_, Value.placed_undefined, Value.placed_undefined, nofun⟩
    by_cases hname : name = "subject"
    · have hlost : (Value.failure (.reported "lost")).Sourced (· = l) := Value.sourced_failure _
      rw [hname]
      exact ⟨Value.sourced_object.2 (List.forall_mem_singleton.2 hlost), fun _ => rfl⟩
    · have hget : ctx.get name = Context.empty.get name := by simp [ctx, Context.get, hname]
      rw [hget]
      exact Context.placed_empty.bound name
  obtain ⟨c, v, hc, hpure, hv, herror⟩ : ∃ c v, e.compile .empty = .ok c ∧ c.nature = .pure ∧
      c.evaluate ctx = .ok v ∧ v.isError = true := ⟨_, _, rfl, rfl, rfl, rfl⟩
  have hn : c.nature ≠ .stream := by
    rw [hpure]
    decide
  obtain ⟨f, l', hkind, rfl⟩ :=
    (Expression.errors_have_places within nodes hc).1 ctx v bindings hn hv herror
  exact ⟨c, v, hc, hv, herror, f, hkind⟩

end PolicyExpr
