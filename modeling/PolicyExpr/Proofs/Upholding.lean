import PolicyExpr.Proofs.Declaration
import PolicyExpr.Proofs.Discipline
import PolicyExpr.Proofs.Emission

/-!
# Trees keep disciplines

What a tree compiles to keeps a discipline: in a context whose bindings keep it, every value that is
computed does, and so does every value that a stream emits if those of its sources do. Functions and
local definitions have to keep it too.

A node has to see to the errors that it computes. Inside a step with an inner expression it need
not, as `@` may be an error that was nested in a binding; the step does it then.
-/
namespace PolicyExpr

open Compiled (combine combineAt combineInContext evaluateAll subscribeAll)
open Discipline (holds_boolean holds_failure holds_failureAt holds_locate holds_null holds_number
  holds_text holds_undefined)
open Operator (onOne onTwo)
open Value (array failureAt)

variable {D : Discipline} {strict : Bool}

/-! ## Functions -/

/-- A broker whose answers keep the discipline as long as its arguments do, none of which is an
error. A call on which it faults has no answer, so a broker may be cut down to the calls that are
made. -/
def FunctionBroker.Upholds (D : Discipline) (broker : FunctionBroker) : Prop :=
  ∀ call, (∀ v ∈ call.arguments, D.Holds false v ∧ v.isError = false) →
    (broker call).Gives (D.Holds false)

/-- A function of the library whose results keep the discipline as long as its arguments do. -/
def NativeFunction.Upholds (D : Discipline) (f : NativeFunction) : Prop :=
  ∀ name args, (∀ v ∈ args, D.Holds false v) →
    (f name args).Gives (Ends (fun _ => True) (D.Holds false))

namespace NativeFunction

theorem upholds_unary {f : String → Value → Eval (Except Failure Value)}
    (h : ∀ name v, (f name v).Gives (Ends (fun _ => True) (D.Holds false))) :
    (unary f).Upholds D := by
  intro name args _
  unfold unary
  split
  · exact h name _
  · trivial

theorem upholds_length : length.Upholds D := by
  refine upholds_unary fun name v => ?_
  split
  · exact holds_number _
  · exact holds_number _
  · exact holds_number _
  · trivial

theorem upholds_toText : toText.Upholds D := by
  refine upholds_unary fun name v => ?_
  refine Ends.bind (Q := fun _ => True) ?_ fun s _ => holds_text s
  cases v.plainText <;> trivial

theorem upholds_onText (f : String → String) : (onText f).Upholds D := by
  refine upholds_unary fun name v => ?_
  split
  · exact holds_text _
  · trivial

/-- The best of some arguments is one of them. -/
theorem holds_extremumFrom {better : Decimal → Decimal → Bool} {name : String} {args : List Value}
    (hargs : ∀ v ∈ args, D.Holds false v) {best : Option (Value × Decimal)}
    (hbest : ∀ w, best = some w → D.Holds false w.1) :
    Ends (fun _ => True) (D.Holds false) (extremumFrom better name best args) := by
  induction args generalizing best with
  | nil =>
    cases best with
    | none => exact holds_undefined
    | some w => exact hbest w rfl
  | cons v rest ih =>
    obtain ⟨hv, hrest⟩ := List.forall_mem_cons.1 hargs
    unfold extremumFrom
    split
    · trivial
    · refine ih hrest ?_
      rintro _ ⟨⟩
      split
      · exact hv
      · next w m =>
        split
        · exact hv
        · exact hbest (w, m) rfl

theorem upholds_max : max.Upholds D := fun _ _ hargs => holds_extremumFrom hargs nofun

theorem upholds_min : min.Upholds D := fun _ _ hargs => holds_extremumFrom hargs nofun

end NativeFunction

namespace FunctionRegistry

theorem upholds_evaluate {r : FunctionRegistry}
    (h : ∀ name f, r.functions.get? name = some f → f.Upholds D) : r.evaluate.Upholds D := by
  intro call hargs
  unfold evaluate
  split
  · exact holds_failure _
  · next f hf =>
    refine (h call.name f hf call.name call.arguments fun v hv => (hargs v hv).1).bind
      fun result hresult => ?_
    cases result with
    | ok v => exact hresult
    | error cause => exact holds_failure cause

/-- The standard functions keep every discipline. -/
theorem upholds_standard : standard.evaluate.Upholds D := by
  refine upholds_evaluate fun name f hf => ?_
  simp only [standard, Table.ofList, List.foldl, Table.get?_insert, Std.compare_eq_iff_eq] at hf
  split at hf
  · cases hf
    exact NativeFunction.upholds_onText Text.toUpper
  split at hf
  · cases hf
    exact NativeFunction.upholds_onText Text.toLower
  split at hf
  · cases hf
    exact NativeFunction.upholds_min
  split at hf
  · cases hf
    exact NativeFunction.upholds_max
  split at hf
  · cases hf
    exact NativeFunction.upholds_toText
  split at hf
  · cases hf
    exact NativeFunction.upholds_length
  · cases hf

end FunctionRegistry

/-! ## Contexts -/

/-- A context whose bindings and functions keep the discipline. -/
structure Context.Upholds (D : Discipline) (strict : Bool) (ctx : Context) : Prop where
  bound : ∀ name, D.Holds strict (ctx.get name)
  relative : D.Holds strict ctx.relativeValue
  position : D.Holds strict ctx.relativePosition
  functions : ∀ broker, ctx.functionBroker = some broker → broker.Upholds D

theorem Context.Upholds.withRelative {ctx : Context} {part position : Value}
    (h : ctx.Upholds D strict) (hpart : D.Holds false part) (hposition : D.Holds false position) :
    (ctx.withRelative part position).Upholds D false where
  bound name := (h.bound name).lax
  relative := hpart
  position := hposition
  functions := h.functions

/-- The context in which constants are folded binds nothing. -/
theorem Context.upholds_folding {functions : Option FunctionBroker}
    (h : ∀ broker, functions = some broker → broker.Upholds D) :
    Context.Upholds D strict { Context.empty with functionBroker := functions } where
  bound name := by
    have hget : Context.get { Context.empty with functionBroker := functions } name =
        Value.undefined := by
      have hnone : (Table.empty : Table String Value).get? name = none := rfl
      simp [Context.get, Context.empty, Context.ofRequest, hnone]
    rw [hget]
    exact holds_undefined
  relative := holds_undefined
  position := holds_undefined
  functions := h

theorem Context.upholds_empty : Context.empty.Upholds D strict := by
  have functions : ∀ broker : FunctionBroker, none = some broker → broker.Upholds D := nofun
  exact upholds_folding functions

/-! ## Compiled expressions -/

namespace Compiled

/-- In every context the value keeps the discipline as the bindings do, and the values that its
stream emits keep it strictly if the bindings do. -/
structure Upholds (D : Discipline) (c : Compiled) : Prop where
  evaluate : c.nature ≠ .stream → ∀ strict ctx, ctx.Upholds D strict →
    (c.evaluate ctx).Gives (D.Holds strict)
  subscribe : ∀ ctx, ctx.Upholds D true →
    (c.subscribe ctx).Gives (Stream.Yields (D.Holds false) (D.Holds true))

/-- In every run the stream emits only what keeps the discipline, if its sources do. -/
theorem Upholds.emitted {c : Compiled} {ctx : Context} {s : Stream} {schedule : List (Nat × Nat)}
    {journal : Journal} {course : Course Stream} (h : c.Upholds D) (hctx : ctx.Upholds D true)
    (hs : c.subscribe ctx = .ok s) (hcourse : s.pollEach schedule journal = .ok course)
    (hsupply : course.journal.Supplies (D.Holds false)) :
    ∀ v, .value v ∈ course.answers → D.Holds true v := by
  have yields : s.Yields (D.Holds false) (D.Holds true) := (h.subscribe ctx hctx).result hs
  exact yields.emitted hcourse hsupply

theorem upholds_constant {v : Value} (h : D.Holds true v) : (constant v).Upholds D :=
  ⟨fun _ _ _ _ => h.weaken, fun _ _ => Stream.yields_once h⟩

theorem upholds_pure {reads : Bool} {run : Context → Eval Value}
    (h : ∀ strict ctx, ctx.Upholds D strict → (run ctx).Gives (D.Holds strict)) :
    (pure reads run).Upholds D :=
  ⟨fun _ => h, fun ctx hctx => (h true ctx hctx).bind fun _ hv => Stream.yields_once hv⟩

theorem upholds_stream {subscribe : Context → Eval Stream}
    (h : ∀ ctx, ctx.Upholds D true →
      (subscribe ctx).Gives (Stream.Yields (D.Holds false) (D.Holds true))) :
    (stream subscribe).Upholds D :=
  ⟨fun hn => absurd rfl hn, h⟩

variable {cs : List Compiled} {ctx : Context}

theorem upholds_evaluateAll (hcs : ∀ c ∈ cs, c.Upholds D)
    (hn : ∀ c ∈ cs, c.nature ≠ .stream) (hctx : ctx.Upholds D strict) :
    (evaluateAll cs ctx).Gives fun vs => ∀ v ∈ vs, D.Holds strict v :=
  Ends.mapM fun c hc => (hcs c hc).evaluate (hn c hc) strict ctx hctx

theorem upholds_subscribeAll (hcs : ∀ c ∈ cs, c.Upholds D) (hctx : ctx.Upholds D true) :
    (subscribeAll cs ctx).Gives fun streams => ∀ s ∈ streams,
      s.Yields (D.Holds false) (D.Holds true) :=
  Ends.mapM fun c hc => (hcs c hc).subscribe ctx hctx

/-- A combination whose operator keeps the discipline as its operands do. -/
theorem upholds_combineInContext {reads : Bool} {folding : Context}
    {op : Context → List Value → Eval Value} {c : Compiled} (hcs : ∀ c ∈ cs, c.Upholds D)
    (hfolding : folding.Upholds D true)
    (hop : ∀ strict ctx vs, ctx.Upholds D strict → (∀ v ∈ vs, D.Holds strict v) →
      (op ctx vs).Gives (D.Holds strict))
    (hc : combineInContext cs reads folding op = .ok c) : c.Upholds D := by
  obtain ⟨-, rfl⟩ | ⟨constants, -, vs, v, hvs, hv, rfl⟩ | ⟨streamless, rfl⟩ :=
    combineInContext_cases hc
  · refine upholds_stream fun ctx hctx => (upholds_subscribeAll hcs hctx).bind fun streams hs => ?_
    cases hjoin : Stream.joinAll streams (op ctx) with
    | error f => trivial
    | ok s =>
      refine Stream.yields_joinAll hs (fun vs v hvs hv => ?_) hjoin
      exact (hop true ctx vs hctx hvs).result hv
  · have streamless : ∀ c ∈ cs, c.nature ≠ .stream := fun c hc => by simp [constants c hc]
    have upheld := (upholds_evaluateAll hcs streamless hfolding).result hvs
    exact upholds_constant ((hop true folding vs hfolding upheld).result hv)
  · exact upholds_pure fun strict ctx hctx =>
      (upholds_evaluateAll hcs streamless hctx).bind fun vs hvs => hop strict ctx vs hctx hvs

/-- A combination whose operator does not read the context. -/
theorem upholds_combine {op : List Value → Eval Value} {c : Compiled}
    (hcs : ∀ c ∈ cs, c.Upholds D)
    (hop : ∀ strict vs, (∀ v ∈ vs, D.Holds strict v) →
      (op vs).Gives (D.Holds strict))
    (hc : combine cs op = .ok c) : c.Upholds D :=
  upholds_combineInContext hcs Context.upholds_empty (fun strict _ vs _ => hop strict vs) hc

/-- The operator of a node may leave it to the node to see to an error. -/
theorem upholds_combineAt {l : SourceLocation} {op : List Value → Eval Value} {c : Compiled}
    (hl : D.Place l) (hcs : ∀ c ∈ cs, c.Upholds D)
    (hop : ∀ vs, (∀ v ∈ vs, D.Holds false v) → (op vs).Gives (D.Holds false))
    (hc : combineAt l cs op = .ok c) : c.Upholds D := by
  refine upholds_combine hcs (fun strict vs hvs => ?_) hc
  exact (hop vs fun v hv => (hvs v hv).lax).bind fun v hv => holds_locate hl hv

theorem upholds_invalid {f : Failure} {l : SourceLocation} (hl : D.Place l) :
    (invalid f l).Upholds D :=
  upholds_constant (holds_failureAt hl f)

end Compiled

/-! ## Nodes -/

namespace Chain

variable {deciding : Bool} {l : SourceLocation} {ctx : Context} {cs : List Compiled}

theorem upholds_evaluate (hl : D.Place l) (hcs : ∀ c ∈ cs, c.Upholds D)
    (hn : ∀ c ∈ cs, c.nature ≠ .stream) (hctx : ctx.Upholds D strict) (m : Metadata) :
    (evaluate deciding l ctx m cs).Gives (D.Holds strict) := by
  induction cs generalizing m with
  | nil => exact Operator.holds_exhausted deciding m
  | cons c rest ih =>
    obtain ⟨hc, hrest⟩ := List.forall_mem_cons.1 hcs
    obtain ⟨hnature, hn⟩ := List.forall_mem_cons.1 hn
    refine (hc.evaluate hnature strict ctx hctx).bind fun v hv => ?_
    split
    · next he => exact Operator.holds_lazyStep hl hv.lax he
    · exact ih hrest hn _

theorem upholds_subscribe (hl : D.Place l) (hcs : ∀ c ∈ cs, c.Upholds D)
    (hctx : ctx.Upholds D true) (m : Metadata) :
    (subscribe deciding l ctx m cs).Gives
      (Stream.Yields (D.Holds false) (D.Holds true)) := by
  induction cs generalizing m with
  | nil => exact Stream.yields_once (Operator.holds_exhausted deciding m)
  | cons c rest ih =>
    obtain ⟨hc, hrest⟩ := List.forall_mem_cons.1 hcs
    refine (hc.subscribe ctx hctx).bind fun source hsource =>
      Stream.yields_switchOver hsource fun v s hv hs => ?_
    split at hs
    · next he =>
      cases hs
      exact Stream.yields_once (Operator.holds_lazyStep hl hv.lax he)
    · exact (ih hrest _).result hs

theorem holds_of_front {m : Metadata} {v : Value} (hl : D.Place l)
    (hcs : ∀ c ∈ cs, c.Upholds D) (h : front deciding l m cs = .decided v) :
    D.Holds strict v := by
  induction cs generalizing m with
  | nil => cases h
  | cons c rest ih =>
    obtain ⟨hc, hrest⟩ := List.forall_mem_cons.1 hcs
    cases c with
    | constant w =>
      have hw : D.Holds true w :=
        hc.evaluate nofun true Context.empty Context.upholds_empty
      rw [front] at h
      split at h
      · next he =>
        cases h
        exact Operator.holds_lazyStep hl hw.lax he
      · exact ih hrest h
    | pure reads run => cases h
    | stream subscribe => cases h

theorem upholds_compile (hl : D.Place l) (hcs : ∀ c ∈ cs, c.Upholds D) :
    (compile deciding l cs).Upholds D := by
  obtain ⟨v, hf, hc⟩ | ⟨m, -, hc⟩ | ⟨m, rest, hf, -, hc⟩ | ⟨m, rest, hf, hn, hc⟩ :=
    compile_cases deciding l cs <;> rw [hc]
  · exact Compiled.upholds_constant (holds_of_front hl hcs hf)
  · exact Compiled.upholds_constant (Operator.holds_exhausted deciding m)
  · exact Compiled.upholds_stream fun ctx hctx =>
      upholds_subscribe hl (fun c hm => hcs c (mem_of_front hf c hm)) hctx m
  · exact Compiled.upholds_pure fun strict ctx hctx =>
      upholds_evaluate hl (fun c hm => hcs c (mem_of_front hf c hm)) hn hctx m

end Chain

namespace AttributeFinder

variable {ctx : Context} {name : String} {l : SourceLocation} {vs : List Value} {vector : Value}

theorem upholds_forwarded {secret : Bool} {v : Value} (hl : D.Place l) (h : D.Holds false v) :
    D.Holds strict (forwarded l secret v) := by
  have kind : (forwarded l secret v).kind = (v.locate l).kind := by cases secret <;> rfl
  exact D.of_kind (holds_locate hl h) kind

/-- The finder sees to errors of parameters, to its own and to those of its sources. The vector of
the parameters may hold errors, unlike any array of the language. -/
theorem yields_values (hl : D.Place l)
    (hvector : ∀ vs, vector.asArray? = some vs → ∀ v ∈ vs, D.Holds false v) :
    (values ctx name l vector).Yields (D.Holds false) (D.Holds true) := by
  have failed (f : Failure) : D.Holds true (failureAt f l) :=
    holds_failureAt hl f
  unfold values
  split
  · next entity options arguments hparameters =>
    split
    · next e he =>
      have holds : D.Holds false e :=
        Operator.holds_firstError he (hvector _ hparameters)
      exact Stream.yields_once (holds_locate hl holds)
    · split
      · exact Stream.yields_once (failed _)
      · split
        · exact Stream.yields_once (failed _)
        · exact .map (fun _ hv => upholds_forwarded hl hv) (.unopened fun _ hv => hv)
  · exact Stream.yields_once (failed _)

theorem upholds_compile {head : Bool} {cs : List Compiled} (hl : D.Place l)
    (hcs : ∀ c ∈ cs, c.Upholds D) : (compile name l head cs).Upholds D := by
  refine Compiled.upholds_stream fun ctx hctx =>
    (Compiled.upholds_subscribeAll hcs hctx).bind fun streams hstreams => ?_
  cases hparameters : Stream.joinAll streams fun vs => .ok (array vs) with
  | error f => trivial
  | ok parameters =>
    have vectors : parameters.Yields (D.Holds false) fun vector =>
        ∀ vs, vector.asArray? = some vs → ∀ v ∈ vs, D.Holds false v := by
      refine Stream.yields_joinAll hstreams (fun vs v hvs hv => ?_) hparameters
      cases hv
      rintro _ ⟨⟩ v hv
      exact (hvs v hv).lax
    have found : Stream.Yields (D.Holds false) (D.Holds true)
        (.switchOver parameters fun vector => .ok (values ctx name l vector)) := by
      refine Stream.yields_switchOver vectors fun v s hv hs => ?_
      cases hs
      exact yields_values hl hv
    cases head with
    | false => exact found
    | true =>
      refine .head ?_
      rintro _ ⟨⟩
      exact found

end AttributeFinder

/-- A scope whose functions and definitions keep the discipline. -/
structure Scope.Upholds (D : Discipline) (scope : Scope) : Prop where
  functions : ∀ broker, scope.functionBroker = some broker → broker.Upholds D
  definitions : ∀ name c, scope.definitions.get? name = some c → c.Upholds D

theorem Scope.Upholds.folding {scope : Scope} (h : scope.Upholds D) :
    scope.foldingContext.Upholds D strict := Context.upholds_folding h.functions

theorem Scope.Upholds.bind {scope : Scope} (h : scope.Upholds D) (name : String) {c : Compiled}
    (hc : c.Upholds D) : (scope.bind name c).Upholds D where
  functions := h.functions
  definitions other d hd := by
    rw [definitions_bind] at hd
    split at hd
    · cases hd
      exact hc
    · exact h.definitions other d hd

namespace Compile

variable {scope : Scope} {l : SourceLocation} {base inner a b c : Compiled} {cs : List Compiled}

/-- A call answers an error of an argument as it is, and sees to what the broker answers. -/
theorem upholds_call {broker : FunctionBroker} {name : String} {ctx : Context} {vs : List Value}
    (hl : D.Place l) (hbroker : broker.Upholds D) (hctx : ctx.Upholds D strict)
    (hvs : ∀ v ∈ vs, D.Holds strict v) :
    (call broker name l ctx vs).Gives (D.Holds strict) := by
  unfold call
  split
  · next he => exact Operator.holds_firstError he hvs
  · next hnone =>
    have chosen : (ctx.functionBroker.getD broker).Upholds D := by
      cases hfunctions : ctx.functionBroker with
      | none => exact hbroker
      | some own => exact hctx.functions own hfunctions
    have arguments : ∀ v ∈ vs, D.Holds false v ∧ v.isError = false := fun v hv =>
      ⟨(hvs v hv).lax, Operator.isError_of_firstError hnone v hv⟩
    refine (chosen ⟨name, vs⟩ arguments).bind fun v hv => ?_
    exact D.of_kind (holds_locate hl hv) rfl

theorem upholds_binary {op : Value → Value → Value} (hl : D.Place l) (ha : a.Upholds D)
    (hb : b.Upholds D)
    (hop : ∀ a b, D.Holds false a → D.Holds false b → D.Holds false (op a b))
    (hc : binary l a b (fun a b => .ok (op a b)) = .ok c) : c.Upholds D := by
  refine Compiled.upholds_combineAt hl (by simp [ha, hb]) (fun vs hvs => ?_) hc
  exact Operator.holds_onTwo hvs fun a b ha hb => hop a b ha hb

theorem upholds_equality {op : EqualityOperator} (hl : D.Place l) (ha : a.Upholds D)
    (hb : b.Upholds D) (hc : equality op l a b = .ok c) : c.Upholds D := by
  have general := upholds_binary (c := c) hl ha hb fun _ _ => Operator.holds_equality op
  unfold equality at hc
  split at hc
  · next pattern =>
    split at hc
    · have hpattern : D.Holds true pattern :=
        hb.evaluate nofun true Context.empty Context.upholds_empty
      refine Compiled.upholds_combineAt hl (by simp [ha]) (fun vs hvs => ?_) hc
      refine Operator.holds_onOne hvs fun v hv => ?_
      exact Operator.holds_matchCompiled hv hpattern.lax
    · exact general hc
  · exact general hc

theorem upholds_plainStep {step : Value → Value} (hl : D.Place l) (hbase : base.Upholds D)
    (hstep : ∀ v, D.Holds false v → D.Holds false (step v))
    (hc : plainStep l base step = .ok c) : c.Upholds D := by
  refine Compiled.upholds_combineAt hl (by simp [hbase]) (fun vs hvs => ?_) hc
  exact Operator.holds_onOne hvs fun v hv => hstep v hv

theorem upholds_indexedStep {α : Type} {indices : Except Failure α} {step : Value → α → Value}
    (hl : D.Place l) (hbase : base.Upholds D)
    (hstep : ∀ i v, D.Holds false v → D.Holds false (step v i))
    (hc : indexedStep l base indices step = .ok c) : c.Upholds D := by
  cases indices with
  | error f =>
    cases hc
    exact Compiled.upholds_invalid hl
  | ok i => exact upholds_plainStep hl hbase (hstep i) hc

/-- A step with an inner expression sees to the errors that this leaves to it. -/
theorem upholds_relativeStep {step : RelativeStep} {apply : Value → Selection.Inner → Eval Value}
    (hscope : scope.Upholds D) (hl : D.Place l) (hbase : base.Upholds D)
    (hinner : inner.Upholds D)
    (happly : ∀ v at', D.Holds false v → Selection.Inner.Upholds D at' →
      (apply v at').Gives (D.Holds false))
    (hc : relativeStep scope step l base inner apply = .ok c) : c.Upholds D := by
  obtain ⟨-, rfl⟩ | ⟨hn, hc⟩ := relativeStep_cases hc
  · exact Compiled.upholds_invalid hl
  · refine Compiled.upholds_combineInContext (by simp [hbase]) hscope.folding
      (fun strict ctx vs hctx hvs => ?_) hc
    have within : Selection.Inner.Upholds D fun part position =>
        inner.evaluate (ctx.withRelative part position) := by
      intro part position hpart hposition
      have rebound := hctx.withRelative hpart hposition
      exact (hinner.evaluate hn false _ rebound).mono fun _ hv => hv.lax
    unfold onOne
    split
    · next v =>
      have hv : D.Holds false v := (hvs v (by simp)).lax
      exact (happly v _ hv within).bind fun w hw => holds_locate hl hw
    · exact holds_undefined

theorem upholds_selectorStep (hscope : scope.Upholds D) (hl : D.Place l)
    (hbase : base.Upholds D) (hinner : inner.Upholds D)
    (hc : selectorStep scope l base inner = .ok c) : c.Upholds D := by
  refine upholds_relativeStep hscope hl hbase hinner (fun v at' hv hat => ?_) hc
  exact (hat v Value.undefined hv holds_undefined).bind fun selector hselector =>
    Selection.holds_selector hv hselector

theorem upholds_joined {combined : List Compiled → Eval Compiled} (hcs : ∀ c ∈ cs, c.Upholds D)
    (hcombined : ∀ c, combined cs = .ok c → c.Upholds D) (hc : joined cs combined = .ok c) :
    c.Upholds D := by
  unfold joined at hc
  split at hc
  · cases hc
    exact hcs _ (by simp)
  · exact hcombined c hc

end Compile

/-! ## Locations of a tree -/

namespace Nodes

mutual

/-- The locations of all expressions and attribute finders of a tree. -/
def expression : Expression → List SourceLocation
  | .lazy _ l operands => l :: expressions operands
  | .eager _ l operands => l :: expressions operands
  | .equality _ l left right => l :: (expression left ++ expression right)
  | .comparison _ l left right => l :: (expression left ++ expression right)
  | .addition l operands _ => l :: expressions operands
  | .multiplication l operands _ => l :: expressions operands
  | .unary _ l operand => l :: expression operand
  | .basic l b ss template => l :: (base b ++ (steps ss ++ optional template))

def expressions : List Expression → List SourceLocation
  | [] => []
  | e :: rest => expression e ++ expressions rest

def optional : Option Expression → List SourceLocation
  | none => []
  | some e => expression e

def base : Base → List SourceLocation
  | .group e => expression e
  | .literal v => literal v
  | .call _ arguments => expressions arguments
  | .identifier _ => []
  | .relative => []
  | .relativePosition => []
  | .environmentAttribute _ arguments options _ => optional options ++ expressions arguments

def literal : Literal → List SourceLocation
  | .array items => expressions items
  | .object ms => members ms
  | _ => []

def members : List Member → List SourceLocation
  | [] => []
  | .mk _ e :: rest => expression e ++ members rest

def steps : List Step → List SourceLocation
  | [] => []
  | s :: rest => step s ++ steps rest

def step : Step → List SourceLocation
  | .selector e => expression e
  | .condition e => expression e
  | .attributeFinder l _ arguments options _ => l :: (optional options ++ expressions arguments)
  | _ => []

end

end Nodes

/-- The locations of the nodes of a tree. -/
def Expression.locations (e : Expression) : List SourceLocation := Nodes.expression e

/-! ## Trees -/

namespace Scope.Upholds

open Compile (upholds_binary upholds_call upholds_equality upholds_indexedStep upholds_joined
  upholds_plainStep upholds_relativeStep upholds_selectorStep)

variable {scope : Scope}

mutual

/-- What a tree compiles to keeps the discipline. -/
theorem expression (h : scope.Upholds D) : ∀ (e : Expression) {c : Compiled},
    (∀ l ∈ Nodes.expression e, D.Place l) → Compile.expression scope e = .ok c → c.Upholds D
  | .lazy op l operands, c, he, hc => by
    obtain ⟨hl, hoperands⟩ := List.forall_mem_cons.1 he
    obtain ⟨-, -, hc⟩ := bind_eq_ok hc
    obtain ⟨cs, hcs, hc⟩ := bind_eq_ok hc
    have upheld := h.expressions operands hoperands hcs
    refine upholds_joined upheld (fun c hc => ?_) (Compilation.ofEval_eq_ok hc)
    cases hc
    exact Chain.upholds_compile hl upheld
  | .eager op l operands, c, he, hc => by
    obtain ⟨hl, hoperands⟩ := List.forall_mem_cons.1 he
    obtain ⟨-, -, hc⟩ := bind_eq_ok hc
    obtain ⟨cs, hcs, hc⟩ := bind_eq_ok hc
    have upheld := h.expressions operands hoperands hcs
    refine upholds_joined upheld (fun c hc => ?_) (Compilation.ofEval_eq_ok hc)
    refine Compiled.upholds_combineAt hl upheld (fun vs hvs => ?_) hc
    exact Operator.holds_eager op hvs
  | .equality op l left right, c, he, hc => by
    obtain ⟨hl, he⟩ := List.forall_mem_cons.1 he
    obtain ⟨hleft, hright⟩ := List.forall_mem_append.1 he
    obtain ⟨a, ha, hc⟩ := bind_eq_ok hc
    obtain ⟨b, hb, hc⟩ := bind_eq_ok hc
    exact upholds_equality hl (h.expression left hleft ha) (h.expression right hright hb)
      (Compilation.ofEval_eq_ok hc)
  | .comparison op l left right, c, he, hc => by
    obtain ⟨hl, he⟩ := List.forall_mem_cons.1 he
    obtain ⟨hleft, hright⟩ := List.forall_mem_append.1 he
    obtain ⟨a, ha, hc⟩ := bind_eq_ok hc
    obtain ⟨b, hb, hc⟩ := bind_eq_ok hc
    exact upholds_binary hl (h.expression left hleft ha) (h.expression right hright hb)
      (fun _ _ => Operator.holds_relational op) (Compilation.ofEval_eq_ok hc)
  | .addition l operands ops, c, he, hc => by
    obtain ⟨hl, hoperands⟩ := List.forall_mem_cons.1 he
    obtain ⟨-, -, hc⟩ := bind_eq_ok hc
    obtain ⟨-, -, hc⟩ := bind_eq_ok hc
    obtain ⟨cs, hcs, hc⟩ := bind_eq_ok hc
    have upheld := h.expressions operands hoperands hcs
    refine upholds_joined upheld (fun c hc => ?_) (Compilation.ofEval_eq_ok hc)
    refine Compiled.upholds_combineAt hl upheld (fun vs hvs => ?_) hc
    refine Operator.holds_chain (fun op hop a b ha hb => ?_) hvs
    obtain ⟨op, -, rfl⟩ := List.mem_map.1 hop
    exact Operator.holds_additive op ha hb
  | .multiplication l operands ops, c, he, hc => by
    obtain ⟨hl, hoperands⟩ := List.forall_mem_cons.1 he
    obtain ⟨-, -, hc⟩ := bind_eq_ok hc
    obtain ⟨-, -, hc⟩ := bind_eq_ok hc
    obtain ⟨cs, hcs, hc⟩ := bind_eq_ok hc
    have upheld := h.expressions operands hoperands hcs
    refine upholds_joined upheld (fun c hc => ?_) (Compilation.ofEval_eq_ok hc)
    refine Compiled.upholds_combineAt hl upheld (fun vs hvs => ?_) hc
    refine Operator.holds_chain (fun op hop a b ha hb => ?_) hvs
    obtain ⟨op, -, rfl⟩ := List.mem_map.1 hop
    exact Operator.holds_multiplicative op ha hb
  | .unary op l operand, c, he, hc => by
    obtain ⟨hl, hoperand⟩ := List.forall_mem_cons.1 he
    obtain ⟨a, ha, hc⟩ := bind_eq_ok hc
    have upheld := h.expression operand hoperand ha
    refine Compiled.upholds_combineAt hl (by simp [upheld]) (fun vs hvs => ?_)
      (Compilation.ofEval_eq_ok hc)
    exact Operator.holds_onOne hvs fun v hv => Operator.holds_unary op hv
  | .basic l b ss t, c, he, hc => by
    obtain ⟨hl, he⟩ := List.forall_mem_cons.1 he
    obtain ⟨hbase, he⟩ := List.forall_mem_append.1 he
    obtain ⟨hsteps, htemplate⟩ := List.forall_mem_append.1 he
    obtain ⟨cb, hb, hc⟩ := bind_eq_ok hc
    obtain ⟨cs, hs, hc⟩ := bind_eq_ok hc
    have upheld := h.base l b hl hbase hb
    exact h.subtemplate l t hl htemplate (h.steps l ss hl hsteps upheld hs) hc

theorem expressions (h : scope.Upholds D) : ∀ (es : List Expression) {cs : List Compiled},
    (∀ l ∈ Nodes.expressions es, D.Place l) → Compile.expressions scope es = .ok cs →
    ∀ c ∈ cs, c.Upholds D
  | [], _, _, hc => by
    cases hc
    exact nofun
  | e :: rest, _, he, hc => by
    obtain ⟨he, hrest⟩ := List.forall_mem_append.1 he
    obtain ⟨c, hce, hc⟩ := bind_eq_ok hc
    obtain ⟨cs, hcs, hc⟩ := bind_eq_ok hc
    cases hc
    exact List.forall_mem_cons.2 ⟨h.expression e he hce, h.expressions rest hrest hcs⟩

theorem options (h : scope.Upholds D) : ∀ (o : Option Expression) {c : Compiled},
    (∀ l ∈ Nodes.optional o, D.Place l) → Compile.options scope o = .ok c → c.Upholds D
  | none, _, _, hc => by
    cases hc
    exact Compiled.upholds_constant holds_undefined
  | some e, _, he, hc => h.expression e he hc

theorem subtemplate (h : scope.Upholds D) (l : SourceLocation) :
    ∀ (t : Option Expression) {c c' : Compiled}, D.Place l → (∀ l ∈ Nodes.optional t, D.Place l) →
    c.Upholds D → Compile.subtemplate scope l c t = .ok c' → c'.Upholds D
  | none, _, _, _, _, hbase, hc => by
    cases hc
    exact hbase
  | some e, _, _, hl, he, hbase, hc => by
    obtain ⟨template, htemplate, hc⟩ := bind_eq_ok hc
    exact upholds_relativeStep h hl hbase (h.expression e he htemplate)
      (fun v _ hv hinner => Selection.holds_subtemplate hinner hv) (Compilation.ofEval_eq_ok hc)

theorem base (h : scope.Upholds D) (l : SourceLocation) : ∀ (b : Base) {c : Compiled},
    D.Place l → (∀ l ∈ Nodes.base b, D.Place l) → Compile.base scope l b = .ok c → c.Upholds D
  | .group e, _, _, he, hc => h.expression e he hc
  | .literal v, _, hl, he, hc => h.literal l v hl he hc
  | .call name arguments, _, hl, he, hc => by
    simp only [Compile.base] at hc
    split at hc
    · cases hc
    · split at hc
      · cases hc
      · next broker hbroker =>
        obtain ⟨cs, hcs, hc⟩ := bind_eq_ok hc
        refine Compiled.upholds_combineInContext (h.expressions arguments he hcs) h.folding
          (fun strict ctx vs hctx hvs => ?_) (Compilation.ofEval_eq_ok hc)
        exact upholds_call hl (h.functions broker hbroker) hctx hvs
  | .identifier name, _, _, _, hc => by
    simp only [Compile.base] at hc
    split at hc
    · cases hc
    · split at hc
      · next hd =>
        cases hc
        exact h.definitions name _ hd
      · cases hc
        exact Compiled.upholds_pure fun strict ctx hctx => hctx.bound name
  | .relative, _, _, _, hc => by
    cases hc
    exact Compiled.upholds_pure fun strict ctx hctx => hctx.relative
  | .relativePosition, _, _, _, hc => by
    cases hc
    exact Compiled.upholds_pure fun strict ctx hctx => hctx.position
  | .environmentAttribute name arguments opts head, _, hl, he, hc => by
    obtain ⟨hoptions, harguments⟩ := List.forall_mem_append.1 he
    simp only [Compile.base] at hc
    split at hc
    · cases hc
    · obtain ⟨o, ho, hc⟩ := bind_eq_ok hc
      obtain ⟨cs, hcs, hc⟩ := bind_eq_ok hc
      cases hc
      have null : (Compiled.constant .null).Upholds D :=
        Compiled.upholds_constant holds_null
      refine AttributeFinder.upholds_compile hl (List.forall_mem_cons.2 ⟨null, ?_⟩)
      exact List.forall_mem_cons.2
        ⟨h.options opts hoptions ho, h.expressions arguments harguments hcs⟩

theorem literal (h : scope.Upholds D) (l : SourceLocation) : ∀ (v : Literal) {c : Compiled},
    D.Place l → (∀ l ∈ Nodes.literal v, D.Place l) → Compile.literal scope l v = .ok c →
    c.Upholds D
  | .number raw, _, hl, _, hc => by
    simp only [Compile.literal] at hc
    split at hc
    · cases hc
      exact Compiled.upholds_constant (holds_number _)
    · cases hc
      exact Compiled.upholds_invalid hl
  | .text s, _, _, _, hc => by
    cases hc
    exact Compiled.upholds_constant (holds_text s)
  | .boolean b, _, _, _, hc => by
    cases hc
    exact Compiled.upholds_constant (holds_boolean b)
  | .null, _, _, _, hc => by
    cases hc
    exact Compiled.upholds_constant holds_null
  | .undefined, _, _, _, hc => by
    cases hc
    exact Compiled.upholds_constant holds_undefined
  | .array items, _, _, he, hc => by
    obtain ⟨cs, hcs, hc⟩ := bind_eq_ok hc
    refine Compiled.upholds_combine (h.expressions items he hcs) (fun strict vs hvs => ?_)
      (Compilation.ofEval_eq_ok hc)
    exact Operator.holds_arrayOf hvs
  | .object ms, _, _, he, hc => by
    obtain ⟨cs, hcs, hc⟩ := bind_eq_ok hc
    refine Compiled.upholds_combine (h.members ms he hcs) (fun strict vs hvs => ?_)
      (Compilation.ofEval_eq_ok hc)
    exact Operator.holds_objectOf _ hvs

theorem members (h : scope.Upholds D) : ∀ (ms : List Member) {cs : List Compiled},
    (∀ l ∈ Nodes.members ms, D.Place l) → Compile.members scope ms = .ok cs →
    ∀ c ∈ cs, c.Upholds D
  | [], _, _, hc => by
    cases hc
    exact nofun
  | .mk _ e :: rest, _, he, hc => by
    obtain ⟨he, hrest⟩ := List.forall_mem_append.1 he
    obtain ⟨c, hce, hc⟩ := bind_eq_ok hc
    obtain ⟨cs, hcs, hc⟩ := bind_eq_ok hc
    cases hc
    exact List.forall_mem_cons.2 ⟨h.expression e he hce, h.members rest hrest hcs⟩

theorem steps (h : scope.Upholds D) (l : SourceLocation) : ∀ (ss : List Step)
    {c c' : Compiled}, D.Place l → (∀ l ∈ Nodes.steps ss, D.Place l) → c.Upholds D →
    Compile.steps scope l c ss = .ok c' → c'.Upholds D
  | [], _, _, _, _, hbase, hc => by
    cases hc
    exact hbase
  | s :: rest, _, _, hl, he, hbase, hc => by
    obtain ⟨hstep, hrest⟩ := List.forall_mem_append.1 he
    obtain ⟨d, hd, hc⟩ := bind_eq_ok hc
    exact h.steps l rest hl hrest (h.step l s hl hstep hbase hd) hc

theorem step (h : scope.Upholds D) (l : SourceLocation) : ∀ (s : Step) {c c' : Compiled},
    D.Place l → (∀ l ∈ Nodes.step s, D.Place l) → c.Upholds D →
    Compile.step scope l c s = .ok c' → c'.Upholds D
  | .key name, _, _, hl, _, hbase, hc =>
    upholds_plainStep hl hbase (fun _ hv => Selection.holds_key hv name)
      (Compilation.ofEval_eq_ok hc)
  | .wildcard, _, _, hl, _, hbase, hc =>
    upholds_plainStep hl hbase (fun _ hv => Selection.holds_wildcard hv)
      (Compilation.ofEval_eq_ok hc)
  | .index _, _, _, hl, _, hbase, hc =>
    upholds_indexedStep hl hbase (fun i _ hv => Selection.holds_index hv i)
      (Compilation.ofEval_eq_ok hc)
  | .selector e, _, _, hl, he, hbase, hc => by
    obtain ⟨selector, hselector, hc⟩ := bind_eq_ok hc
    exact upholds_selectorStep h hl hbase (h.expression e he hselector)
      (Compilation.ofEval_eq_ok hc)
  | .slice _ _ _, _, _, hl, _, hbase, hc =>
    upholds_indexedStep hl hbase (fun (i, j, k) _ hv => Selection.holds_slice hv i j k)
      (Compilation.ofEval_eq_ok hc)
  | .condition e, _, _, hl, he, hbase, hc => by
    obtain ⟨condition, hcondition, hc⟩ := bind_eq_ok hc
    exact upholds_relativeStep h hl hbase (h.expression e he hcondition)
      (fun v _ hv hinner => Selection.holds_condition hinner hv) (Compilation.ofEval_eq_ok hc)
  | .indexUnion _, _, _, hl, _, hbase, hc =>
    upholds_indexedStep hl hbase (fun indices _ hv => Selection.holds_indexUnion hv indices)
      (Compilation.ofEval_eq_ok hc)
  | .keyUnion keys, _, _, hl, _, hbase, hc =>
    upholds_plainStep hl hbase (fun _ hv => Selection.holds_keyUnion hv keys)
      (Compilation.ofEval_eq_ok hc)
  | .recursiveKey name, _, _, hl, _, hbase, hc =>
    upholds_plainStep hl hbase (fun _ hv => Selection.holds_recursiveKey hv name)
      (Compilation.ofEval_eq_ok hc)
  | .recursiveWildcard, _, _, hl, _, hbase, hc =>
    upholds_plainStep hl hbase (fun _ hv => Selection.holds_recursiveWildcard hv)
      (Compilation.ofEval_eq_ok hc)
  | .recursiveIndex _, _, _, hl, _, hbase, hc =>
    upholds_indexedStep hl hbase (fun i _ hv => Selection.holds_recursiveIndex hv i)
      (Compilation.ofEval_eq_ok hc)
  | .attributeFinder l' name arguments opts head, _, _, _, he, hbase, hc => by
    obtain ⟨hl', he⟩ := List.forall_mem_cons.1 he
    obtain ⟨hoptions, harguments⟩ := List.forall_mem_append.1 he
    simp only [Compile.step] at hc
    split at hc
    · cases hc
    · obtain ⟨o, ho, hc⟩ := bind_eq_ok hc
      obtain ⟨cs, hcs, hc⟩ := bind_eq_ok hc
      cases hc
      refine AttributeFinder.upholds_compile hl' (List.forall_mem_cons.2 ⟨hbase, ?_⟩)
      exact List.forall_mem_cons.2
        ⟨h.options opts hoptions ho, h.expressions arguments harguments hcs⟩

end

end Scope.Upholds

end PolicyExpr
