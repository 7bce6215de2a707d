import PolicyExpr.Proofs.Declaration
import PolicyExpr.Proofs.Faults

/-!
# Trees that write no text

Text is written by `+` and by the library's function for it, and by nothing else. A tree compiles,
evaluates and is polled without any fault unless it or a definition it may read writes text, and
then every fault is that of a number which really cannot be written.
-/
namespace PolicyExpr

variable {texts : Bool}

/-! ## Functions -/

namespace FunctionRegistry

/-- A function of one argument faults where it does on that. -/
theorem ends_unary {H : Fault → Prop} {f : String → Value → Eval (Except Failure Value)}
    {name : String} (h : ∀ v, Ends H (fun _ => True) (f name v)) (args : List Value) :
    Ends H (fun _ => True) (NativeFunction.unary f name args) := by
  unfold NativeFunction.unary
  split
  · exact h _
  · trivial

theorem ends_onText {H : Fault → Prop} (f : String → String) (name : String)
    (args : List Value) : Ends H (fun _ => True) (NativeFunction.onText f name args) := by
  unfold NativeFunction.onText
  refine ends_unary (fun v => ?_) args
  trivial

theorem ends_length {H : Fault → Prop} (name : String) (args : List Value) :
    Ends H (fun _ => True) (NativeFunction.length name args) := by
  unfold NativeFunction.length
  refine ends_unary (fun v => ?_) args
  trivial

theorem ends_toText (name : String) (args : List Value) :
    Ends Fault.Unwritable (fun _ => True) (NativeFunction.toText name args) := by
  unfold NativeFunction.toText
  refine ends_unary (fun v => (Value.unwritable_of_plainText v).bind fun _ _ => ?_) args
  trivial

/-- A registry faults where its functions do. -/
theorem sound_evaluate {r : FunctionRegistry}
    (h : ∀ name f, r.functions.get? name = some f → ∀ args,
      Ends (fun fault => name = "standard.toString" ∧ fault.Unwritable) (fun _ => True)
        (f name args)) : r.evaluate.Sound := by
  intro call
  unfold evaluate
  split
  · trivial
  · next f hf =>
    refine (h call.name f hf call.arguments).bind fun result _ => ?_
    cases result <;> trivial

/-- Of the library's functions one writes a text, and no other faults. -/
theorem sound_standard : standard.evaluate.Sound := by
  refine sound_evaluate fun name f hf args => ?_
  simp only [standard, Table.ofList, List.foldl, Table.get?_insert, Std.compare_eq_iff_eq] at hf
  split at hf
  · cases hf
    exact ends_onText Text.toUpper name args
  split at hf
  · cases hf
    exact ends_onText Text.toLower name args
  split at hf
  · cases hf
    trivial
  split at hf
  · cases hf
    trivial
  split at hf
  · next hname =>
    cases hf
    exact (ends_toText name args).weaken fun _ hf => ⟨hname, hf⟩
  split at hf
  · cases hf
    exact ends_length name args
  · cases hf

end FunctionRegistry

theorem Compile.sound_call {broker : FunctionBroker} {name : String} {l : SourceLocation}
    {ctx : Context} (hbroker : broker.Sound) (hctx : ctx.Sound)
    (hname : texts = true ∨ name ≠ "standard.toString") (vs : List Value) :
    (Compile.call broker name l ctx vs).Sound texts := by
  unfold Compile.call
  split
  · trivial
  · refine Ends.bind (Q := fun _ => True) ?_ fun _ _ => trivial
    cases hfunctions : ctx.functionBroker with
    | none => exact hbroker.calls hname
    | some own => exact (hctx own hfunctions).calls hname

/-! ## Operators -/

namespace Operator

theorem sound_onOne {op : Value → Eval Value} (h : ∀ v, (op v).Sound texts) (vs : List Value) :
    (onOne op vs).Sound texts := by
  unfold onOne
  split
  · exact h _
  · trivial

theorem sound_onTwo {op : Value → Value → Eval Value} (h : ∀ a b, (op a b).Sound texts)
    (vs : List Value) : (onTwo op vs).Sound texts := by
  unfold onTwo
  split
  · exact h _ _
  · trivial

theorem sound_chainFrom {ops : List (Value → Value → Eval Value)}
    (h : ∀ op ∈ ops, ∀ a b, (op a b).Sound texts) (acc : Value) (vs : List Value) :
    (chainFrom acc ops vs).Sound texts := by
  induction ops generalizing acc vs with
  | nil => cases vs <;> trivial
  | cons op ops ih =>
    cases vs with
    | nil => trivial
    | cons v vs =>
      exact (h op (by simp) acc v).bind fun acc _ =>
        ih (fun op' hop => h op' (by simp [hop])) acc vs

theorem sound_chain {ops : List (Value → Value → Eval Value)}
    (h : ∀ op ∈ ops, ∀ a b, (op a b).Sound texts) (vs : List Value) :
    (chain ops vs).Sound texts := by
  cases vs with
  | nil => trivial
  | cons v vs => exact sound_chainFrom h v vs

theorem sound_add (htexts : texts = true) (a b : Value) : (add a b).Sound texts := by
  unfold add
  split
  · split
    · trivial
    · exact (Value.sound_plainText htexts b).bind fun _ _ => trivial
  · trivial

theorem sound_additive {op : AdditiveOperator} (h : texts = true ∨ op ≠ .plus) (a b : Value) :
    (op.apply a b).Sound texts := by
  cases op with
  | plus => exact sound_add (h.resolve_right fun hplus => hplus rfl) a b
  | minus => trivial

theorem sound_multiplicative (op : MultiplicativeOperator) (a b : Value) :
    (op.apply a b).Sound texts := by
  cases op <;> trivial

end Operator

/-! ## Steps with an inner expression -/

namespace Selection

variable {inner : Inner} (hinner : ∀ part position, (inner part position).Sound texts)

include hinner

theorem sound_keepWhere {α : Type} (m : Metadata) (parts : List (Part α)) :
    (keepWhere inner m parts).Sound texts := by
  induction parts generalizing m with
  | nil => trivial
  | cons p rest ih =>
    refine (hinner p.part p.position).bind fun result _ => ?_
    split
    · trivial
    · refine (ih _).bind fun kept _ => ?_
      split <;> trivial

theorem sound_mapParts {α : Type} (parts : List (Part α)) :
    (mapParts inner parts).Sound texts := by
  induction parts with
  | nil => trivial
  | cons p rest ih =>
    refine (hinner p.part p.position).bind fun v _ => ?_
    split
    · trivial
    · refine ih.bind fun mapped _ => ?_
      split <;> trivial

theorem sound_condition (base : Value) : (condition base inner).Sound texts := by
  unfold condition
  split
  · trivial
  · split
    · refine (sound_keepWhere hinner _ _).bind fun kept _ => ?_
      split <;> trivial
    · refine (sound_keepWhere hinner _ _).bind fun kept _ => ?_
      split <;> trivial
    · refine (hinner base _).bind fun result _ => ?_
      split <;> trivial

theorem sound_subtemplate (base : Value) : (subtemplate base inner).Sound texts := by
  unfold subtemplate
  split
  · trivial
  · split
    · refine (sound_mapParts hinner _).bind fun mapped _ => ?_
      split <;> trivial
    · exact (hinner base _).bind fun _ _ => trivial

end Selection

/-! ## Scopes -/

/-- A scope whose functions and definitions fault only in the ways that may arise. -/
structure Scope.Sound (texts : Bool) (scope : Scope) : Prop where
  functions : ∀ broker, scope.functionBroker = some broker → broker.Sound
  definitions : ∀ name c, scope.definitions.get? name = some c → c.Sound texts

theorem Scope.Sound.folding {scope : Scope} (h : scope.Sound texts) :
    scope.foldingContext.Sound := h.functions

/-! ## Nodes -/

namespace Compile

open Operator (onOne onTwo)

/-- A compilation whose result is sound, and whose faults may arise. -/
abbrev Sound (texts : Bool) (x : Compilation Compiled) : Prop :=
  Ends (CompileFailure.Arises texts) (Compiled.Sound texts) x

variable {l : SourceLocation} {a b c base inner : Compiled} {cs : List Compiled} {scope : Scope}

theorem sound_joined {combined : List Compiled → Eval Compiled} (hcs : ∀ c ∈ cs, c.Sound texts)
    (h : Ends (Fault.Arises texts) (Compiled.Sound texts) (combined cs)) :
    Ends (Fault.Arises texts) (Compiled.Sound texts) (joined cs combined) := by
  unfold joined
  split
  · exact hcs _ (by simp)
  · exact h

theorem sound_binary (ha : a.Sound texts) (hb : b.Sound texts) {op : Value → Value → Value} :
    Ends (Fault.Arises texts) (Compiled.Sound texts)
      (binary l a b fun a b => .ok (op a b)) :=
  Compiled.sound_combineAt (by simp [ha, hb]) (Operator.sound_onTwo fun _ _ => trivial)

theorem sound_equality (op : EqualityOperator) (ha : a.Sound texts) (hb : b.Sound texts) :
    Ends (Fault.Arises texts) (Compiled.Sound texts) (equality op l a b) := by
  unfold equality
  split
  · split
    · exact Compiled.sound_combineAt (by simp [ha]) (Operator.sound_onOne fun _ => trivial)
    · exact sound_binary ha hb
  · exact sound_binary ha hb

theorem sound_plainStep (hbase : base.Sound texts) {step : Value → Value} :
    Ends (Fault.Arises texts) (Compiled.Sound texts) (plainStep l base step) :=
  Compiled.sound_combineAt (by simp [hbase]) (Operator.sound_onOne fun _ => trivial)

theorem sound_indexedStep {α : Type} (hbase : base.Sound texts) {indices : Except Failure α}
    {step : Value → α → Value} :
    Ends (Fault.Arises texts) (Compiled.Sound texts) (indexedStep l base indices step) := by
  cases indices with
  | error f => exact Compiled.sound_constant _
  | ok i => exact sound_plainStep hbase

theorem sound_relativeStep (hscope : scope.Sound texts) {step : RelativeStep}
    {apply : Value → Selection.Inner → Eval Value} (hbase : base.Sound texts)
    (hinner : inner.Sound texts)
    (happly : ∀ v (at? : Selection.Inner), (∀ part position, (at? part position).Sound texts) →
      (apply v at?).Sound texts) :
    Ends (Fault.Arises texts) (Compiled.Sound texts)
      (relativeStep scope step l base inner apply) := by
  unfold relativeStep
  split
  · exact Compiled.sound_constant _
  · refine Compiled.sound_combineInContext (by simp [hbase]) hscope.folding fun ctx hctx =>
      Operator.sound_onOne fun v => ?_
    refine (happly v _ fun part position => ?_).bind fun _ _ => trivial
    exact hinner.evaluate _ (hctx.withRelative part position)

theorem sound_selectorStep (hscope : scope.Sound texts) (hbase : base.Sound texts)
    (hinner : inner.Sound texts) :
    Ends (Fault.Arises texts) (Compiled.Sound texts) (selectorStep scope l base inner) :=
  sound_relativeStep hscope hbase hinner fun v _ h => (h v _).bind fun _ _ => trivial

end Compile

theorem AttributeFinder.sound_values {ctx : Context} {name : String} {l : SourceLocation}
    {parameters : Value} : (AttributeFinder.values ctx name l parameters).Sound texts := by
  unfold AttributeFinder.values
  split
  · split
    · exact .values _
    · split
      · exact .values _
      · split
        · exact .values _
        · exact .map (.unopened _ _)
  · exact .values _

theorem AttributeFinder.sound_compile {name : String} {l : SourceLocation} {head : Bool}
    {cs : List Compiled} (hcs : ∀ c ∈ cs, c.Sound texts) :
    (AttributeFinder.compile name l head cs).Sound texts := by
  refine Compiled.sound_stream fun ctx hctx => ?_
  refine (Compiled.sound_subscribeAll hcs hctx).bind fun streams hstreams =>
    (Stream.sound_joinAll hstreams fun vs => show Eval.Sound texts (.ok (.array vs)) from
      trivial).bind fun parameters hparameters => ?_
  have found : Stream.Sound texts
      (.switchOver parameters fun vector => .ok (values ctx name l vector)) := by
    exact Stream.sound_switchOver hparameters fun vector => sound_values
  split
  · exact .head (by simpa using found)
  · exact found

/-! ## Trees -/

namespace Textless

mutual

/-- Whether no node of a tree writes text, under some imports. -/
def expression (imports : ImportTable) : Expression → Bool
  | .lazy _ _ operands => expressions imports operands
  | .eager _ _ operands => expressions imports operands
  | .equality _ _ left right => expression imports left && expression imports right
  | .comparison _ _ left right => expression imports left && expression imports right
  | .addition _ operands ops => ops.all (· != .plus) && expressions imports operands
  | .multiplication _ operands _ => expressions imports operands
  | .unary _ _ operand => expression imports operand
  | .basic _ b ss template => base imports b && steps imports ss && optional imports template

def expressions (imports : ImportTable) : List Expression → Bool
  | [] => true
  | e :: rest => expression imports e && expressions imports rest

def optional (imports : ImportTable) : Option Expression → Bool
  | none => true
  | some e => expression imports e

def base (imports : ImportTable) : Base → Bool
  | .group e => expression imports e
  | .literal v => literal imports v
  | .call name arguments =>
    imports.resolve name != "standard.toString" && expressions imports arguments
  | .environmentAttribute _ arguments options _ =>
    optional imports options && expressions imports arguments
  | _ => true

def literal (imports : ImportTable) : Literal → Bool
  | .array items => expressions imports items
  | .object ms => members imports ms
  | _ => true

def members (imports : ImportTable) : List Member → Bool
  | [] => true
  | .mk _ e :: rest => expression imports e && members imports rest

def steps (imports : ImportTable) : List Step → Bool
  | [] => true
  | s :: rest => step imports s && steps imports rest

def step (imports : ImportTable) : Step → Bool
  | .selector e => expression imports e
  | .condition e => expression imports e
  | .attributeFinder _ _ arguments options _ =>
    optional imports options && expressions imports arguments
  | _ => true

end

end Textless

/-- No node of the tree writes text. -/
def Expression.textless (e : Expression) (imports : ImportTable) : Bool :=
  Textless.expression imports e

/-- What is asked of a tree whose parts are asked each. -/
private theorem or_and_iff {a b : Bool} :
    (texts = true ∨ (a && b) = true) ↔ (texts = true ∨ a = true) ∧ (texts = true ∨ b = true) := by
  rw [Bool.and_eq_true, or_and_left]

namespace Compile

open Operator (onOne)

theorem ends_requireOperands (p : Production) (l : SourceLocation) (es : List Expression) :
    Ends (CompileFailure.Arises texts) (fun _ => True) (requireOperands p l es) := by
  unfold requireOperands
  split <;> trivial

theorem ends_requireOperators {ω : Type} (p : Production) (l : SourceLocation)
    (es : List Expression) (operators : List ω) :
    Ends (CompileFailure.Arises texts) (fun _ => True) (requireOperators p l es operators) := by
  unfold requireOperators
  split <;> trivial

end Compile

namespace Scope.Sound

open Compile (ends_requireOperands ends_requireOperators sound_joined sound_binary sound_equality
  sound_plainStep sound_indexedStep sound_relativeStep sound_selectorStep)

variable {scope : Scope}

mutual

/-- A tree compiles without a fault to what runs without one, where neither it nor a definition
writes text, and else with the faults of texts only. -/
theorem expression (h : scope.Sound texts) : ∀ (e : Expression),
    texts = true ∨ Textless.expression scope.imports e = true →
    Compile.Sound texts (Compile.expression scope e)
  | .lazy op l operands, he =>
    (ends_requireOperands _ l operands).bind fun _ _ =>
      (h.expressions operands he).bind fun cs hcs => Ends.ofEval <| sound_joined hcs <|
        show Ends (Fault.Arises texts) (Compiled.Sound texts) (.ok _) from Chain.sound_compile hcs
  | .eager op l operands, he =>
    (ends_requireOperands _ l operands).bind fun _ _ =>
      (h.expressions operands he).bind fun cs hcs => Ends.ofEval <| sound_joined hcs <|
        Compiled.sound_combineAt hcs fun vs => show Eval.Sound texts (.ok _) from trivial
  | .equality op l left right, he =>
    (h.expression left (or_and_iff.1 he).1).bind fun a ha =>
      (h.expression right (or_and_iff.1 he).2).bind fun b hb =>
        (sound_equality op ha hb).ofEval
  | .comparison op l left right, he =>
    (h.expression left (or_and_iff.1 he).1).bind fun a ha =>
      (h.expression right (or_and_iff.1 he).2).bind fun b hb => (sound_binary ha hb).ofEval
  | .addition l operands ops, he => by
    obtain ⟨hops, he⟩ := or_and_iff.1 he
    have sound : ∀ op ∈ ops.map AdditiveOperator.apply, ∀ a b, (op a b).Sound texts := by
      intro _ hop
      obtain ⟨op, hmem, rfl⟩ := List.mem_map.1 hop
      refine Operator.sound_additive (hops.imp id fun hops => ?_)
      simpa using List.all_eq_true.1 hops op hmem
    exact (ends_requireOperands _ l operands).bind fun _ _ =>
      (ends_requireOperators _ l operands ops).bind fun _ _ =>
        (h.expressions operands he).bind fun cs hcs => Ends.ofEval <| sound_joined hcs <|
          Compiled.sound_combineAt hcs (Operator.sound_chain sound)
  | .multiplication l operands ops, he => by
    have sound : ∀ op ∈ ops.map MultiplicativeOperator.apply, ∀ a b, (op a b).Sound texts := by
      intro _ hop
      obtain ⟨op, -, rfl⟩ := List.mem_map.1 hop
      exact Operator.sound_multiplicative op
    exact (ends_requireOperands _ l operands).bind fun _ _ =>
      (ends_requireOperators _ l operands ops).bind fun _ _ =>
        (h.expressions operands he).bind fun cs hcs => Ends.ofEval <| sound_joined hcs <|
          Compiled.sound_combineAt hcs (Operator.sound_chain sound)
  | .unary op l operand, he =>
    (h.expression operand he).bind fun c hc => Ends.ofEval <|
      Compiled.sound_combineAt (by simp [hc]) (Operator.sound_onOne fun v =>
        show Eval.Sound texts (.ok _) from trivial)
  | .basic l b ss t, he => by
    obtain ⟨he, ht⟩ := or_and_iff.1 he
    obtain ⟨hb, hs⟩ := or_and_iff.1 he
    exact (h.base l b hb).bind fun c hc => (h.steps l ss c hc hs).bind fun c hc =>
      h.subtemplate l c t hc ht

theorem expressions (h : scope.Sound texts) : ∀ (es : List Expression),
    texts = true ∨ Textless.expressions scope.imports es = true →
    Ends (CompileFailure.Arises texts) (fun cs => ∀ c ∈ cs, c.Sound texts)
      (Compile.expressions scope es)
  | [], _ => fun _ hmem => nomatch hmem
  | e :: rest, he => by
    obtain ⟨he, hrest⟩ := or_and_iff.1 he
    refine (h.expression e he).bind fun c hc => (h.expressions rest hrest).bind
      fun cs hcs => show ∀ d ∈ c :: cs, d.Sound texts from ?_
    simpa using ⟨hc, hcs⟩

theorem options (h : scope.Sound texts) : ∀ (o : Option Expression),
    texts = true ∨ Textless.optional scope.imports o = true →
    Compile.Sound texts (Compile.options scope o)
  | none, _ => Compiled.sound_constant _
  | some e, he => h.expression e he

theorem subtemplate (h : scope.Sound texts) (l : SourceLocation) (c : Compiled) :
    ∀ (t : Option Expression), c.Sound texts →
    texts = true ∨ Textless.optional scope.imports t = true →
    Compile.Sound texts (Compile.subtemplate scope l c t)
  | none, hc, _ => hc
  | some e, hc, he =>
    (h.expression e he).bind fun _ htemplate => Ends.ofEval <|
      sound_relativeStep h hc htemplate fun v _ hinner => Selection.sound_subtemplate hinner v

theorem base (h : scope.Sound texts) (l : SourceLocation) : ∀ (b : Base),
    texts = true ∨ Textless.base scope.imports b = true →
    Compile.Sound texts (Compile.base scope l b)
  | .group e, he => h.expression e he
  | .literal v, he => h.literal l v he
  | .call name arguments, he => by
    obtain ⟨hname, he⟩ := or_and_iff.1 he
    unfold Compile.base
    split
    · trivial
    · split
      · trivial
      · next broker hbroker =>
        refine (h.expressions arguments he).bind fun cs hcs => Ends.ofEval <|
          Compiled.sound_combineInContext hcs h.folding fun ctx hctx => ?_
        exact Compile.sound_call (h.functions broker hbroker) hctx (hname.imp id (by simp))
  | .identifier name, _ => by
    unfold Compile.base
    split
    · trivial
    · split
      · next c hc => exact h.definitions name c hc
      · exact Compiled.sound_pure fun _ _ => trivial
  | .relative, _ => Compiled.sound_pure fun _ _ => trivial
  | .relativePosition, _ => Compiled.sound_pure fun _ _ => trivial
  | .environmentAttribute name arguments opts head, he => by
    obtain ⟨ho, he⟩ := or_and_iff.1 he
    unfold Compile.base
    split
    · trivial
    · refine (h.options opts ho).bind fun o ho => (h.expressions arguments he).bind
        fun cs hcs => AttributeFinder.sound_compile ?_
      simpa using ⟨Compiled.sound_constant _, ho, hcs⟩

theorem literal (h : scope.Sound texts) (l : SourceLocation) : ∀ (v : Literal),
    texts = true ∨ Textless.literal scope.imports v = true →
    Compile.Sound texts (Compile.literal scope l v)
  | .number raw, _ => by
    unfold Compile.literal
    split <;> exact Compiled.sound_constant _
  | .text _, _ => Compiled.sound_constant _
  | .boolean _, _ => Compiled.sound_constant _
  | .null, _ => Compiled.sound_constant _
  | .undefined, _ => Compiled.sound_constant _
  | .array items, he =>
    (h.expressions items he).bind fun cs hcs => Ends.ofEval <|
      Compiled.sound_combine hcs fun vs => show Eval.Sound texts (.ok _) from trivial
  | .object ms, he =>
    (h.members ms he).bind fun cs hcs => Ends.ofEval <|
      Compiled.sound_combine hcs fun vs => show Eval.Sound texts (.ok _) from trivial

theorem members (h : scope.Sound texts) : ∀ (ms : List Member),
    texts = true ∨ Textless.members scope.imports ms = true →
    Ends (CompileFailure.Arises texts) (fun cs => ∀ c ∈ cs, c.Sound texts)
      (Compile.members scope ms)
  | [], _ => fun _ hmem => nomatch hmem
  | .mk _ e :: rest, he => by
    obtain ⟨he, hrest⟩ := or_and_iff.1 he
    refine (h.expression e he).bind fun c hc => (h.members rest hrest).bind
      fun cs hcs => show ∀ d ∈ c :: cs, d.Sound texts from ?_
    simpa using ⟨hc, hcs⟩

theorem steps (h : scope.Sound texts) (l : SourceLocation) : ∀ (ss : List Step) (c : Compiled),
    c.Sound texts → texts = true ∨ Textless.steps scope.imports ss = true →
    Compile.Sound texts (Compile.steps scope l c ss)
  | [], _, hc, _ => hc
  | s :: rest, c, hc, he =>
    (h.step l s c hc (or_and_iff.1 he).1).bind fun c hc =>
      h.steps l rest c hc (or_and_iff.1 he).2

theorem step (h : scope.Sound texts) (l : SourceLocation) : ∀ (s : Step) (c : Compiled),
    c.Sound texts → texts = true ∨ Textless.step scope.imports s = true →
    Compile.Sound texts (Compile.step scope l c s)
  | .key _, _, hc, _ => (sound_plainStep hc).ofEval
  | .wildcard, _, hc, _ => (sound_plainStep hc).ofEval
  | .index _, _, hc, _ => (sound_indexedStep hc).ofEval
  | .selector e, c, hc, he =>
    (h.expression e he).bind fun selector hselector =>
      (sound_selectorStep h hc hselector).ofEval
  | .slice _ _ _, _, hc, _ => (sound_indexedStep hc).ofEval
  | .condition e, c, hc, he =>
    (h.expression e he).bind fun condition hcondition => Ends.ofEval <|
      sound_relativeStep h hc hcondition fun v _ hinner => Selection.sound_condition hinner v
  | .indexUnion _, _, hc, _ => (sound_indexedStep hc).ofEval
  | .keyUnion _, _, hc, _ => (sound_plainStep hc).ofEval
  | .recursiveKey _, _, hc, _ => (sound_plainStep hc).ofEval
  | .recursiveWildcard, _, hc, _ => (sound_plainStep hc).ofEval
  | .recursiveIndex _, _, hc, _ => (sound_indexedStep hc).ofEval
  | .attributeFinder l' name arguments opts head, c, hc, he => by
    obtain ⟨ho, he⟩ := or_and_iff.1 he
    unfold Compile.step
    split
    · trivial
    · refine (h.options opts ho).bind fun o ho => (h.expressions arguments he).bind
        fun cs hcs => AttributeFinder.sound_compile ?_
      simpa using ⟨hc, ho, hcs⟩

end

end Scope.Sound

/-! ## Definitions -/

/-- A scope that comes about by definitions, each a constant or a tree. Where no text is to be
written none of these trees writes one. -/
inductive Scope.Built (texts : Bool) : Scope → Prop where
  | start {functions : Option FunctionBroker} {imports : ImportTable}
    (h : ∀ broker, functions = some broker → broker.Sound) :
    Built texts ⟨.empty, functions, imports⟩
  | constant {scope : Scope} {name : String} {v : Value} (hscope : Built texts scope) :
    Built texts (scope.bind name (.constant v))
  | compiled {scope origin : Scope} {name : String} {e : Expression} {c : Compiled}
    (hscope : Built texts scope) (horigin : Built texts origin)
    (he : texts = true ∨ e.textless origin.imports = true) (hc : e.compile origin = .ok c) :
    Built texts (scope.bind name c)

namespace Scope

theorem Sound.bind {scope : Scope} (h : scope.Sound texts) (name : String) {c : Compiled}
    (hc : c.Sound texts) : (scope.bind name c).Sound texts where
  functions := h.functions
  definitions other d hd := by
    rw [definitions_bind] at hd
    split at hd
    · cases hd
      exact hc
    · exact h.definitions other d hd

theorem Built.sound {scope : Scope} (h : scope.Built texts) : scope.Sound texts := by
  induction h with
  | start h => exact ⟨h, nofun⟩
  | constant _ ih => exact ih.bind _ (Compiled.sound_constant _)
  | compiled _ _ he hc ih iho => exact ih.bind _ ((iho.expression _ he).result hc)

end Scope

/-- Compilation, evaluation, subscription and every run of polls fault only for a number that
cannot be written, and never where neither the tree nor a definition writes text. -/
theorem Expression.faults_only_in_texts {e : Expression} {scope : Scope}
    (hscope : scope.Built texts) (he : texts = true ∨ e.textless scope.imports = true) :
    (∀ f, e.compile scope = .error (.fault f) → f.Arises texts) ∧
      ∀ c ctx, e.compile scope = .ok c → ctx.Sound →
        (∀ f, c.evaluate ctx = .error f → f.Arises texts) ∧
        (∀ f, c.subscribe ctx = .error f → f.Arises texts) ∧
        ∀ s, c.subscribe ctx = .ok s → ∀ schedule j f,
          s.pollEach schedule j = .error (.fault f) → f.Arises texts := by
  have compiles : Compile.Sound texts (e.compile scope) := hscope.sound.expression e he
  refine ⟨fun f hf => compiles.failure hf, fun c ctx hc hctx => ?_⟩
  have sound := compiles.result hc
  refine ⟨fun f => (sound.evaluate ctx hctx).failure, fun f => (sound.subscribe ctx hctx).failure,
    fun s hs schedule j f hf => ?_⟩
  exact (Stream.sound_pollEach schedule j ((sound.subscribe ctx hctx).result hs)).failure hf

/-- `standard.length(<x>) - <y>` never faults, whatever the sources do. -/
theorem Expression.faultless_difference :
    let standard := FunctionRegistry.standard.evaluate
    let finder (name : String) : Expression :=
      .basic .unknown (.environmentAttribute name [] none false) [] none
    let e : Expression := .addition .unknown
      [.basic .unknown (.call "standard.length" [finder "x"]) [] none, finder "y"] [.minus]
    let ctx := Context.empty.withFunctionBroker standard
    ∃ c, e.compile ⟨.empty, some standard, .empty⟩ = .ok c ∧ ∀ attributes,
      ∃ s, c.subscribe (ctx.withAttributeBroker attributes) = .ok s ∧
        ∀ schedule j f, s.pollEach schedule j ≠ .error (.fault f) := by
  intro standard finder e ctx
  have built : Scope.Built false ⟨.empty, some standard, .empty⟩ := .start fun broker hbroker => by
    cases hbroker
    exact FunctionRegistry.sound_standard
  obtain ⟨c, hc⟩ : ∃ c, e.compile ⟨.empty, some standard, .empty⟩ = .ok c := by
    apply Exists.intro
    rfl
  refine ⟨c, hc, fun attributes => ?_⟩
  have sound : (ctx.withAttributeBroker attributes).Sound := by
    intro broker hbroker
    cases hbroker
    exact FunctionRegistry.sound_standard
  obtain ⟨-, hsubscribe, hpolls⟩ :=
    (Expression.faults_only_in_texts built (.inr rfl)).2 c _ hc sound
  cases hs : c.subscribe _ with
  | error f => exact nomatch (hsubscribe f hs).1
  | ok s => exact ⟨s, rfl, fun schedule j f hf => nomatch (hpolls s hs schedule j f hf).1⟩

theorem Compile.expression_number {raw : String} {n : Decimal} (h : Decimal.ofText raw = .ok n)
    (scope : Scope) : Compile.expression scope (.number raw) = .ok (.constant (.number n)) := by
  simp only [Expression.number, Expression.ofLiteral, Expression.ofBase, Compile.expression,
    Compile.base, Compile.literal, h]
  rfl

/-- A sum of a text and a number that cannot be written keeps a tree from compiling, even where
the value of the tree does not depend on it. -/
theorem Expression.compile_unwritable {raw : String} {n : Decimal}
    (hraw : Decimal.ofText raw = .ok n) (hn : n.toJson? = none) (scope : Scope) (s : String)
    (l l' : SourceLocation) :
    (Expression.lazy .disjunction l [.boolean true,
      .addition l' [.text s, .number raw] [.plus]]).compile scope =
      .error (.fault (.unwritable n)) := by
  have text : Compile.expression scope (.text s) = .ok (.constant (.text s)) := rfl
  -- The sum is folded, although nothing reads it.
  have sum : Compile.expression scope (.addition l' [.text s, .number raw] [.plus]) =
      .error (.fault (.unwritable n)) := by
    simp only [Compile.expression, Compile.expressions, text, Compile.expression_number hraw]
    change Compilation.ofEval
      (Operator.chain [AdditiveOperator.plus.apply] [.text s, .number n] >>= _ >>= _) = _
    rw [Value.number, Value.ofKind, Operator.chain_unwritable hn]
    rfl
  simp only [Expression.compile, Compile.expression.eq_1, Compile.expressions, sum]
  rfl

/-- `true || ("a" + 1e400)` does not compile, and has no defect. -/
theorem Expression.faults_beyond_doubles :
    ¬∀ (e : Expression) f,
      e.compile ⟨.empty, some FunctionRegistry.standard.evaluate, .empty⟩ ≠ .error (.fault f) := by
  have hraw : Decimal.ofText "1e400" = .ok (.ofNat (Nat.pow 10 400)) := by decide +kernel
  have hn : (Decimal.ofNat (Nat.pow 10 400)).toJson? = none := by decide +kernel
  exact fun h => h _ _ (Expression.compile_unwritable hraw hn _ "a" .unknown .unknown)

end PolicyExpr
