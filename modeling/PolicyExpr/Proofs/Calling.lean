import PolicyExpr.Proofs.Adequacy
import PolicyExpr.Proofs.Agreement
import PolicyExpr.Proofs.Substitution

/-!
# Who answers a call

A call with an argument that is no constant is not evaluated on its own before there is a request,
and then the broker of the context answers it. But where it stands inside the inner expression of a
step that is applied when the tree is compiled, it is evaluated then, and the broker of the scope
answers it, whatever the context brings. The main statement puts a definition in the place of the
call that asks the one broker and has no other: what the tree compiles to agrees.

This rests on `alike_expression`, an induction over trees. Where two meanings of a definition agree
with the broker of each of its uses, the trees that use it agree.
-/
namespace PolicyExpr

open Compiled (combine combineInContext natureOf)

/-! ## Phases -/

/-- When an expression is evaluated: while the tree is compiled, or in the context of a request. -/
inductive Phase where
  | compilation
  | request
  deriving DecidableEq, Repr

/-- The broker of a phase. -/
def Phase.broker (ofScope ofContext : FunctionBroker) : Phase → FunctionBroker
  | compilation => ofScope
  | request => ofContext

/-- Whether a step with an inner expression is applied while the tree is compiled. -/
def Compiled.folds (base inner : Compiled) : Bool := base.nature == .constant && !inner.isScoped

namespace Uses

/-- The uses behind what has to be compiled before. -/
def after (c : Compilation Compiled) (uses : Compiled → List Phase) : List Phase :=
  match c with
  | .ok c => uses c
  | .error _ => []

/-- The uses in the inner expression of a step. If the step is folded they are evaluated then. -/
def within (base : Compiled) (inner : Compilation Compiled) (uses : List Phase) : List Phase :=
  match inner with
  | .ok inner => if base.folds inner then uses.map fun _ => .compilation else uses
  | .error _ => uses

mutual

/-- The phases in which the uses of a name in a tree are evaluated, from first to last. -/
def expression (scope : Scope) (x : String) : Expression → List Phase
  | .lazy _ _ operands => expressions scope x operands
  | .eager _ _ operands => expressions scope x operands
  | .equality _ _ left right => expression scope x left ++ expression scope x right
  | .comparison _ _ left right => expression scope x left ++ expression scope x right
  | .addition _ operands _ => expressions scope x operands
  | .multiplication _ operands _ => expressions scope x operands
  | .unary _ _ operand => expression scope x operand
  | .basic l b ss t =>
    base scope x b ++ after (Compile.base scope l b) fun c =>
      steps scope x l c ss ++ after (Compile.steps scope l c ss) fun c => template scope x c t

def expressions (scope : Scope) (x : String) : List Expression → List Phase
  | [] => []
  | e :: rest => expression scope x e ++ expressions scope x rest

def options (scope : Scope) (x : String) : Option Expression → List Phase
  | none => []
  | some e => expression scope x e

def template (scope : Scope) (x : String) (c : Compiled) : Option Expression → List Phase
  | none => []
  | some e => within c (Compile.expression scope e) (expression scope x e)

def base (scope : Scope) (x : String) : Base → List Phase
  | .group e => expression scope x e
  | .literal v => literal scope x v
  | .call _ arguments => expressions scope x arguments
  | .identifier name => if name = x then [.request] else []
  | .relative => []
  | .relativePosition => []
  | .environmentAttribute _ arguments opts _ =>
    options scope x opts ++ expressions scope x arguments

def literal (scope : Scope) (x : String) : Literal → List Phase
  | .array items => expressions scope x items
  | .object ms => members scope x ms
  | _ => []

def members (scope : Scope) (x : String) : List Member → List Phase
  | [] => []
  | .mk _ e :: rest => expression scope x e ++ members scope x rest

def steps (scope : Scope) (x : String) (l : SourceLocation) (c : Compiled) :
    List Step → List Phase
  | [] => []
  | s :: rest =>
    step scope x c s ++ after (Compile.step scope l c s) fun c => steps scope x l c rest

def step (scope : Scope) (x : String) (c : Compiled) : Step → List Phase
  | .selector e => within c (Compile.expression scope e) (expression scope x e)
  | .condition e => within c (Compile.expression scope e) (expression scope x e)
  | .attributeFinder _ _ arguments opts _ =>
    options scope x opts ++ expressions scope x arguments
  | _ => []

end

end Uses

/-- The phases in which the uses of a local definition in a tree are evaluated: with the request,
unless they stand inside of a step that is folded. -/
def Expression.uses (e : Expression) (scope : Scope) (x : String) : List Phase :=
  Uses.expression scope x e

/-! ## Steps -/

namespace Compile

open Compiled (Agree)
open Compilation (ofEval)

variable {b b₀ : FunctionBroker} {scope : Scope} {l : SourceLocation} {cs : List Compiled}
  {c₁ c₂ : Compiled}

section Steps

variable {base base' inner inner' : Compiled}

/-- The inner expression of a folded step is evaluated with the broker of the scope, that of any
other step with the broker of the context. -/
theorem alike_relativeStep {step : RelativeStep} {apply : Value → Selection.Inner → Eval Value}
    (hfunctions : scope.functionBroker = some b₀) (hbase : base.Agree b base')
    (hinner : inner.Agree (if base'.folds inner' then b₀ else b) inner') :
    Alike (Agree b) (relativeStep scope step l base inner apply)
      (relativeStep scope step l base' inner' apply) := by
  have hfolds : (inner.isScoped = false ∧ natureOf [base] = .constant) ↔
      base'.folds inner' = true := by
    have hnature : natureOf [base] = .constant ↔ base'.nature = .constant := by
      simp [Compiled.natureOf_eq_constant, hbase.nature]
    simp [Compiled.folds, hnature, hinner.scope, and_comm]
  have rebound {o : FunctionBroker} (ho : inner.Agree o inner') (ctx : Context)
      (hctx : ctx.functionBroker = some o) (part position : Value) :
      inner.evaluate (ctx.withRelative part position) =
        inner'.evaluate (ctx.withRelative part position) :=
    ho.evaluate (ctx.withRelative part position) hctx
  unfold relativeStep
  rw [hinner.nature, hinner.scope]
  split
  · exact .ok (.refl _)
  · refine Compiled.alike_combineInContext (.cons hbase .nil) (fun hreads hconstant => ?_)
      fun hlate ctx hctx => ?_
    · rw [if_pos (hfolds.1 ⟨hinner.scope.trans hreads, hconstant⟩)] at hinner
      simp only [rebound hinner scope.foldingContext hfunctions]
    · rw [← hinner.scope] at hlate
      rw [if_neg (fun h => hlate (hfolds.2 h))] at hinner
      simp only [rebound hinner ctx hctx]

/-- Two meanings of a definition agree where it is used, each time with the broker of that phase. -/
abbrev Interchangeable (b₀ b : FunctionBroker) (c₁ c₂ : Compiled) (uses : List Phase) : Prop :=
  ∀ p ∈ uses, c₁.Agree (p.broker b₀ b) c₂

/-- Inside a folded step all that counts is the broker of the scope, outside that of the context. -/
theorem interchangeable_within {uses : List Phase}
    (h : Interchangeable b₀ b c₁ c₂ (Uses.within base (.ok inner) uses)) :
    Interchangeable b₀ (if base.folds inner then b₀ else b) c₁ c₂ uses := by
  intro p hp
  simp only [Uses.within] at h
  split at h
  next hfolds =>
    rw [if_pos hfolds]
    have agree := h .compilation (List.mem_map_of_mem hp)
    cases p <;> exact agree
  next hfolds =>
    rw [if_neg hfolds]
    exact h p hp

/-- Steps with inner expressions that agree with each broker with which their uses do. -/
theorem alike_within {step : RelativeStep} {apply : Value → Selection.Inner → Eval Value}
    {inner inner' : Compilation Compiled} {uses : List Phase}
    (hfunctions : scope.functionBroker = some b₀) (hbase : base.Agree b base')
    (hinner : ∀ b, Interchangeable b₀ b c₁ c₂ uses → Alike (Agree b) inner inner')
    (h : Interchangeable b₀ b c₁ c₂ (Uses.within base' inner' uses)) :
    Alike (Agree b)
      (inner >>= fun inner => ofEval (relativeStep scope step l base inner apply))
      (inner' >>= fun inner => ofEval (relativeStep scope step l base' inner apply)) := by
  cases inner' with
  | error e =>
    -- what does not compile is not folded either
    exact (hinner b h).bind fun _ _ hinner' _ => nomatch hinner'
  | ok compiled =>
    refine (hinner _ (interchangeable_within h)).bind fun _ _ hinner' agree => ?_
    cases hinner'
    exact (alike_relativeStep hfunctions hbase agree).ofEval

end Steps

/-! ## Trees -/

variable {x : String}

mutual

/-- A tree compiles alike with two meanings of a definition that agree where the tree uses it. The
induction goes over all brokers of the context, because the broker of the scope takes their place
inside of a folded step. -/
theorem alike_expression (hfunctions : scope.functionBroker = some b₀) :
    ∀ (e : Expression) (b : FunctionBroker),
    Interchangeable b₀ b c₁ c₂ (Uses.expression (scope.bind x c₂) x e) →
    Alike (Agree b) (expression (scope.bind x c₁) e) (expression (scope.bind x c₂) e)
  | .lazy op l operands, b, h => by
    refine .bind_same fun _ => (alike_expressions hfunctions operands b h).bind fun _ _ _ hcs => ?_
    exact (alike_joined hcs (.ok (Chain.agree_compile hcs))).ofEval
  | .eager op l operands, b, h => by
    refine .bind_same fun _ => (alike_expressions hfunctions operands b h).bind fun _ _ _ hcs => ?_
    exact (alike_joined hcs (Compiled.alike_combineAt hcs)).ofEval
  | .equality op l left right, b, h => by
    obtain ⟨hleft, hright⟩ := List.forall_mem_append.1 h
    refine (alike_expression hfunctions left b hleft).bind fun _ _ _ ha => ?_
    refine (alike_expression hfunctions right b hright).bind fun _ _ _ hc => ?_
    exact (alike_equality op ha hc).ofEval
  | .comparison op l left right, b, h => by
    obtain ⟨hleft, hright⟩ := List.forall_mem_append.1 h
    refine (alike_expression hfunctions left b hleft).bind fun _ _ _ ha => ?_
    refine (alike_expression hfunctions right b hright).bind fun _ _ _ hc => ?_
    exact (alike_binary ha hc).ofEval
  | .addition l operands ops, b, h => by
    refine .bind_same fun _ => .bind_same fun _ => ?_
    refine (alike_expressions hfunctions operands b h).bind fun _ _ _ hcs => ?_
    exact (alike_joined hcs (Compiled.alike_combineAt hcs)).ofEval
  | .multiplication l operands ops, b, h => by
    refine .bind_same fun _ => .bind_same fun _ => ?_
    refine (alike_expressions hfunctions operands b h).bind fun _ _ _ hcs => ?_
    exact (alike_joined hcs (Compiled.alike_combineAt hcs)).ofEval
  | .unary op l operand, b, h => by
    refine (alike_expression hfunctions operand b h).bind fun _ _ _ hc => ?_
    exact (Compiled.alike_combineAt (.cons hc .nil)).ofEval
  | .basic l d ss t, b, h => by
    obtain ⟨hbase, hrest⟩ := List.forall_mem_append.1 h
    refine (alike_base hfunctions l d b hbase).bind fun _ _ hc agree => ?_
    simp only [hc, Uses.after] at hrest
    obtain ⟨hsteps, htemplate⟩ := List.forall_mem_append.1 hrest
    refine (alike_steps hfunctions l ss agree hsteps).bind fun _ _ hc agree => ?_
    simp only [hc] at htemplate
    exact alike_subtemplate hfunctions l t agree htemplate

theorem alike_expressions (hfunctions : scope.functionBroker = some b₀) :
    ∀ (es : List Expression) (b : FunctionBroker),
    Interchangeable b₀ b c₁ c₂ (Uses.expressions (scope.bind x c₂) x es) →
    Alike (List.Forall₂ (Agree b)) (expressions (scope.bind x c₁) es)
      (expressions (scope.bind x c₂) es)
  | [], _, _ => .ok .nil
  | e :: rest, b, h => by
    obtain ⟨he, hrest⟩ := List.forall_mem_append.1 h
    refine (alike_expression hfunctions e b he).bind fun _ _ _ hc => ?_
    refine (alike_expressions hfunctions rest b hrest).bind fun _ _ _ hcs => ?_
    exact .ok (.cons hc hcs)

theorem alike_options (hfunctions : scope.functionBroker = some b₀) :
    ∀ (o : Option Expression) (b : FunctionBroker),
    Interchangeable b₀ b c₁ c₂ (Uses.options (scope.bind x c₂) x o) →
    Alike (Agree b) (options (scope.bind x c₁) o) (options (scope.bind x c₂) o)
  | none, _, _ => .ok (.refl _)
  | some e, b, h => alike_expression hfunctions e b h

theorem alike_subtemplate (hfunctions : scope.functionBroker = some b₀) (l : SourceLocation) :
    ∀ (t : Option Expression) {b : FunctionBroker} {c c' : Compiled}, c.Agree b c' →
    Interchangeable b₀ b c₁ c₂ (Uses.template (scope.bind x c₂) x c' t) →
    Alike (Agree b) (subtemplate (scope.bind x c₁) l c t) (subtemplate (scope.bind x c₂) l c' t)
  | none, _, _, _, hc, _ => .ok hc
  | some e, _, _, _, hc, h => alike_within hfunctions hc (alike_expression hfunctions e) h

theorem alike_base (hfunctions : scope.functionBroker = some b₀) (l : SourceLocation) :
    ∀ (d : Base) (b : FunctionBroker),
    Interchangeable b₀ b c₁ c₂ (Uses.base (scope.bind x c₂) x d) →
    Alike (Agree b) (base (scope.bind x c₁) l d) (base (scope.bind x c₂) l d)
  | .group e, b, h => alike_expression hfunctions e b h
  | .literal v, b, h => alike_literal hfunctions l v b h
  | .call name arguments, b, h => by
    have bound (c : Compiled) : (scope.bind x c).functionBroker = some b₀ := hfunctions
    simp only [base, bound]
    split
    · exact .error _
    · refine (alike_expressions hfunctions arguments b h).bind fun _ _ _ hcs => ?_
      exact (Compiled.alike_combineInContext hcs (fun _ _ => rfl) fun _ _ _ => rfl).ofEval
  | .identifier name, b, h => by
    have bound₁ := scope.definitions_bind x name c₁
    have bound₂ := scope.definitions_bind x name c₂
    simp only [base]
    split
    · exact .error _
    · rw [bound₁, bound₂]
      by_cases hname : name = x
      · rw [if_pos hname, if_pos hname]
        exact .ok (h .request (by simp [Uses.base, hname]))
      · rw [if_neg hname, if_neg hname]
        exact .same Agree.refl _
  | .relative, _, _ => .ok (Agree.refl _)
  | .relativePosition, _, _ => .ok (Agree.refl _)
  | .environmentAttribute name arguments opts head, b, h => by
    obtain ⟨hopts, harguments⟩ := List.forall_mem_append.1 h
    simp only [base]
    split
    · exact .error _
    · refine (alike_options hfunctions opts b hopts).bind fun _ _ _ ho => ?_
      refine (alike_expressions hfunctions arguments b harguments).bind fun _ _ _ hcs => ?_
      exact .ok (agree_finder (.cons (.refl _) (.cons ho hcs)))

theorem alike_literal (hfunctions : scope.functionBroker = some b₀) (l : SourceLocation) :
    ∀ (v : Literal) (b : FunctionBroker),
    Interchangeable b₀ b c₁ c₂ (Uses.literal (scope.bind x c₂) x v) →
    Alike (Agree b) (literal (scope.bind x c₁) l v) (literal (scope.bind x c₂) l v)
  | .number _, _, _ => .same Agree.refl _
  | .text _, _, _ => .same Agree.refl _
  | .boolean _, _, _ => .same Agree.refl _
  | .null, _, _ => .same Agree.refl _
  | .undefined, _, _ => .same Agree.refl _
  | .array items, b, h => by
    refine (alike_expressions hfunctions items b h).bind fun _ _ _ hcs => ?_
    exact (Compiled.alike_combine hcs).ofEval
  | .object ms, b, h => by
    refine (alike_members hfunctions ms b h).bind fun _ _ _ hcs => ?_
    exact (Compiled.alike_combine hcs).ofEval

theorem alike_members (hfunctions : scope.functionBroker = some b₀) :
    ∀ (ms : List Member) (b : FunctionBroker),
    Interchangeable b₀ b c₁ c₂ (Uses.members (scope.bind x c₂) x ms) →
    Alike (List.Forall₂ (Agree b)) (members (scope.bind x c₁) ms) (members (scope.bind x c₂) ms)
  | [], _, _ => .ok .nil
  | .mk _ e :: rest, b, h => by
    obtain ⟨he, hrest⟩ := List.forall_mem_append.1 h
    refine (alike_expression hfunctions e b he).bind fun _ _ _ hc => ?_
    refine (alike_members hfunctions rest b hrest).bind fun _ _ _ hcs => ?_
    exact .ok (.cons hc hcs)

theorem alike_steps (hfunctions : scope.functionBroker = some b₀) (l : SourceLocation) :
    ∀ (ss : List Step) {b : FunctionBroker} {c c' : Compiled}, c.Agree b c' →
    Interchangeable b₀ b c₁ c₂ (Uses.steps (scope.bind x c₂) x l c' ss) →
    Alike (Agree b) (steps (scope.bind x c₁) l c ss) (steps (scope.bind x c₂) l c' ss)
  | [], _, _, _, hc, _ => .ok hc
  | s :: rest, _, _, _, hc, h => by
    obtain ⟨hstep, hrest⟩ := List.forall_mem_append.1 h
    refine (alike_step hfunctions l s hc hstep).bind fun _ _ hd agree => ?_
    simp only [hd, Uses.after] at hrest
    exact alike_steps hfunctions l rest agree hrest

theorem alike_step (hfunctions : scope.functionBroker = some b₀) (l : SourceLocation) :
    ∀ (s : Step) {b : FunctionBroker} {c c' : Compiled}, c.Agree b c' →
    Interchangeable b₀ b c₁ c₂ (Uses.step (scope.bind x c₂) x c' s) →
    Alike (Agree b) (step (scope.bind x c₁) l c s) (step (scope.bind x c₂) l c' s)
  | .key _, _, _, _, hc, _ => (alike_plainStep hc).ofEval
  | .wildcard, _, _, _, hc, _ => (alike_plainStep hc).ofEval
  | .index _, _, _, _, hc, _ => (alike_indexedStep hc).ofEval
  | .selector e, _, _, _, hc, h => alike_within hfunctions hc (alike_expression hfunctions e) h
  | .slice _ _ _, _, _, _, hc, _ => (alike_indexedStep hc).ofEval
  | .condition e, _, _, _, hc, h => alike_within hfunctions hc (alike_expression hfunctions e) h
  | .indexUnion _, _, _, _, hc, _ => (alike_indexedStep hc).ofEval
  | .keyUnion _, _, _, _, hc, _ => (alike_plainStep hc).ofEval
  | .recursiveKey _, _, _, _, hc, _ => (alike_plainStep hc).ofEval
  | .recursiveWildcard, _, _, _, hc, _ => (alike_plainStep hc).ofEval
  | .recursiveIndex _, _, _, _, hc, _ => (alike_indexedStep hc).ofEval
  | .attributeFinder _ name arguments opts head, b, _, _, hc, h => by
    obtain ⟨hopts, harguments⟩ := List.forall_mem_append.1 h
    simp only [step]
    split
    · exact .error _
    · refine (alike_options hfunctions opts b hopts).bind fun _ _ _ ho => ?_
      refine (alike_expressions hfunctions arguments b harguments).bind fun _ _ _ hcs => ?_
      exact .ok (agree_finder (.cons hc (.cons ho hcs)))

end

/-! ## Calls -/

/-- Who answers a call on compiled arguments that is evaluated in a phase: the broker of the scope
where all arguments are constants, else that of the phase. -/
def answering (b₀ b : FunctionBroker) (cs : List Compiled) (phase : Phase) : FunctionBroker :=
  if natureOf cs = .constant then b₀ else phase.broker b₀ b

/-- In the contexts of a phase, a call agrees with what asks the broker that answers it. -/
theorem agree_call {phase : Phase} {name : String} {asked : Compiled}
    (hfunctions : scope.functionBroker = some b₀)
    (hasked : combine cs (Interpret.call (answering b₀ b cs phase) name l) = .ok asked) :
    ∃ c, combineInContext cs false scope.foldingContext (call b₀ name l) = .ok c ∧
      c.Agree (phase.broker b₀ b) asked := by
  refine Alike.exists_of_ok (hasked ▸ Compiled.alike_combineInContext
    (List.forall₂_same.2 fun _ _ => .refl _) (fun _ hconstant => ?_) fun hopen ctx hctx => ?_)
  · rw [answering, if_pos hconstant]
    refine call_eq_interpret ?_
    rw [Scope.foldingContext, hfunctions, Option.getD_some]
  · rw [answering, if_neg fun hconstant => hopen ⟨rfl, hconstant⟩]
    exact call_eq_interpret (hctx ▸ Option.getD_some)

end Compile

/-- A call that is a node at a location of its own, wherever it is put. -/
def Base.callAt (l : SourceLocation) (name : String) (arguments : List Expression) :
    SourceLocation → Base := fun there =>
  if there = l then .call name arguments
  else .group (.basic l (.call name arguments) [] none)

theorem Compile.base_callAt {scope : Scope} {b₀ : FunctionBroker} {name : String}
    {arguments : List Expression} {cs : List Compiled} {l : SourceLocation}
    (hfunctions : scope.functionBroker = some b₀) (hname : name ≠ "")
    (harguments : Compile.expressions scope arguments = .ok cs) (there : SourceLocation) :
    Compile.base scope there (.callAt l name arguments there) =
      .ofEval (combineInContext cs false scope.foldingContext
        (Compile.call b₀ (scope.imports.resolve name) l)) := by
  have called : Compile.base scope l (.call name arguments) =
      .ofEval (combineInContext cs false scope.foldingContext
        (Compile.call b₀ (scope.imports.resolve name) l)) := by
    simp only [Compile.base, if_neg hname, hfunctions, harguments, ok_bind]
  unfold Base.callAt
  split
  next hthere => rw [hthere, called]
  next =>
    change (Compile.base scope l (.call name arguments) >>= fun c => Except.ok c >>= .ok) = _
    rw [called]
    cases combineInContext cs false scope.foldingContext
      (Compile.call b₀ (scope.imports.resolve name) l) <;> rfl

/-- Who answers a call that stands somewhere in a tree. A call whose arguments are constants is
answered by the broker of the scope. Any other call is answered by the broker of the context if it
is evaluated with the request, but by the broker of the scope inside of a step that is folded: the
tree is as good as one that asks this broker and has no other to ask. -/
theorem Expression.call_answered {scope : Scope} {b₀ b : FunctionBroker} {name x : String}
    {l : SourceLocation} {arguments : List Expression} {cs : List Compiled} {asked : Compiled}
    (phase : Phase) (hfunctions : scope.functionBroker = some b₀) (hname : name ≠ "") (hx : x ≠ "")
    (harguments : Compile.expressions scope arguments = .ok cs)
    (hasked : combine cs (Interpret.call (Compile.answering b₀ b cs phase)
      (scope.imports.resolve name) l) = .ok asked)
    (e : Expression) (huses : ∀ p ∈ e.uses (scope.bind x asked) x, p = phase) :
    Alike (Compiled.Agree b) ((e.substitute (.single x (.callAt l name arguments))).compile scope)
      (e.compile (scope.bind x asked)) := by
  obtain ⟨c, hc, agree⟩ := Compile.agree_call hfunctions hasked
  have hcall (there : SourceLocation) :
      Compile.base scope there (.callAt l name arguments there) = .ok c := by
    rw [Compile.base_callAt hfunctions hname harguments there, hc]
    rfl
  rw [Expression.compile_substitute hx hcall]
  refine Compile.alike_expression hfunctions e b fun p hp => ?_
  rw [huses p hp]
  exact agree

/-- In `resource :: f(@)` the call is evaluated with the request: `x`, which stands for it in
`resource :: x`, asks the broker of the context. -/
theorem Expression.call_answered_on_request :
    let l : SourceLocation := .unknown
    let b₀ : FunctionBroker := fun _ => .ok (.ofNat 1)
    let b : FunctionBroker := fun _ => .ok (.ofNat 2)
    let scope := { Scope.empty with functionBroker := some b₀ }
    let argument : Expression := .basic l .relative [] none
    let e : Expression :=
      .basic l (.identifier "resource") [] (some (.basic l (.identifier "x") [] none))
    ∃ cs asked, Compile.expressions scope [argument] = .ok cs ∧
      combine cs (Interpret.call b "f" l) = .ok asked ∧
      e.uses (scope.bind "x" asked) "x" = [.request] ∧
      Alike (Compiled.Agree b)
        ((e.substitute (.single "x" (.callAt l "f" [argument]))).compile scope)
        (e.compile (scope.bind "x" asked)) := by
  intro l b₀ b scope argument e
  refine ⟨_, _, rfl, rfl, rfl, ?_⟩
  exact Expression.call_answered .request rfl (by decide) (by decide) rfl rfl e
    fun p hp => List.mem_singleton.1 hp

/-- A call inside of a folded step is not answered by the broker of the context, although its
argument is no constant: `"abc" :: f(@)` is the answer of the broker of the scope once and for all,
while for `resource :: f(@)` the other broker is asked. -/
theorem Expression.call_answered_ahead :
    let l : SourceLocation := .unknown
    let b₀ : FunctionBroker := fun _ => .ok (.ofNat 1)
    let b : FunctionBroker := fun _ => .ok (.ofNat 2)
    let scope := { Scope.empty with functionBroker := some b₀ }
    let ctx := { Context.empty with functionBroker := some b, resource := .text "abc" }
    let argument : Expression := .basic l .relative [] none
    let called (base : Base) : Expression :=
      .basic l base [] (some (.basic l (.call "f" [argument]) [] none))
    (∃ c, argument.compile scope = .ok c ∧ c.nature = .pure) ∧
    (∃ c v, (called (.literal (.text "abc"))).compile scope = .ok c ∧ c.evaluate ctx = .ok v ∧
      v.asInt64? = some 1) ∧
    ∃ c v, (called (.identifier "resource")).compile scope = .ok c ∧ c.evaluate ctx = .ok v ∧
      v.asInt64? = some 2 := by
  intro l b₀ b scope ctx argument called
  exact ⟨⟨_, rfl, rfl⟩, ⟨_, _, rfl, rfl, by decide⟩, ⟨_, _, rfl, rfl, by decide⟩⟩

end PolicyExpr
