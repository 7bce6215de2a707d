import Mathlib.Data.List.Forall2
import PolicyExpr.Proofs.Combination

/-!
# Agreement with one broker

Two compiled expressions agree with a function broker if nobody can tell them apart in the contexts
that have it: they are of one nature and one scope, and have the same value and the same stream.
Whatever is combined from expressions that agree does so, and fails or is an error in the same way.
-/
namespace PolicyExpr

open Compiled (combine combineAt combineInContext evaluateAll natureOf subscribeAll)

/-- The same failure, or related results. -/
inductive Alike {ε α β : Type} (Q : α → β → Prop) : Except ε α → Except ε β → Prop where
  | ok {a : α} {b : β} (h : Q a b) : Alike Q (.ok a) (.ok b)
  | error (e : ε) : Alike Q (.error e) (.error e)

namespace Alike

variable {ε α β γ δ : Type} {Q : α → β → Prop} {R : γ → δ → Prop}

theorem same {Q : α → α → Prop} (h : ∀ a, Q a a) (x : Except ε α) : Alike Q x x := by
  cases x with
  | ok a => exact .ok (h a)
  | error e => exact .error e

theorem bind {x : Except ε α} {y : Except ε β} {f : α → Except ε γ} {g : β → Except ε δ}
    (h : Alike Q x y) (hnext : ∀ a b, y = .ok b → Q a b → Alike R (f a) (g b)) :
    Alike R (x >>= f) (y >>= g) := by
  cases h with
  | ok h => exact hnext _ _ rfl h
  | error e => exact .error e

theorem bind_same {x : Except ε α} {f : α → Except ε γ} {g : α → Except ε δ}
    (hnext : ∀ a, Alike R (f a) (g a)) : Alike R (x >>= f) (x >>= g) :=
  (same (Q := Eq) (fun _ => rfl) x).bind fun a _ _ h => h ▸ hnext a

theorem ofEval {x : Eval α} {y : Eval β} (h : Alike Q x y) :
    Alike Q (Compilation.ofEval x) (Compilation.ofEval y) := by
  cases h with
  | ok h => exact .ok h
  | error f => exact .error _

/-- What does not fail the second time does not fail the first time. -/
theorem exists_of_ok {x : Except ε α} {b : β} (h : Alike Q x (.ok b)) : ∃ a, x = .ok a ∧ Q a b := by
  cases h with
  | ok h => exact ⟨_, rfl, h⟩

end Alike

namespace Compiled

/-- Of one nature and one scope, with the same value and the same stream in every context with a
function broker. -/
structure Agree (b : FunctionBroker) (c c' : Compiled) : Prop where
  nature : c.nature = c'.nature
  scope : c.isScoped = c'.isScoped
  evaluate : ∀ ctx, ctx.functionBroker = some b → c.evaluate ctx = c'.evaluate ctx
  subscribe : ∀ ctx, ctx.functionBroker = some b → c.subscribe ctx = c'.subscribe ctx

variable {b : FunctionBroker} {c c' : Compiled} {cs cs' : List Compiled}

theorem Agree.refl (c : Compiled) : c.Agree b c := ⟨rfl, rfl, fun _ _ => rfl, fun _ _ => rfl⟩

theorem agree_pure {reads : Bool} {run run' : Context → Eval Value}
    (h : ∀ ctx, ctx.functionBroker = some b → run ctx = run' ctx) :
    (pure reads run).Agree b (pure reads run') :=
  ⟨rfl, rfl, h, fun ctx hctx => by simp only [Compiled.subscribe, h ctx hctx]⟩

theorem agree_stream {subscribe subscribe' : Context → Eval Stream}
    (h : ∀ ctx, ctx.functionBroker = some b → subscribe ctx = subscribe' ctx) :
    (stream subscribe).Agree b (stream subscribe') :=
  ⟨rfl, rfl, fun _ _ => rfl, h⟩

/-- A constant agrees with itself alone. -/
theorem Agree.eq_constant {v : Value} (h : (constant v).Agree b c') : c' = constant v := by
  obtain ⟨w, rfl⟩ := eq_constant_of_nature h.nature.symm
  have value := h.evaluate { Context.empty with functionBroker := some b } rfl
  exact congrArg constant (Except.ok.inj value).symm

theorem natureOf_agree (h : List.Forall₂ (Agree b) cs cs') : natureOf cs = natureOf cs' := by
  unfold natureOf
  generalize Nature.constant = start
  induction h generalizing start with
  | nil => rfl
  | cons hc _ ih => rw [List.foldl_cons, List.foldl_cons, hc.nature, ih]

theorem any_isScoped_agree (h : List.Forall₂ (Agree b) cs cs') :
    cs.any isScoped = cs'.any isScoped := by
  induction h with
  | nil => rfl
  | cons hc _ ih => rw [List.any_cons, List.any_cons, hc.scope, ih]

theorem evaluateAll_agree {ctx : Context} (h : List.Forall₂ (Agree b) cs cs')
    (hctx : ctx.functionBroker = some b) : evaluateAll cs ctx = evaluateAll cs' ctx := by
  induction h with
  | nil => rfl
  | cons hc _ ih =>
    simp only [evaluateAll, List.mapM_cons] at ih ⊢
    rw [hc.evaluate ctx hctx, ih]

theorem subscribeAll_agree {ctx : Context} (h : List.Forall₂ (Agree b) cs cs')
    (hctx : ctx.functionBroker = some b) : subscribeAll cs ctx = subscribeAll cs' ctx := by
  induction h with
  | nil => rfl
  | cons hc _ ih =>
    simp only [subscribeAll, List.mapM_cons] at ih ⊢
    rw [hc.subscribe ctx hctx, ih]

/-- Lists that agree are equal where they are constant. -/
theorem eq_of_agree_constants (h : List.Forall₂ (Agree b) cs cs')
    (hconstant : ∀ c ∈ cs, c.nature = .constant) : cs = cs' := by
  induction h with
  | nil => rfl
  | cons hc _ ih =>
    obtain ⟨hnature, hrest⟩ := List.forall_mem_cons.1 hconstant
    obtain ⟨v, rfl⟩ := eq_constant_of_nature hnature
    rw [hc.eq_constant, ih hrest]

/-- Combinations of operands that agree. The operators have to do so in all contexts of the broker
if there is something left to do with a request, and in the contexts of folding otherwise. -/
theorem alike_combineInContext {reads : Bool} {folding folding' : Context}
    {op op' : Context → List Value → Eval Value} (hcs : List.Forall₂ (Agree b) cs cs')
    (hfolded : reads = false → natureOf cs = .constant → op folding = op' folding')
    (hop : ¬ (reads = false ∧ natureOf cs = .constant) →
      ∀ ctx, ctx.functionBroker = some b → op ctx = op' ctx) :
    Alike (Agree b) (combineInContext cs reads folding op)
      (combineInContext cs' reads folding' op') := by
  unfold combineInContext
  rw [← natureOf_agree hcs, ← any_isScoped_agree hcs]
  cases hnature : natureOf cs with
  | stream =>
    refine .ok (agree_stream fun ctx hctx => ?_)
    rw [subscribeAll_agree hcs hctx, hop (by simp [hnature]) ctx hctx]
  | pure =>
    refine .ok (agree_pure fun ctx hctx => ?_)
    rw [evaluateAll_agree hcs hctx, hop (by simp [hnature]) ctx hctx]
  | constant =>
    cases reads with
    | true =>
      refine .ok (agree_pure fun ctx hctx => ?_)
      rw [evaluateAll_agree hcs hctx, hop (by simp) ctx hctx]
    | false =>
      have constants := natureOf_eq_constant.1 hnature
      have operands : evaluateAll cs folding = evaluateAll cs folding' :=
        evaluateAll_congr fun c hm => by
          obtain ⟨v, rfl⟩ := eq_constant_of_nature (constants c hm)
          rfl
      rw [← eq_of_agree_constants hcs constants, operands, hfolded rfl hnature]
      exact Alike.same Agree.refl _

theorem alike_combine {op : List Value → Eval Value} (hcs : List.Forall₂ (Agree b) cs cs') :
    Alike (Agree b) (combine cs op) (combine cs' op) :=
  alike_combineInContext hcs (fun _ _ => rfl) fun _ _ _ => rfl

theorem alike_combineAt {l : SourceLocation} {op : List Value → Eval Value}
    (hcs : List.Forall₂ (Agree b) cs cs') :
    Alike (Agree b) (combineAt l cs op) (combineAt l cs' op) :=
  alike_combine hcs

end Compiled

/-! ## Nodes -/

namespace Chain

open Compiled (Agree agree_pure agree_stream)

variable {b : FunctionBroker} {cs cs' : List Compiled} {deciding : Bool} {l : SourceLocation}

theorem evaluate_agree {ctx : Context} (h : List.Forall₂ (Agree b) cs cs')
    (hctx : ctx.functionBroker = some b) (m : Metadata) :
    evaluate deciding l ctx m cs = evaluate deciding l ctx m cs' := by
  induction h generalizing m with
  | nil => rfl
  | cons hc _ ih => simp only [evaluate, hc.evaluate ctx hctx, ih]

theorem subscribe_agree {ctx : Context} (h : List.Forall₂ (Agree b) cs cs')
    (hctx : ctx.functionBroker = some b) (m : Metadata) :
    subscribe deciding l ctx m cs = subscribe deciding l ctx m cs' := by
  induction h generalizing m with
  | nil => rfl
  | cons hc _ ih => simp only [subscribe, hc.subscribe ctx hctx, ih]

variable (deciding l) in
/-- The constants in front are the same, and what they leave agrees. -/
theorem front_agree (h : List.Forall₂ (Agree b) cs cs') (m : Metadata) :
    (∃ v, front deciding l m cs = .decided v ∧ front deciding l m cs' = .decided v) ∨
    ∃ m' rest rest', front deciding l m cs = .remaining m' rest ∧
      front deciding l m cs' = .remaining m' rest' ∧ List.Forall₂ (Agree b) rest rest' := by
  induction h generalizing m with
  | nil => exact .inr ⟨m, [], [], rfl, rfl, .nil⟩
  | @cons c c' rest rest' hc hrest ih =>
    cases c with
    | constant v =>
      rw [hc.eq_constant]
      simp only [front]
      split
      · exact .inl ⟨_, rfl, rfl⟩
      · exact ih _
    | pure reads run =>
      cases c' with
      | pure reads' run' => exact .inr ⟨m, _, _, rfl, rfl, .cons hc hrest⟩
      | constant v => cases hc.nature
      | stream subscribe => cases hc.nature
    | stream subscribe =>
      cases c' with
      | stream subscribe' => exact .inr ⟨m, _, _, rfl, rfl, .cons hc hrest⟩
      | constant v => cases hc.nature
      | pure reads run => cases hc.nature

theorem any_stream_agree (h : List.Forall₂ (Agree b) cs cs') :
    cs.any (·.nature == .stream) = cs'.any (·.nature == .stream) := by
  induction h with
  | nil => rfl
  | cons hc _ ih => rw [List.any_cons, List.any_cons, hc.nature, ih]

theorem agree_compile (h : List.Forall₂ (Agree b) cs cs') :
    (compile deciding l cs).Agree b (compile deciding l cs') := by
  obtain ⟨v, hf, hf'⟩ | ⟨m, rest, rest', hf, hf', hrest⟩ :=
    front_agree deciding l h .empty
  · simp only [compile, hf, hf']
    exact .refl _
  · simp only [compile, hf, hf']
    cases hrest with
    | nil => exact .refl _
    | cons hc htail =>
      have hall := List.Forall₂.cons hc htail
      simp only [any_stream_agree hall, Compiled.any_isScoped_agree hall]
      split
      · exact agree_stream fun ctx hctx => subscribe_agree hall hctx m
      · exact agree_pure fun ctx hctx => evaluate_agree hall hctx m

end Chain

namespace Compile

open Compiled (Agree)

variable {b : FunctionBroker} {l : SourceLocation} {cs cs' : List Compiled} {base base' : Compiled}

theorem alike_joined {combined : List Compiled → Eval Compiled}
    (hcs : List.Forall₂ (Agree b) cs cs') (h : Alike (Agree b) (combined cs) (combined cs')) :
    Alike (Agree b) (joined cs combined) (joined cs' combined) := by
  match hcs with
  | .nil => exact h
  | .cons hc .nil => exact .ok hc
  | .cons _ (.cons _ _) => exact h

theorem alike_binary {a a' c c' : Compiled} {op : Value → Value → Eval Value}
    (ha : a.Agree b a') (hc : c.Agree b c') :
    Alike (Agree b) (binary l a c op) (binary l a' c' op) :=
  Compiled.alike_combineAt (.cons ha (.cons hc .nil))

theorem alike_equality {a a' c c' : Compiled} (op : EqualityOperator)
    (ha : a.Agree b a') (hc : c.Agree b c') :
    Alike (Agree b) (equality op l a c) (equality op l a' c') := by
  have general : Alike (Agree b) (binary l a c fun a b => .ok (op.apply a b))
      (binary l a' c' fun a b => .ok (op.apply a b)) := alike_binary ha hc
  cases op with
  | equal => exact general
  | notEqual => exact general
  | regex =>
    cases c with
    | constant pattern =>
      cases hc.eq_constant
      simp only [equality]
      split
      · exact Compiled.alike_combineAt (.cons ha .nil)
      · exact general
    | pure reads run =>
      cases c' with
      | pure reads' run' => exact general
      | constant v => cases hc.nature
      | stream subscribe => cases hc.nature
    | stream subscribe =>
      cases c' with
      | stream subscribe' => exact general
      | constant v => cases hc.nature
      | pure reads run => cases hc.nature

theorem agree_finder {name : String} {head : Bool} (hcs : List.Forall₂ (Agree b) cs cs') :
    (AttributeFinder.compile name l head cs).Agree b (AttributeFinder.compile name l head cs') := by
  refine Compiled.agree_stream fun ctx hctx => ?_
  simp only [AttributeFinder.subscribe, Compiled.subscribeAll_agree hcs hctx]

theorem alike_plainStep {step : Value → Value} (h : base.Agree b base') :
    Alike (Agree b) (plainStep l base step) (plainStep l base' step) :=
  Compiled.alike_combineAt (.cons h .nil)

theorem alike_indexedStep {α : Type} {indices : Except Failure α} {step : Value → α → Value}
    (h : base.Agree b base') :
    Alike (Agree b) (indexedStep l base indices step) (indexedStep l base' indices step) := by
  cases indices with
  | ok i => exact alike_plainStep h
  | error f => exact .ok (.refl _)

end Compile

end PolicyExpr
