import Mathlib.Data.List.Forall2
import PolicyExpr.Compile

/-!
# What a combination can be

A combination of compiled operands is a stream, a function of the context, or a constant, by
the natures of its operands. `combineInContext_cases` says each of the three in full; the
theorems about nodes go through it and do not look into `combineInContext` again.
-/
namespace PolicyExpr

/-- A computation that gives a result gives one at each of its steps. -/
theorem bind_eq_ok {ε α β : Type} {step : Except ε α} {next : α → Except ε β} {result : β}
    (h : (step >>= next) = .ok result) : ∃ a, step = .ok a ∧ next a = .ok result := by
  cases step with
  | error e => cases h
  | ok a => exact ⟨a, rfl, h⟩

@[simp] theorem ok_bind {ε α β : Type} (a : α) (next : α → Except ε β) :
    ((Except.ok a : Except ε α) >>= next) = next a := rfl

@[simp] theorem error_bind {ε α β : Type} (e : ε) (next : α → Except ε β) :
    ((Except.error e : Except ε α) >>= next) = .error e := rfl

theorem forall₂_of_mapM {ε α β : Type} {f : α → Except ε β} {as : List α} {bs : List β}
    (h : as.mapM f = .ok bs) : List.Forall₂ (fun a b => f a = .ok b) as bs := by
  induction as generalizing bs with
  | nil =>
    cases h
    exact .nil
  | cons a rest ih =>
    rw [List.mapM_cons] at h
    obtain ⟨b, hb, h⟩ := bind_eq_ok h
    obtain ⟨ds, hds, h⟩ := bind_eq_ok h
    cases h
    exact .cons hb (ih hds)

theorem Compilation.ofEval_eq_ok {α : Type} {x : Eval α} {a : α}
    (h : Compilation.ofEval x = .ok a) : x = .ok a := by
  cases x with
  | error f => cases h
  | ok b => exact congrArg Except.ok (Except.ok.inj h)

theorem Halt.lift_eq_ok {α : Type} {x : Eval α} {a : α} (h : Halt.lift x = .ok a) : x = .ok a := by
  cases x with
  | error f => cases h
  | ok b => exact congrArg Except.ok (Except.ok.inj h)

namespace Compiled

/-! ## Natures -/

private theorem foldl_join_eq_stream (cs : List Compiled) (n : Nature) :
    cs.foldl (fun n c => n.join c.nature) n = .stream ↔
      n = .stream ∨ ∃ c ∈ cs, c.nature = .stream := by
  induction cs generalizing n with
  | nil => simp
  | cons c rest ih =>
    simp only [List.foldl_cons, ih, List.mem_cons, exists_eq_or_imp, ← or_assoc]
    refine or_congr_left ?_
    cases n <;> cases c.nature <;> decide

private theorem foldl_join_eq_constant (cs : List Compiled) (n : Nature) :
    cs.foldl (fun n c => n.join c.nature) n = .constant ↔
      n = .constant ∧ ∀ c ∈ cs, c.nature = .constant := by
  induction cs generalizing n with
  | nil => simp
  | cons c rest ih =>
    simp only [List.foldl_cons, ih, List.forall_mem_cons, ← and_assoc]
    refine and_congr_left fun _ => ?_
    cases n <;> cases c.nature <;> decide

/-- One stream makes a stream of the whole. -/
theorem natureOf_eq_stream {cs : List Compiled} :
    natureOf cs = .stream ↔ ∃ c ∈ cs, c.nature = .stream := by
  simp [natureOf, foldl_join_eq_stream]

/-- Only constants make a constant. -/
theorem natureOf_eq_constant {cs : List Compiled} :
    natureOf cs = .constant ↔ ∀ c ∈ cs, c.nature = .constant := by
  simp [natureOf, foldl_join_eq_constant]

theorem eq_constant_of_nature {c : Compiled} (h : c.nature = .constant) : ∃ v, c = .constant v := by
  cases c with
  | constant v => exact ⟨v, rfl⟩
  | pure readsRequest run => cases h
  | stream subscribe => cases h

/-! ## Combinations -/

theorem evaluateAll_congr {cs : List Compiled} {ctx ctx' : Context}
    (h : ∀ c ∈ cs, c.evaluate ctx = c.evaluate ctx') :
    evaluateAll cs ctx = evaluateAll cs ctx' := by
  induction cs with
  | nil => rfl
  | cons c rest ih =>
    simp only [evaluateAll, List.mapM_cons] at ih ⊢
    rw [h c (by simp), ih fun d hd => h d (by simp [hd])]

/-- What a combination of operands can be: a join where one of them is a stream, a constant where
all of them are constants and the operator may be applied ahead, else a function of the context. -/
theorem combineInContext_cases {cs : List Compiled} {reads : Bool} {folding : Context}
    {op : Context → List Value → Eval Value} {c : Compiled}
    (h : combineInContext cs reads folding op = .ok c) :
    ((∃ s ∈ cs, s.nature = .stream) ∧
      c = .stream fun ctx => do Stream.joinAll (← subscribeAll cs ctx) (op ctx)) ∨
    ((∀ s ∈ cs, s.nature = .constant) ∧ reads = false ∧
      ∃ vs v, evaluateAll cs folding = .ok vs ∧ op folding vs = .ok v ∧ c = .constant v) ∨
    ((∀ s ∈ cs, s.nature ≠ .stream) ∧
      c = .pure (reads || cs.any isScoped) fun ctx => do op ctx (← evaluateAll cs ctx)) := by
  unfold combineInContext at h
  split at h
  · next hn => exact .inl ⟨natureOf_eq_stream.1 hn, (Except.ok.inj h).symm⟩
  · next hn =>
    have constants := natureOf_eq_constant.1 hn
    have streamless : ∀ s ∈ cs, s.nature ≠ .stream := fun s hs => by simp [constants s hs]
    cases reads with
    | true => exact .inr (.inr ⟨streamless, by simpa using (Except.ok.inj h).symm⟩)
    | false =>
      obtain ⟨vs, hvs, h⟩ := bind_eq_ok h
      obtain ⟨v, hv, h⟩ := bind_eq_ok h
      exact .inr (.inl ⟨constants, rfl, vs, v, hvs, hv, (Except.ok.inj h).symm⟩)
  · next hn =>
    have streamless : ∀ s ∈ cs, s.nature ≠ .stream := by
      intro s hs hstream
      have := natureOf_eq_stream.2 ⟨s, hs, hstream⟩
      simp [this] at hn
    exact .inr (.inr ⟨streamless, (Except.ok.inj h).symm⟩)

/-- A combination has the value of its operator on its operands, where the operator makes no
difference between the context and the one in which constants are combined. -/
theorem evaluate_combineInContext {cs : List Compiled} {reads : Bool} {folding ctx : Context}
    {op : Context → List Value → Eval Value} {c : Compiled}
    (hc : combineInContext cs reads folding op = .ok c) (hn : c.nature ≠ .stream)
    (hop : reads = false → op folding = op ctx) :
    c.evaluate ctx = (evaluateAll cs ctx >>= op ctx) := by
  obtain ⟨-, rfl⟩ | ⟨constants, hreads, vs, v, hvs, hv, rfl⟩ | ⟨-, rfl⟩ := combineInContext_cases hc
  · exact absurd rfl hn
  · have same : evaluateAll cs ctx = evaluateAll cs folding := evaluateAll_congr fun c hm => by
      obtain ⟨v, rfl⟩ := eq_constant_of_nature (constants c hm)
      rfl
    rw [same, hvs, ← hop hreads]
    exact hv.symm
  · rfl

/-- The nature of a combination is a stream only if that of an operand is. -/
theorem combineInContext_nature {cs : List Compiled} {reads : Bool} {folding : Context}
    {op : Context → List Value → Eval Value} {c : Compiled}
    (h : combineInContext cs reads folding op = .ok c) :
    c.nature = .stream ↔ ∃ s ∈ cs, s.nature = .stream := by
  obtain ⟨hs, rfl⟩ | ⟨hs, -, vs, v, -, -, rfl⟩ | ⟨hs, rfl⟩ := combineInContext_cases h
  · simpa [nature] using hs
  · have streamless : ∀ s ∈ cs, s.nature ≠ .stream := fun s hm => by simp [hs s hm]
    simpa [nature] using streamless
  · simpa [nature] using hs

end Compiled

/-- A node is its single operand, or its operands are combined. -/
theorem Compile.joined_eq_ok {cs : List Compiled} {combined : List Compiled → Eval Compiled}
    {c : Compiled} (h : Compile.joined cs combined = .ok c) : cs = [c] ∨ combined cs = .ok c := by
  unfold Compile.joined at h
  split at h
  · exact .inl (by rw [Except.ok.inj h])
  · exact .inr h

/-! ## Chains -/

namespace Chain

/-- What is left of a chain behind its constants was in it. -/
theorem mem_of_front {deciding : Bool} {l : SourceLocation} {m m' : Metadata}
    {cs rest : List Compiled} (h : front deciding l m cs = .remaining m' rest) :
    ∀ c ∈ rest, c ∈ cs := by
  induction cs generalizing m with
  | nil =>
    cases h
    exact fun c hc => hc
  | cons c cs ih =>
    cases c with
    | constant v =>
      simp only [front] at h
      split at h
      · cases h
      · exact fun d hd => List.mem_cons_of_mem _ (ih h d hd)
    | pure reads run =>
      cases h
      exact fun c hc => hc
    | stream subscribe =>
      cases h
      exact fun c hc => hc

/-- What a chain of operands can be: decided by its constants, exhausted by them, or the rest
behind them, which is a stream where one of its operands is. -/
theorem compile_cases (deciding : Bool) (l : SourceLocation) (cs : List Compiled) :
    (∃ v, front deciding l .empty cs = .decided v ∧ compile deciding l cs = .constant v) ∨
    (∃ m, front deciding l .empty cs = .remaining m [] ∧
      compile deciding l cs = .constant (exhausted deciding m)) ∨
    (∃ m rest, front deciding l .empty cs = .remaining m rest ∧
      (∃ s ∈ rest, s.nature = .stream) ∧
      compile deciding l cs = .stream fun ctx => subscribe deciding l ctx m rest) ∨
    (∃ m rest, front deciding l .empty cs = .remaining m rest ∧
      (∀ s ∈ rest, s.nature ≠ .stream) ∧
      compile deciding l cs = .pure (rest.any Compiled.isScoped) fun ctx =>
        evaluate deciding l ctx m rest) := by
  unfold compile
  cases hf : front deciding l .empty cs with
  | decided v => exact .inl ⟨v, rfl, rfl⟩
  | remaining m rest =>
    cases rest with
    | nil => exact .inr (.inl ⟨m, rfl, rfl⟩)
    | cons c rest =>
      by_cases hs : (c :: rest).any (·.nature == .stream) = true
      · refine .inr (.inr (.inl ⟨m, c :: rest, rfl, ?_, if_pos hs⟩))
        simpa using hs
      · refine .inr (.inr (.inr ⟨m, c :: rest, rfl, ?_, if_neg hs⟩))
        simpa using hs

/-- A chain is a stream only if one of its operands is. -/
theorem compile_nature {deciding : Bool} {l : SourceLocation} {cs : List Compiled}
    (h : ∀ c ∈ cs, c.nature ≠ .stream) : (compile deciding l cs).nature ≠ .stream := by
  obtain ⟨v, -, hc⟩ | ⟨m, -, hc⟩ | ⟨m, rest, hf, ⟨s, hs, hn⟩, -⟩ | ⟨m, rest, -, -, hc⟩ :=
    compile_cases deciding l cs
  · simp [hc, Compiled.nature]
  · simp [hc, Compiled.nature]
  · exact absurd hn (h s (mem_of_front hf s hs))
  · simp [hc, Compiled.nature]

end Chain

/-! ## Steps with an inner expression -/

/-- Such a step is an error if its inner expression is a stream, else a combination that reads
the request if the inner expression does. -/
theorem Compile.relativeStep_cases {scope : Scope} {step : RelativeStep} {l : SourceLocation}
    {base inner c : Compiled} {apply : Value → Selection.Inner → Eval Value}
    (h : Compile.relativeStep scope step l base inner apply = .ok c) :
    (inner.nature = .stream ∧ c = .constant (.failureAt (.streamInside step) l)) ∨
    (inner.nature ≠ .stream ∧
      Compiled.combineInContext [base] inner.isScoped scope.foldingContext (fun ctx =>
        Operator.onOne fun v => do
          let result ← apply v fun part position => inner.evaluate (ctx.withRelative part position)
          return result.locate l) = .ok c) := by
  unfold Compile.relativeStep at h
  split at h
  · next hn => exact .inl ⟨hn, (Except.ok.inj h).symm⟩
  · next hn => exact .inr ⟨hn, h⟩

end PolicyExpr
