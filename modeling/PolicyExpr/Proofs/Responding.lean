import PolicyExpr.Proofs.AbatingRounds
import PolicyExpr.Proofs.ChainRecord
import PolicyExpr.Proofs.Declaration
import PolicyExpr.Proofs.Subscribing

/-!
# Subscriptions whose polls have results

A chain responds if none of its operands has, at one time, no end of values that leave it to the
operands behind, and a finder responds if its parameters abate, whatever the sources do that it
subscribes to. The stream of a tree abates where all sources of the context do.
-/
namespace PolicyExpr

/-! ## Chains -/

namespace Chain

open ChainEvent (carries)
open Operator (lazyStep)

/-- A value with which an operand leaves a chain to those behind it. -/
def PassesOn (deciding : Bool) (later : List Compiled) (a : Answer) : Prop :=
  later ≠ [] ∧ ∃ v, a = .value v ∧ carries deciding v = true

/-- No operand of a chain has, at one time, no end of values that leave the chain to those behind
it. -/
def OperandsAbate (deciding : Bool) (ctx : Context) : List Compiled → Prop
  | [] => True
  | operand :: later =>
    (∀ s, operand.subscribe ctx = .ok s → s.Abates (PassesOn deciding later)) ∧
      OperandsAbate deciding ctx later

variable {deciding : Bool} {l : SourceLocation} {ctx : Context} {operands : List Compiled}
  {m : Metadata} {s : Stream}

/-- A chain over such operands responds: where an operand decides, or is the last one, the chain
has a value at once. -/
theorem responds_subscribe (h : OperandsAbate deciding ctx operands)
    (hs : subscribe deciding l ctx m operands = .ok s) : s.Responds := by
  induction operands generalizing m s with
  | nil =>
    cases hs
    exact (Stream.abates_values _).responds
  | cons operand later ih =>
    obtain ⟨hoperand, hlater⟩ := h
    obtain ⟨source, hsource, hs⟩ := bind_eq_ok hs
    cases hs
    refine Stream.abates_switchOver (hoperand source hsource) (fun {v i} hi => ?_)
      (fun {v i} hi hstays => ?_) False.elim
    · split at hi
      · cases hi
        exact (Stream.abates_values _).responds
      · exact ih hlater hi
    · split at hi
      · cases hi
        exact Stream.speaks_once _
      · next hundecided =>
        have hcarries : carries deciding v = true := by
          by_contra hnot
          obtain ⟨w, hw, -⟩ := ChainEvent.lazyStep_of_not_carries (by simpa using hnot) m l
          simp [hw] at hundecided
        cases later with
        | cons next others => exact absurd ⟨nofun, v, rfl, hcarries⟩ hstays
        | nil =>
          cases hi
          exact Stream.speaks_once _

end Chain

/-! ## Finders -/

namespace AttributeFinder

variable {ctx : Context} {name : String} {l : SourceLocation} {head : Bool}
  {operands : List Compiled} {s : Stream} {counts : Answer → Prop}

/-- What a finder serves for a vector abates as the sources do. -/
theorem abates_values (hcounts : ∀ a, counts a → a.Lasts)
    (hforwarded : ∀ v w, counts (.value v) → counts (.value w))
    (hsources : ∀ broker ∈ ctx.attributeBroker, ∀ n i, (broker n i).Abates counts)
    (vector : Value) : (values ctx name l vector).Abates counts := by
  have once (v : Value) : (Stream.once v).Abates counts := (Stream.abates_values [v]).mono hcounts
  unfold values
  split
  · split
    · exact once _
    · split
      · exact once _
      · split
        · exact once _
        · next broker hbroker =>
          exact (Source.abates_unopened fun n => hsources broker hbroker n _).map
            fun v => hforwarded _ v
  · exact once _

/-- A finder responds if its parameters abate. -/
theorem responds_subscribe
    (hoperands : ∀ operand ∈ operands, ∀ s, operand.subscribe ctx = .ok s →
      s.Abates Answer.Lasts)
    (hs : subscribe name l head operands ctx = .ok s) : s.Responds := by
  obtain ⟨streams, hstreams, hs⟩ := bind_eq_ok hs
  obtain ⟨parameters, hparameters, hs⟩ := bind_eq_ok hs
  have hvectors : parameters.Abates Answer.Lasts :=
    Stream.abates_joinAll (Compiled.forall_of_subscribeAll hoperands hstreams) hparameters
  have hfound : Stream.Responds
      (.switchOver parameters fun vector => .ok (values ctx name l vector)) := by
    refine Stream.abates_switchOver hvectors ?_ (fun _ hstays => absurd nofun hstays) False.elim
    rintro v _ ⟨⟩
    exact abates_values (fun _ => False.elim) (fun _ _ => id)
      (fun _ _ _ _ => Source.abates_uncounted _) v
  cases head with
  | false =>
    cases hs
    exact hfound
  | true =>
    cases hs
    exact Stream.Abates.head hfound id

end AttributeFinder

/-! ## Trees -/

/-- The sources of a context abate. -/
def Context.SourcesAbate (ctx : Context) : Prop :=
  ∀ broker ∈ ctx.attributeBroker, ∀ n i, (broker n i).Abates Answer.Lasts

/-- Scripts abate, whatever they are. -/
theorem Context.sourcesAbate_scripts (ctx : Context)
    (script : Nat → AttributeInvocation → List ScriptItem) :
    (ctx.withAttributeBroker fun n i => .ofScript (script n i)).SourcesAbate := by
  rintro _ ⟨⟩ n i
  exact Source.abates_ofScript (script n i)

/-- A stream that abates if the sources of its context do. -/
def Stream.AbatesIn (ctx : Context) (s : Stream) : Prop := ctx.SourcesAbate → s.Abates Answer.Lasts

theorem Stream.inherited_abatesIn : Inherited AbatesIn where
  once _ v _ := abates_values [v]
  joined h hs hctx := abates_joinAll (fun t ht => h t ht hctx) hs
  switched houter hnext hctx := abates_switchOver (houter hctx) (fun hi => hnext _ _ hi hctx)
    (fun _ hstays => absurd nofun hstays) fun ha => ⟨ha, fun _ => id⟩
  first h hctx := (h hctx).head fun hlasts => hlasts rfl
  served _ _ _ vector hctx := AttributeFinder.abates_values (fun _ => id) (fun _ _ _ => nofun) hctx
    vector

/-- Subscriptions to trees start with streams that abate if the sources of the context do. -/
theorem Scope.Declares.abating {broker : FunctionBroker} {scope : Scope} {meanings : Meanings}
    (h : scope.Declares .full (fun _ => True) (Environment.direct broker) meanings) :
    Correspondence .full scope (Environment.direct broker scope meanings) fun c _ =>
      c.Starts Stream.AbatesIn :=
  h.correspondence Stream.inherited_abatesIn.constant fun _ hrel =>
    Stream.inherited_abatesIn.correspondence rfl hrel

/-- Operands that abate are operands of a chain that responds. -/
theorem Chain.operandsAbate_of_abates {deciding : Bool} {ctx : Context} {operands : List Compiled}
    (h : ∀ operand ∈ operands, ∀ s, operand.subscribe ctx = .ok s → s.Abates Answer.Lasts) :
    OperandsAbate deciding ctx operands := by
  induction operands with
  | nil => trivial
  | cons operand later ih =>
    obtain ⟨hoperand, hlater⟩ := List.forall_mem_cons.1 h
    refine ⟨fun s hs => (hoperand s hs).mono ?_, ih hlater⟩
    rintro _ ⟨-, v, rfl, -⟩
    exact nofun

end PolicyExpr
