import PolicyExpr.Proofs.Combination
import PolicyExpr.Proofs.Recording

/-!
# Where faults come from

The only fault is the text of a number that cannot be written. Here are the computations that
fault in no other way, and only where texts are written at all: `Fault.Arises texts` says which
faults there can be, none if `texts` is false. Streams and compiled expressions are followed
through everything that is ever made of them.
-/
namespace PolicyExpr

/-! ## Ends of computations -/

/-- A computation ends with a result with `Q`, or fails with `H`. -/
def Ends {ε α : Type} (H : ε → Prop) (Q : α → Prop) : Except ε α → Prop
  | .ok a => Q a
  | .error e => H e

namespace Ends

variable {ε α β : Type} {H : ε → Prop} {Q Q' : α → Prop} {R : β → Prop} {x : Except ε α}

theorem bind {next : α → Except ε β} (hx : Ends H Q x) (hnext : ∀ a, Q a → Ends H R (next a)) :
    Ends H R (x >>= next) := by
  cases x with
  | error e => exact hx
  | ok a => exact hnext a hx

theorem mono (h : Ends H Q x) (hQ : ∀ a, Q a → Q' a) : Ends H Q' x := by
  cases x with
  | error e => exact h
  | ok a => exact hQ a h

theorem weaken {H' : ε → Prop} (h : Ends H Q x) (hH : ∀ e, H e → H' e) : Ends H' Q x := by
  cases x with
  | error e => exact hH e h
  | ok a => exact h

theorem result (h : Ends H Q x) {a : α} (ha : x = .ok a) : Q a := by
  subst ha
  exact h

theorem failure (h : Ends H Q x) {e : ε} (he : x = .error e) : H e := by
  subst he
  exact h

/-- What every element comes to, a list comes to. -/
theorem mapM {f : β → Except ε α} {bs : List β} (h : ∀ b ∈ bs, Ends H Q (f b)) :
    Ends H (fun as => ∀ a ∈ as, Q a) (bs.mapM f) := by
  induction bs with
  | nil => exact nofun
  | cons b bs ih =>
    rw [List.mapM_cons]
    refine (h b (by simp)).bind fun a ha => (ih fun b' hb => h b' (by simp [hb])).bind fun as has =>
      show ∀ a' ∈ a :: as, Q a' from ?_
    simpa using ⟨ha, has⟩

end Ends

/-! ## Faults that may arise -/

/-- The fault of a number that really cannot be written. -/
def Fault.Unwritable : Fault → Prop
  | .unwritable n => n.toJson? = none

/-- A fault that may arise: none where no text is written. -/
def Fault.Arises (texts : Bool) (f : Fault) : Prop := texts = true ∧ f.Unwritable

/-- A poll may also be cut off. -/
def Halt.Arises (texts : Bool) : Halt → Prop
  | .fault f => f.Arises texts
  | .outOfFuel => True

/-- A compilation may also find a defect. -/
def CompileFailure.Arises (texts : Bool) : CompileFailure → Prop
  | .fault f => f.Arises texts
  | .defect _ => True

/-- A computation that faults only in the ways that may arise. -/
abbrev Eval.Sound {α : Type} (texts : Bool) (x : Eval α) : Prop :=
  Ends (Fault.Arises texts) (fun _ => True) x

variable {texts : Bool}

theorem Ends.lift {α : Type} {Q : α → Prop} {x : Eval α} (h : Ends (Fault.Arises texts) Q x) :
    Ends (Halt.Arises texts) Q (Halt.lift x) := by
  cases x <;> exact h

theorem Ends.ofEval {α : Type} {Q : α → Prop} {x : Eval α} (h : Ends (Fault.Arises texts) Q x) :
    Ends (CompileFailure.Arises texts) Q (Compilation.ofEval x) := by
  cases x <;> exact h

/-! ## Texts of values -/

namespace Value

mutual

theorem unwritable_of_toJson : ∀ (v : Value), Ends Fault.Unwritable (fun _ => True) v.toJson
  | ⟨.boolean b, _⟩ => trivial
  | ⟨.number n, _⟩ => by
    unfold toJson
    split
    · trivial
    · next h => exact h
  | ⟨.text s, _⟩ => trivial
  | ⟨.array items, _⟩ => by
    unfold toJson
    exact (unwritable_of_itemsToJson items).bind fun _ _ => trivial
  | ⟨.object entries, _⟩ => by
    unfold toJson
    exact (unwritable_of_entriesToJson entries).bind fun _ _ => trivial
  | ⟨.null, _⟩ => trivial
  | ⟨.undefined, _⟩ => trivial
  | ⟨.error f _, _⟩ => trivial

theorem unwritable_of_itemsToJson : ∀ (vs : List Value),
    Ends Fault.Unwritable (fun _ => True) (itemsToJson vs)
  | [] => trivial
  | v :: rest => by
    unfold itemsToJson
    exact (unwritable_of_toJson v).bind fun _ _ =>
      (unwritable_of_itemsToJson rest).bind fun _ _ => trivial

theorem unwritable_of_entriesToJson : ∀ (entries : List (String × Value)),
    Ends Fault.Unwritable (fun _ => True) (entriesToJson entries)
  | [] => trivial
  | (key, v) :: rest => by
    unfold entriesToJson
    exact (unwritable_of_toJson v).bind fun _ _ =>
      (unwritable_of_entriesToJson rest).bind fun _ _ => trivial

end

theorem unwritable_of_display (v : Value) : Ends Fault.Unwritable (fun _ => True) v.display := by
  unfold display
  split
  · trivial
  · trivial
  · exact (unwritable_of_toJson v).bind fun _ _ => trivial

theorem unwritable_of_plainText (v : Value) :
    Ends Fault.Unwritable (fun _ => True) v.plainText := by
  unfold plainText
  split
  · trivial
  · exact unwritable_of_display v

/-- Where texts are written, that of a value may fault. -/
theorem sound_plainText (htexts : texts = true) (v : Value) : v.plainText.Sound texts :=
  (unwritable_of_plainText v).weaken fun _ hf => ⟨htexts, hf⟩

end Value

/-- A number that cannot be written cannot be put behind a text. -/
theorem Operator.add_unwritable {n : Decimal} (h : n.toJson? = none) (s : String) (m : Metadata) :
    Operator.add (.text s) ⟨.number n, m⟩ = .error (.unwritable n) := by
  have hplain : (⟨.number n, m⟩ : Value).plainText = .error (.unwritable n) := by
    simp only [Value.plainText, Value.display, Value.toJson, Value.asText?, h]
    rfl
  change (Value.plainText ⟨.number n, m⟩ >>= fun back => _) = _
  rw [hplain]
  rfl

theorem Operator.chain_unwritable {n : Decimal} (h : n.toJson? = none) (s : String)
    (m : Metadata) : Operator.chain [AdditiveOperator.plus.apply] [.text s, ⟨.number n, m⟩] =
      .error (.unwritable n) := by
  simp only [Operator.chain, Operator.chainFrom, AdditiveOperator.apply, Operator.add_unwritable h]
  rfl

/-! ## Streams -/

/-- A stream whose polls fault only in the ways that may arise, however often it is polled. -/
inductive Stream.Sound (texts : Bool) : Stream → Prop where
  | values (remaining : List Value) : Sound texts (.values remaining)
  | unopened (broker : AttributeBroker) (invocation : AttributeInvocation) :
    Sound texts (.unopened broker invocation)
  | opened (subscription : Nat) (source : Source) (cursor : Nat) :
    Sound texts (.opened subscription source cursor)
  | map {f : Value → Value} {inner : Stream} (hinner : Sound texts inner) :
    Sound texts (.map f inner)
  | head {inner : Option Stream} (hinner : ∀ s, inner = some s → Sound texts s) :
    Sound texts (.head inner)
  | join {slots : List (Slot Stream)} {combine : List Value → Eval Value}
    (hslots : ∀ slot ∈ slots, ∀ s, slot.live = some s → Sound texts s)
    (hcombine : ∀ vs, (combine vs).Sound texts) : Sound texts (.join slots combine)
  | switch {outer inner : Option Stream} {next : Value → Eval Stream}
    (houter : ∀ s, outer = some s → Sound texts s) (hinner : ∀ s, inner = some s → Sound texts s)
    (hfault : ∀ v f, next v = .error f → f.Arises texts)
    (hnext : ∀ v s, next v = .ok s → Sound texts s) : Sound texts (.switch outer inner next)

namespace Stream

/-- Live parts of a join. -/
def SlotsSound (texts : Bool) (slots : List (Slot Stream)) : Prop :=
  ∀ slot ∈ slots, ∀ s, slot.live = some s → s.Sound texts

/-- A part of a switch that may be absent. -/
def PartSound (texts : Bool) (part : Option Stream) : Prop := ∀ s, part = some s → s.Sound texts

@[simp] theorem partSound_none : PartSound texts none := nofun

@[simp] theorem partSound_some {s : Stream} : PartSound texts (some s) ↔ s.Sound texts :=
  ⟨fun h => h s rfl, fun h _ hs => Option.some.inj hs ▸ h⟩

theorem slotsSound_cons {slot : Slot Stream} {slots : List (Slot Stream)} :
    SlotsSound texts (slot :: slots) ↔ PartSound texts slot.live ∧ SlotsSound texts slots := by
  simp [SlotsSound, PartSound]

/-- A poll that faults only in the ways that may arise, and leaves a sound stream. -/
def PollsSound (texts : Bool) (poll : Poller) : Prop :=
  ∀ s j, s.Sound texts → Ends (Halt.Arises texts) (fun p => p.stream.Sound texts) (poll s j)

section

variable {poll : Poller} (hpoll : PollsSound texts poll)

include hpoll

theorem sound_joinPass (slots : List (Slot Stream)) (j : Journal)
    (hslots : SlotsSound texts slots) :
    Ends (Halt.Arises texts) (fun pass => SlotsSound texts pass.slots) (joinPass poll slots j) := by
  induction slots generalizing j with
  | nil => exact hslots
  | cons slot rest ih =>
    obtain ⟨live, latest⟩ := slot
    obtain ⟨hlive, hrest⟩ := slotsSound_cons.1 hslots
    have others (j : Journal) := ih j hrest
    cases live with
    | none => exact (others j).bind fun pass h => slotsSound_cons.2 ⟨partSound_none, h⟩
    | some s =>
      refine (hpoll s j (partSound_some.1 hlive)).bind fun p hp => ?_
      obtain ⟨answer, stream, journal⟩ := p
      cases answer with
      | value v =>
        exact (others journal).bind fun pass h => slotsSound_cons.2 ⟨partSound_some.2 hp, h⟩
      | pending =>
        exact (others journal).bind fun pass h => slotsSound_cons.2 ⟨partSound_some.2 hp, h⟩
      | ended =>
        cases latest with
        | none => exact slotsSound_cons.2 ⟨partSound_none, hrest⟩
        | some v =>
          exact (others journal).bind fun pass h => slotsSound_cons.2 ⟨partSound_none, h⟩

theorem sound_joinRounds {combine : List Value → Eval Value}
    (hcombine : ∀ vs, (combine vs).Sound texts) (rounds : Nat) (slots : List (Slot Stream))
    (j : Journal) (hslots : SlotsSound texts slots) :
    Ends (Halt.Arises texts) (fun p => p.stream.Sound texts)
      (joinRounds poll combine rounds slots j) := by
  induction rounds generalizing slots j with
  | zero => trivial
  | succ rounds ih =>
    refine (sound_joinPass hpoll slots j hslots).bind fun pass hpass => ?_
    split
    · exact .join nofun hcombine
    · split
      · next vs _ => exact (hcombine vs).lift.bind fun v _ => .join hpass hcombine
      · split
        · exact .join hpass hcombine
        · split
          · exact .join hpass hcombine
          · exact ih pass.slots pass.journal hpass

theorem sound_switchOuter {next : Value → Eval Stream}
    (hnext : ∀ v, Ends (Fault.Arises texts) (Stream.Sound texts) (next v))
    (outer inner : Option Stream) (j : Journal) (houter : PartSound texts outer)
    (hinner : PartSound texts inner) :
    Ends (Halt.Arises texts)
      (fun pass => PartSound texts pass.outer ∧ PartSound texts pass.inner)
      (switchOuter poll next outer inner j) := by
  cases outer with
  | none => exact ⟨houter, hinner⟩
  | some s =>
    refine (hpoll s j (partSound_some.1 houter)).bind fun p hp => ?_
    obtain ⟨answer, stream, journal⟩ := p
    cases answer with
    | value v =>
      exact (hnext v).lift.bind fun i hi => ⟨partSound_some.2 hp, partSound_some.2 hi⟩
    | ended => exact ⟨partSound_none, hinner⟩
    | pending => exact ⟨partSound_some.2 hp, hinner⟩

theorem sound_switchRounds {next : Value → Eval Stream}
    (hnext : ∀ v, Ends (Fault.Arises texts) (Stream.Sound texts) (next v)) (rounds : Nat)
    (outer inner : Option Stream) (j : Journal) (houter : PartSound texts outer)
    (hinner : PartSound texts inner) :
    Ends (Halt.Arises texts) (fun p => p.stream.Sound texts)
      (switchRounds poll next rounds outer inner j) := by
  induction rounds generalizing outer inner j with
  | zero => trivial
  | succ rounds ih =>
    have switch {outer inner : Option Stream} (houter : PartSound texts outer)
        (hinner : PartSound texts inner) : Stream.Sound texts (.switch outer inner next) :=
      .switch houter hinner (fun v _ => (hnext v).failure) fun v _ => (hnext v).result
    refine (sound_switchOuter hpoll hnext outer inner j houter hinner).bind fun pass hpass => ?_
    obtain ⟨outer, inner, journal, switched⟩ := pass
    obtain ⟨houter, hinner⟩ := hpass
    -- Without an inner stream the switch ends, waits or goes on with the outer one.
    have empty (j : Journal) : Ends (Halt.Arises texts) (fun p => p.stream.Sound texts)
        (if outer.isNone then .ok ⟨.ended, .switch none none next, j⟩
          else if !switched then .ok ⟨.pending, .switch outer none next, j⟩
          else switchRounds poll next rounds outer none j) := by
      split
      · exact switch partSound_none partSound_none
      · split
        · exact switch houter partSound_none
        · exact ih outer none j houter partSound_none
    cases inner with
    | none => exact empty journal
    | some s =>
      refine (hpoll s journal (partSound_some.1 hinner)).bind fun p hp => ?_
      obtain ⟨answer, stream, journal⟩ := p
      cases answer with
      | value v => exact switch houter (partSound_some.2 hp)
      | ended => exact empty journal
      | pending =>
        cases switched with
        | false => exact switch houter (partSound_some.2 hp)
        | true => exact ih outer (some stream) journal houter (partSound_some.2 hp)

end

/-- Sound streams stay sound, whenever they are polled. -/
theorem pollsSound (clock fuel : Nat) : PollsSound texts (Stream.poll clock fuel) := by
  induction fuel with
  | zero => exact fun _ _ _ => trivial
  | succ fuel ih =>
    intro s j hs
    cases hs with
    | values remaining => cases remaining <;> exact .values _
    | unopened broker invocation => exact .opened _ _ _
    | opened subscription source cursor => exact .opened _ _ _
    | map hinner => exact (ih _ j hinner).bind fun p hp => .map hp
    | @head inner hinner =>
      have gone : Stream.Sound texts (.head none) := .head nofun
      cases inner with
      | none => exact gone
      | some s =>
        refine (ih s j (hinner s rfl)).bind fun p hp => ?_
        obtain ⟨answer, stream, journal⟩ := p
        cases answer with
        | value v => exact gone
        | ended => exact gone
        | pending => exact .head (partSound_some.2 hp)
    | join hslots hcombine => exact sound_joinRounds ih hcombine (fuel + 1) _ j hslots
    | @switch outer inner next houter hinner hfault hnext =>
      refine sound_switchRounds ih (fun v => ?_) (fuel + 1) outer inner j houter hinner
      cases hv : next v with
      | error f => exact hfault v f hv
      | ok s => exact hnext v s hv

/-- So does a run of polls. -/
theorem sound_pollEach (schedule : List (Nat × Nat)) {s : Stream} (j : Journal)
    (hs : s.Sound texts) :
    Ends (Halt.Arises texts) (fun _ => True) (s.pollEach schedule j) := by
  induction schedule generalizing s j with
  | nil => trivial
  | cons turn later ih =>
    exact (pollsSound turn.1 turn.2 s j hs).bind fun p hp => (ih p.journal hp).bind fun _ _ =>
      trivial

/-! ### Composed streams -/

theorem sound_joinAll {streams : List Stream} {combine : List Value → Eval Value}
    (hstreams : ∀ s ∈ streams, s.Sound texts) (hcombine : ∀ vs, (combine vs).Sound texts) :
    Ends (Fault.Arises texts) (Stream.Sound texts) (joinAll streams combine) := by
  unfold joinAll
  split
  · exact (hcombine []).bind fun v _ => .values _
  · refine .join (fun slot hslot s hs => ?_) hcombine
    obtain ⟨t, ht, rfl⟩ := List.mem_map.1 hslot
    cases hs
    exact hstreams _ ht

theorem sound_switchOver {outer : Stream} {next : Value → Eval Stream}
    (houter : outer.Sound texts)
    (hnext : ∀ v, Ends (Fault.Arises texts) (Stream.Sound texts) (next v)) :
    (switchOver outer next).Sound texts :=
  .switch (partSound_some.2 houter) partSound_none (fun v _ => (hnext v).failure)
    fun v _ => (hnext v).result

end Stream

/-! ## Compiled expressions -/

/-- A broker that faults only in the text of a value, as the library's does. -/
def FunctionBroker.Sound (broker : FunctionBroker) : Prop :=
  ∀ call, Ends (fun f => call.name = "standard.toString" ∧ f.Unwritable) (fun _ => True)
    (broker call)

theorem FunctionBroker.Sound.calls {broker : FunctionBroker} (h : broker.Sound)
    {call : FunctionCall} (hcall : texts = true ∨ call.name ≠ "standard.toString") :
    (broker call).Sound texts :=
  (h call).weaken fun _ hf => ⟨hcall.resolve_right (· hf.1), hf.2⟩

/-- A context whose functions, if it has any, are sound. -/
def Context.Sound (ctx : Context) : Prop :=
  ∀ broker, ctx.functionBroker = some broker → broker.Sound

theorem Context.Sound.withRelative {ctx : Context} (h : ctx.Sound) (v position : Value) :
    (ctx.withRelative v position).Sound := h

namespace Compiled

/-- A compiled expression that faults, whatever is done with it, only in the ways that may
arise. -/
structure Sound (texts : Bool) (c : Compiled) : Prop where
  evaluate : ∀ ctx, ctx.Sound → (c.evaluate ctx).Sound texts
  subscribe : ∀ ctx, ctx.Sound → Ends (Fault.Arises texts) (Stream.Sound texts) (c.subscribe ctx)

theorem sound_constant (v : Value) : (constant v).Sound texts :=
  ⟨fun _ _ => trivial, fun _ _ => .values _⟩

theorem sound_pure {reads : Bool} {run : Context → Eval Value}
    (h : ∀ ctx, ctx.Sound → (run ctx).Sound texts) : (pure reads run).Sound texts :=
  ⟨h, fun ctx hctx => (h ctx hctx).bind fun _ _ => .values _⟩

theorem sound_stream {subscribe : Context → Eval Stream}
    (h : ∀ ctx, ctx.Sound → Ends (Fault.Arises texts) (Stream.Sound texts) (subscribe ctx)) :
    (stream subscribe).Sound texts :=
  ⟨fun _ _ => trivial, h⟩

variable {cs : List Compiled} {ctx : Context}

theorem sound_evaluateAll (hcs : ∀ c ∈ cs, c.Sound texts) (hctx : ctx.Sound) :
    (evaluateAll cs ctx).Sound texts :=
  (Ends.mapM fun c hc => (hcs c hc).evaluate ctx hctx).mono fun _ _ => trivial

theorem sound_subscribeAll (hcs : ∀ c ∈ cs, c.Sound texts) (hctx : ctx.Sound) :
    Ends (Fault.Arises texts) (fun streams => ∀ s ∈ streams, s.Sound texts)
      (subscribeAll cs ctx) :=
  Ends.mapM fun c hc => (hcs c hc).subscribe ctx hctx

/-- A combination of sound operands by a sound operator. -/
theorem sound_combineInContext {reads : Bool} {folding : Context}
    {op : Context → List Value → Eval Value} (hcs : ∀ c ∈ cs, c.Sound texts)
    (hfolding : folding.Sound) (hop : ∀ ctx, ctx.Sound → ∀ vs, (op ctx vs).Sound texts) :
    Ends (Fault.Arises texts) (Compiled.Sound texts) (combineInContext cs reads folding op) := by
  have run (ctx : Context) (hctx : ctx.Sound) :
      Eval.Sound texts (do op ctx (← evaluateAll cs ctx)) :=
    (sound_evaluateAll hcs hctx).bind fun vs _ => hop ctx hctx vs
  unfold combineInContext
  split
  · exact sound_stream fun ctx hctx => (sound_subscribeAll hcs hctx).bind fun streams hstreams =>
      Stream.sound_joinAll hstreams (hop ctx hctx)
  · split
    · exact sound_pure run
    · exact (sound_evaluateAll hcs hfolding).bind fun vs _ =>
        (hop folding hfolding vs).bind fun v _ => sound_constant v
  · exact sound_pure run

theorem sound_empty : Context.empty.Sound := nofun

/-- A combination whose operator does not read the context. -/
theorem sound_combine {op : List Value → Eval Value} (hcs : ∀ c ∈ cs, c.Sound texts)
    (hop : ∀ vs, (op vs).Sound texts) :
    Ends (Fault.Arises texts) (Compiled.Sound texts) (combine cs op) :=
  sound_combineInContext hcs sound_empty fun _ _ => hop

theorem sound_combineAt {l : SourceLocation} {op : List Value → Eval Value}
    (hcs : ∀ c ∈ cs, c.Sound texts) (hop : ∀ vs, (op vs).Sound texts) :
    Ends (Fault.Arises texts) (Compiled.Sound texts) (combineAt l cs op) :=
  sound_combine hcs fun vs => (hop vs).bind fun _ _ => trivial

end Compiled

/-! ## Chains -/

namespace Chain

variable {deciding : Bool} {l : SourceLocation} {ctx : Context} {cs : List Compiled}

theorem sound_evaluate (hcs : ∀ c ∈ cs, c.Sound texts) (hctx : ctx.Sound) (m : Metadata) :
    (evaluate deciding l ctx m cs).Sound texts := by
  induction cs generalizing m with
  | nil => trivial
  | cons c cs ih =>
    refine ((hcs c (by simp)).evaluate ctx hctx).bind fun v _ => ?_
    split
    · trivial
    · exact ih (fun d hd => hcs d (by simp [hd])) _

theorem sound_subscribe (hcs : ∀ c ∈ cs, c.Sound texts) (hctx : ctx.Sound) (m : Metadata) :
    Ends (Fault.Arises texts) (Stream.Sound texts) (subscribe deciding l ctx m cs) := by
  induction cs generalizing m with
  | nil => exact .values _
  | cons c cs ih =>
    refine ((hcs c (by simp)).subscribe ctx hctx).bind fun source hsource =>
      Stream.sound_switchOver hsource fun v => ?_
    split
    · exact .values _
    · exact ih (fun d hd => hcs d (by simp [hd])) _

theorem sound_compile (hcs : ∀ c ∈ cs, c.Sound texts) : (compile deciding l cs).Sound texts := by
  obtain ⟨v, -, hc⟩ | ⟨m, -, hc⟩ | ⟨m, rest, hf, -, hc⟩ | ⟨m, rest, hf, -, hc⟩ :=
    compile_cases deciding l cs <;> rw [hc]
  · exact Compiled.sound_constant v
  · exact Compiled.sound_constant _
  · exact Compiled.sound_stream fun ctx hctx =>
      sound_subscribe (fun c hm => hcs c (mem_of_front hf c hm)) hctx m
  · exact Compiled.sound_pure fun ctx hctx =>
      sound_evaluate (fun c hm => hcs c (mem_of_front hf c hm)) hctx m

end Chain

end PolicyExpr
