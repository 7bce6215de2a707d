import PolicyExpr.Proofs.ChainRecord
import PolicyExpr.Proofs.RecordedSwitch

/-!
# What a lazy chain subscribes to

A chain whose operands are streams is run here with a record of its subscriptions to the operands,
of every poll of such a subscription, and of every answer of the chain. Without the record this is
the chain of the library, a switch over its first operand whose inner streams are the rest of the
chain. `record_of_chain` says that the record keeps the law of chains.
-/
namespace PolicyExpr

open Operator (lazyStep)

/-! ## Chains that keep a record -/

namespace OnDemand

open ChainEvent

/-- An operand under a subscription: the metadata gathered in front of it, and the operands behind
it. -/
structure Stage where
  place : Nat
  subscription : Nat
  metadata : Metadata
  later : List Compiled

/-- What is left of a chain, from some operand on. -/
inductive ChainState where
  /-- The value of the chain is known. -/
  | settled (values : List Value)
  /-- The chain waits for an operand. -/
  | waiting (stage : Stage) (source : Option Stream)
  /-- An operand has passed on to those behind it. -/
  | passing (stage : Stage) (source : Option Stream) (behind : ChainState)

/-- A stage with its streams. -/
def Stage.state (stage : Stage) : Option Stream × Option ChainState → ChainState
  | (source, none) => .waiting stage source
  | (source, some behind) => .passing stage source behind

section

variable (deciding : Bool) (l : SourceLocation) (ctx : Context)

/-- Subscribes to the first of some operands, where there is one. -/
def start (place : Nat) (m : Metadata) : List Compiled → Recorded ChainEvent ChainState
  | [] => return .settled [Chain.exhausted deciding m]
  | operand :: later => fun record =>
    ((Halt.lift (operand.subscribe ctx)).map fun source =>
      .waiting ⟨place, subscriptions place record, m, later⟩ (some source),
      .subscribed place :: record)

/-- Looks at a value of an operand. -/
def proceed (stage : Stage) (v : Value) : Recorded ChainEvent ChainState :=
  match lazyStep deciding stage.metadata l v with
  | .decided w => return .settled [w]
  | .undecided m => start deciding ctx (stage.place + 1) m stage.later

/-- Polls the subscription of a stage and what is behind it. -/
def watch (poll : Poller) (ask : Asking ChainEvent ChainState) (rounds : Nat) (stage : Stage)
    (source : Option Stream) (behind : Option ChainState) (j : Journal) :
    Recorded ChainEvent (Reply ChainState) := do
  let r ← Recorded.switchRounds (.stream poll (.polled stage.place stage.subscription)) ask
    (proceed deciding l ctx stage) rounds source behind j
  return ⟨r.answer, stage.state r.state, r.journal⟩

/-- Polls what is left of a chain at a time. -/
def observe (clock : Nat) : (fuel : Nat) → Asking ChainEvent ChainState
  | 0, _, _ => .silent (.error .outOfFuel)
  | _ + 1, .settled [], j => return ⟨.ended, .settled [], j⟩
  | _ + 1, .settled (v :: vs), j => return ⟨.value v, .settled vs, j⟩
  | fuel + 1, .waiting stage source, j =>
    watch deciding l ctx (Stream.poll clock fuel) (observe clock fuel) (fuel + 1) stage source
      none j
  | fuel + 1, .passing stage source behind, j =>
    watch deciding l ctx (Stream.poll clock fuel) (observe clock fuel) (fuel + 1) stage source
      (some behind) j

/-- Polls a chain at a time. -/
def ask (clock fuel : Nat) : Asking ChainEvent ChainState := fun state j =>
  (observe deciding l ctx clock fuel state j).noting fun r => .replied r.answer

/-- Subscribes to a chain and polls it again and again. -/
def run (m : Metadata) (operands : List Compiled) (schedule : List (Nat × Nat)) (j : Journal) :
    Recorded ChainEvent (Course ChainState) := do
  let state ← start deciding ctx 0 m operands
  Asking.each (ask deciding l ctx) schedule state j

/-- What a chain does with a value of an operand. -/
def next (stage : Stage) (v : Value) : Eval Stream :=
  match lazyStep deciding stage.metadata l v with
  | .decided w => .ok (.once w)
  | .undecided m => Chain.subscribe deciding l ctx m stage.later

/-- What is left of a chain as a stream. -/
def stream : ChainState → Stream
  | .settled vs => .values vs
  | .waiting stage source => .switch source none (next deciding l ctx stage)
  | .passing stage source behind =>
    .switch source (some (stream behind)) (next deciding l ctx stage)

end

/-! ### Without the record -/

section

variable {deciding : Bool} {l : SourceLocation} {ctx : Context}

theorem start_shows (place : Nat) (m : Metadata) (operands : List Compiled) :
    (start deciding ctx place m operands).Shows (stream deciding l ctx)
      (Halt.lift (Chain.subscribe deciding l ctx m operands)) := by
  cases operands with
  | nil => exact .pure _ _
  | cons operand later =>
    intro record
    simp only [start, Chain.subscribe]
    cases operand.subscribe ctx <;> rfl

theorem proceed_shows (stage : Stage) (v : Value) :
    (proceed deciding l ctx stage v).Shows (stream deciding l ctx)
      (Halt.lift (next deciding l ctx stage v)) := by
  unfold proceed next
  cases lazyStep deciding stage.metadata l v with
  | decided w => exact .pure _ _
  | undecided m => exact start_shows (stage.place + 1) m stage.later

/-- The streams of a stage, as a switch. -/
theorem stream_state (stage : Stage) (streams : Option Stream × Option ChainState) :
    stream deciding l ctx (stage.state streams) =
      Recorded.switched id (stream deciding l ctx) (next deciding l ctx stage) streams := by
  obtain ⟨_ | _, _ | _⟩ := streams <;> rfl

theorem watch_shows {poll : Poller} {ask : Asking ChainEvent ChainState}
    (h : ask.Shows (stream deciding l ctx) poll) (rounds : Nat) (stage : Stage)
    (source : Option Stream) (behind : Option ChainState) (j : Journal) :
    (watch deciding l ctx poll ask rounds stage source behind j).Shows
      (Reply.polled (stream deciding l ctx))
      (Stream.switchRounds poll (next deciding l ctx stage) rounds source
        (behind.map (stream deciding l ctx)) j) := by
  have shown := Recorded.switchRounds_shows
    (Asking.stream_shows poll (ChainEvent.polled stage.place stage.subscription)) h
    (proceed_shows stage) rounds source behind j
  rw [Option.map_id] at shown
  refine shown.map fun r => ?_
  rw [Reply.polled, stream_state]
  rfl

theorem observe_shows (clock fuel : Nat) :
    (observe deciding l ctx clock fuel).Shows (stream deciding l ctx) (Stream.poll clock fuel) := by
  induction fuel with
  | zero => exact fun _ _ => .silent _ _
  | succ fuel ih =>
    intro state j
    cases state with
    | settled vs => cases vs <;> exact .pure _ _
    | waiting stage source => exact watch_shows ih (fuel + 1) stage source none j
    | passing stage source behind => exact watch_shows ih (fuel + 1) stage source (some behind) j

theorem run_shows (m : Metadata) (operands : List Compiled) (schedule : List (Nat × Nat))
    (j : Journal) :
    (run deciding l ctx m operands schedule j).Shows
      (fun c => { c with state := stream deciding l ctx c.state })
      (Halt.lift (Chain.subscribe deciding l ctx m operands) >>= (·.pollEach schedule j)) :=
  (start_shows 0 m operands).bind fun state => Asking.each_shows
    (fun clock fuel state j => (observe_shows clock fuel state j).noting _) schedule state j

end

/-! ### The law -/

section

variable {deciding : Bool} {l : SourceLocation} {ctx : Context} {m₀ m : Metadata} {n i : Nat}
  {stage : Stage} {state : ChainState} {e : ChainEvent} {record past : List ChainEvent}
  {a : Answer} {v w : Value}

/-- The record of a chain that has nothing to subscribe to. -/
structure Steady (deciding : Bool) (l : SourceLocation) (m : Metadata) (n : Nat)
    (record : List ChainEvent) : Prop where
  lawful : Recorded.Lawful (MayFollow deciding l m n) record
  opened : record ≠ []
  idle : ∀ i, i + 1 < n → record.head?.any (passesOn deciding i) = false

theorem Steady.law (h : Steady deciding l m n record) : Law deciding l m n record where
  lawful := h.lawful
  once := once_of_lawful h.lawful h.opened
  balanced i hi := by
    simpa [h.idle i hi] using balanced_of_lawful h.lawful hi

/-- An event that subscribes to nothing. -/
theorem Steady.cons (h : Steady deciding l m n record) (he : ∀ i, e ≠ .subscribed i)
    (hcurrent : ∀ i subscription a, e = .polled i subscription a →
      i < n ∧ Fresh i subscription record)
    (hreply : ∀ w, e = .replied (.value w) → ∃ vs, ChainEvent.Holds record vs ∧
      Concludes deciding l m n vs w) :
    Recorded.Lawful (MayFollow deciding l m n) (e :: record) :=
  Recorded.lawful_cons.2 ⟨⟨⟨fun h => absurd h (he 0), fun hnil => absurd hnil h.opened⟩,
    fun i => ⟨fun h => absurd h (he (i + 1)), fun ⟨hi, hdue⟩ => by simp [h.idle i hi] at hdue⟩,
    hcurrent, hreply⟩, h.lawful⟩

/-- The operands in front of a place carry, and this is the metadata gathered there. -/
def Gathered (deciding : Bool) (m₀ : Metadata) (place : Nat) (m : Metadata)
    (record : List ChainEvent) : Prop :=
  ∃ vs, vs.length = place ∧ ChainEvent.Holds record vs ∧
    (∀ v ∈ vs, carries deciding v = true) ∧ m = (vs.map Value.metadata).foldl .merge m₀

theorem Gathered.quiet (h : Gathered deciding m₀ i m record) (he : Quiet i e) :
    Gathered deciding m₀ i m (e :: record) := by
  obtain ⟨vs, rfl, hholds, hrest⟩ := h
  exact ⟨vs, rfl, hholds.quiet he, hrest⟩

/-- This is the value of the chain for the latest values. -/
def Concluded (deciding : Bool) (l : SourceLocation) (m₀ : Metadata) (n : Nat)
    (record : List ChainEvent) (w : Value) : Prop :=
  ∃ vs, ChainEvent.Holds record vs ∧ Concludes deciding l m₀ n vs w

theorem Concluded.silent (h : Concluded deciding l m₀ n record w) (he : Silent e) :
    Concluded deciding l m₀ n (e :: record) w := by
  obtain ⟨vs, hholds, hvalue⟩ := h
  exact ⟨vs, hholds.quiet (he.quiet _), hvalue⟩

/-- What a stage has to do with the record. -/
structure Stays (deciding : Bool) (m₀ : Metadata) (n : Nat) (stage : Stage)
    (record : List ChainEvent) : Prop where
  gathered : Gathered deciding m₀ stage.place stage.metadata record
  fresh : Fresh stage.place stage.subscription record
  count : stage.place + 1 + stage.later.length = n

theorem Stays.quiet (h : Stays deciding m₀ n stage record) (he : Quiet stage.place e) :
    Stays deciding m₀ n stage (e :: record) :=
  ⟨h.gathered.quiet he, h.fresh.quiet he, h.count⟩

theorem Stays.lt (h : Stays deciding m₀ n stage record) : stage.place < n := by
  have := h.count
  omega

/-- What the rest of a chain, from a place on, has to do with the record. -/
def Tracks (deciding : Bool) (l : SourceLocation) (m₀ : Metadata) (n place : Nat) :
    ChainState → List ChainEvent → Prop
  | .settled ws, record => ∀ w ∈ ws, Concluded deciding l m₀ n record w
  | .waiting stage _, record => stage.place = place ∧ Stays deciding m₀ n stage record
  | .passing stage _ behind, record => stage.place = place ∧ Stays deciding m₀ n stage record ∧
    Tracks deciding l m₀ n (place + 1) behind record

theorem Tracks.silent (h : Tracks deciding l m₀ n i state record) (he : Silent e) :
    Tracks deciding l m₀ n i state (e :: record) := by
  induction state generalizing i with
  | settled ws => exact fun w hw => (h w hw).silent he
  | waiting stage source => exact ⟨h.1, h.2.quiet (he.quiet _)⟩
  | passing stage source behind ih => exact ⟨h.1, h.2.1.quiet (he.quiet _), ih h.2.2⟩

/-- What the events of the operands from a place on leave alone. -/
def Stable (place : Nat) (F : List ChainEvent → Prop) : Prop :=
  ∀ e record, Quiet place e → F record → F (e :: record)

namespace Stable

variable {F : List ChainEvent → Prop}

theorem weaken (h : Stable i F) : Stable (i + 1) F := fun e record he => h e record he.weaken

theorem stays (h : Stable stage.place F) :
    Stable stage.place fun record => F record ∧ Stays deciding m₀ n stage record :=
  fun e record he hF => ⟨h e record he hF.1, hF.2.quiet he⟩

end Stable

/-- The rest of a chain from a place on, with a frame that it leaves alone. -/
def Rests (deciding : Bool) (l : SourceLocation) (m₀ : Metadata) (n place : Nat)
    (F : List ChainEvent → Prop) (state : ChainState) (record : List ChainEvent) : Prop :=
  Steady deciding l m₀ n record ∧ F record ∧ Tracks deciding l m₀ n place state record

/-- The rest of a chain after a poll. -/
def Answered (deciding : Bool) (l : SourceLocation) (m₀ : Metadata) (n place : Nat)
    (F : List ChainEvent → Prop) (r : Reply ChainState) (record : List ChainEvent) : Prop :=
  Rests deciding l m₀ n place F r.state record ∧
    ∀ w, r.answer = .value w → Concluded deciding l m₀ n record w

/-! ### Values of an operand -/

/-- The operand of a stage has just had a value. -/
def Pulled (deciding : Bool) (l : SourceLocation) (m₀ : Metadata) (n : Nat)
    (F : List ChainEvent → Prop) (stage : Stage) (v : Value) (record : List ChainEvent) : Prop :=
  ∃ past, record = .polled stage.place stage.subscription (.value v) :: past ∧
    Steady deciding l m₀ n past ∧ F past ∧ Stays deciding m₀ n stage past

/-- A poll of the operand of a stage. -/
theorem Steady.polled (h : Steady deciding l m₀ n record)
    (hstage : Stays deciding m₀ n stage record) (a : Answer) :
    Recorded.Lawful (MayFollow deciding l m₀ n)
      (.polled stage.place stage.subscription a :: record) := by
  refine h.cons nofun ?_ nofun
  rintro _ _ _ ⟨⟩
  exact ⟨hstage.lt, hstage.fresh⟩

/-- A value that carries is gathered. -/
theorem Gathered.value {k : Nat} (h : Gathered deciding m₀ i m record)
    (hv : carries deciding v = true) :
    Gathered deciding m₀ (i + 1) (m.merge v.metadata) (.polled i k (.value v) :: record) := by
  obtain ⟨vs, rfl, hholds, hcarries, rfl⟩ := h
  refine ⟨vs ++ [v], by simp, ?_, by simpa [or_imp, forall_and] using ⟨hcarries, hv⟩, by simp⟩
  exact Holds.concat_iff.2 ⟨hholds.quiet quiet_polled, latest_value⟩

/-- A value that decides concludes. -/
theorem Gathered.decides {k : Nat} (h : Gathered deciding m₀ i m record) (hi : i < n)
    (hv : carries deciding v = false) (hw : lazyStep deciding m l v = .decided w) :
    Concluded deciding l m₀ n (.polled i k (.value v) :: record) w := by
  obtain ⟨vs, rfl, hholds, hcarries, rfl⟩ := h
  exact ⟨vs ++ [v], Holds.concat_iff.2 ⟨hholds.quiet quiet_polled, latest_value⟩,
    concludes_decided hcarries hi hv hw⟩

/-- Where all operands carry the chain is exhausted. -/
theorem Gathered.exhausts (h : Gathered deciding m₀ n m record) :
    Concluded deciding l m₀ n record (Chain.exhausted deciding m) := by
  obtain ⟨vs, hcount, hholds, hcarries, rfl⟩ := h
  exact ⟨vs, hholds, concludes_exhausted hcarries hcount⟩

/-- The subscription to the next operand, right after a value that carries. -/
theorem Steady.subscribed {k : Nat} (hlawful : Recorded.Lawful (MayFollow deciding l m₀ n)
    (.polled i k (.value v) :: past)) (hv : carries deciding v = true) (hi : i + 1 < n) :
    Steady deciding l m₀ n (.subscribed (i + 1) :: .polled i k (.value v) :: past) where
  lawful := by
    refine Recorded.lawful_cons.2 ⟨⟨by simp, fun h => ?_, nofun, nofun⟩, hlawful⟩
    have : passesOn deciding h (.polled i k (.value v)) = true ↔ i = h := by
      by_cases hih : i = h <;> simp [passesOn, hih, hv]
    simp only [ChainEvent.subscribed.injEq, List.head?_cons, Option.any_some, this]
    omega
  opened := nofun
  idle _ _ := rfl

/-- A value after which nothing is subscribed to: only this operand can have brought the boolean
that decides nothing, and only one with operands behind it passes on. -/
theorem Steady.value {k : Nat} (hlawful : Recorded.Lawful (MayFollow deciding l m₀ n)
    (.polled i k (.value v) :: past)) (h : carries deciding v = false ∨ n = i + 1) :
    Steady deciding l m₀ n (.polled i k (.value v) :: past) where
  lawful := hlawful
  opened := nofun
  idle place hplace := by
    by_cases hi : i = place
    · subst hi
      rcases h with h | rfl
      · simp [passesOn, h]
      · exact absurd hplace (Nat.lt_irrefl _)
    · simp [passesOn, hi]

/-- A subscription to an operand opens the rest of the chain. -/
theorem start_ensures {F : List ChainEvent → Prop} {operand : Compiled} {later : List Compiled}
    (hsteady : Steady deciding l m₀ n (.subscribed i :: past)) (hF : F (.subscribed i :: past))
    (hgathered : Gathered deciding m₀ i m past) (hcount : i + 1 + later.length = n) :
    Recorded.Ensures (· = past) (start deciding ctx i m (operand :: later))
      (Rests deciding l m₀ n i F) (Law deciding l m₀ n) := by
  rintro _ rfl
  simp only [start]
  cases operand.subscribe ctx with
  | error f => exact hsteady.law
  | ok source =>
    have silent : Silent (.subscribed i) := fun _ => rfl
    exact ⟨hsteady, hF, rfl, hgathered.quiet (silent.quiet _), fresh_subscribed, hcount⟩

/-- What a chain does with a value keeps its law. -/
theorem proceed_ensures {F : List ChainEvent → Prop} (hF : Stable stage.place F) (v : Value) :
    Recorded.Ensures (Pulled deciding l m₀ n F stage v) (proceed deciding l ctx stage v)
      (Rests deciding l m₀ n (stage.place + 1) fun record =>
        F record ∧ Stays deciding m₀ n stage record)
      (Law deciding l m₀ n) := by
  refine .of_each ?_
  rintro _ ⟨past, rfl, steady, framed, stays⟩
  have lawful := steady.polled stays (.value v)
  have stable : Stable stage.place fun record => F record ∧ Stays deciding m₀ n stage record :=
    hF.stays
  have kept := stable (.polled stage.place stage.subscription (.value v)) past quiet_polled
    ⟨framed, stays⟩
  cases hv : carries deciding v with
  | false =>
    obtain ⟨w, hw, -⟩ := lazyStep_of_not_carries hv stage.metadata l
    simp only [proceed, hw]
    refine .pure ?_
    rintro _ rfl
    refine ⟨.value lawful (.inl hv), kept, fun w' hw' => ?_⟩
    rw [List.mem_singleton.1 hw']
    exact stays.gathered.decides stays.lt hv hw
  | true =>
    have gathered := stays.gathered.value (k := stage.subscription) hv
    have count := stays.count
    simp only [proceed, lazyStep_of_carries hv]
    cases hlater : stage.later with
    | nil =>
      obtain rfl : n = stage.place + 1 := by simpa [hlater] using count.symm
      refine .pure ?_
      rintro _ rfl
      refine ⟨.value lawful (.inr rfl), kept, fun w' hw' => ?_⟩
      rw [List.mem_singleton.1 hw']
      exact gathered.exhausts
    | cons operand later =>
      have hcount : stage.place + 1 + 1 + later.length = n := by
        simp only [hlater, List.length_cons] at count
        omega
      exact start_ensures (.subscribed lawful hv (by omega))
        (stable (.subscribed (stage.place + 1)) _ (fun _ _ => rfl) kept) gathered hcount

/-! ### Polls -/

/-- A stage and what is behind it. -/
def Keeps (deciding : Bool) (l : SourceLocation) (m₀ : Metadata) (n : Nat)
    (F : List ChainEvent → Prop) (stage : Stage) (behind : Option ChainState)
    (record : List ChainEvent) : Prop :=
  Steady deciding l m₀ n record ∧ (F record ∧ Stays deciding m₀ n stage record) ∧
    ∀ state, behind = some state → Tracks deciding l m₀ n (stage.place + 1) state record

namespace Keeps

variable {F : List ChainEvent → Prop} {behind : Option ChainState}

/-- Nothing behind the stage is known of when there is nothing. -/
theorem drop (h : Keeps deciding l m₀ n F stage behind record) :
    Keeps deciding l m₀ n F stage none record := ⟨h.1, h.2.1, nofun⟩

theorem rests (h : Keeps deciding l m₀ n F stage behind record) (source : Option Stream) :
    Rests deciding l m₀ n stage.place F (stage.state (source, behind)) record := by
  obtain ⟨steady, ⟨framed, stays⟩, tracks⟩ := h
  cases behind with
  | none => exact ⟨steady, framed, rfl, stays⟩
  | some state => exact ⟨steady, framed, rfl, stays, tracks state rfl⟩

/-- The rest behind a stage sees it as a part of its frame. -/
theorem some_iff : Keeps deciding l m₀ n F stage (some state) record ↔
    Rests deciding l m₀ n (stage.place + 1)
      (fun record => F record ∧ Stays deciding m₀ n stage record) state record := by
  simp [Keeps, Rests]

/-- A poll of the operand that brought no value. -/
theorem polled (h : Keeps deciding l m₀ n F stage behind record) (hF : Stable stage.place F)
    (hsilent : Silent (.polled stage.place stage.subscription a)) :
    Keeps deciding l m₀ n F stage behind
      (.polled stage.place stage.subscription a :: record) := by
  obtain ⟨steady, ⟨framed, stays⟩, tracks⟩ := h
  refine ⟨⟨steady.polled stays a, nofun, fun i _ => hsilent.passesOn⟩, ?_, ?_⟩
  · exact ⟨hF _ _ (hsilent.quiet _) framed, stays.quiet (hsilent.quiet _)⟩
  · exact fun state hstate => (tracks state hstate).silent hsilent

end Keeps

/-- The rest of a chain, polled, keeps its law and its frame. -/
def Observes (deciding : Bool) (l : SourceLocation) (m₀ : Metadata) (n : Nat)
    (ask : Asking ChainEvent ChainState) : Prop :=
  ∀ place F, Stable place F → ∀ state j,
    Recorded.Ensures (Rests deciding l m₀ n place F state) (ask state j)
      (Answered deciding l m₀ n place F) (Law deciding l m₀ n)

theorem watch_ensures {poll : Poller} {ask : Asking ChainEvent ChainState}
    (hask : Observes deciding l m₀ n ask) {F : List ChainEvent → Prop}
    (hF : Stable stage.place F) (rounds : Nat) (source : Option Stream)
    (behind : Option ChainState) (j : Journal) :
    Recorded.Ensures (Keeps deciding l m₀ n F stage behind)
      (watch deciding l ctx poll ask rounds stage source behind j)
      (Answered deciding l m₀ n stage.place F) (Law deciding l m₀ n) := by
  have polls := @Recorded.switchRounds_ensures ChainEvent Stream ChainState
    (.stream poll (.polled stage.place stage.subscription)) ask (proceed deciding l ctx stage)
    (fun _ => Keeps deciding l m₀ n F stage) (fun _ => Pulled deciding l m₀ n F stage)
    (fun _ state w record => Keeps deciding l m₀ n F stage (some state) record ∧
      Concluded deciding l m₀ n record w) (Law deciding l m₀ n)
    ?_ ?_ ?_ (fun _ _ _ h => h.1.law) rounds source behind j
  · refine polls.bind fun r => .pure fun record h => ?_
    obtain ⟨answer, ⟨source, behind⟩, journal⟩ := r
    cases answer with
    | value w =>
      obtain ⟨state, rfl, keeps, concluded⟩ := h
      refine ⟨keeps.rests source, ?_⟩
      rintro _ ⟨⟩
      exact concluded
    | ended =>
      obtain ⟨⟨⟩, keeps⟩ := h
      exact ⟨keeps.rests none, nofun⟩
    | pending => exact ⟨h.2.rests source, nofun⟩
  · intro s behind j
    refine Asking.stream_ensures (fun r record h => ?_) fun _ h => h.1.law
    obtain ⟨answer, state, journal⟩ := r
    cases answer with
    | value v => exact ⟨record, rfl, h.1, h.2.1⟩
    | ended => exact h.polled hF fun _ => rfl
    | pending => exact h.polled hF fun _ => rfl
  · exact fun s v => (proceed_ensures hF v).imp fun _ _ h => Keeps.some_iff.2 h
  · intro source state j
    refine (hask (stage.place + 1) _ hF.stays.weaken state j).mono (fun _ h => Keeps.some_iff.1 h)
      (fun r record h => ?_) fun _ h => h
    obtain ⟨rests, concluded⟩ := h
    obtain ⟨answer, state, journal⟩ := r
    cases answer with
    | value w => exact ⟨Keeps.some_iff.2 rests, concluded w rfl⟩
    | ended => exact (Keeps.some_iff.2 rests).drop
    | pending => exact Keeps.some_iff.2 rests

theorem observes (clock fuel : Nat) :
    Observes deciding l m₀ n (observe deciding l ctx clock fuel) := by
  induction fuel with
  | zero => exact fun place F hF state j => .silent nofun fun _ h => h.1.law
  | succ fuel ih =>
    intro place F hF state j
    cases state with
    | settled ws =>
      cases ws with
      | nil => exact .pure fun record h => ⟨h, nofun⟩
      | cons w ws =>
        refine .pure fun record h => ⟨⟨h.1, h.2.1, fun w' hw' => h.2.2 w' (by simp [hw'])⟩, ?_⟩
        rintro _ ⟨⟩
        exact h.2.2 w (by simp)
    | waiting stage source =>
      refine .of_each ?_
      rintro past ⟨steady, framed, rfl, stays⟩
      exact (watch_ensures ih hF (fuel + 1) source none j).following
        ⟨steady, ⟨framed, stays⟩, nofun⟩
    | passing stage source behind =>
      refine .of_each ?_
      rintro past ⟨steady, framed, rfl, stays, tracks⟩
      refine (watch_ensures ih hF (fuel + 1) source (some behind) j).following
        ⟨steady, ⟨framed, stays⟩, ?_⟩
      rintro _ ⟨⟩
      exact tracks

theorem ask_ensures (clock fuel : Nat) (state : ChainState) (j : Journal) :
    Recorded.Ensures (Rests deciding l m₀ n 0 (fun _ => True) state)
      (ask deciding l ctx clock fuel state j)
      (fun r => Rests deciding l m₀ n 0 (fun _ => True) r.state) (Law deciding l m₀ n) := by
  have observed : Observes deciding l m₀ n (observe deciding l ctx clock fuel) :=
    observes clock fuel
  have polls := observed 0 (fun _ => True) (fun _ _ _ h => h) state j
  refine Recorded.Ensures.noting (polls.imp fun r record h => ?_)
  obtain ⟨⟨steady, -, tracks⟩, concluded⟩ := h
  have silent : Silent (.replied r.answer) := fun _ => rfl
  refine ⟨⟨steady.cons nofun nofun ?_, nofun, fun _ _ => rfl⟩, trivial, tracks.silent silent⟩
  intro w hw
  exact concluded w (by simpa using hw)

/-- A record that begins with the subscription to the first operand. -/
theorem Steady.opening : Steady deciding l m₀ n [.subscribed 0] where
  lawful := Recorded.lawful_cons.2 ⟨⟨by simp, by simp, nofun, nofun⟩, Recorded.lawful_nil _⟩
  opened := nofun
  idle _ _ := rfl

theorem run_ensures (operand : Compiled) (later : List Compiled) (schedule : List (Nat × Nat))
    (j : Journal) :
    Recorded.Ensures (· = []) (run deciding l ctx m₀ (operand :: later) schedule j)
      (fun _ => Law deciding l m₀ (later.length + 1)) (Law deciding l m₀ (later.length + 1)) := by
  have opens : Recorded.Ensures (· = []) (start deciding ctx 0 m₀ (operand :: later))
      (Rests deciding l m₀ (later.length + 1) 0 fun _ => True)
      (Law deciding l m₀ (later.length + 1)) :=
    start_ensures .opening trivial ⟨[], rfl, .nil, nofun, rfl⟩ (by omega)
  exact opens.bind fun state => (Asking.each_ensures ask_ensures schedule state j).imp
    fun _ _ h => h.1.law

/-! ### The answers -/

theorem start_tells (place : Nat) (m : Metadata) (operands : List Compiled) (told : List Answer) :
    Recorded.Ensures (Asking.Told replied? told) (start deciding ctx place m operands)
      (fun _ => Asking.Told replied? told) (Asking.Told replied? told) := by
  cases operands with
  | nil => exact .pure fun _ h => h
  | cons operand later =>
    intro record h
    simp only [start]
    cases operand.subscribe ctx <;> exact h.cons rfl

theorem watch_tells {poll : Poller} {ask : Asking ChainEvent ChainState} {told : List Answer}
    (hask : ∀ state j, Recorded.Ensures (Asking.Told replied? told) (ask state j)
      (fun _ => Asking.Told replied? told) (Asking.Told replied? told))
    (rounds : Nat) (source : Option Stream) (behind : Option ChainState) (j : Journal) :
    Recorded.Ensures (Asking.Told replied? told)
      (watch deciding l ctx poll ask rounds stage source behind j)
      (fun _ => Asking.Told replied? told) (Asking.Told replied? told) := by
  refine (Recorded.switchRounds_keeps ?_ ?_ hask rounds source behind j).bind fun r =>
    .pure fun _ h => h
  · exact fun s j => Asking.stream_ensures (fun r _ h => Asking.Told.cons h rfl) fun _ h => h
  · intro v
    unfold proceed
    cases lazyStep deciding stage.metadata l v with
    | decided w => exact .pure fun _ h => h
    | undecided m => exact start_tells (stage.place + 1) m stage.later told

theorem observe_tells (clock fuel : Nat) (state : ChainState) (j : Journal) (told : List Answer) :
    Recorded.Ensures (Asking.Told replied? told) (observe deciding l ctx clock fuel state j)
      (fun _ => Asking.Told replied? told) (Asking.Told replied? told) := by
  induction fuel generalizing state j with
  | zero => exact .silent nofun fun _ h => h
  | succ fuel ih =>
    cases state with
    | settled ws => cases ws <;> exact .pure fun _ h => h
    | waiting stage source => exact watch_tells ih (fuel + 1) source none j
    | passing stage source behind => exact watch_tells ih (fuel + 1) source (some behind) j

theorem run_tells (m : Metadata) (operands : List Compiled) (schedule : List (Nat × Nat))
    (j : Journal) :
    Recorded.Ensures (Asking.Told replied? []) (run deciding l ctx m operands schedule j)
      (fun c => Asking.Told replied? c.answers.reverse) fun _ => True := by
  have asks (clock fuel : Nat) : (ask deciding l ctx clock fuel).Tells replied? :=
    fun state j told => Recorded.Ensures.noting ((observe_tells clock fuel state j told).imp
      fun _ _ h => Asking.Told.answer h rfl)
  exact ((start_tells 0 m operands []).mono (fun _ h => h) (fun _ _ h => h)
    fun _ _ => trivial).bind fun state => Asking.each_tells asks schedule state j

end

end OnDemand

/-! ## Chains of expressions -/

namespace Chain

open ChainEvent

/-- What the constants at the front of a chain leave: they carry, and their metadata is
gathered. -/
theorem front_eq_remaining {deciding : Bool} {l : SourceLocation} {m₀ m : Metadata}
    {cs operands : List Compiled} (h : front deciding l m₀ cs = .remaining m operands) :
    ∃ constants : List Value, cs = constants.map .constant ++ operands ∧
      m = (constants.map Value.metadata).foldl .merge m₀ ∧
      ∀ operand ∈ operands.head?, operand.nature ≠ .constant := by
  induction cs generalizing m₀ with
  | nil =>
    cases h
    exact ⟨[], rfl, rfl, nofun⟩
  | cons c cs ih =>
    cases c with
    | pure reads run =>
      cases h
      exact ⟨[], rfl, rfl, by rintro _ ⟨⟩; nofun⟩
    | stream subscribe =>
      cases h
      exact ⟨[], rfl, rfl, by rintro _ ⟨⟩; nofun⟩
    | constant v =>
      cases hv : carries deciding v with
      | false =>
        obtain ⟨w, hw, -⟩ := lazyStep_of_not_carries hv m₀ l
        simp [front, hw] at h
      | true =>
        simp only [front, lazyStep_of_carries hv] at h
        obtain ⟨constants, rfl, rfl, hoperand⟩ := ih h
        exact ⟨v :: constants, rfl, rfl, hoperand⟩

end Chain

/-- A subscription and a run of polls, written down, is a subscription to the compiled chain and a
run of its polls, the answers are those in the record, and the record keeps the law. -/
def OnDemand.Governs (deciding : Bool) (l : SourceLocation) (m : Metadata)
    (operands : List Compiled) (c : Compiled) : Prop :=
  ∀ ctx schedule j,
    let run := OnDemand.run deciding l ctx m operands schedule j []
    run.1.map (fun course => { course with state := OnDemand.stream deciding l ctx course.state }) =
        (Halt.lift (c.subscribe ctx) >>= (·.pollEach schedule j)) ∧
      (∀ course, run.1 = .ok course →
        run.2.reverse.filterMap ChainEvent.replied? = course.answers) ∧
      ChainEvent.Law deciding l m operands.length run.2

/-- The law of chains. A chain that compiles to a stream has constants at its front, whose metadata
are gathered when it is compiled, and operands behind them, which are subscribed to on demand; a
chain of one operand is that operand. -/
theorem Expression.record_of_chain {op : LazyOperator} {l : SourceLocation} {es : List Expression}
    {scope : Scope} {c : Compiled} (h : (Expression.lazy op l es).compile scope = .ok c)
    (hstream : c.nature = .stream) :
    ∃ cs, Compile.expressions scope es = .ok cs ∧ (cs = [c] ∨
      ∃ (constants : List Value) (operand : Compiled) (later : List Compiled),
        cs = constants.map .constant ++ operand :: later ∧ operand.nature ≠ .constant ∧
        OnDemand.Governs op.deciding l ((constants.map Value.metadata).foldl .merge .empty)
          (operand :: later) c) := by
  obtain ⟨-, -, h⟩ := bind_eq_ok h
  obtain ⟨cs, hcs, h⟩ := bind_eq_ok h
  refine ⟨cs, hcs, ?_⟩
  refine (Compile.joined_eq_ok (Compilation.ofEval_eq_ok h)).imp id fun h => ?_
  have hc := Except.ok.inj h
  obtain ⟨v, -, hchain⟩ | ⟨m, -, hchain⟩ | ⟨m, operands, hfront, ⟨s, hs, -⟩, hchain⟩ |
      ⟨m, operands, -, -, hchain⟩ := Chain.compile_cases op.deciding l cs
  · exact nomatch (congrArg Compiled.nature (hc.symm.trans hchain)).symm.trans hstream
  · exact nomatch (congrArg Compiled.nature (hc.symm.trans hchain)).symm.trans hstream
  · obtain ⟨constants, hcs, rfl, hoperand⟩ := Chain.front_eq_remaining hfront
    cases operands with
    | nil => cases hs
    | cons operand later =>
      refine ⟨constants, operand, later, hcs, hoperand operand rfl, fun ctx schedule j => ?_⟩
      rw [← hc, hchain]
      exact ⟨OnDemand.run_shows _ _ schedule j [], fun _ hcourse =>
        ((OnDemand.run_tells _ _ schedule j).result (Asking.told_nil _) hcourse).reverse,
        (OnDemand.run_ensures operand later schedule j).record rfl⟩
  · exact nomatch (congrArg Compiled.nature (hc.symm.trans hchain)).symm.trans hstream

/-- In `false || <x> || <y>` the finders are subscribed to on demand. -/
theorem Expression.record_of_disjunction :
    let finder (x : String) : Expression :=
      .basic .unknown (.environmentAttribute x [] none false) [] none
    let no : Expression := .basic .unknown (.literal (.boolean false)) [] none
    ∃ c x y, (Expression.lazy .disjunction .unknown [no, finder "x", finder "y"]).compile .empty =
        .ok c ∧
      Compile.expressions .empty [finder "x", finder "y"] = .ok [x, y] ∧
      OnDemand.Governs true .unknown .empty [x, y] c := by
  intro finder no
  obtain ⟨c, hc⟩ : ∃ c, (Expression.lazy .disjunction .unknown
    [no, finder "x", finder "y"]).compile .empty = .ok c := ⟨_, rfl⟩
  have hstream : c.nature = .stream := by
    cases hc
    rfl
  obtain ⟨cs, hcs, hlaw⟩ := Expression.record_of_chain hc hstream
  cases hcs
  rcases hlaw with hsingle | ⟨constants, operand, later, heq, hoperand, hlaw⟩
  · cases hsingle
  · match constants with
    | [] =>
      cases heq
      exact absurd rfl hoperand
    | [v] =>
      cases heq
      exact ⟨c, _, _, hc, rfl, hlaw⟩
    | _ :: _ :: _ => cases heq

end PolicyExpr
