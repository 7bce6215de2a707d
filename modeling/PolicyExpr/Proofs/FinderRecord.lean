import Mathlib.Data.List.Forall2
import PolicyExpr.Compile.AttributeFinder
import PolicyExpr.Proofs.JoinRecord
import PolicyExpr.Proofs.Lineage

/-!
# The record of an attribute finder

What happens to a finder is what happens to the join of its entity, its options and its arguments,
its subscriptions to sources, the polls of these, and its answers. A record falls into episodes: a
vector of parameters, and the events from it to the next one. Here is the law that such a record
keeps: where something is wrong with a vector, its episode is one error and nothing is asked of the
broker; else the broker is asked once, and the values of this one source are forwarded, each as
soon as it was pulled.
-/
namespace PolicyExpr

open Value (mergedMetadata)

/-- A source answers thus, the latest answer first, when it is polled again and again from its
start on. -/
inductive Source.Plays (source : Source) : (cursor : Nat) → List Answer → Prop where
  | start : Plays source 0 []
  | poll {cursor cursor' : Nat} {answers : List Answer} {a : Answer} (clock : Nat)
      (hplays : Plays source cursor answers) (hpoll : source.poll clock cursor = (a, cursor')) :
      Plays source cursor' (a :: answers)

/-- What happens to a finder. -/
inductive FinderEvent where
  /-- Something happened to the join of the entity, the options and the arguments, in this order. -/
  | parameters (e : JoinEvent)
  /-- The broker was asked for a source. -/
  | asked (subscription : Nat) (invocation : AttributeInvocation)
  /-- The source of a subscription was polled. -/
  | polled (subscription : Nat) (answer : Answer)
  /-- The finder answered to a poll. -/
  | answered (answer : Answer)

namespace FinderEvent

/-! ## Episodes -/

def parameters? : FinderEvent → Option JoinEvent
  | parameters e => some e
  | _ => none

/-- The vector of parameters that the join emitted. -/
def vector? : FinderEvent → Option (List Value)
  | parameters (.answered (.value v)) => v.asArray?
  | _ => none

def asked? : FinderEvent → Option (Nat × AttributeInvocation)
  | asked n i => some (n, i)
  | _ => none

def polled? : FinderEvent → Option (Nat × Answer)
  | polled n a => some (n, a)
  | _ => none

/-- The value pulled from a source. -/
def pulled? : FinderEvent → Option Value
  | polled _ (.value v) => some v
  | _ => none

/-- The answer of the finder. -/
def answered? : FinderEvent → Option Answer
  | answered a => some a
  | _ => none

/-- The value that the finder emitted. -/
def emitted? : FinderEvent → Option Value
  | answered (.value v) => some v
  | _ => none

/-- Something was done for a vector. -/
def acts : FinderEvent → Bool
  | asked _ _ => true
  | polled _ _ => true
  | answered (.value _) => true
  | _ => false

/-- The vectors, each with the events from it to the next one, all of them the latest first. What
happened before the first vector is left out. -/
def episodes : List FinderEvent → List (List Value × List FinderEvent)
  | [] => []
  | e :: past =>
    match e.vector?, episodes past with
    | some vs, others => (vs, []) :: others
    | none, [] => []
    | none, (vs, events) :: others => (vs, e :: events) :: others

/-! ## The law -/

section

variable (ctx : Context) (name : String) (l : SourceLocation)

/-- Something is wrong with a vector, and this is the error that the finder emits for it. -/
inductive Fails : List Value → Value → Prop where
  /-- The first error among the parameters, under the metadata of all of them; it keeps the place
  that it has. -/
  | operand {front rest : List Value} {f : Failure} {place : Option SourceLocation} {m : Metadata}
      (hfront : front.any Value.isError = false) :
      Fails (front ++ ⟨.error f place, m⟩ :: rest)
        ⟨.error f (some (place.getD l)), mergedMetadata (front ++ ⟨.error f place, m⟩ :: rest)⟩
  | entity {entity options : Value} {arguments : List Value}
      (herror : (entity :: options :: arguments).any Value.isError = false)
      (hentity : entity.isUndefined = true) :
      Fails (entity :: options :: arguments) (.failureAt .undefinedEntity l)
  | broker {entity options : Value} {arguments : List Value}
      (herror : (entity :: options :: arguments).any Value.isError = false)
      (hentity : entity.isUndefined = false) (hbroker : ctx.attributeBroker = none) :
      Fails (entity :: options :: arguments) (.failureAt .noAttributeBroker l)

/-- Nothing is wrong with a vector, and this is what the broker is asked for. -/
inductive Asks : List Value → AttributeBroker → AttributeInvocation → Prop where
  | parameters {entity options : Value} {arguments : List Value} {broker : AttributeBroker}
      (herror : (entity :: options :: arguments).any Value.isError = false)
      (hentity : entity.isUndefined = false) (hbroker : ctx.attributeBroker = some broker) :
      Asks (entity :: options :: arguments) broker
        (AttributeFinder.invocation ctx name entity options arguments)

/-- The entity of a vector is secret. -/
def secretEntity (vs : List Value) : Bool := vs.head?.any Value.isSecret

/-- A value of a source as it is forwarded: tagged with the location of the finder, which is also
the place of an error that has none, and secret if the entity is. -/
structure Forwards (secret : Bool) (v w : Value) : Prop where
  kind : w.kind = match v.kind with
    | .error f none => .error f (some l)
    | kind => kind
  locations : ∀ place, place ∈ w.metadata.locations ↔ place ∈ v.metadata.locations ∨ place = l
  secret : w.isSecret = (v.isSecret || secret)

/-- What happens between a vector and the next one. -/
inductive Episode (vs : List Value) (events : List FinderEvent) : Prop where
  /-- One error, and nothing is asked. -/
  | failed (w : Value) (hfails : Fails ctx l vs w) (hasked : events.filterMap asked? = [])
      (hpolled : events.filterMap polled? = []) (hemitted : events.filterMap emitted? = [w])
  /-- One subscription, which alone is polled, and every value of it is forwarded in order. -/
  | served (broker : AttributeBroker) (n : Nat) (i : AttributeInvocation) (answers : List Answer)
      (hasks : Asks ctx name vs broker i) (hasked : events.filterMap asked? = [(n, i)])
      (hpolled : events.filterMap polled? = answers.map (n, ·))
      (hplays : ∃ cursor, (broker n i).Plays cursor answers)
      (hforwards : List.Forall₂ (Forwards l (secretEntity vs)) (events.filterMap pulled?)
        (events.filterMap emitted?))

/-- The law of finders with `n` parameters. -/
structure Law (n : Nat) (record : List FinderEvent) : Prop where
  /-- The join of the parameters keeps the law of joins: its vectors are made of the latest values
  of all parameters, in order. -/
  parameters : JoinEvent.Law n (fun vs => .ok (.array vs)) (record.filterMap parameters?)
  count : ∀ p ∈ episodes record, p.1.length = n
  /-- Nothing is done before the first vector. -/
  accounted : record.filter acts = (episodes record).flatMap fun p => p.2.filter acts
  /-- Every vector is dealt with, also the last one of a run that halts. -/
  episodes : ∀ p ∈ episodes record, Episode ctx name l p.1 p.2

/-! ### Secrets -/

/-- Which values of an episode are secret: an error of a parameter as soon as any parameter is
secret, no error that is due to the entity or to the lack of a broker, and a value of a source
exactly if the entity or the value itself is. -/
structure Exposes (vs : List Value) (events : List FinderEvent) : Prop where
  operand : vs.any Value.isError = true →
    ∀ w ∈ events.filterMap emitted?, w.isSecret = vs.any Value.isSecret
  failure : vs.any Value.isError = false →
    vs.head?.any Value.isUndefined = true ∨ ctx.attributeBroker = none →
    ∀ w ∈ events.filterMap emitted?, w.isSecret = false
  source : vs.any Value.isError = false →
    vs.head?.any Value.isUndefined = false → ctx.attributeBroker ≠ none →
    List.Forall₂ (fun v w => w.isSecret = (v.isSecret || secretEntity vs))
      (events.filterMap pulled?) (events.filterMap emitted?)

end

/-! ## Functions of a record -/

variable {ctx : Context} {name : String} {l : SourceLocation} {n : Nat} {e : FinderEvent}
  {past record events : List FinderEvent} {vs : List Value} {v w : Value}
  {others : List (List Value × List FinderEvent)} {broker : AttributeBroker}
  {i : AttributeInvocation}

theorem episodes_vector (h : e.vector? = some vs) :
    episodes (e :: past) = (vs, []) :: episodes past := by
  simp [episodes, h]

theorem episodes_before (h : e.vector? = none) (hpast : episodes past = []) :
    episodes (e :: past) = [] := by
  simp [episodes, h, hpast]

theorem episodes_within (h : e.vector? = none) (hpast : episodes past = (vs, events) :: others) :
    episodes (e :: past) = (vs, e :: events) :: others := by
  simp [episodes, h, hpast]

/-- The event does nothing for a vector. -/
def Idle (e : FinderEvent) : Prop := e.vector? = none ∧ e.acts = false

theorem idle_parameters {e : JoinEvent} (h : e.answered? = none) : (parameters e).Idle := by
  cases e with
  | answered a => cases h
  | part i a => exact ⟨rfl, rfl⟩
  | passed => exact ⟨rfl, rfl⟩

theorem idle_parameters_answered {a : Answer} (h : ∀ v, a ≠ .value v) :
    (parameters (.answered a)).Idle := by
  cases a with
  | value v => exact absurd rfl (h v)
  | pending => exact ⟨rfl, rfl⟩
  | ended => exact ⟨rfl, rfl⟩

theorem idle_answered {a : Answer} (h : ∀ v, a ≠ .value v) : (answered a).Idle := by
  cases a with
  | value v => exact absurd rfl (h v)
  | pending => exact ⟨rfl, rfl⟩
  | ended => exact ⟨rfl, rfl⟩

namespace Idle

theorem asked? (h : e.Idle) : e.asked? = none := by
  cases e with
  | asked n i => cases h.2
  | parameters e => rfl
  | polled n a => rfl
  | answered a => rfl

theorem polled? (h : e.Idle) : e.polled? = none := by
  cases e with
  | polled n a => cases h.2
  | parameters e => rfl
  | asked n i => rfl
  | answered a => rfl

theorem pulled? (h : e.Idle) : e.pulled? = none := by
  cases e with
  | polled n a => cases h.2
  | parameters e => rfl
  | asked n i => rfl
  | answered a => rfl

theorem emitted? (h : e.Idle) : e.emitted? = none := by
  cases e with
  | answered a =>
    cases a with
    | value v => cases h.2
    | pending => rfl
    | ended => rfl
  | parameters e => rfl
  | asked n i => rfl
  | polled n a => rfl

end Idle

/-! ## Episodes that go on -/

/-- What does nothing for a vector makes no difference to its episode. -/
theorem Episode.idle (h : Episode ctx name l vs events) (he : e.Idle) :
    Episode ctx name l vs (e :: events) := by
  cases h with
  | failed w hfails hasked hpolled hemitted =>
    refine .failed w hfails ?_ ?_ ?_
    · rw [List.filterMap_cons_none he.asked?, hasked]
    · rw [List.filterMap_cons_none he.polled?, hpolled]
    · rw [List.filterMap_cons_none he.emitted?, hemitted]
  | served broker n i answers hasks hasked hpolled hplays hforwards =>
    refine .served broker n i answers hasks ?_ ?_ hplays ?_
    · rw [List.filterMap_cons_none he.asked?, hasked]
    · rw [List.filterMap_cons_none he.polled?, hpolled]
    · rw [List.filterMap_cons_none he.pulled?, List.filterMap_cons_none he.emitted?]
      exact hforwards

theorem Asks.not_error (h : Asks ctx name vs broker i) : vs.any Value.isError = false := by
  cases h with
  | parameters herror hentity hbroker => exact herror

theorem Asks.entity (h : Asks ctx name vs broker i) :
    vs.head?.any Value.isUndefined = false ∧ ctx.attributeBroker ≠ none := by
  cases h with
  | parameters herror hentity hbroker => simp [hentity, hbroker]

theorem Fails.secret_of_error (h : Fails ctx l vs w) (herror : vs.any Value.isError = true) :
    w.isSecret = vs.any Value.isSecret := by
  cases h with
  | operand hfront => exact Value.secret_mergedMetadata _
  | entity hnone hentity => exact absurd herror (by rw [hnone]; decide)
  | broker hnone hentity hbroker => exact absurd herror (by rw [hnone]; decide)

theorem Fails.not_secret (h : Fails ctx l vs w) (herror : vs.any Value.isError = false) :
    w.isSecret = false := by
  cases h with
  | operand hfront => simp [Value.isError, Value.type, Kind.type] at herror
  | entity hnone hentity => rfl
  | broker hnone hentity hbroker => rfl

theorem Fails.brokerless (h : Fails ctx l vs w) (herror : vs.any Value.isError = false)
    (hentity : vs.head?.any Value.isUndefined = false) : ctx.attributeBroker = none := by
  cases h with
  | operand hfront => simp [Value.isError, Value.type, Kind.type] at herror
  | entity hnone hundefined => simp [hundefined] at hentity
  | broker hnone hdefined hbroker => exact hbroker

/-- The secrets of an episode. -/
theorem Episode.exposes (h : Episode ctx name l vs events) : Exposes ctx vs events := by
  cases h with
  | failed w hfails hasked hpolled hemitted =>
    refine ⟨fun herror => ?_, fun herror _ => ?_, fun herror hentity hbroker => ?_⟩
    · rw [hemitted]
      simpa using hfails.secret_of_error herror
    · rw [hemitted]
      simpa using hfails.not_secret herror
    · exact absurd (hfails.brokerless herror hentity) hbroker
  | served broker n i answers hasks hasked hpolled hplays hforwards =>
    refine ⟨fun herror => ?_, fun _ hwrong => ?_, fun _ _ _ => ?_⟩
    · simp [hasks.not_error] at herror
    · rcases hwrong with hundefined | hnone
      · simp [hasks.entity.1] at hundefined
      · exact absurd hnone hasks.entity.2
    · exact List.Forall₂.imp (fun v w hvw => hvw.secret) hforwards

end FinderEvent

end PolicyExpr
