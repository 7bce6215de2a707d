import PolicyExpr.Proofs.RecordedFinder

/-!
# What an attribute finder does with its parameters

The record of a finder keeps the law of finders: for every vector of parameters it emits one error,
or subscribes once and forwards what it pulls. The values that it emits are secret as the entity
and the source say, so that a secret argument does not make them so.
-/
namespace PolicyExpr

open Value (array failureAt)

namespace Finding

open FinderEvent

variable {ctx : Context} {name : String} {l : SourceLocation} {head : Bool}

/-! ### Vectors and values -/

variable {n k : Nat} {vs : List Value} {events record : List FinderEvent} {e : FinderEvent}

/-- What is due for a vector. -/
def Due (ctx : Context) (name : String) (l : SourceLocation) (vs : List Value) : Supply → Prop
  | .failing w => Fails ctx l vs w
  | .wanted broker i secret => Asks ctx name vs broker i ∧ secret = secretEntity vs
  | .exhausted => False
  | .running _ _ _ _ => False

/-- The first error of a vector, placed. -/
theorem fails_firstError {w : Value} (h : Operator.firstError? vs = some w) :
    Fails ctx l vs (w.locate l) := by
  obtain ⟨⟨kind, m⟩, hfind, rfl⟩ := Option.map_eq_some_iff.1 h
  obtain ⟨herror, front, rest, rfl, hfront⟩ := List.find?_eq_some_iff_append.1 hfind
  have hfront : front.any Value.isError = false := by simpa using hfront
  have hmerge : m.merge (Value.mergedMetadata (front ++ ⟨kind, m⟩ :: rest)) =
      Value.mergedMetadata (front ++ ⟨kind, m⟩ :: rest) :=
    Metadata.merge_eq_of_le (Value.le_mergedMetadata (v := ⟨kind, m⟩) (by simp))
  cases kind with
  | error f place =>
    have fails : Fails ctx l (front ++ ⟨.error f place, m⟩ :: rest) _ := .operand hfront
    cases place <;> simpa [Value.mergeMetadata, Value.locate, hmerge] using fails
  | _ => simp [Value.isError, Value.type, Kind.type] at herror

/-- A finder does what is due for a vector. -/
theorem due_supply (hvs : 2 ≤ vs.length) : Due ctx name l vs (supply ctx name l (array vs)) := by
  match vs, hvs with
  | entity :: options :: arguments, _ =>
    unfold supply
    simp only [array, Value.ofKind, Value.asArray?]
    cases herror : Operator.firstError? (entity :: options :: arguments) with
    | some w => exact fails_firstError herror
    | none =>
      have herror : (entity :: options :: arguments).any Value.isError = false := by
        simpa [Operator.firstError?] using herror
      cases hentity : entity.isUndefined with
      | true => exact .entity herror hentity
      | false =>
        cases hbroker : ctx.attributeBroker with
        | none => exact .broker herror hentity hbroker
        | some broker => exact ⟨.parameters herror hentity hbroker, rfl⟩

theorem kind_forwarded (l : SourceLocation) (secret : Bool) (v : Value) :
    (AttributeFinder.forwarded l secret v).kind = (v.locate l).kind := by
  cases secret <;> rfl

theorem forwards_forwarded (l : SourceLocation) (secret : Bool) (v : Value) :
    Forwards l secret v (AttributeFinder.forwarded l secret v) where
  kind := by
    rw [kind_forwarded, Value.locate]
    split <;> simp_all
  locations place := by
    cases secret <;>
      simp [AttributeFinder.forwarded, Value.tagged, Value.asSecret, Metadata.ofLocation,
        Metadata.hidden]
  secret := by
    cases secret <;>
      simp [AttributeFinder.forwarded, Value.tagged, Value.asSecret, Value.isSecret,
        Metadata.ofLocation, Metadata.hidden]

/-! ### What a finder has in hand -/

/-- A subscription serves a vector: all that was pulled from it was forwarded. -/
inductive Serving (ctx : Context) (name : String) (l : SourceLocation) (k cursor : Nat) :
    Source → Bool → List Value → List FinderEvent → Prop where
  | serving {vs : List Value} {events : List FinderEvent} {broker : AttributeBroker}
      {i : AttributeInvocation} {answers : List Answer}
      (hasks : Asks ctx name vs broker i) (hasked : events.filterMap asked? = [(k, i)])
      (hpolled : events.filterMap polled? = answers.map (k, ·))
      (hplays : (broker k i).Plays cursor answers)
      (hforwards : List.Forall₂ (Forwards l (secretEntity vs)) (events.filterMap pulled?)
        (events.filterMap emitted?)) :
      Serving ctx name l k cursor (broker k i) (secretEntity vs) vs events

/-- What a finder that rests has in hand for its latest vector. -/
def Held (ctx : Context) (name : String) (l : SourceLocation) :
    Option Supply → List Value → List FinderEvent → Prop
  | none => Episode ctx name l
  | some .exhausted => Episode ctx name l
  | some (.running k source cursor secret) => Serving ctx name l k cursor source secret
  | some (.failing _) => fun _ _ => False
  | some (.wanted _ _ _) => fun _ _ => False

namespace Serving

variable {source : Source} {cursor cursor' clock : Nat} {secret : Bool} {a : Answer} {v : Value}

theorem episode (h : Serving ctx name l k cursor source secret vs events) :
    Episode ctx name l vs events := by
  cases h with
  | serving hasks hasked hpolled hplays hforwards =>
    exact .served _ k _ _ hasks hasked hpolled ⟨cursor, hplays⟩ hforwards

theorem idle (h : Serving ctx name l k cursor source secret vs events) (he : e.Idle) :
    Serving ctx name l k cursor source secret vs (e :: events) := by
  cases h with
  | serving hasks hasked hpolled hplays hforwards =>
    refine .serving hasks ?_ ?_ hplays ?_
    · rw [List.filterMap_cons_none he.asked?, hasked]
    · rw [List.filterMap_cons_none he.polled?, hpolled]
    · rw [List.filterMap_cons_none he.pulled?, List.filterMap_cons_none he.emitted?]
      exact hforwards

/-- The start of a subscription. -/
theorem initial {broker : AttributeBroker} {i : AttributeInvocation} (h : Asks ctx name vs broker i) :
    Serving ctx name l k 0 (broker k i) (secretEntity vs) vs [.asked k i] :=
  .serving h rfl rfl .start .nil

/-- A poll that brings no value. -/
theorem polled (h : Serving ctx name l k cursor source secret vs events)
    (hpoll : source.poll clock cursor = (a, cursor')) (ha : ∀ v, a ≠ .value v) :
    Serving ctx name l k cursor' source secret vs (.polled k a :: events) := by
  have hpulled : pulled? (.polled k a) = none := by
    cases a with
    | value v => exact absurd rfl (ha v)
    | pending => rfl
    | ended => rfl
  cases h with
  | serving hasks hasked hpolled hplays hforwards =>
    refine .serving hasks hasked ?_ (hplays.poll clock hpoll) ?_
    · exact congrArg ((k, a) :: ·) hpolled
    · rw [List.filterMap_cons_none hpulled]
      exact hforwards

/-- A value, and its emission. -/
theorem forwarded (h : Serving ctx name l k cursor source secret vs events)
    (hpoll : source.poll clock cursor = (.value v, cursor')) :
    Serving ctx name l k cursor' source secret vs
      (.answered (.value (AttributeFinder.forwarded l secret v)) :: .polled k (.value v) ::
        events) := by
  cases h with
  | serving hasks hasked hpolled hplays hforwards =>
    refine .serving hasks hasked ?_ (hplays.poll clock hpoll) ?_
    · exact congrArg ((k, Answer.value v) :: ·) hpolled
    · exact .cons (forwards_forwarded l _ v) hforwards

end Serving

theorem Held.episode {inner : Option Supply} (h : Held ctx name l inner vs events) :
    Episode ctx name l vs events := by
  match inner, h with
  | none, h => exact h
  | some .exhausted, h => exact h
  | some (.running _ _ _ _), h => exact Serving.episode h

theorem Held.idle {inner : Option Supply} (h : Held ctx name l inner vs events) (he : e.Idle) :
    Held ctx name l inner vs (e :: events) := by
  match inner, h with
  | none, h => exact Episode.idle h he
  | some .exhausted, h => exact Episode.idle h he
  | some (.running _ _ _ _), h => exact Serving.idle h he

/-! ### The record -/

/-- A record whose latest episode is so far of this kind; before the first one this holds. -/
structure Stands (ctx : Context) (name : String) (l : SourceLocation) (n : Nat)
    (latest : List Value → List FinderEvent → Prop) (before : Prop) (record : List FinderEvent) :
    Prop where
  count : ∀ p ∈ episodes record, p.1.length = n
  accounted : record.filter acts = (episodes record).flatMap fun p => p.2.filter acts
  past : ∀ p ∈ (episodes record).tail, Episode ctx name l p.1 p.2
  latest : ∀ p ∈ (episodes record).head?, latest p.1 p.2
  before : episodes record = [] → before

namespace Stands

variable {latest latest' : List Value → List FinderEvent → Prop} {before before' : Prop}

theorem initial (h : before) : Stands ctx name l n latest before [] :=
  ⟨by simp [episodes], rfl, by simp [episodes], by simp [episodes], fun _ => h⟩

theorem mono (h : Stands ctx name l n latest before record)
    (hlatest : ∀ vs events, vs.length = n → latest vs events → latest' vs events)
    (hbefore : before → before') : Stands ctx name l n latest' before' record where
  count := h.count
  accounted := h.accounted
  past := h.past
  latest p hp := hlatest p.1 p.2 (h.count p (List.mem_of_mem_head? hp)) (h.latest p hp)
  before hnone := hbefore (h.before hnone)

/-- There is a latest episode. -/
theorem exists_latest (h : Stands ctx name l n latest False record) :
    ∃ vs events, latest vs events := by
  cases hepisodes : episodes record with
  | nil => exact (h.before hepisodes).elim
  | cons p others => exact ⟨p.1, p.2, h.latest p (by simp [hepisodes])⟩

/-- One more event of the latest episode. -/
theorem cons (h : Stands ctx name l n latest before record) (he : e.vector? = none)
    (hacts : e.acts = true → ¬before)
    (hlatest : ∀ vs events, latest vs events → latest' vs (e :: events)) :
    Stands ctx name l n latest' before (e :: record) := by
  obtain ⟨count, accounted, past, hlast, hbefore⟩ := h
  cases hepisodes : episodes record with
  | nil =>
    have hsame : episodes (e :: record) = [] := episodes_before he hepisodes
    have hidle : e.acts = false := by
      rw [← Bool.not_eq_true]
      exact fun h => hacts h (hbefore hepisodes)
    refine ⟨by simp [hsame], ?_, by simp [hsame], by simp [hsame], fun _ => hbefore hepisodes⟩
    rw [hsame, List.filter_cons_of_neg (by simp [hidle]), accounted, hepisodes]
  | cons p others =>
    obtain ⟨vs, events⟩ := p
    have hsame : episodes (e :: record) = (vs, e :: events) :: others := episodes_within he hepisodes
    rw [hepisodes] at count accounted past hlast
    refine ⟨?_, ?_, ?_, ?_, fun hnone => ?_⟩
    · rw [hsame]
      simpa using count
    · rw [hsame, List.filter_cons, accounted]
      cases hacting : e.acts <;> simp [hacting]
    · rw [hsame]
      exact past
    · rw [hsame]
      rintro _ ⟨⟩
      exact hlatest vs events (hlast _ rfl)
    · rw [hsame] at hnone
      cases hnone

/-- A new vector, after an episode that is complete. -/
theorem vector (h : Stands ctx name l n latest before record)
    (hlatest : ∀ vs events, latest vs events → Episode ctx name l vs events)
    (he : e.vector? = some vs) (hacts : e.acts = false) (hcount : vs.length = n) :
    Stands ctx name l n (fun vs' events => vs' = vs ∧ events = []) False (e :: record) := by
  have hsame : episodes (e :: record) = (vs, []) :: episodes record := episodes_vector he
  refine ⟨?_, ?_, ?_, ?_, fun hnone => ?_⟩
  · rw [hsame]
    simpa [hcount] using h.count
  · rw [hsame, List.filter_cons_of_neg (by simp [hacts]), h.accounted]
    simp
  · rw [hsame, List.tail_cons]
    intro p hp
    cases hepisodes : episodes record with
    | nil => simp [hepisodes] at hp
    | cons q others =>
      rw [hepisodes] at hp
      rcases List.mem_cons.1 hp with rfl | hp
      · exact hlatest _ _ (h.latest p (by simp [hepisodes]))
      · exact h.past p (by simpa [hepisodes] using hp)
  · rw [hsame]
    rintro _ ⟨⟩
    exact ⟨rfl, rfl⟩
  · rw [hsame] at hnone
    cases hnone

end Stands

/-- What the join of the parameters, while it lasts, has to do with the record. -/
def Joined (n : Nat) (outer : Option (List (Slot Stream))) (record : List FinderEvent) : Prop :=
  match outer with
  | some slots =>
    Joining.Rests n (fun vs => .ok (array vs)) slots (record.filterMap parameters?)
  | none => JoinEvent.Law n (fun vs => .ok (array vs)) (record.filterMap parameters?)

theorem Joined.law {outer : Option (List (Slot Stream))} (h : Joined n outer record) :
    JoinEvent.Law n (fun vs => .ok (array vs)) (record.filterMap parameters?) := by
  cases outer with
  | none => exact h
  | some slots => exact Joining.Rests.law h

theorem Joined.cons {outer : Option (List (Slot Stream))} (h : Joined n outer record)
    (he : e.parameters? = none) : Joined n outer (e :: record) := by
  unfold Joined
  rw [List.filterMap_cons_none he]
  exact h

section

variable (ctx : Context) (name : String) (l : SourceLocation) (n : Nat)

/-- A finder between two polls of its parts. -/
def Rests (outer : Option (List (Slot Stream))) (inner : Option Supply)
    (record : List FinderEvent) : Prop :=
  Joined n outer record ∧ Stands ctx name l n (Held ctx name l inner) (inner = none) record

/-- The join of the parameters has just had a value, with fuel that suffices for what is due for
it. -/
def Pulled (fuel : Nat) (slots : List (Slot Stream)) (v : Value) (record : List FinderEvent) :
    Prop :=
  2 ≤ fuel ∧ ∃ vs, v = array vs ∧ Joined n (some slots) record ∧
    Stands ctx name l n (fun vs' events => vs' = vs ∧ events = []) False record

/-- Nothing has been done yet for the latest vector. -/
def Fresh (fuel : Nat) (slots : List (Slot Stream)) (supply : Supply)
    (record : List FinderEvent) : Prop :=
  2 ≤ fuel ∧ Joined n (some slots) record ∧
    Stands ctx name l n (fun vs events => Due ctx name l vs supply ∧ events = []) False record

/-- What is to be emitted was pulled. -/
def Emits (outer : Option (List (Slot Stream))) (supply : Supply) (v : Value)
    (record : List FinderEvent) : Prop :=
  Rests ctx name l n outer (some supply) (.answered (.value v) :: record)

end

variable {outer : Option (List (Slot Stream))} {slots : List (Slot Stream)}
  {inner : Option Supply} {s : Supply} {latest : List Value → List FinderEvent → Prop}
  {before : Prop}

theorem Rests.law (h : Rests ctx name l n outer inner record) : Law ctx name l n record where
  parameters := h.1.law
  count := h.2.count
  accounted := h.2.accounted
  episodes p hp := by
    cases hepisodes : episodes record with
    | nil => simp [hepisodes] at hp
    | cons q others =>
      rw [hepisodes] at hp
      rcases List.mem_cons.1 hp with rfl | hp
      · exact (h.2.latest p (by simp [hepisodes])).episode
      · exact h.2.past p (by simpa [hepisodes] using hp)

/-- A finder that has something in hand has had a vector. -/
theorem Rests.started (h : Rests ctx name l n outer (some s) record) :
    Stands ctx name l n (Held ctx name l (some s)) False record :=
  h.2.mono (fun _ _ _ hheld => hheld) nofun

theorem rests_of_started (hjoined : Joined n outer record)
    (h : Stands ctx name l n (Held ctx name l inner) False record) :
    Rests ctx name l n outer inner record :=
  ⟨hjoined, h.mono (fun _ _ _ hheld => hheld) False.elim⟩

/-- An event that does nothing for a vector. -/
theorem Rests.idle (h : Rests ctx name l n outer inner record) (he : e.Idle)
    (hparameters : e.parameters? = none) : Rests ctx name l n outer inner (e :: record) :=
  ⟨h.1.cons hparameters,
    h.2.cons he.1 (fun hacts => by simp [he.2] at hacts) fun _ _ hheld => hheld.idle he⟩

/-! ### The parts -/

/-- What happens to the join, its answers apart, does nothing for a vector. -/
theorem Stands.join (h : Stands ctx name l n (Held ctx name l inner) (inner = none) record)
    (new : List JoinEvent) (hnew : new.filterMap JoinEvent.answered? = []) :
    Stands ctx name l n (Held ctx name l inner) (inner = none)
      (new.map .parameters ++ record) := by
  induction new with
  | nil => exact h
  | cons e new ih =>
    have hall := List.filterMap_eq_nil_iff.1 hnew
    have hidle : (FinderEvent.parameters e).Idle := idle_parameters (hall e (by simp))
    have hrest : new.filterMap JoinEvent.answered? = [] :=
      List.filterMap_eq_nil_iff.2 fun e he => hall e (by simp [he])
    exact (ih hrest).cons hidle.1 (fun hacts => by simp [hidle.2] at hacts)
      fun _ _ hheld => hheld.idle hidle

/-- The parts of a vector. -/
theorem length_of_joined {v : Value} {past : List JoinEvent}
    (h : JoinEvent.Law n (fun vs => .ok (array vs)) (.answered (.value v) :: past)) :
    ∃ vs, v = array vs ∧ vs.length = n := by
  obtain ⟨vs, hholds, hv⟩ := (Recorded.lawful_cons.1 h.lawful).1.joined v rfl
  have hlength := congrArg List.length hholds
  simp only [List.length_map, List.length_range] at hlength
  exact ⟨vs, (Except.ok.inj hv).symm, hlength.symm⟩

theorem join_ensures (clock fuel : Nat) (slots : List (Slot Stream)) (inner : Option Supply)
    (j : Journal) :
    Recorded.Ensures (Rests ctx name l n (some slots) inner)
      ((Joining.ask (fun vs => .ok (array vs)) clock fuel slots j).within .parameters) (fun r =>
        match r.answer with
        | .value v => Pulled ctx name l n fuel r.state v
        | .ended => Rests ctx name l n none inner
        | .pending => Rests ctx name l n (some r.state) inner) (Law ctx name l n) := by
  intro record ⟨hjoined, hstands⟩
  have hoblivious := Joining.ask_oblivious (fun vs => .ok (array vs)) clock fuel slots j
  have hevent : ∀ e, (parameters e).parameters? = some e := fun _ => rfl
  have hjoin := (Joining.ask_ensures clock fuel slots j).within hoblivious hevent record hjoined
  have hanswer := Joining.ask_answers (fun vs => .ok (array vs)) clock fuel slots j [] [] rfl
  have hshows := Joining.ask_shows (fun vs => .ok (array vs)) clock fuel slots j []
  unfold Recorded.within at hjoin ⊢
  rcases hask : Joining.ask (fun vs => .ok (array vs)) clock fuel slots j [] with ⟨halt | r, own⟩ <;>
    rw [hask] at hjoin hanswer hshows
  · obtain ⟨new, rfl, hnew⟩ := hanswer
    have hafter := hstands.join new hnew
    rw [List.append_nil] at hjoin ⊢
    have hrests : Rests ctx name l n none inner (new.map .parameters ++ record) := ⟨hjoin, hafter⟩
    exact hrests.law
  · obtain ⟨new, rfl, hnew⟩ := hanswer
    have hafter := hstands.join new hnew
    obtain ⟨answer, state, journal⟩ := r
    rw [List.append_nil, List.map_cons, List.cons_append] at hjoin ⊢
    have hquiet (ha : ∀ v, answer ≠ .value v) : Stands ctx name l n (Held ctx name l inner)
        (inner = none) (.parameters (.answered answer) :: (new.map .parameters ++ record)) := by
      have hidle := idle_parameters_answered ha
      exact hafter.cons hidle.1 (fun hacts => by simp [hidle.2] at hacts)
        fun _ _ hheld => hheld.idle hidle
    cases answer with
    | value v =>
      obtain ⟨vs, rfl, hcount⟩ := length_of_joined (Joining.Rests.law hjoin)
      exact ⟨Joining.two_le_of_value hshows.symm rfl, vs, rfl, hjoin,
        hafter.vector (fun _ _ hheld => hheld.episode) rfl rfl hcount⟩
    | ended => exact ⟨Joining.Rests.law hjoin, hquiet nofun⟩
    | pending => exact ⟨hjoin, hquiet nofun⟩

theorem supply_ensures (hn : 2 ≤ n) (fuel : Nat) (slots : List (Slot Stream)) (v : Value) :
    Recorded.Ensures (Pulled ctx name l n fuel slots v) (return supply ctx name l v)
      (Fresh ctx name l n fuel slots) (Law ctx name l n) := by
  refine .pure ?_
  rintro record ⟨hfuel, vs, rfl, hjoined, hstands⟩
  refine ⟨hfuel, hjoined, hstands.mono (fun vs' events hcount hlatest => ?_) id⟩
  obtain ⟨rfl, rfl⟩ := hlatest
  exact ⟨due_supply (hcount ▸ hn), rfl⟩

/-- A poll of a source that serves the latest vector. -/
theorem serve_ensures (clock k cursor : Nat) (source : Source) (secret : Bool) (j : Journal) :
    Recorded.Ensures (Rests ctx name l n outer (some (.running k source cursor secret)))
      (serve l clock k source cursor secret j)
      (Recorded.InnerAnswered (Rests ctx name l n) (Emits ctx name l n) outer)
      (Law ctx name l n) := by
  intro record h
  have hstands : Stands ctx name l n (Serving ctx name l k cursor source secret) False record :=
    h.started
  unfold serve
  rcases hpoll : source.poll clock cursor with ⟨answer, cursor'⟩
  have hquiet (ha : ∀ v, answer ≠ .value v) : Stands ctx name l n
      (Serving ctx name l k cursor' source secret) False (.polled k answer :: record) :=
    hstands.cons rfl (fun _ => id) fun vs events hserving => hserving.polled hpoll ha
  cases answer with
  | value v =>
    have hpolled : Stands ctx name l n (fun vs events => ∃ events',
        events = .polled k (.value v) :: events' ∧
          Serving ctx name l k cursor source secret vs events') False
        (.polled k (.value v) :: record) :=
      hstands.cons rfl (fun _ => id) fun vs events hserving => ⟨events, rfl, hserving⟩
    have hemitted : Stands ctx name l n (Serving ctx name l k cursor' source secret) False
        (.answered (.value (AttributeFinder.forwarded l secret v)) :: .polled k (.value v) ::
          record) := by
      refine hpolled.cons rfl (fun _ => id) ?_
      rintro vs _ ⟨events, rfl, hserving⟩
      exact hserving.forwarded hpoll
    exact rests_of_started ((h.1.cons rfl).cons rfl) hemitted
  | pending => exact rests_of_started (h.1.cons rfl) (hquiet nofun)
  | ended =>
    have hserved := (hquiet nofun).mono (fun _ _ _ hserving => hserving.episode) id
    exact rests_of_started (h.1.cons rfl) hserved

/-- The first poll of what is due for the latest vector does not run out of fuel. -/
theorem watch_fresh_ensures (clock fuel : Nat) (slots : List (Slot Stream)) (s : Supply)
    (j : Journal) :
    Recorded.Ensures (Fresh ctx name l n fuel slots s) (watch l clock fuel s j)
      (Recorded.InnerAnswered (Rests ctx name l n) (Emits ctx name l n) (some slots))
      (Law ctx name l n) := by
  rintro record ⟨hfuel, hjoined, hstands⟩
  obtain ⟨fuel, rfl⟩ : ∃ k, fuel = k + 2 := ⟨fuel - 2, by omega⟩
  cases s with
  | failing w =>
    refine rests_of_started (hjoined.cons rfl) (hstands.cons rfl (fun _ => id) ?_)
    rintro vs _ ⟨hfails, rfl⟩
    exact .failed w hfails rfl rfl rfl
  | wanted broker i secret =>
    refine serve_ensures clock _ 0 _ secret (.subscribed i :: j) _
      (rests_of_started (hjoined.cons rfl) (hstands.cons rfl (fun _ => id) ?_))
    rintro vs _ ⟨⟨hasks, rfl⟩, rfl⟩
    exact .initial hasks
  | exhausted =>
    obtain ⟨vs, events, hdue, -⟩ := hstands.exists_latest
    exact hdue.elim
  | running k source cursor secret =>
    obtain ⟨vs, events, hdue, -⟩ := hstands.exists_latest
    exact hdue.elim

theorem watch_ensures (clock fuel : Nat) (outer : Option (List (Slot Stream))) (s : Supply)
    (j : Journal) :
    Recorded.Ensures (Rests ctx name l n outer (some s)) (watch l clock fuel s j)
      (Recorded.InnerAnswered (Rests ctx name l n) (Emits ctx name l n) outer)
      (Law ctx name l n) := by
  match fuel, s with
  | 0, _ => exact .silent nofun fun _ h => h.law
  | _ + 1, .failing w =>
    intro record h
    obtain ⟨vs, events, hheld⟩ := h.started.exists_latest
    exact hheld.elim
  | _ + 1, .exhausted => exact .pure fun record h => rests_of_started h.1 h.started
  | 1, .wanted _ _ _ => exact .silent nofun fun _ h => h.law
  | 1, .running _ _ _ _ => exact .silent nofun fun _ h => h.law
  | _ + 2, .wanted broker i secret =>
    intro record h
    obtain ⟨vs, events, hheld⟩ := h.started.exists_latest
    exact hheld.elim
  | _ + 2, .running k source cursor secret => exact serve_ensures clock k cursor source secret j

/-! ### Polls and runs -/

theorem search_ensures (hn : 2 ≤ n) (clock fuel : Nat) (state : State) (j : Journal) :
    Recorded.Ensures (Rests ctx name l n state.1 state.2) (search ctx name l clock fuel state j)
      (Recorded.SwitchAnswered (Rests ctx name l n) (Emits ctx name l n)) (Law ctx name l n) := by
  cases fuel with
  | zero => exact .silent nofun fun _ h => h.law
  | succ fuel =>
    exact Recorded.switchRounds_ensures_of_fresh
      (fun slots inner j => join_ensures clock fuel slots inner j) (supply_ensures hn fuel)
      (watch_fresh_ensures clock fuel) (watch_ensures clock fuel) (fun _ _ _ h => h.law) (fuel + 1)
      state.1 state.2 j

/-- A finder between two polls, which may be over. -/
def Stays (ctx : Context) (name : String) (l : SourceLocation) (n : Nat) (state : Option State)
    (record : List FinderEvent) : Prop :=
  ∃ outer inner, (∀ found, state = some found → found = (outer, inner)) ∧
    Rests ctx name l n outer inner record

/-- The answer of a finder, written down. -/
theorem stays_answered {r : Reply State}
    (h : Recorded.SwitchAnswered (Rests ctx name l n) (Emits ctx name l n) r record) :
    Rests ctx name l n r.state.1 r.state.2 (.answered r.answer :: record) := by
  obtain ⟨answer, ⟨outer, inner⟩, journal⟩ := r
  cases answer with
  | value v =>
    obtain ⟨s, rfl, hemits⟩ := h
    exact hemits
  | ended =>
    obtain ⟨⟨⟩, hrests⟩ := h
    exact hrests.idle (idle_answered nofun) rfl
  | pending => exact h.2.idle (idle_answered nofun) rfl

theorem find_ensures (hn : 2 ≤ n) (head : Bool) (clock fuel : Nat) (state : Option State)
    (j : Journal) :
    Recorded.Ensures (Stays ctx name l n state) (find ctx name l head clock fuel state j)
      (fun r record => Stays ctx name l n r.state (.answered r.answer :: record))
      (Law ctx name l n) := by
  have halted (record : List FinderEvent) (h : Stays ctx name l n state record) :
      Law ctx name l n record := by
    obtain ⟨outer, inner, -, hrests⟩ := h
    exact hrests.law
  have hsearch (fuel : Nat) (found : State) : Recorded.Ensures (Stays ctx name l n (some found))
      (search ctx name l clock fuel found j)
      (fun r record => Rests ctx name l n r.state.1 r.state.2 (.answered r.answer :: record))
      (Law ctx name l n) := by
    refine (search_ensures hn clock fuel found j).mono (fun record h => ?_)
      (fun _ _ => stays_answered) fun _ h => h
    obtain ⟨outer, inner, hstate, hrests⟩ := h
    cases hstate found rfl
    exact hrests
  match head, fuel, state with
  | false, fuel, some found =>
    exact (hsearch fuel found).bind fun r => .pure fun record h =>
      ⟨r.state.1, r.state.2, by rintro _ ⟨⟩; rfl, h⟩
  | true, fuel + 1, some found =>
    refine (hsearch fuel found).bind fun r => ?_
    obtain ⟨answer, ⟨outer, inner⟩, journal⟩ := r
    cases answer with
    | value v => exact .pure fun record h => ⟨outer, inner, nofun, h⟩
    | ended => exact .pure fun record h => ⟨outer, inner, nofun, h⟩
    | pending => exact .pure fun record h => ⟨outer, inner, by rintro _ ⟨⟩; rfl, h⟩
  | false, 0, none => exact .silent nofun halted
  | true, 0, some _ => exact .silent nofun halted
  | true, 0, none => exact .silent nofun halted
  | false, fuel + 1, none =>
    refine .pure fun record h => ?_
    obtain ⟨outer, inner, -, hrests⟩ := h
    exact ⟨outer, inner, nofun, hrests.idle (idle_answered nofun) rfl⟩
  | true, fuel + 1, none =>
    refine .pure fun record h => ?_
    obtain ⟨outer, inner, -, hrests⟩ := h
    exact ⟨outer, inner, nofun, hrests.idle (idle_answered nofun) rfl⟩

theorem ask_ensures (hn : 2 ≤ n) (head : Bool) (clock fuel : Nat) (state : Option State)
    (j : Journal) :
    Recorded.Ensures (Stays ctx name l n state) (ask ctx name l head clock fuel state j)
      (fun r => Stays ctx name l n r.state) (Law ctx name l n) :=
  (find_ensures hn head clock fuel state j).noting

theorem Stays.law {state : Option State} (h : Stays ctx name l n state record) :
    Law ctx name l n record := by
  obtain ⟨outer, inner, -, hrests⟩ := h
  exact hrests.law

/-- A finder that has not been polled. -/
theorem stays_unpolled {streams : List Stream} (hstreams : streams ≠ []) :
    Stays ctx name l streams.length (unpolled streams) [] := by
  cases streams with
  | nil => exact absurd rfl hstreams
  | cons s rest =>
    refine ⟨_, none, by rintro _ ⟨⟩; rfl, ?_, .initial rfl⟩
    exact .inl (Joining.going_initial s rest)

theorem length_subscribeAll {cs : List Compiled} {streams : List Stream}
    (h : Compiled.subscribeAll cs ctx = .ok streams) : streams.length = cs.length := by
  induction cs generalizing streams with
  | nil =>
    cases h
    rfl
  | cons c rest ih =>
    rw [Compiled.subscribeAll, List.mapM_cons] at h
    obtain ⟨s, -, h⟩ := bind_eq_ok h
    obtain ⟨streams, hstreams, h⟩ := bind_eq_ok h
    cases h
    rw [List.length_cons, List.length_cons, ih hstreams]

theorem law_nil (n : Nat) : Law ctx name l n [] where
  parameters := ⟨Recorded.lawful_nil _, nofun⟩
  count := nofun
  accounted := rfl
  episodes := nofun

/-- The record of a run keeps the law. -/
theorem run_ensures (entity options : Compiled) (arguments : List Compiled)
    (schedule : List (Nat × Nat)) (j : Journal) :
    Recorded.Ensures (· = [])
      (run ctx name l head (entity :: options :: arguments) schedule j)
      (fun _ => Law ctx name l (arguments.length + 2))
      (Law ctx name l (arguments.length + 2)) := by
  have hn : 2 ≤ arguments.length + 2 := Nat.le_add_left 2 _
  rintro _ rfl
  unfold run
  cases hstreams : Compiled.subscribeAll (entity :: options :: arguments) ctx with
  | error f => exact law_nil _
  | ok streams =>
    have hlength : streams.length = arguments.length + 2 := length_subscribeAll hstreams
    have hstays : Stays ctx name l (arguments.length + 2) (unpolled streams) [] :=
      hlength ▸ stays_unpolled (subscribeAll_ne_nil hstreams)
    have each : Recorded.Ensures (Stays ctx name l (arguments.length + 2) (unpolled streams))
        (Asking.each (ask ctx name l head) schedule (unpolled streams) j)
        (fun course => Stays ctx name l (arguments.length + 2) course.state) _ :=
      Asking.each_ensures (ask_ensures hn head) schedule (unpolled streams) j
    exact (each.imp fun _ _ h => h.law) [] hstays

/-- What is emitted is emitted for a vector. -/
theorem emitted_of_law (h : Law ctx name l n record) :
    record.filterMap emitted? = (episodes record).flatMap fun p => p.2.filterMap emitted? := by
  have hacts (events : List FinderEvent) :
      events.filterMap emitted? = (events.filter acts).filterMap emitted? := by
    rw [List.filterMap_filter]
    refine List.filterMap_congr fun e _ => ?_
    cases e with
    | answered a => cases a <;> rfl
    | _ => rfl
  rw [hacts, h.accounted, List.filterMap_flatMap]
  exact List.flatMap_congr fun p _ => (hacts p.2).symm

end Finding

/-! ## Finders of a tree -/

/-- A finder with this entity compiles to `c`: as a step behind its entity, or as a base, whose
entity is Null. -/
inductive Compile.Finds (scope : Scope) (l : SourceLocation) (name : String)
    (arguments : List Expression) (opts : Option Expression) (head : Bool) :
    (entity c : Compiled) → Prop where
  | step {base : SourceLocation} {entity c : Compiled}
      (h : Compile.step scope base entity (.attributeFinder l name arguments opts head) = .ok c) :
      Finds scope l name arguments opts head entity c
  | environment {c : Compiled}
      (h : Compile.base scope l (.environmentAttribute name arguments opts head) = .ok c) :
      Finds scope l name arguments opts head (.constant .null) c

section

variable {scope : Scope} {l : SourceLocation} {name : String} {arguments : List Expression}
  {opts : Option Expression} {head : Bool} {entity c : Compiled}

/-- What a finder compiles to: entity, options and arguments in this order, under the name that the
imports give it. -/
theorem Compile.Finds.compiled (h : Compile.Finds scope l name arguments opts head entity c) :
    ∃ options cs, Compile.options scope opts = .ok options ∧
      Compile.expressions scope arguments = .ok cs ∧
      c = AttributeFinder.compile (scope.imports.resolve name) l head
        (entity :: options :: cs) := by
  have inverted {x : Compiled} (h : (if name = "" then Compilation.defective
      .missingAttributeIdentifier l else do
        let o ← Compile.options scope opts
        let cs ← Compile.expressions scope arguments
        return AttributeFinder.compile (scope.imports.resolve name) l head (x :: o :: cs)) = .ok c) :
      ∃ options cs, Compile.options scope opts = .ok options ∧
        Compile.expressions scope arguments = .ok cs ∧
        c = AttributeFinder.compile (scope.imports.resolve name) l head (x :: options :: cs) := by
    split at h
    · cases h
    · obtain ⟨options, hoptions, h⟩ := bind_eq_ok h
      obtain ⟨cs, hcs, h⟩ := bind_eq_ok h
      cases h
      exact ⟨options, cs, hoptions, hcs, rfl⟩
  cases h with
  | step h =>
    rw [Compile.step] at h
    exact inverted h
  | environment h =>
    rw [Compile.base] at h
    exact inverted h

end

namespace Finding

open FinderEvent

/-- A run of a finder, written down, is a run of what it compiled to, and its answers are those in
the record. -/
def Shown (name : String) (l : SourceLocation) (head : Bool) (operands : List Compiled)
    (c : Compiled) (ctx : Context) (schedule : List (Nat × Nat)) (j : Journal) : Prop :=
  let run := run ctx name l head operands schedule j []
  run.1.map (fun course => { course with state := stream ctx name l head course.state }) =
      (Halt.lift (c.subscribe ctx) >>= (·.pollEach schedule j)) ∧
    ∀ course, run.1 = .ok course → run.2.reverse.filterMap answered? = course.answers

theorem shown_compile (name : String) (l : SourceLocation) (head : Bool) (operand : Compiled)
    (operands : List Compiled) (ctx : Context) (schedule : List (Nat × Nat)) (j : Journal) :
    Shown name l head (operand :: operands)
      (AttributeFinder.compile name l head (operand :: operands)) ctx schedule j :=
  ⟨run_shows operand operands schedule j [], fun _ h =>
    ((run_tells (operand :: operands) schedule j).result (Asking.told_nil _) h).reverse⟩

/-- Every run of a finder keeps the law of finders. -/
def Governs (name : String) (l : SourceLocation) (head : Bool) (entity options : Compiled)
    (arguments : List Compiled) (c : Compiled) : Prop :=
  ∀ ctx schedule j,
    let operands := entity :: options :: arguments
    let record := (run ctx name l head operands schedule j []).2
    Shown name l head operands c ctx schedule j ∧ Law ctx name l (arguments.length + 2) record

/-- In every run of a finder its values are secret as the law of its secrets says. -/
def Reveals (name : String) (l : SourceLocation) (head : Bool) (entity options : Compiled)
    (arguments : List Compiled) (c : Compiled) : Prop :=
  ∀ ctx schedule j,
    let operands := entity :: options :: arguments
    let record := (run ctx name l head operands schedule j []).2
    Shown name l head operands c ctx schedule j ∧
      record.filterMap emitted? = (episodes record).flatMap (·.2.filterMap emitted?) ∧
      ∀ p ∈ episodes record, Exposes ctx p.1 p.2

theorem governs_compile (name : String) (l : SourceLocation) (head : Bool)
    (entity options : Compiled) (cs : List Compiled) :
    Governs name l head entity options cs
      (AttributeFinder.compile name l head (entity :: options :: cs)) := by
  intro ctx schedule j
  exact ⟨shown_compile name l head entity _ ctx schedule j,
    (run_ensures entity options cs schedule j).record rfl⟩

theorem reveals_compile (name : String) (l : SourceLocation) (head : Bool)
    (entity options : Compiled) (cs : List Compiled) :
    Reveals name l head entity options cs
      (AttributeFinder.compile name l head (entity :: options :: cs)) := by
  intro ctx schedule j
  obtain ⟨hshown, hlaw⟩ := governs_compile name l head entity options cs ctx schedule j
  exact ⟨hshown, emitted_of_law hlaw, fun p hp => (hlaw.episodes p hp).exposes⟩

end Finding

/-- The law of finders. A finder asks for the attribute that the imports give its name, and every
run of it, written down, keeps the law. -/
theorem Compile.record_of_finder {scope : Scope} {l : SourceLocation} {name : String}
    {arguments : List Expression} {opts : Option Expression} {head : Bool} {entity c : Compiled}
    (h : Compile.Finds scope l name arguments opts head entity c) :
    ∃ options cs, Compile.options scope opts = .ok options ∧
      Compile.expressions scope arguments = .ok cs ∧
      Finding.Governs (scope.imports.resolve name) l head entity options cs c := by
  obtain ⟨options, cs, hoptions, hcs, hc⟩ := h.compiled
  refine ⟨options, cs, hoptions, hcs, ?_⟩
  rw [hc]
  exact Finding.governs_compile (scope.imports.resolve name) l head entity options cs

/-- The finder in `subject.<x(1, undefined)>`. -/
theorem Compile.record_of_step :
    let one : Expression := .basic .unknown (.literal (.number "1")) [] none
    let nothing : Expression := .basic .unknown (.literal .undefined) [] none
    let subject : Compiled := .pure true fun ctx => .ok ctx.subject
    ∃ c options cs,
      Compile.step .empty .unknown subject
        (.attributeFinder .unknown "x" [one, nothing] none false) = .ok c ∧
      Compile.expressions .empty [one, nothing] = .ok cs ∧
      Finding.Governs "x" .unknown false subject options cs c := by
  intro one nothing subject
  obtain ⟨c, hc⟩ : ∃ c, Compile.step .empty .unknown subject
    (.attributeFinder .unknown "x" [one, nothing] none false) = .ok c := ⟨_, rfl⟩
  obtain ⟨options, cs, -, hcs, hlaw⟩ := Compile.record_of_finder (.step hc)
  exact ⟨c, options, cs, hc, hcs, hlaw⟩

/-! ## Secrets of finders -/

/-- Which values of a finder are secret. An error of a parameter is secret as soon as a parameter
is, and a value of a source exactly if the entity is or the source makes it so; secret options and
arguments make no difference to it. -/
theorem Compile.secrets_of_finder {scope : Scope} {l : SourceLocation} {name : String}
    {arguments : List Expression} {opts : Option Expression} {head : Bool} {entity c : Compiled}
    (h : Compile.Finds scope l name arguments opts head entity c) :
    ∃ options cs, Compile.options scope opts = .ok options ∧
      Compile.expressions scope arguments = .ok cs ∧
      Finding.Reveals (scope.imports.resolve name) l head entity options cs c := by
  obtain ⟨options, cs, hoptions, hcs, hc⟩ := h.compiled
  refine ⟨options, cs, hoptions, hcs, ?_⟩
  rw [hc]
  exact Finding.reveals_compile (scope.imports.resolve name) l head entity options cs

/-- The finder `<x(subject)>`. -/
theorem Compile.secrets_of_environment_attribute :
    let subject : Expression := .basic .unknown (.identifier "subject") [] none
    ∃ c options cs,
      Compile.base .empty .unknown (.environmentAttribute "x" [subject] none false) = .ok c ∧
      Compile.expressions .empty [subject] = .ok cs ∧
      Finding.Reveals "x" .unknown false (.constant .null) options cs c := by
  intro subject
  obtain ⟨c, hc⟩ : ∃ c, Compile.base .empty .unknown
    (.environmentAttribute "x" [subject] none false) = .ok c := ⟨_, rfl⟩
  obtain ⟨options, cs, -, hcs, hlaw⟩ := Compile.secrets_of_finder (.environment hc)
  exact ⟨c, options, cs, hc, hcs, hlaw⟩

/-- Not every value that `<x(subject)>` emits for a secret subject is secret. -/
theorem Compile.secret_argument_lost :
    let subject : Expression := .basic .unknown (.identifier "subject") [] none
    ∃ c options cs,
      Compile.base .empty .unknown (.environmentAttribute "x" [subject] none false) = .ok c ∧
      Compile.options .empty none = .ok options ∧
      Compile.expressions .empty [subject] = .ok cs ∧
      let operands := .constant .null :: options :: cs
      (∀ ctx schedule j, Finding.Shown "x" .unknown false operands c ctx schedule j) ∧
      ¬∀ ctx schedule j, ∀ p ∈ FinderEvent.episodes
          (Finding.run ctx "x" .unknown false operands schedule j []).2,
        p.1.any Value.isSecret = true →
          ∀ w ∈ p.2.filterMap FinderEvent.emitted?, w.isSecret = true := by
  intro subject
  refine ⟨_, _, _, rfl, rfl, rfl, Finding.shown_compile _ _ _ _ _, fun h => ?_⟩
  have hsecrets := h { Context.empty with
    subject := (Value.text "s").asSecret
    attributeBroker := some fun _ _ => .ofScript [.emit (.text "v")] } [(0, 5)] []
  have hemitted := hsecrets _ (List.Mem.head _) rfl _ (List.Mem.head _)
  cases hemitted

end PolicyExpr
