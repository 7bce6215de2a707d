import PolicyExpr.Proofs.Combination

/-!
# Recorded computations

A recorded computation writes down events while it goes on. The record is kept where the
computation halts, so that it tells of every run as far as it came, also of a poll that aborts or
goes on for ever. Combinators are observed by running them on parts that keep a record.

Two things are said of such a computation: what it shows once the record is forgotten, which is a
computation of the library, and what it ensures of the record.
-/
namespace PolicyExpr

/-- A computation that adds events to a record, the latest first. -/
def Recorded (ε α : Type) := List ε → Except Halt α × List ε

namespace Recorded

variable {ε α β γ δ : Type}

instance : Monad (Recorded ε) where
  pure a := fun record => (.ok a, record)
  bind x next := fun record =>
    match x record with
    | (.ok a, record) => next a record
    | (.error h, record) => (.error h, record)

/-- Writes an event down. -/
def note (e : ε) : Recorded ε Unit := fun record => (.ok (), e :: record)

/-- A computation without events. -/
def silent (r : Except Halt α) : Recorded ε α := fun record => (r, record)

/-- Writes an event down about the result of a computation. -/
def noting (x : Recorded ε α) (event : α → ε) : Recorded ε α := do
  let a ← x
  note (event a)
  return a

theorem bind_of_ok {x : Recorded ε α} {next : α → Recorded ε β} {record after : List ε} {a : α}
    (h : x record = (.ok a, after)) : (x >>= next) record = next a after := by
  change (match x record with
    | (.ok a, record) => next a record
    | (.error h, record) => (.error h, record)) = _
  rw [h]

theorem bind_of_error {x : Recorded ε α} {next : α → Recorded ε β} {record after : List ε}
    {halt : Halt} (h : x record = (.error halt, after)) :
    (x >>= next) record = (.error halt, after) := by
  change (match x record with
    | (.ok a, record) => next a record
    | (.error h, record) => (.error h, record)) = _
  rw [h]

/-! ## What a computation shows without its record -/

/-- The result, seen through `view`, whatever was recorded before. -/
def Shows (x : Recorded ε α) (view : α → β) (r : Except Halt β) : Prop :=
  ∀ record, (x record).1.map view = r

namespace Shows

theorem pure (a : α) (view : α → β) :
    Shows (Pure.pure a : Recorded ε α) view (.ok (view a)) := fun _ => rfl

theorem silent (r : Except Halt α) (view : α → β) :
    Shows (Recorded.silent r : Recorded ε α) view (r.map view) := fun _ => rfl

theorem bind {x : Recorded ε α} {view : α → β} {r : Except Halt β} {next : α → Recorded ε γ}
    {view' : γ → δ} {plain : β → Except Halt δ} (hx : x.Shows view r)
    (hnext : ∀ a, (next a).Shows view' (plain (view a))) :
    (x >>= next).Shows view' (r >>= plain) := by
  intro record
  rw [← hx record]
  rcases h : x record with ⟨halt | a, after⟩
  · rw [bind_of_error h]
    rfl
  · rw [bind_of_ok h]
    exact hnext a after

/-- The result may be put in another form. -/
theorem map {x : Recorded ε α} {view : α → β} {r : Except Halt β} (hx : x.Shows view r)
    {f : α → γ} {view' : γ → β} (hf : ∀ a, view' (f a) = view a) :
    (x >>= fun a => Pure.pure (f a)).Shows view' r := by
  intro record
  rw [← hx record]
  rcases h : x record with ⟨halt | a, after⟩
  · rw [bind_of_error h]
    rfl
  · rw [bind_of_ok h]
    exact congrArg Except.ok (hf a)

/-- Events make no difference. -/
theorem noting {x : Recorded ε α} {view : α → β} {r : Except Halt β} (hx : x.Shows view r)
    (event : α → ε) : (x.noting event).Shows view r := by
  intro record
  rw [← hx record]
  rcases h : x record with ⟨halt | a, after⟩
  · rw [Recorded.noting, bind_of_error h]
  · rw [Recorded.noting, bind_of_ok h]
    rfl

end Shows

/-! ## What a computation ensures of its record -/

/-- From a record with `P` on, the record has `Q` when there is a result, and `H` when the
computation halts. -/
def Ensures (P : List ε → Prop) (x : Recorded ε α) (Q : α → List ε → Prop)
    (H : List ε → Prop) : Prop :=
  ∀ record, P record →
    match x record with
    | (.ok a, after) => Q a after
    | (.error _, after) => H after

namespace Ensures

variable {P P' : List ε → Prop} {Q Q' : α → List ε → Prop} {R : β → List ε → Prop}
  {H H' : List ε → Prop}

theorem pure {a : α} (h : ∀ record, P record → Q a record) :
    Ensures P (Pure.pure a) Q H := fun record hP => h record hP

theorem silent {r : Except Halt α} (hok : ∀ a record, r = .ok a → P record → Q a record)
    (herror : ∀ record, P record → H record) : Ensures P (Recorded.silent r) Q H := by
  intro record hP
  cases r with
  | error h => exact herror record hP
  | ok a => exact hok a record rfl hP

theorem bind {x : Recorded ε α} {next : α → Recorded ε β} (hx : Ensures P x Q H)
    (hnext : ∀ a, Ensures (Q a) (next a) R H) : Ensures P (x >>= next) R H := by
  intro record hP
  have hx := hx record hP
  rcases h : x record with ⟨halt | a, after⟩ <;> rw [h] at hx
  · rw [bind_of_error h]
    exact hx
  · rw [bind_of_ok h]
    exact hnext a after hx

theorem noting {x : Recorded ε α} {event : α → ε} (hx : Ensures P x (fun a record =>
    Q a (event a :: record)) H) : Ensures P (x.noting event) Q H :=
  hx.bind fun _ _ hQ => hQ

theorem mono {x : Recorded ε α} (h : Ensures P x Q H) (hP : ∀ record, P' record → P record)
    (hQ : ∀ a record, Q a record → Q' a record) (hH : ∀ record, H record → H' record) :
    Ensures P' x Q' H' := by
  intro record hP'
  have h := h record (hP record hP')
  rcases hx : x record with ⟨halt | a, after⟩ <;> rw [hx] at h
  · exact hH after h
  · exact hQ a after h

theorem imp {x : Recorded ε α} (h : Ensures P x Q H) (hQ : ∀ a record, Q a record → Q' a record) :
    Ensures P x Q' H := h.mono (fun _ h => h) hQ fun _ h => h

/-- A computation followed from one record on. -/
theorem following {x : Recorded ε α} (h : Ensures P x Q H) {past : List ε} (hP : P past) :
    Ensures (· = past) x Q H := by
  rintro record rfl
  exact h record hP

/-- A computation may be followed from each record on its own. -/
theorem of_each {x : Recorded ε α} (h : ∀ past, P past → Ensures (· = past) x Q H) :
    Ensures P x Q H := fun record hP => h record hP record rfl

/-- What holds of the record in the end, however it comes to it. -/
theorem record {x : Recorded ε α} (h : Ensures P x (fun _ => H) H) {before : List ε}
    (hP : P before) : H (x before).2 := by
  have h := h before hP
  rcases hx : x before with ⟨halt | a, after⟩ <;> rw [hx] at h <;> exact h

theorem result {x : Recorded ε α} (h : Ensures P x Q H) {before : List ε} (hP : P before) {a : α}
    (ha : (x before).1 = .ok a) : Q a (x before).2 := by
  have h := h before hP
  rcases hx : x before with ⟨halt | b, after⟩ <;> rw [hx] at h ha <;> cases ha
  exact h

end Ensures

/-! ## Computations that say more than others -/

/-- What is left of a computation when `view` takes from its result and `keep` from its record is
the other one. -/
def Erases (keep : ε → Bool) (view : α → β) (x : Recorded ε α) (y : Recorded ε β) : Prop :=
  ∀ record, y (record.filter keep) = ((x record).1.map view, (x record).2.filter keep)

namespace Erases

variable {keep : ε → Bool}

theorem pure (a : α) (view : α → β) :
    Erases keep view (Pure.pure a) (Pure.pure (view a)) := fun _ => rfl

/-- An event that is not kept is not missed. -/
theorem bind_note {e : ε} (he : keep e = false) {x : Recorded ε α} {view : α → β} {y : Recorded ε β}
    (hx : x.Erases keep view y) : (Recorded.note e >>= fun _ => x).Erases keep view y := by
  intro record
  have hrecord := hx (e :: record)
  rw [List.filter_cons_of_neg (by simp [he])] at hrecord
  exact hrecord

theorem bind {x : Recorded ε α} {y : Recorded ε β} {view : α → β} {next : α → Recorded ε γ}
    {next' : β → Recorded ε δ} {view' : γ → δ} (hx : x.Erases keep view y)
    (hnext : ∀ a, (next a).Erases keep view' (next' (view a))) :
    (x >>= next).Erases keep view' (y >>= next') := by
  intro record
  have hy := hx record
  rcases h : x record with ⟨halt | a, after⟩ <;> rw [h] at hy
  · rw [bind_of_error h]
    exact bind_of_error hy
  · rw [bind_of_ok h, bind_of_ok hy]
    exact hnext a after

end Erases

/-! ## Computations within larger ones -/

/-- What happens does not depend on what was recorded before, which is kept. -/
def Oblivious (x : Recorded ε α) : Prop := ∀ record, x record = ((x []).1, (x []).2 ++ record)

namespace Oblivious

theorem pure (a : α) : (Pure.pure a : Recorded ε α).Oblivious := fun _ => rfl

theorem silent (r : Except Halt α) : (Recorded.silent r : Recorded ε α).Oblivious := fun _ => rfl

theorem bind {x : Recorded ε α} {next : α → Recorded ε β} (hx : x.Oblivious)
    (hnext : ∀ a, (next a).Oblivious) : (x >>= next).Oblivious := by
  intro record
  have hrecord := hx record
  rcases h : x [] with ⟨halt | a, new⟩ <;> rw [h] at hrecord
  · rw [bind_of_error h, bind_of_error hrecord]
  · rw [bind_of_ok h, bind_of_ok hrecord, hnext a new, hnext a (new ++ record),
      List.append_assoc]

theorem noting {x : Recorded ε α} (hx : x.Oblivious) (event : α → ε) :
    (x.noting event).Oblivious := hx.bind fun _ _ => rfl

end Oblivious

/-- A computation whose events are events of something larger. -/
def within (event : ε → δ) (x : Recorded ε α) : Recorded δ α := fun record =>
  ((x []).1, (x []).2.map event ++ record)

theorem Shows.within {x : Recorded ε α} {view : α → β} {r : Except Halt β} (hx : x.Shows view r)
    (event : ε → δ) : (x.within event).Shows view r := fun _ => hx []

/-- Within something larger a computation ensures what it ensures of its own events. -/
theorem Ensures.within {x : Recorded ε α} {P : List ε → Prop} {Q : α → List ε → Prop}
    {H : List ε → Prop} (h : Ensures P x Q H) (hx : x.Oblivious) {event : ε → δ}
    {event? : δ → Option ε} (hevent : ∀ e, event? (event e) = some e) :
    Ensures (fun record => P (record.filterMap event?)) (x.within event)
      (fun a record => Q a (record.filterMap event?)) fun record => H (record.filterMap event?) := by
  intro record hP
  have own : ((x []).2.map event ++ record).filterMap event? =
      (x []).2 ++ record.filterMap event? := by
    have hid : event? ∘ event = some := funext hevent
    rw [List.filterMap_append, List.filterMap_map, hid, List.filterMap_some]
  have h := h (record.filterMap event?) hP
  rw [hx, ← own] at h
  unfold Recorded.within
  rcases hr : (x []).1 with halt | a <;> rw [hr] at h <;> exact h

/-! ## Lawful records -/

/-- Every event of a record is one that may happen after those before it. -/
def Lawful (may : List ε → ε → Prop) (record : List ε) : Prop :=
  ∀ e past, e :: past <:+ record → may past e

theorem lawful_nil (may : List ε → ε → Prop) : Lawful may [] := by
  intro e past h
  simp at h

theorem lawful_cons {may : List ε → ε → Prop} {e : ε} {record : List ε} :
    Lawful may (e :: record) ↔ may record e ∧ Lawful may record := by
  refine ⟨fun h => ⟨h e record List.suffix_rfl, fun e' past hpast => ?_⟩,
    fun ⟨he, h⟩ e' past hpast => ?_⟩
  · exact h e' past (hpast.trans (List.suffix_cons e record))
  · rcases List.suffix_cons_iff.1 hpast with heq | hpast
    · cases heq
      exact he
    · exact h e' past hpast

end Recorded

/-! ## Polls -/

/-- The answer to a poll, what is left behind it, and the journal. -/
structure Reply (σ : Type) where
  answer : Answer
  state : σ
  journal : Journal

namespace Reply

/-- The reply as a polled stream. -/
def polled {σ : Type} (stream : σ → Stream) (r : Reply σ) : Polled :=
  ⟨r.answer, stream r.state, r.journal⟩

end Reply

/-- A recorded way to poll something. -/
abbrev Asking (ε σ : Type) := σ → Journal → Recorded ε (Reply σ)

namespace Asking

variable {ε σ : Type}

/-- Polls a stream and writes its answer down. -/
def stream (poll : Poller) (event : Answer → ε) : Asking ε Stream := fun s j => do
  let p ← (Recorded.silent (poll s j)).noting fun p => event p.answer
  return ⟨p.answer, p.stream, p.journal⟩

/-- A recorded poll that is, without its record, a poll of a stream. -/
def Shows (asking : Asking ε σ) (stream : σ → Stream) (poll : Poller) : Prop :=
  ∀ s j, (asking s j).Shows (Reply.polled stream) (poll (stream s) j)

theorem stream_shows (poll : Poller) (event : Answer → ε) :
    (stream poll event).Shows id poll := by
  intro s j record
  simp only [stream, id]
  cases poll s j <;> rfl

theorem stream_ensures {poll : Poller} {event : Answer → ε} {s : Stream} {j : Journal}
    {P : List ε → Prop} {Q : Reply Stream → List ε → Prop} {H : List ε → Prop}
    (hreply : ∀ r record, P record → Q r (event r.answer :: record))
    (hhalt : ∀ record, P record → H record) :
    Recorded.Ensures P (stream poll event s j) Q H := by
  have polls : Recorded.Ensures P (Recorded.silent (poll s j))
      (fun p record => Q ⟨p.answer, p.stream, p.journal⟩ (event p.answer :: record)) H :=
    .silent (fun p record _ hP => hreply ⟨p.answer, p.stream, p.journal⟩ record hP) hhalt
  exact polls.noting.bind fun p => .pure fun _ hQ => hQ

end Asking

/-! ## Runs -/

/-- Where something that is polled again and again has come to. -/
structure Course (σ : Type) where
  answers : List Answer
  state : σ
  journal : Journal

namespace Stream

/-- Polls a stream again and again, each time at a time and with a fuel of its own. -/
def pollEach : (schedule : List (Nat × Nat)) → Stream → Journal → Except Halt (Course Stream)
  | [], s, journal => .ok ⟨[], s, journal⟩
  | (clock, fuel) :: later, s, journal => do
    let p ← s.poll clock fuel journal
    let course ← pollEach later p.stream p.journal
    return { course with answers := p.answer :: course.answers }

end Stream

namespace Asking

variable {ε σ : Type} {asking : (clock fuel : Nat) → Asking ε σ}

/-- Polls something again and again, and keeps the record. -/
def each (asking : (clock fuel : Nat) → Asking ε σ) :
    (schedule : List (Nat × Nat)) → σ → Journal → Recorded ε (Course σ)
  | [], s, journal => return ⟨[], s, journal⟩
  | (clock, fuel) :: later, s, journal => do
    let r ← asking clock fuel s journal
    let course ← each asking later r.state r.journal
    return { course with answers := r.answer :: course.answers }

/-- A run of recorded polls is, without its record, a run of polls. -/
theorem each_shows {stream : σ → Stream}
    (h : ∀ clock fuel, (asking clock fuel).Shows stream (Stream.poll clock fuel))
    (schedule : List (Nat × Nat)) (s : σ) (j : Journal) :
    (each asking schedule s j).Shows (fun c => { c with state := stream c.state })
      ((stream s).pollEach schedule j) := by
  induction schedule generalizing s j with
  | nil => exact .pure _ _
  | cons turn later ih =>
    exact (h turn.1 turn.2 s j).bind fun r => (ih r.state r.journal).bind fun c => .pure _ _

/-- What every poll keeps, a run keeps. -/
theorem each_ensures {I : σ → List ε → Prop} {H : List ε → Prop}
    (h : ∀ clock fuel s j,
      Recorded.Ensures (I s) (asking clock fuel s j) (fun r => I r.state) H)
    (schedule : List (Nat × Nat)) (s : σ) (j : Journal) :
    Recorded.Ensures (I s) (each asking schedule s j) (fun c => I c.state) H := by
  induction schedule generalizing s j with
  | nil => exact .pure fun _ hI => hI
  | cons turn later ih =>
    exact (h turn.1 turn.2 s j).bind fun r => (ih r.state r.journal).bind fun c =>
      .pure fun _ hI => hI

/-- The answers that a record tells, the latest first. -/
def Told (answer? : ε → Option Answer) (answers : List Answer) (record : List ε) : Prop :=
  record.filterMap answer? = answers

theorem told_nil (answer? : ε → Option Answer) : Told answer? [] [] := rfl

theorem Told.cons {answer? : ε → Option Answer} {answers : List Answer} {record : List ε} {e : ε}
    (h : Told answer? answers record) (he : answer? e = none) :
    Told answer? answers (e :: record) := (List.filterMap_cons_none he).trans h

theorem Told.answer {answer? : ε → Option Answer} {answers : List Answer} {record : List ε} {e : ε}
    {a : Answer} (h : Told answer? answers record) (he : answer? e = some a) :
    Told answer? (a :: answers) (e :: record) :=
  (List.filterMap_cons_some he).trans (congrArg _ h)

/-- The answers from first to last. -/
theorem Told.reverse {answer? : ε → Option Answer} {answers : List Answer} {record : List ε}
    (h : Told answer? answers.reverse record) : record.reverse.filterMap answer? = answers := by
  rw [List.filterMap_reverse, h, List.reverse_reverse]

/-- Each poll writes down its answer, and no other answer. -/
def Tells (asking : Asking ε σ) (answer? : ε → Option Answer) : Prop :=
  ∀ s j past, Recorded.Ensures (Told answer? past) (asking s j)
    (fun r => Told answer? (r.answer :: past)) (Told answer? past)

/-- The record of a run tells its answers. -/
theorem each_tells {answer? : ε → Option Answer}
    (h : ∀ clock fuel, (asking clock fuel).Tells answer?) (schedule : List (Nat × Nat)) (s : σ)
    (j : Journal) :
    Recorded.Ensures (Told answer? []) (each asking schedule s j)
      (fun c => Told answer? c.answers.reverse) fun _ => True := by
  have told : ∀ past, Recorded.Ensures (Told answer? past) (each asking schedule s j)
      (fun c => Told answer? (c.answers.reverse ++ past)) fun _ => True := by
    induction schedule generalizing s j with
    | nil => exact fun past => .pure fun _ h => h
    | cons turn later ih =>
      intro past
      refine ((h turn.1 turn.2 s j past).mono (fun _ h => h) (fun _ _ h => h)
        fun _ _ => trivial).bind fun r => ?_
      exact (ih r.state r.journal _).bind fun c => .pure fun _ h => by simpa using h
  simpa using told []

end Asking

end PolicyExpr
