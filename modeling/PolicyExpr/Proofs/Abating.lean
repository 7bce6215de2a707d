import PolicyExpr.Proofs.Convergence

/-!
# Streams that abate

A stream abates if every poll of it has a result and, however often it is polled at one time, only
finitely many of its answers count. At a later time it may have as many again, and it need not ever
end. Which answers count is left open: for a part of a join all of them do, for the operand of a
chain those values that leave the chain to the next operand, and where none does, a stream that
abates is one whose polls all have results.
-/
namespace PolicyExpr

/-- Every answer but the end. -/
def Answer.Lasts (a : Answer) : Prop := a ≠ .ended

namespace Stream

/-! ## Classes of streams -/

/-- What a poll at a time has made of a stream, where the answer counts. A stream that is pending
has to have changed. -/
def Moves (clock : Nat) (counts : Answer → Prop) (s' s : Stream) : Prop :=
  ∃ j p, Answers clock s j (.ok p) ∧ p.stream = s' ∧ counts p.answer ∧
    (p.answer = .pending → s' ≠ s)

/-- Streams that abate at a time: each poll of one of them has a result and leaves one of them, and
no run of polls whose answers count is endless. -/
structure Abating (clock : Nat) (counts : Answer → Prop) (W : Stream → Prop) : Prop where
  answers : ∀ {s}, W s → ∀ j, ∃ r, Answers clock s j r ∧ ∀ p, r = .ok p → W p.stream
  acc : ∀ {s}, W s → Acc (Moves clock counts) s

/-- A stream that abates, whatever is the time of each poll. -/
def Abates (counts : Answer → Prop) (s : Stream) : Prop :=
  ∃ W, (∀ clock, Abating clock counts W) ∧ W s

variable {clock : Nat} {counts counts' : Answer → Prop} {W : Stream → Prop} {s : Stream}
  {j : Journal} {p : Polled}

theorem Abating.polls (h : Abating clock counts W) (hs : W s) (j : Journal) :
    ∃ r, Answers clock s j r := by
  obtain ⟨r, hr, -⟩ := h.answers hs j
  exact ⟨r, hr⟩

theorem Abating.after (h : Abating clock counts W) (hs : W s) (hp : Answers clock s j (.ok p)) :
    W p.stream := by
  obtain ⟨r, hr, hafter⟩ := h.answers hs j
  exact hafter p (hr.unique hp)

/-- There is no endless run if there is none after any poll. -/
theorem acc_of_answers (h : ∀ j, ∃ r, Answers clock s j r ∧ ∀ p, r = .ok p → counts p.answer →
    (p.answer = .pending → p.stream ≠ s) → Acc (Moves clock counts) p.stream) :
    Acc (Moves clock counts) s := by
  refine .intro s ?_
  rintro _ ⟨j, p, hp, rfl, hcounts, hmoved⟩
  obtain ⟨r, hr, hacc⟩ := h j
  exact hacc p (hr.unique hp) hcounts hmoved

/-- The streams that abate are themselves a class of this kind. -/
theorem abating_abates (clock : Nat) (counts : Answer → Prop) :
    Abating clock counts (Abates counts) where
  answers := by
    rintro s ⟨W, hW, hs⟩ j
    obtain ⟨r, hr, hafter⟩ := (hW clock).answers hs j
    exact ⟨r, hr, fun p hp => ⟨W, hW, hafter p hp⟩⟩
  acc := by
    rintro s ⟨W, hW, hs⟩
    exact (hW clock).acc hs

namespace Abates

theorem answers (h : s.Abates counts) (clock : Nat) (j : Journal) :
    ∃ r, Answers clock s j r ∧ ∀ p, r = .ok p → p.stream.Abates counts :=
  (abating_abates clock counts).answers h j

/-- Fewer answers may count. -/
theorem mono (h : s.Abates counts) (hcounts : ∀ a, counts' a → counts a) : s.Abates counts' := by
  obtain ⟨W, hW, hs⟩ := h
  refine ⟨W, fun clock => ⟨(hW clock).answers, fun hs => ?_⟩, hs⟩
  refine Subrelation.accessible ?_ ((hW clock).acc hs)
  rintro s' s ⟨j, p, hp, hstream, hcounted, hmoved⟩
  exact ⟨j, p, hp, hstream, hcounts _ hcounted, hmoved⟩

/-- A stream abates if each poll leaves one that does, or the stream as it was with an answer that
does not count. -/
theorem of_answers (h : ∀ clock j, ∃ r, Answers clock s j r ∧ ∀ p, r = .ok p →
    p.stream.Abates counts ∨ p.stream = s ∧ ¬counts p.answer) : s.Abates counts := by
  refine ⟨fun t => t = s ∨ t.Abates counts, fun clock => ⟨?_, ?_⟩, .inl rfl⟩
  · rintro t (rfl | ht) j
    · obtain ⟨r, hr, hafter⟩ := h clock j
      exact ⟨r, hr, fun p hp => (hafter p hp).symm.imp_left And.left⟩
    · obtain ⟨r, hr, hafter⟩ := ht.answers clock j
      exact ⟨r, hr, fun p hp => .inr (hafter p hp)⟩
  · rintro t (rfl | ht)
    · refine acc_of_answers fun j => ?_
      obtain ⟨r, hr, hafter⟩ := h clock j
      refine ⟨r, hr, fun p hp hcounts _ => ?_⟩
      rcases hafter p hp with hp | ⟨-, hnot⟩
      · exact (abating_abates clock counts).acc hp
      · exact absurd hcounts hnot
    · exact (abating_abates clock counts).acc ht

end Abates

/-! ## Streams without parts -/

theorem abates_values (vs : List Value) : (values vs).Abates Answer.Lasts := by
  induction vs with
  | nil =>
    refine .of_answers fun clock j => ⟨_, answers_values_nil clock j, ?_⟩
    rintro _ ⟨⟩
    exact .inr ⟨rfl, fun hlasts => hlasts rfl⟩
  | cons v rest ih =>
    refine .of_answers fun clock j => ⟨_, answers_values_cons clock v rest j, ?_⟩
    rintro _ ⟨⟩
    exact .inl ih

end Stream

namespace Source

/-- Where a poll at a time has moved a cursor, if the answer counts. -/
def Moves (clock : Nat) (counts : Answer → Prop) (source : Source) (cursor' cursor : Nat) : Prop :=
  ∃ a, source.poll clock cursor = (a, cursor') ∧ counts a ∧ (a = .pending → cursor' ≠ cursor)

/-- A source has no endless run of answers that count at one time. -/
def Abates (counts : Answer → Prop) (source : Source) : Prop :=
  ∀ clock, WellFounded (source.Moves clock counts)

variable {counts : Answer → Prop} {source : Source}

/-- Where no answer counts every source abates. -/
theorem abates_uncounted (source : Source) : source.Abates fun _ => False := fun _ =>
  ⟨fun cursor => .intro cursor fun _ ⟨_, _, hcounts, _⟩ => hcounts.elim⟩

theorem Abates.opened (h : source.Abates counts) (n cursor : Nat) :
    (Stream.opened n source cursor).Abates counts := by
  refine ⟨fun s => ∃ cursor, s = .opened n source cursor, fun clock => ⟨?_, ?_⟩, cursor, rfl⟩
  · rintro _ ⟨cursor, rfl⟩ j
    refine ⟨_, Stream.answers_opened clock n source cursor j, ?_⟩
    rintro _ ⟨⟩
    exact ⟨_, rfl⟩
  · rintro _ ⟨cursor, rfl⟩
    induction (h clock).apply cursor with
    | intro cursor _ ih =>
      refine Stream.acc_of_answers fun j => ⟨_, Stream.answers_opened clock n source cursor j, ?_⟩
      rintro _ ⟨⟩ hcounts hmoved
      refine ih _ ⟨_, rfl, hcounts, fun hpending heq => hmoved hpending ?_⟩
      exact congrArg (Stream.opened n source) heq

/-- A source that nobody has subscribed to, if it abates under every subscription. -/
theorem abates_unopened {broker : AttributeBroker} {i : AttributeInvocation}
    (h : ∀ n, (broker n i).Abates counts) : (Stream.unopened broker i).Abates counts :=
  .of_answers fun clock j => ⟨_, Stream.answers_unopened clock broker i j, by
    rintro _ ⟨⟩
    exact .inl ((h _).opened _ _)⟩

/-- A script is played on from a position to one within it, behind its value if there is one. -/
theorem playScript_bounds {clock position position' : Nat} {items : List ScriptItem} {a : Answer}
    (h : playScript clock position items = (a, position')) :
    position ≤ position' ∧ position' ≤ position + items.length ∧
      ∀ v, a = .value v → position < position' := by
  induction items generalizing position with
  | nil =>
    cases h
    exact ⟨Nat.le_refl _, Nat.le_refl _, nofun⟩
  | cons item rest ih =>
    cases item with
    | emit v =>
      cases h
      exact ⟨by omega, by simp, fun _ _ => by omega⟩
    | never =>
      cases h
      exact ⟨Nat.le_refl _, by simp, nofun⟩
    | wait time =>
      rw [playScript] at h
      split at h
      · cases h
        exact ⟨Nat.le_refl _, by simp, nofun⟩
      · obtain ⟨hle, hbound, hvalue⟩ := ih h
        exact ⟨by omega, by simp only [List.length_cons]; omega,
          fun v hv => by have := hvalue v hv; omega⟩

/-- A script abates: what it answers moves its position towards its end. -/
theorem abates_ofScript (items : List ScriptItem) : (ofScript items).Abates Answer.Lasts := by
  intro clock
  refine Subrelation.wf ?_ (measure fun position => items.length - position).wf
  rintro position' position ⟨a, hpoll, hlasts, hmoved⟩
  obtain ⟨hle, hbound, hvalue⟩ := playScript_bounds hpoll
  have hmoves : position < position' := by
    cases a with
    | value v => exact hvalue v rfl
    | pending => exact Nat.lt_of_le_of_ne hle fun heq => hmoved rfl heq.symm
    | ended => exact absurd rfl hlasts
  rw [List.length_drop] at hbound
  show items.length - position' < items.length - position
  omega

end Source

namespace Stream

variable {clock : Nat} {counts : Answer → Prop} {j : Journal}

/-! ## Changed values and first values -/

/-- A stream with one part: a poll of it polls the part, and is pending or counts only if the part
is and does, unless it leaves something else that abates. -/
theorem Abates.around {s : Stream} (h : s.Abates counts) (around : Stream → Stream)
    (hpoll : ∀ {clock s j r}, Answers clock s j r → ∃ r', Answers clock (around s) j r' ∧
      ∀ p', r' = .ok p' → p'.stream.Abates counts ∨
        ∃ p, r = .ok p ∧ p'.stream = around p.stream ∧ (counts p'.answer → counts p.answer) ∧
          (p.answer = .pending → p'.answer = .pending)) :
    (around s).Abates counts := by
  refine ⟨fun t => t.Abates counts ∨ ∃ s, t = around s ∧ s.Abates counts,
    fun clock => ⟨?_, ?_⟩, .inr ⟨s, rfl, h⟩⟩
  · rintro t (ht | ⟨s, rfl, hs⟩) j
    · obtain ⟨r, hr, hafter⟩ := ht.answers clock j
      exact ⟨r, hr, fun p hp => .inl (hafter p hp)⟩
    · obtain ⟨r, hr, hafter⟩ := hs.answers clock j
      obtain ⟨r', hr', hleft⟩ := hpoll hr
      refine ⟨r', hr', fun p' hp' => (hleft p' hp').imp_right ?_⟩
      rintro ⟨p, hp, hstream, -⟩
      exact ⟨p.stream, hstream, hafter p hp⟩
  · rintro t (ht | ⟨s, rfl, hs⟩)
    · exact (abating_abates clock _).acc ht
    · induction (abating_abates clock _).acc hs with
      | intro s _ ih =>
        refine acc_of_answers fun j => ?_
        obtain ⟨r, hr, hafter⟩ := hs.answers clock j
        obtain ⟨r', hr', hleft⟩ := hpoll hr
        refine ⟨r', hr', fun p' hp' hcounts hmoved => ?_⟩
        rcases hleft p' hp' with ht | ⟨p, rfl, hstream, hcounted, hpending⟩
        · exact (abating_abates clock _).acc ht
        · rw [hstream] at hmoved ⊢
          refine ih p.stream ⟨j, p, hr, rfl, hcounted hcounts, fun ha heq => ?_⟩ (hafter p rfl)
          exact hmoved (hpending ha) (by rw [heq])

theorem Abates.map {s : Stream} {f : Value → Value} (h : s.Abates counts)
    (hcounts : ∀ v, counts (.value (f v)) → counts (.value v)) :
    (Stream.map f s).Abates counts := by
  refine h.around (.map f) fun hr => ⟨_, answers_map hr, fun p' hp' => .inr ?_⟩
  obtain ⟨p, hp, hp'⟩ := bind_eq_ok hp'
  cases hp'
  refine ⟨p, hp, rfl, ?_, fun ha => by simp [ha]⟩
  cases p.answer with
  | value v => exact hcounts v
  | pending => exact id
  | ended => exact id

theorem answers_head_none (clock : Nat) (j : Journal) :
    Answers clock (.head none) j (.ok ⟨.ended, .head none, j⟩) :=
  (Settles.lift (.ok _)).succ fun _ => rfl

theorem answers_head {s : Stream} {r : Eval Polled} (h : Answers clock s j r) :
    Answers clock (.head (some s)) j (r >>= fun p => .ok (match p.answer with
      | .pending => ⟨.pending, .head (some p.stream), p.journal⟩
      | answer => ⟨answer, .head none, p.journal⟩)) := by
  refine (h.bind (k := fun p => .ok _) fun p _ => ?_).succ fun _ => rfl
  cases p.answer <;> exact .lift (.ok _)

theorem abates_head_none (hlasts : ¬counts .ended) : (Stream.head none).Abates counts :=
  .of_answers fun clock j => ⟨_, answers_head_none clock j, by
    rintro _ ⟨⟩
    exact .inr ⟨rfl, hlasts⟩⟩

theorem Abates.head {s : Stream} (h : s.Abates counts) (hlasts : ¬counts .ended) :
    (Stream.head (some s)).Abates counts := by
  refine h.around (fun s => .head (some s)) fun hr => ⟨_, answers_head hr, fun p' hp' => ?_⟩
  obtain ⟨p, hp, hp'⟩ := bind_eq_ok hp'
  cases ha : p.answer with
  | pending =>
    simp only [ha] at hp'
    cases hp'
    exact .inr ⟨p, hp, rfl, fun hcounts => ha ▸ hcounts, fun _ => rfl⟩
  | value v =>
    simp only [ha] at hp'
    cases hp'
    exact .inl (abates_head_none hlasts)
  | ended =>
    simp only [ha] at hp'
    cases hp'
    exact .inl (abates_head_none hlasts)

end Stream

end PolicyExpr
