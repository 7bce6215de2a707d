import Mathlib.Data.Nat.Bitwise
import Mathlib.Order.Basic
import PolicyExpr.Regex

/-!
# What patterns match

A pattern describes stretches of a text: this is said here once more, as a relation between the
places where a stretch begins and ends, and without sets of places. The places that `image` reaches
are exactly those at which a described stretch ends. No stretch is longer than the text, so a body
that is repeated more often than that stands still at some place, and there it may do so as often as
one likes. This is why finitely many repetitions are enough.
-/
namespace PolicyExpr.Regex

/-! ## Repeated steps -/

/-- Some steps of a relation, one behind the other. -/
def Times (R : Nat → Nat → Prop) : Nat → Nat → Nat → Prop
  | 0, i, j => i = j
  | n + 1, i, j => ∃ k, R i k ∧ Times R n k j

namespace Times

variable {R : Nat → Nat → Prop} {m n i j : Nat}

/-- Steps that go forward and stay before a limit do so together. -/
theorem span {limit : Nat} (hR : ∀ i j, R i j → i ≤ j ∧ (i = j ∨ j ≤ limit)) (h : Times R n i j) :
    i ≤ j ∧ (i = j ∨ j ≤ limit) := by
  induction n generalizing i with
  | zero => exact ⟨Nat.le_of_eq h, .inl h⟩
  | succ n ih =>
    obtain ⟨k, hk, h⟩ := h
    have first := hR i k hk
    have rest := ih h
    omega

/-- A step that stands still can be taken again. -/
theorem stand (hR : R i i) (h : Times R n i j) (hle : n ≤ m) : Times R m i j := by
  induction m, hle using Nat.le_induction with
  | base => exact h
  | succ m _ ih => exact ⟨i, hR, ih⟩

/-- Of more steps than there are places on the way, one stands still. So there can be any number of
steps that is not too small for the way. -/
theorem resize {limit : Nat} (hR : ∀ i j, R i j → i ≤ j ∧ (i = j ∨ j ≤ limit))
    (h : Times R n i j) (hn : j - i < n) (hm : j - i ≤ m) : Times R m i j := by
  induction n generalizing i m with
  | zero => cases hn
  | succ n ih =>
    obtain ⟨k, hk, h⟩ := h
    rcases (hR i k hk).1.eq_or_lt with rfl | hlt
    · rcases Nat.lt_or_ge (j - i) n with hless | hmore
      · exact ih h hless hm
      · exact stand hk h (by omega)
    · have hkj : k ≤ j := (span hR h).1
      obtain ⟨m, rfl⟩ : ∃ l, m = l + 1 := ⟨m - 1, by omega⟩
      exact ⟨k, hk, ih h (by omega) (by omega)⟩

theorem add : Times R (m + n) i j ↔ ∃ k, Times R m i k ∧ Times R n k j := by
  induction m generalizing i with
  | zero => simp [Times]
  | succ m ih =>
    rw [Nat.succ_add]
    simp only [Times, ih]
    constructor
    · rintro ⟨l, hl, k, hm, hn⟩
      exact ⟨k, ⟨l, hl, hm⟩, hn⟩
    · rintro ⟨k, ⟨l, hl, hm⟩, hn⟩
      exact ⟨l, hl, k, hm, hn⟩

end Times

/-! ## What a pattern describes -/

namespace Pattern

/-- The pattern describes the stretch of the text from one place to another. A repetition has its
body as often as it must, and then some more times, if there is a bound, no more than it leaves. -/
def Describes (text : List Char) : Pattern CharSet Look → Nat → Nat → Prop
  | .empty, i, j => i = j
  | .letter set, i, j => j = i + 1 ∧ ∃ c, text[i]? = some c ∧ set.contains c.toNat = true
  | .assertion look, i, j =>
    i = j ∧ ∃ site, (sites none text)[i]? = some site ∧ look.holds site = true
  | .sequence a b, i, j => ∃ k, Describes text a i k ∧ Describes text b k j
  | .choice a b, i, j => Describes text a i j ∨ Describes text b i j
  | .repetition body least most, i, j =>
    ∃ more, (∀ bound, most = some bound → more ≤ bound - least) ∧
      Times (Describes text body) (least + more) i j
  | .group _ body, i, j => Describes text body i j

/-- The pattern describes the whole text. -/
def FullMatch (p : Pattern CharSet Look) (text : List Char) : Prop := p.Describes text 0 text.length

end Pattern

/-! ## Places of a text -/

section

variable {text : List Char} {before : Option Char} {site : Site} {i : Nat}

@[simp] theorem length_sites : (sites before text).length = text.length + 1 := by
  induction text generalizing before with
  | nil => rfl
  | cons c text ih => simp [sites, ih]

/-- The character behind a place is the one with its number. -/
theorem after_of_sites (h : (sites before text)[i]? = some site) : site.after = text[i]? := by
  induction text generalizing before i with
  | nil =>
    cases i with
    | zero =>
      cases h
      rfl
    | succ i => simp [sites] at h
  | cons c text ih =>
    cases i with
    | zero =>
      cases h
      rfl
    | succ i => simpa [sites] using ih h

theorem before_of_sites_zero (h : (sites before text)[0]? = some site) : site.before = before := by
  cases text <;> cases h <;> rfl

/-- Only the first place has no character in front. -/
theorem before_of_sites (h : (sites before text)[i]? = some site) (hi : i ≠ 0) :
    site.before.isSome = true := by
  obtain ⟨i, rfl⟩ := Nat.exists_eq_succ_of_ne_zero hi
  clear hi
  induction text generalizing before i with
  | nil => simp [sites] at h
  | cons c text ih =>
    have h : (sites (some c) text)[i]? = some site := h
    cases i with
    | zero => cases text <;> cases h <;> rfl
    | succ i => exact ih i h

theorem exists_site (before : Option Char) (hi : i ≤ text.length) :
    ∃ site, (sites before text)[i]? = some site := by
  have hlt : i < (sites before text).length := by simpa using Nat.lt_succ_of_le hi
  exact ⟨_, List.getElem?_eq_getElem hlt⟩

theorem testBit_placesWhere (p : Site → Bool) (ss : List Site) (i : Nat) :
    (placesWhere p ss).testBit i = ss[i]?.any p := by
  induction ss generalizing i with
  | nil => simp [placesWhere]
  | cons s rest ih =>
    cases i with
    | zero => cases hp : p s <;> simp [placesWhere, hp]
    | succ i =>
      have half : ((if p s then 1 else 0) + 2 * placesWhere p rest) / 2 = placesWhere p rest := by
        cases p s
        · simp
        · simp
          omega
      rw [placesWhere, Nat.testBit_succ, half, ih]
      simp

end

/-! ## Sets of places -/

/-- The function takes a set of places to all places that the relation leads to from one of them. -/
def Carries (f : Nat → Nat) (R : Nat → Nat → Prop) : Prop :=
  ∀ s j, (f s).testBit j = true ↔ ∃ i, s.testBit i = true ∧ R i j

namespace Carries

variable {f g : Nat → Nat} {R Q : Nat → Nat → Prop} {s : Nat}

theorem comp (hf : Carries f R) (hg : Carries g Q) :
    Carries (fun s => g (f s)) fun i j => ∃ k, R i k ∧ Q k j := by
  intro s j
  simp only [hg (f s) j, hf s]
  constructor
  · rintro ⟨k, ⟨i, hi, hR⟩, hQ⟩
    exact ⟨i, hi, k, hR, hQ⟩
  · rintro ⟨i, hi, k, hR, hQ⟩
    exact ⟨k, ⟨i, hi, hR⟩, hQ⟩

theorem union (hf : Carries f R) (hg : Carries g Q) :
    Carries (fun s => f s ||| g s) fun i j => R i j ∨ Q i j := by
  intro s j
  simp only [Nat.testBit_or, Bool.or_eq_true, hf s j, hg s j, and_or_left, exists_or]

/-- Nothing is left by a step that keeps the set. -/
theorem testBit_of_fixed (hf : Carries f R) (h : f s = s) (n j : Nat) :
    s.testBit j = true ↔ ∃ i, s.testBit i = true ∧ Times R n i j := by
  induction n generalizing j with
  | zero => simp [Times]
  | succ n ih =>
    rw [ih]
    constructor
    · rintro ⟨k, hk, hn⟩
      obtain ⟨i, hi, hR⟩ := (hf s k).1 (by rwa [h])
      exact ⟨i, hi, k, hR, hn⟩
    · rintro ⟨i, hi, k, hR, hn⟩
      exact ⟨k, by rw [← h]; exact (hf s k).2 ⟨i, hi, hR⟩, hn⟩

theorem iterate (hf : Carries f R) (n : Nat) : Carries (Pattern.iterate f n) (Times R n) := by
  induction n with
  | zero =>
    intro s j
    simp [Pattern.iterate, Times]
  | succ n ih =>
    intro s j
    unfold Pattern.iterate
    dsimp only
    split
    · next hfixed => exact testBit_of_fixed hf hfixed (n + 1) j
    · exact hf.comp ih s j

theorem reach (hf : Carries f R) (n : Nat) :
    Carries (Pattern.reach f n) fun i j => ∃ m ≤ n, Times R m i j := by
  induction n with
  | zero =>
    intro s j
    simp [Pattern.reach, Times]
  | succ n ih =>
    intro s j
    have grown (k : Nat) : (s ||| f s).testBit k = true ↔
        s.testBit k = true ∨ ∃ i, s.testBit i = true ∧ R i k := by
      rw [Nat.testBit_or, Bool.or_eq_true, hf s k]
    unfold Pattern.reach
    dsimp only
    split
    · next hfixed =>
      -- Whatever is reached from the set is in it.
      rw [hfixed] at grown
      have closed {m i : Nat} (hi : s.testBit i = true) (h : Times R m i j) :
          s.testBit j = true := by
        induction m generalizing i with
        | zero =>
          cases h
          exact hi
        | succ m ih =>
          obtain ⟨k, hR, h⟩ := h
          exact ih ((grown k).2 (.inr ⟨i, hi, hR⟩)) h
      constructor
      · exact fun hj => ⟨j, hj, 0, Nat.zero_le _, rfl⟩
      · rintro ⟨i, hi, m, -, h⟩
        exact closed hi h
    · rw [ih]
      simp only [grown]
      constructor
      · rintro ⟨k, hk | ⟨i, hi, hR⟩, m, hm, h⟩
        · exact ⟨k, hk, m, by omega, h⟩
        · exact ⟨i, hi, m + 1, by omega, k, hR, h⟩
      · rintro ⟨i, hi, m, hm, h⟩
        cases m with
        | zero => exact ⟨i, .inl hi, 0, Nat.zero_le _, h⟩
        | succ m =>
          obtain ⟨k, hR, h⟩ := h
          exact ⟨k, .inr ⟨i, hi, hR⟩, m, by omega, h⟩

end Carries

/-- Counting up to the number of places is enough: more repetitions than that change nothing. -/
theorem times_capped {R : Nat → Nat → Prop} {limit least cap i j : Nat} {room : Nat → Prop}
    (hR : ∀ i j, R i j → i ≤ j ∧ (i = j ∨ j ≤ limit))
    (hcap : ∀ m, m ≤ cap ↔ room m ∧ m ≤ limit + 1) (hroom : ∀ m n, m ≤ n → room n → room m) :
    (∃ k, Times R (min least (limit + 1)) i k ∧ ∃ m ≤ cap, Times R m k j) ↔
      ∃ more, room more ∧ Times R (least + more) i j := by
  have joined : (∃ k, Times R (min least (limit + 1)) i k ∧ ∃ m ≤ cap, Times R m k j) ↔
      ∃ m ≤ cap, Times R (min least (limit + 1) + m) i j := by
    constructor
    · rintro ⟨k, hk, m, hm, h⟩
      exact ⟨m, hm, Times.add.2 ⟨k, hk, h⟩⟩
    · rintro ⟨m, hm, h⟩
      obtain ⟨k, hk, h⟩ := Times.add.1 h
      exact ⟨k, hk, m, hm, h⟩
  have no_more : room 0 := ((hcap 0).1 (Nat.zero_le _)).1
  have short {n : Nat} (h : Times R n i j) : j - i ≤ limit := by
    have := h.span hR
    omega
  rw [joined]
  rcases Nat.le_total least (limit + 1) with hle | hge
  · rw [Nat.min_eq_left hle]
    constructor
    · rintro ⟨m, hm, h⟩
      exact ⟨m, ((hcap m).1 hm).1, h⟩
    · rintro ⟨more, hmore, h⟩
      have := short h
      rcases Nat.le_total more (limit + 1) with hsmall | hlarge
      · exact ⟨more, (hcap more).2 ⟨hmore, hsmall⟩, h⟩
      · have fits : limit + 1 ≤ cap := (hcap _).2 ⟨hroom _ more hlarge hmore, le_rfl⟩
        exact ⟨limit + 1, fits, h.resize hR (by omega) (by omega)⟩
  · rw [Nat.min_eq_right hge]
    constructor
    · rintro ⟨m, -, h⟩
      have := short h
      exact ⟨0, no_more, h.resize hR (by omega) (by omega)⟩
    · rintro ⟨more, -, h⟩
      have := short h
      exact ⟨0, Nat.zero_le _, h.resize hR (by omega) (by omega)⟩

namespace Pattern

variable {text : List Char} {p : Pattern CharSet Look} {i j : Nat}

/-- Stretches go forward and stay in the text. -/
theorem Describes.span (h : p.Describes text i j) : i ≤ j ∧ (i = j ∨ j ≤ text.length) := by
  induction p generalizing i j with
  | empty => exact ⟨h.le, .inl h⟩
  | letter set =>
    obtain ⟨rfl, c, hc, -⟩ := h
    have hi : i < text.length := (List.getElem?_eq_some_iff.1 hc).1
    exact ⟨Nat.le_succ i, .inr hi⟩
  | assertion look => exact ⟨h.1.le, .inl h.1⟩
  | sequence a b iha ihb =>
    obtain ⟨k, ha, hb⟩ := h
    have := iha ha
    have := ihb hb
    omega
  | choice a b iha ihb => exact h.elim iha ihb
  | repetition body least most ih =>
    obtain ⟨more, -, h⟩ := h
    exact h.span fun _ _ => ih
  | group keeps body ih => exact ih h

/-- The places that are reached are the ends of the described stretches. -/
theorem carries_image (p : Pattern CharSet Look) (text : List Char) :
    Carries (image (text.length + 1) (p.onSites CharSet.at Look.holds (sites none text)))
      (p.Describes text) := by
  induction p with
  | empty =>
    intro s j
    simp [onSites, image, Describes]
  | letter set =>
    intro s j
    simp only [onSites, image, Describes, Nat.testBit_shiftLeft, Nat.testBit_and, Bool.and_eq_true,
      decide_eq_true_eq, testBit_placesWhere, Option.any_eq_true]
    constructor
    · rintro ⟨hj, hs, site, hsite, hset⟩
      obtain ⟨i, rfl⟩ : ∃ i, j = i + 1 := ⟨j - 1, by omega⟩
      obtain ⟨c, hc, hset⟩ := (Option.any_eq_true _ _).1 hset
      exact ⟨i, hs, rfl, c, (after_of_sites hsite).symm.trans hc, hset⟩
    · rintro ⟨i, hi, rfl, c, hc, hset⟩
      have hle : i ≤ text.length := (List.getElem?_eq_some_iff.1 hc).1.le
      obtain ⟨site, hsite⟩ := exists_site none hle
      refine ⟨by omega, hi, site, hsite, (Option.any_eq_true _ _).2 ⟨c, ?_, hset⟩⟩
      exact (after_of_sites hsite).trans hc
  | assertion look =>
    intro s j
    simp only [onSites, image, Describes, Nat.testBit_and, Bool.and_eq_true, testBit_placesWhere,
      Option.any_eq_true]
    constructor
    · rintro ⟨hj, site, hsite, hlook⟩
      exact ⟨j, hj, rfl, site, hsite, hlook⟩
    · rintro ⟨i, hi, rfl, site, hsite, hlook⟩
      exact ⟨hi, site, hsite, hlook⟩
  | sequence a b iha ihb => exact iha.comp ihb
  | choice a b iha ihb => exact iha.union ihb
  | repetition body least most ih =>
    have hspan : ∀ i j, body.Describes text i j → i ≤ j ∧ (i = j ∨ j ≤ text.length) :=
      fun _ _ => Describes.span
    intro s j
    cases most with
    | none =>
      rw [onSites, image, ((ih.iterate _).comp (ih.reach _)) s j]
      refine exists_congr fun i => and_congr_right fun _ => ?_
      exact times_capped hspan (by simp) fun _ _ _ h => nofun
    | some bound =>
      rw [onSites, image, ((ih.iterate _).comp (ih.reach _)) s j]
      refine exists_congr fun i => and_congr_right fun _ => ?_
      refine times_capped hspan (fun m => ?_) fun m n hmn h b hb => hmn.trans (h b hb)
      rw [Nat.le_min]
      simp
  | group keeps body ih => exact ih

end Pattern

/-- A match is a stretch anywhere in the text. -/
theorem isMatch_iff {r : Regex} {s : String} :
    r.isMatch s = true ↔
      ∃ i j, i ≤ s.toList.length ∧ r.pattern.Describes s.toList i j := by
  have all (i : Nat) : (Nat.pow 2 (s.toList.length + 1) - 1).testBit i = true ↔
      i ≤ s.toList.length := by
    change (2 ^ (s.toList.length + 1) - 1).testBit i = true ↔ _
    rw [Nat.testBit_two_pow_sub_one, decide_eq_true_eq, Nat.lt_succ_iff]
  have nonempty (n : Nat) : n ≠ 0 ↔ ∃ j, n.testBit j = true := by
    constructor
    · intro hn
      by_contra hnone
      exact hn (Nat.zero_of_testBit_eq_false fun j => by simpa using fun h => hnone ⟨j, h⟩)
    · rintro ⟨j, hj⟩ rfl
      simp at hj
  unfold isMatch
  rw [bne_iff_ne, length_sites, nonempty]
  constructor
  · rintro ⟨j, hj⟩
    obtain ⟨i, hi, h⟩ := (Pattern.carries_image r.pattern s.toList _ j).1 hj
    exact ⟨i, j, (all i).1 hi, h⟩
  · rintro ⟨i, j, hi, h⟩
    exact ⟨j, (Pattern.carries_image r.pattern s.toList _ j).2 ⟨i, (all i).2 hi, h⟩⟩

/-! ## Patterns between anchors -/

/-- The pattern in a group between the start and the end of the text. -/
def Pattern.enclosed (p : Pattern CharSet Look) : Pattern CharSet Look :=
  .sequence (.assertion .textStart)
    (.sequence (.group false p) (.sequence (.assertion .textEnd) .empty))

/-- Between anchors a pattern matches whole texts only. -/
theorem isMatch_enclosed {p : Pattern CharSet Look} {s : String} :
    (⟨p.enclosed⟩ : Regex).isMatch s = true ↔ p.FullMatch s.toList := by
  rw [isMatch_iff]
  constructor
  · rintro ⟨i, j, -, _, ⟨rfl, start, hstart, hbefore⟩, k, hp, _, ⟨rfl, stop, hstop, hafter⟩, -⟩
    have hi : i = 0 := by
      by_contra hi
      have := before_of_sites hstart hi
      simp_all [Look.holds]
    have hk : k = s.toList.length := by
      have hnone : s.toList[k]? = none := by
        rw [← after_of_sites hstop]
        simpa [Look.holds] using hafter
      have hle := (hp.span).2
      have := List.getElem?_eq_none_iff.1 hnone
      omega
    rw [hi, hk] at hp
    exact hp
  · intro h
    obtain ⟨start, hstart⟩ := exists_site none (Nat.zero_le s.toList.length)
    obtain ⟨stop, hstop⟩ := exists_site none (le_refl s.toList.length)
    refine ⟨0, s.toList.length, Nat.zero_le _, 0, ⟨rfl, start, hstart, ?_⟩, s.toList.length, h,
      s.toList.length, ⟨rfl, stop, hstop, ?_⟩, rfl⟩
    · simp [Look.holds, before_of_sites_zero hstart]
    · simp [Look.holds, after_of_sites hstop]

end PolicyExpr.Regex
