import Mathlib.Data.List.Induction
import Mathlib.Data.List.Pairwise
import PolicyExpr.Coverage

/-!
# Counts of conditions

A summary has one condition for each key among the hits. Its index and location are those of the
first hit with the key, and its counts are the numbers of hits with the key and each result. A key is
made of the line and the character at which a condition starts, and it leaves 100,000 characters to
each line. As long as no line is longer, the keys are in the order of the document, and there is one
condition for each start. Behind that a condition can have the key of a later line, and then the hits
of both are counted as one condition.
-/
namespace PolicyExpr

namespace SourceLocation

variable {a b : SourceLocation}

/-- One location starts before another in the document. -/
def StartsBefore (a b : SourceLocation) : Prop :=
  a.startLine < b.startLine ∨ a.startLine = b.startLine ∧ a.startChar < b.startChar

/-- Two locations start at the same place. -/
def SameStart (a b : SourceLocation) : Prop :=
  a.startLine = b.startLine ∧ a.startChar = b.startChar

def SameKey (a b : SourceLocation) : Prop := a.positionKey = b.positionKey

instance (a b : SourceLocation) : Decidable (StartsBefore a b) :=
  inferInstanceAs (Decidable (_ ∨ _))

instance (a b : SourceLocation) : Decidable (SameStart a b) := inferInstanceAs (Decidable (_ ∧ _))

instance (a b : SourceLocation) : Decidable (SameKey a b) := inferInstanceAs (Decidable (_ = _))

theorem startsBefore_cases (a b : SourceLocation) :
    a.StartsBefore b ∨ a.SameStart b ∨ b.StartsBefore a := by
  simp only [StartsBefore, SameStart, UInt32.lt_iff_toNat_lt, ← UInt32.toNat_inj]
  omega

theorem StartsBefore.not_sameStart (h : a.StartsBefore b) : ¬a.SameStart b := by
  simp only [StartsBefore, SameStart, UInt32.lt_iff_toNat_lt, ← UInt32.toNat_inj] at h ⊢
  omega

theorem StartsBefore.asymm (h : a.StartsBefore b) : ¬b.StartsBefore a := by
  simp only [StartsBefore, UInt32.lt_iff_toNat_lt, ← UInt32.toNat_inj] at h ⊢
  omega

theorem SameStart.sameKey (h : a.SameStart b) : a.SameKey b := by
  simp [SameKey, positionKey, h.1, h.2]

/-- The key of a place in the first 100,000 characters of its line is below all that follow. -/
theorem positionKey_lt_of_startsBefore (hchar : a.startChar.toNat < 100000)
    (h : a.StartsBefore b) : a.positionKey < b.positionKey := by
  simp only [StartsBefore, UInt32.lt_iff_toNat_lt, ← UInt32.toNat_inj] at h
  unfold positionKey
  omega

end SourceLocation

open SourceLocation

/-! ## The condition of a key -/

namespace CoverageHit

/-- The hits whose condition starts at a place that has this key, with this result. -/
def countOf (hits : List CoverageHit) (key : Nat) (result : Bool) : Nat :=
  hits.countP fun hit => hit.location.positionKey = key ∧ hit.result = result

/-- The condition that hits make of a key: the first one names it, and all are counted. -/
def condition? (hits : List CoverageHit) (key : Nat) : Option ConditionCoverage :=
  (hits.find? fun hit => hit.location.positionKey = key).map fun first =>
    ⟨first.statementIndex, first.location, countOf hits key true, countOf hits key false⟩

variable {hits : List CoverageHit} {key : Nat}

theorem countOf_concat (hits : List CoverageHit) (hit : CoverageHit) (key : Nat) (result : Bool) :
    countOf (hits ++ [hit]) key result =
      countOf hits key result +
        if hit.location.positionKey = key ∧ hit.result = result then 1 else 0 := by
  simp [countOf, List.countP_append, List.countP_singleton]

theorem condition?_concat (hits : List CoverageHit) (hit : CoverageHit) (key : Nat) :
    condition? (hits ++ [hit]) key =
      if hit.location.positionKey = key then
        some (((condition? hits key).getD (.ofHit hit)).count hit.result)
      else condition? hits key := by
  unfold condition?
  simp only [countOf_concat, List.find?_append]
  by_cases hkey : hit.location.positionKey = key
  · cases hfirst : hits.find? fun hit => hit.location.positionKey = key with
    | none =>
      have hcount (result : Bool) : countOf hits key result = 0 := by
        refine List.countP_eq_zero.2 fun h hh => ?_
        have other := List.find?_eq_none.1 hfirst h hh
        simp_all
      cases hit.result <;> simp [hcount, hkey, ConditionCoverage.ofHit, ConditionCoverage.count]
    | some first => cases hit.result <;> simp [hkey, ConditionCoverage.count]
  · simp [hkey]

/-- The condition of a key is named by its first hit. -/
theorem condition?_cons_self (hit : CoverageHit) (rest : List CoverageHit) :
    condition? (hit :: rest) hit.location.positionKey =
      some ⟨hit.statementIndex, hit.location, countOf (hit :: rest) hit.location.positionKey true,
        countOf (hit :: rest) hit.location.positionKey false⟩ := by
  simp [condition?]

theorem exists_of_condition? {c : ConditionCoverage} (h : condition? hits key = some c) :
    ∃ hit ∈ hits, hit.location.positionKey = key ∧ c.statementIndex = hit.statementIndex ∧
      c.location = hit.location := by
  obtain ⟨first, hfirst, rfl⟩ := Option.map_eq_some_iff.1 h
  exact ⟨first, List.mem_of_find?_eq_some hfirst, by simpa using List.find?_some hfirst, rfl, rfl⟩

theorem exists_condition? {hit : CoverageHit} (h : hit ∈ hits) :
    ∃ c, condition? hits hit.location.positionKey = some c := by
  unfold condition?
  cases hfirst : hits.find? fun g => g.location.positionKey = hit.location.positionKey with
  | none => exact absurd (List.find?_eq_none.1 hfirst hit h) (by simp)
  | some first => exact ⟨_, rfl⟩

theorem counts_of_condition? {c : ConditionCoverage} (h : condition? hits key = some c) :
    c.trueHits = countOf hits key true ∧ c.falseHits = countOf hits key false := by
  obtain ⟨first, -, rfl⟩ := Option.map_eq_some_iff.1 h
  exact ⟨rfl, rfl⟩

end CoverageHit

namespace CoverageSummary

open CoverageHit

variable {hits : List CoverageHit}

/-- A summary has the condition of each key and no other. -/
theorem get?_ofHits (hits : List CoverageHit) (key : Nat) :
    (ofHits hits).conditions.get? key = condition? hits key := by
  induction hits using List.reverseRecOn with
  | nil => rfl
  | append_singleton hits hit ih =>
    have step : ofHits (hits ++ [hit]) = (ofHits hits).add hit := by
      simp [ofHits, addAll, List.foldl_append]
    have known : (ofHits hits).conditions.get? hit.location.positionKey =
        if hit.location.positionKey = key then condition? hits key
        else (ofHits hits).conditions.get? hit.location.positionKey := by
      split
      · next heq => rw [heq, ih]
      · rfl
    rw [step, add, Table.get?_modify, condition?_concat, ih, known]
    simp only [Std.compare_eq_iff_eq, eq_comm (a := key)]
    split <;> rfl

/-- A condition stands under the key of its own start. -/
theorem mem_values_iff {c : ConditionCoverage} :
    c ∈ (ofHits hits).conditions.values ↔
      condition? hits c.location.positionKey = some c := by
  unfold Table.values
  constructor
  · intro h
    obtain ⟨⟨key, c⟩, hmem, rfl⟩ := List.mem_map.1 h
    have hc := (get?_ofHits hits key).symm.trans (Table.mem_entries_iff.1 hmem)
    obtain ⟨hit, -, hkey, -, hlocation⟩ := exists_of_condition? hc
    rw [hlocation, hkey]
    exact hc
  · intro h
    exact List.mem_map.2 ⟨_, Table.mem_entries_iff.2 ((get?_ofHits hits _).trans h), rfl⟩

/-- The conditions are in the order of their keys. -/
theorem values_ascending (hits : List CoverageHit) :
    (ofHits hits).conditions.values.Pairwise fun a b =>
      a.location.positionKey < b.location.positionKey := by
  refine List.pairwise_map.2 ((ofHits hits).conditions.ascending.imp_of_mem ?_)
  rintro ⟨key, a⟩ ⟨other, b⟩ ha hb hlt
  have own {key : Nat} {c : ConditionCoverage} (h : (key, c) ∈ (ofHits hits).conditions.entries) :
      c.location.positionKey = key := by
    obtain ⟨hit, -, hkey, -, hlocation⟩ :=
      exists_of_condition? ((get?_ofHits hits key).symm.trans (Table.mem_entries_iff.1 h))
    rw [hlocation, hkey]
  rw [own ha, own hb]
  exact Nat.compare_eq_lt.1 hlt

/-! ## One condition for each start -/

/-- A summary that has one condition for each start among the hits, counts the hits of that start,
and lists the conditions in document order. -/
structure CountsStarts (hits : List CoverageHit) (s : CoverageSummary) : Prop where
  named : ∀ c ∈ s.conditions.values, ∃ hit ∈ hits, c.statementIndex = hit.statementIndex ∧
    c.location = hit.location
  covered : ∀ hit ∈ hits, ∃ c ∈ s.conditions.values, c.location.SameStart hit.location
  counted : ∀ c ∈ s.conditions.values,
    c.trueHits = hits.countP (fun hit => hit.location.SameStart c.location ∧ hit.result = true) ∧
    c.falseHits = hits.countP fun hit => hit.location.SameStart c.location ∧ hit.result = false
  ordered : s.conditions.values.Pairwise fun a b => a.location.StartsBefore b.location

/-- The keys of these hits are in the order of their starts. -/
def KeysFollowStarts (hits : List CoverageHit) : Prop :=
  ∀ g ∈ hits, ∀ h ∈ hits, g.location.StartsBefore h.location →
    g.location.positionKey < h.location.positionKey

theorem keysFollowStarts_of_short
    (h : ∀ hit ∈ hits, hit.location.startChar.toNat < 100000) : KeysFollowStarts hits :=
  fun g hg _ _ => positionKey_lt_of_startsBefore (h g hg)

variable {g h : CoverageHit}

theorem KeysFollowStarts.sameKey_iff (hkeys : KeysFollowStarts hits) (hg : g ∈ hits)
    (hh : h ∈ hits) : g.location.SameKey h.location ↔ g.location.SameStart h.location := by
  refine ⟨fun same => ?_, SameStart.sameKey⟩
  unfold SameKey at same
  rcases startsBefore_cases g.location h.location with hlt | hsame | hgt
  · have := hkeys g hg h hh hlt
    omega
  · exact hsame
  · have := hkeys h hh g hg hgt
    omega

/-- A key that is below another belongs to an earlier start. -/
theorem KeysFollowStarts.startsBefore (hkeys : KeysFollowStarts hits) (hg : g ∈ hits)
    (hh : h ∈ hits) (hlt : g.location.positionKey < h.location.positionKey) :
    g.location.StartsBefore h.location := by
  rcases startsBefore_cases g.location h.location with hbefore | hsame | hafter
  · exact hbefore
  · exact absurd hsame.sameKey (Nat.ne_of_lt hlt)
  · exact absurd (hkeys h hh g hg hafter) (Nat.lt_asymm hlt)

theorem countsStarts_of_keysFollowStarts (hkeys : KeysFollowStarts hits) :
    CountsStarts hits (ofHits hits) := by
  have origin {c : ConditionCoverage} (hc : c ∈ (ofHits hits).conditions.values) :
      ∃ hit ∈ hits, c.statementIndex = hit.statementIndex ∧ c.location = hit.location := by
    obtain ⟨hit, hhit, -, named⟩ := exists_of_condition? (mem_values_iff.1 hc)
    exact ⟨hit, hhit, named⟩
  have tally {c : ConditionCoverage} (hc : c ∈ (ofHits hits).conditions.values) (result : Bool) :
      countOf hits c.location.positionKey result =
        hits.countP fun hit => hit.location.SameStart c.location ∧ hit.result = result := by
    obtain ⟨first, hfirst, -, hlocation⟩ := origin hc
    refine List.countP_congr fun hit hhit => ?_
    have same := hkeys.sameKey_iff hhit hfirst
    rw [← hlocation, SameKey] at same
    simp [same]
  constructor
  · exact fun c hc => origin hc
  · intro hit hhit
    obtain ⟨c, hc⟩ := exists_condition? hhit
    obtain ⟨first, hfirst, hkey, -, hlocation⟩ := exists_of_condition? hc
    refine ⟨c, mem_values_iff.2 ?_, ?_⟩
    · rw [hlocation, hkey]
      exact hc
    · rw [hlocation]
      exact (hkeys.sameKey_iff hfirst hhit).1 hkey
  · intro c hc
    rw [← tally hc, ← tally hc]
    exact counts_of_condition? (mem_values_iff.1 hc)
  · refine (values_ascending hits).imp_of_mem fun {a b} ha hb hlt => ?_
    obtain ⟨g, hg, -, hag⟩ := origin ha
    obtain ⟨h, hh, -, hbh⟩ := origin hb
    rw [hag, hbh] at hlt ⊢
    exact hkeys.startsBefore hg hh hlt

theorem CountsStarts.keysFollowStarts (counts : CountsStarts hits (ofHits hits)) :
    KeysFollowStarts hits := by
  intro g hg h hh hbefore
  obtain ⟨a, ha, hag⟩ := counts.covered g hg
  obtain ⟨b, hb, hbh⟩ := counts.covered h hh
  have hab : a.location.StartsBefore b.location := by
    simpa [StartsBefore, hag.1, hag.2, hbh.1, hbh.2] using hbefore
  have hne : a ≠ b := fun heq => hab.not_sameStart (heq ▸ ⟨rfl, rfl⟩)
  -- The list is in the order of the keys and in that of the starts.
  let Ahead (c d : ConditionCoverage) : Prop :=
    c.location.positionKey < d.location.positionKey ∧ c.location.StartsBefore d.location
  have apart : (ofHits hits).conditions.values.Pairwise fun c d => Ahead c d ∨ Ahead d c :=
    ((values_ascending hits).and counts.ordered).imp fun h => Or.inl h
  have symm : Std.Symm fun c d => Ahead c d ∨ Ahead d c := ⟨fun _ _ => Or.symm⟩
  have either : Ahead a b ∨ Ahead b a := apart.forall ha hb hne
  rcases either with ⟨hlt, -⟩ | ⟨-, hba⟩
  · rwa [hag.sameKey, hbh.sameKey] at hlt
  · exact absurd hba hab.asymm

/-! ## The order of hits -/

/-- Hits that are the same in this way name the same condition. -/
def Agree (same : SourceLocation → SourceLocation → Prop) (hits : List CoverageHit) : Prop :=
  ∀ g ∈ hits, ∀ h ∈ hits, same g.location h.location →
    g.statementIndex = h.statementIndex ∧ g.location = h.location

theorem ofHits_eq_of_agree {hits' : List CoverageHit} (hperm : hits.Perm hits')
    (hagree : Agree SameKey hits) : ofHits hits' = ofHits hits := by
  have same (key : Nat) : condition? hits' key = condition? hits key := by
    have hcount (result : Bool) : countOf hits' key result = countOf hits key result :=
      (hperm.countP_eq _).symm
    cases hc : condition? hits key with
    | none =>
      have hnone : ∀ hit ∈ hits, hit.location.positionKey ≠ key := fun hit hhit => by
        simpa using List.find?_eq_none.1 (Option.map_eq_none_iff.1 hc) hit hhit
      refine Option.map_eq_none_iff.2 (List.find?_eq_none.2 fun hit hhit => ?_)
      simpa using hnone hit (hperm.mem_iff.2 hhit)
    | some c =>
      obtain ⟨g, hg, hgkey, hindex, hlocation⟩ := exists_of_condition? hc
      obtain ⟨c', hc'⟩ := exists_condition? (hperm.mem_iff.1 hg)
      rw [hgkey] at hc'
      obtain ⟨h, hh, hhkey, hindex', hlocation'⟩ := exists_of_condition? hc'
      obtain ⟨hi, hl⟩ := hagree h (hperm.mem_iff.2 hh) g hg (hhkey.trans hgkey.symm)
      have counts := counts_of_condition? hc
      have counts' := counts_of_condition? hc'
      rw [hc', Option.some_inj]
      obtain ⟨i, l, t, f⟩ := c
      obtain ⟨i', l', t', f'⟩ := c'
      simp_all
  have hconditions : (ofHits hits').conditions = (ofHits hits).conditions :=
    Table.ext_get? fun key => by rw [get?_ofHits, get?_ofHits, same]
  exact congrArg CoverageSummary.mk hconditions

/-- Where hits with one key name different conditions, the one that comes first shows. -/
theorem agree_of_ofHits_eq
    (h : ∀ hits', hits.Perm hits' → ofHits hits' = ofHits hits) : Agree SameKey hits := by
  have named {hit : CoverageHit} (hhit : hit ∈ hits) :
      ∃ c, condition? hits hit.location.positionKey = some c ∧
        c.statementIndex = hit.statementIndex ∧ c.location = hit.location := by
    have moved := h _ (List.perm_cons_erase hhit)
    rw [← get?_ofHits, ← moved, get?_ofHits]
    exact ⟨_, condition?_cons_self hit _, rfl, rfl⟩
  intro g hg h hh hkey
  obtain ⟨c, hc, hindex, hlocation⟩ := named hg
  obtain ⟨d, hd, hindex', hlocation'⟩ := named hh
  rw [hkey, hd, Option.some_inj] at hc
  subst hc
  exact ⟨hindex.symm.trans hindex', hlocation.symm.trans hlocation'⟩

/-! ## What a summary counts -/

/-- What a summary says of any hits. Each key has the condition that its first hit names, with the
numbers of its hits. There is one condition for each start, in document order, exactly if the keys
follow the starts, as they do where no condition starts behind the first 100,000 characters of its
line. Every order of the hits gives the same summary exactly if hits with one key agree, which are
the hits with one start where the keys follow the starts. -/
theorem ofHits_counts (hits : List CoverageHit) :
    (∀ key, (ofHits hits).conditions.get? key = condition? hits key) ∧
    (CountsStarts hits (ofHits hits) ↔ KeysFollowStarts hits) ∧
    ((∀ hit ∈ hits, hit.location.startChar.toNat < 100000) → KeysFollowStarts hits) ∧
    ((∀ hits', hits.Perm hits' → ofHits hits' = ofHits hits) ↔ Agree SameKey hits) ∧
    (KeysFollowStarts hits → (Agree SameKey hits ↔ Agree SameStart hits)) := by
  refine ⟨get?_ofHits hits, ?_, keysFollowStarts_of_short, ?_, fun hkeys => ?_⟩
  · exact ⟨CountsStarts.keysFollowStarts, countsStarts_of_keysFollowStarts⟩
  · exact ⟨agree_of_ofHits_eq, fun hagree _ hperm => ofHits_eq_of_agree hperm hagree⟩
  · constructor
    · exact fun hagree g hg h hh same => hagree g hg h hh same.sameKey
    · exact fun hagree g hg h hh same => hagree g hg h hh ((hkeys.sameKey_iff hg hh).1 same)

/-- Three hits of two conditions, the second of which starts on the line of the first, at its last
character that has a key of its own. -/
theorem ofHits_counts_two :
    let first : SourceLocation := ⟨3, 0, 3, 20⟩
    let second : SourceLocation := ⟨3, 99999, 4, 1⟩
    let hits : List CoverageHit := [⟨1, true, second⟩, ⟨0, true, first⟩, ⟨1, false, second⟩]
    CountsStarts hits (ofHits hits) ∧
      (ofHits hits).conditions.values = [⟨0, first, 1, 0⟩, ⟨1, second, 1, 1⟩] ∧
      ofHits hits.reverse = ofHits hits := by
  intro first second hits
  obtain ⟨-, counts, short, order, starts⟩ := ofHits_counts hits
  have hkeys : KeysFollowStarts hits := short (by simp [hits, first, second])
  have hagree : Agree SameStart hits := by
    unfold Agree
    decide
  exact ⟨counts.2 hkeys, by decide +kernel, order.2 ((starts hkeys).2 hagree) _ (List.reverse_perm hits).symm⟩

/-- A condition behind the first 100,000 characters of its line and one at the start of the next
line. Their hits are counted as one condition, which seems to have had both results, and which of the
two it names depends on the order of the hits. -/
theorem distinct_starts_share :
    let long : SourceLocation := ⟨0, 100000, 0, 100001⟩
    let next : SourceLocation := ⟨1, 0, 1, 1⟩
    let hits : List CoverageHit := [⟨0, true, long⟩, ⟨1, false, next⟩]
    ¬long.SameStart next ∧ ¬CountsStarts hits (ofHits hits) ∧
      (ofHits hits).conditions.values = [⟨0, long, 1, 1⟩] ∧
      (ofHits hits.reverse).conditions.values = [⟨1, next, 1, 1⟩] := by
  intro long next hits
  refine ⟨by decide, fun counts => ?_, by decide +kernel, by decide +kernel⟩
  have hlt := counts.keysFollowStarts ⟨0, true, long⟩ (by simp [hits]) ⟨1, false, next⟩
    (by simp [hits]) (by decide)
  exact absurd hlt (by decide +kernel)

end CoverageSummary

end PolicyExpr
