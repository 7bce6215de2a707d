/-!
# Sets of code points

A set of characters as ranges of code points that ascend and stand apart, so that equal sets
are equal ranges. It is written as hexadecimal code points, pairs of them with a hyphen, and
pairs with a hyphen and a step: `41 61-7A 100-104/2`.

The operations are those of sets. Code points between 0xD800 and 0xDFFF stand for no
character; a complement leaves them out.
-/
namespace PolicyExpr.Text

/-- Ranges of code points, both ends included, ascending and apart. -/
abbrev CodeRanges := List (Nat × Nat)

namespace CodeRanges

/-- Whether a code point is in one of the ranges. -/
def contains (ranges : CodeRanges) (c : Nat) : Bool :=
  ranges.any fun r => r.1 ≤ c && c ≤ r.2

/-- Puts a range before others that do not begin before it, and joins it with those that begin
in it or right behind it. -/
def joinFrom (r : Nat × Nat) : List (Nat × Nat) → CodeRanges
  | [] => [r]
  | s :: rest =>
    if s.1 ≤ r.2 + 1 then joinFrom (r.1, max r.2 s.2) rest else r :: joinFrom s rest

/-- Joins ranges that overlap or touch, where none begins before its predecessor. -/
def joined : List (Nat × Nat) → CodeRanges
  | [] => []
  | r :: rest => joinFrom r rest

/-- Whether a range begins before another or where it begins. -/
def beginsFirst (r s : Nat × Nat) : Bool := r.1 ≤ s.1

/-- The set of all code points in some ranges. -/
def ofPairs (pairs : List (Nat × Nat)) : CodeRanges := joined (pairs.mergeSort beginsFirst)

def ofPoints (points : List Nat) : CodeRanges := ofPairs (points.map fun c => (c, c))

def union (a b : CodeRanges) : CodeRanges := joined (a.merge b beginsFirst)

/-- What lies between the ranges, from `low` on. -/
def gaps (low : Nat) : CodeRanges → CodeRanges
  | [] => if low ≤ 0x10FFFF then [(low, 0x10FFFF)] else []
  | r :: rest => if low < r.1 then (low, r.1 - 1) :: gaps (r.2 + 1) rest else gaps (r.2 + 1) rest

/-- The code points that stand for no character. -/
def surrogates : CodeRanges := [(0xD800, 0xDFFF)]

/-- All characters that are not in the set. -/
def complement (a : CodeRanges) : CodeRanges := gaps 0 (a.union surrogates)

def inter (a b : CodeRanges) : CodeRanges := (a.complement.union b.complement).complement

def diff (a b : CodeRanges) : CodeRanges := (a.complement.union b).complement

def symmDiff (a b : CodeRanges) : CodeRanges := (a.diff b).union (b.diff a)

/-! ## The notation -/

/-- The number of hexadecimal digits in upper case. -/
def hexNumber (cs : List Char) : Nat :=
  cs.foldl (fun n c => 16 * n + (if c.isDigit then c.toNat - 48 else c.toNat - 55)) 0

/-- A code point, a range, or every so many code points of a range. -/
def item (cs : List Char) : List (Nat × Nat) :=
  match cs.span (· != '-') with
  | (first, []) => [(hexNumber first, hexNumber first)]
  | (first, _ :: more) =>
    match more.span (· != '/') with
    | (last, []) => [(hexNumber first, hexNumber last)]
    | (last, _ :: step) =>
      let first := hexNumber first
      let step := hexNumber step
      (List.range ((hexNumber last - first) / step + 1)).map fun i =>
        (first + step * i, first + step * i)

/-- The words of a line. -/
def words (seen : List Char) : List Char → List (List Char)
  | [] => if seen.isEmpty then [] else [seen.reverse]
  | ' ' :: rest => if seen.isEmpty then words [] rest else seen.reverse :: words [] rest
  | c :: rest => words (c :: seen) rest

/-- The set that is written on some lines. -/
def ofLines (lines : List String) : CodeRanges :=
  ofPairs (lines.flatMap fun line => (words [] line.toList).flatMap item)

/-! ## What the sets hold -/

theorem beginsFirst_of_le {r s : Nat × Nat} (h : r.1 ≤ s.1) : beginsFirst r s = true :=
  decide_eq_true h

theorem le_of_beginsFirst {r s : Nat × Nat} (h : beginsFirst r s = true) : r.1 ≤ s.1 :=
  of_decide_eq_true h

theorem beginsFirst_trans (r s t : Nat × Nat) (hrs : beginsFirst r s = true)
    (hst : beginsFirst s t = true) : beginsFirst r t = true :=
  beginsFirst_of_le (Nat.le_trans (le_of_beginsFirst hrs) (le_of_beginsFirst hst))

theorem beginsFirst_total (r s : Nat × Nat) : (beginsFirst r s || beginsFirst s r) = true := by
  rcases Nat.le_total r.1 s.1 with h | h
  · rw [beginsFirst_of_le h, Bool.true_or]
  · rw [beginsFirst_of_le h, Bool.or_true]

/-- Joining ranges changes no member. -/
theorem contains_joinFrom (r : Nat × Nat) (rest : List (Nat × Nat)) (c : Nat)
    (h : (r :: rest).Pairwise fun a b => a.1 ≤ b.1) :
    (joinFrom r rest).contains c = CodeRanges.contains (r :: rest) c := by
  induction rest generalizing r with
  | nil => rfl
  | cons s rest ih =>
    have hrs : r.1 ≤ s.1 := (List.pairwise_cons.1 h).1 s (List.mem_cons_self ..)
    have hs := (List.pairwise_cons.1 h).2
    unfold joinFrom
    split
    · next htouch =>
      have hjoined : ((r.1, max r.2 s.2) :: rest).Pairwise fun a b => a.1 ≤ b.1 :=
        List.pairwise_cons.2
          ⟨fun b hb => (List.pairwise_cons.1 h).1 b (List.mem_cons_of_mem _ hb),
            (List.pairwise_cons.1 hs).2⟩
      rw [ih _ hjoined]
      simp only [contains, List.any_cons, ← Bool.or_assoc]
      congr 1
      rw [Bool.eq_iff_iff]
      simp only [Bool.or_eq_true, Bool.and_eq_true, decide_eq_true_eq]
      omega
    · have := ih s hs
      simp only [contains, List.any_cons] at this ⊢
      rw [this]

theorem contains_joined (pairs : List (Nat × Nat)) (c : Nat)
    (h : pairs.Pairwise fun a b => a.1 ≤ b.1) :
    (joined pairs).contains c = CodeRanges.contains pairs c := by
  cases pairs with
  | nil => rfl
  | cons r rest => exact contains_joinFrom r rest c h

/-- The set of some ranges holds what they hold, in whatever order they come. -/
theorem contains_ofPairs (pairs : List (Nat × Nat)) (c : Nat) :
    (ofPairs pairs).contains c = CodeRanges.contains pairs c := by
  have hsorted : (pairs.mergeSort beginsFirst).Pairwise fun a b => a.1 ≤ b.1 :=
    (List.pairwise_mergeSort beginsFirst_trans beginsFirst_total pairs).imp le_of_beginsFirst
  rw [ofPairs, contains_joined _ _ hsorted]
  exact (List.mergeSort_perm pairs _).any_eq

/-- A union holds what either set holds. -/
theorem contains_union (a b : CodeRanges) (c : Nat)
    (ha : a.Pairwise fun r s => r.1 ≤ s.1) (hb : b.Pairwise fun r s => r.1 ≤ s.1) :
    (a.union b).contains c = (a.contains c || b.contains c) := by
  have hsorted : (a.merge b beginsFirst).Pairwise fun r s => r.1 ≤ s.1 :=
    (List.pairwise_merge beginsFirst_trans beginsFirst_total a b
      (ha.imp beginsFirst_of_le) (hb.imp beginsFirst_of_le)).imp le_of_beginsFirst
  rw [union, contains_joined _ _ hsorted]
  exact (List.Perm.any_eq (List.merge_perm_append _)).trans List.any_append

end CodeRanges

end PolicyExpr.Text
