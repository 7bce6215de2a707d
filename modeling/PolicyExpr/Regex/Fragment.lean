import PolicyExpr.Regex.Reader

/-!
# Patterns in normal form

Before a pattern becomes a program it is brought into a form that makes the program small.
Letters in a row are one literal. Sequences are flat, and so are alternatives: a sequence is
nested to the right, and its first part is none. Alternatives that are single letters, or
sets, are one set, and what all alternatives begin with stands before them. A repetition of
the empty stretch happens once at most.
-/
namespace PolicyExpr.Regex

/-- A pattern in normal form. -/
inductive Fragment where
  | empty
  | literal (codes : List Nat)
  | set (set : CharSet)
  | assertion (look : Look)
  | capture (body : Fragment)
  | sequence (first second : Fragment)
  | choice (first second : Fragment)
  | repetition (body : Fragment) (least : Nat) (most : Option Nat)
  deriving DecidableEq

namespace Fragment

/-- A set; with one letter it is a literal. -/
def ofSet : CharSet → Fragment
  | [(first, last)] => if first = last then literal [first] else set [(first, last)]
  | s => set s

/-! ## Lengths -/

/-- Whether every stretch is empty. A set without letters has no stretch, and counts as not
empty. -/
def onlyEmpty : Fragment → Bool
  | empty => true
  | literal _ => false
  | set _ => false
  | assertion _ => true
  | capture body => onlyEmpty body
  | sequence a b => onlyEmpty a && onlyEmpty b
  | choice a b => onlyEmpty a && onlyEmpty b
  | repetition body _ _ => onlyEmpty body

/-- The number of characters in the shortest stretch, unless some set has no letter. -/
def minLength? : Fragment → Option Nat
  | empty => some 0
  | literal codes => some codes.length
  | set s => if s.isEmpty then none else some 1
  | assertion _ => some 0
  | capture body => minLength? body
  | sequence a b => do return (← minLength? a) + (← minLength? b)
  | choice a b => do return min (← minLength? a) (← minLength? b)
  | repetition body least _ => (minLength? body).map (least * ·)

/-- Whether every stretch is known to have a character. -/
def advances (p : Fragment) : Bool := p.minLength?.any (0 < ·)

/-- Whether every stretch begins at the start of the text. -/
def anchored : Fragment → Bool
  | empty => false
  | literal _ => false
  | set _ => false
  | assertion look => look = .textStart
  | capture body => anchored body
  | sequence a b => anchored a || (onlyEmpty a && anchored b)
  | choice a b => anchored a && anchored b
  | repetition body least _ => 0 < least && anchored body

/-! ## Sequences -/

/-- Puts a fragment before another. Two literals become one, and the empty one disappears. -/
def concat : Fragment → Fragment → Fragment
  | empty, b => b
  | sequence x y, b => sequence x (concat y b)
  | a, empty => a
  | literal s, literal t => literal (s ++ t)
  | literal s, sequence (literal t) c => sequence (literal (s ++ t)) c
  | a, b => sequence a b

def ofParts (parts : List Fragment) : Fragment := parts.foldr concat empty

/-- The parts of a sequence; nothing for what is none. -/
def parts : Fragment → List Fragment
  | sequence a b =>
    a :: match b with
      | sequence _ _ => parts b
      | b => [b]
  | _ => []

/-! ## Alternatives -/

/-- The alternatives that stand beside each other. -/
def branches : Fragment → List Fragment
  | choice a b => a :: branches b
  | p => [p]

def ofBranches : List Fragment → Fragment
  | [] => set []
  | [p] => p
  | p :: ps => choice p (ofBranches ps)

def letter? : Fragment → Option Nat
  | literal [code] => some code
  | _ => none

def set? : Fragment → Option CharSet
  | set s => some s
  | _ => none

/-- Alternatives in one fragment, as a set where they are single letters or sets. -/
def merged (ps : List Fragment) : Fragment :=
  match ps.flatMap branches with
  | [p] => p
  | ps =>
    match ps.mapM letter? with
    | some codes => ofSet (.ofPoints codes)
    | none =>
      match ps.mapM set? with
      | some sets => ofSet (.ofPairs sets.flatten)
      | none => ofBranches ps

def hasCapture : Fragment → Bool
  | capture _ => true
  | sequence a b => hasCapture a || hasCapture b
  | choice a b => hasCapture a || hasCapture b
  | repetition body _ _ => hasCapture body
  | _ => false

/-- What two sequences begin with. No two captures are the same. -/
def sharedParts : List Fragment → List Fragment → List Fragment
  | p :: ps, q :: qs => if p = q ∧ !p.hasCapture then p :: sharedParts ps qs else []
  | _, _ => []

/-- The parts with which several sequences begin. -/
def commonParts : List Fragment → List Fragment
  | p :: q :: ps => (q :: ps).foldl (fun shared r => sharedParts shared r.parts) p.parts
  | _ => []

/-- Alternatives in one fragment, with what all of them begin with in front. -/
def alternatives : List Fragment → Fragment
  | [p] => p
  | ps =>
    let ps := ps.flatMap branches
    match commonParts ps with
    | [] => merged ps
    | shared =>
      concat (ofParts shared) (merged (ps.map fun p => ofParts (p.parts.drop shared.length)))

/-! ## Repetitions -/

/-- A repetition; one of the empty stretch happens once at most. -/
def repeated (body : Fragment) (least : Nat) (most : Option Nat) : Fragment :=
  let bounds : Nat × Option Nat :=
    if body.onlyEmpty then (min least 1, some ((most.getD 1).min 1)) else (least, most)
  match bounds with
  | (0, some 0) => empty
  | (1, some 1) => body
  | (least, most) => repetition body least most

/-! ## Patterns -/

/-- The alternatives of a pattern in normal form. Parentheses end what stands beside each
other. -/
def branchesOf : Pattern CharSet Look → List Fragment
  | .empty => [empty]
  | .letter s => [ofSet s]
  | .assertion look => [assertion look]
  | .sequence a b => [concat (alternatives (branchesOf a)) (alternatives (branchesOf b))]
  | .choice a b => branchesOf a ++ branchesOf b
  | .repetition body least most => [repeated (alternatives (branchesOf body)) least most]
  | .group keeps body =>
    let body := alternatives (branchesOf body)
    [if keeps then capture body else body]

/-- The normal form of a pattern. -/
def ofPattern (p : Pattern CharSet Look) : Fragment := alternatives (branchesOf p)

/-! ## Laws -/

theorem concat_empty (p : Fragment) : p.concat empty = p := by
  induction p with
  | sequence x y _ ih => rw [concat, ih]
  | _ => rfl

/-- Nothing but a sequence has parts. -/
theorem parts_ne_nil_iff (p : Fragment) : p.parts ≠ [] ↔ ∃ a b, p = sequence a b := by
  cases p <;> simp [parts]

/-- Alternatives are flat: those of a fragment that is made of some are those. -/
theorem branches_ofBranches (ps : List Fragment) (h : ps ≠ [])
    (hflat : ∀ p ∈ ps, p.branches = [p]) : (ofBranches ps).branches = ps := by
  induction ps with
  | nil => exact absurd rfl h
  | cons p ps ih =>
    cases ps with
    | nil => exact hflat p (List.mem_singleton_self p)
    | cons q qs =>
      rw [ofBranches, branches,
        ih (List.cons_ne_nil q qs) fun r hr => hflat r (List.mem_cons_of_mem p hr)]
      exact List.cons_ne_nil q qs

end Fragment

end PolicyExpr.Regex
