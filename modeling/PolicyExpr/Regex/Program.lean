import Std.Data.HashMap
import PolicyExpr.Regex.BytePath
import PolicyExpr.Regex.Fragment

/-!
# The size of programs

A pattern is run as a program: states that read a byte, check an assertion, or go on in
several ways. A program has a copy of the body of a repetition for each time that is counted,
so short patterns may have large programs, and one that is too large is refused.

Here a program is laid out state by state, as far as its size depends on it, and no further
than it is allowed to grow.
-/
namespace PolicyExpr.Regex

/-- A part of a program: the number of its states, and the bytes that they take beyond those
that every state takes. -/
structure Layout where
  states : Nat
  extra : Nat
  deriving DecidableEq

namespace Layout

/-- The size of a state. -/
def stateBytes : Nat := 32

/-- The size of a range of bytes that leads to another state. -/
def edgeBytes : Nat := 8

/-- The size of a way to go on without reading. -/
def branchBytes : Nat := 4

/-- The largest size of a program: ten mebibytes. -/
def maxBytes : Nat := 10 * 1024 * 1024

def bytes (l : Layout) : Nat := stateBytes * l.states + l.extra

end Layout

/-- Lays out a part of a program behind another, unless it becomes too large. -/
abbrev Step := Layout → Option Layout

namespace Step

/-- Some states, and the bytes that they take beyond others. -/
def add (states extra : Nat) : Step := fun l =>
  let l : Layout := ⟨l.states + states, l.extra + extra⟩
  if Layout.maxBytes < l.bytes then none else some l

/-- States that go on in one way. -/
def plain (states : Nat) : Step := add states 0

/-- A state that goes on in `ways`. -/
def fork (ways : Nat) : Step := add 1 (Layout.branchBytes * ways)

/-- Copies of a part. -/
def times (step : Step) : (count : Nat) → Step
  | 0, l => some l
  | count + 1, l =>
    match step l with
    | none => none
    | some l => times step count l

/-! ## Sets -/

/-- The edges of a state: ranges of bytes with the states that they lead to. -/
abbrev Edges := List ((Nat × Nat) × Nat)

/-- The states that share their rests: a layout, and a table of states by their edges. A state
is found in its slot of the table, as long as no other state has taken the slot. -/
structure Shared where
  layout : Layout
  slots : Std.HashMap Nat (Edges × Nat)

def slotCount : Nat := 10000

/-- The slot of some edges, by the FNV-1a sum of the ranges and the states. -/
def slot (edges : Edges) : Nat :=
  let mix (sum : UInt64) (n : Nat) : UInt64 := (sum ^^^ n.toUInt64) * 1099511628211
  let sum := edges.foldl (fun sum e => mix (mix (mix sum e.1.1) e.1.2) e.2) 14695981039346656037
  sum.toNat % slotCount

/-- The state with some edges: the one in the table, or a new one. -/
def Shared.state (shared : Shared) (edges : Edges) : Nat × Shared :=
  let slot := slot edges
  let known := (shared.slots[slot]?).bind fun entry =>
    if entry.1 = edges then some entry.2 else none
  match known with
  | some state => (state, shared)
  | none =>
    let state := shared.layout.states
    let extra := shared.layout.extra + Layout.edgeBytes * edges.length
    (state, ⟨⟨state + 1, extra⟩, shared.slots.insert slot (edges, state)⟩)

/-- The state that reads one of some paths and goes on at `target`. Paths are no longer than
`length`. -/
def Shared.paths (target : Nat) : (length : Nat) → List BytePath → Shared → Nat × Shared
  | 0, _, shared => (target, shared)
  | length + 1, paths, shared =>
    let (edges, shared) := (BytePath.byHead paths).foldl
      (fun (edges, shared) (range, tails) =>
        let (next, shared) : Nat × Shared :=
          if tails.all (·.isEmpty) then (target, shared) else Shared.paths target length tails shared
        ((range, next) :: edges, shared))
      (([], shared) : Edges × Shared)
    shared.state edges.reverse

/-- A set. One of ASCII is a single state with the state behind it. -/
def ofSet (s : CharSet) : Step :=
  if s.all (·.2 < 128) then add 2 (Layout.edgeBytes * s.length)
  else
    let paths := BytePath.ofSet s
    fun l =>
      let shared : Shared := ⟨⟨l.states + 1, l.extra⟩, ∅⟩
      add 0 0 (shared.paths l.states 4 paths).2.layout

/-! ## Alternatives -/

/-- One part behind another. -/
def chain (steps : List Step) : Step := steps.foldr (· >=> ·) some

/-- Alternatives, behind a state that goes on to each of them. -/
def choice : List Step → Step
  | first :: second :: more =>
    chain (first :: second :: plain 1 :: fork (2 + more.length) :: more)
  | steps => chain steps

/-- The bytes of a literal. -/
def encode (codes : List Nat) : List Nat :=
  codes.flatMap fun code => (String.utf8EncodeChar (Char.ofNat code)).map UInt8.toNat

/-- The stretches of a list between empty words. -/
def stretches : List (List Nat) → List (List (List Nat))
  | [] => [[]]
  | [] :: words => [] :: stretches words
  | word :: words =>
    match stretches words with
    | first :: more => (word :: first) :: more
    | [] => [[word]]

/-- A tree of words, none of them longer than `length`: words with the same start share their
states. A word that ends closes the edges that its state has so far, so that words behind it
get edges of their own. -/
def tree : (length : Nat) → List (List Nat) → Step
  | 0, _ => some
  | length + 1, words =>
    let opened := words.dropWhile List.isEmpty
    let ended := (words.head?.any List.isEmpty).toNat + opened.countP List.isEmpty
    let groups := (stretches opened).filter (!·.isEmpty)
    let group (words : List (List Nat)) : Step :=
      let heads := (words.filterMap List.head?).eraseDups
      let below := heads.map fun head =>
        let tails := (words.filter (·.head? == some head)).map List.tail
        if tails.all List.isEmpty then some else tree length tails
      chain below >=> add 1 (if heads.length = 1 then 0 else Layout.edgeBytes * heads.length)
    chain (groups.map group) >=> fork (groups.length + ended)

/-! ## Fragments -/

/-- The bytes of alternatives that are all of them literals. -/
def words? : Fragment → Option (List (List Nat))
  | .literal codes => some [encode codes]
  | .choice (.literal codes) rest => (words? rest).map (encode codes :: ·)
  | _ => none

/-- A fragment whose alternatives are laid out in `steps`; several literals are a tree. -/
def whole (p : Fragment) (steps : List Step) : Step :=
  match words? p with
  | some (first :: second :: more) =>
    let words := first :: second :: more
    plain 1 >=> tree (words.foldl (fun n word => max n word.length) 0) words
  | _ => choice steps

/-- A repetition. Where the body may be empty, a repetition without end is an option to repeat
it at least once. -/
def repetition (advances : Bool) (body : Step) : Nat → Option Nat → Step
  | 0, none => if advances then fork 2 >=> body else body >=> fork 2 >=> fork 2 >=> plain 1
  | least, none => times body least >=> fork 2
  | 0, some 1 => fork 2 >=> body >=> plain 1
  | least, some most =>
    if least = most then times body least
    else
      (if least = 0 then plain 1 else times body least) >=> plain 1 >=>
        times (fork 2 >=> body) (most - least)

/-- The alternatives of a fragment. -/
def branches : Fragment → List Step
  | .empty => [plain 1]
  | .literal codes => [plain (encode codes).length]
  | .set s => [ofSet s]
  | .assertion _ => [plain 1]
  | .capture body => [plain 1 >=> whole body (branches body) >=> plain 1]
  | .sequence a b => [whole a (branches a) >=> whole b (branches b)]
  | .choice a b => branches a ++ branches b
  | .repetition body least most =>
    [repetition body.advances (whole body (branches body)) least most]

/-- A whole program: unless the pattern begins at the start of the text, it first reads any
bytes; the stretch that it matches is kept. -/
def ofFragment (p : Fragment) : Step :=
  let start := if p.anchored then plain 1 else fork 2 >=> add 2 Layout.edgeBytes
  start >=> plain 1 >=> whole p (branches p) >=> plain 2

end Step

/-- The layout of the program of a pattern, unless it is too large. -/
def Layout.ofPattern? (p : Pattern CharSet Look) : Option Layout :=
  Step.ofFragment (.ofPattern p) ⟨0, 0⟩

end PolicyExpr.Regex
