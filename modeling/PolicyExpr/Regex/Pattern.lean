/-!
# Patterns and their matches

A pattern describes stretches of a text by sets of characters and by assertions about a
place between two characters. A place is a number from zero to the length of the text; a
pattern relates the place where a stretch begins to the places where one may end.

`image` carries a whole set of places along this relation. Such a set is one number whose
bits stand for the places, so a text has finitely many of them, and a repetition can be
followed until nothing new is reached.
-/
namespace PolicyExpr.Regex

/-- A place in a text: the characters on both sides. -/
structure Site where
  before : Option Char
  after : Option Char

/-- A pattern over sets of characters `σ` and assertions `τ`. -/
inductive Pattern (σ τ : Type) where
  | empty
  | letter (set : σ)
  | assertion (look : τ)
  | sequence (first second : Pattern σ τ)
  | choice (first second : Pattern σ τ)
  | repetition (body : Pattern σ τ) (least : Nat) (most : Option Nat)
  /-- A pattern in parentheses, which may keep the stretch that it describes. -/
  | group (keeps : Bool) (body : Pattern σ τ)

/-- The places of a text, from the first to the one behind the last character. -/
def sites (before : Option Char) : List Char → List Site
  | [] => [⟨before, none⟩]
  | c :: rest => ⟨before, some c⟩ :: sites (some c) rest

/-- The set of the places with a property. -/
def placesWhere (p : Site → Bool) : List Site → Nat
  | [] => 0
  | s :: rest => (if p s then 1 else 0) + 2 * placesWhere p rest

namespace Pattern

/-- The pattern on a given text: of each set and each assertion remain the places before a
character of the set, and the places of which the assertion is true. -/
def onSites {σ τ : Type} (letter : σ → Site → Bool) (look : τ → Site → Bool) (ss : List Site) :
    Pattern σ τ → Pattern Nat Nat
  | .empty => .empty
  | .letter set => .letter (placesWhere (letter set) ss)
  | .assertion l => .assertion (placesWhere (look l) ss)
  | .sequence a b => .sequence (onSites letter look ss a) (onSites letter look ss b)
  | .choice a b => .choice (onSites letter look ss a) (onSites letter look ss b)
  | .repetition body least most => .repetition (onSites letter look ss body) least most
  | .group keeps body => .group keeps (onSites letter look ss body)

/-- Applies a function `count` times, or until it changes nothing. -/
def iterate (f : Nat → Nat) : (count : Nat) → Nat → Nat
  | 0, s => s
  | count + 1, s =>
    let t := f s
    if t = s then s else iterate f count t

/-- The places reached by at most `count` applications, or all that are ever reached. -/
def reach (f : Nat → Nat) : (count : Nat) → Nat → Nat
  | 0, s => s
  | count + 1, s =>
    let t := s ||| f s
    if t = s then s else reach f count t

/-- The places where a stretch that begins at one of the places `s` may end. In a text with
`positions` places no more than so many repetitions make a difference: a further one moves no
place, and then it may be left out or repeated at will. -/
def image (positions : Nat) : Pattern Nat Nat → Nat → Nat
  | .empty, s => s
  | .letter places, s => (s &&& places) <<< 1
  | .assertion places, s => s &&& places
  | .sequence a b, s => image positions b (image positions a s)
  | .choice a b, s => image positions a s ||| image positions b s
  | .repetition body least most, s =>
    let reached := iterate (image positions body) (min least positions) s
    match most with
    | none => reach (image positions body) positions reached
    | some most => reach (image positions body) (min (most - least) positions) reached
  | .group _ body, s => image positions body s

end Pattern

end PolicyExpr.Regex
