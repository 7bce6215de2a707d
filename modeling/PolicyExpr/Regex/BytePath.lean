import PolicyExpr.Regex.CharSet

/-!
# Sets of characters as bytes

A program reads bytes. The characters of a range are the texts of a few paths: a path is a
range of bytes for each place, and its texts take any byte of the range at each place. A
range is cut where the number of bytes changes, and then between characters whose last bytes
do not take all values, so the paths come in ascending order and have no text in common.
-/
namespace PolicyExpr.Regex

/-- Ranges of bytes, one behind the other. -/
abbrev BytePath := List (Nat × Nat)

namespace BytePath

/-- The characters that are written with one number of bytes: the number of bytes behind the
first, what is added to the bits of the first, and the range of the characters. -/
structure Block where
  more : Nat
  mark : Nat
  first : Nat
  last : Nat

/-- The blocks of characters; no character has a code point between the third and the
fourth. -/
def blocks : List Block :=
  [⟨0, 0, 0, 0x7F⟩, ⟨1, 0xC0, 0x80, 0x7FF⟩, ⟨2, 0xE0, 0x800, 0xD7FF⟩, ⟨2, 0xE0, 0xE000, 0xFFFF⟩,
    ⟨3, 0xF0, 0x10000, 0x10FFFF⟩]

/-- Bytes that take all values of a byte behind the first. -/
def anyMore (count : Nat) : BytePath := List.replicate count (0x80, 0xBF)

/-- The paths of the numbers from `first` to `last`, with `more` bytes of six bits behind the
first byte, to which `mark` is added. -/
def split : (more mark first last : Nat) → List BytePath
  | 0, mark, first, last => [[(mark + first, mark + last)]]
  | more + 1, mark, first, last =>
    let unit := Nat.pow 64 (more + 1)
    let a := first / unit
    let b := last / unit
    let under (head : Nat) (paths : List BytePath) : List BytePath :=
      paths.map ((mark + head, mark + head) :: ·)
    if a = b then under a (split more 0x80 (first % unit) (last % unit))
    else
      let whole : Nat × Nat :=
        (if first % unit = 0 then a else a + 1, if last % unit = unit - 1 then b + 1 else b)
      (if first % unit = 0 then [] else under a (split more 0x80 (first % unit) (unit - 1))) ++
        (if whole.1 < whole.2 then [(mark + whole.1, mark + whole.2 - 1) :: anyMore (more + 1)]
          else []) ++
        (if last % unit = unit - 1 then [] else under b (split more 0x80 0 (last % unit)))

/-- The paths of the characters in a range. -/
def ofRange (r : Nat × Nat) : List BytePath :=
  blocks.flatMap fun block =>
    let first := max r.1 block.first
    let last := min r.2 block.last
    if first ≤ last then split block.more block.mark first last else []

/-- The paths of the characters in a set. -/
def ofSet (s : CharSet) : List BytePath := s.flatMap ofRange

/-- Splits paths by their first range, where those with one such range stand together. -/
def byHead : List BytePath → List ((Nat × Nat) × List BytePath)
  | [] => []
  | [] :: paths => byHead paths
  | (r :: path) :: paths =>
    match byHead paths with
    | (s, tails) :: groups =>
      if r = s then (s, path :: tails) :: groups else (r, [path]) :: (s, tails) :: groups
    | [] => [(r, [path])]

/-! ## Laws -/

/-- All paths of one split have the same number of bytes. -/
theorem length_of_mem_split {more mark first last : Nat} {path : BytePath}
    (h : path ∈ split more mark first last) : path.length = more + 1 := by
  induction more generalizing mark first last path with
  | zero =>
    rw [split, List.mem_singleton] at h
    rw [h]
    rfl
  | succ more ih =>
    have hunder {head x y : Nat} (hp : path ∈
        (split more 0x80 x y).map ((mark + head, mark + head) :: ·)) :
        path.length = more + 1 + 1 := by
      obtain ⟨tail, htail, rfl⟩ := List.mem_map.1 hp
      rw [List.length_cons, ih htail]
    unfold split at h
    dsimp only at h
    split at h
    · exact hunder h
    · rcases List.mem_append.1 h with h | h
      · rcases List.mem_append.1 h with h | h
        · exact hunder (List.mem_ite_nil_left.1 h).2
        · rw [List.mem_singleton.1 (List.mem_ite_nil_right.1 h).2, List.length_cons, anyMore,
            List.length_replicate]
      · exact hunder (List.mem_ite_nil_left.1 h).2

end BytePath

end PolicyExpr.Regex
