import PolicyExpr.Decimal.Notation
import PolicyExpr.Regex.CharSet
import PolicyExpr.Regex.Pattern

/-!
# Reading patterns

The notation of patterns: alternatives of sequences of repeated letters, sets, groups and
assertions, with flags that change the meaning of what follows them in their group. What is
read is the pattern itself, or nothing when the text is no pattern.

References back to a group and conditions on the text around a stretch are not part of the
notation. Without the flag `u` letters stand for ASCII, and whatever could match a part of
another character is refused.
-/
namespace PolicyExpr.Regex

/-- What an assertion says about a place. -/
inductive Look where
  | textStart
  | textEnd
  /-- The start of a line; with carriage returns or without. -/
  | lineStart (returns : Bool)
  | lineEnd (returns : Bool)
  /-- A border of a word, or its contrary; in Unicode or ASCII. -/
  | border (unicode : Bool)
  | noBorder (unicode : Bool)
  | wordStart (unicode : Bool)
  | wordEnd (unicode : Bool)
  /-- No character of a word on the left. -/
  | openLeft (unicode : Bool)
  /-- No character of a word on the right. -/
  | openRight (unicode : Bool)
  deriving DecidableEq

namespace Look

def isWord (unicode : Bool) (c : Option Char) : Bool :=
  c.any fun c => (if unicode then CharSet.word else CharSet.asciiWord).contains c.toNat

/-- Whether an assertion is true of a place. -/
def holds : Look → Site → Bool
  | textStart, s => s.before.isNone
  | textEnd, s => s.after.isNone
  | lineStart false, s => s.before.isNone || s.before == some '\n'
  | lineEnd false, s => s.after.isNone || s.after == some '\n'
  | lineStart true, s =>
    s.before.isNone || s.before == some '\n' || (s.before == some '\r' && s.after != some '\n')
  | lineEnd true, s =>
    s.after.isNone || s.after == some '\r' || (s.after == some '\n' && s.before != some '\r')
  | border u, s => isWord u s.before != isWord u s.after
  | noBorder u, s => isWord u s.before == isWord u s.after
  | wordStart u, s => !isWord u s.before && isWord u s.after
  | wordEnd u, s => isWord u s.before && !isWord u s.after
  | openLeft u, s => !isWord u s.before
  | openRight u, s => !isWord u s.after

end Look

/-- Whether a place stands before a character of a set. -/
def CharSet.at (set : CharSet) (s : Site) : Bool := s.after.any fun c => set.contains c.toNat

/-! ## Flags -/

/-- The flags in force. -/
structure Flags where
  ignoreCase : Bool
  multiLine : Bool
  dotAll : Bool
  unicode : Bool
  returns : Bool
  /-- Blanks and comments do not count. -/
  spaced : Bool
  deriving DecidableEq

namespace Flags

/-- The flags at the start of a pattern. -/
def initial : Flags := ⟨false, false, false, true, false, false⟩

/-- Sets the flag of a letter. The flag `U` changes which match is found, not whether there is
one. -/
def set? (flags : Flags) (letter : Char) (value : Bool) : Option Flags :=
  match letter with
  | 'i' => some { flags with ignoreCase := value }
  | 'm' => some { flags with multiLine := value }
  | 's' => some { flags with dotAll := value }
  | 'u' => some { flags with unicode := value }
  | 'R' => some { flags with returns := value }
  | 'x' => some { flags with spaced := value }
  | 'U' => some flags
  | _ => none

end Flags

/-- Drops blanks and comments, a comment up to the end of its line. -/
def skipSpaced (inComment : Bool) : List Char → List Char
  | [] => []
  | c :: rest =>
    if inComment then skipSpaced (c != '\n') rest
    else if Text.isBlank c then skipSpaced false rest
    else if c = '#' then skipSpaced true rest
    else c :: rest

/-- Drops what does not count under the flags. -/
def Flags.skip (flags : Flags) (cs : List Char) : List Char :=
  if flags.spaced then skipSpaced false cs else cs

/-- The character behind the first one of `cs` that counts. A comment is not skipped as a
whole: only the sign that opens it is. -/
def Flags.second? (flags : Flags) (cs : List Char) : Option Char :=
  let rest := cs.tail
  if flags.spaced then
    match rest.dropWhile Text.isBlank with
    | '#' :: more => (more.dropWhile Text.isBlank).head?
    | more => more.head?
  else rest.head?

/-- The flags behind a question mark, up to a colon or a closing parenthesis; which of the two,
and what follows. No letter may occur twice, nor the minus sign. -/
def readFlags (flags : Flags) (seen : List Char) (value : Bool) :
    List Char → Option (Flags × Bool × Char × List Char)
  | [] => none
  | c :: rest =>
    if c = ':' ∨ c = ')' then
      if seen.head? = some '-' then none else some (flags, seen.isEmpty, c, rest)
    else if seen.contains c then none
    else if c = '-' then readFlags flags (c :: seen) false rest
    else
      match flags.set? c value with
      | some flags => readFlags flags (c :: seen) value rest
      | none => none

/-! ## Escapes -/

/-- A part of a pattern without parts of its own. A letter may be written as a byte. -/
inductive Primitive where
  | letter (code : Nat) (byte : Bool)
  | set (s : CharSet)
  | look (l : Look)

/-- The number of some hexadecimal digits, where all of them are. -/
def hexValue? (cs : List Char) : Option Nat :=
  cs.foldl (fun n c => n.bind fun n =>
    if c.isDigit then some (16 * n + (c.toNat - 48))
    else if 'a' ≤ c ∧ c ≤ 'f' then some (16 * n + (c.toNat - 87))
    else if 'A' ≤ c ∧ c ≤ 'F' then some (16 * n + (c.toNat - 55))
    else none) (some 0)

/-- A code point that is a character. -/
def scalar? (n : Nat) : Option Nat :=
  if n < 0xD800 ∨ (0xDFFF < n ∧ n < 0x110000) then some n else none

/-- Takes `count` characters that count under the flags. -/
def takeCounted (flags : Flags) : (count : Nat) → List Char → Option (List Char × List Char)
  | 0, cs => some ([], cs)
  | _ + 1, [] => none
  | count + 1, c :: rest =>
    (takeCounted flags count (flags.skip rest)).map fun (taken, rest) => (c :: taken, rest)

/-- Takes characters that count up to a closing brace, which is dropped. -/
def takeBraced (flags : Flags) : (fuel : Nat) → List Char → Option (List Char × List Char)
  | 0, _ => none
  | _ + 1, [] => none
  | fuel + 1, c :: rest =>
    if c = '\x7d' then some ([], rest)
    else (takeBraced flags fuel (flags.skip rest)).map fun (taken, rest) => (c :: taken, rest)

/-- A code point in hexadecimal digits, behind the letter that tells their number. -/
def readHex (flags : Flags) (letter : Char) (cs : List Char) : Option (Primitive × List Char) :=
  match flags.skip cs with
  | [] => none
  | '\x7b' :: rest => do
    let (digits, rest) ← takeBraced flags (cs.length + 1) (flags.skip rest)
    if digits.isEmpty then none
    let code ← (hexValue? digits).bind scalar?
    return (.letter code false, flags.skip rest)
  | rest => do
    let count := if letter = 'x' then 2 else if letter = 'u' then 4 else 8
    let (digits, rest) ← takeCounted flags count rest
    let code ← (hexValue? digits).bind scalar?
    return (.letter code (letter = 'x'), rest)

/-- Splits a list before the first place where a list of characters begins. -/
def splitBefore? (mark : List Char) : List Char → Option (List Char × List Char)
  | [] => none
  | c :: rest =>
    if mark.isPrefixOf (c :: rest) then some ([], (c :: rest).drop mark.length)
    else (splitBefore? mark rest).map fun (front, back) => (c :: front, back)

/-- The set that a name between braces stands for, and whether it means all other characters:
a property and its value may have an inequality sign between them. -/
def namedSet? (name : List Char) : Option (CharSet × Bool) :=
  match splitBefore? ['!', '='] name with
  | some (property, value) => (CharSet.valued? property value).map (·, true)
  | none =>
    match splitBefore? [':'] name with
    | some (property, value) => (CharSet.valued? property value).map (·, false)
    | none =>
      match splitBefore? ['='] name with
      | some (property, value) => (CharSet.valued? property value).map (·, false)
      | none => (CharSet.named? name).map (·, false)

/-- The set under the flags of its place: letters of both cases under `i`, and negated. Without
`u` a set may hold ASCII only, so no negated one is left. -/
def Flags.finish? (flags : Flags) (negated : Bool) (s : CharSet) : Option CharSet :=
  if flags.unicode then
    let s := if flags.ignoreCase then s.foldCase else s
    some (if negated then s.complement else s)
  else if negated then none
  else some (if flags.ignoreCase then s.foldAscii else s)

/-- A set of Unicode by name, behind the letter `p`. -/
def readProperty (flags : Flags) (negated : Bool) (cs : List Char) :
    Option (Primitive × List Char) := do
  let (name, rest) ← (match flags.skip cs with
    | [] => none
    | '\\' :: _ => none
    | '\x7b' :: rest => takeBraced flags (cs.length + 1) (flags.skip rest)
    | c :: rest => some ([c], flags.skip rest))
  if !flags.unicode then none
  let (set, unequal) ← namedSet? name
  let set ← flags.finish? (negated != unequal) set
  return (.set set, rest)

/-- The sets behind a single letter; in upper case negated. -/
def letterSet? (flags : Flags) (letter : Char) : Option CharSet :=
  let positive := if flags.unicode then
      match letter.toLower with
      | 'd' => CharSet.digits
      | 's' => CharSet.blanks
      | _ => CharSet.word
    else
      match letter.toLower with
      | 'd' => CharSet.asciiDigits
      | 's' => CharSet.asciiBlanks
      | _ => CharSet.asciiWord
  if letter.isUpper then (if flags.unicode then some positive.complement else none)
  else some positive

/-- A border of a word, or the one of its kinds that is named between braces. Braces that hold
no name are a repetition and stay. -/
def readBorder (flags : Flags) (cs : List Char) : Option (Primitive × List Char) :=
  let border := some (Primitive.look (.border flags.unicode), cs)
  let nameChar (c : Char) : Bool := c.isAlpha || c == '-'
  match cs with
  | '\x7b' :: rest =>
    match flags.skip rest with
    | [] => none
    | c :: more =>
      if !nameChar c then border
      else
        match takeBraced flags (cs.length + 1) (c :: more) with
        | some (name, rest) =>
          match String.ofList name with
          | "start" => some (.look (.wordStart flags.unicode), rest)
          | "end" => some (.look (.wordEnd flags.unicode), rest)
          | "start-half" => some (.look (.openLeft flags.unicode), rest)
          | "end-half" => some (.look (.openRight flags.unicode), rest)
          | _ => none
        | none => none
  | _ => border

/-- The signs that an escape may stand before; of the others in ASCII, the letters, the digits
and the two angles have meanings of their own. -/
def isPlainEscape (c : Char) : Bool :=
  c.toNat < 128 && !c.isAlphanum && c != '<' && c != '>'

/-- What follows a backslash. -/
def readEscape (flags : Flags) : List Char → Option (Primitive × List Char)
  | [] => none
  | c :: rest =>
    if isPlainEscape c then some (.letter c.toNat false, rest)
    else
      match c with
      | 'x' => readHex flags 'x' rest
      | 'u' => readHex flags 'u' rest
      | 'U' => readHex flags 'U' rest
      | 'p' => readProperty flags false rest
      | 'P' => readProperty flags true rest
      | 'a' => some (.letter 7 false, rest)
      | 'f' => some (.letter 12 false, rest)
      | 't' => some (.letter 9 false, rest)
      | 'n' => some (.letter 10 false, rest)
      | 'r' => some (.letter 13 false, rest)
      | 'v' => some (.letter 11 false, rest)
      | 'A' => some (.look .textStart, rest)
      | 'z' => some (.look .textEnd, rest)
      | 'b' => readBorder flags rest
      | 'B' => some (.look (.noBorder flags.unicode), rest)
      | '<' => some (.look (.wordStart flags.unicode), rest)
      | '>' => some (.look (.wordEnd flags.unicode), rest)
      | c =>
        if ['d', 'D', 's', 'S', 'w', 'W'].contains c then
          (letterSet? flags c).map fun s => (.set s, rest)
        else none

/-! ## Sets in brackets -/

/-- A set with the depth of its brackets and operations. -/
structure NestedSet where
  set : CharSet
  depth : Nat

/-- The operations on sets. -/
inductive SetOperation where
  | inter
  | diff
  | symmDiff

/-- The operation that two equal signs stand for. -/
def SetOperation.ofSigns? : List Char → Option SetOperation
  | '&' :: '&' :: _ => some inter
  | '-' :: '-' :: _ => some diff
  | '~' :: '~' :: _ => some symmDiff
  | _ => none

def SetOperation.apply : SetOperation → CharSet → CharSet → CharSet
  | inter, a, b => a.inter b
  | diff, a, b => a.diff b
  | symmDiff, a, b => a.symmDiff b

/-- The union of some sets. -/
def unionSets (sets : List NestedSet) : NestedSet :=
  match sets with
  | [] => ⟨[], 0⟩
  | [s] => s
  | sets => ⟨.ofPairs (sets.flatMap (·.set)), 1 + sets.foldl (fun d s => max d s.depth) 0⟩

/-- Joins a set to the left side of an operation that waits for its right side. -/
def joinSet (flags : Flags) (pending : Option (NestedSet × SetOperation)) (s : NestedSet) :
    NestedSet :=
  match pending with
  | none => s
  | some (left, op) =>
    let folded (s : CharSet) : CharSet :=
      if !flags.ignoreCase then s else if flags.unicode then s.foldCase else s.foldAscii
    ⟨op.apply (folded left.set) (folded s.set), 1 + max left.depth s.depth⟩

/-- The code of a letter in a set. Without `u` only ASCII can stand there. -/
def Flags.setLetter? (flags : Flags) (code : Nat) : Option Nat :=
  if flags.unicode ∨ code < 128 then some code else none

/-- A letter or a named set inside brackets. -/
def readSetPart (flags : Flags) : List Char → Option (Primitive × List Char)
  | [] => none
  | '\\' :: rest => readEscape flags rest
  | c :: rest => some (.letter c.toNat false, rest)

/-- A letter, a named set, or a range of letters. A hyphen before a bracket or another hyphen
makes no range. -/
def readSetItem (flags : Flags) (cs : List Char) : Option (NestedSet × List Char) := do
  let (first, rest) ← readSetPart flags cs
  match flags.skip rest with
  | [] => none
  | rest =>
    if rest.head? ≠ some '-' ∨ flags.second? rest = some ']' ∨ flags.second? rest = some '-' then
      match first with
      | .letter code _ => do
        let code ← flags.setLetter? code
        return (⟨[(code, code)], 0⟩, rest)
      | .set s => return (⟨s, 0⟩, rest)
      | .look _ => none
    else
      match flags.skip rest.tail with
      | [] => none
      | more => do
        let (last, rest) ← readSetPart flags more
        match first, last with
        | .letter a _, .letter b _ => do
          if b < a then none
          let a ← flags.setLetter? a
          let b ← flags.setLetter? b
          return (⟨[(a, b)], 0⟩, rest)
        | _, _ => none

/-- A set of POSIX, behind its opening bracket; nothing where the text is none. -/
def readPosix? (flags : Flags) (cs : List Char) : Option (Option CharSet × List Char) :=
  match cs with
  | ':' :: rest =>
    let (negated, rest) := match rest with
      | '^' :: more => (true, more)
      | _ => (false, rest)
    match rest.span (· != ':') with
    | (name, ':' :: ']' :: rest) =>
      (CharSet.posix? (String.ofList name)).map fun s => (flags.finish? negated s, rest)
    | _ => none
  | _ => none

/-- The hyphens at the start of a set, which stand for themselves. -/
def readHyphens (flags : Flags) : (fuel : Nat) → List Char → List NestedSet × List Char
  | 0, cs => ([], cs)
  | fuel + 1, '-' :: rest =>
    let (sets, rest) := readHyphens flags fuel (flags.skip rest)
    (⟨[(45, 45)], 0⟩ :: sets, rest)
  | _ + 1, cs => ([], cs)

mutual

/-- A set behind its opening bracket. -/
def readBrackets (flags : Flags) : (fuel : Nat) → List Char → Option (NestedSet × List Char)
  | 0, _ => none
  | fuel + 1, cs =>
    let cs := flags.skip cs
    let (negated, cs) := match cs with
      | '^' :: rest => (true, flags.skip rest)
      | cs => (false, cs)
    let (hyphens, cs) := readHyphens flags fuel cs
    let (sets, cs) : List NestedSet × List Char := match hyphens, cs with
      | [], ']' :: rest => ([⟨[(93, 93)], 0⟩], flags.skip rest)
      | hyphens, cs => (hyphens, cs)
    if cs.isEmpty then none
    else do
      let (s, rest) ← readUnion flags fuel none sets.reverse cs
      let set ← flags.finish? negated s.set
      return (⟨set, 1 + s.depth⟩, rest)

/-- The items of a set up to its closing bracket. -/
def readUnion (flags : Flags) : (fuel : Nat) → Option (NestedSet × SetOperation) →
    List NestedSet → List Char → Option (NestedSet × List Char)
  | 0, _, _, _ => none
  | fuel + 1, pending, sets, cs =>
    match flags.skip cs with
    | [] => none
    | '[' :: rest =>
      match readPosix? flags rest with
      | some (some s, rest) => readUnion flags fuel pending (⟨s, 0⟩ :: sets) rest
      | some (none, _) => none
      | none => do
        let (s, rest) ← readBrackets flags fuel rest
        readUnion flags fuel pending (s :: sets) rest
    | ']' :: rest => some (joinSet flags pending (unionSets sets), rest)
    | cs =>
      match SetOperation.ofSigns? cs with
      | some op =>
        readUnion flags fuel (some (joinSet flags pending (unionSets sets), op)) [] (cs.drop 2)
      | none => do
        let (s, rest) ← readSetItem flags cs
        readUnion flags fuel pending (s :: sets) rest

end

/-! ## Repetitions -/

/-- A whole number below `2^32`, with blanks around it. -/
def readCount (flags : Flags) (cs : List Char) : Option Nat × List Char :=
  let rec digits : (fuel : Nat) → List Char → List Char × List Char
    | 0, cs => ([], cs)
    | fuel + 1, c :: rest =>
      if c.isDigit then
        let (more, rest) := digits fuel (flags.skip rest)
        (c :: more, rest)
      else ([], c :: rest)
    | _ + 1, [] => ([], [])
  let (taken, rest) := digits (cs.length + 1) (cs.dropWhile Text.isBlank)
  let value := Decimal.digitsValue taken
  (if taken.isEmpty ∨ UInt32.size ≤ value then none else some value,
    flags.skip (rest.dropWhile Text.isBlank))

/-- The bounds of a repetition behind an opening brace. -/
def readBounds (flags : Flags) (cs : List Char) : Option ((Nat × Option Nat) × List Char) :=
  match flags.skip cs with
  | [] => none
  | cs =>
    let (least, rest) := readCount flags cs
    match least, rest with
    | some least, ',' :: rest =>
      match flags.skip rest with
      | '\x7d' :: rest => some ((least, none), rest)
      | rest =>
        match readCount flags rest with
        | (some most, '\x7d' :: rest) =>
          if least ≤ most then some ((least, some most), rest) else none
        | _ => none
    | some least, '\x7d' :: rest => some ((least, some least), rest)
    | _, _ => none

/-- The bounds of a repetition at the start of a text, and what follows it. A question mark
behind them changes which match is found, not whether there is one. -/
def readRepetition (flags : Flags) (cs : List Char) :
    Option ((Nat × Option Nat) × List Char) := do
  let (bounds, rest) ← (match cs with
    | '?' :: rest => some ((0, some 1), rest)
    | '*' :: rest => some ((0, none), rest)
    | '+' :: rest => some ((1, none), rest)
    | '\x7b' :: rest => (readBounds flags rest).map fun (bounds, rest) => (bounds, flags.skip rest)
    | _ => none)
  match rest with
  | '?' :: rest => return (bounds, rest)
  | rest => return (bounds, rest)

/-! ## Patterns -/

/-- A pattern with the depth of its nesting. A directive matches the empty stretch but cannot
be repeated. -/
structure Item where
  pattern : Pattern CharSet Look
  depth : Nat
  directive : Bool

def Item.ofSet (s : CharSet) : Item := ⟨.letter s, 0, false⟩

def Item.ofLook (l : Look) : Item := ⟨.assertion l, 0, false⟩

/-- What matches the empty stretch and is nothing to repeat. -/
def Item.none : Item := ⟨.empty, 0, true⟩

/-- A letter under the flags. A byte beyond ASCII is no letter without `u`. -/
def Item.ofLetter? (flags : Flags) (code : Nat) (byte : Bool) : Option Item :=
  if !flags.unicode && byte && 128 ≤ code then Option.none
  else
    let s : CharSet := [(code, code)]
    some (.ofSet
      (if !flags.ignoreCase then s else if flags.unicode then s.foldCase else CharSet.foldAscii s))

def Item.ofPrimitive? (flags : Flags) : Primitive → Option Item
  | .letter code byte => Item.ofLetter? flags code byte
  | .set s => some (.ofSet s)
  | .look l => some (.ofLook l)

/-- Any character, or any that ends no line. -/
def Item.any? (flags : Flags) : Option Item :=
  if !flags.unicode then Option.none
  else
    let excluded : CharSet :=
      if flags.dotAll then [] else if flags.returns then [(10, 10), (13, 13)] else [(10, 10)]
    some (.ofSet excluded.complement)

/-- Items one behind the other, given in reverse. -/
def Item.sequence (items : List Item) : Item :=
  match items with
  | [] => .none
  | [item] => item
  | items =>
    ⟨(items.map Item.pattern).foldl (fun tail p => .sequence p tail) .empty,
      1 + items.foldl (fun d i => max d i.depth) 0, false⟩

/-- Alternatives, given in reverse. -/
def Item.choice (items : List Item) : Item :=
  match items with
  | [] => .none
  | [item] => item
  | last :: items =>
    ⟨(items.map Item.pattern).foldl (fun tail p => .choice p tail) last.pattern,
      1 + (last :: items).foldl (fun d i => max d i.depth) 0, false⟩

def Item.group (item : Item) (keeps : Bool) : Item :=
  ⟨.group keeps item.pattern, 1 + item.depth, false⟩

def Item.repeated (item : Item) (least : Nat) (most : Option Nat) : Item :=
  ⟨.repetition item.pattern least most, 1 + item.depth, false⟩

/-- The characters that stand for numbers. -/
def numberRanges : CharSet := Text.categoryRanges ["Nd", "Nl", "No"]

/-- Whether a character may stand in the name of a group. -/
def isNameChar (first : Bool) (c : Char) : Bool :=
  c == '_' || Text.alphabetic.contains c.toNat ||
    (!first && (c == '.' || c == '[' || c == ']' ||
      numberRanges.contains c.toNat))

/-- The name of a group, up to the closing angle. -/
def readName (cs : List Char) : Option (String × List Char) :=
  match cs.span (· != '>') with
  | (first :: name, _ :: rest) =>
    if isNameChar true first && name.all (isNameChar false) then
      some (String.ofList (first :: name), rest)
    else none
  | _ => none

/-- How a group begins: by flags for all that follows, with flags of its own, or as a group that
keeps its stretch, perhaps under a name. -/
inductive GroupStart where
  | directive (flags : Flags) (rest : List Char)
  | group (flags : Flags) (keeps : Bool) (name : Option String) (rest : List Char)

/-- The start of a group behind its parenthesis. -/
def readGroupStart (flags : Flags) (cs : List Char) : Option GroupStart :=
  match cs with
  | '?' :: '=' :: _ => none
  | '?' :: '!' :: _ => none
  | '?' :: '<' :: '=' :: _ => none
  | '?' :: '<' :: '!' :: _ => none
  | '?' :: 'P' :: '<' :: rest =>
    (readName rest).map fun (name, rest) => .group flags true (some name) rest
  | '?' :: '<' :: rest =>
    (readName rest).map fun (name, rest) => .group flags true (some name) rest
  | '?' :: rest =>
    match readFlags flags [] true rest with
    | some (inner, bare, stop, rest) =>
      if stop = ')' then (if bare then none else some (.directive inner rest))
      else some (.group inner false none rest)
    | none => none
  | rest => some (.group flags true none rest)

/-- A pattern up to the end or to a closing parenthesis: what was read, the names of all groups
so far, and what follows. `branches` and `items` were read before, in reverse. -/
def readPattern : (fuel : Nat) → Flags → List String → (branches items : List Item) →
    List Char → Option (Item × List String × List Char)
  | 0, _, _, _, _, _ => none
  | fuel + 1, flags, names, branches, items, cs =>
    match flags.skip cs with
    | [] => some (.choice (.sequence items :: branches), names, [])
    | ')' :: rest => some (.choice (.sequence items :: branches), names, ')' :: rest)
    | '|' :: rest => readPattern fuel flags names (.sequence items :: branches) [] rest
    | '(' :: rest =>
      match readGroupStart flags (flags.skip rest) with
      | none => none
      | some (.directive inner rest) =>
        readPattern fuel inner names branches (.none :: items) rest
      | some (.group inner keeps name rest) =>
        if name.any names.contains then none
        else
          match readPattern fuel inner (name.toList ++ names) [] [] rest with
          | some (item, names, ')' :: rest) =>
            readPattern fuel flags names branches (item.group keeps :: items) rest
          | _ => none
    | '[' :: rest => do
      let (s, rest) ← readBrackets flags fuel rest
      let item : Item := { Item.ofSet s.set with depth := s.depth }
      readPattern fuel flags names branches (item :: items) rest
    | '\\' :: rest => do
      let (primitive, rest) ← readEscape flags rest
      let item ← Item.ofPrimitive? flags primitive
      readPattern fuel flags names branches (item :: items) rest
    | '.' :: rest => do
      let item ← Item.any? flags
      readPattern fuel flags names branches (item :: items) rest
    | '^' :: rest =>
      let look : Look := if flags.multiLine then .lineStart flags.returns else .textStart
      readPattern fuel flags names branches (.ofLook look :: items) rest
    | '$' :: rest =>
      let look : Look := if flags.multiLine then .lineEnd flags.returns else .textEnd
      readPattern fuel flags names branches (.ofLook look :: items) rest
    | c :: rest =>
      if c = '?' ∨ c = '*' ∨ c = '+' ∨ c = '\x7b' then
        match items with
        | [] => none
        | item :: items =>
          if item.directive then none
          else do
            let ((least, most), rest) ← readRepetition flags (c :: rest)
            readPattern fuel flags names branches (item.repeated least most :: items) rest
      else do
        let item ← Item.ofLetter? flags c.toNat false
        readPattern fuel flags names branches (item :: items) rest

end PolicyExpr.Regex
