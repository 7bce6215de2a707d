import PolicyExpr.Json.Numeral

/-!
# Reading JSON

The grammar of JSON, strictly: four blank characters, no leading zeros, no control
character and no unpaired surrogate in a text, nothing behind the document. A numeral
whose value is out of range is refused, and so is a document that nests too deep.
-/
namespace PolicyExpr.Json

/-- The largest number of containers inside one another in a document from outside. -/
def maxNesting : Nat := 127

/-- The blanks of the grammar. -/
def isSpace (c : Char) : Bool := c == ' ' || c == '\n' || c == '\t' || c == '\r'

def skipSpaces (cs : List Char) : List Char := cs.dropWhile isSpace

/-- The value of a hexadecimal digit. -/
def hexValue? (c : Char) : Option Nat :=
  if '0' ≤ c ∧ c ≤ '9' then some (c.toNat - 48)
  else if 'a' ≤ c ∧ c ≤ 'f' then some (c.toNat - 87)
  else if 'A' ≤ c ∧ c ≤ 'F' then some (c.toNat - 55)
  else none

/-- The number of four hexadecimal digits. -/
def hexWord? (a b c d : Char) : Option Nat := do
  let a ← hexValue? a
  let b ← hexValue? b
  let c ← hexValue? c
  let d ← hexValue? d
  return ((a * 16 + b) * 16 + c) * 16 + d

/-- The character an escape letter stands for. -/
def escaped? : Char → Option Char
  | '"' => some '"'
  | '\\' => some '\\'
  | '/' => some '/'
  | 'b' => some '\x08'
  | 'f' => some '\x0c'
  | 'n' => some '\n'
  | 'r' => some '\r'
  | 't' => some '\t'
  | _ => none

/-- Whether a code unit is the first half of a pair. -/
def isLeading (unit : Nat) : Bool := 0xD800 ≤ unit && unit < 0xDC00

/-- Whether a code unit is the second half of a pair. -/
def isTrailing (unit : Nat) : Bool := 0xDC00 ≤ unit && unit < 0xE000

/-- The rest of a quoted text behind its first quotation mark; `seen` is what was read of it,
reversed. -/
def readQuoted (seen : List Char) : List Char → Option (String × List Char)
  | '"' :: rest => some (String.ofList seen.reverse, rest)
  | '\\' :: 'u' :: a :: b :: c :: d :: rest =>
    match hexWord? a b c d with
    | none => none
    | some unit =>
      if isLeading unit then
        match rest with
        | '\\' :: 'u' :: e :: f :: g :: h :: rest =>
          match hexWord? e f g h with
          | none => none
          | some low =>
            if isTrailing low then
              let code := 0x10000 + (unit - 0xD800) * 0x400 + (low - 0xDC00)
              readQuoted (Char.ofNat code :: seen) rest
            else none
        | _ => none
      else if isTrailing unit then none
      else readQuoted (Char.ofNat unit :: seen) rest
  | '\\' :: c :: rest =>
    match escaped? c with
    | some d => readQuoted (d :: seen) rest
    | none => none
  | c :: rest => if c.toNat < 32 || c == '\\' then none else readQuoted (c :: seen) rest
  | [] => none

/-- At least one digit. -/
def readDigits? (cs : List Char) : Option (List Char × List Char) :=
  match cs.takeWhile Char.isDigit with
  | [] => none
  | digits => some (digits, cs.dropWhile Char.isDigit)

/-- A point and the digits behind it, where there is a point. -/
def readFraction? : List Char → Option (Option (List Char) × List Char)
  | '.' :: rest => (readDigits? rest).map fun (digits, rest) => (some digits, rest)
  | cs => some (none, cs)

/-- An exponent, where there is one. -/
def readExponent? : List Char → Option (Option (Bool × List Char) × List Char)
  | c :: rest =>
    if c = 'e' ∨ c = 'E' then
      let (down, rest) := match rest with
        | '-' :: rest => (true, rest)
        | '+' :: rest => (false, rest)
        | rest => (false, rest)
      (readDigits? rest).map fun (digits, rest) => (some (down, digits), rest)
    else some (none, c :: rest)
  | [] => some (none, [])

/-- A numeral. A zero starts no longer run of digits. -/
def readNumeral? (cs : List Char) : Option (Numeral × List Char) := do
  let (negative, cs) := match cs with
    | '-' :: rest => (true, rest)
    | cs => (false, cs)
  let (whole, cs) ← readDigits? cs
  if whole.head? = some '0' ∧ 1 < whole.length then none
  let (fraction, cs) ← readFraction? cs
  let (exponent, cs) ← readExponent? cs
  return (⟨negative, whole, fraction, exponent⟩, cs)

/-- The rest of a text behind a word it begins with. -/
def readWord? : List Char → List Char → Option (List Char)
  | [], cs => some cs
  | w :: word, c :: cs => if w = c then readWord? word cs else none
  | _ :: _, [] => none

mutual

/-- A document at the start of a text, and what follows it. -/
def readValue : (fuel depth : Nat) → List Char → Option (Json × List Char)
  | 0, _, _ => none
  | fuel + 1, depth, cs =>
    match skipSpaces cs with
    | 'n' :: rest => (readWord? "ull".toList rest).map fun rest => (null, rest)
    | 't' :: rest => (readWord? "rue".toList rest).map fun rest => (bool true, rest)
    | 'f' :: rest => (readWord? "alse".toList rest).map fun rest => (bool false, rest)
    | '"' :: rest => (readQuoted [] rest).map fun (s, rest) => (text s, rest)
    | '[' :: rest =>
      match depth with
      | 0 => none
      | depth + 1 =>
        match skipSpaces rest with
        | ']' :: rest => some (array [], rest)
        | rest => (readItems fuel depth rest).map fun (items, rest) => (array items, rest)
    | '\x7b' :: rest =>
      match depth with
      | 0 => none
      | depth + 1 =>
        match skipSpaces rest with
        | '\x7d' :: rest => some (object [], rest)
        | rest => (readEntries fuel depth rest).map fun (entries, rest) => (object entries, rest)
    | rest => do
      let (numeral, rest) ← readNumeral? rest
      let value ← numeral.value?
      return (number value, rest)

/-- One or more items up to the closing bracket. -/
def readItems : (fuel depth : Nat) → List Char → Option (List Json × List Char)
  | 0, _, _ => none
  | fuel + 1, depth, cs => do
    let (item, rest) ← readValue fuel depth cs
    match skipSpaces rest with
    | ']' :: rest => return ([item], rest)
    | ',' :: rest =>
      let (items, rest) ← readItems fuel depth rest
      return (item :: items, rest)
    | _ => none

/-- One or more entries up to the closing brace. -/
def readEntries : (fuel depth : Nat) → List Char → Option (List (String × Json) × List Char)
  | 0, _, _ => none
  | fuel + 1, depth, cs => do
    let (key, rest) ← (match skipSpaces cs with
      | '"' :: rest => readQuoted [] rest
      | _ => none)
    let rest ← (match skipSpaces rest with
      | ':' :: rest => some rest
      | _ => none)
    let (value, rest) ← readValue fuel depth rest
    match skipSpaces rest with
    | '\x7d' :: rest => return ([(key, value)], rest)
    | ',' :: rest =>
      let (entries, rest) ← readEntries fuel depth rest
      return ((key, value) :: entries, rest)
    | _ => none

end

/-- Reads a document with at most `depth` containers inside one another. Every call of the
reader takes at least one character or is followed by one that does, so the fuel suffices. -/
def readNested (depth : Nat) (s : String) : Option Json :=
  match readValue (2 * s.length + 2) depth s.toList with
  | some (j, rest) => if (skipSpaces rest).isEmpty then some j else none
  | none => none

/-- Reads a document from outside. -/
def read (s : String) : Option Json := readNested maxNesting s

end PolicyExpr.Json
