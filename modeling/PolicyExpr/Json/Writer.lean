import PolicyExpr.Json.Numeral

/-!
# Writing JSON

Documents are written without blanks, or indented by two spaces a level. In a text the
quotation mark, the backslash and the characters below the blank are escaped, by a letter
where they have one.
-/
namespace PolicyExpr.Json

/-- A hexadecimal digit in lower case. -/
def hexDigit (n : Nat) : Char := Nat.digitChar (n % 16)

/-- A character inside a quoted text. -/
def escapeChar (c : Char) : List Char :=
  match c with
  | '"' => ['\\', '"']
  | '\\' => ['\\', '\\']
  | '\x08' => ['\\', 'b']
  | '\x0c' => ['\\', 'f']
  | '\n' => ['\\', 'n']
  | '\r' => ['\\', 'r']
  | '\t' => ['\\', 't']
  | c =>
    if c.toNat < 32 then ['\\', 'u', '0', '0', hexDigit (c.toNat / 16), hexDigit c.toNat]
    else [c]

/-- A quoted text. -/
def quoted (s : String) : List Char := '"' :: (s.toList.flatMap escapeChar ++ ['"'])

/-- Items with a separator between them. -/
def separated (separator : List Char) : List (List Char) → List Char
  | [] => []
  | [item] => item
  | item :: next :: rest => item ++ separator ++ separated separator (next :: rest)

mutual

/-- A document without blanks. -/
def compact : Json → List Char
  | null => "null".toList
  | bool true => "true".toList
  | bool false => "false".toList
  | number n => n.chars
  | text s => quoted s
  | array items => '[' :: (separated [','] (compactItems items) ++ [']'])
  | object entries => '\x7b' :: (separated [','] (compactEntries entries) ++ ['\x7d'])

def compactItems : List Json → List (List Char)
  | [] => []
  | item :: rest => compact item :: compactItems rest

def compactEntries : List (String × Json) → List (List Char)
  | [] => []
  | (key, value) :: rest => (quoted key ++ ':' :: compact value) :: compactEntries rest

end

/-- The break before an item at a level of indentation. -/
def lineBreak (level : Nat) : List Char := '\n' :: List.replicate (2 * level) ' '

mutual

/-- A document with every item of a container on a line of its own. -/
def indentedAt (level : Nat) : Json → List Char
  | null => "null".toList
  | bool true => "true".toList
  | bool false => "false".toList
  | number n => n.chars
  | text s => quoted s
  | array [] => ['[', ']']
  | array (item :: rest) =>
    '[' :: (lineBreak (level + 1) ++
      separated (',' :: lineBreak (level + 1)) (indentedItems (level + 1) (item :: rest)) ++
      lineBreak level ++ [']'])
  | object [] => ['\x7b', '\x7d']
  | object (entry :: rest) =>
    '\x7b' :: (lineBreak (level + 1) ++
      separated (',' :: lineBreak (level + 1)) (indentedEntries (level + 1) (entry :: rest)) ++
      lineBreak level ++ ['\x7d'])

def indentedItems (level : Nat) : List Json → List (List Char)
  | [] => []
  | item :: rest => indentedAt level item :: indentedItems level rest

def indentedEntries (level : Nat) : List (String × Json) → List (List Char)
  | [] => []
  | (key, value) :: rest =>
    (quoted key ++ ':' :: ' ' :: indentedAt level value) :: indentedEntries level rest

end

/-- The text of a document without blanks. -/
def render (j : Json) : String := String.ofList j.compact

/-- The text of a document with two spaces of indentation a level. -/
def renderIndented (j : Json) : String := String.ofList (j.indentedAt 0)

end PolicyExpr.Json
