import PolicyExpr.Text.Age
import PolicyExpr.Text.Case
import PolicyExpr.Text.Segment

/-!
# Sets of characters in patterns

The sets that a pattern can name: by a letter, by the brackets of POSIX, or by a property of
Unicode, with its value where the property has more than two.
-/
namespace PolicyExpr.Regex

/-- A set of characters. -/
abbrev CharSet := Text.CodeRanges

namespace CharSet

/-- Both cases of each ASCII letter in one range. -/
def asciiVariants (r : Nat × Nat) : List (Nat × Nat) :=
  let upper := (max r.1 65, min r.2 90)
  let lower := (max r.1 97, min r.2 122)
  (if upper.1 ≤ upper.2 then [(upper.1 + 32, upper.2 + 32)] else []) ++
    (if lower.1 ≤ lower.2 then [(lower.1 - 32, lower.2 - 32)] else [])

/-- The set with both cases of its ASCII letters. -/
def foldAscii (set : CharSet) : CharSet := .ofPairs (set ++ set.flatMap asciiVariants)

/-! ## Named sets -/

def asciiDigits : CharSet := [(48, 57)]

def asciiBlanks : CharSet := [(9, 13), (32, 32)]

def asciiWord : CharSet := [(48, 57), (65, 90), (95, 95), (97, 122)]

/-- The decimal digits of all scripts. -/
def digits : CharSet := Text.categoryRanges ["Nd"]

/-- The blanks of Unicode. -/
def blanks : CharSet := Text.blankRanges

/-- The characters of words: letters and marks, digits, connecting signs, and the two signs
that join letters. -/
def word : CharSet :=
  Text.unionOf
    [Text.alphabetic, Text.categoryRanges ["Mn", "Mc", "Me", "Nd", "Pc"], Text.joinControl]

/-- The sets that stand between brackets and colons, all of them within ASCII. -/
def posixRanges : List (String × Text.CodeRanges) :=
  [("alnum", [(48, 57), (65, 90), (97, 122)]),
    ("alpha", [(65, 90), (97, 122)]),
    ("ascii", [(0, 127)]),
    ("blank", [(9, 9), (32, 32)]),
    ("cntrl", [(0, 31), (127, 127)]),
    ("digit", [(48, 57)]),
    ("graph", [(33, 126)]),
    ("lower", [(97, 122)]),
    ("print", [(32, 126)]),
    ("punct", [(33, 47), (58, 64), (91, 96), (123, 126)]),
    ("space", [(9, 13), (32, 32)]),
    ("upper", [(65, 90)]),
    ("word", [(48, 57), (65, 90), (95, 95), (97, 122)]),
    ("xdigit", [(48, 57), (65, 70), (97, 102)])]

def posix? (name : String) : Option CharSet := posixRanges.lookup name

/-! ## Properties -/

/-- A name without blanks, hyphens and low lines, in lower case, ASCII only. -/
def squeezed (name : List Char) : List Char :=
  (name.filter fun c => c.toNat < 128 && c != ' ' && c != '-' && c != '_').map Char.toLower

/-- A name as the tables have it: squeezed, and without an `is` in front, which means
nothing; only `isc` names a property of its own. -/
def plainName (name : List Char) : String :=
  match name with
  | i :: s :: rest =>
    if i.toLower = 'i' ∧ s.toLower = 's' then
      let squeezedRest := squeezed rest
      if squeezedRest = ['c'] then "isc" else String.ofList squeezedRest
    else String.ofList (squeezed name)
  | _ => String.ofList (squeezed name)

/-- The value of a name in a table of names. -/
def lookupName? {α : Type} (table : List (List String × α)) (name : String) : Option α :=
  (table.find? (·.1.contains name)).map (·.2)

def category? (name : String) : Option CharSet :=
  match name with
  | "any" => some (Text.CodeRanges.complement [])
  | "assigned" => some (Text.categoryRanges ["Cn"]).complement
  | "ascii" => some [(0, 127)]
  | name => (lookupName? Text.categoryNames name).map Text.categoryRanges

def script? (name : String) : Option CharSet :=
  (lookupName? Text.scriptNames name).map Text.scriptRanges

/-- A set by its name alone. A property comes before a category of the same name, and a
category before a script; three short names always mean the category. -/
def named? (name : List Char) : Option CharSet :=
  let name := plainName name
  let property :=
    if ["cf", "sc", "lc"].contains name then none else lookupName? Text.properties name
  (property.orElse fun _ => category? name).orElse fun _ => script? name

/-- The properties that divide the characters into more than two classes. -/
inductive Division where
  | category
  | script
  | scriptExtensions
  | age
  | graphemeBreak
  | sentenceBreak
  | wordBreak

/-- The names of the divisions. -/
def divisionNames : List (List String × Division) :=
  [(["gc", "generalcategory"], .category),
    (["sc", "script"], .script),
    (["scx", "scriptextensions"], .scriptExtensions),
    (["age"], .age),
    (["gcb", "graphemeclusterbreak"], .graphemeBreak),
    (["sb", "sentencebreak"], .sentenceBreak),
    (["wb", "wordbreak"], .wordBreak)]

/-- The characters of a class. -/
def Division.class? : Division → String → Option CharSet
  | category, name => category? name
  | script, name => script? name
  | scriptExtensions, name => (lookupName? Text.scriptNames name).map Text.usedScriptRanges
  | age, name => Text.ageRanges? name
  | graphemeBreak, name => lookupName? Text.graphemeClasses name
  | sentenceBreak, name => lookupName? Text.sentenceClasses name
  | wordBreak, name => lookupName? Text.wordClasses name

/-- A set by the name of a division and the name of a class. -/
def valued? (division value : List Char) : Option CharSet :=
  (lookupName? divisionNames (plainName division)).bind (·.class? (plainName value))

end CharSet

end PolicyExpr.Regex
