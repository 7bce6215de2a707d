import PolicyExpr.Text.Property
import PolicyExpr.Text.Script

/-!
# Classes of characters at borders

Unicode divides characters into classes to find the borders of graphemes, words and sentences.
The classes of one kind are apart, and characters in none of them have no name here.
-/
namespace PolicyExpr.Text

/-! ## Graphemes -/

/-- Characters that join what stands before them. -/
def graphemeExtenders : CodeRanges := graphemeExtend.union emojiModifier

/-- Characters that control and show nothing, reserved ones among them. -/
def graphemeControls : CodeRanges :=
  (unionOf [categoryRanges ["Zl", "Zp", "Cc", "Cf"],
      (categoryRanges ["Cn"]).inter defaultIgnorableCodePoint]).diff
    (unionOf [CodeRanges.ofLines ["A D 200C-200D"], prependedConcatenationMark, graphemeExtend])

/-- Marks with a width of their own, except some of the scripts of South East Asia. -/
def spacingMarks : CodeRanges :=
  ((categoryRanges ["Mc"]).union (CodeRanges.ofLines ["E33 EB3"])).diff
    (graphemeExtenders.union (CodeRanges.ofLines [
      "102B-102C 1038 1062-1064 1067-106D 1083 1087-108C 108F 109A-109C 1A61 1A63-1A64 AA7B",
      "AA7D 11720-11721"]))

def hangulSyllables : CodeRanges := CodeRanges.ofLines ["AC00-D7A3"]

/-- Syllables without a final consonant: the first of every 28. -/
def hangulOpenSyllables : CodeRanges := CodeRanges.ofLines ["AC00-D788/1C"]

def graphemeClasses : List (List String × CodeRanges) :=
  [(["control", "cn"], graphemeControls),
    (["cr"], CodeRanges.ofLines ["D"]),
    (["extend", "ex"], graphemeExtenders),
    (["l"], CodeRanges.ofLines ["1100-115F A960-A97C"]),
    (["lf"], CodeRanges.ofLines ["A"]),
    (["lv"], hangulOpenSyllables),
    (["lvt"], hangulSyllables.diff hangulOpenSyllables),
    (["prepend", "pp"], prependedConcatenationMark.union (CodeRanges.ofLines [
      "D4E 111C2-111C3 113D1 1193F 11941 11A84-11A89 11D46 11F02"])),
    (["regionalindicator", "ri"], regionalIndicator),
    (["spacingmark", "sm"], spacingMarks),
    (["t"], CodeRanges.ofLines ["11A8-11FF D7CB-D7FB"]),
    (["v"], CodeRanges.ofLines ["1160-11A7 D7B0-D7C6 16D63 16D67-16D6A"]),
    (["zwj"], CodeRanges.ofLines ["200D"])]

/-! ## Sentences -/

/-- Characters that join what stands before them, those with a width among them. -/
def textExtenders : CodeRanges :=
  unionOf [graphemeExtend, categoryRanges ["Mc"], CodeRanges.ofLines ["200D"]]

/-- Signs in front of numbers that count as a part of them. -/
def numberSigns : CodeRanges := prependedConcatenationMark.diff (CodeRanges.ofLines ["70F"])

/-- The digits, and the signs within numbers. -/
def numeric : CodeRanges :=
  unionOf [categoryRanges ["Nd"], numberSigns, CodeRanges.ofLines ["66B-66C 19DA"]]

def sentenceFormats : CodeRanges :=
  (categoryRanges ["Cf"]).diff
    (unionOf [textExtenders, numberSigns, CodeRanges.ofLines ["200C"]])

/-- Full stops, which also stand within numbers and behind short forms. -/
def fullStops : CodeRanges := CodeRanges.ofLines ["2E 2024 FE52 FF0E"]

def lineSeparators : CodeRanges := CodeRanges.ofLines ["85 2028-2029"]

/-- Small letters. Georgian letters count as neither small nor capital. -/
def sentenceLower : CodeRanges :=
  lowercase.diff (graphemeExtend.union (CodeRanges.ofLines ["10D0-10FA 10FD-10FF"]))

def sentenceUpper : CodeRanges :=
  ((categoryRanges ["Lt"]).union uppercase).diff (CodeRanges.ofLines ["1C90-1CBA 1CBD-1CBF"])

def sentenceClasses : List (List String × CodeRanges) :=
  [(["aterm", "at"], fullStops),
    (["close", "cl"], (categoryRanges ["Ps", "Pe", "Pi", "Pf"]).union (CodeRanges.ofLines [
      "22 27 275B-2760 2E00-2E01 2E06-2E08 2E0B 1F676-1F678"])),
    (["cr"], CodeRanges.ofLines ["D"]),
    (["extend", "ex"], textExtenders),
    (["format", "fo"], sentenceFormats),
    (["lf"], CodeRanges.ofLines ["A"]),
    (["lower", "lo"], sentenceLower),
    (["numeric", "nu"], numeric),
    (["oletter", "le"], (alphabetic.union (CodeRanges.ofLines ["5F3"])).diff
      (unionOf [sentenceLower, sentenceUpper, textExtenders])),
    (["scontinue", "sc"], CodeRanges.ofLines [
      "2C-2D 3A-3B 37E 55D 60C-60D 7F8 1802 1808 2013-2014 3001 FE10-FE11 FE13-FE14 FE31-FE32",
      "FE50-FE51 FE54-FE55 FE58 FE63 FF0C-FF0D FF1A-FF1B FF64"]),
    (["sep", "se"], lineSeparators),
    (["sp"], whiteSpace.diff (lineSeparators.union (CodeRanges.ofLines ["A D"]))),
    (["sterm", "st"], sentenceTerminal.diff fullStops),
    (["upper", "up"], sentenceUpper)]

/-! ## Words -/

def katakanaLetters : CodeRanges :=
  (scriptRanges "Kana").union (CodeRanges.ofLines ["3031-3035 309B-309C 30A0 30FC FF70"])

def hebrewLetters : CodeRanges := (scriptRanges "Hebr").inter (categoryRanges ["Lo"])

/-- Letters of scripts that write no blanks between words. -/
def unspacedLetters : CodeRanges :=
  CodeRanges.ofLines [
    "E01-E3A E40-E4E E81-EDF 1000-103F 1050-108F 109A-109F 1780-17D7 17DC 1950-19DF 1A20-1A5E",
    "1AA0-1AAD A9E0-A9EF A9FA-A9FE AA60-AADF 11700-1173F 11740-11746"]

/-- Signs that count as letters within words. -/
def letterSigns : CodeRanges :=
  CodeRanges.ofLines [
    "B8 2C2-2C5 2D2-2D7 2DE-2DF 2E5-2EB 2ED 2EF-2FF 55A-55C 55E 58A 5F3 70F A708-A716",
    "A720-A721 A789-A78A AB5B"]

/-- The letters of scripts that write blanks between words. -/
def wordLetters : CodeRanges :=
  (alphabetic.union letterSigns).diff
    (unionOf [ideographic, katakanaLetters, scriptRanges "Hira", hebrewLetters, textExtenders,
      unspacedLetters])

def wordClasses : List (List String × CodeRanges) :=
  [(["aletter", "le"], wordLetters),
    (["cr"], CodeRanges.ofLines ["D"]),
    (["doublequote", "dq"], CodeRanges.ofLines ["22"]),
    (["extend"], (textExtenders.union emojiModifier).diff (CodeRanges.ofLines ["200D"])),
    (["extendnumlet", "ex"], (categoryRanges ["Pc"]).union (CodeRanges.ofLines ["202F"])),
    (["format", "fo"], sentenceFormats.diff (CodeRanges.ofLines ["70F 200B"])),
    (["hebrewletter", "hl"], hebrewLetters),
    (["katakana", "ka"], katakanaLetters),
    (["lf"], CodeRanges.ofLines ["A"]),
    (["midletter", "ml"], CodeRanges.ofLines ["3A B7 387 55F 5F4 2027 FE13 FE55 FF1A"]),
    (["midnum", "mn"], CodeRanges.ofLines [
      "2C 3B 37E 589 60C-60D 66C 7F8 2044 FE50 FE54 FF0C FF1B"]),
    (["midnumlet", "mb"], CodeRanges.ofLines ["2E 2018-2019 2024 FE52 FF07 FF0E"]),
    (["newline", "nl"], CodeRanges.ofLines ["B-C 85 2028-2029"]),
    (["numeric", "nu"], numeric.diff (CodeRanges.ofLines ["66C"])),
    (["regionalindicator", "ri"], regionalIndicator),
    (["singlequote", "sq"], CodeRanges.ofLines ["27"]),
    (["wsegspace"], (categoryRanges ["Zs"]).diff (CodeRanges.ofLines ["A0 2007 202F"])),
    (["zwj"], CodeRanges.ofLines ["200D"])]

end PolicyExpr.Text
