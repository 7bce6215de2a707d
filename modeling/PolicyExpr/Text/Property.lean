import PolicyExpr.Text.Blank
import PolicyExpr.Text.Category
import PolicyExpr.Text.PropertyTable

/-!
# Properties of characters

Properties of Unicode that a character has or has not. The standard derives many of them from
general categories and from tables, and they are derived here in the same way.
-/
namespace PolicyExpr.Text

/-- The union of some sets. -/
def unionOf (sets : List CodeRanges) : CodeRanges := sets.foldl CodeRanges.union []

def lowercase : CodeRanges := (categoryRanges ["Ll"]).union otherLowercase

def uppercase : CodeRanges := (categoryRanges ["Lu"]).union otherUppercase

/-- Characters with an upper, lower or title case. -/
def cased : CodeRanges := unionOf [lowercase, uppercase, categoryRanges ["Lt"]]

/-- Signs between letters that belong to a word, as the apostrophe does. -/
def wordInnerSigns : CodeRanges :=
  CodeRanges.ofLines ["27 2E 3A B7 387 55F 5F4 2018-2019 2024 2027 FE13 FE52 FE55 FF07 FF0E FF1A"]

/-- Characters that do not matter for the case of those around them. -/
def caseIgnorable : CodeRanges :=
  (categoryRanges ["Mn", "Me", "Cf", "Lm", "Sk"]).union wordInnerSigns

def alphabetic : CodeRanges :=
  unionOf [lowercase, uppercase, categoryRanges ["Lt", "Lm", "Lo", "Nl"], otherAlphabetic]

def math : CodeRanges := (categoryRanges ["Sm"]).union otherMath

def whiteSpace : CodeRanges := blankRanges

/-- Titlecase letters and letters whose title case differs from their upper case make the
difference to the change to upper case. -/
def changesWhenTitlecased : CodeRanges :=
  (changesWhenUppercased.diff (CodeRanges.ofLines [
    "1C5-1CB/3 1F2 10D0-10FA 10FD-10FF 1F88-1F8F 1F98-1F9F 1FA8-1FAF 1FBC 1FCC 1FFC"])).union
    (CodeRanges.ofLines ["1C4-1CA/3 1F1"])

/-- Folding maps to lower case, except that Cherokee folds to upper case and that letters of
one case may have a common form. -/
def changesWhenCasefolded : CodeRanges :=
  (changesWhenLowercased.diff (CodeRanges.ofLines ["13A0-13F5"])).union (CodeRanges.ofLines [
    "B5 DF 149 17F 345 3C2 3D0-3D1 3D5-3D6 3F0-3F1 3F5 587 13F8-13FD 1C80-1C88 1E9A-1E9B",
    "1F80-1F87 1F90-1F97 1FA0-1FA7 1FB2-1FB4 1FB7 1FC2-1FC4 1FC7 1FF2-1FF4 1FF7 AB70-ABBF",
    "FB00-FB06 FB13-FB17"])

def changesWhenCasemapped : CodeRanges :=
  unionOf [changesWhenLowercased, changesWhenUppercased, changesWhenTitlecased]

def defaultIgnorableCodePoint : CodeRanges :=
  (unionOf [otherDefaultIgnorableCodePoint, categoryRanges ["Cf"], variationSelector]).diff
    (unionOf [whiteSpace, CodeRanges.ofLines ["FFF9-FFFB 13430-13440"],
      prependedConcatenationMark])

def graphemeExtend : CodeRanges := (categoryRanges ["Me", "Mn"]).union otherGraphemeExtend

def graphemeBase : CodeRanges :=
  ((categoryRanges ["Cc", "Cf", "Cn", "Co", "Zl", "Zp"]).union graphemeExtend).complement

/-- Characters with a meaning of their own in the notation of patterns. -/
def patternReserved : CodeRanges := patternSyntax.union patternWhiteSpace

def idStart : CodeRanges :=
  ((categoryRanges ["Lu", "Ll", "Lt", "Lm", "Lo", "Nl"]).union otherIdStart).diff patternReserved

def idContinue : CodeRanges :=
  (unionOf [idStart, categoryRanges ["Mn", "Mc", "Nd", "Pc"], otherIdContinue]).diff
    patternReserved

/-- Characters that may stand in an identifier, but whose compatibility forms may not. -/
def irregularForms : CodeRanges :=
  CodeRanges.ofLines ["37A 309B-309C FC5E-FC63 FDFA-FDFB FE70-FE7E/2"]

def xidStart : CodeRanges :=
  idStart.diff (irregularForms.union (CodeRanges.ofLines ["E33 EB3 FF9E-FF9F"]))

def xidContinue : CodeRanges := idContinue.diff irregularForms

/-- The properties that a pattern may name. Their names are in lower case, without signs. -/
def properties : List (List String × CodeRanges) :=
  [(["asciihexdigit", "ahex"], asciiHexDigit),
    (["alphabetic", "alpha"], alphabetic),
    (["bidicontrol", "bidic"], bidiControl),
    (["caseignorable", "ci"], caseIgnorable),
    (["cased"], cased),
    (["changeswhencasefolded", "cwcf"], changesWhenCasefolded),
    (["changeswhencasemapped", "cwcm"], changesWhenCasemapped),
    (["changeswhenlowercased", "cwl"], changesWhenLowercased),
    (["changeswhentitlecased", "cwt"], changesWhenTitlecased),
    (["changeswhenuppercased", "cwu"], changesWhenUppercased),
    (["dash"], dash),
    (["defaultignorablecodepoint", "di"], defaultIgnorableCodePoint),
    (["deprecated", "dep"], deprecated),
    (["diacritic", "dia"], diacritic),
    (["emoji"], emoji),
    (["emojicomponent", "ecomp"], emojiComponent),
    (["emojimodifier", "emod"], emojiModifier),
    (["emojimodifierbase", "ebase"], emojiModifierBase),
    (["emojipresentation", "epres"], emojiPresentation),
    (["extendedpictographic", "extpict"], extendedPictographic),
    (["extender", "ext"], extender),
    (["graphemebase", "grbase"], graphemeBase),
    (["graphemeextend", "grext"], graphemeExtend),
    (["graphemelink", "grlink"], graphemeLink),
    (["hexdigit", "hex"], hexDigit),
    (["hyphen"], hyphen),
    (["idsbinaryoperator", "idsb"], idsBinaryOperator),
    (["idstrinaryoperator", "idst"], idsTrinaryOperator),
    (["idsunaryoperator", "idsu"], idsUnaryOperator),
    (["idcompatmathcontinue"], idCompatMathContinue),
    (["idcompatmathstart"], idCompatMathStart),
    (["idcontinue", "idc"], idContinue),
    (["idstart", "ids"], idStart),
    (["ideographic", "ideo"], ideographic),
    (["joincontrol", "joinc"], joinControl),
    (["logicalorderexception", "loe"], logicalOrderException),
    (["lowercase", "lower"], lowercase),
    (["math"], math),
    (["modifiercombiningmark", "mcm"], modifierCombiningMark),
    (["noncharactercodepoint", "nchar"], noncharacterCodePoint),
    (["otheralphabetic", "oalpha"], otherAlphabetic),
    (["otherdefaultignorablecodepoint", "odi"], otherDefaultIgnorableCodePoint),
    (["othergraphemeextend", "ogrext"], otherGraphemeExtend),
    (["otheridcontinue", "oidc"], otherIdContinue),
    (["otheridstart", "oids"], otherIdStart),
    (["otherlowercase", "olower"], otherLowercase),
    (["othermath", "omath"], otherMath),
    (["otheruppercase", "oupper"], otherUppercase),
    (["patternsyntax", "patsyn"], patternSyntax),
    (["patternwhitespace", "patws"], patternWhiteSpace),
    (["prependedconcatenationmark", "pcm"], prependedConcatenationMark),
    (["quotationmark", "qmark"], quotationMark),
    (["radical"], radical),
    (["regionalindicator", "ri"], regionalIndicator),
    (["sentenceterminal", "sterm"], sentenceTerminal),
    (["softdotted", "sd"], softDotted),
    (["terminalpunctuation", "term"], terminalPunctuation),
    (["unifiedideograph", "uideo"], unifiedIdeograph),
    (["uppercase", "upper"], uppercase),
    (["variationselector", "vs"], variationSelector),
    (["whitespace", "wspace", "space"], whiteSpace),
    (["xidcontinue", "xidc"], xidContinue),
    (["xidstart", "xids"], xidStart)]

end PolicyExpr.Text
