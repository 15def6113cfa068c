/-
PackageOrder.Pattern.Property — the sets that properties of characters name.

A property is named alone (`Alphabetic`, `Lu`, `Greek`) or as a kind with a value
(`Script=Greek`, or with `!=` for the complement). Names are compared without
regard to case, blanks, hyphens, underscores and an `is` at their front.
-/
import PackageOrder.Text.Age
import PackageOrder.Text.Break

namespace PackageOrder.Pattern

open PackageOrder.Text

/-- Whether a name starts with `is`, which does not count. -/
def hasIs : List Char → Bool
  | 'i' :: 's' :: _ => true
  | 'I' :: 's' :: _ => true
  | 'i' :: 'S' :: _ => true
  | 'I' :: 'S' :: _ => true
  | _ => false

/-- A name in the form in which names of properties are compared. After an `is` that does
not count, a lone `c` is kept apart from the category of that name. -/
def plainName (name : List Char) : String :=
  let counting := if hasIs name then name.drop 2 else name
  let plain := (counting.filter fun c =>
    c.toNat < 128 && c != ' ' && c != '_' && c != '-').map Char.toLower
  if hasIs name ∧ plain = ['c'] then "isc" else .ofList plain

namespace Property

/-- The set of a general category or a group of them. -/
def category? (name : String) : Option CharSet :=
  match name with
  | "any" => some .everything
  | "ascii" => some (.range '\x00' '\x7f')
  | "assigned" => some (.table Category.assigned)
  | "l" | "letter" => some (.table Category.letter)
  | "lc" | "casedletter" => some (.table Category.casedLetter)
  | "lu" | "uppercaseletter" => some (.table Category.uppercaseLetter)
  | "ll" | "lowercaseletter" => some (.table Category.lowercaseLetter)
  | "lt" | "titlecaseletter" => some (.table Category.titlecaseLetter)
  | "lm" | "modifierletter" => some (.table Category.modifierLetter)
  | "lo" | "otherletter" => some (.table Category.otherLetter)
  | "m" | "mark" | "combiningmark" => some (.table Category.mark)
  | "mn" | "nonspacingmark" => some (.table Category.nonspacingMark)
  | "mc" | "spacingmark" => some (.table Category.spacingMark)
  | "me" | "enclosingmark" => some (.table Category.enclosingMark)
  | "n" | "number" => some (.table Category.number)
  | "nd" | "decimalnumber" | "digit" => some (.table Category.decimalNumber)
  | "nl" | "letternumber" => some (.table Category.letterNumber)
  | "no" | "othernumber" => some (.table Category.otherNumber)
  | "p" | "punctuation" | "punct" => some (.table Category.punctuation)
  | "pc" | "connectorpunctuation" => some (.table Category.connectorPunctuation)
  | "pd" | "dashpunctuation" => some (.table Category.dashPunctuation)
  | "ps" | "openpunctuation" => some (.table Category.openPunctuation)
  | "pe" | "closepunctuation" => some (.table Category.closePunctuation)
  | "pi" | "initialpunctuation" => some (.table Category.initialQuote)
  | "pf" | "finalpunctuation" => some (.table Category.finalQuote)
  | "po" | "otherpunctuation" => some (.table Category.otherPunctuation)
  | "s" | "symbol" => some (.table Category.symbol)
  | "sm" | "mathsymbol" => some (.table Category.mathSymbol)
  | "sc" | "currencysymbol" => some (.table Category.currencySymbol)
  | "sk" | "modifiersymbol" => some (.table Category.modifierSymbol)
  | "so" | "othersymbol" => some (.table Category.otherSymbol)
  | "z" | "separator" => some (.table Category.separator)
  | "zs" | "spaceseparator" => some (.table Category.spaceSeparator)
  | "zl" | "lineseparator" => some (.table Category.lineSeparator)
  | "zp" | "paragraphseparator" => some (.table Category.paragraphSeparator)
  | "c" | "other" => some (.complement (.table Category.visible))
  | "cc" | "control" | "cntrl" => some (.table Category.control)
  | "cf" | "format" => some (.table Category.format)
  | "co" | "privateuse" => some (.table Category.privateUse)
  | "cn" | "unassigned" => some (.complement (.table Category.assigned))
  | _ => none

/-- The characters of a script. -/
def script? (name : String) : Option CharSet :=
  (Script.find? name).map fun script => .table script.spans

/-- The set of a property that characters have or have not. -/
def binary? (name : String) : Option CharSet :=
  match name with
  | "alphabetic" | "alpha" => some Text.Property.alphabetic
  | "asciihexdigit" | "ahex" => some Text.Property.asciiHexDigit
  | "bidicontrol" | "bidic" => some Text.Property.bidiControl
  | "bidimirrored" | "bidim" => some Text.Property.bidiMirrored
  | "cased" => some Text.Property.cased
  | "caseignorable" | "ci" => some Text.Property.caseIgnorable
  | "changeswhencasefolded" | "cwcf" => some Text.Property.changesWhenCasefolded
  | "changeswhencasemapped" | "cwcm" => some Text.Property.changesWhenCasemapped
  | "changeswhenlowercased" | "cwl" => some Text.Property.changesWhenLowercased
  | "changeswhentitlecased" | "cwt" => some Text.Property.changesWhenTitlecased
  | "changeswhenuppercased" | "cwu" => some Text.Property.changesWhenUppercased
  | "dash" => some Text.Property.dash
  | "defaultignorablecodepoint" | "di" => some Text.Property.defaultIgnorable
  | "deprecated" | "dep" => some Text.Property.deprecated
  | "diacritic" | "dia" => some Text.Property.diacritic
  | "emoji" => some Text.Property.emoji
  | "emojicomponent" | "ecomp" => some Text.Property.emojiComponent
  | "emojimodifier" | "emod" => some Text.Property.emojiModifier
  | "emojimodifierbase" | "ebase" => some Text.Property.emojiModifierBase
  | "emojipresentation" | "epres" => some Text.Property.emojiPresentation
  | "extendedpictographic" | "extpict" => some Text.Property.extendedPictographic
  | "extender" | "ext" => some Text.Property.extender
  | "graphemebase" | "grbase" => some Text.Property.graphemeBase
  | "graphemeextend" | "grext" => some Text.Property.graphemeExtend
  | "graphemelink" | "grlink" => some Text.Property.graphemeLink
  | "hexdigit" | "hex" => some Text.Property.hexDigit
  | "hyphen" => some Text.Property.hyphen
  | "idcompatmathcontinue" => some Text.Property.idCompatMathContinue
  | "idcompatmathstart" => some Text.Property.idCompatMathStart
  | "idcontinue" | "idc" => some Text.Property.idContinue
  | "idstart" | "ids" => some Text.Property.idStart
  | "idsbinaryoperator" | "idsb" => some Text.Property.idsBinaryOperator
  | "idstrinaryoperator" | "idst" => some Text.Property.idsTrinaryOperator
  | "idsunaryoperator" | "idsu" => some Text.Property.idsUnaryOperator
  | "ideographic" | "ideo" => some Text.Property.ideographic
  | "joincontrol" | "joinc" => some Text.Property.joinControl
  | "logicalorderexception" | "loe" => some Text.Property.logicalOrderException
  | "lowercase" | "lower" => some Text.Property.lowercase
  | "math" => some Text.Property.math
  | "modifiercombiningmark" | "mcm" => some Text.Property.modifierCombiningMark
  | "noncharactercodepoint" | "nchar" => some Text.Property.noncharacter
  | "otheralphabetic" | "oalpha" => some Text.Property.otherAlphabetic
  | "otherdefaultignorablecodepoint" | "odi" => some Text.Property.otherDefaultIgnorable
  | "othergraphemeextend" | "ogrext" => some Text.Property.otherGraphemeExtend
  | "otheridcontinue" | "oidc" => some Text.Property.otherIdContinue
  | "otheridstart" | "oids" => some Text.Property.otherIdStart
  | "otherlowercase" | "olower" => some Text.Property.otherLowercase
  | "othermath" | "omath" => some Text.Property.otherMath
  | "otheruppercase" | "oupper" => some Text.Property.otherUppercase
  | "patternsyntax" | "patsyn" => some Text.Property.patternSyntax
  | "patternwhitespace" | "patws" => some Text.Property.patternWhiteSpace
  | "prependedconcatenationmark" | "pcm" => some Text.Property.prependedConcatenationMark
  | "quotationmark" | "qmark" => some Text.Property.quotationMark
  | "radical" => some Text.Property.radical
  | "regionalindicator" | "ri" => some Text.Property.regionalIndicator
  | "sentenceterminal" | "sterm" => some Text.Property.sentenceTerminal
  | "softdotted" | "sd" => some Text.Property.softDotted
  | "terminalpunctuation" | "term" => some Text.Property.terminalPunctuation
  | "unifiedideograph" | "uideo" => some Text.Property.unifiedIdeograph
  | "uppercase" | "upper" => some Text.Property.uppercase
  | "variationselector" | "vs" => some Text.Property.variationSelector
  | "whitespace" | "wspace" | "space" => some .blank
  | "xidcontinue" | "xidc" => some Text.Property.xidContinue
  | "xidstart" | "xids" => some Text.Property.xidStart
  | _ => none

/-- The set of a property by its name alone. -/
def named? (name : String) : Option CharSet :=
  binary? name <|> category? name <|> script? name

/-- The set of a kind of property and its value. -/
def valued? (kind value : String) : Option CharSet :=
  match kind with
  | "gc" | "generalcategory" => category? value
  | "sc" | "script" => script? value
  | "scx" | "scriptextensions" => (Script.find? value).map Script.users
  | "age" => Age.upTo? value
  | "gcb" | "graphemeclusterbreak" => Break.grapheme? value
  | "wb" | "wordbreak" => Break.word? value
  | "sb" | "sentencebreak" => Break.sentence? value
  | _ => none

/-- The text before and after the first `!=`. -/
def cutAtUnequal? : List Char → Option (List Char × List Char)
  | '!' :: '=' :: rest => some ([], rest)
  | c :: rest => (cutAtUnequal? rest).map fun (before, after) => (c :: before, after)
  | [] => none

/-- The set of a property as it is written, and whether its complement is meant: its
name, or a kind and a value between which stand `!=`, `:` or `=`. -/
def written? (text : List Char) : Option (CharSet × Bool) :=
  match cutAtUnequal? text with
  | some (kind, value) => (valued? (plainName kind) (plainName value)).map (·, true)
  | none =>
    match cutAt? ':' text <|> cutAt? '=' text with
    | some (kind, value) => (valued? (plainName kind) (plainName value)).map (·, false)
    | none => (named? (plainName text)).map (·, false)

end Property

end PackageOrder.Pattern
