/-
PackageOrder.Text.Break — the classes of characters that decide where a text may be
taken apart into characters as users see them, words and sentences.
-/
import PackageOrder.Text.Property
import PackageOrder.Text.Script

namespace PackageOrder.Text.Break

open CharSet

/-- The characters of a script. -/
def ofScript (code : String) : CharSet :=
  ((Script.find? code).map fun script => table script.spans).getD nothing

/-- The mark that joins pictures. -/
def zeroWidthJoiner : CharSet := single '\u200d'

/-- Digits, the points between them and the marks before them. -/
def numeric : CharSet :=
  .union (.table Category.decimalNumber) (.ofText "600-605 66B 6DD 890-891 8E2 110BD 110CD")

/-- Marks that stay with the character before. -/
def marking : CharSet :=
  .union Property.graphemeExtend (.table Category.spacingMark)

/-! ## Characters as users see them -/

/-- Marks and tones that belong to the character before. -/
def graphemeExtend : CharSet :=
  .union Property.graphemeExtend Property.emojiModifier

/-- Signs that belong to the character after. -/
def graphemePrepend : CharSet :=
  .union Property.prependedConcatenationMark
    (.ofText "D4E 111C2-111C3 113D1 1193F 11941 11A3A 11A84-11A89 11D46 11F02")

/-- Controls, at which characters end. -/
def graphemeControl : CharSet :=
  .difference
    (unions [.table Category.lineSeparator, .table Category.paragraphSeparator,
      .table Category.control, .table Category.format,
      .difference Property.defaultIgnorable (.table Category.assigned)])
    (unions [.ofText "A D 200C-200D", graphemePrepend, Property.graphemeExtend])

/-- Marks with a place of their own that belong to the character before. -/
def graphemeSpacingMark : CharSet :=
  .difference (.union (.table Category.spacingMark) (.ofText "E33 EB3"))
    (.union graphemeExtend
      (.ofText "102B-102C 1038 1062-1064 1067-106D 1083 1087-108C 108F 109A-109C 1A61 1A63-1A64
        AA7B AA7D 11720-11721"))

/-- The syllables of two letters. -/
def pairSyllable : CharSet := .table [⟨0xAC00, 0xD788, 28⟩]

/-- The class of a name or its abbreviation, without which characters are of no
class. -/
def grapheme? (name : String) : Option CharSet :=
  match name with
  | "cr" => some (single '\r')
  | "lf" => some (single '\n')
  | "control" | "cn" => some graphemeControl
  | "extend" | "ex" => some graphemeExtend
  | "prepend" | "pp" => some graphemePrepend
  | "regionalindicator" | "ri" => some Property.regionalIndicator
  | "spacingmark" | "sm" => some graphemeSpacingMark
  | "l" => some (.ofText "1100-115F A960-A97C")
  | "v" => some (.ofText "1160-11A7 D7B0-D7C6 16D63 16D67-16D6A")
  | "t" => some (.ofText "11A8-11FF D7CB-D7FB")
  | "lv" => some pairSyllable
  | "lvt" => some (.difference (.ofText "AC00-D7A3") pairSyllable)
  | "zwj" => some zeroWidthJoiner
  | _ => none

/-! ## Words -/

/-- Marks and tones, which no word ends before. -/
def wordExtend : CharSet :=
  .union marking Property.emojiModifier

/-- Characters of one syllabary, of which words are made. -/
def katakana : CharSet :=
  .union (ofScript "kana") (.ofText "3031-3035 309B-309C 30A0 30FC FF70")

/-- Letters without case that may have a quote between them. -/
def hebrewLetter : CharSet :=
  .intersection (ofScript "hebr") (.table Category.otherLetter)

/-- Scripts that are written without blanks between words. -/
def unspaced : CharSet :=
  unions (["thai", "laoo", "mymr", "khmr", "tale", "talu", "lana", "tavt", "ahom"].map ofScript)

/-- Letters of scripts with blanks between words. -/
def wordLetter : CharSet :=
  .difference
    (.union Property.alphabetic
      (.ofText "2C2-2C5 2D2-2D7 2DE-2DF 2E5-2EB 2ED 2EF-2FF 55A-55C 55E 58A 5F3 70F A708-A716
        A720-A721 A789-A78A AB5B"))
    (unions [Property.ideographic, katakana, unspaced, ofScript "hira", wordExtend, hebrewLetter])

/-- Controls of the layout, which words go on across. -/
def wordFormat : CharSet :=
  .difference (.table Category.format) (unions [.ofText "200B-200D 70F", wordExtend, numeric])

/-- The class of a name or its abbreviation. -/
def word? (name : String) : Option CharSet :=
  match name with
  | "cr" => some (single '\r')
  | "lf" => some (single '\n')
  | "newline" | "nl" => some (.ofText "B-C 85 2028-2029")
  | "extend" => some wordExtend
  | "zwj" => some zeroWidthJoiner
  | "regionalindicator" | "ri" => some Property.regionalIndicator
  | "format" | "fo" => some wordFormat
  | "katakana" | "ka" => some katakana
  | "hebrewletter" | "hl" => some hebrewLetter
  | "aletter" | "le" => some wordLetter
  | "singlequote" | "sq" => some (single '\x27')
  | "doublequote" | "dq" => some (single '"')
  | "midnumlet" | "mb" => some (.ofText "2E 2018-2019 2024 FE52 FF07 FF0E")
  | "midletter" | "ml" => some (.ofText "3A B7 387 55F 5F4 2027 FE13 FE55 FF1A")
  | "midnum" | "mn" =>
    some (.ofText "2C 3B 37E 589 60C-60D 66C 7F8 2044 FE10 FE14 FE50 FE54 FF0C FF1B")
  | "numeric" | "nu" => some numeric
  | "extendnumlet" | "ex" =>
    some (.union (.table Category.connectorPunctuation) (.ofText "202F"))
  | "wsegspace" => some (.ofText "20 1680 2000-2006 2008-200A 205F 3000")
  | _ => none

/-! ## Sentences -/

/-- Marks, which no sentence ends before. -/
def sentenceExtend : CharSet :=
  .union marking zeroWidthJoiner

/-- Points, which may end a sentence or a word. -/
def pointTerm : CharSet := .ofText "2E 2024 FE52 FF0E"

/-- Marks that end a sentence. -/
def sentenceTerm : CharSet :=
  .difference Property.sentenceTerminal pointTerm

/-- Brackets and quotes. -/
def sentenceClose : CharSet :=
  .difference
    (unions [.table Category.openPunctuation, .table Category.closePunctuation,
      .table Category.initialQuote, .table Category.finalQuote,
      .ofText "22 27 275B-2760 2E00-2E01 2E06-2E08 2E0B 1F676-1F678"])
    (.union pointTerm sentenceTerm)

/-- Separators of paragraphs. -/
def separator : CharSet := .ofText "85 2028 2029"

/-- Letters in lower case, with which no sentence starts. -/
def sentenceLower : CharSet :=
  .difference Property.lowercase (.union Property.graphemeExtend (.ofText "10D0-10FA 10FD-10FF"))

/-- Letters in upper or title case, with which a sentence may start. -/
def sentenceUpper : CharSet :=
  .difference (.union Property.uppercase (.table Category.titlecaseLetter))
    (.ofText "1C90-1CBA 1CBD-1CBF")

/-- Letters without case. -/
def sentenceLetter : CharSet :=
  .difference (.union Property.alphabetic (.ofText "5F3"))
    (unions [sentenceLower, sentenceUpper, sentenceExtend])

/-- Controls of the layout, which sentences go on across. -/
def sentenceFormat : CharSet :=
  .difference (.table Category.format) (unions [.ofText "200C-200D", sentenceExtend, numeric])

/-- Marks within a sentence. -/
def sentenceContinue : CharSet :=
  .ofText "2C-2D 3A-3B 37E 55D 60C-60D 7F8 1802 1808 2013-2014 3001 FE10-FE11 FE13-FE14 FE31-FE32
    FE50-FE51 FE54-FE55 FE58 FE63 FF0C-FF0D FF1A-FF1B FF64"

/-- The class of a name or its abbreviation. -/
def sentence? (name : String) : Option CharSet :=
  match name with
  | "cr" => some (single '\r')
  | "lf" => some (single '\n')
  | "extend" | "ex" => some sentenceExtend
  | "sep" | "se" => some separator
  | "format" | "fo" => some sentenceFormat
  | "sp" => some (.difference .blank (.union separator (.ofText "A D")))
  | "lower" | "lo" => some sentenceLower
  | "upper" | "up" => some sentenceUpper
  | "oletter" | "le" => some sentenceLetter
  | "numeric" | "nu" => some (.union numeric (.ofText "66C"))
  | "aterm" | "at" => some pointTerm
  | "scontinue" | "sc" => some sentenceContinue
  | "sterm" | "st" => some sentenceTerm
  | "close" | "cl" => some sentenceClose
  | _ => none

end PackageOrder.Text.Break
