/-
PackageOrder.Text.Word — which characters make up words and identifiers.

`isWord` is the word class of the pattern language (alphabetic characters,
marks, decimal digits, connectors and the two joiners); `startsIdentifier` and
`continuesIdentifier` are the identifier classes of script source. ASCII is
decided first, so that plain text never reaches the tables.
-/
import PackageOrder.Text.Category

namespace PackageOrder.Text

/-- A letter from `a` to `z` in either case. -/
def isAsciiLetter (c : Char) : Bool :=
  ('a' ≤ c && c ≤ 'z') || ('A' ≤ c && c ≤ 'Z')

/-- A digit from `0` to `9`. -/
def isAsciiDigit (c : Char) : Bool :=
  '0' ≤ c && c ≤ '9'

/-- A letter, digit or underscore of ASCII. -/
def isAsciiWord (c : Char) : Bool :=
  isAsciiLetter c || isAsciiDigit c || c == '_'

/-- The symbols that count as alphabetic: letters in circles and squares. -/
def framedLetter : List Span :=
  [⟨0x24B6, 0x24E9, 1⟩, ⟨0x1F130, 0x1F149, 1⟩, ⟨0x1F150, 0x1F169, 1⟩, ⟨0x1F170, 0x1F189, 1⟩]

/-- The joiners, which bind the characters beside them into one word. -/
def joiner : List Span :=
  [⟨0x200C, 0x200D, 1⟩]

/-- The characters of words. -/
def wordSpans : List Span :=
  Category.letter ++ Category.letterNumber ++ Category.mark ++ Category.decimalNumber
    ++ Category.connectorPunctuation ++ framedLetter ++ joiner

/-- A word character. -/
def isWord (c : Char) : Bool :=
  if c.toNat < 128 then isAsciiWord c else inSpans wordSpans c

/-- Characters that start an identifier though they are neither letters nor
letter numbers. -/
def otherIdentifierStart : List Span :=
  [⟨0x1885, 0x1886, 1⟩, ⟨0x2118, 0x2118, 1⟩, ⟨0x212E, 0x212E, 1⟩, ⟨0x309B, 0x309C, 1⟩]

/-- Characters that continue an identifier though their category does not. -/
def otherIdentifierPart : List Span :=
  [⟨0xB7, 0xB7, 1⟩, ⟨0x387, 0x387, 1⟩, ⟨0x1369, 0x1371, 1⟩, ⟨0x19DA, 0x19DA, 1⟩,
   ⟨0x30FB, 0x30FB, 1⟩, ⟨0xFF65, 0xFF65, 1⟩]

/-- Whether a character beyond ASCII starts an identifier. -/
def startsWideIdentifier (c : Char) : Bool :=
  (inSpans Category.letter c && c.toNat != 0x2E2F) || inSpans Category.letterNumber c
    || inSpans otherIdentifierStart c

/-- Whether a character starts an identifier: a letter, `$` or `_`. -/
def startsIdentifier (c : Char) : Bool :=
  if c.toNat < 128 then isAsciiLetter c || c == '_' || c == '$' else startsWideIdentifier c

/-- Whether a character continues an identifier: also digits, marks, connectors
and the two joiners. -/
def continuesIdentifier (c : Char) : Bool :=
  if c.toNat < 128 then isAsciiWord c || c == '$'
  else
    startsWideIdentifier c || inSpans Category.nonspacingMark c || inSpans Category.spacingMark c
      || inSpans Category.decimalNumber c || inSpans Category.connectorPunctuation c
      || inSpans otherIdentifierPart c || inSpans joiner c

end PackageOrder.Text
