/-
PackageOrder.Text.Span — sets of code points as lists of spans, and the form in
which tables of them are written.

A table is a text of words between blanks: `41-5A` has the code points from 41
to 5A, `5F` one alone, and `100-136/2` every second one from 100 to 136, all in
hexadecimal.
-/
import PackageOrder.Text.Blank
import PackageOrder.Text.Hexadecimal

namespace PackageOrder.Text

/-- The code points `first, first + step, …` up to `last`. -/
structure Span where
  first : Nat
  last : Nat
  step : Nat
deriving Repr, DecidableEq

/-- Whether a code point is one of the span's. -/
def Span.has (span : Span) (code : Nat) : Bool :=
  span.first ≤ code && code ≤ span.last && (code - span.first) % span.step == 0

/-- Whether a character is in one of the spans. -/
def inSpans (spans : List Span) (c : Char) : Bool :=
  spans.any (·.has c.toNat)

theorem inSpans_append (a b : List Span) (c : Char) :
    inSpans (a ++ b) c = (inSpans a c || inSpans b c) := by
  simp [inSpans, List.any_append]

/-- The white space. -/
def blankSpans : List Span :=
  [⟨0x9, 0xD, 1⟩, ⟨0x20, 0x20, 1⟩, ⟨0x85, 0x85, 1⟩, ⟨0xA0, 0xA0, 1⟩, ⟨0x1680, 0x1680, 1⟩,
   ⟨0x2000, 0x200A, 1⟩, ⟨0x2028, 0x2029, 1⟩, ⟨0x202F, 0x202F, 1⟩, ⟨0x205F, 0x205F, 1⟩,
   ⟨0x3000, 0x3000, 1⟩]

theorem inSpans_blankSpans (c : Char) : inSpans blankSpans c = isBlank c := by
  rw [Bool.eq_iff_iff]
  simp [inSpans, blankSpans, isBlank, Span.has, Nat.mod_one]
  omega

/-- The span that a word writes. -/
def readSpan? (word : List Char) : Option Span := do
  let (ends, step) := (cutAt? '/' word).getD (word, ['1'])
  let (first, last) := (cutAt? '-' ends).getD (ends, ends)
  some ⟨← hexNumber? first, ← hexNumber? last, ← hexNumber? step⟩

/-- The spans that the words of a text write. -/
def readSpans (text : String) : List Span :=
  (words text.toList).filterMap readSpan?

end PackageOrder.Text
