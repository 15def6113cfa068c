/-
PackageOrder.Text.CharSet — sets of characters.

A set is an expression over ranges, tables and the operations on sets;
`CharSet.has` says which characters it has. `folded s` has each character that
differs from some character of `s` in case only.
-/
import PackageOrder.Text.Word
import PackageOrder.Text.CaseFold

namespace PackageOrder.Text

/-- A set of characters. -/
inductive CharSet where
  | nothing
  | range (first last : Char)
  | table (spans : List Span)
  /-- White space. -/
  | blank
  /-- Word characters. -/
  | word
  | union (a b : CharSet)
  | intersection (a b : CharSet)
  | difference (a b : CharSet)
  | complement (a : CharSet)
  /-- The characters that have a case variant in the set. -/
  | folded (a : CharSet)
  /-- The same for the case of ASCII letters only. -/
  | asciiFolded (a : CharSet)
deriving Repr

/-- The characters that fold to what `c` folds to. -/
def caseVariants (c : Char) : List Char :=
  let target := foldCase c
  target :: foldSpans.filterMap fun span =>
    let code := target.toNat + span.down - span.up
    if span.first ≤ code && code ≤ span.last && (code - span.first) % span.step == 0 then
      some (Char.ofNat code)
    else none

/-- The letter in both cases, if it is one of ASCII. -/
def asciiVariants (c : Char) : List Char :=
  [c, c.toLower, c.toUpper]

namespace CharSet

/-- Whether a character is in a set. -/
def has : CharSet → Char → Bool
  | nothing, _ => false
  | range first last, c => first ≤ c && c ≤ last
  | table spans, c => inSpans spans c
  | blank, c => isBlank c
  | word, c => isWord c
  | union a b, c => a.has c || b.has c
  | intersection a b, c => a.has c && b.has c
  | difference a b, c => a.has c && !b.has c
  | complement a, c => !a.has c
  | folded a, c => (caseVariants c).any a.has
  | asciiFolded a, c => (asciiVariants c).any a.has

/-- Every character. -/
def everything : CharSet := complement nothing

/-- The set of one character. -/
def single (c : Char) : CharSet := range c c

/-- The characters of any of the sets. -/
def unions (sets : List CharSet) : CharSet :=
  sets.foldr union nothing

/-- The set of a list of ranges. -/
def ofRanges (ranges : List (Char × Char)) : CharSet :=
  unions (ranges.map fun (first, last) => range first last)

/-- The characters of a table, given by its text. -/
def ofText (text : String) : CharSet :=
  table (readSpans text)

theorem has_unions (sets : List CharSet) (c : Char) :
    (unions sets).has c = sets.any (·.has c) := by
  induction sets with
  | nil => rfl
  | cons set sets ih => simpa [unions, has] using congrArg (set.has c || ·) ih

theorem has_single (a c : Char) : (single a).has c = (a == c) := by
  have h : (a ≤ c ∧ c ≤ a) ↔ a = c :=
    ⟨fun h => Char.le_antisymm h.1 h.2, fun h => h ▸ ⟨Char.le_refl a, Char.le_refl a⟩⟩
  rw [Bool.eq_iff_iff]
  simpa [single, has] using h

end CharSet

end PackageOrder.Text
