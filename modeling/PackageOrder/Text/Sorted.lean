/-
PackageOrder.Text.Sorted — sets of texts as lists in increasing order.
-/
namespace PackageOrder.Text

/-- A set of texts, in increasing order. -/
abbrev SortedSet := List String

namespace SortedSet

/-- The set with a text. -/
def insert : SortedSet → String → SortedSet
  | [], text => [text]
  | first :: rest, text =>
    if text = first then first :: rest
    else if text < first then text :: first :: rest
    else first :: insert rest text

/-- The set of the texts in a list. -/
def ofList (texts : List String) : SortedSet :=
  texts.foldl insert []

/-- The texts of two sets. -/
def union (one other : SortedSet) : SortedSet :=
  other.foldl insert one

theorem mem_insert {set : SortedSet} {text other : String} :
    other ∈ set.insert text ↔ other = text ∨ other ∈ set := by
  induction set with
  | nil => simp [insert]
  | cons first rest ih =>
    simp only [insert]
    split
    · rename_i h; subst h; simp
    · split
      · simp
      · simp only [List.mem_cons, ih]
        constructor
        · rintro (h | h | h) <;> simp [h]
        · rintro (h | h | h) <;> simp [h]

theorem mem_union {one other : SortedSet} {text : String} :
    text ∈ one.union other ↔ text ∈ one ∨ text ∈ other := by
  unfold union
  induction other generalizing one with
  | nil => simp
  | cons first rest ih =>
    rw [List.foldl_cons, ih, mem_insert, List.mem_cons]
    constructor
    · rintro ((h | h) | h) <;> simp [h]
    · rintro (h | h | h) <;> simp [h]

end SortedSet

end PackageOrder.Text
