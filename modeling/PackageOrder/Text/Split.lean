/-
PackageOrder.Text.Split — cutting a text at one separator character and
joining pieces again.

`splitOn` keeps empty pieces and always yields at least one piece, so that
`joinWith` undoes it (`joinWith_splitOn`); `splitLines` is the line view of a
text, in which a line ends at LF or CRLF and a last empty line is not a line.
-/

namespace PackageOrder.Text

/-- The pieces of a text between occurrences of `sep`, empty ones included. -/
def splitOn (sep : Char) : List Char → List (List Char)
  | [] => [[]]
  | c :: rest =>
    if c = sep then [] :: splitOn sep rest
    else
      match splitOn sep rest with
      | [] => [[c]]
      | piece :: pieces => (c :: piece) :: pieces

/-- The pieces with `sep` between each two neighbours. -/
def joinWith (sep : Char) : List (List Char) → List Char
  | [] => []
  | [piece] => piece
  | piece :: next :: pieces => piece ++ sep :: joinWith sep (next :: pieces)

theorem splitOn_ne_nil (sep : Char) (text : List Char) : splitOn sep text ≠ [] := by
  cases text with
  | nil => simp [splitOn]
  | cons c rest =>
    simp only [splitOn]
    split
    · simp
    · split <;> simp

/-- Nothing is lost: joining the pieces gives the text back. -/
theorem joinWith_splitOn (sep : Char) (text : List Char) :
    joinWith sep (splitOn sep text) = text := by
  induction text with
  | nil => rfl
  | cons c rest ih =>
    simp only [splitOn]
    split
    · rename_i h
      cases hs : splitOn sep rest with
      | nil => exact absurd hs (splitOn_ne_nil sep rest)
      | cons piece pieces => simp [joinWith, ← hs, ih, h]
    · cases hs : splitOn sep rest with
      | nil => exact absurd hs (splitOn_ne_nil sep rest)
      | cons piece pieces =>
        rw [hs] at ih
        cases pieces with
        | nil => simpa [joinWith] using ih
        | cons next pieces => simpa [joinWith] using ih

/-- `text` without `head` at its front, if it is there. -/
def dropHead? (head : List Char) (text : List Char) : Option (List Char) :=
  match head, text with
  | [], text => some text
  | _ :: _, [] => none
  | h :: head, c :: text => if h = c then dropHead? head text else none

/-- `text` without `tail` at its end, if it is there. -/
def dropTail? (tail : List Char) (text : List Char) : Option (List Char) :=
  (dropHead? tail.reverse text.reverse).map List.reverse

/-- Cut at the first occurrence of `sep`: what stands before it and after it. -/
def cutAt? (sep : Char) : List Char → Option (List Char × List Char)
  | [] => none
  | c :: rest =>
    if c = sep then some ([], rest)
    else (cutAt? sep rest).map fun (before, after) => (c :: before, after)

/-- Cut at the first occurrence of a two-character separator. -/
def splitOnPair (first second : Char) : List Char → List (List Char)
  | [] => [[]]
  | [c] => [[c]]
  | c :: d :: rest =>
    if c = first ∧ d = second then [] :: splitOnPair first second rest
    else
      match splitOnPair first second (d :: rest) with
      | [] => [[c]]
      | piece :: pieces => (c :: piece) :: pieces

/-- A line without the carriage return that ends it. -/
def withoutCarriageReturn (line : List Char) : List Char :=
  match line.reverse with
  | '\r' :: rest => rest.reverse
  | _ => line

/-- The lines of a text. A line ends at LF or CRLF; an empty remainder after
the last line end is no line, and a last line without LF keeps its CR. -/
def splitLines (text : List Char) : List (List Char) :=
  match (splitOn '\n' text).reverse with
  | [] => []
  | last :: ended =>
    let complete := (ended.map withoutCarriageReturn).reverse
    if last = [] then complete else complete ++ [last]

/-- Put `with_` for each occurrence of `old`. -/
def replaceChar (old new : Char) (text : List Char) : List Char :=
  text.map fun c => if c = old then new else c

/-- Texts joined by a separating text. -/
def intercalate (sep : String) : List String → String
  | [] => ""
  | [piece] => piece
  | piece :: next :: pieces => piece ++ sep ++ intercalate sep (next :: pieces)

end PackageOrder.Text
