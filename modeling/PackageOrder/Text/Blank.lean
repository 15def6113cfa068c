/-
PackageOrder.Text.Blank — white space (the characters with the White_Space
property), trimming, and cutting a text at runs of white space.
-/
import PackageOrder.Text.Split

namespace PackageOrder.Text

/-- The characters with the White_Space property. -/
def isBlank (c : Char) : Bool :=
  let code := c.toNat
  (9 ≤ code && code ≤ 13) || code == 0x20 || code == 0x85 || code == 0xA0 || code == 0x1680
    || (0x2000 ≤ code && code ≤ 0x200A) || code == 0x2028 || code == 0x2029
    || code == 0x202F || code == 0x205F || code == 0x3000

/-- The text without the white space at its front. -/
def trimStart (text : List Char) : List Char :=
  text.dropWhile isBlank

/-- The text without the white space at its end. -/
def trimEnd (text : List Char) : List Char :=
  (text.reverse.dropWhile isBlank).reverse

/-- The text without the white space at either end. -/
def trim (text : List Char) : List Char :=
  trimEnd (trimStart text)

/-- The non-empty pieces of a text between runs of white space. -/
def words (text : List Char) : List (List Char) :=
  let (word, found) := text.foldr
    (fun c (word, found) =>
      if isBlank c then ([], if word = [] then found else word :: found)
      else (c :: word, found))
    (([] : List Char), ([] : List (List Char)))
  if word = [] then found else word :: found

end PackageOrder.Text
