/-
PackageOrder.Json.Writer — writing JSON text, compact or one member a line.

Strings keep every character but the quote, the backslash and the control
characters below space. A floating-point number has the fewest digits that
read back (`floatLayout`). The indented form breaks the line after each
opening bracket and each comma and indents by two spaces a level; empty arrays
and objects stay closed.
-/
import PackageOrder.Json.Value
import PackageOrder.Decimal.Shortest

namespace PackageOrder.Json

/-! ## Numbers -/

/-- How floating-point numbers are laid out. -/
structure FloatLayout where
  /-- The least power of ten of a leading digit that is written without exponent. -/
  plainFrom : Int
  /-- The least power of ten of a leading digit that is written with exponent again. -/
  plainBelow : Int

/-- Numbers from `0.00001` up and below `10^16` have no exponent. -/
def floatLayout : FloatLayout := ⟨-5, 16⟩

/-- A natural number in decimal digits. -/
def natChars (n : Nat) : List Char :=
  Nat.toDigits 10 n

/-- An exponent with its sign. -/
def exponentChars (e : Int) : List Char :=
  if 0 ≤ e then '+' :: natChars e.toNat else '-' :: natChars (-e).toNat

/-- The digits `n · 10^e` with a point: always one digit before and one after it. -/
def plainChars (n : Nat) (e : Int) : List Char :=
  let digits := natChars n
  if 0 ≤ e then digits ++ List.replicate e.toNat '0' ++ ['.', '0']
  else
    let places := (-e).toNat
    if places < digits.length then
      digits.take (digits.length - places) ++ '.' :: digits.drop (digits.length - places)
    else '0' :: '.' :: List.replicate (places - digits.length) '0' ++ digits

/-- The digits `n · 10^e` with one digit before the point and an exponent. -/
def scientificChars (n : Nat) (e : Int) : List Char :=
  let digits := natChars n
  let power := e + (digits.length : Int) - 1
  let mantissa :=
    match digits with
    | [] => []
    | [d] => [d]
    | d :: rest => d :: '.' :: rest
  mantissa ++ 'e' :: exponentChars power

/-- A floating-point number. -/
def realChars (layout : FloatLayout) (minus : Bool) (x : Decimal.Magnitude) : List Char :=
  let sign := if minus then ['-'] else []
  if x.mantissa = 0 then sign ++ ['0', '.', '0']
  else
    let shortest := x.shortest
    let power := shortest.exponent + ((natChars shortest.digits).length : Int) - 1
    if layout.plainFrom ≤ power ∧ power < layout.plainBelow then
      sign ++ plainChars shortest.digits shortest.exponent
    else sign ++ scientificChars shortest.digits shortest.exponent

/-- A number. -/
def numberChars : Number → List Char
  | .natural n => natChars n
  | .negative n => '-' :: natChars n
  | .real minus x => realChars floatLayout minus x

/-! ## Strings -/

/-- A hexadecimal digit. -/
def hexChar (d : Nat) : Char :=
  if d < 10 then Char.ofNat ('0'.toNat + d) else Char.ofNat ('a'.toNat + d - 10)

/-- A character as it stands in a string. -/
def escapeChar (c : Char) : List Char :=
  if c = '"' then ['\\', '"']
  else if c = '\\' then ['\\', '\\']
  else if c = '\n' then ['\\', 'n']
  else if c = '\r' then ['\\', 'r']
  else if c = '\t' then ['\\', 't']
  else if c = '\x08' then ['\\', 'b']
  else if c = '\x0c' then ['\\', 'f']
  else if c.toNat < 0x20 then ['\\', 'u', '0', '0', hexChar (c.toNat / 16), hexChar (c.toNat % 16)]
  else [c]

/-- The characters of a string with its quotes. -/
def stringChars (s : String) : List Char :=
  '"' :: s.toList.flatMap escapeChar ++ ['"']

/-! ## Compact form -/

mutual

/-- A value without blanks. -/
def Value.compactChars : Value → List Char
  | .null => ['n', 'u', 'l', 'l']
  | .bool true => ['t', 'r', 'u', 'e']
  | .bool false => ['f', 'a', 'l', 's', 'e']
  | .number n => numberChars n
  | .string s => stringChars s
  | .array items => '[' :: itemsChars items ++ [']']
  | .object members => '\x7b' :: membersChars members ++ ['\x7d']

/-- The items of an array with commas between them. -/
def itemsChars : List Value → List Char
  | [] => []
  | [item] => item.compactChars
  | item :: next :: items => item.compactChars ++ ',' :: itemsChars (next :: items)

/-- The members of an object with commas between them. -/
def membersChars : List (String × Value) → List Char
  | [] => []
  | [(key, value)] => stringChars key ++ ':' :: value.compactChars
  | (key, value) :: next :: members =>
    stringChars key ++ ':' :: value.compactChars ++ ',' :: membersChars (next :: members)

end

/-! ## Indented form -/

/-- A line break and the indentation of a level. -/
def lineStart (level : Nat) : List Char :=
  '\n' :: List.replicate (2 * level) ' '

mutual

/-- A value with a line for each item and member; `level` is that of the value. -/
def Value.indentedChars (level : Nat) : Value → List Char
  | .null => ['n', 'u', 'l', 'l']
  | .bool true => ['t', 'r', 'u', 'e']
  | .bool false => ['f', 'a', 'l', 's', 'e']
  | .number n => numberChars n
  | .string s => stringChars s
  | .array [] => ['[', ']']
  | .array (item :: items) =>
    '[' :: lineStart (level + 1) ++ item.indentedChars (level + 1)
      ++ moreItemsChars (level + 1) items ++ lineStart level ++ [']']
  | .object [] => ['\x7b', '\x7d']
  | .object ((key, value) :: members) =>
    '\x7b' :: lineStart (level + 1) ++ stringChars key ++ ':' :: ' '
      :: value.indentedChars (level + 1)
      ++ moreMembersChars (level + 1) members ++ lineStart level ++ ['\x7d']

/-- Items after the first, each with the comma before it. -/
def moreItemsChars (level : Nat) : List Value → List Char
  | [] => []
  | item :: items =>
    ',' :: lineStart level ++ item.indentedChars level ++ moreItemsChars level items

/-- Members after the first, each with the comma before it. -/
def moreMembersChars (level : Nat) : List (String × Value) → List Char
  | [] => []
  | (key, value) :: members =>
    ',' :: lineStart level ++ stringChars key ++ ':' :: ' ' :: value.indentedChars level
      ++ moreMembersChars level members

end

/-- The text of a value without blanks. -/
def Value.compact (value : Value) : String :=
  .ofList value.compactChars

/-- The text of a value with a line for each item and member. -/
def Value.indented (value : Value) : String :=
  .ofList (value.indentedChars 0)

end PackageOrder.Json
