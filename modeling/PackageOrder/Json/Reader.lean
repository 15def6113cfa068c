/-
PackageOrder.Json.Reader — reading JSON text.

Every function takes the rest of a text and yields what it read with what
follows; `none` is a text that is no JSON. Blanks are space, tab, line feed
and carriage return. A string holds no bare control character; an escaped
surrogate that is not half of a pair is read as no character at all, which makes
the form broken. The functions that recur take a count of steps, of which a text
never needs more than it has characters (`readForm?` supplies them).
-/
import PackageOrder.Json.Form
import PackageOrder.Text.Hexadecimal

namespace PackageOrder.Json

open PackageOrder.Text (hexDigit?)

/-- A blank of JSON. -/
def isJsonBlank (c : Char) : Bool :=
  c == ' ' || c == '\n' || c == '\t' || c == '\r'

/-- The text after the blanks at its front. -/
def skipBlanks : List Char → List Char
  | [] => []
  | c :: rest => if isJsonBlank c then skipBlanks rest else c :: rest

/-! ## Digits -/

/-- The value of a decimal digit. -/
def digit? (c : Char) : Option Nat :=
  if '0' ≤ c ∧ c ≤ '9' then some (c.toNat - '0'.toNat) else none

/-- The digits at the front of a text. -/
def readDigits : List Char → List Nat × List Char
  | [] => ([], [])
  | c :: rest =>
    match digit? c with
    | some d => let (digits, rest) := readDigits rest; (d :: digits, rest)
    | none => ([], c :: rest)

/-- At least one digit. -/
def readSomeDigits? (text : List Char) : Option (List Nat × List Char) :=
  match readDigits text with
  | ([], _) => none
  | found => some found

/-! ## Numbers -/

/-- The digits before the point: no zero stands before another digit. -/
def readWhole? (text : List Char) : Option (List Nat × List Char) :=
  match readDigits text with
  | ([], _) => none
  | (0 :: _ :: _, _) => none
  | found => some found

/-- A point with digits after it. -/
def readFraction? : List Char → Option (Option (List Nat) × List Char)
  | '.' :: rest => (readSomeDigits? rest).map fun (digits, rest) => (some digits, rest)
  | rest => some (none, rest)

/-- The sign of an exponent. -/
def readSign : List Char → Bool × List Char
  | '+' :: rest => (false, rest)
  | '-' :: rest => (true, rest)
  | rest => (false, rest)

/-- An exponent. -/
def readExponent? : List Char → Option (Option (Bool × List Nat) × List Char)
  | c :: rest =>
    if c = 'e' ∨ c = 'E' then
      let (minus, rest) := readSign rest
      (readSomeDigits? rest).map fun (digits, rest) => (some (minus, digits), rest)
    else some (none, c :: rest)
  | [] => some (none, [])

/-- A number after its sign. -/
def readNumber? (minus : Bool) (text : List Char) : Option (NumberText × List Char) := do
  let (whole, rest) ← readWhole? text
  let (fraction, rest) ← readFraction? rest
  let (exponent, rest) ← readExponent? rest
  some (⟨minus, whole, fraction, exponent⟩, rest)

/-! ## Strings -/

/-- The code unit of four hexadecimal digits. -/
def readUnit? : List Char → Option (Nat × List Char)
  | a :: b :: c :: d :: rest => do
    let a ← hexDigit? a
    let b ← hexDigit? b
    let c ← hexDigit? c
    let d ← hexDigit? d
    some (((a * 16 + b) * 16 + c) * 16 + d, rest)
  | _ => none

/-- Whether a code unit is the first half of a surrogate pair. -/
def isHighHalf (unit : Nat) : Bool := 0xD800 ≤ unit && unit < 0xDC00

/-- Whether a code unit is the second half of a surrogate pair. -/
def isLowHalf (unit : Nat) : Bool := 0xDC00 ≤ unit && unit < 0xE000

/-- The second half of a surrogate pair as an escape. -/
def readLowHalf? : List Char → Option (Nat × List Char)
  | '\\' :: 'u' :: rest =>
    match readUnit? rest with
    | some (unit, rest) => if isLowHalf unit then some (unit, rest) else none
    | none => none
  | _ => none

/-- The character of an escape by code unit; `none` for half of a pair on its
own. -/
def readCodePoint? (text : List Char) : Option (Option Char × List Char) := do
  let (unit, rest) ← readUnit? text
  if isHighHalf unit then
    match readLowHalf? rest with
    | some (low, rest) =>
      some (some (Char.ofNat (0x10000 + (unit - 0xD800) * 0x400 + (low - 0xDC00))), rest)
    | none => some (none, rest)
  else if isLowHalf unit then some (none, rest)
  else some (some (Char.ofNat unit), rest)

/-- The character that a one-letter escape stands for. -/
def unescape? : Char → Option Char
  | '"' => some '"'
  | '\\' => some '\\'
  | '/' => some '/'
  | 'b' => some '\x08'
  | 'f' => some '\x0c'
  | 'n' => some '\n'
  | 'r' => some '\r'
  | 't' => some '\t'
  | _ => none

/-- The characters of a string up to its closing quote, with `none` for half of
a surrogate pair. -/
def readStringBody? : Nat → List Char → Option (List (Option Char) × List Char)
  | 0, _ => none
  | _, [] => none
  | steps + 1, c :: rest =>
    if c = '"' then some ([], rest)
    else if c = '\\' then
      match rest with
      | 'u' :: rest => do
        let (found, rest) ← readCodePoint? rest
        let (body, rest) ← readStringBody? steps rest
        some (found :: body, rest)
      | e :: rest => do
        let found ← unescape? e
        let (body, rest) ← readStringBody? steps rest
        some (some found :: body, rest)
      | [] => none
    else if c.toNat < 0x20 then none
    else do
      let (body, rest) ← readStringBody? steps rest
      some (some c :: body, rest)

/-- A string after its opening quote; `none` if it is no text. -/
def readString? (text : List Char) : Option (Option String × List Char) :=
  (readStringBody? (text.length + 1) text).map fun (body, rest) =>
    ((body.mapM id).map String.ofList, rest)

/-! ## Forms -/

mutual

/-- A value, blanks before it allowed. -/
def readValue? : Nat → List Char → Option (Form × List Char)
  | 0, _ => none
  | steps + 1, text =>
    match skipBlanks text with
    | 'n' :: 'u' :: 'l' :: 'l' :: rest => some (.null, rest)
    | 't' :: 'r' :: 'u' :: 'e' :: rest => some (.bool true, rest)
    | 'f' :: 'a' :: 'l' :: 's' :: 'e' :: rest => some (.bool false, rest)
    | '"' :: rest => (readString? rest).map fun (s, rest) => (.ofString s, rest)
    | '-' :: rest => (readNumber? true rest).map fun (n, rest) => (.number n, rest)
    | '[' :: rest =>
      match skipBlanks rest with
      | ']' :: rest => some (.array [], rest)
      | rest => (readItems? steps rest).map fun (items, rest) => (.array items, rest)
    | '\x7b' :: rest =>
      match skipBlanks rest with
      | '\x7d' :: rest => some (.object [], rest)
      | rest => (readMembers? steps rest).map fun (members, rest) => (.ofMembers members, rest)
    | rest => (readNumber? false rest).map fun (n, rest) => (.number n, rest)

/-- The items of an array up to its closing bracket. -/
def readItems? : Nat → List Char → Option (List Form × List Char)
  | 0, _ => none
  | steps + 1, text => do
    let (item, rest) ← readValue? steps text
    match skipBlanks rest with
    | ',' :: rest =>
      let (items, rest) ← readItems? steps rest
      some (item :: items, rest)
    | ']' :: rest => some ([item], rest)
    | _ => none

/-- The members of an object up to its closing brace. -/
def readMembers? : Nat → List Char → Option (List (Option String × Form) × List Char)
  | 0, _ => none
  | steps + 1, text =>
    match skipBlanks text with
    | '"' :: rest => do
      let (key, rest) ← readString? rest
      match skipBlanks rest with
      | ':' :: rest =>
        let (value, rest) ← readValue? steps rest
        match skipBlanks rest with
        | ',' :: rest =>
          let (members, rest) ← readMembers? steps rest
          some ((key, value) :: members, rest)
        | '\x7d' :: rest => some ([(key, value)], rest)
        | _ => none
      | _ => none
    | _ => none

end

/-- The form of a whole text: one value with nothing but blanks around it. -/
def readForm? (text : List Char) : Option Form :=
  match readValue? (2 * text.length + 2) text with
  | some (form, rest) => if skipBlanks rest = [] then some form else none
  | none => none

/-- The value of a JSON text. -/
def parse? (text : String) : Option Value :=
  (readForm? text.toList).bind (·.toValue nestingLimit)

end PackageOrder.Json
