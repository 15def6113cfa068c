/-
PackageOrder.Script.Escape — escapes in names, strings and templates.

An escape is read digit by digit, and what a malformed one has used up stays
used up: it stands for nothing and is reported, so that `valid` is false. In a
name it does not stand for a character that a name cannot hold, nor for a pair
of code units.

A string may hold half of a surrogate pair (`StringPart.half`). The text of such a
string shows it as the replacement character and four digits, and a replacement
character of its own in the same way.
-/
import PackageOrder.Text.Hexadecimal
import PackageOrder.Text.Word

namespace PackageOrder.Script

open PackageOrder.Text

/-! ## Digits -/

/-- An octal digit. -/
def octalDigit? (c : Char) : Option Nat :=
  if '0' ≤ c ∧ c ≤ '7' then some (c.toNat - '0'.toNat) else none

/-- The number that a count of hexadecimal digits goes on with, and the text
from the first character that is none of them. -/
def takeHex : Nat → Nat → List Char → Option Nat × List Char
  | 0, n, text => (some n, text)
  | _ + 1, _, [] => (none, [])
  | count + 1, n, c :: rest =>
    match hexDigit? c with
    | some d => takeHex count (16 * n + d) rest
    | none => (none, c :: rest)

/-- The code point that hexadecimal digits up to a closing brace go on with. -/
def takeBraced : Nat → List Char → Option Nat × List Char
  | _, [] => (none, [])
  | n, c :: rest =>
    match hexDigit? c with
    | some d => if 16 * n + d < 0x110000 then takeBraced (16 * n + d) rest else (none, rest)
    | none => if c = '\x7d' then (some n, rest) else (none, c :: rest)

/-! ## Code points -/

/-- Whether a code point is half of a surrogate pair. -/
def isSurrogate (n : Nat) : Bool :=
  0xD800 ≤ n && n < 0xE000

/-- The code point after `\u`: any number of digits in braces, four digits, or
two escapes of four that make a surrogate pair. -/
def takeCodePoint : List Char → Option Nat × List Char
  | '\x7b' :: c :: rest =>
    if (hexDigit? c).isSome then takeBraced 0 (c :: rest) else (none, c :: rest)
  | '\x7b' :: [] => (none, [])
  | text =>
    match takeHex 4 0 text with
    | (some high, '\\' :: 'u' :: after) =>
      match takeHex 4 0 after with
      | (some low, rest) =>
        if 0xD800 ≤ high ∧ high < 0xDC00 ∧ 0xDC00 ≤ low ∧ low < 0xE000 then
          (some (0x10000 + (high - 0xD800) * 0x400 + (low - 0xDC00)), rest)
        else (some high, '\\' :: 'u' :: after)
      | (none, _) => (some high, '\\' :: 'u' :: after)
    | found => found

/-! ## Strings -/

/-- What a string is made of. -/
inductive StringPart where
  | char (c : Char)
  /-- Half of a surrogate pair. -/
  | half (n : Nat)
deriving Repr, DecidableEq

/-- A hexadecimal digit in lower case. -/
def hexChar (n : Nat) : Char :=
  if n < 10 then Char.ofNat ('0'.toNat + n) else Char.ofNat ('a'.toNat + n - 10)

/-- The replacement character and the four digits of a code unit. -/
def shownUnit (n : Nat) : List Char :=
  [Char.ofNat 0xFFFD, hexChar (n / 4096 % 16), hexChar (n / 256 % 16), hexChar (n / 16 % 16),
    hexChar (n % 16)]

/-- The text of a string that holds halves of pairs. -/
def StringPart.shown : StringPart → List Char
  | .char c => if c.toNat = 0xFFFD then shownUnit 0xFFFD else [c]
  | .half n => shownUnit n

/-- The characters of a string that holds none. -/
def StringPart.plain : StringPart → List Char
  | .char c => [c]
  | .half _ => []

/-- Whether a part is half of a pair. -/
def StringPart.isHalf : StringPart → Bool
  | .char _ => false
  | .half _ => true

/-- The text of a string. -/
def textOfParts (parts : List StringPart) : List Char :=
  if parts.any StringPart.isHalf then parts.flatMap StringPart.shown
  else parts.flatMap StringPart.plain

/-- What an escape stands for, and what follows it. -/
structure Escape where
  parts : List StringPart
  rest : List Char
  valid : Bool := true

/-- The escape of one character. -/
def Escape.char (c : Char) (rest : List Char) : Escape :=
  { parts := [.char c], rest }

/-- An escape of a code point, if there is one. -/
def Escape.point : Option Nat × List Char → Escape
  | (some n, rest) =>
    { parts := [if isSurrogate n then .half n else .char (Char.ofNat n)], rest }
  | (none, rest) => { parts := [], rest, valid := false }

/-- An escape of one to three octal digits, below 256. -/
def octalEscape (first : Nat) (text : List Char) : Escape :=
  match text with
  | b :: rest =>
    match octalDigit? b with
    | none => .char (Char.ofNat first) text
    | some b =>
      match rest with
      | c :: after =>
        match octalDigit? c with
        | some c =>
          if first < 4 then .char (Char.ofNat (64 * first + 8 * b + c)) after
          else .char (Char.ofNat (8 * first + b)) rest
        | none => .char (Char.ofNat (8 * first + b)) rest
      | [] => .char (Char.ofNat (8 * first + b)) []
  | [] => .char (Char.ofNat first) []

/-- The escape in a string after its backslash; at the end of a line it joins
the lines. -/
def stringEscape : List Char → Escape
  | [] => { parts := [], rest := [] }
  | '\r' :: '\n' :: rest => { parts := [], rest }
  | c :: rest =>
    match c with
    | 'b' => .char '\x08' rest
    | 'f' => .char '\x0c' rest
    | 'n' => .char '\n' rest
    | 'r' => .char '\r' rest
    | 't' => .char '\t' rest
    | 'v' => .char '\x0b' rest
    | 'u' => .point (takeCodePoint rest)
    | 'x' => .point (takeHex 2 0 rest)
    | c =>
      if c = '\n' ∨ c = '\r' ∨ c.toNat = 0x2028 ∨ c.toNat = 0x2029 then { parts := [], rest }
      else
        match octalDigit? c with
        | some d => octalEscape d rest
        | none => .char c rest

/-- What the body of a string stands for, and whether all its escapes are
valid. Each step consumes a character. -/
def stringParts : Nat → List Char → List StringPart × Bool
  | 0, _ => ([], true)
  | _, [] => ([], true)
  | steps + 1, c :: rest =>
    if c = '\\' then
      let escape := stringEscape rest
      let (parts, valid) := stringParts steps escape.rest
      (escape.parts ++ parts, escape.valid && valid)
    else
      let (parts, valid) := stringParts steps rest
      (.char c :: parts, valid)

/-! ## Names -/

/-- The character that an escape in a name stands for, after its backslash. The
character there has to be an allowed one. -/
def nameEscape (allowed : Char → Bool) : List Char → Option Char × List Char
  | 'u' :: text =>
    match takeCodePoint text with
    | (some n, rest) =>
      let isPair := 0x10000 ≤ n && text.head? != some '\x7b'
      if isSurrogate n || isPair || !allowed (Char.ofNat n) then (none, rest)
      else (some (Char.ofNat n), rest)
    | (none, rest) => (none, rest)
  | _ :: rest => (none, rest)
  | [] => (none, [])

/-- A name as it is read. -/
structure ScannedName where
  name : List Char
  /-- Whether it is written with escapes. -/
  escaped : Bool
  /-- Whether all its escapes are valid. -/
  valid : Bool
  rest : List Char

/-- The rest of a name in which an escape stands for a character; the
characters so far come last first. Each step consumes a character. -/
def scanEscapedName : Nat → Bool → Bool → List Char → List Char → ScannedName
  | 0, _, valid, found, rest => { name := found.reverse, escaped := true, valid, rest }
  | _, _, valid, found, [] => { name := found.reverse, escaped := true, valid, rest := [] }
  | steps + 1, first, valid, found, c :: rest =>
    if c = '\\' then
      match nameEscape (if first then startsIdentifier else continuesIdentifier) rest with
      | (some c, rest) => scanEscapedName steps false valid (c :: found) rest
      | (none, rest) => scanEscapedName steps false false found rest
    else if continuesIdentifier c then scanEscapedName steps false valid (c :: found) rest
    else { name := found.reverse, escaped := true, valid, rest := c :: rest }

/-- The name at the front of a text. -/
def scanName (text : List Char) : ScannedName :=
  let plain := text.takeWhile continuesIdentifier
  let rest := text.dropWhile continuesIdentifier
  if rest.head? == some '\\' then
    scanEscapedName rest.length plain.isEmpty true plain.reverse rest
  else { name := plain, escaped := false, valid := true, rest }

/-- Whether a name starts at the front of a text. -/
def startsName : List Char → Bool
  | c :: _ => c == '\\' || startsIdentifier c
  | [] => false

/-! ## What is left

A name leaves a rest of the text it is read from. -/

theorem takeHex_suffix (count n : Nat) (text : List Char) : (takeHex count n text).2 <:+ text := by
  fun_induction takeHex count n text with
  | case1 | case2 | case4 => exact List.suffix_rfl
  | case3 count n c rest d _ ih => exact ih.trans (List.suffix_cons c rest)

theorem takeBraced_suffix (n : Nat) (text : List Char) : (takeBraced n text).2 <:+ text := by
  fun_induction takeBraced n text with
  | case1 | case5 => exact List.suffix_rfl
  | case2 n c rest d _ _ ih => exact ih.trans (List.suffix_cons c rest)
  | case3 | case4 => exact List.suffix_cons _ _

theorem takeCodePoint_suffix (text : List Char) : (takeCodePoint text).2 <:+ text := by
  have first := takeHex_suffix 4 0 text
  unfold takeCodePoint
  split
  · rename_i c rest
    split
    · exact (takeBraced_suffix 0 (c :: rest)).trans (List.suffix_cons _ _)
    · exact List.suffix_cons _ _
  · exact List.nil_suffix
  · split
    · rename_i after read
      have second := takeHex_suffix 4 0 after
      rw [read] at first
      -- a second escape is given back unless it completes a pair
      split
      · rename_i found
        rw [found] at second
        split
        · exact second.trans (((List.suffix_cons _ _).trans (List.suffix_cons _ _)).trans first)
        · exact first
      · exact first
    · exact first

theorem nameEscape_suffix (allowed : Char → Bool) (text : List Char) :
    (nameEscape allowed text).2 <:+ text := by
  fun_cases nameEscape allowed text with
  | case1 text n rest found | case2 text n rest found | case3 text rest found =>
    have point := takeCodePoint_suffix text
    rw [found] at point
    exact point.trans (List.suffix_cons _ _)
  | case4 | case5 => simp

theorem scanEscapedName_suffix (steps : Nat) (first valid : Bool) (found text : List Char) :
    (scanEscapedName steps first valid found text).rest <:+ text := by
  fun_induction scanEscapedName steps first valid found text with
  | case1 | case2 | case6 => exact List.suffix_rfl
  | case3 steps first valid found text c rest escape ih
  | case4 steps first valid found text rest escape ih =>
    have after := nameEscape_suffix (if first then startsIdentifier else continuesIdentifier) text
    rw [escape] at after
    exact ih.trans (after.trans (List.suffix_cons _ _))
  | case5 _ _ _ _ c rest _ _ ih => exact ih.trans (List.suffix_cons c rest)

theorem scanName_suffix (text : List Char) : (scanName text).rest <:+ text := by
  dsimp only [scanName]
  split
  · exact (scanEscapedName_suffix _ _ _ _ _).trans (List.dropWhile_suffix _)
  · exact List.dropWhile_suffix _

end PackageOrder.Script
