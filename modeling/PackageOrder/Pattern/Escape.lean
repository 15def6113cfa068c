/-
PackageOrder.Pattern.Escape — escapes in patterns.

An escape is a literal, a set or a condition on the position. Escaped letters
and digits mean nothing but what is listed here, so that back references are
refused; any other ASCII character stands for itself. Once Unicode is switched
off, what could match half a character is refused.
-/
import PackageOrder.Pattern.Basic
import PackageOrder.Pattern.Property
import PackageOrder.Pattern.Spacing

namespace PackageOrder.Pattern

open PackageOrder.Text

/-- What an escape stands for. -/
inductive Escape where
  | literal (c : Char)
  | set (s : CharSet)
  | look (condition : Look)

/-- Characters that an escape makes literal. -/
def isEscapable (c : Char) : Bool :=
  c.toNat < 128 && !isAsciiLetter c && !isAsciiDigit c && c != '<' && c != '>'

/-! ## Code points -/

/-- The character of a code point. -/
def charOf? (n : Nat) : Option Char :=
  if n < 0x110000 ∧ ¬(0xD800 ≤ n ∧ n < 0xE000) then some (Char.ofNat n) else none

/-- A count of hexadecimal digits. -/
def takeDigits? (flags : Flags) : Nat → List Char → Option (List Char × List Char)
  | 0, text => some ([], text)
  | count + 1, text =>
    match flags.skip text with
    | c :: rest =>
      if (hexDigit? c).isSome then
        (takeDigits? flags count rest).map fun (digits, rest) => (c :: digits, rest)
      else none
    | [] => none

/-- A code point in hexadecimal: `count` digits or any number in braces. Two digits are a
byte, which without Unicode is a character of its own only in ASCII. -/
def readHex? (flags : Flags) (count : Nat) (text : List Char) : Option (Escape × List Char) :=
  match flags.skip text with
  | '\x7b' :: rest =>
    match flags.takeWhile (· != '\x7d') rest with
    | (digits, _ :: rest) => do
      let c ← charOf? (← hexNumber? digits)
      some (.literal c, rest)
    | _ => none
  | text => do
    let (digits, rest) ← takeDigits? flags count text
    let c ← charOf? (← hexNumber? digits)
    if count = 2 ∧ ¬flags.unicode ∧ 127 < c.toNat then none else some (.literal c, rest)

/-! ## Sets -/

/-- A set with the case variants that the flags ask for. -/
def Flags.fold (flags : Flags) (set : CharSet) : CharSet :=
  if !flags.ignoreCase then set
  else if flags.unicode then .folded set
  else .asciiFolded set

/-- A set with its case variants, or all other characters. -/
def Flags.foldAndNegate (flags : Flags) (negated : Bool) (set : CharSet) : CharSet :=
  if negated then .complement (flags.fold set) else flags.fold set

/-- A property after `\p` or `\P`: one letter or a name in braces. -/
def readProperty? (flags : Flags) (negated : Bool) (text : List Char) :
    Option (Escape × List Char) := do
  if !flags.unicode then none
  let (name, rest) ←
    match flags.skip text with
    | '\x7b' :: rest =>
      match flags.takeWhile (· != '\x7d') rest with
      | (name, _ :: rest) => some (name, rest)
      | _ => none
    | c :: rest => some ([c], rest)
    | [] => none
  let (set, unequal) ← Property.written? name
  some (.set (flags.foldAndNegate (negated != unequal) set), rest)

/-- The ASCII characters of a named class. -/
def namedClass? (name : String) : Option CharSet :=
  match name with
  | "alnum" => some (.ofRanges [('0', '9'), ('A', 'Z'), ('a', 'z')])
  | "alpha" => some (.ofRanges [('A', 'Z'), ('a', 'z')])
  | "ascii" => some (.range '\x00' '\x7f')
  | "blank" => some (.ofRanges [('\t', '\t'), (' ', ' ')])
  | "cntrl" => some (.ofRanges [('\x00', '\x1f'), ('\x7f', '\x7f')])
  | "digit" => some (.range '0' '9')
  | "graph" => some (.range '!' '~')
  | "lower" => some (.range 'a' 'z')
  | "print" => some (.range ' ' '~')
  | "punct" => some (.ofRanges [('!', '/'), (':', '@'), ('[', '\x60'), ('\x7b', '~')])
  | "space" => some (.ofRanges [('\t', '\r'), (' ', ' ')])
  | "upper" => some (.range 'A' 'Z')
  | "word" => some (.ofRanges [('0', '9'), ('A', 'Z'), ('_', '_'), ('a', 'z')])
  | "xdigit" => some (.ofRanges [('0', '9'), ('A', 'F'), ('a', 'f')])
  | _ => none

/-- The class of a letter, which stands for its complement in upper case. Without Unicode
it has ASCII only, and its complement would have parts of characters. -/
def letterClass? (flags : Flags) (letter : Char) : Option CharSet :=
  let wide (set : CharSet) (ascii : String) : Option CharSet :=
    if flags.unicode then some set else namedClass? ascii
  let complement (set : CharSet) : Option CharSet :=
    if flags.unicode then some (.complement set) else none
  match letter with
  | 'd' => wide (.table Category.decimalNumber) "digit"
  | 's' => wide .blank "space"
  | 'w' => wide .word "word"
  | 'D' => complement (.table Category.decimalNumber)
  | 'S' => complement .blank
  | 'W' => complement .word
  | _ => none

/-! ## Positions -/

/-- A word boundary, possibly of a special kind in braces. Braces that do not start
with a name are left for a count. -/
def readBoundary? (flags : Flags) (text : List Char) : Option (Look × List Char) :=
  let ascii := !flags.unicode
  match text with
  | '\x7b' :: rest =>
    match flags.skip rest with
    | [] => none
    | first :: _ =>
      let isName (c : Char) : Bool := isAsciiLetter c || c == '-'
      if !isName first then some (.boundary ascii, text)
      else
        match flags.takeWhile isName rest with
        | (name, '\x7d' :: after) =>
          match String.ofList name with
          | "start" => some (.wordStart ascii, after)
          | "end" => some (.wordEnd ascii, after)
          | "start-half" => some (.wordStartHalf ascii, after)
          | "end-half" => some (.wordEndHalf ascii, after)
          | _ => none
        | _ => none
  | text => some (.boundary ascii, text)

/-! ## Escapes -/

/-- The character that an escaped letter stands for. -/
def letterLiteral? (c : Char) : Option Char :=
  match c with
  | 'a' => some '\x07'
  | 'f' => some '\x0c'
  | 't' => some '\t'
  | 'n' => some '\n'
  | 'r' => some '\r'
  | 'v' => some '\x0b'
  | c => if isEscapable c then some c else none

/-- The condition that an escaped character stands for, `\b` aside. -/
def letterLook? (flags : Flags) (c : Char) : Option Look :=
  match c with
  | 'A' => some .textStart
  | 'z' => some .textEnd
  | 'B' => some (.noBoundary !flags.unicode)
  | '<' => some (.wordStart !flags.unicode)
  | '>' => some (.wordEnd !flags.unicode)
  | _ => none

/-- An escape after its backslash. -/
def readEscape? (flags : Flags) : List Char → Option (Escape × List Char)
  | [] => none
  | c :: rest =>
    match c with
    | 'p' => readProperty? flags false rest
    | 'P' => readProperty? flags true rest
    | 'x' => readHex? flags 2 rest
    | 'u' => readHex? flags 4 rest
    | 'U' => readHex? flags 8 rest
    | 'b' => (readBoundary? flags rest).map fun (condition, rest) => (.look condition, rest)
    | c =>
      if c ∈ ['d', 'D', 's', 'S', 'w', 'W'] then
        (letterClass? flags c).map fun set => (.set set, rest)
      else
        match letterLook? flags c with
        | some condition => some (.look condition, rest)
        | none => (letterLiteral? c).map fun c => (.literal c, rest)

end PackageOrder.Pattern
