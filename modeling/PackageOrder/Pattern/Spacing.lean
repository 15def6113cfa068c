/-
PackageOrder.Pattern.Spacing — the flags of a pattern, and what they say about
blanks in it.

Under the flag for spaced patterns blanks do not count, nor do comments from `#`
to the end of the line, not even in the middle of an escape or of a count.
-/
import PackageOrder.Text.Blank

namespace PackageOrder.Pattern

open PackageOrder.Text

/-- The flags that are in force. -/
structure Flags where
  ignoreCase : Bool := false
  multiLine : Bool := false
  dotAll : Bool := false
  unicode : Bool := true
  spaced : Bool := false
  carriageReturns : Bool := false
deriving Repr, DecidableEq

/-- The text without blanks and comments at its front, which may be inside a
comment. -/
def dropSpacing : Bool → List Char → List Char
  | _, [] => []
  | true, c :: rest => dropSpacing (c != '\n') rest
  | false, c :: rest =>
    if c = '#' then dropSpacing true rest
    else if isBlank c then dropSpacing false rest
    else c :: rest

/-- The characters at the front that `keep` accepts, blanks and comments between
them left out, and what follows. -/
def takeSpaced (keep : Char → Bool) : Bool → List Char → List Char × List Char
  | _, [] => ([], [])
  | true, c :: rest => takeSpaced keep (c != '\n') rest
  | false, c :: rest =>
    if c = '#' then takeSpaced keep true rest
    else if isBlank c then takeSpaced keep false rest
    else if keep c then
      let (kept, rest) := takeSpaced keep false rest
      (c :: kept, rest)
    else ([], c :: rest)

/-- The first character after blanks, and after the sign of a comment if it is the
first such sign. -/
def peekSpaced? : Bool → List Char → Option Char
  | _, [] => none
  | comment, c :: rest =>
    if isBlank c then peekSpaced? comment rest
    else if c = '#' ∧ ¬comment then peekSpaced? true rest
    else some c

namespace Flags

/-- The text from the first character that counts. -/
def skip (flags : Flags) (text : List Char) : List Char :=
  if flags.spaced then dropSpacing false text else text

/-- The characters at the front that `keep` accepts, and what follows. -/
def takeWhile (flags : Flags) (keep : Char → Bool) (text : List Char) : List Char × List Char :=
  if flags.spaced then takeSpaced keep false text else (text.takeWhile keep, text.dropWhile keep)

/-- The character that decides whether a hyphen before the text makes a range. -/
def peek? (flags : Flags) (text : List Char) : Option Char :=
  if flags.spaced then peekSpaced? false text else text.head?

end Flags

end PackageOrder.Pattern
