/-
PackageOrder.Version.Basic — version numbers of three parts with optional
prerelease and build tags, and the order of prereleases.

A tag is a list of dot-separated identifiers of ASCII letters, digits and
hyphens. In a prerelease tag an identifier of digits only has no leading zero
and comes before every other; a version with a prerelease tag comes before the
same version without. Parts are numbers below `2^64`.
-/
import PackageOrder.Text.Blank

namespace PackageOrder

/-- The identifiers of a tag; a version without the tag has none. -/
abbrev Tag := List (List Char)

/-- A version. The build tag has no part in comparisons and is not kept. -/
structure Version where
  major : Nat
  minor : Nat
  patch : Nat
  prerelease : Tag
deriving Repr, DecidableEq

namespace Version

open PackageOrder.Text

/-! ## Reading -/

/-- An ASCII digit. -/
def isDigit (c : Char) : Bool := '0' ≤ c && c ≤ '9'

/-- A character of a tag. -/
def isTagChar (c : Char) : Bool :=
  isDigit c || ('a' ≤ c && c ≤ 'z') || ('A' ≤ c && c ≤ 'Z') || c == '-'

/-- The number that a list of digits writes. -/
def ofDigits (digits : List Char) : Nat :=
  digits.foldl (fun n c => 10 * n + (c.toNat - '0'.toNat)) 0

/-- A part of a version: digits without a leading zero. -/
def readPart? (text : List Char) : Option (Nat × List Char) :=
  let digits := text.takeWhile isDigit
  let rest := text.dropWhile isDigit
  match digits with
  | [] => none
  | '0' :: _ :: _ => none
  | _ => if ofDigits digits < Nat.pow 2 64 then some (ofDigits digits, rest) else none

/-- Whether an identifier may stand in a prerelease tag. -/
def isPrereleaseIdentifier (identifier : List Char) : Bool :=
  identifier ≠ []
    && !(identifier.all isDigit && identifier.length > 1 && identifier.head? == some '0')

/-- The identifiers of a tag, each one accepted by `valid`. -/
def readTag? (valid : List Char → Bool) (text : List Char) : Option (Tag × List Char) :=
  let inTag (c : Char) : Bool := isTagChar c || c == '.'
  let identifiers := splitOn '.' (text.takeWhile inTag)
  if identifiers.all valid then some (identifiers, text.dropWhile inTag) else none

/-- A prerelease tag after its hyphen, if there is one. -/
def readPrerelease? : List Char → Option (Tag × List Char)
  | '-' :: rest => readTag? isPrereleaseIdentifier rest
  | rest => some ([], rest)

/-- What follows a build tag, if there is one. -/
def skipBuild? : List Char → Option (List Char)
  | '+' :: rest => (readTag? (· ≠ []) rest).map (·.2)
  | rest => some rest

/-- The text after a dot. -/
def afterDot? : List Char → Option (List Char)
  | '.' :: rest => some rest
  | _ => none

/-- The version that a text writes. -/
def parse? (text : List Char) : Option Version := do
  let (major, rest) ← readPart? text
  let (minor, rest) ← readPart? (← afterDot? rest)
  let (patch, rest) ← readPart? (← afterDot? rest)
  let (prerelease, rest) ← readPrerelease? rest
  let rest ← skipBuild? rest
  if rest = [] then some ⟨major, minor, patch, prerelease⟩ else none

/-! ## Order of prereleases -/

/-- Texts in the order of their characters. -/
def compareText : List Char → List Char → Ordering
  | [], [] => .eq
  | [], _ :: _ => .lt
  | _ :: _, [] => .gt
  | a :: as, b :: bs => (compare a.toNat b.toNat).then (compareText as bs)

/-- Two identifiers: digits by number and before all others. -/
def compareIdentifier (a b : List Char) : Ordering :=
  match a.all isDigit, b.all isDigit with
  | true, false => .lt
  | false, true => .gt
  | true, true => (compare a.length b.length).then (compareText a b)
  | false, false => compareText a b

/-- Two lists of identifiers: by the first that differ, and a shorter list first. -/
def compareIdentifiers : Tag → Tag → Ordering
  | [], [] => .eq
  | [], _ :: _ => .lt
  | _ :: _, [] => .gt
  | a :: as, b :: bs => (compareIdentifier a b).then (compareIdentifiers as bs)

/-- Two prerelease tags; a release comes after all of its prereleases. -/
def comparePrerelease (a b : Tag) : Ordering :=
  match a, b with
  | [], [] => .eq
  | [], _ :: _ => .gt
  | _ :: _, [] => .lt
  | a, b => compareIdentifiers a b

end Version

end PackageOrder
