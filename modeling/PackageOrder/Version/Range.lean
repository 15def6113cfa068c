/-
PackageOrder.Version.Range — ranges of versions.

A range is a list of alternatives between `||`; an alternative is a list of
comparators between blanks, all of which must hold. A version with a
prerelease tag satisfies an alternative only if some comparator names the same
three parts with a prerelease tag of its own. An alternative that cannot be
read is satisfied by nothing.
-/
import PackageOrder.Version.Basic

namespace PackageOrder.Version

open PackageOrder.Text

/-- How a comparator compares. -/
inductive Operator where
  | exactly
  | above
  | atLeast
  | below
  | atMost
  /-- The same minor version, from the patch up. -/
  | tilde
  /-- The same leftmost part that is not zero, from the version up. -/
  | caret
deriving Repr, DecidableEq

/-- A comparator; parts that are left out or written as a wildcard are free. -/
structure Comparator where
  operator : Operator
  major : Nat
  minor : Option Nat
  patch : Option Nat
  prerelease : Tag
deriving Repr, DecidableEq

/-! ## Reading -/

/-- The operator at the front of a text, if there is one. -/
def readOperator : List Char → Option Operator × List Char
  | '=' :: rest => (some .exactly, rest)
  | '>' :: '=' :: rest => (some .atLeast, rest)
  | '>' :: rest => (some .above, rest)
  | '<' :: '=' :: rest => (some .atMost, rest)
  | '<' :: rest => (some .below, rest)
  | '~' :: rest => (some .tilde, rest)
  | '^' :: rest => (some .caret, rest)
  | rest => (none, rest)

/-- What follows a wildcard. -/
def afterWildcard? : List Char → Option (List Char)
  | '*' :: rest => some rest
  | 'x' :: rest => some rest
  | 'X' :: rest => some rest
  | _ => none

/-- The text without the spaces at its front. -/
def skipSpaces (text : List Char) : List Char :=
  text.dropWhile (· == ' ')

/-- A part after a dot: a number, a wildcard (`none`), or nothing at all. -/
inductive Part where
  | absent
  | wildcard
  | number (value : Nat)
deriving DecidableEq

/-- The number of a part. -/
def Part.number? : Part → Option Nat
  | .number n => some n
  | _ => none

/-- A part with the dot before it. -/
def readDotPart? (text : List Char) : Option (Part × List Char) :=
  match afterDot? text with
  | none => some (.absent, text)
  | some rest =>
    match afterWildcard? rest with
    | some rest => some (.wildcard, rest)
    | none => (readPart? rest).map fun (n, rest) => (.number n, rest)

/-- A comparator. Without an operator it is a caret, or exact where a part is
a wildcard; no number follows a wildcard. -/
def readComparator? (text : List Char) : Option (Comparator × List Char) := do
  let (operator, rest) := readOperator text
  let (major, rest) ← readPart? (skipSpaces rest)
  let (minor, rest) ← readDotPart? rest
  let (patch, rest) ← readDotPart? rest
  if minor = .wildcard ∧ patch.number?.isSome then none
  else
    let isFull := patch.number?.isSome
    let (prerelease, rest) ← if isFull then readPrerelease? rest else some ([], rest)
    let rest ← if isFull then skipBuild? rest else some rest
    let isWild := minor = .wildcard ∨ patch = .wildcard
    let operator := operator.getD (if isWild then .exactly else .caret)
    some (⟨operator, major, minor.number?, patch.number?, prerelease⟩, skipSpaces rest)

/-- How many comparators an alternative may have. -/
def comparatorLimit : Nat := 32

/-- At most `count` comparators with commas between them. -/
def readComparators? : Nat → List Char → Option (List Comparator)
  | 0, _ => none
  | count + 1, text => do
    let (comparator, rest) ← readComparator? text
    match rest with
    | [] => some [comparator]
    | ',' :: rest => (readComparators? count (skipSpaces rest)).map (comparator :: ·)
    | _ => none

/-- The comparators of an alternative; a lone wildcard has none. -/
def readAlternative? (text : List Char) : Option (List Comparator) :=
  let text := skipSpaces text
  match afterWildcard? text with
  | some rest => if skipSpaces rest = [] then some [] else none
  | none => readComparators? comparatorLimit text

/-! ## Matching -/

namespace Comparator

/-- The parts that are given agree. -/
def isExact (c : Comparator) (v : Version) : Bool :=
  v.major == c.major && c.minor.all (v.minor == ·) && c.patch.all (v.patch == ·)
    && v.prerelease == c.prerelease

/-- The version comes after the comparator's; parts left out never come first. -/
def isAbove (c : Comparator) (v : Version) : Bool :=
  if v.major ≠ c.major then c.major < v.major
  else
    match c.minor with
    | none => false
    | some minor =>
      if v.minor ≠ minor then minor < v.minor
      else
        match c.patch with
        | none => false
        | some patch =>
          if v.patch ≠ patch then patch < v.patch
          else comparePrerelease v.prerelease c.prerelease == .gt

/-- The version comes before the comparator's; parts left out never come last. -/
def isBelow (c : Comparator) (v : Version) : Bool :=
  if v.major ≠ c.major then v.major < c.major
  else
    match c.minor with
    | none => false
    | some minor =>
      if v.minor ≠ minor then v.minor < minor
      else
        match c.patch with
        | none => false
        | some patch =>
          if v.patch ≠ patch then v.patch < patch
          else comparePrerelease v.prerelease c.prerelease == .lt

/-- The prerelease of the version does not come before the comparator's. -/
def isPrereleaseReached (c : Comparator) (v : Version) : Bool :=
  comparePrerelease v.prerelease c.prerelease != .lt

/-- The given major and minor parts agree and the patch is reached. -/
def isWithinTilde (c : Comparator) (v : Version) : Bool :=
  if v.major ≠ c.major ∨ c.minor.any (v.minor ≠ ·) then false
  else
    match c.patch with
    | some patch => if v.patch ≠ patch then patch < v.patch else c.isPrereleaseReached v
    | none => c.isPrereleaseReached v

/-- The leftmost part that is not zero agrees and the version is reached. -/
def isWithinCaret (c : Comparator) (v : Version) : Bool :=
  if v.major ≠ c.major then false
  else
    match c.minor, c.patch with
    | none, _ => true
    | some minor, none => if 0 < c.major then minor ≤ v.minor else v.minor == minor
    | some minor, some patch =>
      if 0 < c.major then
        if v.minor ≠ minor then minor < v.minor
        else if v.patch ≠ patch then patch < v.patch
        else c.isPrereleaseReached v
      else if 0 < minor then
        if v.minor ≠ minor then false
        else if v.patch ≠ patch then patch < v.patch
        else c.isPrereleaseReached v
      else v.minor == minor && v.patch == patch && c.isPrereleaseReached v

/-- Whether a version satisfies a comparator. -/
def holds (c : Comparator) (v : Version) : Bool :=
  match c.operator with
  | .exactly => c.isExact v
  | .above => c.isAbove v
  | .atLeast => c.isExact v || c.isAbove v
  | .below => c.isBelow v
  | .atMost => c.isExact v || c.isBelow v
  | .tilde => c.isWithinTilde v
  | .caret => c.isWithinCaret v

/-- Whether a comparator lets in prereleases of a version. -/
def admitsPrereleaseOf (c : Comparator) (v : Version) : Bool :=
  c.major == v.major && c.minor == some v.minor && c.patch == some v.patch && c.prerelease ≠ []

end Comparator

/-- Whether a version satisfies all comparators of an alternative. -/
def holdsAll (comparators : List Comparator) (v : Version) : Bool :=
  comparators.all (·.holds v)
    && (v.prerelease == [] || comparators.any (·.admitsPrereleaseOf v))

/-- Whether a version satisfies an alternative; one that is empty, `*` or `x`
is satisfied by every version. -/
def satisfiesAlternative (v : Version) (alternative : List Char) : Bool :=
  let alternative := trim alternative
  if alternative = [] ∨ alternative = ['*'] ∨ alternative = ['x'] then true
  else
    let comparators := (words alternative).intersperse [',', ' ']
    match readAlternative? comparators.flatten with
    | some comparators => holdsAll comparators v
    | none => false

/-- Whether the version that a text writes is in the range that a text writes;
a text that writes no version is in no range. -/
def satisfies (version range : String) : Bool :=
  match parse? (trim version.toList) with
  | none => false
  | some v => (splitOnPair '|' '|' range.toList).any (satisfiesAlternative v)

end PackageOrder.Version
