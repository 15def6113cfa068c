/-
PackageOrder.Path.Host — the path functions of the machine's own file system.

They differ from those of `PackageOrder.Path.Basic` where drives come in: the
folder of a path just below a drive keeps its slash, a drive anchors a part of
`resolve`, and paths on two drives have no way from one to the other.
`resolve` reads its parts from the last one back and stops at the first that
is anchored.
-/
import PackageOrder.Path.Basic

namespace PackageOrder.Path.Host

open PackageOrder.Text

/-- Whether a path starts with a slash or with a drive. -/
def isRootedChars (path : List Char) : Bool :=
  let path := forwardChars path
  path.head? == some '/' || (driveChars? path).isSome

/-- The folder of a path; the folder of `C:/a` is `C:/`. -/
def dirnameChars (path : List Char) : List Char :=
  match cutLast? (cleanChars path) with
  | none => ['.']
  | some ([], _) => ['/']
  | some (before, _) =>
    if before.length = 2 ∧ (driveChars? before).isSome then before ++ ['/'] else before

/-- The parts before an anchored one do not count. The parts come last first,
and `suffix` is what they precede. -/
def resolveBack (workingDir : List Char) : List (List Char) → List Char → List Char
  | [], path => cleanChars (workingDir ++ '/' :: path)
  | part :: parts, path =>
    let part := forwardChars part
    if part = [] then resolveBack workingDir parts path
    else
      let path := if path = [] then part else part ++ '/' :: path
      if isRootedChars part then cleanChars path else resolveBack workingDir parts path

/-- The drive of a path in lower case. -/
def driveLetter? (path : List Char) : Option Char :=
  (driveChars? path).map fun (letter, _) => letter.toLower

/-- The folder of a path. -/
def dirname (path : String) : String :=
  .ofList (dirnameChars path.toList)

/-- The parts below a base. -/
def join (base : String) (parts : List String) : String :=
  .ofList (cleanChars (appendParts (forwardChars base.toList)
    (parts.map (forwardChars ·.toList))))

/-- The path that the parts lead to from a working directory. -/
def resolve (workingDir : String) (parts : List String) : String :=
  .ofList (resolveBack (cleanChars workingDir.toList) (parts.map String.toList).reverse [])

/-- The way from one path to another, or the second path where they are on
two drives. -/
def relative (source target : String) : String :=
  let source := cleanChars source.toList
  let target := cleanChars target.toList
  .ofList <|
    if driveLetter? source = driveLetter? target then relativeChars source target else target

/-- The last segment of a path, without the given ending. -/
def basename (path : String) (ending : Option String) : String :=
  .ofList (basenameChars path.toList (ending.map String.toList))

/-- Whether a path is its own folder. -/
def isRoot (path : String) : Bool :=
  dirnameChars path.toList == cleanChars path.toList

/-- Whether a path starts with a slash or with a drive. -/
def isRooted (path : String) : Bool :=
  isRootedChars path.toList

end PackageOrder.Path.Host
