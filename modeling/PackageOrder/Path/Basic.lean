/-
PackageOrder.Path.Basic — paths as texts, and the functions that name a
path's folder, its last part and the way from one path to another.

A path is a text of segments between slashes; a backslash counts as a slash.
It is anchored when it starts with a slash or with a drive (one ASCII
character and a colon). The work is done on lists of characters, where each
function has equations; the `String` functions below are these at both ends
of `String.toList` and `String.ofList`.

* `clean` is the normal form: no empty and no `.` segment, and `..` only at
  the front of a path that is not anchored.
* `relative` climbs out of what the two paths do not share and descends.
* `segments` is the view that containment is stated in.
-/
import PackageOrder.Text.Split

namespace PackageOrder.Path

open PackageOrder.Text

/-- What stands between two slashes. -/
abbrev Segment := List Char

/-- The segment that names the folder above. -/
def parentSegment : Segment := ['.', '.']

/-! ## Normal form -/

/-- A path written with forward slashes only. -/
def forwardChars (path : List Char) : List Char :=
  replaceChar '\\' '/' path

/-- The drive letter of a path and what follows the colon. -/
def driveChars? : List Char → Option (Char × List Char)
  | letter :: ':' :: rest => if letter.toNat < 128 then some (letter, rest) else none
  | _ => none

/-- The non-empty segments of a path. -/
def segments (path : List Char) : List Segment :=
  (splitOn '/' path).filter (· ≠ [])

/-- Put one segment on a stack of segments, the innermost at its head. On an
anchored path `..` at the top level goes nowhere; else it is kept. -/
def pushSegment (anchored : Bool) (stack : List Segment) (segment : Segment) : List Segment :=
  if segment = [] ∨ segment = ['.'] then stack
  else if segment = parentSegment then
    match stack with
    | [] => if anchored then [] else [parentSegment]
    | top :: below =>
      if top = parentSegment then (if anchored then top :: below else parentSegment :: top :: below)
      else below
  else segment :: stack

/-- The segments that are left when `.` and `..` have been carried out. -/
def collapse (anchored : Bool) (path : List Segment) : List Segment :=
  (path.foldl (pushSegment anchored) []).reverse

/-- The normal form of a path. -/
def cleanChars (path : List Char) : List Char :=
  let path := forwardChars path
  match driveChars? path with
  | some (letter, rest) =>
    letter :: ':' :: '/' :: joinWith '/' (collapse true (splitOn '/' rest))
  | none =>
    if path.head? = some '/' then
      '/' :: joinWith '/' (collapse true (splitOn '/' path))
    else
      match collapse false (splitOn '/' path) with
      | [] => ['.']
      | kept => joinWith '/' kept

/-! ## From one path to another -/

/-- One `..` for each segment left of the first path, then the rest of the second. -/
def relativeSegments : List Segment → List Segment → List Segment
  | [], target => target
  | source, [] => List.replicate source.length parentSegment
  | a :: source, b :: target =>
    if a = b then relativeSegments source target
    else List.replicate (source.length + 1) parentSegment ++ b :: target

/-- The way from one path to another, both in normal form. -/
def relativeChars (source target : List Char) : List Char :=
  joinWith '/' (relativeSegments (segments source) (segments target))

/-! ## Folder and name -/

/-- Cut a path at its last slash. -/
def cutLast? (path : List Char) : Option (List Char × List Char) :=
  (cutAt? '/' path.reverse).map fun (after, before) => (before.reverse, after.reverse)

/-- What follows the last slash. -/
def lastChars (path : List Char) : List Char :=
  match cutLast? path with
  | some (_, after) => after
  | none => path

/-- The last part of a path as it is written that names something; there is none
where the path ends in a step to the parent. -/
def fileNameChars? (path : List Char) : Option (List Char) :=
  let parts := (splitOn '/' path).filter fun part => part ≠ [] ∧ part ≠ ['.']
  parts.getLast?.filter (· ≠ ['.', '.'])

/-- A name without the given ending, unless the ending is the whole name. -/
def withoutEnding (ending name : List Char) : List Char :=
  if name = ending then name else (dropTail? ending name).getD name

/-- The folder of a path. -/
def dirnameChars (path : List Char) : List Char :=
  match cutLast? (cleanChars path) with
  | none => ['.']
  | some ([], _) => ['/']
  | some (before, _) => before

/-- The last segment of a path, without the given ending. -/
def basenameChars (path : List Char) (ending : Option (List Char)) : List Char :=
  let name := lastChars (cleanChars path)
  match ending with
  | none => name
  | some ending => withoutEnding ending name

/-- The parts after a base, with a slash before each. -/
def appendParts (base : List Char) (parts : List (List Char)) : List Char :=
  parts.foldl (fun path part => path ++ '/' :: part) base

/-- The parts carried out from left to right: an anchored part starts anew and
an empty one goes nowhere. -/
def resolveChars (workingDir : List Char) (parts : List (List Char)) : List Char :=
  cleanChars <| parts.foldl (fun path part =>
    let part := forwardChars part
    if part.head? = some '/' then part
    else if part = [] then path
    else path ++ '/' :: part) workingDir

/-! ## On strings -/

/-- A path written with forward slashes only. -/
def forwardSlashes (path : String) : String :=
  .ofList (forwardChars path.toList)

/-- The normal form of a path. -/
def clean (path : String) : String :=
  .ofList (cleanChars path.toList)

/-- The way from the folder `source` to `target`, both in normal form. -/
def relativeBetween (source target : String) : String :=
  .ofList (relativeChars source.toList target.toList)

/-- The folder of a path. -/
def dirname (path : String) : String :=
  .ofList (dirnameChars path.toList)

/-- The last segment of a path, without the given ending. -/
def basename (path : String) (ending : Option String) : String :=
  .ofList (basenameChars path.toList (ending.map String.toList))

/-- The parts below a base. -/
def join (base : String) (parts : List String) : String :=
  .ofList (cleanChars (appendParts base.toList (parts.map String.toList)))

/-- The way from the folder `source` to `target`. -/
def relative (source target : String) : String :=
  .ofList (relativeChars (cleanChars source.toList) (cleanChars target.toList))

/-- The path that the parts lead to from a working directory. -/
def resolve (workingDir : String) (parts : List String) : String :=
  .ofList (resolveChars workingDir.toList (parts.map String.toList))

/-- Whether a path names the root. -/
def isRoot (path : String) : Bool :=
  clean path == "/"

/-- Whether a path starts at the root. -/
def isRooted (path : String) : Bool :=
  path.toList.head? == some '/'

/-- Whether a path names a directory of installed packages. -/
def isPackageFolder (path : String) : Bool :=
  lastChars path.toList == "node_modules".toList

/-! ## Specifiers and file names -/

/-- Whether an import names a file beside the importing one, or a rooted path. -/
def isRelativeSpecifier (specifier : String) : Bool :=
  specifier == "." || specifier == ".."
    || (dropHead? ['.', '/'] specifier.toList).isSome
    || (dropHead? ['.', '.', '/'] specifier.toList).isSome
    || specifier.toList.head? == some '/'

/-- A file name without a last `.js`. -/
def withoutScriptEnding (path : String) : String :=
  .ofList ((dropTail? ".js".toList path.toList).getD path.toList)

/-- Whether `c` is the letter `lower` in some case; the long s is an `s`. -/
def isLetterOf (lower c : Char) : Bool :=
  c.toLower == lower || (lower == 's' && c.toNat == 0x17F)

/-- A file name without its ending if that is the given one in some case. -/
def withoutEndingAnyCase? (ending path : List Char) : Option (List Char) :=
  let cut := path.length - ending.length
  let tail := path.drop cut
  if tail.length == ending.length && (ending.zip tail).all fun (e, c) =>
      if isAscii e then isLetterOf e c else e == c then some (path.take cut) else none
where
  isAscii (c : Char) : Bool := 'a' ≤ c && c ≤ 'z'

/-- A file name without a last `.d.ts`, `.ts` or `.js` in upper or lower case. -/
def withoutSourceEnding (path : String) : String :=
  let chars := path.toList
  .ofList <|
    (withoutEndingAnyCase? ".d.ts".toList chars).getD <|
      (withoutEndingAnyCase? ".ts".toList chars).getD <|
        (withoutEndingAnyCase? ".js".toList chars).getD chars

end PackageOrder.Path
