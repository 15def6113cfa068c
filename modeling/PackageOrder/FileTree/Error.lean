/-
PackageOrder.FileTree.Error — why a file system operation fails.
-/

namespace PackageOrder

/-- The causes of failed file system operations. -/
inductive FileError where
  /-- The root has no name that could be given or taken. -/
  | rootChanged
  /-- A name on the way is not a folder. -/
  | notAFolder (name : String)
  /-- A name on the way does not exist. -/
  | folderMissing (name : String)
  /-- A folder cannot be made where something else is. -/
  | folderBlocked
  /-- The name is taken and must not be. -/
  | nameTaken
  /-- A folder is where a file should be. -/
  | isFolder
  /-- There is nothing to remove. -/
  | nothingToRemove
  /-- There is no file to read. -/
  | fileMissing (path : String)
  /-- There is no folder to list. -/
  | listingMissing (path : String)
  /-- Only folders can be listed. -/
  | listingOfFile
  /-- The path leads nowhere. -/
  | pathMissing
  /-- The bytes are no UTF-8 text. -/
  | notText
deriving Repr, DecidableEq

/-- The classes of failures. -/
inductive FileErrorClass where
  | notFound
  | alreadyExists
  | invalidData
  | other
deriving Repr, DecidableEq

namespace FileError

/-- The class of a failure. -/
def errorClass : FileError → FileErrorClass
  | folderMissing _ | nothingToRemove | fileMissing _ | listingMissing _ | pathMissing => .notFound
  | nameTaken => .alreadyExists
  | notText => .invalidData
  | rootChanged | notAFolder _ | folderBlocked | isFolder | listingOfFile => .other

/-- The text of a failure; bytes that are no text are reported without one. -/
def message? : FileError → Option String
  | rootChanged => some "Cannot modify the root"
  | notAFolder name => some (name ++ " is not a directory")
  | folderMissing name => some ("Directory " ++ name ++ " not found")
  | folderBlocked => some "Path component is not a directory"
  | nameTaken => some "File exists"
  | isFolder => some "Is a directory"
  | nothingToRemove => some "File not found"
  | fileMissing path => some ("File \"" ++ path ++ "\" does not exist.")
  | listingMissing path => some ("Directory \"" ++ path ++ "\" does not exist.")
  | listingOfFile => some "Not a directory"
  | pathMissing => some "Path not found"
  | notText => none

end FileError

end PackageOrder
