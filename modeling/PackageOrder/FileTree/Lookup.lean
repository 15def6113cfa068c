/-
PackageOrder.FileTree.Lookup — finding what a path leads to, and reading it.

One pass (`walk`) goes down from the root name by name. At a symbolic link it
stops and asks for another pass with the link's target in front of the rest of
the path; the last name of a path is followed only on request. After forty
passes the path leads nowhere, so link cycles end.
-/
import PackageOrder.FileTree.Basic
import PackageOrder.FileTree.Error
import PackageOrder.Text.Split

namespace PackageOrder.FileTree

/-- The outcome of one pass. -/
inductive Pass where
  /-- What was found, with the path that the pass went. -/
  | done (found : Option (Entity × String))
  /-- A link: go on with another path. -/
  | again (path : String)

/-- One pass from a folder, which the names so far have led to by `way`. -/
def walk (caseSensitive followLast : Bool) : Folder → String → List String → Pass
  | folder, way, [] => .done (some (.folder folder, if way = "" then "/" else way))
  | folder, way, name :: names =>
    let way := way ++ "/" ++ name
    match folder.child? caseSensitive name with
    | none => .done none
    | some (.folder entries) => walk caseSensitive followLast entries way names
    | some (.file contents) =>
      .done (if names = [] then some (.file contents, way) else none)
    | some (.link target) =>
      if names = [] then
        if followLast then .again target else .done (some (.link target, way))
      else .again (Path.join target [Text.intercalate "/" names])

/-- How many passes a lookup makes. -/
def passLimit : Nat := 40

/-- The most names that a path which leads somewhere can have: a pass uses up
no more of them than folders are nested. -/
def longestWay (tree : FileTree) : Nat := passLimit * depthOf tree.root

/-- At most `passes` passes. -/
def lookupWithin (tree : FileTree) (followLast : Bool) : Nat → String → Option (Entity × String)
  | 0, _ => none
  | passes + 1, path =>
    match walk tree.caseSensitive followLast tree.root "" (namesOf path) with
    | .done found => found
    | .again next => lookupWithin tree followLast passes next

/-- What a path leads to, with the path of the pass that found it. -/
def lookup (tree : FileTree) (path : String) (followLast : Bool) : Option (Entity × String) :=
  lookupWithin tree followLast passLimit path

/-! ## Reading -/

/-- Whether a path leads somewhere. -/
def exists? (tree : FileTree) (path : String) : Bool :=
  (tree.lookup path true).isSome

/-- The bytes of a file. -/
def readBytes (tree : FileTree) (path : String) : Except FileError ByteArray :=
  match tree.lookup path true with
  | some (.file contents, _) => .ok contents
  | some _ => .error .isFolder
  | none => .error (.fileMissing path)

/-- The text of a file. -/
def readText (tree : FileTree) (path : String) : Except FileError String := do
  let contents ← tree.readBytes path
  match String.fromUTF8? contents with
  | some text => .ok text
  | none => .error .notText

/-- The names in a folder, in order. -/
def list (tree : FileTree) (path : String) : Except FileError (List String) :=
  match tree.lookup path true with
  | some (.folder entries, _) => .ok (Folder.names entries)
  | some _ => .error .listingOfFile
  | none => .error (.listingMissing path)

/-- The kind of what a path leads to, links followed. -/
def stat (tree : FileTree) (path : String) : Except FileError EntityKind :=
  match tree.lookup path true with
  | some (.file _, _) => .ok .file
  | some _ => .ok .folder
  | none => .error .pathMissing

/-- The kind of what a path names, a link as its last name not followed. -/
def linkStat (tree : FileTree) (path : String) : Except FileError EntityKind :=
  match tree.lookup path false with
  | some (entity, _) => .ok entity.kind
  | none => .error .pathMissing

/-- A path with every link resolved. -/
def realPath (tree : FileTree) (path : String) : Except FileError String :=
  match tree.lookup path true with
  | some (_, way) => .ok way
  | none => .error .pathMissing

/-- Whether a path leads to a file. -/
def isFile (tree : FileTree) (path : String) : Bool :=
  match tree.stat path with
  | .ok .file => true
  | _ => false

/-- Whether a path leads to a folder. -/
def isFolder (tree : FileTree) (path : String) : Bool :=
  match tree.stat path with
  | .ok .folder => true
  | _ => false

end PackageOrder.FileTree
