/-
PackageOrder.FileTree.Update — changing a file system.

Changes name their folders exactly and never pass through a link; they either
fail and leave the tree as it was, or yield the changed tree. Only `move` has
two steps that can succeed and fail one after the other, so it yields a tree
in either case.
-/
import PackageOrder.FileTree.Lookup

namespace PackageOrder.FileTree

/-- Change the folder that the names lead to. -/
def changeFolder (change : Folder → Except FileError Folder) :
    List String → Folder → Except FileError Folder
  | [], folder => change folder
  | name :: names, folder =>
    match folder.lookup name with
    | some (.folder entries) => do
      let entries ← changeFolder change names entries
      .ok (folder.insert name (.folder entries))
    | some _ => .error (.notAFolder name)
    | none => .error (.folderMissing name)

/-- Change the folder that holds the last name of a path. -/
def changeParent (tree : FileTree) (path : String)
    (change : Folder → String → Except FileError Folder) : Except FileError FileTree :=
  match (namesOf path).reverse with
  | [] => .error .rootChanged
  | name :: names => do
    let root ← changeFolder (change · name) names.reverse tree.root
    .ok { tree with root := root }

/-- Write a file. A link in its place is replaced; an `exclusive` write wants
the name free. -/
def write (tree : FileTree) (path : String) (contents : ByteArray) (exclusive : Bool) :
    Except FileError FileTree :=
  tree.changeParent path fun folder name =>
    match folder.lookup name with
    | some (.folder _) => .error (if exclusive then .nameTaken else .isFolder)
    | some _ => if exclusive then .error .nameTaken else .ok (folder.insert name (.file contents))
    | none => .ok (folder.insert name (.file contents))

/-- Write a text in UTF-8. -/
def writeText (tree : FileTree) (path text : String) : Except FileError FileTree :=
  tree.write path text.toUTF8 false

/-- Remove a file or a link. -/
def remove (tree : FileTree) (path : String) : Except FileError FileTree :=
  tree.changeParent path fun folder name =>
    match folder.lookup name with
    | some (.folder _) => .error .isFolder
    | some _ => .ok (folder.erase name)
    | none => .error .nothingToRemove

/-- Put a link in a folder, in the place of whatever has its name. -/
def symlink (tree : FileTree) (target path : String) : Except FileError FileTree :=
  tree.changeParent path fun folder name => .ok (folder.insert name (.link target))

/-- Remove whatever has a name, if anything does. -/
def removeDeep (tree : FileTree) (path : String) : Except FileError FileTree :=
  tree.changeParent path fun folder name => .ok (folder.erase name)

/-- Make the folders that the names lead to. -/
def makeFolders : List String → Folder → Except FileError Folder
  | [], folder => .ok folder
  | name :: names, folder =>
    match folder.lookup name with
    | some (.folder entries) => do
      let entries ← makeFolders names entries
      .ok (folder.insert name (.folder entries))
    | some _ => .error .folderBlocked
    | none => do
      let entries ← makeFolders names []
      .ok (folder.insert name (.folder entries))

/-- Make a folder and those on the way to it. -/
def ensureFolder (tree : FileTree) (path : String) : Except FileError FileTree := do
  let root ← makeFolders (namesOf path) tree.root
  .ok { tree with root := root }

/-- Write what is read at one path to another, then remove the first. -/
def move (tree : FileTree) (source target : String) : FileTree × Except FileError Unit :=
  match tree.readBytes source with
  | .error e => (tree, .error e)
  | .ok contents =>
    match tree.write target contents false with
    | .error e => (tree, .error e)
    | .ok written =>
      match written.remove source with
      | .error e => (written, .error e)
      | .ok moved => (moved, .ok ())

/-- Write a file and make the folders on the way to it. The path starts from
the working directory. -/
def install (tree : FileTree) (path : String) (contents : ByteArray) :
    Except FileError FileTree := do
  let path := tree.resolve [path]
  let tree ← tree.ensureFolder (Path.dirname path)
  tree.write path contents false

end PackageOrder.FileTree
