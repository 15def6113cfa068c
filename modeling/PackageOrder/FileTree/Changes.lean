/-
PackageOrder.FileTree.Changes — the regular files of a tree, and which of them
differ between two trees.
-/
import PackageOrder.FileTree.Basic

namespace PackageOrder

mutual

/-- The files at or below an entity, with their paths. -/
def Entity.files (path : String) : Entity → List (String × ByteArray)
  | .folder entries => filesOf path entries
  | .file contents => [(path, contents)]
  | .link _ => []

/-- The files below a folder, with their paths. -/
def filesOf (path : String) : List (String × Entity) → List (String × ByteArray)
  | [] => []
  | (name, entity) :: rest => entity.files (path ++ "/" ++ name) ++ filesOf path rest

end

namespace FileTree

/-- The files of a tree by increasing path. -/
def files (tree : FileTree) : List (String × ByteArray) :=
  (filesOf "" tree.root).mergeSort fun a b => a.1 ≤ b.1

/-- A change to a file: its path, with the bytes it has now unless it is gone. -/
abbrev Change := String × Option ByteArray

/-- Walk two lists of files by increasing path, at most `steps` steps. -/
def changesWithin : Nat → List (String × ByteArray) → List (String × ByteArray) → List Change
  | 0, _, _ => []
  | _ + 1, [], now => now.map fun (path, bytes) => (path, some bytes)
  | _ + 1, before, [] => before.map fun (path, _) => (path, none)
  | steps + 1, (p, old) :: before, (q, new) :: now =>
    if p = q then
      if old = new then changesWithin steps before now
      else (q, some new) :: changesWithin steps before now
    else if p < q then (p, none) :: changesWithin steps before ((q, new) :: now)
    else (q, some new) :: changesWithin steps ((p, old) :: before) now

/-- The files that are new, different or gone, by increasing path. -/
def changes (before now : FileTree) : List Change :=
  let old := before.files
  let new := now.files
  changesWithin (old.length + new.length + 1) old new

end FileTree

end PackageOrder
