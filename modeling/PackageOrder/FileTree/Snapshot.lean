/-
PackageOrder.FileTree.Snapshot — files as JSON: an object with the text of each
file under its path.

Changes are written in the same form, with null for a file that is gone.
-/
import PackageOrder.FileTree.Changes
import PackageOrder.FileTree.Update
import PackageOrder.Json.Reader

namespace PackageOrder.FileTree

open PackageOrder.Json (Members Value)

/-- The tree with some files written one after the other, unless the value of
one is no text or it cannot be written. -/
def addFiles? (tree : FileTree) : Members → Option FileTree
  | [] => some tree
  | (path, .string text) :: rest =>
    match tree.install path text.toUTF8 with
    | .ok tree => addFiles? tree rest
    | .error _ => none
  | _ :: _ => none

/-- The tree of a snapshot. -/
def ofSnapshot? (text : String) : Option FileTree :=
  ((Json.parse? text).bind Value.object?).bind (addFiles? {})

/-- A changed file as a member of a snapshot. -/
def changeMember : Change → String × Value
  | (path, some bytes) => (path, ((String.fromUTF8? bytes).map Value.string).getD .null)
  | (path, none) => (path, .null)

/-- The changes between two trees as a snapshot. -/
def changesSnapshot (before now : FileTree) : Value :=
  .object ((changes before now).map changeMember)

end PackageOrder.FileTree
