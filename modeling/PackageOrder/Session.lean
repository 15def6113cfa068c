/-
PackageOrder.Session — what a run reads and changes, and running with it.

A step of a run may change the file system, write messages, compile tasks and
remember package configurations; it yields a value or fails, and what it
changed before failing stays changed.
-/
import PackageOrder.Config.File
import PackageOrder.Failure
import PackageOrder.FileTree.Update
import PackageOrder.Log
import PackageOrder.Pattern.Reader
import PackageOrder.Task.Basic

namespace PackageOrder

/-- What is configured for a package, ready for use. -/
structure PackageConfig where
  packagePath : String
  range : String
  /-- The entry-points by their full paths. -/
  entryPoints : List (String × EntryPointConfig)
  /-- The patterns of deep imports that need no attention, with their texts. -/
  matchers : List (String × Pattern)

/-- What a run reads and changes. -/
structure Session where
  tree : FileTree
  /-- The package configurations met so far. -/
  configs : List (String × PackageConfig) := []
  log : Log := []
  /-- The tasks that were compiled, in order. -/
  compiled : List Task := []

/-- A step of a run. -/
abbrev Run := ExceptT Failure (StateM Session)

namespace Run

/-- The file system. -/
def tree : Run FileTree := do
  return (← getThe Session).tree

/-- Writes a message. -/
def say (level : LogLevel) (message : String) : Run Unit :=
  modifyThe Session fun session => { session with log := session.log ++ [(level, message)] }

/-- Reads from the file system, where a refusal ends the run. -/
def readWith {α : Type} (path : String) (operation : FileTree → Except FileError α) : Run α := do
  match operation (← tree) with
  | .ok value => return value
  | .error cause => throw (.inaccessible path cause)

/-- Changes the file system, where a refusal ends the run. -/
def changeWith (path : String) (operation : FileTree → Except FileError FileTree) : Run Unit := do
  let changed ← readWith path operation
  modifyThe Session fun session => { session with tree := changed }

end Run

end PackageOrder
