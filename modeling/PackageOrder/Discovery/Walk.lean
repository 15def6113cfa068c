/-
PackageOrder.Discovery.Walk — all entry-points under some folders.

The walk goes down through folders, but not through links, nor into hidden
folders and folders of installed packages, except for those in a package that
the Angular compiler made. Inside a package, folders that hold scripts but are
no entry-points hold none.

A path is not longer than the names that a lookup can use up, so the walk ends;
their number bounds its depth.
-/
import PackageOrder.Dependency.Order
import PackageOrder.Discovery.BasePaths
import PackageOrder.EntryPoint.Manifest

namespace PackageOrder

open PackageOrder.Text

/-- The folder for the output of this program. -/
def outputFolder : String := "__ngcc__"

/-- Whether a name is not looked at: hidden, of installed packages, or of this
program's own output. -/
def isIgnorableName (name : String) : Bool :=
  name.toList.head? == some '.' || name == "node_modules" || name == outputFolder

/-- Whether a name is that of a script. -/
def isScriptName (name : String) : Bool :=
  (dropTail? ".js".toList name.toList).isSome

/-- Whether some of the names in a folder are those of script files. -/
def FileTree.holdsScripts (tree : FileTree) (folder : String) (names : List String) : Bool :=
  names.any fun name => isScriptName name && tree.isFile (tree.resolve [folder, name])

/-- What comes of the names in a folder, one after the other, by their paths and what
they stand for. -/
def visitNames (folder : String) (names : List String)
    (visit : String → String → EntityKind → Run (List EntryPoint)) : Run (List EntryPoint) := do
  let found ← (names.filter (!isIgnorableName ·)).mapM fun name => do
    let path := (← Run.tree).resolve [folder, name]
    visit name path (← Run.readWith path (·.linkStat path))
  return found.flatten

/-- The entry-points in a package below a folder in it, to a given depth. -/
def walkPackage (configuration : Configuration) (packagePath : String) :
    Nat → String → List String → Run (List EntryPoint)
  | 0, _, _ => return []
  | depth + 1, folder, names =>
    visitNames folder names fun name path kind => do
      match kind with
      | .link => return []
      | .file =>
        if isScriptName name then
          let inspection ← inspect configuration packagePath (Path.withoutScriptEnding path)
          return inspection.entryPoint?.toList
        else return []
      | .folder =>
        let inspection ← inspect configuration packagePath path
        let own := inspection.entryPoint?.toList
        let children ← Run.readWith path (·.list path)
        if own.isEmpty && (← Run.tree).holdsScripts path children then return own
        return own ++ (← walkPackage configuration packagePath depth path children)

/-- The entry-points in a folder and below it, to a given depth. -/
def walkFolder (configuration : Configuration) : Nat → String → Run (List EntryPoint)
  | 0, _ => return []
  | depth + 1, folder => do
    match ← inspect configuration folder folder with
    | .invalid => return []
    | .noEntryPoint =>
      let names ← Run.readWith folder (·.list folder)
      visitNames folder names fun _ path kind =>
        match kind with
        | .folder => walkFolder configuration depth path
        | _ => return []
    | primary =>
      let names ← Run.readWith folder (·.list folder)
      let secondary ← walkPackage configuration folder (depth + 1) folder names
      let own := primary.entryPoint?.toList ++ secondary
      let installed := (← Run.tree).resolve [folder, "node_modules"]
      if own.any (·.compiledByAngular) && (← Run.tree).exists? installed then
        return own ++ (← walkFolder configuration depth installed)
      return own

/-- All entry-points under a folder. -/
def walkAll (configuration : Configuration) (folder : String) : Run (List EntryPoint) := do
  walkFolder configuration ((← Run.tree).longestWay + 2) folder

/-- All entry-points under a folder by walking it, which are then written into
its manifest. A manifest that cannot be written is reported. -/
def walkAndRecord (configuration : Configuration) (basePath : String) : Run (List EntryPoint) := do
  Run.say .debug
    ("No manifest found for " ++ basePath ++ " so walking the directories for entry-points.")
  let took := Run.say .debug ("Walking " ++ basePath ++ " for entry-points took _s.")
  let found ←
    try walkAll configuration basePath
    catch failure =>
      took
      throw failure
  took
  try writeManifest configuration basePath found
  catch failure =>
    Run.say .warn
      ("Unable to write the entry-point manifest for " ++ basePath ++ ": " ++ failure.message)
  return found

/-- All entry-points under a folder, by its manifest if it can be used. -/
def entryPointsUnder (configuration : Configuration) (useManifest : Bool) (basePath : String) :
    Run (List EntryPoint) := do
  match ← (if useManifest then readManifest configuration basePath else return none) with
  | some found => return found
  | none => walkAndRecord configuration basePath

/-- All entry-points under some folders, sorted. -/
def findAll (configuration : Configuration) (reading : ImportReading) (useManifest : Bool)
    (basePaths : List String) : Run SortedEntryPoints := do
  let found ← basePaths.mapM (entryPointsUnder configuration useManifest)
  readAndSort configuration reading found.flatten none

end PackageOrder
