/-
PackageOrder.EntryPoint.Manifest — the list of entry-points that were found
under a folder of installed packages, kept in a file for the next run.

The file is used only while the version of this program, the configuration of
the project and the lock file beside the folder are the ones it was written
with, and every entry-point in it still is what it was. It is written under
another name first and then moved to its place.
-/
import PackageOrder.EntryPoint.Inspect
import PackageOrder.EntryPoint.Marker

namespace PackageOrder

open PackageOrder.Json (Decoder Value)

/-- What a manifest says about an entry-point. -/
structure EntryPointSummary where
  packagePath : String
  entryPointPath : String
  compiledByAngular : Bool
  ignoreMissingDependencies : Bool
  generateDeepReexports : Bool
deriving Repr, DecidableEq

/-- A manifest. -/
structure Manifest where
  version : String
  configHash : String
  lockHash : String
  entryPoints : List EntryPointSummary
deriving Repr, DecidableEq

namespace EntryPointSummary

/-- What a manifest says about an entry-point. -/
def ofEntryPoint (entryPoint : EntryPoint) : EntryPointSummary where
  packagePath := entryPoint.packagePath
  entryPointPath := entryPoint.path
  compiledByAngular := entryPoint.compiledByAngular
  ignoreMissingDependencies := entryPoint.ignoreMissingDependencies
  generateDeepReexports := entryPoint.generateDeepReexports

/-- The keys of an entry in a manifest. -/
def keys : List String :=
  ["packagePath", "entryPointPath", "compiledByAngular", "ignoreMissingDependencies",
    "generateDeepReexports"]

/-- Reads an entry of a manifest. -/
def decode : Decoder EntryPointSummary := fun room form => do
  let fields ← Json.fields? keys false room form
  return {
    packagePath := ← fields.required "packagePath" Decoder.text
    entryPointPath := ← fields.required "entryPointPath" Decoder.text
    compiledByAngular := ← fields.required "compiledByAngular" Decoder.bool
    ignoreMissingDependencies := ← fields.required "ignoreMissingDependencies" Decoder.bool
    generateDeepReexports := ← fields.required "generateDeepReexports" Decoder.bool }

/-- An entry of a manifest as it is written. -/
def toJson (summary : EntryPointSummary) : Value :=
  .object
    [("packagePath", .string summary.packagePath),
      ("entryPointPath", .string summary.entryPointPath),
      ("compiledByAngular", .bool summary.compiledByAngular),
      ("ignoreMissingDependencies", .bool summary.ignoreMissingDependencies),
      ("generateDeepReexports", .bool summary.generateDeepReexports)]

end EntryPointSummary

namespace Manifest

/-- Reads a manifest. -/
def decode : Decoder Manifest := fun room form => do
  let fields ← Json.fields?
    ["ngccVersion", "configFileHash", "lockFileHash", "entryPointPaths"] false room form
  return {
    version := ← fields.required "ngccVersion" Decoder.text
    configHash := ← fields.required "configFileHash" Decoder.text
    lockHash := ← fields.required "lockFileHash" Decoder.text
    entryPoints := ← fields.required "entryPointPaths" (Decoder.list EntryPointSummary.decode) }

/-- A manifest as it is written. -/
def toJson (manifest : Manifest) : Value :=
  .object
    [("ngccVersion", .string manifest.version),
      ("configFileHash", .string manifest.configHash),
      ("lockFileHash", .string manifest.lockHash),
      ("entryPointPaths", .array (manifest.entryPoints.map EntryPointSummary.toJson))]

end Manifest

/-! ## Files -/

/-- The name of manifest files. -/
def manifestFileName : String := "__ngcc_entry_points__.json"

/-- The files that say which versions are installed. -/
def lockFileNames : List String := ["yarn.lock", "package-lock.json"]

/-- Whether a folder may have a manifest: it is a folder of installed packages. -/
def mayHaveManifest (basePath : String) : Bool :=
  Path.basename basePath none == "node_modules"

/-- The file with the manifest of a folder. -/
def FileTree.manifestPath (tree : FileTree) (basePath : String) : String :=
  tree.resolve [basePath, manifestFileName]

/-- The file under whose name a manifest is written first. -/
def FileTree.manifestDraftPath (tree : FileTree) (basePath : String) : String :=
  tree.manifestPath basePath ++ ".__tmp__"

/-- The digest of the first lock file beside a folder. -/
def FileTree.lockFileHash? (tree : FileTree) (basePath : String) : Option String :=
  let folder := Path.dirname basePath
  lockFileNames.findSome? fun name =>
    ((tree.readBytes (tree.resolve [folder, name])).toOption).map Digest.ofBytes

/-- The manifest of some entry-points. -/
def manifestOf (configuration : Configuration) (lockHash : String)
    (entryPoints : List EntryPoint) : Manifest where
  version := toolVersion
  configHash := configuration.hash
  lockHash := lockHash
  entryPoints := entryPoints.map EntryPointSummary.ofEntryPoint

/-! ## Reading -/

/-- The entry-points of a manifest, unless one of them is no longer what it
was. -/
def restoreEntryPoints (configuration : Configuration) (basePath manifestPath : String) :
    List EntryPointSummary → Run (Option (List EntryPoint))
  | [] => return some []
  | summary :: rest => do
    let inspection ← inspect configuration summary.packagePath summary.entryPointPath
    match inspection.entryPoint? with
    | some entryPoint =>
      if EntryPointSummary.ofEntryPoint entryPoint = summary then
        match ← restoreEntryPoints configuration basePath manifestPath rest with
        | some others => return some (entryPoint :: others)
        | none => return none
      else refuse summary
    | none => refuse summary
where
  refuse (summary : EntryPointSummary) : Run (Option (List EntryPoint)) := do
    Run.say .warn
      ("Unable to read the entry-point manifest for " ++ basePath
        ++ ":\n  The entry-point manifest at " ++ manifestPath
        ++ " contained an invalid pair of package paths: [" ++ summary.packagePath ++ ", "
        ++ summary.entryPointPath ++ "]")
    return none

/-- The entry-points under a folder as its manifest has them, if it can be
used. -/
def readManifest (configuration : Configuration) (basePath : String) :
    Run (Option (List EntryPoint)) := do
  if !mayHaveManifest basePath then return none
  let tree ← Run.tree
  let path := tree.manifestPath basePath
  let some lockHash := tree.lockFileHash? basePath
    | Run.say .debug
        ("Unable to read any lock-file for " ++ basePath
          ++ ", so entry-point manifest is not used.")
      return none
  if !tree.exists? path then return none
  let some manifest := (tree.readText path).toOption.bind (Json.decode? Manifest.decode)
    | Run.say .warn
        ("Unable to read the entry-point manifest for " ++ basePath ++ ":\n  " ++ path
          ++ " is not a valid manifest.")
      return none
  if manifest.version != toolVersion || manifest.configHash != configuration.hash
      || manifest.lockHash != lockHash then
    Run.say .debug
      ("The entry-point manifest at " ++ path ++ " is out of date, so it is being ignored.")
    return none
  Run.say .debug
    ("Entry-point manifest found for " ++ basePath
      ++ " so loading entry-point information directly.")
  match ← restoreEntryPoints configuration basePath path manifest.entryPoints with
  | some entryPoints =>
    Run.say .debug "Reading entry-points using the manifest entries took _s."
    return some entryPoints
  | none => return none

/-! ## Writing -/

/-- Writes the manifest of a folder, where it may have one. -/
def writeManifest (configuration : Configuration) (basePath : String)
    (entryPoints : List EntryPoint) : Run Unit := do
  if !mayHaveManifest basePath then return
  let tree ← Run.tree
  let some lockHash := tree.lockFileHash? basePath | return
  let path := tree.manifestPath basePath
  let draft := tree.manifestDraftPath basePath
  let text := (manifestOf configuration lockHash entryPoints).toJson.compact
  Run.changeWith draft (·.writeText draft text)
  let (moved, outcome) := (← Run.tree).move draft path
  modifyThe Session fun session => { session with tree := moved }
  match outcome with
  | .ok () => return
  | .error cause => throw (.inaccessible path cause)

end PackageOrder
