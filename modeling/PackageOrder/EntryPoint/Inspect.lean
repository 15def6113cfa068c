/-
PackageOrder.EntryPoint.Inspect — what a folder is as an entry-point.
-/
import PackageOrder.Config.Package

namespace PackageOrder

open PackageOrder.Text

/-- What a folder turns out to be. -/
inductive Inspection where
  | found (entryPoint : EntryPoint)
  /-- Neither a description nor a configuration makes it an entry-point. -/
  | noEntryPoint
  /-- The configuration has it ignored. -/
  | ignored
  /-- The description cannot be read, or names no types. -/
  | invalid

/-- The entry-point, if one was found. -/
def Inspection.entryPoint? : Inspection → Option EntryPoint
  | .found entryPoint => some entryPoint
  | _ => none

/-- A package description with the parts that a configuration puts in place of
its own. Without a description the name says where the entry-point is. -/
def mergeConfig (json : Option PackageJson) (overrides : Option PackageJson)
    (packagePath entryPointPath : String) : PackageJson :=
  let base := json.getD
    [("name", .string (Path.basename packagePath none ++ "/"
      ++ Path.relative packagePath entryPointPath))]
  (overrides.getD []).foldl (fun merged (key, value) => merged.insert key value) base

/-- The file with the types of an entry-point: the one that its description
names, or one beside a bundle. -/
def FileTree.typings? (tree : FileTree) (path : String) (json : PackageJson) : Option String :=
  match json.text? "typings" <|> json.text? "types" with
  | some typings => some (tree.resolve [path, typings])
  | none => tree.guessTypings? path json

/-- The file with the metadata of an entry-point, by its types. -/
def metadataPath (typings : String) : String :=
  String.ofList ((dropTail? ".d.ts".toList typings.toList).getD typings.toList)
    ++ ".metadata.json"

/-- What a folder in a package is as an entry-point. -/
def inspect (configuration : Configuration) (packagePath entryPointPath : String) :
    Run Inspection := do
  let tree ← Run.tree
  let packageFile := tree.resolve [packagePath, "package.json"]
  let entryPointFile := tree.resolve [entryPointPath, "package.json"]
  let described := tree.packageJson? entryPointFile
  let (packageName, packageVersion) :=
    packageNameAndVersion packagePath (tree.packageJson? packageFile)
  let config ← configuration.forPackage packageName packagePath packageVersion
  let own := config.entryPoint? entryPointPath
  match own, described with
  | some { ignore := true, .. }, _ => return .ignored
  | none, none =>
    if !tree.exists? entryPointFile then return .noEntryPoint
    Run.say .warn
      ("Failed to read entry point info from invalid 'package.json' file: " ++ entryPointFile)
    return .invalid
  | own, described =>
    let packageJson :=
      match own with
      | some own => mergeConfig described own.overrides packagePath entryPointPath
      | none => described.getD []
    match tree.typings? entryPointPath packageJson with
    | none => return .invalid
    | some typings =>
      return .found {
        name := (packageJson.text? "name").getD packageName
        path := entryPointPath
        packageName, packageVersion, packagePath, packageJson, typings
        compiledByAngular := own.isSome || tree.exists? (metadataPath typings)
        ignoreMissingDependencies := own.any (·.ignoreMissingDependencies)
        generateDeepReexports := own.any (·.generateDeepReexports) }

end PackageOrder
