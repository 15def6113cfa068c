/-
PackageOrder.Config.File — configuration files as they are written.

A project configuration lists packages, perhaps with a range of versions behind
an `@`; a package configuration lists the entry-points of its package.
-/
import PackageOrder.Json.Decode
import PackageOrder.EntryPoint.Basic
import PackageOrder.Version.Range

namespace PackageOrder

open PackageOrder.Json (Decoder)

/-- What is configured for an entry-point. -/
structure EntryPointConfig where
  ignore : Bool := false
  /-- What takes the place of parts of the package description. -/
  overrides : Option PackageJson := none
  ignoreMissingDependencies : Bool := false
  generateDeepReexports : Bool := false
deriving Repr

/-- What is written for a package. -/
structure PackageConfigFile where
  /-- The entry-points by their paths in the package. -/
  entryPoints : List (String × EntryPointConfig) := []
  /-- Patterns of deep imports that need no attention. -/
  matchers : List String := []
deriving Repr

namespace EntryPointConfig

/-- Reads the configuration of an entry-point. -/
def decode : Decoder EntryPointConfig := fun room form => do
  let fields ← Json.fields?
    ["ignore", "override", "ignoreMissingDependencies", "generateDeepReexports"] true room form
  return {
    ignore := ← fields.withDefault "ignore" Decoder.bool false
    overrides := ← fields.withDefault "override" (Decoder.optional Decoder.members) none
    ignoreMissingDependencies := ← fields.withDefault "ignoreMissingDependencies" Decoder.bool false
    generateDeepReexports := ← fields.withDefault "generateDeepReexports" Decoder.bool false }

end EntryPointConfig

namespace PackageConfigFile

/-- Reads the configuration of a package. -/
def decode : Decoder PackageConfigFile := fun room form => do
  let fields ← Json.fields? ["entryPoints", "ignorableDeepImportMatchers"] true room form
  return {
    entryPoints := ← fields.withDefault "entryPoints" (Decoder.table EntryPointConfig.decode) []
    matchers := ← fields.withDefault "ignorableDeepImportMatchers" (Decoder.list Decoder.text) [] }

end PackageConfigFile

/-- Reads the packages of a project configuration. -/
def decodePackages : Decoder (List (String × PackageConfigFile)) := fun room form => do
  let fields ← Json.fields? ["packages"] true room form
  fields.withDefault "packages" (Decoder.table PackageConfigFile.decode) []

/-- What is configured for some versions of a package. -/
structure VersionedConfig where
  packageName : String
  range : String
  config : PackageConfigFile
deriving Repr

/-- The name of a package and the range of versions behind it; the sign at the
front of a scoped name starts no range. -/
def splitVersion (key : String) : String × String :=
  match Text.cutAt? '@' key.toList.reverse with
  | some (range, name) =>
    if name = [] then (key, "*") else (.ofList name.reverse, .ofList range.reverse)
  | none => (key, "*")

/-- The configurations of a file, in order. -/
def splitVersions (packages : List (String × PackageConfigFile)) : List VersionedConfig :=
  packages.map fun (key, config) =>
    let (packageName, range) := splitVersion key
    { packageName, range, config }

/-- The first configuration of a package that a version satisfies; without a
version the first one of all. -/
def findVersion? (configs : List VersionedConfig) (packageName : String)
    (version : Option String) : Option VersionedConfig :=
  configs.find? fun config =>
    config.packageName == packageName && version.all (Version.satisfies · config.range)

end PackageOrder
