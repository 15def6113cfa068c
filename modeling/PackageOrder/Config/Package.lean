/-
PackageOrder.Config.Package — the configuration that applies to a package.

The configuration of the project comes first, then one in the package itself,
then the one that is built in. What was found for a path and a version is
remembered for the rest of the session.
-/
import PackageOrder.Digest
import PackageOrder.Session

namespace PackageOrder

/-- The name of configuration files. -/
def configFileName : String := "ngcc.config.json"

/-- The configuration for an entry-point whose script is somewhere else. -/
def mainElsewhere (path script : String) : String × EntryPointConfig :=
  (path, { overrides := some [("main", .string script)] })

/-- The configurations that are built in. -/
def builtinConfigs : List VersionedConfig :=
  [{ packageName := "angular2-highcharts"
     range := "*"
     config := { entryPoints := [mainElsewhere "." "./index.js"] } },
   { packageName := "ng2-dragula"
     range := "*"
     config := { entryPoints := [mainElsewhere "./dist" "../bundles/ng2-dragula.umd.js"] } }]

/-- The configuration of a project. -/
structure Configuration where
  configs : List VersionedConfig
  /-- The digest of the file it was read from, which is empty if there is
  none. -/
  hash : String

namespace PackageConfig

/-- The configuration of a package about which nothing is written. -/
def empty (packagePath : String) : PackageConfig :=
  { packagePath, range := "*", entryPoints := [], matchers := [] }

/-- Whether a deep import needs no attention. -/
def isIgnorable (config : PackageConfig) (path : String) : Bool :=
  config.matchers.any fun (_, pattern) => pattern.matchesIn path

/-- What is configured for the entry-point with a path. -/
def entryPoint? (config : PackageConfig) (path : String) : Option EntryPointConfig :=
  config.entryPoints.lookup path

end PackageConfig

namespace Configuration

/-- Reads the configuration of the project in a folder. -/
def load (baseDir : String) : Run Configuration := do
  let path := Path.join baseDir [configFileName]
  if !(← Run.tree).exists? path then
    return { configs := [], hash := Digest.ofBytes .empty }
  let text ← Run.readWith path (·.readText path)
  match Json.decode? decodePackages text with
  | some packages =>
    return { configs := splitVersions packages, hash := Digest.ofBytes text.toUTF8 }
  | none => throw (.unparsable path)

/-- The configuration of a package as it is used, or the first pattern in it
that is none or is too large. -/
def prepare (tree : FileTree) (packagePath range : String) (config : PackageConfigFile) :
    Except ConfigFault PackageConfig := do
  let entryPoints := config.entryPoints.foldl (fun found (path, entryPoint) =>
    Json.Decoder.insertPair (tree.resolve [packagePath, path]) entryPoint found) []
  let matchers ← config.matchers.mapM fun text =>
    match Pattern.parse? text with
    | some pattern => if pattern.fits then .ok (text, pattern) else .error (.largeMatcher text)
    | none => .error (.badMatcher text)
  return { packagePath, range, entryPoints, matchers }

/-- The configuration of a package as it is written: for the project, in the
package or built in. -/
def written? (configuration : Configuration) (packageName packagePath : String)
    (version : Option String) : Run (Option (String × PackageConfigFile)) := do
  match findVersion? configuration.configs packageName version with
  | some found => return some (found.range, found.config)
  | none =>
    let path := Path.join packagePath [configFileName]
    if (← Run.tree).exists? path then
      let text ← Run.readWith path (·.readText path)
      match Json.decode? PackageConfigFile.decode text with
      | some config => return some ("*", config)
      | none => throw (.unparsable path)
    else
      return (findVersion? builtinConfigs packageName version).map fun found =>
        (found.range, found.config)

/-- The configuration of a package, read anew. -/
def compute (configuration : Configuration) (packageName packagePath : String)
    (version : Option String) : Run PackageConfig := do
  match ← configuration.written? packageName packagePath version with
  | none => return .empty packagePath
  | some (range, config) =>
    match prepare (← Run.tree) packagePath range config with
    | .ok prepared => return prepared
    | .error fault => throw (.badConfiguration (Path.join packagePath [configFileName]) fault)

/-- The configuration of a package, read when it is first asked for. -/
def forPackage (configuration : Configuration) (packageName packagePath : String)
    (version : Option String) : Run PackageConfig := do
  let key := packagePath ++ "@" ++ version.getD ""
  match (← getThe Session).configs.lookup key with
  | some config => return config
  | none =>
    let config ← configuration.compute packageName packagePath version
    modifyThe Session fun session => { session with configs := (key, config) :: session.configs }
    return config

end Configuration

end PackageOrder
