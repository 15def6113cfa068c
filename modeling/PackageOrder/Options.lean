/-
PackageOrder.Options — what a run is asked to do, and what that means in a file
system.
-/
import PackageOrder.EntryPoint.Format
import PackageOrder.Resolve.TsConfig

namespace PackageOrder

open PackageOrder.Text

/-- Where path mappings come from if they are not given. -/
inductive TsConfigSetting where
  /-- The project file beside the folder to process, if there is one. -/
  | inferred
  | path (path : String)
  | disabled
deriving Repr, DecidableEq

/-- What a run is asked to do. -/
structure Options where
  /-- The folder with the packages. -/
  basePath : String := "./node_modules"
  /-- The only entry-point to process besides those it depends on. -/
  target : Option String := none
  properties : List FormatProperty := FormatProperty.all
  /-- Whether all formats of an entry-point are compiled, and not just the first
  one. -/
  allFormats : Bool := true
  mappings : Option PathMappings := none
  tsConfig : TsConfigSetting := .inferred
  /-- Whether a failed task ends the run. -/
  strict : Bool := false
  /-- Whether manifests are not to be trusted. -/
  ignoreManifest : Bool := false
  /-- How many workers to use; none leaves it to the machine. -/
  workers : Option Nat := none
  /-- Whether workers may be used at all. -/
  mayUseWorkers : Bool := true

/-- What a run does. -/
structure Setup where
  basePath : String
  /-- The folder with the configuration of the project. -/
  projectPath : String
  target : Option String
  mappings : Option PathMappings
  properties : List FormatProperty
  allFormats : Bool
  strict : Bool
  ignoreManifest : Bool
  workers : Nat
  /-- Whether the tasks are given to workers. -/
  inParallel : Bool
deriving Repr

/-! ## Workers -/

/-- A whole number that fits 64 bits, perhaps with a plus sign and white space
around it. -/
def wordOf? (text : String) : Option Nat :=
  let digits :=
    match trim text.toList with
    | '+' :: rest => rest
    | chars => chars
  if digits.isEmpty || !digits.all isAsciiDigit then none
  else
    let n := digits.foldl (fun n c => 10 * n + (c.toNat - '0'.toNat)) 0
    if n < Nat.pow 2 64 then some n else none

/-- How many workers to use where nothing is asked for: what a setting of the
machine says, or one less than it has cores, from one to four. -/
def defaultWorkers (setting : Option String) (cores : Nat) : Nat :=
  match setting.bind wordOf? with
  | some n => max n 1
  | none => min (max (cores - 1) 1) 4

/-! ## Setting up -/

/-- The project file to read, if there is one. -/
def FileTree.tsConfigPath? (tree : FileTree) (setting : TsConfigSetting) (projectPath : String) :
    Option String :=
  match setting with
  | .disabled => none
  | .inferred =>
    let path := Path.join projectPath ["tsconfig.json"]
    if tree.exists? path then some path else none
  | .path path =>
    let path := tree.resolve [path]
    some (if tree.isFolder path then Path.join path ["tsconfig.json"] else path)

/-- The path mappings of a run: those that are given, or those of a project
file. -/
def Options.findMappings (options : Options) (projectPath : String) :
    Run (Option PathMappings) := do
  match options.mappings with
  | some mappings => return some mappings
  | none =>
    match (← Run.tree).tsConfigPath? options.tsConfig projectPath with
    | some path => readPathMappings path
    | none => return none

/-- What a run does, on a machine that would use a number of workers. A run with
a target ends with the first failure. -/
def Options.setUp (options : Options) (machineWorkers : Nat) : Run Setup := do
  let tree ← Run.tree
  let basePath := tree.resolve [options.basePath]
  let projectPath := Path.dirname basePath
  let mappings ← options.findMappings projectPath
  if options.properties.isEmpty then
    throw (.badConfiguration basePath (.noFormats (FormatProperty.all.map FormatProperty.name)))
  let workers := max (options.workers.getD machineWorkers) 1
  return {
    basePath, projectPath, mappings, workers
    target := options.target.map fun target => tree.resolve [basePath, target]
    properties := options.properties
    allFormats := options.allFormats
    strict := options.strict || options.target.isSome
    ignoreManifest := options.ignoreManifest
    inParallel := options.mayUseWorkers && decide (1 < workers) }

end PackageOrder
