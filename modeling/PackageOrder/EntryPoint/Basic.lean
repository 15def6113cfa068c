/-
PackageOrder.EntryPoint.Basic — entry-points: the importable units of packages.
-/
import PackageOrder.EntryPoint.Format
import PackageOrder.FileTree.Lookup
import PackageOrder.Json.Reader

namespace PackageOrder

open PackageOrder.Text
open PackageOrder.Json (Members Value)

/-- What a package says about itself, in the order in which it says it. -/
abbrev PackageJson := Members

namespace PackageJson

/-- The text under a key. -/
def text? (json : PackageJson) (key : String) : Option String :=
  (json.get? key).bind Value.string?

/-- The path under a format property. -/
def formatPath? (json : PackageJson) (property : FormatProperty) : Option String :=
  json.text? property.name

end PackageJson

/-- An importable unit of a package. -/
structure EntryPoint where
  name : String
  /-- The folder that it is imported by. -/
  path : String
  packageName : String
  packageVersion : Option String
  /-- The folder of the package. -/
  packagePath : String
  packageJson : PackageJson
  /-- The file with its types. -/
  typings : String
  /-- Whether the Angular compiler made it, as its metadata or a configuration
  says. -/
  compiledByAngular : Bool
  ignoreMissingDependencies : Bool
  generateDeepReexports : Bool
deriving Repr, Inhabited

/-- The path of an entry-point under a format property. -/
def EntryPoint.formatPath? (entryPoint : EntryPoint) (property : FormatProperty) : Option String :=
  entryPoint.packageJson.formatPath? property

/-- The package description in a file, if there is one that can be read. -/
def FileTree.packageJson? (tree : FileTree) (path : String) : Option PackageJson :=
  match tree.readText path with
  | .ok text => (Json.parse? text).bind Value.object?
  | .error _ => none

/-- The types of an entry-point by its bundles: the first format property whose
bundle has a declaration file beside it. -/
def FileTree.guessTypings? (tree : FileTree) (path : String) (json : PackageJson) :
    Option String :=
  FormatProperty.all.findSome? fun property => do
    let field ← json.formatPath? property
    let declared :=
      match dropTail? ".js".toList field.toList with
      | some stem => String.ofList stem ++ ".d.ts"
      | none => field
    let typings := tree.resolve [path, declared]
    if tree.exists? typings then some typings else none

/-- What follows the last place of a text in another. -/
def afterLast? (mark : List Char) : List Char → Option (List Char)
  | [] => none
  | c :: rest =>
    match afterLast? mark rest with
    | some after => some after
    | none => dropHead? mark (c :: rest)

/-- The name of a package by its path: what follows the innermost folder of
installed packages, with the scope of the name if it has one. -/
def guessPackageName (path : String) : String :=
  match afterLast? "/node_modules/".toList path.toList with
  | none => Path.basename path none
  | some after =>
    match splitOn '/' after with
    | ('@' :: scope) :: name :: _ => .ofList (('@' :: scope) ++ '/' :: name)
    | first :: _ => .ofList first
    | [] => ""

/-- The name and version of a package. Without a name in its description the
version there does not count. -/
def packageNameAndVersion (path : String) (json : Option PackageJson) : String × Option String :=
  match json.bind fun json => (json.text? "name").map fun name => (name, json.text? "version") with
  | some found => found
  | none => (guessPackageName path, none)

end PackageOrder
