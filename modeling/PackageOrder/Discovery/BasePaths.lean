/-
PackageOrder.Discovery.BasePaths — the folders in which entry-points are looked
for: the source folder and what path mappings lead to.

A target leads to the folder before its first star. Where there is none, the
last name is taken for the front of names, as in `dist/lib-*`. Of folders one
inside the other only the outer one is searched, but a source folder of
installed packages always is.
-/
import PackageOrder.Log
import PackageOrder.Resolve.Module

namespace PackageOrder

open PackageOrder.Text

/-- Paths without those that are or lie in others of them; of equal ones the
first stays. -/
def dedupePaths (paths : List String) : List String :=
  go [] paths
where
  /-- The paths to keep of `rest`, which stand behind `before`. -/
  go (before : List String) : List String → List String
    | [] => []
    | path :: rest =>
      let covered := before.any (fun other => other == path || isWithin other path)
        || rest.any fun other => other != path && isWithin other path
      if covered then go (before ++ [path]) rest else path :: go (before ++ [path]) rest

/-- What a target of a path mapping leads to. -/
structure TargetFolders where
  basePath : String
  folders : List String

namespace FileTree

variable (tree : FileTree)

/-- The folders in a folder whose names start with a text. -/
def foldersStarting (container start : String) : List String :=
  if tree.isFolder container then
    (((tree.list container).toOption.getD []).filter fun name =>
        (dropHead? start.toList name.toList).isSome).filterMap fun name =>
      let path := tree.resolve [container, name]
      if tree.isFolder path then some path else none
  else []

/-- The folders that a target leads to from a base. -/
def targetFolders (baseUrl target : String) : TargetFolders :=
  let start := String.ofList ((splitOn '*' target.toList).head?.getD [])
  let path := tree.resolve [baseUrl, start]
  let basePath := if tree.isFile path then Path.dirname path else path
  if tree.exists? basePath then ⟨basePath, [basePath]⟩
  else ⟨basePath, tree.foldersStarting (Path.dirname basePath) (Path.basename basePath none)⟩

end FileTree

/-- What is said about a base that is the root. -/
def rootBaseWarning (baseUrl : String) : String :=
  "The provided pathMappings baseUrl is the root path " ++ baseUrl
    ++ ".\nThis is likely to mess up how ngcc finds entry-points and is probably not correct.\n"
    ++ "Please check your path mappings configuration such as in the tsconfig.json file."

/-- What is said about a target that leads nowhere. -/
def emptyTargetNote (basePath baseUrl target : String) : String :=
  "The basePath \"" ++ basePath ++ "\" computed from baseUrl \"" ++ baseUrl
    ++ "\" and path mapping \"" ++ target
    ++ "\" does not exist in the file-system.\nIt will not be scanned for entry-points."

namespace FileTree

variable (tree : FileTree)

/-- The folders that path mappings lead to, and what is said about them. -/
def mappedFolders (mappings : PathMappings) : List String × Log :=
  let baseUrl := tree.resolve [mappings.baseUrl]
  let warning : Log := if Path.isRoot baseUrl then [(.warn, rootBaseWarning baseUrl)] else []
  let targets := mappings.paths.flatMap (·.2)
  let found := targets.map fun target => (target, tree.targetFolders baseUrl target)
  let notes : Log := found.filterMap fun (target, found) =>
    if found.folders.isEmpty then some (.debug, emptyTargetNote found.basePath baseUrl target)
    else none
  (found.flatMap (·.2.folders), warning ++ notes)

/-- The folders in which entry-points are looked for, and what is said about
them. -/
def basePaths (source : String) (mappings : Option PathMappings) : List String × Log :=
  let (mapped, log) := (mappings.map tree.mappedFolders).getD ([], [])
  let kept := dedupePaths (source :: mapped)
  let paths :=
    if Path.basename source none == "node_modules" && !kept.contains source then source :: kept
    else kept
  (paths, log)

end FileTree

end PackageOrder
