/-
PackageOrder.Resolve.Module — what an import leads to.

A relative specifier leads to a file beside the importing one. Any other names
a module of the runtime, or is looked for in the path mappings, and then in the
folders of installed packages, from the importing file upwards.
-/
import PackageOrder.FileTree.Lookup
import PackageOrder.Resolve.Builtin
import PackageOrder.Resolve.Mapping

namespace PackageOrder

open PackageOrder.Text

/-- What an import leads to. -/
inductive Resolution where
  /-- A module of the runtime. -/
  | builtin
  /-- A file of the importing package. -/
  | internal (path : String)
  /-- A file of another package that is not one of its entry-points. -/
  | deepImport (path : String)
  /-- The folder of an entry-point. -/
  | entryPoint (path : String)
deriving Repr, DecidableEq

/-- What may be added to the path of a script to find its file. -/
def scriptEndings : List String := ["", ".js", "/index.js"]

/-- What may be added to the path of a declaration file to find it. -/
def typingsEndings : List String := ["", ".d.ts", "/index.d.ts"]

/-- Whether a path leads out of the folder that it starts from. -/
def leavesFolder (way : String) : Bool :=
  (dropHead? ['.', '.'] way.toList).isSome || Path.isRooted way

/-- Whether `inner` lies in the folder `outer`. -/
def isWithin (outer inner : String) : Bool :=
  !leavesFolder (Path.relative outer inner)

namespace FileTree

variable (tree : FileTree)

/-- The first file that a path with one of some endings leads to. -/
def fileWithEnding? (endings : List String) (path : String) : Option String :=
  (endings.map (path ++ ·)).find? tree.isFile

/-- Whether a folder is an entry-point. -/
def isEntryPoint (path : String) : Bool :=
  tree.exists? (Path.join path ["package.json"])

/-- The folders above a path, the nearest first, at most `steps` of them. -/
def foldersAbove : Nat → String → List String
  | 0, _ => []
  | steps + 1, path =>
    if Path.isRoot path then []
    else
      let folder := Path.dirname path
      folder :: foldersAbove steps folder

/-- The folder of the package that a file belongs to: the nearest one above it
that is an entry-point. -/
def packageOf? (path : String) : Option String :=
  (foldersAbove (path.length + 1) path).find? tree.isEntryPoint

/-- The folders above a path in which installed packages are looked for, the
nearest first: a folder of installed packages gives way to the one above it. -/
def searchFolders : Nat → String → List String
  | 0, _ => []
  | steps + 1, path =>
    if Path.isRoot path then []
    else
      let folder := Path.dirname path
      let folder := if Path.isPackageFolder folder then Path.dirname folder else folder
      folder :: searchFolders steps folder

/-- What a specifier leads to in the folder of installed packages in a folder. -/
def installedIn? (endings : List String) (specifier folder : String) : Option Resolution :=
  let path := tree.resolve [folder, "node_modules", specifier]
  if tree.isEntryPoint path then some (.entryPoint path)
  else if (tree.fileWithEnding? endings path).isSome then some (.deepImport path)
  else none

/-- What a specifier leads to in the nearest folder of installed packages that
has it. -/
def resolveInstalled? (endings : List String) (specifier source : String) : Option Resolution :=
  (searchFolders (source.length + 1) source).findSome? (tree.installedIn? endings specifier)

/-- What one mapped path leads to from a package. -/
def mappedTo? (endings : List String) (package path : String) : Option Resolution :=
  if tree.isEntryPoint path then some (.entryPoint path)
  else
    (tree.fileWithEnding? endings path).map fun file =>
      if isWithin package path then .internal file else .deepImport path

/-- What a specifier leads to through path mappings. -/
def resolveMapped? (mappings : Option PathMappings) (endings : List String)
    (specifier source : String) : Option Resolution := do
  let paths := (← mappings).mappedPaths tree.workingDir specifier
  if paths.isEmpty then none
  else paths.findSome? (tree.mappedTo? endings (← tree.packageOf? source))

/-- What a specifier in a file leads to. -/
def resolveImport? (mappings : Option PathMappings) (endings : List String)
    (specifier source : String) : Option Resolution :=
  if Path.isRelativeSpecifier specifier then
    (tree.fileWithEnding? endings (tree.resolve [Path.dirname source, specifier])).map .internal
  else if isBuiltinModule specifier then some .builtin
  else
    tree.resolveMapped? mappings endings specifier source <|>
      tree.resolveInstalled? endings specifier source

end FileTree

end PackageOrder
