/-
PackageOrder.Dependency.Basic — what the files of an entry-point import.

From a first file the search follows the imports of files of the same package.
A file is read once, so cycles of imports end; what cannot be read as text
imports nothing. Each round reads a file by a path that was not met before. A
path that leads to a file is not longer than what the passes of a lookup can
use up, so there are finitely many (`FileTree.pathBound`), and the search ends.
-/
import PackageOrder.Resolve.Module
import PackageOrder.Script.Imports
import PackageOrder.Text.Sorted

namespace PackageOrder

open PackageOrder.Text
open PackageOrder.Script (ModuleSyntax)

/-- What the files of an entry-point import from elsewhere. -/
structure DependencyInfo where
  /-- The folders of the entry-points that are imported. -/
  dependencies : SortedSet := []
  /-- The specifiers that lead nowhere. -/
  missing : SortedSet := []
  /-- The files of other packages that are imported directly. -/
  deepImports : SortedSet := []
deriving Repr, DecidableEq

namespace DependencyInfo

/-- What is imported in one place or another. -/
def union (one other : DependencyInfo) : DependencyInfo where
  dependencies := one.dependencies.union other.dependencies
  missing := one.missing.union other.missing
  deepImports := one.deepImports.union other.deepImports

end DependencyInfo

/-- What may be added to a path to find a file in a syntax. -/
def Script.ModuleSyntax.endings : ModuleSyntax → List String
  | .declarations => typingsEndings
  | _ => scriptEndings

/-- A search: the files that were met, those of them still to be read, the last
one first, and what was found. -/
structure DependencySearch where
  seen : List String
  pending : List String
  info : DependencyInfo := {}

namespace DependencySearch

/-- The search after a specifier has been looked up. -/
def record (search : DependencySearch) (specifier : String) (found : Option Resolution) :
    DependencySearch :=
  match found with
  | none =>
    { search with info.missing := search.info.missing.insert specifier }
  | some .builtin => search
  | some (.internal path) =>
    if path ∈ search.seen then search
    else { search with seen := path :: search.seen, pending := path :: search.pending }
  | some (.deepImport path) =>
    { search with info.deepImports := search.info.deepImports.insert path }
  | some (.entryPoint path) =>
    { search with info.dependencies := search.info.dependencies.insert path }

end DependencySearch

namespace FileTree

variable (tree : FileTree)

/-- The specifiers that a file imports; what is no text imports nothing. -/
def importsOfFile (modules : ModuleSyntax) (path : String) : List String :=
  match tree.readText path with
  | .ok text => Script.extractImports modules path text
  | .error _ => []

/-- The search after a file has been read. -/
def searchFile (modules : ModuleSyntax) (mappings : Option PathMappings)
    (search : DependencySearch) (path : String) : DependencySearch :=
  (tree.importsOfFile modules path).foldl (fun search specifier =>
    search.record specifier (tree.resolveImport? mappings modules.endings specifier path)) search

/-- At most `rounds` rounds of a search. -/
def searchWithin (modules : ModuleSyntax) (mappings : Option PathMappings) :
    Nat → DependencySearch → DependencySearch
  | 0, search => search
  | rounds + 1, search =>
    match search.pending with
    | [] => search
    | path :: rest =>
      searchWithin modules mappings rounds
        (tree.searchFile modules mappings { search with pending := rest } path)

/-- More than there are paths that lead somewhere. -/
def pathBound : Nat :=
  Nat.pow 0x110000 (tree.longestWay * (longestNameOf tree.root + 4) + 16)

/-- What an entry-point imports whose first file a path with one of the endings
of a syntax leads to. -/
def collectDependencies (modules : ModuleSyntax) (mappings : Option PathMappings)
    (path : String) : DependencyInfo :=
  match tree.fileWithEnding? modules.endings path with
  | none => {}
  | some start =>
    (tree.searchWithin modules mappings tree.pathBound { seen := [start], pending := [start] }).info

end FileTree

end PackageOrder
