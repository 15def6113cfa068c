/-
PackageOrder.Resolve.Mapping — tables that map specifiers to paths.

A pattern stands for itself, or with a star in it for every text between what
comes before and after the first star. Of the patterns that match, one without
a star is used, or else the one with the longest text before its star; the
captured text takes the place of the star in each target.
-/
import PackageOrder.FileTree.Basic

namespace PackageOrder

open PackageOrder.Text

/-- A table of patterns and their targets, in order, and the folder that the
targets start from. -/
structure PathMappings where
  baseUrl : String
  paths : List (String × List String)
deriving Repr, DecidableEq

/-- A text that may have a star in it: what stands before its first star and,
if there is one, after it. -/
structure Wildcard where
  before : List Char
  after? : Option (List Char)
deriving Repr, DecidableEq

namespace Wildcard

/-- The parts of a text around its first star. -/
def ofText (text : String) : Wildcard :=
  match cutAt? '*' text.toList with
  | some (before, after) => ⟨before, some after⟩
  | none => ⟨text.toList, none⟩

/-- The text that the star captures in a name, if the name matches. -/
def capture? (pattern : Wildcard) (name : List Char) : Option (List Char) :=
  match pattern.after? with
  | none => if name = pattern.before then some [] else none
  | some after => (dropHead? pattern.before name).bind (dropTail? after)

/-- The text with a captured text in the place of its star. -/
def fill (pattern : Wildcard) (captured : List Char) : String :=
  .ofList <|
    match pattern.after? with
    | none => pattern.before
    | some after => pattern.before ++ captured ++ after

end Wildcard

/-- What is used of a table for a name. -/
structure Mapped where
  before : List Char
  captured : List Char
  targets : List String

/-- The entry of a table to use for a name, after the best one so far. -/
def bestMapping (name : List Char) : List (String × List String) → Option Mapped → Option Mapped
  | [], best => best
  | (pattern, targets) :: rest, best =>
    let pattern := Wildcard.ofText pattern
    match pattern.capture? name with
    | none => bestMapping name rest best
    | some captured =>
      let found : Mapped := ⟨pattern.before, captured, targets⟩
      if pattern.after?.isNone then some found
      else if best.all fun b => utf8Length b.before < utf8Length found.before then
        bestMapping name rest (some found)
      else bestMapping name rest best
where
  /-- How many bytes a text takes. -/
  utf8Length (text : List Char) : Nat := text.foldl (fun n c => n + c.utf8Size) 0

/-- The paths that a table maps a specifier to, in the order of its targets. -/
def PathMappings.mappedPaths (mappings : PathMappings) (workingDir specifier : String) :
    List String :=
  match bestMapping specifier.toList mappings.paths none with
  | none => []
  | some found => found.targets.map fun target =>
    Path.resolve workingDir [mappings.baseUrl, (Wildcard.ofText target).fill found.captured]

end PackageOrder
