/-
PackageOrder.Resolve.TsConfig — path mappings as a project file states them.

A project file is JSON with lines of comments in it, which are dropped whole:
those that start with two slashes, a slash and a star, or a star.
-/
import PackageOrder.Session
import PackageOrder.Resolve.Mapping
import PackageOrder.Text.Blank

namespace PackageOrder

open PackageOrder.Text
open PackageOrder.Json (Members Value)

/-- Whether a line is one of a comment. -/
def isCommentLine (line : List Char) : Bool :=
  match trim line with
  | '/' :: '/' :: _ | '/' :: '*' :: _ | '*' :: _ => true
  | _ => false

/-- A text without its lines of comments; every line that stays ends in LF. -/
def stripComments (text : String) : String :=
  .ofList (((splitLines text.toList).filter (!isCommentLine ·)).flatMap (· ++ ['\n']))

/-- Whether a project has parts but no files of its own. -/
def isSolutionStyle (project : Value) : Bool :=
  let items (key : String) : Option (List Value) := (project.get? key).bind Value.array?
  (items "references").any (!·.isEmpty) && (items "files").any (·.isEmpty)

/-- The table of path mappings, or the first pattern whose targets are no list.
Targets that are no texts do not count. -/
def mappingTable : Members → Except ConfigFault (List (String × List String))
  | [] => .ok []
  | (pattern, .array targets) :: rest => do
    return (pattern, targets.filterMap Value.string?) :: (← mappingTable rest)
  | (pattern, _) :: _ => .error (.badTargets pattern)

/-- The path mappings of a project file, if it has a base and a table. -/
def readPathMappings (path : String) : Run (Option PathMappings) := do
  let text ← Run.readWith path (·.readText path)
  let some project := Json.parse? (stripComments text)
    | throw (.unparsable path)
  if isSolutionStyle project then
    Run.say .warn
      ("The inferred tsconfig file \"" ++ path
        ++ "\" appears to be \"solution-style\" since it contains no root files but does contain "
        ++ "project references.\nThis is probably not wanted, since ngcc is unable to infer settings "
        ++ "like \"paths\" mappings from such a file.\nPerhaps you should have explicitly specified "
        ++ "one of the referenced projects using the --tsconfig option.")
  let options := project.get? "compilerOptions"
  let base := (options.bind (·.get? "baseUrl")).bind Value.string?
  let table := (options.bind (·.get? "paths")).bind Value.object?
  match base, table with
  | some base, some table =>
    match mappingTable table with
    | .error fault => throw (.badConfiguration path fault)
    | .ok paths =>
      let baseUrl := (← Run.tree).resolve [Path.dirname path, base]
      return some { baseUrl, paths }
  | _, _ => return none

end PackageOrder
