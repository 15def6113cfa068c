/-
PackageOrder.EntryPoint.Marker — the marks of processed formats in package
descriptions.

Under one key a description says which properties were processed by which
version. A marked package also gets a script that refuses to publish it; the
script that was there before is kept under another key.
-/
import PackageOrder.EntryPoint.Basic
import PackageOrder.Json.Writer
import PackageOrder.Session

namespace PackageOrder

open PackageOrder.Json (Members Value)

/-- The version that is written into marks and manifests. -/
def toolVersion : String := "0.1.0"

/-- How the program names itself. -/
def versionText : String := "Angular Compatibility Compiler v" ++ toolVersion

/-- The key of the marks. -/
def markerKey : String := "__processed_by_ivy_ngcc__"

/-- The key of the script that runs before publishing. -/
def publishKey : String := "prepublishOnly"

/-- The key under which an earlier script is kept. -/
def publishBackupKey : String := "prepublishOnly__ivy_ngcc_bak"

/-- The script that refuses to publish. -/
def refuseToPublish : String :=
  "node --eval \"console.error('ERROR: Trying to publish a package that has been compiled by NGCC. "
    ++ "This is not allowed.\\nPlease delete and rebuild the package, without compiling with NGCC, "
    ++ "before attempting to publish.\\nNote that NGCC may have been run by importing this package "
    ++ "into another project that is being built with Ivy enabled.\\n')\" && exit 1"

namespace PackageJson

/-- Whether a property was processed by this version. -/
def isProcessed (json : PackageJson) (property : String) : Bool :=
  (((json.get? markerKey).bind (·.get? property)).bind Value.string?) == some toolVersion

/-- The marks with some properties added. -/
def markProperties (marks : Members) (properties : List String) : Members :=
  properties.foldl (fun marks property => marks.insert property (.string toolVersion)) marks

/-- The scripts with the one that refuses to publish. -/
def guardScripts (scripts : Members) : Members :=
  let kept :=
    match (scripts.get? publishKey).bind Value.string? with
    | some old =>
      if old = refuseToPublish then scripts else scripts.insert publishBackupKey (.string old)
    | none => scripts
  kept.insert publishKey (.string refuseToPublish)

/-- The description with some properties marked as processed. -/
def markProcessed (json : PackageJson) (properties : List String) : PackageJson :=
  let marks := ((json.get? markerKey).bind Value.object?).getD []
  let marked := json.insert markerKey (.object (markProperties marks properties))
  match marked.get? "scripts" with
  | none => marked.insert "scripts" (.object (guardScripts []))
  | some (.object scripts) => marked.insert "scripts" (.object (guardScripts scripts))
  | some _ => marked

/-- The description as it is written to a file. -/
def fileText (json : PackageJson) : String :=
  (Value.object json).indented ++ "\n"

end PackageJson

/-- Writes a package description. -/
def FileTree.writePackageJson (tree : FileTree) (path : String) (json : PackageJson) :
    Except FileError FileTree :=
  tree.writeText path json.fileText

end PackageOrder
