/-
PackageOrder.Failure — why a run ends early, and what is said about it.
-/
import PackageOrder.FileTree.Error
import PackageOrder.Pattern.Size
import PackageOrder.Text.Split

namespace PackageOrder

open PackageOrder.Text

/-- What is wrong with a configuration. -/
inductive ConfigFault where
  /-- An entry for deep imports that can be ignored is no pattern. -/
  | badMatcher (pattern : String)
  /-- An entry for deep imports that can be ignored needs too much memory. -/
  | largeMatcher (pattern : String)
  /-- The targets of a path mapping are no list. -/
  | badTargets (pattern : String)
  /-- No format is to be processed; those that could be. -/
  | noFormats (supported : List String)
deriving Repr, DecidableEq

/-- What is said about an entry for deep imports that can be ignored. -/
def matcherMessage (pattern : String) : String :=
  "invalid ignorableDeepImportMatchers entry \"" ++ pattern ++ "\""

/-- What is said about a fault. -/
def ConfigFault.message : ConfigFault → String
  | badMatcher pattern => matcherMessage pattern
  | largeMatcher pattern =>
    matcherMessage pattern ++ ": Compiled regex exceeds size limit of "
      ++ toString Pattern.sizeLimit ++ " bytes."
  | badTargets pattern => "\"paths\" entry \"" ++ pattern ++ "\" must be an array of strings"
  | noFormats supported =>
    "No supported format property to consider. Supported properties: " ++ intercalate ", " supported

/-- The causes of failed runs. -/
inductive Failure where
  /-- No format of an entry-point can be read for its imports. -/
  | noSourceFormat (entryPoint : String)
  /-- No way of reading imports is known for the format of an entry-point. -/
  | noDependencyHost (entryPoint : String)
  /-- Entry-points have none of the formats to process. -/
  | unprocessable (properties : String) (entryPoints : List String)
  /-- The target is no entry-point. -/
  | targetMissing (path : String)
  /-- The target lacks dependencies. -/
  | targetInvalid (path : String) (missing : List String)
  /-- The file system refuses an operation. -/
  | inaccessible (path : String) (cause : FileError)
  /-- A file is not the JSON it should be. -/
  | unparsable (path : String)
  /-- A configuration says something it cannot. -/
  | badConfiguration (path : String) (fault : ConfigFault)
  /-- A task failed and failures end the run. -/
  | taskFailed (entryPoint property message : String)
  /-- A worker sent what it cannot send. -/
  | workerMessage (worker : Nat) (payload : String)
  /-- A worker is gone or reports an error. -/
  | workerCrashed (worker : Nat) (message : String)
  /-- Tasks are left but none can be started. -/
  | deadlock (remaining : Nat)
deriving Repr, DecidableEq

/-- What is said about a failure. -/
def Failure.message : Failure → String
  | noSourceFormat entryPoint =>
    "There is no appropriate source code format in '" ++ entryPoint ++ "' entry-point."
  | noDependencyHost entryPoint =>
    "Could not find a suitable format for computing dependencies of entry-point: '"
      ++ entryPoint ++ "'."
  | unprocessable properties entryPoints =>
    "Unable to process any formats for the following entry-points (tried " ++ properties ++ "): "
      ++ intercalate ", " entryPoints
  | targetMissing path => "The target entry-point \"" ++ path ++ "\" could not be found."
  | targetInvalid path missing =>
    "The target entry-point \"" ++ path ++ "\" has missing dependencies:\n"
      ++ intercalate "\n" (missing.map (" - " ++ ·))
  | inaccessible path cause =>
    "Unable to access \"" ++ path ++ "\""
      ++ match cause.message? with
         | some message => ": " ++ message
         | none => ""
  | unparsable path => "Unable to parse \"" ++ path ++ "\""
  | badConfiguration path fault =>
    "Invalid ngcc configuration in \"" ++ path ++ "\": " ++ fault.message
  | taskFailed entryPoint property message =>
    "Failed to compile entry-point " ++ entryPoint ++ " (" ++ property
      ++ ") due to compilation errors:\n" ++ message
  | workerMessage worker payload =>
    "Invalid message received from worker #" ++ toString worker ++ ": " ++ payload
  | workerCrashed worker message => "Worker #" ++ toString worker ++ " failed: " ++ message
  | deadlock remaining =>
    "There are no tasks that can be processed, but " ++ toString remaining
      ++ " task(s) remain. This may be caused by a dependency cycle."

end PackageOrder
