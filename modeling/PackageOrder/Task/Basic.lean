/-
PackageOrder.Task.Basic — the units of work: one format of one entry-point.

What compiling says of a task is its outcome; a failure is told by its causes,
the outermost first, or by the last words of a compiler that crashed.
-/
import PackageOrder.EntryPoint.Basic

namespace PackageOrder

open PackageOrder.Text

/-- A unit of work: compile one format of an entry-point. -/
structure Task where
  entryPoint : EntryPoint
  property : FormatProperty
  /-- The properties that lead to the same bundle. -/
  marks : List FormatProperty
  /-- Whether the types of the entry-point are part of the task. -/
  processTypings : Bool
deriving Repr

namespace Task

/-- The path of the entry-point of a task. -/
abbrev path (task : Task) : String :=
  task.entryPoint.path

/-- How a task is called in messages. -/
def describe (task : Task) : String :=
  task.entryPoint.name ++ " : " ++ task.property.name

end Task

/-- How a task ended. -/
inductive Outcome where
  | processed
  | failed (message : String)
deriving Repr, DecidableEq

/-! ## Compiling -/

/-- What compiling a task comes to. -/
inductive CompileResult where
  | done
  /-- An error with the errors that caused it, one after the other. -/
  | error (message : String) (causes : List String)
  /-- The compiler crashed, perhaps with last words. -/
  | crash (message : Option String)
deriving Repr, DecidableEq

/-- A text whose first line starts with one margin and the others with
another. -/
def indentLines (first others text : String) : String :=
  match (splitOn '\n' text.toList).map String.ofList with
  | [] => first
  | line :: lines => intercalate "\n" ((first ++ line) :: lines.map (others ++ ·))

/-- A number in five columns, with a colon. -/
def numberMargin (n : Nat) : String :=
  let digits := toString n
  String.ofList (List.replicate (5 - digits.length) ' ') ++ digits ++ ": "

/-- Causes one below the other, numbered if there are several. -/
def causeLines : List String → List String
  | [] => []
  | [cause] => [indentLines "    " "    " cause]
  | causes => causes.zipIdx.map fun (cause, n) => indentLines (numberMargin n) "       " cause

/-- An error and its causes as one text. -/
def errorReport (message : String) (causes : List String) : String :=
  if causes.isEmpty then message
  else intercalate "\n" ((message ++ "\n\nCaused by:") :: causeLines causes)

/-- The outcome of a task by what compiling it came to. -/
def CompileResult.outcome : CompileResult → Outcome
  | done => .processed
  | error message causes => .failed (errorReport message causes)
  | crash message => .failed (message.getD "unknown panic")

end PackageOrder
