/-
PackageOrder.Task.Worker — compiling the tasks that messages give.
-/
import PackageOrder.Task.Message
import PackageOrder.Task.Single

namespace PackageOrder

/-- What a worker says of a text that gives it no task. -/
def unreadableTask (worker : Nat) (text : String) : String :=
  "Invalid message received by worker #" ++ toString worker ++ ": " ++ text

/-- The report of a worker about a message. -/
def workerReport (compiler : Compiler) (worker : Nat) (text : String) :
    StateM Session WorkerReport := do
  match readTaskMessage? text with
  | some task => return .ended (← compileTask compiler task)
  | none => return .error (unreadableTask worker text)

/-- Whether a worker goes on after a report. -/
def WorkerReport.goesOn : WorkerReport → Bool
  | .ended _ => true
  | .error _ => false

/-- The reports of a worker about the messages in its inbox, and the messages
it does not read: it stops after an error, and goes on whether or not anyone
hears its reports. -/
def runWorker (compiler : Compiler) (worker : Nat) :
    List String → StateM Session (List WorkerReport × List String)
  | [] => return ([], [])
  | text :: rest => do
    let report ← workerReport compiler worker text
    if !report.goesOn then return ([report], rest)
    let (others, unread) ← runWorker compiler worker rest
    return (report :: others, unread)

/-- The reports that arrive: none, when nobody takes them any more. -/
def heardReports (isHeard : Bool) (reports : List WorkerReport) : List WorkerReport :=
  if isHeard then reports else []

end PackageOrder
