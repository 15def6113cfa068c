/-
PackageOrder.Task.Message — what a coordinator and its workers tell each other,
as JSON texts.

A message names its kind. A text is read as a message only if all of it is
within the limits for values, also what the message does not need.
-/
import PackageOrder.Json.Decode
import PackageOrder.Json.Writer
import PackageOrder.Task.Basic

namespace PackageOrder

open PackageOrder.Json (Decoder Form Value)

/-! ## Tasks -/

namespace EntryPoint

/-- The keys of an entry-point. -/
def keys : List String :=
  ["name", "path", "packageName", "packageVersion", "packagePath", "packageJson", "typings",
    "compiledByAngular", "ignoreMissingDependencies", "generateDeepReexports"]

/-- An entry-point as it is written. -/
def toJson (entryPoint : EntryPoint) : Value :=
  .object
    [("name", .string entryPoint.name),
      ("path", .string entryPoint.path),
      ("packageName", .string entryPoint.packageName),
      ("packageVersion", (entryPoint.packageVersion.map Value.string).getD .null),
      ("packagePath", .string entryPoint.packagePath),
      ("packageJson", .object entryPoint.packageJson),
      ("typings", .string entryPoint.typings),
      ("compiledByAngular", .bool entryPoint.compiledByAngular),
      ("ignoreMissingDependencies", .bool entryPoint.ignoreMissingDependencies),
      ("generateDeepReexports", .bool entryPoint.generateDeepReexports)]

/-- Reads an entry-point. -/
def decode : Decoder EntryPoint := fun room form => do
  let fields ← Json.fields? keys false room form
  return {
    name := ← fields.required "name" Decoder.text
    path := ← fields.required "path" Decoder.text
    packageName := ← fields.required "packageName" Decoder.text
    packageVersion := ← fields.withDefault "packageVersion" (Decoder.optional Decoder.text) none
    packagePath := ← fields.required "packagePath" Decoder.text
    packageJson := ← fields.required "packageJson" Decoder.members
    typings := ← fields.required "typings" Decoder.text
    compiledByAngular := ← fields.required "compiledByAngular" Decoder.bool
    ignoreMissingDependencies := ← fields.required "ignoreMissingDependencies" Decoder.bool
    generateDeepReexports := ← fields.required "generateDeepReexports" Decoder.bool }

end EntryPoint

namespace Task

/-- A task as it is written. -/
def toJson (task : Task) : Value :=
  .object
    [("entryPoint", task.entryPoint.toJson),
      ("formatProperty", .string task.property.name),
      ("formatPropertiesToMarkAsProcessed", .array (task.marks.map fun mark => .string mark.name)),
      ("processDts", .bool task.processTypings)]

/-- Reads a task. -/
def decode : Decoder Task := fun room form => do
  let fields ← Json.fields?
    ["entryPoint", "formatProperty", "formatPropertiesToMarkAsProcessed", "processDts"]
    false room form
  let property := Decoder.choice FormatProperty.ofName?
  return {
    entryPoint := ← fields.required "entryPoint" EntryPoint.decode
    property := ← fields.required "formatProperty" property
    marks := ← fields.required "formatPropertiesToMarkAsProcessed" (Decoder.list property)
    processTypings := ← fields.required "processDts" Decoder.bool }

end Task

/-! ## Kinds of messages -/

/-- The kind of a message and the rest of it: an object that names its kind
once, or an array with the kind at its front. -/
def messageKind? : Form → Option (String × Form)
  | .object entries =>
    match entries.filter (·.1 == "type") with
    | [(_, .string kind)] => some (kind, .object (entries.filter (·.1 != "type")))
    | _ => none
  | .array (.string kind :: rest) => some (kind, .array rest)
  | _ => none

/-- The kind of a text and the rest of it, if the text is within the limits. -/
def readMessage? (text : String) : Option (String × Form) := do
  let form ← Json.readForm? text.toList
  let _ ← form.toValue Json.nestingLimit
  messageKind? form

/-! ## To a worker -/

/-- The text that gives a worker a task. -/
def taskMessage (task : Task) : String :=
  (Value.object [("type", .string "process-task"), ("task", task.toJson)]).compact

/-- The task that a text gives to a worker. -/
def readTaskMessage? (text : String) : Option Task := do
  match ← readMessage? text with
  | ("process-task", rest) =>
    let fields ← Json.fields? ["task"] false Json.nestingLimit rest
    fields.required "task" Task.decode
  | _ => none

/-! ## From a worker -/

/-- What a worker reports. -/
inductive WorkerReport where
  | ended (outcome : Outcome)
  | error (message : String)
deriving Repr, DecidableEq

namespace WorkerReport

/-- The name of an outcome and what is said about it. -/
def outcomeFields : Outcome → List (String × Value)
  | .processed => [("outcome", .string "processed"), ("message", .null)]
  | .failed message => [("outcome", .string "failed"), ("message", .string message)]

/-- The text of a report. -/
def text : WorkerReport → String
  | ended outcome =>
    (Value.object (("type", .string "task-completed") :: outcomeFields outcome)).compact
  | error message =>
    (Value.object [("type", .string "error"), ("error", .string message)]).compact

/-- The outcome with a name and perhaps something said about it. -/
def outcomeOf? (message : Option String) : String → Option Outcome
  | "processed" => some .processed
  | "failed" => some (.failed (message.getD ""))
  | _ => none

/-- The report of a text. -/
def read? (text : String) : Option WorkerReport := do
  match ← readMessage? text with
  | ("task-completed", rest) =>
    let fields ← Json.fields? ["outcome", "message"] true Json.nestingLimit rest
    let message ← fields.withDefault "message" (Decoder.optional Decoder.text) none
    return .ended (← fields.required "outcome" (Decoder.choice (outcomeOf? message)))
  | ("error", rest) =>
    let fields ← Json.fields? ["error"] false Json.nestingLimit rest
    return .error (← fields.required "error" Decoder.text)
  | _ => none

end WorkerReport

end PackageOrder
