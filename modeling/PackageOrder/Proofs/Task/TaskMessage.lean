/-
PackageOrder.Proofs.Task.TaskMessage — which messages are read as they were written.

The coordinator reads all reports of its workers so (`WorkerReport.read?_text`), but the
workers not all tasks. A task is written three levels above the description of its
package: in the message, in the task and in the entry-point. A description that can be
loaded may be nested as deep as any value, so the last three levels of that are lost on
the way.

* `Task.decode_form` — a task is read from its own form, if the description fits
  what room is left.
* `readTaskMessage?_taskMessage` — of the descriptions that were loaded, exactly
  those arrive that are nested at least three levels less than the limit.
-/
import PackageOrder.Proofs.EntryPoint.Description
import PackageOrder.Proofs.Json.RoundTrip
import PackageOrder.Task.Message

namespace PackageOrder

open PackageOrder.Json (Decoder Form Value IntegralItems ItemsWithin MembersWithin nestingLimit
  nestingOfItems nestingOfMembers)

/-! ## Reports -/

/-- A message is read in the form that it was written in, if it is within the
limits. -/
theorem readMessage?_compact {value : Value} (hvalue : value.Integral)
    (hlimit : (value.form.toValue Json.nestingLimit).isSome) :
    readMessage? value.compact = messageKind? value.form := by
  obtain ⟨read, hread⟩ := Option.isSome_iff_exists.mp hlimit
  rw [readMessage?, Json.readForm?_compact value hvalue]
  change Option.bind (value.form.toValue Json.nestingLimit) _ = _
  rw [hread]
  rfl

/-- **A report is read as it was written.** -/
theorem WorkerReport.read?_text (report : WorkerReport) : read? report.text = some report := by
  rcases report with (_ | message) | message
  · rw [read?, text, outcomeFields, readMessage?_compact _ rfl]
    · rfl
    · exact ⟨trivial, trivial, trivial, trivial⟩
  · rw [read?, text, outcomeFields, readMessage?_compact _ rfl]
    · rfl
    · exact ⟨trivial, trivial, trivial, trivial⟩
  · rw [read?, text, readMessage?_compact _ rfl]
    · rfl
    · exact ⟨trivial, trivial, trivial⟩

/-! ## Tasks -/

theorem FormatProperty.ofName?_name (property : FormatProperty) :
    FormatProperty.ofName? property.name = some property := by
  cases property <;> decide

/-- An entry-point is read from its form, if its description fits below it. -/
theorem EntryPoint.decode_form {room : Nat} (entryPoint : EntryPoint)
    (h : (Value.object entryPoint.packageJson).Within room) :
    EntryPoint.decode (room + 1) entryPoint.toJson.form = some entryPoint := by
  have hversion := Decoder.optional_form room entryPoint.packageVersion
  have hdescription := Decoder.members_form h
  rw [EntryPoint.decode, EntryPoint.toJson, Json.fields?_form]
  · simp [List.lookup_cons, hversion, hdescription]
  · rfl
  · decide

/-- **A task is read from its form**, if the description of its package fits below. -/
theorem Task.decode_form {room : Nat} (task : Task)
    (h : (Value.object task.entryPoint.packageJson).Within (room + 1)) :
    Task.decode (room + 3) task.toJson.form = some task := by
  have hentryPoint := EntryPoint.decode_form task.entryPoint h
  have hproperty := task.property.ofName?_name
  have hmarks := Decoder.list_form (Decoder.choice FormatProperty.ofName?)
    (fun mark => .string mark.name) (room + 1) FormatProperty.ofName?_name task.marks
  rw [Task.decode, Task.toJson, Json.fields?_form]
  · simp [List.lookup_cons, hentryPoint, hproperty, hmarks]
  · rfl
  · decide

/-! ## The limits of a message -/

/-- A message to a worker, before it is a text. -/
def taskValue (task : Task) : Value :=
  .object [("type", .string "process-task"), ("task", task.toJson)]

/-- Names are nothing but texts. -/
theorem integralItems_names (properties : List FormatProperty) :
    IntegralItems (properties.map fun property => .string property.name) := by
  induction properties with
  | nil => trivial
  | cons property properties ih => exact ⟨trivial, ih⟩

theorem nestingOfItems_names (properties : List FormatProperty) :
    nestingOfItems (properties.map fun property => .string property.name) = 0 := by
  induction properties with
  | nil => rfl
  | cons property properties ih =>
    rw [List.map_cons, nestingOfItems, ih]
    rfl

theorem integral_optionalText (text : Option String) :
    ((text.map Value.string).getD .null).Integral := by
  cases text <;> trivial

theorem integral_taskValue {task : Task}
    (h : (Value.object task.entryPoint.packageJson).Integral) : (taskValue task).Integral := by
  have hentryPoint : task.entryPoint.toJson.Integral :=
    ⟨trivial, trivial, trivial, integral_optionalText _, trivial, h, trivial, trivial, trivial,
      trivial, trivial⟩
  exact ⟨trivial, ⟨hentryPoint, trivial, integralItems_names task.marks, trivial, trivial⟩, trivial⟩

/-- The description of the package is what is nested the deepest in a message. -/
theorem nesting_taskValue (task : Task) :
    (taskValue task).nesting = (Value.object task.entryPoint.packageJson).nesting + 3 := by
  have hversion : ((task.entryPoint.packageVersion.map Value.string).getD .null).nesting = 0 := by
    cases task.entryPoint.packageVersion <;> rfl
  simp only [taskValue, Task.toJson, EntryPoint.toJson, Value.nesting, nestingOfMembers,
    nestingOfItems_names, hversion]
  omega

theorem itemsWithin_names (room : Nat) (properties : List FormatProperty) :
    ItemsWithin room (properties.map fun property => .string property.name) := by
  induction properties with
  | nil => trivial
  | cons property properties ih => exact ⟨trivial, ih⟩

theorem within_optionalText (room : Nat) (text : Option String) :
    ((text.map Value.string).getD .null).Within room := by
  cases text <;> trivial

theorem within_taskValue {room : Nat} {task : Task}
    (h : (Value.object task.entryPoint.packageJson).Within (room + 1)) :
    (taskValue task).Within (room + 4) := by
  have hkeys : EntryPoint.keys.Nodup := by decide
  have hentryPoint : task.entryPoint.toJson.Within (room + 2) :=
    ⟨hkeys, trivial, trivial, trivial, within_optionalText _ _, trivial, h, trivial, trivial,
      trivial, trivial, trivial⟩
  have htaskKeys : (["entryPoint", "formatProperty", "formatPropertiesToMarkAsProcessed",
    "processDts"] : List String).Nodup := by decide
  have htask : task.toJson.Within (room + 3) :=
    ⟨htaskKeys, hentryPoint, trivial, itemsWithin_names _ task.marks, trivial, trivial⟩
  have hmessageKeys : (["type", "task"] : List String).Nodup := by decide
  exact ⟨hmessageKeys, trivial, htask, trivial⟩

/-- A message with a description that fits is read. -/
theorem readTaskMessage?_of_within {task : Task}
    (h : (Value.object task.entryPoint.packageJson).Within (nestingLimit - 3)) :
    readTaskMessage? (taskMessage task) = some task := by
  have hwithin : (taskValue task).Within nestingLimit := within_taskValue h
  have hread : readMessage? (taskMessage task)
      = some ("process-task", (Value.object [("task", task.toJson)]).form) := by
    rw [taskMessage, ← taskValue, readMessage?_compact (integral_taskValue h.integral)]
    · rfl
    · rw [Value.toValue_form hwithin]
      rfl
  have htask : Task.decode (nestingLimit - 1) task.toJson.form = some task := Task.decode_form task h
  rw [readTaskMessage?, hread]
  simp only [Option.bind_eq_bind, Option.bind_some]
  rw [show nestingLimit = nestingLimit - 1 + 1 from rfl, Json.fields?_form]
  · simp [htask]
  · rfl
  · decide

/-- A message that is nested too deep is not read. -/
theorem readTaskMessage?_of_deep {task : Task}
    (hintegral : (Value.object task.entryPoint.packageJson).Integral)
    (hdeep : nestingLimit < (Value.object task.entryPoint.packageJson).nesting + 3) :
    readTaskMessage? (taskMessage task) = none := by
  rw [← nesting_taskValue] at hdeep
  rw [readTaskMessage?, readMessage?, taskMessage, ← taskValue,
    Json.readForm?_compact _ (integral_taskValue hintegral)]
  change ((taskValue task).form.toValue nestingLimit).bind _ >>= _ = _
  rw [Value.toValue_form_eq_none hdeep]
  rfl

/-! ## Loaded descriptions -/

/-- The text of a value in a file is loaded as its members, within the limits. -/
theorem FileTree.packageJson?_of_readText {tree : FileTree} {path : String}
    {description : PackageJson}
    (hread : tree.readText path = .ok (Value.object description).compact)
    (h : (Value.object description).Within nestingLimit) :
    tree.packageJson? path = some description := by
  rw [FileTree.packageJson?, hread]
  change (Json.parse? _).bind Value.object? = _
  rw [Json.parse?_compact h]
  rfl

/-! ## Nested arrays -/

/-- An array in an array and so on, `n` of them around the innermost. -/
def nestedArrays : Nat → Value
  | 0 => .array []
  | n + 1 => .array [nestedArrays n]

/-- A description with nested arrays under a key of no meaning. -/
def nestedDescription (n : Nat) : PackageJson :=
  [("name", .string "a"), ("main", .string "./main.js"), ("x", nestedArrays n)]

/-- A tree with nothing but the description of a package. -/
def treeOf (description : PackageJson) : FileTree where
  root := [("package.json", .file (Value.object description).compact.toUTF8)]

/-- A task for a package with a description. -/
def taskOf (description : PackageJson) : Task where
  entryPoint := { (default : EntryPoint) with name := "a", path := "/", packageJson := description }
  property := .main
  marks := [.main]
  processTypings := true

theorem nesting_nestedArrays (n : Nat) : (nestedArrays n).nesting = n + 1 := by
  induction n with
  | zero => rfl
  | succ n ih =>
    rw [nestedArrays, Value.nesting, nestingOfItems, nestingOfItems, ih]
    omega

theorem within_nestedArrays (n : Nat) : (nestedArrays n).Within (n + 1) := by
  induction n with
  | zero => exact trivial
  | succ n ih => exact ⟨ih, trivial⟩

theorem nesting_nestedDescription (n : Nat) :
    (Value.object (nestedDescription n)).nesting = n + 2 := by
  simp only [nestedDescription, Value.nesting, nestingOfMembers, nesting_nestedArrays]
  omega

theorem within_nestedDescription (n : Nat) :
    (Value.object (nestedDescription n)).Within (n + 2) := by
  have hkeys : (["name", "main", "x"] : List String).Nodup := by decide
  exact ⟨hkeys, trivial, trivial, within_nestedArrays n, trivial⟩

theorem packageJson?_treeOf {description : PackageJson}
    (h : (Value.object description).Within nestingLimit) :
    (treeOf description).packageJson? "/package.json" = some description := by
  have hbytes : (treeOf description).readBytes "/package.json"
      = .ok (Value.object description).compact.toUTF8 := rfl
  have hread : (treeOf description).readText "/package.json"
      = .ok (Value.object description).compact := FileTree.readText_of_readBytes hbytes
  exact FileTree.packageJson?_of_readText hread h

/-! ## What arrives -/

/-- **A task arrives as it was sent exactly if the description of its package is
nested at least three levels less deep than a file may be.** Any other task that
was made of a file is not read at all. -/
theorem readTaskMessage?_taskMessage (tree : FileTree) (path : String) (task : Task)
    (hloaded : tree.packageJson? path = some task.entryPoint.packageJson)
    (hintegral : (Value.object task.entryPoint.packageJson).Integral) :
    readTaskMessage? (taskMessage task)
      = if (Value.object task.entryPoint.packageJson).nesting + 3 ≤ nestingLimit then some task
        else none := by
  obtain ⟨text, htext⟩ := FileTree.exists_parse?_of_packageJson? hloaded
  have hwithin := Json.within_of_parse? htext hintegral
  split
  · rename_i hnesting
    exact readTaskMessage?_of_within
      (Value.within_of_nesting_le hwithin (Nat.le_sub_of_add_le hnesting))
  · rename_i hnesting
    exact readTaskMessage?_of_deep hintegral (Nat.lt_of_not_le hnesting)

/-- The deepest description that arrives. -/
theorem readTaskMessage?_taskMessage_deepest :
    let task := taskOf (nestedDescription 122)
    (treeOf (nestedDescription 122)).packageJson? "/package.json"
        = some task.entryPoint.packageJson
      ∧ (Value.object task.entryPoint.packageJson).Integral
      ∧ readTaskMessage? (taskMessage task) = some task := by
  intro task
  have hwithin := within_nestedDescription 122
  have hloaded := packageJson?_treeOf (Value.within_of_nesting_le hwithin
    (Nat.le_trans (Nat.le_of_eq (nesting_nestedDescription 122)) (by decide)))
  refine ⟨hloaded, hwithin.integral, ?_⟩
  rw [readTaskMessage?_taskMessage _ _ task hloaded hwithin.integral]
  exact if_pos (Nat.le_of_eq (congrArg (· + 3) (nesting_nestedDescription 122)))

/-- A description that is nested one level deeper is loaded from a file, but the
message about it is not read. -/
theorem readTaskMessage?_deep_description :
    let task := taskOf (nestedDescription 123)
    (treeOf (nestedDescription 123)).packageJson? "/package.json"
        = some task.entryPoint.packageJson
      ∧ (Value.object task.entryPoint.packageJson).Integral
      ∧ readTaskMessage? (taskMessage task) = none := by
  intro task
  have hwithin := within_nestedDescription 123
  have hloaded := packageJson?_treeOf (Value.within_of_nesting_le hwithin
    (Nat.le_trans (Nat.le_of_eq (nesting_nestedDescription 123)) (by decide)))
  refine ⟨hloaded, hwithin.integral, readTaskMessage?_of_deep hwithin.integral ?_⟩
  rw [show task.entryPoint.packageJson = nestedDescription 123 from rfl,
    nesting_nestedDescription]
  decide

end PackageOrder
