/-
PackageOrder.Proofs.EntryPoint.Description — package descriptions in files.

A description that was loaded can be written and loaded again
(`FileTree.readable_of_packageJson?`), also with more marks
(`PackageJson.Readable.markProcessed`). What is loaded then is the description that
was written but for its floating-point numbers (`packageJson?_of_write`); all that is
asked of it is the same, where its formats lead and what was processed.
-/
import PackageOrder.Proofs.EntryPoint.Marker
import PackageOrder.Proofs.FileTree.Write
import PackageOrder.Proofs.Json.Reread

namespace PackageOrder

open PackageOrder.Json (Members Value nestingLimit rereadMembers)

/-! ## Loaded descriptions -/

/-- The description of a package in a tree was read from a text. -/
theorem FileTree.exists_parse?_of_packageJson? {tree : FileTree} {path : String}
    {description : PackageJson} (h : tree.packageJson? path = some description) :
    ∃ text, Json.parse? text = some (.object description) := by
  rw [FileTree.packageJson?] at h
  split at h
  · rename_i text _
    obtain ⟨value, hvalue, hobject⟩ := Option.bind_eq_some_iff.mp h
    cases value <;> cases hobject
    exact ⟨text, hvalue⟩
  · cases h

namespace PackageJson

variable {json : PackageJson}

/-- A description that can be loaded from the file that it is written to. -/
def Readable (json : PackageJson) : Prop :=
  (Value.object json).Readable nestingLimit

/-- What is loaded from the file that a description was written to. -/
def reread (json : PackageJson) : PackageJson :=
  rereadMembers json

theorem mark?_reread (json : PackageJson) (property : String) :
    json.reread.mark? property = (json.mark? property).map Value.reread := by
  rw [mark?, mark?, reread, Members.get?_reread, Option.bind_map, Option.map_bind]
  refine Option.bind_congr fun marks _ => ?_
  exact Value.get?_reread marks property

/-- The mark of a property as a text. -/
def version? (json : PackageJson) (property : String) : Option String :=
  (json.mark? property).bind Value.string?

theorem isProcessed_iff_version? {property : String} :
    json.isProcessed property = true ↔ json.version? property = some toolVersion := by
  rw [isProcessed_eq, beq_iff_eq, version?]

@[simp] theorem version?_reread (json : PackageJson) (property : String) :
    json.reread.version? property = json.version? property := by
  rw [version?, mark?_reread, Option.bind_map, version?]
  exact Option.bind_congr fun value _ => Value.string?_reread value

@[simp] theorem isProcessed_reread (json : PackageJson) (property : String) :
    json.reread.isProcessed property = json.isProcessed property := by
  rw [Bool.eq_iff_iff, isProcessed_iff_version?, version?_reread, isProcessed_iff_version?]

@[simp] theorem formatPath?_reread (json : PackageJson) (property : FormatProperty) :
    PackageJson.formatPath? json.reread property = json.formatPath? property := by
  rw [formatPath?, text?, reread, Members.get?_reread, Option.bind_map, formatPath?, text?]
  exact Option.bind_congr fun value _ => Value.string?_reread value

theorem version?_markProcessed (json : PackageJson) (properties : List String)
    (property : String) :
    (json.markProcessed properties).version? property
      = if property ∈ properties then some toolVersion else json.version? property := by
  rw [version?, mark?_markProcessed]
  split <;> rfl

/-! ## Marking -/

/-- Marking keeps a description readable. -/
theorem Readable.markProcessed (h : json.Readable) (properties : List String) :
    PackageJson.Readable (json.markProcessed properties) :=
  markProcessed_keeps Readable (fun members => (Value.object members).Readable 126)
    ⟨List.nodup_nil, trivial⟩
    (fun key _ hmembers => Value.readable_insert hmembers key trivial)
    (fun hmembers hinside => Value.readable_of_get? hmembers hinside)
    (fun key hmembers hinside => Value.readable_insert hmembers key hinside) h properties

end PackageJson

/-! ## Files -/

theorem fromUTF8?_toUTF8 (text : String) : String.fromUTF8? text.toUTF8 = some text :=
  dif_pos text.isValidUTF8

namespace FileTree

variable {tree changed : FileTree} {path : String} {json : PackageJson}

/-- A description that was loaded can be loaded again. -/
theorem readable_of_packageJson? (h : tree.packageJson? path = some json) : json.Readable := by
  obtain ⟨text, htext⟩ := exists_parse?_of_packageJson? h
  exact Json.readable_of_parse? htext

theorem readText_of_readBytes {text : String} (h : tree.readBytes path = .ok text.toUTF8) :
    tree.readText path = .ok text := by
  simp only [readText, h, bind, Except.bind, fromUTF8?_toUTF8]

/-- The text of a file that stands at the names of a path is read there. -/
theorem readText_of_entityAt (hcase : tree.caseSensitive = true) {text : String}
    (h : tree.entityAt (namesOf path) = some (.file text.toUTF8)) :
    tree.readText path = .ok text :=
  readText_of_readBytes (readBytes_of_entityAt hcase h)

/-- **A description that was written is loaded from its file.** -/
theorem packageJson?_of_write (hcase : tree.caseSensitive = true)
    (h : tree.writePackageJson path json = .ok changed) (hreadable : json.Readable) :
    changed.packageJson? path = some json.reread := by
  obtain ⟨hsame, hat⟩ := sameOutside_of_write hcase h
  rw [packageJson?, readText_of_entityAt hsame.sensitive.2 hat]
  change (Json.parse? ((Value.object json).indented ++ "\n")).bind Value.object? = _
  rw [Json.parse?_indented hreadable]
  rfl

/-- The description of another package is not touched, if its file is another one. -/
theorem packageJson?_of_write_apart (hcase : tree.caseSensitive = true) {other : String}
    (h : tree.writePackageJson path json = .ok changed)
    (hclear : tree.KeepsClear [namesOf path] other) :
    changed.packageJson? other = tree.packageJson? other := by
  obtain ⟨hsame, _⟩ := sameOutside_of_write hcase h
  rw [packageJson?, packageJson?, hsame.readText_eq hclear]

end FileTree

end PackageOrder
