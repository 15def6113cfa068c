/-
PackageOrder.Proofs.EntryPoint.Marker — what marking a package description changes.

The marks of the given properties are set, every other mark stays
(`mark?_markProcessed`), and so does all that the description says under other keys
(`get?_markProcessed_of_ne`), among it where its format properties lead.
-/
import PackageOrder.EntryPoint.Marker

namespace PackageOrder

open PackageOrder.Json (Members Value)

/-! ## Format properties -/

namespace FormatProperty

theorem mem_all (property : FormatProperty) : property ∈ all := by
  cases property <;> decide

theorem name_injective {one other : FormatProperty} (h : one.name = other.name) : one = other := by
  revert h
  cases one <;> cases other <;> decide

/-- No format property is written under a key that has another meaning. -/
theorem name_ne (property : FormatProperty) :
    property.name ≠ markerKey ∧ property.name ≠ "scripts" ∧ property.name ≠ "typings" := by
  cases property <;> decide

end FormatProperty

/-! ## Marks -/

namespace PackageJson

/-- The mark of a property. -/
def mark? (json : PackageJson) (property : String) : Option Value :=
  (json.get? markerKey).bind (·.get? property)

theorem isProcessed_eq (json : PackageJson) (property : String) :
    json.isProcessed property = ((json.mark? property).bind Value.string? == some toolVersion) :=
  rfl

/-! ## Setting marks -/

theorem get?_markProperties (marks : Members) (properties : List String) (property : String) :
    (markProperties marks properties).get? property
      = if property ∈ properties then some (.string toolVersion) else marks.get? property := by
  induction properties generalizing marks with
  | nil => rfl
  | cons first rest ih =>
    rw [markProperties, List.foldl_cons, ← markProperties, ih]
    by_cases hrest : property ∈ rest
    · rw [if_pos hrest, if_pos (List.mem_cons_of_mem _ hrest)]
    · rw [if_neg hrest]
      by_cases hfirst : property = first
      · rw [hfirst, if_pos List.mem_cons_self, Members.get?_insert_self]
      · have hnone : property ∉ first :: rest := by
          rw [List.mem_cons]
          exact fun h => h.elim hfirst hrest
        rw [if_neg hnone, Members.get?_insert_of_ne _ _ hfirst]

/-- The marks that a description is given. -/
def newMarks (json : PackageJson) (properties : List String) : Value :=
  .object (markProperties (((json.get? markerKey).bind Value.object?).getD []) properties)

/-- Apart from the marks only the scripts may change. -/
theorem get?_markProcessed (json : PackageJson) (properties : List String) {key : String}
    (hkey : key ≠ "scripts") :
    (json.markProcessed properties).get? key
      = (json.insert markerKey (json.newMarks properties)).get? key := by
  unfold markProcessed
  dsimp only
  split
  · exact Members.get?_insert_of_ne _ _ hkey
  · exact Members.get?_insert_of_ne _ _ hkey
  · rfl

theorem get?_markProcessed_of_ne (json : PackageJson) (properties : List String) {key : String}
    (hmarks : key ≠ markerKey) (hscripts : key ≠ "scripts") :
    (json.markProcessed properties).get? key = json.get? key := by
  rw [get?_markProcessed json properties hscripts, Members.get?_insert_of_ne _ _ hmarks]

theorem mark?_newMarks (json : PackageJson) (properties : List String) (property : String) :
    (json.newMarks properties).get? property
      = if property ∈ properties then some (.string toolVersion) else json.mark? property := by
  change (markProperties _ properties).get? property = _
  rw [get?_markProperties]
  congr 1
  rw [mark?]
  rcases json.get? markerKey with _ | value
  · rfl
  · cases value <;> rfl

/-- **Marking sets the marks of the properties and keeps the others.** -/
theorem mark?_markProcessed (json : PackageJson) (properties : List String) (property : String) :
    (json.markProcessed properties).mark? property
      = if property ∈ properties then some (.string toolVersion) else json.mark? property := by
  rw [mark?, get?_markProcessed json properties (by decide), Members.get?_insert_self]
  exact mark?_newMarks json properties property

theorem isProcessed_markProcessed (json : PackageJson) (properties : List String)
    (property : String) :
    (json.markProcessed properties).isProcessed property
      = (decide (property ∈ properties) || json.isProcessed property) := by
  rw [isProcessed_eq, mark?_markProcessed, isProcessed_eq]
  by_cases hmem : property ∈ properties <;> simp [hmem, Value.string?]

/-! ## What marking keeps -/

section Keeps

-- what is asked of a description (`outer`) and of the objects in it (`inner`)
variable (outer inner : Members → Prop) (hempty : inner [])
  (htext : ∀ {members : Members} (key text : String),
    inner members → inner (members.insert key (.string text)))
  (hget : ∀ {members inside : Members} {key : String},
    outer members → members.get? key = some (.object inside) → inner inside)
  (hput : ∀ {members inside : Members} (key : String),
    outer members → inner inside → outer (members.insert key (.object inside)))

include htext

theorem markProperties_keeps {marks : Members} (h : inner marks) (properties : List String) :
    inner (markProperties marks properties) := by
  induction properties generalizing marks with
  | nil => exact h
  | cons property properties ih => exact ih (htext property toolVersion h)

theorem guardScripts_keeps {scripts : Members} (h : inner scripts) :
    inner (guardScripts scripts) := by
  unfold guardScripts
  dsimp only
  refine htext _ _ ?_
  split
  · split
    · exact h
    · exact htext _ _ h
  · exact h

include hempty hget hput

/-- What a description keeps when texts are put into its objects it keeps when it is
marked. -/
theorem markProcessed_keeps {json : PackageJson} (h : outer json) (properties : List String) :
    outer (json.markProcessed properties) := by
  have hmarks : inner (((json.get? markerKey).bind Value.object?).getD []) := by
    cases hvalue : json.get? markerKey with
    | none => exact hempty
    | some value =>
      cases value with
      | object marks => exact hget h hvalue
      | _ => exact hempty
  have hmarked : outer (json.insert markerKey (.object (markProperties _ properties))) :=
    hput markerKey h (markProperties_keeps inner htext hmarks properties)
  unfold PackageJson.markProcessed
  dsimp only
  split
  · exact hput _ hmarked (guardScripts_keeps inner htext hempty)
  · rename_i scripts hscripts
    exact hput _ hmarked (guardScripts_keeps inner htext (hget hmarked hscripts))
  · exact hmarked

end Keeps

/-! ## What stays -/

/-- Format properties lead where they led. -/
@[simp] theorem formatPath?_markProcessed (json : PackageJson) (properties : List String)
    (property : FormatProperty) :
    PackageJson.formatPath? (json.markProcessed properties) property
      = json.formatPath? property := by
  obtain ⟨hmarks, hscripts, _⟩ := property.name_ne
  rw [formatPath?, text?, get?_markProcessed_of_ne json properties hmarks hscripts]
  rfl

end PackageJson

end PackageOrder
