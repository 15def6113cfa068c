/-
PackageOrder.Proofs.EntryPoint.Marked — a description that is marked again and again.

The description is held in memory and written to its file with each call
(`HeldDescription.mark`). A call sets marks, guards the scripts once and changes nothing
else (`PackageJson.markedWith_markProcessed`); from the first one on the description is
settled (`PackageJson.Settled`), so that a call which was made before changes nothing at all.
Over any calls the file and the memory stay in step (`HeldDescription.markEach_faithful`).
-/
import PackageOrder.Proofs.EntryPoint.Description

namespace PackageOrder

open PackageOrder.Json (Members Value)

/-! ## Members -/

namespace Json.Members

variable {members : Members} {key : String} {value : Value}

/-- The members with other keys than the given ones, in order. -/
def without (members : Members) (keys : List String) : Members :=
  members.filter (·.1 ∉ keys)

theorem without_append (members : Members) (keys more : List String) :
    members.without (keys ++ more) = (members.without keys).without more := by
  simp [without, List.filter_filter, Bool.and_comm]

theorem without_comm (members : Members) (keys more : List String) :
    (members.without keys).without more = (members.without more).without keys := by
  simp [without, List.filter_filter, Bool.and_comm]

/-- Giving a key a value is not seen without the key. -/
theorem without_insert (members : Members) (value : Value) {keys : List String} (h : key ∈ keys) :
    (members.insert key value).without keys = members.without keys := by
  induction members with
  | nil => simp [insert, without, h]
  | cons member rest ih =>
    obtain ⟨name, held⟩ := member
    rw [insert]
    split
    · rename_i heq
      simp [without, heq, h]
    · unfold without at ih ⊢
      rw [List.filter_cons, List.filter_cons, ih]

/-- Giving a key the value that it has changes nothing. -/
theorem insert_of_get? (h : members.get? key = some value) :
    members.insert key value = members := by
  induction members with
  | nil => cases h
  | cons member rest ih =>
    obtain ⟨name, held⟩ := member
    rw [get?, List.lookup_cons] at h
    rw [insert]
    by_cases hname : name = key
    · simp only [hname, beq_self_eq_true, Option.some.injEq] at h
      rw [if_pos hname, h]
    · have hne : (key == name) = false := beq_false_of_ne (Ne.symm hname)
      rw [hne] at h
      rw [if_neg hname, ih h]

end Json.Members

namespace PackageJson

/-- The members of the object under a key. -/
def membersAt (json : PackageJson) (key : String) : Members :=
  ((json.get? key).bind Value.object?).getD []

/-! ## Marks and scripts -/

theorem without_markProperties (marks : Members) {properties named : List String}
    (h : ∀ property ∈ properties, property ∈ named) :
    (markProperties marks properties).without named = marks.without named := by
  induction properties generalizing marks with
  | nil => rfl
  | cons first rest ih =>
    obtain ⟨hfirst, hrest⟩ := List.forall_mem_cons.mp h
    rw [markProperties, List.foldl_cons, ← markProperties, ih _ hrest,
      Members.without_insert marks _ hfirst]

/-- Marks that are there already are set without effect. -/
theorem markProperties_of_marked {marks : Members} {properties : List String}
    (h : ∀ property ∈ properties, marks.get? property = some (.string toolVersion)) :
    markProperties marks properties = marks := by
  induction properties with
  | nil => rfl
  | cons first rest ih =>
    obtain ⟨hfirst, hrest⟩ := List.forall_mem_cons.mp h
    rw [markProperties, List.foldl_cons, Members.insert_of_get? hfirst]
    exact ih hrest

theorem get?_publishKey_guardScripts (scripts : Members) :
    (guardScripts scripts).get? publishKey = some (.string refuseToPublish) :=
  Members.get?_insert_self _ _ _

/-- The guard of the scripts is not taken for a script of the package. -/
theorem guardScripts_of_guarded {scripts : Members}
    (h : scripts.get? publishKey = some (.string refuseToPublish)) :
    guardScripts scripts = scripts := by
  simp [guardScripts, h, Value.string?, Members.insert_of_get?]

theorem without_guardScripts (scripts : Members) :
    (guardScripts scripts).without [publishKey, publishBackupKey]
      = scripts.without [publishKey, publishBackupKey] := by
  unfold guardScripts
  dsimp only
  rw [Members.without_insert _ _ List.mem_cons_self]
  split
  · split
    · rfl
    · exact Members.without_insert _ _ (List.mem_cons_of_mem _ List.mem_cons_self)
  · rfl

/-- A script that ran before publishing is kept under the other key. -/
theorem get?_publishBackupKey_guardScripts {scripts : Members} {old : String}
    (h : scripts.get? publishKey = some (.string old)) (hold : old ≠ refuseToPublish) :
    (guardScripts scripts).get? publishBackupKey = some (.string old) := by
  have hne : publishBackupKey ≠ publishKey := by decide
  simp [guardScripts, h, Value.string?, hold, Members.get?_insert_of_ne _ _ hne,
    Members.get?_insert_self]

/-- What marking makes of what stands under the key of the scripts. -/
def guarded : Option Value → Value
  | none => .object (guardScripts [])
  | some (.object scripts) => .object (guardScripts scripts)
  | some other => other

theorem guarded_guarded (scripts : Option Value) :
    guarded (some (guarded scripts)) = guarded scripts := by
  have hagain : ∀ scripts, guardScripts (guardScripts scripts) = guardScripts scripts :=
    fun scripts => guardScripts_of_guarded (get?_publishKey_guardScripts scripts)
  rcases scripts with _ | value
  · exact congrArg Value.object (hagain [])
  · cases value with
    | object scripts => exact congrArg Value.object (hagain scripts)
    | _ => rfl

/-! ## One call -/

section Call

variable (json : PackageJson) (properties : List String)

theorem get?_markerKey_markProcessed : (json.markProcessed properties).get? markerKey
    = some (.object (markProperties (json.membersAt markerKey) properties)) := by
  rw [get?_markProcessed json properties (by decide), Members.get?_insert_self]
  rfl

theorem get?_scripts_markProcessed :
    (json.markProcessed properties).get? "scripts" = some (guarded (json.get? "scripts")) := by
  have hkey : "scripts" ≠ markerKey := by decide
  unfold markProcessed
  dsimp only
  rw [Members.get?_insert_of_ne _ _ hkey]
  cases hscripts : json.get? "scripts" with
  | none => exact Members.get?_insert_self _ _ _
  | some value =>
    cases value with
    | object scripts => exact Members.get?_insert_self _ _ _
    | _ => exact (Members.get?_insert_of_ne _ _ hkey).trans hscripts

theorem without_markProcessed : (json.markProcessed properties).without [markerKey, "scripts"]
    = Members.without json [markerKey, "scripts"] := by
  have hscripts : "scripts" ∈ [markerKey, "scripts"] :=
    List.mem_cons_of_mem _ List.mem_cons_self
  unfold markProcessed
  dsimp only
  split <;>
    simp only [Members.without_insert _ _ hscripts, Members.without_insert _ _ List.mem_cons_self]

theorem without_scripts_markProcessed :
    ((json.markProcessed properties).membersAt "scripts").without [publishKey, publishBackupKey]
      = (json.membersAt "scripts").without [publishKey, publishBackupKey] := by
  rw [membersAt, get?_scripts_markProcessed, membersAt]
  rcases json.get? "scripts" with _ | value
  · exact without_guardScripts []
  · cases value with
    | object scripts => exact without_guardScripts scripts
    | _ => rfl

end Call

/-- What calls do to a description that name some properties: these are processed, and all
else is as it was but for the marks of these and the scripts about publishing. -/
structure MarkedWith (named : List String) (before after : PackageJson) : Prop where
  processed : ∀ property,
    after.isProcessed property = true ↔ before.isProcessed property = true ∨ property ∈ named
  others : Members.without after [markerKey, "scripts"]
    = Members.without before [markerKey, "scripts"]
  marks : (after.membersAt markerKey).without named = (before.membersAt markerKey).without named
  scripts : (after.membersAt "scripts").without [publishKey, publishBackupKey]
    = (before.membersAt "scripts").without [publishKey, publishBackupKey]

theorem MarkedWith.refl (json : PackageJson) : MarkedWith [] json json where
  processed := by simp
  others := rfl
  marks := rfl
  scripts := rfl

theorem MarkedWith.trans {before middle after : PackageJson} {named more : List String}
    (h : MarkedWith named before middle) (h' : MarkedWith more middle after) :
    MarkedWith (named ++ more) before after where
  processed property := by
    rw [h'.processed, h.processed, List.mem_append, or_assoc]
  others := h'.others.trans h.others
  marks := by
    rw [Members.without_append, Members.without_comm, h'.marks, Members.without_comm, h.marks,
      Members.without_append]
  scripts := h'.scripts.trans h.scripts

/-- **A call marks its properties and changes nothing else.** -/
theorem markedWith_markProcessed (json : PackageJson) (properties : List String) :
    MarkedWith properties json (json.markProcessed properties) where
  processed property := by
    rw [isProcessed_markProcessed, Bool.or_eq_true, decide_eq_true_eq, or_comm]
  others := without_markProcessed json properties
  marks := by
    rw [membersAt, get?_markerKey_markProcessed]
    exact without_markProperties _ fun _ hproperty => hproperty
  scripts := without_scripts_markProcessed json properties

/-! ## Settled descriptions -/

/-- A description on which calls that name only these properties have no effect: they are
marked, and the scripts are guarded. -/
structure Settled (named : List String) (json : PackageJson) : Prop where
  marked : ∃ marks : Members, json.get? markerKey = some (.object marks)
    ∧ ∀ property ∈ named, marks.get? property = some (.string toolVersion)
  guarded : json.get? "scripts" = some (guarded (json.get? "scripts"))

theorem settled_markProcessed (json : PackageJson) (properties : List String) :
    Settled properties (json.markProcessed properties) where
  marked := by
    refine ⟨_, get?_markerKey_markProcessed json properties, fun property hproperty => ?_⟩
    rw [get?_markProperties, if_pos hproperty]
  guarded := by rw [get?_scripts_markProcessed, guarded_guarded]

namespace Settled

variable {json : PackageJson} {named : List String}

/-- What is settled stays settled, and more with it. -/
theorem markProcessed (h : Settled named json) (properties : List String) :
    Settled (named ++ properties) (json.markProcessed properties) where
  marked := by
    obtain ⟨marks, hmarks, hnamed⟩ := h.marked
    have hat : json.membersAt markerKey = marks := by rw [membersAt, hmarks]; rfl
    refine ⟨_, get?_markerKey_markProcessed json properties, fun property hproperty => ?_⟩
    rw [hat, get?_markProperties]
    split
    · rfl
    · rename_i hnew
      exact hnamed property ((List.mem_append.mp hproperty).resolve_right hnew)
  guarded := (settled_markProcessed json properties).guarded

/-- **A call without new properties has no effect.** -/
theorem again (h : Settled named json) {properties : List String}
    (hproperties : ∀ property ∈ properties, property ∈ named) :
    json.markProcessed properties = json := by
  obtain ⟨marks, hmarks, hnamed⟩ := h.marked
  have hmarked : markProperties marks properties = marks :=
    markProperties_of_marked fun property hmem => hnamed property (hproperties property hmem)
  have hguarded := h.guarded
  unfold PackageJson.markProcessed
  simp only [hmarks, Option.bind_some, Value.object?, Option.getD_some, hmarked,
    Members.insert_of_get? hmarks]
  cases hscripts : json.get? "scripts" with
  | none =>
    rw [hscripts] at hguarded
    cases hguarded
  | some value =>
    cases value with
    | object scripts =>
      rw [hscripts] at hguarded
      have hsame : Value.object (guardScripts scripts) = .object scripts :=
        (Option.some.inj hguarded).symm
      dsimp only
      rw [hsame]
      exact Members.insert_of_get? hscripts
    | _ => rfl

end Settled

/-! ## Integers -/

/-- The numbers of a description are integers. -/
def Integral (json : PackageJson) : Prop :=
  (Value.object json).Integral

/-- Marking brings no floating-point number in. -/
theorem Integral.markProcessed {json : PackageJson} (h : json.Integral)
    (properties : List String) : PackageJson.Integral (json.markProcessed properties) :=
  markProcessed_keeps Integral Integral trivial
    (fun key _ hmembers => Value.integral_insert hmembers key trivial)
    (fun hmembers hinside => Value.integral_of_get? hmembers hinside)
    (fun key hmembers hinside => Value.integral_insert hmembers key hinside) h properties

/-- A description whose numbers are integers is loaded as it was written. -/
theorem reread_of_integral {json : PackageJson} (h : json.Readable) (hintegral : json.Integral) :
    json.reread = json :=
  Value.object.inj (Value.reread_of_integral h hintegral)

end PackageJson

/-! ## Calls -/

/-- A description that is held in memory, with the tree that has its file. -/
structure HeldDescription where
  json : PackageJson
  tree : FileTree

namespace HeldDescription

/-- Marks properties in memory and in the file. -/
def mark (path : String) (held : HeldDescription) (properties : List String) :
    Except FileError HeldDescription := do
  let json := held.json.markProcessed properties
  let tree ← held.tree.writePackageJson path json
  return { json, tree }

/-- Several calls, one after the other. -/
def markEach (path : String) (held : HeldDescription) (calls : List (List String)) :
    Except FileError HeldDescription :=
  calls.foldlM (mark path) held

variable {path : String} {held middle after : HeldDescription} {properties : List String}
  {calls : List (List String)}

theorem mark_eq_ok_iff : held.mark path properties = .ok after
    ↔ after.json = held.json.markProcessed properties
      ∧ held.tree.writePackageJson path after.json = .ok after.tree := by
  obtain ⟨json, tree⟩ := after
  rw [mark]
  cases hwrite : held.tree.writePackageJson path (held.json.markProcessed properties) with
  | error cause =>
    refine ⟨fun h => (by cases h), ?_⟩
    rintro ⟨rfl, h⟩
    rw [hwrite] at h
    cases h
  | ok written =>
    constructor
    · intro h
      cases h
      exact ⟨rfl, hwrite⟩
    · rintro ⟨rfl, h⟩
      rw [hwrite] at h
      cases h
      rfl

theorem markEach_cons_eq_ok_iff : held.markEach path (properties :: calls) = .ok after
    ↔ ∃ middle, held.mark path properties = .ok middle
      ∧ middle.markEach path calls = .ok after := by
  rw [markEach, List.foldlM_cons]
  cases held.mark path properties with
  | error cause => exact ⟨fun h => (by cases h), fun ⟨_, h, _⟩ => (by cases h)⟩
  | ok middle =>
    constructor
    · exact fun h => ⟨middle, rfl, h⟩
    · rintro ⟨_, h, hrest⟩
      cases h
      exact hrest

/-- What holds of a description in memory and is kept by marking holds after all calls. -/
theorem of_markEach {kept : PackageJson → Prop}
    (hkept : ∀ json properties, kept json → kept (json.markProcessed properties))
    (h : held.markEach path calls = .ok after) (hheld : kept held.json) : kept after.json := by
  induction calls generalizing held with
  | nil => cases h; exact hheld
  | cons properties calls ih =>
    obtain ⟨middle, hmiddle, hrest⟩ := markEach_cons_eq_ok_iff.mp h
    exact ih hrest ((mark_eq_ok_iff.mp hmiddle).1 ▸ hkept held.json properties hheld)

theorem markedWith_of_markEach (h : held.markEach path calls = .ok after) :
    PackageJson.MarkedWith calls.flatten held.json after.json := by
  induction calls generalizing held with
  | nil => cases h; exact .refl _
  | cons properties calls ih =>
    obtain ⟨middle, hmiddle, hrest⟩ := markEach_cons_eq_ok_iff.mp h
    have hfirst := PackageJson.markedWith_markProcessed held.json properties
    rw [← (mark_eq_ok_iff.mp hmiddle).1] at hfirst
    exact hfirst.trans (ih hrest)

theorem settled_of_settled {named : List String} (h : held.markEach path calls = .ok after)
    (hheld : held.json.Settled named) : after.json.Settled (named ++ calls.flatten) := by
  induction calls generalizing held named with
  | nil => cases h; simpa using hheld
  | cons properties calls ih =>
    obtain ⟨middle, hmiddle, hrest⟩ := markEach_cons_eq_ok_iff.mp h
    have hsettled : middle.json.Settled (named ++ properties) :=
      (mark_eq_ok_iff.mp hmiddle).1 ▸ hheld.markProcessed properties
    simpa using ih hrest hsettled

/-- What calls leave is settled for all that they named. -/
theorem settled_of_markEach (h : held.markEach path calls = .ok after) (hcalls : calls ≠ []) :
    after.json.Settled calls.flatten := by
  cases calls with
  | nil => exact absurd rfl hcalls
  | cons properties calls =>
    obtain ⟨middle, hmiddle, hrest⟩ := markEach_cons_eq_ok_iff.mp h
    have hsettled : middle.json.Settled properties :=
      (mark_eq_ok_iff.mp hmiddle).1 ▸ PackageJson.settled_markProcessed held.json properties
    exact settled_of_settled hrest hsettled

/-- The scripts are guarded once, whatever calls follow. -/
theorem get?_scripts_of_markEach (h : held.markEach path calls = .ok after) (hcalls : calls ≠ []) :
    after.json.get? "scripts" = some (PackageJson.guarded (held.json.get? "scripts")) := by
  induction calls generalizing held with
  | nil => exact absurd rfl hcalls
  | cons properties calls ih =>
    obtain ⟨middle, hmiddle, hrest⟩ := markEach_cons_eq_ok_iff.mp h
    have hfirst : middle.json.get? "scripts"
        = some (PackageJson.guarded (held.json.get? "scripts")) :=
      (mark_eq_ok_iff.mp hmiddle).1 ▸ PackageJson.get?_scripts_markProcessed held.json properties
    cases calls with
    | nil => cases hrest; exact hfirst
    | cons next calls =>
      rw [ih hrest (List.cons_ne_nil _ _), hfirst, PackageJson.guarded_guarded]

/-- The file has the description as it is in memory: writing it again changes nothing. -/
theorem writePackageJson_of_markEach (h : held.markEach path calls = .ok after)
    (hcalls : calls ≠ []) : after.tree.writePackageJson path after.json = .ok after.tree := by
  induction calls generalizing held with
  | nil => exact absurd rfl hcalls
  | cons properties calls ih =>
    obtain ⟨middle, hmiddle, hrest⟩ := markEach_cons_eq_ok_iff.mp h
    cases calls with
    | nil =>
      cases hrest
      exact FileTree.write_again (mark_eq_ok_iff.mp hmiddle).2
    | cons next calls => exact ih hrest (List.cons_ne_nil _ _)

theorem caseSensitive_of_markEach (h : held.markEach path calls = .ok after)
    (hcase : held.tree.caseSensitive = true) : after.tree.caseSensitive = true := by
  induction calls generalizing held with
  | nil => cases h; exact hcase
  | cons properties calls ih =>
    obtain ⟨middle, hmiddle, hrest⟩ := markEach_cons_eq_ok_iff.mp h
    obtain ⟨hsame, _⟩ := FileTree.sameOutside_of_write hcase (mark_eq_ok_iff.mp hmiddle).2
    exact ih hrest hsame.sensitive.2

/-- A call that was made before changes neither memory nor file. -/
theorem mark_again (h : held.markEach path calls = .ok after) (hmem : properties ∈ calls) :
    after.mark path properties = .ok after := by
  have hcalls : calls ≠ [] := List.ne_nil_of_mem hmem
  refine mark_eq_ok_iff.mpr ⟨?_, writePackageJson_of_markEach h hcalls⟩
  refine ((settled_of_markEach h hcalls).again fun property hproperty => ?_).symm
  exact List.mem_flatten_of_mem hmem hproperty

/-- What is loaded from the file is what is in memory. -/
theorem packageJson?_of_markEach (hcase : held.tree.caseSensitive = true)
    (hreadable : held.json.Readable) (hintegral : held.json.Integral)
    (h : held.markEach path calls = .ok after) (hcalls : calls ≠ []) :
    after.tree.packageJson? path = some after.json := by
  have hreadable' : after.json.Readable :=
    of_markEach (fun _ properties hjson => hjson.markProcessed properties) h hreadable
  have hintegral' : after.json.Integral :=
    of_markEach (fun _ properties hjson => hjson.markProcessed properties) h hintegral
  rw [FileTree.packageJson?_of_write (caseSensitive_of_markEach h hcase)
    (writePackageJson_of_markEach h hcalls) hreadable',
    PackageJson.reread_of_integral hreadable' hintegral']

/-- A script that ran before publishing is kept. -/
theorem get?_publishBackupKey_of_markEach (h : held.markEach path calls = .ok after)
    (hcalls : calls ≠ []) {scripts : Members} {old : String}
    (hscripts : held.json.get? "scripts" = some (.object scripts))
    (hpublish : scripts.get? publishKey = some (.string old)) (hold : old ≠ refuseToPublish) :
    (after.json.membersAt "scripts").get? publishBackupKey = some (.string old) := by
  rw [PackageJson.membersAt, get?_scripts_of_markEach h hcalls, hscripts]
  exact PackageJson.get?_publishBackupKey_guardScripts hpublish hold

/-- **Marking is a faithful update**, however often it is done: the named properties are
processed and all else is as it was (`PackageJson.MarkedWith`), a call that is repeated
changes neither memory nor file, what is loaded from the file is what is in memory, and an
earlier script that ran before publishing is still kept. -/
theorem markEach_faithful {path : String} {held after : HeldDescription}
    {calls : List (List String)} (hcase : held.tree.caseSensitive = true)
    (hreadable : held.json.Readable) (hintegral : held.json.Integral)
    (h : held.markEach path calls = .ok after) :
    PackageJson.MarkedWith calls.flatten held.json after.json
      ∧ (∀ properties ∈ calls, after.mark path properties = .ok after)
      ∧ (calls ≠ [] ∨ held.tree.packageJson? path = some held.json →
        after.tree.packageJson? path = some after.json)
      ∧ (calls ≠ [] → ∀ (scripts : Members) old, held.json.get? "scripts" = some (.object scripts) →
        scripts.get? publishKey = some (.string old) → old ≠ refuseToPublish →
        (after.json.membersAt "scripts").get? publishBackupKey = some (.string old)) := by
  refine ⟨markedWith_of_markEach h, fun _ => mark_again h, fun hloaded => ?_,
    fun hcalls _ _ hscripts hpublish hold =>
      get?_publishBackupKey_of_markEach h hcalls hscripts hpublish hold⟩
  by_cases hcalls : calls = []
  · subst hcalls
    cases h
    exact hloaded.resolve_left fun hne => hne rfl
  · exact packageJson?_of_markEach hcase hreadable hintegral h hcalls

/-- A description that has a script that runs before publishing, and its folder. -/
def scripted : HeldDescription where
  json := [("name", .string "a"), ("scripts", .object [(publishKey, .string "tsc")]),
    ("sideEffects", .number (.natural 0))]
  tree := { root := [("a", .folder [])] }

/-- Two calls on it. -/
theorem markEach_faithful_scripted :
    ∃ after, scripted.markEach "/a/package.json" [["esm5"], ["esm5", "typings"]] = .ok after
      ∧ PackageJson.MarkedWith ["esm5", "esm5", "typings"] scripted.json after.json
      ∧ after.mark "/a/package.json" ["esm5"] = .ok after
      ∧ after.tree.packageJson? "/a/package.json" = some after.json
      ∧ (after.json.membersAt "scripts").get? publishBackupKey = some (.string "tsc") := by
  have hrun : (scripted.markEach "/a/package.json" [["esm5"], ["esm5", "typings"]]).toBool
      = true := by
    decide +kernel
  obtain ⟨after, hafter⟩ : ∃ after, scripted.markEach "/a/package.json"
      [["esm5"], ["esm5", "typings"]] = .ok after := by
    cases heq : scripted.markEach "/a/package.json" [["esm5"], ["esm5", "typings"]] with
    | error cause => rw [heq] at hrun; cases hrun
    | ok after => exact ⟨after, rfl⟩
  have hreadable : scripted.json.Readable :=
    ⟨by decide, trivial, ⟨by decide, trivial, trivial⟩,
      (show 0 < Nat.pow 2 64 by decide), trivial⟩
  have hintegral : scripted.json.Integral := ⟨trivial, ⟨trivial, trivial⟩, trivial, trivial⟩
  obtain ⟨hmarked, hagain, hloaded, hkept⟩ :=
    markEach_faithful rfl hreadable hintegral hafter
  have hcalls : [["esm5"], ["esm5", "typings"]] ≠ [] := List.cons_ne_nil _ _
  exact ⟨after, hafter, hmarked, hagain _ List.mem_cons_self, hloaded (Or.inl hcalls),
    hkept hcalls [(publishKey, .string "tsc")] "tsc" rfl (by simp [Members.get?]) (by decide)⟩

end HeldDescription

end PackageOrder
