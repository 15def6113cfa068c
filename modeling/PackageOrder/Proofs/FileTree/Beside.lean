/-
PackageOrder.Proofs.FileTree.Beside — what stands beside a file that was changed.

Writing or removing a file changes what stands at its names and nothing else, in any
tree that tells names apart by case (`sameBeside_of_write`, `sameBeside_of_remove`):
nothing is asked of the names in its folders or of its links. So changes of several
files add up (`SameBeside.trans`), and what is not among them is as it was.
-/
import PackageOrder.Proofs.FileTree.Write

namespace PackageOrder.FileTree

/-- A tree that was changed at some names only. Beside them stands what stood there: the
same file, a link to the same target, a folder, or nothing. -/
structure SameBeside (places : List (List String)) (tree changed : FileTree) : Prop where
  caseSensitive : changed.caseSensitive = tree.caseSensitive
  workingDir : changed.workingDir = tree.workingDir
  stands : ∀ names, names ∉ places →
    (changed.entityAt names).map Entity.top = (tree.entityAt names).map Entity.top

namespace SameBeside

variable {places more : List (List String)} {tree changed last : FileTree}

theorem refl (places : List (List String)) (tree : FileTree) : SameBeside places tree tree :=
  ⟨rfl, rfl, fun _ _ => rfl⟩

theorem mono (h : SameBeside places tree changed) (hmore : places ⊆ more) :
    SameBeside more tree changed :=
  ⟨h.caseSensitive, h.workingDir, fun names hnames => h.stands names fun hmem => hnames (hmore hmem)⟩

theorem trans (h : SameBeside places tree changed) (h' : SameBeside places changed last) :
    SameBeside places tree last where
  caseSensitive := h'.caseSensitive.trans h.caseSensitive
  workingDir := h'.workingDir.trans h.workingDir
  stands names hnames := (h'.stands names hnames).trans (h.stands names hnames)

theorem hasFolder_iff (h : SameBeside places tree changed) {names : List String}
    (hnames : names ∉ places) : changed.HasFolder names ↔ tree.HasFolder names := by
  have hfolder : ∀ {one other : FileTree},
      (other.entityAt names).map Entity.top = (one.entityAt names).map Entity.top →
      one.HasFolder names → other.HasFolder names := by
    rintro one other hstands ⟨entries, hone⟩
    rw [hone] at hstands
    obtain ⟨found, hfound, htop⟩ := Option.map_eq_some_iff.mp hstands
    obtain ⟨others, rfl⟩ := Entity.exists_folder_of_top htop
    exact ⟨others, hfound⟩
  exact ⟨hfolder (h.stands names hnames).symm, hfolder (h.stands names hnames)⟩

/-- A file that stands beside the names is still there. -/
theorem entityAt_file (h : SameBeside places tree changed) {names : List String}
    (hnames : names ∉ places) {contents : ByteArray}
    (hfile : tree.entityAt names = some (.file contents)) :
    changed.entityAt names = some (.file contents) := by
  have hstands := h.stands names hnames
  rw [hfile] at hstands
  obtain ⟨found, hfound, htop⟩ := Option.map_eq_some_iff.mp hstands
  rw [hfound, Entity.eq_file_of_top htop]

end SameBeside

/-! ## Writing and removing -/

section

variable {tree changed : FileTree} {path : String}

theorem Renewal.sameBeside {parent : List String} {name : String} {before after : Folder}
    (h : Renewal tree changed parent name before after) :
    SameBeside [parent ++ [name]] tree changed where
  caseSensitive := h.sensitive.2.trans h.sensitive.1.symm
  workingDir := h.workingDir
  stands names hnames := by
    by_cases hbelow : parent ++ [name] <+: names
    · -- neither before nor after a folder stands there, so there is nothing below
      obtain ⟨rest, rfl⟩ := hbelow
      have hrest : rest ≠ [] := by
        rintro rfl
        exact hnames (List.mem_singleton.mpr (List.append_nil _))
      rw [h.entityAt_below hrest, entityAt, Folder.entityAt_append_eq_none hrest
        fun entries he => h.was_closed ⟨entries, he⟩]
    · exact h.sameOutside.elsewhere names
        fun place hplace => List.mem_singleton.mp hplace ▸ hbelow

/-- **Beside a file that is written everything stays.** -/
theorem sameBeside_of_write (hcase : tree.caseSensitive = true) {contents : ByteArray}
    (h : tree.write path contents false = .ok changed) :
    SameBeside [namesOf path] tree changed
      ∧ changed.entityAt (namesOf path) = some (.file contents) := by
  obtain ⟨parent, name, before, after, hnames, hrenewal, hat⟩ := exists_renewal_of_write hcase h
  exact ⟨hnames ▸ hrenewal.sameBeside, hat⟩

/-- **Beside a file that is removed everything stays.** -/
theorem sameBeside_of_remove (hcase : tree.caseSensitive = true)
    (h : tree.remove path = .ok changed) :
    SameBeside [namesOf path] tree changed ∧ changed.entityAt (namesOf path) = none := by
  obtain ⟨parent, name, before, after, hnames, hrenewal, hat⟩ := exists_renewal_of_remove hcase h
  exact ⟨hnames ▸ hrenewal.sameBeside, hat⟩

/-- A file or a link that stands somewhere can be removed. -/
theorem exists_remove_eq_ok {entity : Entity} (h : tree.entityAt (namesOf path) = some entity)
    (hfile : ∀ entries, entity ≠ .folder entries) : ∃ changed, tree.remove path = .ok changed := by
  rcases List.eq_nil_or_concat (namesOf path) with hnil | ⟨parent, name, hnames⟩
  · rw [hnil] at h
    exact absurd (Option.some.inj h).symm (hfile tree.root)
  · rw [List.concat_eq_append] at hnames
    rw [hnames] at h
    obtain ⟨entries, hentries⟩ := Folder.exists_folder_above (List.cons_ne_nil name []) h
    have hlookup : entries.lookup name = some entity :=
      (Folder.entityAt_concat hentries name).symm.trans h
    have hchange : removeIn entries name = .ok (Folder.erase entries name) := by
      rw [removeIn, hlookup]
      cases entity with
      | folder inside => exact absurd rfl (hfile inside)
      | file contents => rfl
      | link target => rfl
    exact exists_changeParent_eq_ok hnames hentries hchange

/-- Only what stands somewhere can be removed. -/
theorem exists_entityAt_of_remove (h : tree.remove path = .ok changed) :
    ∃ entity, tree.entityAt (namesOf path) = some entity := by
  rw [remove_eq] at h
  obtain ⟨parent, name, root, hnames, hroot, _⟩ := changeParent_eq_ok_iff.mp h
  obtain ⟨before, after, hchange, hbelow⟩ := changeFolder_cases hroot
  have hat : tree.entityAt (namesOf path) = before.lookup name :=
    hnames ▸ Folder.entityAt_concat hbelow.was name
  rw [hat]
  cases hlookup : before.lookup name with
  | some entity => exact ⟨entity, rfl⟩
  | none =>
    rw [removeIn, hlookup] at hchange
    cases hchange

/-- Only where a file may stand it can be written. -/
theorem open_of_write (hcase : tree.caseSensitive = true) {contents : ByteArray}
    (h : tree.write path contents false = .ok changed) : tree.Open (namesOf path) := by
  obtain ⟨parent, name, before, _, hnames, hrenewal, _⟩ := exists_renewal_of_write hcase h
  exact ⟨parent, name, hnames, ⟨before, hrenewal.was⟩, hnames ▸ hrenewal.was_closed⟩

/-- Above a folder there are folders. -/
theorem HasFolder.above {names front : List String} (h : tree.HasFolder names)
    (hfront : front <+: names) : tree.HasFolder front := by
  obtain ⟨rest, rfl⟩ := hfront
  obtain ⟨entries, hentries⟩ := h
  by_cases hrest : rest = []
  · rw [hrest, List.append_nil] at hentries
    exact ⟨entries, hentries⟩
  · exact Folder.exists_folder_above hrest hentries

/-- A name that a folder does not have leads nowhere. -/
theorem lookup_eq_none (hcase : tree.caseSensitive = true) {parent : List String} {name : String}
    (hnames : namesOf path = parent ++ [name]) (hparent : tree.HasFolder parent)
    (hnone : tree.entityAt (namesOf path) = none) (followLast : Bool) :
    tree.lookup path followLast = none := by
  rcases walk_cases followLast tree.root "" (namesOf path) with
    ⟨entity, _, hat, _, _⟩ | ⟨front, back, target, happend, hat, _, _⟩ | ⟨_, hwalk⟩
  · exact absurd (hat.symm.trans hnone) (Option.some_ne_none _)
  · -- a link on the way would stand where a folder does
    have hfront : front <+: parent ++ [name] := ⟨back, (hnames.symm.trans happend).symm⟩
    rcases List.prefix_concat_iff.mp hfront with rfl | hfront
    · rw [hnames] at hnone
      exact absurd (hat.symm.trans hnone) (Option.some_ne_none _)
    · obtain ⟨entries, hentries⟩ := hparent.above hfront
      cases hentries.symm.trans hat
  · exact lookup_of_done (by rw [hcase, hwalk])

/-- Where a file was removed a path leads nowhere. -/
theorem lookup_of_remove (hcase : tree.caseSensitive = true) (h : tree.remove path = .ok changed)
    (followLast : Bool) : changed.lookup path followLast = none := by
  obtain ⟨parent, name, before, after, hnames, hrenewal, hnone⟩ := exists_renewal_of_remove hcase h
  exact lookup_eq_none hrenewal.sensitive.2 hnames ⟨after, hrenewal.entityAt_parent⟩ hnone followLast

end

end PackageOrder.FileTree
