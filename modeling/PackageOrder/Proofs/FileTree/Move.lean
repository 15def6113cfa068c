/-
PackageOrder.Proofs.FileTree.Move — what a move leaves behind.

A move reads through links, but it removes what stands at the names of its source, and
nothing else may stand on the way to it than folders. So a move ends in one of three ways
(`move_cases`): nothing is done; the bytes are at the target and the source is gone
(`Moved`), together with the bytes if the target is the source; or the bytes are at the
target and the source, which lies behind a link, could not be removed (`Copied`).
-/
import PackageOrder.Proofs.FileTree.Beside

namespace PackageOrder.FileTree

variable {tree written after : FileTree} {source target : String} {contents : ByteArray}

/-- A tree in which a file was moved: nothing is at the source, and beside the two paths
everything is as it was. The target holds the contents unless it is the source. -/
structure Moved (tree after : FileTree) (source target : String) (contents : ByteArray) : Prop where
  gone : ∀ followLast, after.lookup source followLast = none
  beside : SameBeside [namesOf target, namesOf source] tree after
  holds_iff : after.readBytes target = .ok contents ↔ namesOf source ≠ namesOf target

/-- A tree in which a file was moved by half: the target holds the contents, but the source
lies behind a link and is still there. Beside the target everything is as it was, and the
target as well if it held these contents before. -/
structure Copied (tree after : FileTree) (source target : String) (contents : ByteArray) : Prop where
  behind_link : tree.entityAt (namesOf source) = none
  beside : SameBeside [namesOf target] tree after
  holds : after.entityAt (namesOf target) = some (.file contents)
  same_iff : SameBeside [] tree after ↔ tree.entityAt (namesOf target) = some (.file contents)

/-- What can be read is no folder. -/
theorem ne_folder_of_readBytes (hcase : tree.caseSensitive = true)
    (hread : tree.readBytes source = .ok contents) {entity : Entity}
    (hat : tree.entityAt (namesOf source) = some entity) (entries : Folder) :
    entity ≠ .folder entries := by
  rintro rfl
  cases hread.symm.trans (readBytes_of_hasFolder hcase ⟨entries, hat⟩)

/-- What can be read and is in a folder stands there, if only as a link. -/
theorem exists_entityAt_of_readBytes (hcase : tree.caseSensitive = true)
    (hread : tree.readBytes source = .ok contents) (hopen : tree.Open (namesOf source)) :
    ∃ entity, tree.entityAt (namesOf source) = some entity := by
  obtain ⟨parent, name, hnames, hparent, _⟩ := hopen
  cases hat : tree.entityAt (namesOf source) with
  | some entity => exact ⟨entity, rfl⟩
  | none =>
    obtain ⟨way, hlookup⟩ := readBytes_eq_ok_iff.mp hread
    cases hlookup.symm.trans (lookup_eq_none hcase hnames hparent hat true)

/-- After the bytes were written to the target the source can be removed if it stands
somewhere. -/
theorem exists_remove_of_write (hcase : tree.caseSensitive = true)
    (hread : tree.readBytes source = .ok contents)
    (hwrite : tree.write target contents false = .ok written) :
    (∃ after, written.remove source = .ok after)
      ↔ ∃ entity, tree.entityAt (namesOf source) = some entity := by
  obtain ⟨hbeside, hat⟩ := sameBeside_of_write hcase hwrite
  by_cases hnames : namesOf source = namesOf target
  · have hfile : written.entityAt (namesOf source) = some (.file contents) := by
      rw [hnames]
      exact hat
    refine iff_of_true (exists_remove_eq_ok hfile nofun) ?_
    exact exists_entityAt_of_readBytes hcase hread (hnames ▸ open_of_write hcase hwrite)
  · have hstands := hbeside.stands (namesOf source) fun hmem => hnames (List.mem_singleton.mp hmem)
    constructor
    · rintro ⟨after, hremove⟩
      obtain ⟨entity, hentity⟩ := exists_entityAt_of_remove hremove
      rw [hentity] at hstands
      obtain ⟨found, hfound, _⟩ := Option.map_eq_some_iff.mp hstands.symm
      exact ⟨found, hfound⟩
    · rintro ⟨entity, hentity⟩
      rw [hentity] at hstands
      obtain ⟨found, hfound, htop⟩ := Option.map_eq_some_iff.mp hstands
      refine exists_remove_eq_ok hfound ?_
      rintro entries rfl
      obtain ⟨others, heq⟩ := Entity.exists_folder_of_top htop.symm
      exact ne_folder_of_readBytes hcase hread hentity others heq

theorem moved_of_remove (hcase : tree.caseSensitive = true)
    (hwrite : tree.write target contents false = .ok written)
    (hremove : written.remove source = .ok after) : Moved tree after source target contents := by
  obtain ⟨hbeside, hat⟩ := sameBeside_of_write hcase hwrite
  have hcase' := hbeside.caseSensitive.trans hcase
  obtain ⟨hbeside', hnone⟩ := sameBeside_of_remove hcase' hremove
  have hgone := lookup_of_remove hcase' hremove
  refine ⟨hgone, (hbeside.mono (by simp)).trans (hbeside'.mono (by simp)), ?_⟩
  by_cases hnames : namesOf source = namesOf target
  · refine iff_of_false ?_ fun hne => hne hnames
    have hlookup : after.lookup target true = none := by
      have hsource := hgone true
      rwa [lookup, passLimit, lookupWithin, hnames] at hsource
    rw [readBytes, hlookup]
    intro heq
    cases heq
  · refine iff_of_true ?_ hnames
    have hfile := hbeside'.entityAt_file
      (fun hmem => hnames (List.mem_singleton.mp hmem).symm) hat
    exact readBytes_of_entityAt (hbeside'.caseSensitive.trans hcase') hfile

theorem copied_of_write (hcase : tree.caseSensitive = true)
    (hnone : tree.entityAt (namesOf source) = none)
    (hwrite : tree.write target contents false = .ok written) :
    Copied tree written source target contents := by
  obtain ⟨hbeside, hat⟩ := sameBeside_of_write hcase hwrite
  refine ⟨hnone, hbeside, hat, fun hsame => ?_, fun hheld => ?_⟩
  · have hstands := hsame.stands (namesOf target) List.not_mem_nil
    rw [hat] at hstands
    obtain ⟨found, hfound, htop⟩ := Option.map_eq_some_iff.mp hstands.symm
    rw [hfound, Entity.eq_file_of_top htop]
  · refine ⟨hbeside.caseSensitive, hbeside.workingDir, fun names _ => ?_⟩
    by_cases hnames : names = namesOf target
    · rw [hnames, hat, hheld]
    · exact hbeside.stands names fun hmem => hnames (List.mem_singleton.mp hmem)

/-- **A move does nothing, or it moves the file, or it leaves a copy** of a file that lies
behind a link. -/
theorem move_cases (hcase : tree.caseSensitive = true) (source target : String) :
    ((∀ contents, tree.readBytes source = .ok contents → ¬ tree.Open (namesOf target))
        ∧ ∃ cause, tree.move source target = (tree, .error cause))
      ∨ ∃ contents, tree.readBytes source = .ok contents ∧ tree.Open (namesOf target)
        ∧ ((∃ entity after, tree.entityAt (namesOf source) = some entity
            ∧ tree.move source target = (after, .ok ()) ∧ Moved tree after source target contents)
          ∨ ∃ cause after, tree.move source target = (after, .error cause)
            ∧ Copied tree after source target contents) := by
  rw [move]
  cases hread : tree.readBytes source with
  | error cause => exact Or.inl ⟨nofun, cause, rfl⟩
  | ok contents =>
    dsimp only
    cases hwrite : tree.write target contents false with
    | error cause =>
      refine Or.inl ⟨fun _ _ hopen => ?_, cause, rfl⟩
      obtain ⟨written, hwritten⟩ := exists_write_eq_ok hopen contents
      cases hwrite.symm.trans hwritten
    | ok written =>
      refine Or.inr ⟨contents, rfl, open_of_write hcase hwrite, ?_⟩
      have hiff := exists_remove_of_write hcase hread hwrite
      dsimp only
      cases hremove : written.remove source with
      | error cause =>
        have hnone : tree.entityAt (namesOf source) = none := by
          by_contra hsome
          obtain ⟨after, hafter⟩ := hiff.mpr (Option.ne_none_iff_exists'.mp hsome)
          cases hremove.symm.trans hafter
        exact Or.inr ⟨cause, written, rfl, copied_of_write hcase hnone hwrite⟩
      | ok after =>
        obtain ⟨entity, hentity⟩ := hiff.mp ⟨after, hremove⟩
        exact Or.inl ⟨entity, after, hentity, rfl, moved_of_remove hcase hwrite hremove⟩

/-- **A move succeeds if the source can be read and stands at its names and a file may
stand at the target.** Then the file was moved, and lost if the target is the source. A
move that fails leaves the tree as it was, or a copy of a file that lies behind a link. -/
theorem move_all_or_copy (hcase : tree.caseSensitive = true) {result : Except FileError Unit}
    (h : tree.move source target = (after, result)) :
    (result = .ok () ↔ (∃ contents, tree.readBytes source = .ok contents)
        ∧ tree.Open (namesOf target) ∧ ∃ entity, tree.entityAt (namesOf source) = some entity)
      ∧ (result = .ok () → ∃ contents, tree.readBytes source = .ok contents
        ∧ Moved tree after source target contents)
      ∧ ∀ cause, result = .error cause → after = tree
        ∨ ∃ contents, tree.readBytes source = .ok contents ∧ Copied tree after source target contents := by
  rcases move_cases hcase source target with ⟨hclosed, cause, hmove⟩ |
    ⟨contents, hread, hopen, ⟨entity, moved, hat, hmove, hmoved⟩ | ⟨cause, copied, hmove, hcopied⟩⟩
  · cases h.symm.trans hmove
    refine ⟨iff_of_false nofun ?_, nofun, fun _ _ => Or.inl rfl⟩
    rintro ⟨⟨contents, hread⟩, hopen, _⟩
    exact hclosed contents hread hopen
  · cases h.symm.trans hmove
    exact ⟨iff_of_true rfl ⟨⟨contents, hread⟩, hopen, entity, hat⟩,
      fun _ => ⟨contents, hread, hmoved⟩, nofun⟩
  · cases h.symm.trans hmove
    refine ⟨iff_of_false nofun ?_, nofun, fun _ _ => Or.inr ⟨contents, hread, hcopied⟩⟩
    rintro ⟨_, _, entity, hat⟩
    exact Option.some_ne_none entity (hat.symm.trans hcopied.behind_link)

/-- A folder with a file, and a link to the folder. -/
def linkedFolder : FileTree :=
  ⟨[("d", .folder [("f", .file "text".toUTF8)]), ("l", .link "/d")], "/", true⟩

theorem move_all_or_copy_file :
    ∃ after, linkedFolder.move "/d/f" "/x" = (after, .ok ())
      ∧ after.readBytes "/x" = .ok "text".toUTF8 ∧ after.lookup "/d/f" true = none := by
  have hmove : linkedFolder.move "/d/f" "/x"
      = (⟨[("d", .folder []), ("l", .link "/d"), ("x", .file "text".toUTF8)], "/", true⟩, .ok ()) := by
    rfl
  have hread : linkedFolder.readBytes "/d/f" = .ok "text".toUTF8 := by rfl
  obtain ⟨contents, hcontents, hmoved⟩ := (move_all_or_copy rfl hmove).2.1 rfl
  cases hread.symm.trans hcontents
  exact ⟨_, hmove, hmoved.holds_iff.mpr (by decide), hmoved.gone true⟩

/-- A file that is moved to itself is lost, and one that is moved from behind a link is
copied, although the move fails. -/
theorem move_loses_and_copies :
    (∃ after, linkedFolder.move "/d/f" "/d/f" = (after, .ok ())
        ∧ linkedFolder.exists? "/d/f" = true ∧ after.exists? "/d/f" = false)
      ∧ ∃ cause after, linkedFolder.move "/l/f" "/x" = (after, .error cause)
        ∧ linkedFolder.exists? "/x" = false ∧ after.exists? "/x" = true :=
  ⟨⟨_, rfl, by decide, by decide⟩, _, _, rfl, by decide, by decide⟩

end PackageOrder.FileTree
