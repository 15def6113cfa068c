/-
PackageOrder.Proofs.Manifest.Intact — writing a manifest damages none.

A manifest is written under the name of a draft and then moved to its place, and a move
is itself a reading, a writing and a removal. Only two of these steps can be refused:
writing the draft, where nothing has changed yet, and writing at the place of the
manifest, where a folder stands then. What was written as a draft can be read and removed
again, whatever else is in the tree (`FileTree.move_in_folder`). So the manifest is there
in full or as it was before (`writeManifest_intact`). This asks nothing of the tree but
that it tells names apart by case: there may be links or folders at any of the places and
no folder above them.
-/
import PackageOrder.Proofs.FileTree.Move
import PackageOrder.Proofs.Manifest.Write

namespace PackageOrder

open PackageOrder.FileTree (namesOf SameBeside)

namespace FileTree

variable {tree : FileTree} {draft path : String}

/-- A text that was written as a draft and moved to its place: the draft is gone, and
beside the two everything is as it was. -/
structure Replaced (tree after : FileTree) (draft path text : String) : Prop where
  holds : after.readBytes path = .ok text.toUTF8
  no_draft : ∀ followLast, after.lookup draft followLast = none
  beside : SameBeside [namesOf path, namesOf draft] tree after

/-- A tree in which a text was not moved to its place: beside the draft everything is as
it was, and the same is read at the place. One of the two was not open to a file. -/
structure Untouched (tree after : FileTree) (draft path : String) : Prop where
  beside : SameBeside [namesOf draft] tree after
  reads : after.readBytes path = tree.readBytes path
  closed : ¬ (tree.Open (namesOf draft) ∧ tree.Open (namesOf path))

section

variable {folder : List String} {draftName name : String}
  (hcase : tree.caseSensitive = true)
  (hdraft : namesOf draft = folder ++ [draftName]) (hpath : namesOf path = folder ++ [name])
  (hne : draftName ≠ name)
include hcase hdraft hpath hne

/-- **A file is moved to another name in its folder unless a folder has that name**, and
then nothing is changed. -/
theorem move_in_folder {contents : ByteArray}
    (hat : tree.entityAt (namesOf draft) = some (.file contents)) :
    (tree.HasFolder (namesOf path) ∧ ∃ cause, tree.move draft path = (tree, .error cause))
      ∨ ∃ after, tree.move draft path = (after, .ok ())
        ∧ after.readBytes path = .ok contents
        ∧ (∀ followLast, after.lookup draft followLast = none)
        ∧ SameBeside [namesOf path, namesOf draft] tree after := by
  have hnames : namesOf draft ≠ namesOf path := by
    rw [hdraft, hpath]
    exact fun heq => hne (List.append_singleton_inj.mp heq).2
  have hfolder : tree.HasFolder folder :=
    Folder.exists_folder_above (List.cons_ne_nil draftName []) (hdraft ▸ hat)
  have hdraftRead := readBytes_of_entityAt hcase hat
  rcases move_cases hcase draft path with ⟨hclosed, cause, hmove⟩ |
    ⟨found, hread, _, ⟨_, after, _, hmove, hmoved⟩ | ⟨_, _, _, hcopied⟩⟩
  · refine Or.inl ⟨?_, cause, hmove⟩
    by_contra hfree
    exact hclosed contents hdraftRead (hpath ▸ open_concat_iff.mpr ⟨hfolder, hpath ▸ hfree⟩)
  · cases hdraftRead.symm.trans hread
    exact Or.inr ⟨after, hmove, hmoved.holds_iff.mpr hnames, hmoved.gone, hmoved.beside⟩
  · -- the draft stands at its names
    cases hat.symm.trans hcopied.behind_link

/-- **A text is moved to its place, or nothing but its draft is touched.** -/
theorem recorded_intact (text : String) :
    (tree.recordOutcome draft path text = .ok ()
        ∧ Replaced tree (tree.recorded draft path text) draft path text)
      ∨ ∃ failure, tree.recordOutcome draft path text = .error failure
        ∧ Untouched tree (tree.recorded draft path text) draft path := by
  unfold recordOutcome recorded
  cases hwrite : tree.writeText draft text with
  | error cause =>
    refine Or.inr ⟨_, rfl, SameBeside.refl _ _, rfl, fun hopen => ?_⟩
    obtain ⟨written, hwritten⟩ := exists_write_eq_ok hopen.1 text.toUTF8
    cases hwrite.symm.trans hwritten
  | ok written =>
    obtain ⟨hbeside, hat⟩ := sameBeside_of_write hcase hwrite
    have hcase' := hbeside.caseSensitive.trans hcase
    dsimp only
    rcases move_in_folder hcase' hdraft hpath hne hat with
      ⟨hfolder, cause, hmove⟩ | ⟨after, hmove, hreads, hnone, hbeside'⟩
    · have hnames : namesOf path ∉ [namesOf draft] := by
        rw [hdraft, hpath, List.mem_singleton]
        exact fun heq => hne (List.append_singleton_inj.mp heq).2.symm
      have hfolder' := (hbeside.hasFolder_iff hnames).mp hfolder
      rw [hmove]
      refine Or.inr ⟨_, rfl, hbeside, ?_, fun hopen => ?_⟩
      · rw [readBytes_of_hasFolder hcase' hfolder, readBytes_of_hasFolder hcase hfolder']
      · rw [hpath] at hopen hfolder'
        exact (open_concat_iff.mp hopen.2).2 hfolder'
    · rw [hmove]
      exact Or.inl ⟨rfl, hreads, hnone, (hbeside.mono (by simp)).trans hbeside'⟩

end

/-- The draft of a manifest stands beside its place, whatever folder it is for. -/
theorem exists_manifest_folder (tree : FileTree) (basePath : String) :
    ∃ folder, namesOf (tree.manifestPath basePath) = folder ++ [manifestFileName]
      ∧ namesOf (tree.manifestDraftPath basePath) = folder ++ [manifestDraftName] := by
  obtain ⟨folder, hnames⟩ := exists_namesOf_of_standsLast
    (tree.standsLast_resolve [basePath] (by decide : Path.Plain manifestFileName.toList) (by decide))
  have hmanifest := hnames "" (by decide)
  rw [String.append_empty, String.append_empty] at hmanifest
  exact ⟨folder, hmanifest, hnames ".__tmp__" (by decide)⟩

end FileTree

/-- **Writing a manifest damages none.** Where it ends well, nothing was to be done, or
the manifest holds the encoding of what was found. Where it fails, the manifest is as it
was. -/
theorem writeManifest_intact (configuration : Configuration) (basePath : String)
    (entryPoints : List EntryPoint) {session : Session}
    (hcase : session.tree.caseSensitive = true) :
    (∀ after, (writeManifest configuration basePath entryPoints).runFrom session = (.ok (), after) →
      (mayHaveManifest basePath = false ∨ session.tree.lockFileHash? basePath = none)
          ∧ after = session
        ∨ ∃ lockHash, session.tree.lockFileHash? basePath = some lockHash
          ∧ after = { session with tree := after.tree }
          ∧ session.tree.Replaced after.tree (session.tree.manifestDraftPath basePath)
            (session.tree.manifestPath basePath)
            (Manifest.toJson
              { version := toolVersion
                configHash := configuration.hash
                lockHash
                entryPoints := entryPoints.map EntryPointSummary.ofEntryPoint }).compact)
      ∧ ∀ failure after,
        (writeManifest configuration basePath entryPoints).runFrom session = (.error failure, after) →
          after = { session with tree := after.tree }
            ∧ session.tree.Untouched after.tree (session.tree.manifestDraftPath basePath)
              (session.tree.manifestPath basePath) := by
  obtain ⟨folder, hpath, hdraft⟩ := session.tree.exists_manifest_folder basePath
  have hnames : manifestDraftName ≠ manifestFileName := by decide
  rw [runFrom_writeManifest_eq]
  rcases session.tree.manifest_cases configuration basePath entryPoints with
    ⟨hnothing, houtcome, htree⟩ | ⟨lockHash, text, hlock, htext, houtcome, htree⟩
  · rw [houtcome, htree]
    refine ⟨fun after hrun => Or.inl ⟨hnothing, (Prod.mk.inj hrun).2.symm⟩, fun failure after hrun => ?_⟩
    cases (Prod.mk.inj hrun).1
  · have hrecorded := FileTree.recorded_intact hcase hdraft hpath hnames text
    rw [houtcome, htree]
    generalize session.tree.recorded (session.tree.manifestDraftPath basePath)
      (session.tree.manifestPath basePath) text = changed at hrecorded ⊢
    rcases hrecorded with ⟨hdone, hreplaced⟩ | ⟨refused, hrefused, huntouched⟩
    · rw [hdone]
      refine ⟨fun after hrun => Or.inr ⟨lockHash, hlock, ?_⟩, fun failure after hrun => ?_⟩
      · obtain ⟨_, rfl⟩ := Prod.mk.inj hrun
        exact ⟨rfl, htext ▸ hreplaced⟩
      · cases (Prod.mk.inj hrun).1
    · rw [hrefused]
      refine ⟨fun after hrun => ?_, fun failure after hrun => ?_⟩
      · cases (Prod.mk.inj hrun).1
      · obtain ⟨_, rfl⟩ := Prod.mk.inj hrun
        exact ⟨rfl, huntouched⟩

/-- Installed packages with something at the place of their manifest, and a link at that
of its draft. -/
def installedWith (manifest : Entity) : FileTree where
  root := [("node_modules", .folder
      [(manifestFileName, manifest), (manifestDraftName, .link "/yarn.lock")]),
    ("yarn.lock", .file .empty)]

/-- A manifest takes the place of another file, but not that of a folder. -/
theorem writeManifest_intact_installed :
    ((installedWith (.file .empty)).caseSensitive = true
        ∧ ∃ after text,
          (writeManifest ⟨[], ""⟩ "/node_modules" []).runFrom { tree := installedWith (.file .empty) }
              = (.ok (), after)
            ∧ (installedWith (.file .empty)).Replaced after.tree
              ((installedWith (.file .empty)).manifestDraftPath "/node_modules")
              ((installedWith (.file .empty)).manifestPath "/node_modules") text)
      ∧ (installedWith (.folder [])).caseSensitive = true
        ∧ ∃ failure after,
          (writeManifest ⟨[], ""⟩ "/node_modules" []).runFrom { tree := installedWith (.folder []) }
              = (.error failure, after)
            ∧ (installedWith (.folder [])).Untouched after.tree
              ((installedWith (.folder [])).manifestDraftPath "/node_modules")
              ((installedWith (.folder [])).manifestPath "/node_modules") := by
  have hok : ((writeManifest ⟨[], ""⟩ "/node_modules" []).runFrom
      { tree := installedWith (.file .empty) }).1.isOk = true := by decide +kernel
  have hrefused : ((writeManifest ⟨[], ""⟩ "/node_modules" []).runFrom
      { tree := installedWith (.folder []) }).1.isOk = false := by decide +kernel
  constructor
  · rcases hrun : (writeManifest ⟨[], ""⟩ "/node_modules" []).runFrom
      { tree := installedWith (.file .empty) } with ⟨failure | done, after⟩
    all_goals rw [hrun] at hok
    · cases hok
    · have hlock : ((installedWith (.file .empty)).lockFileHash? "/node_modules").isSome = true := by
        decide +kernel
      rcases (writeManifest_intact ⟨[], ""⟩ "/node_modules" [] rfl).1 after hrun with
        ⟨hmay | hnone, _⟩ | ⟨lockHash, _, _, hreplaced⟩
      · exact absurd hmay (by decide)
      · rw [hnone] at hlock
        cases hlock
      · exact ⟨rfl, after, _, rfl, hreplaced⟩
  · rcases hrun : (writeManifest ⟨[], ""⟩ "/node_modules" []).runFrom
      { tree := installedWith (.folder []) } with ⟨failure | done, after⟩
    all_goals rw [hrun] at hrefused
    · exact ⟨rfl, failure, after, rfl,
        ((writeManifest_intact ⟨[], ""⟩ "/node_modules" [] rfl).2 failure after hrun).2⟩
    · cases hrefused

end PackageOrder
