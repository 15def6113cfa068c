/-
PackageOrder.Proofs.Manifest.Again — finding entry-points once more.

A run may leave manifests behind, and the next one reads them. Nothing else is changed
between the two, and what is read from a manifest is what was found by a walk, so the
next run comes to the same (`findInProject_again`). This asks that nothing but
manifests is at their places (`Setup.ManifestsApart`).
-/
import PackageOrder.Processing
import PackageOrder.Proofs.Manifest.Apart

namespace PackageOrder

open PackageOrder.FileTree (namesOf AgreeOutside ManifestPlaces)

section

variable {places : List (List String)} {start tree : FileTree} {configuration : Configuration}
  {basePaths : List String}
variable (h : start.ManifestPlaces places)
include h

/-- The configuration of a project is the same in both trees. -/
theorem Configuration.alike_load (agree : AgreeOutside places start tree) {projectPath : String}
    (hproject : start.Unlinked places (namesOf (Path.join projectPath [configFileName]))) :
    Run.Alike (Session.Since start places configuration) tree start (fun _ => True)
      (load projectPath) (load projectPath) := by
  have hfile : start.Aside places (namesOf (Path.join projectPath [configFileName])) :=
    h.aside_join projectPath (by decide) (by decide) (by decide) hproject
  unfold load
  refine Run.alike_tree ?_
  rw [h.exists?_eq agree hfile]
  split
  · exact Run.alike_pure trivial
  · have hread : (tree.readText (Path.join projectPath [configFileName])).toOption
        = (start.readText (Path.join projectPath [configFileName])).toOption := by
      rw [h.readText_eq agree hfile]
    refine (Run.alike_readWith _ (·.readText _) hread).bind fun text _ => ?_
    split
    · exact Run.alike_pure trivial
    · exact Run.alike_throw _ _

/-- **What is found under all folders is what the answers were**, and this changes no
answer. -/
theorem findAll_answers (searched : Searched places start basePaths)
    (apart : start.EntryPointsApart places configuration) (reading : ImportReading)
    (himports : start.ImportsApart places reading.mappings)
    {answers : String → Option (List EntryPoint)} {session : Session}
    (hkept : Kept places start basePaths configuration session)
    (hanswers : ∀ basePath ∈ basePaths,
      answer? configuration start session.tree basePath = answers basePath) :
    (findAll configuration reading true basePaths).valueFrom session
        = ((basePaths.mapM answers).bind fun found =>
            (readAndSort configuration reading found.flatten none).valueFrom { tree := start })
      ∧ ∀ sorted after, (findAll configuration reading true basePaths).runFrom session
          = (.ok sorted, after) →
        ∃ found, session.Answers places start basePaths configuration after found := by
  obtain ⟨hvalue, hafter⟩ :=
    mapM_answers h searched apart (List.Subset.refl basePaths) hkept hanswers
  unfold findAll
  rw [Run.valueFrom_bind, Run.runFrom_bind, ← hvalue, Run.valueFrom]
  rcases hrun : (basePaths.mapM (entryPointsUnder configuration true)).runFrom session with
    ⟨failure | found, middle⟩
  · refine ⟨rfl, fun sorted after hlast => ?_⟩
    cases hlast
  obtain ⟨hkept', hinspected, hsame⟩ := hafter found middle hrun
  have hsorted := alike_readAndSort h hkept'.since.agree apart reading himports none
    (fun entryPoint hmem => (hinspected entryPoint hmem).toDescribed) middle { tree := start }
    hkept'.since rfl (Session.since_of_agree h.agree_refl) rfl
  have hsince := hsorted.kind.1
  have htree := hsorted.tree.1
  dsimp only
  rw [Except.toOption, Option.bind_some, Option.bind_some]
  refine ⟨hsorted.value, fun sorted after hlast => ?_⟩
  rw [hlast] at hsince htree
  dsimp only at hsince htree
  refine ⟨found.flatten, ⟨hsince, htree ▸ hkept'.wellFormed, fun other hother => ?_⟩, hinspected,
    fun other hother => ?_⟩
  · rw [htree]
    exact hkept'.listed other hother
  · rw [htree]
    exact hsame other hother

end

/-! ## Runs -/

/-- Finding the entry-points of a project, whose configuration is read anew. -/
def findInProject (setup : Setup) : Run (Option SortedEntryPoints) := do
  findEntryPoints setup (← Configuration.load setup.projectPath)

section

variable {setup : Setup} {start tree : FileTree} {configuration : Configuration}
  {answers : String → Option (List EntryPoint)}

/-- What a run comes to that finds the configuration and some answers for the folders to
look under. -/
def outcome? (setup : Setup) (start : FileTree) (configuration : Configuration)
    (answers : String → Option (List EntryPoint)) : Option (Option SortedEntryPoints) :=
  (((start.basePaths setup.basePath setup.mappings).1.mapM answers).bind fun found =>
    (readAndSort configuration { mappings := setup.mappings } found.flatten none).valueFrom
      { tree := start }).map some

variable (htarget : setup.target = none) (hmanifests : setup.ignoreManifest = false)
include htarget hmanifests

/-- Without a target all entry-points are looked for. -/
theorem runFrom_findEntryPoints (configuration : Configuration) (session : Session) :
    (findEntryPoints setup configuration).runFrom session
      = (findAll configuration { mappings := setup.mappings } true
          (session.tree.basePaths setup.basePath setup.mappings).1
            >>= fun sorted => pure (some sorted)).runFrom
        { session with
          log := session.log ++ (session.tree.basePaths setup.basePath setup.mappings).2 } := by
  have hfind : findEntryPoints setup configuration = Run.tree >>= fun tree =>
      Run.sayAll (tree.basePaths setup.basePath setup.mappings).2 >>= fun _ =>
        findAll configuration { mappings := setup.mappings } true
          (tree.basePaths setup.basePath setup.mappings).1 >>= fun sorted => pure (some sorted) := by
    unfold findEntryPoints
    rw [htarget, hmanifests]
    rfl
  rw [hfind, Run.runFrom_tree_bind _ rfl, Run.runFrom_bind, Run.runFrom_sayAll]

variable (apart : setup.ManifestsApart start)
include apart

/-- **A run in a tree with other manifests** comes to what the answers there are. -/
theorem findInProject_answers (hconfiguration : setup.configuration? start = some configuration)
    (hkept : Kept (setup.manifestPlaces start) start
      (start.basePaths setup.basePath setup.mappings).1 configuration { tree := tree })
    (hanswers : ∀ basePath ∈ (start.basePaths setup.basePath setup.mappings).1,
      answer? configuration start tree basePath = answers basePath) :
    (findInProject setup).valueFrom { tree := tree } = outcome? setup start configuration answers
      ∧ ∀ sorted after, (findInProject setup).runFrom { tree := tree } = (.ok sorted, after) →
        ∃ found, Session.Answers (setup.manifestPlaces start) start
          (start.basePaths setup.basePath setup.mappings).1 configuration { tree := tree } after
          found := by
  have hplaces : start.ManifestPlaces (setup.manifestPlaces start) :=
    FileTree.manifestPlaces_secluded apart.wellFormed
      (fun _ => FileTree.normal_of_mem_basePaths apart.wellFormed apart.normal) apart.links
  have hsearched := FileTree.searched_basePaths apart.wellFormed apart.normal rfl apart.source
    apart.mappings
  have hstart : Session.Since start (setup.manifestPlaces start) configuration { tree := start } :=
    Session.since_of_agree hplaces.agree_refl
  have hload := Configuration.alike_load hplaces hkept.since.agree apart.project { tree := tree }
    { tree := start } hkept.since rfl hstart rfl
  have hloaded := hload.value.trans hconfiguration
  have hsince := hload.kind.1
  have htree := hload.tree.1
  rw [findInProject, Run.valueFrom_bind, hloaded, Option.bind_some, Run.runFrom_bind]
  rw [Run.valueFrom_eq_some] at hloaded
  rcases hrun : (Configuration.load setup.projectPath).runFrom { tree := tree } with
    ⟨failure | found, loaded⟩
  all_goals rw [hrun] at hloaded hsince htree
  · cases hloaded
  cases hloaded
  dsimp only at hsince htree ⊢
  -- loading the configuration wrote nothing, so the rest is about the same tree
  have hbase : (loaded.tree.basePaths setup.basePath setup.mappings).1
      = (start.basePaths setup.basePath setup.mappings).1 := by
    rw [htree]
    exact hplaces.basePaths_eq hkept.since.agree setup.basePath apart.mappings
  have hwell : loaded.tree.WellFormed := by
    rw [htree]
    exact hkept.wellFormed
  have hlisted : ∀ basePath ∈ (start.basePaths setup.basePath setup.mappings).1, ∀ manifest,
      loaded.tree.currentManifest? configuration basePath = some manifest →
      start.EntriesAside (setup.manifestPlaces start) manifest.entryPoints := by
    rw [htree]
    exact hkept.listed
  have hanswers' : ∀ basePath ∈ (start.basePaths setup.basePath setup.mappings).1,
      answer? configuration start loaded.tree basePath = answers basePath := by
    rw [htree]
    exact hanswers
  obtain ⟨hvalue, hafter⟩ := findAll_answers hplaces hsearched
    (apart.packages configuration hconfiguration) { mappings := setup.mappings } apart.imports
    ⟨Session.Since.of_log _ (loaded.log ++ (loaded.tree.basePaths setup.basePath setup.mappings).2) hsince,
      hwell, hlisted⟩ hanswers'
  rw [Run.valueFrom, runFrom_findEntryPoints htarget hmanifests, hbase, Run.runFrom_bind, outcome?,
    ← hvalue, Run.valueFrom]
  rcases hfound : (findAll configuration { mappings := setup.mappings } true
    (start.basePaths setup.basePath setup.mappings).1).runFrom _ with ⟨failure | sorted, last⟩
  · refine ⟨rfl, fun sorted after hlast => ?_⟩
    cases hlast
  · refine ⟨rfl, fun sorted' after hlast => ?_⟩
    obtain ⟨found, hkept', hinspected, hsame⟩ := hafter sorted last hfound
    dsimp only at hlast
    rw [Run.runFrom_pure] at hlast
    obtain ⟨_, rfl⟩ := Prod.mk.inj hlast
    refine ⟨found, hkept', hinspected, fun basePath hbasePath => ?_⟩
    rw [hsame basePath hbasePath]
    dsimp only
    rw [htree]

/-- **The next run comes to the same.** What a run finds is found again in the tree that it
leaves, with a configuration that is read anew, and nothing but manifests was changed
there. -/
theorem findInProject_again {sorted : Option SortedEntryPoints} {after : Session}
    (hrun : (findInProject setup).runFrom { tree := start } = (.ok sorted, after)) :
    (findInProject setup).valueFrom { tree := after.tree } = some sorted
      ∧ AgreeOutside (setup.manifestPlaces start) start after.tree := by
  obtain ⟨configuration, hconfiguration⟩ :
      ∃ configuration, setup.configuration? start = some configuration := by
    obtain ⟨configuration, loaded, hload, _⟩ := Run.runFrom_bind_eq_ok.mp hrun
    refine ⟨configuration, Run.valueFrom_eq_some.mpr ?_⟩
    rw [hload]
  have hplaces : start.ManifestPlaces (setup.manifestPlaces start) :=
    FileTree.manifestPlaces_secluded apart.wellFormed
      (fun _ => FileTree.normal_of_mem_basePaths apart.wellFormed apart.normal) apart.links
  have hkept : Kept (setup.manifestPlaces start) start
      (start.basePaths setup.basePath setup.mappings).1 configuration { tree := start } :=
    ⟨Session.since_of_agree hplaces.agree_refl, apart.wellFormed, apart.listed _ hconfiguration⟩
  obtain ⟨hvalue, hafter⟩ := findInProject_answers htarget hmanifests apart hconfiguration hkept
    fun _ _ => rfl
  obtain ⟨found, hkept', _, hsame⟩ := hafter sorted after hrun
  have hkept'' : Kept (setup.manifestPlaces start) start
      (start.basePaths setup.basePath setup.mappings).1 configuration { tree := after.tree } :=
    ⟨Session.since_of_agree hkept'.since.agree, hkept'.wellFormed, hkept'.listed⟩
  obtain ⟨hvalue', _⟩ := findInProject_answers htarget hmanifests apart hconfiguration hkept'' hsame
  refine ⟨?_, hkept'.since.agree⟩
  rw [hvalue', ← hvalue, Run.valueFrom_eq_some, hrun]

end

/-- A project with one package, in which no manifest was written yet. -/
def freshTree : FileTree where
  root := [("node_modules", .folder [("a", .folder
      [("package.json", .file "\x7b\"module\":\"m\",\"typings\":\"t\"\x7d".toUTF8),
        ("t.metadata.json", .file .empty)])]),
    ("yarn.lock", .file .empty)]

/-- A run that looks for all entry-points of a project and trusts manifests. -/
def freshSetup : Setup where
  basePath := "/node_modules"
  projectPath := "/"
  target := none
  mappings := none
  properties := FormatProperty.all
  allFormats := true
  strict := false
  ignoreManifest := false
  workers := 1
  inParallel := false

/-- The manifest that the first run leaves in such a project does not change what the
next one finds. -/
theorem findInProject_again_fresh :
    freshSetup.target = none ∧ freshSetup.ignoreManifest = false
      ∧ freshSetup.ManifestsApart freshTree
      ∧ ∃ sorted after,
        (findInProject freshSetup).runFrom { tree := freshTree } = (.ok (some sorted), after)
          ∧ sorted.entryPoints.map (·.path) = ["/node_modules/a"]
          ∧ freshTree.exists? (freshTree.manifestPath freshSetup.basePath) = false
          ∧ after.tree.exists? (freshTree.manifestPath freshSetup.basePath) = true
          ∧ (findInProject freshSetup).valueFrom { tree := after.tree } = some (some sorted)
          ∧ AgreeOutside (freshSetup.manifestPlaces freshTree) freshTree after.tree := by
  have hnormal : Normal freshSetup.basePath := ⟨["node_modules"], by decide, by decide⟩
  have hapart : freshSetup.ManifestsApart freshTree :=
    FileTree.manifestsApart_of_harmless (by decide +kernel) hnormal rfl
  have hfirst : ((findInProject freshSetup).valueFrom { tree := freshTree }).map
        (·.map (·.entryPoints.map (·.path))) = some (some ["/node_modules/a"])
      ∧ ((findInProject freshSetup).runFrom { tree := freshTree }).2.tree.exists?
        (freshTree.manifestPath freshSetup.basePath) = true := by decide +kernel
  obtain ⟨hpaths, hwritten⟩ := hfirst
  refine ⟨rfl, rfl, hapart, ?_⟩
  rw [Run.valueFrom] at hpaths
  rcases hrun : (findInProject freshSetup).runFrom { tree := freshTree } with
    ⟨failure | sorted?, after⟩
  all_goals rw [hrun] at hpaths hwritten
  · cases hpaths
  cases sorted? with
  | none => cases hpaths
  | some sorted =>
    have hfound := Option.some.inj (Option.some.inj hpaths)
    exact ⟨sorted, after, rfl, hfound, by decide +kernel, hwritten,
      findInProject_again rfl rfl hapart hrun⟩

end PackageOrder
