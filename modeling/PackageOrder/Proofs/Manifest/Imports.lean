/-
PackageOrder.Proofs.Manifest.Imports — reading and sorting what was found, whether
manifests are there or not.

An import leads to a path with an ending, or to the folder of a package. Manifests have
none of these endings, so if no import leads to them (`ImportsApart`), every import
leads to the same in both trees (`resolveImport?_eq`). A search that follows imports
then takes the same steps, and so what was found is sorted alike (`alike_readAndSort`).
-/
import Mathlib.Data.List.Find
import PackageOrder.Proofs.Dependency.Closure
import PackageOrder.Proofs.Manifest.Inspect

namespace PackageOrder

open PackageOrder.Path (Plain)
open PackageOrder.Script (ModuleSyntax)
open PackageOrder.FileTree (namesOf AgreeOutside ManifestPlaces)

/-- The paths that an import may lead to, without endings. -/
def FileTree.importPaths (tree : FileTree) (mappings : Option PathMappings)
    (source specifier : String) : List String :=
  if Path.isRelativeSpecifier specifier then [tree.resolve [Path.dirname source, specifier]]
  else mappings.toList.flatMap (·.mappedPaths tree.workingDir specifier)
    ++ (searchFolders (source.length + 1) source).map fun folder =>
      tree.resolve [folder, "node_modules", specifier]

/-- No import leads to one of some places, and no package that is imported or has imports
is behind a link at one. -/
structure FileTree.ImportsApart (places : List (List String)) (tree : FileTree)
    (mappings : Option PathMappings) : Prop where
  led : ∀ modules file specifier, tree.Aside places (namesOf file) →
    specifier ∈ tree.importsOfFile modules file →
    ∀ path ∈ tree.importPaths mappings file specifier, tree.Aside places (namesOf path)
  described : ∀ modules file specifier, tree.Aside places (namesOf file) →
    specifier ∈ tree.importsOfFile modules file →
    ∀ folder ∈ tree.importPaths mappings file specifier ++ foldersAbove (file.length + 1) file,
      tree.Unlinked places (namesOf (Path.join folder ["package.json"]))

theorem findSome?_congr {α β : Type} {items : List α} {one other : α → Option β}
    (h : ∀ item ∈ items, one item = other item) : items.findSome? one = items.findSome? other := by
  induction items with
  | nil => rfl
  | cons item rest ih =>
    rw [List.findSome?_cons, List.findSome?_cons, h item List.mem_cons_self,
      ih fun other hother => h other (List.mem_cons_of_mem _ hother)]

/-- What is still to be read after a specifier was looked up was so before, or is what it
leads to. -/
theorem DependencySearch.mem_pending_record (search : DependencySearch) (specifier : String)
    (found : Option Resolution) :
    ∀ file ∈ (search.record specifier found).pending,
      file ∈ search.pending ∨ found = some (.internal file) := by
  intro file hmem
  unfold record at hmem
  split at hmem
  · exact Or.inl hmem
  · exact Or.inl hmem
  · split at hmem
    · exact Or.inl hmem
    · exact (List.mem_cons.mp hmem).symm.imp_right (congrArg (some <| Resolution.internal ·) ·.symm)
  · exact Or.inl hmem
  · exact Or.inl hmem

/-- What is collected from a first file is what some rounds find, after which nothing is
left to be read. -/
theorem FileTree.exists_rounds {tree : FileTree} (hdir : Path.isRooted tree.workingDir = true)
    (modules : ModuleSyntax) (mappings : Option PathMappings) (path : String) :
    (tree.fileWithEnding? modules.endings path = none →
        tree.collectDependencies modules mappings path = {})
      ∧ ∀ first, tree.fileWithEnding? modules.endings path = some first →
        ∃ rounds, (tree.searchWithin modules mappings rounds
              { seen := [first], pending := [first] }).pending = []
          ∧ tree.collectDependencies modules mappings path
            = (tree.searchWithin modules mappings rounds
                { seen := [first], pending := [first] }).info := by
  have hrounds : (tree.fileWithEnding? modules.endings path = none →
      tree.collectDependencies modules mappings path = {})
      ∧ ∀ first, tree.fileWithEnding? modules.endings path = some first →
        tree.collectDependencies modules mappings path
          = (tree.searchWithin modules mappings tree.pathBound
              { seen := [first], pending := [first] }).info := by
    apply info_of_rounds
    unfold collectDependencies
    rfl
  exact ⟨hrounds.1, fun first hfirst =>
    ⟨_, (searchWithin_pathBound hdir modules mappings first).1, hrounds.2 first hfirst⟩⟩

/-- The bundles of an entry-point are none of the places. -/
theorem Described.aside_bundle {places : List (List String)} {start : FileTree}
    {entryPoint : EntryPoint} (h : Described places start entryPoint)
    {property : FormatProperty} {path : String}
    (hpath : entryPoint.formatPath? property = some path) :
    start.Aside places (namesOf (start.resolve [entryPoint.path, path])) := by
  refine (h.files property.name ?_ path (mem_of_text? hpath)).1
  exact List.mem_cons_of_mem _ (List.mem_cons_of_mem _
    (List.mem_map_of_mem (FormatProperty.mem_all property)))

namespace FileTree.ManifestPlaces

variable {places : List (List String)} {start tree : FileTree} {mappings : Option PathMappings}
variable (h : start.ManifestPlaces places)
include h

/-! ## Files -/

/-- A path with the ending of a file is none of the places, if it was none without. -/
theorem aside_ending {path : String} (hpath : start.Aside places (namesOf path))
    {modules : ModuleSyntax} {ending : String} (hending : ending ∈ modules.endings) :
    start.Aside places (namesOf (path ++ ending)) := by
  have hall : ending ∈ scriptEndings ++ typingsEndings := by
    rw [List.mem_append]
    cases modules with
    | declarations => exact Or.inr hending
    | _ => exact Or.inl hending
  have hbelow : ∀ name : String, Plain name.toList → OtherName name →
      start.Aside places (namesOf (path ++ ("/" ++ name))) := by
    intro name hplain hname
    rw [← String.append_assoc]
    exact h.aside_below hpath.unlinked hplain hname
  rw [scriptEndings, typingsEndings] at hall
  simp only [List.cons_append, List.nil_append, List.mem_cons, List.not_mem_nil, or_false] at hall
  rcases hall with rfl | rfl | rfl | rfl | rfl | rfl
  · rwa [String.append_empty]
  · exact h.aside_append hpath.unlinked (by decide)
  · exact hbelow "index.js" (by decide) (by decide)
  · rwa [String.append_empty]
  · exact h.aside_append hpath.unlinked (by decide)
  · exact hbelow "index.d.ts" (by decide) (by decide)

theorem aside_fileWithEnding? {modules : ModuleSyntax} {path file : String}
    (hpath : start.Aside places (namesOf path))
    (hfile : start.fileWithEnding? modules.endings path = some file) :
    start.Aside places (namesOf file) := by
  obtain ⟨ending, hending, rfl⟩ := List.mem_map.mp (List.mem_of_find?_eq_some hfile)
  exact h.aside_ending hpath hending

variable (agree : AgreeOutside places start tree)
include agree

theorem fileWithEnding?_eq (modules : ModuleSyntax) {path : String}
    (hpath : start.Aside places (namesOf path)) :
    tree.fileWithEnding? modules.endings path = start.fileWithEnding? modules.endings path := by
  refine List.find?_congr fun file hfile => ?_
  obtain ⟨ending, hending, rfl⟩ := List.mem_map.mp hfile
  exact h.isFile_eq agree (h.aside_ending hpath hending)

theorem isEntryPoint_eq {path : String}
    (hpath : start.Unlinked places (namesOf (Path.join path ["package.json"]))) :
    tree.isEntryPoint path = start.isEntryPoint path :=
  h.exists?_eq agree (h.aside_join path (by decide) (by decide) (by decide) hpath)

theorem importsOfFile_eq (modules : ModuleSyntax) {file : String}
    (hfile : start.Aside places (namesOf file)) :
    tree.importsOfFile modules file = start.importsOfFile modules file := by
  rw [importsOfFile, h.readText_eq agree hfile, importsOfFile]

theorem mappedTo?_eq (modules : ModuleSyntax) (package : String) {path : String}
    (hpath : start.Aside places (namesOf path))
    (hdescribed : start.Unlinked places (namesOf (Path.join path ["package.json"]))) :
    tree.mappedTo? modules.endings package path = start.mappedTo? modules.endings package path := by
  rw [mappedTo?, mappedTo?, h.isEntryPoint_eq agree hdescribed, h.fileWithEnding?_eq agree modules hpath]

theorem installedIn?_eq (modules : ModuleSyntax) {specifier folder : String}
    (hpath : start.Aside places (namesOf (start.resolve [folder, "node_modules", specifier])))
    (hdescribed : start.Unlinked places (namesOf
      (Path.join (start.resolve [folder, "node_modules", specifier]) ["package.json"]))) :
    tree.installedIn? modules.endings specifier folder
      = start.installedIn? modules.endings specifier folder := by
  rw [installedIn?, installedIn?, agree.resolve_eq, h.isEntryPoint_eq agree hdescribed,
    h.fileWithEnding?_eq agree modules hpath]

theorem resolveMapped?_eq (modules : ModuleSyntax) {specifier file : String}
    (hpackage : tree.packageOf? file = start.packageOf? file)
    (hpaths : ∀ path ∈ mappings.toList.flatMap (·.mappedPaths start.workingDir specifier),
      start.Aside places (namesOf path)
        ∧ start.Unlinked places (namesOf (Path.join path ["package.json"]))) :
    tree.resolveMapped? mappings modules.endings specifier file
      = start.resolveMapped? mappings modules.endings specifier file := by
  unfold resolveMapped?
  rw [agree.workingDir, hpackage]
  cases mappings with
  | none => rw [Option.bind_eq_bind, Option.bind_none, Option.bind_eq_bind, Option.bind_none]
  | some table =>
    simp only [Option.bind_eq_bind, Option.bind_some]
    split
    · rfl
    · refine Option.bind_congr fun package _ => findSome?_congr fun path hmem => ?_
      obtain ⟨hpath, hdescribed⟩ := hpaths path
        (List.mem_flatMap.mpr ⟨table, Option.mem_toList.mpr rfl, hmem⟩)
      exact h.mappedTo?_eq agree modules package hpath hdescribed

/-! ## Imports -/

variable (apart : start.ImportsApart places mappings)
include apart

/-- **Every import leads to the same in both trees.** -/
theorem resolveImport?_eq {modules : ModuleSyntax} {file specifier : String}
    (hfile : start.Aside places (namesOf file))
    (himport : specifier ∈ start.importsOfFile modules file) :
    tree.resolveImport? mappings modules.endings specifier file
      = start.resolveImport? mappings modules.endings specifier file := by
  have hled := apart.led modules file specifier hfile himport
  have hdescribed := apart.described modules file specifier hfile himport
  unfold importPaths at hled hdescribed
  unfold resolveImport?
  split
  · rename_i hrelative
    rw [if_pos hrelative] at hled
    rw [agree.resolve_eq, h.fileWithEnding?_eq agree modules (hled _ (List.mem_singleton_self _))]
  rename_i hrelative
  rw [if_neg hrelative] at hled hdescribed
  split
  · rfl
  have hpackage : tree.packageOf? file = start.packageOf? file :=
    List.find?_congr fun folder hfolder =>
      h.isEntryPoint_eq agree (hdescribed folder (List.mem_append_right _ hfolder))
  have hmapped : tree.resolveMapped? mappings modules.endings specifier file
      = start.resolveMapped? mappings modules.endings specifier file :=
    h.resolveMapped?_eq agree modules hpackage fun path hpath =>
      ⟨hled path (List.mem_append_left _ hpath),
        hdescribed path (List.mem_append_left _ (List.mem_append_left _ hpath))⟩
  have hinstalled : tree.resolveInstalled? modules.endings specifier file
      = start.resolveInstalled? modules.endings specifier file := by
    refine findSome?_congr fun folder hfolder => ?_
    have hmem := List.mem_append_right
      (mappings.toList.flatMap (·.mappedPaths start.workingDir specifier))
      (List.mem_map_of_mem (f := fun folder => start.resolve [folder, "node_modules", specifier])
        hfolder)
    exact h.installedIn?_eq agree modules (hled _ hmem) (hdescribed _ (List.mem_append_left _ hmem))
  rw [hmapped, hinstalled]

omit agree in
/-- A file that an import leads to is at none of the places. -/
theorem aside_internal {modules : ModuleSyntax} {file specifier path : String}
    (hfile : start.Aside places (namesOf file))
    (himport : specifier ∈ start.importsOfFile modules file)
    (hfound : start.resolveImport? mappings modules.endings specifier file = some (.internal path)) :
    start.Aside places (namesOf path) := by
  have hled := apart.led modules file specifier hfile himport
  unfold importPaths at hled
  rcases found_of_internal hfound with
    ⟨hrelative, hfile⟩ | ⟨hbare, table, htable, mapped, hmem, hfile⟩
  · rw [if_pos hrelative] at hled
    exact h.aside_fileWithEnding? (hled _ (List.mem_singleton_self _)) hfile
  · rw [if_neg (by simp [hbare])] at hled
    have hmapped : mapped ∈ mappings.toList.flatMap (·.mappedPaths start.workingDir specifier) :=
      List.mem_flatMap.mpr ⟨table, Option.mem_toList.mpr htable, hmem⟩
    exact h.aside_fileWithEnding? (hled mapped (List.mem_append_left _ hmapped)) hfile

/-! ## Searches -/

/-- What is looked up in a file that is at none of the places is looked up alike in both
trees, and the files that are then to be read are at none of them either. -/
theorem foldl_record_eq {modules : ModuleSyntax} {file : String}
    (hfile : start.Aside places (namesOf file)) {specifiers : List String}
    (himports : specifiers ⊆ start.importsOfFile modules file) {search : DependencySearch}
    (hpending : ∀ other ∈ search.pending, start.Aside places (namesOf other)) :
    specifiers.foldl (fun search specifier => search.record specifier
        (tree.resolveImport? mappings modules.endings specifier file)) search
      = specifiers.foldl (fun search specifier => search.record specifier
        (start.resolveImport? mappings modules.endings specifier file)) search
    ∧ ∀ other ∈ (specifiers.foldl (fun search specifier => search.record specifier
        (start.resolveImport? mappings modules.endings specifier file)) search).pending,
      start.Aside places (namesOf other) := by
  induction specifiers generalizing search with
  | nil =>
    rw [List.foldl_nil, List.foldl_nil]
    exact ⟨rfl, hpending⟩
  | cons specifier rest ih =>
    have himport := himports List.mem_cons_self
    rw [List.foldl_cons, List.foldl_cons, h.resolveImport?_eq agree apart hfile himport]
    refine ih (fun other hother => himports (List.mem_cons_of_mem _ hother)) fun other hother => ?_
    rcases DependencySearch.mem_pending_record _ _ _ other hother with hmem | hfound
    · exact hpending other hmem
    · exact h.aside_internal apart hfile himport hfound

/-- A search whose files are at none of the places takes the same steps in both trees. -/
theorem searchWithin_eq (modules : ModuleSyntax) (rounds : Nat) {search : DependencySearch}
    (hpending : ∀ file ∈ search.pending, start.Aside places (namesOf file)) :
    tree.searchWithin modules mappings rounds search
      = start.searchWithin modules mappings rounds search := by
  induction rounds generalizing search with
  | zero => rw [searchWithin, searchWithin]
  | succ rounds ih =>
    rw [searchWithin, searchWithin]
    split
    · rfl
    · rename_i file rest hcons
      rw [hcons, List.forall_mem_cons] at hpending
      have hrest : ∀ other ∈ { search with pending := rest }.pending,
          start.Aside places (namesOf other) := hpending.2
      obtain ⟨hsame, hpending'⟩ :=
        h.foldl_record_eq agree apart hpending.1 (List.Subset.refl _) hrest
      rw [searchFile, searchFile, h.importsOfFile_eq agree modules hpending.1, hsame]
      exact ih hpending'

/-- **What the files of an entry-point import is the same in both trees.** A search may
take more rounds in one of them, but has ended before. -/
theorem collectDependencies_eq (modules : ModuleSyntax) {path : String}
    (hpath : start.Aside places (namesOf path)) :
    tree.collectDependencies modules mappings path
      = start.collectDependencies modules mappings path := by
  have hfile := h.fileWithEnding?_eq agree modules hpath
  have hroot : Path.isRooted tree.workingDir = true := by
    rw [agree.workingDir]
    exact h.wellFormed.rooted
  obtain ⟨hnone, hsome⟩ := exists_rounds h.wellFormed.rooted modules mappings path
  obtain ⟨hnone', hsome'⟩ := exists_rounds hroot modules mappings path
  cases hfirst : start.fileWithEnding? modules.endings path with
  | none => rw [hnone hfirst, hnone' (hfile.trans hfirst)]
  | some first =>
    obtain ⟨rounds, hended, hinfo⟩ := hsome first hfirst
    obtain ⟨rounds', hended', hinfo'⟩ := hsome' first (hfile.trans hfirst)
    have hpending : ∀ file ∈ ({ seen := [first], pending := [first] } : DependencySearch).pending,
        start.Aside places (namesOf file) := fun file hmem =>
      List.mem_singleton.mp hmem ▸ h.aside_fileWithEnding? hpath hfirst
    have hsame := h.searchWithin_eq agree apart modules (rounds' + rounds) hpending
    rw [searchWithin_add, searchWithin_of_ended hended', Nat.add_comm, searchWithin_add,
      searchWithin_of_ended hended] at hsame
    rw [hinfo', hinfo, hsame]

/-! ## Entry-points -/

omit apart in
theorem sniffFormat?_eq {path : String} (hpath : start.Aside places (namesOf path)) :
    tree.sniffFormat? path = start.sniffFormat? path := by
  have hfile := h.fileWithEnding?_eq agree .esm hpath
  have hendings : (ModuleSyntax.endings .esm) = scriptEndings := rfl
  rw [hendings] at hfile
  unfold sniffFormat?
  rw [hfile]
  refine Option.bind_congr fun file hfound => ?_
  rw [← hendings] at hfound
  rw [h.readText_eq agree (h.aside_fileWithEnding? hpath hfound)]

omit apart in
theorem format?_eq {entryPoint : EntryPoint} (hdescribed : Described places start entryPoint)
    (property : FormatProperty) :
    tree.format? entryPoint property = start.format? entryPoint property := by
  unfold format?
  cases property with
  | main | browser =>
    refine Option.bind_congr fun path hpath => ?_
    rw [agree.resolve_eq, h.sniffFormat?_eq agree (hdescribed.aside_bundle hpath)]
  | _ => rfl

omit apart in
theorem sourceFormat?_eq {entryPoint : EntryPoint} (hdescribed : Described places start entryPoint) :
    tree.sourceFormat? entryPoint = start.sourceFormat? entryPoint := by
  refine findSome?_congr fun property _ => Option.bind_congr fun path _ => ?_
  rw [h.format?_eq agree hdescribed, agree.resolve_eq]

omit h agree apart in
theorem aside_sourceFormat? {entryPoint : EntryPoint} (hdescribed : Described places start entryPoint)
    {format : BundleFormat} {path : String}
    (hsource : start.sourceFormat? entryPoint = some (format, path)) :
    start.Aside places (namesOf path) := by
  obtain ⟨property, _, hproperty⟩ := List.exists_of_findSome?_eq_some hsource
  obtain ⟨field, hfield, hformat⟩ := Option.bind_eq_some_iff.mp hproperty
  obtain ⟨found, _, hsame⟩ := Option.bind_eq_some_iff.mp hformat
  cases hsame
  exact hdescribed.aside_bundle hfield

/-- **What an entry-point imports is the same in both trees.** -/
theorem withInfo_eq (readable : List BundleFormat) {entryPoint : EntryPoint}
    (hdescribed : Described places start entryPoint) :
    tree.withInfo readable mappings entryPoint = start.withInfo readable mappings entryPoint := by
  have htypings := hdescribed.files.aside_typings hdescribed.typings
  unfold withInfo
  split
  · rfl
  rw [h.sourceFormat?_eq agree hdescribed]
  cases hsource : start.sourceFormat? entryPoint with
  | none => rfl
  | some source =>
    obtain ⟨format, path⟩ := source
    dsimp only
    rw [h.collectDependencies_eq agree apart format.modules (aside_sourceFormat? hdescribed hsource),
      h.collectDependencies_eq agree apart .declarations htypings]

end FileTree.ManifestPlaces

/-! ## Sorting -/

section

variable {places : List (List String)} {start tree : FileTree} {configuration : Configuration}
  {mappings : Option PathMappings}
variable (h : start.ManifestPlaces places) (agree : AgreeOutside places start tree)
  (apart : start.EntryPointsApart places configuration)
include h agree apart

omit agree in
theorem alike_ignoredOf (graph : Graph EntryPoint) {item : EntryPointWithInfo}
    (hitem : Described places start item.entryPoint) :
    Run.Alike (Session.Since start places configuration) tree start (fun _ => True)
      (ignoredOf configuration graph item) (ignoredOf configuration graph item) := by
  have hdeep : Run.Alike (Session.Since start places configuration) tree start (fun _ => True)
      (ignorableDeepImports configuration item) (ignorableDeepImports configuration item) := by
    unfold ignorableDeepImports
    split
    · exact Run.alike_pure trivial
    · have hpackage : Run.Alike (Session.Since start places configuration) tree start _ _ _ :=
        configuration.alike_forPackage h apart hitem.packageFolder
      rw [hitem.package] at hpackage
      refine hpackage.bind fun config _ => ?_
      dsimp only
      split
      · exact (Run.alike_say Session.Since.of_log _ _ _ _).bind fun _ _ => Run.alike_pure trivial
      · exact Run.alike_pure trivial
  exact hdeep.bind fun _ _ => Run.alike_pure trivial

/-- **What was found is read and sorted alike in both trees.** -/
theorem alike_readAndSort (reading : ImportReading)
    (himports : start.ImportsApart places reading.mappings) (target : Option EntryPoint)
    {entryPoints : List EntryPoint}
    (hfound : ∀ entryPoint ∈ entryPoints, Described places start entryPoint) :
    Run.Alike (Session.Since start places configuration) tree start (fun _ => True)
      (readAndSort configuration reading entryPoints target)
      (readAndSort configuration reading entryPoints target) := by
  have hitems : Run.Alike (Session.Since start places configuration) tree start
      (∀ item ∈ ·, Described places start item.entryPoint)
      (entryPoints.mapM (withInfo reading)) (entryPoints.mapM (withInfo reading)) := by
    refine Run.alike_mapM fun entryPoint hmem => Run.alike_tree ?_
    rw [h.withInfo_eq agree himports reading.readable (hfound entryPoint hmem)]
    split
    · rename_i item hitem
      have hsame : item.entryPoint = entryPoint := entryPoint_of_withInfo hitem
      exact Run.alike_pure (hsame ▸ hfound entryPoint hmem)
    · exact Run.alike_throw _ _
  refine hitems.bind fun items hitems => ?_
  unfold sortEntryPoints
  have hignored : Run.Alike (Session.Since start places configuration) tree start
      (∀ ignored ∈ ·, True)
      ((items.filter (·.entryPoint.compiledByAngular)).mapM
        (ignoredOf configuration (dependencyGraph (items.filter (·.entryPoint.compiledByAngular)))))
      ((items.filter (·.entryPoint.compiledByAngular)).mapM
        (ignoredOf configuration (dependencyGraph (items.filter (·.entryPoint.compiledByAngular))))) :=
    Run.alike_mapM fun item hmem =>
      alike_ignoredOf h apart _ (hitems item (List.mem_filter.mp hmem).1)
  exact hignored.bind fun ignored _ => Run.alike_pure trivial

end

end PackageOrder
