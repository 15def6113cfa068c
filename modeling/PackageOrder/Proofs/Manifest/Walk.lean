/-
PackageOrder.Proofs.Manifest.Walk — walking folders, whether manifests stand in them
or not.

A walk passes manifests over: they are files or links, and no scripts. So it finds the
same in two trees that differ by manifests only (`alike_walkAll`), and what it finds is
found again where it was found. The trees may be of different depths; a walk that is
deeper than the tree ends all the same.
-/
import PackageOrder.Proofs.Discovery.Walk
import PackageOrder.Proofs.Manifest.Listing

namespace PackageOrder

open PackageOrder.Path (Plain)
open PackageOrder.FileTree (namesOf AgreeOutside ManifestPlaces Spelled pathOf)

/-- Manifests have no names of scripts. -/
theorem FileTree.ManifestPlaces.not_isScriptName {places : List (List String)} {start : FileTree}
    (h : start.ManifestPlaces places) {front : List String} {name : String}
    (hplace : front ++ [name] ∈ places) : isScriptName name = false := by
  rcases h.name_of_mem hplace with rfl | rfl <;> decide

section

variable {places : List (List String)} {start tree : FileTree} {configuration : Configuration}
variable (h : start.ManifestPlaces places) (apart : start.EntryPointsApart places configuration)
variable (agree : AgreeOutside places start tree)
include h agree

/-- Scripts are in a folder or not in both trees. -/
theorem Listing.holdsScripts_eq {folder : String} {names names' : List String}
    (hlist : Listing places start tree folder names names') (hnormal : Normal folder)
    (hfolder : start.Unlinked places (namesOf folder)) :
    tree.holdsScripts folder names' = start.holdsScripts folder names := by
  have hkept : ∀ (other : FileTree) (all : List String),
      other.holdsScripts folder all
        = other.holdsScripts folder (all.filter (namesOf folder ++ [·] ∉ places)) := by
    intro other all
    unfold FileTree.holdsScripts
    rw [List.any_filter]
    congr 1
    funext name
    by_cases hplace : namesOf folder ++ [name] ∈ places
    · rw [h.not_isScriptName hplace]
      simp
    · simp [hplace]
  rw [hkept tree, hkept start, hlist.same]
  unfold FileTree.holdsScripts
  rw [Bool.eq_iff_iff, List.any_eq_true, List.any_eq_true]
  refine exists_congr fun name => and_congr_right fun hname => ?_
  obtain ⟨hmem, hplace⟩ := List.mem_filter.mp hname
  have hpath := (hnormal.below (hlist.spelled name (Or.inl hmem)) start).2
  rw [agree.resolve_eq, h.isFile_eq agree (hpath ▸ hfolder.aside (of_decide_eq_true hplace))]

theorem Listing.length_le {folder : String} {names names' : List String}
    (hlist : Listing places start tree folder names names') (hnormal : Normal folder) :
    (namesOf folder).length ≤ tree.longestWay ∧ (namesOf folder).length ≤ start.longestWay := by
  have hexists : ∀ (other : FileTree) (all : List String), other.list folder = .ok all →
      ∃ found, other.lookup folder true = some found := by
    intro other all hother
    cases hlookup : other.lookup folder true with
    | none => rw [FileTree.list, hlookup] at hother; cases hother
    | some found => exact ⟨found, rfl⟩
  obtain ⟨found, hfound⟩ := hexists tree names' hlist.tree
  obtain ⟨found', hfound'⟩ := hexists start names hlist.start
  exact ⟨h.length_namesOf_le agree hnormal hfound, h.length_namesOf_le h.agree_refl hnormal hfound'⟩

/-- What a walk finds of a manifest in a folder is no folder. -/
theorem exists_linkStat_passed {folder : String} {names : List String}
    (hlist : tree.list folder = .ok names) (hnormal : Normal folder) {name : String}
    (hname : name ∈ names) (hspelled : Spelled (namesOf folder ++ [name]))
    (hplace : namesOf folder ++ [name] ∈ places) :
    ∃ kind, kind ≠ .folder ∧ tree.linkStat (tree.resolve [folder, name]) = .ok kind := by
  have hpath := (hnormal.below hspelled tree).2
  rcases h.linkStat_place agree hlist hname hpath (hpath ▸ hplace) with hfile | hlink
  · exact ⟨.file, by decide, hfile⟩
  · exact ⟨.link, by decide, hlink⟩

include apart

omit agree in
/-- What a script may be the bundle of is not behind a link at one of the places. -/
theorem folderAside_of_script {folder name : String} (hnormal : Normal folder)
    (hfolder : start.Unlinked places (namesOf folder)) (hscript : isScriptName name = true)
    (hlooked : isIgnorableName name = false) (hspelled : Spelled (namesOf folder ++ [name]))
    (hfile : start.linkStat (start.resolve [folder, name]) = .ok .file) :
    start.FolderAside places (Path.withoutScriptEnding (start.resolve [folder, name])) := by
  obtain ⟨stem, rfl, hne, hdot⟩ := exists_stem hscript hlooked
  have hstem := hspelled.of_script hne hdot
  rw [hnormal.resolve_name hspelled, (withoutScriptEnding_pathOf _ stem).1]
  refine h.folderAside ⟨_, hstem, rfl⟩ ?_
  rw [FileTree.namesOf_pathOf hstem.plain]
  exact apart.scripts folder stem hfolder hfile

omit apart in
/-- What is done with the names in a folder is alike, if it is so for those that are none of
the places, and nothing comes of a name of what is no folder and no script. -/
theorem alike_visitNames {folder : String} {names names' : List String}
    (hlist : Listing places start tree folder names names') (hnormal : Normal folder)
    (hfolder : start.Unlinked places (namesOf folder)) {known : EntryPoint → Prop}
    {visit visit' : String → String → EntityKind → Run (List EntryPoint)}
    (hvisit : ∀ name kind, Spelled (namesOf folder ++ [name]) → isIgnorableName name = false →
      start.Aside places (namesOf (start.resolve [folder, name])) →
      start.linkStat (start.resolve [folder, name]) = .ok kind →
      Run.Alike (Session.Since start places configuration) tree start (∀ entryPoint ∈ ·, known entryPoint)
        (visit name (start.resolve [folder, name]) kind)
        (visit' name (start.resolve [folder, name]) kind))
    (hskip : ∀ name path kind, isScriptName name = false → kind ≠ .folder →
      visit name path kind = pure [] ∧ visit' name path kind = pure []) :
    Run.Alike (Session.Since start places configuration) tree start (∀ entryPoint ∈ ·, known entryPoint)
      (visitNames folder names' visit) (visitNames folder names visit') := by
  refine Run.alike_gather (namesOf folder ++ [·] ∉ places) ?_ ?_ ?_ ?_
  · rw [List.filter_comm, hlist.same, List.filter_comm]
  · intro name hname hkeep
    obtain ⟨hmem, hlooked⟩ := List.mem_filter.mp hname
    have hspelled := hlist.spelled name (Or.inr hmem)
    have hplace : start.Aside places (namesOf (start.resolve [folder, name])) :=
      (hnormal.below hspelled start).2 ▸ hfolder.aside (of_decide_eq_true hkeep)
    refine Run.alike_tree ?_
    dsimp only
    rw [agree.resolve_eq]
    have hkind := (agree.looksAlike h.toSecluded hplace false).linkStat_eq
    refine (Run.alike_readWith _ (·.linkStat _) (congrArg Except.toOption hkind)).bind
      fun kind hread => ?_
    exact hvisit name kind hspelled (by simpa using hlooked) hplace (hkind ▸ hread)
  · intro name hname hkeep
    have hmem := (List.mem_filter.mp hname).1
    have hplace := Decidable.not_not.mp (of_decide_eq_false hkeep)
    obtain ⟨kind, hkind, hstat⟩ := exists_linkStat_passed h agree hlist.tree hnormal hmem
      (hlist.spelled name (Or.inr hmem)) hplace
    refine Run.Alike.of_runFrom (Run.alike_pure trivial) fun session htree => ?_
    rw [Run.runFrom_tree_bind _ htree]
    dsimp only
    rw [Run.runFrom_readWith_bind (·.linkStat (tree.resolve [folder, name])) htree hstat,
      (hskip name _ kind (h.not_isScriptName hplace) hkind).1]
  · intro name hname hkeep
    have hmem := (List.mem_filter.mp hname).1
    have hplace := Decidable.not_not.mp (of_decide_eq_false hkeep)
    obtain ⟨kind, hkind, hstat⟩ := exists_linkStat_passed h h.agree_refl hlist.start hnormal hmem
      (hlist.spelled name (Or.inl hmem)) hplace
    refine Run.Alike.of_runFrom (Run.alike_pure trivial) fun session htree => ?_
    rw [Run.runFrom_tree_bind _ htree]
    dsimp only
    rw [Run.runFrom_readWith_bind (·.linkStat (start.resolve [folder, name])) htree hstat,
      (hskip name _ kind (h.not_isScriptName hplace) hkind).2]

omit apart in
/-- What is done after a folder was listed is alike, if it is so for the names it lists. -/
theorem alike_list {α : Type} {holds : α → Prop} {folder : String} (hnormal : Normal folder)
    (hfolder : start.Aside places (namesOf folder)) {next next' : List String → Run α}
    (hnext : ∀ names names', Listing places start tree folder names names' →
      Run.Alike (Session.Since start places configuration) tree start holds (next names') (next' names)) :
    Run.Alike (Session.Since start places configuration) tree start holds
      (Run.readWith folder (·.list folder) >>= next) (Run.readWith folder (·.list folder) >>= next') := by
  rcases h.listed_cases agree hnormal hfolder with
    ⟨cause, cause', hone, hother⟩ | ⟨names, names', hlist⟩
  · refine (Run.alike_readWith _ (·.list _) (by rw [hone, hother]; rfl)).bind fun _ hread => ?_
    rw [hother] at hread
    cases hread
  · exact Run.alike_read hlist.tree hlist.start (hnext names names' hlist)

/-- **A walk in a package finds the same in both trees.** -/
theorem alike_walkPackage {packagePath : String} (hpackage : start.FolderAside places packagePath)
    {depth depth' : Nat} {folder : String} {names names' : List String}
    (hlist : Listing places start tree folder names names') (hnormal : Normal folder)
    (hfolder : start.Unlinked places (namesOf folder))
    (hdepth : start.longestWay + 2 ≤ (namesOf folder).length + depth)
    (hdepth' : tree.longestWay + 2 ≤ (namesOf folder).length + depth') :
    Run.Alike (Session.Since start places configuration) tree start
      (∀ entryPoint ∈ ·, Inspected places start configuration entryPoint)
      (walkPackage configuration packagePath depth' folder names')
      (walkPackage configuration packagePath depth folder names) := by
  induction depth' generalizing depth folder names names' with
  | zero =>
    -- depths are used up only with the names that lead to a folder
    have hlength := (hlist.length_le h agree hnormal).1
    omega
  | succ depth' ih =>
    obtain ⟨depth, rfl⟩ : ∃ less, depth = less + 1 := by
      have hlength := (hlist.length_le h agree hnormal).2
      exact ⟨depth - 1, by omega⟩
    rw [walkPackage, walkPackage]
    refine alike_visitNames h agree hlist hnormal hfolder ?_ ?_
    · intro name kind hspelled hlooked hplace hkind
      have hbelow := hnormal.below hspelled start
      cases kind with
      | link => exact Run.alike_pure fun _ hmem => absurd hmem List.not_mem_nil
      | file =>
        dsimp only
        split
        · rename_i hscript
          have hscript' :=
            folderAside_of_script h apart hnormal hfolder hscript hlooked hspelled hkind
          refine (alike_inspect h apart agree hpackage hscript').bind fun inspection hinspection => ?_
          exact Run.alike_pure fun entryPoint hmem =>
            (hinspection entryPoint (Option.mem_toList.mp hmem)).2.2
        · exact Run.alike_pure fun _ hmem => absurd hmem List.not_mem_nil
      | folder =>
        have hinside := h.folderAside hbelow.1 hplace.unlinked
        refine (alike_inspect h apart agree hpackage hinside).bind fun inspection hinspection => ?_
        have hown : ∀ entryPoint ∈ inspection.entryPoint?.toList,
            Inspected places start configuration entryPoint :=
          fun entryPoint hmem => (hinspection entryPoint (Option.mem_toList.mp hmem)).2.2
        refine alike_list h agree hbelow.1 hplace fun children children' hchildren => ?_
        refine Run.alike_tree ?_
        rw [hchildren.holdsScripts_eq h agree hbelow.1 hplace.unlinked]
        split
        · exact Run.alike_pure hown
        · have hlength : (namesOf (start.resolve [folder, name])).length
              = (namesOf folder).length + 1 := by
            rw [hbelow.2, List.length_append, List.length_singleton]
          exact (ih hchildren hbelow.1 hplace.unlinked (by omega) (by omega)).bind fun more hmore =>
            Run.alike_pure (List.forall_mem_append.mpr ⟨hown, hmore⟩)
    · intro name path kind hscript hkind
      cases kind with
      | link => exact ⟨rfl, rfl⟩
      | file =>
        dsimp only
        rw [hscript]
        exact ⟨rfl, rfl⟩
      | folder => exact absurd rfl hkind

omit apart in
/-- What is found has no more names than either walk is deep. -/
theorem length_le_of_found {path : String} (hnormal : Normal path)
    (hplace : start.Aside places (namesOf path)) {followLast : Bool} {found : Entity × String}
    (hfound : start.lookup path followLast = some found) :
    (namesOf path).length ≤ tree.longestWay ∧ (namesOf path).length ≤ start.longestWay := by
  rcases agree.looksAlike h.toSecluded hplace followLast with
    ⟨hnone, _⟩ | ⟨_, found', _, way', _, hfound', _⟩
  · rw [hnone] at hfound
    cases hfound
  · exact ⟨h.length_namesOf_le agree hnormal hfound', h.length_namesOf_le h.agree_refl hnormal hfound⟩

/-- **A walk finds the same in both trees.** -/
theorem alike_walkFolder {depth depth' : Nat} {folder : String} (hnormal : Normal folder)
    (hfolder : start.Aside places (namesOf folder)) (hpos : 0 < depth) (hpos' : 0 < depth')
    (hdepth : start.longestWay + 2 ≤ (namesOf folder).length + depth)
    (hdepth' : tree.longestWay + 2 ≤ (namesOf folder).length + depth') :
    Run.Alike (Session.Since start places configuration) tree start
      (∀ entryPoint ∈ ·, Inspected places start configuration entryPoint)
      (walkFolder configuration depth' folder) (walkFolder configuration depth folder) := by
  induction depth' generalizing depth folder with
  | zero => exact absurd hpos' (Nat.lt_irrefl 0)
  | succ depth' ih =>
    obtain ⟨depth, rfl⟩ : ∃ less, depth = less + 1 := ⟨depth - 1, by omega⟩
    -- what is found one name further down leaves depth for itself
    have hbelow : ∀ {name : String}, Spelled (namesOf folder ++ [name]) →
        start.Aside places (namesOf (start.resolve [folder, name])) → ∀ {followLast found},
        start.lookup (start.resolve [folder, name]) followLast = some found →
        Run.Alike (Session.Since start places configuration) tree start
          (∀ entryPoint ∈ ·, Inspected places start configuration entryPoint)
          (walkFolder configuration depth' (start.resolve [folder, name]))
          (walkFolder configuration depth (start.resolve [folder, name])) := by
      intro name hspelled hplace followLast found hfound
      obtain ⟨hchild, hnames⟩ := hnormal.below hspelled start
      have hlength : (namesOf (start.resolve [folder, name])).length = (namesOf folder).length + 1 := by
        rw [hnames, List.length_append, List.length_singleton]
      have hbound := length_le_of_found h agree hchild hplace hfound
      exact ih hchild hplace (by omega) (by omega) (by omega) (by omega)
    have hinside := h.folderAside hnormal hfolder.unlinked
    rw [walkFolder, walkFolder]
    refine (alike_inspect h apart agree hinside hinside).bind fun inspection hinspection => ?_
    have hfound : ∀ entryPoint ∈ inspection.entryPoint?.toList,
        Inspected places start configuration entryPoint :=
      fun entryPoint hmem => (hinspection entryPoint (Option.mem_toList.mp hmem)).2.2
    have hnothing : ∀ entryPoint ∈ ([] : List EntryPoint),
        Inspected places start configuration entryPoint :=
      fun _ hmem => absurd hmem List.not_mem_nil
    cases inspection with
    | invalid => exact Run.alike_pure hnothing
    | noEntryPoint =>
      refine alike_list h agree hnormal hfolder fun names names' hlist => ?_
      refine alike_visitNames h agree hlist hnormal hfolder.unlinked ?_ ?_
      · intro name kind hspelled _ hplace hkind
        cases kind with
        | folder =>
          obtain ⟨found, hfound⟩ := FileTree.exists_lookup_of_linkStat hkind
          exact hbelow hspelled hplace hfound
        | link => exact Run.alike_pure hnothing
        | file => exact Run.alike_pure hnothing
      · intro name path kind _ hkind
        cases kind with
        | folder => exact absurd rfl hkind
        | link => exact ⟨rfl, rfl⟩
        | file => exact ⟨rfl, rfl⟩
    | _ =>
      refine alike_list h agree hnormal hfolder fun names names' hlist => ?_
      refine (alike_walkPackage h apart agree hinside hlist hnormal hfolder.unlinked hdepth
        hdepth').bind fun secondary hsecondary => ?_
      refine Run.alike_tree (Run.alike_tree ?_)
      have hown := List.forall_mem_append.mpr ⟨hfound, hsecondary⟩
      have hspelled := hnormal.spelled_name (by decide : Plain "node_modules".toList)
        fun _ => by decide
      have hplace : start.Aside places (namesOf (start.resolve [folder, "node_modules"])) :=
        (hnormal.below hspelled start).2 ▸ h.aside_concat hfolder.unlinked (by decide)
      rw [agree.resolve_eq, h.exists?_eq agree hplace]
      split
      · rename_i hinstalled
        obtain ⟨found, hexists⟩ := Option.isSome_iff_exists.mp (Bool.and_eq_true_iff.mp hinstalled).2
        exact (hbelow hspelled hplace hexists).bind fun more hmore =>
          Run.alike_pure (List.forall_mem_append.mpr ⟨hown, hmore⟩)
      · exact Run.alike_pure hown

/-- **All entry-points under a folder are the same in both trees**, and each is found again
where it was found. -/
theorem alike_walkAll {folder : String} (hnormal : Normal folder)
    (hfolder : start.Aside places (namesOf folder)) :
    Run.Alike (Session.Since start places configuration) tree start
      (∀ entryPoint ∈ ·, Inspected places start configuration entryPoint)
      (walkAll configuration folder) (walkAll configuration folder) :=
  Run.alike_tree (alike_walkFolder h apart agree hnormal hfolder (by omega) (by omega) (by omega)
    (by omega))

end

end PackageOrder
