/-
PackageOrder.Proofs.Manifest.BasePaths — the folders to look under, whether manifests are
there or not.

Folders are looked under that path mappings lead to. A manifest is no folder, so as long
as no mapping leads to one, the folders are the same in both trees (`basePaths_eq`), and
none of them is behind a manifest (`searched_basePaths`).
-/
import PackageOrder.Proofs.Manifest.Answer

namespace PackageOrder

open PackageOrder.Text
open PackageOrder.FileTree (namesOf pathOf AgreeOutside ManifestPlaces Spelled)

/-- No target of a path mapping leads to one of some places. -/
structure FileTree.MappingsApart (places : List (List String)) (tree : FileTree)
    (mappings : Option PathMappings) : Prop where
  before : ∀ table ∈ mappings, ∀ entry ∈ table.paths, ∀ target ∈ entry.2,
    tree.Aside places (namesOf (tree.pathBeforeStar (tree.resolve [table.baseUrl]) target))
  folders : ∀ table ∈ mappings, ∀ entry ∈ table.paths, ∀ target ∈ entry.2,
    ∀ folder ∈ (tree.targetFolders (tree.resolve [table.baseUrl]) target).folders,
      tree.Aside places (namesOf folder)

/-- Of two lists the same is taken if they are the same but for items of which nothing
is. -/
theorem filterMap_kept {α β : Type} {keep : α → Bool} {items others : List α}
    {one other : α → Option β} (hsame : items.filter keep = others.filter keep)
    (hkept : ∀ item ∈ items, keep item = true → one item = other item)
    (hone : ∀ item ∈ items, keep item = false → one item = none)
    (hother : ∀ item ∈ others, keep item = false → other item = none) :
    items.filterMap one = others.filterMap other := by
  have hdrop : ∀ (all : List α) (take : α → Option β),
      (∀ item ∈ all, keep item = false → take item = none) →
      all.filterMap take = (all.filter keep).filterMap take := by
    intro all take hnone
    rw [List.filterMap_filter]
    refine List.filterMap_congr fun item hitem => ?_
    cases hkeep : keep item with
    | true => rfl
    | false => exact hnone item hitem hkeep
  rw [hdrop items one hone, hdrop others other hother, ← hsame]
  refine List.filterMap_congr fun item hitem => ?_
  obtain ⟨hmem, hkeep⟩ := List.mem_filter.mp hitem
  exact hkept item hmem hkeep

namespace FileTree.ManifestPlaces

variable {places : List (List String)} {start tree : FileTree} {mappings : Option PathMappings}
variable (h : start.ManifestPlaces places)
include h

/-- A folder that is not behind a link at one of the places is none of them. -/
theorem aside_of_isFolder {path : String} (hunlinked : start.Unlinked places (namesOf path))
    (hfolder : start.isFolder path = true) : start.Aside places (namesOf path) := by
  refine ⟨fun hplace => ?_, hunlinked⟩
  rw [h.isFolder_place h.wellFormed.sensitive hplace hunlinked] at hfolder
  cases hfolder

/-- The folder of a file is none of the places. -/
theorem aside_dirname {path : String} (hnormal : Normal path)
    (hpath : start.Aside places (namesOf path)) (hfile : start.isFile path = true) :
    start.Aside places (namesOf (Path.dirname path)) := by
  have hbelow : namesOf (Path.dirname path) <+: namesOf path := by
    rw [(dirname_of_normal hnormal).2]
    exact List.dropLast_prefix _
  refine ⟨fun hplace => ?_, fun place hplace target hlink habove =>
    hpath.unlinked place hplace target hlink (habove.trans hbelow)⟩
  obtain ⟨found, hfound⟩ := Option.isSome_iff_exists.mp (exists_of_isFile hfile)
  rw [h.lookup_below h.wellFormed.sensitive hplace hbelow hpath] at hfound
  cases hfound

/-- A link at one of the places is listed in the folder above. -/
theorem mem_list_of_link {container name target : String} {names : List String}
    (hlist : start.list container = .ok names) (hplace : namesOf container ++ [name] ∈ places)
    (hlink : start.entityAt (namesOf container ++ [name]) = some (.link target)) : name ∈ names := by
  obtain ⟨parent, last, heq, ⟨entries, hentries⟩, _⟩ := h.opened _ hplace
  obtain ⟨rfl, hlast⟩ := List.append_inj' heq rfl
  obtain ⟨way, hlookup⟩ := lookup_of_entityAt h.wellFormed.sensitive hentries
    (fun _ hfollow => by cases hfollow) true
  obtain ⟨found, _, hlookup', rfl⟩ := list_eq_ok_iff.mp hlist
  cases hlookup.symm.trans hlookup'
  exact Folder.mem_names_of_lookup ((Folder.entityAt_concat hentries _).symm.trans hlink)

/-- What stands at one of the places is no folder that a name which starts alike leads to:
a link to a folder would be listed, and then it was led to. -/
theorem isFolder_eq_false_of_starting {container text name : String} {names : List String}
    (hunlinked : start.Unlinked places (namesOf container))
    (hfound : ∀ folder ∈ start.foldersStarting container text, start.Aside places (namesOf folder))
    (hfolder : start.isFolder container = true) (hlist : start.list container = .ok names)
    (hnames : namesOf (start.resolve [container, name]) = namesOf container ++ [name])
    (hstart : (dropHead? text.toList name.toList).isSome = true)
    (hplace : namesOf container ++ [name] ∈ places) :
    start.isFolder (start.resolve [container, name]) = false := by
  cases hisFolder : start.isFolder (start.resolve [container, name]) with
  | false => rfl
  | true =>
    exfalso
    have hlinked : ¬ start.Unlinked places (namesOf (start.resolve [container, name])) :=
      fun hunlinked => by
        rw [h.isFolder_place h.wellFormed.sensitive (hnames ▸ hplace) hunlinked] at hisFolder
        cases hisFolder
    refine hlinked fun place hplace' target hlink hbelow => ?_
    rw [hnames] at hbelow
    rcases List.prefix_concat_iff.mp hbelow with rfl | hbelow
    · refine (hfound (start.resolve [container, name]) ?_).notMem (hnames ▸ hplace)
      exact mem_foldersStarting.mpr ⟨hfolder, names, name, hlist,
        h.mem_list_of_link hlist hplace hlink, hstart, rfl, hisFolder⟩
    · exact hunlinked place hplace' target hlink hbelow

variable (agree : AgreeOutside places start tree)
include agree

theorem isFolder_eq {path : String} (hunlinked : start.Unlinked places (namesOf path)) :
    tree.isFolder path = start.isFolder path := by
  by_cases hplace : namesOf path ∈ places
  · have hone := h.isFolder_place h.wellFormed.sensitive hplace hunlinked
    rw [hone, agree.isFolder_place h.toSecluded hplace hone]
  · exact (agree.looksAlike h.toSecluded ⟨hplace, hunlinked⟩ true).isFolder_eq

/-- **The folders in a folder whose names start alike are the same in both trees.** -/
theorem foldersStarting_eq {container text : String} (hnormal : Normal container)
    (hunlinked : start.Unlinked places (namesOf container))
    (hfound : ∀ folder ∈ start.foldersStarting container text, start.Aside places (namesOf folder)) :
    tree.foldersStarting container text = start.foldersStarting container text := by
  cases hfolder : start.isFolder container with
  | false =>
    rw [foldersStarting, foldersStarting, h.isFolder_eq agree hunlinked, hfolder,
      if_neg Bool.false_ne_true, if_neg Bool.false_ne_true]
  | true =>
    have haside := h.aside_of_isFolder hunlinked hfolder
    rcases h.listed_cases agree hnormal haside with
      ⟨cause, cause', hone, hother⟩ | ⟨names, names', hlist⟩
    · rw [foldersStarting, foldersStarting, h.isFolder_eq agree hunlinked, hfolder, if_pos rfl,
        if_pos rfl, hone, hother, Except.toOption, Except.toOption, Option.getD_none]
      rw [List.filter_nil, List.filterMap_nil, List.filterMap_nil]
    have hplaced : ∀ name, (name ∈ names ∨ name ∈ names') →
        (dropHead? text.toList name.toList).isSome = true → namesOf container ++ [name] ∈ places →
        start.isFolder (start.resolve [container, name]) = false := fun name hname =>
      h.isFolder_eq_false_of_starting hunlinked hfound hfolder hlist.start
        (hnormal.below (hlist.spelled name hname) start).2
    rw [foldersStarting, foldersStarting, h.isFolder_eq agree hunlinked, hfolder, if_pos rfl,
      if_pos rfl, hlist.start, hlist.tree, Except.toOption, Except.toOption, Option.getD_some,
      Option.getD_some, List.filterMap_filter, List.filterMap_filter]
    refine filterMap_kept hlist.same ?_ ?_ ?_
    · intro name hname hkeep
      have hnames := (hnormal.below (hlist.spelled name (Or.inr hname)) start).2
      have hnone : start.Aside places (namesOf (start.resolve [container, name])) :=
        hnames ▸ hunlinked.aside (of_decide_eq_true hkeep)
      dsimp only
      rw [agree.resolve_eq, h.isFolder_eq agree hnone.unlinked]
    · intro name hname hkeep
      have hplace := Decidable.not_not.mp (of_decide_eq_false hkeep)
      have hnames := (hnormal.below (hlist.spelled name (Or.inr hname)) start).2
      dsimp only
      split
      · rename_i hstart
        rw [agree.resolve_eq, agree.isFolder_place h.toSecluded (hnames ▸ hplace)
          (hplaced name (Or.inr hname) hstart hplace), if_neg Bool.false_ne_true]
      · rfl
    · intro name hname hkeep
      have hplace := Decidable.not_not.mp (of_decide_eq_false hkeep)
      dsimp only
      split
      · rename_i hstart
        rw [hplaced name (Or.inl hname) hstart hplace, if_neg Bool.false_ne_true]
      · rfl

/-- The folders that the folder before a star leads to are the same in both trees. -/
theorem foldersAt_eq {path : String} (hpath : start.Aside places (namesOf path))
    (hroot : Path.isRooted path = true) (hnormal : Path.NoDrive path.toList → Normal path)
    (hfound : ∀ folder ∈ start.foldersAt path, start.Aside places (namesOf folder)) :
    tree.foldersAt path = start.foldersAt path := by
  unfold foldersAt at hfound ⊢
  rw [h.exists?_eq agree hpath]
  split
  · rfl
  · rename_i hexists
    rw [if_neg hexists] at hfound
    by_cases hdrive : Path.NoDrive path.toList
    · obtain ⟨hdirname, hnames⟩ := dirname_of_normal (hnormal hdrive)
      refine h.foldersStarting_eq agree hdirname ?_ hfound
      intro place hplace target hlink hbelow
      rw [hnames] at hbelow
      exact hpath.unlinked place hplace target hlink (hbelow.trans (List.dropLast_prefix _))
    · -- no name in the root starts with a colon
      obtain ⟨name, rest, hnames, hcolon⟩ := exists_colon_dirname hroot hdrive
      have hnone : ∀ other : FileTree, other.caseSensitive = true →
          (∀ name ∈ Folder.names other.root, name.toList.head? ≠ some ':') →
          other.isFolder (Path.dirname path) = false := by
        intro other hcase hroot
        rw [Bool.eq_false_iff]
        intro hfolder
        obtain ⟨found, hlookup⟩ := Option.isSome_iff_exists.mp (exists_of_isFolder hfolder)
        exact hroot name (mem_root_of_lookup hcase hlookup hnames) hcolon
      rw [foldersStarting, foldersStarting, hnone tree agree.sensitive.2 (h.no_drive agree),
        hnone start h.wellFormed.sensitive h.wellFormed.no_drive, if_neg Bool.false_ne_true,
        if_neg Bool.false_ne_true]

/-- **The folders that a target leads to are the same in both trees.** -/
theorem folders_targetFolders_eq {baseUrl target : String}
    (hpath : start.Aside places (namesOf (start.pathBeforeStar baseUrl target)))
    (hfound : ∀ folder ∈ (start.targetFolders baseUrl target).folders,
      start.Aside places (namesOf folder)) :
    (tree.targetFolders baseUrl target).folders = (start.targetFolders baseUrl target).folders := by
  rw [folders_targetFolders] at hfound
  rw [folders_targetFolders, folders_targetFolders]
  have hsame : tree.pathBeforeStar baseUrl target = start.pathBeforeStar baseUrl target :=
    agree.resolve_eq _
  rw [hsame, h.isFile_eq agree hpath]
  split
  · rename_i hfile
    rw [if_pos hfile] at hfound
    have hnormal := normal_resolve h.wellFormed (exists_of_isFile hfile)
    have hdirname := (dirname_of_normal hnormal).1
    exact h.foldersAt_eq agree (h.aside_dirname hnormal hpath hfile) hdirname.isRooted
      (fun _ => hdirname) hfound
  · rename_i hfile
    rw [if_neg hfile] at hfound
    refine h.foldersAt_eq agree hpath ?_ ?_ hfound
    all_goals unfold pathBeforeStar
    all_goals rw [resolve_eq_clean]
    · exact isRooted_clean (isRooted_foldl_place h.wellFormed.rooted _)
    · exact normal_of_noDrive (isRooted_foldl_place h.wellFormed.rooted _)

/-! ## All of them -/

theorem fst_mappedFolders_eq (apart : start.MappingsApart places mappings) :
    ∀ table ∈ mappings, (tree.mappedFolders table).1 = (start.mappedFolders table).1 := by
  intro table htable
  rw [fst_mappedFolders, fst_mappedFolders, agree.resolve_eq]
  refine List.flatMap_congr fun target htarget => ?_
  obtain ⟨entry, hentry, htarget⟩ := List.mem_flatMap.mp htarget
  exact h.folders_targetFolders_eq agree (apart.before table htable entry hentry target htarget)
    (apart.folders table htable entry hentry target htarget)

/-- **The folders to look under are the same in both trees.** -/
theorem basePaths_eq (source : String) (apart : start.MappingsApart places mappings) :
    (tree.basePaths source mappings).1 = (start.basePaths source mappings).1 := by
  have hmapped := h.fst_mappedFolders_eq agree apart
  cases mappings with
  | none => rfl
  | some table =>
    unfold basePaths
    simp only [Option.map_some, Option.getD_some]
    rw [hmapped table rfl]

end FileTree.ManifestPlaces

namespace FileTree

theorem mem_basePaths {tree : FileTree} {source : String} {mappings : Option PathMappings}
    {path : String} (hpath : path ∈ (tree.basePaths source mappings).1) :
    path = source ∨ ∃ table ∈ mappings, ∃ entry ∈ table.paths, ∃ target ∈ entry.2,
      path ∈ (tree.targetFolders (tree.resolve [table.baseUrl]) target).folders := by
  rcases mem_basePaths_iff.mp hpath with hkept | ⟨hsource, _⟩
  · exact (List.mem_cons.mp (mem_dedupePaths.mp hkept).1).imp_right mem_mappedBy.mp
  · exact Or.inl hsource

/-- The folders to look under are in normal form. -/
theorem normal_of_mem_basePaths {tree : FileTree} (hwell : tree.WellFormed) {source : String}
    (hsource : Normal source) {mappings : Option PathMappings} {path : String}
    (hpath : path ∈ (tree.basePaths source mappings).1) : Normal path := by
  rcases mem_basePaths hpath with rfl | ⟨_, _, _, _, _, _, hfolder⟩
  · exact hsource
  · exact normal_of_mem_targetFolders hwell hfolder

/-- **The folders to look under are none of the places of their manifests.** -/
theorem searched_basePaths {tree : FileTree} (hwell : tree.WellFormed) {source : String}
    (hsource : Normal source) {mappings : Option PathMappings} {places : List (List String)}
    (hplaces : places = tree.manifestPlaces (tree.basePaths source mappings).1)
    (haside : tree.Aside places (namesOf source)) (apart : tree.MappingsApart places mappings) :
    Searched places tree (tree.basePaths source mappings).1 where
  normal _ := normal_of_mem_basePaths hwell hsource
  aside path hpath := by
    rcases mem_basePaths hpath with rfl | ⟨table, htable, entry, hentry, target, htarget, hfolder⟩
    · exact haside
    · exact apart.folders table htable entry hentry target htarget path hfolder
  covered basePath hmem hmay path hpath hopen := by
    rw [hplaces]
    exact mem_manifestPlaces.mpr ⟨hopen, basePath, hmem, hmay,
      hpath.imp (congrArg namesOf) (congrArg namesOf)⟩

end FileTree

end PackageOrder
