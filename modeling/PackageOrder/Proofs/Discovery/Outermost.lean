/-
PackageOrder.Proofs.Discovery.Outermost — the folders to look in cover what is named and
do not overlap.

Every path of a list is found in one of those that stay, and none of those in another
(`outermost_dedupePaths`). So the folders in which entry-points are looked for cover the
source folder and whatever folder a target of a mapping names, and only a source folder
of installed packages may be found in another one, as it is put back where it would not
stay (`FileTree.basePaths_outermost`). Without a colon in any name, all the paths are in
normal form, whether or not names are told apart by case.
-/
import PackageOrder.Proofs.FileTree.Tidy

namespace PackageOrder

open PackageOrder.Text
open PackageOrder.Path (ColonFree)
open PackageOrder.FileTree (namesOf)

/-! ## Paths that stay -/

theorem sublist_dedupePaths_go (before rest : List String) :
    (dedupePaths.go before rest).Sublist rest := by
  induction rest generalizing before with
  | nil => exact List.Sublist.refl _
  | cons path rest ih =>
    rw [dedupePaths.go]
    split
    · exact (ih _).cons path
    · exact (ih _).cons_cons path

theorem notMem_dedupePaths_go {path : String} {before rest : List String} (h : path ∈ before) :
    path ∉ dedupePaths.go before rest := by
  intro hmem
  obtain ⟨front, back, _, hkept⟩ := mem_dedupePaths_go.mp hmem
  have hcovered : (before ++ front).any (fun other => other == path || isWithin other path) = true :=
    List.any_eq_true.mpr ⟨path, List.mem_append_left _ h, by rw [beq_self_eq_true, Bool.true_or]⟩
  rw [hcovered, Bool.true_or] at hkept
  cases hkept

/-- A path that stays is before all that are looked at after it. -/
theorem nodup_dedupePaths_go (before rest : List String) : (dedupePaths.go before rest).Nodup := by
  induction rest generalizing before with
  | nil => exact List.nodup_nil
  | cons path rest ih =>
    rw [dedupePaths.go]
    split
    · exact ih _
    · exact List.nodup_cons.mpr
        ⟨notMem_dedupePaths_go (List.mem_append_right _ (List.mem_singleton_self _)), ih _⟩

/-- Paths of a list in which all of the list are found, none of them in another. A path
is found in itself. -/
structure Outermost (paths kept : List String) : Prop where
  sublist : kept.Sublist paths
  nodup : kept.Nodup
  apart : ∀ outer ∈ kept, ∀ inner ∈ kept, isWithin outer inner = true → outer = inner
  covers : ∀ path ∈ paths, ∃ outer ∈ kept, isWithin outer path = true

/-- **The paths that stay are the outermost ones.** -/
theorem outermost_dedupePaths {paths : List String} (h : ∀ path ∈ paths, Normal path) :
    Outermost paths (dedupePaths paths) where
  sublist := sublist_dedupePaths_go [] paths
  nodup := nodup_dedupePaths_go [] paths
  apart outer houter _ hinner hwithin :=
    (mem_dedupePaths.mp hinner).2 outer (mem_dedupePaths.mp houter).1 hwithin
  covers _ hpath := exists_dedupePaths_within h hpath

/-! ## Paths without a colon -/

theorem normal_of_colonFree {path : String} (hroot : Path.isRooted path = true)
    (hcolon : ColonFree path) : Normal (Path.clean path) :=
  have hspelled := Path.spelled_of_colonFree hroot hcolon
  ⟨_, hspelled, FileTree.clean_eq_pathOf hroot hspelled⟩

theorem Path.colonFree_dirname {path : String} (h : ColonFree path) :
    ColonFree (Path.dirname path) := by
  rw [ColonFree, toList_dirname, dirnameChars]
  split
  · decide
  · decide
  · rename_i before after _ hcut
    intro hcolon
    refine notMem_cleanChars h ?_
    rw [(cutLast?_eq_some hcut).1]
    exact List.mem_append_left _ hcolon

theorem Path.colon_notMem_foldl_place {path : List Char} (hpath : ':' ∉ path)
    {parts : List (List Char)} (hparts : ∀ part ∈ parts, ':' ∉ part) :
    ':' ∉ parts.foldl place path := by
  induction parts generalizing path with
  | nil => exact hpath
  | cons part parts ih =>
    exact ih (colon_notMem_place hpath (hparts part List.mem_cons_self))
      fun other hother => hparts other (List.mem_cons_of_mem _ hother)

namespace FileTree

variable {tree : FileTree}

/-- The names of all that stands in a tree. -/
def allNames (tree : FileTree) : List String :=
  (Entity.folder tree.root).inside.flatMap fun
    | .folder entries => Folder.names entries
    | _ => []

/-- The working directory is a rooted path, and no colon stands in it or in a name. -/
structure NoColons (tree : FileTree) : Prop where
  rooted : Path.isRooted tree.workingDir = true
  workingDir : ColonFree tree.workingDir
  names : ∀ name ∈ tree.allNames, ColonFree name

instance (tree : FileTree) : Decidable tree.NoColons :=
  decidable_of_iff (Path.isRooted tree.workingDir = true ∧ ColonFree tree.workingDir
      ∧ ∀ name ∈ tree.allNames, ColonFree name)
    ⟨fun ⟨hroot, hdir, hnames⟩ => ⟨hroot, hdir, hnames⟩, fun h => ⟨h.rooted, h.workingDir, h.names⟩⟩

/-- The folder that a target names: the one before its star, or the folder of that where
it is a file. -/
def namedBy (tree : FileTree) (baseUrl target : String) : String :=
  let path := tree.pathBeforeStar baseUrl target
  if tree.isFile path then Path.dirname path else path

theorem folders_eq_foldersAt (tree : FileTree) (baseUrl target : String) :
    (tree.targetFolders baseUrl target).folders = tree.foldersAt (tree.namedBy baseUrl target) :=
  tree.folders_targetFolders baseUrl target

namespace NoColons

variable (h : tree.NoColons)
include h

theorem colonFree_listed {folder : String} {names : List String} {name : String}
    (hlist : tree.list folder = .ok names) (hname : name ∈ names) : ColonFree name := by
  obtain ⟨entries, way, hlookup, rfl⟩ := list_eq_ok_iff.mp hlist
  obtain ⟨place, hplace⟩ := exists_entityAt_of_lookup hlookup
  exact h.names name (List.mem_flatMap.mpr ⟨_, mem_inside_of_entityAt hplace, hname⟩)

/-- Parts put to the working directory one after the other. -/
theorem colonFree_placed {parts : List String} (hparts : ∀ part ∈ parts, ColonFree part) :
    ColonFree (.ofList ((parts.map String.toList).foldl Path.place tree.workingDir.toList)) := by
  rw [ColonFree, String.toList_ofList]
  refine Path.colon_notMem_foldl_place h.workingDir fun part hpart => ?_
  obtain ⟨text, htext, rfl⟩ := List.mem_map.mp hpart
  exact hparts text htext

theorem colonFree_resolve {parts : List String} (hparts : ∀ part ∈ parts, ColonFree part) :
    ColonFree (tree.resolve parts) := by
  rw [resolve_eq_clean, ColonFree, Path.toList_clean]
  exact Path.notMem_cleanChars (h.colonFree_placed hparts)

theorem normal_resolve {parts : List String} (hparts : ∀ part ∈ parts, ColonFree part) :
    Normal (tree.resolve parts) := by
  rw [resolve_eq_clean]
  exact normal_of_colonFree (isRooted_foldl_place h.rooted parts) (h.colonFree_placed hparts)

/-- The folder that a target names is a path in normal form. -/
theorem normal_namedBy {baseUrl target : String} (hbase : ColonFree baseUrl) (htarget : ColonFree target) :
    Normal (tree.namedBy baseUrl target) ∧ ColonFree (tree.namedBy baseUrl target) := by
  have hbefore : ColonFree (.ofList (beforeStar target)) := by
    rw [ColonFree, String.toList_ofList, beforeStar]
    intro hcolon
    cases hsplit : splitOn '*' target.toList with
    | nil => rw [hsplit] at hcolon; cases hcolon
    | cons before rest =>
      rw [hsplit] at hcolon
      exact htarget (mem_splitOn (hsplit ▸ List.mem_cons_self) hcolon).1
  have hparts : ∀ part ∈ [baseUrl, .ofList (beforeStar target)], ColonFree part :=
    List.forall_mem_cons.mpr ⟨hbase, List.forall_mem_singleton.mpr hbefore⟩
  have hnormal : Normal (tree.pathBeforeStar baseUrl target) := h.normal_resolve hparts
  have hcolon : ColonFree (tree.pathBeforeStar baseUrl target) := h.colonFree_resolve hparts
  unfold FileTree.namedBy
  dsimp only
  split
  · exact ⟨(dirname_of_normal hnormal).1, Path.colonFree_dirname hcolon⟩
  · exact ⟨hnormal, hcolon⟩

theorem normal_of_mem_targetFolders {baseUrl target folder : String} (hbase : ColonFree baseUrl)
    (htarget : ColonFree target) (hfolder : folder ∈ (tree.targetFolders baseUrl target).folders) :
    Normal folder := by
  obtain ⟨hnormal, hcolon⟩ := h.normal_namedBy hbase htarget
  rw [folders_eq_foldersAt, foldersAt] at hfolder
  split at hfolder
  · rw [List.mem_singleton.mp hfolder]
    exact hnormal
  · obtain ⟨_, names, name, hlist, hname, _, rfl, _⟩ := mem_foldersStarting.mp hfolder
    exact h.normal_resolve (List.forall_mem_cons.mpr ⟨Path.colonFree_dirname hcolon,
      List.forall_mem_singleton.mpr (h.colonFree_listed hlist hname)⟩)

end NoColons

end FileTree

/-! ## The folders to look in -/

/-- No colon stands in what path mappings give. -/
structure PathMappings.NoColons (mappings : PathMappings) : Prop where
  baseUrl : ColonFree mappings.baseUrl
  targets : ∀ entry ∈ mappings.paths, ∀ target ∈ entry.2, ColonFree target

instance (mappings : PathMappings) : Decidable mappings.NoColons :=
  decidable_of_iff (ColonFree mappings.baseUrl
      ∧ ∀ entry ∈ mappings.paths, ∀ target ∈ entry.2, ColonFree target)
    ⟨fun ⟨hbase, htargets⟩ => ⟨hbase, htargets⟩, fun h => ⟨h.baseUrl, h.targets⟩⟩

namespace FileTree

variable {tree : FileTree}

/-- The source folder and every existing folder that a target names are found in one of
some folders, of which at most a source folder of installed packages is found in another
one. -/
structure Spanned (tree : FileTree) (source : String) (mappings : Option PathMappings)
    (folders : List String) : Prop where
  covers_source : ∃ outer ∈ folders, isWithin outer source = true
  covers_named : ∀ table ∈ mappings, ∀ entry ∈ table.paths, ∀ target ∈ entry.2,
    tree.exists? (tree.namedBy (tree.resolve [table.baseUrl]) target) = true →
      ∃ outer ∈ folders, isWithin outer (tree.namedBy (tree.resolve [table.baseUrl]) target) = true
  nodup : folders.Nodup
  apart : ∀ outer ∈ folders, ∀ inner ∈ folders, isWithin outer inner = true →
    outer = inner ∨ (inner = source ∧ Path.basename source none = "node_modules")

theorem NoColons.normal_of_mem_mappedBy (h : tree.NoColons) {mappings : Option PathMappings}
    (hmappings : ∀ table ∈ mappings, table.NoColons) {path : String}
    (hpath : path ∈ tree.mappedBy mappings) : Normal path := by
  obtain ⟨table, htable, entry, hentry, target, htarget, hfolder⟩ := mem_mappedBy.mp hpath
  have htable' := hmappings table htable
  exact h.normal_of_mem_targetFolders
    (h.colonFree_resolve (List.forall_mem_singleton.mpr htable'.baseUrl))
    (htable'.targets entry hentry target htarget) hfolder

/-- What holds of the outermost paths holds of the folders to look in, but for a source
folder that is put back before them. -/
theorem spanned_basePaths {source : String} {mappings : Option PathMappings}
    (h : Outermost (source :: tree.mappedBy mappings)
      (dedupePaths (source :: tree.mappedBy mappings))) :
    tree.Spanned source mappings (tree.basePaths source mappings).1 where
  covers_source := by
    obtain ⟨outer, houter, hwithin⟩ := h.covers source List.mem_cons_self
    exact ⟨outer, mem_basePaths_iff.mpr (Or.inl houter), hwithin⟩
  covers_named table htable entry hentry target htarget hexists := by
    have hmem : tree.namedBy (tree.resolve [table.baseUrl]) target ∈ tree.mappedBy mappings := by
      refine mem_mappedBy.mpr ⟨table, htable, entry, hentry, target, htarget, ?_⟩
      rw [folders_eq_foldersAt, foldersAt, if_pos hexists]
      exact List.mem_singleton_self _
    obtain ⟨outer, houter, hwithin⟩ := h.covers _ (List.mem_cons_of_mem _ hmem)
    exact ⟨outer, mem_basePaths_iff.mpr (Or.inl houter), hwithin⟩
  nodup := by
    rw [fst_basePaths]
    split
    · rename_i hback
      exact List.nodup_cons.mpr ⟨hback.2, h.nodup⟩
    · exact h.nodup
  apart outer houter inner hinner hwithin := by
    rcases mem_basePaths_iff.mp hinner with hkept | hsource
    · refine Or.inl ((mem_dedupePaths.mp hkept).2 outer ?_ hwithin)
      -- also the source folder that is put back is one of the paths that are compared
      rcases mem_basePaths_iff.mp houter with hkept' | ⟨rfl, _⟩
      · exact h.sublist.subset hkept'
      · exact List.mem_cons_self
    · exact Or.inr hsource

/-- **The folders to look in cover what is named and do not overlap**, a source folder of
installed packages apart; and of any paths in normal form the outermost ones stay. -/
theorem basePaths_outermost (h : tree.NoColons) {source : String} (hsource : Normal source)
    {mappings : Option PathMappings} (hmappings : ∀ table ∈ mappings, table.NoColons) :
    tree.Spanned source mappings (tree.basePaths source mappings).1
      ∧ ∀ paths : List String, (∀ path ∈ paths, Normal path) →
        Outermost paths (dedupePaths paths) :=
  ⟨spanned_basePaths (outermost_dedupePaths (List.forall_mem_cons.mpr
    ⟨hsource, fun _ => h.normal_of_mem_mappedBy hmappings⟩)), fun _ => outermost_dedupePaths⟩

/-- A project with a package and with installed packages. -/
def withLibrary : FileTree where
  root := [("project", .folder [("lib", .folder [("index.js", .file .empty)]),
    ("node_modules", .folder [])])]

/-- Mappings to the whole project, to a folder in it and to a file. -/
def nestedMappings : PathMappings where
  baseUrl := "/project/lib/.."
  paths := [("app/*", ["*"]), ("lib", ["lib/", "./lib/index.js"])]

/-- The installed packages are put back before the project that they are found in. -/
theorem basePaths_outermost_nested :
    (withLibrary.NoColons ∧ Normal "/project/node_modules" ∧ nestedMappings.NoColons)
      ∧ withLibrary.exists? (withLibrary.namedBy "/project" "./lib/index.js") = true
      ∧ (∃ outer ∈ (withLibrary.basePaths "/project/node_modules" (some nestedMappings)).1,
        isWithin outer (withLibrary.namedBy "/project" "./lib/index.js") = true)
      ∧ (withLibrary.basePaths "/project/node_modules" (some nestedMappings)).1
        = ["/project/node_modules", "/project"]
      ∧ dedupePaths ["/a/b", "/a", "/c", "/a"] = ["/a", "/c"]
      ∧ Outermost ["/a/b", "/a", "/c", "/a"] (dedupePaths ["/a/b", "/a", "/c", "/a"]) := by
  have htree : withLibrary.NoColons := by decide +kernel
  have hsource : Normal "/project/node_modules" := by decide
  have hmappings : nestedMappings.NoColons := by decide
  have hgiven : ∀ table ∈ some nestedMappings, table.NoColons := by
    intro table htable
    cases htable
    exact hmappings
  have hnamed : withLibrary.exists? (withLibrary.namedBy "/project" "./lib/index.js") = true := by
    decide +kernel
  have hbase : withLibrary.resolve [nestedMappings.baseUrl] = "/project" := by decide
  obtain ⟨hspanned, houtermost⟩ := basePaths_outermost htree hsource hgiven
  have hcovers := hspanned.covers_named nestedMappings rfl ("lib", ["lib/", "./lib/index.js"])
    (by decide) "./lib/index.js" (by decide)
  rw [hbase] at hcovers
  exact ⟨⟨htree, hsource, hmappings⟩, hnamed, hcovers hnamed, by decide +kernel, by decide,
    houtermost _ (by decide)⟩

end FileTree

end PackageOrder
