/-
PackageOrder.Proofs.Discovery.BasePaths — the folders in which entry-points are
looked for.

One of the folders is above whatever a target of a mapping leads to
(`FileTree.exists_basePath_above`), as of paths that lie one inside the other an
outermost one stays. This asks that the paths are written in normal form. What exists in
a well-formed tree is (`FileTree.normal_of_exists`): a colon that would make a drive
stands at the front of no name in the root.
-/
import PackageOrder.Proofs.Discovery.Within
import PackageOrder.Proofs.FileTree.Above

namespace PackageOrder

open PackageOrder.Text
open PackageOrder.Path (Plain Segment parentSegment)
open PackageOrder.FileTree (namesOf pathOf Spelled)

/-! ## What exists has a normal form -/

namespace FileTree

variable {tree : FileTree}

theorem mem_root_of_lookup (hcase : tree.caseSensitive = true) {path : String} {followLast : Bool}
    {found : Entity × String} (h : tree.lookup path followLast = some found) {name : String}
    {rest : List String} (hnames : namesOf path = name :: rest) :
    name ∈ Folder.names tree.root := by
  rw [lookup, passLimit, lookupWithin, hcase, hnames, walk] at h
  have hchild : tree.root.child? true name = tree.root.lookup name := rfl
  rw [hchild] at h
  cases hlookup : tree.root.lookup name with
  | none => rw [hlookup] at h; cases h
  | some entity => exact Folder.mem_names_of_lookup hlookup

theorem normal_of_exists (hwell : tree.WellFormed) {path : String}
    (hroot : Path.isRooted path = true) (h : tree.exists? (Path.clean path) = true) :
    Normal (Path.clean path) := by
  have hspelled : Spelled (namesOf (Path.clean path)) := by
    refine ⟨namesOf_clean_plain hroot, fun name hname => ?_⟩
    obtain ⟨found, hfound⟩ := Option.isSome_iff_exists.mp h
    obtain ⟨rest, hrest⟩ := List.head?_eq_some_iff.mp hname
    exact hwell.no_drive name (mem_root_of_lookup hwell.sensitive hfound hrest)
  exact ⟨_, hspelled, clean_eq_pathOf hroot hspelled⟩

theorem resolve_eq_clean (tree : FileTree) (parts : List String) :
    tree.resolve parts
      = Path.clean (.ofList ((parts.map String.toList).foldl Path.place tree.workingDir.toList)) := by
  rw [← String.toList_inj, resolve, Path.toList_resolve, Path.toList_clean, String.toList_ofList]

theorem isRooted_foldl_place (hdir : Path.isRooted tree.workingDir = true) (parts : List String) :
    Path.isRooted (.ofList ((parts.map String.toList).foldl Path.place tree.workingDir.toList))
      = true := by
  rw [Path.isRooted, String.toList_ofList,
    Path.rooted_foldl_place (Path.head?_of_isRooted hdir)]
  rfl

theorem normal_resolve (hwell : tree.WellFormed) {parts : List String}
    (h : tree.exists? (tree.resolve parts) = true) : Normal (tree.resolve parts) := by
  rw [resolve_eq_clean] at h ⊢
  exact normal_of_exists hwell (isRooted_foldl_place hwell.rooted parts) h

/-- What parts resolve to is spelled by its names. -/
theorem eq_pathOf_resolve (hdir : Path.isRooted tree.workingDir = true) {parts : List String}
    (h : Spelled (namesOf (tree.resolve parts))) :
    tree.resolve parts = pathOf (namesOf (tree.resolve parts)) := by
  rw [resolve_eq_clean] at h ⊢
  exact clean_eq_pathOf (isRooted_foldl_place hdir parts) h

theorem isRooted_clean {path : String} (hroot : Path.isRooted path = true) :
    Path.isRooted (Path.clean path) = true := by
  have hhead : path.toList.head? = some '/' := Path.head?_of_isRooted hroot
  rw [Path.isRooted, Path.toList_clean, Path.head?_clean_of_rooted hhead]
  rfl

/-- A rooted path without a drive has a normal form that its names spell. -/
theorem normal_of_noDrive {path : String} (hroot : Path.isRooted path = true)
    (hdrive : Path.NoDrive (Path.clean path).toList) : Normal (Path.clean path) := by
  have hhead : path.toList.head? = some '/' := Path.head?_of_isRooted hroot
  obtain ⟨front, pieces, hpieces, hfront, hplain⟩ := Path.clean_of_rooted hhead
  rw [Path.toList_clean, hpieces] at hdrive
  rcases hfront with rfl | rfl
  · refine ⟨pieces.map String.ofList, ⟨?_, ?_⟩, ?_⟩
    · intro piece hpiece
      obtain ⟨chars, hchars, rfl⟩ := List.mem_map.mp hpiece
      rw [String.toList_ofList]
      exact hplain chars hchars
    · intro first hfirst
      cases pieces with
      | nil => cases hfirst
      | cons chars rest =>
        cases hfirst
        obtain ⟨c, tail, rfl⟩ := List.exists_cons_of_ne_nil (hplain chars List.mem_cons_self).ne_nil
        rw [joinWith_cons_cons] at hdrive
        rw [String.toList_ofList]
        exact hdrive
    · rw [pathOf, map_toList_ofList, Path.clean, hpieces]
      rfl
  · exact absurd rfl hdrive

/-- A path below which something exists has a normal form. -/
theorem normal_of_exists_below (hwell : tree.WellFormed) {path name : String}
    (hroot : Path.isRooted path = true) (hname : Plain name.toList)
    (h : tree.exists? (Path.join (Path.clean path) [name]) = true) : Normal (Path.clean path) := by
  have hrooted := isRooted_clean hroot
  have hhead : (Path.clean path).toList.head? = some '/' := Path.head?_of_isRooted hrooted
  have hnames := namesOf_join_name hrooted hname
  -- its first name stands in the root, so no colon makes a drive of it
  refine normal_of_noDrive hroot (Path.noDrive_of_segments hhead fun first hfirst => ?_)
  obtain ⟨found, hfound⟩ := Option.isSome_iff_exists.mp h
  obtain ⟨tail, htail⟩ := List.head?_eq_some_iff.mp hfirst
  have hmem : String.ofList first ∈ Folder.names tree.root := by
    have hfirst' : namesOf (Path.join (Path.clean path) [name])
        = String.ofList first :: (tail.map String.ofList ++ [name]) := by
      rw [hnames, namesOf, Path.toList_clean, htail]
      rfl
    exact mem_root_of_lookup hwell.sensitive hfound hfirst'
  simpa using hwell.no_drive _ hmem

/-- The folder of a path in normal form is one name shorter. -/
theorem dirname_of_normal {path : String} (h : Normal path) :
    Normal (Path.dirname path) ∧ namesOf (Path.dirname path) = (namesOf path).dropLast := by
  obtain ⟨names, hspelled, rfl⟩ := h
  rw [namesOf_pathOf hspelled.plain]
  rcases List.eq_nil_or_concat' names with rfl | ⟨front, name, rfl⟩
  · exact ⟨⟨[], Spelled.nil, by decide⟩, by decide⟩
  · have hname := hspelled.plain name (List.mem_append_right _ (List.mem_singleton_self _))
    rw [dirname_of_clean (clean_pathOf hspelled) hname, List.dropLast_concat]
    exact ⟨⟨front, hspelled.of_append, rfl⟩, namesOf_pathOf hspelled.of_append.plain⟩

/-- A colon that makes a drive of a path does so with its folder. -/
theorem exists_colon_dirname {path : String} (hroot : Path.isRooted path = true)
    (hdrive : ¬ Path.NoDrive path.toList) :
    ∃ name rest, namesOf (Path.dirname path) = name :: rest ∧ name.toList.head? = some ':' := by
  obtain ⟨rest, htail⟩ := Path.exists_colon_of_drive (Path.head?_of_isRooted hroot) hdrive
  have hclean : ∃ inside, Path.cleanChars path.toList = '/' :: ':' :: '/' :: inside := by
    rw [htail]
    exact ⟨_, rfl⟩
  obtain ⟨inside, hclean⟩ := hclean
  rw [namesOf, Path.toList_dirname, Path.dirnameChars, hclean]
  cases hcut : Path.cutLast? ('/' :: ':' :: '/' :: inside) with
  | none => exact absurd List.mem_cons_self (Path.cutLast?_eq_none hcut)
  | some cut =>
    obtain ⟨before, after⟩ := cut
    obtain ⟨hsplit, hslash⟩ := Path.cutLast?_eq_some hcut
    -- the last slash stands behind the colon
    rcases before with _ | ⟨one, _ | ⟨two, before⟩⟩
    · obtain ⟨_, hafter⟩ := List.cons.inj hsplit
      exact absurd (hafter ▸ List.mem_cons_of_mem _ List.mem_cons_self) hslash
    · obtain ⟨_, hafter⟩ := List.cons.inj hsplit
      exact absurd (List.cons.inj hafter).1 (by decide)
    · obtain ⟨rfl, hafter⟩ := List.cons.inj hsplit
      obtain ⟨rfl, _⟩ := List.cons.inj hafter
      obtain ⟨name, tail, hsegments⟩ := Path.exists_segments_colon before
      refine ⟨.ofList (':' :: name), tail.map String.ofList, ?_, by rw [String.toList_ofList]; rfl⟩
      exact congrArg (List.map String.ofList) hsegments

/-- The folder of a file has a normal form as well. -/
theorem normal_dirname_of_isFile {path : String} (hnormal : Normal path)
    (h : tree.isFile path = true) :
    ∃ names name, Spelled (names ++ [name]) ∧ path = pathOf (names ++ [name])
      ∧ Path.dirname path = pathOf names := by
  obtain ⟨names, hspelled, rfl⟩ := hnormal
  rcases List.eq_nil_or_concat' names with rfl | ⟨front, name, rfl⟩
  · have hroot : tree.isFolder (pathOf []) = true :=
      isFolder_iff.mpr ⟨.folder tree.root, "/", lookup_of_done rfl, nofun⟩
    rw [isFile_eq_false_of_isFolder hroot] at h
    cases h
  · exact ⟨front, name, hspelled, rfl, dirname_of_clean (clean_pathOf hspelled)
      (hspelled.plain name (List.mem_append_right _ (List.mem_singleton_self _)))⟩

/-! ## What a target leads to -/

/-- The text of a target before its star. -/
def beforeStar (target : String) : List Char :=
  (splitOn '*' target.toList).head?.getD []

/-- The path before the star of a target. -/
def pathBeforeStar (tree : FileTree) (baseUrl target : String) : String :=
  tree.resolve [baseUrl, .ofList (beforeStar target)]

/-- The folders that a target leads to, by the folder before its star. -/
def foldersAt (tree : FileTree) (basePath : String) : List String :=
  if tree.exists? basePath then [basePath]
  else tree.foldersStarting (Path.dirname basePath) (Path.basename basePath none)

theorem folders_targetFolders (tree : FileTree) (baseUrl target : String) :
    (tree.targetFolders baseUrl target).folders
      = tree.foldersAt (if tree.isFile (tree.pathBeforeStar baseUrl target)
          then Path.dirname (tree.pathBeforeStar baseUrl target)
          else tree.pathBeforeStar baseUrl target) := by
  rw [targetFolders, pathBeforeStar, beforeStar]
  generalize tree.resolve [baseUrl, String.ofList ((splitOn '*' target.toList).head?.getD [])] = path
  generalize (if tree.isFile path = true then Path.dirname path else path) = basePath
  rw [foldersAt]
  by_cases hexists : tree.exists? basePath = true
  · rw [if_pos hexists, if_pos hexists]
  · rw [if_neg hexists, if_neg hexists]

theorem mem_foldersStarting {container start path : String} :
    path ∈ tree.foldersStarting container start ↔
      tree.isFolder container = true ∧ ∃ names name, tree.list container = .ok names
        ∧ name ∈ names ∧ (dropHead? start.toList name.toList).isSome
        ∧ path = tree.resolve [container, name] ∧ tree.isFolder path = true := by
  unfold foldersStarting
  split
  · rename_i hfolder
    rw [and_iff_right hfolder, List.mem_filterMap]
    constructor
    · rintro ⟨name, hname, h⟩
      dsimp only at h
      split at h
      · rename_i hpath
        cases h
        obtain ⟨hmem, hstart⟩ := List.mem_filter.mp hname
        cases hlist : tree.list container with
        | error cause => rw [hlist] at hmem; cases hmem
        | ok names =>
          rw [hlist] at hmem
          exact ⟨names, name, rfl, hmem, hstart, rfl, hpath⟩
      · cases h
    · rintro ⟨names, name, hlist, hmem, hstart, rfl, hpath⟩
      refine ⟨name, List.mem_filter.mpr ⟨?_, hstart⟩, if_pos hpath⟩
      rw [hlist]
      exact hmem
  · rename_i hfolder
    exact iff_of_false List.not_mem_nil fun h => hfolder h.1

theorem normal_of_mem_foldersAt (hwell : tree.WellFormed) {basePath folder : String}
    (hbase : tree.exists? basePath = true → Normal basePath)
    (h : folder ∈ tree.foldersAt basePath) : Normal folder := by
  unfold foldersAt at h
  split at h
  · rename_i hexists
    rw [List.mem_singleton.mp h]
    exact hbase hexists
  · obtain ⟨_, _, _, _, _, _, rfl, hfolder⟩ := mem_foldersStarting.mp h
    exact normal_resolve hwell (exists_of_isFolder hfolder)

/-- The folders that targets lead to are in normal form. -/
theorem normal_of_mem_targetFolders (hwell : tree.WellFormed) {baseUrl target folder : String}
    (h : folder ∈ (tree.targetFolders baseUrl target).folders) : Normal folder := by
  rw [folders_targetFolders] at h
  split at h
  · rename_i hfile
    obtain ⟨names, name, hspelled, _, hdirname⟩ :=
      normal_dirname_of_isFile (normal_resolve hwell (exists_of_isFile hfile)) hfile
    exact normal_of_mem_foldersAt hwell (fun _ => ⟨names, hspelled.of_append, hdirname⟩) h
  · exact normal_of_mem_foldersAt hwell (fun hexists => normal_resolve hwell hexists) h

/-! ## All of them -/

theorem fst_mappedFolders (tree : FileTree) (table : PathMappings) :
    (tree.mappedFolders table).1 = (table.paths.flatMap (·.2)).flatMap fun target =>
      (tree.targetFolders (tree.resolve [table.baseUrl]) target).folders := by
  simp only [mappedFolders, List.flatMap_map]

/-- The folders that mappings lead to, if there are any mappings. -/
def mappedBy (tree : FileTree) (mappings : Option PathMappings) : List String :=
  ((mappings.map tree.mappedFolders).getD ([], [])).1

theorem mem_mappedBy {mappings : Option PathMappings} {path : String} :
    path ∈ tree.mappedBy mappings ↔ ∃ table ∈ mappings, ∃ entry ∈ table.paths, ∃ target ∈ entry.2,
      path ∈ (tree.targetFolders (tree.resolve [table.baseUrl]) target).folders := by
  cases mappings with
  | none => exact iff_of_false List.not_mem_nil fun ⟨_, htable, _⟩ => nomatch htable
  | some table =>
    rw [mappedBy, Option.map_some, Option.getD_some, fst_mappedFolders]
    constructor
    · intro hpath
      obtain ⟨target, htarget, hpath⟩ := List.mem_flatMap.mp hpath
      obtain ⟨entry, hentry, htarget⟩ := List.mem_flatMap.mp htarget
      exact ⟨table, rfl, entry, hentry, target, htarget, hpath⟩
    · rintro ⟨_, htable, entry, hentry, target, htarget, hpath⟩
      cases htable
      exact List.mem_flatMap.mpr
        ⟨target, List.mem_flatMap.mpr ⟨entry, hentry, htarget⟩, hpath⟩

/-- A source folder of installed packages goes before the others where it would not
stay. -/
theorem fst_basePaths (tree : FileTree) (source : String) (mappings : Option PathMappings) :
    (tree.basePaths source mappings).1
      = if Path.basename source none = "node_modules"
            ∧ source ∉ dedupePaths (source :: tree.mappedBy mappings)
        then source :: dedupePaths (source :: tree.mappedBy mappings)
        else dedupePaths (source :: tree.mappedBy mappings) := by
  have hand : (Path.basename source none == "node_modules"
        && !(dedupePaths (source :: tree.mappedBy mappings)).contains source) = true
      ↔ Path.basename source none = "node_modules"
        ∧ source ∉ dedupePaths (source :: tree.mappedBy mappings) := by
    rw [Bool.and_eq_true, beq_iff_eq, Bool.not_eq_true', ← Bool.not_eq_true, List.contains_iff_mem]
  rw [basePaths]
  exact if_congr hand rfl rfl

theorem mem_basePaths_iff {source : String} {mappings : Option PathMappings} {path : String} :
    path ∈ (tree.basePaths source mappings).1
      ↔ path ∈ dedupePaths (source :: tree.mappedBy mappings)
        ∨ (path = source ∧ Path.basename source none = "node_modules") := by
  rw [fst_basePaths]
  split
  · rename_i h
    rw [List.mem_cons, or_comm, and_iff_left h.1]
  · rename_i h
    refine ⟨Or.inl, fun hpath => hpath.elim id ?_⟩
    rintro ⟨rfl, hname⟩
    exact Decidable.not_not.mp fun hout => h ⟨hname, hout⟩

/-- The folders in which entry-points are looked for are above the source folder and
above whatever a target leads to. -/
theorem exists_basePath_above (hwell : tree.WellFormed) {source : String} (hsource : Normal source)
    {mappings : PathMappings} {folder : String}
    (h : folder = source ∨ ∃ entry ∈ mappings.paths, ∃ target ∈ entry.2,
      folder ∈ (tree.targetFolders (tree.resolve [mappings.baseUrl]) target).folders) :
    ∃ outer ∈ (tree.basePaths source (some mappings)).1, AtOrBelow outer folder := by
  have hnormal : ∀ path ∈ source :: tree.mappedBy (some mappings), Normal path := by
    intro path hpath
    rcases List.mem_cons.mp hpath with rfl | hpath
    · exact hsource
    · obtain ⟨_, _, _, _, _, _, hpath⟩ := mem_mappedBy.mp hpath
      exact normal_of_mem_targetFolders hwell hpath
  have hmem : folder ∈ source :: tree.mappedBy (some mappings) := by
    rcases h with rfl | ⟨entry, hentry, target, htarget, h⟩
    · exact List.mem_cons_self
    · exact List.mem_cons_of_mem _ (mem_mappedBy.mpr ⟨_, rfl, entry, hentry, target, htarget, h⟩)
  obtain ⟨outer, houter, habove⟩ := exists_dedupePaths_above hnormal hmem
  exact ⟨outer, mem_basePaths_iff.mpr (Or.inl houter), habove⟩

end FileTree

end PackageOrder
