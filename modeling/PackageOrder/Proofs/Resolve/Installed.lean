/-
PackageOrder.Proofs.Resolve.Installed — the folders in which an installed module is looked
for.

A module is looked for from the folder of the importing file upwards, and a folder of
installed packages gives way to the one above it. That one is not asked whether it is such
a folder too, and the next step leaves it: of three or more folders of installed packages
that lie directly in each other every other one is passed over (`passedBy`). So what a
specifier leads to is the nearest module in the other folders, and the nearest one of all
unless it lies in one that is passed over (`FileTree.resolveImport?_nearest_iff`).
-/
import PackageOrder.Proofs.Discovery.BasePaths
import PackageOrder.Resolve.Module

namespace PackageOrder

open PackageOrder.Text
open PackageOrder.FileTree (namesOf pathOf Spelled)

/-! ## The folders above a file -/

/-- The folders above a place, the nearest first. -/
def ancestors (names : List String) : List (List String) :=
  (List.range names.length).reverse.map names.take

/-- The folder whose installed packages count in a folder: a folder of installed packages
gives way to the one above it. -/
def hostOf (names : List String) : List String :=
  if names.getLast? = some "node_modules" then names.dropLast else names

/-- How many folders of installed packages lie directly in each other in a place, the first
of them at its front; the file at its end is none. -/
def packageFolderRun (names : List String) : Nat :=
  (names.dropLast.takeWhile (· == "node_modules")).length

/-- Whether a folder is passed over on the way up from a file: it gives way to one that is a
folder of installed packages itself, and so is an odd number of folders directly in it on the
way to the file. -/
def passedBy (source folder : List String) : Bool :=
  (hostOf folder).getLast? == some "node_modules"
    && packageFolderRun (source.drop folder.length) % 2 == 1

/-- Where a module is if it is among the packages installed in a folder. -/
def installedPath (specifier : String) (folder : List String) : String :=
  Path.clean (pathOf (hostOf folder) ++ "/node_modules/" ++ specifier)

theorem ancestors_nil : ancestors [] = [] := rfl

theorem ancestors_concat (front : List String) (name : String) :
    ancestors (front ++ [name]) = front :: ancestors front := by
  unfold ancestors
  rw [List.length_append, List.length_singleton, List.range_succ, List.reverse_append,
    List.reverse_singleton, List.singleton_append, List.map_cons, List.take_left]
  congr 1
  refine List.map_congr_left fun i hi => List.take_append_of_le_length ?_
  exact Nat.le_of_lt (List.mem_range.mp (List.mem_reverse.mp hi))

theorem hostOf_concat (front : List String) (name : String) :
    hostOf (front ++ [name]) = if name = "node_modules" then front else front ++ [name] := by
  rw [hostOf, List.getLast?_concat, List.dropLast_concat]
  simp only [Option.some.injEq]

theorem hostOf_above (names : List String) : hostOf names <+: names := by
  unfold hostOf
  split
  · exact List.dropLast_prefix names
  · exact List.prefix_rfl

theorem packageFolderRun_cons (name : String) {below : List String} (hbelow : below ≠ []) :
    packageFolderRun (name :: below)
      = if name = "node_modules" then packageFolderRun below + 1 else 0 := by
  rw [packageFolderRun, List.dropLast_cons_of_ne_nil hbelow, List.takeWhile_cons]
  by_cases h : name = "node_modules"
  · rw [if_pos (beq_iff_eq.mpr h), if_pos h, List.length_cons, packageFolderRun]
  · rw [if_neg (by simpa using h), if_neg h, List.length_nil]

theorem passedBy_append (folder below : List String) :
    passedBy (folder ++ below) folder
      = ((hostOf folder).getLast? == some "node_modules" && packageFolderRun below % 2 == 1) := by
  rw [passedBy, List.drop_left]

theorem not_passedBy_of_host {folder : List String} (source : List String)
    (h : (hostOf folder).getLast? ≠ some "node_modules") : passedBy source folder = false := by
  rw [passedBy, beq_eq_false_iff_ne.mpr h, Bool.false_and]

theorem prefix_of_mem_ancestors {source folder : List String} (h : folder ∈ ancestors source) :
    folder <+: source := by
  obtain ⟨n, _, rfl⟩ := List.mem_map.mp h
  exact List.take_prefix n source

/-- What is passed over is the middle one of three folders of installed packages at least. -/
theorem three_of_passedBy {source folder : List String} (hfolder : folder <+: source)
    (h : passedBy source folder = true) :
    ["node_modules", "node_modules", "node_modules"] <:+: source := by
  obtain ⟨below, rfl⟩ := hfolder
  rw [passedBy_append, Bool.and_eq_true, beq_iff_eq, beq_iff_eq] at h
  obtain ⟨hhost, hodd⟩ := h
  have htwo : ∃ front, folder = front ++ ["node_modules", "node_modules"] := by
    rcases List.eq_nil_or_concat' folder with rfl | ⟨outer, last, rfl⟩
    · cases hhost
    · rw [hostOf_concat] at hhost
      by_cases hlast : last = "node_modules"
      · rw [if_pos hlast, List.getLast?_eq_some_iff] at hhost
        obtain ⟨front, rfl⟩ := hhost
        exact ⟨front, by rw [hlast, List.append_assoc]; rfl⟩
      · rw [if_neg hlast, List.getLast?_concat] at hhost
        exact absurd (Option.some.inj hhost) hlast
  obtain ⟨front, rfl⟩ := htwo
  cases below with
  | nil => cases hodd
  | cons next rest =>
    have hnext : next = "node_modules" := by
      by_contra hne
      by_cases hrest : rest = []
      · rw [hrest] at hodd
        cases hodd
      · rw [packageFolderRun_cons next hrest, if_neg hne] at hodd
        cases hodd
    exact ⟨front, rest, by rw [hnext]; simp⟩

/-! ## The folders that are searched -/

section

variable {names : List String}

theorem spelled_hostOf (h : Spelled names) : Spelled (hostOf names) := by
  obtain ⟨back, hback⟩ := hostOf_above names
  have hsplit : Spelled (hostOf names ++ back) := by rwa [hback]
  exact hsplit.of_append

theorem isRoot_pathOf (h : Spelled names) : Path.isRoot (pathOf names) = decide (names = []) := by
  rw [Path.isRoot, FileTree.clean_pathOf h]
  by_cases hnil : names = []
  · rw [hnil]
    decide
  · rw [decide_eq_false hnil, beq_eq_false_iff_ne]
    intro hroot
    have hnames := FileTree.namesOf_pathOf h.plain
    rw [hroot] at hnames
    exact hnil (hnames.symm.trans (by decide))

theorem lastChars_pathOf {name : String} (h : Spelled (names ++ [name])) :
    Path.lastChars (pathOf (names ++ [name])).toList = name.toList := by
  have hclean := FileTree.clean_pathOf h
  have hname := h.plain name (List.mem_append_right _ (List.mem_singleton_self _))
  have hbase := FileTree.basename_of_clean hclean hname
  rw [Path.clean, ← String.toList_inj, String.toList_ofList] at hclean
  rw [Path.basename, ← String.toList_inj, String.toList_ofList] at hbase
  rw [← hbase, Option.map_none, Path.basenameChars, hclean]

theorem dirname_pathOf {name : String} (h : Spelled (names ++ [name])) :
    Path.dirname (pathOf (names ++ [name])) = pathOf names :=
  FileTree.dirname_of_clean (FileTree.clean_pathOf h)
    (h.plain name (List.mem_append_right _ (List.mem_singleton_self _)))

/-- One step upwards and, from a folder of installed packages, one more. -/
theorem hostOf_pathOf (h : Spelled names) :
    (if Path.isPackageFolder (pathOf names) then Path.dirname (pathOf names) else pathOf names)
      = pathOf (hostOf names) := by
  rcases List.eq_nil_or_concat' names with rfl | ⟨front, name, rfl⟩
  · decide
  · rw [Path.isPackageFolder, lastChars_pathOf h, dirname_pathOf h, hostOf_concat]
    by_cases hname : name = "node_modules"
    · rw [hname, if_pos (by decide), if_pos rfl]
    · have hne : (name.toList == "node_modules".toList) = false :=
        beq_eq_false_iff_ne.mpr fun heq => hname (String.toList_inj.mp heq)
      rw [hne, if_neg hname]
      rfl

theorem searchFolders_root (steps : Nat) : FileTree.searchFolders steps (pathOf []) = [] := by
  cases steps with
  | zero => rfl
  | succ steps => exact if_pos (by decide)

/-- **One round of the search.** -/
theorem searchFolders_concat {name : String} (h : Spelled (names ++ [name])) (steps : Nat) :
    FileTree.searchFolders (steps + 1) (pathOf (names ++ [name]))
      = pathOf (hostOf names) :: FileTree.searchFolders steps (pathOf (hostOf names)) := by
  have hbelow : Path.isRoot (pathOf (names ++ [name])) = false := by
    rw [isRoot_pathOf h]
    exact decide_eq_false (List.append_ne_nil_of_right_ne_nil _ (List.cons_ne_nil _ _))
  rw [FileTree.searchFolders, if_neg (Bool.eq_false_iff.mp hbelow), dirname_pathOf h]
  dsimp only
  rw [hostOf_pathOf h.of_append]

/-- **The search ends at the root**: each round goes up, so rounds beyond the number of the
names change nothing. -/
theorem searchFolders_ends (h : Spelled names) {steps : Nat} (hsteps : names.length ≤ steps)
    (more : Nat) :
    FileTree.searchFolders (steps + more) (pathOf names)
      = FileTree.searchFolders steps (pathOf names) := by
  induction steps generalizing names with
  | zero =>
    rw [List.length_eq_zero_iff.mp (Nat.le_zero.mp hsteps), searchFolders_root, searchFolders_root]
  | succ steps ih =>
    rcases List.eq_nil_or_concat' names with rfl | ⟨front, name, rfl⟩
    · rw [searchFolders_root, searchFolders_root]
    · rw [List.length_append, List.length_singleton] at hsteps
      have hhost := (hostOf_above front).length_le
      rw [Nat.add_right_comm, searchFolders_concat h, searchFolders_concat h,
        ih (spelled_hostOf h.of_append) (by omega)]

/-- An item that is not kept, finds nothing or finds what the next one does can be left out. -/
theorem findSome?_filter_drop {α β : Type} {keep : α → Bool} {find : α → Option β} {item next : α}
    {rest : List α}
    (h : keep item = false ∨ find item = none ∨ keep next = true ∧ find item = find next) :
    ((item :: next :: rest).filter keep).findSome? find
      = ((next :: rest).filter keep).findSome? find := by
  by_cases hkeep : keep item = true
  · rw [List.filter_cons_of_pos hkeep, List.findSome?_cons]
    rcases h with h | h | ⟨hnext, h⟩
    · rw [hkeep] at h
      cases h
    · rw [h]
    · rw [List.filter_cons_of_pos hnext, List.findSome?_cons, h]
      cases find next <;> rfl
  · rw [List.filter_cons_of_neg hkeep]

/-- Behind a folder of installed packages that is searched, the one above it is passed over
or adds nothing to what the packages beside it and those farther up do. -/
theorem above_adds_nothing {α : Type} {find : String → Option α} {source above below : List String}
    {next : String} (hsource : source = above ++ [next] ++ ["node_modules"] ++ below)
    (hbelow : below ≠ []) (heven : packageFolderRun below % 2 = 0)
    (hfound : find (pathOf (above ++ [next])) = none) :
    (!passedBy source (above ++ [next])) = false ∨ find (pathOf (hostOf (above ++ [next]))) = none
      ∨ (!passedBy source above) = true
        ∧ find (pathOf (hostOf (above ++ [next]))) = find (pathOf (hostOf above)) := by
  by_cases hnext : next = "node_modules"
  · rw [hostOf_concat, if_pos hnext]
    by_cases habove : above.getLast? = some "node_modules"
    · refine Or.inl ?_
      rw [hsource, List.append_assoc, passedBy_append, hostOf_concat, if_pos hnext, habove,
        List.singleton_append, packageFolderRun_cons "node_modules" hbelow, if_pos rfl]
      have hodd : (packageFolderRun below + 1) % 2 = 1 := by omega
      rw [hodd]
      rfl
    · have hhost : hostOf above = above := if_neg habove
      refine Or.inr (Or.inr ⟨?_, by rw [hhost]⟩)
      rw [not_passedBy_of_host source (by rwa [hhost])]
      rfl
  · rw [hostOf_concat, if_neg hnext]
    exact Or.inr (Or.inl hfound)

/-- A path is at least as long as its names are many. -/
theorem length_le_length_pathOf (names : List String) : names.length ≤ (pathOf names).length := by
  have hpieces : ∀ pieces : List (List Char), pieces.length ≤ (pieces.map (·.length + 1)).sum := by
    intro pieces
    induction pieces with
    | nil => exact Nat.le_refl 0
    | cons piece rest ih =>
      rw [List.map_cons, List.sum_cons, List.length_cons]
      omega
  rw [← String.length_toList, FileTree.toList_pathOf, List.length_cons]
  by_cases hnil : names = []
  · rw [hnil]
    exact Nat.zero_le _
  · rw [length_joinWith (List.map_eq_nil_iff.not.mpr hnil), ← List.length_map String.toList]
    exact hpieces (names.map String.toList)

/-- **What is found first on the way up**, from a place whose folder is not passed over: the
first thing in the folders above it that are not. -/
theorem findSome?_searchFolders {α : Type} (find : String → Option α)
    {source folder below : List String} {name : String} (hsource : source = folder ++ below)
    (hspelled : Spelled (folder ++ [name])) (hbelow : below ≠ [])
    (heven : packageFolderRun below % 2 = 0) {steps : Nat} (hsteps : folder.length < steps) :
    (FileTree.searchFolders steps (pathOf (folder ++ [name]))).findSome? find
      = ((folder :: ancestors folder).filter (!passedBy source ·)).findSome?
          fun place => find (pathOf (hostOf place)) := by
  induction hlength : folder.length using Nat.strongRecOn generalizing folder below name steps with
  | ind length ih =>
    obtain ⟨steps, rfl⟩ : ∃ n, steps = n + 1 := ⟨steps - 1, by omega⟩
    have hfolder : passedBy source folder = false := by
      rw [hsource, passedBy_append, heven]
      exact Bool.and_false _
    rw [searchFolders_concat hspelled, List.findSome?_cons,
      List.filter_cons_of_pos (by simp [hfolder]), List.findSome?_cons]
    cases hfound : find (pathOf (hostOf folder)) with
    | some found => rfl
    | none =>
      dsimp only
      rcases List.eq_nil_or_concat' folder with rfl | ⟨outer, last, rfl⟩
      · exact congrArg (List.findSome? find) (searchFolders_root steps)
      rw [ancestors_concat]
      rw [List.length_append, List.length_singleton] at hlength hsteps
      by_cases hlast : last = "node_modules"
      · subst hlast
        -- the folder above adds nothing, so the way up goes on behind it
        rw [hostOf_concat, if_pos rfl] at hfound ⊢
        rcases List.eq_nil_or_concat' outer with rfl | ⟨above, next, rfl⟩
        · have hroot : passedBy source [] = false := not_passedBy_of_host source (by decide)
          rw [searchFolders_root, ancestors_nil, List.filter_cons_of_pos (by simp [hroot]),
            List.findSome?_cons]
          change none = match find (pathOf []) with | some _ => _ | none => _
          rw [hfound]
          rfl
        rw [ancestors_concat, findSome?_filter_drop (above_adds_nothing hsource hbelow heven hfound)]
        rw [List.length_append, List.length_singleton] at hlength hsteps
        refine ih above.length (by omega) ?_ hspelled.of_append.of_append
          (List.cons_ne_nil next ("node_modules" :: below)) ?_ (by omega) rfl
        · rw [hsource, List.append_assoc, List.append_assoc]
          rfl
        · rw [packageFolderRun_cons next (List.cons_ne_nil _ _),
            packageFolderRun_cons "node_modules" hbelow, if_pos rfl]
          split <;> omega
      · -- the folder is no folder of installed packages, so the one above it comes next
        rw [hostOf_concat, if_neg hlast]
        refine ih outer.length (by omega) ?_ hspelled.of_append (List.cons_ne_nil last below) ?_
          (by omega) rfl
        · rw [hsource, List.append_assoc, List.singleton_append]
        · rw [packageFolderRun_cons last hbelow, if_neg hlast]

end

/-! ## Where a module is -/

namespace FileTree

variable {tree : FileTree} {endings : List String}

/-- A specifier below the installed packages of a folder. -/
theorem resolve_installed (tree : FileTree) {folder specifier : String}
    (hroot : Path.isRooted folder = true) (hslash : specifier.toList.head? ≠ some '/')
    (hback : '\\' ∉ specifier.toList) :
    tree.resolve [folder, "node_modules", specifier]
      = Path.clean (folder ++ "/node_modules/" ++ specifier) := by
  have hhead : folder.toList.head? = some '/' := Path.head?_of_isRooted hroot
  have hforward := Path.forwardChars_of_notMem hback
  have hfolder : Path.place tree.workingDir.toList folder.toList
      = Path.forwardChars folder.toList := if_pos (Path.head?_forwardChars hhead)
  have hmodules : ∀ path, Path.place path "node_modules".toList = path ++ "/node_modules".toList :=
    fun _ => rfl
  have hparts : ([folder, "node_modules", specifier].map String.toList).foldl Path.place
      tree.workingDir.toList
        = Path.place (Path.forwardChars folder.toList ++ "/node_modules".toList) specifier.toList := by
    rw [← hmodules, ← hfolder]
    rfl
  have hanchored : ¬ Path.Anchored specifier.toList := by
    rw [Path.Anchored, hforward]
    exact hslash
  rw [resolve, Path.resolve, Path.resolveChars_eq, hparts, Path.place, if_neg hanchored, hforward,
    Path.clean, String.toList_append, String.toList_append]
  congr 1
  by_cases hempty : specifier.toList = []
  · rw [if_pos hempty, hempty, List.append_nil, Path.cleanChars_forwardChars_append]
    refine (Path.cleanChars_concat_slash ?_).symm.trans ?_
    · rw [List.head?_append, hhead]
      rfl
    · rw [List.append_assoc]
      rfl
  · rw [if_neg hempty, List.append_assoc, Path.cleanChars_forwardChars_append, List.append_assoc]
    rfl

/-! ## The nearest one -/

/-- What the place of a module leads to, if there is one. -/
def foundAt? (tree : FileTree) (endings : List String) (path : String) : Option Resolution :=
  if tree.isEntryPoint path then some (.entryPoint path)
  else if (tree.fileWithEnding? endings path).isSome then some (.deepImport path)
  else none

/-- A path is the place of a module. -/
def HoldsModule (tree : FileTree) (endings : List String) (path : String) : Prop :=
  tree.isEntryPoint path = true ∨ (tree.fileWithEnding? endings path).isSome = true

/-- What the first place of a module among some paths leads to, or that there is none. -/
inductive NearestModule (tree : FileTree) (endings paths : List String) : Option Resolution → Prop
  | entryPoint {front back : List String} {path : String} (hpaths : paths = front ++ path :: back)
      (hfront : ∀ other ∈ front, ¬ tree.HoldsModule endings other)
      (hpath : tree.isEntryPoint path = true) :
      NearestModule tree endings paths (some (.entryPoint path))
  | deepImport {front back : List String} {path : String} (hpaths : paths = front ++ path :: back)
      (hfront : ∀ other ∈ front, ¬ tree.HoldsModule endings other)
      (hpath : tree.isEntryPoint path = false)
      (hfile : (tree.fileWithEnding? endings path).isSome = true) :
      NearestModule tree endings paths (some (.deepImport path))
  | missing (hpaths : ∀ path ∈ paths, ¬ tree.HoldsModule endings path) :
      NearestModule tree endings paths none

/-- The nearest folder above a file that has a module is passed over, and the other folders
farther up have no module or another one. -/
def PassesOver (tree : FileTree) (endings : List String) (specifier : String)
    (source : List String) : Prop :=
  ∃ near folder far, ancestors source = near ++ folder :: far ∧ passedBy source folder = true
    ∧ (∀ other ∈ near, ¬ tree.HoldsModule endings (installedPath specifier other))
    ∧ tree.HoldsModule endings (installedPath specifier folder)
    ∧ ¬ tree.NearestModule endings
        ((far.filter (!passedBy source ·)).map (installedPath specifier))
        (tree.foundAt? endings (installedPath specifier folder))

theorem foundAt?_eq_none {path : String} :
    tree.foundAt? endings path = none ↔ ¬ tree.HoldsModule endings path := by
  unfold foundAt? HoldsModule
  by_cases hentry : tree.isEntryPoint path = true
  · rw [if_pos hentry]
    exact iff_of_false nofun (not_not_intro (Or.inl hentry))
  · rw [if_neg hentry, not_or]
    by_cases hfile : (tree.fileWithEnding? endings path).isSome = true
    · rw [if_pos hfile]
      exact iff_of_false nofun fun h => h.2 hfile
    · rw [if_neg hfile]
      exact iff_of_true rfl ⟨hentry, hfile⟩

/-- The nearest module is what is found first. -/
theorem nearestModule_iff {paths : List String} {result : Option Resolution} :
    tree.NearestModule endings paths result ↔ result = paths.findSome? (tree.foundAt? endings) := by
  have hskip : ∀ {front back : List String} {path : String},
      (∀ other ∈ front, ¬ tree.HoldsModule endings other) →
      (front ++ path :: back).findSome? (tree.foundAt? endings)
        = (path :: back).findSome? (tree.foundAt? endings) := by
    intro front back path hfront
    rw [List.findSome?_append,
      List.findSome?_eq_none_iff.mpr fun other hother => foundAt?_eq_none.mpr (hfront other hother),
      Option.none_or]
  constructor
  · intro h
    cases h with
    | entryPoint hpaths hfront hpath =>
      rw [hpaths, hskip hfront, List.findSome?_cons, foundAt?, if_pos hpath]
    | deepImport hpaths hfront hpath hfile =>
      rw [hpaths, hskip hfront, List.findSome?_cons, foundAt?, if_neg (Bool.eq_false_iff.mp hpath),
        if_pos hfile]
    | missing hpaths =>
      exact (List.findSome?_eq_none_iff.mpr fun path hpath =>
        foundAt?_eq_none.mpr (hpaths path hpath)).symm
  · rintro rfl
    cases hfound : paths.findSome? (tree.foundAt? endings) with
    | none =>
      exact .missing fun path hpath =>
        foundAt?_eq_none.mp (List.findSome?_eq_none_iff.mp hfound path hpath)
    | some found =>
      obtain ⟨front, path, back, hpaths, hpath, hfront⟩ := List.findSome?_eq_some_iff.mp hfound
      have hnone : ∀ other ∈ front, ¬ tree.HoldsModule endings other := fun other hother =>
        foundAt?_eq_none.mp (hfront other hother)
      unfold foundAt? at hpath
      split at hpath
      · rename_i hentry
        cases hpath
        exact .entryPoint hpaths hnone hentry
      · rename_i hentry
        split at hpath
        · rename_i hfile
          cases hpath
          exact .deepImport hpaths hnone (Bool.eq_false_iff.mpr hentry) hfile
        · cases hpath

/-- Leaving items out changes what is found first just if the first one that finds something
is left out, and the others behind it find something else. -/
theorem findSome?_filter_eq_iff {α β : Type} {keep : α → Bool} {find : α → Option β} {items : List α} :
    (items.filter keep).findSome? find = items.findSome? find
      ↔ ¬ ∃ near item far, items = near ++ item :: far ∧ keep item = false
        ∧ (∀ other ∈ near, find other = none) ∧ find item ≠ none
        ∧ find item ≠ (far.filter keep).findSome? find := by
  have hnear : ∀ {near far : List α} {item : α}, (∀ other ∈ near, find other = none) →
      ((near ++ item :: far).filter keep).findSome? find
          = ((item :: far).filter keep).findSome? find
        ∧ (near ++ item :: far).findSome? find = (item :: far).findSome? find := by
    intro near far item hnone
    rw [List.filter_append, List.findSome?_append, List.findSome?_append,
      List.findSome?_eq_none_iff.mpr hnone,
      List.findSome?_eq_none_iff.mpr fun other hother => hnone other (List.mem_of_mem_filter hother)]
    exact ⟨Option.none_or, Option.none_or⟩
  constructor
  · rintro heq ⟨near, item, far, rfl, hitem, hnone, hfound, hfar⟩
    rw [(hnear hnone).1, (hnear hnone).2, List.filter_cons_of_neg (by simp [hitem]),
      List.findSome?_cons] at heq
    cases hfind : find item with
    | none => exact hfound hfind
    | some found =>
      rw [hfind] at heq hfar
      exact hfar heq.symm
  · intro hnot
    cases hfirst : items.findSome? find with
    | none =>
      exact List.findSome?_eq_none_iff.mpr fun other hother =>
        List.findSome?_eq_none_iff.mp hfirst other (List.mem_of_mem_filter hother)
    | some found =>
      obtain ⟨near, item, far, rfl, hitem, hnone⟩ := List.findSome?_eq_some_iff.mp hfirst
      rw [(hnear hnone).1]
      cases hkeep : keep item with
      | true => rw [List.filter_cons_of_pos hkeep, List.findSome?_cons, hitem]
      | false =>
        rw [List.filter_cons_of_neg (by simp [hkeep]), ← hitem]
        by_contra hfar
        exact hnot ⟨near, item, far, rfl, hkeep, hnone, by rw [hitem]; exact nofun,
          fun heq => hfar heq.symm⟩

/-- What is installed for a file in normal form is found first in the folders above it that
are not passed over. -/
theorem resolveInstalled?_eq {source specifier : String} (hnormal : Normal source)
    (hslash : specifier.toList.head? ≠ some '/') (hback : '\\' ∉ specifier.toList) :
    tree.resolveInstalled? endings specifier source
      = (((ancestors (namesOf source)).filter (!passedBy (namesOf source) ·)).map
          (installedPath specifier)).findSome? (tree.foundAt? endings) := by
  have hinstalled : ∀ place, tree.installedIn? endings specifier (pathOf (hostOf place))
      = tree.foundAt? endings (installedPath specifier place) := by
    intro place
    rw [installedIn?, tree.resolve_installed (isRooted_pathOf _) hslash hback]
    rfl
  obtain ⟨names, hspelled, rfl⟩ := hnormal
  have hlength := length_le_length_pathOf names
  rw [namesOf_pathOf hspelled.plain, List.findSome?_map, Function.comp_def, resolveInstalled?]
  rcases List.eq_nil_or_concat' names with rfl | ⟨folder, name, rfl⟩
  · rw [searchFolders_root]
    rfl
  · rw [List.length_append, List.length_singleton] at hlength
    have heven : packageFolderRun [name] % 2 = 0 := rfl
    rw [findSome?_searchFolders _ rfl hspelled (List.cons_ne_nil name []) heven (by omega),
      ancestors_concat]
    simp only [hinstalled]

/-- **Without three folders of installed packages directly in each other** what is installed
is the nearest module. -/
theorem resolveInstalled?_nearest {source specifier : String} (hnormal : Normal source)
    (hslash : specifier.toList.head? ≠ some '/') (hback : '\\' ∉ specifier.toList)
    (hthree : ¬ ["node_modules", "node_modules", "node_modules"] <:+: namesOf source) :
    tree.NearestModule endings ((ancestors (namesOf source)).map (installedPath specifier))
      (tree.resolveInstalled? endings specifier source) := by
  have hall : (ancestors (namesOf source)).filter (!passedBy (namesOf source) ·)
      = ancestors (namesOf source) := by
    refine List.filter_eq_self.mpr fun folder hfolder => ?_
    rw [Bool.not_eq_true', Bool.eq_false_iff]
    exact fun hpassed => hthree (three_of_passedBy (prefix_of_mem_ancestors hfolder) hpassed)
  rw [nearestModule_iff, resolveInstalled?_eq hnormal hslash hback, hall]

/-- **A module that is installed is looked for from the nearest folder to the root**, and the
nearest one is found just if its folder is not passed over. What is found is the nearest one
in the other folders, and the search ends. -/
theorem resolveImport?_nearest_iff {source specifier : String}
    (hroot : Path.isRooted source = true) (hclean : Path.clean source = source)
    (hdrive : Path.NoDrive source.toList) (hbare : Path.isRelativeSpecifier specifier = false)
    (hbuiltin : isBuiltinModule specifier = false) (hback : '\\' ∉ specifier.toList)
    {mappings : Option PathMappings}
    (hmapped : tree.resolveMapped? mappings endings specifier source = none) :
    (tree.NearestModule endings ((ancestors (namesOf source)).map (installedPath specifier))
        (tree.resolveImport? mappings endings specifier source)
      ↔ ¬ tree.PassesOver endings specifier (namesOf source))
    ∧ tree.NearestModule endings
        (((ancestors (namesOf source)).filter (!passedBy (namesOf source) ·)).map
          (installedPath specifier))
        (tree.resolveImport? mappings endings specifier source)
    ∧ ∀ more, searchFolders (source.length + 1 + more) source
        = searchFolders (source.length + 1) source := by
  have hnormal : Normal source := hclean ▸ normal_of_noDrive hroot (hclean.symm ▸ hdrive)
  have hslash : specifier.toList.head? ≠ some '/' := by
    rw [Path.isRelativeSpecifier, Bool.or_eq_false_iff] at hbare
    exact beq_eq_false_iff_ne.mp hbare.2
  have hresult : tree.resolveImport? mappings endings specifier source
      = tree.resolveInstalled? endings specifier source := by
    rw [resolveImport?, if_neg (Bool.eq_false_iff.mp hbare), if_neg (Bool.eq_false_iff.mp hbuiltin),
      hmapped]
    rfl
  have hfound : tree.resolveInstalled? endings specifier source = _ :=
    resolveInstalled?_eq hnormal hslash hback
  refine ⟨?_, ?_, ?_⟩
  · rw [nearestModule_iff, hresult, hfound, List.findSome?_map, List.findSome?_map,
      findSome?_filter_eq_iff, not_iff_not]
    simp only [PassesOver, nearestModule_iff, List.findSome?_map, Function.comp_apply, ne_eq,
      foundAt?_eq_none, not_not, Bool.not_eq_false']
  · rw [nearestModule_iff, hresult, hfound]
  · have hspelled := hnormal.spelled
    have hlength := length_le_length_pathOf (namesOf source)
    rw [← hnormal.eq_pathOf] at hlength
    intro more
    rw [hnormal.eq_pathOf, searchFolders_ends hspelled (by rw [← hnormal.eq_pathOf]; omega)]

/-- A package among packages that are installed among packages, and a file one folder of
installed packages farther down. -/
def nestedTree : FileTree where
  root := [("p", .folder [("node_modules", .folder [("node_modules", .folder [
    ("m", .folder [("package.json", .file .empty)]),
    ("node_modules", .folder [("x.js", .file .empty)])])])])]

/-- Of two folders of installed packages none is passed over. -/
theorem resolveImport?_nearest_iff_nested :
    (Path.isRooted "/p/node_modules/node_modules/x.js" = true
      ∧ Path.clean "/p/node_modules/node_modules/x.js" = "/p/node_modules/node_modules/x.js"
      ∧ Path.NoDrive "/p/node_modules/node_modules/x.js".toList
      ∧ Path.isRelativeSpecifier "m" = false ∧ isBuiltinModule "m" = false ∧ '\\' ∉ "m".toList
      ∧ nestedTree.resolveMapped? none scriptEndings "m" "/p/node_modules/node_modules/x.js" = none)
    ∧ (nestedTree.NearestModule scriptEndings
        ((ancestors (namesOf "/p/node_modules/node_modules/x.js")).map (installedPath "m"))
        (nestedTree.resolveImport? none scriptEndings "m" "/p/node_modules/node_modules/x.js")
      ↔ ¬ nestedTree.PassesOver scriptEndings "m" (namesOf "/p/node_modules/node_modules/x.js"))
    ∧ nestedTree.NearestModule scriptEndings
        (((ancestors (namesOf "/p/node_modules/node_modules/x.js")).filter
          (!passedBy (namesOf "/p/node_modules/node_modules/x.js") ·)).map (installedPath "m"))
        (nestedTree.resolveImport? none scriptEndings "m" "/p/node_modules/node_modules/x.js")
    ∧ ∀ more, searchFolders ("/p/node_modules/node_modules/x.js".length + 1 + more)
          "/p/node_modules/node_modules/x.js"
        = searchFolders ("/p/node_modules/node_modules/x.js".length + 1)
          "/p/node_modules/node_modules/x.js" := by
  have hroot : Path.isRooted "/p/node_modules/node_modules/x.js" = true := by decide +kernel
  have hclean : Path.clean "/p/node_modules/node_modules/x.js"
      = "/p/node_modules/node_modules/x.js" := by decide +kernel
  have hdrive : Path.NoDrive "/p/node_modules/node_modules/x.js".toList := by
    unfold Path.NoDrive
    decide +kernel
  have hbare : Path.isRelativeSpecifier "m" = false := by decide +kernel
  have hbuiltin : isBuiltinModule "m" = false := by decide +kernel
  have hback : '\\' ∉ "m".toList := by decide +kernel
  exact ⟨⟨hroot, hclean, hdrive, hbare, hbuiltin, hback, rfl⟩,
    resolveImport?_nearest_iff hroot hclean hdrive hbare hbuiltin hback rfl⟩

/-- **Of three folders of installed packages the middle one is passed over**: what is
installed in it is not found. -/
theorem resolveImport?_passes_over :
    nestedTree.resolveImport? none scriptEndings "m"
        "/p/node_modules/node_modules/node_modules/x.js" = none
      ∧ nestedTree.NearestModule scriptEndings
        ((ancestors (namesOf "/p/node_modules/node_modules/node_modules/x.js")).map
          (installedPath "m"))
        (some (.entryPoint "/p/node_modules/node_modules/m")) := by
  rw [nearestModule_iff]
  decide +kernel

end FileTree

end PackageOrder
