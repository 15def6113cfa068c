/-
PackageOrder.Proofs.Manifest.Listing — folders in which manifests may stand.

A folder lists the same names in two trees that differ by manifests only, apart from
those of manifests (`ManifestPlaces.listed_cases`). These are files or links, whatever
else they are (`ManifestPlaces.linkStat_place`).

What exists has no more names than the passes of a lookup can use up
(`length_namesOf_le`).
-/
import PackageOrder.Proofs.FileTree.Tidy
import PackageOrder.Proofs.Manifest.Inspect

namespace PackageOrder

open PackageOrder.Path (Plain)
open PackageOrder.FileTree (namesOf AgreeOutside ManifestPlaces Spelled pathOf)

/-! ## How many names a path has -/

namespace Descends

theorem length_le_depth {caseSensitive : Bool} {folder : Folder} {names : List String}
    (h : Descends caseSensitive folder names) : names.length ≤ depthOf folder := by
  induction h with
  | none folder => exact Nat.zero_le _
  | last hchild =>
    obtain ⟨key, hmem, _⟩ := Folder.exists_mem_of_child? hchild
    have hdepth := depth_le_of_mem hmem
    rw [List.length_singleton]
    omega
  | into hchild _ ih =>
    obtain ⟨key, hmem, _⟩ := Folder.exists_mem_of_child? hchild
    have hdepth := depth_le_of_mem hmem
    rw [Entity.depth] at hdepth
    rw [List.length_cons]
    omega

end Descends

namespace FileTree

variable {tree : FileTree}

/-- The passes of a lookup use up names only as they go down, where no name in the root
makes a drive of it. -/
theorem length_le_of_passes (hcase : tree.caseSensitive = true)
    (hdrive : ∀ name ∈ Folder.names tree.root, name.toList.head? ≠ some ':') {followLast : Bool}
    {passes : Nat} {path : String} {found : Entity × String}
    (h : lookupWithin tree followLast passes path = some found) {front rest : List String}
    (hplain : PlainNames rest) (hnames : namesOf path = front ++ rest) :
    rest.length ≤ passes * depthOf tree.root := by
  induction passes generalizing path front rest with
  | zero => cases h
  | succ passes ih =>
    by_cases hne : rest = []
    · rw [hne]
      exact Nat.zero_le _
    rw [Nat.succ_mul]
    rcases pass_cases h hne hnames with
      hdescends | ⟨start, gone, left, before, target, hrest, hleft, hdescends, _, hnext⟩
    · have hlength := hdescends.length_le_depth
      rw [List.length_append] at hlength
      omega
    · have hlength := hdescends.length_le_depth
      rw [List.length_append] at hlength
      have hplains : PlainNames left := fun name hname =>
        hplain name (hrest ▸ List.mem_append_right _ hname)
      rw [hrest, List.length_append]
      rcases namesOf_behind target before hleft hplains with
        ⟨front', hbehind⟩ | ⟨_, _, tail, hbehind, _⟩
      · have := ih hnext hplains hbehind
        omega
      · -- no lookup starts at a drive
        exfalso
        cases passes with
        | zero => cases hnext
        | succ passes =>
          rw [lookupWithin, hcase, hbehind, walk] at hnext
          have hchild : tree.root.child? true ":" = tree.root.lookup ":" := rfl
          rw [hchild] at hnext
          cases hlookup : tree.root.lookup ":" with
          | none => rw [hlookup] at hnext; cases hnext
          | some entity => exact hdrive ":" (Folder.mem_names_of_lookup hlookup) rfl

/-- **What exists has no more names than a walk is deep.** -/
theorem length_namesOf_le (hcase : tree.caseSensitive = true)
    (hdrive : ∀ name ∈ Folder.names tree.root, name.toList.head? ≠ some ':') {path : String}
    (hnormal : Normal path) {followLast : Bool} {found : Entity × String}
    (h : tree.lookup path followLast = some found) :
    (namesOf path).length ≤ tree.longestWay :=
  length_le_of_passes hcase hdrive h hnormal.spelled.plain (List.nil_append _).symm

end FileTree

theorem FileTree.exists_lookup_of_linkStat {tree : FileTree} {path : String} {kind : EntityKind}
    (h : tree.linkStat path = .ok kind) : ∃ found, tree.lookup path false = some found := by
  rw [linkStat] at h
  cases hlookup : tree.lookup path false with
  | none => rw [hlookup] at h; cases h
  | some found => exact ⟨found, rfl⟩

/-! ## Names in folders -/

/-- What a folder lists in two trees: the same, apart from names of manifests. -/
structure Listing (places : List (List String)) (start tree : FileTree) (folder : String)
    (names names' : List String) : Prop where
  start : start.list folder = .ok names
  tree : tree.list folder = .ok names'
  same : names'.filter (namesOf folder ++ [·] ∉ places)
    = names.filter (namesOf folder ++ [·] ∉ places)
  spelled : ∀ name, name ∈ names ∨ name ∈ names' → Spelled (namesOf folder ++ [name])

namespace FileTree.ManifestPlaces

variable {places : List (List String)} {start tree : FileTree} (h : start.ManifestPlaces places)
include h

theorem no_colon {front : List String} {name : String} (hplace : front ++ [name] ∈ places) :
    name.toList.head? ≠ some ':' := by
  rcases h.name_of_mem hplace with rfl | rfl <;> decide

/-- Manifests make no drive of the root. -/
theorem no_drive (agree : AgreeOutside places start tree) :
    ∀ name ∈ Folder.names tree.root, name.toList.head? ≠ some ':' := by
  intro name hname
  by_cases hplace : [] ++ [name] ∈ places
  · exact h.no_colon hplace
  · have hkept : name ∈ (Folder.names tree.root).filter ([] ++ [·] ∉ places) :=
      List.mem_filter.mpr ⟨hname, decide_eq_true hplace⟩
    rw [agree.listed [] start.root tree.root rfl rfl] at hkept
    exact h.wellFormed.no_drive name (List.mem_filter.mp hkept).1

theorem length_namesOf_le (agree : AgreeOutside places start tree) {path : String}
    (hnormal : Normal path) {followLast : Bool} {found : Entity × String}
    (hfound : tree.lookup path followLast = some found) :
    (namesOf path).length ≤ tree.longestWay :=
  FileTree.length_namesOf_le agree.sensitive.2 (h.no_drive agree) hnormal hfound

/-- A folder in normal form that is not behind a link at one of the places. -/
theorem folderAside {folder : String} (hnormal : Normal folder)
    (hfolder : start.Unlinked places (namesOf folder)) : start.FolderAside places folder where
  packageJson := by
    have hplain : Plain "package.json".toList := by decide
    rw [start.resolve_name hnormal.isRooted hplain, namesOf_join_name hnormal.isRooted hplain,
      hnormal.clean]
    exact (h.aside_concat hfolder (by decide)).unlinked
  configFile := by
    rw [namesOf_join_name hnormal.isRooted (by decide : Plain configFileName.toList), hnormal.clean]
    exact (h.aside_concat hfolder (by decide)).unlinked

/-- **A folder lists the same names in both trees**, apart from those of manifests. -/
theorem listed_cases (agree : AgreeOutside places start tree) {folder : String}
    (hnormal : Normal folder) (hfolder : start.Aside places (namesOf folder)) :
    (∃ cause cause', start.list folder = .error cause ∧ tree.list folder = .error cause')
      ∨ ∃ names names', Listing places start tree folder names names' := by
  have hsame := agree.list h.toSecluded h.wellFormed hfolder
  cases hone : start.list folder with
  | error cause =>
    rw [hone] at hsame
    cases hother : tree.list folder with
    | error cause' => exact Or.inl ⟨cause, cause', rfl, rfl⟩
    | ok names' => rw [hother] at hsame; cases hsame
  | ok names =>
    rw [hone] at hsame
    cases hother : tree.list folder with
    | error cause' => rw [hother] at hsame; cases hsame
    | ok names' =>
      rw [hother] at hsame
      have hkept : names'.filter (namesOf folder ++ [·] ∉ places)
          = names.filter (namesOf folder ++ [·] ∉ places) := Option.some.inj hsame
      have hspelled : ∀ name ∈ names, Spelled (namesOf folder ++ [name]) := fun name hname =>
        h.wellFormed.tidy.spelled hnormal (mem_namesIn.mpr ⟨names, hone, hname⟩)
      refine Or.inr ⟨names, names', hone, hother, hkept, fun name hname => ?_⟩
      by_cases hplace : namesOf folder ++ [name] ∈ places
      · refine ⟨h.plain _ hplace, fun first hfirst => ?_⟩
        cases hnames : namesOf folder with
        | nil =>
          rw [hnames] at hfirst hplace
          cases hfirst
          exact h.no_colon hplace
        | cons other rest =>
          rw [hnames] at hfirst
          cases hfirst
          exact hnormal.spelled.no_drive _ (by rw [hnames]; rfl)
      · rcases hname with hname | hname
        · exact hspelled name hname
        · have hmem : name ∈ names'.filter (namesOf folder ++ [·] ∉ places) :=
            List.mem_filter.mpr ⟨hname, decide_eq_true hplace⟩
          rw [hkept] at hmem
          exact hspelled name (List.mem_filter.mp hmem).1

/-- What a folder lists at one of the places is a file or a link. -/
theorem linkStat_place (agree : AgreeOutside places start tree) {folder path : String}
    {names : List String} (hlist : tree.list folder = .ok names) {name : String}
    (hname : name ∈ names) (hpath : namesOf path = namesOf folder ++ [name])
    (hplace : namesOf path ∈ places) :
    tree.linkStat path = .ok .file ∨ tree.linkStat path = .ok .link := by
  have hopen : tree.Open (namesOf path) := (agree.open_iff _).mpr (h.opened _ hplace)
  have ⟨parent, last, heq, ⟨entries, hentries⟩, _⟩ := hopen
  obtain ⟨rfl, hlast⟩ := List.append_inj' (hpath.symm.trans heq) rfl
  obtain ⟨way, hlookup⟩ := lookup_of_entityAt agree.sensitive.2 hentries
    (fun _ hlink => by cases hlink) true
  obtain ⟨others, _, hlookup', rfl⟩ := list_eq_ok_iff.mp hlist
  cases hlookup.symm.trans hlookup'
  obtain ⟨entity, hentity⟩ : ∃ entity, entries.lookup name = some entity :=
    Option.isSome_iff_exists.mp ((lookup_isSome_iff_mem_keys entries name).mpr hname)
  have hat : tree.entityAt (namesOf path) = some entity := by
    rw [hpath]
    exact (Folder.entityAt_concat hentries name).trans hentity
  rcases walk_open_cases hopen false with
    ⟨found, way', hkind, hwalk⟩ | ⟨_, hfollow, _⟩ | ⟨hnone, _⟩
  · have hfound : tree.linkStat path = .ok found.kind :=
      linkStat_eq_ok_iff.mpr ⟨_, lookup_of_done (by rw [agree.sensitive.2, hwalk]), rfl⟩
    rcases hkind with hfile | ⟨hlink, _⟩
    · exact Or.inl (hfile ▸ hfound)
    · exact Or.inr (hlink ▸ hfound)
  · cases hfollow
  · exact absurd (hat.symm.trans hnone) (Option.some_ne_none _)

end FileTree.ManifestPlaces

end PackageOrder
