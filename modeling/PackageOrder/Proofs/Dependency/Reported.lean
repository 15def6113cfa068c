/-
PackageOrder.Proofs.Dependency.Reported — what an entry-point is said to depend on.

Every path that is reported was resolved from the working directory and has a
package description below it. There are finitely many such paths in a tree
(`length_reported_le`): what leads somewhere is not too long.
-/
import PackageOrder.Dependency.Order
import PackageOrder.Proofs.FileTree.Reach
import PackageOrder.Proofs.Resolve.Mapped
import PackageOrder.Proofs.Text.Count
import PackageOrder.Proofs.Text.Sorted

namespace PackageOrder

open PackageOrder.Text

/-- A path that was resolved from the working directory, with a package description
below it. -/
structure FileTree.LeadsToPackage (tree : FileTree) (path : String) : Prop where
  resolved : ∃ parts, path = tree.resolve parts
  described : tree.isEntryPoint path = true

/-- The dependencies of an entry-point: paths of packages, each once. -/
structure DependencyInfo.ReportedIn (tree : FileTree) (info : DependencyInfo) : Prop where
  increasing : SortedSet.Increasing info.dependencies
  leads : ∀ path ∈ info.dependencies, tree.LeadsToPackage path

namespace FileTree

variable {tree : FileTree}

/-! ## Resolving -/

/-- What an import leads to outside of its package. -/
theorem leadsToPackage_of_resolveImport? {mappings : Option PathMappings} {endings : List String}
    {specifier source path : String}
    (h : tree.resolveImport? mappings endings specifier source = some (.entryPoint path)) :
    tree.LeadsToPackage path := by
  obtain ⟨hdescribed, ⟨table, _, hmem⟩ | ⟨folder, heq⟩⟩ := found_of_entryPoint h
  · obtain ⟨_, _, _, _, heq⟩ := exists_target_of_mem_mappedPaths hmem
    exact ⟨⟨_, heq⟩, hdescribed⟩
  · exact ⟨⟨_, heq⟩, hdescribed⟩

end FileTree

/-! ## Searching -/

section Search

variable {tree : FileTree}

theorem DependencySearch.reportedIn_record {search : DependencySearch}
    (h : search.info.ReportedIn tree) {specifier : String} {found : Option Resolution}
    (hfound : ∀ path, found = some (.entryPoint path) → tree.LeadsToPackage path) :
    (search.record specifier found).info.ReportedIn tree := by
  unfold record
  split
  · exact ⟨h.increasing, h.leads⟩
  · exact h
  · split <;> exact h
  · exact ⟨h.increasing, h.leads⟩
  · rename_i path
    refine ⟨SortedSet.increasing_insert h.increasing path, ?_⟩
    intro other hother
    rcases SortedSet.mem_insert.mp hother with rfl | hother
    · exact hfound other rfl
    · exact h.leads other hother

theorem FileTree.reportedIn_searchFile {modules : Script.ModuleSyntax}
    {mappings : Option PathMappings} {search : DependencySearch}
    (h : search.info.ReportedIn tree) (path : String) :
    (tree.searchFile modules mappings search path).info.ReportedIn tree := by
  unfold searchFile
  generalize tree.importsOfFile modules path = specifiers
  induction specifiers generalizing search with
  | nil => exact h
  | cons specifier rest ih =>
    exact ih (DependencySearch.reportedIn_record h fun _ => leadsToPackage_of_resolveImport?)

theorem FileTree.reportedIn_searchWithin {modules : Script.ModuleSyntax}
    {mappings : Option PathMappings} {rounds : Nat} {search : DependencySearch}
    (h : search.info.ReportedIn tree) :
    (tree.searchWithin modules mappings rounds search).info.ReportedIn tree := by
  induction rounds generalizing search with
  | zero => exact h
  | succ rounds ih =>
    unfold searchWithin
    split
    · exact h
    · rename_i path rest _
      have hrest : ({ search with pending := rest } : DependencySearch).info.ReportedIn tree := h
      exact ih (reportedIn_searchFile hrest path)

theorem DependencyInfo.reportedIn_empty (tree : FileTree) :
    ({} : DependencyInfo).ReportedIn tree :=
  ⟨List.Pairwise.nil, fun _ hpath => absurd hpath List.not_mem_nil⟩

theorem DependencyInfo.ReportedIn.union {one other : DependencyInfo} (hone : one.ReportedIn tree)
    (hother : other.ReportedIn tree) : (one.union other).ReportedIn tree := by
  refine ⟨SortedSet.increasing_union hone.increasing _, ?_⟩
  intro path hpath
  exact (SortedSet.mem_union.mp hpath).elim (hone.leads path) (hother.leads path)

/-- For any number of rounds, as the one that is used must not be computed. -/
theorem FileTree.reportedIn_search (modules : Script.ModuleSyntax)
    (mappings : Option PathMappings) (path : String) (rounds : Nat) :
    DependencyInfo.ReportedIn tree
      (match tree.fileWithEnding? modules.endings path with
      | none => {}
      | some start =>
        (tree.searchWithin modules mappings rounds { seen := [start], pending := [start] }).info) := by
  split
  · exact DependencyInfo.reportedIn_empty tree
  · exact reportedIn_searchWithin (DependencyInfo.reportedIn_empty tree)

theorem FileTree.reportedIn_collectDependencies (modules : Script.ModuleSyntax)
    (mappings : Option PathMappings) (path : String) :
    (tree.collectDependencies modules mappings path).ReportedIn tree := by
  unfold collectDependencies
  apply reportedIn_search

/-- The imports that come with an entry-point are its own. -/
theorem entryPoint_of_withInfo {readable : List BundleFormat} {mappings : Option PathMappings}
    {entryPoint : EntryPoint} {item : EntryPointWithInfo}
    (h : tree.withInfo readable mappings entryPoint = .ok item) :
    item.entryPoint = entryPoint := by
  unfold FileTree.withInfo at h
  split at h
  · cases h
    rfl
  · split at h
    · cases h
    · split at h
      · cases h
        rfl
      · cases h

/-- **What an entry-point is said to depend on leads to packages.** -/
theorem FileTree.reportedIn_withInfo {readable : List BundleFormat} {mappings : Option PathMappings}
    {entryPoint : EntryPoint} {item : EntryPointWithInfo}
    (h : tree.withInfo readable mappings entryPoint = .ok item) :
    item.info.ReportedIn tree := by
  unfold withInfo at h
  split at h
  · cases h
    exact DependencyInfo.reportedIn_empty tree
  · split at h
    · cases h
    · split at h
      · cases h
        exact (reportedIn_collectDependencies _ _ _).union (reportedIn_collectDependencies _ _ _)
      · cases h

end Search

/-! ## How many there can be -/

/-- Resolving from a rooted folder gives the normal form of a rooted path. -/
theorem Path.exists_resolve_eq {workingDir : String} (h : Path.isRooted workingDir = true)
    (parts : List String) : ∃ path : String, path.toList.head? = some '/'
      ∧ Path.resolve workingDir parts = Path.clean path := by
  have hfold : ∀ (parts : List (List Char)) (path : List Char), path.head? = some '/' →
      (parts.foldl (fun path part =>
        let part := Path.forwardChars part
        if part.head? = some '/' then part
        else if part = [] then path
        else path ++ '/' :: part) path).head? = some '/' := by
    intro parts
    induction parts with
    | nil => exact fun path hpath => hpath
    | cons part rest ih =>
      intro path hpath
      refine ih _ ?_
      dsimp only
      split
      · assumption
      · split
        · exact hpath
        · rw [List.head?_append, hpath]
          rfl
  have hroot : workingDir.toList.head? = some '/' := Path.head?_of_isRooted h
  have hclean : ∀ path : List Char, Path.clean (.ofList path) = .ofList (Path.cleanChars path) :=
    fun path => by rw [Path.clean, String.toList_ofList]
  refine ⟨_, ?_, (hclean _).symm⟩
  rw [String.toList_ofList]
  exact hfold (parts.map String.toList) workingDir.toList hroot

namespace FileTree

variable {tree : FileTree}

theorem LeadsToPackage.length_le {path : String} (h : tree.LeadsToPackage path)
    (hdir : Path.isRooted tree.workingDir = true) :
    path.length ≤ tree.longestWay * (longestNameOf tree.root + 1) := by
  obtain ⟨⟨parts, rfl⟩, hdescribed⟩ := h
  obtain ⟨path, hroot, hresolve⟩ := Path.exists_resolve_eq hdir parts
  rw [resolve, hresolve] at hdescribed ⊢
  rw [isEntryPoint, exists?, Option.isSome_iff_exists] at hdescribed
  obtain ⟨found, hfound⟩ := hdescribed
  have hplain : Path.Plain "package.json".toList := by decide
  have hle := length_le_of_lookup hroot hplain (by decide) (by decide) hfound
  have hname : "package.json".length = 12 := by decide
  omega

theorem pathBound_eq (tree : FileTree) :
    tree.pathBound = charCount ^ (tree.longestWay * (longestNameOf tree.root + 4) + 16) := rfl

/-- **Different paths that are reported are at most as many as the bound says.** -/
theorem length_reported_le (hdir : Path.isRooted tree.workingDir = true) {paths : List String}
    (hnodup : paths.Nodup) (h : ∀ path ∈ paths, tree.LeadsToPackage path) :
    paths.length ≤ tree.pathBound := by
  have hway : tree.longestWay * (longestNameOf tree.root + 1)
      ≤ tree.longestWay * (longestNameOf tree.root + 4) := Nat.mul_le_mul_left _ (by omega)
  rw [pathBound_eq]
  exact Nat.le_trans (length_le_of_nodup hnodup fun path hpath => (h path hpath).length_le hdir)
    (Nat.pow_le_pow_right (by decide) (by omega))

end FileTree

end PackageOrder
