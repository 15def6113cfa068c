/-
PackageOrder.Proofs.Resolve.Mapped — which of the paths that a specifier is mapped to
it leads to.

The mapped paths are tried in their order, each as an entry-point and then as a file.
So an entry-point among them wins over files only as long as none of them is met
before it (`FileTree.resolveImport?_prefers_iff`); else the first file is taken. What is
known of a path that a specifier leads to follows from how it was found
(`FileTree.found_of_entryPoint`, `FileTree.found_of_internal`).
-/
import Mathlib.Data.Option.Basic
import PackageOrder.Resolve.Module

namespace PackageOrder

namespace FileTree

variable (tree : FileTree)

/-- What a mapped path leads to as a file. -/
def mappedFile? (endings : List String) (package path : String) : Option Resolution :=
  (tree.fileWithEnding? endings path).map fun file =>
    if isWithin package path then .internal file else .deepImport path

/-- What some mapped paths lead to where an entry-point among them wins: the first one,
or the first file if there is none. -/
def preferred? (endings : List String) (package : String) (paths : List String) :
    Option Resolution :=
  (paths.find? tree.isEntryPoint).map .entryPoint
    <|> paths.findSome? (tree.mappedFile? endings package)

/-- A file is met among some mapped paths before their first entry-point. -/
def FileFirst (endings paths : List String) : Prop :=
  ∃ front path back, paths = front ++ path :: back ∧ tree.isEntryPoint path = true
    ∧ (∀ other ∈ front, tree.isEntryPoint other = false)
    ∧ ∃ other ∈ front, (tree.fileWithEnding? endings other).isSome = true

variable {tree} {endings : List String} {package : String} {paths : List String}

theorem mappedTo?_of_entryPoint {path : String} (h : tree.isEntryPoint path = true) :
    tree.mappedTo? endings package path = some (.entryPoint path) :=
  if_pos h

theorem mappedTo?_of_not_entryPoint {path : String} (h : tree.isEntryPoint path = false) :
    tree.mappedTo? endings package path = tree.mappedFile? endings package path :=
  if_neg (by simp [h])

theorem isSome_mappedFile? (package path : String) :
    (tree.mappedFile? endings package path).isSome = (tree.fileWithEnding? endings path).isSome :=
  Option.isSome_map

/-- A file is never taken for an entry-point. -/
theorem mappedFile?_ne_entryPoint (path other : String) :
    tree.mappedFile? endings package path ≠ some (.entryPoint other) := by
  intro h
  obtain ⟨file, _, h⟩ := Option.map_eq_some_iff.mp h
  split at h <;> cases h

/-! ## Back from what is found -/

/-- An entry-point that a path is mapped to is at that path. -/
theorem mappedTo?_eq_entryPoint_iff {path other : String} :
    tree.mappedTo? endings package path = some (.entryPoint other)
      ↔ tree.isEntryPoint path = true ∧ other = path := by
  cases hpath : tree.isEntryPoint path with
  | true => rw [mappedTo?_of_entryPoint hpath]; simp [eq_comm]
  | false => rw [mappedTo?_of_not_entryPoint hpath]; simp [mappedFile?_ne_entryPoint]

theorem file_of_mappedTo? {path file : String}
    (h : tree.mappedTo? endings package path = some (.internal file)) :
    tree.fileWithEnding? endings path = some file := by
  cases hpath : tree.isEntryPoint path with
  | true =>
    rw [mappedTo?_of_entryPoint hpath] at h
    cases h
  | false =>
    rw [mappedTo?_of_not_entryPoint hpath] at h
    obtain ⟨found, hfound, h⟩ := Option.map_eq_some_iff.mp h
    split at h <;> cases h
    exact hfound

/-- Where mappings lead one of the mapped paths does. -/
theorem exists_of_resolveMapped? {mappings : Option PathMappings} {specifier source : String}
    {found : Resolution}
    (h : tree.resolveMapped? mappings endings specifier source = some found) :
    ∃ table package, mappings = some table ∧ tree.packageOf? source = some package
      ∧ ∃ path ∈ table.mappedPaths tree.workingDir specifier,
        tree.mappedTo? endings package path = some found := by
  obtain ⟨table, htable, h⟩ := Option.bind_eq_some_iff.mp h
  dsimp only at h
  split at h
  · cases h
  obtain ⟨package, hpackage, h⟩ := Option.bind_eq_some_iff.mp h
  exact ⟨table, package, htable, hpackage, List.exists_of_findSome?_eq_some h⟩

/-- **How a file of the package was found**: beside the importing one, or at one of the
paths that the specifier is mapped to. -/
theorem found_of_internal {mappings : Option PathMappings} {specifier source file : String}
    (h : tree.resolveImport? mappings endings specifier source = some (.internal file)) :
    Path.isRelativeSpecifier specifier = true
        ∧ tree.fileWithEnding? endings (tree.resolve [Path.dirname source, specifier]) = some file
      ∨ Path.isRelativeSpecifier specifier = false
        ∧ ∃ table, mappings = some table ∧ ∃ path ∈ table.mappedPaths tree.workingDir specifier,
          tree.fileWithEnding? endings path = some file := by
  unfold resolveImport? at h
  split at h
  · rename_i hrelative
    obtain ⟨found, hfound, heq⟩ := Option.map_eq_some_iff.mp h
    cases heq
    exact Or.inl ⟨hrelative, hfound⟩
  rename_i hbare
  split at h
  · cases h
  rcases (Option.orElse_eq_some _ _ _).mp h with h | ⟨_, h⟩
  · obtain ⟨table, package, htable, _, path, hpath, hmapped⟩ := exists_of_resolveMapped? h
    exact Or.inr ⟨by simpa using hbare, table, htable, path, hpath, file_of_mappedTo? hmapped⟩
  · -- what is installed is no file of the package
    obtain ⟨folder, _, h⟩ := List.exists_of_findSome?_eq_some h
    unfold installedIn? at h
    dsimp only at h
    split at h
    · cases h
    · split at h <;> cases h

/-- **How an entry-point was found**: at one of the paths that the specifier is mapped to, or
in a folder of installed packages. -/
theorem found_of_entryPoint {mappings : Option PathMappings} {specifier source path : String}
    (h : tree.resolveImport? mappings endings specifier source = some (.entryPoint path)) :
    tree.isEntryPoint path = true
      ∧ ((∃ table, mappings = some table ∧ path ∈ table.mappedPaths tree.workingDir specifier)
        ∨ ∃ folder, path = tree.resolve [folder, "node_modules", specifier]) := by
  unfold resolveImport? at h
  split at h
  · obtain ⟨_, _, heq⟩ := Option.map_eq_some_iff.mp h
    cases heq
  split at h
  · cases h
  rcases (Option.orElse_eq_some _ _ _).mp h with h | ⟨_, h⟩
  · obtain ⟨table, package, htable, _, mapped, hmem, hmapped⟩ := exists_of_resolveMapped? h
    obtain ⟨hdescribed, rfl⟩ := mappedTo?_eq_entryPoint_iff.mp hmapped
    exact ⟨hdescribed, Or.inl ⟨table, htable, hmem⟩⟩
  · obtain ⟨folder, _, h⟩ := List.exists_of_findSome?_eq_some h
    unfold installedIn? at h
    dsimp only at h
    split at h
    · rename_i hdescribed
      cases h
      exact ⟨hdescribed, Or.inr ⟨folder, rfl⟩⟩
    · split at h <;> cases h

/-- A mapped path is a target of the entry that is used, filled with what was captured. -/
theorem exists_target_of_mem_mappedPaths {table : PathMappings} {specifier path : String}
    (h : path ∈ table.mappedPaths tree.workingDir specifier) :
    ∃ found, bestMapping specifier.toList table.paths none = some found
      ∧ ∃ target ∈ found.targets,
        path = tree.resolve [table.baseUrl, (Wildcard.ofText target).fill found.captured] := by
  unfold PathMappings.mappedPaths at h
  split at h
  · cases h
  · rename_i found hfound
    obtain ⟨target, htarget, rfl⟩ := List.mem_map.mp h
    exact ⟨found, hfound, target, htarget, rfl⟩

/-! ## The first entry-point and the first file -/

/-- Where no entry-point is mapped to, the first file is taken. -/
theorem findSome?_mappedTo?_of_files (h : ∀ path ∈ paths, tree.isEntryPoint path = false) :
    paths.findSome? (tree.mappedTo? endings package)
      = paths.findSome? (tree.mappedFile? endings package) := by
  induction paths with
  | nil => rw [List.findSome?_nil, List.findSome?_nil]
  | cons path rest ih =>
    rw [List.findSome?_cons, List.findSome?_cons,
      mappedTo?_of_not_entryPoint (h path List.mem_cons_self),
      ih fun other hother => h other (List.mem_cons_of_mem _ hother)]

/-- Up to the first entry-point the files are tried, and then it is taken. -/
theorem findSome?_mappedTo?_of_first {front back : List String} {path : String}
    (hpath : tree.isEntryPoint path = true)
    (hfront : ∀ other ∈ front, tree.isEntryPoint other = false) :
    (front ++ path :: back).findSome? (tree.mappedTo? endings package)
      = (front.findSome? (tree.mappedFile? endings package)).or (some (.entryPoint path)) := by
  rw [List.findSome?_append, findSome?_mappedTo?_of_files hfront,
    List.findSome?_cons_of_isSome (by rw [mappedTo?_of_entryPoint hpath]; rfl),
    mappedTo?_of_entryPoint hpath]

/-- There is only one way to cut a list before its first entry-point. -/
theorem takeWhile_of_first {front : List String} {path : String}
    (hpath : tree.isEntryPoint path = true)
    (hfront : ∀ other ∈ front, tree.isEntryPoint other = false) (back : List String) :
    (front ++ path :: back).takeWhile (!tree.isEntryPoint ·) = front := by
  rw [List.takeWhile_append_of_pos fun other hother => by simp [hfront other hother],
    List.takeWhile_cons_of_neg (by simp [hpath]), List.append_nil]

theorem fileFirst_iff_of_first {front back : List String} {path : String}
    (hpath : tree.isEntryPoint path = true)
    (hfront : ∀ other ∈ front, tree.isEntryPoint other = false) :
    tree.FileFirst endings (front ++ path :: back)
      ↔ ∃ other ∈ front, (tree.fileWithEnding? endings other).isSome = true := by
  constructor
  · rintro ⟨front', path', back', hsplit, hpath', hfront', hfile⟩
    rw [← takeWhile_of_first hpath hfront back, hsplit, takeWhile_of_first hpath' hfront']
    exact hfile
  · exact fun hfile => ⟨front, path, back, rfl, hpath, hfront, hfile⟩

/-- What a bare specifier in a file of a package leads to is that of its mapped paths which
leads somewhere first, or what is installed. -/
theorem resolveImport?_of_mapped (mappings : PathMappings) {specifier source : String}
    (hbare : Path.isRelativeSpecifier specifier = false)
    (hbuiltin : isBuiltinModule specifier = false) (hpackage : tree.packageOf? source = some package) :
    tree.resolveImport? (some mappings) endings specifier source
      = ((mappings.mappedPaths tree.workingDir specifier).findSome? (tree.mappedTo? endings package)
        <|> tree.resolveInstalled? endings specifier source) := by
  rw [resolveImport?, if_neg (by simp [hbare]), if_neg (by simp [hbuiltin]), resolveMapped?]
  simp only [Option.bind_eq_bind, Option.bind_some, hpackage]
  split
  · rename_i hempty
    rw [List.isEmpty_iff.mp hempty]
    rfl
  · rfl

/-- **An entry-point among the mapped paths wins just if no file is met before it**; else
the first file is what the specifier leads to. -/
theorem resolveImport?_prefers_iff (mappings : PathMappings) {specifier source : String}
    (hbare : Path.isRelativeSpecifier specifier = false)
    (hbuiltin : isBuiltinModule specifier = false) (hpackage : tree.packageOf? source = some package) :
    (tree.resolveImport? (some mappings) endings specifier source
        = (tree.preferred? endings package (mappings.mappedPaths tree.workingDir specifier)
          <|> tree.resolveInstalled? endings specifier source)
      ↔ ¬ tree.FileFirst endings (mappings.mappedPaths tree.workingDir specifier))
    ∧ (tree.FileFirst endings (mappings.mappedPaths tree.workingDir specifier) →
        tree.resolveImport? (some mappings) endings specifier source
          = (mappings.mappedPaths tree.workingDir specifier).findSome?
            (tree.mappedFile? endings package)) := by
  rw [resolveImport?_of_mapped mappings hbare hbuiltin hpackage]
  generalize mappings.mappedPaths tree.workingDir specifier = paths
  cases hfind : paths.find? tree.isEntryPoint with
  | none =>
    have hfiles : ∀ path ∈ paths, tree.isEntryPoint path = false := fun path hpath =>
      Bool.eq_false_iff.mpr (List.find?_eq_none.mp hfind path hpath)
    have hnot : ¬ tree.FileFirst endings paths := by
      rintro ⟨front, path, back, rfl, hpath, _⟩
      rw [hfiles path (List.mem_append_right _ List.mem_cons_self)] at hpath
      cases hpath
    rw [findSome?_mappedTo?_of_files hfiles, preferred?, hfind]
    exact ⟨iff_of_true rfl hnot, fun hfirst => absurd hfirst hnot⟩
  | some path =>
    obtain ⟨hpath, front, back, rfl, hfront⟩ := List.find?_eq_some_iff_append.mp hfind
    have hfiles : ∀ other ∈ front, tree.isEntryPoint other = false := fun other hother => by
      simpa using hfront other hother
    have hpreferred : tree.preferred? endings package (front ++ path :: back)
        = some (.entryPoint path) := by
      rw [preferred?, hfind]
      rfl
    rw [findSome?_mappedTo?_of_first hpath hfiles, hpreferred, fileFirst_iff_of_first hpath hfiles]
    cases hfile : front.findSome? (tree.mappedFile? endings package) with
    | none =>
      have hnone : ¬ ∃ other ∈ front, (tree.fileWithEnding? endings other).isSome = true := by
        rintro ⟨other, hother, hsome⟩
        rw [← isSome_mappedFile? package,
          List.findSome?_eq_none_iff.mp hfile other hother] at hsome
        cases hsome
      exact ⟨iff_of_true rfl hnone, fun hsome => absurd hsome hnone⟩
    | some found =>
      obtain ⟨other, hother, hfound⟩ := List.exists_of_findSome?_eq_some hfile
      have hsome : ∃ other ∈ front, (tree.fileWithEnding? endings other).isSome = true :=
        ⟨other, hother, by rw [← isSome_mappedFile? package, hfound]; rfl⟩
      refine ⟨iff_of_false ?_ (not_not_intro hsome), fun _ => ?_⟩
      · intro heq
        exact mappedFile?_ne_entryPoint other path (hfound.trans (congrArg id heq))
      · rw [List.findSome?_append, hfile]
        rfl

/-- A package whose library is there as a script, and built as a package. -/
def libraryTree : FileTree where
  root := [("project", .folder [
    ("dist", .folder [("lib", .folder [("package.json", .file .empty)])]),
    ("package.json", .file .empty),
    ("src", .folder [("lib.js", .file .empty)])])]

/-- A mapping of the library to some folders, in their order. -/
def libraryMappings (targets : List String) : PathMappings where
  baseUrl := "/project"
  paths := [("lib", targets)]

/-- Missing folders before an entry-point and files behind it change nothing. -/
theorem resolveImport?_prefers_iff_missing :
    (Path.isRelativeSpecifier "lib" = false ∧ isBuiltinModule "lib" = false
        ∧ libraryTree.packageOf? "/project/main.js" = some "/project")
      ∧ ((libraryTree.resolveImport? (some (libraryMappings ["lib", "dist/lib", "src/lib"]))
            scriptEndings "lib" "/project/main.js"
          = (libraryTree.preferred? scriptEndings "/project"
              ((libraryMappings ["lib", "dist/lib", "src/lib"]).mappedPaths libraryTree.workingDir "lib")
            <|> libraryTree.resolveInstalled? scriptEndings "lib" "/project/main.js")
        ↔ ¬ libraryTree.FileFirst scriptEndings
            ((libraryMappings ["lib", "dist/lib", "src/lib"]).mappedPaths libraryTree.workingDir "lib"))
      ∧ (libraryTree.FileFirst scriptEndings
            ((libraryMappings ["lib", "dist/lib", "src/lib"]).mappedPaths libraryTree.workingDir "lib") →
          libraryTree.resolveImport? (some (libraryMappings ["lib", "dist/lib", "src/lib"]))
            scriptEndings "lib" "/project/main.js"
          = ((libraryMappings ["lib", "dist/lib", "src/lib"]).mappedPaths libraryTree.workingDir
              "lib").findSome? (libraryTree.mappedFile? scriptEndings "/project"))) := by
  have hbare : Path.isRelativeSpecifier "lib" = false := by decide +kernel
  have hbuiltin : isBuiltinModule "lib" = false := by decide +kernel
  have hpackage : libraryTree.packageOf? "/project/main.js" = some "/project" := by decide +kernel
  exact ⟨⟨hbare, hbuiltin, hpackage⟩,
    resolveImport?_prefers_iff (libraryMappings ["lib", "dist/lib", "src/lib"]) hbare hbuiltin hpackage⟩

/-- **A script that a specifier is mapped to first hides the entry-point** that it is
mapped to as well. -/
theorem resolveImport?_hides :
    (libraryMappings ["src/lib", "dist/lib"]).mappedPaths libraryTree.workingDir "lib"
        = ["/project/src/lib", "/project/dist/lib"]
      ∧ libraryTree.isEntryPoint "/project/src/lib" = false
      ∧ libraryTree.isEntryPoint "/project/dist/lib" = true
      ∧ libraryTree.resolveImport? (some (libraryMappings ["src/lib", "dist/lib"])) scriptEndings
          "lib" "/project/main.js" = some (.internal "/project/src/lib.js") := by
  decide +kernel

end FileTree

end PackageOrder
