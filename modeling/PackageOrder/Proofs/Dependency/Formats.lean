/-
PackageOrder.Proofs.Dependency.Formats — in which of its formats an entry-point is read.

The formats of an entry-point are tried in a fixed order of preference
(`FileTree.sourceFormats`), and the first one that can be read at all should be read
(`FileTree.ReadsPreferred`). But the format is settled before anything is known about how
to read it: the first format of all is taken, and if that cannot be read the run fails. So
the preference is followed exactly if no format that cannot be read hides one that can
(`FileTree.withInfo_preferred_iff`).
-/
import PackageOrder.Dependency.Order

namespace PackageOrder

namespace FileTree

variable (tree : FileTree) (readable : List BundleFormat) (mappings : Option PathMappings)
  (entryPoint : EntryPoint)

/-- The bundles of an entry-point whose format can be told, with their formats, the
preferred ones first. -/
def sourceFormats : List (BundleFormat × String) :=
  FormatProperty.all.filterMap fun property => do
    let path ← entryPoint.formatPath? property
    let format ← tree.format? entryPoint property
    return (format, tree.resolve [entryPoint.path, path])

/-- An entry-point with what one of its bundles and its types import. -/
def readBundle (bundle : BundleFormat × String) : EntryPointWithInfo where
  entryPoint
  info := (tree.collectDependencies bundle.1.modules mappings bundle.2).union
    (tree.collectDependencies .declarations mappings entryPoint.typings)

/-- What follows the preference: of the formats that can be read the first one is read, and
nothing is said to be unreadable unless there are formats none of which can be read. -/
structure ReadsPreferred (outcome : Except Failure EntryPointWithInfo) : Prop where
  fails : outcome = .error (.noDependencyHost entryPoint.path) →
    tree.sourceFormats entryPoint ≠ []
      ∧ ∀ bundle ∈ tree.sourceFormats entryPoint, bundle.1 ∉ readable
  reads : ∀ before bundle after, tree.sourceFormats entryPoint = before ++ bundle :: after →
    (∀ other ∈ before, other.1 ∉ readable) → bundle.1 ∈ readable →
    outcome = .ok (tree.readBundle mappings entryPoint bundle)

/-- A format that cannot be read is preferred to all others, one of which can be read. -/
def HidesReadable : Prop :=
  ∃ first rest, tree.sourceFormats entryPoint = first :: rest ∧ first.1 ∉ readable
    ∧ ∃ later ∈ rest, later.1 ∈ readable

variable {tree readable mappings entryPoint}

theorem sourceFormat?_eq_head? :
    tree.sourceFormat? entryPoint = (tree.sourceFormats entryPoint).head? := by
  rw [sourceFormats, List.head?_filterMap, sourceFormat?]

section Compiled

variable (hcompiled : entryPoint.compiledByAngular = true)
include hcompiled

/-- Without a format that can be told nothing is read. -/
theorem withInfo_of_no_format (h : tree.sourceFormats entryPoint = []) :
    tree.withInfo readable mappings entryPoint = .error (.noSourceFormat entryPoint.path) := by
  have hfirst : tree.sourceFormat? entryPoint = none := by
    rw [sourceFormat?_eq_head?, h]
    rfl
  simp [withInfo, hcompiled, hfirst]

/-- The first format decides what is read, and whether anything is. -/
theorem withInfo_of_first {first : BundleFormat × String} {rest : List (BundleFormat × String)}
    (h : tree.sourceFormats entryPoint = first :: rest) :
    tree.withInfo readable mappings entryPoint
      = if first.1 ∈ readable then .ok (tree.readBundle mappings entryPoint first)
        else .error (.noDependencyHost entryPoint.path) := by
  have hfirst : tree.sourceFormat? entryPoint = some first := by
    rw [sourceFormat?_eq_head?, h]
    rfl
  obtain ⟨format, path⟩ := first
  by_cases hread : format ∈ readable <;>
    simp [withInfo, hcompiled, hfirst, hread, readBundle]

/-- A format is missed exactly if it is the first one that cannot be read. -/
theorem withInfo_eq_noDependencyHost_iff :
    tree.withInfo readable mappings entryPoint = .error (.noDependencyHost entryPoint.path)
      ↔ ∃ first rest, tree.sourceFormats entryPoint = first :: rest ∧ first.1 ∉ readable := by
  cases hformats : tree.sourceFormats entryPoint with
  | nil => simp [withInfo_of_no_format hcompiled hformats]
  | cons first rest =>
    rw [withInfo_of_first hcompiled hformats]
    by_cases hread : first.1 ∈ readable <;> simp [hread]

theorem readsPreferred_of_not_hides (h : ¬ tree.HidesReadable readable entryPoint) :
    tree.ReadsPreferred readable mappings entryPoint
      (tree.withInfo readable mappings entryPoint) where
  fails hfails := by
    obtain ⟨first, rest, hformats, hfirst⟩ :=
      (withInfo_eq_noDependencyHost_iff hcompiled).mp hfails
    rw [hformats]
    refine ⟨List.cons_ne_nil first rest, ?_⟩
    intro bundle hbundle hread
    rcases List.mem_cons.mp hbundle with rfl | hlater
    · exact hfirst hread
    · exact h ⟨first, rest, hformats, hfirst, bundle, hlater, hread⟩
  reads before bundle after hformats hbefore hread := by
    cases before with
    | nil => rw [withInfo_of_first hcompiled hformats, if_pos hread]
    | cons first front =>
      -- the first format cannot be read, and hides the one that can
      refine absurd ⟨first, front ++ bundle :: after, hformats, ?_, bundle, ?_, hread⟩ h
      · exact hbefore first List.mem_cons_self
      · exact List.mem_append_right front List.mem_cons_self

theorem not_readsPreferred_of_hides (h : tree.HidesReadable readable entryPoint) :
    ¬ tree.ReadsPreferred readable mappings entryPoint
      (tree.withInfo readable mappings entryPoint) := by
  obtain ⟨first, rest, hformats, hfirst, later, hlater, hread⟩ := h
  intro hpreferred
  have hfails : tree.withInfo readable mappings entryPoint
      = .error (.noDependencyHost entryPoint.path) :=
    (withInfo_eq_noDependencyHost_iff hcompiled).mpr ⟨first, rest, hformats, hfirst⟩
  have hnone := (hpreferred.fails hfails).2 later
  exact hnone (hformats ▸ List.mem_cons_of_mem first hlater) hread

end Compiled

/-- **Formats are read by preference exactly if none that cannot be read hides one that
can**; with a hidden one nothing is read, as whenever the first format cannot be read. -/
theorem withInfo_preferred_iff (tree : FileTree) (readable : List BundleFormat)
    (mappings : Option PathMappings) (entryPoint : EntryPoint)
    (hcompiled : entryPoint.compiledByAngular = true) :
    (tree.ReadsPreferred readable mappings entryPoint
        (tree.withInfo readable mappings entryPoint)
      ↔ ¬ tree.HidesReadable readable entryPoint)
      ∧ (tree.withInfo readable mappings entryPoint = .error (.noDependencyHost entryPoint.path)
        ↔ ∃ first rest, tree.sourceFormats entryPoint = first :: rest ∧ first.1 ∉ readable) :=
  ⟨⟨fun h hhides => not_readsPreferred_of_hides hcompiled hhides h,
    readsPreferred_of_not_hides hcompiled⟩, withInfo_eq_noDependencyHost_iff hcompiled⟩

end FileTree

/-- An entry-point with a bundle in each of two formats. -/
def twoFormats : EntryPoint :=
  { (default : EntryPoint) with
    path := "/a"
    packageJson := [("fesm2015", .string "./a.js"), ("fesm5", .string "./b.js")]
    typings := "/a/index.d.ts"
    compiledByAngular := true }

theorem sourceFormats_twoFormats : FileTree.sourceFormats {} twoFormats
    = [(.esm2015, "/a/a.js"), (.esm5, "/a/b.js")] := by
  decide +kernel

theorem withInfo_preferred_iff_twoFormats :
    twoFormats.compiledByAngular = true
      ∧ FileTree.ReadsPreferred {} [.esm2015, .esm5] none twoFormats
        (FileTree.withInfo {} [.esm2015, .esm5] none twoFormats) := by
  have hreadable : ¬ FileTree.HidesReadable {} [.esm2015, .esm5] twoFormats := by
    rintro ⟨first, rest, hformats, hfirst, _⟩
    rw [sourceFormats_twoFormats] at hformats
    cases hformats
    exact hfirst List.mem_cons_self
  exact ⟨rfl, (FileTree.withInfo_preferred_iff {} [.esm2015, .esm5] none twoFormats rfl).1.mpr
    hreadable⟩

/-- **The second format can be read, but the first one fails the run.** -/
theorem withInfo_passes_over :
    ¬ FileTree.ReadsPreferred {} [.esm5] none twoFormats
      (FileTree.withInfo {} [.esm5] none twoFormats) := by
  refine FileTree.not_readsPreferred_of_hides rfl ?_
  exact ⟨_, _, sourceFormats_twoFormats, by decide, _, List.mem_cons_self, by decide⟩

end PackageOrder
