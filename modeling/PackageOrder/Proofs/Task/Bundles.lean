/-
PackageOrder.Proofs.Task.Bundles — which of the considered properties are compiled, and
which properties are marked with them.

Properties that lead to the same bundle are compiled once, by the first of them that is
considered (`PackageJson.LeadsFirst`), and all properties that lead there are marked with
it, whether they are considered or not (`PackageJson.IsBundle`). The lists are given by
their members and by an order in which each member stands once (`InOrderOf`), which is
all there is to say about them (`InOrderOf.unique`).

`PackageJson.compiles_bundles_once` is the main statement. What a task marks is read from
the same table (`EntryPoint.mem_equivalentProperties_of_mem_tasks`).
-/
import PackageOrder.Proofs.Task.Plan

namespace PackageOrder

/-! ## Lists in the order of another list -/

/-- Properties stand in the order in which another list has them first, each once. -/
def InOrderOf (order properties : List FormatProperty) : Prop :=
  properties.Pairwise fun one other => order.idxOf one < order.idxOf other

namespace InOrderOf

variable {order properties : List FormatProperty}

theorem nodup (h : InOrderOf order properties) : properties.Nodup := by
  refine List.Pairwise.imp ?_ h
  rintro one _ hlt rfl
  exact Nat.lt_irrefl _ hlt

/-- An order and the members determine a list. -/
theorem unique {others : List FormatProperty} (h : InOrderOf order properties)
    (h' : InOrderOf order others) (hmem : ∀ property, property ∈ properties ↔ property ∈ others) :
    properties = others := by
  have hperm := (List.perm_ext_iff_of_nodup h.nodup h'.nodup).mpr hmem
  exact hperm.eq_of_pairwise (fun _ _ _ _ hlt hgt => absurd hgt (Nat.lt_asymm hlt)) h h'

/-- Where the first place in a list is before another one when only some members are
counted, it is before the other one. -/
theorem idxOf_lt_of_filter {p : FormatProperty → Bool} {one other : FormatProperty}
    (hone : p one = true) (hother : p other = true)
    (hlt : (order.filter p).idxOf one < (order.filter p).idxOf other) :
    order.idxOf one < order.idxOf other := by
  induction order with
  | nil => simp at hlt
  | cons first rest ih =>
    by_cases hfirst : p first = true
    · rw [List.filter_cons_of_pos hfirst] at hlt
      by_cases heq : first = other
      · simp [heq] at hlt
      · rw [List.idxOf_cons_ne _ heq] at hlt ⊢
        by_cases heq' : first = one
        · simp [heq']
        · rw [List.idxOf_cons_ne _ heq'] at hlt ⊢
          exact Nat.succ_lt_succ (ih (Nat.lt_of_succ_lt_succ hlt))
    · rw [List.filter_cons_of_neg hfirst] at hlt
      have hne : ∀ property, p property = true → first ≠ property := by
        intro property hproperty heq
        exact hfirst (heq ▸ hproperty)
      rw [List.idxOf_cons_ne _ (hne one hone), List.idxOf_cons_ne _ (hne other hother)]
      exact Nat.succ_lt_succ (ih hlt)

theorem of_filter {p : FormatProperty → Bool} (h : InOrderOf (order.filter p) properties)
    (hall : ∀ property ∈ properties, p property = true) : InOrderOf order properties :=
  h.imp_of_mem fun hone hother hlt => idxOf_lt_of_filter (hall _ hone) (hall _ hother) hlt

/-- Without repetitions a list stands in its own order. -/
theorem eraseDups (order : List FormatProperty) : InOrderOf order order.eraseDups := by
  match order with
  | [] => exact List.Pairwise.nil
  | first :: rest =>
    -- what is left for the recursion is not longer than the rest
    have hlen := List.length_filter_le (fun property => !property == first) rest
    have hrest := eraseDups (rest.filter fun property => !property == first)
    have hne : ∀ property ∈ (rest.filter fun property => !property == first).eraseDups,
        first ≠ property := by
      intro property hproperty heq
      rw [List.mem_eraseDups, List.mem_filter] at hproperty
      simp [heq] at hproperty
    rw [List.eraseDups_cons]
    refine List.Pairwise.cons ?_ ?_
    · intro property hproperty
      rw [List.idxOf_cons_self, List.idxOf_cons_ne _ (hne property hproperty)]
      exact Nat.succ_pos _
    · refine (hrest.of_filter fun property hproperty => ?_).imp_of_mem ?_
      · simpa using (hne property hproperty).symm
      · intro one other hone hother hlt
        rw [List.idxOf_cons_ne _ (hne one hone), List.idxOf_cons_ne _ (hne other hother)]
        exact Nat.succ_lt_succ hlt
termination_by order.length

end InOrderOf

namespace PackageJson

variable {json : PackageJson} {considered : List FormatProperty} {property : FormatProperty}

/-! ## The properties to compile -/

/-- A property leads to a bundle to which no property leads that is considered before. -/
def LeadsFirst (json : PackageJson) (considered : List FormatProperty)
    (property : FormatProperty) : Prop :=
  ∃ before after path, considered = before ++ property :: after
    ∧ json.formatPath? property = some path
    ∧ ∀ earlier ∈ before, json.formatPath? earlier ≠ some path

/-- Each bundle that a considered property leads to is compiled once, by the first of
them, in the order in which they are considered. -/
structure CompilesFirsts (json : PackageJson) (considered compiled : List FormatProperty) :
    Prop where
  mem_iff : ∀ property, property ∈ compiled ↔ json.LeadsFirst considered property
  ordered : InOrderOf considered compiled
  distinct : compiled.Pairwise fun one other => json.formatPath? one ≠ json.formatPath? other
  covers : ∀ property ∈ considered, ∀ path, json.formatPath? property = some path →
    ∃ first ∈ compiled, json.formatPath? first = some path

/-- A property that is taken leads to its bundle before all others. -/
theorem exists_cut_of_mem_distinctBundles {seen : List String}
    (h : property ∈ json.distinctBundles seen considered) :
    ∃ before after path, considered = before ++ property :: after
      ∧ json.formatPath? property = some path ∧ path ∉ seen
      ∧ ∀ earlier ∈ before, json.formatPath? earlier ≠ some path := by
  induction considered generalizing seen with
  | nil => cases h
  | cons first rest ih =>
    -- a place in the rest is one behind the first property, if that leads elsewhere
    have hbehind : ∀ {seen' : List String}, property ∈ json.distinctBundles seen' rest →
        (∀ path ∉ seen', path ∉ seen ∧ json.formatPath? first ≠ some path) →
        ∃ before after path, first :: rest = before ++ property :: after
          ∧ json.formatPath? property = some path ∧ path ∉ seen
          ∧ ∀ earlier ∈ before, json.formatPath? earlier ≠ some path := by
      intro seen' hmem helsewhere
      obtain ⟨before, after, path, heq, hpath, hnew, hbefore⟩ := ih hmem
      obtain ⟨hunseen, hfirst⟩ := helsewhere path hnew
      refine ⟨first :: before, after, path, by rw [heq, List.cons_append], hpath, hunseen, ?_⟩
      exact List.forall_mem_cons.mpr ⟨hfirst, hbefore⟩
    rw [distinctBundles] at h
    split at h
    · rename_i hnone
      exact hbehind h fun path hnew => ⟨hnew, by simp [hnone]⟩
    · rename_i path hpath
      split at h
      · rename_i hseen
        refine hbehind h fun other hnew => ⟨hnew, fun hother => ?_⟩
        rw [hpath] at hother
        cases hother
        exact hnew hseen
      · rename_i hnew
        rcases List.mem_cons.mp h with rfl | h
        · exact ⟨[], rest, path, rfl, hpath, hnew, by simp⟩
        · refine hbehind h fun other hother => ?_
          rw [List.mem_cons, not_or] at hother
          exact ⟨hother.2, fun heq => hother.1 (by simpa [hpath] using heq.symm)⟩

/-- The property that leads to a bundle before all others is taken. -/
theorem mem_distinctBundles_of_cut {before after : List FormatProperty} {path : String}
    (hpath : json.formatPath? property = some path)
    (hbefore : ∀ earlier ∈ before, json.formatPath? earlier ≠ some path) :
    ∀ {seen : List String}, path ∉ seen →
      property ∈ json.distinctBundles seen (before ++ property :: after) := by
  induction before with
  | nil =>
    intro seen hnew
    simp [distinctBundles, hpath, hnew]
  | cons first rest ih =>
    intro seen hnew
    obtain ⟨hfirst, hrest⟩ := List.forall_mem_cons.mp hbefore
    rw [List.cons_append, distinctBundles]
    split
    · exact ih hrest hnew
    · rename_i other hother
      split
      · exact ih hrest hnew
      · refine List.mem_cons_of_mem _ (ih hrest ?_)
        rw [List.mem_cons, not_or]
        exact ⟨fun heq => hfirst (heq ▸ hother), hnew⟩

theorem mem_distinctBundles_iff :
    property ∈ json.distinctBundles [] considered ↔ json.LeadsFirst considered property := by
  constructor
  · intro h
    obtain ⟨before, after, path, heq, hpath, _, hbefore⟩ := exists_cut_of_mem_distinctBundles h
    exact ⟨before, after, path, heq, hpath, hbefore⟩
  · rintro ⟨before, after, path, rfl, hpath, hbefore⟩
    exact mem_distinctBundles_of_cut hpath hbefore List.not_mem_nil

theorem inOrderOf_distinctBundles (json : PackageJson) (considered : List FormatProperty)
    (seen : List String) : InOrderOf considered (json.distinctBundles seen considered) := by
  induction considered generalizing seen with
  | nil => exact List.Pairwise.nil
  | cons first rest ih =>
    -- what is taken behind the first property is another one, if its bundles are seen
    have hbehind : ∀ {seen' : List String},
        (∀ path, json.formatPath? first = some path → path ∈ seen') →
        (∀ property ∈ json.distinctBundles seen' rest, first ≠ property)
          ∧ InOrderOf (first :: rest) (json.distinctBundles seen' rest) := by
      intro seen' hseen
      have hne : ∀ property ∈ json.distinctBundles seen' rest, first ≠ property := by
        rintro property hproperty rfl
        obtain ⟨_, path, hpath, hnew⟩ := mem_distinctBundles hproperty
        exact hnew (hseen path hpath)
      refine ⟨hne, (ih seen').imp_of_mem ?_⟩
      intro one other hone hother hlt
      rw [List.idxOf_cons_ne _ (hne one hone), List.idxOf_cons_ne _ (hne other hother)]
      exact Nat.succ_lt_succ hlt
    rw [distinctBundles]
    split
    · rename_i hnone
      exact (hbehind fun path hpath => by simp [hnone] at hpath).2
    · rename_i path hpath
      split
      · rename_i hseen
        refine (hbehind fun other hother => ?_).2
        rw [hpath] at hother
        cases hother
        exact hseen
      · have hown : ∀ other, json.formatPath? first = some other → other ∈ path :: seen := by
          intro other hother
          rw [hpath] at hother
          cases hother
          exact List.mem_cons_self
        obtain ⟨hne, hordered⟩ := hbehind hown
        refine List.Pairwise.cons ?_ hordered
        intro property hproperty
        rw [List.idxOf_cons_self, List.idxOf_cons_ne _ (hne property hproperty)]
        exact Nat.succ_pos _

theorem compilesFirsts_distinctBundles (json : PackageJson) (considered : List FormatProperty) :
    json.CompilesFirsts considered (json.distinctBundles [] considered) where
  mem_iff _ := mem_distinctBundles_iff
  ordered := json.inOrderOf_distinctBundles considered []
  distinct := json.pairwise_distinctBundles [] considered
  covers _ hproperty _ hpath := exists_mem_distinctBundles hproperty hpath List.not_mem_nil

/-! ## The properties to mark -/

/-- Properties are all those that lead to a bundle, the preferred ones first and each
once. -/
structure IsBundle (json : PackageJson) (path : String) (properties : List FormatProperty) :
    Prop where
  ordered : InOrderOf FormatProperty.all properties
  mem_iff : ∀ property, property ∈ properties ↔ json.formatPath? property = some path

/-- A table has an entry for each considered property whose bundle is compiled, and for no
others: the properties that lead to its bundle. -/
structure ListsBundles (json : PackageJson) (considered compiled : List FormatProperty)
    (table : List (FormatProperty × List FormatProperty)) : Prop where
  ordered : InOrderOf considered (table.map Prod.fst)
  mem_iff : ∀ property properties, (property, properties) ∈ table
    ↔ property ∈ considered ∧ ∃ path, json.formatPath? property = some path
      ∧ (∃ one ∈ compiled, json.formatPath? one = some path) ∧ json.IsBundle path properties

theorem isBundle_sameBundle {path : String} (h : json.formatPath? property = some path) :
    json.IsBundle path (json.sameBundle property) where
  ordered := by
    have hall : InOrderOf FormatProperty.all FormatProperty.all := by
      unfold InOrderOf
      decide
    rw [sameBundle, h]
    exact hall.filter _
  mem_iff other := by rw [mem_sameBundle_iff]; simp [h]

theorem IsBundle.eq_sameBundle {path : String} {properties : List FormatProperty}
    (h : json.formatPath? property = some path) (hbundle : json.IsBundle path properties) :
    properties = json.sameBundle property := by
  have hsame := isBundle_sameBundle h
  refine hbundle.ordered.unique hsame.ordered fun other => ?_
  rw [hbundle.mem_iff, hsame.mem_iff]

/-- The considered properties whose bundle is compiled. -/
theorem known_iff {allFormats : Bool} :
    (json.formatPath? property).any ((json.propertiesToProcess considered allFormats).filterMap
        json.formatPath?).contains = true
      ↔ ∃ path, json.formatPath? property = some path
        ∧ ∃ one ∈ json.propertiesToProcess considered allFormats,
          json.formatPath? one = some path := by
  simp only [Option.any_eq_true, List.contains_iff_mem, List.mem_filterMap]

theorem listsBundles_equivalentProperties (json : PackageJson) (considered : List FormatProperty)
    (allFormats : Bool) :
    json.ListsBundles considered (json.propertiesToProcess considered allFormats)
      (json.equivalentProperties considered allFormats) where
  ordered := by
    unfold equivalentProperties
    simp only [List.map_map, Function.comp_def, List.map_id']
    refine InOrderOf.of_filter (InOrderOf.eraseDups _) fun property hproperty => ?_
    exact (List.mem_filter.mp (List.mem_eraseDups.mp hproperty)).2
  mem_iff property properties := by
    unfold equivalentProperties
    simp only [List.mem_map, List.mem_eraseDups, List.mem_filter, known_iff, Prod.mk.injEq]
    constructor
    · rintro ⟨_, ⟨hmem, path, hpath, hcompiled⟩, rfl, rfl⟩
      exact ⟨hmem, path, hpath, hcompiled, isBundle_sameBundle hpath⟩
    · rintro ⟨hmem, path, hpath, hcompiled, hbundle⟩
      exact ⟨property, ⟨hmem, path, hpath, hcompiled⟩, rfl, (hbundle.eq_sameBundle hpath).symm⟩

/-- **Each bundle is compiled once, and marked as a whole**: with all formats the first
considered property of each bundle is compiled, else only the first that leads to a
bundle at all; in either case the table of properties to mark has for each considered
property with a compiled bundle all properties that lead there. -/
theorem compiles_bundles_once (json : PackageJson) (considered : List FormatProperty) :
    json.CompilesFirsts considered (json.propertiesToProcess considered true)
      ∧ json.propertiesToProcess considered false
        = (considered.find? fun property => (json.formatPath? property).isSome).toList
      ∧ ∀ allFormats, json.ListsBundles considered
          (json.propertiesToProcess considered allFormats)
          (json.equivalentProperties considered allFormats) := by
  refine ⟨json.compilesFirsts_distinctBundles considered, ?_,
    json.listsBundles_equivalentProperties considered⟩
  simp only [propertiesToProcess, Bool.false_eq_true, if_false, List.take_one,
    head?_distinctBundles]

end PackageJson

/-- What a task marks is what the table has for its property. -/
theorem EntryPoint.mem_equivalentProperties_of_mem_tasks {entryPoint : EntryPoint}
    {considered : List FormatProperty} {allFormats : Bool} {task : Task}
    (h : task ∈ entryPoint.tasks considered allFormats) :
    (task.property, task.marks)
      ∈ entryPoint.packageJson.equivalentProperties considered allFormats := by
  obtain ⟨hmem, hmarks⟩ := marks_of_mem_tasksFor h
  obtain ⟨path, hpath⟩ := PackageJson.isSome_formatPath?_of_mem_propertiesToProcess hmem
  have hconsidered := (PackageJson.mem_distinctBundles
    ((PackageJson.propertiesToProcess_subset _ considered allFormats).subset hmem)).1
  rw [(PackageJson.listsBundles_equivalentProperties _ considered allFormats).mem_iff, hmarks]
  exact ⟨hconsidered, path, hpath, ⟨_, hmem, hpath⟩, PackageJson.isBundle_sameBundle hpath⟩

end PackageOrder
