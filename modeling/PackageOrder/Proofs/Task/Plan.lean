/-
PackageOrder.Proofs.Task.Plan — which formats of an entry-point are compiled.

Of the considered properties one is taken for each bundle, the first that leads
there (`mem_distinctBundles`, `exists_mem_distinctBundles`), and it makes a task
unless it was processed before (`EntryPoint.tasksFor_eq_nil_iff`). Looking for an
unprocessed property without regard to bundles comes to the same
(`PackageJson.needsProcessing_iff`), as long as properties that lead to the same
bundle are processed together: that is so after every marking
(`PackageJson.MarksAgree.markProcessed`).
-/
import PackageOrder.Proofs.EntryPoint.Marker
import PackageOrder.Proofs.Task.Waiting
import PackageOrder.Processing
import Mathlib.Data.List.Pairwise

namespace PackageOrder

/-! ## One property for each bundle -/

namespace PackageJson

variable {json : PackageJson} {considered : List FormatProperty} {property : FormatProperty}

/-- A property that is taken was considered, and leads to a bundle that is not
among the seen ones. -/
theorem mem_distinctBundles {seen : List String}
    (h : property ∈ json.distinctBundles seen considered) :
    property ∈ considered ∧ ∃ path, json.formatPath? property = some path ∧ path ∉ seen := by
  induction considered generalizing seen with
  | nil => cases h
  | cons first rest ih =>
    rw [distinctBundles] at h
    split at h
    · exact (ih h).imp_left (List.mem_cons_of_mem _)
    · rename_i path hpath
      split at h
      · exact (ih h).imp_left (List.mem_cons_of_mem _)
      · rename_i hnew
        rcases List.mem_cons.mp h with rfl | h
        · exact ⟨List.mem_cons_self, path, hpath, hnew⟩
        · obtain ⟨hmem, other, hother, hseen⟩ := ih h
          exact ⟨List.mem_cons_of_mem _ hmem, other, hother,
            fun hin => hseen (List.mem_cons_of_mem _ hin)⟩

/-- Of the properties that lead to a bundle which is not seen yet, one is taken. -/
theorem exists_mem_distinctBundles {seen : List String} {path : String}
    (hmem : property ∈ considered) (hpath : json.formatPath? property = some path)
    (hnew : path ∉ seen) :
    ∃ taken ∈ json.distinctBundles seen considered, json.formatPath? taken = some path := by
  induction considered generalizing seen with
  | nil => cases hmem
  | cons first rest ih =>
    rw [distinctBundles]
    split
    · rename_i hnone
      rcases List.mem_cons.mp hmem with rfl | hmem
      · rw [hpath] at hnone
        cases hnone
      · exact ih hmem hnew
    · rename_i other hother
      split
      · rename_i hseen
        rcases List.mem_cons.mp hmem with rfl | hmem
        · rw [hpath] at hother
          cases hother
          exact absurd hseen hnew
        · exact ih hmem hnew
      · by_cases heq : path = other
        · exact ⟨first, List.mem_cons_self, by rw [hother, heq]⟩
        · rcases List.mem_cons.mp hmem with rfl | hmem
          · rw [hpath] at hother
            cases hother
            exact absurd rfl heq
          · have hunseen : path ∉ other :: seen := by
              rw [List.mem_cons, not_or]
              exact ⟨heq, hnew⟩
            obtain ⟨taken, htaken, h⟩ := ih hmem hunseen
            exact ⟨taken, List.mem_cons_of_mem _ htaken, h⟩

/-- No two of the properties that are taken lead to the same bundle. -/
theorem pairwise_distinctBundles (json : PackageJson) (seen : List String)
    (considered : List FormatProperty) :
    (json.distinctBundles seen considered).Pairwise fun one other =>
      json.formatPath? one ≠ json.formatPath? other := by
  induction considered generalizing seen with
  | nil => exact List.Pairwise.nil
  | cons first rest ih =>
    rw [distinctBundles]
    split
    · exact ih seen
    · rename_i path hpath
      split
      · exact ih seen
      · refine List.Pairwise.cons ?_ (ih _)
        intro other hother heq
        obtain ⟨_, path', hpath', hnew⟩ := mem_distinctBundles hother
        rw [hpath, hpath'] at heq
        cases heq
        exact hnew List.mem_cons_self

/-- The first property that is taken is the first that leads to a bundle. -/
theorem head?_distinctBundles (json : PackageJson) (considered : List FormatProperty) :
    (json.distinctBundles [] considered).head?
      = considered.find? fun property => (json.formatPath? property).isSome := by
  induction considered with
  | nil => rfl
  | cons first rest ih =>
    rw [distinctBundles, List.find?_cons]
    split
    · rename_i hnone
      rw [hnone]
      exact ih
    · rename_i path hpath
      rw [if_neg List.not_mem_nil, hpath]
      rfl

theorem propertiesToProcess_subset (json : PackageJson) (considered : List FormatProperty)
    (allFormats : Bool) :
    (json.propertiesToProcess considered allFormats).Sublist
      (json.distinctBundles [] considered) := by
  unfold propertiesToProcess
  dsimp only
  split
  · exact List.Sublist.refl _
  · exact List.take_sublist 1 _

/-- No two of the properties to compile lead to the same bundle. -/
theorem pairwise_propertiesToProcess (json : PackageJson) (considered : List FormatProperty)
    (allFormats : Bool) :
    (json.propertiesToProcess considered allFormats).Pairwise fun one other =>
      json.formatPath? one ≠ json.formatPath? other :=
  (json.pairwise_distinctBundles [] considered).sublist
    (json.propertiesToProcess_subset considered allFormats)

/-- A property to compile is the only one that leads to its bundle. -/
theorem eq_of_mem_propertiesToProcess {allFormats : Bool} {one other : FormatProperty}
    (hone : one ∈ json.propertiesToProcess considered allFormats)
    (hother : other ∈ json.propertiesToProcess considered allFormats)
    (heq : json.formatPath? one = json.formatPath? other) : one = other := by
  have hsymm : Std.Symm fun one other : FormatProperty =>
      json.formatPath? one ≠ json.formatPath? other := ⟨fun _ _ h => h.symm⟩
  by_contra hne
  exact (json.pairwise_propertiesToProcess considered allFormats).forall hone hother hne heq

theorem isSome_formatPath?_of_mem_propertiesToProcess {allFormats : Bool}
    (h : property ∈ json.propertiesToProcess considered allFormats) :
    ∃ path, json.formatPath? property = some path := by
  obtain ⟨_, path, hpath, _⟩ :=
    mem_distinctBundles ((json.propertiesToProcess_subset considered allFormats).subset h)
  exact ⟨path, hpath⟩

/-- A property that leads to a bundle is among those that lead to its bundle. -/
theorem mem_sameBundle_iff {other : FormatProperty} :
    other ∈ json.sameBundle property
      ↔ ∃ path, json.formatPath? property = some path ∧ json.formatPath? other = some path := by
  unfold sameBundle
  split
  · rename_i hnone
    simp [hnone]
  · rename_i path hpath
    simp [hpath, FormatProperty.mem_all]

/-! ## Marks that agree -/

/-- Properties that lead to the same bundle are processed together. -/
def MarksAgree (json : PackageJson) : Prop :=
  ∀ one other path, json.formatPath? one = some path → json.formatPath? other = some path →
    json.isProcessed one.name = json.isProcessed other.name

theorem marksAgree_iff :
    json.MarksAgree ↔ ∀ one ∈ FormatProperty.all, ∀ other ∈ FormatProperty.all,
      json.formatPath? one ≠ none → json.formatPath? one = json.formatPath? other →
        json.isProcessed one.name = json.isProcessed other.name := by
  constructor
  · intro h one _ other _ hsome heq
    obtain ⟨path, hpath⟩ := Option.ne_none_iff_exists'.mp hsome
    exact h one other path hpath (heq ▸ hpath)
  · intro h one other path hone hother
    exact h one one.mem_all other other.mem_all (by simp [hone]) (by rw [hone, hother])

instance (json : PackageJson) : Decidable json.MarksAgree :=
  decidable_of_iff _ marksAgree_iff.symm

/-- Marking all properties of a bundle keeps the marks in agreement. -/
theorem MarksAgree.markProcessed (h : json.MarksAgree) {marked : List String}
    (hmarked : ∀ one other path, json.formatPath? one = some path →
      json.formatPath? other = some path → one.name ∈ marked → other.name ∈ marked) :
    MarksAgree (json.markProcessed marked) := by
  intro one other path hone hother
  rw [formatPath?_markProcessed] at hone hother
  rw [isProcessed_markProcessed, isProcessed_markProcessed, h one other path hone hother,
    decide_eq_decide.mpr ⟨hmarked one other path hone hother, hmarked other one path hother hone⟩]

/-- **A search for an unprocessed property that passes over bundles finds one just
if a property to compile is unprocessed.** -/
theorem needsProcessing_iff (hagree : json.MarksAgree) (considered : List FormatProperty)
    (allFormats : Bool) :
    json.needsProcessing considered allFormats = true
      ↔ ∃ property ∈ json.propertiesToProcess considered allFormats,
          json.isProcessed property.name = false := by
  unfold needsProcessing propertiesToProcess
  simp only [List.any_eq_true, Bool.not_eq_true']
  cases allFormats with
  | true =>
    simp only [if_true]
    constructor
    · rintro ⟨property, hmem, hnot⟩
      obtain ⟨hmem, hsome⟩ := List.mem_filter.mp hmem
      obtain ⟨path, hpath⟩ := Option.isSome_iff_exists.mp hsome
      obtain ⟨taken, htaken, hbundle⟩ :=
        exists_mem_distinctBundles hmem hpath List.not_mem_nil
      exact ⟨taken, htaken, by rw [hagree taken property path hbundle hpath, hnot]⟩
    · rintro ⟨property, hmem, hnot⟩
      obtain ⟨hmem, path, hpath, _⟩ := mem_distinctBundles hmem
      exact ⟨property, List.mem_filter.mpr ⟨hmem, by rw [hpath]; rfl⟩, hnot⟩
  | false =>
    simp only [Bool.false_eq_true, if_false, List.take_one, List.head?_filter,
      head?_distinctBundles]

end PackageJson

/-! ## Tasks -/

namespace EntryPoint

variable {entryPoint : EntryPoint}

theorem tasksFor_eq_nil_iff {processTypings : Bool} {properties : List FormatProperty} :
    entryPoint.tasksFor processTypings properties = []
      ↔ ∀ property ∈ properties, entryPoint.packageJson.isProcessed property.name = true := by
  induction properties with
  | nil => simp [tasksFor]
  | cons first rest ih =>
    rw [tasksFor, List.forall_mem_cons]
    split
    · rename_i hprocessed
      rw [ih]
      exact (and_iff_right hprocessed).symm
    · rename_i hnot
      exact iff_of_false (List.cons_ne_nil _ _) fun h => hnot h.1

/-- A task marks the properties that lead to the bundle of its own. -/
theorem marks_of_mem_tasksFor {task : Task} :
    ∀ {processTypings : Bool} {properties : List FormatProperty},
      task ∈ entryPoint.tasksFor processTypings properties →
      task.property ∈ properties
        ∧ task.marks = entryPoint.packageJson.sameBundle task.property
  | _, [], h => by cases h
  | processTypings, property :: rest, h => by
      rw [tasksFor] at h
      split at h
      · exact (marks_of_mem_tasksFor h).imp_left (List.mem_cons_of_mem _)
      · rcases List.mem_cons.mp h with rfl | h
        · exact ⟨List.mem_cons_self, rfl⟩
        · exact (marks_of_mem_tasksFor h).imp_left (List.mem_cons_of_mem _)

end EntryPoint

theorem Task.name_mem_markedProperties {task : Task} {property : FormatProperty} :
    property.name ∈ task.markedProperties ↔ property ∈ task.marks := by
  unfold Task.markedProperties
  rw [List.mem_append, List.mem_map]
  constructor
  · rintro (⟨other, hother, heq⟩ | htypings)
    · rwa [← FormatProperty.name_injective heq]
    · split at htypings
      · exact absurd (List.mem_singleton.mp htypings) property.name_ne.2.2
      · cases htypings
  · exact fun h => Or.inl ⟨property, h, rfl⟩

/-- Only a task that has the types with it marks them. -/
theorem Task.typings_mem_markedProperties {task : Task} :
    "typings" ∈ task.markedProperties ↔ task.processTypings = true := by
  unfold Task.markedProperties
  rw [List.mem_append, List.mem_map]
  constructor
  · rintro (⟨property, _, heq⟩ | htypings)
    · exact absurd heq property.name_ne.2.2
    · split at htypings
      · assumption
      · cases htypings
  · intro h
    rw [if_pos h]
    exact Or.inr List.mem_cons_self

/-- A task of an entry-point keeps its marks in agreement. -/
theorem EntryPoint.marksAgree_of_mem_tasks {entryPoint : EntryPoint}
    (hagree : entryPoint.packageJson.MarksAgree) {considered : List FormatProperty}
    {allFormats : Bool} {task : Task} (htask : task ∈ entryPoint.tasks considered allFormats) :
    PackageJson.MarksAgree (entryPoint.packageJson.markProcessed task.markedProperties) := by
  refine hagree.markProcessed ?_
  intro one other path hone hother hmarked
  obtain ⟨_, hmarks⟩ := EntryPoint.marks_of_mem_tasksFor htask
  rw [Task.name_mem_markedProperties, hmarks, PackageJson.mem_sameBundle_iff] at hmarked ⊢
  obtain ⟨bundle, hbundle, heq⟩ := hmarked
  rw [hone] at heq
  cases heq
  exact ⟨_, hbundle, hother⟩

/-- A plan for one entry-point has its tasks. -/
theorem pending_of_planTasks {sorted : SortedEntryPoints} {entryPoint : EntryPoint}
    (hsorted : sorted.entryPoints = [entryPoint]) {considered : List FormatProperty}
    {allFormats : Bool} {session after : Session} {queue : TaskQueue}
    (hplan : (planTasks sorted considered allFormats).runFrom session = (.ok queue, after)) :
    queue.pending = entryPoint.tasks considered allFormats := by
  rw [eq_ofTasks_of_planTasks hplan]
  change sorted.tasks considered allFormats = _
  rw [SortedEntryPoints.tasks, hsorted, List.flatMap_singleton]

/-- A loop that goes on after each of its steps comes to its end. -/
theorem exists_runFrom_forIn {α : Type} (items : List α) {body : α → PUnit → Run (ForInStep PUnit)}
    (hbody : ∀ item session,
      ∃ after, (body item ⟨⟩).runFrom session = (.ok (.yield ⟨⟩), after)) (session : Session) :
    ∃ after, (forIn items ⟨⟩ body).runFrom session = (.ok ⟨⟩, after) := by
  induction items generalizing session with
  | nil => exact ⟨session, rfl⟩
  | cons first rest ih =>
    obtain ⟨middle, hfirst⟩ := hbody first session
    obtain ⟨after, hrest⟩ := ih middle
    refine ⟨after, ?_⟩
    rw [List.forIn_cons, Run.runFrom_bind, hfirst]
    exact hrest

theorem exists_runFrom_yield {first : Run PUnit} {session : Session}
    (hfirst : ∃ after, first.runFrom session = (.ok ⟨⟩, after)) :
    ∃ after, (first >>= fun _ => pure (ForInStep.yield PUnit.unit)).runFrom session
      = (.ok (.yield ⟨⟩), after) := by
  obtain ⟨after, hfirst⟩ := hfirst
  exact ⟨after, by rw [Run.runFrom_bind, hfirst]; rfl⟩

/-- Whether a step succeeds behind one that does is decided by the second. -/
theorem exists_runFrom_bind_iff {β : Type} {first : Run PUnit} {next : PUnit → Run β}
    {session : Session} {condition : Prop}
    (hfirst : ∃ middle, first.runFrom session = (.ok ⟨⟩, middle))
    (hnext : ∀ middle, (∃ value after, (next ⟨⟩).runFrom middle = (.ok value, after)) ↔ condition) :
    (∃ value after, (first >>= next).runFrom session = (.ok value, after)) ↔ condition := by
  obtain ⟨middle, hfirst⟩ := hfirst
  rw [Run.runFrom_bind, hfirst]
  exact hnext middle

/-- **A plan comes to a queue just if each of its entry-points has one of the considered
formats.** -/
theorem exists_runFrom_planTasks_iff {sorted : SortedEntryPoints}
    {considered : List FormatProperty} {allFormats : Bool} {session : Session} :
    (∃ queue after, (planTasks sorted considered allFormats).runFrom session = (.ok queue, after))
      ↔ ∀ entryPoint ∈ sorted.entryPoints, entryPoint.isUnprocessable considered = false := by
  unfold planTasks
  refine exists_runFrom_bind_iff (exists_runFrom_forIn _ ?invalid _) fun _ =>
    exists_runFrom_bind_iff (exists_runFrom_forIn _ ?processed _) fun _ => ?_
  case invalid => exact fun invalid session => ⟨_, rfl⟩
  case processed =>
    refine fun entryPoint session => exists_runFrom_yield (exists_runFrom_forIn _ ?notes session)
    exact fun note session => ⟨_, rfl⟩
  have hnone : (sorted.entryPoints.filter (EntryPoint.isUnprocessable considered)).isEmpty = true
      ↔ ∀ entryPoint ∈ sorted.entryPoints, entryPoint.isUnprocessable considered = false := by
    rw [List.isEmpty_iff, List.filter_eq_nil_iff]
    simp only [Bool.not_eq_true]
  rw [← hnone]
  dsimp only
  split
  · rename_i hsome
    refine iff_of_false ?_ (by simpa using hsome)
    rintro ⟨queue, after, h⟩
    cases h
  · rename_i hno
    exact iff_of_true ⟨_, _, rfl⟩ (by simpa using hno)

/-- A plan has a task for an entry-point that it sorts in just if the entry-point
has tasks. -/
theorem exists_mem_pending_iff {sorted : SortedEntryPoints} {considered : List FormatProperty}
    {allFormats : Bool} {session after : Session} {queue : TaskQueue}
    (hplan : (planTasks sorted considered allFormats).runFrom session = (.ok queue, after))
    {entryPoint : EntryPoint} (hmem : entryPoint ∈ sorted.entryPoints) :
    (∃ task ∈ queue.pending, task.entryPoint = entryPoint)
      ↔ entryPoint.tasks considered allFormats ≠ [] := by
  rw [eq_ofTasks_of_planTasks hplan]
  change (∃ task ∈ sorted.tasks considered allFormats, task.entryPoint = entryPoint) ↔ _
  unfold SortedEntryPoints.tasks
  constructor
  · rintro ⟨task, htask, rfl⟩ hnil
    obtain ⟨other, _, htask⟩ := List.mem_flatMap.mp htask
    rw [EntryPoint.entryPoint_of_mem_tasksFor htask] at hnil
    rw [hnil] at htask
    cases htask
  · intro hne
    obtain ⟨task, htask⟩ := List.exists_mem_of_ne_nil _ hne
    exact ⟨task, List.mem_flatMap.mpr ⟨entryPoint, hmem, htask⟩,
      EntryPoint.entryPoint_of_mem_tasksFor htask⟩

end PackageOrder
