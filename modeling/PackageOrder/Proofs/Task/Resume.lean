/-
PackageOrder.Proofs.Task.Resume — a run that was interrupted goes on where it stopped.

Some of the tasks of an entry-point have been marked, one after the other in whatever
order (`MarkedAll`). The description in the file then leads to the same bundles as
before, and a property is processed in it if it was before or one of the tasks marks
it (`description_of_markedAll`). Planning with that description comes to the tasks that
are left (`EntryPoint.resumes`): each bundle is marked as a whole, and the first task
takes the types with it unless they are done.
-/
import PackageOrder.Proofs.Task.Marking

namespace PackageOrder

/-! ## Marking some tasks -/

/-- Some tasks are marked one after the other, each with success. -/
inductive MarkedAll : Session → List Task → Session → Prop where
  | nil (session : Session) : MarkedAll session [] session
  | cons {session middle after : Session} {task : Task} {tasks : List Task}
      (hfirst : (markTask task).run session = (.done, middle))
      (hrest : MarkedAll middle tasks after) : MarkedAll session (task :: tasks) after

/-- What a description has after some tasks were marked in it. -/
structure PackageJson.HasMarksOf (before after : PackageJson) (tasks : List Task) : Prop where
  formatPath? : ∀ property, after.formatPath? property = before.formatPath? property
  isProcessed_iff : ∀ property, after.isProcessed property = true
    ↔ before.isProcessed property = true ∨ ∃ task ∈ tasks, property ∈ task.markedProperties

/-- **The file has the marks of the tasks**, and all else that is asked of it is as it was. -/
theorem description_of_markedAll {entryPoint : EntryPoint} {tasks : List Task}
    {session after : Session} (h : MarkedAll session tasks after)
    (htasks : ∀ task ∈ tasks, task.entryPoint = entryPoint)
    (hcase : session.tree.caseSensitive = true) {before : PackageJson}
    (hloaded : session.tree.packageJson? entryPoint.descriptionFile = some before) :
    ∃ json, after.tree.packageJson? entryPoint.descriptionFile = some json
      ∧ before.HasMarksOf json tasks := by
  induction h generalizing before with
  | nil session => exact ⟨before, hloaded, fun _ => rfl, by simp⟩
  | @cons session middle after task tasks hfirst _ ih =>
    have hentry := htasks task List.mem_cons_self
    have hwrite := writes_of_markTask hfirst
    have hjson : session.tree.descriptionFor task = before := by
      rw [FileTree.descriptionFor, hentry, hloaded, Option.getD_some]
    rw [hjson] at hwrite
    have hmiddle := FileTree.packageJson?_of_writeMarks hcase
      (FileTree.readable_of_packageJson? hloaded) hwrite
    rw [hentry] at hmiddle
    obtain ⟨json, hafter, hformat, hprocessed⟩ :=
      ih (fun other hother => htasks other (List.mem_cons_of_mem _ hother))
        (FileTree.sameOutside_of_writeMarks hcase hwrite).sensitive.2 hmiddle
    refine ⟨json, hafter, fun property => ?_, fun property => ?_⟩
    · rw [hformat, PackageJson.formatPath?_reread, PackageJson.formatPath?_markProcessed]
    · rw [hprocessed, PackageJson.isProcessed_reread, PackageJson.isProcessed_markProcessed,
        Bool.or_eq_true, decide_eq_true_eq, List.exists_mem_cons_iff]
      exact or_assoc.trans or_left_comm

/-! ## Planning by where properties lead -/

namespace PackageJson

variable {one other : PackageJson} (h : ∀ property, other.formatPath? property = one.formatPath? property)
include h

theorem distinctBundles_congr (seen : List String) (considered : List FormatProperty) :
    other.distinctBundles seen considered = one.distinctBundles seen considered := by
  induction considered generalizing seen with
  | nil => rfl
  | cons first rest ih => simp only [distinctBundles, h, ih]

theorem propertiesToProcess_congr (considered : List FormatProperty) (allFormats : Bool) :
    other.propertiesToProcess considered allFormats
      = one.propertiesToProcess considered allFormats := by
  unfold propertiesToProcess
  rw [distinctBundles_congr h]

theorem sameBundle_congr (property : FormatProperty) :
    other.sameBundle property = one.sameBundle property := by
  simp only [sameBundle, h]

end PackageJson

namespace EntryPoint

/-- The task for a property. -/
def taskFor (entryPoint : EntryPoint) (processTypings : Bool) (property : FormatProperty) : Task where
  entryPoint
  property
  marks := entryPoint.packageJson.sameBundle property
  processTypings

/-- The tasks for properties that are all to be compiled. -/
def leading (entryPoint : EntryPoint) (processTypings : Bool) : List FormatProperty → List Task
  | [] => []
  | first :: rest =>
    entryPoint.taskFor processTypings first :: rest.map (entryPoint.taskFor false)

theorem leading_false (entryPoint : EntryPoint) (properties : List FormatProperty) :
    entryPoint.leading false properties = properties.map (entryPoint.taskFor false) := by
  cases properties <;> rfl

/-- The tasks are those for the properties that were not processed. -/
theorem tasksFor_eq (entryPoint : EntryPoint) (processTypings : Bool)
    (properties : List FormatProperty) :
    entryPoint.tasksFor processTypings properties
      = entryPoint.leading processTypings
        (properties.filter fun property => !entryPoint.packageJson.isProcessed property.name) := by
  induction properties generalizing processTypings with
  | nil => rfl
  | cons first rest ih =>
    rw [tasksFor]
    split
    · rename_i hprocessed
      rw [List.filter_cons_of_neg (by simp [hprocessed]), ih]
    · rename_i hnot
      rw [List.filter_cons_of_pos (by simpa using hnot), ih, leading_false]
      rfl

/-! ## The tasks that are left -/

variable {entryPoint : EntryPoint} {considered : List FormatProperty} {allFormats : Bool}

/-- The properties that were not processed. -/
def unprocessed (entryPoint : EntryPoint) (considered : List FormatProperty)
    (allFormats : Bool) : List FormatProperty :=
  (entryPoint.packageJson.propertiesToProcess considered allFormats).filter fun property =>
    !entryPoint.packageJson.isProcessed property.name

theorem tasks_eq (entryPoint : EntryPoint) (considered : List FormatProperty)
    (allFormats : Bool) :
    entryPoint.tasks considered allFormats
      = entryPoint.leading (!entryPoint.packageJson.isProcessed "typings")
        (entryPoint.unprocessed considered allFormats) :=
  entryPoint.tasksFor_eq _ _

/-- A task marks no property to compile but its own. -/
theorem name_mem_markedProperties_iff {task : Task}
    (htask : task ∈ entryPoint.tasks considered allFormats) {property : FormatProperty}
    (hproperty : property ∈ entryPoint.packageJson.propertiesToProcess considered allFormats) :
    property.name ∈ task.markedProperties ↔ task.property = property := by
  obtain ⟨hmem, hmarks⟩ := marks_of_mem_tasksFor htask
  rw [Task.name_mem_markedProperties, hmarks, PackageJson.mem_sameBundle_iff]
  constructor
  · rintro ⟨path, hown, hother⟩
    exact PackageJson.eq_of_mem_propertiesToProcess hmem hproperty (hown.trans hother.symm)
  · rintro rfl
    obtain ⟨path, hpath⟩ :=
      PackageJson.isSome_formatPath?_of_mem_propertiesToProcess hmem
    exact ⟨path, hpath, hpath⟩

theorem nodup_unprocessed (entryPoint : EntryPoint) (considered : List FormatProperty)
    (allFormats : Bool) : (entryPoint.unprocessed considered allFormats).Nodup := by
  refine List.Nodup.filter _ ?_
  refine (entryPoint.packageJson.pairwise_propertiesToProcess considered allFormats).imp ?_
  rintro one other hne rfl
  exact hne rfl

/-- Tasks of different properties are told apart by them. -/
theorem mem_of_property_eq {processTypings : Bool} {properties : List FormatProperty}
    (hnodup : properties.Nodup) {one other : Task}
    (hone : one ∈ entryPoint.leading processTypings properties)
    (hother : other ∈ entryPoint.leading processTypings properties)
    (heq : one.property = other.property) : one = other := by
  cases properties with
  | nil => cases hone
  | cons first rest =>
    obtain ⟨hfirst, _⟩ := List.nodup_cons.mp hnodup
    rcases List.mem_cons.mp hone with rfl | hone
    · rcases List.mem_cons.mp hother with rfl | hother
      · rfl
      · obtain ⟨property, hproperty, rfl⟩ := List.mem_map.mp hother
        have hsame : first = property := heq
        exact absurd (hsame ▸ hproperty) hfirst
    · obtain ⟨property, hproperty, rfl⟩ := List.mem_map.mp hone
      rcases List.mem_cons.mp hother with rfl | hother
      · have hsame : property = first := heq
        exact absurd (hsame ▸ hproperty) hfirst
      · obtain ⟨property', _, rfl⟩ := List.mem_map.mp hother
        exact congrArg (entryPoint.taskFor false) heq

open scoped Classical in
/-- The tasks outside of some are for the properties that none of these is for; the first
of them has the types with it if none of these has. -/
theorem leading_left {processTypings : Bool} {properties : List FormatProperty}
    (hnodup : properties.Nodup) {done : List Task}
    (hdone : ∀ task ∈ done, task ∈ entryPoint.leading processTypings properties) :
    (entryPoint.leading processTypings properties).filter (· ∉ done)
      = entryPoint.leading (processTypings && ¬ ∃ task ∈ done, task.processTypings = true)
        (properties.filter fun property => ¬ ∃ task ∈ done, task.property = property) := by
  have hmem : ∀ task ∈ entryPoint.leading processTypings properties,
      task ∈ done ↔ ∃ other ∈ done, other.property = task.property := by
    intro task htask
    refine ⟨fun h => ⟨task, h, rfl⟩, ?_⟩
    rintro ⟨other, hother, heq⟩
    rwa [← mem_of_property_eq hnodup (hdone other hother) htask heq]
  cases properties with
  | nil => rfl
  | cons first rest =>
    have hrest : (rest.map (entryPoint.taskFor false)).filter (· ∉ done)
        = (rest.filter fun property => ¬ ∃ task ∈ done, task.property = property).map
          (entryPoint.taskFor false) := by
      rw [List.filter_map]
      refine congrArg _ (List.filter_congr fun property hproperty => ?_)
      refine decide_eq_decide.mpr (not_congr (hmem _ ?_))
      exact List.mem_cons_of_mem _ (List.mem_map_of_mem hproperty)
    have hfirst : entryPoint.taskFor processTypings first ∈ done
        ↔ ∃ task ∈ done, task.property = first := hmem _ List.mem_cons_self
    rw [leading, List.filter_cons, List.filter_cons, hrest]
    by_cases hin : entryPoint.taskFor processTypings first ∈ done
    · -- the types were with the first, or done before
      have htypings : (processTypings && ¬ ∃ task ∈ done, task.processTypings = true) = false := by
        cases processTypings with
        | false => rfl
        | true =>
          rw [Bool.true_and, decide_eq_false_iff_not, not_not]
          exact ⟨_, hin, rfl⟩
      rw [if_neg (by simpa using hin), if_neg (by simpa using hfirst.mp hin), htypings,
        leading_false]
    · -- none but the first has the types with it
      have htypings : ¬ ∃ task ∈ done, task.processTypings = true := by
        rintro ⟨task, htask, htypings⟩
        rcases List.mem_cons.mp (hdone task htask) with rfl | hlater
        · exact hin htask
        · obtain ⟨property, _, rfl⟩ := List.mem_map.mp hlater
          cases htypings
      rw [if_pos (by simpa using hin), if_pos (by simpa using fun h => hin (hfirst.mpr h)),
        decide_eq_true htypings, Bool.and_true]
      rfl

/-- What tasks a description leads to is decided by where its properties lead. -/
theorem leading_again {json : PackageJson}
    (h : ∀ property, json.formatPath? property = entryPoint.packageJson.formatPath? property)
    (processTypings : Bool) (properties : List FormatProperty) :
    ({ entryPoint with packageJson := json } : EntryPoint).leading processTypings properties
      = (entryPoint.leading processTypings properties).map fun task =>
        { task with entryPoint := { entryPoint with packageJson := json } } := by
  have hmarks : ∀ property, json.sameBundle property = entryPoint.packageJson.sameBundle property :=
    PackageJson.sameBundle_congr h
  cases properties with
  | nil => rfl
  | cons first rest => simp [leading, taskFor, hmarks]

section Resumed

variable {json : PackageJson} {done : List Task}
  (hdone : ∀ task ∈ done, task ∈ entryPoint.tasks considered allFormats)
  (hjson : entryPoint.packageJson.HasMarksOf json done)
include hdone hjson

/-- A property that was not processed is left if none of the tasks is for it. -/
theorem unprocessed_resumed :
    ({ entryPoint with packageJson := json } : EntryPoint).unprocessed considered allFormats
      = (entryPoint.unprocessed considered allFormats).filter
        fun property => ¬ ∃ task ∈ done, task.property = property := by
  unfold unprocessed
  rw [PackageJson.propertiesToProcess_congr hjson.formatPath?, List.filter_filter]
  refine List.filter_congr fun property hproperty => ?_
  rw [Bool.eq_iff_iff, Bool.and_eq_true, Bool.not_eq_true', Bool.not_eq_true', decide_eq_true_eq,
    ← Bool.not_eq_true, ← Bool.not_eq_true, hjson.isProcessed_iff, not_or, and_comm]
  refine and_congr_left fun _ => not_congr (exists_congr fun task => and_congr_right fun htask => ?_)
  exact name_mem_markedProperties_iff (hdone task htask) hproperty

omit hdone in
/-- The types are processed if they were or one of the tasks has them with it. -/
theorem isProcessed_typings_resumed : json.isProcessed "typings" = true
    ↔ entryPoint.packageJson.isProcessed "typings" = true
      ∨ ∃ task ∈ done, task.processTypings = true := by
  rw [hjson.isProcessed_iff]
  refine or_congr_right (exists_congr fun task => and_congr_right fun _ => ?_)
  exact Task.typings_mem_markedProperties

open scoped Classical in
/-- **Planning comes to the tasks that are left.** -/
theorem tasks_resumed :
    ({ entryPoint with packageJson := json } : EntryPoint).tasks considered allFormats
      = ((entryPoint.tasks considered allFormats).filter (· ∉ done)).map fun task =>
        { task with entryPoint := { entryPoint with packageJson := json } } := by
  have htypings : (!json.isProcessed "typings")
      = (!entryPoint.packageJson.isProcessed "typings"
        && ¬ ∃ task ∈ done, task.processTypings = true) := by
    rw [Bool.eq_iff_iff, Bool.and_eq_true, Bool.not_eq_true', Bool.not_eq_true',
      decide_eq_true_eq, ← Bool.not_eq_true, ← Bool.not_eq_true, ← not_or]
    exact not_congr (isProcessed_typings_resumed hjson)
  have hleft := leading_left (entryPoint.nodup_unprocessed considered allFormats)
    (fun task htask => entryPoint.tasks_eq considered allFormats ▸ hdone task htask)
  rw [tasks_eq, unprocessed_resumed hdone hjson, leading_again hjson.formatPath?,
    tasks_eq, hleft, htypings]

end Resumed

open scoped Classical in
/-- **A run that was interrupted goes on with the tasks that are left**, in their order:
a plan with the description that is in the file when some tasks of the entry-point were
marked, in any order, has the tasks of the first plan but these. It has none if all were
marked. -/
theorem resumes {sorted : SortedEntryPoints} (hsorted : sorted.entryPoints = [entryPoint])
    {start finish : Session} {queue : TaskQueue}
    (hplan : (planTasks sorted considered allFormats).runFrom start = (.ok queue, finish))
    {session after : Session} (hcase : session.tree.caseSensitive = true)
    (hloaded : session.tree.packageJson? entryPoint.descriptionFile = some entryPoint.packageJson)
    {done : List Task} (hdone : ∀ task ∈ done, task ∈ queue.pending)
    (hmarked : MarkedAll session done after) :
    ∃ json, after.tree.packageJson? entryPoint.descriptionFile = some json
      ∧ ∃ left finish',
        (planTasks { sorted with entryPoints := [{ entryPoint with packageJson := json }] }
            considered allFormats).runFrom after = (.ok left, finish')
          ∧ left.pending = (queue.pending.filter (· ∉ done)).map (fun task =>
              { task with entryPoint := { entryPoint with packageJson := json } })
          ∧ ((∀ task ∈ queue.pending, task ∈ done) → left.pending = []) := by
  have hprocessable := exists_runFrom_planTasks_iff.mp ⟨queue, finish, hplan⟩ entryPoint
    (hsorted ▸ List.mem_singleton_self entryPoint)
  rw [pending_of_planTasks hsorted hplan] at hdone ⊢
  obtain ⟨json, hafter, hjson⟩ := description_of_markedAll hmarked
    (fun task htask => entryPoint_of_mem_tasksFor (hdone task htask)) hcase hloaded
  set again : EntryPoint := { entryPoint with packageJson := json }
  have hagain : again.isUnprocessable considered = false := by
    rw [← hprocessable]
    simp only [isUnprocessable, formatPath?, again, hjson.formatPath?]
  have hplan' : ∃ left finish', (planTasks { sorted with entryPoints := [again] } considered
      allFormats).runFrom after = (.ok left, finish') :=
    exists_runFrom_planTasks_iff.mpr (List.forall_mem_singleton.mpr hagain)
  obtain ⟨left, finish', hleft⟩ := hplan'
  have htasks : left.pending = ((entryPoint.tasks considered allFormats).filter (· ∉ done)).map
      fun task => { task with entryPoint := again } := by
    rw [pending_of_planTasks rfl hleft, tasks_resumed hdone hjson]
  refine ⟨json, hafter, left, finish', hleft, htasks, fun hall => ?_⟩
  rw [htasks, List.filter_eq_nil_iff.mpr fun task htask => by simpa using hall task htask,
    List.map_nil]

/-- A folder with a description that has two bundles, one of them by two properties. -/
def twoBundlesTree : FileTree where
  root := [("a", .folder [("package.json", .file
    "\x7b\"es2015\": \"i.js\", \"esm2015\": \"i.js\", \"esm5\": \"o.js\"\x7d".toUTF8)])]

/-- The entry-point in it. -/
def twoBundles : EntryPoint where
  __ := (default : EntryPoint)
  path := "/a"
  packageJson := (twoBundlesTree.packageJson? "/a/package.json").getD []

/-- What is to be planned of it. -/
def twoBundlesPlan : SortedEntryPoints where
  entryPoints := [twoBundles]
  invalid := []
  ignored := []
  graph := {}

theorem tasks_twoBundles : twoBundles.tasks [.esm2015, .es2015, .esm5] true
    = [twoBundles.taskFor true .esm2015, twoBundles.taskFor false .esm5] := by
  have hunprocessed : twoBundles.unprocessed [.esm2015, .es2015, .esm5] true
      = [.esm2015, .esm5] := by
    decide +kernel
  have htypings : twoBundles.packageJson.isProcessed "typings" = false := by decide +kernel
  rw [tasks_eq, hunprocessed, htypings]
  rfl

theorem packageJson?_twoBundles :
    twoBundlesTree.packageJson? twoBundles.descriptionFile = some twoBundles.packageJson := by
  have hfile : twoBundles.descriptionFile = "/a/package.json" := by decide +kernel
  have hloaded : (twoBundlesTree.packageJson? "/a/package.json").isSome = true := by decide +kernel
  obtain ⟨json, hjson⟩ := Option.isSome_iff_exists.mp hloaded
  rw [hfile, twoBundles, hjson, Option.getD_some]

theorem exists_markedAll_twoBundles :
    ∃ after, MarkedAll { tree := twoBundlesTree } [twoBundles.taskFor true .esm2015] after := by
  have hwritable : (twoBundlesTree.writeMarks (twoBundles.taskFor true .esm2015)
      (twoBundlesTree.descriptionFor (twoBundles.taskFor true .esm2015))).toBool = true := by
    decide +kernel
  have hrun : ∃ after, (markTask (twoBundles.taskFor true .esm2015)).run { tree := twoBundlesTree }
      = (.done, after) := exists_markTask_run rfl hwritable
  exact hrun.imp fun after h => .cons h (.nil after)

/-- When one of its bundles was marked the other one is left. -/
theorem resumes_twoBundles :
    ∃ queue finish after json left finish',
      (planTasks twoBundlesPlan [.esm2015, .es2015, .esm5] true).runFrom { tree := twoBundlesTree }
          = (.ok queue, finish)
        ∧ queue.pending = [twoBundles.taskFor true .esm2015, twoBundles.taskFor false .esm5]
        ∧ MarkedAll { tree := twoBundlesTree } [twoBundles.taskFor true .esm2015] after
        ∧ after.tree.packageJson? twoBundles.descriptionFile = some json
        ∧ (planTasks
            { twoBundlesPlan with entryPoints := [{ twoBundles with packageJson := json }] }
            [.esm2015, .es2015, .esm5] true).runFrom after = (.ok left, finish')
        ∧ left.pending = [{ twoBundles.taskFor false .esm5 with
            entryPoint := { twoBundles with packageJson := json } }] := by
  have hprocessable : ∀ entryPoint ∈ twoBundlesPlan.entryPoints,
      entryPoint.isUnprocessable [.esm2015, .es2015, .esm5] = false := by
    decide +kernel
  obtain ⟨queue, finish, hplan⟩ := exists_runFrom_planTasks_iff.mpr hprocessable
  have hpending := (pending_of_planTasks rfl hplan).trans tasks_twoBundles
  obtain ⟨after, hmarked⟩ := exists_markedAll_twoBundles
  have hdone : ∀ task ∈ [twoBundles.taskFor true .esm2015], task ∈ queue.pending := by
    rw [hpending, List.forall_mem_singleton]
    exact List.mem_cons_self
  have hloaded : ({ tree := twoBundlesTree } : Session).tree.packageJson? twoBundles.descriptionFile
      = some twoBundles.packageJson := packageJson?_twoBundles
  obtain ⟨json, hafter, left, finish', hleft, htaken, _⟩ :=
    resumes rfl hplan rfl hloaded hdone hmarked
  refine ⟨queue, finish, after, json, left, finish', hplan, hpending, hmarked, hafter, hleft, ?_⟩
  have hne : twoBundles.taskFor false .esm5 ∉ [twoBundles.taskFor true .esm2015] := by
    rw [List.mem_singleton]
    exact fun heq => nomatch congrArg Task.property heq
  rw [htaken, hpending, List.filter_cons_of_neg (by simp),
    List.filter_cons_of_pos (by simpa using hne),
    List.filter_nil, List.map_singleton]

end EntryPoint

end PackageOrder
