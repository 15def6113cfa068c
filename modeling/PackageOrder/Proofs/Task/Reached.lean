/-
PackageOrder.Proofs.Task.Reached — the states of a queue that is used as it
should be: tasks are taken from it in any order of takings and reports, and what
is taken is reported once, as completed or as failed.

* `QueueRun` — a queue with the history of its tasks; `QueueRun.Step`,
  `QueueRun.Reachable`.
* `QueueRun.Accounted` — the invariant. A failure spoils its entry-point and
  all that depends on it (`QueueRun.Spoiled`): nothing of them waits any more,
  and their counters are zero although one of their tasks may be under way. The
  counters of the others are exact.
* `QueueRun.takes_in_order` — what may be said of each task that is taken.
-/
import PackageOrder.Proofs.Task.Queue

namespace PackageOrder

open Relation (ReflTransGen TransGen)

/-- A queue in use and what has become of its tasks. -/
structure QueueRun where
  queue : TaskQueue
  /-- The tasks that were taken and not reported. -/
  running : List Task := []
  completed : List Task := []
  failed : List Task := []
  /-- The tasks that went when others failed. -/
  dropped : List Task := []
  /-- The entry-points that lost tasks when those of others failed. -/
  skipped : List EntryPoint := []

namespace QueueRun

variable {α : Type} {graph : Graph α} {tasks : List Task}

/-- Whether a task goes when another one fails. -/
def drops (run : QueueRun) (task other : Task) : Bool :=
  (run.queue.droppedBy task).contains other.path

/-- A task is taken, or one that was taken is reported. -/
inductive Step : QueueRun → QueueRun → Prop where
  | take {run : QueueRun} {task : Task} {queue : TaskQueue}
      (hnext : run.queue.next? = some (task, queue)) :
      Step run { run with queue, running := task :: run.running }
  | complete {run : QueueRun} {task : Task} {before after : List Task}
      (hrunning : run.running = before ++ task :: after) :
      Step run
        { run with
          queue := run.queue.complete task
          running := before ++ after
          completed := run.completed ++ [task] }
  | fail {run : QueueRun} {task : Task} {before after : List Task}
      (hrunning : run.running = before ++ task :: after) :
      Step run
        { run with
          queue := run.queue.fail task
          running := before ++ after
          failed := run.failed ++ [task]
          dropped := run.dropped ++ run.queue.pending.filter (run.drops task)
          skipped := run.skipped ++ run.queue.skippedBy task }

/-- The states that a new queue of some tasks comes to. -/
def Reachable (tasks : List Task) (graph : Graph α) : QueueRun → Prop :=
  ReflTransGen Step { queue := TaskQueue.ofTasks tasks graph }

/-! ## The invariant -/

/-- A task of the entry-point has failed, or one of what it depends on. -/
def Spoiled (run : QueueRun) (graph : Graph α) (path : String) : Prop :=
  ∃ task ∈ run.failed, path = task.path ∨ graph.DependsOn path task.path

/-- Every task is accounted for, and the counters are exact but for what a
failure has spoiled. -/
structure Accounted (tasks : List Task) (graph : Graph α) (run : QueueRun) : Prop where
  blockers : run.queue.blockers = (TaskQueue.ofTasks tasks graph).blockers
  dependants : run.queue.dependants = (TaskQueue.ofTasks tasks graph).dependants
  inProgress : run.queue.inProgress = run.running.map Task.path
  /-- Of one entry-point at most one task is under way or has failed. -/
  distinct : ((run.running ++ run.failed).map Task.path).Nodup
  /-- The tasks of an entry-point are taken in their order. -/
  parted : ∀ path, tasksOf path tasks
    = tasksOf path run.completed ++ tasksOf path run.failed ++ tasksOf path run.running
      ++ tasksOf path run.queue.pending ++ tasksOf path run.dropped
  clean : ∀ task ∈ run.queue.pending, ¬ run.Spoiled graph task.path
  dropped : ∀ task ∈ run.dropped, run.Spoiled graph task.path
  counted : ∀ path, ¬ run.Spoiled graph path →
    run.queue.unfinished path
      = (tasksOf path run.running).length + (tasksOf path run.queue.pending).length
  spoiled : ∀ path, run.Spoiled graph path → run.queue.unfinished path = 0

theorem Spoiled.of_dependsOn {run : QueueRun} {path other : String}
    (hd : graph.DependsOn path other) (h : run.Spoiled graph other) : run.Spoiled graph path := by
  obtain ⟨task, htask, rfl | ho⟩ := h
  · exact ⟨task, htask, Or.inr hd⟩
  · exact ⟨task, htask, Or.inr (TransGen.trans hd ho)⟩

/-- A failure spoils its entry-point and what depends on it. -/
theorem spoiled_fail {run after : QueueRun} {task : Task}
    (hfailed : after.failed = run.failed ++ [task]) (path : String) :
    after.Spoiled graph path
      ↔ run.Spoiled graph path ∨ path = task.path ∨ graph.DependsOn path task.path := by
  simp only [Spoiled, hfailed, List.mem_append, List.mem_singleton, or_and_right, exists_or,
    exists_eq_left]

/-- What waits after a failure. -/
theorem tasksOf_pending_fail (run : QueueRun) (task : Task) (path : String) :
    tasksOf path (run.queue.fail task).pending
      = if path ∈ run.queue.droppedBy task then [] else tasksOf path run.queue.pending := by
  rw [TaskQueue.fail, tasksOf_filter fun path => !(run.queue.droppedBy task).contains path]
  by_cases hpath : path ∈ run.queue.droppedBy task <;> simp [hpath]

/-- What a failure drops. -/
theorem tasksOf_lost (run : QueueRun) (task : Task) (path : String) :
    tasksOf path (run.queue.pending.filter (run.drops task))
      = if path ∈ run.queue.droppedBy task then tasksOf path run.queue.pending else [] := by
  have hfilter := tasksOf_filter (run.queue.droppedBy task).contains path run.queue.pending
  simp only [List.contains_iff_mem] at hfilter
  exact hfilter

/-- Before anything is taken all tasks wait. -/
theorem accounted_start (tasks : List Task) (graph : Graph α) :
    Accounted tasks graph { queue := TaskQueue.ofTasks tasks graph } where
  blockers := rfl
  dependants := rfl
  inProgress := rfl
  distinct := List.nodup_nil
  parted := by
    intro path
    simp [TaskQueue.ofTasks]
  clean := by
    rintro _ _ ⟨_, h, _⟩
    cases h
  dropped := by
    intro _ h
    cases h
  counted := by
    intro path _
    rw [TaskQueue.unfinished_ofTasks]
    simp [TaskQueue.ofTasks]
  spoiled := by
    rintro _ ⟨_, h, _⟩
    cases h

namespace Accounted

variable {run : QueueRun}

/-- What has become of tasks has become of the tasks of the list. -/
theorem mem_tasks (h : Accounted tasks graph run) {task : Task}
    (htask : task ∈ run.completed ++ run.failed ++ run.running ++ run.queue.pending
      ++ run.dropped) : task ∈ tasks := by
  have hmem : task ∈ tasksOf task.path tasks := by
    rw [h.parted]
    simpa using htask
  exact (mem_tasksOf.mp hmem).1

theorem mem_of_pending (h : Accounted tasks graph run) {task : Task}
    (htask : task ∈ run.queue.pending) : task ∈ tasks :=
  h.mem_tasks (by simp [htask])

theorem mem_of_running (h : Accounted tasks graph run) {task : Task}
    (htask : task ∈ run.running) : task ∈ tasks :=
  h.mem_tasks (by simp [htask])

theorem mem_of_failed (h : Accounted tasks graph run) {task : Task}
    (htask : task ∈ run.failed) : task ∈ tasks :=
  h.mem_tasks (by simp [htask])

/-- What waits has lost no task. -/
theorem tasksOf_dropped_eq_nil (h : Accounted tasks graph run) {path : String}
    (hclean : ¬ run.Spoiled graph path) : tasksOf path run.dropped = [] := by
  rw [tasksOf_eq_nil]
  rintro task htask rfl
  exact hclean (h.dropped task htask)

theorem tasksOf_pending_eq_nil (h : Accounted tasks graph run) {path : String}
    (hspoiled : run.Spoiled graph path) : tasksOf path run.queue.pending = [] := by
  rw [tasksOf_eq_nil]
  rintro task htask rfl
  exact h.clean task htask hspoiled

theorem mem_droppedBy (h : Accounted tasks graph run) (hgraph : graph.Coherent) {task : Task}
    (htask : task ∈ tasks) (path : String) :
    path ∈ run.queue.droppedBy task
      ↔ path = task.path ∨ (path ∈ TaskQueue.pathsOf tasks ∧ graph.DependsOn path task.path) := by
  rw [← TaskQueue.mem_droppedBy_ofTasks tasks graph hgraph htask, TaskQueue.droppedBy,
    TaskQueue.droppedBy, TaskQueue.dependantsOf, TaskQueue.dependantsOf, h.dependants]

theorem drops_iff (h : Accounted tasks graph run) (hgraph : graph.Coherent) {task other : Task}
    (htask : task ∈ tasks) (hother : other ∈ tasks) :
    run.drops task other = true
      ↔ other.path = task.path ∨ graph.DependsOn other.path task.path := by
  rw [drops, List.contains_iff_mem, h.mem_droppedBy hgraph htask]
  simp [TaskQueue.mem_pathsOf.mpr ⟨other, hother, rfl⟩]

theorem mem_blockersOf (h : Accounted tasks graph run) (hgraph : graph.Coherent) {task : Task}
    (htask : task ∈ tasks) (other : String) :
    other ∈ run.queue.blockersOf task.path
      ↔ graph.DependsOn task.path other ∧ StartsBefore tasks other task.path := by
  rw [TaskQueue.blockersOf, h.blockers, ← TaskQueue.blockersOf]
  exact TaskQueue.mem_blockersOf_ofTasks tasks graph hgraph
    (TaskQueue.mem_pathsOf.mpr ⟨task, htask, rfl⟩) other

theorem unfinished_eq_zero_iff (h : Accounted tasks graph run) {path : String}
    (hclean : ¬ run.Spoiled graph path) :
    run.queue.unfinished path = 0
      ↔ ∀ left ∈ run.queue.pending ++ run.running, left.path ≠ path := by
  rw [h.counted path hclean, Nat.add_comm, ← List.length_append, ← tasksOf_append,
    List.length_eq_zero_iff, tasksOf_eq_nil]

/-! ### One step -/

/-- Only a task of what has nothing under way is taken, and the first of those
left. -/
theorem take (h : Accounted tasks graph run) {task : Task} {queue : TaskQueue}
    (hnext : run.queue.next? = some (task, queue)) :
    Accounted tasks graph { run with queue, running := task :: run.running } := by
  obtain ⟨front, back, hpending, rfl, havailable, hfront⟩ := TaskQueue.next?_eq_some hnext
  have hwaits : task ∈ run.queue.pending := by simp [hpending]
  have hclean : ¬ run.Spoiled graph task.path := h.clean task hwaits
  -- nothing of its path is under way, so taking it keeps the order of each path
  have hidle : ∀ other ∈ run.running, other.path ≠ task.path := by
    intro other ho heq
    apply (TaskQueue.isAvailable_iff.mp havailable).1
    rw [h.inProgress, ← heq]
    exact List.mem_map_of_mem ho
  have hpart : ∀ path, tasksOf path (task :: run.running) ++ tasksOf path (front ++ back)
      = tasksOf path run.running ++ tasksOf path run.queue.pending := by
    intro path
    rw [hpending, tasksOf_append, tasksOf_append, tasksOf_cons, tasksOf_cons]
    split
    · rename_i hpath
      subst hpath
      simp [tasksOf_eq_nil.mpr hidle, tasksOf_eq_nil.mpr hfront]
    · rfl
  refine ⟨h.blockers, h.dependants, ?_, ?_, ?_, ?_, h.dropped, ?_, h.spoiled⟩
  · simp [h.inProgress]
  · rw [List.cons_append, List.map_cons, List.nodup_cons]
    refine ⟨?_, h.distinct⟩
    intro hmem
    obtain ⟨other, ho, heq⟩ := List.mem_map.mp hmem
    rcases List.mem_append.mp ho with ho | ho
    · exact hidle other ho heq
    · exact hclean ⟨other, ho, Or.inl heq.symm⟩
  · intro path
    rw [h.parted path, List.append_assoc _ _ (tasksOf path run.queue.pending), ← hpart path,
      ← List.append_assoc _ _ (tasksOf path (front ++ back))]
  · intro other ho
    apply h.clean other
    rw [hpending]
    simp only [List.mem_append, List.mem_cons] at ho ⊢
    exact ho.imp_right Or.inr
  · intro path hpath
    have hlength := congrArg List.length (hpart path)
    rw [List.length_append, List.length_append] at hlength
    rw [hlength]
    exact h.counted path hpath

/-- Of what has a task under way no other one is, and none has failed. -/
theorem alone (h : Accounted tasks graph run) {task : Task} {before after : List Task}
    (hrunning : run.running = before ++ task :: after) :
    ∀ other ∈ before ++ after ++ run.failed, other.path ≠ task.path := by
  have hdistinct := h.distinct
  rw [hrunning, List.append_assoc, List.cons_append, List.map_append, List.map_cons,
    List.nodup_middle, List.nodup_cons, ← List.map_append, ← List.append_assoc] at hdistinct
  intro other ho heq
  apply hdistinct.1
  rw [← heq]
  exact List.mem_map_of_mem ho

/-- What is under way once a task is no more. -/
theorem inProgress_stop (h : Accounted tasks graph run) {task : Task} {before after : List Task}
    (hrunning : run.running = before ++ task :: after) :
    (run.queue.stop task.path).inProgress = (before ++ after).map Task.path := by
  rw [TaskQueue.stop, h.inProgress, hrunning, List.map_append, List.map_cons, List.filter_append,
    List.filter_cons_of_neg (by simp), ← List.filter_append, ← List.map_append,
    List.filter_eq_self]
  intro path hpath
  obtain ⟨other, ho, rfl⟩ := List.mem_map.mp hpath
  simpa using h.alone hrunning other (List.mem_append_left _ ho)

theorem tasksOf_alone (h : Accounted tasks graph run) {task : Task} {before after : List Task}
    (hrunning : run.running = before ++ task :: after) :
    tasksOf task.path run.running = [task] ∧ tasksOf task.path (before ++ after) = []
      ∧ tasksOf task.path run.failed = [] := by
  have hother := h.alone hrunning
  have hbefore : tasksOf task.path before = [] :=
    tasksOf_eq_nil.mpr fun other ho => hother other (by simp [ho])
  have hafter : tasksOf task.path after = [] :=
    tasksOf_eq_nil.mpr fun other ho => hother other (by simp [ho])
  have hfailed : tasksOf task.path run.failed = [] :=
    tasksOf_eq_nil.mpr fun other ho => hother other (by simp [ho])
  rw [hrunning, tasksOf_append, tasksOf_append, tasksOf_cons, if_pos rfl, hbefore, hafter]
  exact ⟨rfl, rfl, hfailed⟩

theorem complete (h : Accounted tasks graph run) {task : Task} {before after : List Task}
    (hrunning : run.running = before ++ task :: after) :
    Accounted tasks graph
      { run with
        queue := run.queue.complete task
        running := before ++ after
        completed := run.completed ++ [task] } := by
  obtain ⟨hone, hnone, hfailed⟩ := h.tasksOf_alone hrunning
  refine ⟨h.blockers, h.dependants, h.inProgress_stop hrunning, ?_, ?_, h.clean, h.dropped, ?_, ?_⟩
  · have hsub : ((before ++ after) ++ run.failed).Sublist (run.running ++ run.failed) := by
      rw [hrunning]
      exact ((List.sublist_cons_self task after).append_left before).append_right _
    exact h.distinct.sublist (hsub.map _)
  · intro path
    dsimp only
    rw [h.parted path, tasksOf_append path run.completed, tasksOf_cons]
    by_cases hpath : path = task.path
    · subst hpath
      rw [hone, hnone, hfailed]
      simp [TaskQueue.complete, TaskQueue.stop]
    · rw [if_neg (Ne.symm hpath), tasksOf_nil, List.append_nil, hrunning,
        tasksOf_middle_of_ne hpath]
      rfl
  · intro path hpath
    dsimp only
    rw [TaskQueue.unfinished_complete, h.counted path hpath]
    by_cases hpath : path = task.path
    · subst hpath
      rw [if_pos rfl, hone, hnone]
      simp [TaskQueue.complete, TaskQueue.stop]
    · rw [if_neg hpath, hrunning, tasksOf_middle_of_ne hpath]
      rfl
  · intro path hpath
    dsimp only
    rw [TaskQueue.unfinished_complete, h.spoiled path hpath]
    split <;> rfl

/-- A failing task is moved to those that failed, and what goes with it to those
that were dropped. -/
theorem parted_fail (h : Accounted tasks graph run) {task : Task} {before after : List Task}
    (hrunning : run.running = before ++ task :: after) (path : String) :
    tasksOf path tasks
      = tasksOf path run.completed ++ tasksOf path (run.failed ++ [task])
        ++ tasksOf path (before ++ after) ++ tasksOf path (run.queue.fail task).pending
        ++ tasksOf path (run.dropped ++ run.queue.pending.filter (run.drops task)) := by
  obtain ⟨hone, hnone, hfailed⟩ := h.tasksOf_alone hrunning
  have hends : tasksOf path (run.failed ++ [task]) ++ tasksOf path (before ++ after)
      = tasksOf path run.failed ++ tasksOf path run.running := by
    by_cases hpath : path = task.path
    · subst hpath
      rw [hone, hnone, tasksOf_append, hfailed, tasksOf_cons, if_pos rfl]
      rfl
    · rw [hrunning, tasksOf_middle_of_ne hpath, tasksOf_middle_of_ne hpath, List.append_nil]
  have hleft : tasksOf path (run.queue.fail task).pending
        ++ tasksOf path (run.dropped ++ run.queue.pending.filter (run.drops task))
      = tasksOf path run.queue.pending ++ tasksOf path run.dropped := by
    rw [tasksOf_pending_fail, tasksOf_append, tasksOf_lost]
    by_cases hpath : path ∈ run.queue.droppedBy task
    · rw [if_pos hpath, if_pos hpath, List.nil_append]
      by_cases hspoiled : run.Spoiled graph path
      · rw [h.tasksOf_pending_eq_nil hspoiled, List.append_nil, List.nil_append]
      · rw [h.tasksOf_dropped_eq_nil hspoiled, List.append_nil, List.nil_append]
    · rw [if_neg hpath, if_neg hpath, List.append_nil]
  rw [h.parted path, List.append_assoc _ (tasksOf path run.failed), ← hends,
    List.append_assoc _ (tasksOf path run.queue.pending), ← hleft]
  simp only [List.append_assoc]

/-- The counters of what a failure spoils become zero, or were zero before. -/
theorem unfinished_fail_eq_zero (h : Accounted tasks graph run) (hgraph : graph.Coherent)
    {task : Task} (htask : task ∈ tasks) {path : String}
    (hspoiled : run.Spoiled graph path ∨ path = task.path ∨ graph.DependsOn path task.path) :
    (run.queue.fail task).unfinished path = 0 := by
  rw [TaskQueue.unfinished_fail]
  split
  · rfl
  · rename_i hpath
    by_cases hbefore : run.Spoiled graph path
    · exact h.spoiled path hbefore
    · -- it has no tasks, so it was not dropped
      have hno : path ∉ TaskQueue.pathsOf tasks := by
        intro hmem
        apply hpath
        rw [h.mem_droppedBy hgraph htask]
        exact (hspoiled.resolve_left hbefore).imp_right (And.intro hmem)
      rw [h.unfinished_eq_zero_iff hbefore]
      rintro left hleft rfl
      apply hno
      rw [TaskQueue.mem_pathsOf]
      rcases List.mem_append.mp hleft with hleft | hleft
      · exact ⟨left, h.mem_of_pending hleft, rfl⟩
      · exact ⟨left, h.mem_of_running hleft, rfl⟩

theorem fail (h : Accounted tasks graph run) (hgraph : graph.Coherent) {task : Task}
    {before after : List Task} (hrunning : run.running = before ++ task :: after) :
    Accounted tasks graph
      { run with
        queue := run.queue.fail task
        running := before ++ after
        failed := run.failed ++ [task]
        dropped := run.dropped ++ run.queue.pending.filter (run.drops task)
        skipped := run.skipped ++ run.queue.skippedBy task } := by
  have htask : task ∈ tasks := h.mem_of_running (by simp [hrunning])
  refine ⟨h.blockers, h.dependants, h.inProgress_stop hrunning, ?_, h.parted_fail hrunning, ?_, ?_,
    ?_, ?_⟩
  · have hperm : ((before ++ after) ++ (run.failed ++ [task])).Perm (run.running ++ run.failed) := by
      rw [hrunning, ← List.append_assoc]
      refine List.perm_append_comm.trans ?_
      simpa using List.perm_middle.symm
    exact (hperm.map _).nodup_iff.mpr h.distinct
  · intro other ho
    obtain ⟨hwaits, hkept⟩ := List.mem_filter.mp ho
    have hother := h.mem_of_pending hwaits
    rw [spoiled_fail rfl]
    rintro (hspoiled | hdrop)
    · exact h.clean other hwaits hspoiled
    · have hdrops : run.drops task other = true := (h.drops_iff hgraph htask hother).mpr hdrop
      rw [drops, List.contains_iff_mem] at hdrops
      simp [hdrops] at hkept
  · intro other ho
    rw [spoiled_fail rfl]
    rcases List.mem_append.mp ho with ho | ho
    · exact Or.inl (h.dropped other ho)
    · obtain ⟨hwaits, hdrops⟩ := List.mem_filter.mp ho
      exact Or.inr ((h.drops_iff hgraph htask (h.mem_of_pending hwaits)).mp hdrops)
  · intro path hclean
    rw [spoiled_fail rfl, not_or, not_or] at hclean
    obtain ⟨hclean, hne, hd⟩ := hclean
    have hpath : path ∉ run.queue.droppedBy task := by
      rw [h.mem_droppedBy hgraph htask]
      rintro (heq | ⟨_, hdep⟩)
      · exact hne heq
      · exact hd hdep
    dsimp only
    rw [TaskQueue.unfinished_fail, if_neg hpath, h.counted path hclean, tasksOf_pending_fail,
      if_neg hpath, hrunning, tasksOf_middle_of_ne hne]
  · intro path hspoiled
    rw [spoiled_fail rfl] at hspoiled
    exact h.unfinished_fail_eq_zero hgraph htask hspoiled

end Accounted

/-- Each step keeps account of the tasks. -/
theorem Step.accounted (hgraph : graph.Coherent) {run after : QueueRun} (hstep : Step run after)
    (h : Accounted tasks graph run) : Accounted tasks graph after := by
  cases hstep with
  | take hnext => exact h.take hnext
  | complete hrunning => exact h.complete hrunning
  | fail hrunning => exact h.fail hgraph hrunning

theorem Reachable.accounted (hgraph : graph.Coherent) {run : QueueRun}
    (hrun : Reachable tasks graph run) : Accounted tasks graph run := by
  induction hrun with
  | refl => exact accounted_start tasks graph
  | tail _ hstep ih => exact hstep.accounted hgraph ih

/-! ## What is taken -/

theorem Accounted.not_spoiled_of_next {run : QueueRun} (h : Accounted tasks graph run)
    {task : Task} {queue : TaskQueue} (hnext : run.queue.next? = some (task, queue)) :
    ¬ run.Spoiled graph task.path := by
  obtain ⟨front, back, hpending, _⟩ := TaskQueue.next?_eq_some hnext
  exact h.clean task (by simp [hpending])

/-- A task is taken when nothing is left of what stands before it. -/
theorem Accounted.done_of_next {run : QueueRun} (h : Accounted tasks graph run)
    (hgraph : graph.Coherent) {task : Task} {queue : TaskQueue}
    (hnext : run.queue.next? = some (task, queue)) {other : String}
    (hd : graph.DependsOn task.path other) (hbefore : StartsBefore tasks other task.path) :
    ∀ left ∈ run.queue.pending ++ run.running, left.path ≠ other := by
  obtain ⟨front, back, hpending, _, havailable, _⟩ := TaskQueue.next?_eq_some hnext
  have htask : task ∈ tasks := h.mem_of_pending (by simp [hpending])
  have hblocks := (h.mem_blockersOf hgraph htask other).mpr ⟨hd, hbefore⟩
  have hclean : ¬ run.Spoiled graph other := fun hspoiled =>
    h.not_spoiled_of_next hnext (hspoiled.of_dependsOn hd)
  exact (h.unfinished_eq_zero_iff hclean).mp
    ((TaskQueue.isAvailable_iff.mp havailable).2 other hblocks)

/-- While no task may start, each one that waits has something to wait for: a task
under way of its entry-point, or of what that depends on and stands before it. -/
theorem Accounted.exists_running {run : QueueRun} (h : Accounted tasks graph run)
    (hgraph : graph.Coherent) (hnone : run.queue.next? = none) {task : Task}
    (hwaits : task ∈ run.queue.pending) :
    ∃ running ∈ run.running, running.path = task.path
      ∨ graph.DependsOn task.path running.path
        ∧ StartsBefore tasks running.path task.path := by
  -- what stands first waits for nothing else
  induction hplace : tasks.findIdx (·.path = task.path) using Nat.strongRecOn generalizing task with
  | ind place ih =>
    subst hplace
    have hblocked := TaskQueue.next?_eq_none.mp hnone task hwaits
    by_cases hown : task.path ∈ run.queue.inProgress
    · rw [h.inProgress] at hown
      obtain ⟨running, hrunning, hpath⟩ := List.mem_map.mp hown
      exact ⟨running, hrunning, Or.inl hpath⟩
    · rw [← Bool.not_eq_true, TaskQueue.isAvailable_iff, and_iff_right hown] at hblocked
      push Not at hblocked
      obtain ⟨blocker, hblocker, hleft⟩ := hblocked
      obtain ⟨hd, hbefore⟩ := (h.mem_blockersOf hgraph (h.mem_of_pending hwaits) _).mp hblocker
      have hclean : ¬ run.Spoiled graph blocker := fun hspoiled => hleft (h.spoiled _ hspoiled)
      rw [Ne, h.unfinished_eq_zero_iff hclean] at hleft
      push Not at hleft
      obtain ⟨left, hleft, rfl⟩ := hleft
      rcases List.mem_append.mp hleft with hpending | hrunning
      · obtain ⟨running, hrunning, hpath | ⟨hdeep, hfirst⟩⟩ := ih _ hbefore hpending rfl
        · rw [← hpath] at hd hbefore
          exact ⟨running, hrunning, Or.inr ⟨hd, hbefore⟩⟩
        · exact ⟨running, hrunning, Or.inr ⟨hd.trans hdeep, Nat.lt_trans hfirst hbefore⟩⟩
      · exact ⟨left, hrunning, Or.inr ⟨hd, hbefore⟩⟩

/-- While nothing is under way, of what waits something may start. -/
theorem Accounted.exists_next {run : QueueRun} (h : Accounted tasks graph run)
    (hgraph : graph.Coherent) (hidle : run.running = []) (hwaits : run.queue.pending ≠ []) :
    ∃ task queue, run.queue.next? = some (task, queue) := by
  rcases hnext : run.queue.next? with _ | ⟨task, queue⟩
  · obtain ⟨task, rest, hpending⟩ := List.exists_cons_of_ne_nil hwaits
    obtain ⟨running, hrunning, _⟩ :=
      h.exists_running hgraph hnext (show task ∈ run.queue.pending by simp [hpending])
    rw [hidle] at hrunning
    cases hrunning
  · exact ⟨task, queue, rfl⟩

/-- **Tasks are taken in order**: of one entry-point one at a time, none before
what stands earlier in the list and is depended on has come to its end, and none
after anything that is depended on has failed. -/
theorem takes_in_order (hgraph : graph.Built) {run : QueueRun}
    (hrun : Reachable tasks graph run) :
    (run.running.map Task.path).Nodup
      ∧ ∀ task queue, run.queue.next? = some (task, queue) →
          ∀ other, graph.DependsOn task.path other →
            (StartsBefore tasks other task.path →
              ∀ left ∈ run.queue.pending ++ run.running, left.path ≠ other)
            ∧ ∀ failed ∈ run.failed, failed.path ≠ other := by
  have h := hrun.accounted hgraph.coherent
  refine ⟨?_, ?_⟩
  · have hdistinct := h.distinct
    rw [List.map_append] at hdistinct
    exact hdistinct.of_append_left
  · intro task queue hnext other hd
    refine ⟨h.done_of_next hgraph.coherent hnext hd, ?_⟩
    rintro failed hfailed rfl
    exact h.not_spoiled_of_next hnext ⟨failed, hfailed, Or.inr hd⟩

/-- The task of the entry-point with a path that has one format. -/
def taskAt (path : String) : Task where
  entryPoint := { (default : EntryPoint) with path }
  property := .main
  marks := []
  processTypings := false

/-- With what it needs done and something else failed, an entry-point's turn
comes. -/
theorem takes_in_order_after_failure :
    let graph := (((Graph.addNode ({} : Graph Unit) "/a" ()).addNode "/b" ()).addNode "/c"
      ()).addDependency "/a" "/b"
    let tasks := [taskAt "/b", taskAt "/c", taskAt "/a"]
    ∃ run queue, Reachable tasks graph run ∧ run.completed = [taskAt "/b"]
      ∧ run.failed = [taskAt "/c"] ∧ run.queue.next? = some (taskAt "/a", queue)
      ∧ graph.DependsOn "/a" "/b" ∧ StartsBefore tasks "/b" "/a"
      ∧ (∀ left ∈ run.queue.pending ++ run.running, left.path ≠ "/b")
      ∧ ∀ failed ∈ run.failed, failed.path ≠ "/b" := by
  intro graph tasks
  have hbuilt : graph.Built :=
    ((Graph.Built.empty.addNode "/a" ()).addNode "/b" ()).addNode "/c" () |>.addDependency "/a" "/b"
  have hd : graph.DependsOn "/a" "/b" := TransGen.single (show "/b" ∈ ["/b"] from by decide)
  have hbefore : StartsBefore tasks "/b" "/a" := by decide
  have h0 : Reachable tasks graph { queue := TaskQueue.ofTasks tasks graph } := ReflTransGen.refl
  have h1 := h0.tail (Step.take (show _ = some (taskAt "/b", _) from rfl))
  have h2 := h1.tail (Step.take (show _ = some (taskAt "/c", _) from rfl))
  have h3 := h2.tail (Step.complete (show _ = [taskAt "/c"] ++ taskAt "/b" :: [] from rfl))
  have h4 := h3.tail (Step.fail (show _ = [] ++ taskAt "/c" :: [] from rfl))
  have horder := ((takes_in_order hbuilt h4).2 (taskAt "/a") _ rfl) "/b" hd
  exact ⟨_, _, h4, rfl, rfl, rfl, hd, hbefore, horder.1 hbefore, horder.2⟩

end QueueRun

end PackageOrder
