/-
PackageOrder.Proofs.Task.Settled — what becomes of tasks that are listed in
topological order, whatever the order in which they are taken and reported.

What an entry-point depends on and what stands before it is settled before it is
started, in any order of tasks (`QueueRun.InOrder`); in topological order that is
all it depends on (`QueueRun.Orderly`). So a verdict, which says how each task
ends, alone decides what has become of the tasks once nothing waits and nothing
is under way: an entry-point that depends on a failing task is not started, and
each of the others is processed up to its first failing task
(`QueueRun.Accounted.tasksOf_taken_of_not_blocked`,
`QueueRun.blocked_iff_hindered`).
-/
import PackageOrder.Proofs.Task.Reached

namespace PackageOrder

open Relation (ReflTransGen TransGen)

/-- The entry-point of the first of some tasks, if there is one. -/
def leading (tasks : List Task) : List EntryPoint :=
  (tasks.take 1).map Task.entryPoint

theorem filter_entryPointsOf (path : String) (tasks : List Task) :
    (TaskQueue.entryPointsOf tasks).filter (·.path = path) = leading (tasksOf path tasks) := by
  induction tasks with
  | nil => rfl
  | cons task rest ih =>
    rw [TaskQueue.entryPointsOf, tasksOf_cons, List.filter_cons]
    by_cases hpath : task.path = path
    · rw [if_pos hpath, if_pos (by simpa using hpath), List.filter_filter]
      have hnone : ∀ entryPoint ∈ TaskQueue.entryPointsOf rest,
          ¬ (decide (entryPoint.path = path) && decide (entryPoint.path ≠ task.path)) = true := by
        intro entryPoint _
        simp [hpath]
      rw [List.filter_eq_nil_iff.mpr hnone]
      rfl
    · rw [if_neg hpath, if_neg (by simpa using hpath), List.filter_filter, ← ih]
      apply List.filter_congr
      intro entryPoint _
      by_cases hother : entryPoint.path = path
      · simp [hother, Ne.symm hpath]
      · simp [hother]

/-- Keys are distinct if no two items have one. -/
theorem nodup_map_of_filter {β : Type} (key : β → String) {items : List β}
    (h : ∀ path, (items.filter (key · = path)).length ≤ 1) : (items.map key).Nodup := by
  rw [List.nodup_iff_count_le_one]
  intro path
  rw [List.count_eq_countP, List.countP_map, List.countP_eq_length_filter]
  exact h path

namespace QueueRun

variable {α : Type} {graph : Graph α} {tasks : List Task}

/-- Something that an entry-point depends on has failed. -/
def Blocked (run : QueueRun) (graph : Graph α) (path : String) : Prop :=
  ∃ task ∈ run.failed, graph.DependsOn path task.path

/-- Of what an entry-point depends on and what stands before it, nothing is left or
has failed once a task of it is started. -/
def InOrder (tasks : List Task) (graph : Graph α) (run : QueueRun) : Prop :=
  ∀ task ∈ run.completed ++ run.failed ++ run.running,
    ∀ other, graph.DependsOn task.path other → StartsBefore tasks other task.path →
      ∀ left ∈ run.queue.pending ++ run.running ++ run.failed, left.path ≠ other

/-- What is started has settled dependencies, and what they block is skipped. -/
structure Orderly (tasks : List Task) (graph : Graph α) (run : QueueRun) : Prop where
  settled : ∀ task ∈ run.completed ++ run.failed ++ run.running,
    ∀ other, graph.DependsOn task.path other →
      ∀ left ∈ run.queue.pending ++ run.running ++ run.failed, left.path ≠ other
  skipped : ∀ path, run.Blocked graph path →
    run.skipped.filter (·.path = path) = leading (tasksOf path tasks)
  unskipped : ∀ path, ¬ run.Blocked graph path → run.skipped.filter (·.path = path) = []

theorem Blocked.spoiled {run : QueueRun} {path : String} (h : run.Blocked graph path) :
    run.Spoiled graph path := by
  obtain ⟨task, htask, hd⟩ := h
  exact ⟨task, htask, Or.inr hd⟩

theorem not_spoiled_of_not_blocked {run : QueueRun} {path : String}
    (hclear : ¬ run.Blocked graph path) (hnone : tasksOf path run.failed = []) :
    ¬ run.Spoiled graph path := by
  rintro ⟨failed, hfailed, heq | hd⟩
  · exact tasksOf_eq_nil.mp hnone failed hfailed heq.symm
  · exact hclear ⟨failed, hfailed, hd⟩

theorem blocked_fail {run after : QueueRun} {task : Task}
    (hfailed : after.failed = run.failed ++ [task]) (path : String) :
    after.Blocked graph path ↔ run.Blocked graph path ∨ graph.DependsOn path task.path := by
  simp only [Blocked, hfailed, List.mem_append, List.mem_singleton, or_and_right, exists_or,
    exists_eq_left]

/-- The entry-points that a failure adds to those that are skipped. -/
theorem filter_skippedBy (run : QueueRun) (task : Task) (path : String) :
    (run.queue.skippedBy task).filter (·.path = path)
      = if path ∈ run.queue.droppedBy task ∧ path ≠ task.path
        then leading (tasksOf path run.queue.pending) else [] := by
  have hfilter := tasksOf_filter
    (fun path => (run.queue.droppedBy task).contains path && decide (path ≠ task.path)) path
    run.queue.pending
  rw [TaskQueue.skippedBy, filter_entryPointsOf, hfilter]
  by_cases hboth : path ∈ run.queue.droppedBy task ∧ path ≠ task.path
  · rw [if_pos hboth, if_pos (by simpa using hboth)]
  · rw [if_neg hboth, if_neg (by simpa using hboth)]
    rfl

/-- No entry-point with tasks in topological order depends on itself. -/
theorem not_dependsOn_self (htopological : Topological tasks graph) {task : Task}
    (htask : task ∈ tasks) : ¬ graph.DependsOn task.path task.path := fun hd =>
  Nat.lt_irrefl _ (htopological task htask task htask hd)

theorem orderly_start (tasks : List Task) (graph : Graph α) :
    Orderly tasks graph { queue := TaskQueue.ofTasks tasks graph } where
  settled := by
    intro task htask
    cases htask
  skipped := by
    rintro _ ⟨_, h, _⟩
    cases h
  unskipped := by
    intro _ _
    rfl

theorem inOrder_start (tasks : List Task) (graph : Graph α) :
    InOrder tasks graph { queue := TaskQueue.ofTasks tasks graph } :=
  fun _ htask => absurd htask List.not_mem_nil

namespace InOrder

variable {run : QueueRun}

theorem take (h : InOrder tasks graph run) (haccount : Accounted tasks graph run)
    (hgraph : graph.Coherent) {task : Task} {queue : TaskQueue}
    (hnext : run.queue.next? = some (task, queue)) :
    InOrder tasks graph { run with queue, running := task :: run.running } := by
  obtain ⟨front, back, hpending, hqueue, _⟩ := TaskQueue.next?_eq_some hnext
  intro started hstarted other hd hfirst left hleft
  have hbefore : left ∈ run.queue.pending ++ run.running ++ run.failed := by
    simp only [hqueue, hpending, List.mem_append, List.mem_cons] at hleft ⊢
    tauto
  have hold : started = task ∨ started ∈ run.completed ++ run.failed ++ run.running := by
    simp only [List.mem_append, List.mem_cons] at hstarted ⊢
    tauto
  rcases hold with rfl | hold
  · rcases List.mem_append.mp hbefore with hopen | hfailed
    · exact haccount.done_of_next hgraph hnext hd hfirst left hopen
    · rintro rfl
      exact haccount.not_spoiled_of_next hnext ⟨left, hfailed, Or.inr hd⟩
  · exact h started hold other hd hfirst left hbefore

theorem complete (h : InOrder tasks graph run) {task : Task} {before after : List Task}
    (hrunning : run.running = before ++ task :: after) :
    InOrder tasks graph
      { run with
        queue := run.queue.complete task
        running := before ++ after
        completed := run.completed ++ [task] } := by
  intro started hstarted other hd hfirst left hleft
  apply h started _ other hd hfirst left
  · simp only [hrunning, List.mem_append, List.mem_cons] at hleft ⊢
    have hp : left ∈ (run.queue.complete task).pending ↔ left ∈ run.queue.pending := Iff.rfl
    tauto
  · simp only [hrunning, List.mem_append, List.mem_cons, List.not_mem_nil] at hstarted ⊢
    tauto

theorem fail (h : InOrder tasks graph run) {task : Task} {before after : List Task}
    (hrunning : run.running = before ++ task :: after) :
    InOrder tasks graph
      { run with
        queue := run.queue.fail task
        running := before ++ after
        failed := run.failed ++ [task]
        dropped := run.dropped ++ run.queue.pending.filter (run.drops task)
        skipped := run.skipped ++ run.queue.skippedBy task } := by
  intro started hstarted other hd hfirst left hleft
  apply h started _ other hd hfirst left
  · have hp : left ∈ (run.queue.fail task).pending → left ∈ run.queue.pending :=
      fun hmem => (List.mem_filter.mp hmem).1
    simp only [hrunning, List.mem_append, List.mem_cons, List.not_mem_nil] at hleft ⊢
    tauto
  · simp only [hrunning, List.mem_append, List.mem_cons, List.not_mem_nil] at hstarted ⊢
    tauto

/-- In topological order everything that is depended on stands before. -/
theorem settled (h : InOrder tasks graph run) (haccount : Accounted tasks graph run)
    (htopological : Topological tasks graph) :
    ∀ task ∈ run.completed ++ run.failed ++ run.running,
      ∀ other, graph.DependsOn task.path other →
        ∀ left ∈ run.queue.pending ++ run.running ++ run.failed, left.path ≠ other := by
  rintro task htask _ hd left hleft rfl
  have hone : task ∈ tasks := by
    apply haccount.mem_tasks
    simp only [List.mem_append] at htask ⊢
    tauto
  have hother : left ∈ tasks := by
    apply haccount.mem_tasks
    simp only [List.mem_append] at hleft ⊢
    tauto
  exact h task htask left.path hd (htopological task hone left hother hd) left hleft rfl

end InOrder

theorem Reachable.inOrder (hgraph : graph.Coherent) {run : QueueRun}
    (hrun : Reachable tasks graph run) : InOrder tasks graph run := by
  induction hrun with
  | refl => exact inOrder_start tasks graph
  | tail hreached hstep ih =>
    cases hstep with
    | take hnext => exact ih.take (Reachable.accounted hgraph hreached) hgraph hnext
    | complete hrunning => exact ih.complete hrunning
    | fail hrunning => exact ih.fail hrunning

namespace Orderly

variable {run : QueueRun}

theorem inOrder (h : Orderly tasks graph run) : InOrder tasks graph run :=
  fun task htask other hd _ => h.settled task htask other hd

theorem take (h : Orderly tasks graph run) (haccount : Accounted tasks graph run)
    (hgraph : graph.Coherent) (htopological : Topological tasks graph) {task : Task}
    {queue : TaskQueue} (hnext : run.queue.next? = some (task, queue)) :
    Orderly tasks graph { run with queue, running := task :: run.running } where
  settled := (h.inOrder.take haccount hgraph hnext).settled (haccount.take hnext) htopological
  skipped := h.skipped
  unskipped := h.unskipped

theorem complete (h : Orderly tasks graph run) (haccount : Accounted tasks graph run)
    (htopological : Topological tasks graph) {task : Task} {before after : List Task}
    (hrunning : run.running = before ++ task :: after) :
    Orderly tasks graph
      { run with
        queue := run.queue.complete task
        running := before ++ after
        completed := run.completed ++ [task] } where
  settled :=
    (h.inOrder.complete hrunning).settled (haccount.complete hrunning) htopological
  skipped := h.skipped
  unskipped := h.unskipped

/-- An entry-point that depends on one with a task under way has all its tasks
before it, unless it is blocked. -/
theorem tasksOf_pending_eq (h : Orderly tasks graph run) (haccount : Accounted tasks graph run)
    {task : Task} (htask : task ∈ run.running) {path : String}
    (hd : graph.DependsOn path task.path) (hblocked : ¬ run.Blocked graph path) :
    tasksOf path run.queue.pending = tasksOf path tasks := by
  have hnot : ∀ started ∈ run.completed ++ run.failed ++ run.running, started.path ≠ path := by
    rintro started hstarted rfl
    exact h.settled started hstarted task.path hd task (by simp [htask]) rfl
  have hnil := tasksOf_eq_nil.mpr hnot
  simp only [tasksOf_append, List.append_eq_nil_iff] at hnil
  obtain ⟨⟨hcompleted, hfailed⟩, hrunning⟩ := hnil
  have hclean := not_spoiled_of_not_blocked hblocked hfailed
  rw [haccount.parted path, hcompleted, hfailed, hrunning, haccount.tasksOf_dropped_eq_nil hclean]
  simp only [List.nil_append, List.append_nil]

theorem fail (h : Orderly tasks graph run) (haccount : Accounted tasks graph run)
    (hgraph : graph.Coherent) (htopological : Topological tasks graph) {task : Task}
    {before after : List Task} (hrunning : run.running = before ++ task :: after) :
    Orderly tasks graph
      { run with
        queue := run.queue.fail task
        running := before ++ after
        failed := run.failed ++ [task]
        dropped := run.dropped ++ run.queue.pending.filter (run.drops task)
        skipped := run.skipped ++ run.queue.skippedBy task } := by
  have hunder : task ∈ run.running := by simp [hrunning]
  have htask : task ∈ tasks := haccount.mem_of_running hunder
  have hdropped := haccount.mem_droppedBy hgraph htask
  refine ⟨(h.inOrder.fail hrunning).settled (haccount.fail hgraph hrunning) htopological, ?_, ?_⟩
  · intro path hblocked
    rw [blocked_fail rfl] at hblocked
    dsimp only
    rw [List.filter_append, filter_skippedBy]
    by_cases hbefore : run.Blocked graph path
    · rw [h.skipped path hbefore, haccount.tasksOf_pending_eq_nil hbefore.spoiled]
      simp [leading]
    · have hd := hblocked.resolve_left hbefore
      rw [h.unskipped path hbefore, List.nil_append,
        h.tasksOf_pending_eq haccount hunder hd hbefore]
      split
      · rfl
      · rename_i hnone
        -- then it has no tasks
        have hnil : tasksOf path tasks = [] := by
          rw [tasksOf_eq_nil]
          rintro other ho rfl
          apply hnone
          refine ⟨(hdropped _).mpr (Or.inr ⟨TaskQueue.mem_pathsOf.mpr ⟨other, ho, rfl⟩, hd⟩), ?_⟩
          intro heq
          rw [heq] at hd
          exact not_dependsOn_self htopological htask hd
        rw [hnil]
        rfl
  · intro path hclear
    rw [blocked_fail rfl, not_or] at hclear
    dsimp only
    rw [List.filter_append, h.unskipped path hclear.1, filter_skippedBy, List.nil_append, if_neg]
    rintro ⟨hmem, hne⟩
    rcases (hdropped path).mp hmem with heq | ⟨_, hd⟩
    · exact hne heq
    · exact hclear.2 hd

/-- An entry-point is skipped once. -/
theorem nodup_skipped (h : Orderly tasks graph run) :
    (run.skipped.map EntryPoint.path).Nodup := by
  apply nodup_map_of_filter
  intro path
  by_cases hblocked : run.Blocked graph path
  · rw [h.skipped path hblocked, leading, List.length_map, List.length_take]
    exact Nat.min_le_left _ _
  · rw [h.unskipped path hblocked]
    exact Nat.zero_le 1

/-- What is skipped is blocked and has tasks. -/
theorem mem_skipped_iff (h : Orderly tasks graph run) (entryPoint : EntryPoint) :
    entryPoint ∈ run.skipped
      ↔ entryPoint ∈ leading (tasksOf entryPoint.path tasks)
        ∧ run.Blocked graph entryPoint.path := by
  have hfilter : entryPoint ∈ run.skipped
      ↔ entryPoint ∈ run.skipped.filter (·.path = entryPoint.path) := by
    simp
  rw [hfilter]
  by_cases hblocked : run.Blocked graph entryPoint.path
  · rw [h.skipped _ hblocked]
    simp [hblocked]
  · rw [h.unskipped _ hblocked]
    simp [hblocked]

end Orderly

theorem Reachable.orderly (hgraph : graph.Coherent) (htopological : Topological tasks graph)
    {run : QueueRun} (hrun : Reachable tasks graph run) : Orderly tasks graph run := by
  induction hrun with
  | refl => exact orderly_start tasks graph
  | tail hreached hstep ih =>
    have haccount := Reachable.accounted hgraph hreached
    cases hstep with
    | take hnext => exact ih.take haccount hgraph htopological hnext
    | complete hrunning => exact ih.complete haccount htopological hrunning
    | fail hrunning => exact ih.fail haccount hgraph htopological hrunning

end QueueRun

/-! ## Verdicts -/

/-- Tasks up to the first one that fails, which is the last of them. -/
def untilFailure (verdict : Task → Outcome) : List Task → List Task
  | [] => []
  | task :: rest =>
    if verdict task = .processed then task :: untilFailure verdict rest else [task]

theorem untilFailure_append {verdict : Task → Outcome} {one : List Task}
    (h : ∀ task ∈ one, verdict task = .processed) (other : List Task) :
    untilFailure verdict (one ++ other) = one ++ untilFailure verdict other := by
  induction one with
  | nil => rfl
  | cons task rest ih =>
    rw [List.cons_append, untilFailure, if_pos (h task List.mem_cons_self),
      ih fun later hl => h later (List.mem_cons_of_mem _ hl)]
    rfl

/-- Something that an entry-point depends on has a failing task. -/
def Hindered {α : Type} (tasks : List Task) (graph : Graph α) (verdict : Task → Outcome)
    (path : String) : Prop :=
  ∃ task ∈ tasks, graph.DependsOn path task.path ∧ verdict task ≠ .processed

namespace QueueRun

variable {α : Type} {graph : Graph α} {tasks : List Task} {verdict : Task → Outcome}
  {run : QueueRun}

/-- What was reported of the tasks is what a verdict says of them. -/
structure Obeys (run : QueueRun) (verdict : Task → Outcome) : Prop where
  completed : ∀ task ∈ run.completed, verdict task = .processed
  failed : ∀ task ∈ run.failed, verdict task ≠ .processed

/-- Nothing waits and nothing is under way. -/
structure Done (run : QueueRun) : Prop where
  pending : run.queue.pending = []
  running : run.running = []

/-- What is blocked was not started. -/
theorem Orderly.tasksOf_taken_of_blocked (h : Orderly tasks graph run) {path : String}
    (hblocked : run.Blocked graph path) :
    tasksOf path run.completed ++ tasksOf path run.failed = [] := by
  obtain ⟨failed, hfailed, hd⟩ := hblocked
  rw [← tasksOf_append, tasksOf_eq_nil]
  rintro started hstarted rfl
  exact h.settled started (List.mem_append_left _ hstarted) failed.path hd failed
    (List.mem_append_right _ hfailed) rfl

/-- What is not blocked was processed up to its first failing task. -/
theorem Accounted.tasksOf_taken_of_not_blocked (h : Accounted tasks graph run) (hdone : run.Done)
    (hobeys : run.Obeys verdict) {path : String} (hclear : ¬ run.Blocked graph path) :
    tasksOf path run.completed ++ tasksOf path run.failed
      = untilFailure verdict (tasksOf path tasks) := by
  have hcompleted : ∀ task ∈ tasksOf path run.completed, verdict task = .processed :=
    fun task htask => hobeys.completed task (mem_tasksOf.mp htask).1
  rw [h.parted path, hdone.pending, hdone.running, tasksOf_nil, List.append_nil, List.append_nil,
    List.append_assoc, untilFailure_append hcompleted]
  congr 1
  rcases hfailed : tasksOf path run.failed with _ | ⟨task, others⟩
  · rw [h.tasksOf_dropped_eq_nil (not_spoiled_of_not_blocked hclear hfailed)]
    rfl
  · have htask : task ∈ run.failed ∧ task.path = path := by
      rw [← mem_tasksOf, hfailed]
      exact List.mem_cons_self
    -- no second task of it has failed
    have hothers : others = [] := by
      have hdistinct := h.distinct
      rw [hdone.running, List.nil_append] at hdistinct
      have hsub : ((tasksOf path run.failed).map Task.path).Nodup :=
        hdistinct.sublist (List.filter_sublist.map _)
      rw [hfailed, List.map_cons, List.nodup_cons] at hsub
      rw [List.eq_nil_iff_forall_not_mem]
      intro other ho
      have hpath : other.path = path := by
        have hmem : other ∈ tasksOf path run.failed := by
          rw [hfailed]
          exact List.mem_cons_of_mem _ ho
        exact (mem_tasksOf.mp hmem).2
      apply hsub.1
      rw [htask.2, ← hpath]
      exact List.mem_map_of_mem ho
    rw [hothers, List.cons_append, untilFailure, if_neg (hobeys.failed task htask.1)]

/-- What a failure has not spoiled was completed. -/
theorem Accounted.mem_completed (h : Accounted tasks graph run) (hdone : run.Done) {task : Task}
    (htask : task ∈ tasks) (hclean : ¬ run.Spoiled graph task.path) : task ∈ run.completed := by
  have hnone : tasksOf task.path run.failed = [] := by
    rw [tasksOf_eq_nil]
    intro failed hfailed hpath
    exact hclean ⟨failed, hfailed, Or.inl hpath.symm⟩
  have hparted := h.parted task.path
  rw [hnone, hdone.running, hdone.pending, h.tasksOf_dropped_eq_nil hclean] at hparted
  simp only [tasksOf_nil, List.append_nil] at hparted
  have hmem : task ∈ tasksOf task.path run.completed := by
    rw [← hparted]
    exact mem_tasksOf.mpr ⟨htask, rfl⟩
  exact (mem_tasksOf.mp hmem).1

/-- Some task has failed if there is a failing one. -/
theorem failed_ne_nil (haccount : Accounted tasks graph run) (hdone : run.Done)
    (hobeys : run.Obeys verdict) {task : Task} (htask : task ∈ tasks)
    (hfails : verdict task ≠ .processed) : run.failed ≠ [] := by
  intro hnone
  have hclean : ¬ run.Spoiled graph task.path := by
    rintro ⟨failed, hfailed, _⟩
    rw [hnone] at hfailed
    cases hfailed
  exact hfails (hobeys.completed task (haccount.mem_completed hdone htask hclean))

/-- What an entry-point depends on has failed if it has a failing task. -/
theorem blocked_iff_hindered (haccount : Accounted tasks graph run) (hdone : run.Done)
    (hobeys : run.Obeys verdict) (path : String) :
    run.Blocked graph path ↔ Hindered tasks graph verdict path := by
  constructor
  · rintro ⟨task, htask, hd⟩
    exact ⟨task, haccount.mem_of_failed htask, hd, hobeys.failed task htask⟩
  · rintro ⟨task, htask, hd, hfails⟩
    by_contra hclear
    have hclean : ¬ run.Spoiled graph task.path := by
      rintro ⟨failed, hfailed, hpath | hdep⟩
      · exact hclear ⟨failed, hfailed, hpath ▸ hd⟩
      · exact hclear ⟨failed, hfailed, TransGen.trans hd hdep⟩
    exact hfails (hobeys.completed task (haccount.mem_completed hdone htask hclean))

end QueueRun

end PackageOrder
