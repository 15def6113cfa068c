/-
PackageOrder.Proofs.Task.Conservation — no task of a run is lost or told of
twice.

* `QueueRun.Accounted.perm` — in every state the tasks of the list are those that
  have ended, are under way, wait or were dropped.
* `QueueRun.Skips` — what is skipped is spoiled by a failure, so that nothing of it
  waits and it is skipped no more.
* `Returns` — the ways in which a run returns a summary; `Returns.exists_done`.
* `Returns.conserves` — what that says of the summary.
-/
import PackageOrder.Proofs.Task.Ending
import PackageOrder.Proofs.Task.Places

namespace PackageOrder

namespace QueueRun

variable {α : Type} {graph : Graph α} {tasks : List Task} {run : QueueRun}

/-- Every task of the list is in one place. -/
theorem Accounted.perm (h : Accounted tasks graph run) :
    tasks.Perm
      (run.completed ++ run.failed ++ run.running ++ run.queue.pending ++ run.dropped) := by
  apply perm_of_filter_key Task.path
  intro path
  change tasksOf path tasks = tasksOf path _
  simp only [tasksOf_append]
  exact h.parted path

/-! ## Skipped entry-points -/

/-- What is skipped depends on something that has failed, and is skipped once. -/
structure Skips (run : QueueRun) (graph : Graph α) : Prop where
  blocked : ∀ entryPoint ∈ run.skipped, run.Blocked graph entryPoint.path
  once : ∀ path, (run.skipped.filter (·.path = path)).length ≤ 1

/-- What a failure adds to the entry-points that are skipped has tasks that wait. -/
theorem mem_skippedBy {task : Task} {entryPoint : EntryPoint} :
    entryPoint ∈ run.queue.skippedBy task
      ↔ entryPoint ∈ leading (tasksOf entryPoint.path run.queue.pending)
        ∧ entryPoint.path ∈ run.queue.droppedBy task ∧ entryPoint.path ≠ task.path := by
  have hfilter : entryPoint ∈ run.queue.skippedBy task
      ↔ entryPoint ∈ (run.queue.skippedBy task).filter (·.path = entryPoint.path) := by
    simp
  rw [hfilter, filter_skippedBy]
  split
  · rename_i hboth
    rw [and_iff_left hboth]
  · rename_i hnot
    simp only [List.not_mem_nil, false_iff]
    exact fun h => hnot h.2

theorem Skips.fail (h : run.Skips graph) (haccount : Accounted tasks graph run)
    (hgraph : graph.Coherent) {task : Task} {before after : List Task}
    (hrunning : run.running = before ++ task :: after) :
    Skips
      { run with
        queue := run.queue.fail task
        running := before ++ after
        failed := run.failed ++ [task]
        dropped := run.dropped ++ run.queue.pending.filter (run.drops task)
        skipped := run.skipped ++ run.queue.skippedBy task } graph := by
  have htask : task ∈ tasks := haccount.mem_of_running (by simp [hrunning])
  constructor
  · intro entryPoint hentryPoint
    rw [blocked_fail rfl]
    rcases List.mem_append.mp hentryPoint with hold | hnew
    · exact Or.inl (h.blocked entryPoint hold)
    · obtain ⟨_, hdropped, hne⟩ := mem_skippedBy.mp hnew
      rw [haccount.mem_droppedBy hgraph htask] at hdropped
      exact Or.inr (hdropped.resolve_left hne).2
  · intro path
    rw [List.filter_append, filter_skippedBy, List.length_append]
    by_cases hblocked : run.Blocked graph path
    · -- nothing of it waits
      rw [haccount.tasksOf_pending_eq_nil hblocked.spoiled]
      have hnone : (if path ∈ run.queue.droppedBy task ∧ path ≠ task.path then leading []
          else []) = [] := by
        split <;> rfl
      rw [hnone]
      exact h.once path
    · have hnone : run.skipped.filter (·.path = path) = [] := by
        rw [List.filter_eq_nil_iff]
        intro entryPoint hentryPoint heq
        rw [decide_eq_true_eq] at heq
        exact hblocked (heq ▸ h.blocked entryPoint hentryPoint)
      rw [hnone, List.length_nil, Nat.zero_add]
      split
      · rw [leading, List.length_map, List.length_take]
        exact Nat.min_le_left _ _
      · exact Nat.zero_le 1

theorem Reachable.skips (hgraph : graph.Coherent) (hrun : Reachable tasks graph run) :
    run.Skips graph := by
  induction hrun with
  | refl => exact ⟨fun _ h => absurd h List.not_mem_nil, fun _ => Nat.zero_le 1⟩
  | tail hreached hstep ih =>
    have haccount := Reachable.accounted hgraph hreached
    cases hstep with
    | take _ => exact ⟨ih.blocked, ih.once⟩
    | complete _ => exact ⟨ih.blocked, ih.once⟩
    | fail hrunning => exact ih.fail haccount hgraph hrunning

end QueueRun

/-! ## Summaries -/

section Returns

variable {α : Type} {graph : Graph α} {tasks : List Task} {strict : Bool} {summary : Summary}

/-- A run of tasks returns a summary: on its own, over messages, or with workers
that compile the tasks. -/
inductive Returns (strict : Bool) (tasks : List Task) (graph : Graph α) : Summary → Prop where
  | single {summary : Summary} (compiler : Compiler) (session : Session)
      (h : ((runSingle strict compiler (TaskQueue.ofTasks tasks graph)).runFrom session).1
        = .ok summary) : Returns strict tasks graph summary
  | served {summary : Summary} (inboxes : List Bool) (workers : Nat)
      (messages : List (Nat × String))
      (h : (Coordinator.serve strict inboxes (.start (TaskQueue.ofTasks tasks graph) workers)
        messages).result = .ok summary) : Returns strict tasks graph summary
  | cluster {summary : Summary} (compiler : Compiler) (choice : Nat → Nat) (workers : Nat)
      (session : Session)
      (h : ((runCluster strict compiler choice workers (TaskQueue.ofTasks tasks graph)).runFrom
        session).1 = .ok summary) : Returns strict tasks graph summary

/-- A run over messages that returns a summary has come to its end. -/
theorem Coordinator.arises_of_serve (hgraph : graph.Coherent) {inboxes : List Bool}
    {workers : Nat} {messages : List (Nat × String)}
    (h : (serve strict inboxes (start (TaskQueue.ofTasks tasks graph) workers) messages).result
      = .ok summary) :
    ∃ last : Progress, last.summary = summary ∧ last.Arises tasks graph []
      ∧ last.queue.isDone = true := by
  have hfirst : Comes strict inboxes (start (TaskQueue.ofTasks tasks graph) workers) [] []
      (start (TaskQueue.ofTasks tasks graph) workers) := .first
  obtain ⟨_, _, _, last, _, hcomes, hends, _⟩ := hfirst.serve_ends messages
  rw [h] at hends
  obtain ⟨hdone, hsummary⟩ := hends.isDone
  have harises := Comes.arises hcomes
  rw [harises.eq_nil_of_isDone hgraph hdone] at harises
  exact ⟨last.progress, hsummary, harises, hdone⟩

/-- A run that returns a summary has come to its end. -/
theorem Returns.arises (hgraph : graph.Coherent) (h : Returns strict tasks graph summary) :
    ∃ last : Progress, last.summary = summary ∧ last.Arises tasks graph []
      ∧ last.queue.isDone = true := by
  cases h with
  | single compiler session h =>
    have hends : SingleEnds strict tasks graph
        ((runSingle strict compiler (TaskQueue.ofTasks tasks graph)).runFrom session).1 :=
      runSingle_ends hgraph strict compiler session
    rw [h] at hends
    cases hends with
    | finished harises hdone => exact ⟨_, rfl, harises, hdone⟩
  | served inboxes workers messages h => exact Coordinator.arises_of_serve hgraph h
  | cluster compiler choice workers session h =>
    obtain ⟨messages, hserves⟩ :=
      runCluster_serves strict compiler choice workers tasks graph session
    exact Coordinator.arises_of_serve hgraph (hserves.symm.trans h)

/-- A summary tells of a state that a queue may come to, in which nothing is left to
do. -/
structure QueueRun.Tells (run : QueueRun) (tasks : List Task) (graph : Graph α)
    (summary : Summary) : Prop where
  reachable : Reachable tasks graph run
  done : run.Done
  completed : run.completed = summary.processed
  failed : run.failed = summary.failed.map Prod.fst
  skipped : run.skipped = summary.skipped

theorem Returns.exists_tells (hgraph : graph.Coherent) (h : Returns strict tasks graph summary) :
    ∃ run : QueueRun, run.Tells tasks graph summary := by
  obtain ⟨last, rfl, ⟨run, hrun, hhistory⟩, hdone⟩ := h.arises hgraph
  refine ⟨run, hrun, ⟨?_, hhistory.running.eq_nil⟩, hhistory.completed, hhistory.failed,
    hhistory.skipped⟩
  rw [TaskQueue.isDone, Bool.and_eq_true, List.isEmpty_iff] at hdone
  rw [hhistory.queue]
  exact hdone.1

/-- **No task is lost or told of twice.** When a run returns a summary its queue
has come to a state that the summary tells of, and in each such state every task
of the list was processed, has failed or was dropped. What was dropped is, or
depends on, an entry-point with a failed task, and no entry-point is skipped
twice. -/
theorem Returns.conserves (hgraph : graph.Built) (h : Returns strict tasks graph summary) :
    (∃ run : QueueRun, run.Tells tasks graph summary)
      ∧ (∀ run : QueueRun, run.Tells tasks graph summary →
        tasks.Perm (summary.processed ++ summary.failed.map Prod.fst ++ run.dropped)
        ∧ ∀ task ∈ run.dropped, ∃ entry ∈ summary.failed,
            task.path = entry.1.path ∨ graph.DependsOn task.path entry.1.path)
      ∧ (summary.skipped.map EntryPoint.path).Nodup := by
  have hcoherent := hgraph.coherent
  refine ⟨h.exists_tells hcoherent, ?_, ?_⟩
  · intro run htells
    have haccount := htells.reachable.accounted hcoherent
    constructor
    · have hperm := haccount.perm
      rwa [htells.done.running, htells.done.pending, List.append_nil, List.append_nil,
        htells.completed, htells.failed] at hperm
    · intro task htask
      obtain ⟨failed, hfailed, hspoils⟩ := haccount.dropped task htask
      rw [htells.failed] at hfailed
      obtain ⟨entry, hentry, rfl⟩ := List.mem_map.mp hfailed
      exact ⟨entry, hentry, hspoils⟩
  · obtain ⟨run, htells⟩ := h.exists_tells hcoherent
    rw [← htells.skipped]
    exact nodup_map_of_filter _ (htells.reachable.skips hcoherent).once

end Returns

/-- Two failures hit one entry-point, which needs both: it is skipped once. -/
theorem Returns.conserves_two_failing :
    let graph := (((((Graph.addNode ({} : Graph Unit) "/a" ()).addNode "/b" ()).addNode "/c"
      ()).addDependency "/c" "/a").addDependency "/c" "/b")
    let a := QueueRun.taskAt "/a"
    let b := QueueRun.taskAt "/b"
    let c := QueueRun.taskAt "/c"
    let summary : Summary :=
      { failed := [(a, "broken"), (b, "broken")], skipped := [c.entryPoint] }
    Returns false [a, b, c] graph summary
      ∧ ∃ run : QueueRun, run.Tells [a, b, c] graph summary
        ∧ [a, b, c].Perm ([a, b] ++ run.dropped)
        ∧ ∀ task ∈ run.dropped, ∃ entry ∈ summary.failed,
            task.path = entry.1.path ∨ graph.DependsOn task.path entry.1.path := by
  intro graph a b c summary
  have hbuilt : graph.Built :=
    (((Graph.Built.empty.addNode "/a" ()).addNode "/b" ()).addNode "/c" ()).addDependency "/c" "/a"
      |>.addDependency "/c" "/b"
  let compiler : Compiler := fun _ => return .error "broken" []
  have hreturns : Returns false [a, b, c] graph summary := .single compiler { tree := {} } rfl
  obtain ⟨⟨run, htells⟩, hconserves, _⟩ := hreturns.conserves hbuilt
  exact ⟨hreturns, run, htells, hconserves run htells⟩

end PackageOrder
