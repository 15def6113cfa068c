/-
PackageOrder.Proofs.Task.History — what a run of tasks has come to is a state
that its queue may come to, whatever compiling the tasks comes to.

* `TaskQueue.Takes` — some tasks are taken one after the other.
* `QueueRun.IsHistory` — a state of a queue tells what has become of the tasks
  of a run; `Progress.Arises` — there is such a state among those that the queue
  may come to.
* `Progress.Arises.take`, `Progress.Arises.settle` — taking tasks and settling
  them keeps it, for every outcome.

Nothing here asks that compiling a task comes to the same each time.
-/
import PackageOrder.Proofs.Task.Reached
import PackageOrder.Task.Progress

namespace PackageOrder

open Relation (ReflTransGen)

/-! ## Taking tasks -/

/-- Some tasks are taken from a queue one after the other. -/
inductive TaskQueue.Takes : TaskQueue → List Task → TaskQueue → Prop where
  | nil (queue : TaskQueue) : Takes queue [] queue
  | cons {queue middle after : TaskQueue} {task : Task} {tasks : List Task}
      (hnext : queue.next? = some (task, middle)) (hrest : Takes middle tasks after) :
      Takes queue (task :: tasks) after

namespace TaskQueue.Takes

variable {queue after : TaskQueue} {taken : List Task}

/-- What is taken no longer waits. -/
theorem pending_perm (h : Takes queue taken after) :
    queue.pending.Perm (taken ++ after.pending) := by
  induction h with
  | nil => exact List.Perm.refl _
  | cons hnext _ ih =>
    obtain ⟨front, back, hpending, rfl, _⟩ := next?_eq_some hnext
    rw [hpending]
    exact List.perm_middle.trans (ih.cons _)

theorem length_pending (h : Takes queue taken after) :
    after.pending.length + taken.length = queue.pending.length := by
  rw [h.pending_perm.length_eq, List.length_append, Nat.add_comm]

/-- What is taken is under way. -/
theorem inProgress_perm (h : Takes queue taken after) :
    after.inProgress.Perm (taken.map Task.path ++ queue.inProgress) := by
  induction h with
  | nil => exact List.Perm.refl _
  | cons hnext _ ih =>
    obtain ⟨_, _, _, rfl, _⟩ := next?_eq_some hnext
    exact ih.trans List.perm_middle

/-- Nothing is taken of what is under way. -/
theorem nodup_inProgress (h : Takes queue taken after) (hnodup : queue.inProgress.Nodup) :
    after.inProgress.Nodup := by
  induction h with
  | nil => exact hnodup
  | cons hnext _ ih =>
    obtain ⟨_, _, _, rfl, havailable, _⟩ := next?_eq_some hnext
    exact ih (List.nodup_cons.mpr ⟨(isAvailable_iff.mp havailable).1, hnodup⟩)

end TaskQueue.Takes

/-! ## Histories -/

/-- The tasks that have ended. -/
def Summary.ended (summary : Summary) : List Task :=
  summary.processed ++ summary.failed.map Prod.fst

/-- A summary with the record of one more task that has ended. -/
inductive Summary.Records (before : Summary) (task : Task) : Outcome → Summary → Prop where
  | processed :
      Records before task .processed { before with processed := before.processed ++ [task] }
  | failed (message : String) (skipped : List EntryPoint) :
      Records before task (.failed message)
        { before with
          failed := before.failed ++ [(task, message)]
          skipped := before.skipped ++ skipped }

theorem Summary.Records.ended_perm {before after : Summary} {task : Task} {outcome : Outcome}
    (h : before.Records task outcome after) : after.ended.Perm (before.ended ++ [task]) := by
  cases h with
  | processed =>
    rw [ended, ended, List.append_assoc, List.append_assoc]
    exact List.perm_append_comm.append_left _
  | failed message skipped =>
    rw [ended, ended, List.map_append, List.append_assoc]
    exact List.Perm.refl _

namespace Progress

variable {strict : Bool} {progress after : Progress} {task : Task} {outcome : Outcome} {log : Log}

/-- A run goes on after a task that was processed, and if it is not strict after one that
failed. -/
inductive GoesOn (progress : Progress) (task : Task) :
    Bool → Outcome → Progress → Log → Prop where
  | processed (strict : Bool) :
      GoesOn progress task strict .processed
        { queue := progress.queue.complete task
          summary :=
            { progress.summary with processed := progress.summary.processed ++ [task] } } []
  | failed (message : String) :
      GoesOn progress task false (.failed message)
        { queue := progress.queue.fail task
          summary :=
            { progress.summary with
              failed := progress.summary.failed ++ [(task, message)]
              skipped := progress.summary.skipped ++ progress.queue.skippedBy task } }
        (progress.failureNotes task message)

theorem goesOn_of_settle (h : progress.settle strict task outcome = .ok (after, log)) :
    progress.GoesOn task strict outcome after log := by
  cases outcome with
  | processed =>
    cases h
    exact .processed strict
  | failed message =>
    cases strict with
    | true => cases h
    | false =>
      cases h
      exact .failed message

/-- A task that ends without ending the run is recorded. -/
theorem records_of_settle (h : progress.settle strict task outcome = .ok (after, log)) :
    progress.summary.Records task outcome after.summary := by
  cases goesOn_of_settle h with
  | processed => exact .processed
  | failed message => exact .failed message _

/-- Of the processed tasks only that one may be new. -/
theorem mem_processed_of_settle (h : progress.settle strict task outcome = .ok (after, log))
    {other : Task} (hother : other ∈ after.summary.processed) :
    other ∈ progress.summary.processed ∨ other = task ∧ outcome = .processed := by
  cases goesOn_of_settle h with
  | processed =>
    rcases List.mem_append.mp hother with hother | hother
    · exact Or.inl hother
    · exact Or.inr ⟨List.mem_singleton.mp hother, rfl⟩
  | failed message => exact Or.inl hother

/-- Its entry-point is no longer under way. -/
theorem inProgress_of_settle (h : progress.settle strict task outcome = .ok (after, log)) :
    after.queue.inProgress = progress.queue.inProgress.filter (· ≠ task.path) := by
  cases goesOn_of_settle h <;> rfl

/-- No tasks come to those that wait. -/
theorem pending_of_settle (h : progress.settle strict task outcome = .ok (after, log)) :
    after.queue.pending.Sublist progress.queue.pending := by
  cases goesOn_of_settle h with
  | processed => exact List.Sublist.refl _
  | failed message => exact List.filter_sublist

theorem length_pending_of_settle (h : progress.settle strict task outcome = .ok (after, log)) :
    after.queue.pending.length ≤ progress.queue.pending.length :=
  (pending_of_settle h).length_le

/-- A strict run has no failed task. -/
theorem failed_of_settle (h : progress.settle true task outcome = .ok (after, log)) :
    after.summary.failed = progress.summary.failed := by
  cases goesOn_of_settle h
  rfl

/-- Only a failing task ends a run, and only a strict one. -/
theorem settle_cases (strict : Bool) (progress : Progress) (task : Task) (outcome : Outcome) :
    (∃ after log, progress.settle strict task outcome = .ok (after, log))
      ∨ strict = true ∧ outcome ≠ .processed
        ∧ ∃ entryPoint property message,
            progress.settle strict task outcome
              = .error (.taskFailed entryPoint property message) := by
  rcases outcome with _ | message
  · exact Or.inl ⟨_, _, rfl⟩
  · rcases strict with _ | _
    · exact Or.inl ⟨_, _, rfl⟩
    · exact Or.inr ⟨rfl, Outcome.noConfusion, _, _, _, rfl⟩

end Progress

/-- A state of a queue tells what has become of the tasks of a run, with some
tasks under way. -/
structure QueueRun.IsHistory (run : QueueRun) (progress : Progress) (running : List Task) :
    Prop where
  queue : run.queue = progress.queue
  running : run.running.Perm running
  completed : run.completed = progress.summary.processed
  failed : run.failed = progress.summary.failed.map Prod.fst
  skipped : run.skipped = progress.summary.skipped

/-- A run has come to a state that its queue may come to, with some tasks under
way. -/
def Progress.Arises {α : Type} (progress : Progress) (tasks : List Task) (graph : Graph α)
    (running : List Task) : Prop :=
  ∃ run, QueueRun.Reachable tasks graph run ∧ run.IsHistory progress running

namespace Progress

variable {α : Type} {tasks : List Task} {graph : Graph α} {progress : Progress}
  {running : List Task}

theorem arises_start (tasks : List Task) (graph : Graph α) :
    Arises { queue := TaskQueue.ofTasks tasks graph } tasks graph [] :=
  ⟨_, ReflTransGen.refl, rfl, List.Perm.refl _, rfl, rfl, rfl⟩

namespace Arises

theorem congr (h : progress.Arises tasks graph running) {others : List Task}
    (hperm : running.Perm others) : progress.Arises tasks graph others := by
  obtain ⟨run, hrun, hhistory⟩ := h
  exact ⟨run, hrun, { hhistory with running := hhistory.running.trans hperm }⟩

theorem mem_of_running (h : progress.Arises tasks graph running) (hgraph : graph.Coherent)
    {task : Task} (htask : task ∈ running) : task ∈ tasks := by
  obtain ⟨run, hrun, hhistory⟩ := h
  exact (hrun.accounted hgraph).mem_of_running (hhistory.running.symm.subset htask)

/-- With nothing under way a run is done or has a task that may start. -/
theorem exists_next (h : progress.Arises tasks graph []) (hgraph : graph.Coherent)
    (hleft : progress.queue.isDone = false) :
    ∃ task queue, progress.queue.next? = some (task, queue) := by
  obtain ⟨run, hrun, hhistory⟩ := h
  have haccount := hrun.accounted hgraph
  have hidle := hhistory.running.eq_nil
  rw [← hhistory.queue] at hleft ⊢
  apply haccount.exists_next hgraph hidle
  intro hnone
  rw [TaskQueue.isDone, hnone, haccount.inProgress, hidle] at hleft
  cases hleft

theorem isDone_of_next?_eq_none (h : progress.Arises tasks graph [])
    (hgraph : graph.Coherent) (hnone : progress.queue.next? = none) :
    progress.queue.isDone = true := by
  by_contra hleft
  obtain ⟨task, queue, hnext⟩ := h.exists_next hgraph (Bool.not_eq_true _ ▸ hleft)
  rw [hnone] at hnext
  cases hnext

/-- Nothing is under way in a run that is done. -/
theorem eq_nil_of_isDone (h : progress.Arises tasks graph running)
    (hgraph : graph.Coherent) (hdone : progress.queue.isDone = true) : running = [] := by
  obtain ⟨run, hrun, hhistory⟩ := h
  rw [← hhistory.queue, TaskQueue.isDone, (hrun.accounted hgraph).inProgress, Bool.and_eq_true,
    List.isEmpty_iff, List.isEmpty_iff, List.map_eq_nil_iff] at hdone
  have hidle := hhistory.running
  rw [hdone.2] at hidle
  exact hidle.symm.eq_nil

theorem take (h : progress.Arises tasks graph running) {task : Task} {queue : TaskQueue}
    (hnext : progress.queue.next? = some (task, queue)) :
    Arises { progress with queue } tasks graph (task :: running) := by
  obtain ⟨run, hrun, hhistory⟩ := h
  rw [← hhistory.queue] at hnext
  exact ⟨_, hrun.tail (.take hnext),
    { hhistory with queue := rfl, running := hhistory.running.cons task }⟩

theorem takes {queue after : TaskQueue} {taken : List Task} (htakes : queue.Takes taken after) :
    ∀ {progress : Progress} {running : List Task}, progress.queue = queue →
      progress.Arises tasks graph running →
      Arises { progress with queue := after } tasks graph (taken ++ running) := by
  induction htakes with
  | nil =>
    rintro progress running rfl h
    exact h
  | cons hnext _ ih =>
    rintro progress running rfl h
    exact (ih rfl (h.take hnext)).congr List.perm_middle

/-- A task that was under way has ended, in whatever way. -/
theorem settle (h : progress.Arises tasks graph running) {task : Task} {rest : List Task}
    (hrunning : running.Perm (task :: rest)) {strict : Bool} {outcome : Outcome}
    {after : Progress} {log : Log}
    (hsettle : progress.settle strict task outcome = .ok (after, log)) :
    after.Arises tasks graph rest := by
  obtain ⟨run, hrun, hhistory⟩ := h
  have hperm := hhistory.running.trans hrunning
  obtain ⟨before, behind, hsplit⟩ := List.append_of_mem (hperm.symm.subset List.mem_cons_self)
  have hrest : (before ++ behind).Perm rest := by
    rw [hsplit] at hperm
    exact (List.perm_middle.symm.trans hperm).cons_inv
  cases goesOn_of_settle hsettle with
  | processed =>
    refine ⟨_, hrun.tail (.complete hsplit), ?_⟩
    refine { hhistory with queue := ?_, running := hrest, completed := ?_ }
    · rw [hhistory.queue]
    · rw [hhistory.completed]
  | failed message =>
    refine ⟨_, hrun.tail (.fail hsplit), ?_⟩
    refine { hhistory with queue := ?_, running := hrest, failed := ?_, skipped := ?_ }
    · rw [hhistory.queue]
    · rw [hhistory.failed, List.map_append]
      rfl
    · rw [hhistory.skipped, hhistory.queue]

end Arises

end Progress

end PackageOrder
