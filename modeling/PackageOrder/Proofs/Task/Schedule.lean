/-
PackageOrder.Proofs.Task.Schedule — messages that bring a run forward.

A busy worker may report that its task was processed or has failed, and the
coordinator replies (`Coordinator.Comes.reply_processed`,
`Coordinator.Comes.reply_failed`). With a worker, and every inbox open, a run goes
on while something is left to do (`Coordinator.Comes.goes_on`), so that it may
always be brought to its end (`Coordinator.Comes.finishes`).
-/
import PackageOrder.Proofs.Task.TaskMessage
import PackageOrder.Proofs.Task.Service

namespace PackageOrder

namespace Coordinator

/-! ## Replies -/

section Reply

variable {strict : Bool} {inboxes : List Bool} {first last : Coordinator}
  {read : List (Nat × String)} {sent : List (Nat × Task)}

/-- The report of a busy worker is replied to, if its task does not end the run. -/
theorem Comes.reply_ended (h : Comes strict inboxes first read sent last)
    (hwaits : last.verdict? inboxes = none) {entry : Nat × Task}
    (hentry : entry ∈ (last.prepare inboxes).coordinator.busy) (outcome : Outcome)
    {progress : Progress} {log : Log}
    (hsettle : (last.prepare inboxes).coordinator.progress.settle strict entry.2 outcome
      = .ok (progress, log)) :
    ∃ after, Comes strict inboxes first (read ++ [(entry.1, (WorkerReport.ended outcome).text)])
        (sent ++ (last.prepare inboxes).sent) after
      ∧ after.progress = progress
      ∧ (last.prepare inboxes).coordinator.busy.Perm (entry :: after.busy)
      ∧ after.tasksLeft < last.tasksLeft := by
  have hreceive := receive_of_ended strict (WorkerReport.read?_text (.ended outcome))
    (assigned_of_mem_busy hentry)
  rw [hsettle] at hreceive
  refine ⟨_, h.reply hwaits hreceive, rfl, busy_perm hentry, ?_⟩
  rw [← (gives_of_verdict?_eq_none hwaits).tasksLeft]
  exact tasksLeft_of_receive hreceive

/-- A worker has processed its task. -/
theorem Comes.reply_processed (h : Comes strict inboxes first read sent last)
    (hwaits : last.verdict? inboxes = none) {entry : Nat × Task}
    (hentry : entry ∈ (last.prepare inboxes).coordinator.busy) :
    ∃ after, Comes strict inboxes first
        (read ++ [(entry.1, (WorkerReport.ended .processed).text)])
        (sent ++ (last.prepare inboxes).sent) after
      ∧ after.progress.summary
        = { last.progress.summary with
            processed := last.progress.summary.processed ++ [entry.2] }
      ∧ after.tasksLeft < last.tasksLeft := by
  obtain ⟨after, hcomes, hprogress, _, hfewer⟩ := h.reply_ended hwaits hentry .processed rfl
  refine ⟨after, hcomes, ?_, hfewer⟩
  rw [hprogress, ← (gives_of_verdict?_eq_none hwaits).summary]

/-- The task of a worker has failed. -/
theorem Comes.reply_failed (h : Comes false inboxes first read sent last)
    (hwaits : last.verdict? inboxes = none) {entry : Nat × Task}
    (hentry : entry ∈ (last.prepare inboxes).coordinator.busy) (message : String) :
    ∃ after, Comes false inboxes first
        (read ++ [(entry.1, (WorkerReport.ended (.failed message)).text)])
        (sent ++ (last.prepare inboxes).sent) after
      ∧ after.progress.queue = (last.prepare inboxes).coordinator.progress.queue.fail entry.2
      ∧ after.progress.summary
        = { last.progress.summary with
            failed := last.progress.summary.failed ++ [(entry.2, message)]
            skipped := last.progress.summary.skipped
              ++ (last.prepare inboxes).coordinator.progress.queue.skippedBy entry.2 }
      ∧ (last.prepare inboxes).coordinator.busy.Perm (entry :: after.busy) := by
  obtain ⟨after, hcomes, hprogress, hbusy, _⟩ :=
    h.reply_ended hwaits hentry (.failed message) rfl
  rw [← (gives_of_verdict?_eq_none hwaits).summary]
  exact ⟨after, hcomes, by rw [hprogress], by rw [hprogress], hbusy⟩

end Reply

/-! ## To the end of a run -/

section Schedule

variable {α : Type} {graph : Graph α} {tasks : List Task} {strict : Bool} {workers : Nat}
  {read : List (Nat × String)} {sent : List (Nat × Task)} {last : Coordinator}

/-- Nothing is left to do when no task waits and no worker is busy. -/
theorem Comes.isDone_iff (hgraph : graph.Coherent) {inboxes : List Bool}
    (h : Comes strict inboxes (start (TaskQueue.ofTasks tasks graph) workers) read sent last) :
    last.progress.queue.isDone = true ↔ last.tasksLeft = 0 := by
  rw [tasksLeft, Nat.add_eq_zero_iff, List.length_eq_zero_iff, List.length_eq_zero_iff]
  constructor
  · intro hdone
    have hidle := h.arises.eq_nil_of_isDone hgraph hdone
    rw [TaskQueue.isDone, Bool.and_eq_true, List.isEmpty_iff] at hdone
    exact ⟨hdone.1, List.map_eq_nil_iff.mp hidle⟩
  · rintro ⟨hpending, hidle⟩
    obtain ⟨run, hrun, hhistory⟩ := h.arises
    have hrunning := hhistory.running
    rw [hidle] at hrunning
    rw [TaskQueue.isDone, hpending, ← hhistory.queue, (hrun.accounted hgraph).inProgress,
      hrunning.eq_nil]
    rfl

/-- With something left to do and every inbox open, the run goes on. -/
theorem Comes.goes_on (hgraph : graph.Coherent) (hworkers : 0 < workers)
    (h : Comes strict (List.replicate workers true) (start (TaskQueue.ofTasks tasks graph) workers)
      read sent last)
    (hleft : last.progress.queue.isDone = false) :
    last.verdict? (List.replicate workers true) = none := by
  have hlength := h.length_assignments
  apply verdict?_eq_none.mpr
  refine ⟨hleft, dispatch_failure_eq_none hgraph h.arises ?_ ?_ hleft⟩
  · rw [← List.length_pos_iff, hlength]
    exact hworkers
  · intro worker hworker
    rw [List.getElem?_replicate, if_pos (by omega)]

/-- When the workers process what they are given, the run comes to its end. -/
theorem Comes.finishes (hgraph : graph.Coherent) (hworkers : 0 < workers)
    (h : Comes strict (List.replicate workers true) (start (TaskQueue.ofTasks tasks graph) workers)
      read sent last) :
    ∃ read' sent' after, Comes strict (List.replicate workers true)
        (start (TaskQueue.ofTasks tasks graph) workers) read' sent' after
      ∧ after.progress.queue.isDone = true
      ∧ last.progress.summary.processed ⊆ after.progress.summary.processed
      ∧ last.progress.summary.skipped ⊆ after.progress.summary.skipped := by
  induction hleft : last.tasksLeft using Nat.strongRecOn generalizing read sent last with
  | ind left ih =>
    subst hleft
    by_cases hdone : last.progress.queue.isDone = true
    · exact ⟨_, _, _, h, hdone, List.Subset.refl _, List.Subset.refl _⟩
    · have hwaits := h.goes_on hgraph hworkers (Bool.not_eq_true _ ▸ hdone)
      obtain ⟨entry, rest, hbusy⟩ :=
        List.exists_cons_of_ne_nil (gives_of_verdict?_eq_none hwaits).occupied
      obtain ⟨middle, hmiddle, hsummary, hfewer⟩ :=
        h.reply_processed hwaits (hbusy ▸ List.mem_cons_self)
      obtain ⟨read', sent', after, hafter, hend, hprocessed, hskipped⟩ := ih _ hfewer hmiddle rfl
      rw [hsummary] at hprocessed hskipped
      exact ⟨read', sent', after, hafter, hend,
        fun task htask => hprocessed (List.mem_append_left _ htask), hskipped⟩

end Schedule

end Coordinator

end PackageOrder
