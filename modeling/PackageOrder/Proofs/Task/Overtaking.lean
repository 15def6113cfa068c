/-
PackageOrder.Proofs.Task.Overtaking — when an entry-point is skipped although one
of its tasks was compiled.

An entry-point overtakes something that it depends on when its first task stands
before that and nothing leads back (`Overtakes`): its tasks are started without
waiting. If one of them is under way when what is overtaken fails, the others are
dropped and the entry-point is skipped; the one under way still ends.

* `QueueRun.Reachable.overtook` — only what overtakes a failing dependency and has
  a second task comes to this.
* `Coordinator.exists_skipped_processed` — and for all that do there are messages
  that bring it about: everything else is processed until both are under way.
* `skips_compiled_iff` puts it together.
-/
import PackageOrder.Proofs.Task.Conservation
import PackageOrder.Proofs.Task.Schedule
import PackageOrder.Proofs.Task.Waiting

namespace PackageOrder

open Relation (TransGen)

variable {α : Type} {graph : Graph α} {tasks : List Task}

/-- An entry-point stands before one that it depends on and that does not depend
on it. -/
structure Overtakes (tasks : List Task) (graph : Graph α) (path other : String) : Prop where
  depends : graph.DependsOn path other
  first : StartsBefore tasks path other
  apart : ¬ graph.DependsOn other path

theorem Overtakes.ne {path other : String} (h : Overtakes tasks graph path other) :
    path ≠ other := by
  rintro rfl
  exact h.apart h.depends

namespace QueueRun

variable {run : QueueRun}

/-- What is skipped and was started has overtaken something that failed. -/
def Overtook (tasks : List Task) (graph : Graph α) (run : QueueRun) : Prop :=
  ∀ entryPoint ∈ run.skipped,
    ∀ task ∈ run.completed ++ run.failed ++ run.running, task.path = entryPoint.path →
      2 ≤ (tasksOf entryPoint.path tasks).length
        ∧ ∃ failed ∈ run.failed, Overtakes tasks graph entryPoint.path failed.path

/-- A failing task that makes an entry-point be skipped which was started was
overtaken by it. -/
theorem overtakes_of_skippedBy (haccount : Accounted tasks graph run)
    (horder : InOrder tasks graph run) (hgraph : graph.Coherent) {task started : Task}
    (htask : task ∈ run.running) {entryPoint : EntryPoint}
    (hskipped : entryPoint ∈ run.queue.skippedBy task)
    (hstarted : started ∈ run.completed ++ run.failed ++ run.running)
    (hpath : started.path = entryPoint.path) :
    2 ≤ (tasksOf entryPoint.path tasks).length
      ∧ Overtakes tasks graph entryPoint.path task.path := by
  obtain ⟨hleading, hdropped, hne⟩ := mem_skippedBy.mp hskipped
  rw [haccount.mem_droppedBy hgraph (haccount.mem_of_running htask)] at hdropped
  have hd := (hdropped.resolve_left hne).2
  obtain ⟨waiting, hwaiting⟩ : ∃ waiting, waiting ∈ tasksOf entryPoint.path run.queue.pending := by
    obtain ⟨waiting, hwaiting, _⟩ := List.mem_map.mp hleading
    exact ⟨waiting, List.mem_of_mem_take hwaiting⟩
  obtain ⟨hwaits, hsame⟩ := mem_tasksOf.mp hwaiting
  have hnot : ¬ StartsBefore tasks task.path entryPoint.path := by
    intro hbefore
    rw [← hpath] at hd hbefore
    exact horder started hstarted task.path hd hbefore task (by simp [htask]) rfl
  have hfirst : StartsBefore tasks entryPoint.path task.path :=
    (startsBefore_total ⟨task, haccount.mem_of_running htask, rfl⟩ hne.symm).resolve_left hnot
  refine ⟨?_, hd, hfirst, ?_⟩
  · -- one task was started, another one waits
    have hparted := congrArg List.length (haccount.parted entryPoint.path)
    have hone : 0 < (tasksOf entryPoint.path
        (run.completed ++ run.failed ++ run.running)).length :=
      List.length_pos_of_mem (mem_tasksOf.mpr ⟨hstarted, hpath⟩)
    have hother := List.length_pos_of_mem hwaiting
    simp only [tasksOf_append, List.length_append] at hparted hone
    omega
  · intro hback
    exact horder task (by simp [htask]) entryPoint.path hback hfirst waiting (by simp [hwaits])
      hsame

theorem Overtook.take (h : Overtook tasks graph run) (haccount : Accounted tasks graph run)
    (hskips : run.Skips graph) {task : Task} {queue : TaskQueue}
    (hnext : run.queue.next? = some (task, queue)) :
    Overtook tasks graph { run with queue, running := task :: run.running } := by
  intro entryPoint hskipped started hstarted hpath
  have hold : started = task ∨ started ∈ run.completed ++ run.failed ++ run.running := by
    simp only [List.mem_append, List.mem_cons] at hstarted ⊢
    tauto
  rcases hold with rfl | hold
  · have hblocked := hskips.blocked entryPoint hskipped
    rw [← hpath] at hblocked
    exact absurd hblocked.spoiled (haccount.not_spoiled_of_next hnext)
  · exact h entryPoint hskipped started hold hpath

theorem Overtook.complete (h : Overtook tasks graph run) {task : Task} {before after : List Task}
    (hrunning : run.running = before ++ task :: after) :
    Overtook tasks graph
      { run with
        queue := run.queue.complete task
        running := before ++ after
        completed := run.completed ++ [task] } := by
  intro entryPoint hskipped started hstarted hpath
  refine h entryPoint hskipped started ?_ hpath
  simp only [hrunning, List.mem_append, List.mem_cons, List.not_mem_nil] at hstarted ⊢
  tauto

theorem Overtook.fail (h : Overtook tasks graph run) (haccount : Accounted tasks graph run)
    (horder : InOrder tasks graph run) (hgraph : graph.Coherent) {task : Task}
    {before after : List Task} (hrunning : run.running = before ++ task :: after) :
    Overtook tasks graph
      { run with
        queue := run.queue.fail task
        running := before ++ after
        failed := run.failed ++ [task]
        dropped := run.dropped ++ run.queue.pending.filter (run.drops task)
        skipped := run.skipped ++ run.queue.skippedBy task } := by
  intro entryPoint hskipped started hstarted hpath
  have hold : started ∈ run.completed ++ run.failed ++ run.running := by
    simp only [hrunning, List.mem_append, List.mem_cons, List.not_mem_nil] at hstarted ⊢
    tauto
  rcases List.mem_append.mp hskipped with hbefore | hnew
  · obtain ⟨htwo, failed, hfailed, hovertakes⟩ := h entryPoint hbefore started hold hpath
    exact ⟨htwo, failed, List.mem_append_left _ hfailed, hovertakes⟩
  · obtain ⟨htwo, hovertakes⟩ :=
      overtakes_of_skippedBy haccount horder hgraph (by simp [hrunning]) hnew hold hpath
    exact ⟨htwo, task, List.mem_append_right _ (List.mem_singleton_self task), hovertakes⟩

theorem Reachable.overtook (hgraph : graph.Coherent) (hrun : Reachable tasks graph run) :
    Overtook tasks graph run := by
  induction hrun with
  | refl => exact fun _ hskipped => absurd hskipped List.not_mem_nil
  | tail hreached hstep ih =>
    have haccount := Reachable.accounted hgraph hreached
    cases hstep with
    | take hnext => exact ih.take haccount (Reachable.skips hgraph hreached) hnext
    | complete hrunning => exact ih.complete hrunning
    | fail hrunning => exact ih.fail haccount (Reachable.inOrder hgraph hreached) hgraph hrunning

/-- A task of which nothing has come waits or is under way while nothing has
failed. -/
theorem Accounted.mem_left (h : Accounted tasks graph run) (hfailed : run.failed = [])
    {task : Task} (htask : task ∈ tasks)
    (hcompleted : ∀ done ∈ run.completed, done.path ≠ task.path) :
    task ∈ run.running ∨ task ∈ run.queue.pending := by
  have hmem := h.perm.subset htask
  simp only [hfailed, List.append_nil, List.mem_append] at hmem
  rcases hmem with ((hdone | hrunning) | hwaits) | hdropped
  · exact absurd rfl (hcompleted task hdone)
  · exact Or.inl hrunning
  · exact Or.inr hwaits
  · obtain ⟨failed, hmem, _⟩ := h.dropped task hdropped
    rw [hfailed] at hmem
    cases hmem

/-- An entry-point with a second task has it waiting while the first one is under
way and nothing has come of it. -/
theorem Accounted.exists_waiting (h : Accounted tasks graph run) (hfailed : run.failed = [])
    {task : Task} (htask : task ∈ run.running)
    (hcompleted : ∀ done ∈ run.completed, done.path ≠ task.path)
    (htwo : 2 ≤ (tasksOf task.path tasks).length) :
    tasksOf task.path run.queue.pending ≠ [] := by
  obtain ⟨before, after, hrunning⟩ := List.append_of_mem htask
  have hclean : ¬ run.Spoiled graph task.path := by
    rintro ⟨failed, hmem, _⟩
    rw [hfailed] at hmem
    cases hmem
  have hparted := congrArg List.length (h.parted task.path)
  rw [tasksOf_eq_nil.mpr hcompleted, hfailed, (h.tasksOf_alone hrunning).1,
    h.tasksOf_dropped_eq_nil hclean] at hparted
  intro hnil
  rw [hnil] at hparted
  simp only [tasksOf_nil, List.nil_append, List.append_nil, List.length_singleton] at hparted
  omega

end QueueRun

namespace Coordinator

/-! ## A run with workers for all tasks -/

section Schedule

variable {strict : Bool} {workers : Nat} {read : List (Nat × String)}
  {sent : List (Nat × Task)} {last : Coordinator}

/-- Nothing has failed, and no task of an entry-point was processed. -/
structure Untouched (coordinator : Coordinator) (path : String) : Prop where
  failed : coordinator.progress.summary.failed = []
  processed : ∀ task ∈ coordinator.progress.summary.processed, task.path ≠ path

namespace Untouched

variable {coordinator : Coordinator} {run : QueueRun} {running : List Task} {path : String}

theorem gives (h : coordinator.Untouched path) {given : Dispatch}
    (hgives : coordinator.Gives given) : given.coordinator.Untouched path :=
  ⟨hgives.summary ▸ h.failed, hgives.summary ▸ h.processed⟩

theorem failed_eq_nil (h : coordinator.Untouched path)
    (hhistory : run.IsHistory coordinator.progress running) : run.failed = [] := by
  rw [hhistory.failed, h.failed]
  rfl

theorem path_ne_of_mem_completed (h : coordinator.Untouched path)
    (hhistory : run.IsHistory coordinator.progress running) :
    ∀ done ∈ run.completed, done.path ≠ path := by
  rw [hhistory.completed]
  exact h.processed

/-- While nothing has come of an entry-point with tasks, something is left to
do. -/
theorem isDone_eq_false (hgraph : graph.Coherent)
    (harises : coordinator.progress.Arises tasks graph running) {task : Task}
    (htask : task ∈ tasks) (h : coordinator.Untouched task.path) :
    coordinator.progress.queue.isDone = false := by
  by_contra hdone
  rw [Bool.not_eq_false] at hdone
  have hidle := harises.eq_nil_of_isDone hgraph hdone
  obtain ⟨run, hrun, hhistory⟩ := harises
  have hrunning := hhistory.running
  rw [hidle] at hrunning
  rw [TaskQueue.isDone, Bool.and_eq_true, List.isEmpty_iff, ← hhistory.queue] at hdone
  rcases (hrun.accounted hgraph).mem_left (h.failed_eq_nil hhistory) htask
    (h.path_ne_of_mem_completed hhistory) with hmem | hmem
  · rw [hrunning.eq_nil] at hmem
    cases hmem
  · rw [hdone.1] at hmem
    cases hmem

end Untouched

/-- Of an entry-point with tasks that nothing has come of, one is given to a worker
when there are workers enough and nothing is under way that it waits for. -/
theorem Comes.exists_busy (hgraph : graph.Coherent) (hworkers : tasks.length < workers)
    (h : Comes strict (List.replicate workers true) (start (TaskQueue.ofTasks tasks graph) workers)
      read sent last)
    (hwaits : last.verdict? (List.replicate workers true) = none) {task : Task}
    (htask : task ∈ tasks) (huntouched : last.Untouched task.path)
    (hothers : ∀ entry ∈ (last.prepare (List.replicate workers true)).coordinator.busy,
      graph.DependsOn task.path entry.2.path → ¬ StartsBefore tasks entry.2.path task.path) :
    ∃ entry ∈ (last.prepare (List.replicate workers true)).coordinator.busy,
      entry.2.path = task.path := by
  have hgives := gives_of_verdict?_eq_none hwaits
  have huntouched := huntouched.gives hgives
  obtain ⟨run, hrun, hhistory⟩ := arises_prepare h.arises hwaits
  have haccount := hrun.accounted hgraph
  have hbusy : ∀ {running}, running ∈ run.running →
      ∃ entry ∈ (last.prepare (List.replicate workers true)).coordinator.busy,
        entry.2 = running :=
    fun hrunning => List.mem_map.mp (hhistory.running.subset hrunning)
  -- there are more workers than tasks
  have hidle : none ∈ (last.prepare (List.replicate workers true)).coordinator.assignments := by
    by_contra hall
    have hmany := length_busyFrom 0 hall
    have hlength := haccount.perm.length_eq
    have hrunning := hhistory.running.length_eq
    rw [List.length_map, busy] at hrunning
    rw [hgives.length, h.length_assignments] at hmany
    simp only [List.length_append] at hlength
    omega
  have hnone := hgives.idle hidle
  rw [← hhistory.queue] at hnone
  rcases haccount.mem_left (huntouched.failed_eq_nil hhistory) htask
    (huntouched.path_ne_of_mem_completed hhistory) with hrunning | hpending
  · obtain ⟨entry, hentry, rfl⟩ := hbusy hrunning
    exact ⟨entry, hentry, rfl⟩
  · obtain ⟨running, hrunning, hwaited⟩ := haccount.exists_running hgraph hnone hpending
    obtain ⟨entry, hentry, rfl⟩ := hbusy hrunning
    rcases hwaited with hpath | ⟨hd, hbefore⟩
    · exact ⟨entry, hentry, hpath⟩
    · exact absurd hbefore (hothers entry hentry hd)

/-- When everything else is processed, an entry-point and what it overtakes are
under way at once. -/
theorem Comes.exists_both (hgraph : graph.Coherent) (hworkers : tasks.length < workers)
    {one other : Task} (hone : one ∈ tasks) (hother : other ∈ tasks)
    (hovertakes : Overtakes tasks graph one.path other.path)
    (h : Comes strict (List.replicate workers true) (start (TaskQueue.ofTasks tasks graph) workers)
      read sent last)
    (hfirst : last.Untouched one.path) (hsecond : last.Untouched other.path) :
    ∃ read' sent' after, Comes strict (List.replicate workers true)
        (start (TaskQueue.ofTasks tasks graph) workers) read' sent' after
      ∧ after.verdict? (List.replicate workers true) = none ∧ after.Untouched one.path
      ∧ (∃ entry ∈ (after.prepare (List.replicate workers true)).coordinator.busy,
          entry.2.path = one.path)
      ∧ ∃ entry ∈ (after.prepare (List.replicate workers true)).coordinator.busy,
          entry.2.path = other.path := by
  induction hleft : last.tasksLeft using Nat.strongRecOn generalizing read sent last with
  | ind left ih =>
    subst hleft
    have hwaits := h.goes_on hgraph (by omega) (hfirst.isDone_eq_false hgraph h.arises hone)
    by_cases hall : ∀ entry ∈ (last.prepare (List.replicate workers true)).coordinator.busy,
        entry.2.path = one.path ∨ entry.2.path = other.path
    · -- neither of the two waits for the other
      refine ⟨_, _, _, h, hwaits, hfirst, ?_, ?_⟩
      · apply h.exists_busy hgraph hworkers hwaits hone hfirst
        intro entry hentry _ hbefore
        rcases hall entry hentry with hpath | hpath
        · rw [hpath] at hbefore
          exact Nat.lt_irrefl _ hbefore
        · rw [hpath] at hbefore
          exact Nat.lt_asymm hbefore hovertakes.first
      · apply h.exists_busy hgraph hworkers hwaits hother hsecond
        intro entry hentry hd hbefore
        rcases hall entry hentry with hpath | hpath
        · rw [hpath] at hd
          exact hovertakes.apart hd
        · rw [hpath] at hbefore
          exact Nat.lt_irrefl _ hbefore
    · push Not at hall
      obtain ⟨entry, hentry, hne, hne'⟩ := hall
      obtain ⟨middle, hmiddle, hsummary, hfewer⟩ := h.reply_processed hwaits hentry
      have huntouched : ∀ {path}, last.Untouched path → entry.2.path ≠ path →
          middle.Untouched path := by
        intro path hbefore hpath
        refine ⟨by rw [hsummary]; exact hbefore.failed, ?_⟩
        intro task htask
        rw [hsummary] at htask
        rcases List.mem_append.mp htask with htask | htask
        · exact hbefore.processed task htask
        · rwa [List.mem_singleton.mp htask]
      exact ih _ hfewer hmiddle (huntouched hfirst hne) (huntouched hsecond hne') rfl

/-- When what is overtaken fails while both are under way, the other tasks of the
entry-point are dropped. -/
theorem Comes.mem_skippedBy (hgraph : graph.Coherent) {inboxes : List Bool}
    (h : Comes strict inboxes (start (TaskQueue.ofTasks tasks graph) workers) read sent last)
    (hwaits : last.verdict? inboxes = none) {entry entry' : Nat × Task}
    (hentry : entry ∈ (last.prepare inboxes).coordinator.busy)
    (hentry' : entry' ∈ (last.prepare inboxes).coordinator.busy)
    (huntouched : last.Untouched entry.2.path)
    (hovertakes : Overtakes tasks graph entry.2.path entry'.2.path)
    (htwo : 2 ≤ (tasksOf entry.2.path tasks).length) :
    entry.2.path ∈ ((last.prepare inboxes).coordinator.progress.queue.skippedBy entry'.2).map
      EntryPoint.path := by
  have huntouched := huntouched.gives (gives_of_verdict?_eq_none hwaits)
  obtain ⟨run, hrun, hhistory⟩ := arises_prepare h.arises hwaits
  have haccount := hrun.accounted hgraph
  have hrunning : ∀ {entry}, entry ∈ (last.prepare inboxes).coordinator.busy →
      entry.2 ∈ run.running :=
    fun hentry => hhistory.running.symm.subset (List.mem_map_of_mem hentry)
  have hone := haccount.mem_of_running (hrunning hentry)
  have hother := haccount.mem_of_running (hrunning hentry')
  obtain ⟨waiting, rest, hwaiting⟩ := List.exists_cons_of_ne_nil
    (haccount.exists_waiting (huntouched.failed_eq_nil hhistory) (hrunning hentry)
      (huntouched.path_ne_of_mem_completed hhistory) htwo)
  have hpath : waiting.path = entry.2.path := by
    have hmem : waiting ∈ tasksOf entry.2.path run.queue.pending := by simp [hwaiting]
    exact (mem_tasksOf.mp hmem).2
  rw [← hhistory.queue]
  refine List.mem_map.mpr ⟨waiting.entryPoint, QueueRun.mem_skippedBy.mpr ⟨?_, ?_, ?_⟩, hpath⟩
  · change waiting.entryPoint ∈ leading (tasksOf waiting.path run.queue.pending)
    rw [hpath, hwaiting]
    exact List.mem_singleton_self _
  · change waiting.path ∈ _
    rw [haccount.mem_droppedBy hgraph hother, hpath]
    exact Or.inr ⟨TaskQueue.mem_pathsOf.mpr ⟨_, hone, rfl⟩, hovertakes.depends⟩
  · change waiting.path ≠ _
    rw [hpath]
    exact hovertakes.ne

/-- **An entry-point that overtakes a dependency** and has a second task may be
skipped although its first task was processed. -/
theorem exists_skipped_processed (hgraph : graph.Coherent) {one other : Task}
    (hone : one ∈ tasks) (hother : other ∈ tasks)
    (hovertakes : Overtakes tasks graph one.path other.path)
    (htwo : 2 ≤ (tasksOf one.path tasks).length) :
    ∃ inboxes workers messages summary,
      (serve false inboxes (start (TaskQueue.ofTasks tasks graph) workers) messages).result
          = .ok summary
        ∧ one.path ∈ summary.skipped.map EntryPoint.path
        ∧ ∃ task ∈ summary.processed, task.path = one.path := by
  let workers := tasks.length + 1
  let inboxes := List.replicate workers true
  have huntouched : ∀ path, (start (TaskQueue.ofTasks tasks graph) workers).Untouched path :=
    fun _ => ⟨rfl, fun _ htask => absurd htask List.not_mem_nil⟩
  have hstart : Comes false inboxes (start (TaskQueue.ofTasks tasks graph) workers) [] []
      (start (TaskQueue.ofTasks tasks graph) workers) := .first
  obtain ⟨_, _, both, hboth, hwaits, hfirst, ⟨entry, hentry, hpath⟩, ⟨entry', hentry', hpath'⟩⟩ :=
    hstart.exists_both hgraph (Nat.lt_succ_self _) hone hother hovertakes (huntouched _)
      (huntouched _)
  rw [← hpath] at hfirst htwo
  rw [← hpath, ← hpath'] at hovertakes
  -- what is overtaken fails
  have hskips := hboth.mem_skippedBy hgraph hwaits hentry hentry' hfirst hovertakes htwo
  obtain ⟨failed, hfailed, _, hfails, hbusy⟩ := hboth.reply_failed hwaits hentry' "failed"
  have hunder : entry ∈ failed.busy := by
    refine List.mem_of_ne_of_mem ?_ (hbusy.subset hentry)
    rintro rfl
    exact hovertakes.ne rfl
  have hleft : failed.progress.queue.isDone = false := by
    rw [← Bool.not_eq_true, hfailed.isDone_iff hgraph, tasksLeft]
    have := List.length_pos_of_mem hunder
    omega
  -- what was under way is processed, and so is the rest
  have hwaits' := hfailed.goes_on hgraph (Nat.succ_pos _) hleft
  have hentry'' : entry ∈ (failed.prepare inboxes).coordinator.busy :=
    (gives_of_verdict?_eq_none hwaits').busy.symm.subset (List.mem_append_right _ hunder)
  obtain ⟨processed, hprocessed, hsummary, _⟩ := hfailed.reply_processed hwaits' hentry''
  obtain ⟨messages, _, last, hlast, hdone, hkeeps, hkeeps'⟩ :=
    hprocessed.finishes hgraph (Nat.succ_pos _)
  rw [hsummary] at hkeeps hkeeps'
  rw [hfails] at hkeeps'
  refine ⟨inboxes, workers, messages, _, hlast.serve_of_isDone hdone, ?_, entry.2,
    hkeeps (List.mem_append_right _ (List.mem_singleton_self _)), hpath⟩
  rw [← hpath]
  exact List.map_subset _ hkeeps' (by
    rw [List.map_append]
    exact List.mem_append_right _ hskips)

end Schedule

end Coordinator

/-! ## What may be skipped and compiled -/

/-- In whatever way a run returns a summary, what it has skipped although a task
of it has ended has overtaken something that failed. -/
theorem Returns.overtakes (hgraph : graph.Coherent) {strict : Bool} {summary : Summary}
    (h : Returns strict tasks graph summary) {path : String}
    (hskipped : path ∈ summary.skipped.map EntryPoint.path)
    (hended : ∃ task ∈ summary.ended, task.path = path) :
    2 ≤ (tasksOf path tasks).length
      ∧ ∃ entry ∈ summary.failed, Overtakes tasks graph path entry.1.path := by
  obtain ⟨run, htells⟩ := h.exists_tells hgraph
  obtain ⟨entryPoint, hentryPoint, rfl⟩ := List.mem_map.mp hskipped
  obtain ⟨task, htask, hpath⟩ := hended
  rw [← htells.skipped] at hentryPoint
  rw [Summary.ended, ← htells.completed, ← htells.failed] at htask
  obtain ⟨htwo, failed, hfailed, hovertakes⟩ := htells.reachable.overtook hgraph entryPoint
    hentryPoint task (List.mem_append_left _ htask) hpath
  rw [htells.failed] at hfailed
  obtain ⟨entry, hentry, rfl⟩ := List.mem_map.mp hfailed
  exact ⟨htwo, entry, hentry, hovertakes⟩

/-- **Which entry-points may be skipped although a task of them was compiled**:
those with several tasks that overtake a dependency with tasks, and no others. -/
theorem skips_compiled_iff (hgraph : graph.Built) (path : String) :
    (∃ inboxes workers messages summary,
        (Coordinator.serve false inboxes (.start (TaskQueue.ofTasks tasks graph) workers)
            messages).result = .ok summary
          ∧ path ∈ summary.skipped.map EntryPoint.path ∧ ∃ task ∈ summary.ended, task.path = path)
      ↔ 2 ≤ (tasksOf path tasks).length
        ∧ ∃ other ∈ tasks, Overtakes tasks graph path other.path := by
  have hcoherent := hgraph.coherent
  constructor
  · rintro ⟨inboxes, workers, messages, summary, hserve, hskipped, hended⟩
    have hreturns : Returns false tasks graph summary := .served inboxes workers messages hserve
    obtain ⟨htwo, entry, hentry, hovertakes⟩ := hreturns.overtakes hcoherent hskipped hended
    obtain ⟨run, htells⟩ := hreturns.exists_tells hcoherent
    refine ⟨htwo, entry.1, ?_, hovertakes⟩
    apply (htells.reachable.accounted hcoherent).mem_of_failed
    rw [htells.failed]
    exact List.mem_map_of_mem hentry
  · rintro ⟨htwo, other, hother, hovertakes⟩
    obtain ⟨one, hone⟩ := List.exists_mem_of_length_pos (l := tasksOf path tasks) (by omega)
    obtain ⟨hmem, rfl⟩ := mem_tasksOf.mp hone
    obtain ⟨inboxes, workers, messages, summary, hserve, hskipped, task, htask, hpath⟩ :=
      Coordinator.exists_skipped_processed hcoherent hmem hother hovertakes htwo
    exact ⟨inboxes, workers, messages, summary, hserve, hskipped, task,
      List.mem_append_left _ htask, hpath⟩

/-- The entry-point with a path that has a main bundle and another one. -/
def twoBundlesAt (path : String) : EntryPoint :=
  { mainAt path with
    packageJson := [("main", .string "./main.js"), ("module", .string "./module.js")] }

/-- The two entry-points that need each other, of which the one that is listed
first has two formats. -/
def mutualNeedsTwoBundles : SortedEntryPoints :=
  { mutualNeeds with entryPoints := [twoBundlesAt "/y", mainAt "/b", mainAt "/x"] }

/-- The task for the main bundle of an entry-point with two. -/
def mainOfTwoAt (path : String) : Task :=
  { mainTaskAt path with entryPoint := twoBundlesAt path }

/-- Of the two that need each other only the one that overtakes the third may be
skipped and compiled. -/
theorem skips_compiled_iff_mutualNeeds :
    let graph := mutualNeedsTwoBundles.graph
    let tasks := mutualNeedsTwoBundles.tasks [.main, .module] true
    let skipsCompiled := fun path => ∃ inboxes workers messages summary,
      (Coordinator.serve false inboxes (.start (TaskQueue.ofTasks tasks graph) workers)
          messages).result = .ok summary
        ∧ path ∈ summary.skipped.map EntryPoint.path ∧ ∃ task ∈ summary.ended, task.path = path
    graph.Built ∧ Overtakes tasks graph "/y" "/b" ∧ skipsCompiled "/y" ∧ ¬ skipsCompiled "/x" := by
  intro graph tasks skipsCompiled
  have hovertakes : Overtakes tasks graph "/y" "/b" :=
    { depends := TransGen.head leads_mutualNeeds.2 (TransGen.single leads_mutualNeeds.1)
      first := by decide
      apart := not_dependsOn_mutualNeeds "/y" }
  refine ⟨built_mutualNeeds, hovertakes, ?_, ?_⟩
  · apply (skips_compiled_iff built_mutualNeeds "/y").mpr
    exact ⟨by decide, mainTaskAt "/b",
      List.mem_of_getElem? (show tasks[2]? = some (mainTaskAt "/b") from rfl), hovertakes⟩
  · intro hskips
    have htwo := ((skips_compiled_iff built_mutualNeeds "/x").mp hskips).1
    exact absurd htwo (by decide)

/-- An entry-point is skipped although its first format was processed. -/
theorem planTasks_skips_compiled :
    mutualNeedsTwoBundles.graph.Built
      ∧ mutualNeedsTwoBundles.entryPoints.map EntryPoint.path
        = mutualNeedsTwoBundles.graph.overallOrder
      ∧ ∃ queue after summary,
        (planTasks mutualNeedsTwoBundles [.main, .module] true).runFrom { tree := {} }
          = (.ok queue, after)
        ∧ (Coordinator.serve false [true, true] (.start queue 2)
            [(1, (WorkerReport.ended (.failed "boom")).text),
              (0, (WorkerReport.ended .processed).text)]).result = .ok summary
        ∧ "/y" ∈ summary.skipped.map EntryPoint.path
        ∧ mainOfTwoAt "/y" ∈ summary.processed := by
  let tasks := mutualNeedsTwoBundles.tasks [.main, .module] true
  let first := Coordinator.start (TaskQueue.ofTasks tasks mutualNeedsTwoBundles.graph) 2
  have hbuilt := built_mutualNeeds
  have hstart : Coordinator.Comes false [true, true] first [] [] first := .first
  have hwaits : first.verdict? [true, true] = none := rfl
  have hgiven : (first.prepare [true, true]).coordinator.busy
      = [(0, mainOfTwoAt "/y"), (1, mainTaskAt "/b")] := rfl
  obtain ⟨failed, hfailed, hqueue, hskipped, hbusy⟩ :=
    hstart.reply_failed hwaits (show (1, mainTaskAt "/b") ∈ _ by simp [hgiven]) "boom"
  have hpending : failed.progress.queue.pending = [] := by
    rw [hqueue]
    exact List.isEmpty_iff.mp (by decide +kernel)
  rw [hgiven] at hbusy
  have hunder : failed.busy = [(0, mainOfTwoAt "/y")] :=
    List.perm_singleton.mp ((List.Perm.swap _ _ []).symm.trans hbusy).cons_inv.symm
  have hone : failed.tasksLeft = 1 := by
    rw [Coordinator.tasksLeft, hpending, hunder]
    rfl
  have hleft : failed.progress.queue.isDone = false := by
    rw [← Bool.not_eq_true, hfailed.isDone_iff hbuilt.coherent, hone]
    decide
  have hwaits' := hfailed.goes_on hbuilt.coherent (show 0 < 2 by decide) hleft
  obtain ⟨last, hlast, hsummary, hfewer⟩ := hfailed.reply_processed hwaits'
    (show (0, mainOfTwoAt "/y") ∈ _ from
      (Coordinator.gives_of_verdict?_eq_none hwaits').busy.symm.subset (by simp [hunder]))
  have hdone : last.progress.queue.isDone = true := by
    rw [hlast.isDone_iff hbuilt.coherent]
    omega
  refine ⟨hbuilt, rfl, _, _, _, rfl, hlast.serve_of_isDone hdone, ?_, ?_⟩
  · rw [hsummary, hskipped]
    decide +kernel
  · rw [hsummary]
    exact List.mem_append_right _ (List.mem_singleton_self _)

end PackageOrder
