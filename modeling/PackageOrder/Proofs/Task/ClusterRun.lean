/-
PackageOrder.Proofs.Task.ClusterRun — a run with workers comes to an end,
whatever the order in which the coordinator reads their reports.

* `Serving` — before it gives out tasks the coordinator follows the states of
  its queue, and the reports that wait for it are those of the busy workers.
* `runCluster_concludes` — each round settles one task, so that the rounds do.
-/
import PackageOrder.Proofs.Task.Followed
import PackageOrder.Proofs.Task.TaskMessage

namespace PackageOrder

namespace Coordinator

/-! ## Giving out tasks -/

section Fill

variable {α : Type} {tasks : List Task} {graph : Graph α} {verdict : Task → Outcome}

/-- What giving out tasks to workers with open inboxes comes to. -/
structure Dispatched (tasks : List Task) (graph : Graph α) (verdict : Task → Outcome)
    (coordinator : Coordinator) (given : Dispatch) : Prop where
  unfailed : given.failure = none
  follows : given.coordinator.progress.Follows tasks graph verdict
    (given.sent.map Prod.snd ++ coordinator.busy.map Prod.snd)
  busy : given.coordinator.busy.Perm (given.sent ++ coordinator.busy)
  occupied : given.coordinator.busy ≠ []
  summary : given.coordinator.progress.summary = coordinator.progress.summary
  pending : given.coordinator.progress.queue.pending.length + given.sent.length
    = coordinator.progress.queue.pending.length
  workers : given.coordinator.assignments ≠ []

/-- With something left to do, some worker is busy after that. -/
theorem dispatched {coordinator : Coordinator} (hgraph : graph.Coherent)
    (h : coordinator.progress.Follows tasks graph verdict (coordinator.busy.map Prod.snd))
    (hworkers : coordinator.assignments ≠ [])
    (hleft : coordinator.progress.queue.isDone = false) :
    Dispatched tasks graph verdict coordinator
      (coordinator.dispatch (coordinator.assignments.map fun _ => true)) := by
  have hopen : ∀ worker < coordinator.assignments.length,
      (coordinator.assignments.map fun _ => true)[worker]? = some true := by
    intro worker hworker
    rw [List.getElem?_map, List.getElem?_eq_getElem hworker]
    rfl
  have hunfailed := dispatch_failure_eq_none hgraph h.arises hworkers hopen hleft
  have hgives := gives hunfailed
  refine ⟨hunfailed, ?_, hgives.busy, hgives.occupied, hgives.summary, ?_, ?_⟩
  · refine Progress.follows_iff.mpr ⟨?_, ?_⟩
    · have harises := h.arises.takes hgives.takes rfl
      rwa [← hgives.summary] at harises
    · rw [hgives.summary]
      exact (Progress.follows_iff.mp h).2
  · have hlength := hgives.takes.length_pending
    rwa [List.length_map] at hlength
  · intro hnil
    have hlength := hgives.length
    rw [hnil] at hlength
    exact hworkers (List.length_eq_zero_iff.mp hlength.symm)

end Fill

end Coordinator

/-! ## Reports -/

/-- An item is taken out of its place. -/
theorem takeAt_eq_some {β : Type} {index : Nat} {items rest : List β} {item : β}
    (h : takeAt index items = some (item, rest)) : items.Perm (item :: rest) := by
  obtain ⟨found, hfound, heq⟩ := Option.map_eq_some_iff.mp h
  cases heq
  obtain ⟨hlt, rfl⟩ := List.getElem?_eq_some_iff.mp hfound
  exact (List.getElem_cons_eraseIdx_perm hlt).symm

/-- There is always an item to take, however the index wraps around. -/
theorem takeAt_isSome {β : Type} (index : Nat) {items : List β} (h : items ≠ []) :
    ∃ item rest, takeAt index items = some (item, rest) := by
  have hlt : index % items.length < items.length :=
    Nat.mod_lt _ (List.length_pos_of_ne_nil h)
  refine ⟨items[index % items.length], items.eraseIdx (index % items.length), ?_⟩
  rw [takeAt, List.getElem?_eq_getElem hlt]
  rfl

/-- What a worker reports of its task. -/
def reportOf (verdict : Task → Outcome) (entry : Nat × Task) : Nat × String :=
  (entry.1, (WorkerReport.ended (verdict entry.2)).text)

section Run

variable {α : Type} {tasks : List Task} {graph : Graph α} {verdict : Task → Outcome}
  {strict : Bool} {compiler : Compiler} {notes : List Task}

/-- A worker that can read its message compiles the task and reports it. -/
theorem workerReport_run (hdecides : compiler.Decides verdict) (worker : Nat) {task : Task}
    (hmessage : readTaskMessage? (taskMessage task) = some task) (session : Session) :
    ∃ after, (workerReport compiler worker (taskMessage task)).run session
        = (.ended (verdict task), after)
      ∧ (compiler.KeepsNotes → after.compiled = session.compiled ++ [task]) := by
  obtain ⟨after, hcompiled, hnoted⟩ := compileTask_run hdecides task session
  refine ⟨after, ?_, hnoted⟩
  unfold workerReport
  rw [hmessage]
  dsimp only
  rw [StateT.run_bind, hcompiled]
  rfl

/-- The workers that are given tasks compile and report them. -/
theorem runFrom_reports (hdecides : compiler.Decides verdict) {sent : List (Nat × Task)}
    (hsent : ∀ entry ∈ sent, readTaskMessage? (taskMessage entry.2) = some entry.2)
    (session : Session) :
    ∃ after,
      (workerReports compiler sent).runFrom session = (.ok (sent.map (reportOf verdict)), after)
      ∧ (compiler.KeepsNotes → after.compiled = session.compiled ++ sent.map Prod.snd) := by
  unfold workerReports
  induction sent generalizing session with
  | nil => exact ⟨session, rfl, fun _ => (List.append_nil _).symm⟩
  | cons entry sent ih =>
    obtain ⟨middle, hreport, hnoted⟩ :=
      workerReport_run hdecides entry.1 (hsent entry List.mem_cons_self) session
    obtain ⟨after, hrest, hafter⟩ :=
      ih (fun later hl => hsent later (List.mem_cons_of_mem _ hl)) middle
    refine ⟨after, ?_, ?_⟩
    · rw [List.mapM_cons, Run.runFrom_bind, Run.runFrom_bind, Run.runFrom_liftM, hreport]
      dsimp only
      rw [Run.runFrom_pure]
      dsimp only
      rw [Run.runFrom_bind, hrest]
      rfl
    · intro hkeeps
      rw [hafter hkeeps, hnoted hkeeps, List.map_cons, List.append_assoc]
      rfl

/-! ## Rounds -/

/-- Before it gives out tasks the coordinator follows the states of its queue, and
the reports that wait for it are those of its busy workers. -/
structure Serving (strict : Bool) (tasks : List Task) (graph : Graph α)
    (verdict : Task → Outcome) (compiler : Compiler) (notes : List Task) (session : Session)
    (coordinator : Coordinator) (waiting : List (Nat × String)) : Prop where
  following : Following strict tasks graph verdict compiler notes session coordinator.progress
    (coordinator.busy.map Prod.snd)
  waiting : waiting.Perm (coordinator.busy.map (reportOf verdict))
  workers : coordinator.assignments ≠ []

/-- Tasks are given out and compiled, and the coordinator waits for a report. -/
theorem Serving.dispatch (hgraph : graph.Coherent) (hdecides : compiler.Decides verdict)
    (hmessages : ∀ task ∈ tasks, readTaskMessage? (taskMessage task) = some task)
    {session : Session} {coordinator : Coordinator} {waiting : List (Nat × String)}
    (h : Serving strict tasks graph verdict compiler notes session coordinator waiting)
    {given : Dispatch}
    (hgiven : Coordinator.Dispatched tasks graph verdict coordinator given) :
    ∃ after,
      (workerReports compiler given.sent).runFrom session
        = (.ok (given.sent.map (reportOf verdict)), after)
      ∧ Serving strict tasks graph verdict compiler notes after given.coordinator
          (waiting ++ given.sent.map (reportOf verdict)) := by
  have hsent : ∀ entry ∈ given.sent, readTaskMessage? (taskMessage entry.2) = some entry.2 := by
    intro entry he
    apply hmessages
    exact hgiven.follows.arises.mem_of_running hgraph
      (List.mem_append_left _ (List.mem_map_of_mem he))
  obtain ⟨after, hreports, hnoted⟩ := runFrom_reports hdecides hsent session
  have hrunning : (given.sent.map Prod.snd ++ coordinator.busy.map Prod.snd).Perm
      (given.coordinator.busy.map Prod.snd) := by
    rw [← List.map_append]
    exact (hgiven.busy.map _).symm
  refine ⟨after, hreports, ⟨?_, ?_, ?_⟩, ?_, hgiven.workers⟩
  · exact hgiven.follows.congr hrunning
  · rw [hgiven.summary]
    exact h.following.unfailed
  · intro hkeeps
    rw [hnoted hkeeps, hgiven.summary]
    refine ((h.following.noted hkeeps).append_right _).trans ?_
    rw [List.append_assoc, List.append_assoc]
    exact ((List.perm_append_comm.trans hrunning).append_left _).append_left _
  · refine (h.waiting.append_right _).trans ?_
    rw [← List.map_append]
    exact ((hgiven.busy.trans List.perm_append_comm).map _).symm

/-- The reports that are awaited are those of the busy workers, of which there is one, and no
task is lost. -/
theorem Serving.awaits (hgraph : graph.Coherent) (hdecides : compiler.Decides verdict)
    (hmessages : ∀ task ∈ tasks, readTaskMessage? (taskMessage task) = some task)
    {session after : Session} {coordinator : Coordinator} {waiting reports : List (Nat × String)}
    (h : Serving strict tasks graph verdict compiler notes session coordinator waiting)
    {given : Dispatch} (hgiven : GivenOut compiler session coordinator given reports after) :
    Serving strict tasks graph verdict compiler notes after given.coordinator (waiting ++ reports)
      ∧ waiting ++ reports ≠ []
      ∧ given.coordinator.progress.queue.pending.length + given.coordinator.busy.length
        = coordinator.progress.queue.pending.length + coordinator.busy.length := by
  obtain ⟨hleft, rfl, _, hreports⟩ := hgiven
  have hdispatched := Coordinator.dispatched hgraph h.following.follows h.workers hleft
  have hheard : ∀ said : Log, Serving strict tasks graph verdict compiler notes
      { session with log := said } coordinator waiting :=
    fun said => ⟨{ h.following with }, h.waiting, h.workers⟩
  obtain ⟨_, hreports', hserving⟩ :=
    (hheard _).dispatch hgraph hdecides hmessages hdispatched
  cases hreports.symm.trans hreports'
  refine ⟨hserving, ?_, ?_⟩
  · intro hnil
    have hnone := hserving.waiting.symm
    rw [hnil] at hnone
    exact hdispatched.occupied (List.map_eq_nil_iff.mp hnone.eq_nil)
  · have hlength := hdispatched.busy.length_eq
    rw [List.length_append] at hlength
    have hmoved := hdispatched.pending
    omega

/-- A report is taken, and its task is settled. -/
theorem Serving.receive {session : Session} {coordinator : Coordinator}
    {waiting rest : List (Nat × String)} {worker : Nat} {text : String}
    (h : Serving strict tasks graph verdict compiler notes session coordinator waiting)
    (hgraph : graph.Coherent) (htaken : waiting.Perm ((worker, text) :: rest)) :
    (∃ after log, coordinator.receive strict worker text = .ok (after, log)
      ∧ (∀ said : Log, Serving strict tasks graph verdict compiler notes
          { session with log := said } after rest)
      ∧ after.progress.queue.pending.length ≤ coordinator.progress.queue.pending.length
      ∧ after.busy.length + 1 = coordinator.busy.length)
    ∨ ∃ failure task, coordinator.receive strict worker text = .error failure
      ∧ strict = true ∧ task ∈ tasks ∧ verdict task ≠ .processed := by
  obtain ⟨entry, hentry, hreport⟩ : ∃ entry ∈ coordinator.busy,
      reportOf verdict entry = (worker, text) :=
    List.mem_map.mp (h.waiting.subset (htaken.symm.subset List.mem_cons_self))
  cases hreport
  have hreceive := Coordinator.receive_of_ended strict
    (WorkerReport.read?_text (.ended (verdict entry.2))) (Coordinator.assigned_of_mem_busy hentry)
  have hbusy := Coordinator.busy_perm hentry
  rcases h.following.settle (hbusy.map Prod.snd) with
    ⟨progress, log, hsettle, hpending, hfollowing⟩ | ⟨hstrict, hfails, failure, hsettle⟩
  · rw [hsettle] at hreceive
    refine Or.inl ⟨_, _, hreceive, fun said => ⟨hfollowing said, ?_, ?_⟩, hpending,
      hbusy.length_eq.symm⟩
    · exact (htaken.symm.trans (h.waiting.trans (hbusy.map _))).cons_inv
    · intro hnil
      rw [List.set_eq_nil_iff] at hnil
      exact h.workers hnil
  · rw [hsettle] at hreceive
    exact Or.inr ⟨failure, entry.2, hreceive, hstrict,
      h.following.follows.arises.mem_of_running hgraph (List.mem_map_of_mem hentry), hfails⟩

/-- Rounds enough for the tasks that wait or are under way come to an end. -/
theorem clusterRounds_concludes (hgraph : graph.Coherent) (hdecides : compiler.Decides verdict)
    (hmessages : ∀ task ∈ tasks, readTaskMessage? (taskMessage task) = some task)
    (choice : Nat → Nat) (rounds : Nat) :
    ∀ {session : Session} {coordinator : Coordinator} {waiting : List (Nat × String)},
      Serving strict tasks graph verdict compiler notes session coordinator waiting →
      coordinator.progress.queue.pending.length + coordinator.busy.length < rounds →
      Concludes strict tasks graph verdict compiler notes
        ((clusterRounds strict compiler choice rounds coordinator waiting).runFrom session) := by
  induction rounds with
  | zero =>
    intro session coordinator waiting _ hrounds
    exact absurd hrounds (Nat.not_lt_zero _)
  | succ rounds ih =>
    intro session coordinator waiting h hrounds
    have hround := clusterRounds_round strict compiler choice rounds session coordinator waiting
    generalize (clusterRounds strict compiler choice (rounds + 1) coordinator waiting).runFrom
      session = ran at hround ⊢
    cases hround with
    | finished hdone =>
      have hidle := h.following.follows.arises.eq_nil_of_isDone hgraph hdone
      have hfollowing := h.following
      rw [hidle] at hfollowing
      exact .finished hfollowing hdone
    | stuck hleft hfailure =>
      have hdispatched := Coordinator.dispatched hgraph h.following.follows h.workers hleft
      cases hdispatched.unfailed.symm.trans hfailure
    | abandoned hgiven htake =>
      -- a worker is busy, and so its report waits
      obtain ⟨_, hsome, _⟩ := h.awaits hgraph hdecides hmessages hgiven
      obtain ⟨item, rest, hitem⟩ := takeAt_isSome (choice rounds) hsome
      cases htake.symm.trans hitem
    | refused hgiven htake hreceive =>
      obtain ⟨hserving, _, _⟩ := h.awaits hgraph hdecides hmessages hgiven
      rcases hserving.receive hgraph (takeAt_eq_some htake) with
        ⟨next, log, hreceive', _⟩ | ⟨failure, task, _, hstrict, htask, hfails⟩
      · cases hreceive.symm.trans hreceive'
      · exact .stopped hstrict htask hfails
    | replied hgiven htake hreceive =>
      obtain ⟨hserving, _, hsame⟩ := h.awaits hgraph hdecides hmessages hgiven
      rcases hserving.receive hgraph (takeAt_eq_some htake) with
        ⟨next, log, hreceive', hnext, hpending, hbusy⟩ | ⟨failure, _, hreceive', _⟩
      · cases hreceive.symm.trans hreceive'
        exact ih (hnext _) (by omega)
      · cases hreceive.symm.trans hreceive'

/-- **A run with workers** ends with nothing left to do, unless a failing task has
stopped a strict run. -/
theorem runCluster_concludes (hgraph : graph.Coherent) (hdecides : compiler.Decides verdict)
    (hmessages : ∀ task ∈ tasks, readTaskMessage? (taskMessage task) = some task)
    (strict : Bool) (choice : Nat → Nat) (workers : Nat) (session : Session) :
    Concludes strict tasks graph verdict compiler session.compiled
      ((runCluster strict compiler choice workers (TaskQueue.ofTasks tasks graph)).runFrom
        session) := by
  have hbusy := Coordinator.busy_start (TaskQueue.ofTasks tasks graph) (max workers 1)
  unfold runCluster
  dsimp only
  rw [Run.runFrom_bind, Run.runFrom_say]
  apply clusterRounds_concludes hgraph hdecides hmessages
  · refine ⟨?_, ?_, ?_⟩
    · rw [hbusy]
      exact { following_start strict tasks graph verdict compiler session with }
    · rw [hbusy]
      exact List.Perm.refl _
    · intro hnil
      have hlength := congrArg List.length hnil
      rw [Coordinator.start, List.length_replicate, List.length_nil] at hlength
      omega
  · rw [hbusy]
    exact Nat.lt_succ_self _

end Run

end PackageOrder
