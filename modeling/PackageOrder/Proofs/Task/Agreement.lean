/-
PackageOrder.Proofs.Task.Agreement — one task after the other or with workers,
the tasks come to the same.

`runs_agree` puts it together: the state in which either run ends is one that the
queue may come to, and of those in which nothing is left to do there is but one,
up to the order of its lists.
-/
import PackageOrder.Proofs.Task.ClusterRun

namespace PackageOrder

section Agreement

variable {α : Type} {tasks : List Task} {graph : Graph α} {verdict : Task → Outcome}
  {strict : Bool} {compiler : Compiler} {notes : List Task} {session : Session}
  {progress : Progress}

/-- The state of the queue in which a run has ended. -/
theorem Following.exists_done
    (h : Following strict tasks graph verdict compiler notes session progress [])
    (hdone : progress.queue.isDone = true) :
    ∃ run, QueueRun.Reachable tasks graph run ∧ run.Done ∧ run.Shows verdict progress [] := by
  obtain ⟨run, hrun, hshows⟩ := h.follows
  refine ⟨run, hrun, ⟨?_, hshows.running.eq_nil⟩, hshows⟩
  rw [hshows.queue]
  rw [TaskQueue.isDone, Bool.and_eq_true, List.isEmpty_iff] at hdone
  exact hdone.1

/-- What a run has come to when it has ended. -/
theorem Following.settles
    (h : Following strict tasks graph verdict compiler notes session progress [])
    (hgraph : graph.Coherent) (htopological : Topological tasks graph)
    (hdone : progress.queue.isDone = true) {places : List Nat}
    (hpicks : Picks (Hindered tasks graph verdict) verdict tasks places) :
    Compiles tasks graph verdict places
      ∧ progress.summary.Settles tasks graph verdict places := by
  obtain ⟨run, hrun, hend, hshows⟩ := h.exists_done hdone
  have haccount := hrun.accounted hgraph
  have horderly := hrun.orderly hgraph htopological
  have hobeys := hshows.obeys
  have hperm := QueueRun.taken_perm haccount horderly hend hobeys hpicks
  refine ⟨QueueRun.compiles haccount hend hobeys hpicks hperm, ?_, hshows.processed,
    hshows.messages, ?_, ?_⟩
  · rw [← hshows.completed, ← hshows.failed]
    exact hperm
  · rw [← hshows.skipped]
    exact horderly.nodup_skipped
  · intro entryPoint
    rw [← hshows.skipped, horderly.mem_skipped_iff, QueueRun.blocked_iff_of_perm hobeys hperm]

/-- A run that ends without a failure has no failing task. -/
theorem Following.failed_ne_nil
    (h : Following strict tasks graph verdict compiler notes session progress [])
    (hgraph : graph.Coherent) (hdone : progress.queue.isDone = true) {task : Task}
    (htask : task ∈ tasks) (hfails : verdict task ≠ .processed) :
    progress.summary.failed ≠ [] := by
  obtain ⟨run, hrun, hend, hshows⟩ := h.exists_done hdone
  have hfailed := QueueRun.failed_ne_nil (hrun.accounted hgraph) hend hshows.obeys htask hfails
  intro hnil
  rw [hshows.failed, hnil] at hfailed
  exact hfailed rfl

theorem Summary.Settles.failed_ne_nil_iff
    (h : Following false tasks graph verdict compiler notes session progress [])
    (hgraph : graph.Coherent) (hdone : progress.queue.isDone = true) {places : List Nat}
    (hsettles : progress.summary.Settles tasks graph verdict places) :
    progress.summary.failed ≠ [] ↔ ∃ task ∈ tasks, verdict task ≠ .processed := by
  constructor
  · intro hne
    obtain ⟨entry, rest, heq⟩ := List.exists_cons_of_ne_nil hne
    have hentry : entry ∈ progress.summary.failed := by simp [heq]
    have htaken : entry.1 ∈ tasksAt tasks places :=
      hsettles.taken.subset (List.mem_append_right _ (List.mem_map_of_mem hentry))
    obtain ⟨place, _, hplace⟩ := mem_tasksAt.mp htaken
    refine ⟨entry.1, List.mem_of_getElem? hplace, ?_⟩
    rw [hsettles.failed entry hentry]
    exact fun hne => Outcome.noConfusion hne
  · rintro ⟨task, htask, hfails⟩
    exact h.failed_ne_nil hgraph hdone htask hfails

/-- A run that is not strict comes to a summary. -/
theorem Concludes.exists_summary {result : Except Failure Summary × Session}
    (h : Concludes false tasks graph verdict compiler notes result) :
    ∃ progress after, result = (.ok progress.summary, after)
      ∧ Following false tasks graph verdict compiler notes after progress []
      ∧ progress.queue.isDone = true := by
  cases h with
  | finished hfollowing hdone => exact ⟨_, _, rfl, hfollowing, hdone⟩
  | stopped hstrict _ _ => cases hstrict

/-- A strict run fails when there is a failing task. -/
theorem Concludes.fails_iff (hgraph : graph.Coherent) {result : Except Failure Summary × Session}
    (h : Concludes true tasks graph verdict compiler notes result) :
    (∃ failure last, result = (.error failure, last))
      ↔ ∃ task ∈ tasks, verdict task ≠ .processed := by
  cases h with
  | finished hfollowing hdone =>
    constructor
    · rintro ⟨failure, last, heq⟩
      cases heq
    · rintro ⟨task, htask, hfails⟩
      exact absurd (hfollowing.unfailed rfl) (hfollowing.failed_ne_nil hgraph hdone htask hfails)
  | stopped _ htask hfails => exact ⟨fun _ => ⟨_, htask, hfails⟩, fun _ => ⟨_, _, rfl⟩⟩

/-- What was noted when a run has ended. -/
theorem Following.noted_tasksAt
    (h : Following strict tasks graph verdict compiler notes session progress [])
    {places : List Nat} (hsettles : progress.summary.Settles tasks graph verdict places)
    (hkeeps : compiler.KeepsNotes) : session.compiled.Perm (notes ++ tasksAt tasks places) := by
  refine (h.noted hkeeps).trans (List.Perm.append_left notes ?_)
  rw [List.append_nil]
  exact hsettles.taken

/-- **A run with workers comes to the same as a run on its own**, for every number
of workers and every order in which their reports are read. Both process, fail
and skip the same, and it is settled which tasks they compile; a strict run
fails when the other one has a failed task. -/
theorem runs_agree (hgraph : graph.Built) (htopological : Topological tasks graph)
    (hdecides : compiler.Decides verdict)
    (hmessages : ∀ task ∈ tasks, readTaskMessage? (taskMessage task) = some task) :
    ∃ places, Compiles tasks graph verdict places
      ∧ ∀ (choice : Nat → Nat) (workers : Nat) (session : Session),
        let single := fun strict =>
          (runSingle strict compiler (TaskQueue.ofTasks tasks graph)).runFrom session
        let cluster := fun strict =>
          (runCluster strict compiler choice workers (TaskQueue.ofTasks tasks graph)).runFrom
            session
        ∃ one other after after',
          single false = (.ok one, after) ∧ cluster false = (.ok other, after')
          ∧ one.Settles tasks graph verdict places ∧ other.Settles tasks graph verdict places
          ∧ one.processed.Perm other.processed ∧ one.failed.Perm other.failed
          ∧ one.skipped.Perm other.skipped
          ∧ (compiler.KeepsNotes →
              after.compiled.Perm (session.compiled ++ tasksAt tasks places)
              ∧ after'.compiled.Perm (session.compiled ++ tasksAt tasks places))
          ∧ ((∃ failure last, single true = (.error failure, last)) ↔ one.failed ≠ [])
          ∧ ((∃ failure last, cluster true = (.error failure, last)) ↔ one.failed ≠ []) := by
  have hcoherent := hgraph.coherent
  obtain ⟨places, hpicks⟩ := exists_picks (Hindered tasks graph verdict) verdict tasks
  have hsingle : ∀ strict session, Concludes strict tasks graph verdict compiler session.compiled
      ((runSingle strict compiler (TaskQueue.ofTasks tasks graph)).runFrom session) :=
    runSingle_concludes hcoherent hdecides
  have hcluster := runCluster_concludes hcoherent hdecides hmessages
  refine ⟨places, ?_, ?_⟩
  · obtain ⟨progress, after, _, h, hdone⟩ := (hsingle false { tree := {} }).exists_summary
    exact (h.settles hcoherent htopological hdone hpicks).1
  · intro choice workers session single cluster
    obtain ⟨one, after, hone, h, hdone⟩ := (hsingle false session).exists_summary
    obtain ⟨other, after', hother, h', hdone'⟩ :=
      (hcluster false choice workers session).exists_summary
    have hsettles := (h.settles hcoherent htopological hdone hpicks).2
    have hsettles' := (h'.settles hcoherent htopological hdone' hpicks).2
    have hfailed := Summary.Settles.failed_ne_nil_iff h hcoherent hdone hsettles
    obtain ⟨hprocessed, hfails, hskipped⟩ := hsettles.agree hsettles'
    refine ⟨one.summary, other.summary, after, after', hone, hother, hsettles, hsettles',
      hprocessed, hfails, hskipped, ?_, ?_, ?_⟩
    · intro hkeeps
      exact ⟨h.noted_tasksAt hsettles hkeeps, h'.noted_tasksAt hsettles' hkeeps⟩
    · rw [hfailed]
      exact (hsingle true session).fails_iff hcoherent
    · rw [hfailed]
      exact (hcluster true choice workers session).fails_iff hcoherent

end Agreement

/-- A compiler with one path at which it fails. -/
def failingAt (path : String) : Compiler := fun task =>
  return if task.path = path then .error "broken" [] else .done

/-- What it comes to. -/
def failsAt (path : String) (task : Task) : Outcome :=
  if task.path = path then .failed "broken" else .processed

theorem failingAt_decides (path : String) : (failingAt path).Decides (failsAt path) := by
  intro task session
  change (if task.path = path then CompileResult.error "broken" [] else .done).outcome = _
  unfold failsAt
  split <;> rfl

theorem readTaskMessage?_taskAt (path : String) :
    readTaskMessage? (taskMessage (QueueRun.taskAt path)) = some (QueueRun.taskAt path) := by
  rw [readTaskMessage?, taskMessage, readMessage?_compact _ rfl]
  · rfl
  · have hentryPoint : (QueueRun.taskAt path).entryPoint.toJson.Integral :=
      ⟨trivial, trivial, trivial, trivial, trivial, trivial, trivial, trivial, trivial, trivial,
        trivial⟩
    exact ⟨trivial, ⟨hentryPoint, trivial, trivial, trivial, trivial⟩, trivial⟩

/-- With one task that fails, what needs it is skipped, and the other task is
processed. -/
theorem runs_agree_one_failing :
    let graph := (((Graph.addNode ({} : Graph Unit) "/a" ()).addNode "/b" ()).addNode "/c"
      ()).addDependency "/a" "/c"
    let tasks := [QueueRun.taskAt "/b", QueueRun.taskAt "/c", QueueRun.taskAt "/a"]
    let single := fun strict =>
      (runSingle strict (failingAt "/c") (TaskQueue.ofTasks tasks graph)).runFrom { tree := {} }
    let cluster := fun strict =>
      (runCluster strict (failingAt "/c") id 2 (TaskQueue.ofTasks tasks graph)).runFrom
        { tree := {} }
    Topological tasks graph ∧ (failingAt "/c").Decides (failsAt "/c")
      ∧ (∀ task ∈ tasks, readTaskMessage? (taskMessage task) = some task)
      ∧ ∃ places one other after after', Compiles tasks graph (failsAt "/c") places
        ∧ single false = (.ok one, after) ∧ cluster false = (.ok other, after')
        ∧ one.failed = [(QueueRun.taskAt "/c", "broken")]
        ∧ one.processed.Perm other.processed ∧ one.failed.Perm other.failed
        ∧ one.skipped.Perm other.skipped
        ∧ (∃ failure last, single true = (.error failure, last))
        ∧ ∃ failure last, cluster true = (.error failure, last) := by
  intro graph tasks single cluster
  have hbuilt : graph.Built :=
    ((Graph.Built.empty.addNode "/a" ()).addNode "/b" ()).addNode "/c" () |>.addDependency "/a" "/c"
  have hl : ∀ source target, graph.Leads source target → source = "/a" ∧ target = "/c" := by
    intro source target hl
    rcases ((((Graph.Built.empty.addNode "/a" ()).addNode "/b" ()).addNode "/c"
      ()).coherent.leads_addDependency "/a" "/c" source target).mp hl with hl | ⟨_, h⟩
    · simp only [Graph.leads_addNode] at hl
      cases hl
    · exact h
  have hd : ∀ {source target}, graph.DependsOn source target → source = "/a" ∧ target = "/c" := by
    intro source target hd
    induction hd with
    | single hedge => exact hl _ _ hedge
    | tail _ hedge ih => exact absurd (ih.2.symm.trans (hl _ _ hedge).1) (by decide)
  have htopological : Topological tasks graph := by
    intro one _ other _ hdep
    obtain ⟨h1, h2⟩ := hd hdep
    rw [h1, h2]
    decide
  have hdecides := failingAt_decides "/c"
  have hmessages : ∀ task ∈ tasks, readTaskMessage? (taskMessage task) = some task := by
    intro task htask
    simp only [tasks, List.mem_cons, List.not_mem_nil, or_false] at htask
    rcases htask with rfl | rfl | rfl <;> exact readTaskMessage?_taskAt _
  obtain ⟨places, hcompiles, hruns⟩ := runs_agree hbuilt htopological hdecides hmessages
  obtain ⟨one, other, after, after', hone, hother, _, _, hprocessed, hfailed, hskipped, _, hsingle,
    hcluster⟩ := hruns id 2 { tree := {} }
  have hbroken : one.failed = [(QueueRun.taskAt "/c", "broken")] := by
    have hrun : ∃ last, single false = (.ok
        { processed := [QueueRun.taskAt "/b"]
          failed := [(QueueRun.taskAt "/c", "broken")]
          skipped := [(QueueRun.taskAt "/a").entryPoint] }, last) := ⟨_, rfl⟩
    obtain ⟨last, hrun⟩ := hrun
    cases hone.symm.trans hrun
    rfl
  refine ⟨htopological, hdecides, hmessages, places, one, other, after, after', hcompiles, hone,
    hother, hbroken, hprocessed, hfailed, hskipped, hsingle.mpr ?_, hcluster.mpr ?_⟩
  · simp [hbroken]
  · simp [hbroken]

end PackageOrder
