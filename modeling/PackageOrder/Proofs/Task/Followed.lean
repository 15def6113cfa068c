/-
PackageOrder.Proofs.Task.Followed — a run of tasks follows the states that its
queue may come to.

* `Progress.Follows` — what a run has come to is a reached state of its queue,
  in which the tasks ended as a verdict says.
* `Following` — the same of a run in its session; `Concludes` — how such a run
  ends.
* `runSingle_concludes` — running the tasks one after the other ends so.
-/
import PackageOrder.Proofs.Task.Ending
import PackageOrder.Proofs.Task.Places

namespace PackageOrder

/-- What compiling a task comes to depends on the task alone, as a verdict says. -/
def Compiler.Decides (compiler : Compiler) (verdict : Task → Outcome) : Prop :=
  ∀ task session, ((compiler task).run session).1.outcome = verdict task

/-- Compiling leaves the notes on compiled tasks alone. -/
def Compiler.KeepsNotes (compiler : Compiler) : Prop :=
  ∀ task session, ((compiler task).run session).2.compiled = session.compiled

/-- The tasks of a summary ended as a verdict says. -/
structure Summary.Heeds (summary : Summary) (verdict : Task → Outcome) : Prop where
  processed : ∀ task ∈ summary.processed, verdict task = .processed
  messages : ∀ entry ∈ summary.failed, verdict entry.1 = .failed entry.2

/-- A state of a queue is what a run has come to. -/
structure QueueRun.Shows (run : QueueRun) (verdict : Task → Outcome) (progress : Progress)
    (running : List Task) : Prop where
  queue : run.queue = progress.queue
  running : run.running.Perm running
  completed : run.completed = progress.summary.processed
  failed : run.failed = progress.summary.failed.map Prod.fst
  skipped : run.skipped = progress.summary.skipped
  processed : ∀ task ∈ progress.summary.processed, verdict task = .processed
  messages : ∀ entry ∈ progress.summary.failed, verdict entry.1 = .failed entry.2

theorem QueueRun.Shows.obeys {run : QueueRun} {verdict : Task → Outcome} {progress : Progress}
    {running : List Task} (h : run.Shows verdict progress running) : run.Obeys verdict where
  completed := by
    rw [h.completed]
    exact h.processed
  failed := by
    rw [h.failed]
    intro task htask
    obtain ⟨entry, hentry, rfl⟩ := List.mem_map.mp htask
    simp [h.messages entry hentry]

variable {α : Type} {tasks : List Task} {graph : Graph α} {verdict : Task → Outcome}

/-- A run has come to a state that its queue may come to, with some tasks under
way. -/
def Progress.Follows (progress : Progress) (tasks : List Task) (graph : Graph α)
    (verdict : Task → Outcome) (running : List Task) : Prop :=
  ∃ run, QueueRun.Reachable tasks graph run ∧ run.Shows verdict progress running

namespace Progress

variable {progress : Progress} {running : List Task}

/-- A run follows the states of its queue if it arises from one and heeds the
verdict. -/
theorem follows_iff :
    progress.Follows tasks graph verdict running
      ↔ progress.Arises tasks graph running ∧ progress.summary.Heeds verdict := by
  constructor
  · rintro ⟨run, hrun, hshows⟩
    exact ⟨⟨run, hrun, { hshows with }⟩, { hshows with }⟩
  · rintro ⟨⟨run, hrun, hhistory⟩, hheeds⟩
    exact ⟨run, hrun, { hhistory with processed := hheeds.processed, messages := hheeds.messages }⟩

theorem follows_start (tasks : List Task) (graph : Graph α) (verdict : Task → Outcome) :
    Follows { queue := TaskQueue.ofTasks tasks graph } tasks graph verdict [] := by
  refine follows_iff.mpr ⟨arises_start tasks graph, ?_, ?_⟩
  · intro _ h
    cases h
  · intro _ h
    cases h

/-- A task that ends as the verdict says adds a record that does. -/
theorem heeds_settle (h : progress.summary.Heeds verdict) {strict : Bool} {task : Task}
    {after : Progress} {log : Log}
    (hsettle : progress.settle strict task (verdict task) = .ok (after, log)) :
    after.summary.Heeds verdict := by
  have hgoes := goesOn_of_settle hsettle
  generalize hverdict : verdict task = outcome at hgoes
  cases hgoes with
  | processed =>
    refine { h with processed := ?_ }
    intro done hdone
    rcases List.mem_append.mp hdone with hdone | hdone
    · exact h.processed done hdone
    · rw [List.mem_singleton.mp hdone, hverdict]
  | failed message =>
    refine { h with messages := ?_ }
    intro entry hentry
    rcases List.mem_append.mp hentry with hentry | hentry
    · exact h.messages entry hentry
    · rw [List.mem_singleton.mp hentry, hverdict]

namespace Follows

theorem arises (h : progress.Follows tasks graph verdict running) :
    progress.Arises tasks graph running :=
  (follows_iff.mp h).1

theorem congr (h : progress.Follows tasks graph verdict running) {others : List Task}
    (hperm : running.Perm others) : progress.Follows tasks graph verdict others :=
  follows_iff.mpr ⟨h.arises.congr hperm, (follows_iff.mp h).2⟩

theorem take (h : progress.Follows tasks graph verdict running) {task : Task} {queue : TaskQueue}
    (hnext : progress.queue.next? = some (task, queue)) :
    Follows { progress with queue } tasks graph verdict (task :: running) :=
  follows_iff.mpr ⟨h.arises.take hnext, (follows_iff.mp h).2⟩

/-- A task that was under way has ended. -/
theorem settle (h : progress.Follows tasks graph verdict running) {task : Task}
    {rest : List Task} (hrunning : running.Perm (task :: rest)) {strict : Bool}
    {after : Progress} {log : Log}
    (hsettle : progress.settle strict task (verdict task) = .ok (after, log)) :
    after.Follows tasks graph verdict rest :=
  follows_iff.mpr
    ⟨h.arises.settle hrunning hsettle, heeds_settle (follows_iff.mp h).2 hsettle⟩

end Follows

end Progress

/-! ## Runs in a session -/

/-- A run in its session: strict or not, with a compiler and the notes on what was
compiled before. -/
structure Following (strict : Bool) (tasks : List Task) (graph : Graph α)
    (verdict : Task → Outcome) (compiler : Compiler) (notes : List Task) (session : Session)
    (progress : Progress) (running : List Task) : Prop where
  follows : progress.Follows tasks graph verdict running
  unfailed : strict = true → progress.summary.failed = []
  noted : compiler.KeepsNotes →
    session.compiled.Perm (notes ++ (progress.summary.ended ++ running))

/-- What a run of tasks comes to: nothing is left to do, or it is strict and a
failing task has stopped it. -/
inductive Concludes (strict : Bool) (tasks : List Task) (graph : Graph α)
    (verdict : Task → Outcome) (compiler : Compiler) (notes : List Task) :
    Except Failure Summary × Session → Prop where
  | finished {after : Session} {progress : Progress}
      (hfollowing : Following strict tasks graph verdict compiler notes after progress [])
      (hdone : progress.queue.isDone = true) :
      Concludes strict tasks graph verdict compiler notes (.ok progress.summary, after)
  | stopped {after : Session} {failure : Failure} {task : Task} (hstrict : strict = true)
      (htask : task ∈ tasks) (hfails : verdict task ≠ .processed) :
      Concludes strict tasks graph verdict compiler notes (.error failure, after)

variable {strict : Bool} {compiler : Compiler} {notes : List Task} {session : Session}
  {progress : Progress} {running : List Task}

theorem following_start (strict : Bool) (tasks : List Task) (graph : Graph α)
    (verdict : Task → Outcome) (compiler : Compiler) (session : Session) :
    Following strict tasks graph verdict compiler session.compiled session
      { queue := TaskQueue.ofTasks tasks graph } [] where
  follows := Progress.follows_start tasks graph verdict
  unfailed := fun _ => rfl
  noted := by
    intro _
    simp [Summary.ended]

/-- Compiling a task comes to its verdict, and it is noted. -/
theorem compileTask_run (hdecides : compiler.Decides verdict) (task : Task) (session : Session) :
    ∃ after, (compileTask compiler task).run session = (verdict task, after)
      ∧ (compiler.KeepsNotes → after.compiled = session.compiled ++ [task]) := by
  refine ⟨_, Prod.ext (hdecides task _) rfl, ?_⟩
  intro hkeeps
  exact hkeeps task _

namespace Following

/-- A task is taken and compiled. -/
theorem take (h : Following strict tasks graph verdict compiler notes session progress running)
    {task : Task} {queue : TaskQueue} (hnext : progress.queue.next? = some (task, queue))
    {after : Session}
    (hnoted : compiler.KeepsNotes → after.compiled = session.compiled ++ [task]) :
    Following strict tasks graph verdict compiler notes after { progress with queue }
      (task :: running) := by
  refine ⟨h.follows.take hnext, h.unfailed, ?_⟩
  intro hkeeps
  rw [hnoted hkeeps]
  refine ((h.noted hkeeps).append_right [task]).trans ?_
  rw [List.append_assoc, List.append_assoc]
  exact (List.perm_append_comm.append_left _).append_left notes

/-- What is under way ends, or it fails and stops a strict run. -/
theorem settle (h : Following strict tasks graph verdict compiler notes session progress running)
    {task : Task} {rest : List Task} (hrunning : running.Perm (task :: rest)) :
    (∃ after log, progress.settle strict task (verdict task) = .ok (after, log)
      ∧ after.queue.pending.length ≤ progress.queue.pending.length
      ∧ ∀ said : Log, Following strict tasks graph verdict compiler notes
          { session with log := said } after rest)
    ∨ strict = true ∧ verdict task ≠ .processed
      ∧ ∃ failure, progress.settle strict task (verdict task) = .error failure := by
  rcases progress.settle_cases strict task (verdict task) with
    ⟨after, log, hsettle⟩ | ⟨hstrict, hfails, _, _, _, hsettle⟩
  · refine Or.inl ⟨after, log, hsettle, Progress.length_pending_of_settle hsettle,
      fun said => ⟨?_, ?_, ?_⟩⟩
    · exact h.follows.settle hrunning hsettle
    · rintro rfl
      rw [Progress.failed_of_settle hsettle, h.unfailed rfl]
    · intro hkeeps
      refine (h.noted hkeeps).trans (List.Perm.append_left notes ?_)
      have hended := (Progress.records_of_settle hsettle).ended_perm
      have hmoved := (hended.append_right rest).symm
      rw [List.append_assoc, List.singleton_append] at hmoved
      exact (hrunning.append_left _).trans hmoved
  · exact Or.inr ⟨hstrict, hfails, _, hsettle⟩

end Following

/-! ## One task after the other -/

/-- A round keeps what is followed. -/
theorem Following.round
    {middle : Session} {after : Progress} {task : Task} {queue : TaskQueue} {outcome : Outcome}
    {log : Log} (hdecides : compiler.Decides verdict)
    (h : Following strict tasks graph verdict compiler notes session progress [])
    (hnext : progress.queue.next? = some (task, queue))
    (hcompiled : (compileTask compiler task).run session = (outcome, middle))
    (hsettle : Progress.settle strict { progress with queue } task outcome = .ok (after, log)) :
    Following strict tasks graph verdict compiler notes
      { middle with log := middle.log ++ log } after [] := by
  obtain ⟨_, hverdict, hnoted⟩ := compileTask_run hdecides task session
  cases hcompiled.symm.trans hverdict
  rcases (h.take hnext hnoted).settle (List.Perm.refl [task]) with
    ⟨_, _, hsettle', _, hafter⟩ | ⟨_, _, _, hsettle'⟩
  · cases hsettle'.symm.trans hsettle
    exact hafter _
  · cases hsettle'.symm.trans hsettle

/-- **Running tasks one after the other** ends with nothing left to do, unless a
failing task has stopped a strict run. -/
theorem runSingle_concludes (hgraph : graph.Coherent) (hdecides : compiler.Decides verdict)
    (strict : Bool) (session : Session) :
    Concludes strict tasks graph verdict compiler session.compiled
      ((runSingle strict compiler (TaskQueue.ofTasks tasks graph)).runFrom session) := by
  have hstart : Following strict tasks graph verdict compiler session.compiled
      { session with log := session.log ++ [(.debug, "Running ngcc on SingleProcessExecutor.")] }
      { queue := TaskQueue.ofTasks tasks graph } [] :=
    { following_start strict tasks graph verdict compiler session with }
  unfold runSingle
  rw [Run.runFrom_bind, Run.runFrom_say]
  dsimp only
  generalize ({ session with log := _ } : Session) = said at hstart ⊢
  have hends : RoundsEnd strict compiler
      (fun now progress =>
        Following strict tasks graph verdict compiler session.compiled now progress [])
      ((runRounds strict compiler ((TaskQueue.ofTasks tasks graph).pending.length + 1)
        { queue := TaskQueue.ofTasks tasks graph }).runFrom said) :=
    runRounds_ends (fun h hnext hcompiled hsettle => h.round hdecides hnext hcompiled hsettle) _
      hstart (Nat.lt_succ_self _)
  rw [Run.runFrom_bind]
  generalize Run.runFrom (runRounds strict compiler _ _) said = ended at hends ⊢
  cases hends with
  | exhausted h hnone =>
    have hdone := h.follows.arises.isDone_of_next?_eq_none hgraph hnone
    dsimp only
    rw [if_pos hdone]
    exact .finished h hdone
  | stopped h hnext hcompiled hstrict hfails =>
    have htask := (h.follows.take hnext).arises.mem_of_running hgraph List.mem_cons_self
    obtain ⟨_, hverdict, _⟩ := compileTask_run hdecides _ _
    cases hcompiled.symm.trans hverdict
    exact .stopped hstrict htask hfails

end PackageOrder
