/-
PackageOrder.Proofs.Task.Ending — how runs of tasks end, whatever compiling the
tasks comes to.

* `runRounds_ends` — running tasks one after the other keeps what each round
  keeps, until no task may start or a failing one stops it; `runSingle_ends`.
* `clusterRounds_round` — all that a round of a run with workers may come to.
* `runCluster_serves` — a run with workers comes to the same as a run over some
  messages.
* `never_deadlocks` — no run ends with tasks left of which none may start.
-/
import PackageOrder.Proofs.Run
import PackageOrder.Proofs.Task.Service

namespace PackageOrder

/-! ## One task after the other -/

section Rounds

variable {strict : Bool} {compiler : Compiler}

/-- How the rounds of a run on its own end: no task may start, or one has failed
and stops a strict run. Before each round an invariant holds. -/
inductive RoundsEnd (strict : Bool) (compiler : Compiler) (Holds : Session → Progress → Prop) :
    Except Failure Progress × Session → Prop where
  | exhausted {session : Session} {last : Progress} (h : Holds session last)
      (hnone : last.queue.next? = none) : RoundsEnd strict compiler Holds (.ok last, session)
  | stopped {session after : Session} {progress : Progress} {task : Task} {queue : TaskQueue}
      {outcome : Outcome} {entryPoint property message : String} (h : Holds session progress)
      (hnext : progress.queue.next? = some (task, queue))
      (hcompiled : (compileTask compiler task).run session = (outcome, after))
      (hstrict : strict = true) (hfails : outcome ≠ .processed) :
      RoundsEnd strict compiler Holds (.error (.taskFailed entryPoint property message), after)

/-- Rounds enough for the tasks that wait come to an end, and keep what each of
them keeps. -/
theorem runRounds_ends {Holds : Session → Progress → Prop}
    (hround : ∀ {session middle : Session} {progress after : Progress} {task : Task}
      {queue : TaskQueue} {outcome : Outcome} {log : Log}, Holds session progress →
      progress.queue.next? = some (task, queue) →
      (compileTask compiler task).run session = (outcome, middle) →
      Progress.settle strict { progress with queue } task outcome = .ok (after, log) →
      Holds { middle with log := middle.log ++ log } after)
    (rounds : Nat) :
    ∀ {session : Session} {progress : Progress}, Holds session progress →
      progress.queue.pending.length < rounds →
      RoundsEnd strict compiler Holds
        ((runRounds strict compiler rounds progress).runFrom session) := by
  induction rounds with
  | zero =>
    intro session progress _ hrounds
    exact absurd hrounds (Nat.not_lt_zero _)
  | succ rounds ih =>
    intro session progress h hrounds
    rw [runRounds]
    split
    · rename_i hnone
      exact .exhausted h hnone
    · rename_i task queue hnext
      obtain ⟨front, back, hpending, hqueue, _⟩ := TaskQueue.next?_eq_some hnext
      rcases hcompiled : (compileTask compiler task).run session with ⟨outcome, middle⟩
      rw [Run.runFrom_bind, Run.runFrom_liftM, hcompiled]
      dsimp only
      rw [Run.runFrom_bind, Run.runFrom_settle]
      rcases Progress.settle_cases strict { progress with queue } task outcome with
        ⟨after, log, hsettle⟩ | ⟨hstrict, hfails, _, _, _, hsettle⟩
      · rw [hsettle]
        apply ih (hround h hnext hcompiled hsettle)
        have hleft := Progress.length_pending_of_settle hsettle
        have htaken : queue.pending.length < progress.queue.pending.length := by
          simp [hqueue, hpending]
        dsimp only at hleft
        omega
      · rw [hsettle]
        exact .stopped h hnext hcompiled hstrict hfails

end Rounds

section Runs

variable {α : Type} {tasks : List Task} {graph : Graph α}

/-- How a run on its own ends: nothing is left to do, or a failing task has
stopped a strict run. -/
inductive SingleEnds (strict : Bool) (tasks : List Task) (graph : Graph α) :
    Except Failure Summary → Prop where
  | finished {last : Progress} (h : last.Arises tasks graph [])
      (hdone : last.queue.isDone = true) : SingleEnds strict tasks graph (.ok last.summary)
  | stopped {entryPoint property message : String} (hstrict : strict = true) :
      SingleEnds strict tasks graph (.error (.taskFailed entryPoint property message))

theorem runSingle_ends (hgraph : graph.Coherent) (strict : Bool) (compiler : Compiler)
    (session : Session) :
    SingleEnds strict tasks graph
      ((runSingle strict compiler (TaskQueue.ofTasks tasks graph)).runFrom session).1 := by
  unfold runSingle
  rw [Run.runFrom_bind, Run.runFrom_say]
  dsimp only
  generalize ({ session with log := _ } : Session) = said
  have hends : RoundsEnd strict compiler (fun _ progress => progress.Arises tasks graph [])
      ((runRounds strict compiler ((TaskQueue.ofTasks tasks graph).pending.length + 1)
        { queue := TaskQueue.ofTasks tasks graph }).runFrom said) :=
    runRounds_ends (fun h hnext _ hsettle => (h.take hnext).settle (List.Perm.refl _) hsettle) _
      (Progress.arises_start tasks graph) (Nat.lt_succ_self _)
  rw [Run.runFrom_bind]
  generalize Run.runFrom (runRounds strict compiler _ _) said = ended at hends ⊢
  cases hends with
  | exhausted h hnone =>
    have hdone := h.isDone_of_next?_eq_none hgraph hnone
    dsimp only
    rw [if_pos hdone]
    exact .finished h hdone
  | stopped _ _ _ hstrict => exact .stopped hstrict

/-! ## With workers -/

/-- The reports of the workers that are given some tasks. -/
def workerReports (compiler : Compiler) (sent : List (Nat × Task)) : Run (List (Nat × String)) :=
  sent.mapM fun (worker, task) => do
    return (worker, (← workerReport compiler worker (taskMessage task)).text)

/-- Workers that are given tasks report something. -/
theorem exists_reports (compiler : Compiler) (sent : List (Nat × Task)) (session : Session) :
    ∃ reports after, (workerReports compiler sent).runFrom session = (.ok reports, after) := by
  unfold workerReports
  induction sent generalizing session with
  | nil => exact ⟨_, _, rfl⟩
  | cons entry sent ih =>
    rcases hreport : (workerReport compiler entry.1 (taskMessage entry.2)).run session with
      ⟨report, middle⟩
    obtain ⟨reports, after, hrest⟩ := ih middle
    refine ⟨(entry.1, report.text) :: reports, after, ?_⟩
    rw [List.mapM_cons, Run.runFrom_bind, Run.runFrom_bind, Run.runFrom_liftM, hreport]
    dsimp only
    rw [Run.runFrom_pure]
    dsimp only
    rw [Run.runFrom_bind, hrest]
    rfl

/-- Tasks are given out to workers, all of whose inboxes are open, and the workers report. -/
structure GivenOut (compiler : Compiler) (session : Session) (coordinator : Coordinator)
    (given : Dispatch) (reports : List (Nat × String)) (after : Session) : Prop where
  left : coordinator.progress.queue.isDone = false
  dispatched : coordinator.dispatch (coordinator.assignments.map fun _ => true) = given
  unfailed : given.failure = none
  reports : (workerReports compiler given.sent).runFrom
    { session with log := session.log ++ given.log } = (.ok reports, after)

/-- What a round of a run with workers comes to: nothing is left to do, or no task can be given
out, or a report is awaited. Then none comes, or one that is refused, or the next round begins. -/
inductive ClusterRound (strict : Bool) (compiler : Compiler) (choice : Nat → Nat) (rounds : Nat)
    (session : Session) (coordinator : Coordinator) (waiting : List (Nat × String)) :
    Except Failure Summary × Session → Prop where
  | finished (hdone : coordinator.progress.queue.isDone = true) :
      ClusterRound strict compiler choice rounds session coordinator waiting
        (.ok coordinator.progress.summary, session)
  | stuck {failure : Failure} {after : Session}
      (hleft : coordinator.progress.queue.isDone = false)
      (hfailure : (coordinator.dispatch (coordinator.assignments.map fun _ => true)).failure
        = some failure) :
      ClusterRound strict compiler choice rounds session coordinator waiting
        (.error failure, after)
  | abandoned {given : Dispatch} {reports : List (Nat × String)} {after : Session}
      (hgiven : GivenOut compiler session coordinator given reports after)
      (htake : takeAt (choice rounds) (waiting ++ reports) = none) :
      ClusterRound strict compiler choice rounds session coordinator waiting
        (.error given.coordinator.abandoned, after)
  | refused {given : Dispatch} {reports rest : List (Nat × String)} {after : Session}
      {worker : Nat} {text : String} {failure : Failure}
      (hgiven : GivenOut compiler session coordinator given reports after)
      (htake : takeAt (choice rounds) (waiting ++ reports) = some ((worker, text), rest))
      (hreceive : given.coordinator.receive strict worker text = .error failure) :
      ClusterRound strict compiler choice rounds session coordinator waiting
        (.error failure, after)
  | replied {given : Dispatch} {reports rest : List (Nat × String)} {after : Session}
      {worker : Nat} {text : String} {next : Coordinator} {log : Log}
      (hgiven : GivenOut compiler session coordinator given reports after)
      (htake : takeAt (choice rounds) (waiting ++ reports) = some ((worker, text), rest))
      (hreceive : given.coordinator.receive strict worker text = .ok (next, log)) :
      ClusterRound strict compiler choice rounds session coordinator waiting
        ((clusterRounds strict compiler choice rounds next rest).runFrom
          { after with log := after.log ++ log })

theorem clusterRounds_round (strict : Bool) (compiler : Compiler) (choice : Nat → Nat)
    (rounds : Nat) (session : Session) (coordinator : Coordinator)
    (waiting : List (Nat × String)) :
    ClusterRound strict compiler choice rounds session coordinator waiting
      ((clusterRounds strict compiler choice (rounds + 1) coordinator waiting).runFrom session) := by
  rw [clusterRounds]
  split
  · rename_i hdone
    exact .finished hdone
  · rename_i hleft
    rw [Bool.not_eq_true] at hleft
    dsimp only
    rw [Run.runFrom_bind, Run.runFrom_sayAll]
    dsimp only
    rcases hdispatch : coordinator.dispatch (coordinator.assignments.map fun _ => true) with
      ⟨receiver, sent, log, failure⟩
    cases failure with
    | some failure => exact .stuck hleft (by rw [hdispatch])
    | none =>
      obtain ⟨reports, after, hreports⟩ := exists_reports compiler sent
        { session with log := session.log ++ log }
      have hgiven : GivenOut compiler session coordinator ⟨receiver, sent, log, none⟩ reports
          after := ⟨hleft, hdispatch, rfl, hreports⟩
      unfold workerReports at hreports
      dsimp only
      rw [Run.runFrom_bind, hreports]
      dsimp only
      rcases htake : takeAt (choice rounds) (waiting ++ reports) with _ | ⟨⟨worker, text⟩, rest⟩
      · exact .abandoned hgiven htake
      · dsimp only
        rcases hreceive : receiver.receive strict worker text with failure | ⟨next, said⟩
        · exact .refused hgiven htake hreceive
        · exact .replied hgiven htake hreceive

theorem GivenOut.waits {compiler : Compiler} {session after : Session} {coordinator : Coordinator}
    {given : Dispatch} {reports : List (Nat × String)}
    (h : GivenOut compiler session coordinator given reports after) :
    coordinator.verdict? (coordinator.assignments.map fun _ => true) = none
      ∧ coordinator.prepare (coordinator.assignments.map fun _ => true) = given := by
  obtain ⟨hleft, rfl, hunfailed, _⟩ := h
  have hwaits := Coordinator.verdict?_eq_none.mpr ⟨hleft, hunfailed⟩
  exact ⟨hwaits, Coordinator.prepare_of_verdict?_eq_none hwaits⟩

/-- Rounds enough for the tasks that wait or are under way come to the same as a
run over the messages that are read. -/
theorem clusterRounds_serves (strict : Bool) (compiler : Compiler) (choice : Nat → Nat)
    (rounds : Nat) :
    ∀ (session : Session) (coordinator : Coordinator) (waiting : List (Nat × String)),
      coordinator.tasksLeft < rounds →
      ∃ messages,
        ((clusterRounds strict compiler choice rounds coordinator waiting).runFrom session).1
          = (coordinator.serve strict (coordinator.assignments.map fun _ => true)
              messages).result := by
  induction rounds with
  | zero =>
    intro session coordinator waiting hrounds
    exact absurd hrounds (Nat.not_lt_zero _)
  | succ rounds ih =>
    intro session coordinator waiting hrounds
    have hround := clusterRounds_round strict compiler choice rounds session coordinator waiting
    generalize (clusterRounds strict compiler choice (rounds + 1) coordinator waiting).runFrom
      session = ran at hround ⊢
    cases hround with
    | finished hdone =>
      refine ⟨[], ?_⟩
      rw [(Coordinator.serve_of_verdict? strict (Coordinator.verdict?_of_isDone hdone) []).1]
    | stuck hleft hfailure =>
      refine ⟨[], ?_⟩
      rw [(Coordinator.serve_of_verdict? strict
        (Coordinator.verdict?_of_failure hleft hfailure) []).1]
    | abandoned hgiven =>
      obtain ⟨hwaits, rfl⟩ := hgiven.waits
      refine ⟨[], ?_⟩
      rw [Coordinator.serve, hwaits]
      rfl
    | @refused _ _ _ _ worker text _ hgiven _ hreceive =>
      obtain ⟨hwaits, rfl⟩ := hgiven.waits
      refine ⟨[(worker, text)], ?_⟩
      rw [Coordinator.serve_refused hwaits hreceive]
    | @replied _ _ rest after worker text next log hgiven _ hreceive =>
      obtain ⟨hwaits, rfl⟩ := hgiven.waits
      have hgives := Coordinator.gives_of_verdict?_eq_none hwaits
      -- a reply leaves a task less, so the rounds that are left are enough
      have hfewer := Coordinator.tasksLeft_of_receive hreceive
      rw [hgives.tasksLeft] at hfewer
      have hopen : next.assignments.map (fun _ => true)
          = coordinator.assignments.map fun _ => true := by
        obtain ⟨_, _, _, _, _, hassignments⟩ := Coordinator.receive_eq_ok hreceive
        rw [List.map_const', List.map_const', hassignments, List.length_set, hgives.length]
      obtain ⟨messages, hserves⟩ := ih { after with log := after.log ++ log } next rest (by omega)
      refine ⟨(worker, text) :: messages, ?_⟩
      rw [Coordinator.serve_reply hwaits hreceive, hserves, hopen]
      rfl

/-- **A run with workers** comes to the same as a run over some messages. -/
theorem runCluster_serves (strict : Bool) (compiler : Compiler) (choice : Nat → Nat)
    (workers : Nat) (tasks : List Task) (graph : Graph α) (session : Session) :
    ∃ messages,
      ((runCluster strict compiler choice workers (TaskQueue.ofTasks tasks graph)).runFrom
          session).1
        = (Coordinator.serve strict (List.replicate (max workers 1) true)
            (.start (TaskQueue.ofTasks tasks graph) (max workers 1)) messages).result := by
  have hleft : (Coordinator.start (TaskQueue.ofTasks tasks graph) (max workers 1)).tasksLeft
      < (TaskQueue.ofTasks tasks graph).pending.length + 1 := by
    rw [Coordinator.tasksLeft, Coordinator.busy_start]
    exact Nat.lt_succ_self _
  unfold runCluster
  dsimp only
  rw [Run.runFrom_bind, Run.runFrom_say]
  dsimp only
  obtain ⟨messages, hserves⟩ := clusterRounds_serves strict compiler choice _
    { session with log := _ } _ [] hleft
  refine ⟨messages, hserves.trans ?_⟩
  rw [Coordinator.start, List.map_replicate]

/-! ## No deadlock -/

namespace Coordinator

/-- A message never says that a run is stuck. -/
theorem receive_ne_deadlock (strict : Bool) (coordinator : Coordinator) (worker : Nat)
    (text : String) (left : Nat) :
    coordinator.receive strict worker text ≠ .error (.deadlock left) := by
  intro h
  unfold receive at h
  split at h
  · cases h
  · cases h
  · rename_i outcome _
    split at h
    · rename_i task _
      rcases coordinator.progress.settle_cases strict task outcome with
        ⟨after, log, hsettle⟩ | ⟨_, _, _, _, _, hsettle⟩
      · rw [hsettle] at h
        cases h
      · rw [hsettle] at h
        cases h
    · cases h

/-- With a worker no run over messages gets stuck. -/
theorem serve_ne_deadlock (hgraph : graph.Coherent) (strict : Bool) (inboxes : List Bool)
    {workers : Nat} (hworkers : 0 < workers) (messages : List (Nat × String)) (left : Nat) :
    (serve strict inboxes (start (TaskQueue.ofTasks tasks graph) workers) messages).result
      ≠ .error (.deadlock left) := by
  have hfirst : Comes strict inboxes (start (TaskQueue.ofTasks tasks graph) workers) [] []
      (start (TaskQueue.ofTasks tasks graph) workers) := .first
  obtain ⟨_, _, _, last, _, hcomes, hends, _⟩ := hfirst.serve_ends messages
  intro hstuck
  rw [hstuck] at hends
  cases hends with
  | decided hverdict =>
    rcases verdict?_eq_some hverdict with ⟨_, heq⟩ | ⟨hleft, failure, hfailure, heq⟩
    · cases heq
    · cases heq
      have hassigned : last.assignments ≠ [] := by
        rw [← List.length_pos_iff, Comes.length_assignments hcomes]
        exact hworkers
      rcases dispatch_failure hassigned hfailure with ⟨_, _, hcrashed⟩ | ⟨hidle, hnone⟩
      · cases hcrashed
      · have harises := Comes.arises hcomes
        rw [hidle] at harises
        rw [harises.isDone_of_next?_eq_none hgraph hnone] at hleft
        cases hleft
  | refused _ hreceive => exact receive_ne_deadlock strict _ _ _ _ hreceive

end Coordinator

/-- **No run deadlocks.** While nothing is under way something of what waits may
start, in every state that the queue may come to. So neither a run on its own
ends with tasks left of which none may start, nor one over messages with at least
one worker, nor one whose workers compile the tasks. -/
theorem never_deadlocks (hgraph : graph.Built) (tasks : List Task) :
    (∀ run, QueueRun.Reachable tasks graph run → run.queue.inProgress = [] →
        run.queue.pending ≠ [] → ∃ task queue, run.queue.next? = some (task, queue))
      ∧ ∀ (strict : Bool) (left : Nat),
        (∀ compiler session,
          ((runSingle strict compiler (TaskQueue.ofTasks tasks graph)).runFrom session).1
            ≠ .error (.deadlock left))
        ∧ (∀ inboxes workers messages, 0 < workers →
          (Coordinator.serve strict inboxes (.start (TaskQueue.ofTasks tasks graph) workers)
              messages).result
            ≠ .error (.deadlock left))
        ∧ ∀ compiler choice workers session,
          ((runCluster strict compiler choice workers (TaskQueue.ofTasks tasks graph)).runFrom
              session).1
            ≠ .error (.deadlock left) := by
  have hcoherent := hgraph.coherent
  refine ⟨?_, fun strict left => ⟨?_, ?_, ?_⟩⟩
  · intro run hrun hidle hwaits
    have haccount := hrun.accounted hcoherent
    rw [haccount.inProgress, List.map_eq_nil_iff] at hidle
    exact haccount.exists_next hcoherent hidle hwaits
  · intro compiler session hstuck
    have hends : SingleEnds strict tasks graph
        ((runSingle strict compiler (TaskQueue.ofTasks tasks graph)).runFrom session).1 :=
      runSingle_ends hcoherent strict compiler session
    rw [hstuck] at hends
    cases hends
  · intro inboxes workers messages hworkers
    exact Coordinator.serve_ne_deadlock hcoherent strict inboxes hworkers messages left
  · intro compiler choice workers session
    obtain ⟨messages, hserves⟩ :=
      runCluster_serves strict compiler choice workers tasks graph session
    rw [hserves]
    exact Coordinator.serve_ne_deadlock hcoherent strict _ (by omega) messages left

end Runs

/-- Two entry-points that need each other, one of them also itself: when the first
task is taken and done, the second may start. -/
theorem never_deadlocks_cycle :
    let graph := (((((Graph.addNode ({} : Graph Unit) "/a" ()).addNode "/b" ()).addDependency
      "/a" "/b").addDependency "/b" "/a").addDependency "/a" "/a")
    let a := QueueRun.taskAt "/a"
    let b := QueueRun.taskAt "/b"
    graph.Built ∧ graph.DependsOn "/a" "/a"
      ∧ ∃ run, QueueRun.Reachable [a, b] graph run ∧ run.queue.inProgress = []
        ∧ run.queue.pending = [b] ∧ (∃ task queue, run.queue.next? = some (task, queue))
        ∧ ∀ left messages,
          (Coordinator.serve false [true, true] (.start (TaskQueue.ofTasks [a, b] graph) 2)
            messages).result ≠ .error (.deadlock left) := by
  intro graph a b
  have hbuilt : graph.Built :=
    (((Graph.Built.empty.addNode "/a" ()).addNode "/b" ()).addDependency "/a" "/b").addDependency
      "/b" "/a" |>.addDependency "/a" "/a"
  have h0 : QueueRun.Reachable [a, b] graph { queue := TaskQueue.ofTasks [a, b] graph } :=
    Relation.ReflTransGen.refl
  have h1 := h0.tail (.take (show _ = some (a, _) from rfl))
  have h2 := h1.tail (.complete (show _ = [] ++ a :: [] from rfl))
  have hnever := never_deadlocks hbuilt [a, b]
  refine ⟨hbuilt, Relation.TransGen.single (show "/a" ∈ ["/b", "/a"] by decide), _, h2, rfl, rfl,
    hnever.1 _ h2 rfl (List.cons_ne_nil _ _), ?_⟩
  intro left messages
  exact (hnever.2 false left).2.1 [true, true] 2 messages (by decide)

end PackageOrder
