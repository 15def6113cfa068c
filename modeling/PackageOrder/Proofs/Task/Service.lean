/-
PackageOrder.Proofs.Task.Service — the coordinator while it serves messages.

* `Coordinator.Comes` — what the coordinator comes to by replies to some
  messages, from one idle moment to the next; `Coordinator.Waits` — the same
  after it has given out tasks, when it waits for the next message.
* `Coordinator.Comes.serve_append` — a run over more messages goes on from what
  the first ones come to, so that the relation says of a run what it does.
* `Coordinator.Comes.serve_ends` — every run comes to an end in one of three ways
  (`Coordinator.Ends`).
* `Coordinator.Comes.arises` — the coordinator is always in a state that its
  queue may come to.
-/
import PackageOrder.Proofs.Task.Dispatch

namespace PackageOrder

/-- A run before which some tasks were sent and some things said. -/
def Coordinator.Service.after (service : Coordinator.Service) (sent : List (Nat × Task))
    (log : Log) : Coordinator.Service :=
  { service with sent := sent ++ service.sent, log := log ++ service.log }

namespace Coordinator

/-! ## Replies -/

section Receive

variable {strict : Bool} {coordinator : Coordinator} {worker : Nat} {text : String}

/-- A report of a busy worker settles its task. -/
theorem receive_of_ended (strict : Bool) {task : Task} {outcome : Outcome}
    (hread : WorkerReport.read? text = some (.ended outcome))
    (hassigned : coordinator.assignments[worker]? = some (some task)) :
    coordinator.receive strict worker text
      = (coordinator.progress.settle strict task outcome).map fun (progress, log) =>
          ({ progress, assignments := coordinator.assignments.set worker none }, log) := by
  rw [receive, hread]
  dsimp only
  rw [hassigned]
  dsimp only
  rcases coordinator.progress.settle strict task outcome with failure | settled <;> rfl

/-- Nothing else is a reply. -/
theorem receive_eq_ok {after : Coordinator} {log : Log}
    (h : coordinator.receive strict worker text = .ok (after, log)) :
    ∃ task outcome, WorkerReport.read? text = some (.ended outcome)
      ∧ coordinator.assignments[worker]? = some (some task)
      ∧ coordinator.progress.settle strict task outcome = .ok (after.progress, log)
      ∧ after.assignments = coordinator.assignments.set worker none := by
  unfold receive at h
  split at h
  · cases h
  · cases h
  · rename_i outcome hread
    split at h
    · rename_i task hassigned
      rcases hsettle : coordinator.progress.settle strict task outcome with
        failure | ⟨progress, said⟩
      · rw [hsettle] at h
        cases h
      · rw [hsettle] at h
        cases h
        exact ⟨task, outcome, hread, hassigned, hsettle, rfl⟩
    · cases h

theorem mem_busy_of_assigned {task : Task}
    (h : coordinator.assignments[worker]? = some (some task)) :
    (worker, task) ∈ coordinator.busy :=
  mem_busyFrom.mpr ⟨worker, (Nat.zero_add worker).symm, h⟩

/-- A worker that has replied is no longer busy, the others are. -/
theorem busy_perm_of_reply {task : Task} {after : Coordinator}
    (hassigned : coordinator.assignments[worker]? = some (some task))
    (hafter : after.assignments = coordinator.assignments.set worker none) :
    coordinator.busy.Perm ((worker, task) :: after.busy) := by
  have hbusy := busy_perm (mem_busy_of_assigned hassigned)
  dsimp only at hbusy
  rwa [← hafter] at hbusy

/-- A reply leaves fewer tasks. -/
theorem tasksLeft_of_receive {after : Coordinator} {log : Log}
    (h : coordinator.receive strict worker text = .ok (after, log)) :
    after.tasksLeft < coordinator.tasksLeft := by
  obtain ⟨task, outcome, _, hassigned, hsettle, hassignments⟩ := receive_eq_ok h
  have hpending := Progress.length_pending_of_settle hsettle
  have hbusy := (busy_perm_of_reply hassigned hassignments).length_eq
  rw [List.length_cons] at hbusy
  unfold tasksLeft
  omega

end Receive

/-! ## Waiting for messages -/

section Verdict

variable {inboxes : List Bool} {coordinator : Coordinator}

theorem verdict?_eq_none :
    coordinator.verdict? inboxes = none
      ↔ coordinator.progress.queue.isDone = false
        ∧ (coordinator.dispatch inboxes).failure = none := by
  unfold verdict?
  cases coordinator.progress.queue.isDone <;> simp

theorem verdict?_of_isDone (h : coordinator.progress.queue.isDone = true) :
    coordinator.verdict? inboxes = some (.ok coordinator.progress.summary) := by
  rw [verdict?, if_pos h]

theorem verdict?_of_failure {failure : Failure} (h : coordinator.progress.queue.isDone = false)
    (hfailure : (coordinator.dispatch inboxes).failure = some failure) :
    coordinator.verdict? inboxes = some (.error failure) := by
  rw [verdict?, h, if_neg Bool.false_ne_true, hfailure]
  rfl

/-- A run is decided when nothing is left to do, or when handing out tasks fails. -/
theorem verdict?_eq_some {result : Except Failure Summary}
    (h : coordinator.verdict? inboxes = some result) :
    coordinator.progress.queue.isDone = true ∧ result = .ok coordinator.progress.summary
      ∨ coordinator.progress.queue.isDone = false
        ∧ ∃ failure, (coordinator.dispatch inboxes).failure = some failure
          ∧ result = .error failure := by
  cases hdone : coordinator.progress.queue.isDone with
  | true =>
    rw [verdict?_of_isDone hdone] at h
    exact Or.inl ⟨rfl, (Option.some.inj h).symm⟩
  | false =>
    rw [verdict?, hdone, if_neg Bool.false_ne_true] at h
    obtain ⟨failure, hfailure, heq⟩ := Option.map_eq_some_iff.mp h
    exact Or.inr ⟨rfl, failure, hfailure, heq.symm⟩

theorem prepare_of_verdict?_eq_none (h : coordinator.verdict? inboxes = none) :
    coordinator.prepare inboxes = coordinator.dispatch inboxes := by
  rw [prepare, (verdict?_eq_none.mp h).1]
  rfl

theorem gives_of_verdict?_eq_none (h : coordinator.verdict? inboxes = none) :
    coordinator.Gives (coordinator.prepare inboxes) := by
  rw [prepare_of_verdict?_eq_none h]
  exact gives (verdict?_eq_none.mp h).2

end Verdict

/-- Messages that were replied to, the tasks sent meanwhile, and the coordinator
after that. -/
inductive Comes (strict : Bool) (inboxes : List Bool) (first : Coordinator) :
    List (Nat × String) → List (Nat × Task) → Coordinator → Prop where
  | first : Comes strict inboxes first [] [] first
  | reply {read : List (Nat × String)} {sent : List (Nat × Task)} {before after : Coordinator}
      {worker : Nat} {text : String} {log : Log} (h : Comes strict inboxes first read sent before)
      (hwaits : before.verdict? inboxes = none)
      (hreceive :
        (before.prepare inboxes).coordinator.receive strict worker text = .ok (after, log)) :
      Comes strict inboxes first (read ++ [(worker, text)])
        (sent ++ (before.prepare inboxes).sent) after

/-- Messages that were replied to, the tasks sent so far, and the coordinator that
waits for the next message. -/
inductive Waits (strict : Bool) (inboxes : List Bool) (first : Coordinator) :
    List (Nat × String) → List (Nat × Task) → Coordinator → Prop where
  | given {read : List (Nat × String)} {sent : List (Nat × Task)} {before : Coordinator}
      (h : Comes strict inboxes first read sent before)
      (hwaits : before.verdict? inboxes = none) :
      Waits strict inboxes first read (sent ++ (before.prepare inboxes).sent)
        (before.prepare inboxes).coordinator

/-- How a run ends: there is nothing to wait for, no message comes, or one comes
that is no reply. -/
inductive Ends (strict : Bool) (inboxes : List Bool) (last : Coordinator) :
    Except Failure Summary → Prop where
  | decided {result : Except Failure Summary} (h : last.verdict? inboxes = some result) :
      Ends strict inboxes last result
  | abandoned (h : last.verdict? inboxes = none) :
      Ends strict inboxes last (.error (last.prepare inboxes).coordinator.abandoned)
  | refused {worker : Nat} {text : String} {failure : Failure}
      (h : last.verdict? inboxes = none)
      (hreceive :
        (last.prepare inboxes).coordinator.receive strict worker text = .error failure) :
      Ends strict inboxes last (.error failure)

section Serve

variable {strict : Bool} {inboxes : List Bool} {first last : Coordinator}
  {read : List (Nat × String)} {sent : List (Nat × Task)}

theorem serve_of_verdict? (strict : Bool) {result : Except Failure Summary}
    (h : last.verdict? inboxes = some result) (messages : List (Nat × String)) :
    (serve strict inboxes last messages).result = result
      ∧ (serve strict inboxes last messages).sent = (last.prepare inboxes).sent := by
  rcases messages with _ | ⟨⟨worker, text⟩, rest⟩
  · rw [serve, h]
    exact ⟨rfl, rfl⟩
  · rw [serve, h]
    exact ⟨rfl, rfl⟩

theorem serve_refused (h : last.verdict? inboxes = none) {worker : Nat} {text : String}
    {failure : Failure}
    (hreceive : (last.prepare inboxes).coordinator.receive strict worker text = .error failure)
    (rest : List (Nat × String)) :
    serve strict inboxes last ((worker, text) :: rest)
      = { result := .error failure, sent := (last.prepare inboxes).sent, unread := rest
          log := (last.prepare inboxes).log } := by
  rw [serve, h]
  dsimp only
  rw [hreceive]

theorem serve_reply (h : last.verdict? inboxes = none) {worker : Nat} {text : String}
    {after : Coordinator} {log : Log}
    (hreceive :
      (last.prepare inboxes).coordinator.receive strict worker text = .ok (after, log))
    (rest : List (Nat × String)) :
    serve strict inboxes last ((worker, text) :: rest)
      = (serve strict inboxes after rest).after (last.prepare inboxes).sent
          ((last.prepare inboxes).log ++ log) := by
  rw [serve, h]
  dsimp only
  rw [hreceive]
  rfl

/-- **A run over more messages** goes on from what the first ones come to. -/
theorem Comes.serve_append (h : Comes strict inboxes first read sent last) :
    ∃ log, ∀ rest, serve strict inboxes first (read ++ rest)
      = (serve strict inboxes last rest).after sent log := by
  induction h with
  | first => exact ⟨[], fun _ => rfl⟩
  | @reply _ _ before _ _ _ said _ hwaits hreceive ih =>
    obtain ⟨log, ih⟩ := ih
    refine ⟨log ++ ((before.prepare inboxes).log ++ said), fun rest => ?_⟩
    rw [List.append_assoc, List.singleton_append, ih, serve_reply hwaits hreceive]
    simp only [Service.after, List.append_assoc]

/-- A run over messages after which nothing is left to do returns its summary. -/
theorem Comes.serve_of_isDone (h : Comes strict inboxes first read sent last)
    (hdone : last.progress.queue.isDone = true) :
    (serve strict inboxes first read).result = .ok last.progress.summary := by
  obtain ⟨log, hserve⟩ := h.serve_append
  have hverdict : last.verdict? inboxes = some (.ok last.progress.summary) := if_pos hdone
  have hresult := (serve_of_verdict? strict hverdict []).1
  rw [← List.append_nil read, hserve]
  exact hresult

/-- A run over messages comes to an idle moment from which it ends. -/
theorem Comes.serve_ends (messages : List (Nat × String))
    (h : Comes strict inboxes first read sent last) :
    ∃ more rest sent' last', messages = more ++ rest
      ∧ Comes strict inboxes first (read ++ more) sent' last'
      ∧ last'.Ends strict inboxes (serve strict inboxes last messages).result
      ∧ sent ++ (serve strict inboxes last messages).sent
        = sent' ++ (last'.prepare inboxes).sent := by
  induction messages generalizing read sent last with
  | nil =>
    refine ⟨[], [], sent, last, rfl, by rwa [List.append_nil], ?_, ?_⟩
    · rw [serve]
      rcases hverdict : last.verdict? inboxes with _ | result
      · exact .abandoned hverdict
      · exact .decided hverdict
    · rw [serve]
  | cons message rest ih =>
    obtain ⟨worker, text⟩ := message
    rcases hverdict : last.verdict? inboxes with _ | result
    · rcases hreceive : (last.prepare inboxes).coordinator.receive strict worker text with
        failure | ⟨after, log⟩
      · rw [serve_refused hverdict hreceive]
        exact ⟨[], _, sent, last, rfl, by rwa [List.append_nil], .refused hverdict hreceive, rfl⟩
      · obtain ⟨more, unread, sent', last', rfl, hcomes, hends, hsent⟩ :=
          ih (h.reply hverdict hreceive)
        rw [serve_reply hverdict hreceive]
        refine ⟨(worker, text) :: more, unread, sent', last', rfl, ?_, hends, ?_⟩
        · rwa [List.append_assoc] at hcomes
        · rw [← hsent, List.append_assoc]
          rfl
    · obtain ⟨hresult, hsent⟩ := serve_of_verdict? strict hverdict
        ((worker, text) :: rest)
      rw [hresult, hsent]
      exact ⟨[], _, sent, last, rfl, by rwa [List.append_nil], .decided hverdict, rfl⟩

/-- A run that returns a summary has nothing left to do. -/
theorem Ends.isDone {summary : Summary} (h : last.Ends strict inboxes (.ok summary)) :
    last.progress.queue.isDone = true ∧ last.progress.summary = summary := by
  cases h with
  | decided h =>
    rcases verdict?_eq_some h with ⟨hdone, heq⟩ | ⟨_, failure, _, heq⟩
    · cases heq
      exact ⟨hdone, rfl⟩
    · cases heq

end Serve

/-! ## The coordinator and its queue -/

section Queue

variable {α : Type} {tasks : List Task} {graph : Graph α} {strict : Bool} {inboxes : List Bool}
  {workers : Nat} {read : List (Nat × String)} {sent : List (Nat × Task)} {last : Coordinator}

/-- At the start no worker is busy. -/
theorem busy_start (queue : TaskQueue) (workers : Nat) : (start queue workers).busy = [] := by
  rw [List.eq_nil_iff_forall_not_mem]
  intro entry hentry
  have hassigned := List.mem_of_getElem? (assigned_of_mem_busy hentry)
  cases List.eq_of_mem_replicate hassigned

theorem Comes.length_assignments
    (h : Comes strict inboxes (start (TaskQueue.ofTasks tasks graph) workers) read sent last) :
    last.assignments.length = workers := by
  induction h with
  | first => exact List.length_replicate
  | reply _ hwaits hreceive ih =>
    obtain ⟨_, _, _, _, _, hassignments⟩ := receive_eq_ok hreceive
    rw [hassignments, List.length_set, (gives_of_verdict?_eq_none hwaits).length, ih]

/-- A reply takes the task from its worker and settles it. -/
theorem arises_receive {coordinator after : Coordinator} {worker : Nat} {text : String} {log : Log}
    (h : coordinator.progress.Arises tasks graph (coordinator.busy.map Prod.snd))
    (hreceive : coordinator.receive strict worker text = .ok (after, log)) :
    after.progress.Arises tasks graph (after.busy.map Prod.snd) := by
  obtain ⟨task, outcome, _, hassigned, hsettle, hassignments⟩ := receive_eq_ok hreceive
  exact h.settle ((busy_perm_of_reply hassigned hassignments).map Prod.snd) hsettle

/-- Giving out tasks makes their workers busy. -/
theorem arises_prepare {coordinator : Coordinator}
    (h : coordinator.progress.Arises tasks graph (coordinator.busy.map Prod.snd))
    (hwaits : coordinator.verdict? inboxes = none) :
    (coordinator.prepare inboxes).coordinator.progress.Arises tasks graph
      ((coordinator.prepare inboxes).coordinator.busy.map Prod.snd) := by
  have hgives := gives_of_verdict?_eq_none hwaits
  have harises := h.takes hgives.takes rfl
  rw [← hgives.summary, ← List.map_append] at harises
  exact harises.congr (hgives.busy.symm.map _)

/-- The coordinator is in a state that its queue may come to. -/
theorem Comes.arises
    (h : Comes strict inboxes (start (TaskQueue.ofTasks tasks graph) workers) read sent last) :
    last.progress.Arises tasks graph (last.busy.map Prod.snd) := by
  induction h with
  | first =>
    rw [busy_start]
    exact Progress.arises_start tasks graph
  | reply _ hwaits hreceive ih => exact arises_receive (arises_prepare ih hwaits) hreceive

/-- It is when it waits for a message, too. -/
theorem Waits.arises
    (h : Waits strict inboxes (start (TaskQueue.ofTasks tasks graph) workers) read sent last) :
    last.progress.Arises tasks graph (last.busy.map Prod.snd) := by
  cases h with
  | given h hwaits => exact arises_prepare h.arises hwaits

end Queue

end Coordinator

end PackageOrder
