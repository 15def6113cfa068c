/-
PackageOrder.Proofs.Task.Coordination — the coordinator and its queue agree on
what is under way, whatever messages arrive.

* `Coordinator.Refuses` — the messages that are no replies, with what they end a
  run with.
* `Coordinator.Balanced` — what holds between two messages: the tasks of busy
  workers are those under way, and each task that was sent is recorded or is
  with its worker.
* `Coordinator.Coordinated` — what holds whenever the coordinator waits for a
  message (`Coordinator.coordinates`).
-/
import PackageOrder.Proofs.Task.TaskMessage
import PackageOrder.Proofs.Task.Service

namespace PackageOrder

namespace Coordinator

/-! ## Busy workers -/

/-- The task that a worker is busy with. -/
def assigned? (coordinator : Coordinator) (worker : Nat) : Option Task :=
  coordinator.assignments[worker]?.join

theorem assigned?_eq_some {coordinator : Coordinator} {worker : Nat} {task : Task} :
    coordinator.assigned? worker = some task
      ↔ coordinator.assignments[worker]? = some (some task) := by
  rw [assigned?, Option.join_eq_some_iff]

theorem filter_busyFrom_behind (worker : Nat) (rest : List (Option Task)) :
    (busyFrom (worker + 1) rest).filter (·.1 = worker + 0) = [] := by
  rw [List.filter_eq_nil_iff]
  intro entry hentry
  obtain ⟨place, hplace, _⟩ := mem_busyFrom.mp hentry
  simp only [decide_eq_true_eq]
  omega

theorem filter_busyFrom : ∀ (assignments : List (Option Task)) (worker place : Nat),
    ((busyFrom worker assignments).filter (·.1 = worker + place)).map Prod.snd
      = assignments[place]?.join.toList
  | [], worker, place => by simp [busyFrom]
  | some task :: rest, worker, 0 => by
      rw [busyFrom, List.filter_cons_of_pos (by simp), filter_busyFrom_behind]
      rfl
  | none :: rest, worker, 0 => by
      rw [busyFrom, filter_busyFrom_behind]
      rfl
  | some task :: rest, worker, place + 1 => by
      have hrest := filter_busyFrom rest (worker + 1) place
      rw [Nat.add_assoc, Nat.add_comm 1 place] at hrest
      rw [busyFrom, List.filter_cons_of_neg (by simp), hrest]
      rfl
  | none :: rest, worker, place + 1 => by
      have hrest := filter_busyFrom rest (worker + 1) place
      rw [Nat.add_assoc, Nat.add_comm 1 place] at hrest
      rw [busyFrom, hrest]
      rfl

/-- A worker is busy with one task at most. -/
theorem filter_busy (coordinator : Coordinator) (worker : Nat) :
    (coordinator.busy.filter (·.1 = worker)).map Prod.snd
      = (coordinator.assigned? worker).toList := by
  have hfilter := filter_busyFrom coordinator.assignments 0 worker
  rwa [Nat.zero_add] at hfilter

/-! ## Messages that are no replies -/

/-- What a message ends a run with that does not answer the task of its worker. -/
inductive Refuses (coordinator : Coordinator) (worker : Nat) (text : String) : Failure → Prop where
  /-- The text is no report. -/
  | unreadable (hread : WorkerReport.read? text = none) :
      Refuses coordinator worker text (.workerMessage worker text)
  /-- The kind of the message is not known. -/
  | unknown {kind : String} {rest : Json.Form} (hkind : readMessage? text = some (kind, rest))
      (hended : kind ≠ "task-completed") (herror : kind ≠ "error") :
      Refuses coordinator worker text (.workerMessage worker text)
  /-- The worker reports an error. -/
  | error {message : String} (hread : WorkerReport.read? text = some (.error message)) :
      Refuses coordinator worker text (.workerCrashed worker message)
  /-- There is no such worker, or it has no task. -/
  | idle {outcome : Outcome} (hread : WorkerReport.read? text = some (.ended outcome))
      (hidle : coordinator.assigned? worker = none) :
      Refuses coordinator worker text (.workerMessage worker text)

theorem read?_of_unknown_kind {text kind : String} {rest : Json.Form}
    (hkind : readMessage? text = some (kind, rest)) (hended : kind ≠ "task-completed")
    (herror : kind ≠ "error") : WorkerReport.read? text = none := by
  rw [WorkerReport.read?, hkind, Option.bind_eq_bind, Option.bind_some]
  split
  · rename_i heq
    exact absurd (Prod.ext_iff.mp heq).1 hended
  · rename_i heq
    exact absurd (Prod.ext_iff.mp heq).1 herror
  · rfl

section Receive

variable {coordinator : Coordinator} {worker : Nat} {text : String}

theorem Refuses.receive {failure : Failure} (h : coordinator.Refuses worker text failure)
    (strict : Bool) : coordinator.receive strict worker text = .error failure := by
  unfold Coordinator.receive
  cases h with
  | unreadable hread => rw [hread]
  | unknown hkind hended herror => rw [read?_of_unknown_kind hkind hended herror]
  | error hread => rw [hread]
  | idle hread hidle =>
    rw [hread]
    dsimp only
    split
    · rename_i task hassigned
      rw [assigned?_eq_some.mpr hassigned] at hidle
      cases hidle
    · rfl

/-- What is not refused is the report of a busy worker. -/
theorem ended_of_not_refuses (h : ∀ failure, ¬ coordinator.Refuses worker text failure) :
    ∃ task outcome, coordinator.assigned? worker = some task
      ∧ WorkerReport.read? text = some (.ended outcome) := by
  rcases hread : WorkerReport.read? text with _ | outcome | message
  · exact absurd (.unreadable hread) (h _)
  · rcases hassigned : coordinator.assigned? worker with _ | task
    · exact absurd (.idle hread hassigned) (h _)
    · exact ⟨task, outcome, rfl, rfl⟩
  · exact absurd (.error hread) (h _)

end Receive

/-! ## Between two messages -/

/-- The queue and the workers agree, and every task that was sent is recorded or
is with its worker. -/
structure Balanced (coordinator : Coordinator) (read : List (Nat × String))
    (sent : List (Nat × Task)) : Prop where
  inProgress : coordinator.progress.queue.inProgress.Perm
    (coordinator.busy.map fun entry => entry.2.path)
  distinct : coordinator.progress.queue.inProgress.Nodup
  /-- A worker has answered what was sent to it but for the task it is busy with. -/
  answered : ∀ worker, ∃ answered,
    (sent.filter (·.1 = worker)).map Prod.snd
        = answered ++ (coordinator.assigned? worker).toList
      ∧ answered.length = (read.filter (·.1 = worker)).length
  recorded : (coordinator.progress.summary.ended ++ coordinator.busy.map Prod.snd).Perm
    (sent.map Prod.snd)

theorem assigned?_start (queue : TaskQueue) (workers worker : Nat) :
    (start queue workers).assigned? worker = none := by
  rw [assigned?, start, List.getElem?_replicate]
  split <;> rfl

theorem balanced_start {α : Type} (tasks : List Task) (graph : Graph α) (workers : Nat) :
    (start (TaskQueue.ofTasks tasks graph) workers).Balanced [] [] := by
  refine ⟨?_, List.nodup_nil, ?_, ?_⟩
  · rw [busy_start]
    exact List.Perm.refl _
  · intro worker
    exact ⟨[], by rw [assigned?_start]; rfl, rfl⟩
  · rw [busy_start]
    exact List.Perm.refl _

/-- Lists with one item at most that are the same but for the order are the same. -/
theorem eq_toList_of_perm {β : Type} {items : List β} {item? : Option β}
    (h : items.Perm item?.toList) : items = item?.toList := by
  cases item? with
  | none => exact h.eq_nil
  | some item => exact List.perm_singleton.mp h

/-- A worker that was given a task is busy with it; the other ones are busy with what
they were before. -/
theorem Gives.sent_append {coordinator : Coordinator} {given : Dispatch}
    (h : coordinator.Gives given) (worker : Nat) :
    (given.sent.filter (·.1 = worker)).map Prod.snd ++ (coordinator.assigned? worker).toList
      = (given.coordinator.assigned? worker).toList := by
  have hperm := ((h.busy.filter fun entry => decide (entry.1 = worker)).map Prod.snd).symm
  rw [List.filter_append, List.map_append, filter_busy, filter_busy] at hperm
  exact eq_toList_of_perm hperm

/-- A worker that has replied is idle, the others are busy as before. -/
theorem assigned?_of_receive {coordinator after : Coordinator} {strict : Bool} {worker : Nat}
    {text : String} {log : Log}
    (hreceive : coordinator.receive strict worker text = .ok (after, log)) :
    after.assigned? worker = none
      ∧ ∀ other, other ≠ worker → after.assigned? other = coordinator.assigned? other := by
  obtain ⟨task, outcome, _, hassigned, _, hassignments⟩ := receive_eq_ok hreceive
  constructor
  · rw [assigned?, hassignments,
      List.getElem?_set_self (List.getElem?_eq_some_iff.mp hassigned).1]
    rfl
  · intro other hother
    rw [assigned?, hassignments, List.getElem?_set_ne (Ne.symm hother), assigned?]

section Balanced

variable {coordinator : Coordinator} {read : List (Nat × String)} {sent : List (Nat × Task)}

/-- Giving out tasks keeps the balance. -/
theorem Balanced.gives (h : coordinator.Balanced read sent) {given : Dispatch}
    (hgives : coordinator.Gives given) : given.coordinator.Balanced read (sent ++ given.sent) := by
  refine ⟨?_, hgives.takes.nodup_inProgress h.distinct, ?_, ?_⟩
  · refine hgives.takes.inProgress_perm.trans ?_
    refine ((h.inProgress.append_left _).trans ?_).trans (hgives.busy.symm.map _)
    rw [List.map_append, List.map_map]
    exact List.Perm.refl _
  · intro worker
    obtain ⟨answered, hsent, hlength⟩ := h.answered worker
    refine ⟨answered, ?_, hlength⟩
    have hperm : ((coordinator.assigned? worker).toList
        ++ (given.sent.filter (·.1 = worker)).map Prod.snd).Perm
          (given.coordinator.assigned? worker).toList :=
      hgives.sent_append worker ▸ List.perm_append_comm
    rw [List.filter_append, List.map_append, hsent, List.append_assoc, eq_toList_of_perm hperm]
  · rw [hgives.summary, List.map_append]
    have hbusy := (hgives.busy.trans List.perm_append_comm).map Prod.snd
    rw [List.map_append] at hbusy
    refine (hbusy.append_left _).trans ?_
    rw [← List.append_assoc]
    exact h.recorded.append_right _

/-- A reply takes the task from its worker and records it. -/
theorem Balanced.receive (h : coordinator.Balanced read sent) {strict : Bool} {worker : Nat}
    {text : String} {after : Coordinator} {log : Log}
    (hreceive : coordinator.receive strict worker text = .ok (after, log)) :
    after.Balanced (read ++ [(worker, text)]) sent := by
  obtain ⟨task, outcome, _, hassigned, hsettle, hassignments⟩ := receive_eq_ok hreceive
  have hbusy := busy_perm_of_reply hassigned hassignments
  have hperm := h.inProgress.trans (hbusy.map fun entry => entry.2.path)
  have hnodup : (task.path :: after.busy.map fun entry => entry.2.path).Nodup :=
    hperm.nodup_iff.mp h.distinct
  have hfilter : (task.path :: after.busy.map fun entry => entry.2.path).filter (· ≠ task.path)
      = after.busy.map fun entry => entry.2.path := by
    rw [List.filter_cons_of_neg (by simp), List.filter_eq_self]
    intro path hpath
    exact decide_eq_true fun heq => (List.nodup_cons.mp hnodup).1 (heq ▸ hpath)
  refine ⟨?_, ?_, ?_, ?_⟩
  · rw [Progress.inProgress_of_settle hsettle, ← hfilter]
    exact hperm.filter _
  · rw [Progress.inProgress_of_settle hsettle]
    exact h.distinct.filter _
  · intro other
    obtain ⟨answered, hsent, hlength⟩ := h.answered other
    by_cases hother : other = worker
    · subst hother
      refine ⟨answered ++ [task], ?_, ?_⟩
      · rw [hsent, (assigned?_of_receive hreceive).1, assigned?_eq_some.mpr hassigned]
        exact (List.append_nil _).symm
      · simp [hlength]
    · refine ⟨answered, by rw [(assigned?_of_receive hreceive).2 other hother, hsent], ?_⟩
      rw [hlength, List.filter_append]
      simp [Ne.symm hother]
  · refine List.Perm.trans ?_ h.recorded
    refine ((Progress.records_of_settle hsettle).ended_perm.append_right _).trans ?_
    rw [List.append_assoc]
    exact (hbusy.map Prod.snd).symm.append_left _

end Balanced

section Run

variable {α : Type} {tasks : List Task} {graph : Graph α} {strict : Bool} {inboxes : List Bool}
  {workers : Nat} {read : List (Nat × String)} {sent : List (Nat × Task)} {last : Coordinator}

theorem Comes.balanced
    (h : Comes strict inboxes (start (TaskQueue.ofTasks tasks graph) workers) read sent last) :
    last.Balanced read sent := by
  induction h with
  | first => exact balanced_start tasks graph workers
  | reply _ hwaits hreceive ih =>
    exact (ih.gives (gives_of_verdict?_eq_none hwaits)).receive hreceive

theorem Waits.balanced
    (h : Waits strict inboxes (start (TaskQueue.ofTasks tasks graph) workers) read sent last) :
    last.Balanced read sent := by
  cases h with
  | given h hwaits => exact h.balanced.gives (gives_of_verdict?_eq_none hwaits)

/-! ## Whenever the coordinator waits -/

/-- What holds of a run that waits for a message, after replies to some messages
and with some tasks sent. -/
structure Coordinated (strict : Bool) (inboxes : List Bool) (first : Coordinator)
    (read : List (Nat × String)) (sent : List (Nat × Task)) (waiting : Coordinator) : Prop where
  /-- No two workers are busy with the same entry-point. -/
  distinct : (waiting.busy.map fun entry => entry.2.path).Nodup
  /-- What workers are busy with is what the queue has under way. -/
  inProgress : waiting.progress.queue.inProgress.Perm
    (waiting.busy.map fun entry => entry.2.path)
  /-- Each worker has answered what was sent to it but for one task at most. -/
  answered : ∀ worker, ∃ answered,
    (sent.filter (·.1 = worker)).map Prod.snd = answered ++ (waiting.assigned? worker).toList
      ∧ answered.length = (read.filter (·.1 = worker)).length
  /-- A worker is idle only when no task may start. -/
  idle : none ∈ waiting.assignments →
    ∀ task ∈ waiting.progress.queue.pending,
      waiting.progress.queue.isAvailable task.path = false
  /-- A message that is no reply ends the run. -/
  refused : ∀ worker text failure, waiting.Refuses worker text failure → ∀ rest,
    ∃ log, serve strict inboxes first (read ++ (worker, text) :: rest)
      = { result := .error failure, sent, unread := rest, log }
  /-- Any other message records the task of its worker, unless it ends a strict
  run. -/
  replied : ∀ worker text, (∀ failure, ¬ waiting.Refuses worker text failure) →
    ∃ task outcome, waiting.assigned? worker = some task
      ∧ WorkerReport.read? text = some (.ended outcome)
      ∧ ((∃ after, Comes strict inboxes first (read ++ [(worker, text)]) sent after
          ∧ waiting.progress.summary.Records task outcome after.progress.summary)
        ∨ strict = true ∧ outcome ≠ .processed ∧ ∃ failure, ∀ rest,
          ∃ log, serve strict inboxes first (read ++ (worker, text) :: rest)
            = { result := .error failure, sent, unread := rest, log })

/-- A run that waits reads the next message. -/
theorem Waits.serve_error {first : Coordinator} (h : Waits strict inboxes first read sent last)
    {worker : Nat} {text : String} {failure : Failure}
    (hreceive : last.receive strict worker text = .error failure) (rest : List (Nat × String)) :
    ∃ log, serve strict inboxes first (read ++ (worker, text) :: rest)
      = { result := .error failure, sent, unread := rest, log } := by
  cases h with
  | given h hwaits =>
    obtain ⟨log, hserve⟩ := h.serve_append
    rw [hserve, serve_refused hwaits hreceive]
    exact ⟨_, rfl⟩

theorem Waits.comes {first after : Coordinator} (h : Waits strict inboxes first read sent last)
    {worker : Nat} {text : String} {log : Log}
    (hreceive : last.receive strict worker text = .ok (after, log)) :
    Comes strict inboxes first (read ++ [(worker, text)]) sent after := by
  cases h with
  | given h hwaits => exact h.reply hwaits hreceive

theorem Waits.coordinated
    (h : Waits strict inboxes (start (TaskQueue.ofTasks tasks graph) workers) read sent last) :
    Coordinated strict inboxes (start (TaskQueue.ofTasks tasks graph) workers) read sent last := by
  have hbalanced := h.balanced
  refine ⟨hbalanced.inProgress.nodup_iff.mp hbalanced.distinct, hbalanced.inProgress,
    hbalanced.answered, ?_, ?_, ?_⟩
  · intro hidle
    cases h with
    | given _ hwaits =>
      exact TaskQueue.next?_eq_none.mp ((gives_of_verdict?_eq_none hwaits).idle hidle)
  · intro worker text failure hrefuses rest
    exact h.serve_error (hrefuses.receive strict) rest
  · intro worker text hreplies
    obtain ⟨task, outcome, hassigned, hread⟩ := ended_of_not_refuses hreplies
    refine ⟨task, outcome, hassigned, hread, ?_⟩
    have hreceive := receive_of_ended strict hread (assigned?_eq_some.mp hassigned)
    rcases last.progress.settle_cases strict task outcome with
      ⟨after, log, hsettle⟩ | ⟨hstrict, hfails, _, _, _, hsettle⟩
    · rw [hsettle] at hreceive
      exact Or.inl ⟨_, h.comes hreceive, Progress.records_of_settle hsettle⟩
    · rw [hsettle] at hreceive
      exact Or.inr ⟨hstrict, hfails, _, h.serve_error hreceive⟩

/-- **The coordinator and its queue agree** whenever a run waits for a message,
whatever messages arrive. A run over messages goes from one such moment to the
next; the summary that it may return records the tasks that were sent. -/
theorem coordinates (strict : Bool) (inboxes : List Bool) (tasks : List Task) (graph : Graph α)
    (workers : Nat) :
    let first := start (TaskQueue.ofTasks tasks graph) workers
    (∀ read sent waiting, Waits strict inboxes first read sent waiting →
        Coordinated strict inboxes first read sent waiting)
      ∧ ∀ messages, ∃ read rest sent last, messages = read ++ rest
          ∧ Comes strict inboxes first read sent last
          ∧ last.Ends strict inboxes (serve strict inboxes first messages).result
          ∧ (serve strict inboxes first messages).sent = sent ++ (last.prepare inboxes).sent
          ∧ ∀ summary, (serve strict inboxes first messages).result = .ok summary →
              summary = last.progress.summary ∧ summary.ended.Perm (sent.map Prod.snd) := by
  intro first
  refine ⟨fun read sent waiting h => h.coordinated, ?_⟩
  intro messages
  have hfirst : Comes strict inboxes first [] [] first := .first
  obtain ⟨read, rest, sent, last, hmessages, hcomes, hends, hsent⟩ := hfirst.serve_ends messages
  refine ⟨read, rest, sent, last, hmessages, hcomes, hends, hsent, ?_⟩
  intro summary hsummary
  rw [hsummary] at hends
  obtain ⟨hdone, rfl⟩ := hends.isDone
  have hbalanced := Comes.balanced hcomes
  have hidle : last.busy = [] := by
    rw [TaskQueue.isDone, Bool.and_eq_true, List.isEmpty_iff, List.isEmpty_iff] at hdone
    have hperm := hbalanced.inProgress
    rw [hdone.2] at hperm
    exact List.map_eq_nil_iff.mp hperm.symm.eq_nil
  have hrecorded := hbalanced.recorded
  rw [hidle, List.map_nil, List.append_nil] at hrecorded
  exact ⟨rfl, hrecorded⟩

end Run

/-- Of two workers one is idle, as what is left waits for the task of the other
one. A message of the idle one ends the run, the report of the other is
recorded. -/
theorem coordinates_one_idle :
    let graph := (((Graph.addNode ({} : Graph Unit) "/a" ()).addNode "/b" ())).addDependency
      "/a" "/b"
    let a := QueueRun.taskAt "/a"
    let b := QueueRun.taskAt "/b"
    let first := start (TaskQueue.ofTasks [b, a] graph) 2
    let text := (WorkerReport.ended (.failed "broken")).text
    ∃ waiting, Waits false [true, true] first [] [(0, b)] waiting
      ∧ waiting.assigned? 0 = some b ∧ waiting.assigned? 1 = none
      ∧ waiting.progress.queue.inProgress.Perm ["/b"]
      ∧ waiting.progress.queue.isAvailable "/a" = false
      ∧ (∃ log, serve false [true, true] first [(1, text)]
        = { result := .error (.workerMessage 1 text), sent := [(0, b)], unread := [], log })
      ∧ ∃ task outcome, waiting.assigned? 0 = some task
        ∧ WorkerReport.read? text = some (.ended outcome)
        ∧ ∃ after, Comes false [true, true] first [(0, text)] [(0, b)] after
          ∧ waiting.progress.summary.Records task outcome after.progress.summary := by
  intro graph a b first text
  have hwaits : Waits false [true, true] first [] [(0, b)]
      (first.prepare [true, true]).coordinator := .given .first rfl
  have hread : WorkerReport.read? text = some (.ended (.failed "broken")) :=
    WorkerReport.read?_text _
  have hcoordinated := (coordinates false [true, true] [b, a] graph 2).1 [] [(0, b)] _ hwaits
  refine ⟨_, hwaits, rfl, rfl, hcoordinated.inProgress, ?_, ?_, ?_⟩
  · exact hcoordinated.idle (List.mem_cons_of_mem _ List.mem_cons_self) a List.mem_cons_self
  · exact hcoordinated.refused 1 text _ (.idle hread rfl) []
  · have hreplies : ∀ failure,
        ¬ (first.prepare [true, true]).coordinator.Refuses 0 text failure := by
      intro failure hrefuses
      cases hrefuses with
      | unreadable h => cases hread.symm.trans h
      | unknown hkind hended herror =>
        cases hread.symm.trans (read?_of_unknown_kind hkind hended herror)
      | error h => cases hread.symm.trans h
      | idle _ hidle => cases hidle
    obtain ⟨task, outcome, hassigned, hended, hafter | ⟨hstrict, _⟩⟩ :=
      hcoordinated.replied 0 text hreplies
    · exact ⟨task, outcome, hassigned, hended, hafter⟩
    · cases hstrict

end Coordinator

end PackageOrder
