/-
PackageOrder.Proofs.Task.Dispatch — which tasks the coordinator gives to which
workers before it waits for a message.

* `Coordinator.busy` — the workers with a task, and the tasks.
* `Coordinator.Filled` — idle workers are given tasks that are taken from the
  queue one after the other; a worker stays idle only when no task may start.
* `Coordinator.Gives` — the same of the coordinator, when nothing keeps it from
  waiting; `Coordinator.dispatch_failure` — what may keep it from that.
-/
import PackageOrder.Proofs.Task.History
import PackageOrder.Task.Cluster

namespace PackageOrder

namespace Coordinator

/-! ## Busy workers -/

/-- The workers with a task, counted from `worker` on, with their tasks. -/
def busyFrom (worker : Nat) : List (Option Task) → List (Nat × Task)
  | [] => []
  | some task :: rest => (worker, task) :: busyFrom (worker + 1) rest
  | none :: rest => busyFrom (worker + 1) rest

/-- The workers with a task, and their tasks. -/
def busy (coordinator : Coordinator) : List (Nat × Task) :=
  busyFrom 0 coordinator.assignments

theorem mem_busyFrom {entry : Nat × Task} :
    ∀ {assignments : List (Option Task)} {worker : Nat},
      entry ∈ busyFrom worker assignments
        ↔ ∃ place, entry.1 = worker + place ∧ assignments[place]? = some (some entry.2)
  | [], worker => by simp [busyFrom]
  | some task :: rest, worker => by
      rw [busyFrom, List.mem_cons, mem_busyFrom]
      constructor
      · rintro (rfl | ⟨place, hplace, hentry⟩)
        · exact ⟨0, rfl, rfl⟩
        · exact ⟨place + 1, by omega, hentry⟩
      · rintro ⟨_ | place, hplace, hentry⟩
        · left
          simp only [List.getElem?_cons_zero, Option.some.injEq] at hentry
          exact Prod.ext hplace hentry.symm
        · exact Or.inr ⟨place, by omega, hentry⟩
  | none :: rest, worker => by
      rw [busyFrom, mem_busyFrom]
      constructor
      · rintro ⟨place, hplace, hentry⟩
        exact ⟨place + 1, by omega, hentry⟩
      · rintro ⟨_ | place, hplace, hentry⟩
        · simp at hentry
        · exact ⟨place, by omega, hentry⟩

/-- Taking the task from a worker takes it from the busy ones. -/
theorem busyFrom_set {task : Task} :
    ∀ {assignments : List (Option Task)} {place worker : Nat},
      assignments[place]? = some (some task) →
      (busyFrom worker assignments).Perm
        ((worker + place, task) :: busyFrom worker (assignments.set place none))
  | [], place, worker, h => by simp at h
  | some first :: rest, 0, worker, h => by
      simp only [List.getElem?_cons_zero, Option.some.injEq] at h
      subst h
      exact List.Perm.refl _
  | none :: rest, 0, worker, h => by simp at h
  | some first :: rest, place + 1, worker, h => by
      have hrest : rest[place]? = some (some task) := h
      rw [List.set_cons_succ, busyFrom, busyFrom, Nat.add_comm place 1, ← Nat.add_assoc]
      exact ((busyFrom_set hrest).cons _).trans (List.Perm.swap _ _ _)
  | none :: rest, place + 1, worker, h => by
      have hrest : rest[place]? = some (some task) := h
      rw [List.set_cons_succ, busyFrom, busyFrom, Nat.add_comm place 1, ← Nat.add_assoc]
      exact busyFrom_set hrest

theorem length_busyFrom : ∀ {assignments : List (Option Task)} (worker : Nat),
    none ∉ assignments → (busyFrom worker assignments).length = assignments.length
  | [], _, _ => rfl
  | none :: _, _, h => absurd List.mem_cons_self h
  | some _ :: rest, worker, h => by
      rw [busyFrom, List.length_cons, List.length_cons,
        length_busyFrom (worker + 1) fun hidle => h (List.mem_cons_of_mem _ hidle)]

theorem assigned_of_mem_busy {coordinator : Coordinator} {entry : Nat × Task}
    (h : entry ∈ coordinator.busy) :
    coordinator.assignments[entry.1]? = some (some entry.2) := by
  obtain ⟨place, hplace, hassigned⟩ := mem_busyFrom.mp h
  rwa [hplace, Nat.zero_add]

/-- The busy workers but for one whose task is taken from it. -/
theorem busy_perm {coordinator : Coordinator} {entry : Nat × Task}
    (h : entry ∈ coordinator.busy) :
    coordinator.busy.Perm (entry :: busyFrom 0 (coordinator.assignments.set entry.1 none)) := by
  have hset : (busyFrom 0 coordinator.assignments).Perm
      ((0 + entry.1, entry.2) :: busyFrom 0 (coordinator.assignments.set entry.1 none)) :=
    busyFrom_set (assigned_of_mem_busy h)
  rwa [Nat.zero_add] at hset

theorem busyWorker?_eq_none {coordinator : Coordinator} :
    coordinator.busyWorker? = none ↔ coordinator.busy = [] := by
  rw [busyWorker?, List.findIdx?_eq_none_iff, List.eq_nil_iff_forall_not_mem]
  constructor
  · intro h entry hentry
    obtain ⟨place, _, hplace⟩ := mem_busyFrom.mp hentry
    have hnone := h _ (List.mem_of_getElem? hplace)
    cases hnone
  · intro h slot hslot
    obtain ⟨place, hplace⟩ := List.mem_iff_getElem?.mp hslot
    rcases slot with _ | task
    · rfl
    · exact absurd (mem_busyFrom.mpr ⟨place, rfl, hplace⟩) (h (0 + place, task))

/-! ## Giving out tasks -/

/-- Tasks were given to the idle ones among workers, which are counted from
`worker` on. -/
structure Filled (queue : TaskQueue) (worker : Nat) (assignments : List (Option Task))
    (after : TaskQueue) (others : List (Option Task)) (given : List (Nat × Task)) : Prop where
  takes : queue.Takes (given.map Prod.snd) after
  busy : (busyFrom worker others).Perm (given ++ busyFrom worker assignments)
  length : others.length = assignments.length
  places : ∀ entry ∈ given, entry.1 < worker + assignments.length
  /-- A worker stays idle only when no task may start. -/
  idle : none ∈ others → after.next? = none

theorem filled : ∀ (assignments : List (Option Task)) (worker : Nat) {queue after : TaskQueue}
    {others : List (Option Task)} {given : List (Nat × Task)},
    fill queue worker assignments = (after, others, given) →
      Filled queue worker assignments after others given
  | [], worker, queue, after, others, given, hfill => by
      cases hfill
      exact ⟨.nil _, List.Perm.refl _, rfl, fun _ he => absurd he List.not_mem_nil,
        fun hidle => absurd hidle List.not_mem_nil⟩
  | some task :: rest, worker, queue, after, others, given, hfill => by
      cases hfill
      have hrest : Filled queue (worker + 1) rest _ _ _ := filled rest (worker + 1) rfl
      obtain ⟨htakes, hbusy, hlength, hplaces, hidle⟩ := hrest
      refine ⟨htakes, (hbusy.cons _).trans List.perm_middle.symm, ?_, ?_, ?_⟩
      · rw [List.length_cons, List.length_cons, hlength]
      · intro entry he
        have := hplaces entry he
        rw [List.length_cons]
        omega
      · intro hnone
        exact hidle (List.mem_of_ne_of_mem (fun heq => by cases heq) hnone)
  | none :: rest, worker, queue, after, others, given, hfill => by
      rw [fill] at hfill
      split at hfill
      · rename_i hnone
        cases hfill
        exact ⟨.nil _, List.Perm.refl _, rfl, fun _ he => absurd he List.not_mem_nil,
          fun _ => hnone⟩
      · rename_i task middle hnext
        cases hfill
        have hrest : Filled middle (worker + 1) rest _ _ _ := filled rest (worker + 1) rfl
        obtain ⟨htakes, hbusy, hlength, hplaces, hidle⟩ := hrest
        refine ⟨.cons hnext htakes, hbusy.cons _, ?_, ?_, ?_⟩
        · rw [List.length_cons, List.length_cons, hlength]
        · intro entry he
          rw [List.length_cons]
          rcases List.mem_cons.mp he with rfl | he
          · exact Nat.lt_add_of_pos_right (Nat.succ_pos _)
          · have := hplaces entry he
            omega
        · intro hnone
          exact hidle (List.mem_of_ne_of_mem (fun heq => by cases heq) hnone)

/-- When all workers are idle after that, they were before and no task may
start. -/
theorem Filled.stuck {queue after : TaskQueue} {worker : Nat}
    {assignments others : List (Option Task)} {given : List (Nat × Task)}
    (h : Filled queue worker assignments after others given)
    (hidle : busyFrom worker others = []) (hworkers : assignments ≠ []) :
    busyFrom worker assignments = [] ∧ queue.next? = none := by
  have hperm := h.busy
  rw [hidle] at hperm
  obtain ⟨rfl, hbefore⟩ := List.append_eq_nil_iff.mp hperm.symm.eq_nil
  refine ⟨hbefore, ?_⟩
  have htakes := h.takes
  cases htakes
  apply h.idle
  rcases hothers : others with _ | ⟨_ | task, rest⟩
  · have hlength := h.length
    rw [hothers, List.length_nil] at hlength
    exact absurd (List.length_eq_zero_iff.mp hlength.symm) hworkers
  · exact List.mem_cons_self
  · rw [hothers] at hidle
    cases hidle

/-- With every inbox open all tasks that are given out are sent. -/
theorem deliver_open {inboxes : List Bool} {given : List (Nat × Task)}
    (h : ∀ entry ∈ given, inboxes[entry.1]? = some true) :
    deliver inboxes given = (given, given, none) := by
  induction given with
  | nil => rfl
  | cons entry given ih =>
    obtain ⟨worker, task⟩ := entry
    have hopen : inboxFault? inboxes worker = none := by
      rw [inboxFault?, h (worker, task) List.mem_cons_self]
    rw [deliver, hopen, ih fun later hl => h later (List.mem_cons_of_mem _ hl)]

/-- What is given out is sent, unless a worker cannot be reached. -/
theorem deliver_cases (inboxes : List Bool) (given : List (Nat × Task)) :
    deliver inboxes given = (given, given, none)
      ∨ ∃ sent tried worker message,
          deliver inboxes given = (sent, tried, some (.workerCrashed worker message)) := by
  induction given with
  | nil => exact Or.inl rfl
  | cons entry given ih =>
    obtain ⟨worker, task⟩ := entry
    rw [deliver]
    rcases hfault : inboxFault? inboxes worker with _ | failure
    · rcases ih with ih | ⟨sent, tried, other, message, ih⟩
      · rw [ih]
        exact Or.inl rfl
      · rw [ih]
        exact Or.inr ⟨_, _, _, _, rfl⟩
    · right
      rw [inboxFault?] at hfault
      split at hfault
      · cases hfault
      · cases hfault
        exact ⟨_, _, _, _, rfl⟩
      · cases hfault
        exact ⟨_, _, _, _, rfl⟩

/-! ## The coordinator -/

/-- The coordinator has given out tasks and can wait for a message. -/
structure Gives (coordinator : Coordinator) (given : Dispatch) : Prop where
  takes : coordinator.progress.queue.Takes (given.sent.map Prod.snd)
    given.coordinator.progress.queue
  summary : given.coordinator.progress.summary = coordinator.progress.summary
  busy : given.coordinator.busy.Perm (given.sent ++ coordinator.busy)
  length : given.coordinator.assignments.length = coordinator.assignments.length
  idle : none ∈ given.coordinator.assignments →
    given.coordinator.progress.queue.next? = none
  occupied : given.coordinator.busy ≠ []

/-- How many tasks wait or are under way. -/
def tasksLeft (coordinator : Coordinator) : Nat :=
  coordinator.progress.queue.pending.length + coordinator.busy.length

theorem Gives.tasksLeft {coordinator : Coordinator} {given : Dispatch}
    (h : coordinator.Gives given) : given.coordinator.tasksLeft = coordinator.tasksLeft := by
  have hpending := h.takes.length_pending
  have hbusy := h.busy.length_eq
  rw [List.length_map] at hpending
  rw [List.length_append] at hbusy
  unfold Coordinator.tasksLeft
  omega

variable {inboxes : List Bool} {coordinator : Coordinator}

theorem gives (h : (coordinator.dispatch inboxes).failure = none) :
    coordinator.Gives (coordinator.dispatch inboxes) := by
  rcases hfill : fill coordinator.progress.queue 0 coordinator.assignments with
    ⟨queue, others, given⟩
  have hfilled := filled _ 0 hfill
  rw [dispatch, hfill] at h ⊢
  dsimp only at h ⊢
  rcases deliver_cases inboxes given with hsent | ⟨_, _, _, _, hsent⟩
  · rw [hsent] at h ⊢
    dsimp only at h ⊢
    refine ⟨hfilled.takes, rfl, hfilled.busy, hfilled.length, hfilled.idle, ?_⟩
    intro hidle
    rw [busyWorker?_eq_none.mpr hidle] at h
    cases h
  · rw [hsent] at h
    cases h

/-- What keeps the coordinator from waiting: a worker cannot be reached, or all
are idle and no task may start. -/
theorem dispatch_failure (hworkers : coordinator.assignments ≠ []) {failure : Failure}
    (h : (coordinator.dispatch inboxes).failure = some failure) :
    (∃ worker message, failure = .workerCrashed worker message)
      ∨ coordinator.busy = [] ∧ coordinator.progress.queue.next? = none := by
  rcases hfill : fill coordinator.progress.queue 0 coordinator.assignments with
    ⟨queue, others, given⟩
  have hfilled := filled _ 0 hfill
  rw [dispatch, hfill] at h
  dsimp only at h
  rcases deliver_cases inboxes given with hsent | ⟨_, _, worker, message, hsent⟩
  · rw [hsent] at h
    change (if _ then _ else _) = _ at h
    split at h
    · rename_i hidle
      exact Or.inr (hfilled.stuck (busyWorker?_eq_none.mp (Option.isNone_iff_eq_none.mp hidle))
        hworkers)
    · cases h
  · rw [hsent] at h
    cases h
    exact Or.inl ⟨worker, message, rfl⟩

/-- With every inbox open only the latter may. -/
theorem dispatch_failure_of_open (hworkers : coordinator.assignments ≠ [])
    (hopen : ∀ worker < coordinator.assignments.length, inboxes[worker]? = some true)
    {failure : Failure} (h : (coordinator.dispatch inboxes).failure = some failure) :
    coordinator.busy = [] ∧ coordinator.progress.queue.next? = none := by
  rcases dispatch_failure hworkers h with ⟨worker, message, rfl⟩ | hstuck
  · rcases hfill : fill coordinator.progress.queue 0 coordinator.assignments with
      ⟨queue, others, given⟩
    have hfilled := filled _ 0 hfill
    have hsent : deliver inboxes given = (given, given, none) := by
      apply deliver_open
      intro entry he
      apply hopen
      have := hfilled.places entry he
      omega
    rw [dispatch, hfill] at h
    dsimp only at h
    rw [hsent] at h
    change (if _ then _ else _) = _ at h
    split at h <;> cases h
  · exact hstuck

/-- With something left to do, and every inbox open, the coordinator can wait. -/
theorem dispatch_failure_eq_none {α : Type} {tasks : List Task} {graph : Graph α}
    (hgraph : graph.Coherent)
    (h : coordinator.progress.Arises tasks graph (coordinator.busy.map Prod.snd))
    (hworkers : coordinator.assignments ≠ [])
    (hopen : ∀ worker < coordinator.assignments.length, inboxes[worker]? = some true)
    (hleft : coordinator.progress.queue.isDone = false) :
    (coordinator.dispatch inboxes).failure = none := by
  rcases hfailure : (coordinator.dispatch inboxes).failure with _ | failure
  · rfl
  · obtain ⟨hidle, hnone⟩ := dispatch_failure_of_open hworkers hopen hfailure
    rw [hidle] at h
    obtain ⟨task, queue, hnext⟩ := h.exists_next hgraph hleft
    rw [hnone] at hnext
    cases hnext

end Coordinator

end PackageOrder
