/-
PackageOrder.Proofs.Task.Queue — what a new queue holds and what each change of
a queue does to it.

The order of entry-points is that of their first tasks (`TaskQueue.pathsOf`);
`StartsBefore` says the same of the tasks themselves. For each change there is a
lemma on the counters and on the tasks that wait; the tables of blockers and
dependants never change.
-/
import Mathlib.Data.List.Nodup
import PackageOrder.Proofs.Graph.Order
import PackageOrder.Task.Queue

namespace PackageOrder

/-- The tasks of the entry-point with a path. -/
def tasksOf (path : String) (tasks : List Task) : List Task :=
  tasks.filter (·.path = path)

@[simp]
theorem mem_tasksOf {path : String} {tasks : List Task} {task : Task} :
    task ∈ tasksOf path tasks ↔ task ∈ tasks ∧ task.path = path := by
  simp [tasksOf]

@[simp]
theorem tasksOf_nil (path : String) : tasksOf path [] = [] := rfl

@[simp]
theorem tasksOf_append (path : String) (one other : List Task) :
    tasksOf path (one ++ other) = tasksOf path one ++ tasksOf path other :=
  List.filter_append _ _

theorem tasksOf_cons (path : String) (task : Task) (tasks : List Task) :
    tasksOf path (task :: tasks)
      = if task.path = path then task :: tasksOf path tasks else tasksOf path tasks := by
  simp [tasksOf, List.filter_cons]

theorem tasksOf_middle_of_ne {path : String} {task : Task} (hpath : path ≠ task.path)
    (before after : List Task) :
    tasksOf path (before ++ task :: after) = tasksOf path (before ++ after) := by
  rw [tasksOf_append, tasksOf_cons, if_neg hpath.symm, tasksOf_append]

theorem tasksOf_filter (keep : String → Bool) (path : String) (tasks : List Task) :
    tasksOf path (tasks.filter fun task => keep task.path)
      = if keep path then tasksOf path tasks else [] := by
  rw [tasksOf, List.filter_filter]
  split
  · rename_i hkeep
    apply List.filter_congr
    intro task _
    by_cases hpath : task.path = path <;> simp [hpath, hkeep]
  · rename_i hkeep
    rw [List.filter_eq_nil_iff]
    intro task _ hboth
    simp only [Bool.and_eq_true, decide_eq_true_eq] at hboth
    exact hkeep (hboth.1 ▸ hboth.2)

theorem tasksOf_eq_nil {path : String} {tasks : List Task} :
    tasksOf path tasks = [] ↔ ∀ task ∈ tasks, task.path ≠ path := by
  simp [tasksOf]

/-- The first task of one entry-point stands before those of another. -/
def StartsBefore (tasks : List Task) (one other : String) : Prop :=
  tasks.findIdx (·.path = one) < tasks.findIdx (·.path = other)

instance (tasks : List Task) (one other : String) : Decidable (StartsBefore tasks one other) :=
  inferInstanceAs (Decidable (_ < _))

/-- The first task of an entry-point stands after those of what it depends on. Tasks
that are grouped by entry-points in topological order are listed so. -/
def Topological {α : Type} (tasks : List Task) (graph : Graph α) : Prop :=
  ∀ one ∈ tasks, ∀ other ∈ tasks, graph.DependsOn one.path other.path →
    StartsBefore tasks other.path one.path

/-- The first task of an entry-point that has some. -/
theorem path_getElem_findIdx {tasks : List Task} {path : String}
    (h : ∃ task ∈ tasks, task.path = path) :
    ∃ hlt : tasks.findIdx (·.path = path) < tasks.length,
      tasks[tasks.findIdx (·.path = path)].path = path := by
  obtain ⟨task, htask, hpath⟩ := h
  have hlt : tasks.findIdx (·.path = path) < tasks.length :=
    List.findIdx_lt_length_of_exists ⟨task, htask, by simpa using hpath⟩
  exact ⟨hlt, of_decide_eq_true (List.findIdx_getElem (w := hlt))⟩

/-- Of two entry-points one starts before the other if one has tasks. -/
theorem startsBefore_total {tasks : List Task} {one other : String}
    (hone : ∃ task ∈ tasks, task.path = one) (hne : one ≠ other) :
    StartsBefore tasks one other ∨ StartsBefore tasks other one := by
  rcases Nat.lt_trichotomy (tasks.findIdx (·.path = one)) (tasks.findIdx (·.path = other))
    with hlt | heq | hgt
  · exact Or.inl hlt
  · obtain ⟨hfirst, h1⟩ := path_getElem_findIdx hone
    have hsecond : tasks.findIdx (·.path = other) < tasks.length := by omega
    have h2 : tasks[tasks.findIdx (·.path = other)].path = other :=
      of_decide_eq_true (List.findIdx_getElem (w := hsecond))
    simp only [heq] at h1
    exact absurd (h1.symm.trans h2) hne
  · exact Or.inr hgt

namespace TaskQueue

/-! ## The order of entry-points -/

theorem pathsOf_append_singleton (tasks : List Task) (task : Task) :
    pathsOf (tasks ++ [task])
      = if task.path ∈ pathsOf tasks then pathsOf tasks else pathsOf tasks ++ [task.path] := by
  rw [pathsOf, List.foldl_append]
  rfl

theorem mem_pathsOf {tasks : List Task} {path : String} :
    path ∈ pathsOf tasks ↔ ∃ task ∈ tasks, task.path = path := by
  induction tasks using List.reverseRecOn with
  | nil => simp [pathsOf]
  | append_singleton tasks task ih =>
    rw [pathsOf_append_singleton]
    simp only [List.mem_append, List.mem_singleton, or_and_right, exists_or, exists_eq_left]
    split
    · rename_i hmem
      rw [ih]
      constructor
      · exact Or.inl
      · rintro (h | rfl)
        · exact h
        · exact ih.mp hmem
    · rw [List.mem_append, List.mem_singleton, ih]
      exact or_congr_right eq_comm

/-- A front of some tasks that has one entry-point and lacks another decides
which of the two stands first. -/
theorem startsBefore_iff (tasks : List Task) (one other : String) :
    StartsBefore tasks one other
      ↔ ∃ before after, tasks = before ++ after
          ∧ (∃ task ∈ before, task.path = one) ∧ ∀ task ∈ before, task.path ≠ other := by
  unfold StartsBefore
  constructor
  · intro hlt
    have hone : tasks.findIdx (·.path = one) < tasks.length :=
      Nat.lt_of_lt_of_le hlt List.findIdx_le_length
    refine ⟨tasks.take (tasks.findIdx (·.path = one) + 1),
      tasks.drop (tasks.findIdx (·.path = one) + 1), (List.take_append_drop _ _).symm, ?_, ?_⟩
    · refine ⟨tasks[tasks.findIdx (·.path = one)], ?_, ?_⟩
      · exact List.mem_take_iff_getElem.mpr ⟨_, by omega, rfl⟩
      · exact of_decide_eq_true (List.findIdx_getElem (w := hone))
    · intro task htask
      obtain ⟨i, hi, rfl⟩ := List.mem_take_iff_getElem.mp htask
      have hlt' : i < tasks.findIdx (·.path = other) := by omega
      simpa using List.not_of_lt_findIdx hlt'
  · rintro ⟨before, after, rfl, ⟨task, htask, rfl⟩, hother⟩
    have hfirst : before.findIdx (·.path = task.path) < before.length :=
      List.findIdx_lt_length_of_exists ⟨task, htask, by simp⟩
    have hsecond : before.findIdx (·.path = other) = before.length :=
      List.findIdx_eq_length.mpr fun t ht => by simpa using hother t ht
    rw [List.findIdx_append, if_pos hfirst, List.findIdx_append, hsecond, if_neg (by omega)]
    omega

/-- Further tasks only add to the end of the order. -/
theorem exists_pathsOf_append (before after : List Task) :
    ∃ later, pathsOf (before ++ after) = pathsOf before ++ later := by
  induction after using List.reverseRecOn with
  | nil => exact ⟨[], by simp⟩
  | append_singleton after task ih =>
    obtain ⟨later, hlater⟩ := ih
    rw [← List.append_assoc, pathsOf_append_singleton, hlater]
    split
    · exact ⟨later, rfl⟩
    · exact ⟨later ++ [task.path], by rw [List.append_assoc]⟩

theorem idxOf_lt_of_startsBefore {tasks : List Task} {one other : String}
    (h : StartsBefore tasks one other) :
    (pathsOf tasks).idxOf one < (pathsOf tasks).idxOf other := by
  obtain ⟨before, after, rfl, hone, hother⟩ := (startsBefore_iff _ _ _).mp h
  obtain ⟨later, hlater⟩ := exists_pathsOf_append before after
  have hmem : one ∈ pathsOf before := mem_pathsOf.mpr hone
  have hnot : other ∉ pathsOf before := by
    intro hin
    obtain ⟨task, htask, hpath⟩ := mem_pathsOf.mp hin
    exact hother task htask hpath
  rw [hlater, List.idxOf_append, if_pos hmem, List.idxOf_append, if_neg hnot]
  have hlt := List.idxOf_lt_length_of_mem hmem
  omega

/-- The order of entry-points is that of their first tasks. -/
theorem idxOf_lt_iff {tasks : List Task} {one other : String} (hmem : one ∈ pathsOf tasks) :
    (pathsOf tasks).idxOf one < (pathsOf tasks).idxOf other ↔ StartsBefore tasks one other := by
  refine ⟨?_, idxOf_lt_of_startsBefore⟩
  intro hlt
  have hne : one ≠ other := by
    rintro rfl
    exact Nat.lt_irrefl _ hlt
  rcases startsBefore_total (mem_pathsOf.mp hmem) hne with hbefore | hafter
  · exact hbefore
  · have hgt := idxOf_lt_of_startsBefore hafter
    omega

/-! ## A new queue -/

section New

variable {α : Type} (tasks : List Task) (graph : Graph α)

theorem unfinished_ofTasks (path : String) :
    (ofTasks tasks graph).unfinished path = (tasksOf path tasks).length := by
  rw [unfinished, ofTasks, lookup_map_of_keys fun path => (tasks.filter (·.path = path)).length]
  split
  · rw [Option.getD_some, tasksOf]
  · rename_i hnone
    symm
    rw [Option.getD_none, List.length_eq_zero_iff, tasksOf_eq_nil]
    exact fun task htask hpath => hnone (mem_pathsOf.mpr ⟨task, htask, hpath⟩)

/-- An entry-point waits for what it depends on and what stands before it. -/
theorem mem_blockersOf_ofTasks (h : graph.Coherent) {path : String} (hpath : path ∈ pathsOf tasks)
    (other : String) :
    other ∈ (ofTasks tasks graph).blockersOf path
      ↔ graph.DependsOn path other ∧ StartsBefore tasks other path := by
  rw [blockersOf, ofTasks, lookup_map_of_keys (earlierDependencies graph (pathsOf tasks)),
    if_pos hpath, Option.getD_some, earlierDependencies, List.mem_filter, h.mem_dependencies]
  simp only [Bool.and_eq_true, List.contains_iff_mem, decide_eq_true_eq]
  constructor
  · rintro ⟨⟨_, hd⟩, hmem, hlt⟩
    exact ⟨hd, (idxOf_lt_iff hmem).mp hlt⟩
  · rintro ⟨hd, hbefore⟩
    have hlt := idxOf_lt_of_startsBefore hbefore
    have hmem : other ∈ pathsOf tasks := by
      have hle := List.idxOf_lt_length_of_mem hpath
      exact List.idxOf_lt_length_iff.mp (by omega)
    refine ⟨⟨?_, hd⟩, hmem, hlt⟩
    rintro rfl
    exact Nat.lt_irrefl _ hlt

/-- What goes with an entry-point is itself and, of the others with tasks, what
depends on it. -/
theorem mem_droppedBy_ofTasks (h : graph.Coherent) {task : Task} (htask : task ∈ tasks)
    (path : String) :
    path ∈ (ofTasks tasks graph).droppedBy task
      ↔ path = task.path ∨ (path ∈ pathsOf tasks ∧ graph.DependsOn path task.path) := by
  have hmem : task.path ∈ pathsOf tasks := mem_pathsOf.mpr ⟨task, htask, rfl⟩
  rw [droppedBy, List.mem_cons, dependantsOf, ofTasks,
    lookup_map_of_keys fun path => (graph.dependants path).filter (pathsOf tasks).contains,
    if_pos hmem, Option.getD_some, List.mem_filter, h.mem_dependants, List.contains_iff_mem]
  constructor
  · rintro (heq | ⟨⟨_, hd⟩, hpath⟩)
    · exact Or.inl heq
    · exact Or.inr ⟨hpath, hd⟩
  · rintro (heq | ⟨hpath, hd⟩)
    · exact Or.inl heq
    · by_cases heq : path = task.path
      · exact Or.inl heq
      · exact Or.inr ⟨⟨heq, hd⟩, hpath⟩

end New

/-! ## Changes of a queue -/

/-- The first task that may start is taken out of its place. -/
theorem takeFirst?_eq_some {available : String → Bool} {tasks rest : List Task} {task : Task}
    (h : takeFirst? available tasks = some (task, rest)) :
    ∃ before after, tasks = before ++ task :: after ∧ rest = before ++ after
      ∧ available task.path = true ∧ ∀ other ∈ before, available other.path = false := by
  induction tasks generalizing rest with
  | nil => cases h
  | cons first others ih =>
    rw [takeFirst?] at h
    split at h
    · rename_i havailable
      cases h
      exact ⟨[], others, rfl, rfl, havailable, fun _ ho => absurd ho List.not_mem_nil⟩
    · rename_i hblocked
      obtain ⟨⟨found, left⟩, hfound, heq⟩ := Option.map_eq_some_iff.mp h
      cases heq
      obtain ⟨before, after, rfl, rfl, havailable, hbefore⟩ := ih hfound
      refine ⟨first :: before, after, rfl, rfl, havailable, ?_⟩
      intro other ho
      rcases List.mem_cons.mp ho with rfl | ho
      · exact Bool.not_eq_true _ ▸ hblocked
      · exact hbefore other ho

theorem takeFirst?_eq_none {available : String → Bool} {tasks : List Task} :
    takeFirst? available tasks = none ↔ ∀ task ∈ tasks, available task.path = false := by
  induction tasks with
  | nil => simp [takeFirst?]
  | cons first others ih =>
    rw [takeFirst?]
    split
    · rename_i havailable
      simp [havailable]
    · rename_i hblocked
      rw [Option.map_eq_none_iff, ih]
      simp [hblocked]

/-- Starting a task takes the first one of its entry-point from those that wait
and changes nothing else. -/
theorem next?_eq_some {queue after : TaskQueue} {task : Task}
    (h : queue.next? = some (task, after)) :
    ∃ front back, queue.pending = front ++ task :: back
      ∧ after = { queue with pending := front ++ back,
                             inProgress := task.path :: queue.inProgress }
      ∧ queue.isAvailable task.path = true ∧ ∀ other ∈ front, other.path ≠ task.path := by
  obtain ⟨⟨found, rest⟩, hfound, heq⟩ := Option.map_eq_some_iff.mp h
  cases heq
  obtain ⟨front, back, hpending, rfl, havailable, hfront⟩ := takeFirst?_eq_some hfound
  refine ⟨front, back, hpending, rfl, havailable, ?_⟩
  intro other ho hsame
  rw [← hsame, hfront other ho] at havailable
  cases havailable

theorem next?_eq_none {queue : TaskQueue} :
    queue.next? = none ↔ ∀ task ∈ queue.pending, queue.isAvailable task.path = false := by
  rw [next?, Option.map_eq_none_iff, takeFirst?_eq_none]

theorem isAvailable_iff {queue : TaskQueue} {path : String} :
    queue.isAvailable path = true
      ↔ path ∉ queue.inProgress ∧ ∀ blocker ∈ queue.blockersOf path,
          queue.unfinished blocker = 0 := by
  simp [isAvailable, List.all_eq_true]

/-- The numbers of unfinished dependencies after each was changed in its way. -/
theorem unfinished_of_map {queue after : TaskQueue} {change : String → Nat → Nat}
    (h : after.remaining = queue.remaining.map fun entry => (entry.1, change entry.1 entry.2))
    {path : String} (hzero : change path 0 = 0) :
    after.unfinished path = change path (queue.unfinished path) := by
  rw [unfinished, h, lookup_map_values change, unfinished]
  cases queue.remaining.lookup path with
  | none => exact hzero.symm
  | some n => rfl

theorem unfinished_complete (queue : TaskQueue) (task : Task) (path : String) :
    (queue.complete task).unfinished path
      = if path = task.path then queue.unfinished path - 1 else queue.unfinished path := by
  let less (path : String) (n : Nat) : Nat := if path = task.path then n - 1 else n
  have hmap : (queue.complete task).remaining
      = queue.remaining.map fun entry => (entry.1, less entry.1 entry.2) := by
    apply List.map_congr_left
    rintro ⟨key, n⟩ _
    simp only [less]
    split <;> rfl
  exact unfinished_of_map hmap (by simp [less])

theorem unfinished_fail (queue : TaskQueue) (task : Task) (path : String) :
    (queue.fail task).unfinished path
      = if path ∈ queue.droppedBy task then 0 else queue.unfinished path := by
  let less (path : String) (n : Nat) : Nat := if path ∈ queue.droppedBy task then 0 else n
  have hmap : (queue.fail task).remaining
      = queue.remaining.map fun entry => (entry.1, less entry.1 entry.2) := by
    apply List.map_congr_left
    rintro ⟨key, n⟩ _
    simp only [less, List.contains_iff_mem]
    split <;> rfl
  exact unfinished_of_map hmap (by simp [less])

end TaskQueue

end PackageOrder
