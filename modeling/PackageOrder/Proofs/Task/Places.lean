/-
PackageOrder.Proofs.Task.Places — which of the listed tasks are compiled, by
their places in the list.

A task is told by its place because a list may hold it twice. `Compiles` says of
some places that they are those of the tasks that are compiled; `Summary.Settles`
says of a summary that it tells what became of the tasks at these places.
-/
import Mathlib.Data.List.Nodup
import PackageOrder.Proofs.Task.Settled
import PackageOrder.Task.Progress

namespace PackageOrder

/-- What is the same list under each key is the same but for the order. -/
theorem perm_of_filter_key {β : Type} (key : β → String) {one other : List β}
    (h : ∀ path, one.filter (key · = path) = other.filter (key · = path)) : one.Perm other := by
  classical
  rw [List.perm_iff_count]
  intro item
  have hcount := congrArg (List.count item) (h (key item))
  rwa [List.count_filter (by simp), List.count_filter (by simp)] at hcount

/-- The tasks at some places of a list. -/
def tasksAt (tasks : List Task) (places : List Nat) : List Task :=
  places.filterMap (tasks[·]?)

theorem mem_tasksAt {tasks : List Task} {places : List Nat} {task : Task} :
    task ∈ tasksAt tasks places ↔ ∃ place ∈ places, tasks[place]? = some task :=
  List.mem_filterMap

/-- Further tasks do not move the places before them. -/
theorem tasksAt_append {tasks : List Task} (more : List Task) {places : List Nat}
    (h : ∀ place ∈ places, place < tasks.length) :
    tasksAt (tasks ++ more) places = tasksAt tasks places := by
  apply List.filterMap_congr
  intro place hp
  exact List.getElem?_append_left (h place hp)

theorem tasksAt_append_length {tasks : List Task} (task : Task) {places : List Nat}
    (h : ∀ place ∈ places, place < tasks.length) :
    tasksAt (tasks ++ [task]) (places ++ [tasks.length]) = tasksAt tasks places ++ [task] := by
  rw [tasksAt, List.filterMap_append, ← tasksAt, tasksAt_append [task] h]
  simp

/-- These are the places of the tasks that are compiled: those for which no
compiled task fails of what their entry-point depends on, and none before them of
their own entry-point. -/
structure Compiles {α : Type} (tasks : List Task) (graph : Graph α) (verdict : Task → Outcome)
    (places : List Nat) : Prop where
  nodup : places.Nodup
  mem_iff : ∀ place, place ∈ places ↔ ∃ task, tasks[place]? = some task
    ∧ (∀ other ∈ tasksAt tasks places, graph.DependsOn task.path other.path →
        verdict other = .processed)
    ∧ ∀ before < place, ∀ other, tasks[before]? = some other → other.path = task.path →
        verdict other = .processed

/-! ## The places, when it is known what is hindered -/

section Places

variable (hindered : String → Prop) (verdict : Task → Outcome)

/-- Whether the task at a place is compiled. -/
def IsCompiled (tasks : List Task) (place : Nat) : Prop :=
  ∃ task, tasks[place]? = some task ∧ ¬ hindered task.path
    ∧ ∀ before < place, ∀ other, tasks[before]? = some other → other.path = task.path →
        verdict other = .processed

variable {hindered verdict} in
theorem IsCompiled.lt {tasks : List Task} {place : Nat}
    (h : IsCompiled hindered verdict tasks place) : place < tasks.length := by
  obtain ⟨task, htask, _⟩ := h
  exact (List.getElem?_eq_some_iff.mp htask).1

/-- Further tasks do not change what is compiled before them. -/
theorem isCompiled_append_iff {tasks : List Task} (task : Task) {place : Nat}
    (hplace : place < tasks.length) :
    IsCompiled hindered verdict (tasks ++ [task]) place
      ↔ IsCompiled hindered verdict tasks place := by
  have hsame : ∀ before ≤ place, (tasks ++ [task])[before]? = tasks[before]? := by
    intro before hle
    exact List.getElem?_append_left (by omega)
  unfold IsCompiled
  rw [hsame place (Nat.le_refl _)]
  refine exists_congr fun found => and_congr_right fun _ => and_congr_right fun _ => ?_
  refine forall_congr' fun before => forall_congr' fun hlt => ?_
  rw [hsame before (Nat.le_of_lt hlt)]

/-- The last task is compiled when nothing hinders it and no other task of its
entry-point fails. -/
theorem isCompiled_length_iff (tasks : List Task) (task : Task) :
    IsCompiled hindered verdict (tasks ++ [task]) tasks.length
      ↔ ¬ hindered task.path
        ∧ ∀ other ∈ tasksOf task.path tasks, verdict other = .processed := by
  unfold IsCompiled
  rw [List.getElem?_append_right (Nat.le_refl _), Nat.sub_self]
  simp only [List.getElem?_cons_zero, Option.some.injEq, exists_eq_left', mem_tasksOf]
  refine and_congr_right fun _ => ?_
  constructor
  · rintro h other ⟨hmem, hpath⟩
    obtain ⟨before, hlt, rfl⟩ := List.mem_iff_getElem.mp hmem
    refine h before hlt _ ?_ hpath
    rw [List.getElem?_append_left hlt, List.getElem?_eq_getElem hlt]
  · intro h before hlt other hother hpath
    rw [List.getElem?_append_left hlt] at hother
    exact h other ⟨List.mem_of_getElem? hother, hpath⟩

theorem isCompiled_append_singleton_iff (tasks : List Task) (task : Task) (place : Nat) :
    IsCompiled hindered verdict (tasks ++ [task]) place
      ↔ IsCompiled hindered verdict tasks place
        ∨ (place = tasks.length ∧ ¬ hindered task.path
          ∧ ∀ other ∈ tasksOf task.path tasks, verdict other = .processed) := by
  rw [← isCompiled_length_iff]
  rcases Nat.lt_trichotomy place tasks.length with hbefore | rfl | hafter
  · rw [isCompiled_append_iff hindered verdict task hbefore]
    simp [Nat.ne_of_lt hbefore]
  · simp only [true_and]
    exact ⟨Or.inr, fun h => h.resolve_left fun h => Nat.lt_irrefl _ h.lt⟩
  · constructor
    · intro h
      have := h.lt
      rw [List.length_append, List.length_singleton] at this
      omega
    · rintro (h | ⟨rfl, _⟩)
      · have := h.lt
        omega
      · omega

theorem untilFailure_append_singleton (tasks : List Task) (task : Task) :
    untilFailure verdict (tasks ++ [task])
      = untilFailure verdict tasks
        ++ if ∀ other ∈ tasks, verdict other = .processed then [task] else [] := by
  induction tasks with
  | nil =>
    simp [untilFailure]
  | cons first rest ih =>
    rw [List.cons_append, untilFailure, untilFailure]
    by_cases hfirst : verdict first = .processed
    · rw [if_pos hfirst, if_pos hfirst, ih]
      simp [hfirst]
    · rw [if_neg hfirst, if_neg hfirst, if_neg]
      · rfl
      · intro hall
        exact hfirst (hall first List.mem_cons_self)

/-- Some places are those of the compiled tasks; of each entry-point that is not
hindered these are the tasks up to the first failing one. -/
structure Picks (tasks : List Task) (places : List Nat) : Prop where
  nodup : places.Nodup
  mem_iff : ∀ place, place ∈ places ↔ IsCompiled hindered verdict tasks place
  of_hindered : ∀ path, hindered path → tasksOf path (tasksAt tasks places) = []
  of_clear : ∀ path, ¬ hindered path →
    tasksOf path (tasksAt tasks places) = untilFailure verdict (tasksOf path tasks)

namespace Picks

variable {hindered verdict} {tasks : List Task} {places : List Nat}

theorem lt (h : Picks hindered verdict tasks places) :
    ∀ place ∈ places, place < tasks.length :=
  fun place hp => ((h.mem_iff place).mp hp).lt

theorem nil : Picks hindered verdict [] [] := by
  refine ⟨List.nodup_nil, ?_, fun _ _ => rfl, fun _ _ => rfl⟩
  intro place
  refine ⟨fun hp => absurd hp List.not_mem_nil, ?_⟩
  intro hp
  exact absurd hp.lt (Nat.not_lt_zero place)

/-- A further task is picked if nothing fails before it. -/
theorem append_picked (h : Picks hindered verdict tasks places) {task : Task}
    (hclear : ¬ hindered task.path)
    (hprocessed : ∀ other ∈ tasksOf task.path tasks, verdict other = .processed) :
    Picks hindered verdict (tasks ++ [task]) (places ++ [tasks.length]) := by
  refine ⟨?_, ?_, ?_, ?_⟩
  · rw [List.nodup_append_comm, List.singleton_append, List.nodup_cons]
    exact ⟨fun hp => Nat.lt_irrefl _ (h.lt _ hp), h.nodup⟩
  · intro place
    rw [isCompiled_append_singleton_iff, List.mem_append, List.mem_singleton, h.mem_iff,
      and_iff_left ⟨hclear, hprocessed⟩]
  · intro path hpath
    have hne : task.path ≠ path := fun heq => hclear (heq ▸ hpath)
    rw [tasksAt_append_length task h.lt, tasksOf_append, h.of_hindered path hpath, tasksOf_cons,
      if_neg hne]
    rfl
  · intro path hpath
    rw [tasksAt_append_length task h.lt, tasksOf_append, tasksOf_append, h.of_clear path hpath,
      tasksOf_cons]
    by_cases heq : task.path = path
    · subst heq
      rw [if_pos rfl, tasksOf_nil, untilFailure_append_singleton, if_pos hprocessed]
    · rw [if_neg heq, tasksOf_nil, List.append_nil, List.append_nil]

/-- A further task is left if it is hindered or something fails before it. -/
theorem append_left (h : Picks hindered verdict tasks places) {task : Task}
    (hleft : ¬ hindered task.path →
      ¬ ∀ other ∈ tasksOf task.path tasks, verdict other = .processed) :
    Picks hindered verdict (tasks ++ [task]) places := by
  refine ⟨h.nodup, ?_, ?_, ?_⟩
  · intro place
    rw [isCompiled_append_singleton_iff, h.mem_iff,
      or_iff_left fun hlast => hleft hlast.2.1 hlast.2.2]
  · intro path hpath
    rw [tasksAt_append [task] h.lt]
    exact h.of_hindered path hpath
  · intro path hpath
    rw [tasksAt_append [task] h.lt, tasksOf_append, h.of_clear path hpath, tasksOf_cons]
    by_cases heq : task.path = path
    · subst heq
      rw [if_pos rfl, tasksOf_nil, untilFailure_append_singleton, if_neg (hleft hpath),
        List.append_nil]
    · rw [if_neg heq, tasksOf_nil, List.append_nil]

end Picks

/-- There are places of the compiled tasks, whatever is hindered. -/
theorem exists_picks (tasks : List Task) :
    ∃ places : List Nat, Picks hindered verdict tasks places := by
  induction tasks using List.reverseRecOn with
  | nil => exact ⟨[], Picks.nil⟩
  | append_singleton tasks task ih =>
    obtain ⟨places, h⟩ := ih
    by_cases hlast : ¬ hindered task.path
        ∧ ∀ other ∈ tasksOf task.path tasks, verdict other = .processed
    · exact ⟨_, h.append_picked hlast.1 hlast.2⟩
    · exact ⟨_, h.append_left fun hclear hprocessed => hlast ⟨hclear, hprocessed⟩⟩

end Places

/-! ## A run that has come to its end -/

namespace QueueRun

variable {α : Type} {graph : Graph α} {tasks : List Task} {verdict : Task → Outcome}
  {run : QueueRun}

/-- The tasks that were reported are those at the places that are not hindered. -/
theorem taken_perm (haccount : Accounted tasks graph run) (horderly : Orderly tasks graph run)
    (hdone : run.Done) (hobeys : run.Obeys verdict) {places : List Nat}
    (hpicks : Picks (Hindered tasks graph verdict) verdict tasks places) :
    (run.completed ++ run.failed).Perm (tasksAt tasks places) := by
  apply perm_of_filter_key Task.path
  intro path
  change tasksOf path _ = tasksOf path _
  rw [tasksOf_append]
  by_cases hblocked : run.Blocked graph path
  · rw [horderly.tasksOf_taken_of_blocked hblocked,
      hpicks.of_hindered path ((blocked_iff_hindered haccount hdone hobeys path).mp hblocked)]
  · rw [haccount.tasksOf_taken_of_not_blocked hdone hobeys hblocked, hpicks.of_clear path]
    rwa [← blocked_iff_hindered haccount hdone hobeys]

/-- What blocks an entry-point is a failing task among those that were taken. -/
theorem blocked_iff_of_perm (hobeys : run.Obeys verdict) {taken : List Task}
    (hperm : (run.completed ++ run.failed).Perm taken) (path : String) :
    run.Blocked graph path
      ↔ ∃ task ∈ taken, graph.DependsOn path task.path ∧ verdict task ≠ .processed := by
  constructor
  · rintro ⟨task, htask, hd⟩
    exact ⟨task, hperm.subset (List.mem_append_right _ htask), hd, hobeys.failed task htask⟩
  · rintro ⟨task, htask, hd, hfails⟩
    rcases List.mem_append.mp (hperm.symm.subset htask) with hcompleted | hfailed
    · exact absurd (hobeys.completed task hcompleted) hfails
    · exact ⟨task, hfailed, hd⟩

/-- The places that are not hindered are those of the compiled tasks, as there is
a run that comes to its end. -/
theorem compiles (haccount : Accounted tasks graph run) (hdone : run.Done)
    (hobeys : run.Obeys verdict) {places : List Nat}
    (hpicks : Picks (Hindered tasks graph verdict) verdict tasks places)
    (hperm : (run.completed ++ run.failed).Perm (tasksAt tasks places)) :
    Compiles tasks graph verdict places := by
  refine ⟨hpicks.nodup, ?_⟩
  intro place
  rw [hpicks.mem_iff]
  refine exists_congr fun task => and_congr_right fun _ => and_congr_left fun _ => ?_
  rw [← blocked_iff_hindered haccount hdone hobeys, blocked_iff_of_perm hobeys hperm]
  simp only [not_exists, not_and, not_not]

end QueueRun

/-! ## Summaries -/

/-- A failing task with what is said about it. -/
def failureOf? (verdict : Task → Outcome) (task : Task) : Option (Task × String) :=
  match verdict task with
  | .processed => none
  | .failed message => some (task, message)

/-- A summary tells what became of the tasks at some places of a list, and which
entry-points were skipped for them. -/
structure Summary.Settles {α : Type} (summary : Summary) (tasks : List Task) (graph : Graph α)
    (verdict : Task → Outcome) (places : List Nat) : Prop where
  taken : (summary.processed ++ summary.failed.map Prod.fst).Perm (tasksAt tasks places)
  processed : ∀ task ∈ summary.processed, verdict task = .processed
  failed : ∀ entry ∈ summary.failed, verdict entry.1 = .failed entry.2
  skipped_nodup : (summary.skipped.map EntryPoint.path).Nodup
  mem_skipped : ∀ entryPoint, entryPoint ∈ summary.skipped
    ↔ entryPoint ∈ leading (tasksOf entryPoint.path tasks)
      ∧ ∃ other ∈ tasksAt tasks places,
          graph.DependsOn entryPoint.path other.path ∧ verdict other ≠ .processed

namespace Summary.Settles

variable {α : Type} {graph : Graph α} {tasks : List Task} {verdict : Task → Outcome}
  {places : List Nat} {one other : Summary}

theorem processed_eq (h : one.Settles tasks graph verdict places) :
    one.processed.Perm ((tasksAt tasks places).filter (verdict · = .processed)) := by
  refine List.Perm.trans ?_ (h.taken.filter _)
  have hall : ∀ task ∈ one.processed, decide (verdict task = .processed) = true :=
    fun task htask => decide_eq_true (h.processed task htask)
  have hnone : ∀ task ∈ one.failed.map Prod.fst, ¬ decide (verdict task = .processed) = true := by
    intro task htask
    obtain ⟨entry, hentry, rfl⟩ := List.mem_map.mp htask
    simp [h.failed entry hentry]
  rw [List.filter_append, List.filter_eq_self.mpr hall, List.filter_eq_nil_iff.mpr hnone,
    List.append_nil]

theorem failed_eq (h : one.Settles tasks graph verdict places) :
    one.failed.Perm ((tasksAt tasks places).filterMap (failureOf? verdict)) := by
  refine List.Perm.trans ?_ (h.taken.filterMap _)
  have hnone : one.processed.filterMap (failureOf? verdict) = [] := by
    rw [List.filterMap_eq_nil_iff]
    intro task htask
    rw [failureOf?, h.processed task htask]
  have hall : (one.failed.map Prod.fst).filterMap (failureOf? verdict) = one.failed := by
    rw [List.filterMap_map]
    refine (List.filterMap_congr ?_).trans List.filterMap_some
    intro entry hentry
    rw [Function.comp, failureOf?, h.failed entry hentry]
  rw [List.filterMap_append, hnone, hall, List.nil_append]

/-- Two summaries of one outcome are the same but for the order. -/
theorem agree (h : one.Settles tasks graph verdict places)
    (h' : other.Settles tasks graph verdict places) :
    one.processed.Perm other.processed ∧ one.failed.Perm other.failed
      ∧ one.skipped.Perm other.skipped := by
  refine ⟨h.processed_eq.trans h'.processed_eq.symm, h.failed_eq.trans h'.failed_eq.symm, ?_⟩
  rw [List.perm_ext_iff_of_nodup h.skipped_nodup.of_map h'.skipped_nodup.of_map]
  intro entryPoint
  rw [h.mem_skipped, h'.mem_skipped]

end Summary.Settles

end PackageOrder
