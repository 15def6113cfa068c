/-
PackageOrder.Proofs.Task.Waiting — which dependencies the tasks of a plan wait
for.

The entry-points are listed in `Graph.overallOrder`. An entry-point waits for
those of its dependencies that stand before it there, and for no others: when the
tasks are run one after the other they are taken in their order
(`QueueRun.reachable_drop`). A dependency stands before it if it is met behind a
direct dependency that does not lead back; otherwise it may stand after it, also
when it does not lead back itself (`planTasks_passes_over`).
-/
import PackageOrder.Proofs.Graph.Order
import PackageOrder.Proofs.Run
import PackageOrder.Proofs.Task.Reached
import PackageOrder.Task.Plan

namespace PackageOrder

open Relation (ReflTransGen TransGen)

/-! ## Tasks by rank -/

/-- Tasks that are listed by the ranks of their entry-points, no two of which
share a rank. -/
structure Ranked (rank : String → Nat) (tasks : List Task) : Prop where
  ordered : tasks.Pairwise fun one other => rank one.path ≤ rank other.path
  apart : ∀ one ∈ tasks, ∀ other ∈ tasks, rank one.path = rank other.path → one.path = other.path

namespace Ranked

variable {tasks : List Task} {rank : String → Nat}

theorem rank_le (h : Ranked rank tasks) {one other : Task} (hone : one ∈ tasks)
    (hother : other ∈ tasks) (hlt : StartsBefore tasks one.path other.path) :
    rank one.path ≤ rank other.path := by
  obtain ⟨hfirst, h1⟩ := path_getElem_findIdx ⟨one, hone, rfl⟩
  obtain ⟨hsecond, h2⟩ := path_getElem_findIdx ⟨other, hother, rfl⟩
  have hle := List.pairwise_iff_getElem.mp h.ordered _ _ hfirst hsecond hlt
  rwa [h1, h2] at hle

theorem startsBefore_iff (h : Ranked rank tasks) {one other : Task} (hone : one ∈ tasks)
    (hother : other ∈ tasks) :
    StartsBefore tasks one.path other.path ↔ rank one.path < rank other.path := by
  constructor
  · intro hlt
    apply Nat.lt_of_le_of_ne (h.rank_le hone hother hlt)
    intro heq
    rw [h.apart one hone other hother heq] at hlt
    exact Nat.lt_irrefl _ hlt
  · intro hlt
    have hne : one.path ≠ other.path := by
      intro heq
      rw [heq] at hlt
      exact Nat.lt_irrefl _ hlt
    rcases startsBefore_total ⟨one, hone, rfl⟩ hne with hbefore | hafter
    · exact hbefore
    · have hle := h.rank_le hother hone hafter
      omega

end Ranked

/-! ## One task after the other -/

namespace QueueRun

variable {α : Type} {graph : Graph α} {tasks : List Task} {rank : String → Nat}

/-- With nothing under way and nothing failed, the first task that waits may
start. -/
theorem Accounted.next?_eq_head {run : QueueRun} (h : Accounted tasks graph run)
    (hgraph : graph.Coherent) (hrank : Ranked rank tasks) (hidle : run.running = [])
    (hfailed : run.failed = []) {n : Nat} (hpending : run.queue.pending = tasks.drop n)
    {task : Task} {rest : List Task} (hdrop : tasks.drop n = task :: rest) :
    run.queue.next? = some (task,
      { run.queue with pending := rest, inProgress := task.path :: run.queue.inProgress }) := by
  rw [hdrop] at hpending
  have htask : task ∈ tasks := h.mem_of_pending (by simp [hpending])
  have hordered := hrank.ordered.drop (i := n)
  rw [hdrop, List.pairwise_cons] at hordered
  have havailable : run.queue.isAvailable task.path = true := by
    rw [TaskQueue.isAvailable_iff, h.inProgress, hidle]
    refine ⟨List.not_mem_nil, ?_⟩
    intro blocker hblocker
    have hclean : ¬ run.Spoiled graph blocker := by
      rintro ⟨_, hmem, _⟩
      rw [hfailed] at hmem
      cases hmem
    rw [h.unfinished_eq_zero_iff hclean, hidle, List.append_nil]
    -- nothing that waits ranks before the first task that waits
    rintro other ho rfl
    have hlt := (hrank.startsBefore_iff (h.mem_of_pending ho) htask).mp
      ((h.mem_blockersOf hgraph htask _).mp hblocker).2
    rw [hpending] at ho
    rcases List.mem_cons.mp ho with rfl | ho
    · exact Nat.lt_irrefl _ hlt
    · have hle := hordered.1 other ho
      omega
  rw [TaskQueue.next?, hpending, TaskQueue.takeFirst?, if_pos havailable]
  rfl

/-- Run one after the other without a failure, the tasks are taken in their
order. -/
theorem reachable_drop (hgraph : graph.Coherent) (hrank : Ranked rank tasks) (n : Nat) :
    ∃ run, Reachable tasks graph run ∧ run.queue.pending = tasks.drop n
      ∧ run.running = [] ∧ run.failed = [] := by
  induction n with
  | zero => exact ⟨_, ReflTransGen.refl, rfl, rfl, rfl⟩
  | succ n ih =>
    obtain ⟨run, hrun, hpending, hidle, hfailed⟩ := ih
    rcases hdrop : tasks.drop n with _ | ⟨task, rest⟩
    · refine ⟨run, hrun, ?_, hidle, hfailed⟩
      rw [hpending, ← List.tail_drop, hdrop, List.tail_nil]
    · have hnext := (hrun.accounted hgraph).next?_eq_head hgraph hrank hidle hfailed hpending hdrop
      have htaken := hrun.tail (.take hnext)
      rw [hidle] at htaken
      refine ⟨_, htaken.tail (.complete (show _ = [] ++ task :: [] from rfl)), ?_, rfl, hfailed⟩
      rw [← List.tail_drop, hdrop]
      rfl

/-- What stands before an entry-point and is depended on is waited for, and
nothing else is. -/
theorem waits_iff (hgraph : graph.Coherent) (hrank : Ranked rank tasks) {one other : Task}
    (hone : one ∈ tasks) (hother : other ∈ tasks) (hd : graph.DependsOn one.path other.path) :
    (∀ run, Reachable tasks graph run → ∀ task queue, run.queue.next? = some (task, queue) →
        task.path = one.path → ∀ left ∈ run.queue.pending ++ run.running, left.path ≠ other.path)
      ↔ rank other.path < rank one.path := by
  constructor
  · intro hwaits
    by_contra hnot
    -- run up to the first task of the one, when no task of the other has been taken
    obtain ⟨hfirst, hpath⟩ := path_getElem_findIdx ⟨one, hone, rfl⟩
    obtain ⟨run, hrun, hpending, hidle, hfailed⟩ :=
      reachable_drop hgraph hrank (tasks.findIdx (·.path = one.path))
    have hdrop := List.drop_eq_getElem_cons hfirst
    have hnext := (hrun.accounted hgraph).next?_eq_head hgraph hrank hidle hfailed hpending hdrop
    obtain ⟨hsecond, hpath'⟩ := path_getElem_findIdx ⟨other, hother, rfl⟩
    have hle : tasks.findIdx (·.path = one.path) ≤ tasks.findIdx (·.path = other.path) := by
      rw [← hrank.startsBefore_iff hother hone] at hnot
      exact Nat.not_lt.mp hnot
    refine hwaits run hrun _ _ hnext hpath tasks[tasks.findIdx (·.path = other.path)] ?_ hpath'
    rw [hpending]
    exact List.mem_append_left _ (List.mem_drop_iff_getElem.mpr
      ⟨tasks.findIdx (·.path = other.path) - tasks.findIdx (·.path = one.path), by omega,
        by congr 1; omega⟩)
  · intro hlt run hrun task queue hnext hpath
    have hbefore := (hrank.startsBefore_iff hother hone).mpr hlt
    rw [← hpath] at hd hbefore
    exact (hrun.accounted hgraph).done_of_next hgraph hnext hd hbefore

end QueueRun

/-! ## The tasks of a plan -/

namespace EntryPoint

theorem entryPoint_of_mem_tasksFor {entryPoint : EntryPoint} {task : Task} :
    ∀ {processTypings : Bool} {properties : List FormatProperty},
      task ∈ entryPoint.tasksFor processTypings properties → task.entryPoint = entryPoint
  | _, [], h => by cases h
  | processTypings, property :: rest, h => by
      rw [tasksFor] at h
      split at h
      · exact entryPoint_of_mem_tasksFor h
      · rcases List.mem_cons.mp h with rfl | h
        · rfl
        · exact entryPoint_of_mem_tasksFor h

end EntryPoint

namespace SortedEntryPoints

/-- The tasks of a plan are listed by the places of their entry-points. -/
theorem ranked_tasks (sorted : SortedEntryPoints) (considered : List FormatProperty)
    (allFormats : Bool) (hnodup : (sorted.entryPoints.map EntryPoint.path).Nodup) :
    Ranked (sorted.entryPoints.map EntryPoint.path).idxOf (sorted.tasks considered allFormats) := by
  constructor
  · rw [tasks, List.pairwise_flatMap]
    constructor
    · intro entryPoint _
      apply List.pairwise_of_forall_mem_list
      intro one hone other hother
      rw [Task.path, Task.path, EntryPoint.entryPoint_of_mem_tasksFor hone,
        EntryPoint.entryPoint_of_mem_tasksFor hother]
    · rw [List.pairwise_iff_getElem]
      intro i j hi hj hlt one hone other hother
      rw [Task.path, Task.path, EntryPoint.entryPoint_of_mem_tasksFor hone,
        EntryPoint.entryPoint_of_mem_tasksFor hother]
      have h1 := hnodup.idxOf_getElem i (by simpa using hi)
      have h2 := hnodup.idxOf_getElem j (by simpa using hj)
      rw [List.getElem_map] at h1 h2
      omega
  · intro one hone other hother heq
    obtain ⟨entryPoint, hmem, htask⟩ := List.mem_flatMap.mp hone
    have hpath : one.path ∈ sorted.entryPoints.map EntryPoint.path := by
      rw [Task.path, EntryPoint.entryPoint_of_mem_tasksFor htask]
      exact List.mem_map_of_mem hmem
    exact (List.idxOf_inj hpath).mp heq

end SortedEntryPoints

/-- Without cycles the tasks of a plan are in topological order. -/
theorem SortedEntryPoints.topological_tasks {sorted : SortedEntryPoints}
    (hgraph : sorted.graph.Coherent)
    (hlisted : sorted.entryPoints.map EntryPoint.path = sorted.graph.overallOrder)
    (hacyclic : ∀ path, ¬ sorted.graph.DependsOn path path) (considered : List FormatProperty)
    (allFormats : Bool) : Topological (sorted.tasks considered allFormats) sorted.graph := by
  intro one hone other hother hd
  have hnodup : (sorted.entryPoints.map EntryPoint.path).Nodup := by
    rw [hlisted]
    exact hgraph.nodup_overallOrder
  have hrank := sorted.ranked_tasks considered allFormats hnodup
  rw [hlisted] at hrank
  obtain ⟨first, hl, hr⟩ := TransGen.head'_iff.mp hd
  rw [hrank.startsBefore_iff hother hone]
  apply hgraph.idxOf_overallOrder_lt hl
  · exact Relation.reflTransGen_iff_eq_or_transGen.mp hr
  · intro hback
    exact hacyclic first (TransGen.tail hback hl)

/-- A plan comes to the queue of its tasks, unless it fails. -/
theorem eq_ofTasks_of_planTasks {sorted : SortedEntryPoints} {considered : List FormatProperty}
    {allFormats : Bool} {session after : Session} {queue : TaskQueue}
    (h : (planTasks sorted considered allFormats).runFrom session = (.ok queue, after)) :
    queue = TaskQueue.ofTasks (sorted.tasks considered allFormats) sorted.graph := by
  unfold planTasks at h
  rw [Run.runFrom_bind] at h
  split at h
  · rw [Run.runFrom_bind] at h
    split at h
    · dsimp only at h
      split at h
      · cases h
      · cases h
        rfl
    · cases h
  · cases h

/-- **What the tasks of a plan wait for**: of the dependencies of an entry-point
those that stand before it in the order of the graph, and no others. All that it
comes to behind a direct dependency that does not lead back stands there. -/
theorem planTasks_waits {sorted : SortedEntryPoints} {considered : List FormatProperty}
    {allFormats : Bool} {session after : Session} {queue : TaskQueue}
    (hgraph : sorted.graph.Built)
    (hlisted : sorted.entryPoints.map EntryPoint.path = sorted.graph.overallOrder)
    (hplan : (planTasks sorted considered allFormats).runFrom session = (.ok queue, after))
    {one other : Task} (hone : one ∈ queue.pending) (hother : other ∈ queue.pending)
    (hd : sorted.graph.DependsOn one.path other.path) :
    ((∀ run, ReflTransGen QueueRun.Step { queue } run →
        ∀ task next, run.queue.next? = some (task, next) → task.path = one.path →
          ∀ left ∈ run.queue.pending ++ run.running, left.path ≠ other.path)
      ↔ sorted.graph.overallOrder.idxOf other.path < sorted.graph.overallOrder.idxOf one.path)
      ∧ ∀ first, sorted.graph.Leads one.path first →
          (other.path = first ∨ sorted.graph.DependsOn first other.path) →
          ¬ sorted.graph.DependsOn first one.path →
          sorted.graph.overallOrder.idxOf other.path
            < sorted.graph.overallOrder.idxOf one.path := by
  have hcoherent := hgraph.coherent
  have hnodup : (sorted.entryPoints.map EntryPoint.path).Nodup := by
    rw [hlisted]
    exact hcoherent.nodup_overallOrder
  have hrank := sorted.ranked_tasks considered allFormats hnodup
  rw [hlisted] at hrank
  rw [eq_ofTasks_of_planTasks hplan] at hone hother ⊢
  refine ⟨QueueRun.waits_iff hcoherent hrank hone hother hd, ?_⟩
  intro first hl hr hno
  exact hcoherent.idxOf_overallOrder_lt hl hr hno

/-- The entry-point with a path that has a main bundle. -/
def mainAt (path : String) : EntryPoint :=
  { (default : EntryPoint) with path, packageJson := [("main", .string "./main.js")] }

/-- Two entry-points that need each other; the first one also needs a third. -/
def mutualNeeds : SortedEntryPoints where
  entryPoints := [mainAt "/y", mainAt "/b", mainAt "/x"]
  invalid := []
  ignored := []
  graph :=
    ((((({} : Graph EntryPoint).addNode "/x" (mainAt "/x")).addNode "/y" (mainAt "/y")).addNode
      "/b" (mainAt "/b")).addDependency "/x" "/y").addDependency "/x" "/b"
      |>.addDependency "/y" "/x"

/-- The task for the main bundle of an entry-point. -/
def mainTaskAt (path : String) : Task where
  entryPoint := mainAt path
  property := .main
  marks := [.main]
  processTypings := true

theorem built_mutualNeeds : mutualNeeds.graph.Built :=
  (((Graph.Built.empty.addNode "/x" (mainAt "/x")).addNode "/y" (mainAt "/y")).addNode "/b"
    (mainAt "/b")).addDependency "/x" "/y" |>.addDependency "/x" "/b" |>.addDependency "/y" "/x"

theorem leads_mutualNeeds : mutualNeeds.graph.Leads "/x" "/b" ∧ mutualNeeds.graph.Leads "/y" "/x" :=
  ⟨show "/b" ∈ ["/y", "/b"] by decide, show "/x" ∈ ["/x"] by decide⟩

/-- The third entry-point needs nothing. -/
theorem not_dependsOn_mutualNeeds (path : String) : ¬ mutualNeeds.graph.DependsOn "/b" path := by
  intro hd
  obtain ⟨next, hl, _⟩ := TransGen.head'_iff.mp hd
  exact List.not_mem_nil (show next ∈ [] from hl)

theorem planTasks_mutualNeeds :
    ∃ queue after,
      (planTasks mutualNeeds [.main] true).runFrom { tree := {} } = (.ok queue, after)
        ∧ queue.pending = [mainTaskAt "/y", mainTaskAt "/b", mainTaskAt "/x"] :=
  ⟨_, _, rfl, rfl⟩

/-- Of the two that need each other, the first waits for the third and the second
does not. -/
theorem planTasks_waits_mutualNeeds :
    let waits (queue : TaskQueue) (one other : String) :=
      ∀ run, ReflTransGen QueueRun.Step { queue } run →
        ∀ task next, run.queue.next? = some (task, next) → task.path = one →
          ∀ left ∈ run.queue.pending ++ run.running, left.path ≠ other
    mutualNeeds.entryPoints.map EntryPoint.path = mutualNeeds.graph.overallOrder
      ∧ ∃ queue after,
        (planTasks mutualNeeds [.main] true).runFrom { tree := {} } = (.ok queue, after)
        ∧ queue.pending = [mainTaskAt "/y", mainTaskAt "/b", mainTaskAt "/x"]
        ∧ mutualNeeds.graph.DependsOn "/x" "/b" ∧ mutualNeeds.graph.DependsOn "/y" "/b"
        ∧ waits queue "/x" "/b" ∧ ¬ waits queue "/y" "/b" := by
  intro waits
  have hlisted : mutualNeeds.entryPoints.map EntryPoint.path = mutualNeeds.graph.overallOrder := rfl
  have hx : mutualNeeds.graph.DependsOn "/x" "/b" := TransGen.single leads_mutualNeeds.1
  have hy : mutualNeeds.graph.DependsOn "/y" "/b" := TransGen.head leads_mutualNeeds.2 hx
  obtain ⟨queue, after, hplan, hpending⟩ := planTasks_mutualNeeds
  have hmem : mainTaskAt "/x" ∈ queue.pending ∧ mainTaskAt "/y" ∈ queue.pending
      ∧ mainTaskAt "/b" ∈ queue.pending := by
    simp [hpending]
  refine ⟨hlisted, queue, after, hplan, hpending, hx, hy, ?_, ?_⟩
  · have h := planTasks_waits built_mutualNeeds hlisted hplan hmem.1 hmem.2.2 hx
    exact h.1.mpr (h.2 "/b" leads_mutualNeeds.1 (Or.inl rfl) (not_dependsOn_mutualNeeds "/x"))
  · have h := planTasks_waits built_mutualNeeds hlisted hplan hmem.2.1 hmem.2.2 hy
    intro hwaits
    exact absurd (h.1.mp hwaits) (by decide)

/-- An entry-point may be taken before one that it depends on and that does not
depend on it. -/
theorem planTasks_passes_over :
    mutualNeeds.graph.Built
      ∧ mutualNeeds.entryPoints.map EntryPoint.path = mutualNeeds.graph.overallOrder
      ∧ ∃ queue after,
        (planTasks mutualNeeds [.main] true).runFrom { tree := {} } = (.ok queue, after)
        ∧ (∃ next, queue.next? = some (mainTaskAt "/y", next))
        ∧ mutualNeeds.graph.DependsOn "/y" "/b" ∧ ¬ mutualNeeds.graph.DependsOn "/b" "/y"
        ∧ mainTaskAt "/b" ∈ queue.pending := by
  refine ⟨built_mutualNeeds, rfl, _, _, rfl, ⟨_, rfl⟩, ?_, not_dependsOn_mutualNeeds "/y", ?_⟩
  · exact TransGen.head leads_mutualNeeds.2 (TransGen.single leads_mutualNeeds.1)
  · exact List.mem_cons_of_mem _ List.mem_cons_self

end PackageOrder
