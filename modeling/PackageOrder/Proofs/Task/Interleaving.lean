/-
PackageOrder.Proofs.Task.Interleaving — workers that mark tasks side by side.

Marking a task takes two steps, reading the description of its entry-point and writing
it back with the marks of the task. Between the two of one worker others may take
theirs, in any order (`MarkingRun.Step`). Two workers are never busy with the same
entry-point (`Coordinator.Balanced.path_ne`), and so what a worker has read is still
what is in the file when it writes (`MarkingRun.Sound`): no mark is lost
(`MarkingRun.keeps_marks`).
-/
import Mathlib.Logic.Function.Basic
import PackageOrder.Proofs.Task.Coordination
import PackageOrder.Proofs.Task.Marking

namespace PackageOrder

open Relation (ReflTransGen)

/-! ## Workers of a coordinator -/

namespace Coordinator

variable {coordinator : Coordinator}

/-- Two workers are busy with different entry-points. -/
theorem Balanced.path_ne {read : List (Nat × String)} {sent : List (Nat × Task)}
    (h : coordinator.Balanced read sent) {one other : Nat} {task task' : Task}
    (hone : coordinator.assigned? one = some task)
    (hother : coordinator.assigned? other = some task') (hne : one ≠ other) :
    task.path ≠ task'.path := by
  intro heq
  have hnodup := h.inProgress.nodup_iff.mp h.distinct
  have hsame := List.inj_on_of_nodup_map hnodup
    (mem_busy_of_assigned (assigned?_eq_some.mp hone))
    (mem_busy_of_assigned (assigned?_eq_some.mp hother)) heq
  exact hne (congrArg Prod.fst hsame)

/-- A worker is busy with the task that it had, or with one that it was given. -/
theorem Gives.assigned? {given : Dispatch} (h : coordinator.Gives given) {worker : Nat} {task : Task}
    (hassigned : given.coordinator.assigned? worker = some task) :
    coordinator.assigned? worker = some task
      ∨ coordinator.assigned? worker = none ∧ (worker, task) ∈ given.sent := by
  have hsent := h.sent_append worker
  rw [hassigned, Option.toList_some] at hsent
  rcases List.append_eq_singleton_iff.mp hsent with ⟨hnone, hbefore⟩ | ⟨hnew, hbefore⟩
  · exact Or.inl (Option.toList_eq_singleton_iff.mp hbefore)
  · refine Or.inr ⟨Option.toList_eq_nil_iff.mp hbefore, ?_⟩
    have hmem : task ∈ (given.sent.filter (·.1 = worker)).map Prod.snd := by
      rw [hnew]
      exact List.mem_singleton_self task
    obtain ⟨entry, hentry, rfl⟩ := List.mem_map.mp hmem
    obtain ⟨hentry, hworker⟩ := List.mem_filter.mp hentry
    rwa [← of_decide_eq_true hworker]

/-- A worker that is busy keeps its task. -/
theorem Gives.assigned?_of_busy {given : Dispatch} (h : coordinator.Gives given) {worker : Nat}
    {task : Task} (hassigned : coordinator.assigned? worker = some task) :
    given.coordinator.assigned? worker = some task := by
  have hsent := h.sent_append worker
  have hmem : task ∈ (given.coordinator.assigned? worker).toList := by
    rw [← hsent, hassigned]
    exact List.mem_append_right _ (List.mem_singleton_self task)
  exact Option.mem_toList.mp hmem

/-- All tasks of a coordinator are among some tasks. -/
structure Within (coordinator : Coordinator) (tasks : List Task) : Prop where
  pending : ∀ task ∈ coordinator.progress.queue.pending, task ∈ tasks
  assigned : ∀ worker task, coordinator.assigned? worker = some task → task ∈ tasks
  processed : ∀ task ∈ coordinator.progress.summary.processed, task ∈ tasks

theorem within_start {α : Type} (tasks : List Task) (graph : Graph α) (workers : Nat) :
    (start (TaskQueue.ofTasks tasks graph) workers).Within tasks where
  pending _ htask := htask
  assigned worker task hassigned := by
    rw [assigned?_start] at hassigned
    cases hassigned
  processed _ htask := nomatch htask

theorem Within.gives {tasks : List Task} (h : coordinator.Within tasks) {given : Dispatch}
    (hgives : coordinator.Gives given) : given.coordinator.Within tasks := by
  have hpending := hgives.takes.pending_perm
  refine ⟨fun task htask => h.pending task ?_, fun worker task hassigned => ?_, ?_⟩
  · exact hpending.mem_iff.mpr (List.mem_append_right _ htask)
  · rcases hgives.assigned? hassigned with hbefore | ⟨_, hsent⟩
    · exact h.assigned worker task hbefore
    · refine h.pending task (hpending.mem_iff.mpr (List.mem_append_left _ ?_))
      exact List.mem_map.mpr ⟨_, hsent, rfl⟩
  · rw [hgives.summary]
    exact h.processed

/-- A reply records the task of its worker. -/
theorem Within.receive {tasks : List Task} (h : coordinator.Within tasks) {strict : Bool}
    {worker : Nat} {text : String} {after : Coordinator} {log : Log}
    (hreceive : coordinator.receive strict worker text = .ok (after, log)) :
    after.Within tasks := by
  obtain ⟨task, outcome, _, hassigned, hsettle, _⟩ := receive_eq_ok hreceive
  have htask := h.assigned worker task (assigned?_eq_some.mpr hassigned)
  refine ⟨fun other hother => h.pending other ((Progress.pending_of_settle hsettle).subset hother),
    fun other task' hassigned' => ?_, fun other hother => ?_⟩
  · by_cases hsame : other = worker
    · rw [hsame, (assigned?_of_receive hreceive).1] at hassigned'
      cases hassigned'
    · rw [(assigned?_of_receive hreceive).2 other hsame] at hassigned'
      exact h.assigned other task' hassigned'
  · rcases Progress.mem_processed_of_settle hsettle hother with hbefore | ⟨rfl, _⟩
    · exact h.processed other hbefore
    · exact htask

end Coordinator

/-! ## Marking in two steps -/

/-- How far a worker has come with marking its task. -/
inductive MarkingStage where
  | fresh
  /-- The worker has read the description to which it adds the marks. -/
  | holds (json : PackageJson)
  | wrote

/-- A run in which workers mark their tasks: the coordinator, the file system and how
far each worker has come. -/
structure MarkingRun where
  coordinator : Coordinator
  tree : FileTree
  stages : Nat → MarkingStage

/-- What holds of a worker that has come so far with the task that it is busy with: what
it has read is still in the file, and what it has written is there. -/
def MarkingStage.Fits (tree : FileTree) : MarkingStage → Option Task → Prop
  | .fresh, _ => True
  | .holds json, some task => json = tree.descriptionFor task
  | .wrote, some task => tree.HasMarks task
  | _, none => False

/-- A change of another file changes nothing about it. -/
theorem MarkingStage.Fits.kept {tree changed : FileTree} {stage : MarkingStage}
    {task? : Option Task} (h : stage.Fits tree task?)
    (hkept : ∀ task, task? = some task → changed.descriptionFor task = tree.descriptionFor task
      ∧ tree.KeepsMarksAt changed task.entryPoint.descriptionFile) :
    stage.Fits changed task? := by
  cases task? with
  | none => cases stage <;> exact h
  | some task =>
    obtain ⟨hread, hkeeps⟩ := hkept task rfl
    cases stage with
    | fresh => exact trivial
    | holds json => exact Eq.trans h hread.symm
    | wrote => exact FileTree.HasMarks.kept h hkeeps

namespace MarkingRun

/-- The start of a run with some workers. -/
def start {α : Type} (tree : FileTree) (tasks : List Task) (graph : Graph α) (workers : Nat) :
    MarkingRun where
  coordinator := .start (.ofTasks tasks graph) workers
  tree
  stages _ := .fresh

/-- A run in which a worker has come to another stage. -/
def reach (run : MarkingRun) (worker : Nat) (stage : MarkingStage) : MarkingRun :=
  { run with stages := Function.update run.stages worker stage }

theorem stages_reach_self (run : MarkingRun) (worker : Nat) (stage : MarkingStage) :
    (run.reach worker stage).stages worker = stage :=
  Function.update_self ..

theorem stages_reach (run : MarkingRun) {worker other : Nat} (hne : other ≠ worker)
    (stage : MarkingStage) : (run.reach worker stage).stages other = run.stages other :=
  Function.update_of_ne hne ..

/-- A step of the coordinator or of one worker. Writing succeeds. -/
inductive Step (strict : Bool) : MarkingRun → MarkingRun → Prop where
  /-- The coordinator gives tasks to idle workers. -/
  | gives {run : MarkingRun} {inboxes : List Bool}
      (hwaits : run.coordinator.verdict? inboxes = none) :
      Step strict run { run with coordinator := (run.coordinator.prepare inboxes).coordinator }
  /-- A worker reads the description for its task. -/
  | reads {run : MarkingRun} {worker : Nat} {task : Task}
      (hassigned : run.coordinator.assigned? worker = some task)
      (hstage : run.stages worker = .fresh) :
      Step strict run (run.reach worker (.holds (run.tree.descriptionFor task)))
  /-- A worker writes the description that it has read with the marks of its task. -/
  | writes {run : MarkingRun} {worker : Nat} {task : Task} {json : PackageJson}
      {changed : FileTree}
      (hassigned : run.coordinator.assigned? worker = some task)
      (hstage : run.stages worker = .holds json)
      (hwrite : run.tree.writeMarks task json = .ok changed) :
      Step strict run { run.reach worker .wrote with tree := changed }
  /-- The coordinator takes the report of a worker that has written. -/
  | reports {run : MarkingRun} {worker : Nat} {coordinator : Coordinator} {log : Log}
      (hstage : run.stages worker = .wrote)
      (hreceive : run.coordinator.receive strict worker (WorkerReport.ended .processed).text
        = .ok (coordinator, log)) :
      Step strict run { run.reach worker .fresh with coordinator }
  /-- The coordinator takes the report of a worker that could not mark its task. -/
  | fails {run : MarkingRun} {worker : Nat} {message : String} {coordinator : Coordinator}
      {log : Log} (hstage : run.stages worker = .fresh)
      (hreceive : run.coordinator.receive strict worker
        (WorkerReport.ended (.failed message)).text = .ok (coordinator, log)) :
      Step strict run { run.reach worker .fresh with coordinator }

/-- A compile step that nobody interrupts comes to the two steps. -/
theorem exists_steps_of_markTask {strict : Bool} {run : MarkingRun} {worker : Nat} {task : Task}
    (hassigned : run.coordinator.assigned? worker = some task)
    (hstage : run.stages worker = .fresh) {session after : Session}
    (htree : session.tree = run.tree) (hdone : (markTask task).run session = (.done, after)) :
    ∃ middle last, Step strict run middle ∧ Step strict middle last
      ∧ last.tree = after.tree ∧ last.stages worker = .wrote := by
  have hwrite := writes_of_markTask hdone
  rw [htree] at hwrite
  exact ⟨_, _, .reads hassigned hstage,
    .writes hassigned (run.stages_reach_self worker _) hwrite, rfl, stages_reach_self _ worker _⟩

/-! ## What holds of all runs -/

/-- What holds between two steps of a run that started with a file system. -/
structure Sound (first : FileTree) (tasks : List Task) (run : MarkingRun) : Prop where
  balanced : ∃ read sent, run.coordinator.Balanced read sent
  within : run.coordinator.Within tasks
  fits : ∀ worker, (run.stages worker).Fits run.tree (run.coordinator.assigned? worker)
  processed : ∀ task ∈ run.coordinator.progress.summary.processed, run.tree.HasMarks task
  sensitive : run.tree.caseSensitive = true
  apart : run.tree.FilesApart tasks
  describes : ∀ task ∈ tasks, run.tree.Describes task
  keeps : ∀ task ∈ tasks, first.KeepsMarksAt run.tree task.entryPoint.descriptionFile

section

variable {first : FileTree} {tasks : List Task} {run : MarkingRun} {worker : Nat}

theorem sound_start {α : Type} {graph : Graph α} {workers : Nat}
    (hcase : first.caseSensitive = true) (hapart : first.FilesApart tasks)
    (hdescribes : ∀ task ∈ tasks, first.Describes task) :
    (start first tasks graph workers).Sound first tasks where
  balanced := ⟨[], [], Coordinator.balanced_start tasks graph workers⟩
  within := Coordinator.within_start tasks graph workers
  fits _ := trivial
  processed _ htask := nomatch htask
  sensitive := hcase
  apart := hapart
  describes := hdescribes
  keeps _ _ := FileTree.keepsMarksAt_of_eq rfl

/-- When one worker comes to another stage it is enough to look at that one. -/
theorem fits_reach {tree : FileTree} {coordinator : Coordinator} {stage : MarkingStage}
    (hself : stage.Fits tree (coordinator.assigned? worker))
    (hothers : ∀ other, other ≠ worker →
      (run.stages other).Fits tree (coordinator.assigned? other)) :
    ∀ other, ((run.reach worker stage).stages other).Fits tree (coordinator.assigned? other) := by
  intro other
  by_cases hne : other = worker
  · rw [hne, stages_reach_self]
    exact hself
  · rw [stages_reach run hne]
    exact hothers other hne

/-- A worker that is given a task has not begun with it, and the other ones go on. -/
theorem Sound.gives (h : run.Sound first tasks) {given : Dispatch}
    (hgives : run.coordinator.Gives given) :
    Sound first tasks { run with coordinator := given.coordinator } := by
  obtain ⟨read, sent, hbalanced⟩ := h.balanced
  refine { h with
    balanced := ⟨read, _, hbalanced.gives hgives⟩
    within := h.within.gives hgives
    processed := hgives.summary ▸ h.processed
    fits := fun worker => ?_ }
  have hfits := h.fits worker
  cases hbefore : run.coordinator.assigned? worker with
  | none =>
    rw [hbefore] at hfits
    dsimp only
    cases hstage : run.stages worker with
    | fresh => exact trivial
    | holds json => exact (hstage ▸ hfits).elim
    | wrote => exact (hstage ▸ hfits).elim
  | some task =>
    dsimp only
    rwa [hgives.assigned?_of_busy hbefore, ← hbefore]

/-- A worker that reads holds what is in the file. -/
theorem Sound.reads (h : run.Sound first tasks) {task : Task}
    (hassigned : run.coordinator.assigned? worker = some task) :
    Sound first tasks (run.reach worker (.holds (run.tree.descriptionFor task))) := by
  have hself : (MarkingStage.holds (run.tree.descriptionFor task)).Fits run.tree
      (run.coordinator.assigned? worker) := by
    rw [hassigned]
    rfl
  exact { h with fits := fits_reach hself fun other _ => h.fits other }

/-- **A worker that writes loses no mark**: what it has read is still in the file, and
what the others have read stays in theirs. -/
theorem Sound.writes (h : run.Sound first tasks) {task : Task} {json : PackageJson}
    {changed : FileTree} (hassigned : run.coordinator.assigned? worker = some task)
    (hstage : run.stages worker = .holds json)
    (hwrite : run.tree.writeMarks task json = .ok changed) :
    Sound first tasks { run.reach worker .wrote with tree := changed } := by
  obtain ⟨read, sent, hbalanced⟩ := h.balanced
  have htask := h.within.assigned worker task hassigned
  have hheld : json = run.tree.descriptionFor task := by
    have hfits := h.fits worker
    rwa [hstage, hassigned] at hfits
  rw [hheld] at hwrite
  have hsame := FileTree.sameOutside_of_writeMarks h.sensitive hwrite
  have hkeeps := h.apart.keepsMarksAt h.sensitive htask (h.describes task htask) hwrite
  have hself : MarkingStage.wrote.Fits changed (run.coordinator.assigned? worker) := by
    rw [hassigned]
    exact FileTree.hasMarks_of_writeMarks h.sensitive (h.describes task htask) hwrite
  refine { h with
    sensitive := hsame.sensitive.2
    apart := h.apart.kept hsame
    describes := fun other hother => (h.describes other hother).kept (hkeeps other hother)
    keeps := fun other hother => (h.keeps other hother).trans (hkeeps other hother)
    processed := fun other hother =>
      (h.processed other hother).kept (hkeeps other (h.within.processed other hother))
    fits := fits_reach hself fun other hne => (h.fits other).kept fun task' hassigned' => ?_ }
  -- nobody else is busy with the entry-point
  have htask' := h.within.assigned other task' hassigned'
  have hpath := hbalanced.path_ne hassigned hassigned' hne.symm
  refine ⟨?_, hkeeps task' htask'⟩
  rw [FileTree.descriptionFor, FileTree.descriptionFor,
    FileTree.packageJson?_of_writeMarks_apart h.sensitive hwrite
      (h.apart task htask task' htask' hpath)]

/-- A worker that has reported is idle. -/
theorem Sound.receives (h : run.Sound first tasks) {strict : Bool} {text : String}
    {outcome : Outcome} {after : Coordinator} {log : Log}
    (hread : WorkerReport.read? text = some (.ended outcome))
    (hstage : outcome = .processed → run.stages worker = .wrote)
    (hreceive : run.coordinator.receive strict worker text = .ok (after, log)) :
    Sound first tasks { run.reach worker .fresh with coordinator := after } := by
  obtain ⟨read, sent, hbalanced⟩ := h.balanced
  refine { h with
    balanced := ⟨_, sent, hbalanced.receive hreceive⟩
    within := h.within.receive hreceive
    fits := fits_reach trivial fun other hne => ?_
    processed := fun task htask => ?_ }
  · rw [(Coordinator.assigned?_of_receive hreceive).2 other hne]
    exact h.fits other
  · obtain ⟨task', outcome', hread', hassigned, hsettle, _⟩ := Coordinator.receive_eq_ok hreceive
    rcases Progress.mem_processed_of_settle hsettle htask with hbefore | ⟨rfl, rfl⟩
    · exact h.processed task hbefore
    · cases hread.symm.trans hread'
      have hfits := h.fits worker
      rwa [hstage rfl, Coordinator.assigned?_eq_some.mpr hassigned] at hfits

theorem Step.sound {strict : Bool} {after : MarkingRun} (hstep : Step strict run after)
    (h : run.Sound first tasks) : after.Sound first tasks := by
  cases hstep with
  | gives hwaits => exact h.gives (Coordinator.gives_of_verdict?_eq_none hwaits)
  | reads hassigned _ => exact h.reads hassigned
  | writes hassigned hstage hwrite => exact h.writes hassigned hstage hwrite
  | reports hstage hreceive =>
    have hread := WorkerReport.read?_text (.ended .processed)
    exact h.receives hread (fun _ => hstage) hreceive
  | @fails _ message _ _ _ hreceive =>
    have hread := WorkerReport.read?_text (.ended (.failed message))
    exact h.receives hread (fun heq => nomatch heq) hreceive

theorem sound_of_steps {strict : Bool} {after : MarkingRun}
    (hsteps : ReflTransGen (Step strict) run after) (h : run.Sound first tasks) :
    after.Sound first tasks := by
  induction hsteps with
  | refl => exact h
  | tail _ hstep ih => exact hstep.sound ih

end

/-- **No mark is lost to concurrency.** Whatever the workers and the coordinator do, one
step after the other in any order: the file of each task that was reported as processed
has the marks of the task, and every file has the marks that it had in the beginning.

The files are to be apart. Where no description can be loaded from a file in the beginning,
the one that the entry-point was found with has to be one that can be loaded once it is
written. -/
theorem keeps_marks {α : Type} {tree : FileTree} (hcase : tree.caseSensitive = true)
    {tasks : List Task} (hapart : tree.FilesApart tasks)
    (hdescribes : ∀ task ∈ tasks, tree.Describes task) {graph : Graph α} {workers : Nat}
    {strict : Bool} {run : MarkingRun}
    (hsteps : ReflTransGen (Step strict) (start tree tasks graph workers) run) :
    (∀ task ∈ run.coordinator.progress.summary.processed,
        task ∈ tasks ∧ run.tree.HasMarks task)
      ∧ ∀ task ∈ tasks, tree.KeepsMarksAt run.tree task.entryPoint.descriptionFile := by
  have hsound := sound_of_steps hsteps (sound_start hcase hapart hdescribes)
  exact ⟨fun task htask => ⟨hsound.within.processed task htask, hsound.processed task htask⟩,
    hsound.keeps⟩

/-- A task for two properties of an entry-point, and its types. -/
def bundleAt (path : String) : Task where
  entryPoint := { (default : EntryPoint) with path }
  property := .main
  marks := [.main, .module]
  processTypings := true

/-- A description that has the mark of another property. -/
def markedFile : ByteArray :=
  (Json.Value.object [(markerKey, .object [("es2015", .string toolVersion)])]).indented.toUTF8

/-- Two packages with such descriptions. -/
def markedPackages : FileTree where
  root := [("a", .folder [("package.json", .file markedFile)]),
    ("b", .folder [("package.json", .file markedFile)])]

theorem filesApart_markedPackages :
    markedPackages.FilesApart (["/a", "/b"].map bundleAt) := by
  have hfile : ∀ path ∈ ["/a", "/b"], markedPackages.entityAt
      (FileTree.namesOf (bundleAt path).entryPoint.descriptionFile) = some (.file markedFile) := by
    have hnames : ∀ path ∈ ["/a", "/b"], FileTree.namesOf (bundleAt path).entryPoint.descriptionFile
        ∈ [["a", "package.json"], ["b", "package.json"]] := by
      decide +kernel
    intro path hpath
    have hmem := hnames path hpath
    rw [List.mem_pair] at hmem
    rcases hmem with hname | hname <;> rw [hname] <;> rfl
  have hne : ∀ one ∈ ["/a", "/b"], ∀ other ∈ ["/a", "/b"], one ≠ other →
      FileTree.namesOf (bundleAt one).entryPoint.descriptionFile
        ≠ FileTree.namesOf (bundleAt other).entryPoint.descriptionFile := by
    decide +kernel
  intro one hone other hother hpath
  obtain ⟨path, hmem, rfl⟩ := List.mem_map.mp hone
  obtain ⟨path', hmem', rfl⟩ := List.mem_map.mp hother
  exact FileTree.keepsClear_of_files rfl (hfile path hmem) (hfile path' hmem')
    (hne path hmem path' hmem' hpath)

theorem describes_markedPackages :
    ∀ task ∈ ["/a", "/b"].map bundleAt, markedPackages.Describes task := by
  have hloaded : ∀ task ∈ ["/a", "/b"].map bundleAt,
      (markedPackages.packageJson? task.entryPoint.descriptionFile).isSome = true := by
    decide +kernel
  exact fun task htask => Or.inl (hloaded task htask)

/-- Two workers read at the same time and write one after the other. -/
theorem keeps_marks_two_workers :
    ∃ run, ReflTransGen (Step false)
        (start markedPackages (["/a", "/b"].map bundleAt) ({} : Graph Unit) 2) run
      ∧ run.coordinator.progress.summary.processed = [bundleAt "/b", bundleAt "/a"]
      ∧ run.tree.HasMarks (bundleAt "/a") ∧ run.tree.HasMarks (bundleAt "/b")
      ∧ ∃ json, run.tree.packageJson? (bundleAt "/a").entryPoint.descriptionFile = some json
        ∧ json.isProcessed "es2015" = true := by
  have hfirst : (markedPackages.writeMarks (bundleAt "/b")
      (markedPackages.descriptionFor (bundleAt "/b"))).toBool = true := by
    decide +kernel
  have hsecond : (((markedPackages.writeMarks (bundleAt "/b")
      (markedPackages.descriptionFor (bundleAt "/b"))).toOption.getD {}).writeMarks (bundleAt "/a")
      (markedPackages.descriptionFor (bundleAt "/a"))).toBool = true := by
    decide +kernel
  have hbefore : ∃ json, markedPackages.packageJson? (bundleAt "/a").entryPoint.descriptionFile
      = some json ∧ json.isProcessed "es2015" = true := by
    have hprocessed : ((markedPackages.packageJson? (bundleAt "/a").entryPoint.descriptionFile).any
        fun json => json.isProcessed "es2015") = true := by
      decide +kernel
    exact (Option.any_eq_true ..).mp hprocessed
  obtain ⟨middle, hwrite⟩ := FileTree.exists_writeMarks hfirst
  rw [hwrite] at hsecond
  obtain ⟨last, hwrite'⟩ := FileTree.exists_writeMarks hsecond
  have h0 : ReflTransGen (Step false)
      (start markedPackages (["/a", "/b"].map bundleAt) ({} : Graph Unit) 2) _ := .refl
  have h1 := h0.tail (@Step.gives _ _ [true, true] rfl)
  have h2 := h1.tail (@Step.reads _ _ 0 (bundleAt "/a") rfl rfl)
  have h3 := h2.tail (@Step.reads _ _ 1 (bundleAt "/b") rfl rfl)
  have h4 := h3.tail (@Step.writes _ _ 1 (bundleAt "/b") _ middle rfl rfl hwrite)
  have h5 := h4.tail (@Step.writes _ _ 0 (bundleAt "/a") _ last rfl rfl hwrite')
  have hread := WorkerReport.read?_text (.ended .processed)
  have h6 := h5.tail (@Step.reports _ _ 1 _ _ rfl
    (Coordinator.receive_of_ended false hread rfl))
  have h7 := h6.tail (@Step.reports _ _ 0 _ _ rfl
    (Coordinator.receive_of_ended false hread rfl))
  obtain ⟨hprocessed, hkeeps⟩ :=
    keeps_marks rfl filesApart_markedPackages describes_markedPackages h7
  obtain ⟨json, hjson, hmark⟩ := hbefore
  obtain ⟨json', hjson', hkept⟩ := hkeeps (bundleAt "/a") List.mem_cons_self json hjson
  refine ⟨_, h7, rfl, (hprocessed _ ?_).2, (hprocessed _ ?_).2, json', hjson',
    hkept.isProcessed hmark⟩
  · exact List.mem_cons_of_mem _ List.mem_cons_self
  · exact List.mem_cons_self

end MarkingRun

end PackageOrder
