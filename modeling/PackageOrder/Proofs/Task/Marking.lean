/-
PackageOrder.Proofs.Task.Marking — marking a task reads a description and writes it.

What is written is the description in the file, if one can be loaded there, with the
marks of the task (`writes_of_markTask`). Nothing is lost between the two when nobody
else writes to the file: it has the marks that it had and those of the task
(`FileTree.keepsMarksAt_of_writeMarks`, `FileTree.hasMarks_of_writeMarks`).
-/
import PackageOrder.Proofs.EntryPoint.Marked
import PackageOrder.Proofs.Task.Plan

namespace PackageOrder

/-- The file with the description of an entry-point. -/
def EntryPoint.descriptionFile (entryPoint : EntryPoint) : String :=
  Path.join entryPoint.path ["package.json"]

/-- The description that a task adds its marks to: the one in the file, or else the one
that the entry-point was found with. -/
def FileTree.descriptionFor (tree : FileTree) (task : Task) : PackageJson :=
  (tree.packageJson? task.entryPoint.descriptionFile).getD task.entryPoint.packageJson

/-- Writes a description with the marks of a task. -/
def FileTree.writeMarks (tree : FileTree) (task : Task) (json : PackageJson) :
    Except FileError FileTree :=
  tree.writePackageJson task.entryPoint.descriptionFile
    (json.markProcessed task.markedProperties)

/-! ## Reading and writing -/

/-- Marking a task reads a description and writes it with the marks of the task. -/
theorem markTask_run {task : Task} {session : Session} {format : BundleFormat}
    (hformat : session.tree.format? task.entryPoint task.property = some format) :
    (markTask task).run session =
      let said : Session := { session with
        log := session.log ++ [(.info, "Compiling " ++ task.describe ++ " as " ++ format.name)] }
      match session.tree.writeMarks task (session.tree.descriptionFor task) with
      | .ok written => (.done, { said with tree := written })
      | .error cause =>
        (.error (Failure.inaccessible task.entryPoint.descriptionFile cause).message
          cause.message?.toList, said) := by
  unfold markTask FileTree.writeMarks FileTree.descriptionFor EntryPoint.descriptionFile
  rw [StateT.run_bind, StateT.run_get, pure_bind]
  dsimp only
  rw [hformat]
  dsimp only
  rw [StateT.run_bind, StateT.run_modify, pure_bind]
  dsimp only
  generalize session.tree.writePackageJson _ _ = found
  cases found <;> rfl

/-- A task whose format is not known is not marked. -/
theorem markTask_run_of_unknown {task : Task} {session : Session}
    (hformat : session.tree.format? task.entryPoint task.property = none) :
    ∃ message, (markTask task).run session = (.error message [], session) := by
  refine ⟨"Unable to determine the format of " ++ task.property.name ++ " for entry-point "
    ++ task.entryPoint.path, ?_⟩
  unfold markTask
  rw [StateT.run_bind, StateT.run_get, pure_bind]
  dsimp only
  rw [hformat]
  rfl

theorem FileTree.exists_writeMarks {tree : FileTree} {task : Task} {json : PackageJson}
    (h : (tree.writeMarks task json).toBool = true) :
    ∃ changed, tree.writeMarks task json = .ok changed := by
  cases hwrite : tree.writeMarks task json with
  | ok changed => exact ⟨changed, rfl⟩
  | error cause =>
    rw [hwrite] at h
    cases h

/-- A task of a known format is marked if its description can be written. -/
theorem exists_markTask_run {task : Task} {session : Session} {format : BundleFormat}
    (hformat : session.tree.format? task.entryPoint task.property = some format)
    (hwritable : (session.tree.writeMarks task (session.tree.descriptionFor task)).toBool = true) :
    ∃ after, (markTask task).run session = (.done, after) := by
  have hrun := markTask_run hformat
  obtain ⟨written, hwrite⟩ := FileTree.exists_writeMarks hwritable
  rw [hwrite] at hrun
  exact ⟨_, hrun⟩

/-- A task that was marked has written the description with its marks. -/
theorem writes_of_markTask {task : Task} {session after : Session}
    (h : (markTask task).run session = (.done, after)) :
    session.tree.writeMarks task (session.tree.descriptionFor task) = .ok after.tree := by
  cases hformat : session.tree.format? task.entryPoint task.property with
  | none =>
    obtain ⟨message, hrun⟩ := markTask_run_of_unknown hformat
    cases hrun.symm.trans h
  | some format =>
    have hrun := (markTask_run hformat).symm.trans h
    dsimp only at hrun
    generalize session.tree.writeMarks task (session.tree.descriptionFor task) = found at hrun ⊢
    cases found with
    | ok written =>
      cases hrun
      rfl
    | error cause => cases hrun

/-- A task that was marked is a call on the description in its file. -/
theorem mark_of_markTask {task : Task} {session after : Session}
    (h : (markTask task).run session = (.done, after)) :
    (HeldDescription.mk (session.tree.descriptionFor task) session.tree).mark
        task.entryPoint.descriptionFile task.markedProperties
      = .ok ⟨(session.tree.descriptionFor task).markProcessed task.markedProperties,
        after.tree⟩ := by
  have hwrite := writes_of_markTask h
  generalize session.tree.descriptionFor task = json at hwrite ⊢
  exact HeldDescription.mark_eq_ok_iff.mpr ⟨rfl, hwrite⟩

/-! ## What is kept -/

namespace PackageJson

/-- A description has the marks of another one, unless they are current. -/
def KeepsMarks (before after : PackageJson) : Prop :=
  ∀ property, after.isProcessed property = true
    ∨ after.version? property = before.version? property

theorem KeepsMarks.refl (json : PackageJson) : KeepsMarks json json :=
  fun _ => Or.inr rfl

/-- What was processed stays so. -/
theorem KeepsMarks.isProcessed {before after : PackageJson} (h : KeepsMarks before after)
    {property : String} (hprocessed : before.isProcessed property = true) :
    after.isProcessed property = true := by
  rcases h property with hafter | hsame
  · exact hafter
  · rw [isProcessed_iff_version?] at hprocessed ⊢
    rw [hsame, hprocessed]

theorem KeepsMarks.trans {before middle after : PackageJson} (h : KeepsMarks before middle)
    (h' : KeepsMarks middle after) : KeepsMarks before after := by
  intro property
  rcases h' property with hafter | hsame
  · exact Or.inl hafter
  · rcases h property with hmiddle | hsame'
    · exact Or.inl (h'.isProcessed hmiddle)
    · exact Or.inr (hsame.trans hsame')

theorem keepsMarks_markProcessed (json : PackageJson) (properties : List String) :
    KeepsMarks json (json.markProcessed properties) := by
  intro property
  by_cases hmem : property ∈ properties
  · exact Or.inl (by rw [isProcessed_markProcessed, decide_eq_true hmem, Bool.true_or])
  · exact Or.inr (by rw [version?_markProcessed, if_neg hmem])

end PackageJson

namespace FileTree

variable {before after tree changed : FileTree} {task : Task} {json : PackageJson} {path : String}

/-- A description that can be loaded from a file before can be loaded afterwards, and has
its marks. -/
def KeepsMarksAt (before after : FileTree) (path : String) : Prop :=
  ∀ json, before.packageJson? path = some json →
    ∃ json', after.packageJson? path = some json' ∧ json.KeepsMarks json'

theorem keepsMarksAt_of_eq (h : after.packageJson? path = before.packageJson? path) :
    KeepsMarksAt before after path :=
  fun json hjson => ⟨json, h.trans hjson, .refl json⟩

theorem KeepsMarksAt.trans {middle : FileTree} (h : KeepsMarksAt before middle path)
    (h' : KeepsMarksAt middle after path) : KeepsMarksAt before after path := by
  intro json hjson
  obtain ⟨json', hjson', hkeeps⟩ := h json hjson
  obtain ⟨json'', hjson'', hkeeps'⟩ := h' json' hjson'
  exact ⟨json'', hjson'', hkeeps.trans hkeeps'⟩

/-- The file of a task has a description with all of its marks. -/
def HasMarks (tree : FileTree) (task : Task) : Prop :=
  ∃ json, tree.packageJson? task.entryPoint.descriptionFile = some json
    ∧ ∀ property ∈ task.markedProperties, json.isProcessed property = true

theorem HasMarks.kept (h : before.HasMarks task)
    (hkeeps : KeepsMarksAt before after task.entryPoint.descriptionFile) :
    after.HasMarks task := by
  obtain ⟨json, hjson, hmarks⟩ := h
  obtain ⟨json', hjson', hkeeps⟩ := hkeeps json hjson
  exact ⟨json', hjson', fun property hproperty => hkeeps.isProcessed (hmarks property hproperty)⟩

/-- A description with the marks of a task can be loaded once it is written. -/
def Describes (tree : FileTree) (task : Task) : Prop :=
  (tree.packageJson? task.entryPoint.descriptionFile).isSome = true
    ∨ task.entryPoint.packageJson.Readable

theorem Describes.readable (h : tree.Describes task) : (tree.descriptionFor task).Readable := by
  unfold descriptionFor
  cases hjson : tree.packageJson? task.entryPoint.descriptionFile with
  | some json => exact readable_of_packageJson? hjson
  | none => exact h.resolve_left (by rw [hjson]; exact Bool.false_ne_true)

theorem Describes.kept (h : before.Describes task)
    (hkeeps : KeepsMarksAt before after task.entryPoint.descriptionFile) :
    after.Describes task := by
  refine h.imp_left fun hsome => ?_
  obtain ⟨json, hjson⟩ := Option.isSome_iff_exists.mp hsome
  obtain ⟨json', hjson', _⟩ := hkeeps json hjson
  rw [hjson']
  rfl

/-! ## Writing -/

section Write

variable (hcase : tree.caseSensitive = true)
include hcase

theorem sameOutside_of_writeMarks (h : tree.writeMarks task json = .ok changed) :
    SameOutside [namesOf task.entryPoint.descriptionFile] tree changed := by
  unfold writeMarks writePackageJson writeText at h
  exact (sameOutside_of_write hcase h).1

/-- **The file has the description with the marks of the task afterwards.** -/
theorem packageJson?_of_writeMarks (hjson : json.Readable)
    (h : tree.writeMarks task json = .ok changed) :
    changed.packageJson? task.entryPoint.descriptionFile
      = some (PackageJson.reread (json.markProcessed task.markedProperties)) :=
  packageJson?_of_write hcase h (hjson.markProcessed _)

/-- What is read elsewhere stays. -/
theorem packageJson?_of_writeMarks_apart (h : tree.writeMarks task json = .ok changed)
    (hclear : tree.KeepsClear [namesOf task.entryPoint.descriptionFile] path) :
    changed.packageJson? path = tree.packageJson? path :=
  packageJson?_of_write_apart hcase h hclear

variable (hdescribes : tree.Describes task)
  (h : tree.writeMarks task (tree.descriptionFor task) = .ok changed)
include hdescribes h

/-- **A task that is marked has its marks in the file.** -/
theorem hasMarks_of_writeMarks : changed.HasMarks task := by
  refine ⟨_, packageJson?_of_writeMarks hcase hdescribes.readable h, fun property hproperty => ?_⟩
  rw [PackageJson.isProcessed_reread, PackageJson.isProcessed_markProcessed,
    decide_eq_true hproperty, Bool.true_or]

/-- **No mark in the file is lost**, if what was read there is what is there. -/
theorem keepsMarksAt_of_writeMarks :
    KeepsMarksAt tree changed task.entryPoint.descriptionFile := by
  intro json hjson
  have hread : tree.descriptionFor task = json := by
    rw [descriptionFor, hjson, Option.getD_some]
  refine ⟨_, packageJson?_of_writeMarks hcase hdescribes.readable h, fun property => ?_⟩
  rw [PackageJson.isProcessed_reread, PackageJson.version?_reread, hread]
  exact json.keepsMarks_markProcessed task.markedProperties property

end Write

/-! ## Files of several entry-points -/

/-- The descriptions of different entry-points are in different files: a lookup of the
one does not come to the place of the other, nor does a link lead it there. -/
def FilesApart (tree : FileTree) (tasks : List Task) : Prop :=
  ∀ one ∈ tasks, ∀ other ∈ tasks, one.path ≠ other.path →
    tree.KeepsClear [namesOf one.entryPoint.descriptionFile] other.entryPoint.descriptionFile

/-- Files that stand at different names are apart. -/
theorem keepsClear_of_files (hcase : tree.caseSensitive = true) {one other : String}
    {contents contents' : ByteArray} (hone : tree.entityAt (namesOf one) = some (.file contents))
    (hother : tree.entityAt (namesOf other) = some (.file contents'))
    (hne : namesOf one ≠ namesOf other) : tree.KeepsClear [namesOf one] other := by
  -- below a file there is nothing, and it is no link
  have hends : ∀ {names rest : List String} {entity found : Entity},
      tree.entityAt names = some entity → (∀ entries, entity ≠ .folder entries) →
      tree.entityAt (names ++ rest) = some found → rest = [] := by
    intro names rest entity found hentity hfolder hfound
    by_contra hrest
    have hnone := Folder.entityAt_append_eq_none hrest fun entries he =>
      hfolder entries (Option.some.inj (hentity.symm.trans he))
    exact Option.some_ne_none _ (hfound.symm.trans hnone)
  intro last hlast place hplace hbelow
  rw [List.mem_singleton.mp hplace] at hbelow
  rcases Relation.ReflTransGen.cases_head hlast with rfl | ⟨next, hredirects, _⟩
  · obtain ⟨rest, hrest⟩ := hbelow
    rw [← hrest] at hother hne
    rw [hends hone (fun _ => Entity.noConfusion) hother, List.append_nil] at hne
    exact hne rfl
  · obtain ⟨front, back, target, hnames, hlink, _⟩ := exists_link_of_redirects hcase hredirects
    rw [hnames] at hother
    rw [hends hlink (fun _ => Entity.noConfusion) hother, List.append_nil, hlink] at hother
    cases hother

theorem FilesApart.kept {tasks : List Task} (h : tree.FilesApart tasks)
    {places : List (List String)} (hsame : SameOutside places tree changed) :
    changed.FilesApart tasks :=
  fun one hone other hother hne => hsame.keepsClear (h one hone other hother hne)

/-- **No mark of any of the tasks is lost.** -/
theorem FilesApart.keepsMarksAt {tasks : List Task} (h : tree.FilesApart tasks)
    (hcase : tree.caseSensitive = true) (htask : task ∈ tasks) (hdescribes : tree.Describes task)
    (hwrite : tree.writeMarks task (tree.descriptionFor task) = .ok changed) :
    ∀ other ∈ tasks, KeepsMarksAt tree changed other.entryPoint.descriptionFile := by
  intro other hother
  by_cases hpath : task.path = other.path
  · have hfile : task.entryPoint.descriptionFile = other.entryPoint.descriptionFile :=
      congrArg (Path.join · ["package.json"]) hpath
    exact hfile ▸ keepsMarksAt_of_writeMarks hcase hdescribes hwrite
  · exact keepsMarksAt_of_eq
      (packageJson?_of_writeMarks_apart hcase hwrite (h task htask other hother hpath))

end FileTree

end PackageOrder
