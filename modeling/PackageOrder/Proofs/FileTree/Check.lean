/-
PackageOrder.Proofs.FileTree.Check — deciding that a tree is well-formed.

What is asked of a tree is asked of every folder and link in it, so it is checked
entity by entity (`wellFormed_of_check`).
-/
import PackageOrder.Proofs.FileTree.Above

namespace PackageOrder

open PackageOrder.Path (Plain)

instance (names : List String) : Decidable (FileTree.Spelled names) :=
  decidable_of_iff ((∀ name ∈ names, Plain name.toList)
      ∧ ∀ name ∈ names.head?, name.toList.head? ≠ some ':')
    ⟨fun ⟨hplain, hdrive⟩ => ⟨hplain, fun name hname => hdrive name hname⟩,
      fun h => ⟨h.plain, fun name hname => h.no_drive name hname⟩⟩

/-- Whether the names in a folder are plain and in order. -/
def Folder.namesInOrder (folder : Folder) : Bool :=
  decide ((Folder.names folder).Pairwise (· < ·))
    && (Folder.names folder).all fun name => decide (Plain name.toList)

mutual

/-- Whether the folders at and below an entity have plain names in order, and its links
lead to rooted paths in normal form. -/
def Entity.check : Entity → Bool
  | .folder entries => Folder.namesInOrder entries && checkAll entries
  | .file _ => true
  | .link target => Path.isRooted target && Path.clean target == target

def checkAll : List (String × Entity) → Bool
  | [] => true
  | (_, entity) :: rest => entity.check && checkAll rest

end

theorem check_of_mem {folder : Folder} (h : checkAll folder = true) {name : String} {entity : Entity}
    (hmem : (name, entity) ∈ folder) : entity.check = true := by
  induction folder with
  | nil => cases hmem
  | cons entry rest ih =>
    obtain ⟨key, held⟩ := entry
    rw [checkAll, Bool.and_eq_true] at h
    rcases List.mem_cons.mp hmem with heq | hmem
    · cases heq
      exact h.1
    · exact ih h.2 hmem

/-- What stands anywhere below a folder is checked with it. -/
theorem check_of_entityAt {folder : Folder} (h : (Entity.folder folder).check = true)
    {names : List String} {entity : Entity} (hat : folder.entityAt names = some entity) :
    entity.check = true := by
  induction names generalizing folder with
  | nil =>
    cases hat
    exact h
  | cons name names ih =>
    rw [Entity.check, Bool.and_eq_true] at h
    have hheld : ∀ held, folder.lookup name = some held → held.check = true := by
      intro held hlookup
      obtain ⟨before, after, rfl, _⟩ := List.lookup_eq_some_iff.mp hlookup
      exact check_of_mem h.2 (List.mem_append_right _ List.mem_cons_self)
    rw [Folder.entityAt] at hat
    split at hat
    · rename_i entries hlookup
      exact ih (hheld _ hlookup) hat
    · rename_i held _ hlookup
      split at hat
      · cases hat
        exact hheld _ hlookup
      · cases hat
    · cases hat

/-! ## All entities -/

mutual

/-- The entities at and below an entity. -/
def Entity.inside : Entity → List Entity
  | .folder entries => .folder entries :: insideAll entries
  | .file contents => [.file contents]
  | .link target => [.link target]

def insideAll : List (String × Entity) → List Entity
  | [] => []
  | (_, entity) :: rest => entity.inside ++ insideAll rest

end

theorem mem_inside_self (entity : Entity) : entity ∈ entity.inside := by
  cases entity <;> exact List.mem_cons_self

theorem mem_insideAll {folder : Folder} {name : String} {entity other : Entity}
    (hlookup : folder.lookup name = some entity) (h : other ∈ entity.inside) :
    other ∈ insideAll folder := by
  induction folder with
  | nil => cases hlookup
  | cons entry rest ih =>
    obtain ⟨key, held⟩ := entry
    rw [insideAll, List.mem_append]
    rw [List.lookup_cons] at hlookup
    split at hlookup
    · cases hlookup
      exact Or.inl h
    · exact Or.inr (ih hlookup)

/-- What stands anywhere below a folder is one of the entities there. -/
theorem mem_inside_of_entityAt {folder : Folder} {names : List String} {entity : Entity}
    (hat : folder.entityAt names = some entity) : entity ∈ (Entity.folder folder).inside := by
  induction names generalizing folder with
  | nil =>
    cases hat
    exact mem_inside_self _
  | cons name names ih =>
    rw [Folder.entityAt] at hat
    rw [Entity.inside]
    split at hat
    · rename_i entries hlookup
      exact List.mem_cons_of_mem _ (mem_insideAll hlookup (ih hat))
    · rename_i held _ hlookup
      split at hat
      · cases hat
        exact List.mem_cons_of_mem _ (mem_insideAll hlookup (mem_inside_self _))
      · cases hat
    · cases hat

namespace FileTree

/-- What a lookup finds stands somewhere in the tree. -/
theorem mem_inside_of_lookup {tree : FileTree} (hcase : tree.caseSensitive = true) {path : String}
    {followLast : Bool} {entity : Entity} {way : String}
    (h : tree.lookup path followLast = some (entity, way)) :
    entity ∈ (Entity.folder tree.root).inside := by
  rw [lookup] at h
  generalize passLimit = passes at h
  induction passes generalizing path with
  | zero => cases h
  | succ passes ih =>
    rw [lookupWithin, hcase] at h
    rcases walk_cases followLast tree.root "" (namesOf path) with
      ⟨found, _, hat, _, hwalk⟩ | ⟨_, _, _, _, _, _, hwalk⟩ | ⟨_, hwalk⟩
    · rw [hwalk] at h
      cases h
      exact mem_inside_of_entityAt hat
    · rw [hwalk] at h
      exact ih h
    · rw [hwalk] at h
      cases h

/-- The texts of the files in a tree. -/
def texts (tree : FileTree) : List String :=
  (Entity.folder tree.root).inside.filterMap fun entity =>
    match entity with
    | .file contents => String.fromUTF8? contents
    | _ => none

/-- What is read is the text of a file in the tree. -/
theorem mem_texts_of_readText {tree : FileTree} (hcase : tree.caseSensitive = true)
    {path text : String} (h : tree.readText path = .ok text) : text ∈ tree.texts := by
  obtain ⟨contents, hread, htext⟩ := readText_eq_ok_iff.mp h
  obtain ⟨way, hlookup⟩ := readBytes_eq_ok_iff.mp hread
  exact List.mem_filterMap.mpr ⟨_, mem_inside_of_lookup hcase hlookup, htext⟩

/-- Whether a tree is well-formed and its links are clean. -/
def check (tree : FileTree) : Bool :=
  tree.caseSensitive && Path.isRooted tree.workingDir && (Entity.folder tree.root).check
    && (Folder.names tree.root).all fun name => name.toList.head? != some ':'

/-- **A checked tree is well-formed.** -/
theorem wellFormed_of_check {tree : FileTree} (h : tree.check = true) :
    tree.WellFormed ∧ tree.LinksClean := by
  simp only [check, Bool.and_eq_true, List.all_eq_true, bne_iff_ne] at h
  obtain ⟨⟨⟨hcase, hdir⟩, hroot⟩, hdrive⟩ := h
  have hfolder : ∀ names entries, tree.entityAt names = some (.folder entries) →
      Folder.namesInOrder entries = true := by
    intro names entries hat
    have hcheck := check_of_entityAt hroot hat
    rw [Entity.check, Bool.and_eq_true] at hcheck
    exact hcheck.1
  have hlink : tree.LinksClean := by
    intro names target hat
    have hcheck := check_of_entityAt hroot hat
    rw [Entity.check, Bool.and_eq_true, beq_iff_eq] at hcheck
    exact hcheck
  refine ⟨⟨hcase, hdir, ?_, ?_, hdrive, fun names target hat => (hlink names target hat).1⟩, hlink⟩
  · intro names entries hat
    have hnames := hfolder names entries hat
    rw [Folder.namesInOrder, Bool.and_eq_true, decide_eq_true_eq] at hnames
    exact hnames.1
  · intro names entries hat name hname
    have hnames := hfolder names entries hat
    rw [Folder.namesInOrder, Bool.and_eq_true, List.all_eq_true] at hnames
    exact of_decide_eq_true (hnames.2 name hname)

end FileTree

end PackageOrder
