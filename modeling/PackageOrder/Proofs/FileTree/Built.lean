/-
PackageOrder.Proofs.FileTree.Built — the trees that come about by operations.

Whatever operations are carried out on an empty tree, and whichever of them fail, the
folders of the tree that is built list their names in order (`Built.inOrder`). An
operation puts something into one folder, or takes it out, and puts the folders above back
where they were; each of these steps keeps the order (`Folder.InOrder.insert`,
`Folder.InOrder.erase`, `inOrder_of_changeFolder`).
-/
import PackageOrder.Proofs.FileTree.Write

namespace PackageOrder

namespace Folder

variable {folder entries : Folder} {name : String}

/-- A folder that lists its names in order, and so do all folders below it. -/
def InOrder (folder : Folder) : Prop :=
  ∀ names entries, folder.entityAt names = some (.folder entries) →
    (Folder.names entries).Pairwise (· < ·)

theorem InOrder.names (h : folder.InOrder) : (Folder.names folder).Pairwise (· < ·) :=
  h [] folder rfl

theorem InOrder.below (h : folder.InOrder) (hlookup : folder.lookup name = some (.folder entries)) :
    InOrder entries :=
  fun names inside hinside => h (name :: names) inside ((entityAt_cons_folder hlookup).trans hinside)

theorem InOrder.of_names (hnames : (Folder.names folder).Pairwise (· < ·))
    (hbelow : ∀ name entries, folder.lookup name = some (.folder entries) → InOrder entries) :
    folder.InOrder := by
  intro names entries h
  cases names with
  | nil =>
    cases h
    exact hnames
  | cons name names =>
    rw [entityAt] at h
    split at h
    · rename_i inside hlookup
      exact hbelow name inside hlookup names entries h
    · rename_i entity hne hlookup
      split at h
      · cases h
        exact absurd rfl (hne entries)
      · cases h
    · cases h

theorem inOrder_nil : InOrder [] :=
  .of_names List.Pairwise.nil nofun

theorem InOrder.insert (h : folder.InOrder) {entity : Entity}
    (hentity : ∀ entries, entity = .folder entries → InOrder entries) :
    (folder.insert name entity).InOrder := by
  refine .of_names (pairwise_names_insert h.names) fun other entries hlookup => ?_
  by_cases hother : other = name
  · rw [hother, lookup_insert_self] at hlookup
    exact hentity entries (Option.some.inj hlookup)
  · rw [lookup_insert_of_ne folder entity hother] at hlookup
    exact h.below hlookup

theorem InOrder.erase (h : folder.InOrder) : (folder.erase name).InOrder := by
  refine .of_names ?_ fun other entries hlookup => ?_
  · rw [names_erase]
    exact h.names.filter _
  · rw [Folder.erase, lookup_filter_ne] at hlookup
    split at hlookup
    · cases hlookup
    · exact h.below hlookup

end Folder

namespace FileTree

variable {tree changed : FileTree} {path : String} {folder after : Folder} {names : List String}

/-! ## Changes keep the order -/

theorem inOrder_of_changeFolder {change : Folder → Except FileError Folder}
    (hchange : ∀ before after, before.InOrder → change before = .ok after → after.InOrder)
    (hfolder : folder.InOrder) (h : changeFolder change names folder = .ok after) :
    after.InOrder := by
  induction names generalizing folder after with
  | nil => exact hchange folder after hfolder h
  | cons name names ih =>
    obtain ⟨entries, inner, hlookup, hinner, rfl⟩ := changeFolder_cons_eq_ok.mp h
    refine hfolder.insert fun inside hinside => ?_
    cases hinside
    exact ih (hfolder.below hlookup) hinner

theorem inOrder_of_changeParent {change : Folder → String → Except FileError Folder}
    (hchange : ∀ before name after, before.InOrder → change before name = .ok after →
      after.InOrder)
    (htree : tree.root.InOrder) (h : tree.changeParent path change = .ok changed) :
    changed.root.InOrder := by
  obtain ⟨parent, name, root, _, hroot, rfl⟩ := changeParent_eq_ok_iff.mp h
  exact inOrder_of_changeFolder (fun before after => hchange before name after) htree hroot

theorem inOrder_of_makeFolders (hfolder : folder.InOrder) (h : makeFolders names folder = .ok after) :
    after.InOrder := by
  induction names generalizing folder after with
  | nil =>
    cases h
    exact hfolder
  | cons name names ih =>
    rw [makeFolders] at h
    split at h
    · rename_i entries hlookup
      obtain ⟨inner, hinner, heq⟩ := exists_of_bind_eq_ok h
      cases heq
      refine hfolder.insert fun inside hinside => ?_
      cases hinside
      exact ih (hfolder.below hlookup) hinner
    · cases h
    · obtain ⟨inner, hinner, heq⟩ := exists_of_bind_eq_ok h
      cases heq
      refine hfolder.insert fun inside hinside => ?_
      cases hinside
      exact ih Folder.inOrder_nil hinner

/-- An exclusive write that succeeds does what any other does. -/
theorem write_of_exclusive {contents : ByteArray} {exclusive : Bool}
    (h : tree.write path contents exclusive = .ok changed) :
    tree.write path contents false = .ok changed := by
  obtain ⟨parent, name, root, hnames, hroot, hchanged⟩ := changeParent_eq_ok_iff.mp h
  refine changeParent_eq_ok_iff.mpr
    ⟨parent, name, root, hnames, changeFolder_mono (fun before after hchange => ?_) hroot, hchanged⟩
  split at hchange
  · cases hchange
  · split at hchange
    · cases hchange
    · exact hchange
  · exact hchange

theorem inOrder_of_write (htree : tree.root.InOrder) {contents : ByteArray} {exclusive : Bool}
    (h : tree.write path contents exclusive = .ok changed) : changed.root.InOrder := by
  have hwrite := write_of_exclusive h
  rw [write_eq] at hwrite
  refine inOrder_of_changeParent (fun before name after hbefore hchange => ?_) htree hwrite
  rw [(renewed_of_writeIn hchange).2]
  exact hbefore.insert nofun

theorem inOrder_of_remove (htree : tree.root.InOrder) (h : tree.remove path = .ok changed) :
    changed.root.InOrder := by
  rw [remove_eq] at h
  refine inOrder_of_changeParent (fun before name after hbefore hchange => ?_) htree h
  rw [(renewed_of_removeIn hchange).2]
  exact hbefore.erase

/-! ## Operations -/

/-- What an operation does to a tree. Failed ones leave it as it is, but for a move, whose
first step may have been done. -/
inductive Step : FileTree → FileTree → Prop
  | write {tree changed : FileTree} {path : String} {contents : ByteArray} {exclusive : Bool} :
      tree.write path contents exclusive = .ok changed → Step tree changed
  | remove {tree changed : FileTree} {path : String} :
      tree.remove path = .ok changed → Step tree changed
  | symlink {tree changed : FileTree} {target path : String} :
      tree.symlink target path = .ok changed → Step tree changed
  | removeDeep {tree changed : FileTree} {path : String} :
      tree.removeDeep path = .ok changed → Step tree changed
  | ensureFolder {tree changed : FileTree} {path : String} :
      tree.ensureFolder path = .ok changed → Step tree changed
  | move (tree : FileTree) (source target : String) : Step tree (tree.move source target).1
  | changeDir (tree : FileTree) (path : String) : Step tree (tree.changeDir path)

/-- A tree that operations lead to from an empty one. -/
def Built (tree : FileTree) : Prop :=
  ∃ workingDir caseSensitive,
    Relation.ReflTransGen Step ⟨[], workingDir, caseSensitive⟩ tree

theorem Step.inOrder (h : Step tree changed) (htree : tree.root.InOrder) : changed.root.InOrder := by
  cases h with
  | write h => exact inOrder_of_write htree h
  | remove h => exact inOrder_of_remove htree h
  | symlink h =>
    refine inOrder_of_changeParent (fun before name after hbefore hchange => ?_) htree h
    cases hchange
    exact hbefore.insert nofun
  | removeDeep h =>
    refine inOrder_of_changeParent (fun before name after hbefore hchange => ?_) htree h
    cases hchange
    exact hbefore.erase
  | ensureFolder h =>
    obtain ⟨root, hroot, heq⟩ := exists_of_bind_eq_ok h
    cases heq
    exact inOrder_of_makeFolders htree hroot
  | move source target =>
    rw [FileTree.move]
    split
    · exact htree
    · split
      · exact htree
      · rename_i written hwrite
        have hwritten := inOrder_of_write htree hwrite
        split
        · exact hwritten
        · rename_i moved hremove
          exact inOrder_of_remove hwritten hremove
  | changeDir path => exact htree

/-- **In a tree that operations lead to, all folders list their names in order.** -/
theorem Built.inOrder (h : tree.Built) : tree.root.InOrder := by
  obtain ⟨workingDir, caseSensitive, hsteps⟩ := h
  induction hsteps with
  | refl => exact Folder.inOrder_nil
  | tail _ hstep ih => exact hstep.inOrder ih

end FileTree

end PackageOrder
