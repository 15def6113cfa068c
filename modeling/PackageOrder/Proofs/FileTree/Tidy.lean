/-
PackageOrder.Proofs.FileTree.Tidy — trees whose folders list each name once.

What a lookup finds stands somewhere in the tree, also where names are not told apart by
case (`exists_entityAt_of_lookup`). So what a folder lists are plain names, none of them
twice, if that is so of all folders of the tree. Below a path in normal form they spell
paths in normal form (`Tidy.spelled`, `Normal.resolve_name`).
-/
import PackageOrder.Proofs.Discovery.BasePaths
import PackageOrder.Proofs.FileTree.RealPath

namespace PackageOrder

open PackageOrder.Path (Plain)
open PackageOrder.FileTree (namesOf pathOf Spelled)

/-- What a name stands for, in some case, stands at a name. -/
theorem Folder.exists_lookup_of_child? {folder : Folder} {caseSensitive : Bool} {name : String}
    {entity : Entity} (h : folder.child? caseSensitive name = some entity) :
    ∃ key, folder.lookup key = some entity := by
  rw [Folder.child?_eq] at h
  obtain ⟨key, _, hlookup⟩ := Option.bind_eq_some_iff.mp h
  exact ⟨key, hlookup⟩

namespace FileTree

variable {tree : FileTree}

/-- What readers see under some names, in some case, stands at names. -/
theorem exists_entityAt_of_seenAt {caseSensitive : Bool} {folder : Folder} {names : List String}
    {entity : Entity} (h : folder.seenAt caseSensitive names = some entity) :
    ∃ keys, folder.entityAt keys = some entity := by
  induction names generalizing folder with
  | nil => exact ⟨[], h⟩
  | cons name names ih =>
    rw [Folder.seenAt] at h
    split at h
    · rename_i entries hchild
      obtain ⟨key, hkey⟩ := Folder.exists_lookup_of_child? hchild
      obtain ⟨keys, hkeys⟩ := ih h
      exact ⟨key :: keys, (Folder.entityAt_cons_folder hkey).trans hkeys⟩
    · rename_i held _ hchild
      obtain ⟨key, hkey⟩ := Folder.exists_lookup_of_child? hchild
      refine ⟨[key], ?_⟩
      rw [Folder.entityAt_singleton, hkey]
      split at h
      · exact h
      · cases h
    · cases h

/-- **What a lookup finds stands somewhere in the tree.** -/
theorem exists_entityAt_of_lookup {path : String} {followLast : Bool} {found : Entity × String}
    (h : tree.lookup path followLast = some found) : ∃ names, tree.entityAt names = some found.1 := by
  obtain ⟨last, _, hwalk⟩ := exists_last_pass h
  exact exists_entityAt_of_seenAt (walk_eq_done_iff.mp hwalk).1

end FileTree

/-- A plain name spells a path together with those of a folder, unless it makes a drive of
the root. -/
theorem Normal.spelled_name {folder name : String} (h : Normal folder) (hplain : Plain name.toList)
    (hcolon : namesOf folder = [] → name.toList.head? ≠ some ':') :
    Spelled (namesOf folder ++ [name]) := by
  by_cases hroot : namesOf folder = []
  · rw [hroot]
    refine ⟨fun other hother => List.mem_singleton.mp hother ▸ hplain, fun first hfirst => ?_⟩
    cases hfirst
    exact hcolon hroot
  · exact h.spelled.append_name hplain hroot

namespace FileTree

variable {tree : FileTree}

/-- Folders list each name once, and only plain names; none in the root starts with a
colon, which would make a drive of the root. -/
structure Tidy (tree : FileTree) : Prop where
  plain : ∀ names entries, tree.entityAt names = some (.folder entries) →
    PlainNames (Folder.names entries)
  distinct : ∀ names entries, tree.entityAt names = some (.folder entries) →
    (Folder.names entries).Nodup
  no_drive : ∀ name ∈ Folder.names tree.root, name.toList.head? ≠ some ':'

theorem WellFormed.tidy (h : tree.WellFormed) : tree.Tidy where
  plain := h.plain
  distinct names entries hat := by
    refine (h.sorted names entries hat).imp ?_
    rintro one other hlt rfl
    exact String.lt_irrefl _ hlt
  no_drive := h.no_drive

/-- The names in a folder; there are none in what cannot be listed. -/
def namesIn (tree : FileTree) (folder : String) : List String :=
  (tree.list folder).toOption.getD []

theorem mem_namesIn {folder name : String} :
    name ∈ tree.namesIn folder ↔ ∃ names, tree.list folder = .ok names ∧ name ∈ names := by
  rw [namesIn]
  cases tree.list folder with
  | error cause => exact iff_of_false List.not_mem_nil fun ⟨_, h, _⟩ => by cases h
  | ok names =>
    exact ⟨fun h => ⟨names, rfl, h⟩, fun ⟨_, heq, h⟩ => by cases heq; exact h⟩

namespace Tidy

variable (h : tree.Tidy) {folder : String}
include h

theorem nodup_namesIn (folder : String) : (tree.namesIn folder).Nodup := by
  rw [namesIn, list]
  split
  · rename_i entries way hlookup
    obtain ⟨place, hplace⟩ := exists_entityAt_of_lookup hlookup
    exact h.distinct place entries hplace
  · exact List.nodup_nil
  · exact List.nodup_nil

theorem plain_of_mem_namesIn {name : String} (hname : name ∈ tree.namesIn folder) :
    Plain name.toList := by
  obtain ⟨names, hlist, hname⟩ := mem_namesIn.mp hname
  obtain ⟨entries, way, hlookup, rfl⟩ := list_eq_ok_iff.mp hlist
  obtain ⟨place, hplace⟩ := exists_entityAt_of_lookup hlookup
  exact h.plain place entries hplace name hname

/-- A name in a folder spells a path together with those of the folder. -/
theorem spelled (hnormal : Normal folder) {name : String} (hname : name ∈ tree.namesIn folder) :
    Spelled (namesOf folder ++ [name]) := by
  refine hnormal.spelled_name (h.plain_of_mem_namesIn hname) fun hroot => ?_
  obtain ⟨names, hlist, hname⟩ := mem_namesIn.mp hname
  obtain ⟨entries, way, hlookup, rfl⟩ := list_eq_ok_iff.mp hlist
  rw [lookup_of_done (by rw [hroot, walk])] at hlookup
  cases hlookup
  exact h.no_drive name hname

end Tidy

end FileTree

namespace Normal

variable {folder name : String} (h : Normal folder) (hspelled : Spelled (namesOf folder ++ [name]))
include h hspelled

/-- A name below a path in normal form. -/
theorem resolve_name (tree : FileTree) :
    tree.resolve [folder, name] = pathOf (namesOf folder ++ [name]) := by
  rw [tree.resolve_name h.isRooted
    (hspelled.plain name (List.mem_append_right _ (List.mem_singleton_self _)))]
  conv_lhs => rw [h.eq_pathOf]
  exact FileTree.join_pathOf hspelled

theorem below (tree : FileTree) :
    Normal (tree.resolve [folder, name])
      ∧ namesOf (tree.resolve [folder, name]) = namesOf folder ++ [name] := by
  rw [h.resolve_name hspelled]
  exact ⟨⟨_, hspelled, rfl⟩, FileTree.namesOf_pathOf hspelled.plain⟩

end Normal

end PackageOrder
