/-
PackageOrder.Proofs.FileTree.Location — what stands where in a tree.

Names lead down from the root through folders, never through a link (`entityAt`).
That is where changes take effect, and where a pass of a lookup goes: it finds what
stands at the names of its path, or it stops at a link that stands on the way, or
there is nothing (`walk_cases`).
-/
import PackageOrder.Proofs.FileTree.Names

namespace PackageOrder

open PackageOrder.Text
open PackageOrder.Path (Plain)

/-- What stands where some names lead down from a folder, all but perhaps the last
to folders. -/
def Folder.entityAt : Folder → List String → Option Entity
  | folder, [] => some (.folder folder)
  | folder, name :: names =>
    match folder.lookup name with
    | some (.folder entries) => entityAt entries names
    | some entity => if names = [] then some entity else none
    | none => none

namespace Folder

variable {folder entries : Folder} {name : String} {names : List String}

@[simp] theorem entityAt_nil (folder : Folder) : folder.entityAt [] = some (.folder folder) := rfl

theorem entityAt_cons_folder (h : folder.lookup name = some (.folder entries)) :
    folder.entityAt (name :: names) = entries.entityAt names := by
  rw [entityAt, h]

theorem entityAt_singleton (folder : Folder) (name : String) :
    folder.entityAt [name] = folder.lookup name := by
  rw [entityAt]
  split
  · rename_i entries h
    rw [h, entityAt_nil]
  · rename_i entity _ h
    rw [h, if_pos rfl]
  · rename_i h
    rw [h]

/-- Names behind a folder lead down from there. -/
theorem entityAt_append (h : folder.entityAt names = some (.folder entries)) (rest : List String) :
    folder.entityAt (names ++ rest) = entries.entityAt rest := by
  induction names generalizing folder with
  | nil =>
    cases h
    rfl
  | cons name names ih =>
    rw [entityAt] at h
    split at h
    · rename_i inner hlookup
      rw [List.cons_append, entityAt_cons_folder hlookup, ih h]
    · rename_i entity hne _
      split at h
      · cases h
        exact absurd rfl (hne entries)
      · cases h
    · cases h

theorem entityAt_concat (h : folder.entityAt names = some (.folder entries)) (name : String) :
    folder.entityAt (names ++ [name]) = entries.lookup name := by
  rw [entityAt_append h, entityAt_singleton]

/-- Behind anything but a folder stands nothing. -/
theorem entityAt_append_eq_none {rest : List String} (hrest : rest ≠ [])
    (h : ∀ entries, folder.entityAt names ≠ some (.folder entries)) :
    folder.entityAt (names ++ rest) = none := by
  induction names generalizing folder with
  | nil => exact absurd rfl (h folder)
  | cons name names ih =>
    rw [List.cons_append, entityAt]
    split
    · rename_i inner hlookup
      exact ih fun entries => entityAt_cons_folder hlookup ▸ h entries
    · exact if_neg fun hnil => hrest (List.append_eq_nil_iff.mp hnil).2
    · rfl

/-- Above whatever stands somewhere there are folders. -/
theorem exists_folder_above {rest : List String} {entity : Entity} (hrest : rest ≠ [])
    (h : folder.entityAt (names ++ rest) = some entity) :
    ∃ entries, folder.entityAt names = some (.folder entries) := by
  by_contra hnone
  rw [entityAt_append_eq_none hrest fun entries he => hnone ⟨entries, he⟩] at h
  cases h

/-- The names on the way are names in the folders they stand in. -/
theorem mem_names_of_lookup {entity : Entity} (h : folder.lookup name = some entity) :
    name ∈ Folder.names folder := by
  obtain ⟨before, after, rfl, _⟩ := List.lookup_eq_some_iff.mp h
  exact List.mem_map_of_mem (List.mem_append_right _ List.mem_cons_self)

end Folder

namespace FileTree

variable {tree : FileTree}

/-- What stands where some names lead down from the root. -/
def entityAt (tree : FileTree) (names : List String) : Option Entity :=
  tree.root.entityAt names

/-- Whether a folder stands somewhere. -/
def HasFolder (tree : FileTree) (names : List String) : Prop :=
  ∃ entries, tree.entityAt names = some (.folder entries)

/-- A lookup that goes on with another path because of a link. -/
def Redirects (tree : FileTree) (path next : String) : Prop :=
  ∃ followLast, walk tree.caseSensitive followLast tree.root "" (namesOf path) = .again next

/-- A tree that tells names apart by case, as it comes about through paths that are
fully qualified and in POSIX form: folders list their names in order, names are plain,
and links lead somewhere from the root. A colon at the front of a name in the root
would make a drive of the root. -/
structure WellFormed (tree : FileTree) : Prop where
  sensitive : tree.caseSensitive = true
  rooted : Path.isRooted tree.workingDir = true
  sorted : ∀ names entries, tree.entityAt names = some (.folder entries) →
    (Folder.names entries).Pairwise (· < ·)
  plain : ∀ names entries, tree.entityAt names = some (.folder entries) →
    PlainNames (Folder.names entries)
  no_drive : ∀ name ∈ Folder.names tree.root, name.toList.head? ≠ some ':'
  targets : ∀ names target, tree.entityAt names = some (.link target) →
    Path.isRooted target = true

/-! ## Passes -/

/-- The path of the pass after a link. -/
def behindLink (target : String) (rest : List String) : String :=
  if rest = [] then target else Path.join target [intercalate "/" rest]

/-- **What a pass does**: it finds what stands at the names, or it stops at a link on
the way, or nothing stands there. -/
theorem walk_cases (followLast : Bool) (folder : Folder) (way : String) (names : List String) :
    (∃ entity found, folder.entityAt names = some entity
        ∧ (∀ target, entity = .link target → followLast = false)
        ∧ walk true followLast folder way names = .done (some (entity, found)))
      ∨ (∃ front back target, names = front ++ back ∧ folder.entityAt front = some (.link target)
        ∧ (back = [] → followLast = true)
        ∧ walk true followLast folder way names = .again (behindLink target back))
      ∨ (folder.entityAt names = none
        ∧ walk true followLast folder way names = .done none) := by
  induction names generalizing folder way with
  | nil => exact Or.inl ⟨.folder folder, _, rfl, (fun _ h => nomatch h), rfl⟩
  | cons name names ih =>
    have hchild : folder.child? true name = folder.lookup name := rfl
    rw [walk, hchild]
    cases hlookup : folder.lookup name with
    | none => exact Or.inr (Or.inr ⟨by rw [Folder.entityAt, hlookup], rfl⟩)
    | some entity =>
      cases entity with
      | folder entries =>
        have hdown : ∀ rest, folder.entityAt (name :: rest) = Folder.entityAt entries rest :=
          fun rest => Folder.entityAt_cons_folder hlookup
        rcases ih entries (way ++ "/" ++ name) with
          ⟨entity, found, hat, hlink, hwalk⟩ | ⟨front, back, target, rfl, hat, hlast, hwalk⟩
            | ⟨hat, hwalk⟩
        · exact Or.inl ⟨entity, found, by rw [hdown, hat], hlink, hwalk⟩
        · exact Or.inr (Or.inl ⟨name :: front, back, target, rfl, by rw [hdown, hat], hlast, hwalk⟩)
        · exact Or.inr (Or.inr ⟨by rw [hdown, hat], hwalk⟩)
      | file contents =>
        have hat : folder.entityAt (name :: names)
            = if names = [] then some (.file contents) else none := by
          rw [Folder.entityAt, hlookup]
        by_cases hnames : names = []
        · exact Or.inl ⟨.file contents, way ++ "/" ++ name, by rw [hat, if_pos hnames],
            (fun _ h => nomatch h), by simp only [if_pos hnames]⟩
        · exact Or.inr (Or.inr ⟨by rw [hat, if_neg hnames], by simp only [if_neg hnames]⟩)
      | link target =>
        have hat : folder.entityAt [name] = some (.link target) := by
          rw [Folder.entityAt_singleton, hlookup]
        by_cases hnames : names = []
        · subst hnames
          cases followLast with
          | true => exact Or.inr (Or.inl ⟨[name], [], target, rfl, hat, (fun _ => rfl), rfl⟩)
          | false =>
            exact Or.inl ⟨.link target, way ++ "/" ++ name, hat, (fun _ _ => rfl), rfl⟩
        · refine Or.inr (Or.inl ⟨[name], names, target, rfl, hat, fun h => absurd h hnames, ?_⟩)
          simp only [if_neg hnames, behindLink]

/-- What a redirected lookup has met is a link on the way. -/
theorem exists_link_of_redirects (hcase : tree.caseSensitive = true) {path next : String}
    (h : tree.Redirects path next) :
    ∃ front back target, namesOf path = front ++ back
      ∧ tree.entityAt front = some (.link target) ∧ next = behindLink target back := by
  obtain ⟨followLast, h⟩ := h
  rw [hcase] at h
  rcases walk_cases followLast tree.root "" (namesOf path) with
    ⟨entity, found, _, _, hwalk⟩ | ⟨front, back, target, hnames, hat, _, hwalk⟩ | ⟨_, hwalk⟩
  · rw [hwalk] at h
    cases h
  · rw [hwalk] at h
    cases h
    exact ⟨front, back, target, hnames, hat, rfl⟩
  · rw [hwalk] at h
    cases h

/-- A pass stops at a link, at one that stands last only if it is to be followed. -/
theorem walk_of_link {folder : Folder} {front back : List String} {target : String}
    {followLast : Bool} (h : folder.entityAt front = some (.link target))
    (hlast : back = [] → followLast = true) (way : String) :
    walk true followLast folder way (front ++ back) = .again (behindLink target back) := by
  induction front generalizing folder way with
  | nil => cases h
  | cons name front ih =>
    have hchild : folder.child? true name = folder.lookup name := rfl
    rw [Folder.entityAt] at h
    rw [List.cons_append, walk, hchild]
    split at h
    · rename_i entries hlookup
      rw [hlookup]
      exact ih h _
    · rename_i entity _ hlookup
      split at h
      · rename_i hfront
        cases h
        rw [hlookup, hfront, List.nil_append]
        by_cases hback : back = []
        · simp only [if_pos hback, behindLink, if_pos (hlast hback)]
        · simp only [if_neg hback, behindLink]
      · cases h
    · cases h

/-- Whatever stands on the way to a path redirects it, if it is a link. -/
theorem redirects_of_link (hcase : tree.caseSensitive = true) {path target : String}
    {front back : List String} (hnames : namesOf path = front ++ back)
    (h : tree.entityAt front = some (.link target)) :
    tree.Redirects path (behindLink target back) :=
  ⟨true, by rw [hcase, hnames]; exact walk_of_link h (fun _ => rfl) ""⟩

/-- A pass finds what stands at its names, if that is no link. -/
theorem walk_of_entityAt {folder : Folder} {names : List String} {entity : Entity}
    (h : folder.entityAt names = some entity) (hlink : ∀ target, entity ≠ .link target)
    (followLast : Bool) (way : String) :
    ∃ found, walk true followLast folder way names = .done (some (entity, found)) := by
  rcases walk_cases followLast folder way names with
    ⟨other, found, hother, _, hwalk⟩ | ⟨front, back, target, hnames, hfront, _, _⟩ | ⟨hnone, _⟩
  · rw [h] at hother
    cases hother
    exact ⟨found, hwalk⟩
  · by_cases hback : back = []
    · rw [hnames, hback, List.append_nil, hfront] at h
      exact absurd (Option.some.inj h).symm (hlink target)
    · rw [hnames, Folder.entityAt_append_eq_none hback fun entries he => by
        rw [hfront] at he; cases he] at h
      cases h
  · rw [h] at hnone
    cases hnone

/-! ## What is read -/

section Readers

variable {path : String}

/-- A pass that finds something or nothing is the last one. -/
theorem lookup_of_done {followLast : Bool} {found : Option (Entity × String)}
    (h : walk tree.caseSensitive followLast tree.root "" (namesOf path) = .done found) :
    tree.lookup path followLast = found := by
  rw [lookup, passLimit, lookupWithin, h]

theorem exists?_iff : tree.exists? path = true ↔ ∃ found, tree.lookup path true = some found := by
  rw [exists?, Option.isSome_iff_exists]

theorem readBytes_eq_ok_iff {contents : ByteArray} :
    tree.readBytes path = .ok contents
      ↔ ∃ way, tree.lookup path true = some (.file contents, way) := by
  unfold readBytes
  rcases tree.lookup path true with _ | ⟨_ | _ | _, way⟩ <;> simp

theorem readText_eq_ok_iff {text : String} :
    tree.readText path = .ok text
      ↔ ∃ contents, tree.readBytes path = .ok contents ∧ String.fromUTF8? contents = some text := by
  unfold readText
  cases tree.readBytes path with
  | error cause => simp [bind, Except.bind]
  | ok contents =>
    cases hdecoded : String.fromUTF8? contents <;> simp [bind, Except.bind, hdecoded]

theorem list_eq_ok_iff {names : List String} :
    tree.list path = .ok names
      ↔ ∃ entries way, tree.lookup path true = some (.folder entries, way)
        ∧ Folder.names entries = names := by
  unfold list
  rcases tree.lookup path true with _ | ⟨_ | _ | _, way⟩ <;> simp

theorem linkStat_eq_ok_iff {kind : EntityKind} :
    tree.linkStat path = .ok kind
      ↔ ∃ found, tree.lookup path false = some found ∧ found.1.kind = kind := by
  unfold linkStat
  cases tree.lookup path false <;> simp

theorem isFile_iff :
    tree.isFile path = true ↔ ∃ contents way, tree.lookup path true = some (.file contents, way) := by
  unfold isFile stat
  rcases tree.lookup path true with _ | ⟨_ | _ | _, way⟩ <;> simp

/-- What leads somewhere and to no file is a folder. -/
theorem isFolder_iff :
    tree.isFolder path = true
      ↔ ∃ entity way, tree.lookup path true = some (entity, way)
        ∧ ∀ contents, entity ≠ .file contents := by
  unfold isFolder stat
  rcases tree.lookup path true with _ | ⟨_ | _ | _, way⟩ <;> simp

theorem isFolder_eq_false_iff :
    tree.isFolder path = false
      ↔ ∀ found, tree.lookup path true = some found → found.1.kind = .file := by
  unfold isFolder stat
  rcases tree.lookup path true with _ | ⟨_ | _ | _, way⟩ <;> simp [Entity.kind]

/-- What a pass finds is no folder if it is a file, or nothing. -/
theorem isFolder_of_walk (hcase : tree.caseSensitive = true) {found : Option (Entity × String)}
    (h : walk true true tree.root "" (namesOf path) = .done found)
    (hkind : ∀ entity, found = some entity → entity.1.kind = .file) :
    tree.isFolder path = false := by
  rw [isFolder_eq_false_iff, lookup_of_done (by rw [hcase, h])]
  exact hkind

end Readers

/-- A lookup finds what stands at the names of its path, if that is no link. -/
theorem lookup_of_entityAt (hcase : tree.caseSensitive = true) {path : String} {entity : Entity}
    (h : tree.entityAt (namesOf path) = some entity) (hlink : ∀ target, entity ≠ .link target)
    (followLast : Bool) : ∃ way, tree.lookup path followLast = some (entity, way) := by
  obtain ⟨way, hwalk⟩ := walk_of_entityAt h hlink followLast ""
  exact ⟨way, lookup_of_done (by rw [hcase, hwalk])⟩

theorem readBytes_of_entityAt (hcase : tree.caseSensitive = true) {path : String}
    {contents : ByteArray} (h : tree.entityAt (namesOf path) = some (.file contents)) :
    tree.readBytes path = .ok contents := by
  exact readBytes_eq_ok_iff.mpr (lookup_of_entityAt hcase h nofun true)

theorem readBytes_of_hasFolder (hcase : tree.caseSensitive = true) {path : String}
    (h : tree.HasFolder (namesOf path)) : tree.readBytes path = .error .isFolder := by
  obtain ⟨entries, hentries⟩ := h
  obtain ⟨way, hlookup⟩ := lookup_of_entityAt hcase hentries nofun true
  rw [readBytes, hlookup]

end FileTree

end PackageOrder
