/-
PackageOrder.Proofs.FileTree.Write — what a change of one file does to a tree.

Writing and removing put something else, but no folder, in the place of a name that
stands for no folder (`Folder.Renewed`). The tree is the same elsewhere
(`Renewal.sameOutside`). In a well-formed tree folders list the names that they did
(`Renewal.agreeOutside`), and it stays well-formed.
-/
import PackageOrder.FileTree.Update
import PackageOrder.Proofs.FileTree.Agree
import PackageOrder.Proofs.Lookup

namespace PackageOrder

open PackageOrder.Text

/-- What succeeds in two steps succeeds in each of them. -/
theorem exists_of_bind_eq_ok {ε α β : Type} {first : Except ε α} {next : α → Except ε β} {value : β}
    (h : first >>= next = .ok value) : ∃ found, first = .ok found ∧ next found = .ok value := by
  cases first with
  | error cause => cases h
  | ok found => exact ⟨found, rfl, h⟩

namespace Folder

variable {folder : Folder} {name : String} {entity : Entity}

/-! ## Names in a folder -/

theorem mem_names_insert {other : String} (h : other ∈ names (insert folder name entity)) :
    other = name ∨ other ∈ names folder := by
  induction folder with
  | nil => exact Or.inl (List.mem_singleton.mp h)
  | cons entry rest ih =>
    obtain ⟨key, held⟩ := entry
    simp only [insert] at h
    split at h
    · exact Or.inr h
    · split at h
      · exact List.mem_cons.mp h
      · rcases List.mem_cons.mp h with rfl | h
        · exact Or.inr List.mem_cons_self
        · exact (ih h).imp_right (List.mem_cons_of_mem _)

/-- A name that is there already keeps its place. -/
theorem names_insert_of_mem (hsorted : (names folder).Pairwise (· < ·)) (h : name ∈ names folder) :
    names (insert folder name entity) = names folder := by
  induction folder with
  | nil => cases h
  | cons entry rest ih =>
    obtain ⟨key, held⟩ := entry
    have hrest := List.pairwise_cons.mp hsorted
    simp only [insert]
    split
    · rfl
    · rename_i hne
      have hmem : name ∈ names rest := (List.mem_cons.mp h).resolve_left (Ne.symm hne)
      rw [if_neg (Std.not_lt_of_ge (Std.le_of_lt (hrest.1 name hmem)))]
      exact congrArg (key :: ·) (ih hrest.2 hmem)

/-- The other names stay. -/
theorem filter_names_insert :
    (names (insert folder name entity)).filter (· ≠ name) = (names folder).filter (· ≠ name) := by
  induction folder with
  | nil => simp [insert, names]
  | cons entry rest ih =>
    obtain ⟨key, held⟩ := entry
    simp only [insert]
    split
    · rfl
    · split
      · simp [names]
      · change (key :: names (insert rest name entity)).filter _ = (key :: names rest).filter _
        rw [List.filter_cons, List.filter_cons, ih]

theorem pairwise_names_insert (hsorted : (names folder).Pairwise (· < ·)) :
    (names (insert folder name entity)).Pairwise (· < ·) := by
  induction folder with
  | nil => exact List.pairwise_singleton _ _
  | cons entry rest ih =>
    obtain ⟨key, held⟩ := entry
    have hrest := List.pairwise_cons.mp hsorted
    simp only [insert]
    split
    · exact hsorted
    · rename_i hne
      split
      · rename_i hlt
        refine List.pairwise_cons.mpr ⟨fun other hother => ?_, hsorted⟩
        rcases List.mem_cons.mp hother with rfl | hother
        · exact hlt
        · exact Std.lt_trans hlt (hrest.1 other hother)
      · rename_i hlt
        refine List.pairwise_cons.mpr ⟨fun other hother => ?_, ih hrest.2⟩
        rcases mem_names_insert hother with rfl | hother
        · exact Std.lt_of_le_of_ne (Std.not_lt.mp hlt) hne
        · exact hrest.1 other hother

theorem names_erase (folder : Folder) (name : String) :
    names (erase folder name) = (names folder).filter (· ≠ name) := by
  rw [names, erase, names, List.filter_map]
  rfl

/-- Of two entities that a name is given the second one counts. -/
theorem insert_insert (folder : Folder) (name : String) (one other : Entity) :
    insert (insert folder name one) name other = insert folder name other := by
  induction folder with
  | nil => simp [insert]
  | cons entry rest ih =>
    obtain ⟨key, held⟩ := entry
    by_cases hkey : key = name
    · simp [insert, hkey]
    · by_cases hlt : name < key <;> simp [insert, hkey, hlt, ih]

/-- A folder in which a name that stands for no folder stands for a file or for
nothing afterwards. -/
structure Renewed (name : String) (before after : Folder) : Prop where
  closed : ∀ entries, before.lookup name ≠ some (.folder entries)
  renewed : ∀ entity, after.lookup name = some entity → ∃ contents, entity = .file contents
  others : ∀ other, other ≠ name → after.lookup other = before.lookup other
  listed : (names after).filter (· ≠ name) = (names before).filter (· ≠ name)
  sorted : (names before).Pairwise (· < ·) → (names after).Pairwise (· < ·)

theorem renewed_insert {contents : ByteArray}
    (h : ∀ entries, folder.lookup name ≠ some (.folder entries)) :
    Renewed name folder (insert folder name (.file contents)) where
  closed := h
  renewed entity hentity := by
    rw [lookup_insert_self] at hentity
    exact ⟨contents, (Option.some.inj hentity).symm⟩
  others other hne := lookup_insert_of_ne folder _ hne
  listed := filter_names_insert
  sorted := pairwise_names_insert

theorem renewed_erase (h : ∀ entries, folder.lookup name ≠ some (.folder entries)) :
    Renewed name folder (erase folder name) where
  closed := h
  renewed entity hentity := by
    rw [erase, lookup_filter_ne, if_pos rfl] at hentity
    cases hentity
  others other hne := by rw [erase, lookup_filter_ne, if_neg hne]
  listed := by rw [names_erase, List.filter_filter]; simp
  sorted hsorted := by rw [names_erase]; exact hsorted.filter _

end Folder

namespace FileTree

/-! ## Changing a folder -/

/-- A change of a folder below a name puts back the folder of that name. -/
theorem changeFolder_cons_eq_ok {change : Folder → Except FileError Folder} {name : String}
    {names : List String} {folder changed : Folder} :
    changeFolder change (name :: names) folder = .ok changed
      ↔ ∃ entries inner, folder.lookup name = some (.folder entries)
        ∧ changeFolder change names entries = .ok inner
        ∧ folder.insert name (.folder inner) = changed := by
  rw [changeFolder]
  constructor
  · intro h
    split at h
    · rename_i entries hlookup
      obtain ⟨inner, hinner, h⟩ := exists_of_bind_eq_ok h
      exact ⟨entries, inner, hlookup, hinner, Except.ok.inj h⟩
    · cases h
    · cases h
  · rintro ⟨entries, inner, hlookup, hinner, rfl⟩
    rw [hlookup]
    dsimp only
    rw [hinner]
    rfl

/-- A folder in which some names lead to another folder than before. Elsewhere the same stands,
apart from what the folders on the way hold, and those list the same names if these are in
order. -/
structure ChangedBelow (names : List String) (before after folder changed : Folder) : Prop where
  was : folder.entityAt names = some (.folder before)
  is : ∀ rest, changed.entityAt (names ++ rest) = Folder.entityAt after rest
  elsewhere : ∀ other, ¬ names <+: other →
    (changed.entityAt other).map Entity.top = (folder.entityAt other).map Entity.top
  listed : ∀ other entries entries', ¬ names <+: other →
    folder.entityAt other = some (.folder entries) →
    changed.entityAt other = some (.folder entries') →
    (Folder.names entries).Pairwise (· < ·) →
    Folder.names entries' = Folder.names entries
  links : ∀ other target, ¬ names <+: other → changed.entityAt other = some (.link target) →
    folder.entityAt other = some (.link target)

theorem changedBelow_nil (folder changed : Folder) :
    ChangedBelow [] folder changed folder changed where
  was := rfl
  is _ := rfl
  elsewhere _ hnone := absurd List.nil_prefix hnone
  listed _ _ _ hnone := absurd List.nil_prefix hnone
  links _ _ hnone := absurd List.nil_prefix hnone

theorem ChangedBelow.cons {names : List String} {before after folder entries inner : Folder}
    {name : String} (h : ChangedBelow names before after entries inner)
    (hlookup : folder.lookup name = some (.folder entries)) :
    ChangedBelow (name :: names) before after folder (folder.insert name (.folder inner)) := by
  have hdown : ∀ rest, folder.entityAt (name :: rest) = Folder.entityAt entries rest :=
    fun rest => Folder.entityAt_cons_folder hlookup
  have hdown' : ∀ rest, (folder.insert name (.folder inner)).entityAt (name :: rest)
      = Folder.entityAt inner rest :=
    fun rest => Folder.entityAt_cons_folder (Folder.lookup_insert_self folder name _)
  have haside : ∀ first rest, first ≠ name →
      (folder.insert name (.folder inner)).entityAt (first :: rest)
        = folder.entityAt (first :: rest) := by
    intro first rest hne
    rw [Folder.entityAt, Folder.entityAt, Folder.lookup_insert_of_ne folder _ hne]
  have hinside : ∀ {rest}, ¬ name :: names <+: name :: rest → ¬ names <+: rest :=
    fun hother hbelow => hother (List.cons_prefix_cons.mpr ⟨rfl, hbelow⟩)
  -- other names lead to this folder, into the one that is put back, or to one beside it
  constructor
  case was =>
    rw [hdown, h.was]
  case is =>
    intro rest
    rw [List.cons_append, hdown', h.is]
  case elsewhere =>
    intro other hother
    cases other with
    | nil => rfl
    | cons first rest =>
      by_cases hfirst : first = name
      · subst hfirst
        rw [hdown, hdown']
        exact h.elsewhere rest (hinside hother)
      · rw [haside first rest hfirst]
  case listed =>
    intro other inside inside' hother hat hat' hsorted
    cases other with
    | nil =>
      cases hat
      cases hat'
      exact Folder.names_insert_of_mem hsorted (Folder.mem_names_of_lookup hlookup)
    | cons first rest =>
      by_cases hfirst : first = name
      · subst hfirst
        rw [hdown] at hat
        rw [hdown'] at hat'
        exact h.listed rest inside inside' (hinside hother) hat hat' hsorted
      · rw [haside first rest hfirst, hat] at hat'
        cases hat'
        rfl
  case links =>
    intro other target hother hat
    cases other with
    | nil => cases hat
    | cons first rest =>
      by_cases hfirst : first = name
      · subst hfirst
        rw [hdown'] at hat
        rw [hdown]
        exact h.links rest target (hinside hother) hat
      · rw [← haside first rest hfirst]
        exact hat

/-- What a change of the folder that names lead to does to the one they start from. -/
theorem changeFolder_cases {change : Folder → Except FileError Folder} {names : List String}
    {folder changed : Folder}
    (h : changeFolder change names folder = .ok changed) :
    ∃ before after, change before = .ok after ∧ ChangedBelow names before after folder changed := by
  induction names generalizing folder changed with
  | nil => exact ⟨folder, changed, h, changedBelow_nil folder changed⟩
  | cons name names ih =>
    obtain ⟨entries, inner, hlookup, hinner, rfl⟩ := changeFolder_cons_eq_ok.mp h
    obtain ⟨before, after, hchange, hbelow⟩ := ih hinner
    exact ⟨before, after, hchange, hbelow.cons hlookup⟩

/-- A change that does nothing more when it is made again does nothing more to the folder
that names lead to. -/
theorem changeFolder_again {change : Folder → Except FileError Folder}
    (hagain : ∀ before after, change before = .ok after → change after = .ok after)
    {names : List String} {folder changed : Folder}
    (h : changeFolder change names folder = .ok changed) :
    changeFolder change names changed = .ok changed := by
  induction names generalizing folder changed with
  | nil => exact hagain folder changed h
  | cons name names ih =>
    obtain ⟨entries, inner, _, hinner, rfl⟩ := changeFolder_cons_eq_ok.mp h
    exact changeFolder_cons_eq_ok.mpr ⟨inner, inner, Folder.lookup_insert_self folder name _,
      ih hinner, Folder.insert_insert folder name _ _⟩

/-- A change that the folder takes is carried out. -/
theorem exists_changeFolder_eq_ok {change : Folder → Except FileError Folder} {names : List String}
    {folder before after : Folder} (h : folder.entityAt names = some (.folder before))
    (hchange : change before = .ok after) :
    ∃ changed, changeFolder change names folder = .ok changed := by
  induction names generalizing folder with
  | nil =>
    cases h
    exact ⟨after, hchange⟩
  | cons name names ih =>
    rw [Folder.entityAt] at h
    split at h
    · rename_i entries hlookup
      obtain ⟨inner, hinner⟩ := ih h
      exact ⟨_, changeFolder_cons_eq_ok.mpr ⟨entries, inner, hlookup, hinner, rfl⟩⟩
    · rename_i entity hne hlookup
      split at h
      · cases h
        exact absurd rfl (hne before)
      · cases h
    · cases h

/-- A change that takes whatever another one takes, and changes it in the same way, may stand
in its place. -/
theorem changeFolder_mono {change other : Folder → Except FileError Folder}
    (hother : ∀ before after, change before = .ok after → other before = .ok after)
    {names : List String} {folder changed : Folder}
    (h : changeFolder change names folder = .ok changed) :
    changeFolder other names folder = .ok changed := by
  induction names generalizing folder changed with
  | nil => exact hother folder changed h
  | cons name names ih =>
    obtain ⟨entries, inner, hlookup, hinner, rfl⟩ := changeFolder_cons_eq_ok.mp h
    exact changeFolder_cons_eq_ok.mpr ⟨entries, inner, hlookup, ih hinner, rfl⟩

/-- A change of the folder that holds the last name of a path is one of the folder that the
names before it lead to. -/
theorem changeParent_eq_ok_iff {tree changed : FileTree} {path : String}
    {change : Folder → String → Except FileError Folder} :
    tree.changeParent path change = .ok changed
      ↔ ∃ parent name root, namesOf path = parent ++ [name]
        ∧ changeFolder (change · name) parent tree.root = .ok root
        ∧ changed = { tree with root := root } := by
  constructor
  · intro h
    rw [changeParent] at h
    split at h
    · cases h
    rename_i name reversed hnames
    obtain ⟨root, hroot, h⟩ := exists_of_bind_eq_ok h
    refine ⟨reversed.reverse, name, root, ?_, hroot, (Except.ok.inj h).symm⟩
    rw [← List.reverse_reverse (namesOf path), hnames, List.reverse_cons]
  · rintro ⟨parent, name, root, hnames, hroot, rfl⟩
    rw [changeParent, hnames, List.reverse_append]
    change (changeFolder _ parent.reverse.reverse tree.root >>= _) = _
    rw [List.reverse_reverse, hroot]
    rfl

/-- A change that the folder above a path takes is carried out. -/
theorem exists_changeParent_eq_ok {tree : FileTree} {path : String}
    {change : Folder → String → Except FileError Folder} {parent : List String} {name : String}
    {before after : Folder} (hnames : namesOf path = parent ++ [name])
    (hbefore : tree.entityAt parent = some (.folder before))
    (hchange : change before name = .ok after) :
    ∃ changed, tree.changeParent path change = .ok changed := by
  obtain ⟨root, hroot⟩ : ∃ root, changeFolder (change · name) parent tree.root = .ok root :=
    exists_changeFolder_eq_ok hbefore hchange
  exact ⟨{ tree with root := root }, changeParent_eq_ok_iff.mpr ⟨parent, name, root, hnames, hroot, rfl⟩⟩

/-! ## Changing a file -/

/-- Names whose last one may be given to a file: they stand in a folder, and no folder
stands there. -/
def Open (tree : FileTree) (names : List String) : Prop :=
  ∃ parent name, names = parent ++ [name] ∧ tree.HasFolder parent ∧ ¬ tree.HasFolder names

theorem open_concat_iff {tree : FileTree} {parent : List String} {name : String} :
    tree.Open (parent ++ [name])
      ↔ tree.HasFolder parent ∧ ¬ tree.HasFolder (parent ++ [name]) := by
  refine ⟨?_, fun ⟨hparent, hclosed⟩ => ⟨parent, name, rfl, hparent, hclosed⟩⟩
  rintro ⟨other, last, heq, hparent, hclosed⟩
  exact ⟨(List.append_inj' heq rfl).1 ▸ hparent, hclosed⟩

/-- A tree in which one name in a folder was renewed. -/
structure Renewal (tree changed : FileTree) (parent : List String) (name : String)
    (before after : Folder) : Prop where
  sensitive : tree.caseSensitive = true ∧ changed.caseSensitive = true
  workingDir : changed.workingDir = tree.workingDir
  was : tree.entityAt parent = some (.folder before)
  is : ∀ rest, changed.entityAt (parent ++ rest) = Folder.entityAt after rest
  renewed : Folder.Renewed name before after
  elsewhere : ∀ names, ¬ parent <+: names →
    (changed.entityAt names).map Entity.top = (tree.entityAt names).map Entity.top
  listed : ∀ names entries entries', ¬ parent <+: names →
    tree.entityAt names = some (.folder entries) →
    changed.entityAt names = some (.folder entries') →
    (Folder.names entries).Pairwise (· < ·) →
    Folder.names entries' = Folder.names entries
  links : ∀ names target, ¬ parent <+: names → changed.entityAt names = some (.link target) →
    tree.entityAt names = some (.link target)

/-- A change of the folder that holds the last name of a path renews that name, if it
does so in every folder. -/
theorem exists_renewal {tree changed : FileTree} {path : String}
    (hcase : tree.caseSensitive = true)
    {change : Folder → String → Except FileError Folder}
    (hrenewed : ∀ entries name entries', change entries name = .ok entries' →
      Folder.Renewed name entries entries')
    (h : tree.changeParent path change = .ok changed) :
    ∃ parent name before after, namesOf path = parent ++ [name]
      ∧ change before name = .ok after ∧ Renewal tree changed parent name before after := by
  obtain ⟨parent, name, root, hpath, hroot, hchanged⟩ := changeParent_eq_ok_iff.mp h
  have hat : ∀ names, changed.entityAt names = root.entityAt names := fun _ => by
    rw [hchanged]
    rfl
  obtain ⟨before, after, hchange, hbelow⟩ := changeFolder_cases hroot
  exact ⟨parent, name, before, after, hpath, hchange, {
    sensitive := ⟨hcase, by rw [hchanged]; exact hcase⟩
    workingDir := by rw [hchanged]
    was := hbelow.was
    is := fun rest => (hat _).trans (hbelow.is rest)
    renewed := hrenewed before name after hchange
    elsewhere := fun names hno => hat names ▸ hbelow.elsewhere names hno
    listed := fun names entries entries' hno he he' =>
      hbelow.listed names entries entries' hno he (hat names ▸ he')
    links := fun names target hno he => hbelow.links names target hno (hat names ▸ he) }⟩

namespace Renewal

variable {tree changed : FileTree} {parent : List String} {name : String} {before after : Folder}
  (h : Renewal tree changed parent name before after)
include h

theorem was_closed : ¬ tree.HasFolder (parent ++ [name]) := by
  rintro ⟨entries, he⟩
  exact h.renewed.closed entries ((Folder.entityAt_concat h.was name).symm.trans he)

theorem entityAt_renewed : changed.entityAt (parent ++ [name]) = after.lookup name := by
  rw [h.is, Folder.entityAt_singleton]

theorem is_closed : ¬ changed.HasFolder (parent ++ [name]) := by
  rintro ⟨entries, he⟩
  obtain ⟨contents, hfile⟩ := h.renewed.renewed _ (h.entityAt_renewed ▸ he)
  cases hfile

theorem entityAt_parent : changed.entityAt parent = some (.folder after) := by
  have hsame := h.is []
  rwa [List.append_nil] at hsame

/-- Where a path leads that leads to the folder: there, to the name, or aside of it. -/
theorem below_cases {names : List String} (hbelow : parent <+: names) :
    names = parent ∨ (∃ rest, names = parent ++ [name] ++ rest)
      ∨ changed.entityAt names = tree.entityAt names ∧ names ≠ parent := by
  obtain ⟨rest, rfl⟩ := hbelow
  cases rest with
  | nil => exact Or.inl (List.append_nil _)
  | cons first rest =>
    by_cases hfirst : first = name
    · subst hfirst
      exact Or.inr (Or.inl ⟨rest, by rw [List.append_assoc]; rfl⟩)
    · refine Or.inr (Or.inr ⟨?_, fun heq => ?_⟩)
      · rw [h.is, entityAt, Folder.entityAt_append h.was, Folder.entityAt, Folder.entityAt,
          h.renewed.others first hfirst]
      · exact List.cons_ne_nil _ _ (List.append_right_eq_self.mp heq)

/-- Below the name stands nothing. -/
theorem entityAt_below {rest : List String} (hrest : rest ≠ []) :
    changed.entityAt (parent ++ [name] ++ rest) = none :=
  Folder.entityAt_append_eq_none hrest fun entries he => h.is_closed ⟨entries, he⟩

/-- The folders of the changed tree list what they did before, but for the one that
holds the name. -/
theorem folder_cases (hwell : tree.WellFormed) {names : List String} {entries : Folder}
    (he : changed.entityAt names = some (.folder entries)) :
    (names = parent ∧ entries = after)
      ∨ names ≠ parent ∧ ∃ entries', tree.entityAt names = some (.folder entries')
        ∧ Folder.names entries = Folder.names entries' := by
  by_cases hbelow : parent <+: names
  · rcases h.below_cases hbelow with rfl | ⟨rest, rfl⟩ | ⟨hsame, hne⟩
    · rw [h.entityAt_parent] at he
      cases he
      exact Or.inl ⟨rfl, rfl⟩
    · by_cases hrest : rest = []
      · rw [hrest, List.append_nil] at he
        exact absurd ⟨entries, he⟩ h.is_closed
      · rw [h.entityAt_below hrest] at he
        cases he
    · exact Or.inr ⟨hne, entries, hsame ▸ he, rfl⟩
  · have htop := h.elsewhere names hbelow
    rw [he] at htop
    obtain ⟨entity, hentity, heq⟩ := Option.map_eq_some_iff.mp htop.symm
    obtain ⟨entries', rfl⟩ := Entity.exists_folder_of_top heq
    refine Or.inr ⟨?_, entries', hentity,
      h.listed names entries' entries hbelow hentity he (hwell.sorted _ _ hentity)⟩
    rintro rfl
    exact hbelow (List.prefix_refl _)

theorem link_was {names : List String} {target : String}
    (hlink : changed.entityAt names = some (.link target)) :
    tree.entityAt names = some (.link target) := by
  by_cases hbelow : parent <+: names
  · rcases h.below_cases hbelow with rfl | ⟨rest, rfl⟩ | ⟨hsame, _⟩
    · rw [h.entityAt_parent] at hlink
      cases hlink
    · by_cases hrest : rest = []
      · rw [hrest, List.append_nil, h.entityAt_renewed] at hlink
        obtain ⟨contents, hfile⟩ := h.renewed.renewed _ hlink
        cases hfile
      · rw [h.entityAt_below hrest] at hlink
        cases hlink
    · exact hsame ▸ hlink
  · exact h.links names target hbelow hlink

/-- **The tree differs at the name and nowhere else.** -/
theorem sameOutside : SameOutside [parent ++ [name]] tree changed where
  sensitive := h.sensitive
  elsewhere names hclear := by
    by_cases hbelow : parent <+: names
    · rcases h.below_cases hbelow with rfl | ⟨rest, rfl⟩ | ⟨hsame, _⟩
      · rw [h.entityAt_parent, h.was]
        rfl
      · exact absurd (List.prefix_append _ _) (hclear _ (List.mem_singleton_self _))
      · rw [hsame]
    · exact h.elsewhere names hbelow
  links _ _ hlink := h.link_was hlink

/-- In a well-formed tree folders list the same names besides. -/
theorem agreeOutside (hwell : tree.WellFormed) : AgreeOutside [parent ++ [name]] tree changed where
  toSameOutside := h.sameOutside
  workingDir := h.workingDir
  closed place hplace := by
    rw [List.mem_singleton.mp hplace]
    exact ⟨h.was_closed, h.is_closed⟩
  listed names entries others hone hother := by
    rcases h.folder_cases hwell hother with ⟨rfl, rfl⟩ | ⟨_, entries', hsame, heq⟩
    · rw [h.was] at hone
      cases hone
      have hiff : ∀ other, (names ++ [other] ∉ [names ++ [name]]) ↔ other ≠ name := by simp
      simpa only [hiff] using h.renewed.listed
    · rw [hsame] at hone
      cases hone
      rw [heq]

/-- The changed tree is well-formed, if a path can spell the name. -/
theorem wellFormed (hwell : tree.WellFormed) (hspelled : Spelled (parent ++ [name])) :
    changed.WellFormed := by
  have hmem : ∀ other ∈ Folder.names after, other = name ∨ other ∈ Folder.names before := by
    intro other hother
    by_cases hne : other = name
    · exact Or.inl hne
    · have hin : other ∈ (Folder.names after).filter (· ≠ name) :=
        List.mem_filter.mpr ⟨hother, decide_eq_true hne⟩
      rw [h.renewed.listed] at hin
      exact Or.inr (List.mem_filter.mp hin).1
  refine ⟨h.sensitive.2, h.workingDir ▸ hwell.rooted, ?_, ?_, ?_, ?_⟩
  · intro names entries he
    rcases h.folder_cases hwell he with ⟨rfl, rfl⟩ | ⟨_, entries', hsame, heq⟩
    · exact h.renewed.sorted (hwell.sorted _ _ h.was)
    · exact heq ▸ hwell.sorted _ _ hsame
  · intro names entries he other hother
    rcases h.folder_cases hwell he with ⟨rfl, rfl⟩ | ⟨_, entries', hsame, heq⟩
    · rcases hmem other hother with rfl | hother
      · exact hspelled.plain other (List.mem_append_right _ (List.mem_singleton_self _))
      · exact hwell.plain _ _ h.was other hother
    · exact hwell.plain _ _ hsame other (heq ▸ hother)
  · intro other hother
    have hroot : changed.entityAt [] = some (.folder changed.root) := rfl
    rcases h.folder_cases hwell hroot with
      ⟨hparent, hafter⟩ | ⟨_, entries', hsame, heq⟩
    · rw [hafter] at hother
      rcases hmem other hother with rfl | hother
      · exact hspelled.no_drive other (by rw [← hparent]; rfl)
      · have hwas := h.was
        rw [← hparent] at hwas
        cases hwas
        exact hwell.no_drive other hother
    · cases hsame
      exact hwell.no_drive other (heq ▸ hother)
  · exact fun names target hlink => hwell.targets names target (h.link_was hlink)

end Renewal

/-! ## Writing and removing -/

section

variable {tree changed : FileTree} {path : String}

/-- What a change of one file comes to. -/
structure Rewritten (tree changed : FileTree) (names : List String) : Prop where
  was_open : tree.Open names
  agree : AgreeOutside [names] tree changed
  wellFormed : Spelled names → changed.WellFormed

theorem Renewal.rewritten {parent : List String} {name : String} {before after : Folder}
    (h : Renewal tree changed parent name before after) (hwell : tree.WellFormed) :
    Rewritten tree changed (parent ++ [name]) :=
  ⟨⟨parent, name, rfl, ⟨before, h.was⟩, h.was_closed⟩, h.agreeOutside hwell, h.wellFormed hwell⟩

/-- What writing a file does in its folder. -/
def writeIn (contents : ByteArray) (folder : Folder) (name : String) :
    Except FileError Folder :=
  match folder.lookup name with
  | some (.folder _) => .error .isFolder
  | _ => .ok (folder.insert name (.file contents))

theorem write_eq (tree : FileTree) (path : String) (contents : ByteArray) :
    tree.write path contents false = tree.changeParent path (writeIn contents) := by
  unfold write
  congr 1
  funext folder name
  unfold writeIn
  split <;> split <;> first | rfl | simp_all

theorem writeIn_eq_ok {contents : ByteArray} {entries : Folder} {name : String}
    (h : ∀ inside, entries.lookup name ≠ some (.folder inside)) :
    writeIn contents entries name = .ok (entries.insert name (.file contents)) := by
  unfold writeIn
  split
  · rename_i inside hinside
    exact absurd hinside (h inside)
  · rfl

theorem renewed_of_writeIn {contents : ByteArray} {entries entries' : Folder} {name : String}
    (h : writeIn contents entries name = .ok entries') :
    Folder.Renewed name entries entries' ∧ entries' = entries.insert name (.file contents) := by
  have hclosed : ∀ inside, entries.lookup name ≠ some (.folder inside) := by
    intro inside hinside
    rw [writeIn, hinside] at h
    cases h
  rw [writeIn_eq_ok hclosed] at h
  cases h
  exact ⟨Folder.renewed_insert hclosed, rfl⟩

/-- **A file that is written again with the same contents stays as it is.** -/
theorem write_again {contents : ByteArray} (h : tree.write path contents false = .ok changed) :
    changed.write path contents false = .ok changed := by
  rw [write_eq] at h ⊢
  obtain ⟨parent, name, root, hnames, hroot, rfl⟩ := changeParent_eq_ok_iff.mp h
  refine changeParent_eq_ok_iff.mpr ⟨parent, name, root, hnames, changeFolder_again ?_ hroot, rfl⟩
  intro before after hchange
  obtain rfl := (renewed_of_writeIn hchange).2
  simp [writeIn, Folder.lookup_insert_self, Folder.insert_insert]

theorem exists_renewal_of_write (hcase : tree.caseSensitive = true) {contents : ByteArray}
    (h : tree.write path contents false = .ok changed) :
    ∃ parent name before after, namesOf path = parent ++ [name]
      ∧ Renewal tree changed parent name before after
      ∧ changed.entityAt (namesOf path) = some (.file contents) := by
  rw [write_eq] at h
  obtain ⟨parent, name, before, after, hnames, hchange, hrenewal⟩ :=
    exists_renewal hcase (fun _ _ _ hok => (renewed_of_writeIn hok).1) h
  refine ⟨parent, name, before, after, hnames, hrenewal, ?_⟩
  rw [hnames, hrenewal.entityAt_renewed, (renewed_of_writeIn hchange).2,
    Folder.lookup_insert_self]

/-- **A written file stands where it was written, and all else is as it was.** -/
theorem sameOutside_of_write (hcase : tree.caseSensitive = true) {contents : ByteArray}
    (h : tree.write path contents false = .ok changed) :
    SameOutside [namesOf path] tree changed
      ∧ changed.entityAt (namesOf path) = some (.file contents) := by
  obtain ⟨parent, name, before, after, hnames, hrenewal, hat⟩ := exists_renewal_of_write hcase h
  exact ⟨hnames ▸ hrenewal.sameOutside, hat⟩

theorem rewritten_of_write (hwell : tree.WellFormed) {contents : ByteArray}
    (h : tree.write path contents false = .ok changed) :
    Rewritten tree changed (namesOf path)
      ∧ changed.entityAt (namesOf path) = some (.file contents) := by
  obtain ⟨parent, name, before, after, hnames, hrenewal, hat⟩ :=
    exists_renewal_of_write hwell.sensitive h
  exact ⟨hnames ▸ hrenewal.rewritten hwell, hat⟩

/-- What removing a file does in its folder. -/
def removeIn (folder : Folder) (name : String) : Except FileError Folder :=
  match folder.lookup name with
  | some (.folder _) => .error .isFolder
  | some _ => .ok (folder.erase name)
  | none => .error .nothingToRemove

theorem remove_eq (tree : FileTree) (path : String) :
    tree.remove path = tree.changeParent path removeIn := rfl

theorem renewed_of_removeIn {entries entries' : Folder} {name : String}
    (h : removeIn entries name = .ok entries') :
    Folder.Renewed name entries entries' ∧ entries' = entries.erase name := by
  have hclosed : ∀ inside, entries.lookup name ≠ some (.folder inside) := by
    intro inside hinside
    rw [removeIn, hinside] at h
    cases h
  have heq : entries' = entries.erase name := by
    unfold removeIn at h
    split at h
    · cases h
    · exact (Except.ok.inj h).symm
    · cases h
  exact ⟨heq ▸ Folder.renewed_erase hclosed, heq⟩

theorem exists_renewal_of_remove (hcase : tree.caseSensitive = true)
    (h : tree.remove path = .ok changed) :
    ∃ parent name before after, namesOf path = parent ++ [name]
      ∧ Renewal tree changed parent name before after
      ∧ changed.entityAt (namesOf path) = none := by
  rw [remove_eq] at h
  obtain ⟨parent, name, before, after, hnames, hchange, hrenewal⟩ :=
    exists_renewal hcase (fun _ _ _ hok => (renewed_of_removeIn hok).1) h
  refine ⟨parent, name, before, after, hnames, hrenewal, ?_⟩
  rw [hnames, hrenewal.entityAt_renewed, (renewed_of_removeIn hchange).2, Folder.erase,
    lookup_filter_ne, if_pos rfl]

/-- **Removing a file changes nothing else.** -/
theorem rewritten_of_remove (hwell : tree.WellFormed) (h : tree.remove path = .ok changed) :
    Rewritten tree changed (namesOf path) := by
  obtain ⟨parent, name, before, after, hnames, hrenewal, _⟩ :=
    exists_renewal_of_remove hwell.sensitive h
  rw [hnames]
  exact hrenewal.rewritten hwell

/-- Where a file may stand it can be written. -/
theorem exists_write_eq_ok (h : tree.Open (namesOf path)) (contents : ByteArray) :
    ∃ changed, tree.write path contents false = .ok changed := by
  obtain ⟨parent, name, hnames, ⟨before, hbefore⟩, hclosed⟩ := h
  have hplace : tree.entityAt (namesOf path) = before.lookup name :=
    hnames ▸ Folder.entityAt_concat hbefore name
  rw [write_eq]
  exact exists_changeParent_eq_ok hnames hbefore
    (writeIn_eq_ok fun inside hinside => hclosed ⟨inside, hplace.trans hinside⟩)

/-- Agreement outside of one place is agreement outside of more of them. -/
theorem AgreeOutside.mono {one other : FileTree} {place : List String} {places : List (List String)}
    (h : AgreeOutside [place] one other) (hplace : place ∈ places)
    (hclosed : ∀ place ∈ places, ¬ one.HasFolder place) : AgreeOutside places one other := by
  have hclear : ∀ names, Clear places names → Clear [place] names := by
    intro names hclear other hother
    rw [List.mem_singleton.mp hother]
    exact hclear place hplace
  refine ⟨⟨h.sensitive, fun names hnames => h.elsewhere names (hclear names hnames), h.links⟩,
    h.workingDir, fun other hother => ⟨hclosed other hother, ?_⟩, ?_⟩
  · -- a folder of the second tree is clear of the place and so one of the first
    intro hfolder
    have hnames : Clear [place] other := by
      rintro _ hmem ⟨rest, hrest⟩
      rw [List.mem_singleton.mp hmem] at hrest
      obtain ⟨entries, hentries⟩ := hfolder
      by_cases hnil : rest = []
      · rw [hnil, List.append_nil] at hrest
        exact (h.closed place (List.mem_singleton_self _)).2 ⟨entries, hrest ▸ hentries⟩
      · rw [← hrest] at hentries
        exact (h.closed place (List.mem_singleton_self _)).2
          (Folder.exists_folder_above hnil hentries)
    exact hclosed other hother ((h.hasFolder_iff hnames).mp hfolder)
  · intro names entries others hone hother
    have hlisted := congrArg (List.filter (names ++ [·] ∉ places))
      (h.listed names entries others hone hother)
    have hmore : ∀ inside : List String,
        (inside.filter (names ++ [·] ∉ [place])).filter (names ++ [·] ∉ places)
          = inside.filter (names ++ [·] ∉ places) := by
      intro inside
      rw [List.filter_filter]
      refine List.filter_congr fun name _ => ?_
      have himp : names ++ [name] ∉ places → names ++ [name] ∉ [place] := fun hno hmem =>
        hno (List.mem_singleton.mp hmem ▸ hplace)
      by_cases hno : names ++ [name] ∉ places
      · simp [hno, himp hno]
      · simp [hno]
    rwa [hmore, hmore] at hlisted

end

end FileTree

end PackageOrder
