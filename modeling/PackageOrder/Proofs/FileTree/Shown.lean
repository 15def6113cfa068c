/-
PackageOrder.Proofs.FileTree.Shown — what readers see of what writers do.

Writers go down by the names themselves, and readers by the first names in the folders
that are the same to them, which may differ in case. So readers see what stands at some
names if each of these is listed first of those that are the same to readers (`Shown`).
Else they see none of it, in whatever way they come by, links included
(`samePass_of_changeFolder`). What is written is read back, and what is removed is gone,
where it is shown (`Built.reads_changes_iff`).
-/
import PackageOrder.Proofs.FileTree.Beside
import PackageOrder.Proofs.FileTree.Built

namespace PackageOrder

namespace Folder

variable {folder entries : Folder} {caseSensitive : Bool} {name other : String}

/-! ## Names that are put behind others -/

theorem child?_insert_of_ne (h : sameName caseSensitive name other = false) (entity : Entity) :
    (folder.insert name entity).child? caseSensitive other = folder.child? caseSensitive other := by
  have hskip : ∀ held rest, child? ((name, held) :: rest) caseSensitive other
      = child? rest caseSensitive other := by
    intro held rest
    rw [child?_cons, h]
    rfl
  induction folder with
  | nil => exact hskip entity []
  | cons entry rest ih =>
    obtain ⟨key, held⟩ := entry
    rw [insert]
    split
    · rename_i hkey
      rw [hkey, hskip, hskip]
    · split
      · exact hskip entity _
      · rw [child?_cons, child?_cons, ih]

/-- What is put behind another name that is the same to readers is not seen by them. -/
theorem child?_insert_of_unshown {entity : Entity}
    (h : (folder.insert name entity).found? caseSensitive name ≠ some name) (other : String) :
    (folder.insert name entity).child? caseSensitive other = folder.child? caseSensitive other := by
  have hfirst : ∀ held rest, found? ((name, held) :: rest) caseSensitive name = some name := by
    intro held rest
    rw [found?_cons, if_pos sameName_self]
  induction folder with
  | nil => exact absurd (hfirst entity []) h
  | cons entry rest ih =>
    obtain ⟨key, held⟩ := entry
    rw [insert] at h ⊢
    split
    · rename_i hkey
      rw [if_pos hkey, hkey] at h
      exact absurd (hfirst entity rest) h
    rename_i hkey
    rw [if_neg hkey] at h
    split
    · rename_i hlt
      rw [if_pos hlt] at h
      exact absurd (hfirst entity _) h
    rename_i hlt
    rw [if_neg hlt, found?_cons] at h
    rw [child?_cons, child?_cons]
    by_cases hsame : sameName caseSensitive key name = true
    · by_cases hother : sameName caseSensitive key other = true
      · rw [if_pos hother, if_pos hother]
      · -- what is looked for is not the name that was put in
        have hne : sameName caseSensitive name other = false := by
          rw [Bool.eq_false_iff]
          intro hnames
          exact hother ((sameName_congr hnames key).symm.trans hsame)
        rw [if_neg hother, if_neg hother, child?_insert_of_ne hne]
    · rw [if_neg hsame] at h
      rw [ih h]

/-! ## Names that readers follow as writers do -/

/-- Names each of which is, in the folder that those before it lead to, the first one that
is the same to readers. -/
def Shown (caseSensitive : Bool) : Folder → List String → Prop
  | _, [] => True
  | folder, name :: names => folder.found? caseSensitive name = some name
      ∧ ∀ entries, folder.lookup name = some (.folder entries) → Shown caseSensitive entries names

theorem shown_cons_folder {names : List String} (h : folder.lookup name = some (.folder entries)) :
    Shown caseSensitive folder (name :: names)
      ↔ folder.found? caseSensitive name = some name ∧ Shown caseSensitive entries names := by
  rw [Shown, h]
  simp only [Option.some.injEq, Entity.folder.injEq, forall_eq']

theorem shown_concat {parent : List String} (h : folder.entityAt parent = some (.folder entries)) :
    Shown caseSensitive folder (parent ++ [name])
      ↔ Shown caseSensitive folder parent ∧ entries.found? caseSensitive name = some name := by
  induction parent generalizing folder with
  | nil =>
    cases h
    simp [Shown]
  | cons first parent ih =>
    rw [entityAt] at h
    split at h
    · rename_i inside hlookup
      rw [List.cons_append, shown_cons_folder hlookup, shown_cons_folder hlookup, ih h, and_assoc]
    · rename_i entity hne _
      split at h
      · cases h
        exact absurd rfl (hne entries)
      · cases h
    · cases h

end Folder

namespace FileTree

variable {tree changed : FileTree} {path : String} {folder after entries : Folder}
  {caseSensitive followLast : Bool} {names parent : List String} {name : String}

/-! ## Passes -/

/-- A pass goes down names that are shown. -/
theorem exists_walk_of_shown (hshown : Folder.Shown caseSensitive folder parent)
    (hat : folder.entityAt parent = some (.folder entries)) (followLast : Bool) (way : String)
    (rest : List String) : ∃ further, walk caseSensitive followLast folder way (parent ++ rest)
      = walk caseSensitive followLast entries further rest := by
  induction parent generalizing folder way with
  | nil =>
    cases hat
    exact ⟨way, rfl⟩
  | cons first parent ih =>
    rw [Folder.entityAt] at hat
    split at hat
    · rename_i inside hlookup
      obtain ⟨hfirst, hrest⟩ := (Folder.shown_cons_folder hlookup).mp hshown
      rw [List.cons_append, walk, Folder.child?_of_found? hfirst, hlookup]
      exact ih hrest hat _
    · rename_i entity hne _
      split at hat
      · cases hat
        exact absurd rfl (hne entries)
      · cases hat
    · cases hat

/-- Two passes that come to the same, but for what folders hold. -/
inductive SamePass : Pass → Pass → Prop
  | nowhere : SamePass (.done none) (.done none)
  | found {entity other : Entity} (way : String) : other.top = entity.top →
      SamePass (.done (some (entity, way))) (.done (some (other, way)))
  | again (path : String) : SamePass (.again path) (.again path)

theorem SamePass.refl : ∀ pass : Pass, SamePass pass pass
  | .done none => .nowhere
  | .done (some (_, way)) => .found way rfl
  | .again path => .again path

/-- Trees whose passes come to the same look alike. -/
theorem looksAlike_of_samePass
    (h : ∀ names, SamePass (walk tree.caseSensitive followLast tree.root "" names)
      (walk changed.caseSensitive followLast changed.root "" names)) (path : String) :
    LooksAlike tree changed path followLast := by
  have hpasses : ∀ (passes : Nat) (current : String),
      (tree.lookupWithin followLast passes current = none
          ∧ changed.lookupWithin followLast passes current = none)
        ∨ ∃ entity found way way',
          tree.lookupWithin followLast passes current = some (entity, way)
          ∧ changed.lookupWithin followLast passes current = some (found, way')
          ∧ found.top = entity.top := by
    intro passes
    induction passes with
    | zero => exact fun _ => Or.inl ⟨rfl, rfl⟩
    | succ passes ih =>
      intro current
      have hpass := h (namesOf current)
      rw [lookupWithin, lookupWithin]
      generalize walk tree.caseSensitive followLast tree.root "" (namesOf current) = one at hpass
      generalize walk changed.caseSensitive followLast changed.root "" (namesOf current) = other
        at hpass
      cases hpass with
      | nowhere => exact Or.inl ⟨rfl, rfl⟩
      | found way htop => exact Or.inr ⟨_, _, way, way, rfl, rfl, htop⟩
      | again next => exact ih next
  exact hpasses passLimit path

/-- A change below names comes to the same for all passes, if those cannot tell the folder
there from what it was, or if it is not shown to them. -/
theorem samePass_of_changeFolder {change : Folder → Except FileError Folder}
    (horder : folder.InOrder) (h : changeFolder change names folder = .ok after)
    (hunseen : Folder.Shown caseSensitive after names → ∀ inside inside',
      folder.entityAt names = some (.folder inside) → after.entityAt names = some (.folder inside') →
      ∀ other, Folder.child? inside' caseSensitive other = Folder.child? inside caseSensitive other)
    (way : String) (others : List String) :
    SamePass (walk caseSensitive followLast folder way others)
      (walk caseSensitive followLast after way others) := by
  induction names generalizing folder after way others with
  | nil =>
    cases others with
    | nil => exact .found _ rfl
    | cons other others =>
      rw [walk, walk, hunseen trivial folder after rfl rfl other]
      exact .refl _
  | cons name names ih =>
    obtain ⟨entries, inner, hlookup, hinner, rfl⟩ := changeFolder_cons_eq_ok.mp h
    have hself : (folder.insert name (.folder inner)).lookup name = some (.folder inner) :=
      Folder.lookup_insert_self folder name _
    cases others with
    | nil => exact .found _ rfl
    | cons other others =>
      have hfound : (folder.insert name (.folder inner)).found? caseSensitive other
          = folder.found? caseSensitive other := by
        rw [Folder.found?, Folder.found?,
          Folder.names_insert_of_mem horder.names (Folder.mem_names_of_lookup hlookup)]
      rw [walk, walk, Folder.child?_eq, Folder.child?_eq, hfound]
      cases hother : folder.found? caseSensitive other with
      | none => exact .refl _
      | some key =>
        by_cases hkey : key = name
        · -- the pass goes down to the folder in which the change is
          subst hkey
          rw [Option.bind_some, Option.bind_some, hself, hlookup]
          refine ih (horder.below hlookup) hinner (fun hshown inside inside' hin hin' => ?_) _ _
          have hfirst := Folder.found?_self (hfound.trans hother)
          exact hunseen ((Folder.shown_cons_folder hself).mpr ⟨hfirst, hshown⟩) inside inside'
            ((Folder.entityAt_cons_folder hlookup).trans hin)
            ((Folder.entityAt_cons_folder hself).trans hin')
        · rw [Option.bind_some, Option.bind_some, Folder.lookup_insert_of_ne folder _ hkey]
          exact .refl _

/-! ## Reading what was written -/

/-- Names that readers follow as writers do. -/
def Shown (tree : FileTree) (names : List String) : Prop :=
  tree.root.Shown tree.caseSensitive names

/-- What readers find under the last of some names. -/
def Finds (tree : FileTree) (names : List String) (entity : Entity) : Prop :=
  ∃ parent name entries, names = parent ++ [name]
    ∧ tree.entityAt parent = some (.folder entries)
    ∧ Folder.child? entries tree.caseSensitive name = some entity

/-- A link that leads nowhere in the passes that are left after the one that met it. -/
def Broken (tree : FileTree) (entity : Entity) : Prop :=
  ∃ target, entity = .link target ∧ tree.lookupWithin true (passLimit - 1) target = none

/-- A pass to a name in a folder that is shown. -/
theorem exists_lookup_of_shown (hnames : namesOf path = parent ++ [name])
    (hshown : tree.Shown parent) (hat : tree.entityAt parent = some (.folder entries)) :
    (Folder.child? entries tree.caseSensitive name = none ∧ tree.lookup path true = none)
      ∨ (∃ entity way, Folder.child? entries tree.caseSensitive name = some entity
        ∧ (∀ target, entity ≠ .link target) ∧ tree.lookup path true = some (entity, way))
      ∨ ∃ target, Folder.child? entries tree.caseSensitive name = some (.link target)
        ∧ tree.lookup path true = tree.lookupWithin true (passLimit - 1) target := by
  obtain ⟨further, hwalk⟩ := exists_walk_of_shown hshown hat true "" [name]
  rw [lookup, passLimit, lookupWithin, hnames, hwalk, walk]
  cases hchild : Folder.child? entries tree.caseSensitive name with
  | none => exact Or.inl ⟨rfl, rfl⟩
  | some entity =>
    cases entity with
    | folder inside => exact Or.inr (Or.inl ⟨_, _, rfl, (fun _ heq => by cases heq), rfl⟩)
    | file contents => exact Or.inr (Or.inl ⟨_, _, rfl, (fun _ heq => by cases heq), rfl⟩)
    | link target => exact Or.inr (Or.inr ⟨target, rfl, rfl⟩)

/-- What a change of the folder above a path comes to for readers. They see none of it if
they cannot tell that folder from what it was, or if it is not shown to them. -/
theorem exists_change {change : Folder → String → Except FileError Folder}
    (horder : tree.root.InOrder) (h : tree.changeParent path change = .ok changed) :
    ∃ parent name before after, namesOf path = parent ++ [name]
      ∧ change before name = .ok after
      ∧ changed.entityAt parent = some (.folder after)
      ∧ changed.caseSensitive = tree.caseSensitive
      ∧ ((changed.Shown parent → ∀ other, Folder.child? after tree.caseSensitive other
          = Folder.child? before tree.caseSensitive other) →
        ∀ other, LooksAlike tree changed other true) := by
  obtain ⟨parent, name, root, hnames, hroot, rfl⟩ := changeParent_eq_ok_iff.mp h
  obtain ⟨before, after, hchange, hbelow⟩ := changeFolder_cases hroot
  have hat : root.entityAt parent = some (.folder after) := by
    have hself := hbelow.is []
    rwa [List.append_nil] at hself
  refine ⟨parent, name, before, after, hnames, hchange, hat, rfl, fun hunseen => ?_⟩
  refine looksAlike_of_samePass fun names => ?_
  refine samePass_of_changeFolder horder hroot (fun hshown inside inside' hin hin' => ?_) "" names
  cases hbelow.was.symm.trans hin
  cases hat.symm.trans hin'
  exact hunseen hshown

/-- **A file that is written is read back if it is shown**, and else is not seen. -/
theorem readBytes_of_write (horder : tree.root.InOrder) {contents : ByteArray}
    (h : tree.write path contents false = .ok changed) :
    (changed.Shown (namesOf path) ∧ changed.readBytes path = .ok contents)
      ∨ ¬ changed.Shown (namesOf path) ∧ changed.readBytes path = tree.readBytes path := by
  rw [write_eq] at h
  obtain ⟨parent, name, before, after, hnames, hchange, hat, hcase, halike⟩ := exists_change horder h
  obtain rfl := (renewed_of_writeIn hchange).2
  have hiff : changed.Shown (namesOf path) ↔ changed.Shown parent
      ∧ (before.insert name (.file contents)).found? tree.caseSensitive name = some name := by
    rw [hnames, ← hcase]
    exact Folder.shown_concat hat
  by_cases hshown : changed.Shown (namesOf path)
  · refine Or.inl ⟨hshown, ?_⟩
    obtain ⟨hparent, hname⟩ := hiff.mp hshown
    have hchild : Folder.child? (before.insert name (.file contents)) changed.caseSensitive name
        = some (.file contents) := by
      rw [hcase, Folder.child?_of_found? hname, Folder.lookup_insert_self]
    rw [readBytes]
    rcases exists_lookup_of_shown hnames hparent hat with
      ⟨hnone, _⟩ | ⟨entity, way, hfile, _, hlookup⟩ | ⟨target, hlink, _⟩
    · cases hchild.symm.trans hnone
    · cases hchild.symm.trans hfile
      rw [hlookup]
    · cases hchild.symm.trans hlink
  · refine Or.inr ⟨hshown, (halike (fun hparent other => ?_) path).readBytes_eq⟩
    exact Folder.child?_insert_of_unshown (fun hname => hshown (hiff.mpr ⟨hparent, hname⟩)) other

/-- **Where a file was removed readers find what else is the same name to them**, if the
folder is shown, and else what they found before. -/
theorem exists?_of_remove (horder : tree.root.InOrder) (h : tree.remove path = .ok changed) :
    (changed.Shown (namesOf path).dropLast ∧ (changed.exists? path = false
        ↔ ∀ entity, changed.Finds (namesOf path) entity → changed.Broken entity))
      ∨ ¬ changed.Shown (namesOf path).dropLast ∧ changed.exists? path = tree.exists? path := by
  rw [remove_eq] at h
  obtain ⟨parent, name, before, after, hnames, _, hat, hcase, halike⟩ := exists_change horder h
  have hdrop : (namesOf path).dropLast = parent := by rw [hnames, List.dropLast_concat]
  have hfinds : ∀ entity, changed.Finds (namesOf path) entity
      ↔ Folder.child? after changed.caseSensitive name = some entity := by
    intro entity
    refine ⟨?_, fun hchild => ⟨parent, name, after, hnames, hat, hchild⟩⟩
    rintro ⟨parent', name', entries, hnames', hat', hchild⟩
    obtain ⟨rfl, heq⟩ := List.append_inj' (hnames.symm.trans hnames') rfl
    cases heq
    cases hat.symm.trans hat'
    exact hchild
  rw [hdrop]
  by_cases hshown : changed.Shown parent
  · refine Or.inl ⟨hshown, ?_⟩
    simp only [hfinds, exists?, Option.isSome_eq_false_iff, Option.isNone_iff_eq_none]
    rcases exists_lookup_of_shown hnames hshown hat with
      ⟨hchild, hlookup⟩ | ⟨entity, way, hchild, hlink, hlookup⟩ | ⟨target, hchild, hlookup⟩
    · rw [hchild, hlookup]
      exact iff_of_true rfl fun _ hnone => by cases hnone
    · rw [hchild, hlookup]
      refine iff_of_false (Option.some_ne_none _) fun hall => ?_
      obtain ⟨target, htarget, _⟩ := hall entity rfl
      exact hlink target htarget
    · rw [hchild, hlookup]
      constructor
      · intro hnone entity hentity
        exact ⟨target, (Option.some.inj hentity).symm, hnone⟩
      · intro hall
        obtain ⟨next, hnext, hnone⟩ := hall _ rfl
        rw [Entity.link.inj hnext]
        exact hnone
  · exact Or.inr ⟨hshown, (halike (fun hparent => absurd hparent hshown) path).exists?_eq⟩

/-- **A tree that operations lead to reads its own writes if it shows them, and only then**,
unless what was to be read was read before. After a removal a path leads nowhere if there
is nothing else that is the same to readers, at most a link that leads nowhere. Both is
always so where names are told apart by case. -/
theorem Built.reads_changes_iff (hbuilt : tree.Built) (path : String) :
    (∀ contents exclusive changed, tree.write path contents exclusive = .ok changed →
      (tree.caseSensitive = true → changed.readBytes path = .ok contents)
        ∧ (changed.readBytes path = .ok contents
          ↔ changed.Shown (namesOf path) ∨ tree.readBytes path = .ok contents))
    ∧ ∀ changed, tree.remove path = .ok changed →
      (tree.caseSensitive = true → changed.exists? path = false)
        ∧ (changed.exists? path = false
          ↔ (changed.Shown (namesOf path).dropLast
              ∧ ∀ entity, changed.Finds (namesOf path) entity → changed.Broken entity)
            ∨ (¬ changed.Shown (namesOf path).dropLast ∧ tree.exists? path = false)) := by
  constructor
  · intro contents exclusive changed hwrite
    have hplain := write_of_exclusive hwrite
    refine ⟨fun hcase => ?_, ?_⟩
    · obtain ⟨hbeside, hat⟩ := sameBeside_of_write hcase hplain
      exact readBytes_of_entityAt (hbeside.caseSensitive.trans hcase) hat
    · rcases readBytes_of_write hbuilt.inOrder hplain with ⟨hshown, hread⟩ | ⟨hshown, hread⟩
      · exact iff_of_true hread (Or.inl hshown)
      · rw [hread]
        exact ⟨Or.inr, fun h => h.resolve_left hshown⟩
  · intro changed hremove
    refine ⟨fun hcase => by rw [exists?, lookup_of_remove hcase hremove]; rfl, ?_⟩
    rcases exists?_of_remove hbuilt.inOrder hremove with ⟨hshown, hiff⟩ | ⟨hshown, heq⟩
    · rw [hiff]
      exact ⟨fun h => Or.inl ⟨hshown, h⟩, fun h => h.elim And.right fun h => absurd hshown h.1⟩
    · rw [heq]
      exact ⟨fun h => Or.inr ⟨hshown, h⟩, fun h => h.elim (fun h => absurd h.1 hshown) And.right⟩

theorem Built.reads_changes_iff_caseless :
    ∃ held gone, (⟨[], "/", false⟩ : FileTree).write "/a" "one".toUTF8 false = .ok held
      ∧ held.readBytes "/a" = .ok "one".toUTF8
      ∧ held.remove "/a" = .ok gone ∧ gone.exists? "/a" = false := by
  have hempty : Built ⟨[], "/", false⟩ := ⟨"/", false, .refl⟩
  have hwrite : (⟨[], "/", false⟩ : FileTree).write "/a" "one".toUTF8 false
      = .ok ⟨[("a", .file "one".toUTF8)], "/", false⟩ := by
    rfl
  have hremove : (⟨[("a", .file "one".toUTF8)], "/", false⟩ : FileTree).remove "/a"
      = .ok ⟨[], "/", false⟩ := by
    rfl
  have hnames : namesOf "/a" = ["a"] := by rfl
  have hheld : Built ⟨[("a", .file "one".toUTF8)], "/", false⟩ :=
    ⟨"/", false, .single (.write hwrite)⟩
  refine ⟨_, _, hwrite, ((hempty.reads_changes_iff "/a").1 _ _ _ hwrite).2.mpr (Or.inl ?_),
    hremove, ((hheld.reads_changes_iff "/a").2 _ hremove).2.mpr (Or.inl ⟨?_, ?_⟩)⟩
  · rw [hnames]
    exact ⟨by rfl, nofun⟩
  · rw [hnames]
    trivial
  · rintro entity ⟨parent, name, entries, heq, hat, hchild⟩
    rw [hnames] at heq
    obtain rfl : parent = [] := (List.append_singleton_inj.mp (show [] ++ ["a"] = _ from heq)).1.symm
    cases hat
    cases hchild

/-- Two names that differ in case only: what is written under the second is not read back,
and when the first is gone its path leads to the second. -/
theorem reads_other_caseless :
    ∃ one two three : FileTree, one.Built
      ∧ one.write "/a" "two".toUTF8 false = .ok two ∧ two.readBytes "/a" ≠ .ok "two".toUTF8
      ∧ two.remove "/A" = .ok three ∧ three.exists? "/A" ≠ false := by
  have hwrite : (⟨[], "/", false⟩ : FileTree).write "/A" "one".toUTF8 false
      = .ok ⟨[("A", .file "one".toUTF8)], "/", false⟩ := by
    rfl
  have hread : (⟨[("A", .file "one".toUTF8), ("a", .file "two".toUTF8)], "/", false⟩
      : FileTree).readBytes "/a" = .ok "one".toUTF8 := by
    rfl
  refine ⟨⟨[("A", .file "one".toUTF8)], "/", false⟩,
    ⟨[("A", .file "one".toUTF8), ("a", .file "two".toUTF8)], "/", false⟩,
    ⟨[("a", .file "two".toUTF8)], "/", false⟩, ⟨"/", false, .single (.write hwrite)⟩,
    by rfl, ?_, by rfl, by decide⟩
  rw [hread]
  decide

end FileTree

end PackageOrder
