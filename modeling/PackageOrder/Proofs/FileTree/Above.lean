/-
PackageOrder.Proofs.FileTree.Above — above whatever a path leads to there are
folders.

If something is found below a path, then a folder is found there, and it lists the
next name (`isFolder_of_exists_below`). Links are followed on the way; this asks that
their targets are written in normal form, since a path is brought into it only when
names follow a link.
-/
import PackageOrder.Proofs.FileTree.Location

namespace PackageOrder

open PackageOrder.Text
open PackageOrder.Path (Plain)

namespace FileTree

variable {tree : FileTree}

/-- The links of a tree lead to rooted paths in normal form. -/
def LinksClean (tree : FileTree) : Prop :=
  ∀ names target, tree.entityAt names = some (.link target) →
    Path.isRooted target = true ∧ Path.clean target = target

/-- The names behind a link. -/
theorem namesOf_behindLink {target : String} (hroot : Path.isRooted target = true)
    (hclean : Path.clean target = target) {names : List String} (hnames : PlainNames names) :
    namesOf (behindLink target names) = namesOf target ++ names := by
  unfold behindLink
  split
  · rename_i hnil
    rw [hnil, List.append_nil]
  · rename_i hne
    have hhead : target.toList.head? = some '/' := Path.head?_of_isRooted hroot
    have hchars : Path.cleanChars target.toList = target.toList := by
      rw [← String.toList_ofList (l := Path.cleanChars target.toList)]
      exact congrArg String.toList hclean
    rw [namesOf_join, Path.segments_clean_names hhead (by simpa using hne) hnames.segments,
      List.map_append, hchars, map_ofList_toList, namesOf]

theorem plainNames_behindLink {target : String} (hroot : Path.isRooted target = true)
    (hclean : Path.clean target = target) {names : List String} (hnames : PlainNames names) :
    PlainNames (namesOf (behindLink target names)) := by
  rw [namesOf_behindLink hroot hclean hnames]
  refine PlainNames.append ?_ hnames
  rw [← hclean]
  exact namesOf_clean_plain hroot

/-- **Where something is found below a path, a folder is found at the path, and the
next name is in it.** -/
theorem lookupWithin_above (hcase : tree.caseSensitive = true) (hlinks : tree.LinksClean)
    {passes : Nat} {followLast : Bool} {path above : String} {found : Entity × String}
    (h : lookupWithin tree followLast passes path = some found)
    (hplain : PlainNames (namesOf path)) {rest : List String} (hrest : rest ≠ [])
    (hnames : namesOf path = namesOf above ++ rest) :
    ∃ entries way, lookupWithin tree true passes above = some (.folder entries, way)
      ∧ ∀ name, rest.head? = some name → name ∈ Folder.names entries := by
  induction passes generalizing path above with
  | zero => cases h
  | succ passes ih =>
    obtain ⟨first, others, rfl⟩ := List.exists_cons_of_ne_nil hrest
    -- a folder that stands above is found at once
    have hstands : ∀ more entity, tree.root.entityAt (namesOf above ++ first :: more) = some entity →
        ∃ entries way, lookupWithin tree true (passes + 1) above = some (.folder entries, way)
          ∧ ∀ name, (first :: others).head? = some name → name ∈ Folder.names entries := by
      intro more entity hat
      obtain ⟨entries, habove⟩ := Folder.exists_folder_above (List.cons_ne_nil _ _) hat
      obtain ⟨way, hwalk⟩ := walk_of_entityAt habove (fun _ h => nomatch h) true ""
      refine ⟨entries, way, by rw [lookupWithin, hcase, hwalk], ?_⟩
      rintro name hname
      cases hname
      rw [Folder.entityAt_append habove, Folder.entityAt] at hat
      split at hat
      · rename_i hlookup
        exact Folder.mem_names_of_lookup hlookup
      · rename_i hlookup
        exact Folder.mem_names_of_lookup hlookup
      · cases hat
    rw [lookupWithin, hcase, hnames] at h
    rcases walk_cases followLast tree.root "" (namesOf above ++ first :: others) with
      ⟨entity, way, hat, _, hwalk⟩ | ⟨front, back, target, happend, hat, _, hwalk⟩ | ⟨_, hwalk⟩
    · exact hstands others entity hat
    · rw [hwalk] at h
      obtain ⟨hroot, hclean⟩ := hlinks front target hat
      rcases List.append_eq_append_iff.mp happend with ⟨more, hfront, hmore⟩ | ⟨more, hfront, hmore⟩
      · cases more with
        | nil =>
          -- the path is the link itself, which is followed there as well
          rw [List.append_nil] at hfront
          rw [List.nil_append] at hmore
          have hplain' : PlainNames back := fun name hname =>
            hplain name (by rw [hnames, hmore]; exact List.mem_append_right _ hname)
          have hwalk' : walk true true tree.root "" (namesOf above) = .again target := by
            have hlast : ([] : List String) = [] → true = true := fun _ => rfl
            have hlink := walk_of_link (hfront ▸ hat) hlast ""
            rwa [List.append_nil] at hlink
          rw [lookupWithin, hcase, hwalk']
          refine ih h (plainNames_behindLink hroot hclean hplain') ?_
          rw [namesOf_behindLink hroot hclean hplain', hmore]
        | cons second more =>
          -- the link stands below the path
          rw [List.cons_append, List.cons.injEq] at hmore
          rw [hfront, ← hmore.1] at hat
          exact hstands more _ hat
      · -- the link stands on the way to the path, so both are led to its target
        have hback : PlainNames back := fun name hname =>
          hplain name (by rw [hnames, happend]; exact List.mem_append_right _ hname)
        have hbetween : PlainNames more := fun name hname =>
          hback name (by rw [hmore]; exact List.mem_append_left _ hname)
        rw [lookupWithin, hcase, hfront, walk_of_link hat (fun _ => rfl) ""]
        refine ih h (plainNames_behindLink hroot hclean hback) ?_
        rw [namesOf_behindLink hroot hclean hback, namesOf_behindLink hroot hclean hbetween,
          hmore, List.append_assoc]
    · rw [hwalk] at h
      cases h

/-- What exists below a path lies in a folder there, which lists the next name. -/
theorem isFolder_of_exists_below (hcase : tree.caseSensitive = true) (hlinks : tree.LinksClean)
    {path above : String} (h : tree.exists? path = true) (hplain : PlainNames (namesOf path))
    {name : String} {rest : List String} (hnames : namesOf path = namesOf above ++ name :: rest) :
    tree.isFolder above = true
      ∧ ∃ names, tree.list above = .ok names ∧ name ∈ names := by
  obtain ⟨found, hfound⟩ := Option.isSome_iff_exists.mp h
  obtain ⟨entries, way, habove, hmem⟩ :=
    lookupWithin_above hcase hlinks hfound hplain (List.cons_ne_nil name rest) hnames
  have hlookup : tree.lookup above true = some (.folder entries, way) := habove
  refine ⟨isFolder_iff.mpr ⟨_, way, hlookup, nofun⟩, Folder.names entries, ?_, hmem name rfl⟩
  exact list_eq_ok_iff.mpr ⟨entries, way, hlookup, rfl⟩

theorem exists_of_isFolder {path : String} (h : tree.isFolder path = true) :
    tree.exists? path = true := by
  obtain ⟨entity, way, hlookup, _⟩ := isFolder_iff.mp h
  exact exists?_iff.mpr ⟨_, hlookup⟩

theorem isFile_eq_false_of_isFolder {path : String} (h : tree.isFolder path = true) :
    tree.isFile path = false := by
  obtain ⟨entity, way, hlookup, hfile⟩ := isFolder_iff.mp h
  rw [Bool.eq_false_iff]
  intro h
  obtain ⟨contents, way', hlookup'⟩ := isFile_iff.mp h
  cases hlookup.symm.trans hlookup'
  exact hfile contents rfl

theorem exists_of_isFile {path : String} (h : tree.isFile path = true) :
    tree.exists? path = true := by
  obtain ⟨contents, way, hlookup⟩ := isFile_iff.mp h
  exact exists?_iff.mpr ⟨_, hlookup⟩

/-- What exists is a file or a folder. -/
theorem isFile_of_exists {path : String} (h : tree.exists? path = true)
    (hfolder : tree.isFolder path = false) : tree.isFile path = true := by
  obtain ⟨⟨entity, way⟩, hlookup⟩ := exists?_iff.mp h
  cases entity with
  | file contents => exact isFile_iff.mpr ⟨contents, way, hlookup⟩
  | folder entries =>
    exact absurd (isFolder_iff.mpr ⟨_, way, hlookup, nofun⟩) (Bool.eq_false_iff.mp hfolder)
  | link target =>
    exact absurd (isFolder_iff.mpr ⟨_, way, hlookup, nofun⟩) (Bool.eq_false_iff.mp hfolder)

end FileTree

end PackageOrder
