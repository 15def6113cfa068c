/-
PackageOrder.Proofs.FileTree.Secluded — places that no link leads to.

Where files may be written at some places and no link leads to these, a path that is
none of them and does not lead through a link at one (`Aside`) leads to the same in all
trees that agree outside of them (`AgreeOutside.looksAlike`): below a place nothing is
found, whether a file stands there or not. What a folder lists differs by the names of
the places at most (`AgreeOutside.list`).
-/
import Mathlib.Data.List.Induction
import PackageOrder.Proofs.FileTree.Write

namespace PackageOrder

open PackageOrder.Text
open PackageOrder.Path (Plain)

namespace FileTree

variable {tree : FileTree}

/-! ## Passes -/

/-- No link stands above where files may be written. -/
theorem not_link_above {front back : List String} (hopen : tree.Open (front ++ back))
    (hback : back ≠ []) (target : String) : tree.entityAt front ≠ some (.link target) := by
  intro hlink
  obtain ⟨parent, name, happend, ⟨entries, hparent⟩, _⟩ := hopen
  obtain ⟨above, last, rfl⟩ := (List.eq_nil_or_concat' back).resolve_left hback
  rw [← List.append_assoc] at happend
  obtain ⟨rfl, _⟩ := List.append_inj' happend rfl
  by_cases habove : above = []
  · rw [habove, List.append_nil, hlink] at hparent
    cases hparent
  · obtain ⟨inside, hfolder⟩ := Folder.exists_folder_above habove hparent
    cases hlink.symm.trans hfolder

/-- **What a pass does where a file may be written**: it finds a file or a link, or follows
the link, or nothing stands there. -/
theorem walk_open_cases {names : List String} (hopen : tree.Open names) (followLast : Bool) :
    (∃ entity found, (entity.kind = .file ∨ entity.kind = .link ∧ followLast = false)
        ∧ walk true followLast tree.root "" names = .done (some (entity, found)))
      ∨ (∃ target, followLast = true ∧ tree.entityAt names = some (.link target)
        ∧ walk true followLast tree.root "" names = .again target)
      ∨ tree.entityAt names = none ∧ walk true followLast tree.root "" names = .done none := by
  have hclosed : ¬ tree.HasFolder names := by
    obtain ⟨_, _, _, _, hclosed⟩ := hopen
    exact hclosed
  rcases walk_cases followLast tree.root "" names with
    ⟨entity, found, hat, hlast, hwalk⟩ | ⟨front, back, target, rfl, hat, hlast, hwalk⟩ | hnone
  · refine Or.inl ⟨entity, found, ?_, hwalk⟩
    cases entity with
    | folder entries => exact absurd ⟨entries, hat⟩ hclosed
    | file contents => exact Or.inl rfl
    | link target => exact Or.inr ⟨rfl, hlast target rfl⟩
  · by_cases hback : back = []
    · subst hback
      rw [List.append_nil] at hwalk ⊢
      exact Or.inr (Or.inl ⟨target, hlast rfl, hat, hwalk⟩)
    · exact absurd hat (not_link_above hopen hback target)
  · exact Or.inr (Or.inr hnone)

/-- A pass finds nothing below a place at which no link stands. -/
theorem walk_below {place rest : List String} (hopen : tree.Open place)
    (hlink : ∀ target, tree.entityAt place ≠ some (.link target)) (hrest : rest ≠ [])
    (followLast : Bool) (way : String) :
    walk true followLast tree.root way (place ++ rest) = .done none := by
  have hclosed : ¬ tree.HasFolder place := by
    obtain ⟨_, _, _, _, hclosed⟩ := hopen
    exact hclosed
  have hnone : ∀ more ≠ [], tree.root.entityAt (place ++ more) = none := fun more hmore =>
    Folder.entityAt_append_eq_none hmore fun entries he => hclosed ⟨entries, he⟩
  rcases walk_cases followLast tree.root way (place ++ rest) with
    ⟨entity, found, hat, _⟩ | ⟨front, back, target, happend, hat, _, _⟩ | ⟨_, hwalk⟩
  · exact absurd (hat.symm.trans (hnone rest hrest)) (Option.some_ne_none _)
  · -- a link on the way would stand at the place, below it or above it
    exfalso
    rcases List.append_eq_append_iff.mp happend with ⟨more, rfl, _⟩ | ⟨more, rfl, _⟩
    · by_cases hmore : more = []
      · rw [hmore, List.append_nil] at hat
        exact hlink target hat
      · exact absurd (hat.symm.trans (hnone more hmore)) (Option.some_ne_none _)
    · by_cases hmore : more = []
      · rw [hmore, List.append_nil] at hlink
        exact hlink target hat
      · exact not_link_above hopen hmore target hat
  · exact hwalk

/-! ## Places -/

/-- Names that do not lead through a link that stands at one of some places. -/
def Unlinked (tree : FileTree) (places : List (List String)) (names : List String) : Prop :=
  ∀ place ∈ places, ∀ target, tree.entityAt place = some (.link target) → ¬ place <+: names

namespace Unlinked

variable {places : List (List String)} {names : List String}

theorem of_append {rest : List String} (h : tree.Unlinked places (names ++ rest)) :
    tree.Unlinked places names :=
  fun place hplace target hlink hbelow =>
    h place hplace target hlink (hbelow.trans (List.prefix_append _ _))

/-- A name that leads to none of the places leads through none of them. -/
theorem concat (h : tree.Unlinked places names) {name : String} (hne : names ++ [name] ∉ places) :
    tree.Unlinked places (names ++ [name]) := by
  intro place hplace target hlink hbelow
  rcases List.prefix_concat_iff.mp hbelow with rfl | hbelow
  · exact hne hplace
  · exact h place hplace target hlink hbelow

end Unlinked

/-- Names that are none of some places and lead through no link that stands at one. -/
structure Aside (tree : FileTree) (places : List (List String)) (names : List String) : Prop where
  notMem : names ∉ places
  unlinked : tree.Unlinked places names

/-- A name that is none of the places. -/
theorem Unlinked.aside {places : List (List String)} {names : List String} {name : String}
    (h : tree.Unlinked places names) (hne : names ++ [name] ∉ places) :
    tree.Aside places (names ++ [name]) :=
  ⟨hne, h.concat hne⟩

/-- Places at which files may be written and which no link leads to. -/
structure Secluded (places : List (List String)) (tree : FileTree) : Prop where
  opened : ∀ place ∈ places, tree.Open place
  plain : ∀ place ∈ places, PlainNames place
  links : ∀ path next, tree.Redirects path next → tree.Aside places (namesOf next)

theorem Aside.subset {places others : List (List String)} {names : List String}
    (h : tree.Aside places names) (hsub : others ⊆ places) : tree.Aside others names :=
  ⟨fun hmem => h.notMem (hsub hmem), fun place hplace => h.unlinked place (hsub hplace)⟩

namespace Secluded

variable {places : List (List String)}

theorem subset (h : tree.Secluded places) {others : List (List String)} (hsub : others ⊆ places) :
    tree.Secluded others where
  opened place hplace := h.opened place (hsub hplace)
  plain place hplace := h.plain place (hsub hplace)
  links path next hredirects := (h.links path next hredirects).subset hsub

theorem closed (h : tree.Secluded places) {place : List String} (hplace : place ∈ places) :
    ¬ tree.HasFolder place := by
  obtain ⟨_, _, _, _, hclosed⟩ := h.opened place hplace
  exact hclosed

/-- Below a place nothing is found, unless a link there leads on. -/
theorem lookup_below (h : tree.Secluded places) (hcase : tree.caseSensitive = true)
    {place : List String} (hplace : place ∈ places) {path : String}
    (hbelow : place <+: namesOf path) (hpath : tree.Aside places (namesOf path))
    (followLast : Bool) : tree.lookup path followLast = none := by
  have hlink : ∀ target, tree.entityAt place ≠ some (.link target) := fun target htarget =>
    hpath.unlinked place hplace target htarget hbelow
  obtain ⟨rest, hrest⟩ := hbelow
  have hnil : rest ≠ [] := by
    rintro rfl
    rw [List.append_nil] at hrest
    exact hpath.notMem (hrest ▸ hplace)
  refine lookup_of_done ?_
  rw [hcase, ← hrest, walk_below (h.opened place hplace) hlink hnil]

/-- A place without a link is no folder. -/
theorem isFolder_place (h : tree.Secluded places) (hcase : tree.caseSensitive = true)
    {path : String} (hpath : namesOf path ∈ places) (hunlinked : tree.Unlinked places (namesOf path)) :
    tree.isFolder path = false := by
  rcases walk_open_cases (h.opened _ hpath) true with
    ⟨entity, way, hkind, hwalk⟩ | ⟨target, _, hat, _⟩ | ⟨_, hwalk⟩
  · exact isFolder_of_walk hcase hwalk fun found hfound => by
      cases hfound
      exact hkind.resolve_right (fun hlink => Bool.noConfusion hlink.2)
  · exact absurd List.prefix_rfl (hunlinked _ hpath target hat)
  · exact isFolder_of_walk hcase hwalk fun _ hfound => by cases hfound

end Secluded

/-! ## Links to folders -/

/-- Folders stand at plain names. -/
theorem WellFormed.spelled_of_hasFolder (hwell : tree.WellFormed) {names : List String}
    (h : tree.HasFolder names) : Spelled names := by
  induction names using List.reverseRecOn with
  | nil => exact Spelled.nil
  | append_singleton names name ih =>
    obtain ⟨entries, he⟩ := h
    obtain ⟨above, habove⟩ := Folder.exists_folder_above (List.cons_ne_nil name []) he
    have hmem : name ∈ Folder.names above :=
      Folder.mem_names_of_lookup ((Folder.entityAt_concat habove name).symm.trans he)
    have hname := hwell.plain names above habove name hmem
    by_cases hnames : names = []
    · subst hnames
      cases habove
      refine ⟨fun other ho => List.mem_singleton.mp ho ▸ hname, fun first hfirst => ?_⟩
      cases hfirst
      exact hwell.no_drive name hmem
    · exact (ih ⟨above, habove⟩).append_name hname hnames

/-- A name behind a link that leads to a folder. -/
theorem namesOf_behindLink_name (hwell : tree.WellFormed) {target name : String}
    (hroot : Path.isRooted target = true) (hname : Plain name.toList) {back : List String}
    (hfolder : tree.HasFolder (namesOf (behindLink target back))) :
    namesOf (behindLink target (back ++ [name])) = namesOf (behindLink target back) ++ [name] := by
  have hne : back ++ [name] ≠ [] := by simp
  rw [behindLink, if_neg hne]
  by_cases hback : back = []
  · subst hback
    rw [behindLink, if_pos rfl] at hfolder ⊢
    have hspelled := hwell.spelled_of_hasFolder hfolder
    have hone : intercalate "/" ([] ++ [name]) = name := by
      rw [← String.toList_inj, List.nil_append, toList_intercalate]
      rfl
    rw [hone, namesOf_join_name hroot hname, clean_of_spelled hroot hspelled,
      namesOf_pathOf hspelled.plain]
  · have hmore : intercalate "/" (back ++ [name]) = intercalate "/" back ++ "/" ++ name := by
      rw [← String.toList_inj, toList_intercalate, String.toList_append, String.toList_append,
        toList_intercalate, List.map_append, List.append_assoc]
      exact joinWith_append (by simpa using hback) (List.cons_ne_nil _ _)
    have hjoin : Path.join target [intercalate "/" (back ++ [name])]
        = Path.join (target ++ "/" ++ intercalate "/" back) [name] := by
      rw [clean_join, clean_join, hmore, ← String.append_assoc, ← String.append_assoc]
    rw [behindLink, if_neg hback, hjoin, namesOf_join_name _ hname, clean_join]
    rw [String.append_assoc]
    exact isRooted_append hroot _

/-- Where links lead to a folder, none of the places is in it. -/
theorem Secluded.notMem_behind {places : List (List String)} (h : tree.Secluded places)
    (hwell : tree.WellFormed) {path next : String} (hredirects : tree.Redirects path next)
    (hfolder : tree.HasFolder (namesOf next)) {name : String} (hname : Plain name.toList) :
    namesOf next ++ [name] ∉ places := by
  obtain ⟨front, back, target, hnames, hlink, rfl⟩ :=
    exists_link_of_redirects hwell.sensitive hredirects
  have hbelow : namesOf (path ++ "/" ++ name) = front ++ (back ++ [name]) := by
    rw [namesOf_append, hnames, List.append_assoc, namesOf_plain hname]
  rw [← namesOf_behindLink_name hwell (hwell.targets front target hlink) hname hfolder]
  exact (h.links _ _ (redirects_of_link hwell.sensitive hbelow hlink)).notMem

/-! ## Trees that agree outside of such places -/

namespace AgreeOutside

variable {places : List (List String)} {one other : FileTree}

theorem open_iff (h : AgreeOutside places one other) (names : List String) :
    other.Open names ↔ one.Open names := by
  have hfolder : ∀ names, other.HasFolder names ↔ one.HasFolder names := by
    intro names
    constructor
    · intro hother
      exact (h.hasFolder_iff (clear_of_hasFolder (fun place hp => (h.closed place hp).2) hother)).mp
        hother
    · intro hone
      exact (h.hasFolder_iff (clear_of_hasFolder (fun place hp => (h.closed place hp).1) hone)).mpr
        hone
  simp only [Open, hfolder]

/-- Passes that start at none of the places find nothing in either tree, or in both what
stands at some names, but for what stands below it. -/
theorem lookupWithin_cases (h : AgreeOutside places one other) (hsecluded : one.Secluded places)
    {followLast : Bool} {passes : Nat} {path : String}
    (hpath : one.Aside places (namesOf path)) :
    (one.lookupWithin followLast passes path = none
        ∧ other.lookupWithin followLast passes path = none)
      ∨ ∃ entity found way way' last,
        one.lookupWithin followLast passes path = some (entity, way)
        ∧ other.lookupWithin followLast passes path = some (found, way')
        ∧ found.top = entity.top
        ∧ one.entityAt (namesOf last) = some entity ∧ other.entityAt (namesOf last) = some found
        ∧ one.Reaches path last := by
  induction passes generalizing path with
  | zero => exact Or.inl ⟨rfl, rfl⟩
  | succ passes ih =>
    -- both trees are led on in the same way, as links lead to none of the places
    have hnext : ∀ next, one.Redirects path next →
        (one.lookupWithin followLast passes next = none
            ∧ other.lookupWithin followLast passes next = none)
          ∨ ∃ entity found way way' last,
            one.lookupWithin followLast passes next = some (entity, way)
            ∧ other.lookupWithin followLast passes next = some (found, way')
            ∧ found.top = entity.top
            ∧ one.entityAt (namesOf last) = some entity
            ∧ other.entityAt (namesOf last) = some found ∧ one.Reaches path last := by
      intro next hredirects
      rcases ih (hsecluded.links path next hredirects) with
        hnone | ⟨entity, found, way, way', last, hone, hother, htop, hat, hat', hlast⟩
      · exact Or.inl hnone
      · exact Or.inr ⟨entity, found, way, way', last, hone, hother, htop, hat, hat',
          .head hredirects hlast⟩
    by_cases hclear : Clear places (namesOf path)
    · rcases h.walk_cases hclear followLast with
        ⟨entity, found, way, way', hone, hother, htop, hwalk, hwalk'⟩ | ⟨next, hwalk, hwalk'⟩
          | ⟨hwalk, hwalk'⟩
      · refine Or.inr ⟨entity, found, way, way', path, ?_, ?_, htop, hone, hother, .refl⟩
        · rw [lookupWithin, hwalk]
        · rw [lookupWithin, hwalk']
      · rw [lookupWithin, hwalk, lookupWithin, hwalk']
        exact hnext next ⟨followLast, hwalk⟩
      · exact Or.inl ⟨by rw [lookupWithin, hwalk], by rw [lookupWithin, hwalk']⟩
    · -- the path leads below one of the places
      unfold Clear at hclear
      push Not at hclear
      obtain ⟨place, hplace, rest, hrest⟩ := hclear
      have hne : rest ≠ [] := by
        rintro rfl
        rw [List.append_nil] at hrest
        exact hpath.notMem (hrest ▸ hplace)
      have hopen := hsecluded.opened place hplace
      have hlink : ∀ target, one.entityAt place ≠ some (.link target) := fun target htarget =>
        hpath.unlinked place hplace target htarget ⟨rest, hrest⟩
      refine Or.inl ⟨?_, ?_⟩
      · rw [lookupWithin, h.sensitive.1, ← hrest, walk_below hopen hlink hne]
      · rw [lookupWithin, h.sensitive.2, ← hrest, walk_below ((h.open_iff place).mpr hopen)
          (fun target htarget => hlink target (h.links place target htarget)) hne]

/-- A lookup that starts at none of the places finds nothing in either tree, or in both
what stands at some names, but for what stands below it. -/
theorem lookup_cases (h : AgreeOutside places one other) (hsecluded : one.Secluded places)
    {path : String} (hpath : one.Aside places (namesOf path)) (followLast : Bool) :
    (one.lookup path followLast = none ∧ other.lookup path followLast = none)
      ∨ ∃ entity found way way' last, one.lookup path followLast = some (entity, way)
        ∧ other.lookup path followLast = some (found, way') ∧ found.top = entity.top
        ∧ one.entityAt (namesOf last) = some entity ∧ other.entityAt (namesOf last) = some found
        ∧ one.Reaches path last :=
  h.lookupWithin_cases hsecluded hpath

/-- What is secluded in one tree is so in the other. -/
theorem secluded (h : AgreeOutside places one other) (hsecluded : one.Secluded places) :
    other.Secluded places where
  opened place hplace := (h.open_iff place).mpr (hsecluded.opened place hplace)
  plain := hsecluded.plain
  links path next hredirects := by
    have haside := hsecluded.links path next (h.redirects hredirects)
    exact ⟨haside.notMem, fun place hplace target hlink =>
      haside.unlinked place hplace target (h.links place target hlink)⟩

/-- **A path that is none of the places leads to the same in both trees.** -/
theorem looksAlike (h : AgreeOutside places one other) (hsecluded : one.Secluded places)
    {path : String} (hpath : one.Aside places (namesOf path)) (followLast : Bool) :
    LooksAlike one other path followLast := by
  rcases h.lookup_cases hsecluded hpath followLast with
    hnone | ⟨entity, found, way, way', last, hone, hother, htop, _⟩
  · exact Or.inl hnone
  · exact Or.inr ⟨entity, found, way, way', hone, hother, htop⟩

/-- A place that leads to no folder does so in both trees. -/
theorem isFolder_place (h : AgreeOutside places one other) (hsecluded : one.Secluded places)
    {path : String} (hpath : namesOf path ∈ places) (hone : one.isFolder path = false) :
    other.isFolder path = false := by
  have hopen := (h.open_iff _).mpr (hsecluded.opened _ hpath)
  have hcase := h.sensitive.2
  rcases walk_open_cases hopen true with
    ⟨entity, way, hkind, hwalk⟩ | ⟨target, _, hat, hwalk⟩ | ⟨_, hwalk⟩
  · exact isFolder_of_walk hcase hwalk fun found hfound => by
      cases hfound
      exact hkind.resolve_right (fun hlink => Bool.noConfusion hlink.2)
  · -- the same link leads to no folder in the first tree
    have hlink := h.links _ target hat
    have hnames : namesOf path = namesOf path ++ [] := (List.append_nil _).symm
    have hwalk' : walk true true one.root "" (namesOf path) = .again target := by
      have hfollowed := walk_of_link hlink (fun _ : [] = ([] : List String) => rfl) ""
      rwa [List.append_nil] at hfollowed
    have hlooks : LooksAlike one other path true := by
      rw [LooksAlike, lookup, lookup, passLimit, lookupWithin, lookupWithin, h.sensitive.1,
        h.sensitive.2, hwalk, hwalk']
      have hnext := hsecluded.links path _ (redirects_of_link h.sensitive.1 hnames hlink)
      rcases h.lookupWithin_cases hsecluded hnext with
        hnone | ⟨entity, found, way, way', last, hone, hother, htop, _⟩
      · exact Or.inl hnone
      · exact Or.inr ⟨entity, found, way, way', hone, hother, htop⟩
    rw [hlooks.isFolder_eq]
    exact hone
  · exact isFolder_of_walk hcase hwalk fun _ hfound => by cases hfound

/-- **A folder lists the same names**, apart from those of the places. -/
theorem list (h : AgreeOutside places one other) (hsecluded : one.Secluded places)
    (hwell : one.WellFormed) {path : String} (hpath : one.Aside places (namesOf path)) :
    (other.list path).toOption.map (·.filter (namesOf path ++ [·] ∉ places))
      = (one.list path).toOption.map (·.filter (namesOf path ++ [·] ∉ places)) := by
  rw [FileTree.list, FileTree.list]
  rcases h.lookup_cases hsecluded hpath true with
    ⟨hone, hother⟩ | ⟨entity, found, way, way', last, hone, hother, htop, hat, hat', hfrom⟩
  · rw [hone, hother]
  · rw [hone, hother]
    cases entity with
    | folder entries =>
      obtain ⟨others, rfl⟩ := Entity.exists_folder_of_top htop
      have hlisted := h.listed (namesOf last) entries others hat hat'
      rcases Relation.ReflTransGen.cases_tail hfrom with rfl | ⟨before, _, hredirects⟩
      · exact congrArg some hlisted
      · -- behind a link there is none of the places
        have hnot : ∀ name, namesOf last ++ [name] ∉ places := by
          intro name hmem
          have hname := hsecluded.plain _ hmem name
            (List.mem_append_right _ (List.mem_singleton_self name))
          exact hsecluded.notMem_behind hwell hredirects ⟨entries, hat⟩ hname hmem
        have hall : ∀ names : List String,
            names.filter (namesOf last ++ [·] ∉ places) = names := fun names =>
          List.filter_eq_self.mpr fun name _ => decide_eq_true (hnot name)
        rw [hall, hall] at hlisted
        exact congrArg (fun names => some (names.filter (namesOf path ++ [·] ∉ places))) hlisted
    | file contents => rw [Entity.eq_file_of_top htop]
    | link target => rw [Entity.eq_link_of_top htop]

end AgreeOutside

end FileTree

end PackageOrder
