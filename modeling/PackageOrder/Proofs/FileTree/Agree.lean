/-
PackageOrder.Proofs.FileTree.Agree — trees that differ at some places at most.

A lookup that keeps clear of the places, as far as links lead it too (`KeepsClear`),
comes to the same in both trees (`SameOutside.looksAlike`), and so does all that is
read there (`LooksAlike`). Where files are written no folders stand, and folders list
other names only where these are the places themselves (`AgreeOutside`).
-/
import Mathlib.Logic.Relation
import PackageOrder.Proofs.FileTree.Location

namespace PackageOrder

open PackageOrder.Text

/-- What stands somewhere, without what stands below it. -/
def Entity.top : Entity → Entity
  | .folder _ => .folder []
  | entity => entity

theorem Entity.kind_of_top {one other : Entity} (h : one.top = other.top) :
    one.kind = other.kind := by
  cases one <;> cases other <;> first | rfl | cases h

theorem Entity.exists_folder_of_top {one : Entity} {entries : Folder}
    (h : one.top = (Entity.folder entries).top) : ∃ others, one = .folder others := by
  cases one with
  | folder others => exact ⟨others, rfl⟩
  | file contents => cases h
  | link target => cases h

theorem Entity.eq_file_of_top {one : Entity} {contents : ByteArray}
    (h : one.top = (Entity.file contents).top) : one = .file contents := by
  cases one <;> first | exact h | cases h

theorem Entity.eq_link_of_top {one : Entity} {target : String}
    (h : one.top = (Entity.link target).top) : one = .link target := by
  cases one <;> first | exact h | cases h

/-- What is the same without what stands below it is the same, or it is two folders. -/
theorem Entity.eq_or_folders_of_top {one other : Entity} (h : one.top = other.top) :
    one = other ∨ ∃ entries others, one = .folder entries ∧ other = .folder others := by
  cases other with
  | folder others =>
    obtain ⟨entries, rfl⟩ := Entity.exists_folder_of_top h
    exact Or.inr ⟨entries, others, rfl, rfl⟩
  | file contents => exact Or.inl (Entity.eq_file_of_top h)
  | link target => exact Or.inl (Entity.eq_link_of_top h)

namespace FileTree

/-- Names that lead to none of some places and to nothing below them. -/
def Clear (places : List (List String)) (names : List String) : Prop :=
  ∀ place ∈ places, ¬ place <+: names

theorem Clear.of_append {places : List (List String)} {names rest : List String}
    (h : Clear places (names ++ rest)) : Clear places names :=
  fun place hplace hbelow => h place hplace (hbelow.trans (List.prefix_append _ _))

/-- Two trees in which the same stands outside of some places, apart from what folders
hold. The second has no new link. -/
structure SameOutside (places : List (List String)) (one other : FileTree) : Prop where
  sensitive : one.caseSensitive = true ∧ other.caseSensitive = true
  elsewhere : ∀ names, Clear places names →
    (other.entityAt names).map Entity.top = (one.entityAt names).map Entity.top
  links : ∀ names target, other.entityAt names = some (.link target) →
    one.entityAt names = some (.link target)

/-- Two trees of which the second differs from the first at some places at most, where
neither has a folder. -/
structure AgreeOutside (places : List (List String)) (one other : FileTree) : Prop
    extends SameOutside places one other where
  workingDir : other.workingDir = one.workingDir
  closed : ∀ place ∈ places, ¬ one.HasFolder place ∧ ¬ other.HasFolder place
  listed : ∀ names entries others, one.entityAt names = some (.folder entries) →
    other.entityAt names = some (.folder others) →
    (Folder.names others).filter (names ++ [·] ∉ places)
      = (Folder.names entries).filter (names ++ [·] ∉ places)

/-- The paths that a lookup goes on with, one after the other. -/
def Reaches (tree : FileTree) : String → String → Prop :=
  Relation.ReflTransGen tree.Redirects

/-- A path that leads to none of some places, wherever links lead it. -/
def KeepsClear (tree : FileTree) (places : List (List String)) (path : String) : Prop :=
  ∀ last, tree.Reaches path last → Clear places (namesOf last)

/-! ## What is read at a path -/

/-- A path that leads to the same in two trees, but for what stands below it. -/
def LooksAlike (one other : FileTree) (path : String) (followLast : Bool) : Prop :=
  (one.lookup path followLast = none ∧ other.lookup path followLast = none)
    ∨ ∃ entity found way way', one.lookup path followLast = some (entity, way)
      ∧ other.lookup path followLast = some (found, way') ∧ found.top = entity.top

namespace LooksAlike

variable {one other : FileTree} {path : String}

theorem exists?_eq (h : LooksAlike one other path true) :
    other.exists? path = one.exists? path := by
  rw [exists?, exists?]
  rcases h with ⟨hone, hother⟩ | ⟨entity, found, way, way', hone, hother, _⟩
  · rw [hone, hother]
  · rw [hone, hother]
    rfl

theorem readBytes_eq (h : LooksAlike one other path true) :
    other.readBytes path = one.readBytes path := by
  rw [readBytes, readBytes]
  rcases h with ⟨hone, hother⟩ | ⟨entity, found, way, way', hone, hother, htop⟩
  · rw [hone, hother]
  · rw [hone, hother]
    rcases Entity.eq_or_folders_of_top htop with rfl | ⟨_, _, rfl, rfl⟩
    · cases found <;> rfl
    · rfl

theorem readText_eq (h : LooksAlike one other path true) :
    other.readText path = one.readText path := by
  rw [readText, readText, h.readBytes_eq]

theorem stat_eq (h : LooksAlike one other path true) : other.stat path = one.stat path := by
  rw [stat, stat]
  rcases h with ⟨hone, hother⟩ | ⟨entity, found, way, way', hone, hother, htop⟩
  · rw [hone, hother]
  · rw [hone, hother]
    rcases Entity.eq_or_folders_of_top htop with rfl | ⟨_, _, rfl, rfl⟩
    · cases found <;> rfl
    · rfl

theorem isFile_eq (h : LooksAlike one other path true) : other.isFile path = one.isFile path := by
  rw [isFile, isFile, h.stat_eq]

theorem isFolder_eq (h : LooksAlike one other path true) :
    other.isFolder path = one.isFolder path := by
  rw [isFolder, isFolder, h.stat_eq]

theorem linkStat_eq (h : LooksAlike one other path false) :
    other.linkStat path = one.linkStat path := by
  rw [linkStat, linkStat]
  rcases h with ⟨hone, hother⟩ | ⟨entity, found, way, way', hone, hother, htop⟩
  · rw [hone, hother]
  · rw [hone, hother]
    exact congrArg Except.ok (Entity.kind_of_top htop)

end LooksAlike

namespace SameOutside

variable {places : List (List String)} {one other : FileTree}

/-- What stands at clear names is the same in both trees, but for what stands below. -/
theorem exists_top (h : SameOutside places one other) {names : List String}
    (hclear : Clear places names) {entity : Entity} (hone : one.entityAt names = some entity) :
    ∃ found, other.entityAt names = some found ∧ found.top = entity.top := by
  have heq := h.elsewhere names hclear
  rw [hone] at heq
  exact Option.map_eq_some_iff.mp heq

theorem exists_top' (h : SameOutside places one other) {names : List String}
    (hclear : Clear places names) {found : Entity} (hother : other.entityAt names = some found) :
    ∃ entity, one.entityAt names = some entity ∧ entity.top = found.top := by
  have heq := h.elsewhere names hclear
  rw [hother] at heq
  exact Option.map_eq_some_iff.mp heq.symm

theorem hasFolder_iff (h : SameOutside places one other) {names : List String}
    (hclear : Clear places names) : other.HasFolder names ↔ one.HasFolder names := by
  constructor
  · rintro ⟨others, hother⟩
    obtain ⟨entity, hone, htop⟩ := h.exists_top' hclear hother
    obtain ⟨entries, rfl⟩ := Entity.exists_folder_of_top htop
    exact ⟨entries, hone⟩
  · rintro ⟨entries, hone⟩
    obtain ⟨found, hother, htop⟩ := h.exists_top hclear hone
    obtain ⟨others, rfl⟩ := Entity.exists_folder_of_top htop
    exact ⟨others, hother⟩

/-- Links of the second tree redirect as they do in the first. -/
theorem redirects (h : SameOutside places one other) {path next : String}
    (hredirects : other.Redirects path next) : one.Redirects path next := by
  obtain ⟨front, back, target, hnames, hlink, rfl⟩ :=
    exists_link_of_redirects h.sensitive.2 hredirects
  exact redirects_of_link h.sensitive.1 hnames (h.links _ _ hlink)

theorem reaches (h : SameOutside places one other) {path last : String}
    (hlast : other.Reaches path last) : one.Reaches path last :=
  Relation.ReflTransGen.mono (fun _ _ => h.redirects) _ _ hlast

theorem keepsClear (h : SameOutside places one other) {others : List (List String)} {path : String}
    (hclear : one.KeepsClear others path) : other.KeepsClear others path :=
  fun last hlast => hclear last (h.reaches hlast)

/-! ## Lookups -/

/-- A pass over clear names comes to the same in both trees. -/
theorem walk_cases (h : SameOutside places one other) {names : List String}
    (hclear : Clear places names) (followLast : Bool) :
    (∃ entity found way way', one.entityAt names = some entity
        ∧ other.entityAt names = some found ∧ found.top = entity.top
        ∧ walk one.caseSensitive followLast one.root "" names = .done (some (entity, way))
        ∧ walk other.caseSensitive followLast other.root "" names = .done (some (found, way')))
      ∨ (∃ next, walk one.caseSensitive followLast one.root "" names = .again next
        ∧ walk other.caseSensitive followLast other.root "" names = .again next)
      ∨ (walk one.caseSensitive followLast one.root "" names = .done none
        ∧ walk other.caseSensitive followLast other.root "" names = .done none) := by
  rw [h.sensitive.1, h.sensitive.2]
  rcases FileTree.walk_cases followLast other.root "" names with
    ⟨found, way', hother, hfollow, hwalk'⟩ | ⟨front, back, target, rfl, hother, hlast, hwalk'⟩
      | ⟨hother, hwalk'⟩
  · obtain ⟨entity, hone, htop⟩ := h.exists_top' hclear hother
    rcases FileTree.walk_cases followLast one.root "" names with
      ⟨entity', way, hone', _, hwalk⟩ | ⟨front, back, target, rfl, hlink, hlast, _⟩ | ⟨hnone, _⟩
    · refine Or.inl ⟨entity', found, way, way', hone', hother, ?_, hwalk, hwalk'⟩
      rw [show entity' = entity from Option.some.inj (hone'.symm.trans hone), htop]
    · -- a link that stands last would be in both trees and not be followed in one
      by_cases hback : back = []
      · rw [hback, List.append_nil] at hone
        have hentity : entity = .link target := Option.some.inj (hone.symm.trans hlink)
        rw [hentity] at htop
        have hfalse := hfollow target (Entity.eq_link_of_top htop.symm)
        exact absurd (hlast hback) (by rw [hfalse]; decide)
      · have hnone := Folder.entityAt_append_eq_none hback fun entries he => by
          rw [hlink] at he
          cases he
        exact absurd (hone.symm.trans hnone) (Option.some_ne_none _)
    · exact absurd (hone.symm.trans hnone) (Option.some_ne_none _)
  · exact Or.inr (Or.inl ⟨_, walk_of_link (h.links front target hother) hlast "", hwalk'⟩)
  · refine Or.inr (Or.inr ⟨?_, hwalk'⟩)
    rcases FileTree.walk_cases followLast one.root "" names with
      ⟨entity, way, hone, _, _⟩ | ⟨front, back, target, rfl, hlink, hlast, _⟩ | ⟨_, hwalk⟩
    · obtain ⟨found, hfound, _⟩ := h.exists_top hclear hone
      exact absurd (hfound.symm.trans hother) (Option.some_ne_none _)
    · obtain ⟨found, hfound, htop⟩ := h.exists_top hclear.of_append hlink
      rw [Entity.eq_link_of_top htop] at hfound
      rw [walk_of_link hfound hlast ""] at hwalk'
      cases hwalk'
    · exact hwalk

/-- **A lookup that keeps clear of the places comes to the same in both trees.** -/
theorem looksAlike (h : SameOutside places one other) {path : String}
    (hclear : one.KeepsClear places path) (followLast : Bool) :
    LooksAlike one other path followLast := by
  have hpasses : ∀ (passes : Nat) (current : String), one.Reaches path current →
      (one.lookupWithin followLast passes current = none
          ∧ other.lookupWithin followLast passes current = none)
        ∨ ∃ entity found way way',
          one.lookupWithin followLast passes current = some (entity, way)
          ∧ other.lookupWithin followLast passes current = some (found, way')
          ∧ found.top = entity.top := by
    intro passes
    induction passes with
    | zero => exact fun _ _ => Or.inl ⟨rfl, rfl⟩
    | succ passes ih =>
      intro current hcurrent
      rcases h.walk_cases (hclear current hcurrent) followLast with
        ⟨entity, found, way, way', _, _, htop, hwalk, hwalk'⟩ | ⟨next, hwalk, hwalk'⟩
          | ⟨hwalk, hwalk'⟩
      · refine Or.inr ⟨entity, found, way, way', ?_, ?_, htop⟩
        · rw [lookupWithin, hwalk]
        · rw [lookupWithin, hwalk']
      · rw [lookupWithin, hwalk, lookupWithin, hwalk']
        exact ih next (hcurrent.tail ⟨followLast, hwalk⟩)
      · exact Or.inl ⟨by rw [lookupWithin, hwalk], by rw [lookupWithin, hwalk']⟩
  exact hpasses passLimit path .refl

theorem readText_eq (h : SameOutside places one other) {path : String}
    (hclear : one.KeepsClear places path) : other.readText path = one.readText path :=
  (h.looksAlike hclear true).readText_eq

end SameOutside

namespace AgreeOutside

variable {places : List (List String)} {one other : FileTree}

theorem refl (hcase : one.caseSensitive = true)
    (hclosed : ∀ place ∈ places, ¬ one.HasFolder place) : AgreeOutside places one one where
  workingDir := rfl
  sensitive := ⟨hcase, hcase⟩
  closed place hplace := ⟨hclosed place hplace, hclosed place hplace⟩
  elsewhere _ _ := rfl
  listed _ _ _ hone hother := by
    rw [hone] at hother
    cases hother
    rfl
  links _ _ h := h

/-- Folders have only folders above them, so they are clear of closed places. -/
theorem clear_of_hasFolder (hclosed : ∀ place ∈ places, ¬ one.HasFolder place)
    {names : List String} (hfolder : one.HasFolder names) : Clear places names := by
  rintro place hplace ⟨rest, rfl⟩
  obtain ⟨entries, hentries⟩ := hfolder
  by_cases hrest : rest = []
  · subst hrest
    rw [List.append_nil] at hentries
    exact hclosed place hplace ⟨entries, hentries⟩
  · exact hclosed place hplace (Folder.exists_folder_above hrest hentries)

theorem trans {third : FileTree} (h : AgreeOutside places one other)
    (h' : AgreeOutside places other third) : AgreeOutside places one third where
  sensitive := ⟨h.sensitive.1, h'.sensitive.2⟩
  workingDir := h'.workingDir.trans h.workingDir
  closed place hplace := ⟨(h.closed place hplace).1, (h'.closed place hplace).2⟩
  elsewhere names hclear := (h'.elsewhere names hclear).trans (h.elsewhere names hclear)
  listed names entries others hone hthird := by
    have hclear : Clear places names :=
      clear_of_hasFolder (fun place hplace => (h.closed place hplace).1) ⟨entries, hone⟩
    obtain ⟨middle, hmiddle⟩ := (h.hasFolder_iff hclear).mpr ⟨entries, hone⟩
    exact (h'.listed names middle others hmiddle hthird).trans
      (h.listed names entries middle hone hmiddle)
  links names target hlink := h.links names target (h'.links names target hlink)

end AgreeOutside

end FileTree

end PackageOrder
