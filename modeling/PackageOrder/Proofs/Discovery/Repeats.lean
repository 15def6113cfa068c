/-
PackageOrder.Proofs.Discovery.Repeats — the entry-points that a walk reports twice.

The path of a script without its ending may be that of a folder beside it. So an
entry-point in a package is found twice where both are there, and a folder of installed
packages is so if it is a package of its own. Otherwise what a walk finds at each name
lies apart from what it finds at the others (`walkAll_nodup_iff`).
-/
import Mathlib.Data.List.Nodup
import Mathlib.Data.List.Pairwise
import PackageOrder.Proofs.Discovery.Links

namespace PackageOrder

open PackageOrder.Text
open PackageOrder.Path (Plain)
open PackageOrder.FileTree (namesOf pathOf Spelled)

/-- What comes of some values has no value twice if that of each has none, and those of any
two differ. -/
theorem nodup_map_flatMap {α β γ : Type} {items : List α} {entries : α → List β} {key : β → γ} :
    ((items.flatMap entries).map key).Nodup
      ↔ (∀ item ∈ items, ((entries item).map key).Nodup)
        ∧ items.Pairwise fun one other =>
          ∀ entry ∈ entries one, ∀ entry' ∈ entries other, key entry ≠ key entry' := by
  rw [List.map_flatMap, List.nodup_flatMap]
  refine and_congr_right fun _ => ?_
  have hrel : (Function.onFun List.Disjoint fun item => (entries item).map key)
      = fun one other => ∀ entry ∈ entries one, ∀ entry' ∈ entries other,
          key entry ≠ key entry' := by
    funext one other
    refine propext ⟨fun h entry hentry entry' hentry' heq => ?_, fun h value hone hother => ?_⟩
    · exact h (List.mem_map_of_mem hentry) (heq ▸ List.mem_map_of_mem hentry')
    · obtain ⟨entry, hentry, rfl⟩ := List.mem_map.mp hone
      obtain ⟨entry', hentry', heq⟩ := List.mem_map.mp hother
      exact h entry hentry entry' hentry' heq.symm
  rw [hrel]

theorem key_ne_of_nodup_map_flatMap {α β γ : Type} {items : List α} {entries : α → List β}
    {key : β → γ} (h : ((items.flatMap entries).map key).Nodup) {one other : α} (hone : one ∈ items)
    (hother : other ∈ items) (hne : one ≠ other) {entry entry' : β} (hentry : entry ∈ entries one)
    (hentry' : entry' ∈ entries other) : key entry ≠ key entry' := by
  have hsymm : Std.Symm fun one other => ∀ entry ∈ entries one, ∀ entry' ∈ entries other,
      key entry ≠ key entry' :=
    ⟨fun _ _ h entry hentry entry' hentry' heq => h entry' hentry' entry hentry heq.symm⟩
  exact (nodup_map_flatMap.mp h).2.forall hone hother hne entry hentry entry' hentry'

namespace FileTree

variable {tree : FileTree}

/-- A folder at a path and a script of its name beside it are both looked at. -/
def BesideScript (tree : FileTree) (path : String) : Prop :=
  ∃ front name, namesOf path = front ++ [name] ∧ isIgnorableName name = false
    ∧ name ∈ tree.namesIn (pathOf front) ∧ name ++ ".js" ∈ tree.namesIn (pathOf front)
    ∧ tree.linkStat path = .ok .folder ∧ tree.linkStat (path ++ ".js") = .ok .file

section Package

variable {look : String → Option EntryPoint} {folder name other : String}
  {entryPoint entryPoint' : EntryPoint} {depth : Nat}

theorem isIgnorableName_script (hname : isIgnorableName name = false) (hne : name.toList ≠ []) :
    isIgnorableName (name ++ ".js") = false := by
  have hends : ∀ text : String, (dropTail? ".js".toList text.toList).isSome = false →
      (name ++ ".js" == text) = false := by
    intro text htext
    rw [beq_eq_false_iff_ne]
    rintro rfl
    rw [String.toList_append, dropTail?_append] at htext
    cases htext
  have hhead : (name ++ ".js").toList.head? = name.toList.head? := by
    rw [String.toList_append, List.head?_append_of_ne_nil _ hne]
  rw [isIgnorableName, Bool.or_eq_false_iff, Bool.or_eq_false_iff] at hname ⊢
  rw [hhead]
  exact ⟨⟨hname.1.1, hends _ (by decide)⟩, hends _ (by decide)⟩

/-- What is found at a name in a folder of a package lies at the name or below it, or has
that of a script for its name. -/
theorem path_of_mem_nameEntries (htidy : tree.Tidy)
    (hlook : ∀ path entryPoint, look path = some entryPoint → entryPoint.path = path)
    (hnormal : Normal folder) (hspelled : Spelled (namesOf folder ++ [name]))
    (hlooked : isIgnorableName name = false)
    (h : entryPoint ∈ tree.nameEntries look (tree.packageEntries look depth) folder name) :
    (∃ stem, name = stem ++ ".js" ∧ namesOf entryPoint.path = namesOf folder ++ [stem]
        ∧ tree.linkStat (entryPoint.path ++ ".js") = .ok .file)
      ∨ tree.linkStat (pathOf (namesOf folder ++ [name])) = .ok .folder
        ∧ ∃ ways, entryPoint.path = pathOf (namesOf folder ++ name :: ways)
          ∧ namesOf entryPoint.path = namesOf folder ++ name :: ways := by
  rcases nameEntries_cases hnormal hspelled hlooked h with
    ⟨stem, rfl, hstem, hfile, hseen⟩ | ⟨hkind, hseen | ⟨hbelow, _⟩⟩
  · have hpath := hlook _ _ hseen
    exact Or.inl ⟨stem, rfl, by rw [hpath, namesOf_pathOf hstem.plain], hpath ▸ hfile⟩
  · have hpath := hlook _ _ hseen
    exact Or.inr ⟨hkind, [], hpath, by rw [hpath, namesOf_pathOf hspelled.plain]⟩
  · have hinner : Normal (pathOf (namesOf folder ++ [name])) := ⟨_, hspelled, rfl⟩
    obtain ⟨next, ways, hways, hpath, _⟩ := exists_way_of_mem_packageEntries htidy hlook hinner hbelow
    rw [namesOf_pathOf hspelled.plain, ← List.append_cons] at hways hpath
    exact Or.inr ⟨hkind, next :: ways, hpath, by rw [hpath, namesOf_pathOf hways.plain]⟩

/-- What is found at two names has the same path only where one is that of a script beside
a folder with the other. -/
theorem besideScript_of_path_eq (htidy : tree.Tidy)
    (hlook : ∀ path entryPoint, look path = some entryPoint → entryPoint.path = path)
    (hnormal : Normal folder) (hname : name ∈ tree.namesIn folder)
    (hlooked : isIgnorableName name = false) (hother : other ∈ tree.namesIn folder)
    (hlooked' : isIgnorableName other = false) (hne : name ≠ other)
    (h : entryPoint ∈ tree.nameEntries look (tree.packageEntries look depth) folder name)
    (h' : entryPoint' ∈ tree.nameEntries look (tree.packageEntries look depth) folder other)
    (hpath : entryPoint.path = entryPoint'.path) : tree.BesideScript entryPoint.path := by
  have hfolder : pathOf (namesOf folder) = folder := hnormal.eq_pathOf.symm
  -- a folder and a script, in one order or the other
  have hbeside : ∀ one script, one ∈ tree.namesIn folder → isIgnorableName one = false →
      script ++ ".js" ∈ tree.namesIn folder →
      tree.linkStat (pathOf (namesOf folder ++ [one])) = .ok .folder →
      (∃ ways, entryPoint.path = pathOf (namesOf folder ++ one :: ways)
        ∧ namesOf entryPoint.path = namesOf folder ++ one :: ways) →
      namesOf entryPoint.path = namesOf folder ++ [script] →
      tree.linkStat (entryPoint.path ++ ".js") = .ok .file → tree.BesideScript entryPoint.path := by
    rintro one script hone hlooked hscript hkind ⟨ways, hways, hnames⟩ hstem hfile
    obtain ⟨rfl, rfl⟩ := List.cons.inj (List.append_cancel_left (hnames.symm.trans hstem))
    exact ⟨namesOf folder, one, hnames, hlooked, hfolder.symm ▸ hone, hfolder.symm ▸ hscript,
      hways ▸ hkind, hfile⟩
  rcases path_of_mem_nameEntries htidy hlook hnormal (htidy.spelled hnormal hname) hlooked h with
    ⟨stem, rfl, hstem, hfile⟩ | ⟨hkind, hways⟩ <;>
  rcases path_of_mem_nameEntries htidy hlook hnormal (htidy.spelled hnormal hother) hlooked' h' with
    ⟨stem', rfl, hstem', hfile'⟩ | ⟨hkind', hways'⟩ <;> rw [← hpath] at *
  · rw [hstem] at hstem'
    obtain ⟨rfl, _⟩ := List.cons.inj (List.append_cancel_left hstem')
    exact absurd rfl hne
  · exact hbeside other stem hother hlooked' hname hkind' hways' hstem hfile
  · exact hbeside name stem' hname hlooked hother hkind hways hstem' hfile'
  · obtain ⟨ways, _, hnames⟩ := hways
    obtain ⟨ways', _, hnames'⟩ := hways'
    rw [hnames] at hnames'
    exact absurd (List.cons.inj (List.append_cancel_left hnames')).1 hne

/-- What is found at one name differs if what is below its folder does. -/
theorem nodup_nameEntries {below : String → List EntryPoint}
    (hlook : ∀ path entryPoint, look path = some entryPoint → entryPoint.path = path)
    (hbelow : ∀ path, path = tree.resolve [folder, name] →
      tree.nameEntries look below folder name = (look path).toList ++ below path →
      ((below path).map (·.path)).Nodup ∧ ∀ entry ∈ below path, entry.path ≠ path) :
    ((tree.nameEntries look below folder name).map (·.path)).Nodup := by
  have hone : ∀ path, ((look path).toList.map (·.path)).Nodup := by
    intro path
    cases look path with
    | none => exact List.nodup_nil
    | some entry => exact List.nodup_singleton _
  cases hkind : tree.linkStat (tree.resolve [folder, name]) with
  | error =>
    rw [nameEntries_of_error rfl hkind]
    exact List.nodup_nil
  | ok kind =>
    cases kind with
    | link =>
      rw [nameEntries_of_link rfl hkind]
      exact List.nodup_nil
    | file =>
      rw [nameEntries_of_file rfl hkind]
      split
      · exact hone _
      · exact List.nodup_nil
    | folder =>
      rw [nameEntries_of_folder rfl hkind] at hbelow ⊢
      split
      · exact hone _
      · rename_i hcode
        obtain ⟨hnodup, hapart⟩ := hbelow _ rfl (if_neg hcode)
        rw [List.map_append, List.nodup_append]
        refine ⟨hone _, hnodup, ?_⟩
        intro one hone' other hother heq
        obtain ⟨entry, hentry, rfl⟩ := List.mem_map.mp hone'
        obtain ⟨entry', hentry', rfl⟩ := List.mem_map.mp hother
        exact hapart entry' hentry' (heq ▸ hlook _ _ (Option.mem_toList.mp hentry))

/-- **In a package nothing is found twice but what stands beside a script of its name.** -/
theorem nodup_packageEntries (htidy : tree.Tidy)
    (hlook : ∀ path entryPoint, look path = some entryPoint → entryPoint.path = path)
    (hnormal : Normal folder)
    (h : ∀ entry ∈ tree.packageEntries look depth folder, ¬ tree.BesideScript entry.path) :
    ((tree.packageEntries look depth folder).map (·.path)).Nodup := by
  induction depth generalizing folder with
  | zero => exact List.nodup_nil
  | succ depth ih =>
    rw [packageEntries] at h ⊢
    refine nodup_map_flatMap.mpr ⟨fun name hname => ?_, ?_⟩
    · have hspelled := htidy.spelled hnormal (List.mem_filter.mp hname).1
      refine nodup_nameEntries hlook fun path hpath heq => ?_
      rw [hnormal.resolve_name hspelled] at hpath
      have hinner : Normal path := hpath ▸ ⟨_, hspelled, rfl⟩
      constructor
      · refine ih hinner fun entry hentry => h entry ?_
        exact List.mem_flatMap.mpr ⟨name, hname, heq ▸ List.mem_append_right _ hentry⟩
      · intro entry hentry hsame
        obtain ⟨next, ways, hways, hbelow, _⟩ :=
          exists_way_of_mem_packageEntries htidy hlook hinner hentry
        have hnames : namesOf path = namesOf path ++ next :: ways := by
          conv_lhs => rw [← hsame, hbelow, namesOf_pathOf hways.plain]
        exact List.cons_ne_nil next ways (List.self_eq_append_right.mp hnames)
    · refine ((htidy.nodup_namesIn folder).filter _).imp_of_mem ?_
      intro name other hname hother hne entry hentry entry' hentry' hpath
      obtain ⟨hname, hlooked⟩ := List.mem_filter.mp hname
      obtain ⟨hother, hlooked'⟩ := List.mem_filter.mp hother
      refine h entry (List.mem_flatMap.mpr ⟨name, List.mem_filter.mpr ⟨hname, hlooked⟩, hentry⟩) ?_
      exact besideScript_of_path_eq htidy hlook hnormal hname (by simpa using hlooked) hother
        (by simpa using hlooked') hne hentry hentry' hpath

/-- What stands beside a script of its name is found twice. -/
theorem not_nodup_packageEntries (htidy : tree.Tidy)
    (hlook : ∀ path entryPoint, look path = some entryPoint → entryPoint.path = path)
    (hnormal : Normal folder) (h : entryPoint ∈ tree.packageEntries look depth folder)
    (hbeside : tree.BesideScript entryPoint.path) :
    ¬ ((tree.packageEntries look depth folder).map (·.path)).Nodup := by
  induction depth generalizing folder with
  | zero => cases h
  | succ depth ih =>
    rw [packageEntries] at h ⊢
    obtain ⟨name, hname, h⟩ := List.mem_flatMap.mp h
    have hspelled := htidy.spelled hnormal (List.mem_filter.mp hname).1
    intro hnodup
    -- a folder and a script in this very folder
    have hhere : ∀ last, Spelled (namesOf folder ++ [last]) →
        look (pathOf (namesOf folder ++ [last])) = some entryPoint → False := by
      intro last hlast hseen
      have hpath := hlook _ _ hseen
      obtain ⟨front, inner, hnames, hlooked, hfolder, hscript, hkind, hfile⟩ := hbeside
      rw [hpath, namesOf_pathOf hlast.plain] at hnames
      obtain ⟨rfl, hinner⟩ := List.append_inj' hnames rfl
      obtain rfl := (List.cons.inj hinner).1
      rw [← hnormal.eq_pathOf] at hfolder hscript
      rw [hpath] at hkind hfile
      have hne := (hlast.plain last (List.mem_append_right _ (List.mem_singleton_self _))).ne_nil
      refine key_ne_of_nodup_map_flatMap hnodup (List.mem_filter.mpr ⟨hfolder, by simpa using hlooked⟩)
        (List.mem_filter.mpr ⟨hscript, by simpa using isIgnorableName_script hlooked hne⟩) ?_
        (mem_nameEntries_of_folder hnormal hlast hkind hseen)
        (mem_nameEntries_of_script hnormal (htidy.spelled hnormal hscript) hfile hseen) rfl
      intro heq
      have hlength := congrArg (fun name => name.toList.length) heq
      simp at hlength
    rcases nameEntries_cases hnormal hspelled (by simpa using (List.mem_filter.mp hname).2) h with
      ⟨stem, rfl, hstem, _, hseen⟩ | ⟨_, hseen | ⟨hbelow, heq⟩⟩
    · exact hhere stem hstem hseen
    · exact hhere name hspelled hseen
    · have hinner : Normal (pathOf (namesOf folder ++ [name])) := ⟨_, hspelled, rfl⟩
      refine ih hinner hbelow ?_
      have hat := (nodup_map_flatMap.mp hnodup).1 name hname
      rw [heq, List.map_append] at hat
      exact (List.nodup_append.mp hat).2.1

end Package

section Folder

variable {look : String → String → Inspection} {folder : String} {entryPoint : EntryPoint}
  {depth : Nat} {found : List EntryPoint}

/-- An entry-point in a package is found as what stands beside a script of its name, or as
the folder of what is installed, and there once more as a package of its own. -/
def FoundTwice (tree : FileTree) (found : List EntryPoint) (entryPoint : EntryPoint) : Prop :=
  entryPoint.packagePath ≠ entryPoint.path
    ∧ (tree.BesideScript entryPoint.path
      ∨ namesOf entryPoint.path = namesOf entryPoint.packagePath ++ ["node_modules"]
        ∧ tree.linkStat (entryPoint.path ++ ".js") = .ok .file
        ∧ ∃ other ∈ found, other.path = entryPoint.path ∧ other.packagePath = other.path)

variable (htidy : tree.Tidy)
  (hlook : ∀ package path entryPoint, (look package path).entryPoint? = some entryPoint →
    entryPoint.path = path ∧ entryPoint.packagePath = package)
  (hnormal : Normal folder)
include htidy hlook hnormal

theorem path_ne_of_mem_packageEntries
    (h : entryPoint ∈ tree.packageEntries (fun path => (look folder path).entryPoint?) depth folder) :
    entryPoint.packagePath = folder ∧ entryPoint.path ≠ folder := by
  obtain ⟨name, ways, hways, hpath, hseen, _⟩ := exists_way_of_mem_packageEntries htidy
    (fun path entryPoint h => (hlook folder path entryPoint h).1) hnormal h
  refine ⟨(hlook _ _ _ hseen).2, fun heq => ?_⟩
  have hnames : namesOf folder = namesOf folder ++ name :: ways := by
    conv_lhs => rw [← heq, hpath, namesOf_pathOf hways.plain]
  exact List.cons_ne_nil name ways (List.self_eq_append_right.mp hnames)

theorem nodup_ownEntries
    (h : ∀ entry ∈ tree.ownEntries look depth folder, entry.packagePath ≠ entry.path →
      ¬ tree.BesideScript entry.path) :
    ((tree.ownEntries look depth folder).map (·.path)).Nodup := by
  rw [ownEntries] at h ⊢
  rw [List.map_append, List.nodup_append]
  refine ⟨?_, ?_, ?_⟩
  · cases (look folder folder).entryPoint? with
    | none => exact List.nodup_nil
    | some entry => exact List.nodup_singleton _
  · refine nodup_packageEntries htidy (fun path entryPoint h => (hlook folder path entryPoint h).1)
      hnormal fun entry hentry => h entry (List.mem_append_right _ hentry) ?_
    obtain ⟨hpackage, hne⟩ := path_ne_of_mem_packageEntries htidy hlook hnormal hentry
    exact hpackage ▸ hne.symm
  · intro one hone other hother heq
    obtain ⟨entry, hentry, rfl⟩ := List.mem_map.mp hone
    obtain ⟨entry', hentry', rfl⟩ := List.mem_map.mp hother
    exact (path_ne_of_mem_packageEntries htidy hlook hnormal hentry').2
      (heq ▸ (hlook _ _ _ (Option.mem_toList.mp hentry)).1)

omit hnormal in
/-- What is found in something below a folder has its name on the path. -/
theorem exists_names_of_mem_folderEntries {name : String}
    (hspelled : Spelled (namesOf folder ++ [name]))
    (h : entryPoint ∈ tree.folderEntries look depth (pathOf (namesOf folder ++ [name]))) :
    ∃ ways, entryPoint.path = pathOf (namesOf folder ++ name :: ways)
      ∧ namesOf entryPoint.path = namesOf folder ++ name :: ways := by
  obtain ⟨ways, hways⟩ := exists_within_of_mem_folderEntries htidy hlook ⟨_, hspelled, rfl⟩ h
  have hpath := hways.path_eq
  have hplain := hways.spelled.plain
  rw [namesOf_pathOf hspelled.plain, ← List.append_cons] at hpath hplain
  exact ⟨ways, hpath, hpath ▸ namesOf_pathOf hplain⟩

/-- What is found at a folder itself is a package of its own. -/
theorem packagePath_of_mem_folderEntries (h : entryPoint ∈ tree.folderEntries look depth folder)
    (hpath : entryPoint.path = folder) : entryPoint.packagePath = entryPoint.path := by
  have hbelow : ∀ name, Spelled (namesOf folder ++ [name]) → ∀ depth,
      entryPoint ∉ tree.folderEntries look depth (pathOf (namesOf folder ++ [name])) := by
    intro name hspelled depth hmem
    obtain ⟨ways, _, hnames⟩ := exists_names_of_mem_folderEntries htidy hlook hspelled hmem
    rw [hpath] at hnames
    exact List.cons_ne_nil name ways (List.self_eq_append_right.mp hnames)
  cases depth with
  | zero => cases h
  | succ depth =>
    have hown : entryPoint ∈ tree.ownEntries look (depth + 1) folder →
        entryPoint.packagePath = entryPoint.path := fun hmem =>
      (exists_within_of_mem_ownEntries htidy hlook hnormal hmem []).1.trans hpath.symm
    rcases tree.folderEntries_cases look depth folder with
      heq | heq | heq | ⟨_, heq⟩ <;> rw [heq] at h
    · cases h
    · obtain ⟨name, hname, h⟩ := List.mem_flatMap.mp h
      have hspelled := htidy.spelled hnormal (List.mem_filter.mp hname).1
      exact absurd (mem_folderEntriesAt hnormal hspelled h).2 (hbelow name hspelled depth)
    · exact hown h
    · rcases List.mem_append.mp h with h | h
      · exact hown h
      · have hspelled := spelled_installed hnormal
        rw [hnormal.resolve_name hspelled] at h
        exact absurd h (hbelow _ hspelled depth)

/-- What a package holds has the path of something installed in it only if it stands beside
a script of that folder's name. -/
theorem names_of_installed (h : entryPoint ∈ tree.ownEntries look (depth + 1) folder)
    {ways : List String} (hnames : namesOf entryPoint.path = namesOf folder ++ "node_modules" :: ways) :
    ways = [] ∧ entryPoint.packagePath ≠ entryPoint.path
      ∧ tree.linkStat (entryPoint.path ++ ".js") = .ok .file := by
  rw [ownEntries] at h
  rcases List.mem_append.mp h with h | h
  · rw [(hlook _ _ _ (Option.mem_toList.mp h)).1] at hnames
    exact absurd (List.self_eq_append_right.mp hnames) (List.cons_ne_nil _ _)
  · obtain ⟨hpackage, hne⟩ := path_ne_of_mem_packageEntries htidy hlook hnormal h
    rw [packageEntries] at h
    obtain ⟨name, hname, h⟩ := List.mem_flatMap.mp h
    obtain ⟨hname, hlooked⟩ := List.mem_filter.mp hname
    have hlooked' : isIgnorableName name = false := by simpa using hlooked
    rcases path_of_mem_nameEntries htidy (fun path entryPoint h => (hlook folder path entryPoint h).1)
        hnormal (htidy.spelled hnormal hname) hlooked' h with
      ⟨stem, _, hstem, hfile⟩ | ⟨_, more, _, hmore⟩
    · rw [hnames] at hstem
      exact ⟨(List.cons.inj (List.append_cancel_left hstem)).2, hpackage ▸ hne.symm, hfile⟩
    · rw [hnames] at hmore
      obtain rfl := (List.cons.inj (List.append_cancel_left hmore)).1
      exact absurd hlooked' (by decide)

/-- **Nothing is found twice but what the two ways of naming a folder say.** -/
theorem nodup_folderEntries (hsub : tree.folderEntries look depth folder ⊆ found)
    (h : ∀ entry ∈ tree.folderEntries look depth folder, ¬ tree.FoundTwice found entry) :
    ((tree.folderEntries look depth folder).map (·.path)).Nodup := by
  induction depth generalizing folder with
  | zero => exact List.nodup_nil
  | succ depth ih =>
    have hown : tree.ownEntries look (depth + 1) folder ⊆ tree.folderEntries look (depth + 1) folder →
        ((tree.ownEntries look (depth + 1) folder).map (·.path)).Nodup := fun hmem =>
      nodup_ownEntries htidy hlook hnormal fun entry hentry hne hbeside =>
        h entry (hmem hentry) ⟨hne, Or.inl hbeside⟩
    rcases tree.folderEntries_cases look depth folder with
      heq | heq | heq | ⟨_, heq⟩ <;> rw [heq] at h hsub hown ⊢
    · exact List.nodup_nil
    · refine nodup_map_flatMap.mpr ⟨fun name hname => ?_, ?_⟩
      · have hspelled := htidy.spelled hnormal (List.mem_filter.mp hname).1
        have hinner : Normal (pathOf (namesOf folder ++ [name])) := ⟨_, hspelled, rfl⟩
        have hat : tree.folderEntriesAt (tree.folderEntries look depth) folder name
            ⊆ (List.filter (!isIgnorableName ·) (tree.namesIn folder)).flatMap
              (tree.folderEntriesAt (tree.folderEntries look depth) folder) :=
          fun entry hentry => List.mem_flatMap.mpr ⟨name, hname, hentry⟩
        have hpath := (hnormal.resolve_name hspelled tree).symm
        by_cases hkind : tree.linkStat (pathOf (namesOf folder ++ [name])) = .ok .folder
        · rw [folderEntriesAt_of_folder hpath hkind] at hat ⊢
          exact ih hinner (List.Subset.trans hat hsub) fun entry hentry => h entry (hat hentry)
        · rw [folderEntriesAt_of_not_folder hpath hkind]
          exact List.nodup_nil
      · refine ((htidy.nodup_namesIn folder).filter _).imp_of_mem ?_
        intro name other hname hother hne entry hentry entry' hentry' hpath
        -- entries of two names stand below different folders
        have hnames : ∀ name ∈ List.filter (!isIgnorableName ·) (tree.namesIn folder), ∀ entry ∈
            tree.folderEntriesAt (tree.folderEntries look depth) folder name,
            ∃ ways, namesOf entry.path = namesOf folder ++ name :: ways := by
          intro name hname entry hentry
          have hspelled := htidy.spelled hnormal (List.mem_filter.mp hname).1
          obtain ⟨ways, _, hnames⟩ := exists_names_of_mem_folderEntries htidy hlook hspelled
            (mem_folderEntriesAt hnormal hspelled hentry).2
          exact ⟨ways, hnames⟩
        obtain ⟨ways, hways⟩ := hnames name hname entry hentry
        obtain ⟨ways', hways'⟩ := hnames other hother entry' hentry'
        rw [← hpath, hways] at hways'
        exact hne (List.cons.inj (List.append_cancel_left hways')).1
    · exact hown (List.Subset.refl _)
    · have hspelled := spelled_installed hnormal
      rw [hnormal.resolve_name hspelled] at h hsub hown ⊢
      have hinner : Normal (pathOf (namesOf folder ++ ["node_modules"])) := ⟨_, hspelled, rfl⟩
      rw [List.map_append, List.nodup_append]
      refine ⟨hown (List.subset_append_left _ _), ?_, ?_⟩
      · exact ih hinner (fun entry hentry => hsub (List.mem_append_right _ hentry))
          fun entry hentry => h entry (List.mem_append_right _ hentry)
      · intro one hone other hother heq
        obtain ⟨entry, hentry, rfl⟩ := List.mem_map.mp hone
        obtain ⟨entry', hentry', rfl⟩ := List.mem_map.mp hother
        -- a path that is found both ways is that of the installed folder, beside its script
        obtain ⟨ways, hpath, hnames⟩ :=
          exists_names_of_mem_folderEntries htidy hlook hspelled hentry'
        obtain ⟨rfl, hne, hfile⟩ := names_of_installed htidy hlook hnormal hentry (heq ▸ hnames)
        have hpackage := (exists_within_of_mem_ownEntries htidy hlook hnormal hentry []).1
        refine h entry (List.mem_append_left _ hentry) ⟨hne, Or.inr ⟨?_, hfile, entry', ?_⟩⟩
        · rw [heq, hnames, hpackage]
        · exact ⟨hsub (List.mem_append_right _ hentry'), heq.symm,
            packagePath_of_mem_folderEntries htidy hlook hinner hentry' hpath⟩

/-- What stands beside a script of its name is found twice in its package. -/
theorem not_nodup_folderEntries (h : entryPoint ∈ tree.folderEntries look depth folder)
    (hne : entryPoint.packagePath ≠ entryPoint.path) (hbeside : tree.BesideScript entryPoint.path) :
    ¬ ((tree.folderEntries look depth folder).map (·.path)).Nodup := by
  induction depth generalizing folder with
  | zero => cases h
  | succ depth ih =>
    intro hnodup
    have hown : entryPoint ∈ tree.ownEntries look (depth + 1) folder →
        ¬ ((tree.ownEntries look (depth + 1) folder).map (·.path)).Nodup := by
      intro hmem hnodup
      rw [ownEntries] at hmem hnodup
      rcases List.mem_append.mp hmem with hmem | hmem
      · obtain ⟨hpath, hpackage⟩ := hlook _ _ _ (Option.mem_toList.mp hmem)
        exact hne (hpackage.trans hpath.symm)
      · rw [List.map_append] at hnodup
        exact not_nodup_packageEntries htidy
          (fun path entryPoint h => (hlook folder path entryPoint h).1) hnormal hmem hbeside
          (List.nodup_append.mp hnodup).2.1
    rcases tree.folderEntries_cases look depth folder with
      heq | heq | heq | ⟨_, heq⟩ <;> rw [heq] at h hnodup
    · cases h
    · obtain ⟨name, hname, h⟩ := List.mem_flatMap.mp h
      have hspelled := htidy.spelled hnormal (List.mem_filter.mp hname).1
      have hinner : Normal (pathOf (namesOf folder ++ [name])) := ⟨_, hspelled, rfl⟩
      obtain ⟨hkind, h⟩ := mem_folderEntriesAt hnormal hspelled h
      refine ih hinner h ?_
      have hat := (nodup_map_flatMap.mp hnodup).1 name hname
      rw [folderEntriesAt_of_folder (hnormal.resolve_name hspelled tree).symm hkind] at hat
      exact hat
    · exact hown h hnodup
    · rw [List.map_append, List.nodup_append] at hnodup
      rcases List.mem_append.mp h with h | h
      · exact hown h hnodup.1
      · have hspelled := spelled_installed hnormal
        rw [hnormal.resolve_name hspelled] at h hnodup
        have hinner : Normal (pathOf (namesOf folder ++ ["node_modules"])) := ⟨_, hspelled, rfl⟩
        exact ih hinner h hnodup.2.1

end Folder

end FileTree

/-- **A walk reports each entry-point once, unless one in a package stands beside a script
of its name, or is the folder of what is installed there and a package of its own.** -/
theorem walkAll_nodup_iff {configuration : Configuration} {base : String} {session after : Session}
    {found : List EntryPoint} (htidy : session.tree.Tidy) (hbase : Normal base)
    (h : (walkAll configuration base).runFrom session = (.ok found, after)) :
    (found.map (·.path)).Nodup
      ↔ ∀ entryPoint ∈ found, ¬ session.tree.FoundTwice found entryPoint := by
  have hlook : ∀ package path entryPoint,
      (seen configuration after package path).entryPoint? = some entryPoint →
        entryPoint.path = path ∧ entryPoint.packagePath = package :=
    fun package path entryPoint => path_of_seen
  have hfound := eq_folderEntries_of_walkAll h
  constructor
  · rintro hnodup entryPoint hmem ⟨hne, hbeside | ⟨_, _, other, hother, hpath, hpackage⟩⟩
    · rw [hfound] at hmem hnodup
      exact FileTree.not_nodup_folderEntries htidy hlook hbase hmem hne hbeside hnodup
    · obtain rfl := List.inj_on_of_nodup_map hnodup hother hmem hpath
      exact hne hpackage
  · intro hnone
    rw [hfound] at hnone ⊢
    exact FileTree.nodup_folderEntries htidy hlook hbase (List.Subset.refl _) hnone

/-- A package with an entry-point in a folder, and a script. -/
def scriptedTree (script : String) : FileTree where
  root := [("node_modules", .folder [("a", compiledPackage
    [("kit", compiledPackage []), (script, .file .empty)])])]

/-- A script of another name beside a folder. -/
theorem walkAll_nodup_iff_other :
    let session : Session := { tree := scriptedTree "lib.js" }
    session.tree.Tidy ∧ Normal "/node_modules"
      ∧ ∃ found after, (walkAll ⟨[], ""⟩ "/node_modules").runFrom session = (.ok found, after)
        ∧ found.map (·.path) = ["/node_modules/a", "/node_modules/a/kit"]
        ∧ ((found.map (·.path)).Nodup
          ↔ ∀ entryPoint ∈ found, ¬ session.tree.FoundTwice found entryPoint) := by
  intro session
  have hcheck : session.tree.check = true := by decide +kernel
  have htidy := (FileTree.wellFormed_of_check hcheck).1.tidy
  have hbase : Normal "/node_modules" := ⟨["node_modules"], by decide, by decide⟩
  have hfound : ((walkAll ⟨[], ""⟩ "/node_modules").runFrom session).1.toOption.map
      (fun found => found.map (·.path)) = some ["/node_modules/a", "/node_modules/a/kit"] := by
    decide +kernel
  rcases hrun : (walkAll ⟨[], ""⟩ "/node_modules").runFrom session with
    ⟨failure | found, after⟩
  · rw [hrun] at hfound
    cases hfound
  · rw [hrun] at hfound
    exact ⟨htidy, hbase, found, after, rfl, Option.some.inj hfound,
      walkAll_nodup_iff htidy hbase hrun⟩

/-- **An entry-point in a folder beside a script of its name is reported twice.** -/
theorem walkAll_repeats :
    let session : Session := { tree := scriptedTree "kit.js" }
    ((walkAll ⟨[], ""⟩ "/node_modules").runFrom session).1.toOption.map
        (fun found => found.map (·.path))
      = some ["/node_modules/a", "/node_modules/a/kit", "/node_modules/a/kit"] := by
  decide +kernel

end PackageOrder
