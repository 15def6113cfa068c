/-
PackageOrder.Proofs.Discovery.Walk — what a walk finds.

A walk changes nothing but what is remembered of packages. So what it finds is told by the
tree and by what its paths are found to be in the session after it, or any later one
(`Run.Ensures`): the entry-points in a package are those at its names one after the other
(`FileTree.packageEntries`), and those under a folder are the ones of its package or of the
folders in it (`FileTree.folderEntries`). A walk that succeeds finds just them
(`eq_folderEntries_of_walkAll`).
-/
import PackageOrder.Discovery.Walk
import PackageOrder.Proofs.FileTree.Check
import PackageOrder.Proofs.FileTree.Tidy
import PackageOrder.Proofs.Session

namespace PackageOrder

open PackageOrder.Text
open PackageOrder.Path (Plain)
open PackageOrder.FileTree (namesOf pathOf Spelled)

/-! ## What steps ensure -/

namespace Run

variable {α β : Type}

/-- A step that settles, and of whose values something holds in every later session. -/
structure Ensures (step : Run α) (holds : Session → α → Prop) : Prop where
  settles : step.Settles
  holds : ∀ session value after, step.runFrom session = (.ok value, after) →
    ∀ last, after.Extends last → holds last value

theorem ensures_pure {holds : Session → α → Prop} {value : α} (h : ∀ last, holds last value) :
    Ensures (pure value : Run α) holds where
  settles := settles_pure value
  holds session other after hrun last _ := by
    cases hrun
    exact h last

theorem ensures_tree : Ensures Run.tree fun last tree => tree = last.tree where
  settles := reads_tree.settles
  holds session tree after hrun last hlast := by
    cases hrun
    exact hlast.tree.symm

theorem ensures_readWith (path : String) (operation : FileTree → Except FileError α) :
    Ensures (readWith path operation) fun last value => operation last.tree = .ok value where
  settles := (reads_readWith path operation).settles
  holds session value after hrun last hlast := by
    have hsession := (reads_readWith path operation).runFrom_snd session
    rw [hrun] at hsession
    unfold readWith at hrun
    obtain ⟨tree, middle, htree, hrun⟩ := runFrom_bind_eq_ok.mp hrun
    cases htree
    rw [hlast.tree, show after.tree = session.tree from congrArg Session.tree hsession]
    split at hrun <;> cases hrun
    assumption

/-- What the first step ensures may be used for the second. -/
theorem Ensures.bind {first : Run α} {next : α → Run β} {known : Session → α → Prop}
    {holds : Session → β → Prop} (hfirst : Ensures first known)
    (hnext : ∀ value, Ensures (next value) fun last found => known last value → holds last found) :
    Ensures (first >>= next) holds where
  settles := hfirst.settles.bind fun value => (hnext value).settles
  holds session found after hrun last hlast := by
    obtain ⟨value, middle, hvalue, hrun⟩ := runFrom_bind_eq_ok.mp hrun
    have hmiddle := (hnext value).settles.keeps middle
    rw [hrun] at hmiddle
    exact (hnext value).holds middle found after hrun last hlast
      (hfirst.holds session value middle hvalue last (hmiddle.trans hlast))

theorem Ensures.mono {step : Run α} {holds more : Session → α → Prop} (h : Ensures step holds)
    (himp : ∀ last value, holds last value → more last value) : Ensures step more :=
  ⟨h.settles, fun session value after hrun last hlast =>
    himp last value (h.holds session value after hrun last hlast)⟩

/-- Steps of which each ensures its value. -/
theorem ensures_mapM {step : α → Run β} (value : Session → α → β)
    (h : ∀ a, Ensures (step a) fun last found => found = value last a) (items : List α) :
    Ensures (items.mapM step) fun last found => found = items.map (value last) := by
  induction items with
  | nil =>
    rw [List.mapM_nil]
    exact ensures_pure fun _ => rfl
  | cons item rest ih =>
    rw [List.mapM_cons]
    refine (h item).bind fun found => ih.bind fun others => ensures_pure fun last => ?_
    rintro rfl rfl
    rfl

end Run

/-! ## What is found -/

/-- What a path in a package is found to be in a session. -/
def seen (configuration : Configuration) (session : Session) (packagePath path : String) :
    Inspection :=
  match ((inspect configuration packagePath path).runFrom session).1 with
  | .ok inspection => inspection
  | .error _ => .invalid

theorem ensures_inspect (configuration : Configuration) (packagePath path : String) :
    (inspect configuration packagePath path).Ensures fun last inspection =>
      seen configuration last packagePath path = inspection where
  settles := settles_inspect configuration packagePath path
  holds session inspection after hrun last hlast := by
    have hagain := (settles_inspect configuration packagePath path).again session inspection after
      hrun last hlast
    unfold seen
    rw [hagain]

namespace FileTree

variable (tree : FileTree)

/-- The entry-points at a name in a folder of a package, where some others are below the
folders in it. -/
def nameEntries (look : String → Option EntryPoint) (below : String → List EntryPoint)
    (folder name : String) : List EntryPoint :=
  let path := tree.resolve [folder, name]
  match tree.linkStat path with
  | .ok .file => if isScriptName name then (look (Path.withoutScriptEnding path)).toList else []
  | .ok .folder =>
    let own := (look path).toList
    if own.isEmpty && tree.holdsScripts path (tree.namesIn path) then own else own ++ below path
  | _ => []

section

variable {tree : FileTree} {look : String → Option EntryPoint} {below : String → List EntryPoint}
  {folder name path : String}

theorem nameEntries_of_link (hpath : path = tree.resolve [folder, name])
    (hkind : tree.linkStat path = .ok .link) : tree.nameEntries look below folder name = [] := by
  subst hpath
  unfold nameEntries
  simp only [hkind]

theorem nameEntries_of_file (hpath : path = tree.resolve [folder, name])
    (hkind : tree.linkStat path = .ok .file) :
    tree.nameEntries look below folder name
      = if isScriptName name then (look (Path.withoutScriptEnding path)).toList else [] := by
  subst hpath
  unfold nameEntries
  simp only [hkind]

theorem nameEntries_of_folder (hpath : path = tree.resolve [folder, name])
    (hkind : tree.linkStat path = .ok .folder) :
    tree.nameEntries look below folder name
      = if (look path).toList.isEmpty && tree.holdsScripts path (tree.namesIn path)
        then (look path).toList else (look path).toList ++ below path := by
  subst hpath
  unfold nameEntries
  simp only [hkind]

theorem nameEntries_of_error {error : FileError} (hpath : path = tree.resolve [folder, name])
    (hkind : tree.linkStat path = .error error) :
    tree.nameEntries look below folder name = [] := by
  subst hpath
  unfold nameEntries
  simp only [hkind]

end

/-- The entry-points in a package below a folder in it, to a given depth. -/
def packageEntries (look : String → Option EntryPoint) : Nat → String → List EntryPoint
  | 0, _ => []
  | depth + 1, folder =>
    ((tree.namesIn folder).filter (!isIgnorableName ·)).flatMap
      (tree.nameEntries look (packageEntries look depth) folder)

/-- The entry-points at a name in a folder that is no package. -/
def folderEntriesAt (below : String → List EntryPoint) (folder name : String) : List EntryPoint :=
  let path := tree.resolve [folder, name]
  match tree.linkStat path with
  | .ok .folder => below path
  | _ => []

section

variable {tree : FileTree} {below : String → List EntryPoint} {folder name path : String}

theorem folderEntriesAt_of_folder (hpath : path = tree.resolve [folder, name])
    (hkind : tree.linkStat path = .ok .folder) :
    tree.folderEntriesAt below folder name = below path := by
  subst hpath
  unfold folderEntriesAt
  simp only [hkind]

theorem folderEntriesAt_of_not_folder (hpath : path = tree.resolve [folder, name])
    (hkind : tree.linkStat path ≠ .ok .folder) : tree.folderEntriesAt below folder name = [] := by
  subst hpath
  unfold folderEntriesAt
  dsimp only
  split
  · exact absurd ‹_› hkind
  · rfl

end

/-- The entry-points of a package, its own one before those below its folder. -/
def ownEntries (look : String → String → Inspection) (depth : Nat) (folder : String) :
    List EntryPoint :=
  (look folder folder).entryPoint?.toList
    ++ tree.packageEntries (fun path => (look folder path).entryPoint?) depth folder

/-- The entry-points in a folder and below it, to a given depth. -/
def folderEntries (look : String → String → Inspection) : Nat → String → List EntryPoint
  | 0, _ => []
  | depth + 1, folder =>
    match look folder folder with
    | .invalid => []
    | .noEntryPoint =>
      ((tree.namesIn folder).filter (!isIgnorableName ·)).flatMap
        (tree.folderEntriesAt (folderEntries look depth) folder)
    | _ =>
      let own := tree.ownEntries look (depth + 1) folder
      let installed := tree.resolve [folder, "node_modules"]
      if own.any (·.compiledByAngular) && tree.exists? installed then
        own ++ folderEntries look depth installed
      else own

theorem namesIn_of_list {tree : FileTree} {folder : String} {names : List String}
    (h : tree.list folder = .ok names) : tree.namesIn folder = names := by
  rw [namesIn, h]
  rfl

end FileTree

/-! ## What a walk ensures -/

theorem ensures_visitNames {folder : String} {names : List String}
    {visit : String → String → EntityKind → Run (List EntryPoint)}
    (entries : Session → String → List EntryPoint)
    (h : ∀ name path kind, (visit name path kind).Ensures fun last found =>
      path = last.tree.resolve [folder, name] → last.tree.linkStat path = .ok kind →
        found = entries last name) :
    (visitNames folder names visit).Ensures fun last found =>
      found = (names.filter (!isIgnorableName ·)).flatMap (entries last) := by
  unfold visitNames
  refine (Run.ensures_mapM entries (fun name => ?_) _).bind fun found =>
    Run.ensures_pure fun last hfound => ?_
  · refine Run.ensures_tree.bind fun tree => (Run.ensures_readWith _ _).bind fun kind =>
      (h name _ kind).mono fun last found hentries hkind htree => ?_
    exact hentries (by rw [htree]) hkind
  · rw [hfound, List.flatMap_def]

/-- A walk in a package finds its entry-points. -/
theorem ensures_walkPackage (configuration : Configuration) (packagePath : String) (depth : Nat)
    (folder : String) (names : List String) :
    (walkPackage configuration packagePath depth folder names).Ensures fun last found =>
      names = last.tree.namesIn folder →
        found = last.tree.packageEntries
          (fun path => (seen configuration last packagePath path).entryPoint?) depth folder := by
  induction depth generalizing folder names with
  | zero => exact Run.ensures_pure fun _ _ => rfl
  | succ depth ih =>
    rw [walkPackage]
    refine (ensures_visitNames (fun last => last.tree.nameEntries
      (fun path => (seen configuration last packagePath path).entryPoint?)
      (last.tree.packageEntries
        (fun path => (seen configuration last packagePath path).entryPoint?) depth) folder)
      fun name path kind => ?_).mono fun last found hfound hnames => ?_
    · cases kind with
      | link =>
        exact Run.ensures_pure fun last hpath hkind =>
          (FileTree.nameEntries_of_link hpath hkind).symm
      | file =>
        dsimp only
        split
        · rename_i hscript
          refine (ensures_inspect configuration _ _).bind fun inspection =>
            Run.ensures_pure fun last hseen hpath hkind => ?_
          rw [FileTree.nameEntries_of_file hpath hkind, if_pos hscript, hseen]
        · rename_i hscript
          refine Run.ensures_pure fun last hpath hkind => ?_
          rw [FileTree.nameEntries_of_file hpath hkind, if_neg hscript]
      | folder =>
        refine (ensures_inspect configuration _ _).bind fun inspection =>
          (Run.ensures_readWith _ _).bind fun children => Run.ensures_tree.bind fun tree => ?_
        split
        · rename_i hcode
          refine Run.ensures_pure fun last htree hlist hseen hpath hkind => ?_
          rw [htree, ← FileTree.namesIn_of_list hlist] at hcode
          rw [FileTree.nameEntries_of_folder hpath hkind, hseen, if_pos hcode]
        · rename_i hcode
          refine (ih path children).bind fun below =>
            Run.ensures_pure fun last hbelow htree hlist hseen hpath hkind => ?_
          rw [htree, ← FileTree.namesIn_of_list hlist] at hcode
          rw [hbelow (FileTree.namesIn_of_list hlist).symm,
            FileTree.nameEntries_of_folder hpath hkind, hseen, if_neg hcode]
    · rw [hfound, hnames, FileTree.packageEntries]

/-- A walk finds the entry-points under a folder. -/
theorem ensures_walkFolder (configuration : Configuration) (depth : Nat) (folder : String) :
    (walkFolder configuration depth folder).Ensures fun last found =>
      found = last.tree.folderEntries (seen configuration last) depth folder := by
  induction depth generalizing folder with
  | zero => exact Run.ensures_pure fun _ => rfl
  | succ depth ih =>
    rw [walkFolder]
    refine (ensures_inspect configuration _ _).bind fun inspection => ?_
    split
    · refine Run.ensures_pure fun last hseen => ?_
      rw [FileTree.folderEntries, hseen]
    · refine (Run.ensures_readWith _ _).bind fun names =>
        (ensures_visitNames (fun last => last.tree.folderEntriesAt
          (last.tree.folderEntries (seen configuration last) depth) folder)
          fun name path kind => ?_).mono fun last found hfound hlist hseen => ?_
      · cases kind with
        | folder =>
          refine (ih path).mono fun last found hfound hpath hkind => ?_
          rw [hfound, FileTree.folderEntriesAt_of_folder hpath hkind]
        | link | file =>
          refine Run.ensures_pure fun last hpath hkind => ?_
          rw [FileTree.folderEntriesAt_of_not_folder hpath (by simp [hkind])]
      · rw [FileTree.folderEntries, hseen, hfound, FileTree.namesIn_of_list hlist]
    · rename_i hinvalid hnone
      refine (Run.ensures_readWith _ _).bind fun names =>
        (ensures_walkPackage configuration folder (depth + 1) folder names).bind fun secondary =>
          Run.ensures_tree.bind fun tree => Run.ensures_tree.bind fun tree' => ?_
      split
      · rename_i hinstalled
        refine (ih _).bind fun installed =>
          Run.ensures_pure fun last hbelow htree' htree hsecondary hlist hseen => ?_
        rw [htree', htree, hsecondary (FileTree.namesIn_of_list hlist).symm] at hinstalled
        rw [hbelow, hsecondary (FileTree.namesIn_of_list hlist).symm, htree, FileTree.folderEntries,
          hseen]
        simp only [FileTree.ownEntries, hseen, if_pos hinstalled]
      · rename_i hinstalled
        refine Run.ensures_pure fun last htree' htree hsecondary hlist hseen => ?_
        rw [htree', htree, hsecondary (FileTree.namesIn_of_list hlist).symm] at hinstalled
        rw [hsecondary (FileTree.namesIn_of_list hlist).symm, FileTree.folderEntries, hseen]
        simp only [FileTree.ownEntries, hseen, if_neg hinstalled]

/-- **A walk that succeeds finds the entry-points under its folder**, by what their paths
are found to be after it. -/
theorem eq_folderEntries_of_walkAll {configuration : Configuration} {base : String}
    {session after : Session} {found : List EntryPoint}
    (h : (walkAll configuration base).runFrom session = (.ok found, after)) :
    found = session.tree.folderEntries (seen configuration after) (session.tree.longestWay + 2)
      base := by
  unfold walkAll at h
  obtain ⟨tree, middle, htree, h⟩ := Run.runFrom_bind_eq_ok.mp h
  cases htree
  obtain ⟨hsettles, hholds⟩ :=
    ensures_walkFolder configuration (session.tree.longestWay + 2) base
  have hkeeps := hsettles.keeps session
  have hfound := hholds session found after h after (.refl after)
  rw [h] at hkeeps
  rwa [show after.tree = session.tree from hkeeps.tree] at hfound

/-! ## Where entry-points are found -/

/-- An entry-point has the path at which it was seen, and that of its package. -/
theorem path_of_seen {configuration : Configuration} {session : Session}
    {packagePath path : String} {entryPoint : EntryPoint}
    (h : (seen configuration session packagePath path).entryPoint? = some entryPoint) :
    entryPoint.path = path ∧ entryPoint.packagePath = packagePath := by
  unfold seen at h
  rcases hrun : (inspect configuration packagePath path).runFrom session with
    ⟨failure | inspection, after⟩
  · rw [hrun] at h
    cases h
  · rw [hrun] at h
    exact yields_inspect configuration packagePath path session inspection after hrun entryPoint h

/-- The name of a script that is looked at has something before its ending. -/
theorem exists_stem {name : String} (hscript : isScriptName name = true)
    (hlooked : isIgnorableName name = false) :
    ∃ stem : String, name = stem ++ ".js" ∧ stem.toList ≠ [] ∧ stem.toList.head? ≠ some '.' := by
  obtain ⟨stem, hstem⟩ := Option.isSome_iff_exists.mp hscript
  have hname := dropTail?_eq_some hstem
  have hdot : name.toList.head? ≠ some '.' := by
    intro hhead
    rw [isIgnorableName, hhead] at hlooked
    cases hlooked
  refine ⟨.ofList stem, ?_, ?_, ?_⟩
  · rw [← String.toList_inj, String.toList_append, String.toList_ofList, hname]
  · rw [String.toList_ofList]
    rintro rfl
    exact hdot (by rw [hname]; rfl)
  · rw [String.toList_ofList]
    intro hhead
    exact hdot (by rw [hname, List.head?_append, hhead]; rfl)

/-- A name before the ending of a script spells a path where the script does. -/
theorem FileTree.Spelled.of_script {front : List String} {stem : String}
    (h : Spelled (front ++ [stem ++ ".js"])) (hne : stem.toList ≠ [])
    (hdot : stem.toList.head? ≠ some '.') : Spelled (front ++ [stem]) := by
  have hscript := h.plain (stem ++ ".js") (List.mem_append_right _ (List.mem_singleton_self _))
  rw [String.toList_append] at hscript
  have hplain : Plain stem.toList := by
    refine ⟨hne, ?_, ?_, fun hin => hscript.no_slash (List.mem_append_left _ hin),
      fun hin => hscript.no_backslash (List.mem_append_left _ hin)⟩
    · intro heq
      rw [heq] at hdot
      exact hdot rfl
    · intro heq
      rw [heq] at hdot
      exact hdot rfl
  refine ⟨h.of_append.plain.append fun _ ho => List.mem_singleton.mp ho ▸ hplain, ?_⟩
  intro first hfirst
  cases front with
  | nil =>
    cases hfirst
    have hcolon := h.no_drive (stem ++ ".js") rfl
    rw [String.toList_append, List.head?_append_of_ne_nil _ hne] at hcolon
    exact hcolon
  | cons other rest => exact h.no_drive first hfirst

/-- The path of a script without its ending. -/
theorem withoutScriptEnding_pathOf (front : List String) (stem : String) :
    Path.withoutScriptEnding (pathOf (front ++ [stem ++ ".js"])) = pathOf (front ++ [stem])
      ∧ pathOf (front ++ [stem]) ++ ".js" = pathOf (front ++ [stem ++ ".js"]) := by
  have hpath := FileTree.pathOf_append front stem ".js"
  refine ⟨?_, hpath⟩
  rw [Path.withoutScriptEnding, ← hpath, String.toList_append, dropTail?_append, Option.getD_some,
    String.ofList_toList]

namespace FileTree

variable {tree : FileTree} {look : String → Option EntryPoint} {folder name : String}
  {entryPoint : EntryPoint}

section

variable {below : String → List EntryPoint}

theorem mem_nameEntries_of_script (hnormal : Normal folder) {stem : String}
    (hspelled : Spelled (namesOf folder ++ [stem ++ ".js"]))
    (hkind : tree.linkStat (pathOf (namesOf folder ++ [stem]) ++ ".js") = .ok .file)
    (hlook : look (pathOf (namesOf folder ++ [stem])) = some entryPoint) :
    entryPoint ∈ tree.nameEntries look below folder (stem ++ ".js") := by
  obtain ⟨hstem, hscript⟩ := withoutScriptEnding_pathOf (namesOf folder) stem
  have his : isScriptName (stem ++ ".js") = true := by
    rw [isScriptName, String.toList_append, dropTail?_append]
    rfl
  rw [hscript] at hkind
  rw [nameEntries_of_file (hnormal.resolve_name hspelled tree).symm hkind, if_pos his, hstem, hlook]
  exact List.mem_singleton_self _

theorem mem_nameEntries_of_folder (hnormal : Normal folder)
    (hspelled : Spelled (namesOf folder ++ [name]))
    (hkind : tree.linkStat (pathOf (namesOf folder ++ [name])) = .ok .folder)
    (hlook : look (pathOf (namesOf folder ++ [name])) = some entryPoint) :
    entryPoint ∈ tree.nameEntries look below folder name := by
  rw [nameEntries_of_folder (hnormal.resolve_name hspelled tree).symm hkind, hlook]
  split
  · exact List.mem_singleton_self _
  · exact List.mem_append_left _ (List.mem_singleton_self _)

/-- What is found at a name: the entry-point of a script or that of a folder, or one below
the folder. -/
theorem nameEntries_cases (hnormal : Normal folder) (hspelled : Spelled (namesOf folder ++ [name]))
    (hlooked : isIgnorableName name = false)
    (h : entryPoint ∈ tree.nameEntries look below folder name) :
    (∃ stem, name = stem ++ ".js" ∧ Spelled (namesOf folder ++ [stem])
        ∧ tree.linkStat (pathOf (namesOf folder ++ [stem]) ++ ".js") = .ok .file
        ∧ look (pathOf (namesOf folder ++ [stem])) = some entryPoint)
      ∨ tree.linkStat (pathOf (namesOf folder ++ [name])) = .ok .folder
        ∧ (look (pathOf (namesOf folder ++ [name])) = some entryPoint
          ∨ entryPoint ∈ below (pathOf (namesOf folder ++ [name]))
            ∧ tree.nameEntries look below folder name
              = (look (pathOf (namesOf folder ++ [name]))).toList
                ++ below (pathOf (namesOf folder ++ [name]))) := by
  have hpath := (hnormal.resolve_name hspelled tree).symm
  cases hkind : tree.linkStat (pathOf (namesOf folder ++ [name])) with
  | error =>
    rw [nameEntries_of_error hpath hkind] at h
    cases h
  | ok kind =>
    cases kind with
    | link =>
      rw [nameEntries_of_link hpath hkind] at h
      cases h
    | file =>
      rw [nameEntries_of_file hpath hkind] at h
      split at h
      · rename_i hscript
        obtain ⟨stem, rfl, hne, hdot⟩ := exists_stem hscript hlooked
        obtain ⟨hstem, hending⟩ := withoutScriptEnding_pathOf (namesOf folder) stem
        rw [hstem] at h
        rw [← hending] at hkind
        exact Or.inl ⟨stem, rfl, hspelled.of_script hne hdot, hkind, Option.mem_toList.mp h⟩
      · cases h
    | folder =>
      refine Or.inr ⟨rfl, ?_⟩
      rw [nameEntries_of_folder hpath hkind] at h ⊢
      split at h
      · exact Or.inl (Option.mem_toList.mp h)
      · rename_i hcode
        refine (List.mem_append.mp h).imp Option.mem_toList.mp fun hbelow => ⟨hbelow, ?_⟩
        rw [if_neg hcode]

end

/-- Behind some names only such links stand on a way as are allowed, by the names before
them, their own ones, and those behind them. -/
def LinksOnly (tree : FileTree) (start ways : List String)
    (allowed : List String → String → List String → Prop) : Prop :=
  ∀ front name back, ways = front ++ name :: back →
    tree.linkStat (pathOf (start ++ front ++ [name])) = .ok .link → allowed (start ++ front) name back

section

variable {start ways : List String} {allowed : List String → String → List String → Prop}

theorem LinksOnly.nil : tree.LinksOnly start [] allowed := by
  intro front name back hsplit
  cases front <;> cases hsplit

theorem LinksOnly.cons
    (hname : tree.linkStat (pathOf (start ++ [name])) = .ok .link → allowed start name ways)
    (h : tree.LinksOnly (start ++ [name]) ways allowed) :
    tree.LinksOnly start (name :: ways) allowed := by
  intro front other back hsplit hlink
  cases front with
  | nil =>
    cases hsplit
    rw [List.append_nil] at hlink ⊢
    exact hname hlink
  | cons first front =>
    cases hsplit
    rw [List.append_cons start name front] at hlink ⊢
    exact h front other back rfl hlink

theorem LinksOnly.mono {more : List String → String → List String → Prop}
    (h : tree.LinksOnly start ways allowed)
    (himp : ∀ front name back, allowed front name back → more front name back) :
    tree.LinksOnly start ways more :=
  fun front name back hsplit hlink => himp _ _ _ (h front name back hsplit hlink)

end

/-- **What is found in a package lies below its folder**, and no link leads there, unless it
stands at the path itself beside a script of its name. -/
theorem exists_way_of_mem_packageEntries (htidy : tree.Tidy)
    (hlook : ∀ path entryPoint, look path = some entryPoint → entryPoint.path = path)
    {depth : Nat} (hnormal : Normal folder) (h : entryPoint ∈ tree.packageEntries look depth folder) :
    ∃ name ways, Spelled (namesOf folder ++ name :: ways)
      ∧ entryPoint.path = pathOf (namesOf folder ++ name :: ways)
      ∧ look entryPoint.path = some entryPoint
      ∧ tree.LinksOnly (namesOf folder) (name :: ways) fun _ _ back =>
          back = [] ∧ tree.linkStat (entryPoint.path ++ ".js") = .ok .file := by
  induction depth generalizing folder with
  | zero => cases h
  | succ depth ih =>
    rw [packageEntries] at h
    obtain ⟨name, hname, h⟩ := List.mem_flatMap.mp h
    obtain ⟨hname, hlooked⟩ := List.mem_filter.mp hname
    have hspelled := htidy.spelled hnormal hname
    rcases nameEntries_cases hnormal hspelled (by simpa using hlooked) h with
      ⟨stem, rfl, hstem, hfile, hseen⟩ | ⟨hkind, hseen | ⟨hbelow, _⟩⟩
    · have hpath := hlook _ _ hseen
      exact ⟨stem, [], hstem, hpath, hpath ▸ hseen, LinksOnly.cons (fun _ => ⟨rfl, hpath ▸ hfile⟩) .nil⟩
    · have hpath := hlook _ _ hseen
      exact ⟨name, [], hspelled, hpath, hpath ▸ hseen, LinksOnly.cons (fun hlink => by
        rw [hkind] at hlink
        cases hlink) .nil⟩
    · have hinner : Normal (pathOf (namesOf folder ++ [name])) := ⟨_, hspelled, rfl⟩
      obtain ⟨next, ways, hways, hpath, hseen, hlinks⟩ := ih hinner hbelow
      rw [namesOf_pathOf hspelled.plain] at hways hpath hlinks
      rw [← List.append_cons] at hways hpath
      exact ⟨name, next :: ways, hways, hpath, hseen, LinksOnly.cons (fun hlink => by
        rw [hkind] at hlink
        cases hlink) hlinks⟩

/-- What is found under a folder: nothing, or what the folders in it hold, or what its package
holds, and behind that what is installed in it. -/
theorem folderEntries_cases (tree : FileTree) (look : String → String → Inspection) (depth : Nat)
    (folder : String) :
    tree.folderEntries look (depth + 1) folder = []
      ∨ tree.folderEntries look (depth + 1) folder
        = ((tree.namesIn folder).filter (!isIgnorableName ·)).flatMap
          (tree.folderEntriesAt (tree.folderEntries look depth) folder)
      ∨ tree.folderEntries look (depth + 1) folder = tree.ownEntries look (depth + 1) folder
      ∨ (∃ other ∈ tree.ownEntries look (depth + 1) folder, other.compiledByAngular = true)
        ∧ tree.folderEntries look (depth + 1) folder
          = tree.ownEntries look (depth + 1) folder
            ++ tree.folderEntries look depth (tree.resolve [folder, "node_modules"]) := by
  rw [folderEntries]
  split
  · exact Or.inl rfl
  · exact Or.inr (Or.inl rfl)
  · refine Or.inr (Or.inr ?_)
    by_cases hinstalled : ((tree.ownEntries look (depth + 1) folder).any (·.compiledByAngular)
        && tree.exists? (tree.resolve [folder, "node_modules"])) = true
    · simp only [if_pos hinstalled, and_true]
      rw [Bool.and_eq_true, List.any_eq_true] at hinstalled
      exact Or.inr hinstalled.1
    · simp only [if_neg hinstalled, true_or]

theorem spelled_installed (hnormal : Normal folder) :
    Spelled (namesOf folder ++ ["node_modules"]) := by
  have hplain : Plain "node_modules".toList := by decide
  refine ⟨hnormal.spelled.plain.append fun _ ho => List.mem_singleton.mp ho ▸ hplain, ?_⟩
  intro first hfirst
  cases hnames : namesOf folder with
  | nil =>
    rw [hnames] at hfirst
    cases hfirst
    decide
  | cons other rest =>
    rw [hnames] at hfirst
    exact hnormal.spelled.no_drive first (hnames ▸ hfirst)

theorem mem_folderEntriesAt {below : String → List EntryPoint} (hnormal : Normal folder)
    (hspelled : Spelled (namesOf folder ++ [name]))
    (h : entryPoint ∈ tree.folderEntriesAt below folder name) :
    tree.linkStat (pathOf (namesOf folder ++ [name])) = .ok .folder
      ∧ entryPoint ∈ below (pathOf (namesOf folder ++ [name])) := by
  have hpath := (hnormal.resolve_name hspelled tree).symm
  by_cases hkind : tree.linkStat (pathOf (namesOf folder ++ [name])) = .ok .folder
  · rw [folderEntriesAt_of_folder hpath hkind] at h
    exact ⟨hkind, h⟩
  · rw [folderEntriesAt_of_not_folder hpath hkind] at h
    cases h

end FileTree

end PackageOrder
