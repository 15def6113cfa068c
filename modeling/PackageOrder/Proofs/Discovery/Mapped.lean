/-
PackageOrder.Proofs.Discovery.Mapped — whether what path mappings lead to is searched.

A mapping is read in two ways. An import puts the captured text in the place of the
star of a target; the search for entry-points looks at the text before the star only,
and where that leads nowhere, at the names that start with its last name. The two
agree as long as the captured text stays in its place (`Stays`,
`FileTree.basePaths_above_mapped`). They differ where a folder has the name as it
stands before the star: it is searched, and those with longer names are passed over
(`FileTree.basePaths_pass_over`).
-/
import PackageOrder.Proofs.Discovery.BasePaths
import PackageOrder.Proofs.FileTree.Check
import PackageOrder.Proofs.Resolve.Mapped

namespace PackageOrder

open PackageOrder.Text
open PackageOrder.Path (Plain Segment parentSegment)
open PackageOrder.FileTree (namesOf pathOf Spelled)

namespace FileTree

variable {tree : FileTree}

/-! ## Targets and what is mapped by them -/

/-- What takes the place of a star stays below what the text before the star leads
to: it does not start anew, it makes no step to the folder above, and where it goes on
with a name, no folder has the name as it stands before the star. -/
structure Stays (tree : FileTree) (baseUrl : String) (before rest : List Char) : Prop where
  in_place : before = [] → ¬ Path.Anchored rest
  descends : parentSegment
    ∉ splitOn '/' (Path.lastChars (Path.forwardChars before) ++ Path.forwardChars rest)
  alone : tree.isFolder (tree.resolve [baseUrl, .ofList before]) = true →
    Plain (Path.lastChars (Path.forwardChars before)) → rest = [] ∨ Path.Anchored rest

instance (tree : FileTree) (baseUrl : String) (before rest : List Char) :
    Decidable (tree.Stays baseUrl before rest) :=
  decidable_of_iff
    ((before = [] → ¬ Path.Anchored rest)
      ∧ parentSegment
        ∉ splitOn '/' (Path.lastChars (Path.forwardChars before) ++ Path.forwardChars rest)
      ∧ (tree.isFolder (tree.resolve [baseUrl, .ofList before]) = true →
        Plain (Path.lastChars (Path.forwardChars before)) → rest = [] ∨ Path.Anchored rest))
    ⟨fun ⟨hplace, hparent, halone⟩ => ⟨hplace, hparent, halone⟩,
      fun h => ⟨h.in_place, h.descends, h.alone⟩⟩

/-- The folders above something that exists, each listing the next name. -/
structure LiesInFolders (tree : FileTree) (path : String) : Prop where
  folder : ∀ above, AtOrBelow above path → tree.isFolder above = true
  listed : ∀ above name, namesOf above ++ [name] <+: namesOf path →
    ∃ names, tree.list above = .ok names ∧ name ∈ names

theorem liesInFolders (hcase : tree.caseSensitive = true) (hlinks : tree.LinksClean) {path : String}
    (hnormal : Normal path) (h : tree.exists? (Path.join path ["package.json"]) = true) :
    tree.LiesInFolders path := by
  have hplain : Plain "package.json".toList := by decide
  have hnames : namesOf (Path.join path ["package.json"]) = namesOf path ++ ["package.json"] := by
    rw [namesOf_join_name hnormal.isRooted hplain, hnormal.clean]
  have hall : PlainNames (namesOf (Path.join path ["package.json"])) := by
    rw [hnames]
    exact hnormal.spelled.plain.append fun name hname => List.mem_singleton.mp hname ▸ hplain
  constructor
  · rintro above ⟨more, hmore⟩
    rw [← hmore, List.append_assoc] at hnames
    cases more with
    | nil => exact (isFolder_of_exists_below hcase hlinks h hall hnames).1
    | cons first more => exact (isFolder_of_exists_below hcase hlinks h hall hnames).1
  · rintro above name ⟨more, hmore⟩
    rw [← hmore, List.append_assoc, List.append_assoc] at hnames
    exact (isFolder_of_exists_below hcase hlinks h hall hnames).2

/-- A name may be cut, as long as it still names something. -/
theorem Spelled.of_longer {front : List String} {last name : String} {start more : Segment}
    (h : Spelled (front ++ [name])) (hname : name.toList = start ++ more)
    (hlast : last.toList = start) (hplain : Plain start) : Spelled (front ++ [last]) := by
  have hfront := h.of_append
  refine ⟨hfront.plain.append fun other ho => ?_, fun first hfirst => ?_⟩
  · rw [List.mem_singleton.mp ho, hlast]
    exact hplain
  · cases front with
    | nil =>
      cases hfirst
      have hdrive := h.no_drive name rfl
      obtain ⟨c, rest, rfl⟩ := List.exists_cons_of_ne_nil hplain.ne_nil
      rw [hname] at hdrive
      rw [hlast]
      exact hdrive
    | cons other front => exact h.no_drive first hfirst

theorem head?_of_segments {path : String} (h : Normal path) :
    ∀ first, (Path.segments path.toList).head? = some first → first.head? ≠ some ':' := by
  intro first hfirst
  have hname : (namesOf path).head? = some (.ofList first) := by
    rw [namesOf, List.head?_map, hfirst]
    rfl
  simpa using h.spelled.no_drive _ hname

/-- The paths before the star of a target and of what is mapped by it. -/
theorem segments_pathBeforeStar (hdir : Path.isRooted tree.workingDir = true) {url target : String}
    {rest : List Char} (hbase : Normal (tree.resolve [url]))
    (hpath : Normal (tree.resolve [url, .ofList (beforeStar target ++ rest)]))
    (hplace : beforeStar target = [] → ¬ Path.Anchored rest) :
    ∃ before,
      Path.segments (tree.pathBeforeStar (tree.resolve [url]) target).toList
          = Path.collapse true
              (before ++ [Path.lastChars (Path.forwardChars (beforeStar target))])
        ∧ Path.segments (tree.resolve [url, .ofList (beforeStar target ++ rest)]).toList
          = Path.collapse true (before ++ splitOn '/'
              (Path.lastChars (Path.forwardChars (beforeStar target)) ++ Path.forwardChars rest)) := by
  have hroot : tree.workingDir.toList.head? = some '/' := Path.head?_of_isRooted hdir
  have hresolve : ∀ parts : List String, (tree.resolve parts).toList
      = Path.cleanChars ((parts.map String.toList).foldl Path.place tree.workingDir.toList) :=
    Path.toList_resolve tree.workingDir
  have hurl : (tree.resolve [url]).toList
      = Path.cleanChars (Path.place tree.workingDir.toList url.toList) := hresolve [url]
  have hrooted := Path.head?_clean_of_rooted (Path.rooted_place hroot url.toList)
  have hforward := Path.forwardChars_clean (Path.rooted_place hroot url.toList)
  have hstart : Path.place tree.workingDir.toList (tree.resolve [url]).toList
      = Path.cleanChars (Path.place tree.workingDir.toList url.toList) := by
    rw [hurl, Path.place, if_pos (by rw [Path.Anchored, hforward]; exact hrooted), hforward]
  have hwhole := head?_of_segments hpath
  rw [hresolve] at hwhole
  simp only [List.map_cons, List.map_nil, List.foldl_cons, List.foldl_nil, String.toList_ofList]
    at hwhole
  obtain ⟨before, hfront, hall⟩ := Path.segments_resolve_both hroot
    (by rw [← hurl]; exact head?_of_segments hbase) hwhole hplace
  refine ⟨before, ?_, ?_⟩
  · rw [pathBeforeStar, hresolve]
    simp only [List.map_cons, List.map_nil, List.foldl_cons, List.foldl_nil, String.toList_ofList]
    rw [hstart, hfront]
  · rw [hresolve]
    simp only [List.map_cons, List.map_nil, List.foldl_cons, List.foldl_nil, String.toList_ofList]
    exact hall

/-- A folder that a path lies in is what the target leads to. -/
theorem exists_targetFolder_of_atOrBelow {baseUrl target path : String}
    (hlies : tree.LiesInFolders path) (h : AtOrBelow (tree.pathBeforeStar baseUrl target) path) :
    ∃ outer ∈ (tree.targetFolders baseUrl target).folders, AtOrBelow outer path := by
  have hfolder := hlies.folder _ h
  refine ⟨_, ?_, h⟩
  rw [folders_targetFolders, isFile_eq_false_of_isFolder hfolder, foldersAt]
  simp only [Bool.false_eq_true, if_false, exists_of_isFolder hfolder, if_true]
  exact List.mem_singleton_self _

/-- A name that goes on behind the star is found by its front, unless a folder or a
file has the front for its name. -/
theorem exists_targetFolder_of_name {baseUrl target path : String}
    (hlies : tree.LiesInFolders path) {front : List String} {last name : String}
    (hbefore : tree.pathBeforeStar baseUrl target = pathOf (front ++ [last]))
    (hspelled : Spelled (front ++ [last])) (hname : Spelled (front ++ [name]))
    (hstart : (dropHead? last.toList name.toList).isSome)
    (hpath : front ++ [name] <+: namesOf path)
    (halone : tree.isFolder (tree.pathBeforeStar baseUrl target) = false) :
    ∃ outer ∈ (tree.targetFolders baseUrl target).folders, AtOrBelow outer path := by
  have hlast : Plain last.toList :=
    hspelled.plain last (List.mem_append_right _ (List.mem_singleton_self _))
  have hdirname := dirname_of_clean (clean_pathOf hspelled) hlast
  have hbasename := basename_of_clean (clean_pathOf hspelled) hlast
  have hcontainer : namesOf (pathOf front) = front := namesOf_pathOf hspelled.of_append.plain
  have habove : AtOrBelow (pathOf front) path := by
    rw [AtOrBelow, hcontainer]
    exact (List.prefix_append front [name]).trans hpath
  have hfolder := hlies.folder _ habove
  rw [folders_targetFolders, hbefore, hdirname]
  by_cases hfile : tree.isFile (pathOf (front ++ [last])) = true
  · refine ⟨pathOf front, ?_, habove⟩
    rw [if_pos hfile, foldersAt, if_pos (exists_of_isFolder hfolder)]
    exact List.mem_singleton_self _
  · have hmissing : ¬ tree.exists? (pathOf (front ++ [last])) = true := by
      intro hexists
      rw [hbefore] at halone
      exact hfile (isFile_of_exists hexists halone)
    obtain ⟨names, hlist, hmem⟩ := hlies.listed (pathOf front) name (by rwa [hcontainer])
    have hresolve : tree.resolve [pathOf front, name] = pathOf (front ++ [name]) := by
      rw [resolve_name tree (isRooted_pathOf front)
        (hname.plain name (List.mem_append_right _ (List.mem_singleton_self _))), join_pathOf hname]
    have hnames : namesOf (pathOf (front ++ [name])) = front ++ [name] := namesOf_pathOf hname.plain
    have hbelow : AtOrBelow (pathOf (front ++ [name])) path := by rwa [AtOrBelow, hnames]
    refine ⟨pathOf (front ++ [name]), ?_, hbelow⟩
    rw [if_neg hfile, foldersAt, if_neg hmissing, hdirname, hbasename]
    exact mem_foldersStarting.mpr ⟨hfolder, names, name, hlist, hmem, hstart, hresolve.symm,
      hlies.folder _ hbelow⟩

theorem plain_packageJson : Plain "package.json".toList := by
  decide

/-- What a target leads to stands above what is mapped by it. -/
theorem exists_targetFolder_above (hwell : tree.WellFormed) (hlinks : tree.LinksClean)
    {url target path : String} {rest : List Char} (hbase : Normal (tree.resolve [url]))
    (hpath : path = tree.resolve [url, .ofList (beforeStar target ++ rest)])
    (hexists : tree.exists? (Path.join path ["package.json"]) = true)
    (hstays : rest ≠ [] → tree.Stays (tree.resolve [url]) (beforeStar target) rest) :
    ∃ outer ∈ (tree.targetFolders (tree.resolve [url]) target).folders, AtOrBelow outer path := by
  have hdir := hwell.rooted
  have hnormal : Normal path := by
    rw [hpath, resolve_eq_clean] at hexists ⊢
    exact normal_of_exists_below hwell (isRooted_foldl_place hdir _) plain_packageJson hexists
  have hlies := liesInFolders hwell.sensitive hlinks hnormal hexists
  by_cases hrest : rest = []
  · refine exists_targetFolder_of_atOrBelow hlies ?_
    have hplace : beforeStar target = [] → ¬ Path.Anchored rest :=
      fun _ => hrest ▸ Path.not_anchored_nil
    obtain ⟨before, hbefore, hall⟩ := segments_pathBeforeStar hdir hbase (hpath ▸ hnormal) hplace
    have hlast := splitOn_of_notMem (Path.no_slash_lastChars (Path.forwardChars (beforeStar target)))
    rw [← hpath, hrest, show Path.forwardChars [] = [] from rfl, List.append_nil, hlast,
      ← hbefore] at hall
    exact atOrBelow_iff_segments.mpr (by simp only [hall, List.prefix_rfl])
  · -- the star stands for something, which may lengthen the last name before it
    obtain ⟨hplace, hparent, halone⟩ := hstays hrest
    obtain ⟨before, hbefore, hall⟩ := segments_pathBeforeStar hdir hbase (hpath ▸ hnormal) hplace
    rw [← hpath] at hall
    have hback : '\\' ∉ Path.lastChars (Path.forwardChars (beforeStar target))
        ++ Path.forwardChars rest := by
      rw [List.mem_append, not_or]
      exact ⟨fun hmem => Path.notMem_forwardChars _ (Path.mem_of_mem_lastChars hmem),
        Path.notMem_forwardChars rest⟩
    rcases Path.collapse_goes_on before (Path.no_slash_lastChars _) hback hparent with
      hbelow | ⟨hplain, hne, hanchored, hlast, more, tail, hlonger⟩
    · refine exists_targetFolder_of_atOrBelow hlies (atOrBelow_iff_segments.mpr ?_)
      rw [hbefore, hall]
      exact hbelow
    · rw [hlast] at hbefore
      rw [hlonger] at hall
      have hnames : namesOf path = (Path.collapse true before).map String.ofList
          ++ [.ofList (Path.lastChars (Path.forwardChars (beforeStar target)) ++ more)]
          ++ tail.map String.ofList := by
        rw [namesOf, hall, List.map_append, List.map_cons, List.append_assoc]
        rfl
      have hname := (hnames ▸ hnormal.spelled).of_append
      have hspelled : Spelled ((Path.collapse true before).map String.ofList
          ++ [.ofList (Path.lastChars (Path.forwardChars (beforeStar target)))]) :=
        hname.of_longer String.toList_ofList String.toList_ofList hplain
      refine exists_targetFolder_of_name hlies ?_ hspelled hname ?_ ⟨_, hnames.symm⟩ ?_
      · have hbeforeNames : namesOf (tree.pathBeforeStar (tree.resolve [url]) target)
            = (Path.collapse true before).map String.ofList
              ++ [.ofList (Path.lastChars (Path.forwardChars (beforeStar target)))] := by
          rw [namesOf, hbefore, List.map_append]
          rfl
        rw [← hbeforeNames] at hspelled ⊢
        exact eq_pathOf_resolve hdir hspelled
      · rw [String.toList_ofList, String.toList_ofList, dropHead?_append]
        rfl
      · rw [Bool.eq_false_iff]
        intro hfolder
        exact (halone hfolder hplain).elim hrest hanchored

/-! ## What a specifier is mapped to -/

theorem mem_of_bestMapping {name : List Char} {entries : List (String × List String)}
    {best : Option Mapped} {found : Mapped} (h : bestMapping name entries best = some found) :
    best = some found ∨ ∃ entry ∈ entries, found.targets = entry.2 := by
  induction entries generalizing best with
  | nil => exact Or.inl h
  | cons entry rest ih =>
    obtain ⟨pattern, targets⟩ := entry
    have hlater : ∀ {other : Option Mapped}, bestMapping name rest other = some found →
        other = best ∨ (∃ one, other = some one ∧ one.targets = targets) →
        best = some found ∨ ∃ entry ∈ (pattern, targets) :: rest, found.targets = entry.2 := by
      rintro other hbest hother
      rcases ih hbest with hfound | ⟨entry, hentry, htargets⟩
      · rcases hother with rfl | ⟨one, hone, htargets⟩
        · exact Or.inl hfound
        · rw [hone] at hfound
          cases hfound
          exact Or.inr ⟨_, List.mem_cons_self, htargets⟩
      · exact Or.inr ⟨entry, List.mem_cons_of_mem _ hentry, htargets⟩
    rw [bestMapping] at h
    dsimp only at h
    split at h
    · exact hlater h (Or.inl rfl)
    · split at h
      · cases h
        exact Or.inr ⟨_, List.mem_cons_self, rfl⟩
      · split at h
        · exact hlater h (Or.inr ⟨_, rfl, rfl⟩)
        · exact hlater h (Or.inl rfl)

/-- The captured text goes behind the text before the star. -/
theorem fill_eq (target : String) (captured : List Char) :
    ∃ rest, (Wildcard.ofText target).fill captured = .ofList (beforeStar target ++ rest)
      ∧ (Wildcard.ofText target).before = beforeStar target
      ∧ (rest = [] ∨ ∃ after, (Wildcard.ofText target).after? = some after
        ∧ rest = captured ++ after) := by
  unfold beforeStar Wildcard.ofText Wildcard.fill
  rw [head?_splitOn]
  cases cutAt? '*' target.toList with
  | none => exact ⟨[], by simp, rfl, Or.inl rfl⟩
  | some parts => exact ⟨captured ++ parts.2, by simp, rfl, Or.inr ⟨_, rfl, rfl⟩⟩

/-- What a specifier resolves to through mappings is an entry-point that one of the
targets was filled to. -/
theorem exists_target_of_resolveMapped? {mappings : PathMappings} {endings : List String}
    {specifier importing path : String}
    (h : tree.resolveMapped? (some mappings) endings specifier importing = some (.entryPoint path)) :
    tree.isEntryPoint path = true ∧ ∃ found,
      bestMapping specifier.toList mappings.paths none = some found ∧ ∃ target ∈ found.targets,
        path = tree.resolve [mappings.baseUrl, (Wildcard.ofText target).fill found.captured] := by
  obtain ⟨table, package, htable, _, mapped, hmem, hmapped⟩ := exists_of_resolveMapped? h
  cases htable
  obtain ⟨hentry, rfl⟩ := mappedTo?_eq_entryPoint_iff.mp hmapped
  exact ⟨hentry, exists_target_of_mem_mappedPaths hmem⟩

/-- **An entry-point that a specifier is mapped to lies in a folder that is searched**,
as long as what is captured stays in the place of the star (`Stays`) and paths are
written in normal form. -/
theorem basePaths_above_mapped (hwell : tree.WellFormed) (hlinks : tree.LinksClean)
    {mappings : PathMappings} {endings : List String} {specifier importing source path : String}
    (hsource : Normal source) (hbase : Normal (tree.resolve [mappings.baseUrl]))
    (hresolve : tree.resolveMapped? (some mappings) endings specifier importing
      = some (.entryPoint path))
    (hstays : ∀ found, bestMapping specifier.toList mappings.paths none = some found →
      ∀ target ∈ found.targets, ∀ after, (Wildcard.ofText target).after? = some after →
        path = tree.resolve [mappings.baseUrl, (Wildcard.ofText target).fill found.captured] →
        tree.Stays (tree.resolve [mappings.baseUrl]) (Wildcard.ofText target).before
          (found.captured ++ after)) :
    ∃ outer ∈ (tree.basePaths source (some mappings)).1, AtOrBelow outer path := by
  obtain ⟨hentry, found, hfound, target, htarget, hpath⟩ := exists_target_of_resolveMapped? hresolve
  obtain ⟨rest, hfill, hbefore, hrest⟩ := fill_eq target found.captured
  obtain ⟨folder, hfolder, habove⟩ := exists_targetFolder_above hwell hlinks hbase
    (hfill ▸ hpath) hentry (by
      intro hne
      rcases hrest with hnil | ⟨after, hafter, rfl⟩
      · exact absurd hnil hne
      · exact hbefore ▸ hstays found hfound target htarget after hafter hpath)
  obtain ⟨entry, hmem, htargets⟩ := (mem_of_bestMapping hfound).resolve_left (by simp)
  obtain ⟨outer, houter, h⟩ := exists_basePath_above hwell hsource
    (Or.inr ⟨entry, hmem, target, htargets ▸ htarget, hfolder⟩)
  exact ⟨outer, houter, h.trans habove⟩

/-- A project with some packages in one folder. -/
def distributing (names : List String) : FileTree where
  root := [("project", .folder [("dist", .folder
    (names.map fun name => (name, .folder [("package.json", .file .empty)])))])]

/-- A mapping to packages by their names behind a dash. -/
def dashMappings : PathMappings where
  baseUrl := "/project"
  paths := [("@my/*", ["dist/lib-*"])]

/-- A package that another one imports by a mapping is searched. -/
theorem basePaths_above_mapped_sibling :
    ((distributing ["lib-a", "lib-b"]).check = true
      ∧ Normal "/project/node_modules"
      ∧ Normal ((distributing ["lib-a", "lib-b"]).resolve [dashMappings.baseUrl])
      ∧ (distributing ["lib-a", "lib-b"]).resolveMapped? (some dashMappings) typingsEndings "@my/b"
        "/project/dist/lib-a/index.d.ts" = some (.entryPoint "/project/dist/lib-b"))
      ∧ ∃ outer ∈ ((distributing ["lib-a", "lib-b"]).basePaths "/project/node_modules"
          (some dashMappings)).1, AtOrBelow outer "/project/dist/lib-b" := by
  have hcheck : (distributing ["lib-a", "lib-b"]).check = true := by decide +kernel
  obtain ⟨hwell, hlinks⟩ := wellFormed_of_check hcheck
  have hsource : Normal "/project/node_modules" :=
    ⟨["project", "node_modules"], by decide, by decide⟩
  have hbase : Normal ((distributing ["lib-a", "lib-b"]).resolve [dashMappings.baseUrl]) :=
    ⟨["project"], by decide, by decide⟩
  have hresolve : (distributing ["lib-a", "lib-b"]).resolveMapped? (some dashMappings)
      typingsEndings "@my/b" "/project/dist/lib-a/index.d.ts"
        = some (.entryPoint "/project/dist/lib-b") := by
    decide +kernel
  refine ⟨⟨hcheck, hsource, hbase, hresolve⟩,
    basePaths_above_mapped hwell hlinks hsource hbase hresolve ?_⟩
  have hbest : bestMapping "@my/b".toList dashMappings.paths none
      = some ⟨"@my/".toList, "b".toList, ["dist/lib-*"]⟩ := by
    rfl
  intro found hfound target htarget after hafter _
  rw [hbest] at hfound
  cases hfound
  rw [List.mem_singleton] at htarget
  subst htarget
  cases hafter
  decide +kernel

/-- A mapping to packages by the fronts of their names, one of which is a whole name. -/
def frontMappings : PathMappings where
  baseUrl := "/project"
  paths := [("@my/lib*", ["dist/lib*"])]

/-- **Where a folder has the name before the star, those with longer names are passed
over**, although specifiers are mapped to them. -/
theorem basePaths_pass_over :
    (distributing ["lib", "lib2"]).resolveMapped? (some frontMappings) typingsEndings "@my/lib2"
        "/project/dist/lib/index.d.ts" = some (.entryPoint "/project/dist/lib2")
      ∧ ∀ outer ∈ ((distributing ["lib", "lib2"]).basePaths "/project/node_modules"
          (some frontMappings)).1, ¬ AtOrBelow outer "/project/dist/lib2" := by
  decide +kernel

end FileTree

end PackageOrder
