/-
PackageOrder.Proofs.Discovery.PackagePath — the package of an entry-point lies above it.

The search for the package starts from a folder and follows the names that lead to the
entry-point, or climbs from the entry-point. So each folder that it tests is the
entry-point or one above it, but for the one it starts from: that is chosen by the text of
its path, which may end inside of a name (`/project/lib` and `/project/lib-extra`). The
package lies above the entry-point just if no such folder is taken
(`FileTree.packagePath_above_iff`).
-/
import PackageOrder.Discovery.Target
import PackageOrder.Proofs.Discovery.BasePaths
import PackageOrder.Proofs.FileTree.Check
import PackageOrder.Proofs.Path.Host

namespace PackageOrder

open PackageOrder.Text
open PackageOrder.Path (Plain Segment NoDrive collapse parentSegment)
open PackageOrder.FileTree (namesOf pathOf Spelled)

/-! ## The front of a path's text -/

/-- Behind some of the pieces of a text the front of the next one, or nothing more. -/
def EndsIn (pieces common : List Segment) (last : Segment) : Prop :=
  last = [] ∧ common <+: pieces ∨ ∃ more rest, pieces = common ++ (last ++ more) :: rest

namespace EndsIn

variable {piece : Segment} {pieces common : List Segment} {last : Segment}

theorem cons (h : EndsIn pieces common last) : EndsIn (piece :: pieces) (piece :: common) last := by
  obtain ⟨hnil, hcommon⟩ | ⟨more, rest, rfl⟩ := h
  · exact Or.inl ⟨hnil, (List.prefix_cons_inj piece).mpr hcommon⟩
  · exact Or.inr ⟨more, rest, (List.cons_append ..).symm⟩

theorem common_prefix (h : EndsIn pieces common last) : common <+: pieces := by
  obtain ⟨_, hcommon⟩ | ⟨more, rest, rfl⟩ := h
  · exact hcommon
  · exact List.prefix_append _ _

theorem no_slash (h : EndsIn pieces common last) (hplain : ∀ piece ∈ pieces, Plain piece) :
    ∀ piece ∈ common ++ [last], '/' ∉ piece ∧ '\\' ∉ piece := by
  intro piece hpiece
  rcases List.mem_append.mp hpiece with hpiece | hpiece
  · have := hplain piece (h.common_prefix.subset hpiece)
    exact ⟨this.no_slash, this.no_backslash⟩
  · obtain rfl := List.mem_singleton.mp hpiece
    obtain ⟨rfl, _⟩ | ⟨more, rest, rfl⟩ := h
    · exact ⟨List.not_mem_nil, List.not_mem_nil⟩
    · have := hplain (piece ++ more) (List.mem_append_right _ List.mem_cons_self)
      exact ⟨fun hin => this.no_slash (List.mem_append_left _ hin),
        fun hin => this.no_backslash (List.mem_append_left _ hin)⟩

end EndsIn

/-- The front of a joined text ends in one of the pieces. -/
theorem exists_endsIn_of_prefix {text : List Char} {pieces : List Segment}
    (h : text <+: joinWith '/' pieces) :
    ∃ common last, text = joinWith '/' (common ++ [last]) ∧ EndsIn pieces common last := by
  induction pieces generalizing text with
  | nil => exact ⟨[], [], List.prefix_nil.mp h, Or.inl ⟨rfl, List.prefix_rfl⟩⟩
  | cons piece pieces ih =>
    have hinside : text <+: piece →
        ∃ common last, text = joinWith '/' (common ++ [last])
          ∧ EndsIn (piece :: pieces) common last := by
      rintro ⟨more, rfl⟩
      exact ⟨[], text, rfl, Or.inr ⟨more, pieces, rfl⟩⟩
    cases pieces with
    | nil => exact hinside h
    | cons next others =>
      rw [joinWith] at h
      rcases List.prefix_or_prefix_of_prefix h (List.prefix_append piece _) with hshort | ⟨after, rfl⟩
      · exact hinside hshort
      · rw [List.prefix_append_right_inj] at h
        cases after with
        | nil => exact hinside ⟨[], by rw [List.append_nil, List.append_nil]⟩
        | cons c after =>
          obtain ⟨rfl, hafter⟩ := List.cons_prefix_cons.mp h
          obtain ⟨common, last, rfl, hends⟩ := ih hafter
          refine ⟨piece :: common, last, ?_, hends.cons⟩
          obtain ⟨first, tail, htail⟩ := List.exists_cons_of_ne_nil
            (List.append_ne_nil_of_right_ne_nil common (List.cons_ne_nil last []))
          rw [List.cons_append, htail, joinWith]

/-- Whether no colon at the front of the first of some segments makes a drive. -/
def Path.NoColon (pieces : List Segment) : Prop :=
  ∀ first, pieces.head? = some first → first.head? ≠ some ':'

theorem Path.NoColon.noDrive {pieces : List Segment} (h : Path.NoColon pieces) :
    NoDrive ('/' :: joinWith '/' pieces) := by
  unfold NoDrive
  rw [List.tail_cons]
  cases pieces with
  | nil => exact fun hcolon => by cases hcolon
  | cons first rest =>
    cases first with
    | nil => cases rest <;> exact fun hcolon => absurd hcolon (by simp [joinWith])
    | cons c first =>
      rw [joinWith_cons_cons]
      exact h (c :: first) rfl

theorem Path.NoColon.of_endsIn {pieces common : List Segment} {last : Segment}
    (h : Path.NoColon pieces) (hends : EndsIn pieces common last) :
    Path.NoColon (common ++ [last]) := by
  intro first hfirst hcolon
  cases common with
  | nil =>
    cases hfirst
    obtain ⟨rfl, _⟩ | ⟨more, rest, rfl⟩ := hends
    · cases hcolon
    · exact h (last ++ more) rfl (by rw [List.head?_append, hcolon]; rfl)
  | cons piece common =>
    obtain ⟨rest, rfl⟩ := hends.common_prefix
    exact h first hfirst hcolon

/-- The normal form of a rooted path that is written with forward slashes. -/
theorem Path.clean_of_pieces {path : String} {pieces : List Segment}
    (hpath : path.toList = '/' :: joinWith '/' pieces) (hne : pieces ≠ [])
    (hpieces : ∀ piece ∈ pieces, '/' ∉ piece ∧ '\\' ∉ piece) (hcolon : Path.NoColon pieces) :
    Path.clean path = pathOf ((collapse true pieces).map String.ofList) := by
  have hforward : Path.forwardChars path.toList = path.toList := by
    refine Path.forwardChars_of_notMem fun hc => ?_
    rw [hpath, List.mem_cons] at hc
    obtain ⟨piece, hpiece, hin⟩ :=
      mem_joinWith (hc.resolve_left (by decide)) |>.resolve_left (by decide)
    exact (hpieces piece hpiece).2 hin
  have hnone : Path.driveChars? path.toList = none := by
    rw [← hforward, hpath]
    exact hcolon.noDrive.driveChars?_eq_none
  have hsplit : splitOn '/' path.toList = [] :: pieces := by
    rw [hpath]
    exact (splitOn_append [] _).trans
      (by rw [splitOn_joinWith hne fun piece hp => (hpieces piece hp).1]; rfl)
  have hcollapse : collapse true ([] :: pieces) = collapse true pieces := by
    rw [collapse, List.foldl_cons, Path.pushSegment_nil, collapse]
  have hhead : path.toList.head? = some '/' := by rw [hpath]; rfl
  rw [Path.clean, pathOf, FileTree.map_toList_ofList]
  unfold Path.cleanChars
  simp only [hforward, hnone, if_pos hhead, hsplit, hcollapse]

/-! ## The way to an entry-point -/

/-- From a folder some names lead to an entry-point. -/
structure Leads (folder : String) (names : List String) (entryPoint : String) : Prop where
  normal : Normal folder
  names_eq : namesOf entryPoint = namesOf folder ++ names

/-- The first of some names leads from a folder onto the way to an entry-point. -/
def StartsTo (folder : String) (names : List String) (entryPoint : String) : Prop :=
  ∀ name rest, names = name :: rest → Leads (Path.join folder [name]) rest entryPoint

/-! ## Relative paths -/

namespace Path

theorem relativeSegments_beside (source : List Segment) {last next : Segment} (hne : last ≠ next)
    (rest : List Segment) :
    relativeSegments (source ++ [last]) (source ++ next :: rest) = parentSegment :: next :: rest := by
  induction source with
  | nil => rw [List.nil_append, List.nil_append, relativeSegments, if_neg hne]; rfl
  | cons segment source ih =>
    rw [List.cons_append, List.cons_append, relativeSegments, if_pos rfl, ih]

/-- A step to the folder above undoes the last of some plain segments. -/
theorem collapse_parent {common : List Segment} {last : Segment}
    (h : ∀ piece ∈ common ++ [last], Plain piece) :
    collapse true (common ++ [last] ++ [parentSegment]) = common := by
  have hlast := h last (List.mem_append_right _ (List.mem_singleton_self _))
  rw [collapse, List.foldl_append, foldl_pushSegment h, List.append_nil, List.reverse_append,
    List.reverse_singleton, List.singleton_append, List.foldl_cons, List.foldl_nil,
    pushSegment_parent hlast, List.reverse_reverse]

/-- The names of the way from a path to another. -/
theorem namesOf_relative (source target : String) :
    namesOf (relative source target)
      = (relativeSegments (segments (cleanChars source.toList))
          (segments (cleanChars target.toList))).map String.ofList := by
  rw [namesOf, relative, String.toList_ofList, relativeChars, segments_joinWith]
  intro segment hsegment
  rcases mem_relativeSegments hsegment with rfl | hsegment
  · decide
  · obtain ⟨hpiece, hne⟩ := List.mem_filter.mp hsegment
    exact ⟨of_decide_eq_true hne, fun hslash => (mem_splitOn hpiece hslash).2 rfl⟩

end Path

section Leads

variable {entryPoint folder : String} {names : List String}

theorem Leads.atOrBelow (h : Leads folder names entryPoint) : AtOrBelow folder entryPoint :=
  ⟨names, h.names_eq.symm⟩

/-- A folder from which names lead to an entry-point, by its normal form. -/
theorem startsTo_of_clean (hentry : Normal entryPoint) (hroot : Path.isRooted folder = true)
    {front : List String} (hclean : Path.clean folder = pathOf front)
    (hnames : namesOf entryPoint = front ++ names) : StartsTo folder names entryPoint := by
  rintro name rest rfl
  have hspelled : Spelled (front ++ [name]) := by
    have hall := hentry.spelled
    rw [hnames, List.append_cons] at hall
    exact hall.of_append
  have hjoin : Path.join folder [name] = pathOf (front ++ [name]) := by
    have hjoined := FileTree.namesOf_join_name hroot
      (hspelled.plain name (List.mem_append_right _ (List.mem_singleton_self _)))
    rw [hclean, FileTree.namesOf_pathOf hspelled.of_append.plain] at hjoined
    rw [FileTree.clean_join] at hjoined ⊢
    rw [FileTree.clean_eq_pathOf (by
      rw [String.append_assoc]
      exact FileTree.isRooted_append hroot _) (hjoined ▸ hspelled), hjoined]
  refine ⟨⟨_, hspelled, hjoin⟩, ?_⟩
  rw [hjoin, FileTree.namesOf_pathOf hspelled.plain, hnames, List.append_cons]

theorem Leads.startsTo (hentry : Normal entryPoint) (h : Leads folder names entryPoint) :
    StartsTo folder names entryPoint :=
  startsTo_of_clean hentry h.normal.isRooted (h.normal.clean.trans h.normal.eq_pathOf) h.names_eq

/-- Names that are followed one after the other. -/
theorem StartsTo.leads_foldl (hentry : Normal entryPoint) {first : String} {before after : List String}
    (h : StartsTo folder (first :: before ++ after) entryPoint) :
    Leads ((first :: before).foldl (fun folder name => Path.join folder [name]) folder) after
      entryPoint := by
  induction before generalizing folder first with
  | nil =>
    rw [List.foldl_cons, List.foldl_nil]
    exact h first after (List.cons_append ..)
  | cons next before ih =>
    rw [List.foldl_cons]
    exact ih ((h first _ (List.cons_append ..)).startsTo hentry)

theorem segments_clean_pathOf {path : String} {front : List String} (hfront : FileTree.PlainNames front)
    (hclean : Path.clean path = pathOf front) :
    Path.segments (Path.cleanChars path.toList) = front.map String.toList := by
  rw [← FileTree.namesOf_pathOf hfront, ← hclean, FileTree.map_toList_namesOf, Path.toList_clean]

/-- The names from a folder to an entry-point below it. -/
theorem startsTo_of_prefix (hentry : Normal entryPoint) (hroot : Path.isRooted folder = true)
    {front : List String} (hclean : Path.clean folder = pathOf front)
    (hfront : front <+: namesOf entryPoint) :
    StartsTo folder (namesOf (Path.relative folder entryPoint)) entryPoint := by
  obtain ⟨rest, hrest⟩ := hfront
  have hspelled : Spelled (front ++ rest) := hrest ▸ hentry.spelled
  refine startsTo_of_clean hentry hroot hclean ?_
  rw [Path.namesOf_relative, segments_clean_pathOf hspelled.of_append.plain hclean,
    segments_clean_pathOf hentry.spelled.plain (hentry.clean.trans hentry.eq_pathOf), ← hrest,
    List.map_append, Path.relativeSegments_append, FileTree.map_ofList_toList]

/-- The names from a folder to an entry-point whose path goes on with the folder's last name. -/
theorem startsTo_of_beside (hentry : Normal entryPoint) {common : List Segment}
    {last more : Segment} {rest : List Segment} (hcolon : Path.NoColon (common ++ [last]))
    (hfolder : folder.toList = '/' :: joinWith '/' (common ++ [last]))
    (hnames : (namesOf entryPoint).map String.toList = common ++ (last ++ more) :: rest)
    (hlast : Plain last) (hmore : more ≠ []) :
    StartsTo folder (namesOf (Path.relative folder entryPoint)) entryPoint := by
  have hplain : ∀ piece ∈ common ++ [last], Plain piece := by
    intro piece hpiece
    rcases List.mem_append.mp hpiece with hpiece | hpiece
    · exact hentry.spelled.plain.segments piece (hnames ▸ List.mem_append_left _ hpiece)
    · exact List.mem_singleton.mp hpiece ▸ hlast
  have hne : common ++ [last] ≠ [] := List.append_ne_nil_of_right_ne_nil _ (List.cons_ne_nil _ _)
  have hclean : Path.clean folder = pathOf ((common ++ [last]).map String.ofList) := by
    rw [Path.clean_of_pieces hfolder hne
      (fun piece hp => ⟨(hplain piece hp).no_slash, (hplain piece hp).no_backslash⟩) hcolon,
      Path.collapse_of_plain hplain]
  have hnames' : namesOf entryPoint = (common ++ (last ++ more) :: rest).map String.ofList := by
    rw [← hnames, FileTree.map_ofList_toList]
  have hrelative : namesOf (Path.relative folder entryPoint)
      = ".." :: ((last ++ more) :: rest).map String.ofList := by
    have hfront : FileTree.PlainNames ((common ++ [last]).map String.ofList) := by
      intro name hname
      obtain ⟨piece, hpiece, rfl⟩ := List.mem_map.mp hname
      rw [String.toList_ofList]
      exact hplain piece hpiece
    rw [Path.namesOf_relative, segments_clean_pathOf hfront hclean,
      segments_clean_pathOf hentry.spelled.plain (hentry.clean.trans hentry.eq_pathOf), hnames,
      FileTree.map_toList_ofList,
      Path.relativeSegments_beside common (fun heq => hmore (List.self_eq_append_right.mp heq))]
    rfl
  -- the step to the folder above the base leads to what the two paths share
  have hjoin : Path.join folder [".."] = pathOf (common.map String.ofList) := by
    have hpieces : (folder ++ "/" ++ "..").toList
        = '/' :: joinWith '/' (common ++ [last] ++ [parentSegment]) := by
      rw [joinWith_append hne (List.cons_ne_nil _ _), String.toList_append, String.toList_append,
        hfolder]
      simp [joinWith, parentSegment]
    rw [FileTree.clean_join, Path.clean_of_pieces hpieces
      (List.append_ne_nil_of_right_ne_nil _ (List.cons_ne_nil _ _)), Path.collapse_parent hplain]
    · intro piece hpiece
      rcases List.mem_append.mp hpiece with hpiece | hpiece
      · exact ⟨(hplain piece hpiece).no_slash, (hplain piece hpiece).no_backslash⟩
      · exact List.mem_singleton.mp hpiece ▸ by decide
    · intro first hfirst
      rw [List.head?_append_of_ne_nil _ hne] at hfirst
      exact hcolon first hfirst
  intro name rest' hsplit
  rw [hrelative] at hsplit
  cases hsplit
  rw [hjoin]
  have hspelled := hentry.spelled
  rw [hnames', List.map_append] at hspelled
  refine ⟨⟨_, hspelled.of_append, rfl⟩, ?_⟩
  rw [FileTree.namesOf_pathOf hspelled.of_append.plain, hnames', List.map_append]

theorem noColon_of_names (hentry : Normal entryPoint) :
    Path.NoColon ((namesOf entryPoint).map String.toList) := by
  intro first hfirst
  rw [List.head?_map, Option.map_eq_some_iff] at hfirst
  obtain ⟨name, hname, rfl⟩ := hfirst
  exact hentry.spelled.no_drive name hname

/-- **The names from a folder whose text starts that of an entry-point's path lead onto the
way to it.** -/
theorem startsTo_of_front (hentry : Normal entryPoint)
    (h : folder.toList <+: entryPoint.toList) :
    StartsTo folder (namesOf (Path.relative folder entryPoint)) entryPoint := by
  have htext : entryPoint.toList = '/' :: joinWith '/' ((namesOf entryPoint).map String.toList) := by
    conv_lhs => rw [hentry.eq_pathOf]
    rw [FileTree.toList_pathOf]
  have hsegments := segments_clean_pathOf hentry.spelled.plain (hentry.clean.trans hentry.eq_pathOf)
  have hplain := hentry.spelled.plain.segments
  have hcolon := noColon_of_names hentry
  cases hfolder : folder.toList with
  | nil =>
    -- the empty path is not rooted, and a step to the folder above it leads to the root
    obtain rfl : folder = "" := String.toList_inj.mp hfolder
    have hrelative : namesOf (Path.relative "" entryPoint) = ".." :: namesOf entryPoint := by
      rw [Path.namesOf_relative, hsegments, show Path.segments (Path.cleanChars "".toList) = [['.']]
        by decide]
      conv_rhs => rw [← FileTree.map_ofList_toList (namesOf entryPoint)]
      cases hnames : (namesOf entryPoint).map String.toList with
      | nil => rfl
      | cons first rest =>
        have hfirst := hplain first (hnames ▸ List.mem_cons_self)
        rw [Path.relativeSegments, if_neg (Ne.symm hfirst.ne_here)]
        rfl
    intro name rest hsplit
    rw [hrelative] at hsplit
    cases hsplit
    exact ⟨⟨[], Spelled.nil, by decide⟩, (List.nil_append _).symm⟩
  | cons c text =>
    rw [hfolder, htext, List.cons_prefix_cons] at h
    obtain ⟨rfl, h⟩ := h
    obtain ⟨common, last, rfl, hends⟩ := exists_endsIn_of_prefix h
    have hcommon : collapse true common = common :=
      Path.collapse_of_plain fun piece hp => hplain piece (hends.common_prefix.subset hp)
    have hslash := hends.no_slash hplain
    have hfirst := hcolon.of_endsIn hends
    have hclean := Path.clean_of_pieces hfolder
      (List.append_ne_nil_of_right_ne_nil _ (List.cons_ne_nil _ _)) hslash hfirst
    have hroot : Path.isRooted folder = true := by
      rw [Path.isRooted, hfolder]
      rfl
    have hbelow : collapse true (common ++ [last]) <+: (namesOf entryPoint).map String.toList →
        StartsTo folder (namesOf (Path.relative folder entryPoint)) entryPoint := fun hprefix =>
      startsTo_of_prefix hentry hroot hclean
        (FileTree.map_ofList_toList (namesOf entryPoint) ▸ hprefix.map String.ofList)
    by_cases hname : Plain last
    · obtain ⟨hnil, _⟩ | ⟨more, rest, hnames⟩ := hends
      · exact absurd hnil hname.ne_nil
      · by_cases hmore : more = []
        · refine hbelow ⟨rest, ?_⟩
          rw [Path.collapse_append common fun _ hp => List.mem_singleton.mp hp ▸ hname, hcommon,
            hnames, hmore, List.append_nil]
          exact (List.append_cons ..).symm
        · exact startsTo_of_beside hentry hfirst hfolder hnames hname hmore
    · have hlast := hslash last (List.mem_append_right _ (List.mem_singleton_self _))
      refine hbelow ((Path.collapse_step common hname hlast.1 hlast.2).trans ?_)
      exact hcommon.symm ▸ hends.common_prefix

end Leads

namespace FileTree

variable {tree : FileTree} {entryPoint base found : String}

theorem splitInstalled_eq_some {segments before after : List String}
    (h : splitInstalled segments = some (before, after)) :
    ∃ first rest, before = first :: rest ∧ segments = before ++ after := by
  induction segments generalizing before after with
  | nil => cases h
  | cons segment rest ih =>
    rw [splitInstalled] at h
    cases hrest : splitInstalled rest with
    | some split =>
      obtain ⟨inner, behind⟩ := split
      rw [hrest] at h
      cases h
      obtain ⟨_, _, _, hsplit⟩ := ih hrest
      exact ⟨segment, inner, rfl, congrArg _ hsplit⟩
    | none =>
      rw [hrest] at h
      dsimp only at h
      split at h <;> cases h
      exact ⟨segment, [], rfl, rfl⟩

theorem splitInstalled_eq_none {segments : List String} :
    splitInstalled segments = none ↔ "node_modules" ∉ segments := by
  induction segments with
  | nil => exact iff_of_true rfl List.not_mem_nil
  | cons segment rest ih =>
    rw [splitInstalled, List.mem_cons, not_or]
    cases hrest : splitInstalled rest with
    | some split =>
      refine iff_of_false (fun h => by cases h) fun h => ?_
      rw [ih.mpr h.2] at hrest
      cases hrest
    | none =>
      have hinside := ih.mp hrest
      dsimp only
      split
      · rename_i heq
        exact iff_of_false (fun h => by cases h) fun h => h.1 heq.symm
      · rename_i hne
        exact iff_of_true rfl ⟨fun heq => hne heq.symm, hinside⟩

/-- A package on the way down to an entry-point lies above it. -/
theorem atOrBelow_of_firstPackageBelow? (hentry : Normal entryPoint) {folder : String}
    {names : List String} (h : StartsTo folder names entryPoint)
    (hfound : tree.firstPackageBelow? folder names = some found) : AtOrBelow found entryPoint := by
  induction names generalizing folder with
  | nil => cases hfound
  | cons name rest ih =>
    have hleads := h name rest rfl
    rw [firstPackageBelow?] at hfound
    split at hfound
    · cases hfound
      exact hleads.atOrBelow
    · exact ih (hleads.startsTo hentry) hfound

/-- What is found below a base is the base itself or lies above the entry-point. -/
theorem packageBelow?_cases (hentry : Normal entryPoint)
    (h : StartsTo base (namesOf (Path.relative base entryPoint)) entryPoint)
    (hfound : tree.packageBelow? entryPoint base = some found) :
    AtOrBelow found entryPoint
      ∨ found = base ∧ tree.isEntryPoint base = true
        ∧ "node_modules" ∉ namesOf (Path.relative base entryPoint) := by
  rw [packageBelow?, ← namesOf] at hfound
  dsimp only at hfound
  split at hfound
  · rename_i hnone
    split at hfound
    · rename_i hbase
      cases hfound
      exact Or.inr ⟨rfl, hbase, splitInstalled_eq_none.mp hnone⟩
    · exact Or.inl (atOrBelow_of_firstPackageBelow? hentry h hfound)
  · rename_i before after hsome
    obtain ⟨first, rest, rfl, hsplit⟩ := splitInstalled_eq_some hsome
    exact Or.inl (atOrBelow_of_firstPackageBelow? hentry
      ((hsplit ▸ h).leads_foldl hentry |>.startsTo hentry) hfound)

/-! ## The climb -/

/-- The folder of a path in normal form is above it. -/
theorem leads_dirname {folder : String} {names : List String}
    (h : Leads folder names entryPoint) : ∃ more, Leads (Path.dirname folder) more entryPoint := by
  obtain ⟨own, hspelled, rfl⟩ := h.normal
  rcases List.eq_nil_or_concat' own with rfl | ⟨front, name, rfl⟩
  · exact ⟨names, ⟨⟨[], Spelled.nil, by decide⟩, h.names_eq⟩⟩
  · have hdirname := dirname_of_clean (clean_pathOf hspelled)
      (hspelled.plain name (List.mem_append_right _ (List.mem_singleton_self _)))
    refine ⟨name :: names, ⟨⟨front, hspelled.of_append, hdirname⟩, ?_⟩⟩
    rw [h.names_eq, hdirname, namesOf_pathOf hspelled.plain, namesOf_pathOf hspelled.of_append.plain]
    exact (List.append_cons ..).symm

theorem atOrBelow_climb (steps : Nat) {inner path : String} {names : List String}
    (hinner : AtOrBelow inner entryPoint) (h : Leads path names entryPoint) :
    AtOrBelow (climb steps inner path).1 entryPoint
      ∧ AtOrBelow (climb steps inner path).2 entryPoint := by
  induction steps generalizing inner path names with
  | zero => exact ⟨hinner, h.atOrBelow⟩
  | succ steps ih =>
    rw [climb]
    split
    · exact ⟨hinner, h.atOrBelow⟩
    · obtain ⟨more, hmore⟩ := leads_dirname h
      exact ih h.atOrBelow hmore

theorem atOrBelow_packageAbove (tree : FileTree) (hentry : Normal entryPoint) :
    AtOrBelow (tree.packageAbove entryPoint) entryPoint := by
  have hleads : Leads entryPoint [] entryPoint := ⟨hentry, (List.append_nil _).symm⟩
  obtain ⟨hinner, hpath⟩ :=
    atOrBelow_climb (entryPoint.length + 1) hleads.atOrBelow hleads
  unfold packageAbove
  dsimp only
  split
  · exact hpath
  · split
    · exact hinner
    · exact hleads.atOrBelow

/-! ## The package of an entry-point -/

/-- The package of an entry-point by a base: there is none if the text of its path does
not start with that of the base's. -/
def packageIn? (tree : FileTree) (entryPoint base : String) : Option String :=
  if (dropHead? base.toList entryPoint.toList).isSome then tree.packageBelow? entryPoint base
  else none

theorem packagePath_eq (tree : FileTree) (bases : List String) (entryPoint : String) :
    tree.packagePath bases entryPoint
      = (bases.findSome? (tree.packageIn? entryPoint)).getD (tree.packageAbove entryPoint) := rfl

/-- A base is taken for the package of an entry-point that lies elsewhere. -/
structure Misleads (tree : FileTree) (bases : List String) (entryPoint base : String) : Prop where
  first : ∃ front back, bases = front ++ base :: back
    ∧ ∀ other ∈ front, tree.packageIn? entryPoint other = none
  starts : base.toList <+: entryPoint.toList
  beside : ¬ AtOrBelow base entryPoint
  described : tree.isEntryPoint base = true
  not_installed : "node_modules" ∉ namesOf (Path.relative base entryPoint)

theorem isSome_dropHead?_iff {head text : List Char} :
    (dropHead? head text).isSome = true ↔ head <+: text := by
  constructor
  · intro h
    obtain ⟨rest, hrest⟩ := Option.isSome_iff_exists.mp h
    exact ⟨rest, (dropHead?_eq_some hrest).symm⟩
  · rintro ⟨rest, rfl⟩
    rw [dropHead?_append]
    rfl

/-- The package of an entry-point by a base lies above it, or is the base. -/
theorem packageIn?_cases (hentry : Normal entryPoint)
    (h : tree.packageIn? entryPoint base = some found) :
    AtOrBelow found entryPoint
      ∨ found = base ∧ base.toList <+: entryPoint.toList ∧ tree.isEntryPoint base = true
        ∧ "node_modules" ∉ namesOf (Path.relative base entryPoint) := by
  rw [packageIn?] at h
  split at h
  · rename_i hstarts
    have hfront := isSome_dropHead?_iff.mp hstarts
    exact (packageBelow?_cases hentry (startsTo_of_front hentry hfront) h).imp_right
      fun ⟨hbase, hrest⟩ => ⟨hbase, hfront, hrest⟩
  · cases h

theorem Misleads.packageIn? {bases : List String} (h : tree.Misleads bases entryPoint base) :
    tree.packageIn? entryPoint base = some base := by
  rw [FileTree.packageIn?, if_pos (isSome_dropHead?_iff.mpr h.starts), packageBelow?, ← namesOf]
  dsimp only
  rw [splitInstalled_eq_none.mpr h.not_installed]
  exact if_pos h.described

theorem Misleads.packagePath {bases : List String} (h : tree.Misleads bases entryPoint base) :
    tree.packagePath bases entryPoint = base := by
  obtain ⟨front, back, rfl, hfront⟩ := h.first
  rw [packagePath_eq, List.findSome?_append, List.findSome?_eq_none_iff.mpr hfront,
    List.findSome?_cons, h.packageIn?]
  rfl

/-- **The package of an entry-point lies above it, or is it, just if no base is taken for
the package of an entry-point that lies elsewhere**; else it is that base. -/
theorem packagePath_above_iff (tree : FileTree) (bases : List String) (hentry : Normal entryPoint) :
    (AtOrBelow (tree.packagePath bases entryPoint) entryPoint
        ↔ ¬ ∃ base, tree.Misleads bases entryPoint base)
      ∧ ∀ base, tree.Misleads bases entryPoint base → tree.packagePath bases entryPoint = base := by
  refine ⟨⟨?_, ?_⟩, fun base h => h.packagePath⟩
  · rintro habove ⟨base, h⟩
    exact h.beside (h.packagePath ▸ habove)
  · intro hnone
    rw [packagePath_eq]
    cases hfind : bases.findSome? (tree.packageIn? entryPoint) with
    | none =>
      rw [Option.getD_none]
      exact atOrBelow_packageAbove tree hentry
    | some found =>
      obtain ⟨front, base, back, rfl, hfound, hfront⟩ := List.findSome?_eq_some_iff.mp hfind
      rw [Option.getD_some]
      by_contra hbeside
      obtain ⟨rfl, hstarts, hdescribed, hinstalled⟩ :=
        (packageIn?_cases hentry hfound).resolve_left hbeside
      exact hnone ⟨found, ⟨front, back, rfl, hfront⟩, hstarts, hbeside, hdescribed, hinstalled⟩

/-- A library with a package in a folder below it, and another one whose name goes on with
that of the first. -/
def librariesTree : FileTree where
  root := [("project", .folder [
    ("lib", .folder [("package.json", .file .empty),
      ("testing", .folder [("package.json", .file .empty)])]),
    ("lib-extra", .folder [("package.json", .file .empty)])])]

/-- The package of an entry-point in a folder of a package. -/
theorem packagePath_above_iff_testing :
    Normal "/project/lib/testing"
      ∧ ((AtOrBelow (librariesTree.packagePath ["/project/lib"] "/project/lib/testing")
            "/project/lib/testing"
          ↔ ¬ ∃ base, librariesTree.Misleads ["/project/lib"] "/project/lib/testing" base)
        ∧ ∀ base, librariesTree.Misleads ["/project/lib"] "/project/lib/testing" base →
          librariesTree.packagePath ["/project/lib"] "/project/lib/testing" = base)
      ∧ librariesTree.packagePath ["/project/lib"] "/project/lib/testing" = "/project/lib" := by
  have hnormal : Normal "/project/lib/testing" :=
    ⟨["project", "lib", "testing"], by decide, by decide⟩
  exact ⟨hnormal, packagePath_above_iff librariesTree ["/project/lib"] hnormal, by decide +kernel⟩

/-- **A library is taken for the package of another one whose name goes on with its name.** -/
theorem packagePath_beside :
    Normal "/project/lib-extra"
      ∧ (librariesTree.basePaths "/project/lib" none).1 = ["/project/lib"]
      ∧ librariesTree.packagePath (librariesTree.basePaths "/project/lib" none).1
          "/project/lib-extra" = "/project/lib"
      ∧ ¬ AtOrBelow "/project/lib" "/project/lib-extra" :=
  ⟨⟨["project", "lib-extra"], by decide, by decide⟩, by decide +kernel⟩

end FileTree

end PackageOrder
