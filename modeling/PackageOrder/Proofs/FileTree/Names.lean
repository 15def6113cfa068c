/-
PackageOrder.Proofs.FileTree.Names — paths by the names that they spell.

Names that a path can spell are plain, and none at its front starts with a colon,
which would make a drive of the root. The path that they spell (`pathOf`) is in
normal form, and every rooted path has such a normal form unless it is one of a
drive (`clean_eq_pathOf`). A name below a rooted path is a name more in its normal
form, however the path is written (`namesOf_join_name`).
-/
import PackageOrder.Proofs.FileTree.Reach

namespace PackageOrder

open PackageOrder.Text
open PackageOrder.Path (Plain)

/-! ## Normal forms of rooted paths -/

namespace Path

theorem forwardChars_forwardChars (path : List Char) :
    forwardChars (forwardChars path) = forwardChars path :=
  forwardChars_of_notMem (notMem_forwardChars path)

/-- The normal form is that of the path with forward slashes. -/
theorem cleanChars_forwardChars (path : List Char) :
    cleanChars (forwardChars path) = cleanChars path := by
  unfold cleanChars
  rw [forwardChars_forwardChars]

/-- What stands behind a path may be added to it with forward slashes. -/
theorem cleanChars_forwardChars_append (path rest : List Char) :
    cleanChars (forwardChars path ++ rest) = cleanChars (path ++ rest) := by
  rw [← cleanChars_forwardChars, forwardChars_append, forwardChars_forwardChars,
    ← forwardChars_append, cleanChars_forwardChars]

theorem forwardChars_of_plain {name : Segment} (h : Plain name) : forwardChars name = name :=
  forwardChars_joinWith (fun _ hp => List.mem_singleton.mp hp ▸ h : ∀ piece ∈ [name], Plain piece)

theorem head?_forwardChars {path : List Char} (h : path.head? = some '/') :
    (forwardChars path).head? = some '/' := by
  obtain ⟨rest, rfl⟩ := List.head?_eq_some_iff.mp h
  rfl

/-- A path has a drive only by a colon behind its first character. -/
theorem driveChars?_eq_none {path : List Char} (hcolon : path.tail.head? ≠ some ':') :
    driveChars? path = none := by
  cases h : driveChars? path with
  | none => rfl
  | some drive =>
    obtain ⟨letter, rest⟩ := drive
    rw [mem_of_driveChars? h] at hcolon
    exact absurd rfl hcolon

/-- The letter of the drive of a rooted path is the slash. -/
theorem letter_of_rooted {path rest : List Char} {letter : Char} (hroot : path.head? = some '/')
    (h : driveChars? path = some (letter, rest)) : letter = '/' := by
  rw [mem_of_driveChars? h] at hroot
  exact Option.some.inj hroot

/-- The first segment of a rooted path starts with a colon behind the root. -/
theorem exists_segments_colon (rest : List Char) :
    ∃ name tail, segments ('/' :: ':' :: rest) = (':' :: name) :: tail := by
  rw [segments_slash, segments, splitOn, if_neg (by decide)]
  cases hs : splitOn '/' rest with
  | nil => exact absurd hs (splitOn_ne_nil '/' rest)
  | cons piece pieces => exact ⟨piece, pieces.filter (· ≠ []), by simp⟩

theorem pushSegment_nil (anchored : Bool) (stack : List Segment) :
    pushSegment anchored stack [] = stack :=
  if_pos (Or.inl rfl)

/-- Empty segments go nowhere. -/
theorem collapse_filter (anchored : Bool) (pieces : List Segment) :
    collapse anchored (pieces.filter (· ≠ [])) = collapse anchored pieces := by
  have hfold : ∀ (pieces stack : List Segment),
      (pieces.filter (· ≠ [])).foldl (pushSegment anchored) stack
        = pieces.foldl (pushSegment anchored) stack := by
    intro pieces
    induction pieces with
    | nil => exact fun _ => rfl
    | cons piece rest ih =>
      intro stack
      by_cases hne : piece = []
      · rw [List.filter_cons_of_neg (by simp [hne]), ih, List.foldl_cons, hne, pushSegment_nil]
      · rw [List.filter_cons_of_pos (by simp [hne]), List.foldl_cons, List.foldl_cons, ih]
  rw [collapse, hfold, collapse]

theorem collapse_concat_slash (anchored : Bool) (front : List Char) :
    collapse anchored (splitOn '/' (front ++ ['/'])) = collapse anchored (splitOn '/' front) := by
  rw [splitOn_append, collapse, collapse, List.foldl_append, splitOn, List.foldl_cons,
    pushSegment_nil, List.foldl_nil]

/-- A slash at the end of a rooted path says nothing. -/
theorem cleanChars_concat_slash {path : List Char} (hroot : path.head? = some '/') :
    cleanChars (path ++ ['/']) = cleanChars path := by
  have hforward : forwardChars (path ++ ['/']) = forwardChars path ++ ['/'] := by
    rw [forwardChars_append]
    rfl
  obtain ⟨rest, hrest⟩ := List.head?_eq_some_iff.mp (head?_forwardChars hroot)
  have hhead : (forwardChars path ++ ['/']).head? = some '/' := by
    rw [hrest]
    rfl
  unfold cleanChars
  cases hdrive : driveChars? (forwardChars path) with
  | some drive =>
    obtain ⟨letter, after⟩ := drive
    have hpath := mem_of_driveChars? hdrive
    have hletter : letter = '/' := letter_of_rooted (head?_forwardChars hroot) hdrive
    have hmore : driveChars? (forwardChars path ++ ['/']) = some (letter, after ++ ['/']) := by
      rw [hpath, hletter]
      rfl
    simp only [hforward, hdrive, hmore, collapse_concat_slash]
  | none =>
    have hmore : driveChars? (forwardChars path ++ ['/']) = none := by
      refine driveChars?_eq_none ?_
      rw [hrest] at hdrive ⊢
      rcases rest with _ | ⟨c, rest⟩
      · decide
      · intro hcolon
        rw [show c = ':' from Option.some.inj hcolon] at hdrive
        cases hdrive
    simp only [hforward, hdrive, hmore, if_pos hhead, if_pos (head?_forwardChars hroot), collapse_concat_slash]

/-- The segments of a rooted path and names below it. -/
theorem segments_clean_names {path : List Char} (hroot : path.head? = some '/')
    {names : List Segment} (hne : names ≠ []) (hnames : ∀ name ∈ names, Plain name) :
    segments (cleanChars (path ++ '/' :: joinWith '/' names))
      = segments (cleanChars path) ++ names := by
  have hforward : forwardChars (path ++ '/' :: joinWith '/' names)
      = forwardChars path ++ '/' :: joinWith '/' names := by
    rw [forwardChars_append, forwardChars_slash, forwardChars_joinWith hnames]
  have hsplit : ∀ front : List Char,
      collapse true (splitOn '/' (front ++ '/' :: joinWith '/' names))
        = collapse true (splitOn '/' front) ++ names := by
    intro front
    rw [splitOn_append, splitOn_joinWith hne fun name hname => (hnames name hname).no_slash,
      collapse_append _ hnames]
  obtain ⟨rest, hrest⟩ := List.head?_eq_some_iff.mp (head?_forwardChars hroot)
  cases hdrive : driveChars? (forwardChars path) with
  | none =>
    have hnone : driveChars? (forwardChars (path ++ '/' :: joinWith '/' names)) = none := by
      rw [hforward, hrest]
      refine driveChars?_eq_none ?_
      cases rest with
      | nil => exact fun h => absurd (Option.some.inj h) (by decide)
      | cons c rest =>
        intro h
        rw [hrest, show c = ':' from Option.some.inj h] at hdrive
        cases hdrive
    rw [segments_clean_rooted hdrive (head?_forwardChars hroot),
      segments_clean_rooted hnone (by rw [hforward, hrest]; rfl), hforward, hsplit]
  | some drive =>
    obtain ⟨letter, after⟩ := drive
    have hpath := mem_of_driveChars? hdrive
    obtain rfl := letter_of_rooted (head?_forwardChars hroot) hdrive
    have hsome : driveChars? (forwardChars (path ++ '/' :: joinWith '/' names))
        = some ('/', after ++ '/' :: joinWith '/' names) := by
      rw [hforward, hpath]
      rfl
    rw [segments_clean_drive hdrive, segments_clean_drive hsome, hsplit, List.append_assoc]

/-- The segments of a rooted path and a name below it. -/
theorem segments_clean_name {path : List Char} (hroot : path.head? = some '/') {name : Segment}
    (hname : Plain name) :
    segments (cleanChars (path ++ '/' :: name)) = segments (cleanChars path) ++ [name] :=
  segments_clean_names hroot (List.cons_ne_nil name [])
    fun _ hp => List.mem_singleton.mp hp ▸ hname

end Path

namespace FileTree

/-- The path that some names spell from the root. -/
def pathOf (names : List String) : String :=
  .ofList ('/' :: joinWith '/' (names.map String.toList))

@[simp] theorem toList_pathOf (names : List String) :
    (pathOf names).toList = '/' :: joinWith '/' (names.map String.toList) :=
  String.toList_ofList

/-- Names that a path in normal form spells. -/
structure Spelled (names : List String) : Prop where
  plain : PlainNames names
  no_drive : ∀ name, names.head? = some name → name.toList.head? ≠ some ':'

/-- Names behind others. -/
theorem namesOf_append (before after : String) :
    namesOf (before ++ "/" ++ after) = namesOf before ++ namesOf after := by
  rw [namesOf, String.toList_append, String.toList_append, List.append_assoc]
  change (Path.segments (before.toList ++ '/' :: after.toList)).map String.ofList = _
  rw [Path.segments_append, List.map_append, namesOf, namesOf]

theorem namesOf_plain {name : String} (h : Plain name.toList) : namesOf name = [name] := by
  have hsegments : Path.segments (joinWith '/' [name.toList]) = [name.toList] :=
    Path.segments_joinWith fun piece hpiece => by
      rw [List.mem_singleton.mp hpiece]
      exact ⟨h.ne_nil, h.no_slash⟩
  rw [joinWith] at hsegments
  rw [namesOf, hsegments, List.map_singleton, String.ofList_toList]

theorem PlainNames.segments {names : List String} (h : PlainNames names) :
    ∀ piece ∈ names.map String.toList, Plain piece := by
  intro piece hpiece
  obtain ⟨name, hname, rfl⟩ := List.mem_map.mp hpiece
  exact h name hname

theorem PlainNames.append {before after : List String} (hbefore : PlainNames before)
    (hafter : PlainNames after) : PlainNames (before ++ after) :=
  fun name hname => (List.mem_append.mp hname).elim (hbefore name) (hafter name)

theorem namesOf_pathOf {names : List String} (h : PlainNames names) :
    namesOf (pathOf names) = names := by
  rw [namesOf, toList_pathOf, Path.segments_slash,
    Path.segments_joinWith fun piece hpiece =>
      ⟨(h.segments piece hpiece).ne_nil, (h.segments piece hpiece).no_slash⟩,
    map_ofList_toList]

namespace Spelled

variable {names : List String}

theorem of_append {before after : List String} (h : Spelled (before ++ after)) :
    Spelled before where
  plain name hname := h.plain name (List.mem_append_left _ hname)
  no_drive name hname := h.no_drive name (by rw [List.head?_append, hname]; rfl)

theorem append_name (h : Spelled names) {name : String} (hname : Plain name.toList)
    (hne : names ≠ []) : Spelled (names ++ [name]) where
  plain := h.plain.append fun _ ho => List.mem_singleton.mp ho ▸ hname
  no_drive first hfirst := h.no_drive first (by rwa [List.head?_append_of_ne_nil _ hne] at hfirst)

theorem nil : Spelled [] :=
  ⟨fun _ hname => absurd hname List.not_mem_nil, fun _ h => nomatch h⟩

end Spelled

/-! ## Writing names -/

theorem namesOf_clean_plain {path : String} (hroot : Path.isRooted path = true) :
    PlainNames (namesOf (Path.clean path)) := by
  have hhead : path.toList.head? = some '/' := Path.head?_of_isRooted hroot
  intro name hname
  have hmem : name.toList ∈ (namesOf (Path.clean path)).map String.toList :=
    List.mem_map_of_mem hname
  rw [map_toList_namesOf, Path.toList_clean] at hmem
  exact Path.plain_of_rooted hhead _ hmem

/-- **The normal form of a rooted path is spelled by its names**, unless it is one of
a drive. -/
theorem clean_eq_pathOf {path : String} (hroot : Path.isRooted path = true)
    (h : Spelled (namesOf (Path.clean path))) : Path.clean path = pathOf (namesOf (Path.clean path)) := by
  have hhead : path.toList.head? = some '/' := Path.head?_of_isRooted hroot
  have hforward := Path.head?_forwardChars hhead
  have hnames := map_toList_namesOf (Path.clean path)
  rw [Path.toList_clean] at hnames
  cases hdrive : Path.driveChars? (Path.forwardChars path.toList) with
  | none =>
    have hclean : Path.cleanChars path.toList
        = '/' :: joinWith '/' (Path.segments (Path.cleanChars path.toList)) := by
      rw [Path.segments_clean_rooted hdrive hforward]
      unfold Path.cleanChars
      simp only [hdrive, if_pos hforward]
    rw [← String.toList_inj, toList_pathOf, hnames, Path.toList_clean, ← hclean]
  | some drive =>
    obtain ⟨letter, rest⟩ := drive
    obtain rfl := Path.letter_of_rooted hforward hdrive
    have hsegments := Path.segments_clean_drive hdrive
    rw [show Path.segments ['/', ':'] = [[':']] by decide] at hsegments
    have hfirst : (namesOf (Path.clean path)).head? = some ":" := by
      rw [namesOf, Path.toList_clean, hsegments]
      rfl
    exact absurd rfl (h.no_drive ":" hfirst)

theorem clean_pathOf {names : List String} (h : Spelled names) :
    Path.clean (pathOf names) = pathOf names := by
  have hpieces := h.plain.segments
  have hforward : Path.forwardChars ('/' :: joinWith '/' (names.map String.toList))
      = '/' :: joinWith '/' (names.map String.toList) := by
    rw [Path.forwardChars_slash, Path.forwardChars_joinWith hpieces]
  have hdrive : Path.driveChars? ('/' :: joinWith '/' (names.map String.toList)) = none := by
    refine Path.driveChars?_eq_none ?_
    cases names with
    | nil => exact fun hnil => nomatch hnil
    | cons first rest =>
      have hfirst := h.no_drive first rfl
      obtain ⟨c, name, hname⟩ := List.exists_cons_of_ne_nil
        (hpieces first.toList List.mem_cons_self).ne_nil
      rw [List.tail_cons, List.map_cons, hname, joinWith_cons_cons]
      rw [hname] at hfirst
      exact hfirst
  have hsegments : Path.collapse true (splitOn '/' ('/' :: joinWith '/' (names.map String.toList)))
      = names.map String.toList := by
    rw [← Path.collapse_filter, ← Path.segments, Path.segments_slash,
      Path.segments_joinWith fun piece hpiece =>
        ⟨(hpieces piece hpiece).ne_nil, (hpieces piece hpiece).no_slash⟩]
    exact Path.collapse_of_plain hpieces
  rw [Path.clean, toList_pathOf]
  unfold Path.cleanChars
  simp only [hforward, hdrive, hsegments]
  rfl

theorem isRooted_pathOf (names : List String) : Path.isRooted (pathOf names) = true := by
  rw [Path.isRooted, toList_pathOf]
  rfl

/-! ## Names below a path -/

/-- **A name below a rooted path is one more name of its normal form.** -/
theorem namesOf_join_name {path name : String} (hroot : Path.isRooted path = true)
    (hname : Plain name.toList) :
    namesOf (Path.join path [name]) = namesOf (Path.clean path) ++ [name] := by
  have hhead : path.toList.head? = some '/' := Path.head?_of_isRooted hroot
  rw [namesOf, Path.toList_join_name, Path.segments_clean_name hhead hname, List.map_append,
    namesOf, Path.toList_clean, List.map_singleton, String.ofList_toList]

theorem clean_join (path name : String) :
    Path.join path [name] = Path.clean (path ++ "/" ++ name) := by
  rw [← String.toList_inj, Path.toList_join_name, Path.toList_clean, String.toList_append,
    String.toList_append, List.append_assoc]
  rfl

theorem isRooted_append {path : String} (hroot : Path.isRooted path = true) (rest : String) :
    Path.isRooted (path ++ rest) = true := by
  have hhead : path.toList.head? = some '/' := Path.head?_of_isRooted hroot
  rw [Path.isRooted, String.toList_append, List.head?_append, hhead]
  rfl

/-- A name below the path that some names spell. -/
theorem join_pathOf {names : List String} {name : String} (h : Spelled (names ++ [name])) :
    Path.join (pathOf names) [name] = pathOf (names ++ [name]) := by
  have hname := h.plain name (List.mem_append_right _ (List.mem_singleton_self _))
  have hnames : namesOf (Path.join (pathOf names) [name]) = names ++ [name] := by
    rw [namesOf_join_name (isRooted_pathOf names) hname, clean_pathOf h.of_append,
      namesOf_pathOf h.of_append.plain]
  rw [clean_join] at hnames ⊢
  have hroot : Path.isRooted (pathOf names ++ "/" ++ name) = true := by
    rw [String.append_assoc]
    exact isRooted_append (isRooted_pathOf names) _
  rw [clean_eq_pathOf hroot (hnames ▸ h), hnames]

variable (tree : FileTree)

/-- Resolving a rooted path is bringing it into its normal form. -/
theorem resolve_rooted {path : String} (hroot : Path.isRooted path = true) :
    tree.resolve [path] = Path.clean path := by
  have hhead : path.toList.head? = some '/' := Path.head?_of_isRooted hroot
  rw [resolve, Path.resolve, Path.resolveChars, List.map_singleton, List.foldl_cons, List.foldl_nil]
  dsimp only
  rw [if_pos (Path.head?_forwardChars hhead), Path.cleanChars_forwardChars, Path.clean]

/-- Resolving a name in a rooted path is joining them. -/
theorem resolve_name {path name : String} (hroot : Path.isRooted path = true)
    (hname : Plain name.toList) : tree.resolve [path, name] = Path.join path [name] := by
  have hhead : path.toList.head? = some '/' := Path.head?_of_isRooted hroot
  have hslash : name.toList.head? ≠ some '/' := by
    intro h
    obtain ⟨rest, hrest⟩ := List.head?_eq_some_iff.mp h
    exact hname.no_slash (hrest ▸ List.mem_cons_self)
  rw [← String.toList_inj, Path.toList_join_name, resolve, Path.resolve, String.toList_ofList,
    Path.resolveChars, List.map_cons, List.map_singleton, List.foldl_cons, List.foldl_cons,
    List.foldl_nil]
  dsimp only
  rw [if_pos (Path.head?_forwardChars hhead), Path.forwardChars_of_plain hname, if_neg hslash,
    if_neg hname.ne_nil, Path.cleanChars_forwardChars_append]

/-! ## The folder of a path -/

theorem cutLast?_of_notMem {name : List Char} (h : '/' ∉ name) (before : List Char) :
    Path.cutLast? (before ++ '/' :: name) = some (before, name) := by
  have hreverse : (before ++ '/' :: name).reverse = name.reverse ++ '/' :: before.reverse := by
    simp
  rw [Path.cutLast?, hreverse, cutAt?_of_notMem (fun hm => h (List.mem_reverse.mp hm))]
  simp

/-- The last name stands behind the path of the others, and behind the first slash if
there are none. -/
theorem toList_pathOf_concat (front : List String) :
    ∃ before, (front = [] ∧ before = [] ∨ front ≠ [] ∧ before = (pathOf front).toList)
      ∧ ∀ name, (pathOf (front ++ [name])).toList = before ++ '/' :: name.toList := by
  by_cases hfront : front = []
  · exact ⟨[], Or.inl ⟨hfront, rfl⟩, fun name => by rw [hfront, toList_pathOf]; rfl⟩
  · refine ⟨(pathOf front).toList, Or.inr ⟨hfront, rfl⟩, fun name => ?_⟩
    rw [toList_pathOf, toList_pathOf, List.map_append, List.map_singleton,
      joinWith_append (by simpa using hfront) (List.cons_ne_nil _ _)]
    rfl

/-- The folder of a path that is spelled by names lacks the last of them. -/
theorem dirname_of_clean {path : String} {names : List String} {name : String}
    (hclean : Path.clean path = pathOf (names ++ [name])) (hname : Plain name.toList) :
    Path.dirname path = pathOf names := by
  obtain ⟨before, hbefore, hchars⟩ := toList_pathOf_concat names
  rw [← String.toList_inj, Path.toList_dirname, Path.dirnameChars, ← Path.toList_clean, hclean,
    hchars name, cutLast?_of_notMem hname.no_slash]
  rcases hbefore with ⟨rfl, rfl⟩ | ⟨_, rfl⟩
  · rfl
  · rw [toList_pathOf]

/-- The last name of a path that is spelled by names. -/
theorem basename_of_clean {path : String} {names : List String} {name : String}
    (hclean : Path.clean path = pathOf (names ++ [name])) (hname : Plain name.toList) :
    Path.basename path none = name := by
  obtain ⟨before, _, hchars⟩ := toList_pathOf_concat names
  have hlast : Path.lastChars (Path.cleanChars path.toList) = name.toList := by
    rw [← Path.toList_clean, hclean, hchars name, Path.lastChars, cutLast?_of_notMem hname.no_slash]
  exact (congrArg String.ofList hlast).trans String.ofList_toList

/-- An ending of a path is one of its last name. -/
theorem pathOf_append (front : List String) (last ending : String) :
    pathOf (front ++ [last]) ++ ending = pathOf (front ++ [last ++ ending]) := by
  obtain ⟨before, _, hchars⟩ := toList_pathOf_concat front
  rw [← String.toList_inj, String.toList_append, hchars, hchars, String.toList_append,
    List.append_assoc, List.cons_append]

/-- A rooted path whose own names spell one is a way of writing that. -/
theorem clean_of_spelled {path : String} (hroot : Path.isRooted path = true)
    (h : Spelled (namesOf path)) : Path.clean path = pathOf (namesOf path) := by
  have hhead : path.toList.head? = some '/' := Path.head?_of_isRooted hroot
  have hpieces := h.plain.segments
  rw [map_toList_namesOf] at hpieces
  have hback : '\\' ∉ path.toList := by
    intro hmem
    rw [← joinWith_splitOn '/' path.toList] at hmem
    obtain ⟨piece, hpiece, hin⟩ := (mem_joinWith hmem).resolve_left (by decide)
    have hne : piece ≠ [] := List.ne_nil_of_mem hin
    exact (hpieces piece (List.mem_filter.mpr ⟨hpiece, decide_eq_true hne⟩)).no_backslash hin
  have hforward := Path.forwardChars_of_notMem hback
  have hsegments : Path.collapse true (splitOn '/' path.toList) = Path.segments path.toList := by
    rw [← Path.collapse_filter, ← Path.segments]
    exact Path.collapse_of_plain hpieces
  have hdrive : Path.driveChars? path.toList = none := by
    cases hdrive : Path.driveChars? path.toList with
    | none => rfl
    | some drive =>
      obtain ⟨letter, rest⟩ := drive
      have hpath := Path.mem_of_driveChars? hdrive
      obtain rfl := Path.letter_of_rooted hhead hdrive
      -- the first name would start with the colon of the drive
      obtain ⟨name, tail, hfirst⟩ := Path.exists_segments_colon rest
      rw [← hpath] at hfirst
      refine absurd ?_ (h.no_drive (.ofList (':' :: name)) (by rw [namesOf, hfirst]; rfl))
      rw [String.toList_ofList]
      rfl
  rw [Path.clean, pathOf, map_toList_namesOf]
  unfold Path.cleanChars
  simp only [hforward, hdrive, if_pos hhead, hsegments]

end FileTree

end PackageOrder
