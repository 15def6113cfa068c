/-
PackageOrder.Proofs.Path.Clean — the segments of a path in normal form.

A segment is plain if it names something: it is not empty, no step to the folder
itself or the one above, and without slashes of either kind.

* `plain_of_rooted` — the normal form of a rooted path has plain segments only.
* `cleanChars_behind`, `segments_clean_behind` — plain segments behind anything stay as
  they are in the normal form. Only at the very front a colon makes a drive of what
  precedes it: `/:x` is the folder `x` of a drive.
* `length_clean_le_of_rooted` — a rooted path in normal form is about as long as its
  segments with a slash each.
-/
import PackageOrder.Path.Basic
import PackageOrder.Proofs.Text.Split

namespace PackageOrder.Path

open PackageOrder.Text

/-! ## The characters of a path -/

@[simp] theorem toList_clean (path : String) : (clean path).toList = cleanChars path.toList :=
  String.toList_ofList

@[simp] theorem toList_dirname (path : String) : (dirname path).toList = dirnameChars path.toList :=
  String.toList_ofList

theorem toList_join_name (path name : String) :
    (join path [name]).toList = cleanChars (path.toList ++ '/' :: name.toList) :=
  String.toList_ofList

/-! ## Plain segments -/

/-- A segment that names something. -/
structure Plain (segment : Segment) : Prop where
  ne_nil : segment ≠ []
  ne_here : segment ≠ ['.']
  ne_parent : segment ≠ parentSegment
  no_slash : '/' ∉ segment
  no_backslash : '\\' ∉ segment

instance (segment : Segment) : Decidable (Plain segment) :=
  decidable_of_iff
    (segment ≠ [] ∧ segment ≠ ['.'] ∧ segment ≠ parentSegment ∧ '/' ∉ segment ∧ '\\' ∉ segment)
    ⟨fun ⟨hnil, hhere, hparent, hslash, hback⟩ => ⟨hnil, hhere, hparent, hslash, hback⟩,
      fun h => ⟨h.ne_nil, h.ne_here, h.ne_parent, h.no_slash, h.no_backslash⟩⟩

/-- Three characters or more name something if none of them is a slash. -/
theorem plain_of_length {segment : Segment} (hslash : '/' ∉ segment) (hback : '\\' ∉ segment)
    (h : 3 ≤ segment.length) : Plain segment := by
  refine ⟨?_, ?_, ?_, hslash, hback⟩ <;> rintro rfl <;> exact absurd h (by decide)

/-- The length of some segments with a slash each. -/
def size (segments : List Segment) : Nat :=
  (segments.map (·.length + 1)).sum

@[simp] theorem size_nil : size [] = 0 := rfl

@[simp] theorem size_cons (segment : Segment) (rest : List Segment) :
    size (segment :: rest) = segment.length + 1 + size rest := by
  rw [size, List.map_cons, List.sum_cons, size]

@[simp] theorem size_append (before after : List Segment) :
    size (before ++ after) = size before + size after := by
  rw [size, List.map_append, List.sum_append, size, size]

/-! ## Segments -/

theorem segments_append (before after : List Char) :
    segments (before ++ '/' :: after) = segments before ++ segments after := by
  rw [segments, splitOn_append, List.filter_append, segments, segments]

theorem segments_slash (path : List Char) : segments ('/' :: path) = segments path :=
  segments_append [] path

theorem segments_joinWith {pieces : List Segment} (h : ∀ piece ∈ pieces, piece ≠ [] ∧ '/' ∉ piece) :
    segments (joinWith '/' pieces) = pieces := by
  by_cases hne : pieces = []
  · rw [hne]
    rfl
  · rw [segments, splitOn_joinWith hne fun piece hpiece => (h piece hpiece).2, List.filter_eq_self]
    exact fun piece hpiece => decide_eq_true (h piece hpiece).1

theorem forwardChars_append (before after : List Char) :
    forwardChars (before ++ after) = forwardChars before ++ forwardChars after :=
  List.map_append

theorem forwardChars_slash (path : List Char) :
    forwardChars ('/' :: path) = '/' :: forwardChars path := rfl

theorem notMem_forwardChars (path : List Char) : '\\' ∉ forwardChars path := by
  intro h
  obtain ⟨c, _, hc⟩ := List.mem_map.mp h
  split at hc
  · exact absurd hc (by decide)
  · rename_i hne
    exact hne hc

theorem forwardChars_of_notMem {path : List Char} (h : '\\' ∉ path) : forwardChars path = path := by
  refine (List.map_congr_left fun c hc => if_neg ?_).trans (List.map_id _)
  rintro rfl
  exact h hc

theorem head?_of_isRooted {path : String} (h : isRooted path = true) :
    path.toList.head? = some '/' :=
  beq_iff_eq.mp h

/-- Plain segments have forward slashes only. -/
theorem forwardChars_joinWith {pieces : List Segment} (h : ∀ piece ∈ pieces, Plain piece) :
    forwardChars (joinWith '/' pieces) = joinWith '/' pieces := by
  refine forwardChars_of_notMem fun hmem => ?_
  obtain ⟨piece, hpiece, hin⟩ := (mem_joinWith hmem).resolve_left (by decide)
  exact (h piece hpiece).no_backslash hin

/-! ## Carrying out steps -/

/-- A segment that can be left when the steps have been carried out: a plain one
or, unless the path is anchored, a step to the folder above. -/
def Kept (anchored : Bool) (segment : Segment) : Prop :=
  Plain segment ∨ anchored = false ∧ segment = parentSegment

theorem Kept.ne_nil {anchored : Bool} {segment : Segment} (h : Kept anchored segment) :
    segment ≠ [] ∧ '/' ∉ segment := by
  rcases h with h | ⟨_, rfl⟩
  · exact ⟨h.ne_nil, h.no_slash⟩
  · exact ⟨by decide, by decide⟩

theorem Kept.plain {segment : Segment} (h : Kept true segment) : Plain segment :=
  h.resolve_right fun hparent => absurd hparent.1 (by decide)

theorem pushSegment_of_plain {anchored : Bool} {segment : Segment} (h : Plain segment)
    (stack : List Segment) : pushSegment anchored stack segment = segment :: stack := by
  unfold pushSegment
  rw [if_neg (not_or.mpr ⟨h.ne_nil, h.ne_here⟩), if_neg h.ne_parent]

theorem kept_pushSegment {anchored : Bool} {stack : List Segment} {segment : Segment}
    (hslash : '/' ∉ segment) (hback : '\\' ∉ segment)
    (hstack : ∀ piece ∈ stack, Kept anchored piece) :
    ∀ piece ∈ pushSegment anchored stack segment, Kept anchored piece := by
  intro piece hpiece
  unfold pushSegment at hpiece
  split at hpiece
  · exact hstack piece hpiece
  · rename_i hnamed
    rw [not_or] at hnamed
    split at hpiece
    · split at hpiece
      · split at hpiece
        · cases hpiece
        · rename_i ha
          exact Or.inr ⟨Bool.eq_false_iff.mpr ha, List.mem_singleton.mp hpiece⟩
      · rename_i top below
        split at hpiece
        · split at hpiece
          · exact hstack piece hpiece
          · rename_i ha
            rcases List.mem_cons.mp hpiece with rfl | hpiece
            · exact Or.inr ⟨Bool.eq_false_iff.mpr ha, rfl⟩
            · exact hstack piece hpiece
        · exact hstack piece (List.mem_cons_of_mem _ hpiece)
    · rename_i hparent
      rcases List.mem_cons.mp hpiece with rfl | hpiece
      · exact Or.inl ⟨hnamed.1, hnamed.2, hparent, hslash, hback⟩
      · exact hstack piece hpiece

theorem foldl_pushSegment {anchored : Bool} {rest : List Segment} (h : ∀ piece ∈ rest, Plain piece)
    (stack : List Segment) :
    rest.foldl (pushSegment anchored) stack = rest.reverse ++ stack := by
  induction rest generalizing stack with
  | nil => rfl
  | cons piece rest ih =>
    rw [List.foldl_cons, pushSegment_of_plain (h piece List.mem_cons_self),
      ih fun other ho => h other (List.mem_cons_of_mem _ ho), List.reverse_cons, List.append_assoc]
    rfl

/-- Plain segments at the end stay. -/
theorem collapse_append {anchored : Bool} (before : List Segment) {rest : List Segment}
    (h : ∀ piece ∈ rest, Plain piece) :
    collapse anchored (before ++ rest) = collapse anchored before ++ rest := by
  rw [collapse, List.foldl_append, foldl_pushSegment h, List.reverse_append, List.reverse_reverse,
    collapse]

theorem collapse_of_plain {anchored : Bool} {pieces : List Segment}
    (h : ∀ piece ∈ pieces, Plain piece) : collapse anchored pieces = pieces :=
  collapse_append [] h

/-- What is left of segments without slashes. -/
theorem kept_collapse {anchored : Bool} {pieces : List Segment}
    (h : ∀ piece ∈ pieces, '/' ∉ piece ∧ '\\' ∉ piece) :
    ∀ piece ∈ collapse anchored pieces, Kept anchored piece := by
  have hfold : ∀ (pieces stack : List Segment), (∀ piece ∈ pieces, '/' ∉ piece ∧ '\\' ∉ piece) →
      (∀ piece ∈ stack, Kept anchored piece) →
      ∀ piece ∈ pieces.foldl (pushSegment anchored) stack, Kept anchored piece := by
    intro pieces
    induction pieces with
    | nil => exact fun stack _ hstack => hstack
    | cons first rest ih =>
      intro stack hpieces hstack
      have hfirst := hpieces first List.mem_cons_self
      exact ih _ (fun piece hp => hpieces piece (List.mem_cons_of_mem _ hp))
        (kept_pushSegment hfirst.1 hfirst.2 hstack)
  intro piece hpiece
  exact hfold pieces [] h (fun _ hp => absurd hp List.not_mem_nil) piece (List.mem_reverse.mp hpiece)

/-- The pieces of a path with forward slashes have no slashes. -/
theorem no_slash_splitOn {path : List Char} (h : '\\' ∉ path) :
    ∀ piece ∈ splitOn '/' path, '/' ∉ piece ∧ '\\' ∉ piece := by
  intro piece hpiece
  exact ⟨fun hc => (mem_splitOn hpiece hc).2 rfl, fun hc => h (mem_splitOn hpiece hc).1⟩

theorem kept_collapse_splitOn {anchored : Bool} {path : List Char} (h : '\\' ∉ path) :
    ∀ piece ∈ collapse anchored (splitOn '/' path), Kept anchored piece :=
  kept_collapse (no_slash_splitOn h)

theorem segments_join_collapse {anchored : Bool} {path : List Char} (h : '\\' ∉ path) :
    segments (joinWith '/' (collapse anchored (splitOn '/' path)))
      = collapse anchored (splitOn '/' path) :=
  segments_joinWith fun piece hpiece => (kept_collapse_splitOn h piece hpiece).ne_nil

/-! ## Normal forms -/

theorem mem_of_driveChars? {path rest : List Char} {letter : Char}
    (h : driveChars? path = some (letter, rest)) : path = letter :: ':' :: rest := by
  unfold driveChars? at h
  split at h
  · split at h
    · cases h
      rfl
    · cases h
  · cases h

/-- The segments of a path that starts with a drive. -/
theorem segments_clean_drive {path rest : List Char} {letter : Char}
    (h : driveChars? (forwardChars path) = some (letter, rest)) :
    segments (cleanChars path)
      = segments [letter, ':'] ++ collapse true (splitOn '/' rest) := by
  have hrest : '\\' ∉ rest := by
    intro hmem
    refine notMem_forwardChars path ?_
    rw [mem_of_driveChars? h]
    exact List.mem_cons_of_mem _ (List.mem_cons_of_mem _ hmem)
  have hclean : cleanChars path
      = [letter, ':'] ++ '/' :: joinWith '/' (collapse true (splitOn '/' rest)) := by
    unfold cleanChars
    simp only [h]
    rfl
  rw [hclean, segments_append, segments_join_collapse hrest]

/-- The segments of a rooted path. -/
theorem segments_clean_rooted {path : List Char}
    (hdrive : driveChars? (forwardChars path) = none)
    (hroot : (forwardChars path).head? = some '/') :
    segments (cleanChars path) = collapse true (splitOn '/' (forwardChars path)) := by
  unfold cleanChars
  simp only [hdrive, if_pos hroot]
  rw [segments_slash, segments_join_collapse (notMem_forwardChars path)]

/-! ## Plain segments behind something -/

/-- A text behind which a segment starts. -/
def OpenEnded (front : List Char) : Prop :=
  front = [] ∨ ∃ before, front = before ++ ['/']

theorem OpenEnded.behind {front : List Char} (h : OpenEnded front) (before : List Char) :
    OpenEnded (before ++ '/' :: front) := by
  rcases h with rfl | ⟨middle, rfl⟩
  · exact Or.inr ⟨before, rfl⟩
  · exact Or.inr ⟨before ++ '/' :: middle, by simp⟩

theorem OpenEnded.segments_append {front : List Char} (h : OpenEnded front) (path : List Char) :
    segments (front ++ path) = segments front ++ segments path := by
  rcases h with rfl | ⟨before, rfl⟩
  · rfl
  · rw [List.append_assoc, List.singleton_append, Path.segments_append, Path.segments_append,
      show segments [] = [] from rfl, List.append_nil]

/-- Text that stands last, as segments of its own. -/
def StandsLast (last path : List Char) : Prop :=
  ∃ front, OpenEnded front ∧ path = front ++ last

theorem StandsLast.behind {last path : List Char} (h : StandsLast last path) (before : List Char) :
    StandsLast last (before ++ '/' :: path) := by
  obtain ⟨front, hfront, rfl⟩ := h
  exact ⟨_, hfront.behind before, by simp⟩

theorem standsLast_joinWith (before : List Segment) {rest : List Segment} (hne : rest ≠ []) :
    StandsLast (joinWith '/' rest) (joinWith '/' (before ++ rest)) := by
  by_cases hbefore : before = []
  · exact ⟨[], Or.inl rfl, by rw [hbefore]; rfl⟩
  · exact ⟨joinWith '/' before ++ ['/'], Or.inr ⟨_, rfl⟩, by rw [joinWith_append hbefore hne]; simp⟩

/-- **Plain segments behind anything stand last in the normal form.** The exception are
those behind the empty text: there a colon at the front of the first one makes a
drive. -/
theorem cleanChars_behind (base : List Char) {rest : List Segment} (hne : rest ≠ [])
    (hplain : ∀ piece ∈ rest, Plain piece) :
    StandsLast (joinWith '/' rest) (cleanChars (base ++ '/' :: joinWith '/' rest))
      ∨ base = [] ∧ ∃ name tail, rest = (':' :: name) :: tail
        ∧ cleanChars (base ++ '/' :: joinWith '/' rest)
          = ['/', ':'] ++ '/' :: joinWith '/' (collapse true [name] ++ tail) := by
  have hforward : forwardChars (base ++ '/' :: joinWith '/' rest)
      = forwardChars base ++ '/' :: joinWith '/' rest := by
    rw [forwardChars_append, forwardChars_slash, forwardChars_joinWith hplain]
  have hsplit : splitOn '/' (joinWith '/' rest) = rest :=
    splitOn_joinWith hne fun piece hpiece => (hplain piece hpiece).no_slash
  have hcollapse : ∀ (anchored : Bool) (front : List Char),
      collapse anchored (splitOn '/' (front ++ '/' :: joinWith '/' rest))
        = collapse anchored (splitOn '/' front) ++ rest := by
    intro anchored front
    rw [splitOn_append, hsplit, collapse_append _ hplain]
  unfold cleanChars
  rw [hforward]
  dsimp only
  cases hdrive : driveChars? (forwardChars base ++ '/' :: joinWith '/' rest) with
  | none =>
    dsimp only
    rw [hcollapse, hcollapse]
    split
    · exact Or.inl ((standsLast_joinWith _ hne).behind [])
    · split
      · rename_i hnil
        exact absurd (List.append_eq_nil_iff.mp hnil).2 hne
      · exact Or.inl (standsLast_joinWith _ hne)
  | some drive =>
    obtain ⟨letter, after⟩ := drive
    have hpath := mem_of_driveChars? hdrive
    dsimp only
    cases hbase : forwardChars base with
    | nil =>
      -- behind the empty text the slash is the letter of the drive
      rw [hbase, List.nil_append, List.cons.injEq] at hpath
      obtain ⟨first, tail, rfl⟩ := List.exists_cons_of_ne_nil hne
      have hfirst := hplain first List.mem_cons_self
      obtain ⟨c, name, rfl⟩ := List.exists_cons_of_ne_nil hfirst.ne_nil
      rw [joinWith_cons_cons, List.cons.injEq] at hpath
      obtain ⟨hletter, rfl, hafter⟩ := hpath
      have hpieces : ∀ piece ∈ name :: tail, '/' ∉ piece := by
        intro piece hpiece
        rcases List.mem_cons.mp hpiece with rfl | hpiece
        · exact fun hc => hfirst.no_slash (List.mem_cons_of_mem _ hc)
        · exact (hplain piece (List.mem_cons_of_mem _ hpiece)).no_slash
      refine Or.inr ⟨List.map_eq_nil_iff.mp hbase, name, tail, rfl, ?_⟩
      rw [← hletter, ← hafter, splitOn_joinWith (List.cons_ne_nil _ _) hpieces,
        ← collapse_append [name] fun piece hp => hplain piece (List.mem_cons_of_mem _ hp)]
      rfl
    | cons c front =>
      rw [hbase] at hpath
      cases front with
      | nil =>
        have := (List.cons.inj (List.cons.inj hpath).2).1
        exact absurd this (by decide)
      | cons d front =>
        have hafter := (List.cons.inj (List.cons.inj hpath).2).2
        rw [← hafter]
        change StandsLast _ (letter :: ':' :: '/' :: joinWith '/'
          (collapse true (splitOn '/' (front ++ '/' :: joinWith '/' rest)))) ∨ _
        rw [hcollapse]
        exact Or.inl ((standsLast_joinWith _ hne).behind [letter, ':'])

/-- **Plain segments behind anything stay.** -/
theorem segments_clean_behind (base : List Char) {rest : List Segment} (hne : rest ≠ [])
    (hplain : ∀ piece ∈ rest, Plain piece) :
    (∃ before, segments (cleanChars (base ++ '/' :: joinWith '/' rest)) = before ++ rest)
      ∨ base = [] ∧ ∃ name tail, rest = (':' :: name) :: tail
        ∧ segments (cleanChars (base ++ '/' :: joinWith '/' rest))
          = [':'] :: (collapse true [name] ++ tail) := by
  rcases cleanChars_behind base hne hplain with ⟨front, hfront, hclean⟩ | ⟨hbase, name, tail, rfl, hclean⟩
  · refine Or.inl ⟨segments front, ?_⟩
    rw [hclean, hfront.segments_append, segments_joinWith fun piece hpiece =>
      ⟨(hplain piece hpiece).ne_nil, (hplain piece hpiece).no_slash⟩]
  · refine Or.inr ⟨hbase, name, tail, rfl, ?_⟩
    have hname := hplain (':' :: name) List.mem_cons_self
    have hkept : ∀ piece ∈ collapse true [name] ++ tail, Kept true piece := by
      intro piece hpiece
      rcases List.mem_append.mp hpiece with hpiece | hpiece
      · refine kept_collapse (fun other ho => ?_) piece hpiece
        obtain rfl := List.mem_singleton.mp ho
        exact ⟨fun hc => hname.no_slash (List.mem_cons_of_mem _ hc),
          fun hc => hname.no_backslash (List.mem_cons_of_mem _ hc)⟩
      · exact Or.inl (hplain piece (List.mem_cons_of_mem _ hpiece))
    rw [hclean, segments_append, segments_joinWith fun piece hpiece => (hkept piece hpiece).ne_nil]
    rfl

/-- What is left of one segment is shorter by two characters at most. -/
theorem length_le_size_collapse {name : Segment} (hslash : '/' ∉ name) (hback : '\\' ∉ name) :
    name.length ≤ size (collapse true [name]) + 2 := by
  by_cases hplain : Plain name
  · rw [collapse_of_plain fun piece hpiece => List.mem_singleton.mp hpiece ▸ hplain, size_cons]
    omega
  · have hstep : name = [] ∨ name = ['.'] ∨ name = parentSegment := by
      by_contra hne
      rw [not_or, not_or] at hne
      exact hplain ⟨hne.1, hne.2.1, hne.2.2, hslash, hback⟩
    rcases hstep with rfl | rfl | rfl <;> exact Nat.le_add_left_of_le (by decide)

/-- Behind anything plain segments lose two characters at most. -/
theorem size_le_clean_behind (base : List Char) {rest : List Segment} (hne : rest ≠ [])
    (hplain : ∀ piece ∈ rest, Plain piece) :
    size rest ≤ size (segments (cleanChars (base ++ '/' :: joinWith '/' rest))) + 2 := by
  rcases segments_clean_behind base hne hplain with ⟨before, heq⟩ | ⟨_, name, tail, hrest, heq⟩
  · rw [heq, size_append]
    omega
  · have hname := hplain (':' :: name) (hrest ▸ List.mem_cons_self)
    have hle := length_le_size_collapse
      (fun hc => hname.no_slash (List.mem_cons_of_mem _ hc))
      (fun hc => hname.no_backslash (List.mem_cons_of_mem _ hc))
    rw [heq, hrest, size_cons, size_cons, size_append, List.length_cons, List.length_singleton]
    omega

/-! ## Rooted paths -/

theorem length_joinWith_le (pieces : List Segment) :
    (joinWith '/' pieces).length ≤ size pieces := by
  by_cases hne : pieces = []
  · rw [hne]
    exact Nat.le_refl _
  · exact Nat.le_of_succ_le (Nat.le_of_eq (length_joinWith hne))

/-- The normal form of a rooted path: plain segments behind the root or behind the
drive that a colon makes of it. -/
theorem clean_of_rooted {path : List Char} (h : path.head? = some '/') :
    ∃ front pieces, cleanChars path = front ++ '/' :: joinWith '/' pieces
      ∧ (front = [] ∨ front = ['/', ':']) ∧ ∀ piece ∈ pieces, Plain piece := by
  have hroot : (forwardChars path).head? = some '/' := by
    obtain ⟨rest, rfl⟩ := List.head?_eq_some_iff.mp h
    rfl
  cases hdrive : driveChars? (forwardChars path) with
  | none =>
    refine ⟨[], collapse true (splitOn '/' (forwardChars path)), ?_, Or.inl rfl, ?_⟩
    · unfold cleanChars
      simp only [hdrive, if_pos hroot]
      rfl
    · exact fun piece hpiece => (kept_collapse_splitOn (notMem_forwardChars path) piece hpiece).plain
  | some drive =>
    obtain ⟨letter, rest⟩ := drive
    have hpath := mem_of_driveChars? hdrive
    rw [hpath, List.head?_cons, Option.some.injEq] at hroot
    refine ⟨['/', ':'], collapse true (splitOn '/' rest), ?_, Or.inr rfl, ?_⟩
    · unfold cleanChars
      simp only [hdrive, hroot]
      rfl
    · intro piece hpiece
      refine (kept_collapse_splitOn (fun hmem => notMem_forwardChars path ?_) piece hpiece).plain
      rw [hpath]
      exact List.mem_cons_of_mem _ (List.mem_cons_of_mem _ hmem)

theorem head?_clean_of_rooted {path : List Char} (h : path.head? = some '/') :
    (cleanChars path).head? = some '/' := by
  obtain ⟨front, pieces, hclean, rfl | rfl, _⟩ := clean_of_rooted h <;> rw [hclean] <;> rfl

theorem plain_of_rooted {path : List Char} (h : path.head? = some '/') :
    ∀ piece ∈ segments (cleanChars path), Plain piece := by
  obtain ⟨front, pieces, hclean, hfront, hplain⟩ := clean_of_rooted h
  have hpieces := segments_joinWith fun piece hpiece =>
    ⟨(hplain piece hpiece).ne_nil, (hplain piece hpiece).no_slash⟩
  intro piece hpiece
  rw [hclean, segments_append, hpieces, List.mem_append] at hpiece
  rcases hpiece with hpiece | hpiece
  · rcases hfront with rfl | rfl
    · cases hpiece
    · rw [show segments ['/', ':'] = [[':']] by decide, List.mem_singleton] at hpiece
      rw [hpiece]
      decide
  · exact hplain piece hpiece

/-- The normal form of a rooted path is about as long as the segments of a path
below it. -/
theorem length_clean_le_of_rooted {path : List Char} (h : path.head? = some '/') {name : Segment}
    (hname : Plain name) :
    (cleanChars path).length + name.length
      ≤ size (segments (cleanChars (cleanChars path ++ '/' :: name))) + 4 := by
  obtain ⟨front, pieces, hclean, hfront, hplain⟩ := clean_of_rooted h
  have hlength : front.length ≤ 2 := by
    rcases hfront with rfl | rfl <;> decide
  have hall : ∀ piece ∈ pieces ++ [name], Plain piece := by
    intro piece hpiece
    rcases List.mem_append.mp hpiece with hpiece | hpiece
    · exact hplain piece hpiece
    · exact List.mem_singleton.mp hpiece ▸ hname
  have hjoined : ∃ base, cleanChars path ++ '/' :: name
      = base ++ '/' :: joinWith '/' (pieces ++ [name]) := by
    rw [hclean]
    by_cases hne : pieces = []
    · rw [hne]
      exact ⟨front ++ ['/'], rfl⟩
    · rw [joinWith_append hne (List.cons_ne_nil _ _)]
      exact ⟨front, by simp [joinWith]⟩
  obtain ⟨base, hbase⟩ := hjoined
  have hsize := size_le_clean_behind base (List.append_ne_nil_of_right_ne_nil _
    (List.cons_ne_nil name [])) hall
  have hjoin := length_joinWith_le pieces
  rw [size_append, size_cons, size_nil] at hsize
  rw [hbase, hclean, List.length_append, List.length_cons]
  omega

end PackageOrder.Path
