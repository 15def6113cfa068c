/-
PackageOrder.Proofs.Path.NormalForm — the normal form of a normal form.

Carrying out steps a second time changes nothing (`collapse_collapse`): what is left are
steps to the folder above, if the path is not anchored, and plain segments behind them.
But by what a path is anchored is read off its text each time. The normal form of `//:x`
is `/:x`, whose first two characters are taken for a drive. So a normal form is its own
normal form unless it gains a drive in this way, and the second one is stable in any case
(`clean_clean_iff`).
-/
import PackageOrder.Proofs.Path.Relative

namespace PackageOrder.Path

open PackageOrder.Text

/-! ## Carrying out steps again -/

/-- A stack on which every step has been carried out: plain segments above steps to the
folder above, of which an anchored path has none. -/
def Settled (anchored : Bool) (stack : List Segment) : Prop :=
  ∃ named up, stack = named ++ List.replicate up parentSegment
    ∧ (∀ piece ∈ named, Plain piece) ∧ (anchored = true → up = 0)

theorem pushSegment_parent_replicate (up : Nat) :
    pushSegment false (List.replicate up parentSegment) parentSegment
      = List.replicate (up + 1) parentSegment := by
  cases up <;> rfl

theorem settled_pushSegment {anchored : Bool} {stack : List Segment} {segment : Segment}
    (hslash : '/' ∉ segment) (hback : '\\' ∉ segment) (h : Settled anchored stack) :
    Settled anchored (pushSegment anchored stack segment) := by
  obtain ⟨named, up, rfl, hnamed, hup⟩ := h
  by_cases hnowhere : segment = [] ∨ segment = ['.']
  · rw [show pushSegment anchored _ segment = _ from if_pos hnowhere]
    exact ⟨named, up, rfl, hnamed, hup⟩
  by_cases hparent : segment = parentSegment
  · subst hparent
    cases named with
    | nil =>
      cases anchored with
      | true => exact ⟨[], 0, by rw [hup rfl]; rfl, hnamed, fun _ => rfl⟩
      | false => exact ⟨[], up + 1, pushSegment_parent_replicate up, hnamed, nofun⟩
    | cons top below =>
      refine ⟨below, up, ?_, fun piece hpiece => hnamed piece (List.mem_cons_of_mem _ hpiece), hup⟩
      unfold pushSegment
      rw [if_neg hnowhere, if_pos rfl]
      exact if_neg (hnamed top List.mem_cons_self).ne_parent
  · rw [not_or] at hnowhere
    have hplain : Plain segment := ⟨hnowhere.1, hnowhere.2, hparent, hslash, hback⟩
    refine ⟨segment :: named, up, pushSegment_of_plain hplain _, fun piece hpiece => ?_, hup⟩
    rcases List.mem_cons.mp hpiece with rfl | hpiece
    · exact hplain
    · exact hnamed piece hpiece

/-- What is left of segments without slashes, as a stack. -/
theorem settled_collapse {anchored : Bool} {pieces : List Segment}
    (h : ∀ piece ∈ pieces, '/' ∉ piece ∧ '\\' ∉ piece) :
    Settled anchored (collapse anchored pieces).reverse := by
  have hfold : ∀ (pieces stack : List Segment), (∀ piece ∈ pieces, '/' ∉ piece ∧ '\\' ∉ piece) →
      Settled anchored stack → Settled anchored (pieces.foldl (pushSegment anchored) stack) := by
    intro pieces
    induction pieces with
    | nil => exact fun _ _ hstack => hstack
    | cons first rest ih =>
      intro stack hpieces hstack
      obtain ⟨hslash, hback⟩ := hpieces first List.mem_cons_self
      exact ih _ (fun piece hpiece => hpieces piece (List.mem_cons_of_mem _ hpiece))
        (settled_pushSegment hslash hback hstack)
  rw [collapse, List.reverse_reverse]
  exact hfold pieces [] h ⟨[], 0, rfl, fun _ hpiece => absurd hpiece List.not_mem_nil, fun _ => rfl⟩

theorem foldl_parentSegments_unanchored (up : Nat) :
    (List.replicate up parentSegment).foldl (pushSegment false) []
      = List.replicate up parentSegment := by
  induction up with
  | zero => rfl
  | succ up ih =>
    rw [List.replicate_succ', List.foldl_append, ih, List.foldl_cons, List.foldl_nil,
      pushSegment_parent_replicate, List.replicate_succ']

theorem Settled.collapse_reverse {anchored : Bool} {stack : List Segment}
    (h : Settled anchored stack) : collapse anchored stack.reverse = stack.reverse := by
  obtain ⟨named, up, rfl, hnamed, hup⟩ := h
  have hup' : (List.replicate up parentSegment).foldl (pushSegment anchored) []
      = List.replicate up parentSegment := by
    cases anchored with
    | true => rw [hup rfl]; rfl
    | false => exact foldl_parentSegments_unanchored up
  rw [collapse, List.reverse_append, List.reverse_replicate, List.foldl_append, hup',
    foldl_pushSegment fun piece hpiece => hnamed piece (List.mem_reverse.mp hpiece),
    List.reverse_append, List.reverse_replicate, List.reverse_reverse]

/-- **When the steps have been carried out, carrying them out again does nothing.** -/
theorem collapse_collapse {anchored : Bool} {pieces : List Segment}
    (h : ∀ piece ∈ pieces, '/' ∉ piece ∧ '\\' ∉ piece) :
    collapse anchored (collapse anchored pieces) = collapse anchored pieces := by
  have hagain := (settled_collapse h : Settled anchored _).collapse_reverse
  rwa [List.reverse_reverse] at hagain

/-- Behind a plain segment that is left there are plain ones only. -/
theorem plain_of_collapse_cons {anchored : Bool} {pieces rest : List Segment} {first : Segment}
    (h : ∀ piece ∈ pieces, '/' ∉ piece ∧ '\\' ∉ piece)
    (hleft : collapse anchored pieces = first :: rest) (hfirst : first ≠ parentSegment) :
    ∀ piece ∈ rest, Plain piece := by
  obtain ⟨named, up, hstack, hnamed, _⟩ := (settled_collapse h : Settled anchored _)
  have hreverse : first :: rest = List.replicate up parentSegment ++ named.reverse := by
    rw [← hleft, ← List.reverse_reverse (collapse anchored pieces), hstack, List.reverse_append,
      List.reverse_replicate]
  cases up with
  | zero =>
    intro piece hpiece
    refine hnamed piece (List.mem_reverse.mp ?_)
    rw [List.replicate_zero, List.nil_append] at hreverse
    exact hreverse ▸ List.mem_cons_of_mem _ hpiece
  | succ up =>
    rw [List.replicate_succ, List.cons_append] at hreverse
    exact absurd (List.cons.inj hreverse).1 hfirst

/-! ## Normal forms as texts -/

/-- What is left behind a slash, written out and read again. -/
theorem collapse_splitOn_slash_joinWith {pieces : List Segment} (h : ∀ piece ∈ pieces, Plain piece) :
    collapse true (splitOn '/' ('/' :: joinWith '/' pieces)) = pieces := by
  rw [← collapse_filter, ← segments, segments_slash, segments_joinWith fun piece hpiece =>
    ⟨(h piece hpiece).ne_nil, (h piece hpiece).no_slash⟩]
  exact collapse_of_plain h

/-- What is left of a path are segments that can be left. -/
theorem kept_of_path (path : List Char) (anchored : Bool) :
    ∀ piece ∈ collapse anchored (splitOn '/' (forwardChars path)), Kept anchored piece :=
  kept_collapse_splitOn (notMem_forwardChars path)

/-- A written list of segments is cut at its first slash behind the first of them. -/
theorem eq_cons_of_joinWith {pieces : List Segment} (h : ∀ piece ∈ pieces, '/' ∉ piece)
    (front : List Char) {rest : List Char} (hfront : '/' ∉ front)
    (hjoin : joinWith '/' pieces = front ++ '/' :: rest) : pieces = front :: splitOn '/' rest := by
  have hne : pieces ≠ [] := by
    rintro rfl
    exact List.append_ne_nil_of_right_ne_nil front (List.cons_ne_nil '/' rest) hjoin.symm
  rw [← splitOn_joinWith hne h, hjoin, splitOn_append, splitOn_of_notMem hfront]
  rfl

theorem cleanChars_of_drive {path rest : List Char} {letter : Char}
    (h : driveChars? (forwardChars path) = some (letter, rest)) :
    cleanChars path = letter :: ':' :: '/' :: joinWith '/' (collapse true (splitOn '/' rest)) := by
  unfold cleanChars
  simp only [h]

theorem cleanChars_of_relative {path : List Char} (hdrive : driveChars? (forwardChars path) = none)
    (hroot : (forwardChars path).head? ≠ some '/')
    (hne : collapse false (splitOn '/' (forwardChars path)) ≠ []) :
    cleanChars path = joinWith '/' (collapse false (splitOn '/' (forwardChars path))) := by
  unfold cleanChars
  simp only [hdrive, if_neg hroot]

/-- A drive has one character of a byte. -/
theorem driveChars?_cons {letter : Char} {rest path : List Char}
    (h : driveChars? path = some (letter, rest)) (other : List Char) :
    driveChars? (letter :: ':' :: other) = some (letter, other) := by
  unfold driveChars? at h
  split at h
  · split at h
    · rename_i hascii
      cases h
      exact if_pos hascii
    · cases h
  · cases h

/-- The shapes of a path in normal form: behind a drive, behind the root, the folder
itself, or segments behind nothing. -/
theorem cleanChars_cases (path : List Char) :
    (∃ letter rest, driveChars? (forwardChars path) = some (letter, rest)
        ∧ cleanChars path
          = letter :: ':' :: '/' :: joinWith '/' (collapse true (splitOn '/' rest)))
      ∨ driveChars? (forwardChars path) = none
        ∧ (cleanChars path = '/' :: joinWith '/' (collapse true (splitOn '/' (forwardChars path)))
          ∨ cleanChars path = ['.']
          ∨ collapse false (splitOn '/' (forwardChars path)) ≠ []
            ∧ cleanChars path
              = joinWith '/' (collapse false (splitOn '/' (forwardChars path)))) := by
  cases hdrive : driveChars? (forwardChars path) with
  | some drive =>
    obtain ⟨letter, rest⟩ := drive
    exact Or.inl ⟨letter, rest, rfl, cleanChars_of_drive hdrive⟩
  | none =>
    refine Or.inr ⟨rfl, ?_⟩
    unfold cleanChars
    simp only [hdrive]
    split
    · exact Or.inl rfl
    · split
      · exact Or.inr (Or.inl rfl)
      · rename_i hne
        exact Or.inr (Or.inr ⟨hne, rfl⟩)

theorem notMem_joinWith_kept {anchored : Bool} {pieces : List Segment}
    (h : ∀ piece ∈ pieces, Kept anchored piece) : '\\' ∉ joinWith '/' pieces := by
  have hforward := forwardChars_joinWith_kept h
  exact fun hback => notMem_forwardChars _ (hforward.symm ▸ hback)

theorem backslash_notMem_of_drive {path rest : List Char} {letter : Char}
    (h : driveChars? (forwardChars path) = some (letter, rest)) : letter ≠ '\\' ∧ '\\' ∉ rest := by
  have hpath := notMem_forwardChars path
  rw [mem_of_driveChars? h] at hpath
  exact ⟨fun heq => hpath (heq ▸ List.mem_cons_self),
    fun hmem => hpath (List.mem_cons_of_mem _ (List.mem_cons_of_mem _ hmem))⟩

/-- A normal form has forward slashes only. -/
theorem forwardChars_cleanChars (path : List Char) :
    forwardChars (cleanChars path) = cleanChars path := by
  refine forwardChars_of_notMem ?_
  have hkept := kept_of_path path
  rcases cleanChars_cases path with ⟨letter, rest, hdrive, hclean⟩ | ⟨_, hclean | hclean | ⟨_, hclean⟩⟩
  · obtain ⟨hletter, hrest⟩ := backslash_notMem_of_drive hdrive
    rw [hclean]
    simp only [List.mem_cons, not_or]
    exact ⟨Ne.symm hletter, by decide, by decide,
      notMem_joinWith_kept (kept_collapse_splitOn hrest : ∀ piece ∈ collapse true _, _)⟩
  · rw [hclean, List.mem_cons, not_or]
    exact ⟨by decide, notMem_joinWith_kept (hkept true)⟩
  · rw [hclean]
    decide
  · rw [hclean]
    exact notMem_joinWith_kept (hkept false)

/-! ## Normal forms of normal forms -/

/-- The normal form of a path on a drive is its own. -/
theorem cleanChars_cleanChars_of_drive {path rest : List Char} {letter : Char}
    (h : driveChars? (forwardChars path) = some (letter, rest)) :
    cleanChars (cleanChars path) = cleanChars path := by
  have hkept : ∀ piece ∈ collapse true (splitOn '/' rest), Kept true piece :=
    kept_collapse_splitOn (backslash_notMem_of_drive h).2
  have hdrive : driveChars? (forwardChars (cleanChars path))
      = some (letter, '/' :: joinWith '/' (collapse true (splitOn '/' rest))) := by
    rw [forwardChars_cleanChars, cleanChars_of_drive h]
    exact driveChars?_cons h _
  rw [cleanChars_of_drive hdrive,
    collapse_splitOn_slash_joinWith fun piece hpiece => (hkept piece hpiece).plain]
  exact (cleanChars_of_drive h).symm

/-- A normal form without a drive is its own. -/
theorem cleanChars_cleanChars_of_no_drive {path : List Char}
    (h : driveChars? (cleanChars path) = none) : cleanChars (cleanChars path) = cleanChars path := by
  have hkept := kept_of_path path
  have hdrive : driveChars? (forwardChars (cleanChars path)) = none := by
    rw [forwardChars_cleanChars, h]
  rcases cleanChars_cases path with ⟨letter, rest, hpath, _⟩ | ⟨_, hclean | hclean | ⟨hne, hclean⟩⟩
  · exact cleanChars_cleanChars_of_drive hpath
  · have hroot : (forwardChars (cleanChars path)).head? = some '/' := by
      rw [forwardChars_cleanChars, hclean]
      rfl
    conv_lhs => rw [cleanChars]
    simp only [hdrive, if_pos hroot]
    rw [forwardChars_cleanChars, hclean,
      collapse_splitOn_slash_joinWith fun piece hpiece => (hkept true piece hpiece).plain]
  · rw [hclean]
    decide
  · have hroot : (forwardChars (cleanChars path)).head? ≠ some '/' := by
      rw [forwardChars_cleanChars, hclean]
      exact head?_joinWith_kept (hkept false)
    have hagain : collapse false (splitOn '/' (forwardChars (cleanChars path)))
        = collapse false (splitOn '/' (forwardChars path)) := by
      rw [forwardChars_cleanChars, hclean,
        splitOn_joinWith hne fun piece hpiece => (hkept false piece hpiece).ne_nil.2,
        collapse_collapse (no_slash_splitOn (notMem_forwardChars path))]
    rw [cleanChars_of_relative hdrive hroot (hagain ▸ hne), hagain, hclean]

/-- Behind a drive that a normal form has gained there are plain segments, where a slash
stands behind it. -/
theorem plain_behind_drive {path rest : List Char} {letter : Char}
    (hnone : driveChars? (forwardChars path) = none)
    (h : cleanChars path = letter :: ':' :: '/' :: rest) :
    ∀ piece ∈ splitOn '/' rest, Plain piece := by
  have hslashes := no_slash_splitOn (notMem_forwardChars path)
  have hkept := kept_of_path path
  rcases cleanChars_cases path with ⟨_, _, hdrive, _⟩ | ⟨_, hclean | hclean | ⟨_, hclean⟩⟩
  · rw [hnone] at hdrive
    cases hdrive
  · rw [hclean, List.cons.injEq] at h
    have hleft := eq_cons_of_joinWith (fun piece hpiece =>
      (hkept true piece hpiece).ne_nil.2) [':'] (by decide) h.2
    exact plain_of_collapse_cons hslashes hleft (by decide)
  · rw [hclean] at h
    cases h
  · have hletter : letter ≠ '/' := by
      have hhead := head?_joinWith_kept (hkept false)
      rw [← hclean, h] at hhead
      exact fun heq => hhead (congrArg some heq)
    have hfront : '/' ∉ [letter, ':'] := by
      simpa using Ne.symm hletter
    have hleft := eq_cons_of_joinWith (fun piece hpiece =>
      (hkept false piece hpiece).ne_nil.2) [letter, ':'] hfront (hclean.symm.trans h)
    exact plain_of_collapse_cons hslashes hleft fun heq => by cases heq

/-- A normal form that gains a drive with a slash behind it is its own. -/
theorem cleanChars_cleanChars_of_slash {path rest : List Char} {letter : Char}
    (h : driveChars? (cleanChars path) = some (letter, '/' :: rest)) :
    cleanChars (cleanChars path) = cleanChars path := by
  cases hpath : driveChars? (forwardChars path) with
  | some drive => exact cleanChars_cleanChars_of_drive hpath
  | none =>
    have hclean := mem_of_driveChars? h
    have hplain := plain_behind_drive hpath hclean
    rw [cleanChars_of_drive (forwardChars_cleanChars path ▸ h),
      show splitOn '/' ('/' :: rest) = [] :: splitOn '/' rest from rfl, collapse, List.foldl_cons,
      pushSegment_nil, ← collapse, collapse_of_plain hplain, joinWith_splitOn, hclean]

/-- A path without a drive whose normal form starts like a drive, with no slash behind
the colon. -/
def GainsDrive (path : String) : Prop :=
  driveChars? (forwardSlashes path).toList = none
    ∧ ∃ letter rest, driveChars? (clean path).toList = some (letter, rest)
      ∧ rest.head? ≠ some '/'

/-- A path without a colon gains no drive. -/
theorem not_gainsDrive_of_colonFree {path : String} (h : ColonFree path) : ¬ GainsDrive path := by
  rintro ⟨_, letter, rest, hdrive, _⟩
  rw [toList_clean, driveChars?_of_colon_notMem (notMem_cleanChars h)] at hdrive
  cases hdrive

/-- **A normal form is its own normal form unless it gains a drive.** Then a slash is put
behind that, and what comes of it is its own normal form. -/
theorem clean_clean_iff (path : String) :
    (clean (clean path) = clean path ↔ ¬ GainsDrive path)
      ∧ clean (clean (clean path)) = clean (clean path) := by
  simp only [GainsDrive, clean, forwardSlashes, String.toList_ofList, String.ofList_inj]
  cases hdrive : driveChars? (cleanChars path.toList) with
  | none =>
    have hstable := cleanChars_cleanChars_of_no_drive hdrive
    refine ⟨iff_of_true hstable ?_, congrArg cleanChars hstable⟩
    rintro ⟨_, letter, rest, hsome, _⟩
    cases hsome
  | some drive =>
    obtain ⟨letter, rest⟩ := drive
    have hagain := forwardChars_cleanChars path.toList ▸ hdrive
    refine ⟨⟨?_, fun hgains => ?_⟩, cleanChars_cleanChars_of_drive hagain⟩
    · rintro hstable ⟨_, other, tail, hsome, hslash⟩
      cases hsome
      -- the second normal form has a slash behind the drive, the first has none
      rw [cleanChars_of_drive hagain, mem_of_driveChars? hdrive, List.cons.injEq, List.cons.injEq]
        at hstable
      exact hslash (hstable.2.2 ▸ rfl)
    · cases hpath : driveChars? (forwardChars path.toList) with
      | some own => exact cleanChars_cleanChars_of_drive hpath
      | none =>
        by_cases hslash : rest.head? = some '/'
        · obtain ⟨tail, rfl⟩ := List.head?_eq_some_iff.mp hslash
          exact cleanChars_cleanChars_of_slash hdrive
        · exact absurd ⟨hpath, letter, rest, rfl, hslash⟩ hgains

/-- The root is taken for the letter of a drive. -/
theorem clean_clean_ne_doubled : clean (clean "//:x") ≠ clean "//:x" := by
  decide

end PackageOrder.Path
