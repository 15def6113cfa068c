/-
PackageOrder.Proofs.FileTree.Resolve — the names that parts resolve to.

A part is carried out from the segments of what it starts from (`collapse_place`).
A text that goes on behind another one shares all of its segments but the last, which
it may go on with (`Path.collapse_goes_on`): that is how a path is compared with one that
starts with the same text. None of this is about drives, so paths are asked to have
no colon behind the root.
-/
import PackageOrder.Proofs.FileTree.Names

namespace PackageOrder

open PackageOrder.Text

namespace Path

/-! ## The last piece of a text -/

theorem cutLast?_eq_none {path : List Char} (h : cutLast? path = none) : '/' ∉ path := by
  have hcut := cutAt?_eq_none (Option.map_eq_none_iff.mp h)
  exact fun hmem => hcut (List.mem_reverse.mpr hmem)

theorem cutLast?_eq_some {path before after : List Char}
    (h : cutLast? path = some (before, after)) : path = before ++ '/' :: after ∧ '/' ∉ after := by
  obtain ⟨⟨last, first⟩, hcut, heq⟩ := Option.map_eq_some_iff.mp h
  cases heq
  obtain ⟨hpath, hnot⟩ := cutAt?_eq_some hcut
  refine ⟨?_, fun hmem => hnot (List.mem_reverse.mp hmem)⟩
  rw [← List.reverse_reverse path, hpath]
  simp

theorem no_slash_lastChars (path : List Char) : '/' ∉ lastChars path := by
  unfold lastChars
  split
  · rename_i h
    exact (cutLast?_eq_some h).2
  · rename_i h
    exact cutLast?_eq_none h

theorem mem_of_mem_lastChars {path : List Char} {c : Char} (h : c ∈ lastChars path) : c ∈ path := by
  unfold lastChars at h
  split at h
  · rename_i before after hcut
    rw [(cutLast?_eq_some hcut).1]
    exact List.mem_append_right _ (List.mem_cons_of_mem _ h)
  · exact h

/-- What stands behind a text goes on with the last piece of that. -/
theorem splitOn_behind (path : List Char) :
    ∃ front, ∀ rest, splitOn '/' (path ++ rest) = front ++ splitOn '/' (lastChars path ++ rest) := by
  unfold lastChars
  split
  · rename_i before after h
    refine ⟨splitOn '/' before, fun rest => ?_⟩
    conv_lhs => rw [(cutLast?_eq_some h).1]
    rw [List.append_assoc, List.cons_append, splitOn_append]
  · exact ⟨[], fun rest => rfl⟩

/-! ## Carrying out a part -/

/-- Whether a part starts anew at the root. -/
def Anchored (part : List Char) : Prop :=
  (forwardChars part).head? = some '/'

instance (part : List Char) : Decidable (Anchored part) :=
  inferInstanceAs (Decidable ((forwardChars part).head? = some '/'))

theorem not_anchored_nil : ¬ Anchored [] :=
  fun h => nomatch h

/-- A path with one more part. -/
def place (path part : List Char) : List Char :=
  if Anchored part then forwardChars part
  else if forwardChars part = [] then path
  else path ++ '/' :: forwardChars part

theorem resolveChars_eq (workingDir : List Char) (parts : List (List Char)) :
    resolveChars workingDir parts = cleanChars (parts.foldl place workingDir) := rfl

theorem toList_resolve (workingDir : String) (parts : List String) :
    (resolve workingDir parts).toList
      = cleanChars ((parts.map String.toList).foldl place workingDir.toList) := by
  rw [resolve, String.toList_ofList, resolveChars_eq]

theorem toList_resolve_concat (workingDir : String) (parts : List String) (part : String) :
    (resolve workingDir (parts ++ [part])).toList
      = cleanChars (place ((parts.map String.toList).foldl place workingDir.toList) part.toList) := by
  rw [toList_resolve, List.map_append, List.map_singleton, List.foldl_append, List.foldl_cons,
    List.foldl_nil]

/-- A plain name goes below a path. -/
theorem place_of_plain {name : List Char} (h : Plain name) (path : List Char) :
    place path name = path ++ '/' :: name := by
  have hforward := forwardChars_of_plain h
  have hanchored : ¬ Anchored name := by
    rw [Anchored, hforward]
    intro hhead
    obtain ⟨rest, hrest⟩ := List.head?_eq_some_iff.mp hhead
    exact h.no_slash (hrest ▸ List.mem_cons_self)
  rw [place, if_neg hanchored, hforward, if_neg h.ne_nil]

theorem rooted_place {path : List Char} (h : path.head? = some '/') (part : List Char) :
    (place path part).head? = some '/' := by
  unfold place
  split
  · rename_i hanchored
    exact hanchored
  · split
    · exact h
    · rw [List.head?_append, h]
      rfl

theorem rooted_foldl_place {path : List Char} (h : path.head? = some '/')
    (parts : List (List Char)) : (parts.foldl place path).head? = some '/' := by
  induction parts generalizing path with
  | nil => exact h
  | cons part rest ih => exact ih (rooted_place h part)

/-- The segments that a part is carried out from. -/
def startOf (path part : List Char) : List Segment :=
  if Anchored part then [] else splitOn '/' (forwardChars path)

theorem collapse_append_congr {one other : List Segment}
    (h : collapse true one = collapse true other) (rest : List Segment) :
    collapse true (one ++ rest) = collapse true (other ++ rest) := by
  have hstack := List.reverse_injective h
  rw [collapse, collapse, List.foldl_append, List.foldl_append, hstack]

/-- **A part is carried out from the segments before it.** -/
theorem collapse_place (path part : List Char) :
    collapse true (splitOn '/' (forwardChars (place path part)))
      = collapse true (startOf path part ++ splitOn '/' (forwardChars part)) := by
  unfold place startOf
  split
  · rw [forwardChars_forwardChars, List.nil_append]
  · split
    · rename_i hnil
      rw [hnil, splitOn, collapse, collapse, List.foldl_append, List.foldl_cons, pushSegment_nil,
        List.foldl_nil]
    · rw [forwardChars_append, forwardChars_slash, forwardChars_forwardChars, splitOn_append]

/-- Segments that make no step to the folder above are added, as far as they name
something. -/
theorem collapse_append_of_no_parent (before : List Segment) {rest : List Segment}
    (h : ∀ piece ∈ rest, piece ≠ parentSegment ∧ '/' ∉ piece ∧ '\\' ∉ piece) :
    collapse true (before ++ rest)
      = collapse true before ++ rest.filter (fun piece => piece ≠ [] ∧ piece ≠ ['.']) := by
  induction rest generalizing before with
  | nil => rw [List.append_nil, List.filter_nil, List.append_nil]
  | cons piece rest ih =>
    obtain ⟨hparent, hslash, hback⟩ := h piece List.mem_cons_self
    have hrest := ih (before ++ [piece]) fun other ho => h other (List.mem_cons_of_mem _ ho)
    rw [← List.append_cons] at hrest
    rw [hrest]
    by_cases hstep : piece = [] ∨ piece = ['.']
    · have hpush : ∀ stack, pushSegment true stack piece = stack := fun _ => if_pos hstep
      have hstay : collapse true (before ++ [piece]) = collapse true before := by
        rw [collapse, collapse, List.foldl_append, List.foldl_cons, List.foldl_nil, hpush]
      rw [hstay, List.filter_cons_of_neg (by simpa using hstep.resolve_left)]
    · rw [not_or] at hstep
      have hplain : Plain piece := ⟨hstep.1, hstep.2, hparent, hslash, hback⟩
      rw [collapse_append before fun _ hp => List.mem_singleton.mp hp ▸ hplain,
        List.filter_cons_of_pos (by simpa using hstep), List.append_assoc, List.singleton_append]

/-- A step that names nothing leads up or nowhere. -/
theorem collapse_step (before : List Segment) {piece : Segment} (h : ¬ Plain piece)
    (hslash : '/' ∉ piece) (hback : '\\' ∉ piece) :
    collapse true (before ++ [piece]) <+: collapse true before := by
  rw [collapse, collapse, List.foldl_append, List.foldl_cons, List.foldl_nil]
  generalize before.foldl (pushSegment true) [] = stack
  unfold pushSegment
  split
  · exact List.prefix_rfl
  · rename_i hnamed
    rw [not_or] at hnamed
    split
    · cases stack with
      | nil => exact List.prefix_rfl
      | cons top below =>
        dsimp only
        split
        · exact List.prefix_rfl
        · exact ⟨[top], List.reverse_cons.symm⟩
    · rename_i hparent
      exact absurd ⟨hnamed.1, hnamed.2, hparent, hslash, hback⟩ h

/-! ## Paths without a drive -/

/-- Whether no colon makes a drive of a rooted path. -/
def NoDrive (path : List Char) : Prop :=
  path.tail.head? ≠ some ':'

theorem head?_tail_forwardChars (path : List Char) :
    (forwardChars path).tail.head? = some ':' ↔ path.tail.head? = some ':' := by
  rcases path with _ | ⟨first, _ | ⟨second, rest⟩⟩
  · rfl
  · rfl
  · change some (if second = '\\' then '/' else second) = some ':' ↔ some second = some ':'
    split
    · rename_i h
      rw [h]
      decide
    · rfl

theorem NoDrive.driveChars?_eq_none {path : List Char} (h : NoDrive path) :
    driveChars? (forwardChars path) = none :=
  Path.driveChars?_eq_none fun hcolon => h ((head?_tail_forwardChars path).mp hcolon)

theorem exists_colon_of_drive {path : List Char} (hroot : path.head? = some '/')
    (hdrive : ¬ NoDrive path) : ∃ rest, path = '/' :: ':' :: rest := by
  obtain ⟨rest, rfl⟩ := List.head?_eq_some_iff.mp hroot
  rw [NoDrive, Decidable.not_not, List.tail_cons] at hdrive
  obtain ⟨rest, rfl⟩ := List.head?_eq_some_iff.mp hdrive
  exact ⟨rest, rfl⟩

/-- A rooted path has no drive if its first segment does not start with a colon. -/
theorem noDrive_of_segments {path : List Char} (hroot : path.head? = some '/')
    (h : ∀ first, (segments (cleanChars path)).head? = some first → first.head? ≠ some ':') :
    NoDrive path := by
  by_contra hcolon
  obtain ⟨rest, rfl⟩ := exists_colon_of_drive hroot hcolon
  have hdrive : driveChars? (forwardChars ('/' :: ':' :: rest)) = some ('/', forwardChars rest) := rfl
  refine h [':'] ?_ rfl
  rw [segments_clean_drive hdrive]
  rfl

/-- A rooted path has no drive if its own first segment does not start with a colon. -/
theorem noDrive_of_own_segments {path : List Char} (hroot : path.head? = some '/')
    (h : ∀ first, (segments path).head? = some first → first.head? ≠ some ':') : NoDrive path := by
  by_contra hcolon
  obtain ⟨rest, rfl⟩ := exists_colon_of_drive hroot hcolon
  obtain ⟨name, tail, hsegments⟩ := exists_segments_colon rest
  exact h (':' :: name) (by rw [hsegments]; rfl) rfl

theorem forwardChars_clean {path : List Char} (hroot : path.head? = some '/') :
    forwardChars (cleanChars path) = cleanChars path := by
  obtain ⟨front, pieces, hclean, hfront, hplain⟩ := clean_of_rooted hroot
  rw [hclean, forwardChars_append, forwardChars_slash, forwardChars_joinWith hplain]
  rcases hfront with rfl | rfl <;> rfl

/-- The segments that a part comes to. -/
theorem segments_clean_place {path part : List Char} (hroot : path.head? = some '/')
    (hdrive : NoDrive (place path part)) :
    segments (cleanChars (place path part))
      = collapse true (startOf path part ++ splitOn '/' (forwardChars part)) := by
  rw [segments_clean_rooted hdrive.driveChars?_eq_none
    (head?_forwardChars (rooted_place hroot part)), collapse_place]

/-- A rooted path and its normal form have the same segments to start from. -/
theorem collapse_clean {path : List Char} (hroot : path.head? = some '/') (hdrive : NoDrive path) :
    collapse true (splitOn '/' (cleanChars path)) = collapse true (splitOn '/' (forwardChars path)) := by
  have hsegments := segments_clean_rooted hdrive.driveChars?_eq_none (head?_forwardChars hroot)
  rw [← collapse_filter, ← segments, hsegments]
  exact collapse_of_plain fun piece hpiece =>
    (kept_collapse_splitOn (notMem_forwardChars path) piece hpiece).plain

/-- The front of a part makes no drive if the part makes none. -/
theorem noDrive_place_front {path base front rest : List Char} (hroot : base.head? = some '/')
    (hbase : NoDrive base)
    (h : NoDrive (place path (front ++ rest))) : NoDrive (place base front) := by
  unfold place
  split
  · rename_i hfront
    have hall : Anchored (front ++ rest) := by
      obtain ⟨more, hmore⟩ := List.head?_eq_some_iff.mp hfront
      rw [Anchored, forwardChars_append, hmore]
      rfl
    intro hcolon
    refine h ?_
    obtain ⟨first, more, hmore⟩ := List.exists_cons_of_ne_nil (show forwardChars front ≠ [] by
      intro hnil
      rw [Anchored, hnil] at hfront
      cases hfront)
    rw [hmore, List.tail_cons] at hcolon
    rw [place, if_pos hall, forwardChars_append, hmore, List.cons_append, List.tail_cons,
      List.head?_append, hcolon]
    rfl
  · rename_i hfront
    split
    · exact hbase
    · obtain ⟨more, rfl⟩ := List.head?_eq_some_iff.mp hroot
      cases more with
      | nil => exact fun hcolon => absurd (Option.some.inj hcolon) (by decide)
      | cons c more => exact hbase

/-! ## A text and what goes on behind it -/

variable {workingDir url front rest : List Char}

/-- **What a text resolves to, and what the text with more behind it does**: they
share the segments before the last piece of the text. The one is resolved from the
normal form of the base, the other from the base as it is written. -/
theorem segments_resolve_both (hroot : workingDir.head? = some '/')
    (hbase : ∀ first, (segments (cleanChars (place workingDir url))).head? = some first →
      first.head? ≠ some ':')
    (hwhole : ∀ first,
      (segments (cleanChars (place (place workingDir url) (front ++ rest)))).head? = some first →
        first.head? ≠ some ':')
    (hfront : front = [] → ¬ Anchored rest) :
    ∃ before,
      segments (cleanChars (place (cleanChars (place workingDir url)) front))
          = collapse true (before ++ [lastChars (forwardChars front)])
        ∧ segments (cleanChars (place (place workingDir url) (front ++ rest)))
          = collapse true
              (before ++ splitOn '/' (lastChars (forwardChars front) ++ forwardChars rest)) := by
  have hurl := rooted_place hroot url
  have hclean := head?_clean_of_rooted hurl
  have hnodrive := noDrive_of_segments (rooted_place hurl (front ++ rest)) hwhole
  have hstart : Anchored (front ++ rest) ↔ Anchored front := by
    cases front with
    | nil => exact iff_of_false (by rw [List.nil_append]; exact hfront rfl) (by decide +revert)
    | cons c front => rfl
  have hsame : collapse true (startOf (cleanChars (place workingDir url)) front)
      = collapse true (startOf (place workingDir url) (front ++ rest)) := by
    unfold startOf
    by_cases hanchored : Anchored front
    · rw [if_pos hanchored, if_pos (hstart.mpr hanchored)]
    · rw [if_neg hanchored, if_neg (hstart.not.mpr hanchored), forwardChars_clean hurl]
      exact collapse_clean hurl (noDrive_of_segments hurl hbase)
  obtain ⟨pieces, hpieces⟩ := splitOn_behind (forwardChars front)
  have hlast := hpieces []
  rw [List.append_nil, List.append_nil, splitOn_of_notMem (no_slash_lastChars _)] at hlast
  refine ⟨startOf (place workingDir url) (front ++ rest) ++ pieces, ?_, ?_⟩
  · rw [segments_clean_place hclean (noDrive_place_front hclean
      (noDrive_of_own_segments hclean hbase) hnodrive), hlast, List.append_assoc]
    exact collapse_append_congr hsame _
  · rw [segments_clean_place hurl hnodrive, forwardChars_append, hpieces, List.append_assoc]

/-- **How what goes on behind a text resolves**: below what the text resolves to or,
where it goes on with a name, to a longer name in the same folder. -/
theorem collapse_goes_on (before : List Segment) {last rest : List Char} (hslash : '/' ∉ last)
    (hback : '\\' ∉ last ++ rest) (hparent : parentSegment ∉ splitOn '/' (last ++ rest)) :
    collapse true (before ++ [last]) <+: collapse true (before ++ splitOn '/' (last ++ rest))
      ∨ Plain last ∧ rest ≠ [] ∧ rest.head? ≠ some '/'
        ∧ collapse true (before ++ [last]) = collapse true before ++ [last]
        ∧ ∃ more tail, collapse true (before ++ splitOn '/' (last ++ rest))
          = collapse true before ++ (last ++ more) :: tail := by
  have hpieces : ∀ piece ∈ splitOn '/' (last ++ rest),
      piece ≠ parentSegment ∧ '/' ∉ piece ∧ '\\' ∉ piece := by
    intro piece hpiece
    refine ⟨?_, no_slash_splitOn hback piece hpiece⟩
    rintro rfl
    exact hparent hpiece
  have hlast : '\\' ∉ last := fun hmem => hback (List.mem_append_left _ hmem)
  rw [collapse_append_of_no_parent before hpieces]
  by_cases hplain : Plain last
  · have hadded : collapse true (before ++ [last]) = collapse true before ++ [last] :=
      collapse_append before fun _ hp => List.mem_singleton.mp hp ▸ hplain
    obtain ⟨first, tail, hrest, hsplit⟩ := splitOn_append_of_notMem hslash rest
    have hkept : (splitOn '/' (last ++ rest)).filter (fun piece => piece ≠ [] ∧ piece ≠ ['.'])
        = (last ++ first) :: tail.filter (fun piece => piece ≠ [] ∧ piece ≠ ['.']) := by
      -- only the empty name and the dot are dropped, and a longer name is neither
      have hnamed : last ++ first ≠ [] ∧ last ++ first ≠ ['.'] := by
        obtain ⟨c, more, rfl⟩ := List.exists_cons_of_ne_nil hplain.ne_nil
        refine ⟨List.cons_ne_nil _ _, fun hdot => hplain.ne_here ?_⟩
        rw [List.cons_append, List.cons.injEq, List.append_eq_nil_iff] at hdot
        rw [hdot.1, hdot.2.1]
      rw [hsplit]
      exact List.filter_cons_of_pos (decide_eq_true hnamed)
    have hbelow : ∀ more : List Segment,
        collapse true before ++ [last] <+: collapse true before ++ (last ++ []) :: more := by
      intro more
      rw [List.append_nil, List.prefix_append_right_inj]
      exact ⟨more, rfl⟩
    rw [hkept, hadded]
    cases rest with
    | nil =>
      cases hrest
      exact Or.inl (hbelow _)
    | cons c rest =>
      by_cases hc : c = '/'
      · rw [splitOn, if_pos hc] at hrest
        obtain ⟨rfl, _⟩ := List.cons.inj hrest
        exact Or.inl (hbelow _)
      · exact Or.inr ⟨hplain, List.cons_ne_nil _ _, fun h => hc (Option.some.inj h), rfl, first,
          _, rfl⟩
  · exact Or.inl ((collapse_step before hplain hslash hlast).trans (List.prefix_append _ _))

end Path

end PackageOrder
