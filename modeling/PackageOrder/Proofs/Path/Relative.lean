/-
PackageOrder.Proofs.Path.Relative — the way from one path to another leads there.

A way climbs out of what two paths do not share and descends to the second one.
Carried out from the segments of the first path it comes to those of the second
(`collapse_relativeSegments`): each step to the folder above takes back one segment
that is not shared, and there are just as many. Neither path has to be in normal
form. A path is put together again from its folder and its name in the same way
(`resolve_relative`).
-/
import PackageOrder.Proofs.Path.Host

namespace PackageOrder.Path

open PackageOrder.Text
open PackageOrder.FileTree (namesOf pathOf Spelled)

/-! ## Climbing and descending -/

theorem pushSegment_parent {top : Segment} (h : Plain top) (below : List Segment) :
    pushSegment true (top :: below) parentSegment = below := by
  unfold pushSegment
  rw [if_neg (by decide), if_pos rfl]
  exact if_neg h.ne_parent

/-- Steps to the folder above take back as many segments. -/
theorem foldl_parentSegments {above : List Segment} (h : ∀ piece ∈ above, Plain piece)
    (stack : List Segment) :
    (List.replicate above.length parentSegment).foldl (pushSegment true) (above ++ stack)
      = stack := by
  induction above with
  | nil => rfl
  | cons top above ih =>
    rw [List.length_cons, List.replicate_succ, List.foldl_cons, List.cons_append,
      pushSegment_parent (h top List.mem_cons_self)]
    exact ih fun piece hpiece => h piece (List.mem_cons_of_mem _ hpiece)

/-- The same from segments in the order in which they were put on the stack. -/
theorem foldl_parentSegments_reverse {source : List Segment} (h : ∀ piece ∈ source, Plain piece)
    (stack : List Segment) :
    (List.replicate source.length parentSegment).foldl (pushSegment true) (source.reverse ++ stack)
      = stack := by
  rw [← List.length_reverse]
  exact foldl_parentSegments (fun piece hpiece => h piece (List.mem_reverse.mp hpiece)) stack

/-- What the segments share stays on the stack. -/
theorem foldl_relativeSegments {source target : List Segment}
    (hsource : ∀ piece ∈ source, Plain piece) (htarget : ∀ piece ∈ target, Plain piece)
    (stack : List Segment) :
    (relativeSegments source target).foldl (pushSegment true) (source.reverse ++ stack)
      = target.reverse ++ stack := by
  induction source generalizing target stack with
  | nil => exact foldl_pushSegment htarget stack
  | cons a source ih =>
    cases target with
    | nil => exact foldl_parentSegments_reverse hsource stack
    | cons b target =>
      have htarget' := fun piece hpiece => htarget piece (List.mem_cons_of_mem b hpiece)
      rw [relativeSegments]
      split
      · rename_i heq
        rw [List.reverse_cons, List.append_assoc, heq,
          ih (fun piece hpiece => hsource piece (List.mem_cons_of_mem _ hpiece)) htarget',
          List.reverse_cons, List.append_assoc]
      · rw [List.foldl_append, ← List.length_cons (a := a),
          foldl_parentSegments_reverse hsource stack, foldl_pushSegment htarget]

/-- **The way from some segments to others leads there.** -/
theorem collapse_relativeSegments {source target : List Segment}
    (hsource : ∀ piece ∈ source, Plain piece) (htarget : ∀ piece ∈ target, Plain piece) :
    collapse true (source ++ relativeSegments source target) = target := by
  have hfold := foldl_relativeSegments hsource htarget []
  rw [List.append_nil, List.append_nil] at hfold
  rw [collapse, List.foldl_append, foldl_pushSegment hsource, List.append_nil, hfold,
    List.reverse_reverse]

/-! ## What a way starts with -/

/-- The way to what is not below starts with a step to the folder above. -/
theorem relativeSegments_of_not_below {source target : List Segment}
    (h : ¬ source <+: target) : ∃ rest, relativeSegments source target = parentSegment :: rest := by
  induction source generalizing target with
  | nil => exact absurd List.nil_prefix h
  | cons a source ih =>
    cases target with
    | nil => exact ⟨List.replicate source.length parentSegment, rfl⟩
    | cons b target =>
      rw [relativeSegments]
      split
      · rename_i heq
        refine ih fun hbelow => h ?_
        rw [heq]
        exact (List.prefix_cons_inj b).mpr hbelow
      · exact ⟨List.replicate source.length parentSegment ++ b :: target, rfl⟩

/-- The way to what is below goes on with what is left. -/
theorem relativeSegments_append (source rest : List Segment) :
    relativeSegments source (source ++ rest) = rest := by
  induction source with
  | nil => rfl
  | cons a source ih => rw [List.cons_append, relativeSegments, if_pos rfl, ih]

/-! ## Ways as texts -/

/-- A way is made of steps to the folder above and segments of the second path. -/
theorem mem_relativeSegments {source target : List Segment} {piece : Segment}
    (h : piece ∈ relativeSegments source target) : piece = parentSegment ∨ piece ∈ target := by
  induction source generalizing target with
  | nil => exact Or.inr h
  | cons a source ih =>
    cases target with
    | nil => exact Or.inl (List.eq_of_mem_replicate h)
    | cons b target =>
      rw [relativeSegments] at h
      split at h
      · exact (ih h).imp_right (List.mem_cons_of_mem _)
      · exact (List.mem_append.mp h).imp_left List.eq_of_mem_replicate

theorem kept_relativeSegments (source : List Segment) {target : List Segment}
    (h : ∀ piece ∈ target, Plain piece) :
    ∀ piece ∈ relativeSegments source target, Kept false piece :=
  fun piece hpiece => (mem_relativeSegments hpiece).elim (fun heq => Or.inr ⟨rfl, heq⟩)
    fun hmem => Or.inl (h piece hmem)

theorem Kept.no_backslash {anchored : Bool} {segment : Segment} (h : Kept anchored segment) :
    '\\' ∉ segment := by
  rcases h with h | ⟨_, rfl⟩
  · exact h.no_backslash
  · decide

theorem Kept.ne_here {anchored : Bool} {segment : Segment} (h : Kept anchored segment) :
    segment ≠ ['.'] := by
  rcases h with h | ⟨_, rfl⟩
  · exact h.ne_here
  · decide

/-- A text that starts with a segment does not start at the root. -/
theorem head?_joinWith_kept {anchored : Bool} {pieces : List Segment}
    (h : ∀ piece ∈ pieces, Kept anchored piece) : (joinWith '/' pieces).head? ≠ some '/' := by
  cases pieces with
  | nil => exact fun hnil => nomatch hnil
  | cons piece rest =>
    obtain ⟨hne, hslash⟩ := (h piece List.mem_cons_self).ne_nil
    obtain ⟨c, name, rfl⟩ := List.exists_cons_of_ne_nil hne
    rw [joinWith_cons_cons]
    exact fun hhead => hslash (Option.some.inj hhead ▸ List.mem_cons_self)

theorem forwardChars_joinWith_kept {anchored : Bool} {pieces : List Segment}
    (h : ∀ piece ∈ pieces, Kept anchored piece) :
    forwardChars (joinWith '/' pieces) = joinWith '/' pieces := by
  refine forwardChars_of_notMem fun hback => ?_
  obtain ⟨piece, hpiece, hin⟩ := (mem_joinWith hback).resolve_left (by decide)
  exact (h piece hpiece).no_backslash hin

/-- Joined segments are carried out as they are. -/
theorem collapse_append_joinWith (front : List Segment) {pieces : List Segment}
    (h : ∀ piece ∈ pieces, '/' ∉ piece) :
    collapse true (front ++ splitOn '/' (joinWith '/' pieces)) = collapse true (front ++ pieces) := by
  by_cases hne : pieces = []
  · rw [hne, joinWith, splitOn, List.append_nil, collapse, List.foldl_append, List.foldl_cons,
      List.foldl_nil, pushSegment_nil, collapse]
  · rw [splitOn_joinWith hne h]

/-- The normal form of a rooted path is spelled by its segments. -/
theorem cleanChars_of_rooted {path : List Char} (hroot : path.head? = some '/')
    (hdrive : NoDrive path) :
    cleanChars path = '/' :: joinWith '/' (collapse true (splitOn '/' (forwardChars path))) := by
  unfold cleanChars
  simp only [hdrive.driveChars?_eq_none, if_pos (head?_forwardChars hroot)]

theorem colon_notMem_place {path part : List Char} (hpath : ':' ∉ path) (hpart : ':' ∉ part) :
    ':' ∉ place path part := by
  unfold place
  split
  · exact colon_notMem_forwardChars hpart
  · split
    · exact hpath
    · intro hcolon
      rcases List.mem_append.mp hcolon with hcolon | hcolon
      · exact hpath hcolon
      · exact colon_notMem_forwardChars hpart ((List.mem_cons.mp hcolon).resolve_left (by decide))

theorem colon_notMem_segments {path : List Char} (h : ':' ∉ path) :
    ∀ piece ∈ segments path, ':' ∉ piece :=
  fun _ hpiece hcolon => h (mem_splitOn (List.mem_of_mem_filter hpiece) hcolon).1

/-- The way to a path without a colon has none. -/
theorem colon_notMem_relativeChars (source : List Char) {target : List Char} (h : ':' ∉ target) :
    ':' ∉ relativeChars source target := by
  intro hcolon
  rcases mem_joinWith hcolon with hcolon | ⟨piece, hpiece, hcolon⟩
  · exact absurd hcolon (by decide)
  · rcases mem_relativeSegments hpiece with rfl | hpiece
    · exact absurd hcolon (by decide)
    · exact colon_notMem_segments h piece hpiece hcolon

/-- **From a path the way to another one leads to the normal form of that.** -/
theorem cleanChars_place_relativeChars {source target : List Char}
    (hsource : source.head? = some '/') (htarget : target.head? = some '/')
    (hcolon : ':' ∉ source) (hcolon' : ':' ∉ target) :
    cleanChars (place source (relativeChars (cleanChars source) (cleanChars target)))
      = cleanChars target := by
  have hplain := plain_of_rooted hsource
  have hplain' := plain_of_rooted htarget
  have hway := kept_relativeSegments (segments (cleanChars source)) hplain'
  have hforward := forwardChars_joinWith_kept hway
  have hanchored : ¬ Anchored (relativeChars (cleanChars source) (cleanChars target)) := by
    rw [Anchored, relativeChars, hforward]
    exact head?_joinWith_kept hway
  have hcollapse : ∀ {path : List Char}, path.head? = some '/' → ':' ∉ path →
      segments (cleanChars path) = collapse true (splitOn '/' (forwardChars path)) :=
    fun hroot hcolon => segments_clean_rooted (noDrive_of_colon_notMem hcolon).driveChars?_eq_none
      (head?_forwardChars hroot)
  have hsame : collapse true (splitOn '/' (forwardChars source))
      = collapse true (segments (cleanChars source)) := by
    rw [collapse_of_plain hplain, hcollapse hsource hcolon]
  have hdrive := noDrive_of_colon_notMem (colon_notMem_place hcolon
    (colon_notMem_relativeChars (cleanChars source) (notMem_cleanChars hcolon')))
  rw [cleanChars_of_rooted (rooted_place hsource _) hdrive, collapse_place, startOf,
    if_neg hanchored, relativeChars, hforward, collapse_append_congr hsame,
    collapse_append_joinWith _ fun piece hpiece => (hway piece hpiece).ne_nil.2,
    collapse_relativeSegments hplain hplain', hcollapse htarget hcolon']
  exact (cleanChars_of_rooted htarget (noDrive_of_colon_notMem hcolon')).symm

/-! ## Paths -/

/-- The names of a rooted path without a colon spell its normal form. -/
theorem spelled_of_colonFree {path : String} (hroot : isRooted path = true)
    (hcolon : ColonFree path) : Spelled (namesOf (clean path)) := by
  refine ⟨FileTree.namesOf_clean_plain hroot, fun name hname hhead => ?_⟩
  have hmem : name.toList ∈ segments (cleanChars path.toList) := by
    have hmap := List.mem_map_of_mem (f := String.toList) (List.mem_of_mem_head? hname)
    rwa [FileTree.map_toList_namesOf, toList_clean] at hmap
  exact colon_notMem_segments (notMem_cleanChars hcolon) _ hmem (List.mem_of_mem_head? hhead)

/-- A path in normal form is a name in its folder. -/
theorem join_dirname_basename {path : String} (hroot : isRooted path = true)
    (hcolon : ColonFree path) (hne : clean path ≠ "/") :
    join (dirname path) [basename path none] = clean path := by
  have hspelled := spelled_of_colonFree hroot hcolon
  have hclean := FileTree.clean_eq_pathOf hroot hspelled
  rcases List.eq_nil_or_concat' (namesOf (clean path)) with hnil | ⟨front, name, hnames⟩
  · rw [hnil] at hclean
    exact absurd hclean hne
  · rw [hnames] at hclean hspelled
    have hname := hspelled.plain name (List.mem_append_right _ (List.mem_singleton_self _))
    rw [FileTree.dirname_of_clean hclean hname, FileTree.basename_of_clean hclean hname,
      FileTree.join_pathOf hspelled, hclean]

/-- **Resolving undoes relating**: from a path the way to another one leads to the
normal form of that, whatever directory is worked in. And a path other than the root is
its name in its folder. -/
theorem resolve_relative {target : String} (hroot : isRooted target = true)
    (hcolon : ColonFree target) :
    (∀ workingDir source : String, isRooted source = true → ColonFree source →
        resolve workingDir [source, relative source target] = clean target)
      ∧ (clean target ≠ "/" → join (dirname target) [basename target none] = clean target) := by
  refine ⟨fun workingDir source hsource hcolon' => ?_, join_dirname_basename hroot hcolon⟩
  have hhead := head?_forwardChars (head?_of_isRooted hsource)
  have hanchored : Anchored source.toList := hhead
  have hway := cleanChars_place_relativeChars hhead (head?_of_isRooted hroot)
    (colon_notMem_forwardChars hcolon') hcolon
  rw [cleanChars_forwardChars] at hway
  rw [resolve, resolveChars_eq, relative, clean, List.map_cons, List.map_cons, List.map_nil,
    List.foldl_cons, List.foldl_cons, List.foldl_nil, String.toList_ofList,
    place.eq_def workingDir.toList, if_pos hanchored, hway]

/-- Two ways of writing that climb past the root, with slashes of both kinds. -/
theorem resolve_relative_climbing :
    (isRooted "/a\\..\\../x//b/." = true ∧ ColonFree "/a\\..\\../x//b/."
        ∧ isRooted "/x\\y/./z/" = true ∧ ColonFree "/x\\y/./z/"
        ∧ clean "/a\\..\\../x//b/." ≠ "/")
      ∧ resolve "" ["/x\\y/./z/", relative "/x\\y/./z/" "/a\\..\\../x//b/."] = "/x/b"
      ∧ relative "/x\\y/./z/" "/a\\..\\../x//b/." = "../../b"
      ∧ join (dirname "/a\\..\\../x//b/.") [basename "/a\\..\\../x//b/." none] = "/x/b" := by
  have hclean : clean "/a\\..\\../x//b/." = "/x/b" := by decide
  have hne : clean "/a\\..\\../x//b/." ≠ "/" := by decide
  have hcolon : ColonFree "/a\\..\\../x//b/." := by decide
  obtain ⟨hresolve, hjoin⟩ := resolve_relative rfl hcolon
  exact ⟨⟨rfl, hcolon, rfl, by decide, hne⟩, (hresolve "" _ rfl (by decide)).trans hclean,
    by decide, (hjoin hne).trans hclean⟩

end PackageOrder.Path
