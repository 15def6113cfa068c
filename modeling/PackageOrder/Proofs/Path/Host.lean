/-
PackageOrder.Proofs.Path.Host — the path functions of the machine's own file
system and those of this library are the same on texts without a colon.

A text without a colon has no drive, and neither has its normal form
(`notMem_cleanChars`), so the two differ only in how they carry out the parts of
`resolve`: from the left, starting anew at each anchored part, or from the right,
up to the first such part. What is still to be put behind the parts is the
invariant of the second way (`resolveBack_eq`).
-/
import Mathlib.Data.List.Induction
import PackageOrder.Path.Host
import PackageOrder.Proofs.FileTree.Resolve

namespace PackageOrder.Path

open PackageOrder.Text

/-! ## Colons -/

/-- A text without a colon. -/
def ColonFree (text : String) : Prop :=
  ':' ∉ text.toList

instance (text : String) : Decidable (ColonFree text) :=
  inferInstanceAs (Decidable (':' ∉ text.toList))

theorem mem_forwardChars {path : List Char} {c : Char} (h : c ∈ forwardChars path) :
    c ∈ path ∨ c = '/' := by
  obtain ⟨d, hd, hc⟩ := List.mem_map.mp h
  split at hc
  · exact Or.inr hc.symm
  · exact Or.inl (hc ▸ hd)

theorem colon_notMem_forwardChars {path : List Char} (h : ':' ∉ path) : ':' ∉ forwardChars path :=
  fun hc => (mem_forwardChars hc).elim h (by decide)

theorem driveChars?_of_colon_notMem {path : List Char} (h : ':' ∉ path) :
    driveChars? path = none :=
  driveChars?_eq_none fun hcolon => h (List.mem_of_mem_tail (List.mem_of_mem_head? hcolon))

theorem noDrive_of_colon_notMem {path : List Char} (h : ':' ∉ path) : NoDrive path :=
  fun hcolon => h (List.mem_of_mem_tail (List.mem_of_mem_head? hcolon))

/-- What is left of segments when the steps have been carried out are some of them,
or steps to the folder above. -/
theorem mem_collapse {anchored : Bool} {pieces : List Segment} {piece : Segment}
    (h : piece ∈ collapse anchored pieces) : piece ∈ pieces ∨ piece = parentSegment := by
  have hpush : ∀ (stack : List Segment) (segment : Segment),
      ∀ piece ∈ pushSegment anchored stack segment,
        piece ∈ stack ∨ piece = segment ∨ piece = parentSegment := by
    intro stack segment piece hpiece
    unfold pushSegment at hpiece
    grind
  have hfold : ∀ (pieces stack : List Segment),
      ∀ piece ∈ pieces.foldl (pushSegment anchored) stack,
        piece ∈ stack ∨ piece ∈ pieces ∨ piece = parentSegment := by
    intro pieces
    induction pieces with
    | nil => exact fun stack piece hpiece => Or.inl hpiece
    | cons first rest ih =>
      intro stack piece hpiece
      rcases ih _ piece hpiece with hstack | hrest | hparent
      · rcases hpush stack first piece hstack with hstack | rfl | hparent
        · exact Or.inl hstack
        · exact Or.inr (Or.inl List.mem_cons_self)
        · exact Or.inr (Or.inr hparent)
      · exact Or.inr (Or.inl (List.mem_cons_of_mem _ hrest))
      · exact Or.inr (Or.inr hparent)
  rcases hfold pieces [] piece (List.mem_reverse.mp h) with hnil | hmem
  · cases hnil
  · exact hmem

/-- **The normal form of a text without a colon has none.** -/
theorem notMem_cleanChars {path : List Char} (h : ':' ∉ path) : ':' ∉ cleanChars path := by
  have hforward := colon_notMem_forwardChars h
  have hjoin : ∀ anchored : Bool,
      ':' ∉ joinWith '/' (collapse anchored (splitOn '/' (forwardChars path))) := by
    intro anchored hcolon
    rcases mem_joinWith hcolon with hcolon | ⟨piece, hpiece, hcolon⟩
    · exact absurd hcolon (by decide)
    · rcases mem_collapse hpiece with hpiece | rfl
      · exact hforward (mem_splitOn hpiece hcolon).1
      · exact absurd hcolon (by decide)
  unfold cleanChars
  simp only [driveChars?_of_colon_notMem hforward]
  split
  · rw [List.mem_cons, not_or]
    exact ⟨by decide, hjoin true⟩
  · split
    · decide
    · exact hjoin false

/-! ## Folders -/

theorem dirnameChars_host {path : List Char} (h : ':' ∉ path) :
    Host.dirnameChars path = dirnameChars path := by
  unfold Host.dirnameChars dirnameChars
  cases hcut : cutLast? (cleanChars path) with
  | none => rfl
  | some parts =>
    obtain ⟨before, after⟩ := parts
    have hbefore : ':' ∉ before := by
      intro hcolon
      refine notMem_cleanChars h ?_
      rw [(cutLast?_eq_some hcut).1]
      exact List.mem_append_left _ hcolon
    cases before with
    | nil => rfl
    | cons c before =>
      simp only
      rw [driveChars?_of_colon_notMem hbefore, if_neg (by simp)]

/-- A rooted path is its own folder where it is the root. -/
theorem dirnameChars_eq_clean_iff {path : List Char} (hroot : path.head? = some '/') :
    dirnameChars path = cleanChars path ↔ cleanChars path = ['/'] := by
  unfold dirnameChars
  split
  · rename_i hcut
    obtain ⟨rest, hclean⟩ := List.head?_eq_some_iff.mp (head?_clean_of_rooted hroot)
    exact absurd (hclean ▸ List.mem_cons_self) (cutLast?_eq_none hcut)
  · exact eq_comm
  · rename_i before after hne hcut
    have hpath := (cutLast?_eq_some hcut).1
    constructor
    · intro hbefore
      have hlength := congrArg List.length hpath
      rw [← hbefore, List.length_append, List.length_cons] at hlength
      omega
    · intro hclean
      rw [hclean] at hpath
      cases before with
      | nil => exact absurd rfl hne
      | cons c before =>
        have := (List.cons.inj hpath).2
        exact absurd this.symm (by simp)

/-! ## Parts -/

theorem appendParts_forward (base : List Char) (parts : List (List Char)) :
    appendParts (forwardChars base) (parts.map forwardChars)
      = forwardChars (appendParts base parts) := by
  unfold appendParts
  induction parts generalizing base with
  | nil => rfl
  | cons part rest ih =>
    rw [List.map_cons, List.foldl_cons, List.foldl_cons, ← forwardChars_slash,
      ← forwardChars_append, ih]

/-- A path and what is still to be put behind it. -/
def extend (path suffix : List Char) : List Char :=
  if suffix = [] then path else path ++ '/' :: suffix

theorem extend_of_ne_nil (path : List Char) {suffix : List Char} (h : suffix ≠ []) :
    extend path suffix = path ++ '/' :: suffix :=
  if_neg h

theorem extend_append (path part suffix : List Char) :
    extend (path ++ '/' :: part) suffix = path ++ '/' :: extend part suffix := by
  unfold extend
  split
  · rfl
  · rw [List.append_assoc, List.cons_append]

theorem extend_ne_nil {part : List Char} (h : part ≠ []) (suffix : List Char) :
    extend part suffix ≠ [] := by
  unfold extend
  split
  · exact h
  · exact List.append_ne_nil_of_left_ne_nil h _

/-- A slash at the end and the normal form of the front make no difference. -/
theorem cleanChars_behind_clean {path : List Char} (hroot : path.head? = some '/')
    (hcolon : ':' ∉ path) (suffix : List Char) :
    cleanChars (cleanChars path ++ '/' :: suffix) = cleanChars (extend path suffix) := by
  have hrooted : ∀ front : List Char, front.head? = some '/' → ':' ∉ front →
      ∀ rest, driveChars? (forwardChars (front ++ '/' :: rest)) = none
        ∧ (forwardChars (front ++ '/' :: rest)).head? = some '/' := by
    intro front hfront hcolon rest
    obtain ⟨more, rfl⟩ := List.head?_eq_some_iff.mp hfront
    refine ⟨NoDrive.driveChars?_eq_none ?_, rfl⟩
    intro hhead
    cases more with
    | nil => exact absurd (Option.some.inj hhead) (by decide)
    | cons c more =>
      rw [← show c = ':' from Option.some.inj hhead] at hcolon
      exact hcolon (List.mem_cons_of_mem _ List.mem_cons_self)
  have hsegments : ∀ rest, collapse true (splitOn '/' (forwardChars (cleanChars path ++ '/' :: rest)))
      = collapse true (splitOn '/' (forwardChars (path ++ '/' :: rest))) := by
    intro rest
    rw [forwardChars_append, forwardChars_append, forwardChars_slash, splitOn_append,
      splitOn_append, forwardChars_clean hroot]
    exact collapse_append_congr (collapse_clean hroot (noDrive_of_colon_notMem hcolon)) _
  have hone := hrooted (cleanChars path) (head?_clean_of_rooted hroot) (notMem_cleanChars hcolon) suffix
  have hother := hrooted path hroot hcolon suffix
  have hbehind : cleanChars (cleanChars path ++ '/' :: suffix) = cleanChars (path ++ '/' :: suffix) := by
    unfold cleanChars at hone ⊢
    simp only [hone.1, hother.1, if_pos hone.2, if_pos hother.2]
    rw [← hsegments suffix, cleanChars]
  rw [hbehind]
  unfold extend
  split
  · rename_i hnil
    rw [hnil]
    exact cleanChars_concat_slash hroot
  · rfl

/-- A part without a colon is anchored if it starts with a slash. -/
theorem isRootedChars_host {part : List Char} (h : ':' ∉ part) :
    Host.isRootedChars (forwardChars part) = true ↔ Anchored part := by
  unfold Host.isRootedChars
  dsimp only
  rw [forwardChars_forwardChars, driveChars?_of_colon_notMem (colon_notMem_forwardChars h)]
  simp [Anchored]

/-- **What is put behind parts that are read from the last one back comes behind
the path that they lead to.** -/
theorem resolveBack_eq {workingDir : List Char} (hroot : workingDir.head? = some '/')
    (hcolon : ':' ∉ workingDir) {parts : List (List Char)} (hparts : ∀ part ∈ parts, ':' ∉ part)
    (suffix : List Char) :
    Host.resolveBack (cleanChars workingDir) parts.reverse suffix
      = cleanChars (extend (parts.foldl place workingDir) suffix) := by
  induction parts using List.reverseRecOn generalizing suffix with
  | nil => exact cleanChars_behind_clean hroot hcolon suffix
  | append_singleton front part ih =>
    have hfront := ih fun other ho => hparts other (List.mem_append_left _ ho)
    have hpart := hparts part (List.mem_append_right _ (List.mem_singleton_self _))
    rw [List.reverse_append, List.reverse_singleton, List.singleton_append, List.foldl_append,
      List.foldl_cons, List.foldl_nil, Host.resolveBack, place]
    by_cases hanchored : Anchored part
    · have hne : forwardChars part ≠ [] := by
        intro hnil
        rw [Anchored, hnil] at hanchored
        cases hanchored
      rw [if_neg hne, if_pos ((isRootedChars_host hpart).mpr hanchored), if_pos hanchored]
      rfl
    · rw [if_neg hanchored]
      split
      · exact hfront suffix
      · rename_i hne
        rw [if_neg fun h => hanchored ((isRootedChars_host hpart).mp h)]
        change Host.resolveBack _ _ (extend (forwardChars part) suffix) = _
        rw [hfront, extend_append, extend_of_ne_nil _ (extend_ne_nil hne suffix)]

/-! ## Agreement -/

/-- The host's path functions with a working directory are those of this library on
texts without a colon. -/
structure Host.Agrees (workingDir : String) : Prop where
  dirname : ∀ path, ColonFree path → Host.dirname path = Path.dirname path
  join : ∀ base parts, ColonFree base → (∀ part ∈ parts, ColonFree part) →
    Host.join base parts = Path.join base parts
  basename : ∀ path ending, ColonFree path → (∀ text, ending = some text → ColonFree text) →
    Host.basename path ending = Path.basename path ending
  relative : ∀ source target, ColonFree source → ColonFree target →
    Host.relative source target = Path.relative source target
  resolve : ∀ parts, (∀ part ∈ parts, ColonFree part) →
    Host.resolve workingDir parts = Path.resolve workingDir parts
  isRoot : ∀ path, ColonFree path → Path.isRooted path = true → Host.isRoot path = Path.isRoot path

/-- **The host's path functions and those of this library agree** where no drive comes
in, whatever rooted directory both work in. -/
theorem host_agrees {workingDir : String} (hroot : isRooted workingDir = true)
    (hcolon : ColonFree workingDir) : Host.Agrees workingDir where
  dirname path h := congrArg String.ofList (dirnameChars_host h)
  join base parts _ _ := by
    have hparts : parts.map (fun part => forwardChars part.toList)
        = (parts.map String.toList).map forwardChars := by
      rw [List.map_map]
      rfl
    rw [Host.join, join, hparts, appendParts_forward, cleanChars_forwardChars]
  basename _ _ _ _ := rfl
  relative source target hsource htarget := by
    have hnone : ∀ path : String, ColonFree path →
        Host.driveLetter? (cleanChars path.toList) = none := by
      intro path hpath
      rw [Host.driveLetter?, driveChars?_of_colon_notMem (notMem_cleanChars hpath), Option.map_none]
    unfold Host.relative
    dsimp only
    rw [if_pos (by rw [hnone source hsource, hnone target htarget]), relative]
  resolve parts hparts := by
    have hhead : workingDir.toList.head? = some '/' := by simpa [isRooted] using hroot
    have hmem : ∀ part ∈ parts.map String.toList, ':' ∉ part := by
      intro part hpart
      obtain ⟨text, htext, rfl⟩ := List.mem_map.mp hpart
      exact hparts text htext
    rw [Host.resolve, resolve, resolveChars_eq, resolveBack_eq hhead hcolon hmem]
    rfl
  isRoot path h hpath := by
    have hhead : path.toList.head? = some '/' := by simpa [isRooted] using hpath
    have hroot : Path.clean path = "/" ↔ cleanChars path.toList = ['/'] := by
      rw [← String.toList_inj, toList_clean]
      rfl
    rw [Bool.eq_iff_iff, Host.isRoot, isRoot, beq_iff_eq, beq_iff_eq, dirnameChars_host h,
      dirnameChars_eq_clean_iff hhead, hroot]

/-- At the root, parts that climb, are empty and start anew with a backslash come to
the same path. -/
theorem host_agrees_at_root :
    isRooted "/" = true ∧ ColonFree "/" ∧ Host.Agrees "/"
      ∧ Host.resolve "/" ["x", "\\a/./c", "", "..\\b//"] = "/a/b"
      ∧ resolve "/" ["x", "\\a/./c", "", "..\\b//"] = "/a/b" := by
  have hagrees : Host.Agrees "/" := host_agrees rfl (by decide)
  have hresolve : resolve "/" ["x", "\\a/./c", "", "..\\b//"] = "/a/b" := by decide
  exact ⟨rfl, by decide, hagrees, (hagrees.resolve _ (by decide)).trans hresolve, hresolve⟩

end PackageOrder.Path
