/-
PackageOrder.Proofs.Manifest.Places — the places of manifests.

A manifest and the draft that it is written under first have names of their own. So
what is looked up under another name, or with an ending that these do not have, is
found alike in all trees that differ at such places only (`ManifestPlaces`).
-/
import PackageOrder.EntryPoint.Manifest
import PackageOrder.Proofs.FileTree.Resolve
import PackageOrder.Proofs.FileTree.Secluded

namespace PackageOrder

open PackageOrder.Text
open PackageOrder.Path (Plain)

/-- The name of the drafts of manifests. -/
def manifestDraftName : String := manifestFileName ++ ".__tmp__"

/-- A name that neither manifests nor their drafts have. -/
structure OtherName (name : String) : Prop where
  ne_manifest : name ≠ manifestFileName
  ne_draft : name ≠ manifestDraftName

instance (name : String) : Decidable (OtherName name) :=
  decidable_of_iff (name ≠ manifestFileName ∧ name ≠ manifestDraftName)
    ⟨fun ⟨hname, hdraft⟩ => ⟨hname, hdraft⟩, fun h => ⟨h.ne_manifest, h.ne_draft⟩⟩

/-- An ending without slashes that neither manifests nor their drafts have. -/
structure OtherEnding (ending : String) : Prop where
  ne_nil : ending.toList ≠ []
  no_slash : '/' ∉ ending.toList
  not_manifest : ¬ ending.toList <:+ manifestFileName.toList
  not_draft : ¬ ending.toList <:+ manifestDraftName.toList

instance (ending : String) : Decidable (OtherEnding ending) :=
  decidable_of_iff (ending.toList ≠ [] ∧ '/' ∉ ending.toList
      ∧ ¬ ending.toList <:+ manifestFileName.toList ∧ ¬ ending.toList <:+ manifestDraftName.toList)
    ⟨fun ⟨hne, hslash, hmanifest, hdraft⟩ => ⟨hne, hslash, hmanifest, hdraft⟩,
      fun h => ⟨h.ne_nil, h.no_slash, h.not_manifest, h.not_draft⟩⟩

theorem OtherEnding.otherName {ending : String} (h : OtherEnding ending) (front : String) :
    OtherName (front ++ ending) where
  ne_manifest heq := h.not_manifest ⟨front.toList, by rw [← heq, String.toList_append]⟩
  ne_draft heq := h.not_draft ⟨front.toList, by rw [← heq, String.toList_append]⟩

/-! ## Last names -/

namespace FileTree

/-- An ending goes with the last name of a path, or with no name behind a slash. -/
theorem exists_namesOf_append (path : String) :
    ∃ front last, (namesOf path = front ++ [last] ∨ namesOf path = front)
      ∧ ∀ ending : String, ending.toList ≠ [] → '/' ∉ ending.toList →
        namesOf (path ++ ending) = front ++ [last ++ ending] := by
  obtain ⟨front, hfront⟩ := Path.splitOn_behind path.toList
  have hsegments : ∀ ending : List Char, '/' ∉ ending →
      Path.segments (path.toList ++ ending)
        = front.filter (· ≠ []) ++ [Path.lastChars path.toList ++ ending].filter (· ≠ []) := by
    intro ending hslash
    have hlast : '/' ∉ Path.lastChars path.toList ++ ending := fun hmem =>
      (List.mem_append.mp hmem).elim (Path.no_slash_lastChars _) hslash
    have hsplit := hfront ending
    rw [splitOn_of_notMem hlast] at hsplit
    rw [Path.segments, hsplit, List.filter_append]
  have hkept : ∀ piece : List Char, piece ≠ [] → [piece].filter (· ≠ []) = [piece] :=
    fun piece hpiece => List.filter_eq_self.mpr fun _ hp =>
      decide_eq_true (List.mem_singleton.mp hp ▸ hpiece)
  refine ⟨(front.filter (· ≠ [])).map String.ofList, .ofList (Path.lastChars path.toList), ?_, ?_⟩
  · have hself := hsegments [] List.not_mem_nil
    rw [List.append_nil, List.append_nil] at hself
    rw [namesOf, hself, List.map_append]
    by_cases hnil : Path.lastChars path.toList = []
    · right
      rw [hnil]
      exact List.append_nil _
    · left
      rw [hkept _ hnil]
      rfl
  · intro ending hne hslash
    have hname : String.ofList (Path.lastChars path.toList ++ ending.toList)
        = String.ofList (Path.lastChars path.toList) ++ ending := by
      rw [← String.toList_inj, String.toList_ofList, String.toList_append, String.toList_ofList]
    rw [namesOf, String.toList_append, hsegments _ hslash, List.map_append,
      hkept _ (List.append_ne_nil_of_right_ne_nil _ hne), List.map_singleton, hname]

/-- An ending goes with a name that stands last. -/
theorem exists_namesOf_of_standsLast {path name : String}
    (h : Path.StandsLast name.toList path.toList) :
    ∃ front, ∀ ending : String, Plain (name ++ ending).toList →
      namesOf (path ++ ending) = front ++ [name ++ ending] := by
  obtain ⟨front, hfront, hpath⟩ := h
  refine ⟨(Path.segments front).map String.ofList, fun ending hplain => ?_⟩
  rw [namesOf, String.toList_append, hpath, List.append_assoc, ← String.toList_append,
    hfront.segments_append, List.map_append]
  exact congrArg _ (namesOf_plain hplain)

variable {tree : FileTree}

/-- A plain name that is resolved after other parts stands last, unless a colon makes a
drive of it. -/
theorem standsLast_resolve (tree : FileTree) (parts : List String) {name : String}
    (hname : Plain name.toList) (hcolon : name.toList.head? ≠ some ':') :
    Path.StandsLast name.toList (tree.resolve (parts ++ [name])).toList := by
  rw [resolve, Path.toList_resolve_concat, Path.place_of_plain hname]
  rcases Path.cleanChars_behind ((parts.map String.toList).foldl Path.place tree.workingDir.toList)
      (List.cons_ne_nil name.toList []) (fun piece hp => List.mem_singleton.mp hp ▸ hname) with
    hlast | ⟨_, first, tail, heq, _⟩
  · exact hlast
  · rw [(List.cons.inj heq).1] at hcolon
    exact absurd rfl hcolon

/-- A plain name that parts are resolved with stands last. -/
theorem exists_namesOf_resolve (hdir : Path.isRooted tree.workingDir = true) (parts : List String)
    {name : String} (hname : Plain name.toList) :
    ∃ front, namesOf (tree.resolve (parts ++ [name])) = front ++ [name] := by
  have hroot : tree.workingDir.toList.head? = some '/' := Path.head?_of_isRooted hdir
  have hbefore := Path.rooted_foldl_place hroot (parts.map String.toList)
  rw [namesOf, resolve, Path.toList_resolve_concat, Path.place_of_plain hname,
    Path.segments_clean_name hbefore hname, List.map_append, List.map_singleton,
    String.ofList_toList]
  exact ⟨_, rfl⟩

/-- A plain name stands last behind anything, unless a colon makes a drive of it. -/
theorem exists_namesOf_join (path : String) {name : String} (hname : Plain name.toList)
    (hcolon : name.toList.head? ≠ some ':') :
    ∃ front, namesOf (Path.join path [name]) = front ++ [name] := by
  have hone : intercalate "/" ([] ++ [name]) = name := by
    rw [← String.toList_inj, toList_intercalate]
    rfl
  rcases namesOf_behind path [] (List.cons_ne_nil name [])
      (fun other ho => List.mem_singleton.mp ho ▸ hname) with ⟨front, hnames⟩ | ⟨_, hdrive, _⟩
  · rw [hone] at hnames
    exact ⟨front, hnames⟩
  · exact absurd hdrive hcolon

/-! ## Places -/

/-- Places of manifests and their drafts in a well-formed tree, which no link leads
to. -/
structure ManifestPlaces (places : List (List String)) (tree : FileTree) : Prop
    extends Secluded places tree where
  wellFormed : tree.WellFormed
  named : ∀ place ∈ places, ∃ front,
    place = front ++ [manifestFileName] ∨ place = front ++ [manifestDraftName]

namespace ManifestPlaces

variable {places : List (List String)} {start : FileTree} (h : start.ManifestPlaces places)
include h

theorem name_of_mem {front : List String} {name : String} (hplace : front ++ [name] ∈ places) :
    name = manifestFileName ∨ name = manifestDraftName := by
  obtain ⟨front', heq | heq⟩ := h.named _ hplace
  · exact Or.inl (List.append_singleton_inj.mp heq).2
  · exact Or.inr (List.append_singleton_inj.mp heq).2

theorem notMem_concat {name : String} (hname : OtherName name) (front : List String) :
    front ++ [name] ∉ places := fun hmem =>
  (h.name_of_mem hmem).elim hname.ne_manifest hname.ne_draft

theorem aside_concat {front : List String} (hfront : start.Unlinked places front) {name : String}
    (hname : OtherName name) : start.Aside places (front ++ [name]) :=
  hfront.aside (h.notMem_concat hname front)

theorem aside_resolve (parts : List String) {name : String} (hplain : Plain name.toList)
    (hname : OtherName name)
    (hunlinked : start.Unlinked places (namesOf (start.resolve (parts ++ [name])))) :
    start.Aside places (namesOf (start.resolve (parts ++ [name]))) := by
  obtain ⟨front, hnames⟩ := exists_namesOf_resolve h.wellFormed.rooted parts hplain
  rw [hnames] at hunlinked ⊢
  exact h.aside_concat hunlinked.of_append hname

theorem aside_join (path : String) {name : String} (hplain : Plain name.toList)
    (hcolon : name.toList.head? ≠ some ':') (hname : OtherName name)
    (hunlinked : start.Unlinked places (namesOf (Path.join path [name]))) :
    start.Aside places (namesOf (Path.join path [name])) := by
  obtain ⟨front, hnames⟩ := exists_namesOf_join path hplain hcolon
  rw [hnames] at hunlinked ⊢
  exact h.aside_concat hunlinked.of_append hname

theorem aside_append {path : String} (hpath : start.Unlinked places (namesOf path))
    {ending : String} (hending : OtherEnding ending) :
    start.Aside places (namesOf (path ++ ending)) := by
  obtain ⟨front, last, hnames, hwith⟩ := exists_namesOf_append path
  rw [hwith ending hending.ne_nil hending.no_slash]
  refine h.aside_concat ?_ (hending.otherName last)
  rcases hnames with hnames | hnames
  · exact (hnames ▸ hpath).of_append
  · exact hnames ▸ hpath

/-- One ending may take the place of another. -/
theorem aside_append_other {path ending : String} (hne : ending.toList ≠ [])
    (hslash : '/' ∉ ending.toList) (hpath : start.Unlinked places (namesOf (path ++ ending)))
    {other : String} (hother : OtherEnding other) :
    start.Aside places (namesOf (path ++ other)) := by
  obtain ⟨front, last, _, hwith⟩ := exists_namesOf_append path
  rw [hwith ending hne hslash] at hpath
  rw [hwith other hother.ne_nil hother.no_slash]
  exact h.aside_concat hpath.of_append (hother.otherName last)

theorem aside_below {path : String} (hpath : start.Unlinked places (namesOf path)) {name : String}
    (hplain : Plain name.toList) (hname : OtherName name) :
    start.Aside places (namesOf (path ++ "/" ++ name)) := by
  rw [namesOf_append, namesOf_plain hplain]
  exact h.aside_concat hpath hname

end ManifestPlaces

end FileTree

end PackageOrder
