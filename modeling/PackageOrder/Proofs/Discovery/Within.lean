/-
PackageOrder.Proofs.Discovery.Within — which paths are found to lie in a folder.

A path lies in a folder if its names start with those of the folder (`AtOrBelow`).
Whether it does is read off the way from the folder to the path: this must not start
with two dots. So a name that starts with them is taken for a step to the folder
above, and what lies below by such a name is not found (`isWithin_iff`). What is found
is an order of paths all the same (`isWithin_trans`, `isWithin_antisymm`), so of paths
that lie one inside the other an outermost one stays (`exists_dedupePaths_within`).
-/
import PackageOrder.Discovery.BasePaths
import PackageOrder.Proofs.FileTree.Check
import PackageOrder.Proofs.Path.Relative

namespace PackageOrder

open PackageOrder.Text
open PackageOrder.Path (Plain Segment parentSegment)
open PackageOrder.FileTree (namesOf pathOf Spelled)

/-! ## Paths one inside the other -/

/-- A path is another one or lies below it. -/
def AtOrBelow (outer path : String) : Prop :=
  namesOf outer <+: namesOf path

instance (outer path : String) : Decidable (AtOrBelow outer path) :=
  inferInstanceAs (Decidable (namesOf outer <+: namesOf path))

/-- A path that is spelled by its names. -/
def Normal (path : String) : Prop :=
  ∃ names, Spelled names ∧ path = pathOf names

namespace Normal

variable {path other : String}

theorem eq_pathOf (h : Normal path) : path = pathOf (namesOf path) := by
  obtain ⟨names, hspelled, rfl⟩ := h
  rw [FileTree.namesOf_pathOf hspelled.plain]

theorem spelled (h : Normal path) : Spelled (namesOf path) := by
  obtain ⟨names, hspelled, rfl⟩ := h
  rwa [FileTree.namesOf_pathOf hspelled.plain]

theorem clean (h : Normal path) : Path.clean path = path := by
  obtain ⟨names, hspelled, rfl⟩ := h
  exact FileTree.clean_pathOf hspelled

theorem isRooted (h : Normal path) : Path.isRooted path = true := by
  obtain ⟨names, _, rfl⟩ := h
  exact FileTree.isRooted_pathOf names

theorem eq_of_namesOf (h : Normal path) (ho : Normal other) (heq : namesOf path = namesOf other) :
    path = other := by
  rw [h.eq_pathOf, ho.eq_pathOf, heq]

end Normal

instance (path : String) : Decidable (Normal path) :=
  decidable_of_iff (Spelled (namesOf path) ∧ path = pathOf (namesOf path))
    ⟨fun h => ⟨_, h⟩, fun h => ⟨h.spelled, h.eq_pathOf⟩⟩

/-- A path that the way from a folder seems not to lead into: it is below the folder by
a name that starts like the step to the folder above. -/
def SeemsOutside (outer path : String) : Prop :=
  ∃ name rest, Path.segments path.toList = Path.segments outer.toList ++ name :: rest
    ∧ parentSegment <+: name

/-- A way leaves its folder, as far as that is looked at, if its first name starts like
the step to the folder above. -/
theorem leavesFolder_joinWith {pieces : List Segment} (h : ∀ piece ∈ pieces, Path.Kept false piece) :
    leavesFolder (.ofList (joinWith '/' pieces)) = true
      ↔ ∃ name rest, pieces = name :: rest ∧ parentSegment <+: name := by
  have hrooted : Path.isRooted (.ofList (joinWith '/' pieces)) = false := by
    rw [Path.isRooted, String.toList_ofList, beq_eq_false_iff_ne]
    exact Path.head?_joinWith_kept h
  have hdots : (dropHead? ['.', '.'] (joinWith '/' pieces)).isSome
      ↔ parentSegment <+: joinWith '/' pieces := by
    rw [Option.isSome_iff_exists]
    constructor
    · rintro ⟨rest, hrest⟩
      exact ⟨rest, (dropHead?_eq_some hrest).symm⟩
    · rintro ⟨rest, hrest⟩
      exact ⟨rest, hrest ▸ dropHead?_append _ _⟩
  rw [leavesFolder, hrooted, Bool.or_false, String.toList_ofList, hdots]
  cases pieces with
  | nil =>
    refine iff_of_false (by decide) ?_
    rintro ⟨name, rest, hnil, _⟩
    cases hnil
  | cons name rest =>
    obtain ⟨more, hmore⟩ : ∃ more, joinWith '/' (name :: rest) = name ++ more := by
      cases rest with
      | nil => exact ⟨[], (List.append_nil _).symm⟩
      | cons next rest => exact ⟨_, rfl⟩
    rw [hmore]
    constructor
    · intro hprefix
      refine ⟨name, rest, rfl, List.prefix_of_prefix_length_le hprefix (List.prefix_append _ _) ?_⟩
      have hkept := h name List.mem_cons_self
      -- a shorter name would be none or the step to the folder itself
      rcases name with _ | ⟨c, _ | ⟨d, name⟩⟩
      · exact absurd rfl hkept.ne_nil.1
      · obtain rfl := (List.cons_prefix_cons.mp hprefix).1
        exact absurd rfl hkept.ne_here
      · exact Nat.le_add_left 2 name.length
    · rintro ⟨_, _, heq, hprefix⟩
      cases heq
      exact hprefix.trans (List.prefix_append _ _)

/-- The way from a path in normal form to another one. -/
theorem Normal.relative_eq {outer inner : String} (houter : Normal outer) (hinner : Normal inner) :
    Path.relative outer inner = .ofList (joinWith '/'
      (Path.relativeSegments (Path.segments outer.toList) (Path.segments inner.toList))) := by
  have houter' := congrArg String.toList houter.clean
  have hinner' := congrArg String.toList hinner.clean
  rw [Path.toList_clean] at houter' hinner'
  rw [Path.relative, houter', hinner', Path.relativeChars]

theorem Normal.plain {path : String} (h : Normal path) :
    ∀ piece ∈ Path.segments path.toList, Plain piece := by
  rw [← FileTree.map_toList_namesOf]
  exact h.spelled.plain.segments

theorem atOrBelow_iff_segments {outer path : String} :
    AtOrBelow outer path ↔ Path.segments outer.toList <+: Path.segments path.toList := by
  refine ⟨fun h => ?_, fun h => h.map String.ofList⟩
  have hmap := h.map String.toList
  rwa [FileTree.map_toList_namesOf, FileTree.map_toList_namesOf] at hmap

/-- **What the test for containment finds**: paths whose names start with those of the
folder, but for those below it by a name that starts like the step to the folder
above. -/
theorem isWithin_iff {outer inner : String} (houter : Normal outer) (hinner : Normal inner) :
    isWithin outer inner = true ↔ AtOrBelow outer inner ∧ ¬ SeemsOutside outer inner := by
  rw [isWithin, Bool.not_eq_true', ← Bool.not_eq_true, houter.relative_eq hinner,
    leavesFolder_joinWith (Path.kept_relativeSegments _ hinner.plain), atOrBelow_iff_segments]
  by_cases hbelow : Path.segments outer.toList <+: Path.segments inner.toList
  · rw [and_iff_right hbelow, SeemsOutside]
    obtain ⟨rest, hrest⟩ := hbelow
    rw [← hrest, Path.relativeSegments_append]
    simp only [List.append_cancel_left_eq]
  · obtain ⟨rest, hrest⟩ := Path.relativeSegments_of_not_below hbelow
    exact iff_of_false (fun hno => hno ⟨parentSegment, rest, hrest, List.prefix_rfl⟩)
      fun h => hbelow h.1

theorem atOrBelow_of_isWithin {outer inner : String} (houter : Normal outer) (hinner : Normal inner)
    (h : isWithin outer inner = true) : AtOrBelow outer inner :=
  ((isWithin_iff houter hinner).mp h).1

theorem isWithin_self {path : String} (h : Normal path) : isWithin path path = true := by
  refine (isWithin_iff h h).mpr ⟨List.prefix_rfl, ?_⟩
  rintro ⟨name, rest, heq, _⟩
  exact List.cons_ne_nil _ _ (List.append_right_eq_self.mp heq.symm)

theorem isWithin_antisymm {one other : String} (hone : Normal one) (hother : Normal other)
    (h : isWithin one other = true) (h' : isWithin other one = true) : one = other := by
  have hbelow := atOrBelow_of_isWithin hone hother h
  have habove := atOrBelow_of_isWithin hother hone h'
  exact hone.eq_of_namesOf hother (hbelow.eq_of_length_le habove.length_le)

/-- Although some paths below a folder are not found in it, what is found in a path that
is found in the folder is found in the folder: the first name on the way is the same. -/
theorem isWithin_trans {outer middle inner : String} (houter : Normal outer)
    (hmiddle : Normal middle) (hinner : Normal inner) (h : isWithin outer middle = true)
    (h' : isWithin middle inner = true) : isWithin outer inner = true := by
  obtain ⟨hbelow, hseems⟩ := (isWithin_iff houter hmiddle).mp h
  obtain ⟨hbelow', hseems'⟩ := (isWithin_iff hmiddle hinner).mp h'
  refine (isWithin_iff houter hinner).mpr ⟨hbelow.trans hbelow', ?_⟩
  rintro ⟨name, rest, hnames, hdots⟩
  obtain ⟨more, hmore⟩ := atOrBelow_iff_segments.mp hbelow
  obtain ⟨last, hlast⟩ := atOrBelow_iff_segments.mp hbelow'
  cases more with
  | nil =>
    rw [List.append_nil] at hmore
    exact hseems' ⟨name, rest, hmore ▸ hnames, hdots⟩
  | cons first more =>
    rw [← hlast, ← hmore, List.append_assoc, List.append_cancel_left_eq, List.cons_append,
      List.cons.injEq] at hnames
    exact hseems ⟨first, more, hmore.symm, hnames.1 ▸ hdots⟩

/-! ## Paths of which none lies in another -/

theorem mem_dedupePaths_go {path : String} {before rest : List String} :
    path ∈ dedupePaths.go before rest ↔ ∃ front back, rest = front ++ path :: back
      ∧ ((before ++ front).any (fun other => other == path || isWithin other path)
        || back.any fun other => other != path && isWithin other path) = false := by
  induction rest generalizing before with
  | nil => exact iff_of_false List.not_mem_nil fun ⟨front, back, h, _⟩ => by simp at h
  | cons first rest ih =>
    have hlater : path ∈ dedupePaths.go (before ++ [first]) rest ↔ ∃ front back,
        first :: rest = (first :: front) ++ path :: back
          ∧ ((before ++ first :: front).any (fun other => other == path || isWithin other path)
            || back.any fun other => other != path && isWithin other path) = false := by
      simp only [ih, List.append_assoc, List.cons_append, List.nil_append, List.cons.injEq, true_and]
    rw [dedupePaths.go]
    constructor
    · intro h
      split at h
      · obtain ⟨front, back, hsplit, hkept⟩ := hlater.mp h
        exact ⟨first :: front, back, hsplit, hkept⟩
      · rename_i hkept
        rcases List.mem_cons.mp h with rfl | h
        · exact ⟨[], rest, rfl, by rw [List.append_nil]; exact Bool.eq_false_iff.mpr hkept⟩
        · obtain ⟨front, back, hsplit, hkept⟩ := hlater.mp h
          exact ⟨first :: front, back, hsplit, hkept⟩
    · rintro ⟨front, back, hsplit, hkept⟩
      cases front with
      | nil =>
        cases hsplit
        rw [List.append_nil] at hkept
        rw [if_neg (Bool.eq_false_iff.mp hkept)]
        exact List.mem_cons_self
      | cons other front =>
        obtain ⟨rfl, _⟩ := List.cons.inj hsplit
        have h := hlater.mpr ⟨front, back, hsplit, hkept⟩
        split
        · exact h
        · exact List.mem_cons_of_mem _ h

/-- **The paths that stay** are those that are found in no other one. -/
theorem mem_dedupePaths {paths : List String} {path : String} :
    path ∈ dedupePaths paths ↔ path ∈ paths
      ∧ ∀ other ∈ paths, isWithin other path = true → other = path := by
  rw [dedupePaths, mem_dedupePaths_go]
  simp only [List.nil_append, Bool.or_eq_false_iff, List.any_eq_false, Bool.or_eq_true,
    Bool.and_eq_true, beq_iff_eq, bne_iff_ne, not_or, not_and]
  constructor
  · rintro ⟨front, back, rfl, hfront, hback⟩
    refine ⟨List.mem_append_right _ List.mem_cons_self, fun other hother hwithin => ?_⟩
    rcases List.mem_append.mp hother with hother | hother
    · exact absurd hwithin (hfront other hother).2
    · rcases List.mem_cons.mp hother with rfl | hother
      · rfl
      · exact not_ne_iff.mp fun hne => hback other hother hne hwithin
  · rintro ⟨hpath, halone⟩
    -- of equal paths the first one stays
    obtain ⟨front, back, rfl, hfirst⟩ := List.eq_append_cons_of_mem hpath
    refine ⟨front, back, rfl, fun other hother => ⟨?_, fun hwithin => ?_⟩,
      fun other hother hne hwithin => hne (halone other ?_ hwithin)⟩
    · rintro rfl
      exact hfirst hother
    · exact hfirst (halone other (List.mem_append_left _ hother) hwithin ▸ hother)
    · exact List.mem_append_right _ (List.mem_cons_of_mem _ hother)

/-- **Every path is found in one that stays.** -/
theorem exists_dedupePaths_within {paths : List String} (hnormal : ∀ path ∈ paths, Normal path)
    {path : String} (hpath : path ∈ paths) :
    ∃ outer ∈ dedupePaths paths, isWithin outer path = true := by
  induction hlength : (namesOf path).length using Nat.strongRecOn generalizing path with
  | ind length ih =>
    by_cases houtside : ∃ other ∈ paths, isWithin other path = true ∧ other ≠ path
    · -- what the path is found in has fewer names
      obtain ⟨other, hother, hwithin, hne⟩ := houtside
      have habove := atOrBelow_of_isWithin (hnormal other hother) (hnormal path hpath) hwithin
      have hlt : (namesOf other).length < length := by
        rw [← hlength]
        refine Nat.lt_of_le_of_ne habove.length_le fun heq => hne ?_
        exact (hnormal other hother).eq_of_namesOf (hnormal path hpath) (habove.eq_of_length heq)
      obtain ⟨outer, houter, h⟩ := ih _ hlt hother rfl
      exact ⟨outer, houter, isWithin_trans (hnormal outer (mem_dedupePaths.mp houter).1)
        (hnormal other hother) (hnormal path hpath) h hwithin⟩
    · refine ⟨path, mem_dedupePaths.mpr ⟨hpath, fun other hother hwithin => ?_⟩,
        isWithin_self (hnormal path hpath)⟩
      by_contra hne
      exact houtside ⟨other, hother, hwithin, hne⟩

/-- **Of paths that lie one inside the other an outermost one stays.** -/
theorem exists_dedupePaths_above {paths : List String} (hnormal : ∀ path ∈ paths, Normal path)
    {path : String} (hpath : path ∈ paths) : ∃ outer ∈ dedupePaths paths, AtOrBelow outer path := by
  obtain ⟨outer, houter, hwithin⟩ := exists_dedupePaths_within hnormal hpath
  exact ⟨outer, houter, atOrBelow_of_isWithin (hnormal outer (mem_dedupePaths.mp houter).1)
    (hnormal path hpath) hwithin⟩

/-! ## Both tests -/

/-- **What lies in a folder is found there unless the next name starts with two dots**,
by the test for one path and by the one among several. -/
theorem contains_unless_dotted {outer inner : String} (houter : Normal outer)
    (hinner : Normal inner) :
    (isWithin outer inner = true ↔ AtOrBelow outer inner ∧ ¬ SeemsOutside outer inner)
      ∧ ∀ paths : List String, (∀ path ∈ paths, Normal path) → ∀ path,
        path ∈ dedupePaths paths ↔ path ∈ paths
          ∧ ∀ other ∈ paths, other ≠ path → AtOrBelow other path → SeemsOutside other path := by
  refine ⟨isWithin_iff houter hinner, fun paths hnormal path => ?_⟩
  rw [mem_dedupePaths]
  refine and_congr_right fun hpath => forall₂_congr fun other hother => ?_
  rw [isWithin_iff (hnormal other hother) (hnormal path hpath)]
  tauto

/-- A name with two dots at its front, beside one with two dots at its end. -/
theorem contains_unless_dotted_twice :
    (Normal "/lib" ∧ Normal "/lib/b..")
      ∧ isWithin "/lib" "/lib/b.." = true
      ∧ (∀ path ∈ ["/lib", "/lib/..b", "/lib/b.."], Normal path)
      ∧ "/lib/..b" ∈ dedupePaths ["/lib", "/lib/..b", "/lib/b.."]
      ∧ "/lib/b.." ∉ dedupePaths ["/lib", "/lib/..b", "/lib/b.."] := by
  have hlib : Normal "/lib" := by decide
  have hback : Normal "/lib/b.." := by decide
  have hall : ∀ path ∈ ["/lib", "/lib/..b", "/lib/b.."], Normal path := by decide
  obtain ⟨hwithin, hkept⟩ := contains_unless_dotted hlib hback
  have hplain : ¬ SeemsOutside "/lib" "/lib/b.." := by
    rintro ⟨name, rest, hnames, hdots⟩
    rw [show Path.segments "/lib/b..".toList = Path.segments "/lib".toList ++ ["b..".toList]
      by decide, List.append_cancel_left_eq] at hnames
    obtain ⟨rfl, _⟩ := List.cons.inj hnames
    exact absurd hdots (by decide)
  have hdotted : SeemsOutside "/lib" "/lib/..b" := ⟨"..b".toList, [], by decide, by decide⟩
  refine ⟨⟨hlib, hback⟩, hwithin.mpr ⟨by decide, hplain⟩, hall, ?_, fun hmem => ?_⟩
  · refine (hkept _ hall _).mpr ⟨by decide, fun other hother hne hbelow => ?_⟩
    have hother' : other ∈ ["/lib"] := by
      revert other
      decide
    exact List.mem_singleton.mp hother' ▸ hdotted
  · exact hplain (((hkept _ hall _).mp hmem).2 "/lib" (by decide) (by decide) (by decide))

/-- **A folder does not contain what lies in it by a name with two dots at its front.** -/
theorem not_isWithin_dotted :
    Normal "/lib" ∧ Normal "/lib/..b" ∧ AtOrBelow "/lib" "/lib/..b"
      ∧ isWithin "/lib" "/lib/..b" = false
      ∧ dedupePaths ["/lib", "/lib/..b"] = ["/lib", "/lib/..b"] := by
  decide

end PackageOrder
