/-
PackageOrder.Proofs.FileTree.RealPath — the real path of a path is a canonical form of it.

A lookup starts anew at each link that it meets, and what it finds it finds in the pass
that meets none. The names of that pass lead readers to it in any other pass
(`walk_eq_done_iff`), and they make the real path, of which they are the names again
(`namesOf_pathOf_namesOf`). So a lookup of the real path ends in its first pass, at the same
place, and it makes no difference whether a last link is to be followed (`Real.lookup_eq`).
Nothing is asked of the tree: its links may make chains and cycles and lead to paths that
are not in normal form, and names may differ in case from what folders list.
-/
import PackageOrder.Proofs.FileTree.Agree

namespace PackageOrder

open PackageOrder.Text

/-- What readers see where some names lead down from a folder, all but perhaps the last to
folders. -/
def Folder.seenAt (caseSensitive : Bool) : Folder → List String → Option Entity
  | folder, [] => some (.folder folder)
  | folder, name :: names =>
    match folder.child? caseSensitive name with
    | some (.folder entries) => seenAt caseSensitive entries names
    | some entity => if names = [] then some entity else none
    | none => none

namespace FileTree

variable {tree : FileTree} {path real : String} {entity : Entity}

/-! ## The names of a path -/

theorem pathOf_singleton (name : String) : pathOf [name] = "/" ++ name := by
  rw [← String.toList_inj, toList_pathOf, String.toList_append]
  rfl

theorem pathOf_cons (name : String) {names : List String} (hnames : names ≠ []) :
    pathOf (name :: names) = "/" ++ name ++ pathOf names := by
  have hpieces : names.map String.toList ≠ [] := fun hnil => hnames (List.map_eq_nil_iff.mp hnil)
  have hjoin : joinWith '/' (name.toList :: names.map String.toList)
      = name.toList ++ '/' :: joinWith '/' (names.map String.toList) :=
    joinWith_append (List.cons_ne_nil name.toList []) hpieces
  rw [← String.toList_inj]
  simp only [toList_pathOf, String.toList_append, List.map_cons, hjoin]
  rfl

/-- The names of a path make a path with the same names, plain or not. -/
theorem namesOf_pathOf_namesOf (path : String) : namesOf (pathOf (namesOf path)) = namesOf path := by
  have hpieces : ∀ piece ∈ Path.segments path.toList, piece ≠ [] ∧ '/' ∉ piece := by
    intro piece hpiece
    obtain ⟨hsplit, hne⟩ := List.mem_filter.mp hpiece
    exact ⟨of_decide_eq_true hne, fun hslash => (mem_splitOn hsplit hslash).2 rfl⟩
  rw [namesOf, toList_pathOf, map_toList_namesOf, Path.segments_slash,
    Path.segments_joinWith hpieces, namesOf]

/-! ## Passes that find something -/

/-- The way that a pass has gone when it has come down some more names. -/
def wayBelow (way : String) (names : List String) : String :=
  if names = [] then if way = "" then "/" else way else way ++ pathOf names

theorem wayBelow_root (names : List String) : wayBelow "" names = pathOf names := by
  unfold wayBelow
  split
  · rename_i hnames
    rw [hnames]
    rfl
  · exact String.empty_append

theorem wayBelow_singleton (way name : String) : wayBelow way [name] = way ++ "/" ++ name := by
  rw [wayBelow, if_neg (List.cons_ne_nil name []), pathOf_singleton, String.append_assoc]

theorem wayBelow_cons (way name : String) (names : List String) :
    wayBelow (way ++ "/" ++ name) names = wayBelow way (name :: names) := by
  by_cases hnames : names = []
  · have hway : way ++ "/" ++ name ≠ "" := by
      intro heq
      have hlist := congrArg String.toList heq
      simp at hlist
    rw [hnames, wayBelow_singleton, wayBelow, if_pos rfl, if_neg hway]
  · rw [wayBelow, wayBelow, if_neg hnames, if_neg (List.cons_ne_nil name names),
      pathOf_cons name hnames, String.append_assoc, String.append_assoc, String.append_assoc]

/-- **What a pass finds is what readers see at its names**, unless that is a link to be
followed, and the pass goes the way of these names. -/
theorem walk_eq_done_iff {caseSensitive followLast : Bool} {folder : Folder} {way : String}
    {names : List String} {found : String} :
    walk caseSensitive followLast folder way names = .done (some (entity, found))
      ↔ folder.seenAt caseSensitive names = some entity
        ∧ (∀ target, entity = .link target → followLast = false)
        ∧ found = wayBelow way names := by
  induction names generalizing folder way with
  | nil =>
    rw [walk, Folder.seenAt, wayBelow, if_pos rfl]
    constructor
    · intro h
      cases h
      exact ⟨rfl, (fun _ heq => by cases heq), rfl⟩
    · rintro ⟨hseen, _, rfl⟩
      cases hseen
      rfl
  | cons name names ih =>
    rw [walk, Folder.seenAt]
    cases folder.child? caseSensitive name with
    | none => simp
    | some held =>
      cases held with
      | folder entries =>
        rw [← wayBelow_cons]
        exact ih
      | file contents =>
        by_cases hnames : names = []
        · subst hnames
          rw [wayBelow_singleton]
          constructor
          · intro h
            cases h
            exact ⟨rfl, (fun _ heq => by cases heq), rfl⟩
          · rintro ⟨hseen, _, rfl⟩
            cases hseen
            rfl
        · simp [hnames]
      | link target =>
        by_cases hnames : names = []
        · subst hnames
          rw [wayBelow_singleton]
          cases followLast with
          | true =>
            constructor
            · intro h
              cases h
            · rintro ⟨hseen, hlast, _⟩
              cases hseen
              cases hlast target rfl
          | false =>
            constructor
            · intro h
              cases h
              exact ⟨rfl, fun _ _ => rfl, rfl⟩
            · rintro ⟨hseen, _, rfl⟩
              cases hseen
              rfl
        · simp [hnames]

/-! ## Real paths -/

/-- A real path of something else than a link: it is made of its names, and these lead
readers there past no link. -/
structure Real (tree : FileTree) (real : String) (entity : Entity) : Prop where
  spelled : pathOf (namesOf real) = real
  seen : tree.root.seenAt tree.caseSensitive (namesOf real) = some entity
  no_link : ∀ target, entity ≠ .link target

namespace Real

theorem walk_eq (h : tree.Real real entity) (followLast : Bool) :
    walk tree.caseSensitive followLast tree.root "" (namesOf real) = .done (some (entity, real)) :=
  walk_eq_done_iff.mpr ⟨h.seen, fun target heq => absurd heq (h.no_link target), by
    rw [wayBelow_root, h.spelled]⟩

/-- A lookup of a real path ends there in its first pass. -/
theorem lookup_eq (h : tree.Real real entity) (followLast : Bool) :
    tree.lookup real followLast = some (entity, real) :=
  lookup_of_done (h.walk_eq followLast)

theorem linkStat_eq (h : tree.Real real entity) : tree.linkStat real = .ok entity.kind := by
  rw [linkStat, h.lookup_eq]

theorem stat_eq (h : tree.Real real entity) : tree.stat real = .ok entity.kind := by
  rw [stat, h.lookup_eq]
  cases entity with
  | folder entries => rfl
  | file contents => rfl
  | link target => exact absurd rfl (h.no_link target)

theorem not_redirects (h : tree.Real real entity) (next : String) : ¬ tree.Redirects real next := by
  rintro ⟨followLast, hwalk⟩
  cases (h.walk_eq followLast).symm.trans hwalk

end Real

/-- What a lookup finds it finds in one pass, at a path that links have led it to. -/
theorem exists_last_pass {followLast : Bool} {passes : Nat} {found : Entity × String}
    (h : tree.lookupWithin followLast passes path = some found) :
    ∃ last, tree.Reaches path last
      ∧ walk tree.caseSensitive followLast tree.root "" (namesOf last) = .done (some found) := by
  induction passes generalizing path with
  | zero => cases h
  | succ passes ih =>
    rw [lookupWithin] at h
    split at h
    · rename_i hwalk
      rw [h] at hwalk
      exact ⟨path, .refl, hwalk⟩
    · rename_i next hwalk
      obtain ⟨last, hreaches, hlast⟩ := ih h
      exact ⟨last, hreaches.head ⟨followLast, hwalk⟩, hlast⟩

/-- **A lookup that follows links yields a real path**, made of the names of the path that
links have led to. -/
theorem real_of_lookup (h : tree.lookup path true = some (entity, real)) :
    tree.Real real entity ∧ ∃ last, tree.Reaches path last ∧ real = pathOf (namesOf last) := by
  obtain ⟨last, hreaches, hwalk⟩ := exists_last_pass h
  obtain ⟨hseen, hlink, hreal⟩ := walk_eq_done_iff.mp hwalk
  rw [wayBelow_root] at hreal
  have hnames : namesOf real = namesOf last := by
    rw [hreal, namesOf_pathOf_namesOf]
  refine ⟨⟨?_, hnames ▸ hseen, fun target heq => ?_⟩, last, hreaches, hreal⟩
  · rw [hnames, hreal]
  · cases hlink target heq

/-- **The real path of a path is a canonical form of it.** It is its own real path, and it
has the same kind if a last link is not to be followed. Kind, bytes and listing are the same
at the path and at its real path, or cannot be read at either. The real path is made of the
names that all links on the way lead to, and on it no link is met. -/
theorem realPath_canonical (h : tree.realPath path = .ok real) :
    tree.realPath real = .ok real
      ∧ (∃ kind, tree.linkStat real = .ok kind ∧ tree.stat real = .ok kind)
      ∧ tree.stat path = tree.stat real
      ∧ tree.readBytes path = tree.readBytes real
      ∧ tree.list path = tree.list real
      ∧ (∃ last, tree.Reaches path last ∧ real = pathOf (namesOf last))
      ∧ ∀ next, ¬ tree.Redirects real next := by
  rw [realPath] at h
  split at h
  · rename_i entity way hlookup
    cases h
    obtain ⟨hreal, hlast⟩ := real_of_lookup hlookup
    have hfollowed := hreal.lookup_eq true
    refine ⟨?_, ?_, ?_, ?_, ?_, hlast, hreal.not_redirects⟩
    · rw [realPath, hfollowed]
    · exact ⟨entity.kind, hreal.linkStat_eq, hreal.stat_eq⟩
    · rw [stat, stat, hlookup, hfollowed]
    · rw [readBytes, readBytes, hlookup, hfollowed]
      cases entity <;> rfl
    · rw [list, list, hlookup, hfollowed]
      cases entity <;> rfl
  · cases h

/-- Links to links, one of them in a folder that names follow, and a link to itself. -/
def linkedTree (caseSensitive : Bool) : FileTree :=
  ⟨[("chain", .link "/folder/link"), ("folder", .folder [("link", .link "/goal/../goal/")]),
    ("goal", .folder [("file", .file "text".toUTF8)]), ("loop", .link "/loop")],
    "/", caseSensitive⟩

/-- A file behind two links, the second of which stands in the middle of the path that the
first one leads to; its name is told apart by case or not. -/
theorem realPath_canonical_chain :
    (linkedTree true).realPath "/chain/file" = .ok "/goal/file"
      ∧ (linkedTree true).realPath "/goal/file" = .ok "/goal/file"
      ∧ (linkedTree true).stat "/chain/file" = (linkedTree true).stat "/goal/file"
      ∧ (linkedTree false).realPath "/Chain//FILE" = .ok "/goal/FILE"
      ∧ (linkedTree false).realPath "/goal/FILE" = .ok "/goal/FILE"
      ∧ (linkedTree false).readBytes "/goal/FILE" = .ok "text".toUTF8 := by
  have hreal : (linkedTree true).realPath "/chain/file" = .ok "/goal/file" := by rfl
  have hcaseless : (linkedTree false).realPath "/Chain//FILE" = .ok "/goal/FILE" := by rfl
  have hread : (linkedTree false).readBytes "/Chain//FILE" = .ok "text".toUTF8 := by rfl
  obtain ⟨hself, _, hstat, _⟩ := realPath_canonical hreal
  obtain ⟨hself', _, _, hbytes, _⟩ := realPath_canonical hcaseless
  exact ⟨hreal, hself, hstat, hcaseless, hself', hbytes.symm.trans hread⟩

end FileTree

end PackageOrder
