/-
PackageOrder.Proofs.Discovery.Search — the search for what a target depends on.

`Search.Sound` says what is known in the middle of a search: what was found, that
every dependency of it was looked at or waits, and which paths can be waiting. A
step keeps it (`Search.Sound.visited`), whatever the looking at a path comes to
(`Visited`).

The search ends, also where imports form a cycle: a path that was found is never
found again, there are finitely many, and each has only so many dependencies
(`Search.Sound.ends`).
-/
import PackageOrder.Discovery.Target
import PackageOrder.Proofs.Dependency.Reported
import PackageOrder.Proofs.Lookup
import PackageOrder.Proofs.Session

namespace PackageOrder

open PackageOrder.Text

namespace Targeting

variable {targeting : Targeting}

theorem settles_entryPoint? (targeting : Targeting) (path : String) :
    (targeting.entryPoint? path).Settles :=
  Run.reads_tree.settles.bind fun _ =>
    (settles_inspect targeting.configuration _ path).bind fun _ => Run.settles_pure _

/-- A path is found to be something, in a session and in all that extend it. -/
def FoundAs (targeting : Targeting) (session : Session) (path : String)
    (found : Option EntryPoint) : Prop :=
  ∀ later, session.Extends later → ((targeting.entryPoint? path).runFrom later).1 = .ok found

theorem FoundAs.extends {session later : Session} {path : String} {found : Option EntryPoint}
    (h : targeting.FoundAs session path found) (hlater : session.Extends later) :
    targeting.FoundAs later path found :=
  fun last hlast => h last (hlater.trans hlast)

theorem foundAs_of_runFrom {session after : Session} {path : String} {found : Option EntryPoint}
    (h : (targeting.entryPoint? path).runFrom session = (.ok found, after)) :
    targeting.FoundAs after path found :=
  (targeting.settles_entryPoint? path).again session found after h

/-- What is found has the path that was looked at. -/
theorem path_of_runFrom_entryPoint? {session after : Session} {path : String}
    {entryPoint : EntryPoint}
    (h : (targeting.entryPoint? path).runFrom session = (.ok (some entryPoint), after)) :
    entryPoint.path = path := by
  unfold entryPoint? at h
  obtain ⟨tree, _, _, h⟩ := Run.runFrom_bind_eq_ok.mp h
  obtain ⟨inspection, _, hinspect, h⟩ := Run.runFrom_bind_eq_ok.mp h
  refine (yields_inspect _ _ _ _ inspection _ hinspect entryPoint ?_).1
  exact Except.ok.inj (congrArg Prod.fst h)

/-! ## One step -/

/-- What looking at a path may come to. -/
inductive Visited (targeting : Targeting) (search : Search) (path : String) (after : Session) :
    Search → Prop where
  | known (entry : String × EntryPointWithInfo) :
      entry ∈ search.found → entry.1 = path → Visited targeting search path after search
  /-- Nothing that the Angular compiler made is there. -/
  | passed (found : Option EntryPoint) : targeting.FoundAs after path found →
      (∀ entryPoint, found = some entryPoint → entryPoint.compiledByAngular = false) →
      Visited targeting search path after
        { search with target := if path = targeting.target then found.or search.target
            else search.target }
  | added (entryPoint : EntryPoint) (item : EntryPointWithInfo) :
      path ∉ search.found.map Prod.fst → targeting.FoundAs after path (some entryPoint) →
      entryPoint.path = path → entryPoint.compiledByAngular = true →
      after.tree.withInfo targeting.reading.readable targeting.reading.mappings entryPoint
        = .ok item →
      Visited targeting search path after
        { found := search.found ++ [(path, item)]
          pending := search.pending ++ item.info.dependencies.filter fun dependency =>
            (search.found.lookup dependency).isNone
          target := if path = targeting.target then some entryPoint else search.target }

theorem visited_of_runFrom {search next : Search} {path : String} {session after : Session}
    (h : (targeting.visit search path).runFrom session = (.ok next, after)) :
    targeting.Visited search path after next := by
  unfold visit at h
  split at h
  · rename_i hknown
    cases h
    obtain ⟨entry, hentry, hkey⟩ :=
      List.mem_map.mp ((lookup_isSome_iff_mem_keys search.found path).mp hknown)
    exact .known entry hentry hkey
  · rename_i hnew
    have hnew : path ∉ search.found.map Prod.fst := fun hmem =>
      hnew ((lookup_isSome_iff_mem_keys search.found path).mpr hmem)
    obtain ⟨found, middle, hfound, h⟩ := Run.runFrom_bind_eq_ok.mp h
    cases found with
    | none =>
      cases h
      have hvisited : targeting.Visited search path after _ :=
        .passed none (foundAs_of_runFrom hfound) nofun
      simpa using hvisited
    | some entryPoint =>
      dsimp only at h
      split at h
      · rename_i hplain
        cases h
        refine .passed (some entryPoint) (foundAs_of_runFrom hfound) ?_
        rintro _ ⟨⟩
        simpa using hplain
      · rename_i hcompiled
        obtain ⟨item, last, hitem, h⟩ := Run.runFrom_bind_eq_ok.mp h
        cases h
        rw [runFrom_withInfo] at hitem
        obtain ⟨hinfo, rfl⟩ := Prod.mk.inj hitem
        exact .added entryPoint item hnew (foundAs_of_runFrom hfound)
          (path_of_runFrom_entryPoint? hfound) (by simpa using hcompiled) hinfo

theorem settles_visit (targeting : Targeting) (search : Search) (path : String) :
    (targeting.visit search path).Settles := by
  unfold visit
  split
  · exact Run.settles_pure _
  · refine (targeting.settles_entryPoint? path).bind fun found => ?_
    split
    · exact Run.settles_pure _
    · dsimp only
      split
      · exact Run.settles_pure _
      · exact (reads_withInfo _ _).settles.bind fun _ => Run.settles_pure _

/-! ## What is known in between -/

/-- An entry-point that was found at a path, with what it imports. -/
structure Search.Holds (targeting : Targeting) (session : Session) (path : String)
    (item : EntryPointWithInfo) : Prop where
  found : targeting.FoundAs session path (some item.entryPoint)
  path_eq : item.entryPoint.path = path
  compiled : item.entryPoint.compiledByAngular = true
  info : session.tree.withInfo targeting.reading.readable targeting.reading.mappings
    item.entryPoint = .ok item

/-- A path that was looked at: it is that of something found, or nothing that the
Angular compiler made is there. -/
def Search.Looked (targeting : Targeting) (session : Session) (search : Search)
    (path : String) : Prop :=
  path ∈ search.found.map Prod.fst
    ∨ ∃ found, targeting.FoundAs session path found
      ∧ ∀ entryPoint, found = some entryPoint → entryPoint.compiledByAngular = false

/-- A path that a search may look at. -/
def MayLook (targeting : Targeting) (tree : FileTree) (path : String) : Prop :=
  path = targeting.target ∨ tree.LeadsToPackage path

/-- What is known in the middle of a search. -/
structure Search.Sound (targeting : Targeting) (session : Session) (search : Search) : Prop where
  nodup : (search.found.map Prod.fst).Nodup
  holds : ∀ path item, (path, item) ∈ search.found → Search.Holds targeting session path item
  looked : ∀ path item, (path, item) ∈ search.found → ∀ dependency ∈ item.info.dependencies,
    dependency ∈ search.pending ∨ search.Looked targeting session dependency
  target : ∀ entryPoint, search.target = some entryPoint →
    targeting.FoundAs session targeting.target (some entryPoint)
      ∧ search.Looked targeting session targeting.target
  found_mayLook : ∀ path ∈ search.found.map Prod.fst, targeting.MayLook session.tree path
  pending_mayLook : ∀ path ∈ search.pending, targeting.MayLook session.tree path

namespace Search

variable {search : Search} {session after : Session}

theorem Holds.extends {path : String} {item : EntryPointWithInfo}
    (h : Holds targeting session path item) (hextends : session.Extends after) :
    Holds targeting after path item :=
  ⟨h.found.extends hextends, h.path_eq, h.compiled, hextends.tree ▸ h.info⟩

theorem Looked.extends {next : Search} {path : String} (h : search.Looked targeting session path)
    (hextends : session.Extends after) (hfound : search.found ⊆ next.found) :
    next.Looked targeting after path := by
  rcases h with hmem | ⟨found, hfoundAs, hplain⟩
  · exact Or.inl (List.map_subset _ hfound hmem)
  · exact Or.inr ⟨found, hfoundAs.extends hextends, hplain⟩

theorem sound_start (targeting : Targeting) (session : Session) :
    Sound targeting session { pending := [targeting.target] } where
  nodup := List.nodup_nil
  holds _ _ h := absurd h List.not_mem_nil
  looked _ _ h := absurd h List.not_mem_nil
  target _ h := nomatch h
  found_mayLook _ h := absurd h List.not_mem_nil
  pending_mayLook _ h := Or.inl (List.mem_singleton.mp h)

end Search

namespace Search.Sound

variable {search next : Search} {session after : Session} {path : String} {rest : List String}

/-- The dependencies of what was found before still wait or were looked at, when the
first waiting path was. -/
theorem looked_next (h : search.Sound targeting session) (hpending : search.pending = path :: rest)
    (hextends : session.Extends after) (hfound : search.found ⊆ next.found)
    (hrest : rest ⊆ next.pending) (hpath : next.Looked targeting after path) :
    ∀ key item, (key, item) ∈ search.found → ∀ dependency ∈ item.info.dependencies,
      dependency ∈ next.pending ∨ next.Looked targeting after dependency := by
  intro key item hmem dependency hdependency
  rcases h.looked key item hmem dependency hdependency with hwaits | hlooked
  · rw [hpending] at hwaits
    rcases List.mem_cons.mp hwaits with rfl | hwaits
    · exact Or.inr hpath
    · exact Or.inl (hrest hwaits)
  · exact Or.inr (hlooked.extends hextends hfound)

/-- A step at which nothing new is found. -/
theorem advance (h : search.Sound targeting session) (hpending : search.pending = path :: rest)
    (hextends : session.Extends after) (hpath : search.Looked targeting after path)
    {target : Option EntryPoint}
    (htarget : ∀ entryPoint, target = some entryPoint → search.target = some entryPoint
      ∨ path = targeting.target ∧ targeting.FoundAs after path (some entryPoint)) :
    ({ search with pending := rest, target } : Search).Sound targeting after where
  nodup := h.nodup
  holds key item hmem := (h.holds key item hmem).extends hextends
  looked := h.looked_next hpending hextends (List.Subset.refl _) (List.Subset.refl _) hpath
  target entryPoint heq := by
    rcases htarget entryPoint heq with hsearch | ⟨rfl, hfound⟩
    · have hold := h.target entryPoint hsearch
      exact ⟨hold.1.extends hextends, hold.2.extends hextends (List.Subset.refl _)⟩
    · exact ⟨hfound, hpath⟩
  found_mayLook key hkey := hextends.tree ▸ h.found_mayLook key hkey
  pending_mayLook key hkey := by
    rw [hextends.tree]
    exact h.pending_mayLook key (hpending ▸ List.mem_cons_of_mem _ hkey)

/-- A step at which an entry-point is found. -/
theorem add (h : search.Sound targeting session) (hpending : search.pending = path :: rest)
    (hextends : session.Extends after) (hnew : path ∉ search.found.map Prod.fst)
    {item : EntryPointWithInfo} (hitem : Search.Holds targeting after path item)
    {target : Option EntryPoint}
    (htarget : ∀ entryPoint, target = some entryPoint → search.target = some entryPoint
      ∨ path = targeting.target ∧ entryPoint = item.entryPoint) :
    ({ found := search.found ++ [(path, item)]
       pending := rest ++ item.info.dependencies.filter fun dependency =>
        (search.found.lookup dependency).isNone
       target } : Search).Sound targeting after := by
  have hpath : path ∈ (search.found ++ [(path, item)]).map Prod.fst := by simp
  have hold : ∀ key other, (key, other) ∈ search.found ++ [(path, item)] →
      (key, other) ∈ search.found ∨ key = path ∧ other = item := by
    intro key other hmem
    rcases List.mem_append.mp hmem with hmem | hmem
    · exact Or.inl hmem
    · exact Or.inr (Prod.mk.inj (List.mem_singleton.mp hmem))
  constructor
  case nodup =>
    rw [List.map_append, List.map_singleton]
    refine List.nodup_append.mpr ⟨h.nodup, List.nodup_singleton _, ?_⟩
    rintro key hkey _ hmem rfl
    have heq : key = path := List.mem_singleton.mp hmem
    exact hnew (heq ▸ hkey)
  case holds =>
    intro key other hmem
    rcases hold key other hmem with hmem | ⟨rfl, rfl⟩
    · exact (h.holds key other hmem).extends hextends
    · exact hitem
  case looked =>
    intro key other hmem
    rcases hold key other hmem with hmem | ⟨rfl, rfl⟩
    · exact h.looked_next hpending hextends (List.subset_append_left _ _)
        (List.subset_append_left _ _) (Or.inl hpath) key other hmem
    · intro dependency hdependency
      by_cases hknown : dependency ∈ search.found.map Prod.fst
      · refine Or.inr (Or.inl ?_)
        rw [List.map_append]
        exact List.mem_append_left _ hknown
      · refine Or.inl (List.mem_append_right _ (List.mem_filter.mpr ⟨hdependency, ?_⟩))
        rw [← lookup_isSome_iff_mem_keys] at hknown
        exact Option.isNone_iff_eq_none.mpr (Option.not_isSome_iff_eq_none.mp hknown)
  case target =>
    intro entryPoint heq
    rcases htarget entryPoint heq with hsearch | ⟨rfl, rfl⟩
    · have hfound := h.target entryPoint hsearch
      exact ⟨hfound.1.extends hextends,
        hfound.2.extends hextends (List.subset_append_left _ _)⟩
    · exact ⟨hitem.found, Or.inl hpath⟩
  case found_mayLook =>
    intro key hkey
    rw [hextends.tree]
    rw [List.map_append, List.mem_append] at hkey
    rcases hkey with hkey | hkey
    · exact h.found_mayLook key hkey
    · rw [List.mem_singleton.mp hkey]
      exact h.pending_mayLook path (hpending ▸ List.mem_cons_self)
  case pending_mayLook =>
    intro key hkey
    rcases List.mem_append.mp hkey with hkey | hkey
    · rw [hextends.tree]
      exact h.pending_mayLook key (hpending ▸ List.mem_cons_of_mem _ hkey)
    · have hreported := FileTree.reportedIn_withInfo hitem.info
      exact Or.inr (hreported.leads key (List.mem_filter.mp hkey).1)

/-- **A step keeps what is known.** -/
theorem visited (h : search.Sound targeting session) (hpending : search.pending = path :: rest)
    (hextends : session.Extends after)
    (hvisited : targeting.Visited { search with pending := rest } path after next) :
    next.Sound targeting after := by
  cases hvisited with
  | known entry hentry hkey =>
    exact h.advance hpending hextends (Or.inl (hkey ▸ List.mem_map_of_mem hentry))
      fun entryPoint heq => Or.inl heq
  | passed found hfound hplain =>
    refine h.advance hpending hextends (Or.inr ⟨found, hfound, hplain⟩) fun entryPoint heq => ?_
    split at heq
    · rename_i htarget
      rcases Option.or_eq_some_iff.mp heq with rfl | ⟨_, heq⟩
      · exact Or.inr ⟨htarget, hfound⟩
      · exact Or.inl heq
    · exact Or.inl heq
  | added entryPoint item hnew hfound hpath hcompiled hinfo =>
    have hsame := entryPoint_of_withInfo hinfo
    subst hsame
    refine h.add hpending hextends hnew ⟨hfound, hpath, hcompiled, hinfo⟩ fun entryPoint heq => ?_
    split at heq
    · rename_i htarget
      cases heq
      exact Or.inr ⟨htarget, rfl⟩
    · exact Or.inl heq

end Search.Sound

/-! ## The end of a search -/

/-- A number of paths that no more of them lead to packages. -/
def PackageBound (tree : FileTree) (bound : Nat) : Prop :=
  ∀ paths : List String, paths.Nodup → (∀ path ∈ paths, tree.LeadsToPackage path) →
    paths.length ≤ bound

/-- How many steps a search can still take: the paths that wait, and as many for each
path that can still be found as there are packages. -/
def Search.remaining (search : Search) (bound : Nat) : Nat :=
  search.pending.length + bound * (bound + 1 - search.found.length)

theorem Search.Sound.length_found_le {search : Search} {session : Session} {bound : Nat}
    (h : search.Sound targeting session) (hbound : PackageBound session.tree bound) :
    search.found.length ≤ bound + 1 := by
  have hothers := hbound _ (h.nodup.erase targeting.target) fun path hpath => by
    obtain ⟨hne, hmem⟩ := h.nodup.mem_erase_iff.mp hpath
    exact (h.found_mayLook path hmem).resolve_left hne
  have hlength : (search.found.map Prod.fst).length - 1
      ≤ ((search.found.map Prod.fst).erase targeting.target).length := List.le_length_erase
  rw [List.length_map] at hlength
  omega

/-- A step leaves fewer steps. -/
theorem Search.Sound.remaining_lt {search next : Search} {after : Session} {path : String}
    {rest : List String} {bound : Nat} (h : next.Sound targeting after)
    (hpending : search.pending = path :: rest) (hbound : PackageBound after.tree bound)
    (hvisited : targeting.Visited { search with pending := rest } path after next) :
    next.remaining bound < search.remaining bound := by
  have hwaiting : search.pending.length = rest.length + 1 := by rw [hpending, List.length_cons]
  unfold Search.remaining
  rw [hwaiting]
  cases hvisited with
  | known => exact Nat.add_lt_add_right (Nat.lt_succ_self _) _
  | passed => exact Nat.add_lt_add_right (Nat.lt_succ_self _) _
  | added entryPoint item _ _ _ _ hinfo =>
    have hreported := FileTree.reportedIn_withInfo hinfo
    have hnew : (item.info.dependencies.filter fun dependency =>
        (search.found.lookup dependency).isNone).length ≤ bound :=
      hbound _ (hreported.increasing.nodup.filter _) fun path hpath =>
        hreported.leads path (List.mem_filter.mp hpath).1
    have hfound := h.length_found_le hbound
    dsimp only at hfound ⊢
    rw [List.length_append, List.length_singleton] at hfound
    have hleft : bound + 1 - search.found.length
        = (bound + 1 - (search.found.length + 1)) + 1 := by omega
    rw [List.length_append, List.length_append, List.length_singleton, hleft, Nat.mul_add]
    omega

/-- A search with nothing left to look at stays as it is. -/
theorem runFrom_searchWithin_nil {search : Search} (h : search.pending = []) (rounds : Nat)
    (session : Session) :
    (targeting.searchWithin rounds search).runFrom session = (.ok search, session) := by
  cases rounds with
  | zero => rfl
  | succ rounds =>
    unfold searchWithin
    rw [h]
    rfl

/-- **A step of a search** keeps what is known, and fewer of them are left. -/
theorem Search.Sound.step {search next : Search} {session after : Session} {path : String}
    {rest : List String} {bound : Nat} (h : search.Sound targeting session)
    (hbound : PackageBound session.tree bound) (hpending : search.pending = path :: rest)
    (hrun : (targeting.visit { search with pending := rest } path).runFrom session
      = (.ok next, after)) :
    session.Extends after ∧ next.Sound targeting after ∧ PackageBound after.tree bound
      ∧ next.remaining bound < search.remaining bound := by
  have hextends := (targeting.settles_visit { search with pending := rest } path).keeps session
  rw [hrun] at hextends
  have hvisited := visited_of_runFrom hrun
  have hsound := h.visited hpending hextends hvisited
  have hbound' : PackageBound after.tree bound := hextends.tree.symm ▸ hbound
  exact ⟨hextends, hsound, hbound', hsound.remaining_lt hpending hbound' hvisited⟩

/-- **A search ends**: with as many rounds as there can be steps, more of them come
to the same, and if it succeeds nothing is left to look at. -/
theorem Search.Sound.ends {search : Search} {session : Session} {bound rounds : Nat}
    (h : search.Sound targeting session) (hbound : PackageBound session.tree bound)
    (hrounds : search.remaining bound ≤ rounds) :
    (∀ more, (targeting.searchWithin (rounds + more) search).runFrom session
        = (targeting.searchWithin rounds search).runFrom session)
      ∧ ∀ last after, (targeting.searchWithin rounds search).runFrom session = (.ok last, after) →
        last.pending = [] ∧ last.Sound targeting after ∧ session.Extends after := by
  induction rounds generalizing search session with
  | zero =>
    have hnil : search.pending = [] := by
      unfold Search.remaining at hrounds
      exact List.eq_nil_of_length_eq_zero (by omega)
    refine ⟨fun more => by rw [runFrom_searchWithin_nil hnil, runFrom_searchWithin_nil hnil], ?_⟩
    rintro last after hrun
    cases hrun
    exact ⟨hnil, h, Session.Extends.refl session⟩
  | succ rounds ih =>
    cases hpending : search.pending with
    | nil =>
      refine ⟨fun more => by
        rw [runFrom_searchWithin_nil hpending, runFrom_searchWithin_nil hpending], ?_⟩
      rintro last after hrun
      rw [runFrom_searchWithin_nil hpending] at hrun
      cases hrun
      exact ⟨hpending, h, Session.Extends.refl session⟩
    | cons path rest =>
      have hstep : ∀ rounds, targeting.searchWithin (rounds + 1) search
          = targeting.visit { search with pending := rest } path >>=
              targeting.searchWithin rounds := by
        intro rounds
        rw [searchWithin, hpending]
      constructor
      · intro more
        rw [Nat.add_right_comm, hstep, hstep, Run.runFrom_bind, Run.runFrom_bind]
        rcases hrun : (targeting.visit { search with pending := rest } path).runFrom session with
          ⟨failure | next, middle⟩
        · rfl
        · obtain ⟨_, hsound, hbound', hleft⟩ := h.step hbound hpending hrun
          exact (ih hsound hbound' (by omega)).1 more
      · intro last after hrun
        rw [hstep] at hrun
        obtain ⟨next, middle, hvisit, hrun⟩ := Run.runFrom_bind_eq_ok.mp hrun
        obtain ⟨hextends, hsound, hbound', hleft⟩ := h.step hbound hpending hvisit
        obtain ⟨hnil, hlast, hrest⟩ := (ih hsound hbound' (by omega)).2 last after hrun
        exact ⟨hnil, hlast, hextends.trans hrest⟩

end Targeting

end PackageOrder
