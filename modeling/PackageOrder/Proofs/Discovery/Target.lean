/-
PackageOrder.Proofs.Discovery.Target — what is found for a target is closed under
dependencies.

The search looks at every dependency of what it finds, and sorting takes out
invalid entry-points only together with all that depend on them. So whatever an
entry-point that is returned depends on is returned as well, or reported as
ignored, and nothing is returned that the target does not lead to
(`Targeting.find_closed`).

What a path is found to be is said of the session after the search: package
configurations are remembered, so it is what the search found there.
-/
import PackageOrder.Proofs.Dependency.DeepImports
import PackageOrder.Proofs.Dependency.Target
import PackageOrder.Proofs.Discovery.Search

namespace PackageOrder

open PackageOrder.Text
open EntryPointWithInfo (path)
open Relation (ReflTransGen TransGen)

/-! ## What sorting leaves out -/

/-- The values of steps that are made one after the other. -/
theorem Run.mem_of_runFrom_mapM {α β : Type} {step : α → Run β} {items : List α}
    {session after : Session} {values : List β}
    (h : (items.mapM step).runFrom session = (.ok values, after)) {item : α} (hi : item ∈ items) :
    ∃ before middle value, (step item).runFrom before = (.ok value, middle) ∧ value ∈ values := by
  induction items generalizing session values with
  | nil => cases hi
  | cons first rest ih =>
    rw [List.mapM_cons] at h
    obtain ⟨value, middle, hvalue, h⟩ := runFrom_bind_eq_ok.mp h
    obtain ⟨others, last, hothers, h⟩ := runFrom_bind_eq_ok.mp h
    cases h
    rcases List.mem_cons.mp hi with rfl | hi
    · exact ⟨session, middle, value, hvalue, List.mem_cons_self⟩
    · obtain ⟨before, next, found, hfound, hmem⟩ := ih hothers hi
      exact ⟨before, next, found, hfound, List.mem_cons_of_mem _ hmem⟩

/-- **A dependency that is no entry-point of the graph is reported as ignored.** -/
theorem mem_ignored_of_sortEntryPoints {configuration : Configuration}
    {items : List EntryPointWithInfo} {target : Option EntryPoint} {session after : Session}
    {sorted : SortedEntryPoints} (hd : (items.map path).Nodup)
    (hcompiled : ∀ item ∈ items, item.entryPoint.compiledByAngular = true)
    (h : (sortEntryPoints configuration items target).runFrom session = (.ok sorted, after))
    {item : EntryPointWithInfo} (hi : item ∈ items) {dependency : String}
    (hdependency : dependency ∈ item.others) (hunknown : dependency ∉ items.map path) :
    ⟨item.entryPoint, dependency⟩ ∈ sorted.ignored := by
  have hfilter : items.filter (·.entryPoint.compiledByAngular) = items :=
    List.filter_eq_self.mpr hcompiled
  rw [runFrom_sortEntryPoints_eq_ok, hfilter] at h
  obtain ⟨ignored, hignored, rfl⟩ := h
  obtain ⟨before, next, left, hleft, hmem⟩ := Run.mem_of_runFrom_mapM hignored hi
  refine List.mem_flatten.mpr ⟨left, hmem, ?_⟩
  obtain ⟨_, rfl, _⟩ := runFrom_ignoredOf_eq_ok hleft (.refl _)
  refine List.mem_map.mpr ⟨dependency, List.mem_append_left _ (List.mem_filter.mpr ⟨hdependency, ?_⟩),
    rfl⟩
  rw [Bool.not_eq_true', ← Bool.not_eq_true, Graph.contains_iff, mem_keys_dependencyGraph hd]
  rintro ⟨other, ho, heq⟩
  exact hunknown (heq ▸ List.mem_map_of_mem ho)

namespace Targeting

variable {targeting : Targeting}

/-! ## Closed under dependencies -/

/-- An entry-point is said to depend on a path, other than its own. -/
def Reports (targeting : Targeting) (session : Session) (entryPoint : EntryPoint)
    (path : String) : Prop :=
  ∃ item, ((withInfo targeting.reading entryPoint).runFrom session).1 = .ok item
    ∧ path ∈ item.info.dependencies ∧ path ≠ entryPoint.path

/-- At a path is an entry-point that the Angular compiler made. -/
def CompiledAt (targeting : Targeting) (session : Session) (path : String)
    (entryPoint : EntryPoint) : Prop :=
  ((targeting.entryPoint? path).runFrom session).1 = .ok (some entryPoint)
    ∧ entryPoint.compiledByAngular = true

/-- An entry-point depends on another one directly. -/
def LeadsTo (targeting : Targeting) (session : Session) (entryPoint other : EntryPoint) : Prop :=
  ∃ path, targeting.Reports session entryPoint path ∧ targeting.CompiledAt session path other

/-- What is returned is closed under dependencies. -/
structure Closed (targeting : Targeting) (session : Session) (sorted : SortedEntryPoints) :
    Prop where
  /-- The dependencies of what is returned are reported, and what each of their
  paths is can be told. -/
  reports : ∀ entryPoint ∈ sorted.entryPoints,
    (∃ item, ((withInfo targeting.reading entryPoint).runFrom session).1 = .ok item)
      ∧ ∀ path, targeting.Reports session entryPoint path →
        ∃ found, ((targeting.entryPoint? path).runFrom session).1 = .ok found
  /-- A dependency that the Angular compiler made is returned, before what depends on
  it unless it depends on that in turn. -/
  returned : ∀ entryPoint ∈ sorted.entryPoints, ∀ path other,
    targeting.Reports session entryPoint path → targeting.CompiledAt session path other →
    other ∈ sorted.entryPoints
      ∧ ∀ front back, sorted.entryPoints = front ++ entryPoint :: back →
        ¬ TransGen (targeting.LeadsTo session) other entryPoint → other ∈ front
  /-- Any other is reported as ignored. -/
  ignored : ∀ entryPoint ∈ sorted.entryPoints, ∀ path,
    targeting.Reports session entryPoint path →
    (∀ other, ¬ targeting.CompiledAt session path other) →
    ⟨entryPoint, path⟩ ∈ sorted.ignored
  /-- The target leads to all that is returned. -/
  reachable : ∀ entryPoint ∈ sorted.entryPoints,
    ∃ target, targeting.CompiledAt session targeting.target target
      ∧ ReflTransGen (targeting.LeadsTo session) target entryPoint

/-! ## From the search to what is returned -/

/-- The number of rounds of a search. -/
abbrev roundsIn (tree : FileTree) : Nat := Nat.pow (tree.pathBound + 1) 2

theorem runFrom_find {session after : Session} {sorted : SortedEntryPoints}
    (h : targeting.find.runFrom session = (.ok sorted, after)) :
    ∃ search middle target,
      (targeting.searchWithin (roundsIn session.tree) { pending := [targeting.target] }).runFrom
          session = (.ok search, middle)
        ∧ search.target = some target
        ∧ (sortEntryPoints targeting.configuration (search.found.map (·.2)) (some target)).runFrom
          middle = (.ok sorted, after) := by
  unfold find at h
  obtain ⟨tree, start, htree, h⟩ := Run.runFrom_bind_eq_ok.mp h
  cases htree
  obtain ⟨search, middle, hsearch, h⟩ := Run.runFrom_bind_eq_ok.mp h
  split at h
  · cases h
  · rename_i target htarget
    exact ⟨search, middle, target, hsearch, htarget, h⟩

theorem remaining_start_le (target : String) (bound : Nat) :
    Search.remaining { pending := [target] } bound ≤ Nat.pow (bound + 1) 2 := by
  unfold Search.remaining
  change 1 + bound * (bound + 1 - 0) ≤ (bound + 1) ^ 2
  rw [Nat.sub_zero, Nat.pow_two, Nat.add_mul]
  omega

/-- A finished search in a session: everything was looked at. -/
structure Finished (targeting : Targeting) (session : Session) (search : Search) : Prop where
  sound : search.Sound targeting session
  nothing_left : search.pending = []

section Finished

variable {session : Session} {search : Search} {items : List EntryPointWithInfo}

theorem Finished.extends (h : targeting.Finished session search) {after : Session}
    (hextends : session.Extends after) : targeting.Finished after search := by
  refine ⟨⟨h.sound.nodup, ?_, ?_, ?_, ?_, ?_⟩, h.nothing_left⟩
  · exact fun path item hmem => (h.sound.holds path item hmem).extends hextends
  · intro path item hmem dependency hdependency
    exact (h.sound.looked path item hmem dependency hdependency).imp_right fun hlooked =>
      hlooked.extends hextends (List.Subset.refl _)
  · intro entryPoint htarget
    have hold := h.sound.target entryPoint htarget
    exact ⟨hold.1.extends hextends, hold.2.extends hextends (List.Subset.refl _)⟩
  · rw [hextends.tree]
    exact h.sound.found_mayLook
  · rw [hextends.tree]
    exact h.sound.pending_mayLook

variable (h : targeting.Finished session search)

include h

theorem Finished.map_path : (search.found.map (·.2)).map path = search.found.map Prod.fst := by
  rw [List.map_map]
  exact List.map_congr_left fun entry hentry => (h.sound.holds entry.1 entry.2 hentry).path_eq

theorem Finished.holds {item : EntryPointWithInfo} (hi : item ∈ search.found.map (·.2)) :
    Search.Holds targeting session item.path item := by
  obtain ⟨⟨key, item⟩, hmem, rfl⟩ := List.mem_map.mp hi
  have hholds := h.sound.holds key item hmem
  exact hholds.path_eq.symm ▸ hholds

theorem Finished.looked {item : EntryPointWithInfo} (hi : item ∈ search.found.map (·.2))
    {dependency : String} (hdependency : dependency ∈ item.info.dependencies) :
    search.Looked targeting session dependency := by
  obtain ⟨⟨key, item⟩, hmem, rfl⟩ := List.mem_map.mp hi
  refine (h.sound.looked key item hmem dependency hdependency).resolve_left ?_
  rw [h.nothing_left]
  exact List.not_mem_nil

/-- What the Angular compiler made at a path that was looked at was found. -/
theorem Finished.exists_of_compiledAt {key : String} {other : EntryPoint}
    (hlooked : search.Looked targeting session key) (hcompiled : targeting.CompiledAt session key other) :
    ∃ item ∈ search.found.map (·.2), item.path = key ∧ item.entryPoint = other := by
  rcases hlooked with hmem | ⟨found, hfound, hplain⟩
  · obtain ⟨⟨key, item⟩, hentry, rfl⟩ := List.mem_map.mp hmem
    have hholds := h.sound.holds key item hentry
    refine ⟨item, List.mem_map_of_mem hentry, hholds.path_eq, ?_⟩
    have hsame := (hholds.found session (.refl session)).symm.trans hcompiled.1
    exact Option.some.inj (Except.ok.inj hsame)
  · have hsame := (hfound session (.refl session)).symm.trans hcompiled.1
    have := hplain other (Except.ok.inj hsame)
    rw [hcompiled.2] at this
    cases this

theorem Finished.compiledAt {item : EntryPointWithInfo} (hi : item ∈ search.found.map (·.2)) :
    targeting.CompiledAt session item.path item.entryPoint :=
  ⟨(h.holds hi).found session (.refl session), (h.holds hi).compiled⟩

theorem Finished.runFrom_withInfo {item : EntryPointWithInfo}
    (hi : item ∈ search.found.map (·.2)) :
    ((withInfo targeting.reading item.entryPoint).runFrom session).1 = .ok item := by
  rw [PackageOrder.runFrom_withInfo]
  exact (h.holds hi).info

/-- Of what was found that is reported which was read. -/
theorem Finished.reports_iff {item : EntryPointWithInfo} (hi : item ∈ search.found.map (·.2))
    (dependency : String) :
    targeting.Reports session item.entryPoint dependency
      ↔ dependency ∈ item.info.dependencies ∧ dependency ≠ item.path := by
  constructor
  · rintro ⟨other, hother, hdependency⟩
    rw [h.runFrom_withInfo hi] at hother
    cases hother
    exact hdependency
  · exact fun hdependency => ⟨item, h.runFrom_withInfo hi, hdependency⟩

theorem Finished.leadsTo_of_needs {item other : EntryPointWithInfo}
    (hn : Needs (search.found.map (·.2)) item other) :
    targeting.LeadsTo session item.entryPoint other.entryPoint :=
  ⟨other.path, (h.reports_iff hn.mem other.path).mpr ⟨hn.imported, hn.ne⟩,
    h.compiledAt hn.other_mem⟩

end Finished

/-- **What is returned in the order for a target is closed under dependencies.** -/
theorem Finished.closed {session : Session} {search : Search}
    (h : targeting.Finished session search) {target : EntryPointWithInfo}
    (htarget : target ∈ search.found.map (·.2)) (hpath : target.path = targeting.target)
    (hvalid : ¬ Invalid (search.found.map (·.2)) target) {order : List EntryPointWithInfo}
    (horder : TargetOrder (search.found.map (·.2)) target order) {sorted : SortedEntryPoints}
    (hsorted : sorted.entryPoints = order.map (·.entryPoint))
    (hignored : ∀ item ∈ search.found.map (·.2), ∀ dependency ∈ item.others,
      dependency ∉ (search.found.map (·.2)).map path →
      ⟨item.entryPoint, dependency⟩ ∈ sorted.ignored) :
    targeting.Closed session sorted := by
  have hd : ((search.found.map (·.2)).map path).Nodup := h.map_path ▸ h.sound.nodup
  have hmem : ∀ item ∈ order, item ∈ search.found.map (·.2) := by
    intro item hi
    rcases (horder.mem_iff item).mp hi with rfl | hn
    · exact htarget
    · exact other_mem_of_depends hn
  have hunbroken : ∀ item ∈ order, ¬ item.Broken := fun item hi hb =>
    hvalid ⟨item, hmem item hi, hb, horder.needed hi⟩
  have hlisted : ∀ entryPoint ∈ sorted.entryPoints,
      ∃ item ∈ order, item.entryPoint = entryPoint := by
    intro entryPoint he
    rw [hsorted] at he
    exact List.mem_map.mp he
  constructor
  case reports =>
    intro entryPoint he
    obtain ⟨item, hi, rfl⟩ := hlisted entryPoint he
    refine ⟨⟨item, h.runFrom_withInfo (hmem item hi)⟩, fun dependency hreports => ?_⟩
    have hdependency := ((h.reports_iff (hmem item hi) dependency).mp hreports).1
    rcases h.looked (hmem item hi) hdependency with hkey | ⟨found, hfound, _⟩
    · obtain ⟨⟨key, other⟩, hentry, rfl⟩ := List.mem_map.mp hkey
      exact ⟨_, (h.sound.holds key other hentry).found session (.refl session)⟩
    · exact ⟨found, hfound session (.refl session)⟩
  case returned =>
    intro entryPoint he dependency other hreports hcompiled
    obtain ⟨item, hi, rfl⟩ := hlisted entryPoint he
    have hdependency := (h.reports_iff (hmem item hi) dependency).mp hreports
    obtain ⟨needed, hneeded, rfl, rfl⟩ :=
      h.exists_of_compiledAt (h.looked (hmem item hi) hdependency.1) hcompiled
    have hneeds : Needs (search.found.map (·.2)) item needed :=
      ⟨hmem item hi, hneeded, hunbroken item hi, hdependency.1, hdependency.2⟩
    -- what the item needs is needed by the target, so it is ordered as well
    refine ⟨?_, fun front back hsplit hno => ?_⟩
    · rw [hsorted]
      exact List.mem_map_of_mem (horder.mem_of_needs hi hneeds)
    · rw [hsorted] at hsplit
      obtain ⟨before, last, rfl, rfl, hlast⟩ := List.map_eq_append_iff.mp hsplit
      obtain ⟨same, after, rfl, hsame, _⟩ := List.map_eq_cons_iff.mp hlast
      have heq : same = item := eq_of_path_eq hd
        (hmem same (List.mem_append_right _ List.mem_cons_self)) (hmem item hi)
        (congrArg EntryPoint.path hsame)
      refine List.mem_map_of_mem (horder.after_needed before same after rfl needed
        (heq ▸ hneeds) fun htrans => hno ?_)
      exact (heq ▸ htrans).lift EntryPointWithInfo.entryPoint fun _ _ hn => h.leadsTo_of_needs hn
  case ignored =>
    intro entryPoint he dependency hreports hnone
    obtain ⟨item, hi, rfl⟩ := hlisted entryPoint he
    have hdependency := (h.reports_iff (hmem item hi) dependency).mp hreports
    refine hignored item (hmem item hi) dependency
      ((item.mem_others dependency).mpr ⟨hunbroken item hi, hdependency⟩) fun hkey => ?_
    obtain ⟨other, ho, rfl⟩ := List.mem_map.mp hkey
    exact hnone other.entryPoint (h.compiledAt ho)
  case reachable =>
    intro entryPoint he
    obtain ⟨item, hi, rfl⟩ := hlisted entryPoint he
    refine ⟨target.entryPoint, hpath ▸ h.compiledAt htarget, ?_⟩
    exact (horder.needed hi).lift EntryPointWithInfo.entryPoint fun _ _ hn => h.leadsTo_of_needs hn

theorem closed_of_nil {session : Session} {sorted : SortedEntryPoints}
    (h : sorted.entryPoints = []) : targeting.Closed session sorted := by
  have hnone : ∀ entryPoint, entryPoint ∉ sorted.entryPoints := by simp [h]
  exact ⟨fun e he => absurd he (hnone e), fun e he => absurd he (hnone e),
    fun e he => absurd he (hnone e), fun e he => absurd he (hnone e)⟩

/-- What sorting after a search returns is closed under dependencies. -/
theorem Finished.closed_of_sortEntryPoints {session after : Session} {search : Search}
    (h : targeting.Finished after search) {target : EntryPoint}
    (htarget : search.target = some target) {sorted : SortedEntryPoints}
    (hsort : (sortEntryPoints targeting.configuration (search.found.map (·.2))
      (some target)).runFrom session = (.ok sorted, after)) :
    targeting.Closed after sorted := by
  have hd : ((search.found.map (·.2)).map path).Nodup := h.map_path ▸ h.sound.nodup
  have hcompiled : ∀ item ∈ search.found.map (·.2), item.entryPoint.compiledByAngular = true :=
    fun item hi => (h.holds hi).compiled
  have hlisted := entryPoints_of_sortEntryPoints hsort
  rw [List.filter_eq_self.mpr hcompiled] at hlisted
  obtain ⟨hfound, hlooked⟩ := h.sound.target target htarget
  by_cases hangular : target.compiledByAngular = true
  · obtain ⟨item, hi, hpath, rfl⟩ :=
      h.exists_of_compiledAt hlooked ⟨hfound after (.refl after), hangular⟩
    have hprocessed := processed_of_target hd hi hangular
    rw [← hlisted] at hprocessed
    by_cases hinvalid : Invalid (search.found.map (·.2)) item
    · exact closed_of_nil (hprocessed.1 hinvalid)
    · obtain ⟨order, hsorted, horder⟩ := hprocessed.2 hinvalid
      exact h.closed hi hpath hinvalid horder hsorted fun other ho dependency hdependency hunknown =>
        mem_ignored_of_sortEntryPoints hd hcompiled hsort ho hdependency hunknown
  · refine closed_of_nil (hlisted.trans ?_)
    have hnone : processingOrder (remainingGraph (search.found.map (·.2))) (some target) = [] :=
      if_neg (by simp [hangular])
    rw [hnone]
    rfl

/-- **What is found for a target is closed under dependencies, and the search for it
ends**, whatever cycles the imports form: rounds beyond those that are made change
nothing, and no path is left to look at. -/
theorem find_closed (targeting : Targeting) (session : Session)
    (hdir : Path.isRooted session.tree.workingDir = true) :
    (∀ more, (targeting.searchWithin (roundsIn session.tree + more)
          { pending := [targeting.target] }).runFrom session
        = (targeting.searchWithin (roundsIn session.tree)
          { pending := [targeting.target] }).runFrom session)
      ∧ (∀ search after, (targeting.searchWithin (roundsIn session.tree)
          { pending := [targeting.target] }).runFrom session = (.ok search, after) →
          search.pending = [])
      ∧ ∀ sorted after, targeting.find.runFrom session = (.ok sorted, after) →
          targeting.Closed after sorted := by
  have hbound : PackageBound session.tree session.tree.pathBound :=
    fun _ hnodup hleads => FileTree.length_reported_le hdir hnodup hleads
  have hends := (Search.sound_start targeting session).ends hbound
    (remaining_start_le targeting.target session.tree.pathBound)
  refine ⟨hends.1, fun search after hrun => (hends.2 search after hrun).1, ?_⟩
  intro sorted after hfind
  obtain ⟨search, middle, target, hsearch, htarget, hsort⟩ := runFrom_find hfind
  obtain ⟨hnil, hsound, _⟩ := hends.2 search middle hsearch
  have hextends := (settles_sortEntryPoints targeting.configuration (search.found.map (·.2))
    (some target)).keeps middle
  rw [hsort] at hextends
  have hfinished : targeting.Finished after search := Finished.extends ⟨hsound, hnil⟩ hextends
  exact hfinished.closed_of_sortEntryPoints htarget hsort

/-- A package with some imports in its types, which is known by its configuration. -/
def importing (imports : String) : Entity :=
  .folder [("i.d.ts", .file imports.toUTF8), ("package.json", .folder [])]

/-- A configuration for an entry-point without a description. -/
def configured (name : String) : VersionedConfig where
  packageName := name
  range := "*"
  config := { entryPoints := [(".",
    { overrides := some [("es2015", .string "i.js"), ("typings", .string "i.d.ts")] })] }

/-- A search for one of two packages that import each other. -/
def cycleTargeting : Targeting where
  configuration := ⟨[configured "a", configured "b"], ""⟩
  reading := {}
  basePaths := ["/node_modules"]
  target := "/node_modules/a"

/-- Two packages that import each other are found for one of them. -/
theorem find_closed_cycle :
    let session : Session := { tree := { root := [("node_modules",
      .folder [("a", importing "import 'b';"), ("b", importing "import 'a';")])] } }
    Path.isRooted session.tree.workingDir = true
      ∧ ∃ sorted after, cycleTargeting.find.runFrom session = (.ok sorted, after)
        ∧ sorted.entryPoints.map (·.path) = ["/node_modules/b", "/node_modules/a"]
        ∧ cycleTargeting.Closed after sorted := by
  intro session
  have hdir : Path.isRooted session.tree.workingDir = true := by decide
  have hfound : ((cycleTargeting.find.runFrom session).1.toOption.map fun sorted =>
      sorted.entryPoints.map (·.path)) = some ["/node_modules/b", "/node_modules/a"] := by
    decide +kernel
  rcases hrun : cycleTargeting.find.runFrom session with ⟨failure | sorted, after⟩
  · rw [hrun] at hfound
    cases hfound
  · rw [hrun] at hfound
    exact ⟨hdir, sorted, after, rfl, Option.some.inj hfound,
      (find_closed cycleTargeting session hdir).2.2 sorted after hrun⟩

end Targeting

end PackageOrder
