/-
PackageOrder.Proofs.Dependency.DeepImports — deep imports are reported and nothing else.

What comes after what, and what is left out, does not depend on them: entry-points that are
cleared of their deep imports are sorted in the same way. The configuration of its package
parts the deep imports of an entry-point (`DeepImportsReported`): each one that needs no
attention is listed as ignored, and one warning names the others
(`sortEntryPoints_deepImports`).

Configurations are remembered, so what is configured for a package is said of the session
after sorting: it is what was met on the way.
-/
import PackageOrder.Proofs.Dependency.Edges
import PackageOrder.Proofs.Session
import PackageOrder.Proofs.Text.Sorted

namespace PackageOrder

open PackageOrder.Text
open EntryPointWithInfo (path)

/-- The warning about deep imports of an entry-point with some name. -/
def deepImportNote (name : String) (paths : List String) : LogLevel × String :=
  (.warn, "Entry point '" ++ name ++ "' contains deep imports into "
    ++ intercalate ", " (paths.map fun path => "'" ++ path ++ "'")
    ++ ". This is probably not a problem, but may cause the compilation of entry points to be "
    ++ "out of order.")

/-! ## One entry-point -/

namespace EntryPointWithInfo

/-- An entry-point cleared of its deep imports. -/
def withoutDeepImports (item : EntryPointWithInfo) : EntryPointWithInfo :=
  { item with info := { item.info with deepImports := [] } }

/-- What is configured for the package of an entry-point. -/
def packageConfig (configuration : Configuration) (item : EntryPointWithInfo) : Run PackageConfig :=
  configuration.forPackage item.entryPoint.packageName item.entryPoint.packagePath
    item.entryPoint.packageVersion

/-- What is configured in a session for the package of an entry-point. -/
def configIn (configuration : Configuration) (session : Session) (item : EntryPointWithInfo) :
    PackageConfig :=
  match ((item.packageConfig configuration).runFrom session).1 with
  | .ok config => config
  | .error _ => .empty item.entryPoint.packagePath

/-- If an entry-point has deep imports, there is a configuration for its package. -/
def Configured (configuration : Configuration) (session : Session) (item : EntryPointWithInfo) :
    Prop :=
  item.info.deepImports ≠ [] →
    ((item.packageConfig configuration).runFrom session).1
      = .ok (item.configIn configuration session)

/-- Dependencies of an entry-point, as they are listed when they are left out. -/
def ignoring (item : EntryPointWithInfo) (paths : List String) : List IgnoredDependency :=
  paths.map fun path => { entryPoint := item.entryPoint, path }

theorem ignoring_append (item : EntryPointWithInfo) (paths more : List String) :
    item.ignoring (paths ++ more) = item.ignoring paths ++ item.ignoring more :=
  List.map_append

/-- The dependencies of an entry-point that are not in a graph. -/
def unknown (graph : Graph EntryPoint) (item : EntryPointWithInfo) : List String :=
  item.others.filter (!graph.contains ·)

/-- The deep imports of an entry-point that need no attention. -/
def ignorable (config : PackageConfig) (item : EntryPointWithInfo) : List String :=
  item.info.deepImports.filter config.isIgnorable

/-- What is said about the other deep imports of an entry-point. -/
def notes (config : PackageConfig) (item : EntryPointWithInfo) : Log :=
  let notable := item.info.deepImports.filter (!config.isIgnorable ·)
  if notable = [] then [] else [deepImportNote item.entryPoint.name notable]

end EntryPointWithInfo

/-- What is reported of the deep imports of an entry-point under a configuration: those that
need no attention are ignored besides what is ignored anyway (`plain`), each once, and
one note names the others in order, if there are others. -/
structure DeepImportsReported (config : PackageConfig) (item : EntryPointWithInfo)
    (plain ignored : List IgnoredDependency) (notes : Log) : Prop where
  ignored : ∃ ignorable : SortedSet, ignorable.Increasing
    ∧ (∀ path, path ∈ ignorable ↔ path ∈ item.info.deepImports ∧ config.isIgnorable path = true)
    ∧ ignored = plain ++ item.ignoring ignorable
  noted : ∃ notable : SortedSet, notable.Increasing
    ∧ (∀ path, path ∈ notable ↔ path ∈ item.info.deepImports ∧ config.isIgnorable path = false)
    ∧ notes = if notable = [] then [] else [deepImportNote item.entryPoint.name notable]

theorem deepImportsReported {item : EntryPointWithInfo} (h : item.info.deepImports.Increasing)
    (config : PackageConfig) (plain : List IgnoredDependency) :
    DeepImportsReported config item plain (plain ++ item.ignoring (item.ignorable config))
      (item.notes config) where
  ignored := ⟨_, h.filter _, fun _ => List.mem_filter, rfl⟩
  noted := ⟨_, h.filter _, fun _ => by simp, rfl⟩

/-! ## The steps -/

theorem Configuration.log_of_forPackage {configuration : Configuration}
    {packageName packagePath : String} {version : Option String} {session after : Session}
    {config : PackageConfig}
    (h : (configuration.forPackage packageName packagePath version).runFrom session
      = (.ok config, after)) : after.log = session.log := by
  rw [runFrom_forPackage] at h
  split at h
  · cases h
    rfl
  · split at h
    · cases h
      rfl
    · cases h

section Steps

variable {configuration : Configuration} {graph : Graph EntryPoint} {item : EntryPointWithInfo}
  {items : List EntryPointWithInfo} {session after later : Session}

/-- What the deep imports of an entry-point come to, said of any later session. -/
theorem runFrom_ignorableDeepImports_eq_ok {deep : List String}
    (h : (ignorableDeepImports configuration item).runFrom session = (.ok deep, after))
    (hlater : after.Extends later) :
    item.Configured configuration later
      ∧ deep = item.ignorable (item.configIn configuration later)
      ∧ after.log = session.log ++ item.notes (item.configIn configuration later) := by
  unfold ignorableDeepImports at h
  split at h
  · rename_i hnone
    have hnil : item.info.deepImports = [] := List.isEmpty_iff.mp hnone
    cases h
    simp [hnil, EntryPointWithInfo.Configured, EntryPointWithInfo.ignorable,
      EntryPointWithInfo.notes]
  · obtain ⟨config, met, hconfig, h⟩ := Run.runFrom_bind_eq_ok.mp h
    have hsaid : deep = item.ignorable config
        ∧ after = { met with log := met.log ++ item.notes config } := by
      rw [List.partition_eq_filter_filter] at h
      unfold EntryPointWithInfo.notes
      dsimp only at h ⊢
      change (if (!(item.info.deepImports.filter (!config.isIgnorable ·)).isEmpty) = true
        then _ else _ : Run (List String)).runFrom met = _ at h
      split at h
      · rename_i hnotable
        rw [Bool.not_eq_true', List.isEmpty_eq_false_iff] at hnotable
        rw [if_neg hnotable]
        cases h
        exact ⟨rfl, rfl⟩
      · rename_i hnotable
        rw [Bool.not_eq_true', List.isEmpty_eq_false_iff, not_not] at hnotable
        rw [if_pos hnotable, List.append_nil]
        cases h
        exact ⟨rfl, rfl⟩
    obtain ⟨rfl, rfl⟩ := hsaid
    -- the configuration that was met is remembered, and so found later
    have hfound : ((item.packageConfig configuration).runFrom later).1 = .ok config :=
      (configuration.settles_forPackage _ _ _).again session config met hconfig later
        ⟨hlater.tree, hlater.configs⟩
    have hsame : item.configIn configuration later = config := by
      rw [EntryPointWithInfo.configIn, hfound]
    rw [EntryPointWithInfo.Configured, hsame, ← Configuration.log_of_forPackage hconfig]
    exact ⟨fun _ => hfound, rfl, rfl⟩

/-- What the step for one entry-point comes to. -/
theorem runFrom_ignoredOf_eq_ok {found : List IgnoredDependency}
    (h : (ignoredOf configuration graph item).runFrom session = (.ok found, after))
    (hlater : after.Extends later) :
    item.Configured configuration later
      ∧ found = item.ignoring
          (item.unknown graph ++ item.ignorable (item.configIn configuration later))
      ∧ after.log = session.log ++ item.notes (item.configIn configuration later) := by
  obtain ⟨deep, middle, hdeep, h⟩ := Run.runFrom_bind_eq_ok.mp h
  cases h
  obtain ⟨hconfig, rfl, hlog⟩ := runFrom_ignorableDeepImports_eq_ok hdeep hlater
  exact ⟨hconfig, rfl, hlog⟩

/-- What the steps for some entry-points come to, one after the other. -/
theorem runFrom_mapM_ignoredOf_eq_ok {found : List (List IgnoredDependency)}
    (h : (items.mapM (ignoredOf configuration graph)).runFrom session = (.ok found, after))
    (hlater : after.Extends later) :
    (∀ item ∈ items, item.Configured configuration later)
      ∧ found.flatten = items.flatMap (fun item => item.ignoring
          (item.unknown graph ++ item.ignorable (item.configIn configuration later)))
      ∧ after.log = session.log
          ++ items.flatMap fun item => item.notes (item.configIn configuration later) := by
  induction items generalizing session found with
  | nil =>
    rw [List.mapM_nil] at h
    cases h
    simp
  | cons item rest ih =>
    rw [List.mapM_cons] at h
    obtain ⟨one, middle, hone, h⟩ := Run.runFrom_bind_eq_ok.mp h
    obtain ⟨others, last, hothers, h⟩ := Run.runFrom_bind_eq_ok.mp h
    cases h
    have hkeeps := (Run.settles_mapM (settles_ignoredOf configuration graph) rest).keeps middle
    rw [hothers] at hkeeps
    obtain ⟨hconfig, hfirst, hlog⟩ := runFrom_ignoredOf_eq_ok hone (hkeeps.trans hlater)
    obtain ⟨hconfigs, hrest, hlogs⟩ := ih hothers
    refine ⟨List.forall_mem_cons.mpr ⟨hconfig, hconfigs⟩, ?_, ?_⟩
    · rw [List.flatten_cons, List.flatMap_cons, hfirst, hrest]
    · rw [hlogs, hlog, List.flatMap_cons, List.append_assoc]

/-- Without deep imports only the dependencies that are not in the graph are left out, and
nothing is said or asked. -/
theorem runFrom_mapM_ignoredOf_without (items : List EntryPointWithInfo) (session : Session) :
    ((items.map EntryPointWithInfo.withoutDeepImports).mapM
        (ignoredOf configuration graph)).runFrom session
      = (.ok (items.map fun item => item.ignoring (item.unknown graph)), session) := by
  have hone : ∀ item : EntryPointWithInfo,
      (ignoredOf configuration graph item.withoutDeepImports).runFrom session
        = (.ok (item.ignoring (item.unknown graph)), session) := by
    intro item
    have hnone : (ignorableDeepImports configuration item.withoutDeepImports).runFrom session
        = (.ok [], session) := rfl
    unfold ignoredOf
    dsimp only
    rw [Run.runFrom_bind, hnone]
    dsimp only
    rw [Run.runFrom_pure, List.append_nil]
    rfl
  induction items with
  | nil => rfl
  | cons item rest ih =>
    rw [List.map_cons, List.mapM_cons, Run.runFrom_bind, hone]
    dsimp only
    rw [Run.runFrom_bind, ih]
    rfl

end Steps

/-! ## Sorting -/

section Cleared

variable (items : List EntryPointWithInfo)

/-- The graph is made without regard to deep imports. -/
theorem dependencyGraph_withoutDeepImports :
    dependencyGraph (items.map EntryPointWithInfo.withoutDeepImports) = dependencyGraph items := by
  rw [dependencyGraph, List.foldl_map, List.foldl_map]
  rfl

theorem arranged_withoutDeepImports (target : Option EntryPoint)
    (ignored : List IgnoredDependency) :
    arranged (items.map EntryPointWithInfo.withoutDeepImports) target ignored
      = arranged items target ignored := by
  have hmissing : ownMissing (items.map EntryPointWithInfo.withoutDeepImports)
      = ownMissing items := by
    rw [ownMissing, List.foldl_map]
    rfl
  rw [arranged, dependencyGraph_withoutDeepImports, hmissing, arranged]

/-- **Entry-points without deep imports are sorted in the same way**, and the session stays as
it is. -/
theorem runFrom_sortEntryPoints_without (configuration : Configuration)
    (target : Option EntryPoint) (session : Session) :
    (sortEntryPoints configuration (items.map EntryPointWithInfo.withoutDeepImports)
        target).runFrom session
      = (.ok (arranged (items.filter (·.entryPoint.compiledByAngular)) target
          ((items.filter (·.entryPoint.compiledByAngular)).flatMap fun item => item.ignoring
            (item.unknown
              (dependencyGraph (items.filter (·.entryPoint.compiledByAngular)))))), session) := by
  have hfilter : (items.map EntryPointWithInfo.withoutDeepImports).filter
        (·.entryPoint.compiledByAngular)
      = (items.filter (·.entryPoint.compiledByAngular)).map
          EntryPointWithInfo.withoutDeepImports := by
    rw [List.filter_map]
    rfl
  rw [runFrom_sortEntryPoints_eq_ok, hfilter, dependencyGraph_withoutDeepImports,
    runFrom_mapM_ignoredOf_without]
  exact ⟨_, rfl, (arranged_withoutDeepImports _ target _).symm⟩

end Cleared

/-- What is ignored of the dependencies of an entry-point. -/
def SortedEntryPoints.ignoredFor (sorted : SortedEntryPoints) (item : EntryPointWithInfo) :
    List IgnoredDependency :=
  sorted.ignored.filter (·.entryPoint.path = item.path)

/-- With distinct paths what is ignored for an entry-point is found by its path. -/
theorem filter_flatMap_ignoring (paths : EntryPointWithInfo → List String)
    {items : List EntryPointWithInfo} (hd : (items.map path).Nodup) {item : EntryPointWithInfo}
    (hi : item ∈ items) :
    (items.flatMap fun item => item.ignoring (paths item)).filter
        (·.entryPoint.path = item.path)
      = item.ignoring (paths item) := by
  have hown : (item.ignoring (paths item)).filter (·.entryPoint.path = item.path)
      = item.ignoring (paths item) := by
    simp [EntryPointWithInfo.ignoring, List.filter_map, Function.comp_def]
  have haside : ∀ other : EntryPointWithInfo, other.path ≠ item.path →
      (other.ignoring (paths other)).filter (·.entryPoint.path = item.path) = [] := by
    intro other hne
    simp [EntryPointWithInfo.ignoring, hne]
  induction items with
  | nil => cases hi
  | cons first rest ih =>
    obtain ⟨hnew, hrest⟩ := List.nodup_cons.mp hd
    rw [List.flatMap_cons, List.filter_append]
    rcases List.mem_cons.mp hi with rfl | hi
    · have hbehind : ∀ other ∈ rest, other.path ≠ item.path :=
        fun other ho heq => hnew (heq ▸ List.mem_map_of_mem ho)
      rw [hown, List.filter_flatMap, List.flatMap_eq_nil_iff.mpr fun other ho =>
        haside other (hbehind other ho), List.append_nil]
    · have hne : first.path ≠ item.path := fun heq => hnew (heq ▸ List.mem_map_of_mem hi)
      rw [haside first hne, List.nil_append, ih hrest hi]

/-- **Deep imports are only reported.** Entry-points that are cleared of them are sorted in
the same way, and with distinct paths each one that takes part has its deep imports
reported as the configuration of its package parts them. -/
theorem sortEntryPoints_deepImports (configuration : Configuration)
    (items : List EntryPointWithInfo) (target : Option EntryPoint) (session after : Session)
    (sorted : SortedEntryPoints)
    (hsets : ∀ item ∈ items, item.info.deepImports.Increasing)
    (hsorted : (sortEntryPoints configuration items target).runFrom session
      = (.ok sorted, after)) :
    ∃ plain, (sortEntryPoints configuration (items.map EntryPointWithInfo.withoutDeepImports)
          target).runFrom session = (.ok plain, session)
      ∧ plain.entryPoints = sorted.entryPoints ∧ plain.invalid = sorted.invalid
      ∧ plain.graph = sorted.graph
      ∧ ∃ notes : EntryPointWithInfo → Log,
          after.log = session.log ++ (items.filter (·.entryPoint.compiledByAngular)).flatMap notes
          ∧ ((items.map path).Nodup → ∀ item ∈ items, item.entryPoint.compiledByAngular = true →
            ∃ config,
              (item.info.deepImports ≠ [] →
                ((item.packageConfig configuration).runFrom after).1 = .ok config)
              ∧ DeepImportsReported config item (plain.ignoredFor item)
                (sorted.ignoredFor item) (notes item)) := by
  obtain ⟨found, hfound, rfl⟩ := runFrom_sortEntryPoints_eq_ok.mp hsorted
  obtain ⟨hconfigs, hignored, hlog⟩ := runFrom_mapM_ignoredOf_eq_ok hfound (.refl after)
  refine ⟨_, runFrom_sortEntryPoints_without items configuration target session, rfl, rfl, rfl,
    _, hlog, fun hd item hi hcompiled => ?_⟩
  have hmem : item ∈ items.filter (·.entryPoint.compiledByAngular) :=
    List.mem_filter.mpr ⟨hi, hcompiled⟩
  have hnodup : ((items.filter (·.entryPoint.compiledByAngular)).map path).Nodup :=
    hd.sublist (List.filter_sublist.map path)
  generalize items.filter (·.entryPoint.compiledByAngular) = compiled at *
  refine ⟨item.configIn configuration after, hconfigs item hmem, ?_⟩
  rw [SortedEntryPoints.ignoredFor, SortedEntryPoints.ignoredFor, arranged, arranged, hignored,
    filter_flatMap_ignoring _ hnodup hmem, filter_flatMap_ignoring _ hnodup hmem,
    EntryPointWithInfo.ignoring_append]
  exact deepImportsReported (hsets item hi) _ _

/-- An entry-point that is a whole package, with what it lacks and its deep imports. -/
def deepImporter (name : String) (missing deepImports : List String) : EntryPointWithInfo where
  entryPoint := { (default : EntryPoint) with
    name, path := "/" ++ name, packageName := name, packagePath := "/" ++ name
    compiledByAngular := true }
  info := { missing, deepImports }

/-- A configuration by which some deep imports of one package need no attention. -/
def deepConfiguration : Configuration where
  configs := [{ packageName := "a", range := "*", config := { matchers := ["deep"] } }]
  hash := ""

/-- An entry-point of which one deep import is ignored and one is warned of, and a broken
one. -/
theorem sortEntryPoints_deepImports_two :
    let one := deepImporter "a" [] ["/c/deep.js", "/c/other.js"]
    let items := [one, deepImporter "b" ["q"] ["/c/deep.js"]]
    (∀ item ∈ items, item.info.deepImports.Increasing) ∧ (items.map path).Nodup
      ∧ ∃ sorted after, ∃ plain : SortedEntryPoints, ∃ notes,
        (sortEntryPoints deepConfiguration items none).runFrom { tree := {} }
            = (.ok sorted, after)
          ∧ plain.graph = sorted.graph
          ∧ after.log = items.flatMap notes
          ∧ ∃ config, ((one.packageConfig deepConfiguration).runFrom after).1 = .ok config
            ∧ DeepImportsReported config one (plain.ignoredFor one) (sorted.ignoredFor one)
              (notes one) := by
  intro one items
  have hsets : ∀ item ∈ items, item.info.deepImports.Increasing := by
    unfold SortedSet.Increasing
    decide
  have hdistinct : (items.map path).Nodup := by decide
  have hok : ((sortEntryPoints deepConfiguration items none).runFrom { tree := {} }).1.toBool
      = true := by
    decide +kernel
  rcases hrun : (sortEntryPoints deepConfiguration items none).runFrom { tree := {} } with
    ⟨_ | sorted, after⟩
  · rw [hrun] at hok
    cases hok
  obtain ⟨plain, _, _, _, hgraph, notes, hlog, hreported⟩ :=
    sortEntryPoints_deepImports deepConfiguration items none { tree := {} } after sorted hsets hrun
  obtain ⟨config, hconfig, hone⟩ := hreported hdistinct one List.mem_cons_self rfl
  exact ⟨hsets, hdistinct, sorted, after, plain, notes, rfl, hgraph, hlog, config,
    hconfig (List.cons_ne_nil _ _), hone⟩

end PackageOrder
