/-
PackageOrder.Proofs.Session — steps of a run that change nothing but what is
remembered.

Package configurations are remembered under a key, and what was found under it
once is found from then on. So a step that looks at packages may come to something
else than at first only until it has succeeded (`Run.Settles`). Steps that only
read the file system come to the same in every session with the same tree
(`Run.Reads`).
-/
import PackageOrder.Dependency.Order
import PackageOrder.Proofs.Run
import PackageOrder.Proofs.Text.Split

namespace PackageOrder

/-- A session with the same tree, in which all that was remembered still is. -/
structure Session.Extends (before after : Session) : Prop where
  tree : after.tree = before.tree
  configs : ∀ key config, before.configs.lookup key = some config →
    after.configs.lookup key = some config

theorem Session.Extends.refl (session : Session) : session.Extends session :=
  ⟨rfl, fun _ _ h => h⟩

theorem Session.Extends.trans {one other last : Session} (h : one.Extends other)
    (h' : other.Extends last) : one.Extends last :=
  ⟨h'.tree.trans h.tree, fun key config hfound => h'.configs key config (h.configs key config hfound)⟩

namespace Run

variable {α β : Type}

/-- A step that only reads the tree. -/
def Reads (step : Run α) : Prop :=
  ∃ result : FileTree → Except Failure α, ∀ session : Session,
    step.runFrom session = (result session.tree, session)

/-- A step that leaves the tree as it is and forgets nothing, and that comes to the
same value ever after it has succeeded. -/
structure Settles (step : Run α) : Prop where
  keeps : ∀ session : Session, session.Extends (step.runFrom session).2
  again : ∀ (session : Session) (value : α) (after : Session),
    step.runFrom session = (.ok value, after) →
    ∀ later, after.Extends later → (step.runFrom later).1 = .ok value

/-- A step whose values have a property. -/
def Yields (step : Run α) (property : α → Prop) : Prop :=
  ∀ (session : Session) (value : α) (after : Session),
    step.runFrom session = (.ok value, after) → property value

theorem yields_pure {property : α → Prop} {value : α} (h : property value) :
    Yields (pure value : Run α) property := by
  rintro session other after hrun
  cases hrun
  exact h

theorem Yields.bind {first : Run α} {next : α → Run β} {property : β → Prop}
    (h : ∀ value, Yields (next value) property) : Yields (first >>= next) property := by
  intro session value after hrun
  obtain ⟨one, middle, _, hnext⟩ := runFrom_bind_eq_ok.mp hrun
  exact h one middle value after hnext

/-! ## Steps that read -/

theorem reads_pure (value : α) : Reads (pure value : Run α) :=
  ⟨fun _ => .ok value, fun _ => rfl⟩

theorem reads_throw (failure : Failure) : Reads (throw failure : Run α) :=
  ⟨fun _ => .error failure, fun _ => rfl⟩

theorem reads_tree : Reads Run.tree :=
  ⟨fun tree => .ok tree, fun _ => rfl⟩

theorem Reads.bind {first : Run α} {next : α → Run β} (hfirst : Reads first)
    (hnext : ∀ value, Reads (next value)) : Reads (first >>= next) := by
  obtain ⟨result, hresult⟩ := hfirst
  obtain ⟨results, hresults⟩ := Classical.skolem.mp hnext
  refine ⟨fun tree => (result tree).bind fun value => results value tree, fun session => ?_⟩
  rw [runFrom_bind, hresult]
  dsimp only
  cases result session.tree with
  | error failure => rfl
  | ok value => exact hresults value session

theorem reads_readWith (path : String) (operation : FileTree → Except FileError α) :
    Reads (readWith path operation) := by
  refine reads_tree.bind fun tree => ?_
  cases operation tree with
  | ok value => exact reads_pure value
  | error cause => exact reads_throw _

/-- Reading leaves the session as it is. -/
theorem Reads.runFrom_snd {step : Run α} (h : Reads step) (session : Session) :
    (step.runFrom session).2 = session := by
  obtain ⟨result, hresult⟩ := h
  rw [hresult]

theorem Reads.runFrom_congr {step : Run α} (h : Reads step) {session other : Session}
    (htree : session.tree = other.tree) : (step.runFrom session).1 = (step.runFrom other).1 := by
  obtain ⟨result, hresult⟩ := h
  rw [hresult, hresult, htree]

/-! ## Steps that settle -/

theorem Reads.settles {step : Run α} (h : Reads step) : Settles step where
  keeps session := by
    rw [h.runFrom_snd]
    exact Session.Extends.refl session
  again session value after hrun later hlater := by
    have hsame : after = session := by rw [← h.runFrom_snd session, hrun]
    rw [← h.runFrom_congr (hlater.tree.trans (congrArg Session.tree hsame)).symm, hrun]

theorem settles_pure (value : α) : Settles (pure value : Run α) :=
  (reads_pure value).settles

theorem settles_say (level : LogLevel) (message : String) : Settles (say level message) where
  keeps _ := ⟨rfl, fun _ _ h => h⟩
  again _ _ _ _ _ _ := rfl

theorem Settles.bind {first : Run α} {next : α → Run β} (hfirst : Settles first)
    (hnext : ∀ value, Settles (next value)) : Settles (first >>= next) where
  keeps session := by
    have hkeeps := hfirst.keeps session
    rw [runFrom_bind]
    rcases hrun : first.runFrom session with ⟨failure | value, middle⟩
    · rw [hrun] at hkeeps
      exact hkeeps
    · rw [hrun] at hkeeps
      exact hkeeps.trans ((hnext value).keeps middle)
  again session value after hrun later hlater := by
    obtain ⟨one, middle, hone, hvalue⟩ := runFrom_bind_eq_ok.mp hrun
    have hafter : middle.Extends after := by
      have hkeeps := (hnext one).keeps middle
      rwa [hvalue] at hkeeps
    have hagain := hfirst.again session one middle hone later (hafter.trans hlater)
    have hkeeps := hfirst.keeps later
    rw [runFrom_bind]
    rcases hother : first.runFrom later with ⟨failure | other, middle'⟩
    · rw [hother] at hagain
      cases hagain
    · rw [hother] at hagain hkeeps
      cases hagain
      exact (hnext one).again middle value after hvalue middle' (hlater.trans hkeeps)

theorem settles_mapM {step : α → Run β} (h : ∀ a, Settles (step a)) (items : List α) :
    Settles (items.mapM step) := by
  induction items with
  | nil =>
    rw [List.mapM_nil]
    exact settles_pure []
  | cons item rest ih =>
    rw [List.mapM_cons]
    exact (h item).bind fun _ => ih.bind fun _ => settles_pure _

end Run

/-! ## Package configurations -/

/-- The key under which the configuration of a package is remembered. -/
def configKey (packagePath : String) (version : Option String) : String :=
  packagePath ++ "@" ++ version.getD ""

/-- Without an `@` in versions keys are of one folder and one version. -/
theorem configKey_inj {one other : String} {version version' : Option String}
    (hversion : ∀ text, version = some text → '@' ∉ text.toList)
    (hversion' : ∀ text, version' = some text → '@' ∉ text.toList)
    (h : configKey one version = configKey other version') : one = other := by
  have hplain : ∀ version : Option String,
      (∀ text, version = some text → '@' ∉ text.toList) → '@' ∉ (version.getD "").toList := by
    intro version hversion
    cases version with
    | none => exact List.not_mem_nil
    | some text => exact hversion text rfl
  have hcut : ∀ (path : String) (version : Option String),
      (∀ text, version = some text → '@' ∉ text.toList) →
      Text.cutAt? '@' (configKey path version).toList.reverse
        = some ((version.getD "").toList.reverse, path.toList.reverse) := by
    intro path version hversion
    have hreverse : (configKey path version).toList.reverse
        = (version.getD "").toList.reverse ++ '@' :: path.toList.reverse := by
      rw [configKey, String.toList_append, String.toList_append,
        show ("@" : String).toList = ['@'] from rfl]
      simp
    rw [hreverse, Text.cutAt?_of_notMem]
    exact fun hmem => hplain version hversion (List.mem_reverse.mp hmem)
  have heq := (hcut one version hversion).symm.trans (h ▸ hcut other version' hversion')
  have hpaths := (Prod.mk.inj (Option.some.inj heq)).2
  exact String.toList_inj.mp (List.reverse_injective hpaths)

namespace Configuration

theorem reads_written? (configuration : Configuration) (packageName packagePath : String)
    (version : Option String) :
    (configuration.written? packageName packagePath version).Reads := by
  unfold written?
  split
  · exact Run.reads_pure _
  · refine Run.reads_tree.bind fun tree => ?_
    split
    · refine (Run.reads_readWith _ _).bind fun text => ?_
      split
      · exact Run.reads_pure _
      · exact Run.reads_throw _
    · exact Run.reads_pure _

theorem reads_compute (configuration : Configuration) (packageName packagePath : String)
    (version : Option String) :
    (configuration.compute packageName packagePath version).Reads := by
  refine (configuration.reads_written? packageName packagePath version).bind fun found => ?_
  split
  · exact Run.reads_pure _
  · refine Run.reads_tree.bind fun tree => ?_
    split
    · exact Run.reads_pure _
    · exact Run.reads_throw _

/-- A configuration that was met is found again; another one is read and
remembered. -/
theorem runFrom_forPackage (configuration : Configuration) (packageName packagePath : String)
    (version : Option String) (session : Session) :
    (configuration.forPackage packageName packagePath version).runFrom session
      = match session.configs.lookup (packagePath ++ "@" ++ version.getD "") with
        | some config => (.ok config, session)
        | none =>
          match ((configuration.compute packageName packagePath version).runFrom session).1 with
          | .ok config => (.ok config, { session with
              configs := (packagePath ++ "@" ++ version.getD "", config) :: session.configs })
          | .error failure => (.error failure, session) := by
  have hcompute := (configuration.reads_compute packageName packagePath version).runFrom_snd session
  unfold forPackage
  rw [Run.runFrom_bind]
  change Run.runFrom (match session.configs.lookup _ with | some _ => _ | none => _) session = _
  cases session.configs.lookup (packagePath ++ "@" ++ version.getD "") with
  | some config => rfl
  | none =>
    dsimp only
    rw [Run.runFrom_bind]
    rcases hrun : (configuration.compute packageName packagePath version).runFrom session with
      ⟨failure | config, middle⟩
    · rw [hrun] at hcompute
      rw [← hcompute]
    · rw [hrun] at hcompute
      rw [← hcompute]
      rfl

/-- **What a package is configured with is settled when it was asked for once.** -/
theorem settles_forPackage (configuration : Configuration) (packageName packagePath : String)
    (version : Option String) :
    (configuration.forPackage packageName packagePath version).Settles where
  keeps session := by
    rw [runFrom_forPackage]
    cases hlookup : session.configs.lookup (packagePath ++ "@" ++ version.getD "") with
    | some config => exact Session.Extends.refl session
    | none =>
      dsimp only
      split
      · refine ⟨rfl, fun key config hfound => ?_⟩
        have hne : (key == packagePath ++ "@" ++ version.getD "") = false := by
          rw [beq_eq_false_iff_ne]
          rintro rfl
          rw [hlookup] at hfound
          cases hfound
        rw [List.lookup_cons, hne]
        exact hfound
      · exact Session.Extends.refl session
  again session value after hrun later hlater := by
    have hfound : after.configs.lookup (packagePath ++ "@" ++ version.getD "") = some value := by
      rw [runFrom_forPackage] at hrun
      cases hlookup : session.configs.lookup (packagePath ++ "@" ++ version.getD "") with
      | some config =>
        rw [hlookup] at hrun
        cases hrun
        exact hlookup
      | none =>
        rw [hlookup] at hrun
        dsimp only at hrun
        split at hrun
        · cases hrun
          exact List.lookup_cons_self
        · cases hrun
    rw [runFrom_forPackage, hlater.configs _ _ hfound]

end Configuration

/-! ## Entry-points -/

/-- **What a folder is as an entry-point is settled when it was looked at once.** -/
theorem settles_inspect (configuration : Configuration) (packagePath entryPointPath : String) :
    (inspect configuration packagePath entryPointPath).Settles := by
  unfold inspect
  refine Run.reads_tree.settles.bind fun tree => ?_
  dsimp only
  refine (configuration.settles_forPackage _ packagePath _).bind fun config => ?_
  split
  · exact Run.settles_pure _
  · split
    · exact Run.settles_pure _
    · exact (Run.settles_say _ _).bind fun _ => Run.settles_pure _
  · split
    · exact Run.settles_pure _
    · exact Run.settles_pure _

/-- An entry-point has the path at which it was found, and that of its package. -/
theorem yields_inspect (configuration : Configuration) (packagePath entryPointPath : String) :
    (inspect configuration packagePath entryPointPath).Yields fun inspection =>
      ∀ entryPoint, inspection.entryPoint? = some entryPoint →
        entryPoint.path = entryPointPath ∧ entryPoint.packagePath = packagePath := by
  unfold inspect
  refine Run.Yields.bind fun tree => ?_
  dsimp only
  refine Run.Yields.bind fun config => ?_
  split
  · exact Run.yields_pure fun _ h => nomatch h
  · split
    · exact Run.yields_pure fun _ h => nomatch h
    · exact Run.Yields.bind fun _ => Run.yields_pure fun _ h => nomatch h
  · split
    · exact Run.yields_pure fun _ h => nomatch h
    · refine Run.yields_pure fun entryPoint h => ?_
      cases h
      exact ⟨rfl, rfl⟩

/-- Reading the imports of an entry-point only reads the tree. -/
theorem runFrom_withInfo (reading : ImportReading) (entryPoint : EntryPoint) (session : Session) :
    (withInfo reading entryPoint).runFrom session
      = (session.tree.withInfo reading.readable reading.mappings entryPoint, session) := by
  unfold withInfo
  have htree : Run.tree.runFrom session = (.ok session.tree, session) := rfl
  rw [Run.runFrom_bind, htree]
  dsimp only
  cases session.tree.withInfo reading.readable reading.mappings entryPoint <;> rfl

theorem reads_withInfo (reading : ImportReading) (entryPoint : EntryPoint) :
    (withInfo reading entryPoint).Reads :=
  ⟨fun tree => tree.withInfo reading.readable reading.mappings entryPoint,
    runFrom_withInfo reading entryPoint⟩

/-! ## Sorting -/

theorem settles_ignoredOf (configuration : Configuration) (graph : Graph EntryPoint)
    (item : EntryPointWithInfo) : (ignoredOf configuration graph item).Settles := by
  unfold ignoredOf ignorableDeepImports
  refine Run.Settles.bind ?_ fun deep => Run.settles_pure _
  split
  · exact Run.settles_pure _
  · refine (configuration.settles_forPackage _ _ _).bind fun config => ?_
    dsimp only
    split
    · exact (Run.settles_say _ _).bind fun _ => Run.settles_pure _
    · exact Run.settles_pure _

theorem settles_sortEntryPoints (configuration : Configuration) (items : List EntryPointWithInfo)
    (target : Option EntryPoint) : (sortEntryPoints configuration items target).Settles := by
  unfold sortEntryPoints
  exact (Run.settles_mapM (settles_ignoredOf configuration _) _).bind fun _ => Run.settles_pure _

end PackageOrder
