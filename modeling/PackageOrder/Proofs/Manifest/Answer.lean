/-
PackageOrder.Proofs.Manifest.Answer — what is found under folders, with manifests or
without.

What is found under a folder is told by its current manifest, or else by a walk
(`answer?`). Looking under a folder may write its manifest, but then the manifest has
what the walk found, so no answer is changed by that (`entryPointsUnder_answers`), nor
by looking under several folders one after the other (`mapM_answers`).
-/
import PackageOrder.Proofs.Manifest.Read
import PackageOrder.Proofs.Manifest.Walk

namespace PackageOrder

open PackageOrder.FileTree (namesOf AgreeOutside ManifestPlaces Spelled)

/-! ## Folders to look under -/

/-- Folders to look under, which are none of some places; their manifests are written at
these. -/
structure Searched (places : List (List String)) (start : FileTree) (basePaths : List String) :
    Prop where
  normal : ∀ basePath ∈ basePaths, Normal basePath
  aside : ∀ basePath ∈ basePaths, start.Aside places (namesOf basePath)
  covered : ∀ basePath ∈ basePaths, mayHaveManifest basePath = true → ∀ path,
    path = start.manifestPath basePath ∨ path = start.manifestDraftPath basePath →
    start.Open (namesOf path) → namesOf path ∈ places

/-- What is found under a folder of a tree: what its manifest has, if it can be used, or
what a walk finds at the start. -/
def answer? (configuration : Configuration) (start tree : FileTree) (basePath : String) :
    Option (List EntryPoint) :=
  ((restore configuration basePath (start.manifestPath basePath)
      (tree.currentManifest? configuration basePath)).valueFrom { tree := start }).bind fun found =>
    match found with
    | some entryPoints => some entryPoints
    | none => (walkAll configuration basePath).valueFrom { tree := start }

/-- A session in which nothing but manifests was changed since the start, none of which
leads behind a link at a place. -/
structure Kept (places : List (List String)) (start : FileTree) (basePaths : List String)
    (configuration : Configuration) (session : Session) : Prop where
  since : session.Since start places configuration
  wellFormed : session.tree.WellFormed
  listed : ∀ basePath ∈ basePaths, ∀ manifest,
    session.tree.currentManifest? configuration basePath = some manifest →
    start.EntriesAside places manifest.entryPoints

section

variable {places : List (List String)} {start tree : FileTree} {configuration : Configuration}
  {basePaths : List String}
variable (h : start.ManifestPlaces places) (searched : Searched places start basePaths)
include h searched

/-! ## Writing a manifest -/

theorem currentManifest?_congr {changed : FileTree} (agree : AgreeOutside places start tree)
    (agree' : AgreeOutside places start changed) {basePath : String} (hbase : basePath ∈ basePaths)
    (hread : mayHaveManifest basePath = true →
      changed.readText (start.manifestPath basePath) = tree.readText (start.manifestPath basePath)) :
    changed.currentManifest? configuration basePath = tree.currentManifest? configuration basePath := by
  have hnormal := searched.normal basePath hbase
  have hunlinked := (searched.aside basePath hbase).unlinked
  have hpath : tree.manifestPath basePath = start.manifestPath basePath := agree.resolve_eq _
  have hpath' : changed.manifestPath basePath = start.manifestPath basePath := agree'.resolve_eq _
  unfold FileTree.currentManifest?
  split
  · rename_i hmay
    rw [lockFileHash?_eq h agree hnormal hunlinked hmay, lockFileHash?_eq h agree' hnormal hunlinked hmay,
      hpath, hpath', hread hmay]
  · rfl

/-- What writing a manifest comes to. -/
structure Refreshed (configuration : Configuration) (basePaths : List String)
    (places : List (List String)) (tree changed : FileTree) (basePath : String)
    (entryPoints : List EntryPoint) : Prop where
  agree : AgreeOutside places tree changed
  wellFormed : changed.WellFormed
  own : changed.currentManifest? configuration basePath = tree.currentManifest? configuration basePath
    ∨ ∃ lockHash, changed.currentManifest? configuration basePath
      = some (manifestOf configuration lockHash entryPoints)
  others : ∀ other ∈ basePaths, other ≠ basePath →
    changed.currentManifest? configuration other = tree.currentManifest? configuration other

/-- The places at which the manifest of a folder may be written. -/
def ownPlaces (places : List (List String)) (start : FileTree) (basePath : String) :
    List (List String) :=
  places.filter fun place =>
    place = namesOf (start.manifestPath basePath) ∨ place = namesOf (start.manifestDraftPath basePath)

omit h in
/-- At the places of a manifest no other manifest is. -/
theorem aside_ownPlaces (agree : AgreeOutside places start tree) {basePath other : String}
    (hbase : basePath ∈ basePaths) (hother : other ∈ basePaths) (hne : other ≠ basePath) :
    tree.Aside (ownPlaces places start basePath) (namesOf (start.manifestPath other)) := by
  have hnot : namesOf (start.manifestPath other) ∉ ownPlaces places start basePath := by
    obtain ⟨hpaths, hdrafts⟩ :=
      FileTree.manifest_ne (searched.normal other hother) (searched.normal basePath hbase) hne start
    exact fun hplace => (of_decide_eq_true (List.mem_filter.mp hplace).2).elim hpaths hdrafts
  rw [FileTree.namesOf_manifestPath (searched.normal other hother) start] at hnot ⊢
  refine FileTree.Unlinked.aside (fun place hplace target hlink => ?_) hnot
  exact (searched.aside other hother).unlinked place (List.mem_filter.mp hplace).1 target
    (agree.links place target hlink)

/-- **Recording a manifest changes no other manifest.** -/
theorem refreshed_recorded (agree : AgreeOutside places start tree) (hwell : tree.WellFormed)
    {basePath : String} (hbase : basePath ∈ basePaths) (hmay : mayHaveManifest basePath = true)
    {lockHash text : String} (hlock : tree.lockFileHash? basePath = some lockHash)
    {entryPoints : List EntryPoint}
    (htext : Json.decode? Manifest.decode text = some (manifestOf configuration lockHash entryPoints)) :
    Refreshed configuration basePaths places tree
      (tree.recorded (start.manifestDraftPath basePath) (start.manifestPath basePath) text) basePath
      entryPoints := by
  have hsecluded := agree.secluded h.toSecluded
  have hnormal := searched.normal basePath hbase
  have hunlinked := (searched.aside basePath hbase).unlinked
  have hmemPath := fun hopen => searched.covered basePath hbase hmay _ (Or.inl rfl)
    ((agree.open_iff _).mp hopen)
  have hmemDraft := fun hopen => searched.covered basePath hbase hmay _ (Or.inr rfl)
    ((agree.open_iff _).mp hopen)
  have hspelled : Spelled (namesOf (start.manifestDraftPath basePath))
      ∧ Spelled (namesOf (start.manifestPath basePath)) := by
    rw [FileTree.namesOf_manifestDraftPath hnormal start, FileTree.namesOf_manifestPath hnormal start]
    exact (FileTree.spelled_manifest hnormal).symm
  have hapart := FileTree.draft_not_above hnormal start
  have hrecorded : FileTree.Recorded places tree (tree.recorded (start.manifestDraftPath basePath)
      (start.manifestPath basePath) text) (start.manifestPath basePath) text :=
    FileTree.recorded_at hwell hsecluded hmemDraft hmemPath hspelled hapart
  -- nothing but the two places of this manifest is written to
  have hown : ownPlaces places start basePath ⊆ places := List.filter_subset_self _
  have hrecorded' : FileTree.Recorded (ownPlaces places start basePath) tree
      (tree.recorded (start.manifestDraftPath basePath) (start.manifestPath basePath) text)
      (start.manifestPath basePath) text :=
    FileTree.recorded_at hwell (hsecluded.subset hown)
    (fun hopen => List.mem_filter.mpr ⟨hmemDraft hopen, decide_eq_true (Or.inr rfl)⟩)
    (fun hopen => List.mem_filter.mpr ⟨hmemPath hopen, decide_eq_true (Or.inl rfl)⟩) hspelled hapart
  generalize tree.recorded (start.manifestDraftPath basePath) (start.manifestPath basePath) text
    = changed at hrecorded hrecorded' ⊢
  have hchanged := agree.trans hrecorded.agree
  refine ⟨hrecorded.agree, hrecorded.wellFormed, ?_, ?_⟩
  · rcases hrecorded.holds with hread | hkept
    · right
      refine ⟨lockHash, FileTree.currentManifest?_eq_some.mpr ⟨hmay, ?_, ?_, rfl, rfl⟩⟩
      · rw [lockFileHash?_eq h hchanged hnormal hunlinked hmay,
          ← lockFileHash?_eq h agree hnormal hunlinked hmay]
        exact hlock
      · have hsame : changed.manifestPath basePath = start.manifestPath basePath :=
          hchanged.resolve_eq _
        rw [hsame, hread]
        exact htext
    · left
      exact currentManifest?_congr h searched agree hchanged hbase fun _ => hkept
  · intro other hother hne
    refine currentManifest?_congr h searched agree hchanged hother fun _ => ?_
    have haside := aside_ownPlaces searched agree hbase hother hne
    exact (hrecorded'.agree.looksAlike (hsecluded.subset hown) haside true).readText_eq

/-- **Writing the manifest of a folder changes no other manifest.** -/
theorem refreshed_withManifest (agree : AgreeOutside places start tree) (hwell : tree.WellFormed)
    {basePath : String} (hbase : basePath ∈ basePaths) (entryPoints : List EntryPoint) :
    Refreshed configuration basePaths places tree
      (tree.withManifest configuration basePath entryPoints) basePath entryPoints := by
  have hsecluded := agree.secluded h.toSecluded
  have hsame : Refreshed configuration basePaths places tree tree basePath entryPoints :=
    ⟨AgreeOutside.refl hwell.sensitive fun _ hplace => hsecluded.closed hplace, hwell, Or.inl rfl,
      fun _ _ _ => rfl⟩
  unfold FileTree.withManifest
  split
  · rename_i hmay
    split
    · rename_i lockHash hlock
      have hpath : tree.manifestPath basePath = start.manifestPath basePath := agree.resolve_eq _
      have hdraft : tree.manifestDraftPath basePath = start.manifestDraftPath basePath := by
        rw [FileTree.manifestDraftPath, hpath, FileTree.manifestDraftPath]
      rw [hpath, hdraft]
      exact refreshed_recorded h searched agree hwell hbase hmay hlock (Manifest.decode?_compact _)
    · exact hsame
  · exact hsame

/-! ## Walking and recording -/

omit h searched in
/-- What a walk finds is written into the manifest; then nothing but messages is new. -/
theorem runFrom_walkAndRecord (configuration : Configuration) (basePath : String) (session : Session) :
    ∃ before : Log,
      (∀ failure middle, (walkAll configuration basePath).runFrom { session with log := before }
          = (.error failure, middle) →
        ((walkAndRecord configuration basePath).runFrom session).1 = .error failure)
      ∧ ∀ found middle, (walkAll configuration basePath).runFrom { session with log := before }
          = (.ok found, middle) →
        ∃ after : Log, (walkAndRecord configuration basePath).runFrom session
          = (.ok found, { middle with
              tree := middle.tree.withManifest configuration basePath found, log := after }) := by
  unfold walkAndRecord
  refine ⟨session.log ++ [(.debug, "No manifest found for " ++ basePath
    ++ " so walking the directories for entry-points.")], ?_, ?_⟩
  · intro failure middle hwalk
    rw [Run.runFrom_bind, Run.runFrom_say]
    dsimp only
    rw [Run.runFrom_bind, Run.runFrom_tryCatch, hwalk]
    rfl
  · intro found middle hwalk
    rw [Run.runFrom_bind, Run.runFrom_say]
    dsimp only
    rw [Run.runFrom_bind, Run.runFrom_tryCatch, hwalk]
    dsimp only
    rw [Run.runFrom_bind, Run.runFrom_say]
    dsimp only
    rw [Run.runFrom_bind, Run.runFrom_tryCatch]
    have hwritten := runFrom_writeManifest configuration basePath found
      { middle with log := middle.log ++ [(.debug, "Walking " ++ basePath
          ++ " for entry-points took _s.")] }
    rcases hwrite : (writeManifest configuration basePath found).runFrom _ with
      ⟨failure | done, written⟩
    · rw [hwrite] at hwritten
      dsimp only at hwritten ⊢
      rw [Run.runFrom_say, hwritten]
      dsimp only
      rw [Run.runFrom_pure]
      exact ⟨_, rfl⟩
    · rw [hwrite] at hwritten
      dsimp only at hwritten ⊢
      rw [hwritten, Run.runFrom_pure]
      exact ⟨_, rfl⟩

/-! ## Looking under folders -/

/-- What a session comes to in which entry-points were looked for under a folder: all of
these are found again where they were, and what is found under any folder is what it
was. -/
structure Session.Answers (places : List (List String)) (start : FileTree)
    (basePaths : List String) (configuration : Configuration) (session after : Session)
    (found : List EntryPoint) : Prop where
  kept : Kept places start basePaths configuration after
  inspected : ∀ entryPoint ∈ found, Inspected places start configuration entryPoint
  same : ∀ basePath ∈ basePaths, answer? configuration start after.tree basePath
    = answer? configuration start session.tree basePath

variable (apart : start.EntryPointsApart places configuration)
include apart

omit h searched apart in
theorem entriesAside_manifestOf {lockHash : String} {found : List EntryPoint}
    (hfound : ∀ entryPoint ∈ found, Inspected places start configuration entryPoint) :
    start.EntriesAside places (manifestOf configuration lockHash found).entryPoints := by
  intro summary hsummary
  obtain ⟨entryPoint, hmem, rfl⟩ := List.mem_map.mp hsummary
  exact ⟨(hfound entryPoint hmem).packageFolder, (hfound entryPoint hmem).folder⟩

/-- After a walk its manifest gives what the walk gave. -/
theorem answer?_withManifest {session : Session}
    (hkept : Kept places start basePaths configuration session) {basePath : String}
    (hbase : basePath ∈ basePaths) {found : List EntryPoint}
    (hfound : ∀ entryPoint ∈ found, Inspected places start configuration entryPoint)
    (hanswer : answer? configuration start session.tree basePath = some found)
    {after : Session} (hafter : after.Since start places configuration)
    (htree : after.tree = session.tree.withManifest configuration basePath found) :
    session.Answers places start basePaths configuration after found := by
  have hrefreshed : Refreshed configuration basePaths places session.tree
      (session.tree.withManifest configuration basePath found) basePath found :=
    refreshed_withManifest h searched hkept.since.agree hkept.wellFormed hbase found
  rw [← htree] at hrefreshed
  refine ⟨⟨hafter, hrefreshed.wellFormed, ?_⟩, hfound, ?_⟩
  · intro other hother manifest hmanifest
    by_cases hne : other = basePath
    · subst hne
      rcases hrefreshed.own with hown | ⟨lockHash, hown⟩
      · exact hkept.listed other hother manifest (hown ▸ hmanifest)
      · rw [hown] at hmanifest
        cases hmanifest
        exact entriesAside_manifestOf hfound
    · rw [hrefreshed.others other hother hne] at hmanifest
      exact hkept.listed other hother manifest hmanifest
  · intro other hother
    by_cases hne : other = basePath
    · subst hne
      rcases hrefreshed.own with hown | ⟨lockHash, hown⟩
      · rw [answer?, hown, answer?]
      · rw [hanswer, answer?, hown, restore]
        have hagain := restore_found h apart other (start.manifestPath other) hfound
          (Session.since_of_agree h.agree_refl) rfl
        have hsummaries : (manifestOf configuration lockHash found).entryPoints
          = found.map EntryPointSummary.ofEntryPoint := rfl
        rw [hsummaries, hagain]
        rfl
    · rw [answer?, hrefreshed.others other hother hne, answer?]

/-- A walk gives the answer for a folder without a manifest. -/
theorem walkAndRecord_answers {session : Session}
    (hkept : Kept places start basePaths configuration session) {basePath : String}
    (hbase : basePath ∈ basePaths)
    (hanswer : answer? configuration start session.tree basePath
      = (walkAll configuration basePath).valueFrom { tree := start }) :
    (walkAndRecord configuration basePath).valueFrom session
        = answer? configuration start session.tree basePath
      ∧ ∀ found after, (walkAndRecord configuration basePath).runFrom session = (.ok found, after) →
        session.Answers places start basePaths configuration after found := by
  obtain ⟨before, hfailed, hfound⟩ := runFrom_walkAndRecord configuration basePath session
  have hwalk := alike_walkAll h apart hkept.since.agree (searched.normal basePath hbase)
    (searched.aside basePath hbase) { session with log := before } { tree := start }
    (Session.Since.of_log _ _ hkept.since) rfl (Session.since_of_agree h.agree_refl) rfl
  have hvalue := hanswer.trans hwalk.value.symm
  have hinspected := hwalk.holds
  have hsince := hwalk.kind.1
  have htree := hwalk.tree.1
  rw [Run.valueFrom] at hvalue hinspected
  rcases hrun : (walkAll configuration basePath).runFrom { session with log := before } with
    ⟨failure | found, walked⟩
  · have hrecord := hfailed failure walked hrun
    rw [hrun] at hvalue
    refine ⟨by rw [Run.valueFrom, hrecord, hvalue], fun found after hafter => ?_⟩
    rw [hafter] at hrecord
    cases hrecord
  · obtain ⟨log, hrecord⟩ := hfound found walked hrun
    rw [hrun] at hvalue hinspected hsince htree
    refine ⟨by rw [Run.valueFrom, hrecord, hvalue], fun found' after hafter => ?_⟩
    rw [hrecord] at hafter
    obtain ⟨hsame, rfl⟩ := Prod.mk.inj hafter
    cases hsame
    dsimp only at hsince htree
    rw [htree]
    have hrefreshed : Refreshed configuration basePaths places session.tree
        (session.tree.withManifest configuration basePath found) basePath found :=
      refreshed_withManifest h searched hkept.since.agree hkept.wellFormed hbase found
    refine answer?_withManifest h searched apart hkept hbase (hinspected found rfl) hvalue ?_ rfl
    exact ⟨hkept.since.agree.trans hrefreshed.agree, hsince.remembered⟩

/-- **What is found under a folder is its answer**, and looking there changes no
answer. -/
theorem entryPointsUnder_answers {session : Session}
    (hkept : Kept places start basePaths configuration session) {basePath : String}
    (hbase : basePath ∈ basePaths) :
    (entryPointsUnder configuration true basePath).valueFrom session
        = answer? configuration start session.tree basePath
      ∧ ∀ found after, (entryPointsUnder configuration true basePath).runFrom session
          = (.ok found, after) →
        session.Answers places start basePaths configuration after found := by
  have hread := alike_readManifest h apart hkept.since.agree (hkept.listed basePath hbase) session
    { tree := start } hkept.since rfl (Session.since_of_agree h.agree_refl) rfl
  have hunder : entryPointsUnder configuration true basePath
      = readManifest configuration basePath >>= fun found => match found with
        | some found => pure found
        | none => walkAndRecord configuration basePath := rfl
  have hanswer : answer? configuration start session.tree basePath
      = ((readManifest configuration basePath).valueFrom session).bind fun found =>
          match found with
          | some entryPoints => some entryPoints
          | none => (walkAll configuration basePath).valueFrom { tree := start } := by
    rw [answer?, hread.value]
  have hholds := hread.holds
  have hsince := hread.kind.1
  have htree := hread.tree.1
  rw [hunder, Run.valueFrom_bind, Run.runFrom_bind]
  rw [Run.valueFrom] at hholds hanswer ⊢
  rcases hrun : (readManifest configuration basePath).runFrom session with
    ⟨failure | found?, middle⟩
  all_goals rw [hrun] at hholds hanswer hsince htree
  · refine ⟨hanswer.symm, fun found after hafter => ?_⟩
    cases hafter
  dsimp only at hsince htree
  have hkept' : Kept places start basePaths configuration middle :=
    ⟨hsince, htree ▸ hkept.wellFormed, fun other hother => htree ▸ hkept.listed other hother⟩
  cases found? with
  | some found =>
    refine ⟨hanswer.symm, fun found' after hafter => ?_⟩
    cases hafter
    exact ⟨hkept', hholds (some found) rfl found rfl,
      fun other _ => congrArg (answer? configuration start · other) htree⟩
  | none =>
    rw [Except.toOption, Option.bind_some, ← htree] at hanswer
    dsimp only
    rw [Except.toOption, Option.bind_some, ← htree]
    obtain ⟨hvalue, hafter⟩ := walkAndRecord_answers h searched apart hkept' hbase hanswer
    refine ⟨hvalue, fun found after hrecord => ?_⟩
    obtain ⟨hlast, hinspected, hsame⟩ := hafter found after hrecord
    exact ⟨hlast, hinspected, fun other hother => htree ▸ hsame other hother⟩

/-- **What is found under several folders is what their answers were**, and looking there
changes no answer. -/
theorem mapM_answers {answers : String → Option (List EntryPoint)} {folders : List String}
    (hfolders : folders ⊆ basePaths) {session : Session}
    (hkept : Kept places start basePaths configuration session)
    (hanswers : ∀ basePath ∈ basePaths,
      answer? configuration start session.tree basePath = answers basePath) :
    (folders.mapM (entryPointsUnder configuration true)).valueFrom session = folders.mapM answers
      ∧ ∀ found after, (folders.mapM (entryPointsUnder configuration true)).runFrom session
          = (.ok found, after) →
        session.Answers places start basePaths configuration after found.flatten := by
  induction folders generalizing session with
  | nil =>
    refine ⟨rfl, fun found after hrun => ?_⟩
    cases hrun
    exact ⟨hkept, fun _ hmem => absurd hmem List.not_mem_nil, fun _ _ => rfl⟩
  | cons basePath rest ih =>
    have hbase := hfolders List.mem_cons_self
    obtain ⟨hvalue, hafter⟩ := entryPointsUnder_answers h searched apart hkept hbase
    rw [hanswers basePath hbase, Run.valueFrom] at hvalue
    rw [List.mapM_cons, List.mapM_cons, Run.valueFrom_bind, Run.runFrom_bind, ← hvalue, Run.valueFrom]
    rcases hrun : (entryPointsUnder configuration true basePath).runFrom session with
      ⟨failure | own, middle⟩
    · refine ⟨rfl, fun found after hafter => ?_⟩
      cases hafter
    obtain ⟨hkept', hinspected, hsame⟩ := hafter own middle hrun
    obtain ⟨hvalue', hafter'⟩ := ih (fun other hother => hfolders (List.mem_cons_of_mem _ hother)) hkept'
      fun other hother => (hsame other hother).trans (hanswers other hother)
    dsimp only
    rw [Run.runFrom_bind]
    refine ⟨?_, fun found after hfound => ?_⟩
    · rw [Except.toOption, Option.bind_some, Run.valueFrom_bind, hvalue']
      rfl
    · rcases hrun' : (rest.mapM (entryPointsUnder configuration true)).runFrom middle with
        ⟨failure | others, last⟩
      · rw [hrun'] at hfound
        cases hfound
      · rw [hrun'] at hfound
        dsimp only at hfound
        rw [Run.runFrom_pure] at hfound
        obtain ⟨hall, rfl⟩ := Prod.mk.inj hfound
        cases hall
        obtain ⟨hkept'', hinspected', hsame'⟩ := hafter' others last hrun'
        refine ⟨hkept'', ?_, fun other hother => (hsame' other hother).trans (hsame other hother)⟩
        rw [List.flatten_cons]
        exact List.forall_mem_append.mpr ⟨hinspected, hinspected'⟩

end

end PackageOrder
