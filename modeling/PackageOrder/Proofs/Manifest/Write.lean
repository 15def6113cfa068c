/-
PackageOrder.Proofs.Manifest.Write — what writing a manifest changes.

A manifest is written under another name and then moved to its place. Each of these
steps may be refused, but whatever comes of them, nothing is changed outside of the two
places, and at its place there is the new text or what was there before
(`FileTree.recorded_at`).

A text that a manifest was written as is read as that manifest, whatever it holds
(`Manifest.decode?_compact`): an entry is a record of texts and flags, and nothing in it is
nested deeper.
-/
import PackageOrder.EntryPoint.Manifest
import PackageOrder.Proofs.EntryPoint.Description
import PackageOrder.Proofs.Json.RoundTrip
import PackageOrder.Proofs.Manifest.Listing

namespace PackageOrder

open PackageOrder.Json (Decoder IntegralItems)
open PackageOrder.Path (Plain)
open PackageOrder.FileTree (namesOf pathOf AgreeOutside ManifestPlaces Spelled)

/-! ## Manifests are read as they were written -/

/-- An entry is read from its form. -/
theorem EntryPointSummary.decode_form {room : Nat} (summary : EntryPointSummary) :
    EntryPointSummary.decode (room + 1) summary.toJson.form = some summary := by
  rw [EntryPointSummary.decode, EntryPointSummary.toJson, Json.fields?_form]
  · simp [List.lookup_cons]
  · rfl
  · decide

namespace Manifest

/-- A manifest is read from its form. -/
theorem decode_form {room : Nat} (manifest : Manifest) :
    Manifest.decode (room + 3) manifest.toJson.form = some manifest := by
  have hentries := Decoder.list_form EntryPointSummary.decode EntryPointSummary.toJson (room + 1)
    EntryPointSummary.decode_form manifest.entryPoints
  rw [Manifest.decode, Manifest.toJson, Json.fields?_form]
  · simp [List.lookup_cons, hentries]
  · rfl
  · decide

theorem integral_toJson (manifest : Manifest) : manifest.toJson.Integral := by
  have hentries : ∀ summaries : List EntryPointSummary,
      IntegralItems (summaries.map EntryPointSummary.toJson) := by
    intro summaries
    induction summaries with
    | nil => trivial
    | cons summary rest ih =>
      exact ⟨⟨trivial, trivial, trivial, trivial, trivial, trivial⟩, ih⟩
  exact ⟨trivial, trivial, trivial, hentries manifest.entryPoints, trivial⟩

/-- **A manifest is read from the text that it was written as.** -/
theorem decode?_compact (manifest : Manifest) :
    Json.decode? Manifest.decode manifest.toJson.compact = some manifest := by
  rw [Json.decode?, Json.readForm?_compact _ manifest.integral_toJson, Option.bind_some]
  exact decode_form manifest

end Manifest

namespace FileTree

variable {tree : FileTree}

/-! ## Open places -/

instance (tree : FileTree) (names : List String) : Decidable (tree.HasFolder names) :=
  decidable_of_iff ((tree.entityAt names).map Entity.kind = some .folder) <| by
    unfold HasFolder
    rcases tree.entityAt names with _ | _ | _ | _ <;> simp [Entity.kind]

theorem open_iff_dropLast {names : List String} :
    tree.Open names ↔ names ≠ [] ∧ tree.HasFolder names.dropLast ∧ ¬ tree.HasFolder names := by
  constructor
  · rintro ⟨parent, name, rfl, hparent, hclosed⟩
    rw [List.dropLast_concat]
    exact ⟨List.append_ne_nil_of_right_ne_nil _ (List.cons_ne_nil _ _), hparent, hclosed⟩
  · rintro ⟨hne, hparent, hclosed⟩
    exact ⟨names.dropLast, names.getLast hne, (List.dropLast_concat_getLast hne).symm, hparent, hclosed⟩

instance (tree : FileTree) (names : List String) : Decidable (tree.Open names) :=
  decidable_of_iff _ open_iff_dropLast.symm

/-! ## The places of manifests -/

/-- Where the manifests of some folders and their drafts may be written. -/
def manifestPlaces (tree : FileTree) (basePaths : List String) : List (List String) :=
  ((basePaths.filter mayHaveManifest).flatMap fun basePath =>
    [namesOf (tree.manifestPath basePath), namesOf (tree.manifestDraftPath basePath)]).filter
      fun place => tree.Open place

theorem mem_manifestPlaces {basePaths : List String} {place : List String} :
    place ∈ tree.manifestPlaces basePaths ↔ tree.Open place
      ∧ ∃ basePath ∈ basePaths, mayHaveManifest basePath = true
        ∧ (place = namesOf (tree.manifestPath basePath)
          ∨ place = namesOf (tree.manifestDraftPath basePath)) := by
  simp only [manifestPlaces, List.mem_filter, List.mem_flatMap, List.mem_cons, List.not_mem_nil,
    or_false, decide_eq_true_eq, and_assoc]
  exact and_comm

section

variable {basePath : String} (h : Normal basePath)
include h

theorem spelled_manifest : Spelled (namesOf basePath ++ [manifestFileName])
    ∧ Spelled (namesOf basePath ++ [manifestDraftName]) :=
  ⟨h.spelled_name (by decide) fun _ => by decide, h.spelled_name (by decide) fun _ => by decide⟩

theorem namesOf_manifestPath (tree : FileTree) :
    namesOf (tree.manifestPath basePath) = namesOf basePath ++ [manifestFileName] :=
  (h.below (spelled_manifest h).1 tree).2

theorem namesOf_manifestDraftPath (tree : FileTree) :
    namesOf (tree.manifestDraftPath basePath) = namesOf basePath ++ [manifestDraftName] := by
  have hpath : tree.manifestPath basePath = pathOf (namesOf basePath ++ [manifestFileName]) :=
    h.resolve_name (spelled_manifest h).1 tree
  rw [manifestDraftPath, hpath, pathOf_append]
  exact namesOf_pathOf (spelled_manifest h).2.plain

/-- A manifest is not below its draft. -/
theorem draft_not_above (tree : FileTree) :
    ¬ namesOf (tree.manifestDraftPath basePath) <+: namesOf (tree.manifestPath basePath) := by
  rw [namesOf_manifestDraftPath h tree, namesOf_manifestPath h tree]
  intro hbelow
  have hsame := hbelow.eq_of_length (by simp)
  have hnames : manifestDraftName ≠ manifestFileName := by decide
  exact hnames (List.append_singleton_inj.mp hsame).2

/-- The manifest of a folder stands at no place of another one. -/
theorem manifest_ne {other : String} (ho : Normal other) (hne : basePath ≠ other) (tree : FileTree) :
    namesOf (tree.manifestPath basePath) ≠ namesOf (tree.manifestPath other)
      ∧ namesOf (tree.manifestPath basePath) ≠ namesOf (tree.manifestDraftPath other) := by
  rw [namesOf_manifestPath h tree, namesOf_manifestPath ho tree, namesOf_manifestDraftPath ho tree]
  constructor
  · intro heq
    exact hne (h.eq_of_namesOf ho (List.append_inj' heq rfl).1)
  · intro heq
    have hnames : manifestFileName ≠ manifestDraftName := by decide
    exact hnames (List.append_singleton_inj.mp heq).2

end

theorem exists_of_mem_manifestPlaces {basePaths : List String}
    (hnormal : ∀ basePath ∈ basePaths, Normal basePath) {place : List String}
    (hplace : place ∈ tree.manifestPlaces basePaths) :
    ∃ front name, Spelled (front ++ [name]) ∧ place = front ++ [name]
      ∧ (name = manifestFileName ∨ name = manifestDraftName) := by
  obtain ⟨_, basePath, hmem, _, hpath | hdraft⟩ := mem_manifestPlaces.mp hplace
  · rw [namesOf_manifestPath (hnormal basePath hmem) tree] at hpath
    exact ⟨namesOf basePath, manifestFileName, (spelled_manifest (hnormal basePath hmem)).1, hpath,
      Or.inl rfl⟩
  · rw [namesOf_manifestDraftPath (hnormal basePath hmem) tree] at hdraft
    exact ⟨namesOf basePath, manifestDraftName, (spelled_manifest (hnormal basePath hmem)).2, hdraft,
      Or.inr rfl⟩

/-- The places of manifests are as they have to be, if no link leads to them. -/
theorem manifestPlaces_secluded {basePaths : List String} (hwell : tree.WellFormed)
    (hnormal : ∀ basePath ∈ basePaths, Normal basePath)
    (hlinks : ∀ path next, tree.Redirects path next →
      tree.Aside (tree.manifestPlaces basePaths) (namesOf next)) :
    tree.ManifestPlaces (tree.manifestPlaces basePaths) where
  opened _ hplace := (mem_manifestPlaces.mp hplace).1
  plain _ hplace := by
    obtain ⟨front, name, hspelled, rfl, _⟩ := exists_of_mem_manifestPlaces hnormal hplace
    exact hspelled.plain
  links := hlinks
  wellFormed := hwell
  named _ hplace := by
    obtain ⟨front, name, _, hplace, rfl | rfl⟩ := exists_of_mem_manifestPlaces hnormal hplace
    · exact ⟨front, Or.inl hplace⟩
    · exact ⟨front, Or.inr hplace⟩

/-! ## Writing -/

/-- The tree after a text was written as a draft and moved to its place, as far as that
went. -/
def recorded (tree : FileTree) (draft path text : String) : FileTree :=
  match tree.writeText draft text with
  | .error _ => tree
  | .ok written => (written.move draft path).1

/-- Whether it went all the way, and else what was refused. -/
def recordOutcome (tree : FileTree) (draft path text : String) : Except Failure Unit :=
  match tree.writeText draft text with
  | .error cause => .error (.inaccessible draft cause)
  | .ok written => (written.move draft path).2.mapError (.inaccessible path)

/-- What a file that was renewed leaves as it is elsewhere. -/
theorem Rewritten.readText_eq {changed : FileTree} {place : List String}
    (h : Rewritten tree changed place) {places : List (List String)}
    (hsecluded : tree.Secluded places) (hplace : place ∈ places) {path : String}
    (hpath : ¬ place <+: namesOf path) : changed.readText path = tree.readText path := by
  have hone : [place] ⊆ places := fun other hother => List.mem_singleton.mp hother ▸ hplace
  refine (h.agree.looksAlike (hsecluded.subset hone) ⟨fun hmem => hpath ?_, ?_⟩ true).readText_eq
  · rw [List.mem_singleton.mp hmem]
  · intro other hother target _ hbelow
    exact hpath (List.mem_singleton.mp hother ▸ hbelow)

/-- What recording a text comes to. -/
structure Recorded (places : List (List String)) (tree changed : FileTree) (path text : String) :
    Prop where
  agree : AgreeOutside places tree changed
  wellFormed : changed.WellFormed
  holds : changed.readText path = .ok text ∨ changed.readText path = tree.readText path

/-- **A text is recorded at its place or not at all**, and all else is as it was. -/
theorem recorded_at {places : List (List String)} {draft path text : String}
    (hwell : tree.WellFormed) (hsecluded : tree.Secluded places)
    (hdraft : tree.Open (namesOf draft) → namesOf draft ∈ places)
    (hpath : tree.Open (namesOf path) → namesOf path ∈ places)
    (hspelled : Spelled (namesOf draft) ∧ Spelled (namesOf path))
    (hapart : ¬ namesOf draft <+: namesOf path) :
    Recorded places tree (tree.recorded draft path text) path text := by
  have hclosed : ∀ {other : FileTree}, other.Secluded places →
      ∀ place ∈ places, ¬ other.HasFolder place := fun hother _ hplace => hother.closed hplace
  unfold recorded
  cases hwrite : tree.writeText draft text with
  | error cause => exact ⟨AgreeOutside.refl hwell.sensitive (hclosed hsecluded), hwell, Or.inr rfl⟩
  | ok written =>
    obtain ⟨hrewritten, hat⟩ := rewritten_of_write hwell hwrite
    have hmem := hdraft hrewritten.was_open
    have hagree := hrewritten.agree.mono hmem (hclosed hsecluded)
    have hwell' := hrewritten.wellFormed hspelled.1
    have hsecluded' := hagree.secluded hsecluded
    have hsame := hrewritten.readText_eq hsecluded hmem hapart
    have hread := readBytes_of_entityAt hwell'.sensitive hat
    dsimp only
    rw [move, hread]
    dsimp only
    cases hmove : written.write path text.toUTF8 false with
    | error cause => exact ⟨hagree, hwell', Or.inr hsame⟩
    | ok moved =>
      obtain ⟨hrewritten', hat'⟩ := rewritten_of_write hwell' hmove
      have hmem' := hpath ((hagree.open_iff _).mp hrewritten'.was_open)
      have hagree' := hagree.trans (hrewritten'.agree.mono hmem' (hclosed hsecluded'))
      have hwell'' := hrewritten'.wellFormed hspelled.2
      have htext := readText_of_entityAt hwell''.sensitive hat'
      dsimp only
      cases hremove : moved.remove draft with
      | error cause => exact ⟨hagree', hwell'', Or.inl htext⟩
      | ok removed =>
        have hrewritten'' := rewritten_of_remove hwell'' hremove
        have hsecluded'' := hagree'.secluded hsecluded
        refine ⟨hagree'.trans (hrewritten''.agree.mono hmem (hclosed hsecluded'')),
          hrewritten''.wellFormed hspelled.1, Or.inl ?_⟩
        exact (hrewritten''.readText_eq hsecluded'' hmem hapart).trans htext

end FileTree

/-! ## Manifests -/

/-- The tree after a manifest was written, as far as that went. -/
def FileTree.withManifest (tree : FileTree) (configuration : Configuration) (basePath : String)
    (entryPoints : List EntryPoint) : FileTree :=
  if mayHaveManifest basePath then
    match tree.lockFileHash? basePath with
    | some lockHash => tree.recorded (tree.manifestDraftPath basePath) (tree.manifestPath basePath)
        (manifestOf configuration lockHash entryPoints).toJson.compact
    | none => tree
  else tree

/-- Whether a manifest was written, where there may be one, and else what was refused. -/
def FileTree.manifestOutcome (tree : FileTree) (configuration : Configuration) (basePath : String)
    (entryPoints : List EntryPoint) : Except Failure Unit :=
  if mayHaveManifest basePath then
    match tree.lockFileHash? basePath with
    | some lockHash => tree.recordOutcome (tree.manifestDraftPath basePath)
        (tree.manifestPath basePath) (manifestOf configuration lockHash entryPoints).toJson.compact
    | none => .ok ()
  else .ok ()

theorem Run.runFrom_changeWith (path : String) (operation : FileTree → Except FileError FileTree)
    (session : Session) :
    (changeWith path operation).runFrom session
      = match operation session.tree with
        | .ok changed => (.ok (), { session with tree := changed })
        | .error cause => (.error (.inaccessible path cause), session) := by
  unfold changeWith readWith
  have htree : Run.tree.runFrom session = (.ok session.tree, session) := rfl
  rw [runFrom_bind, runFrom_bind, htree]
  dsimp only
  cases operation session.tree <;> rfl

/-- **Writing a manifest** changes the tree only. -/
theorem runFrom_writeManifest_eq (configuration : Configuration) (basePath : String)
    (entryPoints : List EntryPoint) (session : Session) :
    (writeManifest configuration basePath entryPoints).runFrom session
      = (session.tree.manifestOutcome configuration basePath entryPoints,
        { session with tree := session.tree.withManifest configuration basePath entryPoints }) := by
  unfold writeManifest FileTree.withManifest FileTree.manifestOutcome
  cases hmay : mayHaveManifest basePath with
  | false => rfl
  | true =>
    have htree : Run.tree.runFrom session = (.ok session.tree, session) := rfl
    simp only [Bool.not_true, Bool.false_eq_true, if_false, if_true]
    rw [Run.runFrom_bind, htree]
    dsimp only
    cases session.tree.lockFileHash? basePath with
    | none => rfl
    | some lockHash =>
      dsimp only
      unfold FileTree.recorded FileTree.recordOutcome
      rw [Run.runFrom_bind, Run.runFrom_changeWith]
      cases session.tree.writeText (session.tree.manifestDraftPath basePath)
        (manifestOf configuration lockHash entryPoints).toJson.compact with
      | error cause => rfl
      | ok written =>
        dsimp only
        have hwritten : ∀ middle : Session,
            Run.tree.runFrom middle = (.ok middle.tree, middle) := fun _ => rfl
        rw [Run.runFrom_bind, hwritten]
        dsimp only
        rcases written.move (session.tree.manifestDraftPath basePath)
          (session.tree.manifestPath basePath) with ⟨moved, outcome⟩
        rw [Run.runFrom_bind]
        cases outcome <;> rfl

/-- A manifest is recorded where there may be one beside a lock file, and else nothing is
done. -/
theorem FileTree.manifest_cases (tree : FileTree) (configuration : Configuration)
    (basePath : String) (entryPoints : List EntryPoint) :
    ((mayHaveManifest basePath = false ∨ tree.lockFileHash? basePath = none)
        ∧ tree.manifestOutcome configuration basePath entryPoints = .ok ()
        ∧ tree.withManifest configuration basePath entryPoints = tree)
      ∨ ∃ lockHash text, tree.lockFileHash? basePath = some lockHash
        ∧ text = (manifestOf configuration lockHash entryPoints).toJson.compact
        ∧ tree.manifestOutcome configuration basePath entryPoints
          = tree.recordOutcome (tree.manifestDraftPath basePath) (tree.manifestPath basePath) text
        ∧ tree.withManifest configuration basePath entryPoints
          = tree.recorded (tree.manifestDraftPath basePath) (tree.manifestPath basePath) text := by
  unfold manifestOutcome withManifest
  cases hmay : mayHaveManifest basePath with
  | false => exact Or.inl ⟨Or.inl rfl, rfl, rfl⟩
  | true =>
    cases hlock : tree.lockFileHash? basePath with
    | none => exact Or.inl ⟨Or.inr rfl, rfl, rfl⟩
    | some lockHash => exact Or.inr ⟨lockHash, _, rfl, rfl, if_pos rfl, if_pos rfl⟩

theorem runFrom_writeManifest (configuration : Configuration) (basePath : String)
    (entryPoints : List EntryPoint) (session : Session) :
    ((writeManifest configuration basePath entryPoints).runFrom session).2
      = { session with tree := session.tree.withManifest configuration basePath entryPoints } :=
  congrArg Prod.snd (runFrom_writeManifest_eq configuration basePath entryPoints session)

end PackageOrder
