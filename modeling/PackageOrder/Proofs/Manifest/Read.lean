/-
PackageOrder.Proofs.Manifest.Read — what is read from a manifest.

A manifest counts if it is up to date (`FileTree.currentManifest?`), and then its
entries are looked at one after the other. What comes of that is the same in all trees
that hold this manifest (`alike_readManifest`). The manifest of entry-points that were
found gives just these (`restore_found`).
-/
import PackageOrder.Proofs.Manifest.Write

namespace PackageOrder

open PackageOrder.Path (Plain)
open PackageOrder.FileTree (namesOf pathOf AgreeOutside ManifestPlaces Spelled)

/-- The manifest of a folder, if it is there and up to date. -/
def FileTree.currentManifest? (tree : FileTree) (configuration : Configuration) (basePath : String) :
    Option Manifest :=
  if mayHaveManifest basePath then
    (tree.lockFileHash? basePath).bind fun lockHash =>
      ((tree.readText (tree.manifestPath basePath)).toOption.bind
        (Json.decode? Manifest.decode)).filter fun manifest =>
          manifest.version == toolVersion && manifest.configHash == configuration.hash
            && manifest.lockHash == lockHash
  else none

theorem FileTree.currentManifest?_eq_some {tree : FileTree} {configuration : Configuration}
    {basePath : String} {manifest : Manifest} :
    tree.currentManifest? configuration basePath = some manifest
      ↔ mayHaveManifest basePath = true ∧ tree.lockFileHash? basePath = some manifest.lockHash
        ∧ (tree.readText (tree.manifestPath basePath)).toOption.bind (Json.decode? Manifest.decode)
          = some manifest
        ∧ manifest.version = toolVersion ∧ manifest.configHash = configuration.hash := by
  unfold currentManifest?
  split
  · rename_i hmay
    rw [and_iff_right hmay, Option.bind_eq_some_iff]
    constructor
    · rintro ⟨lockHash, hlock, hmanifest⟩
      obtain ⟨hread, hcurrent⟩ := Option.filter_eq_some_iff.mp hmanifest
      rw [Bool.and_eq_true, Bool.and_eq_true, beq_iff_eq, beq_iff_eq, beq_iff_eq] at hcurrent
      exact ⟨hcurrent.2 ▸ hlock, hread, hcurrent.1⟩
    · rintro ⟨hlock, hread, hversion, hconfig⟩
      refine ⟨_, hlock, Option.filter_eq_some_iff.mpr ⟨hread, ?_⟩⟩
      simp [hversion, hconfig]
  · rename_i hmay
    exact iff_of_false nofun fun hall => hmay hall.1

/-- The entry-points of a manifest, if there is one and each is what it was. -/
def restore (configuration : Configuration) (basePath manifestPath : String)
    (manifest? : Option Manifest) : Run (Option (List EntryPoint)) :=
  match manifest? with
  | some manifest => restoreEntryPoints configuration basePath manifestPath manifest.entryPoints
  | none => return none

/-- Entries of a manifest whose folders are not behind a link at one of some places. -/
def FileTree.EntriesAside (tree : FileTree) (places : List (List String))
    (summaries : List EntryPointSummary) : Prop :=
  ∀ summary ∈ summaries, tree.FolderAside places summary.packagePath
    ∧ tree.FolderAside places summary.entryPointPath

theorem FileTree.exists_of_readText {tree : FileTree} {path text : String}
    (hread : tree.readText path = .ok text) : tree.exists? path = true := by
  obtain ⟨contents, hcontents, _⟩ := readText_eq_ok_iff.mp hread
  obtain ⟨way, hlookup⟩ := readBytes_eq_ok_iff.mp hcontents
  exact exists?_iff.mpr ⟨_, hlookup⟩

/-! ## Lock files -/

/-- Folders of installed packages have the name of such. -/
theorem exists_front_of_mayHaveManifest {basePath : String} (hnormal : Normal basePath)
    (hmay : mayHaveManifest basePath = true) :
    ∃ front, namesOf basePath = front ++ ["node_modules"] ∧ Path.dirname basePath = pathOf front := by
  have hname : Path.basename basePath none = "node_modules" := beq_iff_eq.mp hmay
  have hclean := hnormal.clean.trans hnormal.eq_pathOf
  rcases List.eq_nil_or_concat' (namesOf basePath) with hnil | ⟨front, name, hnames⟩
  · exfalso
    rw [hnormal.eq_pathOf, hnil] at hname
    exact absurd hname (by decide)
  · rw [hnames] at hclean
    have hplain : Plain name.toList :=
      hnormal.spelled.plain name (hnames ▸ List.mem_append_right _ (List.mem_singleton_self name))
    rw [FileTree.basename_of_clean hclean hplain] at hname
    subst hname
    exact ⟨front, hnames, FileTree.dirname_of_clean hclean hplain⟩

section

variable {places : List (List String)} {start tree : FileTree} {configuration : Configuration}
variable (h : start.ManifestPlaces places) (apart : start.EntryPointsApart places configuration)
variable (agree : AgreeOutside places start tree)
include h agree

theorem lockFileHash?_eq {basePath : String} (hnormal : Normal basePath)
    (hbase : start.Unlinked places (namesOf basePath)) (hmay : mayHaveManifest basePath = true) :
    tree.lockFileHash? basePath = start.lockFileHash? basePath := by
  obtain ⟨front, hnames, hdirname⟩ := exists_front_of_mayHaveManifest hnormal hmay
  have hspelled : Spelled front := (hnames ▸ hnormal.spelled).of_append
  have hread : ∀ name, Plain name.toList → OtherName name →
      tree.readBytes (start.resolve [pathOf front, name])
        = start.readBytes (start.resolve [pathOf front, name]) := by
    intro name hplain hother
    have hfolder : start.Unlinked places front := (hnames ▸ hbase).of_append
    have haside := h.aside_concat hfolder hother
    have hpath : namesOf (start.resolve [pathOf front, name]) = front ++ [name] := by
      rw [start.resolve_name (FileTree.isRooted_pathOf front) hplain,
        FileTree.namesOf_join_name (FileTree.isRooted_pathOf front) hplain,
        FileTree.clean_pathOf hspelled, FileTree.namesOf_pathOf hspelled.plain]
    exact (agree.looksAlike h.toSecluded (hpath ▸ haside) true).readBytes_eq
  have hyarn := hread "yarn.lock" (by decide) (by decide)
  have hpackage := hread "package-lock.json" (by decide) (by decide)
  simp only [FileTree.lockFileHash?, lockFileNames, hdirname, agree.resolve_eq,
    List.findSome?_cons, List.findSome?_nil, hyarn, hpackage]

/-! ## Entries -/

include apart

/-- What comes of the entries of a manifest is the same in both trees. -/
theorem alike_restoreEntryPoints (basePath manifestPath : String)
    {summaries : List EntryPointSummary} (haside : start.EntriesAside places summaries) :
    Run.Alike (Session.Since start places configuration) tree start
      (fun found => ∀ entryPoints, found = some entryPoints →
        ∀ entryPoint ∈ entryPoints, Inspected places start configuration entryPoint)
      (restoreEntryPoints configuration basePath manifestPath summaries)
      (restoreEntryPoints configuration basePath manifestPath summaries) := by
  have hrefuse : ∀ summary, Run.Alike (Session.Since start places configuration) tree start
      (fun found => ∀ entryPoints, found = some entryPoints →
        ∀ entryPoint ∈ entryPoints, Inspected places start configuration entryPoint)
      (restoreEntryPoints.refuse basePath manifestPath summary)
      (restoreEntryPoints.refuse basePath manifestPath summary) := fun summary =>
    (Run.alike_say Session.Since.of_log _ _ _ _).bind fun _ _ => Run.alike_pure nofun
  induction summaries with
  | nil =>
    refine Run.alike_pure fun entryPoints hfound => ?_
    cases hfound
    exact fun _ hmem => absurd hmem List.not_mem_nil
  | cons summary rest ih =>
    obtain ⟨hpackage, hfolder⟩ := haside summary List.mem_cons_self
    rw [restoreEntryPoints]
    refine (alike_inspect h apart agree hpackage hfolder).bind fun inspection hinspection => ?_
    split
    · rename_i entryPoint hfound
      split
      · refine (ih fun other hother => haside other (List.mem_cons_of_mem _ hother)).bind
          fun others hothers => ?_
        cases others with
        | none => exact Run.alike_pure nofun
        | some others =>
          refine Run.alike_pure fun entryPoints hall => ?_
          cases hall
          exact List.forall_mem_cons.mpr ⟨(hinspection entryPoint hfound).2.2, hothers others rfl⟩
      · exact hrefuse summary
    · exact hrefuse summary

/-- **What is read from a manifest is the same in all trees with this manifest.** -/
theorem alike_readManifest {basePath : String}
    (haside : ∀ manifest, tree.currentManifest? configuration basePath = some manifest →
      start.EntriesAside places manifest.entryPoints) :
    Run.Alike (Session.Since start places configuration) tree start
      (fun found => ∀ entryPoints, found = some entryPoints →
        ∀ entryPoint ∈ entryPoints, Inspected places start configuration entryPoint)
      (readManifest configuration basePath)
      (restore configuration basePath (start.manifestPath basePath)
        (tree.currentManifest? configuration basePath)) := by
  have hsay : ∀ session log, Session.Since start places configuration session →
      Session.Since start places configuration { session with log := log } :=
    Session.Since.of_log
  unfold readManifest
  cases hcurrent : tree.currentManifest? configuration basePath with
  | none =>
    have hnone : Run.Alike (Session.Since start places configuration) tree start
        (fun found : Option (List EntryPoint) => ∀ entryPoints, found = some entryPoints →
          ∀ entryPoint ∈ entryPoints, Inspected places start configuration entryPoint)
        (pure none) (restore configuration basePath (start.manifestPath basePath) none) :=
      Run.alike_pure nofun
    split
    · exact hnone
    rename_i hmay
    refine Run.Alike.tree_left ?_
    dsimp only
    split
    · rename_i lockHash hlock
      split
      · exact hnone
      split
      · rename_i manifest hread
        split
        · exact hnone.say_left hsay _ _
        · -- otherwise the manifest would be a current one
          rename_i hsame
          simp only [Bool.or_eq_true, bne_iff_ne, not_or, Decidable.not_not] at hsame
          obtain ⟨⟨hversion, hconfig⟩, rfl⟩ := hsame
          have hsome := FileTree.currentManifest?_eq_some.mpr
            ⟨by simpa using hmay, hlock, hread, hversion, hconfig⟩
          rw [hcurrent] at hsome
          cases hsome
      · exact hnone.say_left hsay _ _
    · exact hnone.say_left hsay _ _
  | some manifest =>
    obtain ⟨hmay, hlock, hread, hversion, hconfig⟩ := FileTree.currentManifest?_eq_some.mp hcurrent
    obtain ⟨text, htext, _⟩ := Option.bind_eq_some_iff.mp hread
    have hexists : tree.exists? (tree.manifestPath basePath) = true := by
      cases hok : tree.readText (tree.manifestPath basePath) with
      | error cause => rw [hok] at htext; cases htext
      | ok found => exact FileTree.exists_of_readText hok
    have hcurrent' : (manifest.version != toolVersion || manifest.configHash != configuration.hash
        || manifest.lockHash != manifest.lockHash) = false := by
      simp [hversion, hconfig]
    simp only [hmay, Bool.not_true, Bool.false_eq_true, if_false]
    refine Run.Alike.tree_left ?_
    simp only [hlock, hexists, hread, hcurrent', Bool.not_true, Bool.false_eq_true, if_false]
    refine Run.Alike.say_left hsay ?_ _ _
    have hpath : tree.manifestPath basePath = start.manifestPath basePath := agree.resolve_eq _
    rw [hpath, restore]
    refine (alike_restoreEntryPoints h apart agree basePath _ (haside manifest hcurrent)).bind_left
      fun found hfound => ?_
    cases found with
    | none => exact Run.alike_pure nofun
    | some entryPoints => exact (Run.alike_pure hfound).say_left hsay _ _

omit agree in
/-- **The manifest of entry-points that were found gives these.** -/
theorem restore_found (basePath manifestPath : String) {entryPoints : List EntryPoint}
    (hfound : ∀ entryPoint ∈ entryPoints, Inspected places start configuration entryPoint)
    {session : Session} (hsince : session.Since start places configuration)
    (htree : session.tree = start) :
    (restoreEntryPoints configuration basePath manifestPath
      (entryPoints.map EntryPointSummary.ofEntryPoint)).valueFrom session
        = some (some entryPoints) := by
  induction entryPoints generalizing session with
  | nil => rfl
  | cons entryPoint rest ih =>
    have hinspected := hfound entryPoint List.mem_cons_self
    have hend := alike_inspect h apart h.agree_refl hinspected.packageFolder hinspected.folder session
      { tree := start } hsince htree (Session.since_of_agree h.agree_refl) rfl
    have hinspect := hend.value.trans hinspected.again
    have hrest := ih (fun other hother => hfound other (List.mem_cons_of_mem _ hother)) hend.kind.1
      hend.tree.1
    have hsummary : (EntryPointSummary.ofEntryPoint entryPoint).packagePath = entryPoint.packagePath
        ∧ (EntryPointSummary.ofEntryPoint entryPoint).entryPointPath = entryPoint.path := ⟨rfl, rfl⟩
    rw [List.map_cons, restoreEntryPoints, hsummary.1, hsummary.2, Run.valueFrom_bind, hinspect,
      Option.bind_some]
    dsimp only [Inspection.entryPoint?]
    rw [if_pos rfl, Run.valueFrom_bind, hrest]
    rfl

end

end PackageOrder
