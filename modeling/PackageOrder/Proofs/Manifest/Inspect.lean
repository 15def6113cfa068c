/-
PackageOrder.Proofs.Manifest.Inspect — what a folder is as an entry-point, whether its
manifests are there or not.

Package descriptions and configurations are read from files with names of their own.
So two trees that differ by manifests only have the same packages, as long as no
package description and no configuration names a manifest (`EntryPointsApart`).

Package configurations are remembered under the folder and the version of the package.
A version without an `@` leaves no doubt about which (`configKey_inj`), so what is
remembered is what would be read anew (`Session.Since`).
-/
import Mathlib.Data.Option.Basic
import PackageOrder.Proofs.EntryPoint.Marker
import PackageOrder.Proofs.FileTree.Check
import PackageOrder.Proofs.Json.Nesting
import PackageOrder.Proofs.Lookup
import PackageOrder.Proofs.Manifest.Places
import PackageOrder.Proofs.TwoRuns

namespace PackageOrder

open PackageOrder.Text
open PackageOrder.Json (Members Value)
open PackageOrder.FileTree (namesOf AgreeOutside ManifestPlaces)

/-! ## Packages of a tree -/

/-- The name and the version of the package in a folder. -/
def FileTree.packageAt (tree : FileTree) (packagePath : String) : String × Option String :=
  packageNameAndVersion packagePath
    (tree.packageJson? (tree.resolve [packagePath, "package.json"]))

/-- The configuration of the package in a folder, if it can be read. -/
def Configuration.configAt? (configuration : Configuration) (tree : FileTree)
    (packagePath : String) : Option PackageConfig :=
  (configuration.compute (tree.packageAt packagePath).1 packagePath
    (tree.packageAt packagePath).2).valueFrom { tree := tree }

/-- The properties of a package description that name files. -/
def fileProperties : List String :=
  "typings" :: "types" :: FormatProperty.all.map FormatProperty.name

/-- The declaration file that is looked for beside a bundle. -/
def declarationBeside (field : String) : String :=
  match dropTail? ".js".toList field.toList with
  | some stem => String.ofList stem ++ ".d.ts"
  | none => field

/-- A folder whose description and configuration are not behind a link at one of some
places. -/
structure FileTree.FolderAside (places : List (List String)) (tree : FileTree) (folder : String) :
    Prop where
  packageJson : tree.Unlinked places (namesOf (tree.resolve [folder, "package.json"]))
  configFile : tree.Unlinked places (namesOf (Path.join folder [configFileName]))

/-- Members of a package description that lead to none of some places, seen from a
folder. -/
def FileTree.MembersApart (tree : FileTree) (places : List (List String)) (folder : String)
    (members : Members) : Prop :=
  ∀ key ∈ fileProperties, ∀ text, (key, Value.string text) ∈ members →
    tree.Aside places (namesOf (tree.resolve [folder, text]))
      ∧ tree.Aside places (namesOf (tree.resolve [folder, declarationBeside text]))

/-- No package description, no configuration and no name of a script leads to one of some
places, and no version of a package has an `@`. -/
structure FileTree.EntryPointsApart (places : List (List String)) (tree : FileTree)
    (configuration : Configuration) : Prop where
  described : ∀ folder json, tree.FolderAside places folder →
    tree.packageJson? (tree.resolve [folder, "package.json"]) = some json →
    tree.MembersApart places folder json
  configured : ∀ packagePath config, tree.FolderAside places packagePath →
    configuration.configAt? tree packagePath = some config →
    ∀ folder own overrides, tree.FolderAside places folder → (folder, own) ∈ config.entryPoints →
      own.overrides = some overrides → tree.MembersApart places folder overrides
  scripts : ∀ folder stem, tree.Unlinked places (namesOf folder) →
    tree.linkStat (tree.resolve [folder, stem ++ ".js"]) = .ok .file →
    tree.Unlinked places (namesOf folder ++ [stem])
  versions : ∀ packagePath version, (tree.packageAt packagePath).2 = some version →
    '@' ∉ version.toList

/-! ## Package descriptions -/

theorem mem_of_text? {members : Members} {key text : String}
    (h : PackageJson.text? members key = some text) : (key, Value.string text) ∈ members := by
  obtain ⟨value, hvalue, htext⟩ := Option.bind_eq_some_iff.mp h
  obtain ⟨before, after, rfl, _⟩ := List.lookup_eq_some_iff.mp hvalue
  cases value with
  | string found =>
    cases htext
    exact List.mem_append_right _ List.mem_cons_self
  | _ => cases htext

/-- What a configuration puts in place of parts of a description is all that is new. -/
theorem mem_mergeConfig {json overrides : Option PackageJson} {packagePath entryPointPath : String}
    {entry : String × Value} (h : entry ∈ mergeConfig json overrides packagePath entryPointPath) :
    entry ∈ overrides.getD [] ∨ entry ∈ json.getD [] ∨ entry.1 = "name" := by
  unfold mergeConfig at h
  simp only [Json.Members.insert_eq_insertPair] at h
  rcases mem_foldl_insertPair h with ⟨own, hmem, rfl⟩ | hmem
  · exact Or.inl hmem
  · cases json with
    | none => exact Or.inr (Or.inr (congrArg Prod.fst (List.mem_singleton.mp hmem)))
    | some members => exact Or.inr (Or.inl hmem)

theorem FileTree.membersApart_mergeConfig {tree : FileTree} {places : List (List String)}
    {folder packagePath entryPointPath : String} {json overrides : Option PackageJson}
    (hjson : ∀ members, json = some members → tree.MembersApart places folder members)
    (hoverrides : ∀ members, overrides = some members → tree.MembersApart places folder members) :
    tree.MembersApart places folder (mergeConfig json overrides packagePath entryPointPath) := by
  intro key hkey text hmem
  rcases mem_mergeConfig hmem with hmem | hmem | hname
  · cases overrides with
    | none => cases hmem
    | some members => exact hoverrides members rfl key hkey text hmem
  · cases json with
    | none => cases hmem
    | some members => exact hjson members rfl key hkey text hmem
  · change key = "name" at hname
    subst hname
    exact absurd hkey (by decide)

theorem FileTree.guessTypings?_eq (tree : FileTree) (folder : String) (json : PackageJson) :
    tree.guessTypings? folder json = FormatProperty.all.findSome? fun property =>
      (json.formatPath? property).bind fun field =>
        if tree.exists? (tree.resolve [folder, declarationBeside field])
          then some (tree.resolve [folder, declarationBeside field]) else none := rfl

/-! ## Reading packages -/

section Reading

variable {places : List (List String)} {start tree : FileTree} {configuration : Configuration}

theorem FileTree.AgreeOutside.resolve_eq (agree : AgreeOutside places start tree)
    (parts : List String) : tree.resolve parts = start.resolve parts := by
  rw [FileTree.resolve, agree.workingDir, FileTree.resolve]

theorem FileTree.MembersApart.aside_declarationBeside {folder : String} {json : PackageJson}
    (hfiles : start.MembersApart places folder json) {property : FormatProperty} {field : String}
    (hfield : json.formatPath? property = some field) :
    start.Aside places (namesOf (start.resolve [folder, declarationBeside field])) := by
  refine (hfiles property.name ?_ field (mem_of_text? hfield)).2
  exact List.mem_cons_of_mem _ (List.mem_cons_of_mem _
    (List.mem_map_of_mem (FormatProperty.mem_all property)))

/-- The types of an entry-point are none of the places. -/
theorem FileTree.MembersApart.aside_typings {folder typings : String} {json : PackageJson}
    (hfiles : start.MembersApart places folder json)
    (htypings : start.typings? folder json = some typings) :
    start.Aside places (namesOf typings) := by
  unfold FileTree.typings? at htypings
  split at htypings
  · rename_i text htext
    cases htypings
    rcases (Option.orElse_eq_some _ _ _).mp htext with htext | ⟨_, htext⟩
    · exact (hfiles "typings" (by decide) text (mem_of_text? htext)).1
    · exact (hfiles "types" (by decide) text (mem_of_text? htext)).1
  · rw [FileTree.guessTypings?_eq] at htypings
    obtain ⟨property, _, hproperty⟩ := List.exists_of_findSome?_eq_some htypings
    obtain ⟨field, hfield, hbeside⟩ := Option.bind_eq_some_iff.mp hproperty
    split at hbeside
    · obtain rfl := Option.some.inj hbeside
      exact hfiles.aside_declarationBeside hfield
    · cases hbeside

namespace FileTree.ManifestPlaces

variable (h : start.ManifestPlaces places) (agree : AgreeOutside places start tree)
include h agree

theorem exists?_eq {path : String} (hpath : start.Aside places (namesOf path)) :
    tree.exists? path = start.exists? path :=
  (agree.looksAlike h.toSecluded hpath true).exists?_eq

theorem readText_eq {path : String} (hpath : start.Aside places (namesOf path)) :
    tree.readText path = start.readText path :=
  (agree.looksAlike h.toSecluded hpath true).readText_eq

theorem isFile_eq {path : String} (hpath : start.Aside places (namesOf path)) :
    tree.isFile path = start.isFile path :=
  (agree.looksAlike h.toSecluded hpath true).isFile_eq

omit agree in
theorem aside_packageJson {folder : String} (hfolder : start.FolderAside places folder) :
    start.Aside places (namesOf (start.resolve [folder, "package.json"])) :=
  h.aside_resolve [folder] (by decide) (by decide) hfolder.packageJson

omit agree in
theorem aside_configFile {folder : String} (hfolder : start.FolderAside places folder) :
    start.Aside places (namesOf (Path.join folder [configFileName])) :=
  h.aside_join folder (by decide) (by decide) (by decide) hfolder.configFile

theorem packageJson?_eq {folder : String} (hfolder : start.FolderAside places folder) :
    tree.packageJson? (start.resolve [folder, "package.json"])
      = start.packageJson? (start.resolve [folder, "package.json"]) := by
  rw [packageJson?, packageJson?, h.readText_eq agree (h.aside_packageJson hfolder)]

theorem packageAt_eq {packagePath : String} (hfolder : start.FolderAside places packagePath) :
    tree.packageAt packagePath = start.packageAt packagePath := by
  rw [packageAt, packageAt, agree.resolve_eq, h.packageJson?_eq agree hfolder]

theorem typings?_eq {folder : String} {json : PackageJson}
    (hfiles : start.MembersApart places folder json) :
    tree.typings? folder json = start.typings? folder json := by
  have hguess : tree.guessTypings? folder json = start.guessTypings? folder json := by
    rw [guessTypings?_eq, guessTypings?_eq]
    generalize FormatProperty.all = properties
    refine congrArg (fun found => properties.findSome? found) (funext fun property => ?_)
    cases hfield : json.formatPath? property with
    | none => rw [Option.bind_none, Option.bind_none]
    | some field =>
      have hdeclared := hfiles.aside_declarationBeside hfield
      rw [Option.bind_some, Option.bind_some, agree.resolve_eq, h.exists?_eq agree hdeclared]
  unfold typings?
  rw [hguess]
  cases json.text? "typings" <|> json.text? "types" with
  | none => rfl
  | some typings => exact congrArg some (agree.resolve_eq _)

omit agree in
theorem aside_metadataPath {typings : String} (h' : start.Aside places (namesOf typings)) :
    start.Aside places (namesOf (metadataPath typings)) := by
  unfold metadataPath
  cases hstem : dropTail? ".d.ts".toList typings.toList with
  | none =>
    rw [Option.getD_none, String.ofList_toList]
    exact h.aside_append h'.unlinked (by decide)
  | some stem =>
    have htypings : typings = String.ofList stem ++ ".d.ts" := by
      rw [← String.toList_inj, String.toList_append, String.toList_ofList]
      exact dropTail?_eq_some hstem
    rw [Option.getD_some]
    rw [htypings] at h'
    exact h.aside_append_other (by decide) (by decide) h'.unlinked (by decide)

end FileTree.ManifestPlaces

/-! ## Package configurations -/

/-- A session of a run that began with a tree: what changed since are manifests, and the
configurations that are remembered are those of packages that were there. -/
structure Session.Since (start : FileTree) (places : List (List String))
    (configuration : Configuration) (session : Session) : Prop where
  agree : AgreeOutside places start session.tree
  remembered : ∀ key config, session.configs.lookup key = some config → ∃ packagePath,
    key = configKey packagePath (start.packageAt packagePath).2
      ∧ configuration.configAt? start packagePath = some config

theorem Session.Since.of_log (session : Session) (log : Log)
    (h : session.Since start places configuration) :
    ({ session with log := log } : Session).Since start places configuration :=
  ⟨h.agree, h.remembered⟩

/-- A session in which nothing is remembered. -/
theorem Session.since_of_agree (agree : AgreeOutside places start tree) :
    ({ tree := tree } : Session).Since start places configuration :=
  ⟨agree, fun _ _ hfound => nomatch hfound⟩

variable (h : start.ManifestPlaces places)
include h

theorem FileTree.ManifestPlaces.agree_refl : AgreeOutside places start start :=
  AgreeOutside.refl h.wellFormed.sensitive fun _ hplace => h.toSecluded.closed hplace

theorem Configuration.alike_compute (agree : AgreeOutside places start tree)
    {kind : Session → Prop} (packageName : String) {packagePath : String}
    (hfolder : start.FolderAside places packagePath) (version : Option String) :
    Run.Alike kind tree start (fun _ => True)
      (configuration.compute packageName packagePath version)
      (configuration.compute packageName packagePath version) := by
  have hwritten : Run.Alike kind tree start (fun _ => True)
      (configuration.written? packageName packagePath version)
      (configuration.written? packageName packagePath version) := by
    unfold written?
    split
    · exact Run.alike_pure trivial
    · refine Run.alike_tree ?_
      have hfile := h.aside_configFile hfolder
      have hread : (tree.readText (Path.join packagePath [configFileName])).toOption
          = (start.readText (Path.join packagePath [configFileName])).toOption := by
        rw [h.readText_eq agree hfile]
      rw [h.exists?_eq agree hfile]
      split
      · refine (Run.alike_readWith _ (·.readText _) hread).bind fun text _ => ?_
        split
        · exact Run.alike_pure trivial
        · exact Run.alike_throw _ _
      · exact Run.alike_pure trivial
  refine hwritten.bind fun found _ => ?_
  split
  · exact Run.alike_pure trivial
  · refine Run.alike_tree ?_
    have hprepare : ∀ range config, prepare tree packagePath range config
        = prepare start packagePath range config := by
      intro range config
      unfold prepare
      simp only [agree.resolve_eq]
    rw [hprepare]
    split
    · exact Run.alike_pure trivial
    · exact Run.alike_throw _ _

variable (apart : start.EntryPointsApart places configuration)
include apart

/-- **The configuration of a package is what it was at the start**, whether it is
remembered or read anew. -/
theorem Configuration.runFrom_forPackage_since {session : Session}
    (hsince : session.Since start places configuration) {packagePath : String}
    (hfolder : start.FolderAside places packagePath) :
    (configuration.forPackage (start.packageAt packagePath).1 packagePath
        (start.packageAt packagePath).2).valueFrom session = configuration.configAt? start packagePath
      ∧ ((configuration.forPackage (start.packageAt packagePath).1 packagePath
        (start.packageAt packagePath).2).runFrom session).2.Since start places configuration
      ∧ ((configuration.forPackage (start.packageAt packagePath).1 packagePath
        (start.packageAt packagePath).2).runFrom session).2.tree = session.tree := by
  rw [Run.valueFrom, runFrom_forPackage]
  cases hlookup : session.configs.lookup
      (packagePath ++ "@" ++ (start.packageAt packagePath).2.getD "") with
  | some config =>
    obtain ⟨other, hkey, hconfig⟩ := hsince.remembered _ _ hlookup
    have hsame : packagePath = other :=
      configKey_inj (apart.versions packagePath) (apart.versions other) hkey
    rw [hsame, hconfig]
    exact ⟨rfl, hsince, rfl⟩
  | none =>
    have hvalue : (configuration.compute (start.packageAt packagePath).1 packagePath
        (start.packageAt packagePath).2).valueFrom session
          = configuration.configAt? start packagePath :=
      (configuration.alike_compute h hsince.agree (start.packageAt packagePath).1 hfolder
        (start.packageAt packagePath).2 session { tree := start } hsince rfl
        (Session.since_of_agree h.agree_refl) rfl).value
    rw [Run.valueFrom] at hvalue
    dsimp only
    rcases hrun : ((configuration.compute (start.packageAt packagePath).1 packagePath
      (start.packageAt packagePath).2).runFrom session).1 with failure | config
    · rw [hrun] at hvalue
      exact ⟨hvalue, hsince, rfl⟩
    · rw [hrun] at hvalue
      refine ⟨hvalue, ⟨hsince.agree, fun key found hfound => ?_⟩, rfl⟩
      rw [List.lookup_cons] at hfound
      split at hfound
      · rename_i hkey
        cases hfound
        exact ⟨packagePath, beq_iff_eq.mp hkey, hvalue.symm⟩
      · exact hsince.remembered key found hfound

theorem Configuration.alike_forPackage {packagePath : String}
    (hfolder : start.FolderAside places packagePath) :
    Run.Alike (Session.Since start places configuration) tree start
      (configuration.configAt? start packagePath = some ·)
      (configuration.forPackage (start.packageAt packagePath).1 packagePath
        (start.packageAt packagePath).2)
      (configuration.forPackage (start.packageAt packagePath).1 packagePath
        (start.packageAt packagePath).2) := by
  rintro session session' hsince rfl hsince' rfl
  obtain ⟨hvalue, hkind, htree⟩ :=
    configuration.runFrom_forPackage_since h apart hsince hfolder
  obtain ⟨hvalue', hkind', htree'⟩ :=
    configuration.runFrom_forPackage_since h apart hsince' hfolder
  exact ⟨hvalue.trans hvalue'.symm, fun _ hfound => hvalue ▸ hfound, ⟨hkind, hkind'⟩, htree, htree'⟩

/-! ## Entry-points -/

/-- What is known of an entry-point that was found: it belongs to the package in its
folder, and none of its files is in one of the places. -/
structure Described (places : List (List String)) (start : FileTree) (entryPoint : EntryPoint) :
    Prop where
  packageFolder : start.FolderAside places entryPoint.packagePath
  folder : start.FolderAside places entryPoint.path
  package : start.packageAt entryPoint.packagePath
    = (entryPoint.packageName, entryPoint.packageVersion)
  files : start.MembersApart places entryPoint.path entryPoint.packageJson
  typings : start.typings? entryPoint.path entryPoint.packageJson = some entryPoint.typings

/-- An entry-point that is found at the start where it was found. -/
structure Inspected (places : List (List String)) (start : FileTree)
    (configuration : Configuration) (entryPoint : EntryPoint) : Prop
    extends Described places start entryPoint where
  again : (inspect configuration entryPoint.packagePath entryPoint.path).valueFrom { tree := start }
    = some (.found entryPoint)

/-- What comes of a folder in a package: an entry-point in that folder, if anything. -/
def FoundAt (packagePath entryPointPath : String) (known : EntryPoint → Prop)
    (inspection : Inspection) : Prop :=
  ∀ entryPoint, inspection.entryPoint? = some entryPoint →
    entryPoint.packagePath = packagePath ∧ entryPoint.path = entryPointPath ∧ known entryPoint

omit apart in
/-- What comes of the types of an entry-point is alike, if they are looked for in the same
members, which lead to none of the places. -/
theorem alike_typings (agree : AgreeOutside places start tree) {packagePath entryPointPath : String}
    {json : PackageJson} (hfiles : start.MembersApart places entryPointPath json)
    {next next' : String → Run Inspection}
    (hnext : start.MembersApart places entryPointPath json → ∀ typings,
      start.typings? entryPointPath json = some typings →
      Run.Alike (Session.Since start places configuration) tree start
        (FoundAt packagePath entryPointPath (Described places start)) (next typings) (next' typings)) :
    Run.Alike (Session.Since start places configuration) tree start
      (FoundAt packagePath entryPointPath (Described places start))
      (match tree.typings? entryPointPath json with
        | none => return .invalid
        | some typings => next typings)
      (match start.typings? entryPointPath json with
        | none => return .invalid
        | some typings => next' typings) := by
  rw [h.typings?_eq agree hfiles]
  split
  · exact Run.alike_pure fun _ hfound => nomatch hfound
  · rename_i typings htypings
    exact hnext hfiles typings htypings

theorem alike_inspect_described (agree : AgreeOutside places start tree)
    {packagePath entryPointPath : String} (hpackage : start.FolderAside places packagePath)
    (hfolder : start.FolderAside places entryPointPath) :
    Run.Alike (Session.Since start places configuration) tree start
      (FoundAt packagePath entryPointPath (Described places start))
      (inspect configuration packagePath entryPointPath)
      (inspect configuration packagePath entryPointPath) := by
  unfold inspect
  refine Run.alike_tree ?_
  have hversion : packageNameAndVersion packagePath
      (tree.packageJson? (tree.resolve [packagePath, "package.json"]))
        = start.packageAt packagePath := h.packageAt_eq agree hpackage
  have hversion' : packageNameAndVersion packagePath
      (start.packageJson? (start.resolve [packagePath, "package.json"]))
        = start.packageAt packagePath := rfl
  dsimp only
  rw [hversion, hversion', agree.resolve_eq, h.packageJson?_eq agree hfolder]
  refine (configuration.alike_forPackage h apart hpackage).bind fun config hconfig => ?_
  split
  · exact Run.alike_pure fun _ hfound => nomatch hfound
  · rw [h.exists?_eq agree (h.aside_packageJson hfolder)]
    split
    · exact Run.alike_pure fun _ hfound => nomatch hfound
    · exact (Run.alike_say Session.Since.of_log _ _ _ _).bind fun _ _ =>
        Run.alike_pure fun _ hfound => nomatch hfound
  · have hdescribed := fun json => apart.described entryPointPath json hfolder
    generalize start.packageJson? (start.resolve [entryPointPath, "package.json"]) = described
      at hdescribed
    refine alike_typings h agree ?_ fun hfiles typings htypings => ?_
    · cases hown : config.entryPoint? entryPointPath with
      | none =>
        cases described with
        | none => exact fun _ _ _ hmem => absurd hmem List.not_mem_nil
        | some json => exact hdescribed json rfl
      | some own =>
        obtain ⟨before, after, hentries, _⟩ := List.lookup_eq_some_iff.mp hown
        have hmem : (entryPointPath, own) ∈ config.entryPoints :=
          hentries ▸ List.mem_append_right _ List.mem_cons_self
        exact FileTree.membersApart_mergeConfig hdescribed fun overrides hoverrides =>
          apart.configured packagePath config hpackage hconfig entryPointPath own overrides hfolder hmem
            hoverrides
    · have hmetadata := h.aside_metadataPath (hfiles.aside_typings htypings)
      rw [h.exists?_eq agree hmetadata]
      refine Run.alike_pure fun _ hfound => ?_
      cases hfound
      refine ⟨rfl, rfl, hpackage, hfolder, ?_, hfiles, htypings⟩
      dsimp only

/-- **What a folder is as an entry-point is the same in both trees.** -/
theorem alike_inspect (agree : AgreeOutside places start tree) {packagePath entryPointPath : String}
    (hpackage : start.FolderAside places packagePath)
    (hfolder : start.FolderAside places entryPointPath) :
    Run.Alike (Session.Since start places configuration) tree start
      (FoundAt packagePath entryPointPath (Inspected places start configuration))
      (inspect configuration packagePath entryPointPath)
      (inspect configuration packagePath entryPointPath) := by
  refine ((alike_inspect_described h apart agree hpackage hfolder).known
    (Session.since_of_agree h.agree_refl) rfl).mono fun inspection hinspection entryPoint hfound => ?_
  obtain ⟨rfl, rfl, hdescribed⟩ := hinspection.1 entryPoint hfound
  refine ⟨rfl, rfl, hdescribed, ?_⟩
  rw [hinspection.2]
  cases inspection <;> cases hfound
  rfl

end Reading

end PackageOrder
