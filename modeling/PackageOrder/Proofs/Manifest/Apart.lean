/-
PackageOrder.Proofs.Manifest.Apart — projects in which nothing refers to manifests.

Manifests can only be told from other files by their names, so what a project says must
not lead to them (`Setup.ManifestsApart`). Where there are no links it is enough that no
text in the project ends with such a name or has imports, which can be computed
(`manifestsApart_of_harmless`).
-/
import PackageOrder.Options
import PackageOrder.Proofs.Manifest.BasePaths
import PackageOrder.Proofs.Manifest.Imports

namespace PackageOrder

open PackageOrder.Path (Plain)
open PackageOrder.Script (ModuleSyntax)
open PackageOrder.Json (Members Value)
open PackageOrder.FileTree (namesOf AgreeOutside ManifestPlaces)

/-- Where the manifests of a run and their drafts may be written. -/
def Setup.manifestPlaces (setup : Setup) (tree : FileTree) : List (List String) :=
  tree.manifestPlaces (tree.basePaths setup.basePath setup.mappings).1

/-- The configuration of a project, as a run reads it. -/
def Setup.configuration? (setup : Setup) (tree : FileTree) : Option Configuration :=
  (Configuration.load setup.projectPath).valueFrom { tree := tree }

/-- A well-formed tree in which nothing but the code for manifests refers to the places
of these: no link, package description, configuration, path mapping or import leads to
one, and no version of a package has an `@`. -/
structure Setup.ManifestsApart (setup : Setup) (tree : FileTree) : Prop where
  wellFormed : tree.WellFormed
  links : ∀ path next, tree.Redirects path next →
    tree.Aside (setup.manifestPlaces tree) (namesOf next)
  normal : Normal setup.basePath
  source : tree.Aside (setup.manifestPlaces tree) (namesOf setup.basePath)
  mappings : tree.MappingsApart (setup.manifestPlaces tree) setup.mappings
  project : tree.Unlinked (setup.manifestPlaces tree)
    (namesOf (Path.join setup.projectPath [configFileName]))
  packages : ∀ configuration, setup.configuration? tree = some configuration →
    tree.EntryPointsApart (setup.manifestPlaces tree) configuration
  imports : tree.ImportsApart (setup.manifestPlaces tree) setup.mappings
  listed : ∀ configuration, setup.configuration? tree = some configuration →
    ∀ basePath ∈ (tree.basePaths setup.basePath setup.mappings).1, ∀ manifest,
      tree.currentManifest? configuration basePath = some manifest →
      tree.EntriesAside (setup.manifestPlaces tree) manifest.entryPoints

/-! ## Texts that lead elsewhere -/

/-- Whether a text ends with a name that manifests do not have. -/
def leadsElsewhere (text : String) : Bool :=
  let last := Path.lastChars text.toList
  decide (Plain last) && decide (OtherName (.ofList last)) && last.head? != some ':'

/-- Whether the files in a package description are no manifests. -/
def membersElsewhere (members : Members) : Bool :=
  members.all fun (key, value) =>
    match value with
    | .string text =>
      !fileProperties.contains key || leadsElsewhere text && leadsElsewhere (declarationBeside text)
    | _ => true

/-- Whether the files in a configuration are no manifests. -/
def PackageConfigFile.elsewhere (file : PackageConfigFile) : Bool :=
  file.entryPoints.all fun (_, own) => own.overrides.all membersElsewhere

/-- A text that names no manifest, whatever it is read as, and has no imports. -/
structure Harmless (text : String) : Prop where
  description : ∀ json, (Json.parse? text).bind Value.object? = some json →
    membersElsewhere json = true ∧ ∀ version ∈ PackageJson.text? json "version",
      '@' ∉ version.toList
  config : ∀ file ∈ Json.decode? PackageConfigFile.decode text, file.elsewhere = true
  project : ∀ packages ∈ Json.decode? decodePackages text, ∀ package ∈ packages,
    package.2.elsewhere = true
  imports : ∀ modules, Script.canSkip modules text = true

instance (text : String) : Decidable (Harmless text) :=
  decidable_of_iff
    (((Json.parse? text).bind Value.object?).all (fun json => membersElsewhere json
        && decide (∀ version ∈ PackageJson.text? json "version", '@' ∉ version.toList)) = true
      ∧ (∀ file ∈ Json.decode? PackageConfigFile.decode text, file.elsewhere = true)
      ∧ (∀ packages ∈ Json.decode? decodePackages text, ∀ package ∈ packages,
        package.2.elsewhere = true)
      ∧ ∀ modules ∈ [ModuleSyntax.esm, .umd, .commonJs, .declarations],
        Script.canSkip modules text = true)
    (by
      constructor
      · rintro ⟨hdescription, hconfig, hproject, hskip⟩
        refine ⟨fun json hjson => ?_, hconfig, hproject, fun modules => hskip modules ?_⟩
        · rw [hjson] at hdescription
          simpa using hdescription
        · cases modules <;> decide
      · rintro ⟨hdescription, hconfig, hproject, hskip⟩
        refine ⟨?_, hconfig, hproject, fun modules _ => hskip modules⟩
        cases hjson : (Json.parse? text).bind Value.object? with
        | none => rfl
        | some json => simpa using hdescription json hjson)

/-- A well-formed tree without links and without a text that names a manifest. -/
def FileTree.harmless (tree : FileTree) : Bool :=
  tree.check
    && (Entity.folder tree.root).inside.all (fun entity => entity.kind != .link)
    && tree.texts.all fun text => decide (Harmless text)

namespace FileTree

variable {tree : FileTree}

/-- The last name of a text is the last name that it resolves to. -/
theorem exists_namesOf_resolve_last (hdir : Path.isRooted tree.workingDir = true)
    (parts : List String) {text : String} (hlast : Plain (Path.lastChars text.toList))
    (hcolon : (Path.lastChars text.toList).head? ≠ some ':') :
    ∃ front, namesOf (tree.resolve (parts ++ [text]))
      = front ++ [.ofList (Path.lastChars text.toList)] := by
  have hroot : tree.workingDir.toList.head? = some '/' := Path.head?_of_isRooted hdir
  have hbehind : ∀ path : List Char, ∃ base,
      Path.place path text.toList = base ++ '/' :: Path.lastChars text.toList := by
    intro path
    have hforward := Path.forwardChars_of_plain hlast
    cases hcut : Path.cutLast? text.toList with
    | none =>
      have htext : Path.lastChars text.toList = text.toList := by rw [Path.lastChars, hcut]
      rw [htext] at hlast ⊢
      exact ⟨path, Path.place_of_plain hlast path⟩
    | some cut =>
      obtain ⟨before, after⟩ := cut
      have hafter : Path.lastChars text.toList = after := by rw [Path.lastChars, hcut]
      rw [hafter] at hforward ⊢
      have htext : Path.forwardChars text.toList = Path.forwardChars before ++ '/' :: after := by
        rw [(Path.cutLast?_eq_some hcut).1, Path.forwardChars_append, Path.forwardChars_slash, hforward]
      rw [Path.place, htext]
      split
      · exact ⟨_, rfl⟩
      · rw [if_neg (List.append_ne_nil_of_right_ne_nil _ (List.cons_ne_nil _ _))]
        exact ⟨path ++ '/' :: Path.forwardChars before, by simp⟩
  obtain ⟨base, hbase⟩ := hbehind ((parts.map String.toList).foldl Path.place tree.workingDir.toList)
  rw [namesOf, resolve, Path.toList_resolve_concat, hbase]
  rcases Path.segments_clean_behind base (List.cons_ne_nil (Path.lastChars text.toList) [])
      (fun piece hpiece => List.mem_singleton.mp hpiece ▸ hlast) with
    ⟨before, hsegments⟩ | ⟨_, name, tail, hname, _⟩
  · refine ⟨before.map String.ofList, ?_⟩
    rw [Text.joinWith] at hsegments
    rw [hsegments, List.map_append, List.map_singleton]
  · rw [(List.cons.inj hname).1] at hcolon
    exact absurd rfl hcolon

/-- What leads elsewhere is none of the places, unless it is behind a link at one. -/
theorem ManifestPlaces.aside_of_leadsElsewhere {places : List (List String)}
    (h : tree.ManifestPlaces places) (hunlinked : ∀ names, tree.Unlinked places names)
    (folder : String) {text : String} (htext : leadsElsewhere text = true) :
    tree.Aside places (namesOf (tree.resolve [folder, text])) := by
  simp only [leadsElsewhere, Bool.and_eq_true, decide_eq_true_eq, bne_iff_ne] at htext
  obtain ⟨⟨hplain, hname⟩, hcolon⟩ := htext
  obtain ⟨front, hnames⟩ := exists_namesOf_resolve_last h.wellFormed.rooted [folder] hplain hcolon
  rw [List.singleton_append] at hnames
  rw [hnames]
  exact h.aside_concat (hunlinked front) hname

theorem ManifestPlaces.membersApart {places : List (List String)} (h : tree.ManifestPlaces places)
    (hunlinked : ∀ names, tree.Unlinked places names) (folder : String) {members : Members}
    (hmembers : membersElsewhere members = true) : tree.MembersApart places folder members := by
  intro key hkey text hmem
  have htext := List.all_eq_true.mp hmembers _ hmem
  simp only [List.contains_iff_mem.mpr hkey, Bool.not_true, Bool.false_or, Bool.and_eq_true]
    at htext
  exact ⟨h.aside_of_leadsElsewhere hunlinked folder htext.1,
    h.aside_of_leadsElsewhere hunlinked folder htext.2⟩

end FileTree

/-! ## Configurations -/

theorem builtinConfigs_elsewhere : ∀ config ∈ builtinConfigs, config.config.elsewhere = true := by
  decide

theorem findVersion?_elsewhere {configs : List VersionedConfig}
    (hconfigs : ∀ config ∈ configs, config.config.elsewhere = true) {packageName : String}
    {version : Option String} {found : VersionedConfig}
    (h : findVersion? configs packageName version = some found) : found.config.elsewhere = true :=
  hconfigs found (List.mem_of_find?_eq_some h)

namespace FileTree

variable {tree : FileTree}

theorem mem_texts_of_toOption (hcase : tree.caseSensitive = true) {path text : String}
    (h : (tree.readText path).toOption = some text) : text ∈ tree.texts := by
  cases hread : tree.readText path with
  | error cause =>
    rw [hread] at h
    cases h
  | ok found =>
    rw [hread] at h
    cases h
    exact mem_texts_of_readText hcase hread

/-- What is configured for an entry-point is what is written for it. -/
theorem mem_of_prepare {packagePath range : String} {file : PackageConfigFile}
    {config : PackageConfig}
    (h : Configuration.prepare tree packagePath range file = .ok config) {folder : String}
    {own : EntryPointConfig} (hown : (folder, own) ∈ config.entryPoints) :
    ∃ path, (path, own) ∈ file.entryPoints := by
  unfold Configuration.prepare at h
  simp only [bind, Except.bind] at h
  split at h
  · cases h
  · cases h
    obtain ⟨entry, hentry, heq⟩ :=
      (mem_foldl_insertPair hown).resolve_right List.not_mem_nil
    cases heq
    exact ⟨entry.1, hentry⟩

/-- What is written for a package leads elsewhere, if all that is written does. -/
theorem written_elsewhere (hcase : tree.caseSensitive = true)
    (htexts : ∀ text ∈ tree.texts, Harmless text) {configuration : Configuration}
    (hconfigs : ∀ config ∈ configuration.configs, config.config.elsewhere = true)
    {packageName packagePath range : String} {version : Option String} {file : PackageConfigFile}
    (h : (configuration.written? packageName packagePath version).valueFrom { tree := tree }
      = some (some (range, file))) : file.elsewhere = true := by
  unfold Configuration.written? at h
  split at h
  · rename_i found hfound
    cases h
    exact findVersion?_elsewhere hconfigs hfound
  · rw [Run.valueFrom, Run.runFrom_tree_bind _ rfl, ← Run.valueFrom] at h
    dsimp only at h
    split at h
    · rw [Run.valueFrom_bind, Run.valueFrom_readWith] at h
      obtain ⟨text, hread, hfile⟩ := Option.bind_eq_some_iff.mp h
      split at hfile
      · rename_i config hdecode
        cases hfile
        exact (htexts text (mem_texts_of_toOption hcase hread)).config _ hdecode
      · cases hfile
    · cases hfound : findVersion? builtinConfigs packageName version with
      | none =>
        rw [hfound] at h
        cases h
      | some found =>
        rw [hfound] at h
        cases h
        exact findVersion?_elsewhere builtinConfigs_elsewhere hfound

/-- The files that are configured for an entry-point are no manifests, if none that is
written is. -/
theorem overrides_elsewhere (hcase : tree.caseSensitive = true)
    (htexts : ∀ text ∈ tree.texts, Harmless text) {configuration : Configuration}
    (hconfigs : ∀ config ∈ configuration.configs, config.config.elsewhere = true)
    {packagePath folder : String} {config : PackageConfig} {own : EntryPointConfig}
    {overrides : Members} (h : configuration.configAt? tree packagePath = some config)
    (hown : (folder, own) ∈ config.entryPoints) (hoverrides : own.overrides = some overrides) :
    membersElsewhere overrides = true := by
  unfold Configuration.configAt? Configuration.compute at h
  rw [Run.valueFrom_bind] at h
  obtain ⟨written, hwritten, h⟩ := Option.bind_eq_some_iff.mp h
  split at h
  · cases h
    cases hown
  · rw [Run.valueFrom, Run.runFrom_tree_bind _ rfl, ← Run.valueFrom] at h
    split at h
    · rename_i hprepare
      cases h
      obtain ⟨path, hmem⟩ := mem_of_prepare hprepare hown
      have hall := List.all_eq_true.mp (written_elsewhere hcase htexts hconfigs hwritten) _ hmem
      dsimp only at hall
      rw [hoverrides] at hall
      exact hall
    · cases h

theorem configs_elsewhere (hcase : tree.caseSensitive = true)
    (htexts : ∀ text ∈ tree.texts, Harmless text) {setup : Setup} {configuration : Configuration}
    (h : setup.configuration? tree = some configuration) :
    ∀ config ∈ configuration.configs, config.config.elsewhere = true := by
  unfold Setup.configuration? Configuration.load at h
  rw [Run.valueFrom, Run.runFrom_tree_bind _ rfl, ← Run.valueFrom] at h
  dsimp only at h
  split at h
  · cases h
    intro config hmem
    cases hmem
  · rw [Run.valueFrom_bind, Run.valueFrom_readWith] at h
    obtain ⟨text, hread, h⟩ := Option.bind_eq_some_iff.mp h
    split at h
    · rename_i packages hdecode
      cases h
      intro config hmem
      obtain ⟨package, hpackage, rfl⟩ := List.mem_map.mp hmem
      exact (htexts text (mem_texts_of_toOption hcase hread)).project _ hdecode package hpackage
    · cases h

theorem description_of_packageJson? (hcase : tree.caseSensitive = true)
    (htexts : ∀ text ∈ tree.texts, Harmless text) {path : String} {json : PackageJson}
    (h : tree.packageJson? path = some json) :
    membersElsewhere json = true ∧ ∀ version ∈ json.text? "version", '@' ∉ version.toList := by
  unfold packageJson? at h
  split at h
  · rename_i text hread
    exact (htexts text (mem_texts_of_readText hcase hread)).description json h
  · cases h

/-- The version of a package is the one in its description. -/
theorem exists_json_of_version {packagePath version : String}
    (h : (tree.packageAt packagePath).2 = some version) :
    ∃ json, tree.packageJson? (tree.resolve [packagePath, "package.json"]) = some json
      ∧ version ∈ json.text? "version" := by
  unfold packageAt packageNameAndVersion at h
  split at h
  · rename_i found hfound
    obtain ⟨json, hjson, hname⟩ := Option.bind_eq_some_iff.mp hfound
    obtain ⟨name, _, rfl⟩ := Option.map_eq_some_iff.mp hname
    exact ⟨json, hjson, h⟩
  · cases h

theorem importsOfFile_eq_nil (hcase : tree.caseSensitive = true)
    (htexts : ∀ text ∈ tree.texts, Harmless text) (modules : ModuleSyntax) (file : String) :
    tree.importsOfFile modules file = [] := by
  unfold importsOfFile
  split
  · rename_i text hread
    rw [Script.extractImports,
      if_pos ((htexts text (mem_texts_of_readText hcase hread)).imports modules)]
  · rfl

theorem ManifestPlaces.entryPointsApart {places : List (List String)}
    (h : tree.ManifestPlaces places) (hunlinked : ∀ names, tree.Unlinked places names)
    (htexts : ∀ text ∈ tree.texts, Harmless text) {configuration : Configuration}
    (hconfigs : ∀ config ∈ configuration.configs, config.config.elsewhere = true) :
    tree.EntryPointsApart places configuration where
  described folder json _ hjson := h.membersApart hunlinked folder
    (description_of_packageJson? h.wellFormed.sensitive htexts hjson).1
  configured _ _ _ hconfig folder _ _ _ hown hoverrides := h.membersApart hunlinked folder
    (overrides_elsewhere h.wellFormed.sensitive htexts hconfigs hconfig hown hoverrides)
  scripts _ _ _ _ := hunlinked _
  versions _ version hversion := by
    obtain ⟨json, hjson, htext⟩ := exists_json_of_version hversion
    exact (description_of_packageJson? h.wellFormed.sensitive htexts hjson).2 version htext

/-- **A project is as it has to be** if there is no link in it, no path mapping and no text
that names a manifest. -/
theorem manifestsApart_of_harmless {setup : Setup} (h : tree.harmless = true)
    (hnormal : Normal setup.basePath) (hmappings : setup.mappings = none) :
    setup.ManifestsApart tree := by
  simp only [harmless, Bool.and_eq_true, List.all_eq_true, bne_iff_ne, decide_eq_true_eq] at h
  obtain ⟨⟨hcheck, hkinds⟩, htexts⟩ := h
  have hwell := (wellFormed_of_check hcheck).1
  have hnone : ∀ names target, tree.entityAt names ≠ some (.link target) :=
    fun names target hat => hkinds _ (mem_inside_of_entityAt hat) rfl
  have hunlinked : ∀ names, tree.Unlinked (setup.manifestPlaces tree) names :=
    fun names place _ target hat => absurd hat (hnone place target)
  have hlinks : ∀ path next, ¬ tree.Redirects path next := by
    intro path next hredirects
    obtain ⟨front, _, target, _, hat, _⟩ :=
      exists_link_of_redirects hwell.sensitive hredirects
    exact hnone front target hat
  have hplaces : tree.ManifestPlaces (setup.manifestPlaces tree) :=
    manifestPlaces_secluded hwell (fun _ => normal_of_mem_basePaths hwell hnormal)
      fun path next hredirects => absurd hredirects (hlinks path next)
  have hsource : namesOf setup.basePath ∉ setup.manifestPlaces tree := by
    intro hmem
    obtain ⟨_, basePath, hbase, _, hplace⟩ := mem_manifestPlaces.mp hmem
    rw [hmappings] at hbase
    obtain rfl := (mem_basePaths hbase).resolve_right fun ⟨_, htable, _⟩ => nomatch htable
    -- the only base path is the source folder, and its manifest has a name more
    rw [namesOf_manifestPath hnormal, namesOf_manifestDraftPath hnormal] at hplace
    rcases hplace with hplace | hplace
    all_goals simpa using congrArg List.length hplace
  have hnoImport : ∀ modules file specifier, specifier ∉ tree.importsOfFile modules file := by
    intro modules file specifier hmem
    rw [importsOfFile_eq_nil hwell.sensitive htexts] at hmem
    cases hmem
  exact
    { wellFormed := hwell
      links := fun path next hredirects => absurd hredirects (hlinks path next)
      normal := hnormal
      source := ⟨hsource, hunlinked _⟩
      mappings := by
        rw [hmappings]
        exact ⟨nofun, nofun⟩
      project := hunlinked _
      packages := fun _ hconfiguration => hplaces.entryPointsApart hunlinked htexts
        (configs_elsewhere hwell.sensitive htexts hconfiguration)
      imports := ⟨fun _ _ _ _ hmem => absurd hmem (hnoImport _ _ _),
        fun _ _ _ _ hmem => absurd hmem (hnoImport _ _ _)⟩
      listed := fun _ _ _ _ _ _ _ _ => ⟨⟨hunlinked _, hunlinked _⟩, hunlinked _, hunlinked _⟩ }

end FileTree

end PackageOrder
