/-
PackageOrder.Proofs.Discovery.Links — the links that a walk passes.

A walk goes down into folders only, and looks at the installed packages of a package
without asking what their folder is. So on the way to what it finds stand no links but
those to installed packages of a package that the Angular compiler made, and one at the
path itself if a script of its name stands beside it (`walkAll_links`).
-/
import PackageOrder.Proofs.Discovery.Walk

namespace PackageOrder

open PackageOrder.Path (Plain)
open PackageOrder.FileTree (namesOf pathOf Spelled LinksOnly)

namespace FileTree

variable {tree : FileTree} {look : String → String → Inspection} {folder : String}
  {entryPoint : EntryPoint} {found : List EntryPoint}

/-- A link that a walk passes on the way to an entry-point: to the installed packages of a
package that the Angular compiler made, or the path itself beside a script of its name. -/
def PassedLink (tree : FileTree) (found : List EntryPoint) (entryPoint : EntryPoint)
    (front : List String) (name : String) (back : List String) : Prop :=
  (name = "node_modules" ∧ ∃ other ∈ found,
      other.compiledByAngular = true ∧ other.packagePath = pathOf front)
    ∨ back = [] ∧ tree.linkStat (entryPoint.path ++ ".js") = .ok .file

theorem PassedLink.mono {more : List EntryPoint} (h : found ⊆ more) {front back : List String}
    {name : String} (hpassed : tree.PassedLink found entryPoint front name back) :
    tree.PassedLink more entryPoint front name back := by
  rcases hpassed with ⟨hname, other, hother, hcompiled⟩ | hscript
  · exact Or.inl ⟨hname, other, h hother, hcompiled⟩
  · exact Or.inr hscript

/-- What a folder is found to hold lies at it or below it, and a way leads there that passes
only such links. -/
structure Within (tree : FileTree) (found : List EntryPoint) (folder : String)
    (entryPoint : EntryPoint) (ways : List String) : Prop where
  spelled : Spelled (namesOf folder ++ ways)
  path_eq : entryPoint.path = pathOf (namesOf folder ++ ways)
  links : tree.LinksOnly (namesOf folder) ways (tree.PassedLink found entryPoint)

/-- The way through a name in a folder. -/
theorem Within.cons {name : String} {ways : List String} {more : List EntryPoint}
    (hspelled : Spelled (namesOf folder ++ [name])) (hmore : found ⊆ more)
    (hname : tree.linkStat (pathOf (namesOf folder ++ [name])) = .ok .link →
      tree.PassedLink more entryPoint (namesOf folder) name ways)
    (h : tree.Within found (pathOf (namesOf folder ++ [name])) entryPoint ways) :
    tree.Within more folder entryPoint (name :: ways) := by
  obtain ⟨hways, hpath, hlinks⟩ := h
  rw [namesOf_pathOf hspelled.plain] at hways hpath hlinks
  rw [← List.append_cons] at hways hpath
  exact ⟨hways, hpath, .cons hname (hlinks.mono fun _ _ _ hpassed => hpassed.mono hmore)⟩

theorem exists_within_of_mem_ownEntries (htidy : tree.Tidy)
    (hlook : ∀ package path entryPoint, (look package path).entryPoint? = some entryPoint →
      entryPoint.path = path ∧ entryPoint.packagePath = package)
    {depth : Nat} (hnormal : Normal folder) (h : entryPoint ∈ tree.ownEntries look depth folder)
    (found : List EntryPoint) :
    entryPoint.packagePath = folder ∧ ∃ ways, tree.Within found folder entryPoint ways := by
  rw [ownEntries] at h
  rcases List.mem_append.mp h with h | h
  · obtain ⟨hpath, hpackage⟩ := hlook folder folder entryPoint (Option.mem_toList.mp h)
    refine ⟨hpackage, [], (List.append_nil _).symm ▸ hnormal.spelled, ?_, LinksOnly.nil⟩
    rw [hpath, List.append_nil]
    exact hnormal.eq_pathOf
  · obtain ⟨name, ways, hways, hpath, hseen, hlinks⟩ := exists_way_of_mem_packageEntries htidy
      (fun path entryPoint h => (hlook folder path entryPoint h).1) hnormal h
    exact ⟨(hlook _ _ _ hseen).2, name :: ways, hways, hpath,
      hlinks.mono fun _ _ _ hscript => Or.inr hscript⟩

theorem exists_within_of_mem_folderEntries (htidy : tree.Tidy)
    (hlook : ∀ package path entryPoint, (look package path).entryPoint? = some entryPoint →
      entryPoint.path = path ∧ entryPoint.packagePath = package)
    {depth : Nat} (hnormal : Normal folder) (h : entryPoint ∈ tree.folderEntries look depth folder) :
    ∃ ways, tree.Within (tree.folderEntries look depth folder) folder entryPoint ways := by
  induction depth generalizing folder with
  | zero => cases h
  | succ depth ih =>
    rcases tree.folderEntries_cases look depth folder with
      heq | heq | heq | ⟨⟨other, hother, hcompiled⟩, heq⟩ <;> rw [heq] at h ⊢
    · cases h
    · obtain ⟨name, hname, h⟩ := List.mem_flatMap.mp h
      have hspelled := htidy.spelled hnormal (List.mem_filter.mp hname).1
      obtain ⟨hkind, h⟩ := mem_folderEntriesAt hnormal hspelled h
      have hinner : Normal (pathOf (namesOf folder ++ [name])) := ⟨_, hspelled, rfl⟩
      obtain ⟨ways, hways⟩ := ih hinner h
      refine ⟨name :: ways, hways.cons hspelled (fun entry hentry => ?_) fun hlink => ?_⟩
      · refine List.mem_flatMap.mpr ⟨name, hname, ?_⟩
        rw [folderEntriesAt_of_folder (hnormal.resolve_name hspelled tree).symm hkind]
        exact hentry
      · rw [hkind] at hlink
        cases hlink
    · exact (exists_within_of_mem_ownEntries htidy hlook hnormal h _).2
    · rcases List.mem_append.mp h with h | h
      · exact (exists_within_of_mem_ownEntries htidy hlook hnormal h _).2
      · have hspelled := spelled_installed hnormal
        rw [hnormal.resolve_name hspelled] at h ⊢
        have hinner : Normal (pathOf (namesOf folder ++ ["node_modules"])) := ⟨_, hspelled, rfl⟩
        obtain ⟨ways, hways⟩ := ih hinner h
        refine ⟨_, hways.cons hspelled (List.subset_append_right _ _) fun _ => Or.inl ⟨rfl, ?_⟩⟩
        have hpackage := (exists_within_of_mem_ownEntries htidy hlook hnormal hother []).1
        exact ⟨other, List.mem_append_left _ hother, hcompiled,
          hpackage.trans hnormal.eq_pathOf⟩

end FileTree

/-- **The links that a walk passes**: on the way from its folder to an entry-point there are
none but those to the installed packages of a package that the Angular compiler made, and
one at the path itself if a script of its name stands beside it. -/
theorem walkAll_links {configuration : Configuration} {base : String} {session after : Session}
    {found : List EntryPoint} (htidy : session.tree.Tidy) (hbase : Normal base)
    (h : (walkAll configuration base).runFrom session = (.ok found, after)) :
    ∀ entryPoint ∈ found, ∃ ways, Normal entryPoint.path
      ∧ namesOf entryPoint.path = namesOf base ++ ways
      ∧ session.tree.LinksOnly (namesOf base) ways (session.tree.PassedLink found entryPoint) := by
  intro entryPoint hmem
  rw [eq_folderEntries_of_walkAll h] at hmem ⊢
  obtain ⟨ways, hspelled, hpath, hlinks⟩ := FileTree.exists_within_of_mem_folderEntries htidy
    (fun package path entryPoint => path_of_seen) hbase hmem
  refine ⟨ways, ⟨_, hspelled, hpath⟩, ?_, hlinks⟩
  rw [hpath, FileTree.namesOf_pathOf hspelled.plain]

/-- A package that the Angular compiler made, with some more entries. -/
def compiledPackage (more : Folder) : Entity :=
  .folder (("i.metadata.json", .file .empty) :: more
    ++ [("package.json", .file "\x7b\"typings\":\"i.d.ts\"\x7d".toUTF8)])

/-- Two packages, the second one where what is installed in the first leads. -/
def installedTree (installed : Entity) : FileTree where
  root := [("linked", .folder [("b", compiledPackage [])]),
    ("node_modules", .folder [("a", compiledPackage [("node_modules", installed)])])]

/-- What is installed in a package is found without a link. -/
theorem walkAll_links_installed :
    let session : Session := { tree := installedTree (.folder [("b", compiledPackage [])]) }
    session.tree.Tidy ∧ Normal "/node_modules"
      ∧ ∃ found after, (walkAll ⟨[], ""⟩ "/node_modules").runFrom session = (.ok found, after)
        ∧ found.map (·.path) = ["/node_modules/a", "/node_modules/a/node_modules/b"]
        ∧ ∀ entryPoint ∈ found, ∃ ways, Normal entryPoint.path
          ∧ namesOf entryPoint.path = namesOf "/node_modules" ++ ways
          ∧ session.tree.LinksOnly (namesOf "/node_modules") ways
            (session.tree.PassedLink found entryPoint) := by
  intro session
  have hcheck : session.tree.check = true := by decide +kernel
  have htidy := (FileTree.wellFormed_of_check hcheck).1.tidy
  have hbase : Normal "/node_modules" := ⟨["node_modules"], by decide, by decide⟩
  have hfound : ((walkAll ⟨[], ""⟩ "/node_modules").runFrom session).1.toOption.map
      (fun found => found.map (·.path))
        = some ["/node_modules/a", "/node_modules/a/node_modules/b"] := by
    decide +kernel
  rcases hrun : (walkAll ⟨[], ""⟩ "/node_modules").runFrom session with
    ⟨failure | found, after⟩
  · rw [hrun] at hfound
    cases hfound
  · rw [hrun] at hfound
    exact ⟨htidy, hbase, found, after, rfl, Option.some.inj hfound,
      walkAll_links htidy hbase hrun⟩

/-- **A walk goes through a link to installed packages.** -/
theorem walkAll_passes_link :
    let session : Session := { tree := installedTree (.link "/linked") }
    ((walkAll ⟨[], ""⟩ "/node_modules").runFrom session).1.toOption.map
        (fun found => found.map (·.path))
      = some ["/node_modules/a", "/node_modules/a/node_modules/b"]
    ∧ session.tree.linkStat "/node_modules/a/node_modules" = .ok .link := by
  decide +kernel

end PackageOrder
