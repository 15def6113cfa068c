/-
PackageOrder.Proofs.Dependency.FilePaths — the paths that imports lead to within a
package.

Such a path was resolved from the working directory and has an ending added to it,
which makes a name of its last part in any case (`exists_plain_behind`). As it leads
to a file it is not longer than what the passes of a lookup can use up
(`LeadsToFile.length_le`), whatever links there are.
-/
import PackageOrder.Proofs.Dependency.Reported

namespace PackageOrder

open PackageOrder.Text
open PackageOrder.Path (Plain)
open PackageOrder.Script (ModuleSyntax)

/-! ## Endings -/

/-- What may be added to a path that was resolved: a piece that goes on with its last
name and makes it a name in any case, or a name below it. -/
def NamesFile (ending : List Char) : Prop :=
  ending = [] ∨ ('/' ∉ ending ∧ '\\' ∉ ending ∧ 3 ≤ ending.length)
    ∨ ∃ name, Plain name ∧ ending = '/' :: name

theorem namesFile_of_mem_endings {modules : ModuleSyntax} {ending : String}
    (h : ending ∈ modules.endings) : NamesFile ending.toList := by
  have hall : ending ∈ scriptEndings ++ typingsEndings := by
    rw [List.mem_append]
    cases modules with
    | declarations => exact Or.inr h
    | _ => exact Or.inl h
  rw [scriptEndings, typingsEndings] at hall
  simp only [List.cons_append, List.nil_append, List.mem_cons, List.not_mem_nil, or_false] at hall
  rcases hall with rfl | rfl | rfl | rfl | rfl | rfl
  · exact Or.inl rfl
  · exact Or.inr (Or.inl (by decide))
  · exact Or.inr (Or.inr ⟨"index.js".toList, by decide, rfl⟩)
  · exact Or.inl rfl
  · exact Or.inr (Or.inl (by decide))
  · exact Or.inr (Or.inr ⟨"index.d.ts".toList, by decide, rfl⟩)

/-- A path in normal form and an ending are plain segments and a few slashes more. -/
theorem Path.exists_plain_behind {path ending : List Char} (hroot : path.head? = some '/')
    (hending : NamesFile ending) :
    ∃ base pieces, cleanChars path ++ ending = base ++ '/' :: joinWith '/' pieces
      ∧ base.length ≤ 3 ∧ ∀ piece ∈ segments base ++ pieces, Plain piece := by
  obtain ⟨front, pieces, hclean, hfront, hplain⟩ := clean_of_rooted hroot
  have hbase : ∀ piece ∈ segments front, Plain piece := by
    intro piece hpiece
    rcases hfront with rfl | rfl
    · cases hpiece
    · rw [show segments ['/', ':'] = [[':']] by decide, List.mem_singleton] at hpiece
      exact hpiece ▸ (by decide : Plain [':'])
  have hlength : front.length ≤ 2 := by
    rcases hfront with rfl | rfl <;> decide
  have hall : ∀ {rest : List Segment}, (∀ piece ∈ rest, Plain piece) →
      ∀ piece ∈ segments front ++ rest, Plain piece := by
    intro rest hrest piece hpiece
    exact (List.mem_append.mp hpiece).elim (hbase piece) (hrest piece)
  rcases hending with rfl | ⟨hslash, hback, hlong⟩ | ⟨name, hname, rfl⟩
  · exact ⟨front, pieces, by rw [hclean, List.append_nil], by omega, hall hplain⟩
  · -- the ending goes on with the last segment, if there is one
    have hgoes : ∀ last : Segment, (last = [] ∨ Plain last) → Plain (last ++ ending) := by
      intro last hlast
      have hno : '/' ∉ last ∧ '\\' ∉ last := by
        rcases hlast with rfl | hlast
        · exact ⟨List.not_mem_nil, List.not_mem_nil⟩
        · exact ⟨hlast.no_slash, hlast.no_backslash⟩
      refine plain_of_length (fun hc => (List.mem_append.mp hc).elim hno.1 hslash)
        (fun hc => (List.mem_append.mp hc).elim hno.2 hback) ?_
      rw [List.length_append]
      omega
    rcases List.eq_nil_or_concat' pieces with rfl | ⟨init, last, rfl⟩
    · refine ⟨front, [ending], by rw [hclean, List.append_assoc]; rfl, by omega, hall ?_⟩
      exact fun piece hpiece => List.mem_singleton.mp hpiece ▸ hgoes [] (Or.inl rfl)
    · have hlast := hplain last (List.mem_append_right _ (List.mem_singleton_self _))
      refine ⟨front, init ++ [last ++ ending], ?_, by omega, hall ?_⟩
      · rw [hclean, List.append_assoc, List.cons_append, joinWith_concat_append]
      · intro piece hpiece
        rcases List.mem_append.mp hpiece with hpiece | hpiece
        · exact hplain piece (List.mem_append_left _ hpiece)
        · exact List.mem_singleton.mp hpiece ▸ hgoes last (Or.inr hlast)
  · by_cases hpieces : pieces = []
    · refine ⟨front ++ ['/'], [name], by rw [hclean, hpieces]; simp [joinWith], ?_, ?_⟩
      · rw [List.length_append, List.length_singleton]
        omega
      · have hsame : segments (front ++ ['/']) = segments front := by
          rw [segments_append front []]
          exact List.append_nil _
        rw [hsame]
        exact hall fun piece hpiece => List.mem_singleton.mp hpiece ▸ hname
    · refine ⟨front, pieces ++ [name], ?_, by omega, hall ?_⟩
      · rw [hclean, joinWith_append hpieces (List.cons_ne_nil _ _), List.append_assoc]
        rfl
      · intro piece hpiece
        rcases List.mem_append.mp hpiece with hpiece | hpiece
        · exact hplain piece hpiece
        · exact List.mem_singleton.mp hpiece ▸ hname

/-! ## Paths of files -/

namespace FileTree

variable {tree : FileTree} {modules : ModuleSyntax}

/-- A path that was resolved from the working directory and leads to a file with one
of the endings of a syntax. -/
def LeadsToFile (tree : FileTree) (modules : ModuleSyntax) (path : String) : Prop :=
  tree.isFile path = true
    ∧ ∃ parts, ∃ ending ∈ modules.endings, path = tree.resolve parts ++ ending

theorem exists_ending_of_fileWithEnding? {endings : List String} {path file : String}
    (h : tree.fileWithEnding? endings path = some file) :
    tree.isFile file = true ∧ ∃ ending ∈ endings, file = path ++ ending := by
  obtain ⟨ending, hending, heq⟩ := List.mem_map.mp (List.mem_of_find?_eq_some h)
  exact ⟨List.find?_some h, ending, hending, heq.symm⟩

/-- What an import leads to within its package. -/
theorem leadsToFile_of_resolveImport? {mappings : Option PathMappings}
    {specifier source path : String}
    (h : tree.resolveImport? mappings modules.endings specifier source = some (.internal path)) :
    tree.LeadsToFile modules path := by
  rcases found_of_internal h with ⟨_, hfile⟩ | ⟨_, table, _, mapped, hmem, hfile⟩
  · obtain ⟨hisFile, hending⟩ := exists_ending_of_fileWithEnding? hfile
    exact ⟨hisFile, _, hending⟩
  · obtain ⟨_, _, _, _, rfl⟩ := exists_target_of_mem_mappedPaths hmem
    obtain ⟨hisFile, hending⟩ := exists_ending_of_fileWithEnding? hfile
    exact ⟨hisFile, _, hending⟩

/-- **A path that leads to a file is not longer than what the passes of a lookup can
use up**, whatever links there are. -/
theorem LeadsToFile.length_le {path : String} (h : tree.LeadsToFile modules path)
    (hdir : Path.isRooted tree.workingDir = true) :
    path.length ≤ tree.longestWay * (longestNameOf tree.root + 4) + 4 := by
  obtain ⟨hfile, parts, ending, hending, hpath⟩ := h
  obtain ⟨whole, hroot, hresolve⟩ := Path.exists_resolve_eq hdir parts
  obtain ⟨base, pieces, hbase, hlength, hplain⟩ :=
    Path.exists_plain_behind hroot (namesFile_of_mem_endings hending)
  have htext : path.toList = base ++ '/' :: joinWith '/' pieces := by
    rw [hpath, resolve, hresolve, String.toList_append, Path.toList_clean, hbase]
  have hpieces : Path.segments (joinWith '/' pieces) = pieces :=
    Path.segments_joinWith fun piece hpiece =>
      have hp := hplain piece (List.mem_append_right _ hpiece)
      ⟨hp.ne_nil, hp.no_slash⟩
  have hsegments : (namesOf path).map String.toList = Path.segments base ++ pieces := by
    rw [map_toList_namesOf, htext, Path.segments_append, hpieces]
  have hnames : PlainNames (namesOf path) := by
    intro name hname
    exact hplain _ (hsegments ▸ List.mem_map_of_mem hname)
  obtain ⟨found, hfound⟩ : ∃ found, tree.lookup path true = some found := by
    unfold isFile stat at hfile
    cases hlookup : tree.lookup path true with
    | none => rw [hlookup] at hfile; cases hfile
    | some found => exact ⟨found, rfl⟩
  have hlong : 3 ≤ longestNameOf tree.root + 3 := Nat.le_add_left _ _
  have hsize := (size_le_of_lookupWithin hlong (Nat.le_add_right _ _) hfound hnames
    (List.nil_append _).symm).1
  rw [nameSize, hsegments, Path.size_append, ← Nat.mul_assoc] at hsize
  have hjoin := Path.length_joinWith_le pieces
  have hchars := congrArg List.length htext
  rw [String.length_toList, List.length_append, List.length_cons] at hchars
  have hway : passLimit * depthOf tree.root * (longestNameOf tree.root + 3 + 1)
      = tree.longestWay * (longestNameOf tree.root + 4) := rfl
  omega

end FileTree

end PackageOrder
