/-
PackageOrder.Proofs.Dependency.Closure — the imports of an entry-point are those
of all files that imports of the same package lead to.

`Reached` is the closure that the search computes. What the search has met is
reached (`DependencySearch.Sound`), and what it has met and is not still to be
read has all its imports recorded (`DependencySearch.Settled`); so when nothing is
left to be read it holds exactly what the closure says.

That nothing is left rests on counting. Each round is done with one file more, and
the paths that are met lead to files, so they are not too long, also where links form
cycles, and finitely many (`length_seen_le`).
-/
import PackageOrder.Proofs.Dependency.FilePaths

namespace PackageOrder

open PackageOrder.Text
open PackageOrder.Script (ModuleSyntax)

/-! ## The closure -/

namespace FileTree

/-- A file that can be read as text imports a specifier, which leads to what is
found. -/
def Imports (tree : FileTree) (modules : ModuleSyntax) (mappings : Option PathMappings)
    (file specifier : String) (found : Option Resolution) : Prop :=
  ∃ text, tree.readText file = .ok text ∧ specifier ∈ Script.extractImports modules file text
    ∧ tree.resolveImport? mappings modules.endings specifier file = found

/-- The files that the imports of a first one lead to within its package. -/
inductive Reached (tree : FileTree) (modules : ModuleSyntax) (mappings : Option PathMappings)
    (start : String) : String → Prop where
  | start : Reached tree modules mappings start start
  | step {file specifier next : String} : Reached tree modules mappings start file →
      tree.Imports modules mappings file specifier (some (.internal next)) →
      Reached tree modules mappings start next

end FileTree

/-- Sets that list what they hold in order, each once. -/
structure DependencyInfo.Increasing (info : DependencyInfo) : Prop where
  dependencies : info.dependencies.Increasing
  deepImports : info.deepImports.Increasing
  missing : info.missing.Increasing

/-- What is imported from elsewhere by the files that a first one leads to, neither
more nor less. -/
structure DependencyInfo.Exact (tree : FileTree) (modules : ModuleSyntax)
    (mappings : Option PathMappings) (start : String) (info : DependencyInfo) : Prop where
  increasing : info.Increasing
  dependencies : ∀ path, path ∈ info.dependencies ↔ ∃ file specifier,
    tree.Reached modules mappings start file
      ∧ tree.Imports modules mappings file specifier (some (.entryPoint path))
  deepImports : ∀ path, path ∈ info.deepImports ↔ ∃ file specifier,
    tree.Reached modules mappings start file
      ∧ tree.Imports modules mappings file specifier (some (.deepImport path))
  missing : ∀ specifier, specifier ∈ info.missing ↔ ∃ file,
    tree.Reached modules mappings start file
      ∧ tree.Imports modules mappings file specifier none

section Search

variable {tree : FileTree} {modules : ModuleSyntax} {mappings : Option PathMappings}
  {start : String}

theorem FileTree.mem_importsOfFile (mappings : Option PathMappings) {file specifier : String} :
    specifier ∈ tree.importsOfFile modules file
      ↔ tree.Imports modules mappings file specifier
          (tree.resolveImport? mappings modules.endings specifier file) := by
  unfold importsOfFile Imports
  constructor
  · intro h
    split at h
    · rename_i text htext
      exact ⟨text, htext, h, rfl⟩
    · cases h
  · rintro ⟨text, htext, hmem, _⟩
    rw [htext]
    exact hmem

/-! ## What a search holds -/

namespace DependencySearch

/-- A search has recorded what a specifier leads to. -/
def Holds (search : DependencySearch) (specifier : String) : Option Resolution → Prop
  | none => specifier ∈ search.info.missing
  | some .builtin => True
  | some (.internal path) => path ∈ search.seen
  | some (.deepImport path) => path ∈ search.info.deepImports
  | some (.entryPoint path) => path ∈ search.info.dependencies

theorem holds_record (search : DependencySearch) (specifier : String) (found : Option Resolution) :
    (search.record specifier found).Holds specifier found := by
  unfold record
  split
  · exact SortedSet.mem_insert.mpr (Or.inl rfl)
  · trivial
  · split
    · assumption
    · exact List.mem_cons_self
  · exact SortedSet.mem_insert.mpr (Or.inl rfl)
  · exact SortedSet.mem_insert.mpr (Or.inl rfl)

/-- What was recorded stays so. -/
theorem Holds.record {search : DependencySearch} {specifier : String} {found : Option Resolution}
    (h : search.Holds specifier found) (other : String) (otherFound : Option Resolution) :
    (search.record other otherFound).Holds specifier found := by
  unfold DependencySearch.record
  split
  · cases found with
    | none => exact SortedSet.mem_insert.mpr (Or.inr h)
    | some resolution => cases resolution <;> exact h
  · exact h
  · split
    · exact h
    · cases found with
      | none => exact h
      | some resolution =>
        cases resolution with
        | internal path => exact List.mem_cons_of_mem _ h
        | _ => exact h
  · cases found with
    | none => exact h
    | some resolution =>
      cases resolution with
      | deepImport path => exact SortedSet.mem_insert.mpr (Or.inr h)
      | _ => exact h
  · cases found with
    | none => exact h
    | some resolution =>
      cases resolution with
      | entryPoint path => exact SortedSet.mem_insert.mpr (Or.inr h)
      | _ => exact h

/-! ## What is met is reached -/

/-- What a search has met and recorded comes from files that are reached. -/
structure Sound (tree : FileTree) (modules : ModuleSyntax) (mappings : Option PathMappings)
    (start : String) (search : DependencySearch) : Prop where
  seen_nodup : search.seen.Nodup
  pending_nodup : search.pending.Nodup
  pending_seen : ∀ file ∈ search.pending, file ∈ search.seen
  start_seen : start ∈ search.seen
  reached : ∀ file ∈ search.seen, tree.Reached modules mappings start file
  increasing : search.info.Increasing
  dependencies : ∀ path ∈ search.info.dependencies, ∃ file specifier,
    tree.Reached modules mappings start file
      ∧ tree.Imports modules mappings file specifier (some (.entryPoint path))
  deepImports : ∀ path ∈ search.info.deepImports, ∃ file specifier,
    tree.Reached modules mappings start file
      ∧ tree.Imports modules mappings file specifier (some (.deepImport path))
  missing : ∀ specifier ∈ search.info.missing, ∃ file,
    tree.Reached modules mappings start file
      ∧ tree.Imports modules mappings file specifier none

theorem sound_start :
    Sound tree modules mappings start { seen := [start], pending := [start] } where
  seen_nodup := List.nodup_singleton start
  pending_nodup := List.nodup_singleton start
  pending_seen _ h := h
  start_seen := List.mem_singleton_self start
  reached _ h := List.mem_singleton.mp h ▸ .start
  increasing := ⟨List.Pairwise.nil, List.Pairwise.nil, List.Pairwise.nil⟩
  dependencies _ h := absurd h List.not_mem_nil
  deepImports _ h := absurd h List.not_mem_nil
  missing _ h := absurd h List.not_mem_nil

theorem Sound.record {search : DependencySearch} (h : search.Sound tree modules mappings start)
    {file specifier : String} {found : Option Resolution}
    (hfile : tree.Reached modules mappings start file)
    (himports : tree.Imports modules mappings file specifier found) :
    (search.record specifier found).Sound tree modules mappings start := by
  unfold DependencySearch.record
  cases found with
  | none =>
    refine
      { h with
        increasing :=
          { h.increasing with
            missing := SortedSet.increasing_insert h.increasing.missing _ }
        missing := fun other hother => ?_ }
    rcases SortedSet.mem_insert.mp hother with rfl | hother
    · exact ⟨file, hfile, himports⟩
    · exact h.missing other hother
  | some resolution =>
    cases resolution with
    | builtin => exact h
    | internal path =>
      dsimp only
      split
      · exact h
      · rename_i hnew
        refine
          { h with
            seen_nodup := List.nodup_cons.mpr ⟨hnew, h.seen_nodup⟩
            pending_nodup := List.nodup_cons.mpr
              ⟨fun hpending => hnew (h.pending_seen path hpending), h.pending_nodup⟩
            pending_seen := ?_
            start_seen := List.mem_cons_of_mem _ h.start_seen
            reached := ?_ }
        · intro other hother
          exact (List.mem_cons.mp hother).elim (fun heq => heq ▸ List.mem_cons_self)
            fun hmem => List.mem_cons_of_mem _ (h.pending_seen other hmem)
        · intro other hother
          rcases List.mem_cons.mp hother with rfl | hother
          · exact .step hfile himports
          · exact h.reached other hother
    | deepImport path =>
      refine
        { h with
          increasing :=
            { h.increasing with
              deepImports := SortedSet.increasing_insert h.increasing.deepImports _ }
          deepImports := fun other hother => ?_ }
      rcases SortedSet.mem_insert.mp hother with rfl | hother
      · exact ⟨file, specifier, hfile, himports⟩
      · exact h.deepImports other hother
    | entryPoint path =>
      refine
        { h with
          increasing :=
            { h.increasing with
              dependencies := SortedSet.increasing_insert h.increasing.dependencies _ }
          dependencies := fun other hother => ?_ }
      rcases SortedSet.mem_insert.mp hother with rfl | hother
      · exact ⟨file, specifier, hfile, himports⟩
      · exact h.dependencies other hother

/-! ## What is read is recorded -/

/-- What the files import that were met and are not still to be read is recorded; so
far as `but` it may not be. -/
def Settled (tree : FileTree) (modules : ModuleSyntax) (mappings : Option PathMappings)
    (but : Option String) (search : DependencySearch) : Prop :=
  ∀ file ∈ search.seen, file ∉ search.pending → but ≠ some file →
    ∀ specifier found, tree.Imports modules mappings file specifier found →
      search.Holds specifier found

theorem Settled.record {but : Option String} {search : DependencySearch}
    (h : search.Settled tree modules mappings but) (specifier : String)
    (found : Option Resolution) :
    (search.record specifier found).Settled tree modules mappings but := by
  have hold : ∀ file, file ∈ (search.record specifier found).seen →
      file ∉ (search.record specifier found).pending →
      file ∈ search.seen ∧ file ∉ search.pending := by
    intro file hseen hpending
    unfold DependencySearch.record at hseen hpending
    split at hseen
    · exact ⟨hseen, hpending⟩
    · exact ⟨hseen, hpending⟩
    · dsimp only at hpending
      split at hseen
      · rename_i hmem
        rw [if_pos hmem] at hpending
        exact ⟨hseen, hpending⟩
      · rename_i hnew
        rw [if_neg hnew] at hpending
        have hne := List.ne_of_not_mem_cons hpending
        exact ⟨(List.mem_cons.mp hseen).resolve_left hne, List.not_mem_of_not_mem_cons hpending⟩
    · exact ⟨hseen, hpending⟩
    · exact ⟨hseen, hpending⟩
  intro file hseen hpending hbut other otherFound himports
  obtain ⟨hseen, hpending⟩ := hold file hseen hpending
  exact (h file hseen hpending hbut other otherFound himports).record specifier found

/-- How many files a search is done with does not change as specifiers are recorded. -/
theorem length_record (search : DependencySearch) (specifier : String)
    (found : Option Resolution) :
    (search.record specifier found).seen.length + search.pending.length
      = search.seen.length + (search.record specifier found).pending.length := by
  unfold record
  split
  · rfl
  · rfl
  · split
    · rfl
    · rw [List.length_cons, List.length_cons]
      omega
  · rfl
  · rfl

/-! ## One file -/

/-- A search after some specifiers of a file. -/
def recordAll (tree : FileTree) (modules : ModuleSyntax) (mappings : Option PathMappings)
    (file : String) (search : DependencySearch) (specifiers : List String) : DependencySearch :=
  specifiers.foldl (fun search specifier =>
    search.record specifier (tree.resolveImport? mappings modules.endings specifier file)) search

theorem searchFile_eq (search : DependencySearch) (file : String) :
    tree.searchFile modules mappings search file
      = search.recordAll tree modules mappings file (tree.importsOfFile modules file) := rfl

theorem Sound.recordAll {search : DependencySearch} (h : search.Sound tree modules mappings start)
    {file : String} (hfile : tree.Reached modules mappings start file) {specifiers : List String}
    (hspecifiers : ∀ specifier ∈ specifiers, specifier ∈ tree.importsOfFile modules file) :
    (search.recordAll tree modules mappings file specifiers).Sound tree modules mappings start := by
  induction specifiers generalizing search with
  | nil => exact h
  | cons specifier rest ih =>
    have himports := (FileTree.mem_importsOfFile mappings).mp (hspecifiers specifier List.mem_cons_self)
    exact ih (h.record hfile himports) fun other ho => hspecifiers other (List.mem_cons_of_mem _ ho)

theorem Settled.recordAll {but : Option String} {search : DependencySearch}
    (h : search.Settled tree modules mappings but) (file : String) (specifiers : List String) :
    (search.recordAll tree modules mappings file specifiers).Settled tree modules mappings but := by
  induction specifiers generalizing search with
  | nil => exact h
  | cons specifier rest ih => exact ih (h.record specifier _)

theorem Holds.recordAll {search : DependencySearch} {specifier : String} {found : Option Resolution}
    (h : search.Holds specifier found) (file : String) (specifiers : List String) :
    (search.recordAll tree modules mappings file specifiers).Holds specifier found := by
  induction specifiers generalizing search with
  | nil => exact h
  | cons other rest ih => exact ih (h.record other _)

theorem holds_recordAll (search : DependencySearch) (file : String) {specifier : String}
    {specifiers : List String} (h : specifier ∈ specifiers) :
    (search.recordAll tree modules mappings file specifiers).Holds specifier
      (tree.resolveImport? mappings modules.endings specifier file) := by
  induction specifiers generalizing search with
  | nil => cases h
  | cons other rest ih =>
    rcases List.mem_cons.mp h with rfl | h
    · exact (holds_record search specifier _).recordAll file rest
    · exact ih _ h

theorem length_recordAll (tree : FileTree) (modules : ModuleSyntax)
    (mappings : Option PathMappings) (search : DependencySearch) (file : String) (specifiers : List String) :
    (search.recordAll tree modules mappings file specifiers).seen.length + search.pending.length
      = search.seen.length
        + (search.recordAll tree modules mappings file specifiers).pending.length := by
  induction specifiers generalizing search with
  | nil => rfl
  | cons specifier rest ih =>
    have hone := search.length_record specifier
      (tree.resolveImport? mappings modules.endings specifier file)
    have hrest := ih (search.record specifier
      (tree.resolveImport? mappings modules.endings specifier file))
    rw [recordAll, List.foldl_cons]
    rw [recordAll] at hrest
    omega

/-! ## Whole searches -/

/-- A search of which `finished` files are done with. -/
structure UnderWay (tree : FileTree) (modules : ModuleSyntax) (mappings : Option PathMappings)
    (start : String) (finished : Nat) (search : DependencySearch) : Prop where
  sound : search.Sound tree modules mappings start
  settled : search.Settled tree modules mappings none
  count : search.seen.length = finished + search.pending.length

/-- A round is done with one file more. -/
theorem UnderWay.step {finished : Nat} {search : DependencySearch} {file : String}
    {rest : List String} (h : search.UnderWay tree modules mappings start finished)
    (hpending : search.pending = file :: rest) :
    (tree.searchFile modules mappings { search with pending := rest } file).UnderWay
      tree modules mappings start (finished + 1) := by
  have hnodup := h.sound.pending_nodup
  rw [hpending, List.nodup_cons] at hnodup
  have hseen : file ∈ search.seen :=
    h.sound.pending_seen file (hpending ▸ List.mem_cons_self)
  have hsound : ({ search with pending := rest } : DependencySearch).Sound
      tree modules mappings start :=
    { h.sound with
      pending_nodup := hnodup.2
      pending_seen := fun other hother =>
        h.sound.pending_seen other (hpending ▸ List.mem_cons_of_mem _ hother) }
  have hsettled : ({ search with pending := rest } : DependencySearch).Settled
      tree modules mappings (some file) := by
    intro other hother hrest hbut
    refine h.settled other hother ?_ (by simp)
    rw [hpending, List.mem_cons, not_or]
    exact ⟨fun heq => hbut (heq ▸ rfl), hrest⟩
  rw [searchFile_eq]
  refine ⟨hsound.recordAll (h.sound.reached file hseen) fun _ hmem => hmem, ?_, ?_⟩
  · intro other hother hnot _ specifier found himports
    by_cases hfile : other = file
    · subst hfile
      obtain ⟨text, htext, hmem, rfl⟩ := himports
      exact holds_recordAll _ other ((FileTree.mem_importsOfFile mappings).mpr
        ⟨text, htext, hmem, rfl⟩)
    · exact hsettled.recordAll file _ other hother hnot (fun heq => hfile (Option.some.inj heq).symm)
        specifier found himports
  · have hlength := length_recordAll tree modules mappings
      { search with pending := rest } file (tree.importsOfFile modules file)
    have hcount := h.count
    rw [hpending, List.length_cons] at hcount
    dsimp only at hlength
    omega

/-- **A search ends** once there are rounds for all files that can be met. -/
theorem UnderWay.ends {bound : Nat}
    (hbound : ∀ search : DependencySearch, search.Sound tree modules mappings start →
      search.seen.length ≤ bound)
    {rounds finished : Nat} {search : DependencySearch}
    (h : search.UnderWay tree modules mappings start finished) (hrounds : bound ≤ finished + rounds) :
    (tree.searchWithin modules mappings rounds search).pending = []
      ∧ ∃ all, (tree.searchWithin modules mappings rounds search).UnderWay
          tree modules mappings start all := by
  induction rounds generalizing finished search with
  | zero =>
    have hle := hbound search h.sound
    have hcount := h.count
    exact ⟨List.length_eq_zero_iff.mp (by rw [FileTree.searchWithin]; omega), finished, h⟩
  | succ rounds ih =>
    unfold FileTree.searchWithin
    split
    · rename_i hnil
      exact ⟨hnil, finished, h⟩
    · rename_i file rest hpending
      exact ih (h.step hpending) (by omega)

/-- A search that has ended holds what the files that are reached import. -/
theorem UnderWay.exact {finished : Nat} {search : DependencySearch}
    (h : search.UnderWay tree modules mappings start finished) (hnil : search.pending = []) :
    search.info.Exact tree modules mappings start := by
  have hholds : ∀ {file specifier : String} {found : Option Resolution}, file ∈ search.seen →
      tree.Imports modules mappings file specifier found → search.Holds specifier found := by
    intro file specifier found hfile himports
    exact h.settled file hfile (by rw [hnil]; exact List.not_mem_nil) (by simp) specifier found
      himports
  have hseen : ∀ {file : String}, tree.Reached modules mappings start file → file ∈ search.seen := by
    intro file hreached
    induction hreached with
    | start => exact h.sound.start_seen
    | step _ himports ih => exact hholds ih himports
  refine ⟨h.sound.increasing, fun path => ⟨h.sound.dependencies path, ?_⟩,
    fun path => ⟨h.sound.deepImports path, ?_⟩, fun specifier => ⟨h.sound.missing specifier, ?_⟩⟩
  · rintro ⟨file, specifier, hreached, himports⟩
    exact hholds (hseen hreached) himports
  · rintro ⟨file, specifier, hreached, himports⟩
    exact hholds (hseen hreached) himports
  · rintro ⟨file, hreached, himports⟩
    exact hholds (hseen hreached) himports

end DependencySearch

end Search

/-! ## How many files there can be -/

namespace FileTree

variable {tree : FileTree} {modules : ModuleSyntax} {mappings : Option PathMappings}
  {start : String}

theorem Reached.leadsToFile {file : String} (h : tree.Reached modules mappings start file) :
    file = start ∨ tree.LeadsToFile modules file := by
  cases h with
  | start => exact Or.inl rfl
  | step _ himports =>
    obtain ⟨_, _, _, hfound⟩ := himports
    exact Or.inr (leadsToFile_of_resolveImport? hfound)

/-- **The files that a search can meet are fewer than the bound says**, with the first
one among them. -/
theorem length_seen_le (hdir : Path.isRooted tree.workingDir = true) {search : DependencySearch}
    (h : search.Sound tree modules mappings start) : search.seen.length ≤ tree.pathBound := by
  have hother : ∀ file ∈ search.seen.erase start,
      file.length ≤ tree.longestWay * (longestNameOf tree.root + 4) + 4 := by
    intro file hfile
    rw [h.seen_nodup.mem_erase_iff] at hfile
    exact ((h.reached file hfile.2).leadsToFile.resolve_left hfile.1).length_le hdir
  have hcount := length_le_of_nodup (h.seen_nodup.erase start) hother
  have herase := List.length_erase_of_mem h.start_seen
  have hpow : charCount ^ (tree.longestWay * (longestNameOf tree.root + 4) + 4 + 1)
      < charCount ^ (tree.longestWay * (longestNameOf tree.root + 4) + 16) :=
    Nat.pow_lt_pow_right (by decide) (by omega)
  rw [pathBound_eq]
  omega

/-! ## Built-in modules -/

/-- A specifier of a file beside the importing one names no module of the runtime. -/
theorem isBuiltinModule_of_isRelativeSpecifier {specifier : String}
    (h : Path.isRelativeSpecifier specifier = true) : isBuiltinModule specifier = false := by
  have hshape : specifier.toList = ['.'] ∨ specifier.toList = ['.', '.']
      ∨ (∃ rest, specifier.toList = '.' :: '/' :: rest)
      ∨ (∃ rest, specifier.toList = '.' :: '.' :: '/' :: rest)
      ∨ ∃ rest, specifier.toList = '/' :: rest := by
    simp only [Path.isRelativeSpecifier, Bool.or_eq_true, beq_iff_eq] at h
    rcases h with (((rfl | rfl) | h) | h) | h
    · exact Or.inl rfl
    · exact Or.inr (Or.inl rfl)
    · obtain ⟨rest, hrest⟩ := Option.isSome_iff_exists.mp h
      exact Or.inr (Or.inr (Or.inl ⟨rest, dropHead?_eq_some hrest⟩))
    · obtain ⟨rest, hrest⟩ := Option.isSome_iff_exists.mp h
      exact Or.inr (Or.inr (Or.inr (Or.inl ⟨rest, dropHead?_eq_some hrest⟩)))
    · exact Or.inr (Or.inr (Or.inr (Or.inr (List.head?_eq_some_iff.mp h))))
  unfold isBuiltinModule
  rcases hshape with heq | heq | ⟨rest, heq⟩ | ⟨rest, heq⟩ | ⟨rest, heq⟩ <;> rw [heq]
  · decide
  · decide
  · rfl
  · rfl
  · rfl

/-- What leads nowhere is no module of the runtime. -/
theorem isBuiltinModule_of_unresolved {mappings : Option PathMappings} {endings : List String}
    {specifier source : String} (h : tree.resolveImport? mappings endings specifier source = none) :
    isBuiltinModule specifier = false := by
  unfold resolveImport? at h
  split at h
  · exact isBuiltinModule_of_isRelativeSpecifier ‹_›
  · split at h
    · cases h
    · exact Bool.eq_false_iff.mpr ‹_›

/-! ## The result -/

/-- A search after all rounds that there are. -/
theorem searchWithin_pathBound (hdir : Path.isRooted tree.workingDir = true)
    (modules : ModuleSyntax) (mappings : Option PathMappings) (start : String) :
    (tree.searchWithin modules mappings tree.pathBound
        { seen := [start], pending := [start] }).pending = []
      ∧ (tree.searchWithin modules mappings tree.pathBound
          { seen := [start], pending := [start] }).info.Exact tree modules mappings start := by
  have hstart : DependencySearch.UnderWay tree modules mappings start 0
      { seen := [start], pending := [start] } :=
    ⟨DependencySearch.sound_start, fun _ hseen hpending => absurd hseen hpending, rfl⟩
  obtain ⟨hnil, _, hall⟩ := hstart.ends (fun _ hsound => length_seen_le hdir hsound)
    (Nat.le_of_eq (Nat.zero_add _).symm)
  exact ⟨hnil, hall.exact hnil⟩

/-- A search that has ended does not change. -/
theorem searchWithin_of_ended {modules : ModuleSyntax} {mappings : Option PathMappings}
    {search : DependencySearch} (h : search.pending = []) (rounds : Nat) :
    tree.searchWithin modules mappings rounds search = search := by
  cases rounds with
  | zero => rfl
  | succ rounds =>
    unfold searchWithin
    rw [h]

theorem searchWithin_add (modules : ModuleSyntax) (mappings : Option PathMappings)
    (rounds more : Nat) (search : DependencySearch) :
    tree.searchWithin modules mappings (rounds + more) search
      = tree.searchWithin modules mappings more
          (tree.searchWithin modules mappings rounds search) := by
  induction rounds generalizing search with
  | zero => rw [Nat.zero_add, searchWithin]
  | succ rounds ih =>
    cases hpending : search.pending with
    | nil => rw [searchWithin_of_ended hpending, searchWithin_of_ended hpending,
        searchWithin_of_ended hpending]
    | cons file rest =>
      rw [Nat.succ_add, searchWithin, searchWithin]
      simp only [hpending]
      exact ih _

/-- What so many rounds find from a first file, if there is one. For any number of
rounds, as the one that is used must not be computed. -/
theorem info_of_rounds (modules : ModuleSyntax) (mappings : Option PathMappings) (rounds : Nat)
    (found : Option String) {info : DependencyInfo} :
    (match found with
      | none => {}
      | some start =>
        (tree.searchWithin modules mappings rounds { seen := [start], pending := [start] }).info)
      = info →
    (found = none → info = {})
      ∧ ∀ start, found = some start → info = (tree.searchWithin modules mappings rounds
          { seen := [start], pending := [start] }).info := by
  rintro rfl
  cases found with
  | none => exact ⟨fun _ => rfl, fun _ h => (nomatch h)⟩
  | some first =>
    refine ⟨fun h => (nomatch h), fun start h => ?_⟩
    rw [Option.some.inj h]

/-- What is found with rounds that end every search. -/
theorem exact_of_rounds {modules : ModuleSyntax} {mappings : Option PathMappings} {rounds : Nat}
    (hends : ∀ start,
      (tree.searchWithin modules mappings rounds
          { seen := [start], pending := [start] }).pending = []
        ∧ (tree.searchWithin modules mappings rounds
            { seen := [start], pending := [start] }).info.Exact tree modules mappings start)
    {found : Option String} {info : DependencyInfo} (hnone : found = none → info = {})
    (hsome : ∀ start, found = some start → info = (tree.searchWithin modules mappings rounds
      { seen := [start], pending := [start] }).info) :
    (found = none → info = {})
      ∧ (∀ start, found = some start →
          (∃ ended : DependencySearch, ended.pending = []
              ∧ (∀ more, tree.searchWithin modules mappings (rounds + more)
                  { seen := [start], pending := [start] } = ended)
              ∧ info = ended.info)
            ∧ info.Exact tree modules mappings start)
      ∧ ∀ specifier ∈ info.missing, isBuiltinModule specifier = false := by
  refine ⟨hnone, fun start hstart => ?_, fun specifier hmem => ?_⟩
  · obtain ⟨hnil, hexact⟩ := hends start
    refine ⟨⟨_, hnil, fun more => ?_, hsome start hstart⟩, hsome start hstart ▸ hexact⟩
    rw [searchWithin_add, searchWithin_of_ended hnil]
  · cases hfound : found with
    | none =>
      rw [hnone hfound] at hmem
      cases hmem
    | some start =>
      rw [hsome start hfound] at hmem
      obtain ⟨file, _, text, _, _, hnowhere⟩ := ((hends start).2.missing specifier).mp hmem
      exact isBuiltinModule_of_unresolved hnowhere

/-- **The dependencies of an entry-point are those of all files that its imports lead
to within its package.** The search for them ends, whatever cycles imports and links
form, and no module of the runtime is ever missing. -/
theorem collectDependencies_exact (hdir : Path.isRooted tree.workingDir = true)
    (modules : ModuleSyntax) (mappings : Option PathMappings) (path : String) :
    (tree.fileWithEnding? modules.endings path = none →
        tree.collectDependencies modules mappings path = {})
      ∧ (∀ start, tree.fileWithEnding? modules.endings path = some start →
          (∃ ended : DependencySearch, ended.pending = []
              ∧ (∀ more, tree.searchWithin modules mappings (tree.pathBound + more)
                  { seen := [start], pending := [start] } = ended)
              ∧ tree.collectDependencies modules mappings path = ended.info)
            ∧ (tree.collectDependencies modules mappings path).Exact tree modules mappings start)
      ∧ ∀ specifier ∈ (tree.collectDependencies modules mappings path).missing,
          isBuiltinModule specifier = false := by
  have hrounds : (tree.fileWithEnding? modules.endings path = none →
      tree.collectDependencies modules mappings path = {})
      ∧ ∀ start, tree.fileWithEnding? modules.endings path = some start →
        tree.collectDependencies modules mappings path
          = (tree.searchWithin modules mappings tree.pathBound
              { seen := [start], pending := [start] }).info := by
    apply info_of_rounds
    unfold collectDependencies
    rfl
  exact exact_of_rounds (searchWithin_pathBound hdir modules mappings) hrounds.1 hrounds.2

/-- A package with a link to itself, through which its files import one another, and
a package within it. -/
def linkedPackage : FileTree :=
  { root := [("n", .folder
      [("again", .link "/n"),
        ("b.js", .file "import'/n/again';import'./x';import'fs'".toUTF8),
        ("index.js", .file "import'./b';import'c'".toUTF8),
        ("node_modules", .folder [("c", .folder [("package.json", .folder [])])])])] }

/-- The files of a package are met at two paths, and what they import is found from
both. -/
theorem collectDependencies_exact_linked :
    Path.isRooted linkedPackage.workingDir = true
      ∧ linkedPackage.fileWithEnding? (ModuleSyntax.endings .esm) "/n" = some "/n/index.js"
      ∧ linkedPackage.collectDependencies .esm none "/n"
        = { dependencies := ["/n/again/node_modules/c", "/n/node_modules/c"], missing := ["./x"] }
      ∧ (linkedPackage.collectDependencies .esm none "/n").Exact
          linkedPackage .esm none "/n/index.js" := by
  have hdir : Path.isRooted linkedPackage.workingDir = true := rfl
  have hstart : linkedPackage.fileWithEnding? (ModuleSyntax.endings .esm) "/n"
      = some "/n/index.js" := by decide +kernel
  exact ⟨hdir, hstart, by decide +kernel,
    ((collectDependencies_exact hdir .esm none "/n").2.1 _ hstart).2⟩

end FileTree

end PackageOrder
