/-
PackageOrder.Proofs.Resolve.Selection — which entry of a table of path mappings is used
for a specifier, and what the specifier is mapped to.

A pattern matches a name just as it is written, or with a text in the place of its first
star (`Matches`). Of the patterns of a table that match, one without a star is used, or
else the first one of those before whose star the most stands (`Selects`).
`bestMapping` goes through the table once: of the entries that it has passed it keeps the
one to use if there are no others (`BestOf`), and a pattern that is the name itself ends
the search.
-/
import PackageOrder.Proofs.Text.Split
import PackageOrder.Resolve.Mapping

namespace PackageOrder

open PackageOrder.Text

/-! ## Patterns -/

/-- A pattern with a star matches a name: what stands before its first star is the front
of the name, what stands behind it is the end, and the star captures what is between. -/
def StarMatches (pattern name : String) (before captured : List Char) : Prop :=
  '*' ∉ before ∧ ∃ after, pattern.toList = before ++ '*' :: after
    ∧ name.toList = before ++ captured ++ after

/-- A pattern matches a name, and its star captures a text; without a star the pattern is
the name. -/
inductive Matches (name : String) : String → List Char → Prop where
  | exact (plain : '*' ∉ name.toList) : Matches name name []
  | star {pattern : String} {before captured : List Char}
      (h : StarMatches pattern name before captured) : Matches name pattern captured

/-- A text with another one in the place of its first star. -/
def replaceStar (captured : List Char) : List Char → List Char
  | [] => []
  | c :: rest => if c = '*' then captured ++ rest else c :: replaceStar captured rest

theorem replaceStar_of_notMem (captured : List Char) {text : List Char} (h : '*' ∉ text) :
    replaceStar captured text = text := by
  induction text with
  | nil => rfl
  | cons c rest ih =>
    rw [List.mem_cons, not_or] at h
    rw [replaceStar, if_neg (Ne.symm h.1), ih h.2]

theorem replaceStar_append (captured : List Char) {before : List Char} (h : '*' ∉ before)
    (after : List Char) :
    replaceStar captured (before ++ '*' :: after) = before ++ captured ++ after := by
  induction before with
  | nil => exact if_pos rfl
  | cons c rest ih =>
    rw [List.mem_cons, not_or] at h
    rw [List.cons_append, replaceStar, if_neg (Ne.symm h.1), ih h.2]
    rfl

namespace Wildcard

theorem ofText_plain {text : String} (h : '*' ∉ text.toList) : ofText text = ⟨text.toList, none⟩ := by
  unfold ofText
  cases hcut : cutAt? '*' text.toList with
  | none => rfl
  | some parts =>
    rw [(cutAt?_eq_some hcut).1] at h
    exact absurd (List.mem_append_right _ List.mem_cons_self) h

theorem ofText_star {text : String} {before after : List Char} (hfirst : '*' ∉ before)
    (htext : text.toList = before ++ '*' :: after) : ofText text = ⟨before, some after⟩ := by
  unfold ofText
  rw [htext, cutAt?_of_notMem hfirst]

/-- A text is without a star, or it has a first one. -/
theorem plain_or_star (text : String) :
    '*' ∉ text.toList ∨ ∃ before after, '*' ∉ before ∧ text.toList = before ++ '*' :: after := by
  cases hcut : cutAt? '*' text.toList with
  | none => exact Or.inl (cutAt?_eq_none hcut)
  | some parts =>
    obtain ⟨htext, hfirst⟩ := cutAt?_eq_some hcut
    exact Or.inr ⟨parts.1, parts.2, hfirst, htext⟩

/-- What is filled is the text with the captured one in the place of its star. -/
theorem fill_ofText (text : String) (captured : List Char) :
    (ofText text).fill captured = .ofList (replaceStar captured text.toList) := by
  rcases plain_or_star text with hplain | ⟨before, after, hfirst, htext⟩
  · rw [ofText_plain hplain, replaceStar_of_notMem captured hplain, fill]
  · rw [ofText_star hfirst htext, htext, replaceStar_append captured hfirst, fill]

theorem capture?_star (before after name captured : List Char) :
    capture? ⟨before, some after⟩ name = some captured ↔ name = before ++ captured ++ after := by
  unfold capture?
  dsimp only
  constructor
  · intro h
    obtain ⟨rest, hrest, h⟩ := Option.bind_eq_some_iff.mp h
    rw [dropHead?_eq_some hrest, dropTail?_eq_some h, List.append_assoc]
  · rintro rfl
    rw [List.append_assoc, dropHead?_append, Option.bind_some, dropTail?_append]

/-- **What a pattern captures is what it matches with.** -/
theorem capture?_eq_some_iff (pattern name : String) (captured : List Char) :
    (ofText pattern).capture? name.toList = some captured ↔ Matches name pattern captured := by
  rcases plain_or_star pattern with hplain | ⟨before, after, hfirst, htext⟩
  · rw [ofText_plain hplain, capture?]
    dsimp only
    constructor
    · intro h
      split at h
      · rename_i hname
        cases h
        rw [← String.toList_inj.mp hname] at hplain ⊢
        exact .exact hplain
      · cases h
    · rintro (_ | ⟨_, after, htext, _⟩)
      · exact if_pos rfl
      · rw [htext] at hplain
        exact absurd (List.mem_append_right _ List.mem_cons_self) hplain
  · rw [ofText_star hfirst htext, capture?_star]
    constructor
    · exact fun hname => .star ⟨hfirst, after, htext, hname⟩
    · rintro (hplain | ⟨hfirst', after', htext', hname⟩)
      · rw [htext] at hplain
        exact absurd (List.mem_append_right _ List.mem_cons_self) hplain
      · have hsame := (ofText_star hfirst htext).symm.trans (ofText_star hfirst' htext')
        cases hsame
        exact hname

end Wildcard

theorem StarMatches.before_prefix {pattern name : String} {before captured : List Char}
    (h : StarMatches pattern name before captured) : before <+: name.toList := by
  obtain ⟨_, after, _, hname⟩ := h
  exact ⟨captured ++ after, by rw [hname, List.append_assoc]⟩

/-- A pattern with a star has one text before it, and captures one text. -/
theorem StarMatches.unique {pattern name : String} {before captured before' captured' : List Char}
    (h : StarMatches pattern name before captured)
    (h' : StarMatches pattern name before' captured') : before = before' ∧ captured = captured' := by
  obtain ⟨hfirst, after, htext, hname⟩ := h
  obtain ⟨hfirst', after', htext', hname'⟩ := h'
  cases (Wildcard.ofText_star hfirst htext).symm.trans (Wildcard.ofText_star hfirst' htext')
  rw [hname, List.append_assoc, List.append_assoc] at hname'
  exact ⟨rfl, List.append_cancel_right (List.append_cancel_left hname')⟩

/-! ## The entry that is used -/

section Table

variable {table front rest : List (String × List String)} {entry other : String × List String}
variable {name : String} {before captured : List Char}

/-- No pattern before whose star as much stands, or more, matches a name. -/
def Shorter (entries : List (String × List String)) (name : String) (length : Nat) : Prop :=
  ∀ other ∈ entries, ∀ before captured, StarMatches other.1 name before captured →
    before.length < length

/-- An entry of a table has the pattern with the most before its star of those that match
a name, and is the first with as much. -/
structure LongestMatch (table : List (String × List String)) (name : String)
    (entry : String × List String) (before captured : List Char) : Prop where
  matched : StarMatches entry.1 name before captured
  placed : ∃ front back, table = front ++ entry :: back ∧ Shorter front name before.length
    ∧ Shorter back name (before.length + 1)

/-- No pattern of a table is the name itself. -/
def NoneExact (table : List (String × List String)) (name : String) : Prop :=
  '*' ∉ name.toList → ∀ entry ∈ table, entry.1 ≠ name

/-- The entry of a table that is used for a name, and what its star captures: the first
one whose pattern is the name, or else that with the longest match. -/
inductive Selects (table : List (String × List String)) (name : String) :
    String × List String → List Char → Prop where
  | exact {front back : List (String × List String)} {targets : List String}
      (plain : '*' ∉ name.toList) (table_eq : table = front ++ (name, targets) :: back)
      (first : NoneExact front name) : Selects table name (name, targets) []
  | longest {entry : String × List String} {before captured : List Char}
      (noneExact : NoneExact table name) (h : LongestMatch table name entry before captured) :
      Selects table name entry captured

theorem Shorter.mono {length length' : Nat} (h : Shorter table name length) (hle : length ≤ length') :
    Shorter table name length' :=
  fun other hmem before captured hmatch => Nat.lt_of_lt_of_le (h other hmem before captured hmatch) hle

theorem Shorter.append {length : Nat} (h : Shorter front name length)
    (hrest : Shorter rest name length) : Shorter (front ++ rest) name length := by
  intro other hmem
  rcases List.mem_append.mp hmem with hmem | hmem
  · exact h other hmem
  · exact hrest other hmem

theorem StarMatches.shorter (h : StarMatches entry.1 name before captured) {length : Nat}
    (hlt : before.length < length) : Shorter [entry] name length := by
  intro other hmem before' captured' hmatch
  rw [List.mem_singleton.mp hmem] at hmatch
  rw [← (h.unique hmatch).1]
  exact hlt

theorem shorter_of_not_matches (h : ∀ captured, ¬ Matches name entry.1 captured) (length : Nat) :
    Shorter [entry] name length := by
  intro other hmem before captured hmatch
  rw [List.mem_singleton.mp hmem] at hmatch
  exact absurd (.star hmatch) (h captured)

namespace LongestMatch

/-- No pattern of the table that matches has more before its star. -/
theorem shorter (h : LongestMatch table name entry before captured) :
    Shorter table name (before.length + 1) := by
  obtain ⟨hmatch, front, back, rfl, hfront, hback⟩ := h
  refine (hfront.mono (Nat.le_succ _)).append ?_
  exact (hmatch.shorter (Nat.lt_succ_self _)).append hback

/-- An entry that is not longer leaves the longest match as it is. -/
theorem keep (h : LongestMatch table name entry before captured)
    (hother : Shorter [other] name (before.length + 1)) :
    LongestMatch (table ++ [other]) name entry before captured := by
  obtain ⟨hmatch, front, back, rfl, hfront, hback⟩ := h
  exact ⟨hmatch, front, back ++ [other], by rw [List.append_assoc, List.cons_append], hfront,
    hback.append hother⟩

/-- An entry that is longer than all before it is the longest match. -/
theorem replace (hmatch : StarMatches entry.1 name before captured)
    (h : Shorter table name before.length) :
    LongestMatch (table ++ [entry]) name entry before captured :=
  ⟨hmatch, table, [], rfl, h, fun _ hmem => absurd hmem List.not_mem_nil⟩

end LongestMatch

theorem NoneExact.append_singleton (h : NoneExact table name)
    (hentry : '*' ∉ name.toList → entry.1 ≠ name) : NoneExact (table ++ [entry]) name := by
  intro hplain other hmem
  rcases List.mem_append.mp hmem with hmem | hmem
  · exact h hplain other hmem
  · rw [List.mem_singleton.mp hmem]
    exact hentry hplain

/-- The entry that is used is one of the table whose pattern matches. -/
theorem Selects.matches (h : Selects table name entry captured) :
    entry ∈ table ∧ Matches name entry.1 captured := by
  cases h with
  | exact plain htable _ =>
    rw [htable]
    exact ⟨List.mem_append_right _ List.mem_cons_self, .exact plain⟩
  | longest _ h =>
    obtain ⟨hmatch, front, back, rfl, _⟩ := h
    exact ⟨List.mem_append_right _ List.mem_cons_self, .star hmatch⟩

/-- A list that is cut at two entries is cut at one entry, or each stands behind or before
the other. -/
theorem cut_cases {α : Type} {front front' back back' : List α} {entry entry' : α}
    (h : front ++ entry :: back = front' ++ entry' :: back') :
    entry = entry' ∨ (entry ∈ front' ∧ entry' ∈ back) ∨ (entry' ∈ front ∧ entry ∈ back') := by
  rcases List.append_eq_append_iff.mp h with ⟨between, rfl, hbetween⟩ | ⟨between, rfl, hbetween⟩
  · cases between with
    | nil => exact Or.inl (List.cons.inj hbetween).1
    | cons first between =>
      obtain ⟨rfl, rfl⟩ := List.cons.inj hbetween
      exact Or.inr (Or.inl ⟨by simp, by simp⟩)
  · cases between with
    | nil => exact Or.inl (List.cons.inj hbetween).1.symm
    | cons first between =>
      obtain ⟨rfl, rfl⟩ := List.cons.inj hbetween
      exact Or.inr (Or.inr ⟨by simp, by simp⟩)

theorem LongestMatch.unique (h : LongestMatch table name entry before captured)
    {before' captured' : List Char} (h' : LongestMatch table name other before' captured') :
    entry = other ∧ captured = captured' := by
  obtain ⟨hmatch, front, back, htable, hfront, hback⟩ := h
  obtain ⟨hmatch', front', back', htable', hfront', hback'⟩ := h'
  rcases cut_cases (htable.symm.trans htable') with rfl | ⟨hmem, hmem'⟩ | ⟨hmem, hmem'⟩
  · exact ⟨rfl, (hmatch.unique hmatch').2⟩
  · have hlt := hfront' entry hmem before captured hmatch
    have hle := hback other hmem' before' captured' hmatch'
    omega
  · have hlt := hfront other hmem before' captured' hmatch'
    have hle := hback' entry hmem' before captured hmatch
    omega

theorem not_noneExact {front back : List (String × List String)} {targets : List String}
    (plain : '*' ∉ name.toList) : ¬ NoneExact (front ++ (name, targets) :: back) name :=
  fun h => h plain (name, targets) (List.mem_append_right _ List.mem_cons_self) rfl

/-- **One entry is used for a name**, and one text is captured with it. -/
theorem Selects.unique (h : Selects table name entry captured) {captured' : List Char}
    (h' : Selects table name other captured') : entry = other ∧ captured = captured' := by
  cases h with
  | exact plain htable first =>
    cases h' with
    | exact _ htable' first' =>
      rcases cut_cases (htable.symm.trans htable') with heq | ⟨hmem, _⟩ | ⟨hmem, _⟩
      · exact ⟨heq, rfl⟩
      · exact absurd rfl (first' plain _ hmem)
      · exact absurd rfl (first plain _ hmem)
    | longest noneExact _ => exact absurd (htable ▸ noneExact) (not_noneExact plain)
  | longest noneExact h =>
    cases h' with
    | exact plain htable _ => exact absurd (htable ▸ noneExact) (not_noneExact plain)
    | longest _ h' => exact h.unique h'

end Table

/-! ## The search for it -/

theorem utf8Length_append (text rest : List Char) :
    bestMapping.utf8Length (text ++ rest)
      = bestMapping.utf8Length text + bestMapping.utf8Length rest := by
  have hfold : ∀ (rest : List Char) (n : Nat),
      rest.foldl (fun n c => n + c.utf8Size) n = n + bestMapping.utf8Length rest := by
    intro rest
    induction rest with
    | nil => exact fun _ => rfl
    | cons c rest ih =>
      intro n
      rw [bestMapping.utf8Length, List.foldl_cons, List.foldl_cons, ih, ih, Nat.zero_add, Nat.add_assoc]
  rw [bestMapping.utf8Length, List.foldl_append, hfold]
  rfl

/-- Of two fronts of a text the one with fewer bytes has fewer characters. -/
theorem utf8Length_lt_iff {one other text : List Char} (hone : one <+: text)
    (hother : other <+: text) :
    bestMapping.utf8Length one < bestMapping.utf8Length other ↔ one.length < other.length := by
  have hlonger : ∀ {one other : List Char}, one <+: other →
      (bestMapping.utf8Length one < bestMapping.utf8Length other ↔ one.length < other.length) := by
    rintro one _ ⟨rest, rfl⟩
    rw [utf8Length_append, List.length_append]
    cases rest with
    | nil =>
      rw [List.length_nil, show bestMapping.utf8Length [] = 0 from rfl]
      omega
    | cons c rest =>
      have hpos : 0 < bestMapping.utf8Length (c :: rest) := by
        have := utf8Length_append [c] rest
        have hc := c.utf8Size_pos
        rw [List.singleton_append, show bestMapping.utf8Length [c] = 0 + c.utf8Size from rfl] at this
        omega
      rw [List.length_cons]
      omega
  rcases List.prefix_or_prefix_of_prefix hone hother with h | h
  · exact hlonger h
  · obtain ⟨rest, rfl⟩ := h
    have hle : bestMapping.utf8Length other ≤ bestMapping.utf8Length (other ++ rest) := by
      rw [utf8Length_append]
      omega
    rw [List.length_append]
    omega

/-- The entry of a table to use if no pattern in it is the name itself. -/
inductive BestOf (table : List (String × List String)) (name : String) : Option Mapped → Prop where
  | noMatch (h : ∀ entry ∈ table, ∀ captured, ¬ Matches name entry.1 captured) :
      BestOf table name none
  | longest {entry : String × List String} {before captured : List Char}
      (h : LongestMatch table name entry before captured) :
      BestOf table name (some ⟨before, captured, entry.2⟩)

section Search

variable {table : List (String × List String)} {name : String} {best : Option Mapped}

/-- An entry that does not match changes nothing. -/
theorem BestOf.skip (h : BestOf table name best) {entry : String × List String}
    (hentry : ∀ captured, ¬ Matches name entry.1 captured) : BestOf (table ++ [entry]) name best := by
  cases h with
  | noMatch h =>
    refine .noMatch fun other hmem => ?_
    rcases List.mem_append.mp hmem with hmem | hmem
    · exact h other hmem
    · rw [List.mem_singleton.mp hmem]
      exact hentry
  | longest h => exact .longest (h.keep (shorter_of_not_matches hentry _))

/-- An entry that matches takes the place of the best one if more stands before its star. -/
theorem BestOf.meet (h : BestOf table name best) {entry : String × List String}
    {before captured : List Char} (hmatch : StarMatches entry.1 name before captured) :
    BestOf (table ++ [entry]) name
      (if best.all fun b => bestMapping.utf8Length b.before < bestMapping.utf8Length before then
        some ⟨before, captured, entry.2⟩
      else best) := by
  cases h with
  | noMatch h =>
    rw [Option.all_none, if_pos rfl]
    exact .longest (.replace hmatch fun other hmem _ _ hother => absurd (.star hother) (h other hmem _))
  | longest h =>
    simp only [Option.all_some, decide_eq_true_eq,
      utf8Length_lt_iff h.matched.before_prefix hmatch.before_prefix]
    split
    · rename_i hlt
      exact .longest (.replace hmatch (h.shorter.mono hlt))
    · rename_i hle
      exact .longest (h.keep (hmatch.shorter (by omega)))

/-- **What one entry does to the search**: it ends it, or it leaves the best one of the
entries up to it. -/
theorem bestMapping_step (hbest : BestOf table name best) (hexact : NoneExact table name)
    (entry : String × List String) (rest : List (String × List String)) :
    ('*' ∉ name.toList ∧ entry.1 = name
        ∧ bestMapping name.toList (entry :: rest) best = some ⟨name.toList, [], entry.2⟩)
      ∨ ∃ next, BestOf (table ++ [entry]) name next ∧ NoneExact (table ++ [entry]) name
        ∧ bestMapping name.toList (entry :: rest) best = bestMapping name.toList rest next := by
  obtain ⟨pattern, targets⟩ := entry
  rw [bestMapping]
  dsimp only
  cases hcapture : (Wildcard.ofText pattern).capture? name.toList with
  | none =>
    have hnot : ∀ captured, ¬ Matches name pattern captured := fun captured h => by
      rw [(Wildcard.capture?_eq_some_iff pattern name captured).mpr h] at hcapture
      cases hcapture
    refine Or.inr ⟨best, hbest.skip hnot, hexact.append_singleton ?_, rfl⟩
    rintro hplain rfl
    exact hnot [] (.exact hplain)
  | some captured =>
    rcases (Wildcard.capture?_eq_some_iff pattern name captured).mp hcapture with hplain | h
    · rw [Wildcard.ofText_plain hplain]
      exact Or.inl ⟨hplain, rfl, rfl⟩
    · obtain ⟨hfirst, after, htext, _⟩ := id h
      refine Or.inr ⟨_, hbest.meet h, hexact.append_singleton ?_, ?_⟩
      · rintro hplain rfl
        rw [htext] at hplain
        exact hplain (List.mem_append_right _ List.mem_cons_self)
      · rw [Wildcard.ofText_star hfirst htext]
        simp only [Option.isNone_some, Bool.false_eq_true, if_false]
        split <;> rfl

/-- What the search of a table comes to, and the entry that is used. -/
theorem bestMapping_selects (rest : List (String × List String)) (hbest : BestOf table name best)
    (hexact : NoneExact table name) :
    (bestMapping name.toList rest best = none
        ∧ ∀ entry ∈ table ++ rest, ∀ captured, ¬ Matches name entry.1 captured)
      ∨ ∃ found entry, bestMapping name.toList rest best = some found
        ∧ Selects (table ++ rest) name entry found.captured ∧ found.targets = entry.2 := by
  induction rest generalizing table best with
  | nil =>
    rw [List.append_nil]
    cases hbest with
    | noMatch h => exact Or.inl ⟨rfl, h⟩
    | longest h => exact Or.inr ⟨_, _, rfl, .longest hexact h, rfl⟩
  | cons entry rest ih =>
    rcases bestMapping_step hbest hexact entry rest with ⟨hplain, hname, hsearch⟩ |
      ⟨next, hnext, hexact', hsearch⟩
    · obtain ⟨pattern, targets⟩ := entry
      dsimp only at hname
      subst hname
      exact Or.inr ⟨_, _, hsearch, .exact hplain rfl hexact, rfl⟩
    · rw [hsearch, List.append_cons]
      exact ih hnext hexact'

end Search

/-- **What a specifier is mapped to.** A pattern captures what it matches with. If none
matches, the specifier is mapped to nothing; else one entry is used, and each of its
targets, in their order, stands for a path: with the captured text in the place of its
first star it is resolved from the folder of the table. -/
theorem mappedPaths_selects (mappings : PathMappings) (workingDir specifier : String) :
    (∀ pattern captured, (Wildcard.ofText pattern).capture? specifier.toList = some captured
        ↔ Matches specifier pattern captured)
      ∧ ((∀ entry ∈ mappings.paths, ∀ captured, ¬ Matches specifier entry.1 captured) →
          mappings.mappedPaths workingDir specifier = [])
      ∧ ((∃ entry ∈ mappings.paths, ∃ captured, Matches specifier entry.1 captured) →
          ∃ entry captured, Selects mappings.paths specifier entry captured)
      ∧ ∀ entry captured, Selects mappings.paths specifier entry captured →
          mappings.mappedPaths workingDir specifier = entry.2.map fun target =>
            Path.resolve workingDir
              [mappings.baseUrl, .ofList (replaceStar captured target.toList)] := by
  refine ⟨fun pattern => Wildcard.capture?_eq_some_iff pattern specifier, ?_⟩
  have hbest : BestOf [] specifier none := .noMatch fun _ hmem => absurd hmem List.not_mem_nil
  have hexact : NoneExact [] specifier := fun _ _ hmem => absurd hmem List.not_mem_nil
  rcases bestMapping_selects mappings.paths hbest hexact with ⟨hnone, hno⟩ |
    ⟨found, entry, hfound, hselects, htargets⟩
  · rw [List.nil_append] at hno
    refine ⟨fun _ => by rw [PathMappings.mappedPaths, hnone], ?_, ?_⟩
    · rintro ⟨entry, hmem, captured, hmatch⟩
      exact absurd hmatch (hno entry hmem captured)
    · intro entry captured hselects
      obtain ⟨hmem, hmatch⟩ := hselects.matches
      exact absurd hmatch (hno entry hmem captured)
  · rw [List.nil_append] at hselects
    refine ⟨fun hno => ?_, fun _ => ⟨entry, found.captured, hselects⟩, ?_⟩
    · obtain ⟨hmem, hmatch⟩ := hselects.matches
      exact absurd hmatch (hno entry hmem found.captured)
    · intro other captured hother
      obtain ⟨rfl, rfl⟩ := hselects.unique hother
      rw [PathMappings.mappedPaths, hfound]
      simp only [htargets, Wildcard.fill_ofText]

/-- A table in which three patterns match the same name, two of them with as much before
the star. -/
def overlappingMappings : PathMappings where
  baseUrl := "/base"
  paths := [("*", ["all/*"]), ("lib/*/x", ["x/*", "plain"]), ("lib/*", ["lib/*"])]

/-- The first of the longest patterns is used. -/
theorem mappedPaths_selects_overlapping :
    Selects overlappingMappings.paths "lib/one/x" ("lib/*/x", ["x/*", "plain"]) "one".toList
      ∧ overlappingMappings.mappedPaths "/" "lib/one/x" = ["/base/x/one", "/base/plain"] := by
  have hall : StarMatches "*" "lib/one/x" [] "lib/one/x".toList := ⟨by decide, [], by decide⟩
  have hone : StarMatches "lib/*/x" "lib/one/x" "lib/".toList "one".toList :=
    ⟨by decide, "/x".toList, by decide⟩
  have hlib : StarMatches "lib/*" "lib/one/x" "lib/".toList "one/x".toList :=
    ⟨by decide, [], by decide⟩
  have hselects : Selects overlappingMappings.paths "lib/one/x" ("lib/*/x", ["x/*", "plain"])
      "one".toList :=
    .longest (by unfold NoneExact; decide) ⟨hone, [("*", ["all/*"])], [("lib/*", ["lib/*"])], rfl,
      hall.shorter (by decide), hlib.shorter (by decide)⟩
  refine ⟨hselects, ?_⟩
  rw [(mappedPaths_selects overlappingMappings "/" "lib/one/x").2.2.2 _ _ hselects]
  decide +kernel

end PackageOrder
