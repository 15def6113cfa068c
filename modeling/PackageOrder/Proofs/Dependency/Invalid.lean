/-
PackageOrder.Proofs.Dependency.Invalid — which entry-points are left out of the
order, what is said of them, and that neither depends on the order in which the
entry-points are given.

`Invalid` is the closure that the graph search computes: an entry-point that is
broken, or that needs, perhaps through others, one that is. `Blames` says what
the report of an invalid entry-point lists. `SortedEntryPoints.Reports` puts
both together with the nodes and edges that are left, as a relation between the
entry-points and the outcome that determines the reports and the graph;
`sortEntryPoints_reports` is the statement that sorting meets it.

The proof goes through paths: in the graph of the entry-points the search is for
dependants of broken paths, and distinct paths make the two views agree
(`dependsOn_dependencyGraph`).
-/
import PackageOrder.Proofs.Dependency.Edges
import PackageOrder.Proofs.Run
import PackageOrder.Proofs.Text.Sorted

namespace PackageOrder

open PackageOrder.Text
open EntryPointWithInfo (path)
open Relation (ReflTransGen TransGen)

/-! ## What is left out -/

/-- An entry-point is broken, or needs one that is. -/
def Invalid (items : List EntryPointWithInfo) (item : EntryPointWithInfo) : Prop :=
  ∃ broken ∈ items, broken.Broken ∧ ReflTransGen (Needs items) item broken

/-- What is said to be missing of an invalid entry-point: if it is broken what
it lacks itself, else the least path of the invalid ones that it needs. -/
inductive Blames (items : List EntryPointWithInfo) (item : EntryPointWithInfo) :
    List String → Prop where
  | own : item.Broken → Blames items item item.info.missing
  | needed (other : EntryPointWithInfo) : ¬ item.Broken → Needs items item other →
      Invalid items other →
      (∀ another, Needs items item another → Invalid items another → other.path ≤ another.path) →
      Blames items item [other.path]

/-- What sorting says of some entry-points, and the graph that it leaves. -/
structure SortedEntryPoints.Reports (sorted : SortedEntryPoints)
    (items : List EntryPointWithInfo) : Prop where
  /-- The invalid entry-points stand by increasing path. -/
  increasing : sorted.invalid.Pairwise fun one other =>
    one.entryPoint.path < other.entryPoint.path
  invalid_iff : ∀ report, report ∈ sorted.invalid
    ↔ ∃ item, Invalid items item ∧ report.entryPoint = item.entryPoint
        ∧ Blames items item report.missing
  /-- The nodes of the graph are the other entry-points under their paths, each
  once. -/
  nodup : sorted.graph.keys.Nodup
  data?_iff : ∀ key entryPoint, sorted.graph.data? key = some entryPoint
    ↔ ∃ item ∈ items, ¬ Invalid items item ∧ item.path = key ∧ item.entryPoint = entryPoint
  leads_iff : ∀ source target, sorted.graph.Leads source target
    ↔ ∃ item other, Needs items item other ∧ ¬ Invalid items item ∧ ¬ Invalid items other
        ∧ item.path = source ∧ other.path = target

/-- Two outcomes report the same and leave the same nodes and edges. -/
structure SortedEntryPoints.Agrees (one other : SortedEntryPoints) : Prop where
  invalid_eq : one.invalid = other.invalid
  data?_eq : ∀ key, one.graph.data? key = other.graph.data? key
  leads_iff : ∀ source target, one.graph.Leads source target ↔ other.graph.Leads source target

section Items

variable {items : List EntryPointWithInfo}

theorem Invalid.mem {item : EntryPointWithInfo} (h : Invalid items item) : item ∈ items := by
  obtain ⟨broken, hb, _, hr⟩ := h
  rcases ReflTransGen.cases_head hr with rfl | ⟨_, hn, _⟩
  · exact hb
  · exact hn.mem

/-- One that is not broken itself is invalid because of one that it needs. -/
theorem Invalid.exists_needs {item : EntryPointWithInfo} (h : Invalid items item)
    (hb : ¬ item.Broken) : ∃ other, Needs items item other ∧ Invalid items other := by
  obtain ⟨broken, hmem, hbroken, hr⟩ := h
  rcases ReflTransGen.cases_head hr with rfl | ⟨other, hn, hr⟩
  · exact absurd hbroken hb
  · exact ⟨other, hn, broken, hmem, hbroken, hr⟩

/-! ## From entry-points to paths -/

/-- Among paths one depends on another if the entry-points do. -/
theorem dependsOn_dependencyGraph (hd : (items.map path).Nodup) (source target : String) :
    (dependencyGraph items).DependsOn source target
      ↔ ∃ item other, TransGen (Needs items) item other
          ∧ item.path = source ∧ other.path = target := by
  constructor
  · intro h
    induction h with
    | single hl =>
      obtain ⟨item, other, hn, hs, ht⟩ := (leads_dependencyGraph hd _ _).mp hl
      exact ⟨item, other, TransGen.single hn, hs, ht⟩
    | tail _ hl ih =>
      obtain ⟨item, other, htrans, hs, ho⟩ := ih
      obtain ⟨next, last, hn, hnext, ht⟩ := (leads_dependencyGraph hd _ _).mp hl
      obtain ⟨_, _, hinto⟩ := TransGen.tail'_iff.mp htrans
      have heq : next = other := eq_of_path_eq hd hn.mem hinto.other_mem (hnext.trans ho.symm)
      exact ⟨item, last, htrans.tail (heq ▸ hn), hs, ht⟩
  · rintro ⟨item, other, htrans, rfl, rfl⟩
    refine htrans.lift path ?_
    intro item other hn
    exact (leads_dependencyGraph hd _ _).mpr ⟨item, other, hn, rfl, rfl⟩

/-- What is found under a path is what the broken entry-point there lacks. -/
theorem lookup_ownMissing (hd : (items.map path).Nodup) (key : String) (own : List String) :
    (ownMissing items).lookup key = some own
      ↔ ∃ item ∈ items, item.Broken ∧ item.path = key ∧ item.info.missing = own := by
  have hfold : ∀ (items : List EntryPointWithInfo) (found : List (String × List String)),
      (items.map path).Nodup → (∀ item ∈ items, found.lookup item.path = none) →
      ((items.foldl (fun found item =>
          if item.isBroken then
            Json.Decoder.insertPair item.entryPoint.path item.info.missing found
          else found) found).lookup key = some own
        ↔ (∃ item ∈ items, item.Broken ∧ item.path = key ∧ item.info.missing = own)
          ∨ found.lookup key = some own) := by
    intro items
    induction items with
    | nil => intro found _ _; simp
    | cons item rest ih =>
      intro found hd hnone
      obtain ⟨hnew, hrest⟩ := List.nodup_cons.mp hd
      have hlater : ∀ other ∈ rest, other.path ≠ item.path :=
        fun other ho heq => hnew (heq ▸ List.mem_map_of_mem ho)
      have hkept : ∀ other ∈ rest, found.lookup other.path = none :=
        fun other ho => hnone other (List.mem_cons_of_mem _ ho)
      simp only [List.foldl_cons, List.mem_cons, exists_eq_or_imp]
      by_cases hb : item.isBroken = true
      · rw [if_pos hb, ih _ hrest]
        · rw [lookup_insertPair]
          by_cases hk : key = item.path
          · rw [if_pos hk, hk, hnone item (List.mem_cons_self ..)]
            simp only [(item.isBroken_iff).mp hb, true_and, Option.some.injEq, reduceCtorEq, or_false]
            exact or_comm
          · rw [if_neg hk]
            simp only [Ne.symm hk, false_and, and_false, false_or]
        · intro other ho
          rw [lookup_insertPair, if_neg (hlater other ho)]
          exact hkept other ho
      · rw [if_neg hb, ih _ hrest hkept]
        rw [item.isBroken_iff] at hb
        simp only [hb, false_and, false_or]
  refine (hfold items [] hd (fun _ _ => rfl)).trans ?_
  simp

theorem mem_keys_ownMissing (hd : (items.map path).Nodup) (key : String) :
    key ∈ (ownMissing items).map (·.1) ↔ ∃ item ∈ items, item.Broken ∧ item.path = key := by
  rw [← lookup_isSome_iff_mem_keys, Option.isSome_iff_exists]
  constructor
  · rintro ⟨own, hl⟩
    obtain ⟨item, hi, hb, hp, _⟩ := (lookup_ownMissing hd key own).mp hl
    exact ⟨item, hi, hb, hp⟩
  · rintro ⟨item, hi, hb, hp⟩
    exact ⟨_, (lookup_ownMissing hd key _).mpr ⟨item, hi, hb, hp, rfl⟩⟩

/-! ## The invalid paths -/

theorem increasing_invalidPaths (graph : Graph EntryPoint) (broken : List String) :
    (invalidPaths graph broken).Increasing := by
  unfold invalidPaths
  generalize hset : SortedSet.ofList broken = set
  have hinc : set.Increasing := hset ▸ SortedSet.increasing_ofList broken
  clear hset
  induction broken generalizing set with
  | nil => exact hinc
  | cons first rest ih => exact ih _ (SortedSet.increasing_union hinc _)

theorem mem_invalidPaths {graph : Graph EntryPoint} (h : graph.Coherent) (broken : List String)
    (key : String) :
    key ∈ invalidPaths graph broken
      ↔ key ∈ broken ∨ ∃ source ∈ broken, graph.DependsOn key source := by
  have hfold : ∀ (paths : List String) (set : SortedSet),
      key ∈ paths.foldl (fun found path => found.union (graph.dependants path)) set
        ↔ key ∈ set ∨ ∃ source ∈ paths, key ∈ graph.dependants source := by
    intro paths
    induction paths with
    | nil => simp
    | cons first rest ih =>
      intro set
      rw [List.foldl_cons, ih, SortedSet.mem_union, or_assoc]
      simp only [List.mem_cons, exists_eq_or_imp]
  rw [invalidPaths, hfold, SortedSet.mem_ofList]
  constructor
  · rintro (hmem | ⟨source, hs, hdep⟩)
    · exact Or.inl hmem
    · exact Or.inr ⟨source, hs, ((h.mem_dependants source key).mp hdep).2⟩
  · rintro (hmem | ⟨source, hs, hdep⟩)
    · exact Or.inl hmem
    · by_cases heq : key = source
      · exact Or.inl (heq ▸ hs)
      · exact Or.inr ⟨source, hs, (h.mem_dependants source key).mpr ⟨heq, hdep⟩⟩

/-- The paths that are taken out are those of the invalid entry-points. -/
theorem mem_invalidPaths_iff (hd : (items.map path).Nodup) (key : String) :
    key ∈ invalidPaths (dependencyGraph items) ((ownMissing items).map (·.1))
      ↔ ∃ item, Invalid items item ∧ item.path = key := by
  rw [mem_invalidPaths (dependencyGraph_built items).coherent, mem_keys_ownMissing hd]
  simp only [mem_keys_ownMissing hd, dependsOn_dependencyGraph hd]
  constructor
  · rintro (⟨item, hi, hb, hp⟩ | ⟨_, ⟨broken, hmem, hb, rfl⟩, item, other, htrans, hp, ho⟩)
    · exact ⟨item, ⟨item, hi, hb, ReflTransGen.refl⟩, hp⟩
    · obtain ⟨_, _, hinto⟩ := TransGen.tail'_iff.mp htrans
      have heq : other = broken := eq_of_path_eq hd hinto.other_mem hmem ho
      exact ⟨item, ⟨broken, hmem, hb, heq ▸ htrans.to_reflTransGen⟩, hp⟩
  · rintro ⟨item, ⟨broken, hmem, hb, hr⟩, hp⟩
    rcases Relation.reflTransGen_iff_eq_or_transGen.mp hr with rfl | htrans
    · exact Or.inl ⟨_, hmem, hb, hp⟩
    · exact Or.inr ⟨broken.path, ⟨broken, hmem, hb, rfl⟩, item, broken, htrans, hp, rfl⟩

theorem mem_invalidPaths_path (hd : (items.map path).Nodup) {item : EntryPointWithInfo}
    (hi : item ∈ items) :
    item.path ∈ invalidPaths (dependencyGraph items) ((ownMissing items).map (·.1))
      ↔ Invalid items item := by
  rw [mem_invalidPaths_iff hd]
  constructor
  · rintro ⟨other, ho, hp⟩
    exact eq_of_path_eq hd ho.mem hi hp ▸ ho
  · exact fun h => ⟨item, h, rfl⟩

/-! ## The reports -/

theorem Blames.unique {item : EntryPointWithInfo} {one other : List String}
    (h1 : Blames items item one) (h2 : Blames items item other) : one = other := by
  cases h1 with
  | own hb =>
    cases h2 with
    | own _ => rfl
    | needed _ hnb _ _ _ => exact absurd hb hnb
  | needed first hnb hn1 hi1 hleast1 =>
    cases h2 with
    | own hb => exact absurd hb hnb
    | needed second _ hn2 hi2 hleast2 =>
      rw [String.le_antisymm (hleast1 second hn2 hi2) (hleast2 first hn1 hi1)]

theorem mem_directDependencies (hd : (items.map path).Nodup) {item : EntryPointWithInfo}
    (hi : item ∈ items) (target : String) :
    target ∈ (dependencyGraph items).directDependencies item.path
      ↔ ∃ other, Needs items item other ∧ other.path = target := by
  refine (leads_dependencyGraph hd item.path target).trans ?_
  constructor
  · rintro ⟨source, other, hn, hs, ht⟩
    exact ⟨other, eq_of_path_eq hd hn.mem hi hs ▸ hn, ht⟩
  · rintro ⟨other, hn, ht⟩
    exact ⟨item, other, hn, rfl, ht⟩

/-- What is looked up or searched for an invalid entry-point is what it lacks. -/
theorem blames_blame (hd : (items.map path).Nodup) {item : EntryPointWithInfo}
    (h : Invalid items item) :
    Blames items item (blame (dependencyGraph items) (ownMissing items)
      (invalidPaths (dependencyGraph items) ((ownMissing items).map (·.1))) item.path) := by
  generalize hinvalid : invalidPaths (dependencyGraph items) ((ownMissing items).map (·.1))
    = invalid
  unfold blame
  split
  · rename_i own hl
    obtain ⟨other, ho, hb, hp, rfl⟩ := (lookup_ownMissing hd item.path own).mp hl
    rw [eq_of_path_eq hd ho h.mem hp] at hb ⊢
    exact Blames.own hb
  · rename_i hl
    have hb : ¬ item.Broken := by
      intro hb
      rw [(lookup_ownMissing hd item.path _).mpr ⟨item, h.mem, hb, rfl, rfl⟩] at hl
      cases hl
    have hmem : ∀ target,
        target ∈ SortedSet.ofList ((dependencyGraph items).directDependencies item.path)
            ∧ invalid.contains target = true
          ↔ ∃ other, (Needs items item other ∧ Invalid items other) ∧ other.path = target := by
      intro target
      rw [SortedSet.mem_ofList, mem_directDependencies hd h.mem, List.contains_iff_mem, ← hinvalid]
      constructor
      · rintro ⟨⟨other, hn, rfl⟩, hi⟩
        exact ⟨other, ⟨hn, (mem_invalidPaths_path hd hn.other_mem).mp hi⟩, rfl⟩
      · rintro ⟨other, ⟨hn, hi⟩, rfl⟩
        exact ⟨⟨other, hn, rfl⟩, (mem_invalidPaths_path hd hn.other_mem).mpr hi⟩
    cases hfind : (SortedSet.ofList ((dependencyGraph items).directDependencies item.path)).find?
        (invalid.contains ·) with
    | none =>
      obtain ⟨other, hn, hi⟩ := h.exists_needs hb
      obtain ⟨hdep, hcon⟩ := (hmem other.path).mpr ⟨other, ⟨hn, hi⟩, rfl⟩
      exact absurd hcon (by simpa using List.find?_eq_none.mp hfind other.path hdep)
    | some target =>
      obtain ⟨hfirst, hleast⟩ :=
        (SortedSet.find?_eq_some_iff_least (SortedSet.increasing_ofList _) _ target).mp hfind
      obtain ⟨other, ⟨hn, hi⟩, rfl⟩ := (hmem target).mp hfirst
      refine Blames.needed other hb hn hi ?_
      intro another hna hia
      obtain ⟨hdep, hcon⟩ := (hmem another.path).mpr ⟨another, ⟨hna, hia⟩, rfl⟩
      exact hleast another.path hdep hcon

/-- The entry-points that are reported stand by increasing path. -/
theorem increasing_removeInvalid (hd : (items.map path).Nodup) :
    (removeInvalid (dependencyGraph items) (ownMissing items)).2.Pairwise
      fun one other => one.entryPoint.path < other.entryPoint.path := by
  rw [removeInvalid, List.pairwise_filterMap]
  refine List.Pairwise.imp ?_ (increasing_invalidPaths _ _)
  intro one other hlt first hfirst second hsecond
  obtain ⟨e1, he1, rfl⟩ := Option.map_eq_some_iff.mp hfirst
  obtain ⟨e2, he2, rfl⟩ := Option.map_eq_some_iff.mp hsecond
  obtain ⟨_, _, rfl, rfl⟩ := (data?_dependencyGraph hd one e1).mp he1
  obtain ⟨_, _, rfl, rfl⟩ := (data?_dependencyGraph hd other e2).mp he2
  exact hlt

/-- The invalid entry-points are reported, each with what it lacks. -/
theorem mem_removeInvalid (hd : (items.map path).Nodup) (report : InvalidEntryPoint) :
    report ∈ (removeInvalid (dependencyGraph items) (ownMissing items)).2
      ↔ ∃ item, Invalid items item ∧ report.entryPoint = item.entryPoint
          ∧ Blames items item report.missing := by
  rw [removeInvalid, List.mem_filterMap]
  constructor
  · rintro ⟨key, hkey, hreport⟩
    obtain ⟨item, hi, rfl⟩ := (mem_invalidPaths_iff hd key).mp hkey
    obtain ⟨entryPoint, hdata, rfl⟩ := Option.map_eq_some_iff.mp hreport
    obtain ⟨other, ho, hp, rfl⟩ := (data?_dependencyGraph hd item.path entryPoint).mp hdata
    rw [eq_of_path_eq hd ho hi.mem hp]
    exact ⟨item, hi, rfl, blames_blame hd hi⟩
  · rintro ⟨item, hi, he, hm⟩
    refine ⟨item.path, (mem_invalidPaths_iff hd item.path).mpr ⟨item, hi, rfl⟩, ?_⟩
    rw [(data?_dependencyGraph hd item.path _).mpr ⟨item, hi.mem, rfl, rfl⟩, Option.map_some,
      ← he, (blames_blame hd hi).unique hm]

/-- The nodes that stay are the other entry-points. -/
theorem data?_removeInvalid (hd : (items.map path).Nodup) (key : String)
    (entryPoint : EntryPoint) :
    (removeInvalid (dependencyGraph items) (ownMissing items)).1.data? key = some entryPoint
      ↔ ∃ item ∈ items, ¬ Invalid items item ∧ item.path = key
          ∧ item.entryPoint = entryPoint := by
  rw [removeInvalid, Graph.data?_foldl_removeNode]
  constructor
  · intro hdata
    split at hdata
    · cases hdata
    · rename_i hvalid
      obtain ⟨item, hi, rfl, he⟩ := (data?_dependencyGraph hd key entryPoint).mp hdata
      exact ⟨item, hi, fun h => hvalid ((mem_invalidPaths_path hd hi).mpr h), rfl, he⟩
  · rintro ⟨item, hi, hvalid, rfl, he⟩
    rw [if_neg fun h => hvalid ((mem_invalidPaths_path hd hi).mp h)]
    exact (data?_dependencyGraph hd _ _).mpr ⟨item, hi, rfl, he⟩

/-- The edges that stay are those between the other entry-points. -/
theorem leads_removeInvalid (hd : (items.map path).Nodup) (source target : String) :
    (removeInvalid (dependencyGraph items) (ownMissing items)).1.Leads source target
      ↔ ∃ item other, Needs items item other ∧ ¬ Invalid items item ∧ ¬ Invalid items other
          ∧ item.path = source ∧ other.path = target := by
  rw [removeInvalid, (dependencyGraph_built items).coherent.leads_foldl_removeNode,
    leads_dependencyGraph hd]
  constructor
  · rintro ⟨⟨item, other, hn, rfl, rfl⟩, hs, ht⟩
    exact ⟨item, other, hn, fun h => hs ((mem_invalidPaths_path hd hn.mem).mpr h),
      fun h => ht ((mem_invalidPaths_path hd hn.other_mem).mpr h), rfl, rfl⟩
  · rintro ⟨item, other, hn, hi, ho, rfl, rfl⟩
    exact ⟨⟨item, other, hn, rfl, rfl⟩, fun h => hi ((mem_invalidPaths_path hd hn.mem).mp h),
      fun h => ho ((mem_invalidPaths_path hd hn.other_mem).mp h)⟩

/-- Taking out the invalid entry-points reports each of them and leaves the graph
of the others. -/
theorem removeInvalid_reports (hd : (items.map path).Nodup) (sorted : SortedEntryPoints)
    (hsorted : removeInvalid (dependencyGraph items) (ownMissing items)
      = (sorted.graph, sorted.invalid)) : sorted.Reports items := by
  have hgraph : sorted.graph = (removeInvalid (dependencyGraph items) (ownMissing items)).1 := by
    rw [hsorted]
  have hinvalid : sorted.invalid
      = (removeInvalid (dependencyGraph items) (ownMissing items)).2 := by
    rw [hsorted]
  refine ⟨?_, ?_, ?_, ?_, ?_⟩
  · rw [hinvalid]
    exact increasing_removeInvalid hd
  · rw [hinvalid]
    exact mem_removeInvalid hd
  · rw [hgraph]
    exact ((dependencyGraph_built items).foldl_removeNode _).coherent.nodup
  · rw [hgraph]
    exact data?_removeInvalid hd
  · rw [hgraph]
    exact leads_removeInvalid hd

/-! ## The order of the entry-points does not matter -/

section Same

variable {others : List EntryPointWithInfo} (hsame : ∀ item, item ∈ items ↔ item ∈ others)

include hsame

theorem needs_congr (item other : EntryPointWithInfo) :
    Needs items item other ↔ Needs others item other :=
  ⟨fun h => ⟨(hsame _).mp h.mem, (hsame _).mp h.other_mem, h.not_broken, h.imported, h.ne⟩,
    fun h => ⟨(hsame _).mpr h.mem, (hsame _).mpr h.other_mem, h.not_broken, h.imported, h.ne⟩⟩

theorem invalid_congr (item : EntryPointWithInfo) : Invalid items item ↔ Invalid others item := by
  have hneeds : Needs items = Needs others := by
    funext one other
    exact propext (needs_congr hsame one other)
  unfold Invalid
  rw [hneeds]
  constructor
  · rintro ⟨broken, hb, h⟩
    exact ⟨broken, (hsame broken).mp hb, h⟩
  · rintro ⟨broken, hb, h⟩
    exact ⟨broken, (hsame broken).mpr hb, h⟩

theorem Blames.congr {item : EntryPointWithInfo} {missing : List String}
    (h : Blames items item missing) : Blames others item missing := by
  cases h with
  | own hb => exact Blames.own hb
  | needed other hb hn hi hleast =>
    refine Blames.needed other hb ((needs_congr hsame _ _).mp hn)
      ((invalid_congr hsame _).mp hi) ?_
    intro another hna hia
    exact hleast another ((needs_congr hsame _ _).mpr hna) ((invalid_congr hsame _).mpr hia)

/-- Reports about the same entry-points are about them in any order. -/
theorem SortedEntryPoints.Reports.congr {sorted : SortedEntryPoints} (h : sorted.Reports items) :
    sorted.Reports others where
  increasing := h.increasing
  invalid_iff := by
    intro report
    rw [h.invalid_iff]
    constructor
    · rintro ⟨item, hi, he, hm⟩
      exact ⟨item, (invalid_congr hsame item).mp hi, he, hm.congr hsame⟩
    · rintro ⟨item, hi, he, hm⟩
      exact ⟨item, (invalid_congr hsame item).mpr hi, he, hm.congr fun i => (hsame i).symm⟩
  nodup := h.nodup
  data?_iff := by
    intro key entryPoint
    rw [h.data?_iff]
    simp only [hsame, invalid_congr hsame]
  leads_iff := by
    intro source target
    rw [h.leads_iff]
    simp only [needs_congr hsame, invalid_congr hsame]

end Same

/-- The reports and the graph are determined by what they say. -/
theorem SortedEntryPoints.Reports.unique {one other : SortedEntryPoints}
    (h1 : one.Reports items) (h2 : other.Reports items) : one.Agrees other := by
  refine ⟨?_, ?_, ?_⟩
  · refine eq_of_increasing_keys h1.increasing h2.increasing ?_
    intro report
    rw [h1.invalid_iff, h2.invalid_iff]
  · intro key
    apply Option.ext
    intro entryPoint
    rw [h1.data?_iff, h2.data?_iff]
  · intro source target
    rw [h1.leads_iff, h2.leads_iff]

end Items

/-! ## Sorting -/

theorem removeInvalid_of_sortEntryPoints {configuration : Configuration}
    {items : List EntryPointWithInfo} {target : Option EntryPoint} {session after : Session}
    {sorted : SortedEntryPoints}
    (h : (sortEntryPoints configuration items target).runFrom session = (.ok sorted, after)) :
    removeInvalid (dependencyGraph (items.filter (·.entryPoint.compiledByAngular)))
        (ownMissing (items.filter (·.entryPoint.compiledByAngular)))
      = (sorted.graph, sorted.invalid) := by
  obtain ⟨ignored, _, rfl⟩ := runFrom_sortEntryPoints_eq_ok.mp h
  rfl

/-- **Sorting reports the invalid entry-points and keeps the others**, and
neither depends on the order of the entry-points, on the target or on what the
session holds. -/
theorem sortEntryPoints_reports (configuration : Configuration)
    (items : List EntryPointWithInfo) (target : Option EntryPoint) (session after : Session)
    (sorted : SortedEntryPoints) (hdistinct : (items.map path).Nodup)
    (hsorted : (sortEntryPoints configuration items target).runFrom session
      = (.ok sorted, after)) :
    sorted.Reports (items.filter (·.entryPoint.compiledByAngular))
      ∧ ∀ (configuration' : Configuration) (items' : List EntryPointWithInfo)
          (target' : Option EntryPoint) (session' after' : Session) (sorted' : SortedEntryPoints),
        items'.Perm items →
        (sortEntryPoints configuration' items' target').runFrom session'
          = (.ok sorted', after') →
        sorted'.Agrees sorted := by
  have hreports : ∀ {items : List EntryPointWithInfo} {sorted : SortedEntryPoints},
      (items.map path).Nodup →
      removeInvalid (dependencyGraph (items.filter (·.entryPoint.compiledByAngular)))
          (ownMissing (items.filter (·.entryPoint.compiledByAngular)))
        = (sorted.graph, sorted.invalid) →
      sorted.Reports (items.filter (·.entryPoint.compiledByAngular)) := by
    intro items sorted hd hremoved
    refine removeInvalid_reports ?_ sorted hremoved
    exact hd.sublist (List.filter_sublist.map path)
  have h := hreports hdistinct (removeInvalid_of_sortEntryPoints hsorted)
  refine ⟨h, ?_⟩
  intro configuration' items' target' session' after' sorted' hperm hsorted'
  have h' := hreports ((hperm.map path).nodup_iff.mpr hdistinct)
    (removeInvalid_of_sortEntryPoints hsorted')
  exact (h'.congr fun item => (hperm.filter _).mem_iff).unique h

/-- An entry-point that imports some others and lacks some specifiers. -/
def itemAt (path : String) (dependencies missing : List String) : EntryPointWithInfo where
  entryPoint := { (default : EntryPoint) with path, compiledByAngular := true }
  info := { dependencies, missing }

/-- Two broken entry-points, one that needs both, and one that needs that. -/
theorem sortEntryPoints_reports_two_broken :
    let items := [itemAt "/x" ["/a", "/c"] [], itemAt "/c" [] ["q"], itemAt "/y" ["/x", "/z"] [],
      itemAt "/a" ["/y"] ["p"], itemAt "/z" ["/z"] []]
    let sort := fun items => (sortEntryPoints ⟨[], ""⟩ items none).runFrom { tree := {} }
    (items.map path).Nodup ∧ ∃ sorted after sorted' after',
      sort items = (.ok sorted, after) ∧ sort items.reverse = (.ok sorted', after')
        ∧ sorted.invalid.map (fun report => (report.entryPoint.path, report.missing))
          = [("/a", ["p"]), ("/c", ["q"]), ("/x", ["/a"]), ("/y", ["/x"])]
        ∧ sorted.Reports (items.filter (·.entryPoint.compiledByAngular))
        ∧ sorted'.Agrees sorted := by
  intro items sort
  have hdistinct : (items.map path).Nodup := by decide
  have h := sortEntryPoints_reports ⟨[], ""⟩ items none { tree := {} } _ _ hdistinct rfl
  exact ⟨hdistinct, _, _, _, _, rfl, rfl, by decide +kernel, h.1,
    h.2 ⟨[], ""⟩ items.reverse none { tree := {} } _ _ (List.reverse_perm items) rfl⟩

end PackageOrder
