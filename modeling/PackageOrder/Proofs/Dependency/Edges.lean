/-
PackageOrder.Proofs.Dependency.Edges — the graph of some entry-points by what
they declare.

`Needs` is the relation that the graph is made for: an entry-point that is not
broken needs those others that its imports lead to. With distinct paths the
nodes of the graph are the entry-points under their paths, and its edges are
exactly this relation (`leads_dependencyGraph`), in whatever order they come. What
sorting makes of the entry-points and this graph is `arranged`.
-/
import PackageOrder.Dependency.Order
import PackageOrder.Proofs.Graph.Order
import PackageOrder.Proofs.Run

namespace PackageOrder

/-! ## What entry-points declare -/

namespace EntryPointWithInfo

/-- The path of an entry-point. -/
abbrev path (item : EntryPointWithInfo) : String :=
  item.entryPoint.path

/-- An entry-point lacks something it does not do without. -/
def Broken (item : EntryPointWithInfo) : Prop :=
  item.info.missing ≠ [] ∧ item.entryPoint.ignoreMissingDependencies = false

theorem isBroken_iff (item : EntryPointWithInfo) : item.isBroken = true ↔ item.Broken := by
  simp [isBroken, Broken]

theorem mem_others (item : EntryPointWithInfo) (path : String) :
    path ∈ item.others
      ↔ ¬ item.Broken ∧ path ∈ item.info.dependencies ∧ path ≠ item.path := by
  unfold others
  rw [← isBroken_iff]
  split
  · rename_i h; simp [h]
  · rename_i h; simp [h]

end EntryPointWithInfo

open EntryPointWithInfo (path)

/-- An entry-point among some others needs one of them. -/
structure Needs (items : List EntryPointWithInfo) (item other : EntryPointWithInfo) : Prop where
  mem : item ∈ items
  other_mem : other ∈ items
  not_broken : ¬ item.Broken
  imported : other.path ∈ item.info.dependencies
  ne : other.path ≠ item.path

/-- With distinct paths an entry-point is known by its path. -/
theorem eq_of_path_eq {items : List EntryPointWithInfo} (hd : (items.map path).Nodup)
    {item other : EntryPointWithInfo} (hi : item ∈ items) (ho : other ∈ items)
    (heq : item.path = other.path) : item = other :=
  List.inj_on_of_nodup_map hd hi ho heq

/-! ## Making the graph -/

namespace Graph

/-- The graph with a node for each of some entry-points. -/
def addItems (graph : Graph EntryPoint) (items : List EntryPointWithInfo) : Graph EntryPoint :=
  items.foldl (fun graph item => graph.addNode item.path item.entryPoint) graph

/-- The graph with edges from a node. -/
def addEdgesFrom (graph : Graph EntryPoint) (source : String) (targets : List String) :
    Graph EntryPoint :=
  targets.foldl (fun graph target => graph.addDependency source target) graph

/-- The graph with the edges of some entry-points. -/
def addEdges (graph : Graph EntryPoint) (items : List EntryPointWithInfo) : Graph EntryPoint :=
  items.foldl (fun graph item => graph.addEdgesFrom item.path item.others) graph

variable {graph : Graph EntryPoint}

theorem Built.addItems (h : graph.Built) (items : List EntryPointWithInfo) :
    (graph.addItems items).Built := by
  induction items generalizing graph with
  | nil => exact h
  | cons item rest ih => exact ih (h.addNode item.path item.entryPoint)

theorem Built.addEdgesFrom (h : graph.Built) (source : String) (targets : List String) :
    (graph.addEdgesFrom source targets).Built := by
  induction targets generalizing graph with
  | nil => exact h
  | cons target rest ih => exact ih (h.addDependency source target)

theorem Built.addEdges (h : graph.Built) (items : List EntryPointWithInfo) :
    (graph.addEdges items).Built := by
  induction items generalizing graph with
  | nil => exact h
  | cons item rest ih => exact ih (h.addEdgesFrom item.path item.others)

theorem leads_addItems (graph : Graph EntryPoint) (items : List EntryPointWithInfo)
    (source target : String) :
    (graph.addItems items).Leads source target ↔ graph.Leads source target := by
  induction items generalizing graph with
  | nil => exact Iff.rfl
  | cons item rest ih => exact (ih _).trans (leads_addNode graph _ _ _ _)

/-- The data of a node is the entry-point with its path. -/
theorem data?_addItems (graph : Graph EntryPoint) {items : List EntryPointWithInfo}
    (hd : (items.map path).Nodup) (key : String) (entryPoint : EntryPoint) :
    (graph.addItems items).data? key = some entryPoint
      ↔ (∃ item ∈ items, item.path = key ∧ item.entryPoint = entryPoint)
        ∨ (key ∉ items.map path ∧ graph.data? key = some entryPoint) := by
  induction items generalizing graph with
  | nil => simp [addItems]
  | cons item rest ih =>
    obtain ⟨hnew, hrest⟩ := List.nodup_cons.mp hd
    refine (ih _ hrest).trans ?_
    rw [data?_addNode]
    by_cases hk : key = item.path
    · subst hk
      have hno : ∀ other ∈ rest, other.path ≠ item.path :=
        fun other ho heq => hnew (heq ▸ List.mem_map_of_mem ho)
      constructor
      · rintro (⟨other, ho, hp, _⟩ | ⟨_, hdata⟩)
        · exact absurd hp (hno other ho)
        · rw [if_pos rfl, Option.some.injEq] at hdata
          exact Or.inl ⟨item, List.mem_cons_self .., rfl, hdata⟩
      · rintro (⟨other, ho, hp, he⟩ | ⟨hk, _⟩)
        · rcases List.mem_cons.mp ho with rfl | ho
          · exact Or.inr ⟨hnew, by rw [if_pos rfl, he]⟩
          · exact absurd hp (hno other ho)
        · exact absurd (List.mem_cons_self ..) hk
    · rw [if_neg hk]
      constructor
      · rintro (⟨other, ho, hp⟩ | ⟨hr, hdata⟩)
        · exact Or.inl ⟨other, List.mem_cons_of_mem _ ho, hp⟩
        · exact Or.inr ⟨fun hm => (List.mem_cons.mp hm).elim hk hr, hdata⟩
      · rintro (⟨other, ho, hp, he⟩ | ⟨hr, hdata⟩)
        · rcases List.mem_cons.mp ho with rfl | ho
          · exact absurd hp.symm hk
          · exact Or.inl ⟨other, ho, hp, he⟩
        · exact Or.inr ⟨fun hm => hr (List.mem_cons_of_mem _ hm), hdata⟩

theorem keys_addEdgesFrom (graph : Graph EntryPoint) (source : String) (targets : List String) :
    (graph.addEdgesFrom source targets).keys = graph.keys := by
  induction targets generalizing graph with
  | nil => rfl
  | cons target rest ih => exact (ih _).trans (keys_addDependency graph source target)

theorem data?_addEdges (graph : Graph EntryPoint) (items : List EntryPointWithInfo)
    (key : String) : (graph.addEdges items).data? key = graph.data? key := by
  have hfrom : ∀ (source : String) (targets : List String) (graph : Graph EntryPoint),
      (graph.addEdgesFrom source targets).data? key = graph.data? key := by
    intro source targets
    induction targets with
    | nil => exact fun _ => rfl
    | cons target rest ih =>
      exact fun graph => (ih _).trans (data?_addDependency graph source target key)
  induction items generalizing graph with
  | nil => rfl
  | cons item rest ih => exact (ih _).trans (hfrom _ _ graph)

theorem leads_addEdgesFrom (h : graph.Built) (source : String) (targets : List String)
    (first second : String) :
    (graph.addEdgesFrom source targets).Leads first second
      ↔ graph.Leads first second
        ∨ (first = source ∧ second ∈ targets ∧ source ∈ graph.keys ∧ second ∈ graph.keys) := by
  induction targets generalizing graph with
  | nil => simp [addEdgesFrom]
  | cons target rest ih =>
    refine (ih (h.addDependency source target)).trans ?_
    rw [h.coherent.leads_addDependency, keys_addDependency, or_assoc]
    apply or_congr_right
    constructor
    · rintro (⟨⟨hs, ht⟩, rfl, rfl⟩ | ⟨rfl, hm, hs, ht⟩)
      · exact ⟨rfl, List.mem_cons_self .., hs, ht⟩
      · exact ⟨rfl, List.mem_cons_of_mem _ hm, hs, ht⟩
    · rintro ⟨rfl, hm, hs, ht⟩
      rcases List.mem_cons.mp hm with rfl | hm
      · exact Or.inl ⟨⟨hs, ht⟩, rfl, rfl⟩
      · exact Or.inr ⟨rfl, hm, hs, ht⟩

theorem leads_addEdges (h : graph.Built) (items : List EntryPointWithInfo)
    (first second : String) :
    (graph.addEdges items).Leads first second
      ↔ graph.Leads first second
        ∨ ∃ item ∈ items, first = item.path ∧ second ∈ item.others
            ∧ item.path ∈ graph.keys ∧ second ∈ graph.keys := by
  induction items generalizing graph with
  | nil => simp [addEdges]
  | cons item rest ih =>
    refine (ih (h.addEdgesFrom item.path item.others)).trans ?_
    rw [leads_addEdgesFrom h, keys_addEdgesFrom, or_assoc]
    apply or_congr_right
    simp only [List.mem_cons, exists_eq_or_imp]

end Graph

/-! ## What the graph holds -/

section DependencyGraph

variable {items : List EntryPointWithInfo}

theorem dependencyGraph_eq (items : List EntryPointWithInfo) :
    dependencyGraph items = (Graph.addItems {} items).addEdges items := rfl

theorem dependencyGraph_built (items : List EntryPointWithInfo) :
    (dependencyGraph items).Built :=
  (Graph.Built.empty.addItems items).addEdges items

theorem data?_dependencyGraph (hd : (items.map path).Nodup) (key : String)
    (entryPoint : EntryPoint) :
    (dependencyGraph items).data? key = some entryPoint
      ↔ ∃ item ∈ items, item.path = key ∧ item.entryPoint = entryPoint := by
  rw [dependencyGraph_eq, Graph.data?_addEdges, Graph.data?_addItems {} hd]
  simp [Graph.data?]

theorem mem_keys_dependencyGraph (hd : (items.map path).Nodup) (key : String) :
    key ∈ (dependencyGraph items).keys ↔ ∃ item ∈ items, item.path = key := by
  rw [← Graph.data?_isSome_iff, Option.isSome_iff_exists]
  constructor
  · rintro ⟨entryPoint, hdata⟩
    obtain ⟨item, hi, hp, _⟩ := (data?_dependencyGraph hd key entryPoint).mp hdata
    exact ⟨item, hi, hp⟩
  · rintro ⟨item, hi, hp⟩
    exact ⟨item.entryPoint, (data?_dependencyGraph hd key _).mpr ⟨item, hi, hp, rfl⟩⟩

/-- The edges of the graph are what entry-points need. -/
theorem leads_dependencyGraph (hd : (items.map path).Nodup) (source target : String) :
    (dependencyGraph items).Leads source target
      ↔ ∃ item other, Needs items item other ∧ item.path = source ∧ other.path = target := by
  have hnodes : ∀ key, key ∈ (Graph.addItems {} items).keys ↔ ∃ item ∈ items, item.path = key := by
    intro key
    rw [← mem_keys_dependencyGraph hd, ← Graph.data?_isSome_iff, ← Graph.data?_isSome_iff,
      dependencyGraph_eq, Graph.data?_addEdges]
  rw [dependencyGraph_eq, Graph.leads_addEdges (Graph.Built.empty.addItems items)]
  have hempty : ¬ (Graph.addItems {} items).Leads source target := by
    rw [Graph.leads_addItems]
    intro hl
    cases hl
  constructor
  · rintro (hl | ⟨item, hi, rfl, hm, _, ht⟩)
    · exact absurd hl hempty
    · obtain ⟨other, ho, rfl⟩ := (hnodes target).mp ht
      obtain ⟨hb, hdep, hne⟩ := (item.mem_others _).mp hm
      exact ⟨item, other, ⟨hi, ho, hb, hdep, hne⟩, rfl, rfl⟩
  · rintro ⟨item, other, hn, rfl, rfl⟩
    refine Or.inr ⟨item, hn.mem, rfl, ?_, ?_, ?_⟩
    · exact (item.mem_others _).mpr ⟨hn.not_broken, hn.imported, hn.ne⟩
    · exact (hnodes _).mpr ⟨item, hn.mem, rfl⟩
    · exact (hnodes _).mpr ⟨other, hn.other_mem, rfl⟩

end DependencyGraph

/-! ## Sorting -/

/-- What sorting makes of the entry-points that take part. -/
def arranged (items : List EntryPointWithInfo) (target : Option EntryPoint)
    (ignored : List IgnoredDependency) : SortedEntryPoints :=
  let (graph, invalid) := removeInvalid (dependencyGraph items) (ownMissing items)
  { entryPoints := (processingOrder graph target).filterMap graph.data?
    invalid, graph, ignored }

/-- **What sorting comes to**, with what is ignored at each entry-point. -/
theorem runFrom_sortEntryPoints_eq_ok {configuration : Configuration}
    {items : List EntryPointWithInfo} {target : Option EntryPoint} {session after : Session}
    {sorted : SortedEntryPoints} :
    (sortEntryPoints configuration items target).runFrom session = (.ok sorted, after)
      ↔ ∃ ignored,
        ((items.filter (·.entryPoint.compiledByAngular)).mapM (ignoredOf configuration
            (dependencyGraph (items.filter (·.entryPoint.compiledByAngular))))).runFrom session
          = (.ok ignored, after)
        ∧ sorted = arranged (items.filter (·.entryPoint.compiledByAngular)) target
          ignored.flatten := by
  unfold sortEntryPoints
  dsimp only
  rw [Run.runFrom_bind_eq_ok]
  constructor
  · rintro ⟨ignored, middle, hignored, h⟩
    cases h
    exact ⟨ignored, hignored, rfl⟩
  · rintro ⟨ignored, hignored, rfl⟩
    exact ⟨ignored, after, hignored, rfl⟩

end PackageOrder
