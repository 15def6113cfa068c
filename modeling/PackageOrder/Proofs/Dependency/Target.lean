/-
PackageOrder.Proofs.Dependency.Target — the order for a target: what it holds,
how it runs, and that it depends on nothing but what the target needs.

`TargetOrder` is the specification: the list ends with the target, holds it and
what it needs, each once, and has each entry-point after those that it needs
directly, unless these need it in turn. Two lists that meet it may still differ,
so that the same list comes out is a statement of its own: among some
entry-points that are closed under needs (`ClosedPart`) each of them has the same
edges in the same order (`ClosedPart.edgesAmong_eq`) and is invalid in the same cases
(`ClosedPart.invalid_iff`), and a walk sees nothing else
(`dependencies_remainingGraph`).
-/
import PackageOrder.Proofs.Dependency.Invalid
import PackageOrder.Proofs.Graph.Edges
import PackageOrder.Proofs.Graph.Local

namespace PackageOrder

open EntryPointWithInfo (path)
open Relation (ReflTransGen TransGen)

/-- A list in which a target comes last, after what it needs, each entry-point
once and after those that it needs directly, those that need it in turn
excepted. -/
structure TargetOrder (items : List EntryPointWithInfo) (target : EntryPointWithInfo)
    (order : List EntryPointWithInfo) : Prop where
  last : order.getLast? = some target
  nodup : order.Nodup
  mem_iff : ∀ item, item ∈ order ↔ item = target ∨ TransGen (Needs items) target item
  after_needed : ∀ before item after, order = before ++ item :: after →
    ∀ other, Needs items item other → ¬ TransGen (Needs items) other item → other ∈ before

namespace TargetOrder

variable {items order : List EntryPointWithInfo} {target item other : EntryPointWithInfo}

theorem needed (h : TargetOrder items target order) (hi : item ∈ order) :
    ReflTransGen (Needs items) target item := by
  rcases (h.mem_iff item).mp hi with rfl | hneeds
  · exact .refl
  · exact hneeds.to_reflTransGen

theorem mem_of_needs (h : TargetOrder items target order) (hi : item ∈ order)
    (hneeds : Needs items item other) : other ∈ order :=
  (h.mem_iff other).mpr (Or.inr (.tail' (h.needed hi) hneeds))

end TargetOrder

/-- Some of the entry-points, among which are all that one of them imports. -/
structure ClosedPart (items part : List EntryPointWithInfo) : Prop where
  mem : ∀ item ∈ part, item ∈ items
  closed : ∀ item ∈ part, ∀ other ∈ items, other.path ∈ item.info.dependencies → other ∈ part

/-- The graph of some entry-points without the invalid ones. -/
abbrev remainingGraph (items : List EntryPointWithInfo) : Graph EntryPoint :=
  (removeInvalid (dependencyGraph items) (ownMissing items)).1

/-- The paths among those of some entry-points that one depends on, in order. -/
def edgesAmong (items : List EntryPointWithInfo) (item : EntryPointWithInfo) : List String :=
  (item.others.filter (· ∈ items.map path)).foldl withEnd []

/-! ## The edges of an entry-point in order -/

namespace Graph

variable {graph : Graph EntryPoint}

theorem directDependencies_addItems (graph : Graph EntryPoint) (items : List EntryPointWithInfo)
    (node : String) :
    (graph.addItems items).directDependencies node = graph.directDependencies node := by
  induction items generalizing graph with
  | nil => rfl
  | cons item rest ih => exact (ih _).trans (directDependencies_addNode graph _ _ _)

theorem directDependencies_addEdgesFrom_of_ne (h : graph.Built) {source node : String}
    (hne : node ≠ source) (targets : List String) :
    (graph.addEdgesFrom source targets).directDependencies node
      = graph.directDependencies node := by
  induction targets generalizing graph with
  | nil => rfl
  | cons target rest ih =>
    refine (ih (h.addDependency source target)).trans ?_
    rw [h.coherent.directDependencies_addDependency, if_neg fun hall => hne hall.1]

theorem directDependencies_addEdgesFrom_self (h : graph.Built) {source : String}
    (hs : source ∈ graph.keys) (targets : List String) :
    (graph.addEdgesFrom source targets).directDependencies source
      = (targets.filter (· ∈ graph.keys)).foldl withEnd (graph.directDependencies source) := by
  induction targets generalizing graph with
  | nil => rfl
  | cons target rest ih =>
    refine (ih (h.addDependency source target) (by rw [keys_addDependency]; exact hs)).trans ?_
    rw [keys_addDependency, h.coherent.directDependencies_addDependency]
    by_cases ht : target ∈ graph.keys
    · rw [if_pos ⟨rfl, hs, ht⟩, List.filter_cons_of_pos (by simpa using ht), List.foldl_cons]
    · rw [if_neg fun hall => ht hall.2.2, List.filter_cons_of_neg (by simpa using ht)]

theorem directDependencies_addEdges_of_notMem (h : graph.Built) {items : List EntryPointWithInfo}
    {node : String} (hnode : node ∉ items.map path) :
    (graph.addEdges items).directDependencies node = graph.directDependencies node := by
  induction items generalizing graph with
  | nil => rfl
  | cons item rest ih =>
    rw [List.map_cons, List.mem_cons, not_or] at hnode
    exact (ih (h.addEdgesFrom item.path item.others) hnode.2).trans
      (directDependencies_addEdgesFrom_of_ne h hnode.1 _)

/-- Only the edges that are added for a node change those that it has. -/
theorem directDependencies_addEdges (h : graph.Built) {items : List EntryPointWithInfo}
    (hd : (items.map path).Nodup) {item : EntryPointWithInfo} (hi : item ∈ items)
    (hnode : item.path ∈ graph.keys) :
    (graph.addEdges items).directDependencies item.path
      = (item.others.filter (· ∈ graph.keys)).foldl withEnd
          (graph.directDependencies item.path) := by
  induction items generalizing graph with
  | nil => cases hi
  | cons first rest ih =>
    obtain ⟨hnew, hrest⟩ := List.nodup_cons.mp hd
    have hbuilt := h.addEdgesFrom first.path first.others
    rcases List.mem_cons.mp hi with rfl | hi
    · exact (directDependencies_addEdges_of_notMem hbuilt hnew).trans
        (directDependencies_addEdgesFrom_self h hnode _)
    · have hne : item.path ≠ first.path := fun heq => hnew (heq ▸ List.mem_map_of_mem hi)
      refine (ih hbuilt hrest hi (by rw [keys_addEdgesFrom]; exact hnode)).trans ?_
      rw [keys_addEdgesFrom, directDependencies_addEdgesFrom_of_ne h hne]

end Graph

section Items

variable {items part : List EntryPointWithInfo}

theorem directDependencies_dependencyGraph (hd : (items.map path).Nodup)
    {item : EntryPointWithInfo} (hi : item ∈ items) :
    (dependencyGraph items).directDependencies item.path = edgesAmong items item := by
  have hkeys : ∀ key, key ∈ (Graph.addItems {} items).keys ↔ key ∈ items.map path := by
    intro key
    rw [← Graph.data?_isSome_iff, ← Graph.data?_addEdges, ← dependencyGraph_eq,
      Graph.data?_isSome_iff, mem_keys_dependencyGraph hd, List.mem_map]
  rw [dependencyGraph_eq, Graph.directDependencies_addEdges (Graph.Built.empty.addItems items) hd hi
      ((hkeys _).mpr (List.mem_map_of_mem hi)), Graph.directDependencies_addItems, edgesAmong]
  simp only [hkeys]
  rfl

/-- What depends on an invalid entry-point is invalid. -/
theorem Invalid.of_depends {item other : EntryPointWithInfo} (h : Invalid items other)
    (hn : TransGen (Needs items) item other) : Invalid items item := by
  obtain ⟨broken, hmem, hb, hr⟩ := h
  exact ⟨broken, hmem, hb, hn.to_reflTransGen.trans hr⟩

theorem coherent_remainingGraph (items : List EntryPointWithInfo) :
    (remainingGraph items).Coherent :=
  ((dependencyGraph_built items).foldl_removeNode _).coherent

/-- A valid entry-point keeps all of its edges. -/
theorem directDependencies_remainingGraph (hd : (items.map path).Nodup)
    {item : EntryPointWithInfo} (hi : item ∈ items) (hvalid : ¬ Invalid items item) :
    (remainingGraph items).directDependencies item.path = edgesAmong items item := by
  rw [remainingGraph, removeInvalid,
    (dependencyGraph_built items).coherent.directDependencies_foldl_removeNode,
    directDependencies_dependencyGraph hd hi, List.filter_eq_self]
  · intro target ht
    rw [← directDependencies_dependencyGraph hd hi, mem_directDependencies hd hi] at ht
    obtain ⟨other, hn, rfl⟩ := ht
    have hother : ¬ Invalid items other := fun h => hvalid (h.of_depends (TransGen.single hn))
    simpa using fun hmem => hother ((mem_invalidPaths_path hd hn.other_mem).mp hmem)
  · exact fun hmem => hvalid ((mem_invalidPaths_path hd hi).mp hmem)

/-! ## A part that is closed under needs -/

namespace ClosedPart

variable (hpart : ClosedPart items part)

include hpart

theorem needs_iff {item : EntryPointWithInfo} (hi : item ∈ part) (other : EntryPointWithInfo) :
    Needs part item other ↔ Needs items item other := by
  constructor
  · exact fun h => ⟨hpart.mem _ h.mem, hpart.mem _ h.other_mem, h.not_broken, h.imported, h.ne⟩
  · exact fun h => ⟨hi, hpart.closed item hi other h.other_mem h.imported, h.not_broken, h.imported,
      h.ne⟩

theorem mem_of_reaches {item : EntryPointWithInfo} (hi : item ∈ part) {other : EntryPointWithInfo}
    (h : ReflTransGen (Needs items) item other) : other ∈ part := by
  induction h with
  | refl => exact hi
  | tail _ hn ih => exact hpart.closed _ ih _ hn.other_mem hn.imported

theorem reaches_iff {item : EntryPointWithInfo} (hi : item ∈ part) (other : EntryPointWithInfo) :
    ReflTransGen (Needs part) item other ↔ ReflTransGen (Needs items) item other := by
  constructor
  · exact fun h => h.lift id fun _ _ hn => (hpart.needs_iff hn.mem _).mp hn
  · intro h
    induction h with
    | refl => exact ReflTransGen.refl
    | tail hr hn ih => exact ih.tail ((hpart.needs_iff (hpart.mem_of_reaches hi hr) _).mpr hn)

/-- An entry-point is invalid among a part in the same cases as among all. -/
theorem invalid_iff {item : EntryPointWithInfo} (hi : item ∈ part) :
    Invalid part item ↔ Invalid items item := by
  constructor
  · rintro ⟨broken, hmem, hb, hr⟩
    exact ⟨broken, hpart.mem _ hmem, hb, (hpart.reaches_iff hi broken).mp hr⟩
  · rintro ⟨broken, _, hb, hr⟩
    exact ⟨broken, hpart.mem_of_reaches hi hr, hb, (hpart.reaches_iff hi broken).mpr hr⟩

theorem edgesAmong_eq {item : EntryPointWithInfo} (hi : item ∈ part) :
    edgesAmong part item = edgesAmong items item := by
  unfold edgesAmong
  congr 1
  apply List.filter_congr
  intro target ht
  have hiff : target ∈ part.map path ↔ target ∈ items.map path := by
    rw [List.mem_map, List.mem_map]
    constructor
    · rintro ⟨other, ho, rfl⟩
      exact ⟨other, hpart.mem _ ho, rfl⟩
    · rintro ⟨other, ho, rfl⟩
      exact ⟨other, hpart.closed item hi other ho ((item.mem_others _).mp ht).2.1, rfl⟩
  simp only [hiff]

end ClosedPart

/-! ## The dependencies of a target -/

theorem mem_keys_remainingGraph (hd : (items.map path).Nodup) (key : String) :
    key ∈ (remainingGraph items).keys
      ↔ ∃ item ∈ items, ¬ Invalid items item ∧ item.path = key := by
  rw [← Graph.data?_isSome_iff, Option.isSome_iff_exists]
  constructor
  · rintro ⟨entryPoint, hdata⟩
    obtain ⟨item, hi, hvalid, hp, _⟩ := (data?_removeInvalid hd key entryPoint).mp hdata
    exact ⟨item, hi, hvalid, hp⟩
  · rintro ⟨item, hi, hvalid, hp⟩
    exact ⟨item.entryPoint, (data?_removeInvalid hd key _).mpr ⟨item, hi, hvalid, hp, rfl⟩⟩

/-- A valid entry-point leads to what it needs. -/
theorem leads_remainingGraph (hd : (items.map path).Nodup) {item other : EntryPointWithInfo}
    (hn : Needs items item other) (hvalid : ¬ Invalid items item) :
    (remainingGraph items).Leads item.path other.path :=
  (leads_removeInvalid hd _ _).mpr
    ⟨item, other, hn, hvalid, fun h => hvalid (h.of_depends (TransGen.single hn)), rfl, rfl⟩

/-- What a path of a valid entry-point depends on are the paths of what that
needs. -/
theorem dependsOn_remainingGraph (hd : (items.map path).Nodup) {item : EntryPointWithInfo}
    (hi : item ∈ items) (hvalid : ¬ Invalid items item) (key : String) :
    (remainingGraph items).DependsOn item.path key
      ↔ ∃ other, TransGen (Needs items) item other ∧ other.path = key := by
  constructor
  · intro h
    induction h with
    | single hl =>
      obtain ⟨source, other, hn, _, _, hs, ht⟩ := (leads_removeInvalid hd _ _).mp hl
      exact ⟨other, TransGen.single (eq_of_path_eq hd hn.mem hi hs ▸ hn), ht⟩
    | tail _ hl ih =>
      obtain ⟨middle, htrans, rfl⟩ := ih
      obtain ⟨source, other, hn, _, _, hs, ht⟩ := (leads_removeInvalid hd _ _).mp hl
      obtain ⟨_, _, hinto⟩ := TransGen.tail'_iff.mp htrans
      exact ⟨other, htrans.tail (eq_of_path_eq hd hn.mem hinto.other_mem hs ▸ hn), ht⟩
  · rintro ⟨other, htrans, rfl⟩
    have hboth : (remainingGraph items).DependsOn item.path other.path
        ∧ ¬ Invalid items other := by
      induction htrans with
      | single hn => exact ⟨TransGen.single (leads_remainingGraph hd hn hvalid),
          fun h => hvalid (h.of_depends (TransGen.single hn))⟩
      | tail _ hn ih => exact ⟨ih.1.tail (leads_remainingGraph hd hn ih.2),
          fun h => ih.2 (h.of_depends (TransGen.single hn))⟩
    exact hboth.1

/-- **The dependencies of a valid target are the same among any part that is
closed under needs**, and in the same order. -/
theorem dependencies_remainingGraph (hd : (items.map path).Nodup)
    (hdpart : (part.map path).Nodup) (hpart : ClosedPart items part)
    {target : EntryPointWithInfo} (ht : target ∈ part) (hvalid : ¬ Invalid items target) :
    (remainingGraph part).dependencies target.path
      = (remainingGraph items).dependencies target.path := by
  have hnode : ∀ {key : String}, key ∈ (remainingGraph part).keys →
      ∃ item ∈ part, item.path = key ∧ ¬ Invalid part item ∧ ¬ Invalid items item := by
    intro key hkey
    obtain ⟨item, hi, hv, rfl⟩ := (mem_keys_remainingGraph hdpart key).mp hkey
    exact ⟨item, hi, rfl, hv, fun h => hv ((hpart.invalid_iff hi).mpr h)⟩
  have hsame : Walk.AgreeOn (remainingGraph part).keys.toFinset (remainingGraph part).outgoing
      (remainingGraph items).outgoing := by
    constructor
    · intro key hkey
      obtain ⟨item, hi, rfl, hv, hv'⟩ := hnode (List.mem_toFinset.mp hkey)
      calc (remainingGraph part).directDependencies item.path
          = edgesAmong part item := directDependencies_remainingGraph hdpart hi hv
        _ = edgesAmong items item := hpart.edgesAmong_eq hi
        _ = (remainingGraph items).directDependencies item.path :=
          (directDependencies_remainingGraph hd (hpart.mem item hi) hv').symm
    · intro key _ next hnext
      exact List.mem_toFinset.mpr ((coherent_remainingGraph part).leads_mem key next hnext)
  apply Graph.dependencies_congr hsame
  · exact fun key hkey => List.mem_toFinset.mp hkey
  · intro key hkey
    obtain ⟨item, hi, rfl, _, hv'⟩ := hnode (List.mem_toFinset.mp hkey)
    exact (mem_keys_remainingGraph hd _).mpr ⟨item, hpart.mem item hi, hv', rfl⟩
  · refine List.mem_toFinset.mpr ((mem_keys_remainingGraph hdpart _).mpr ⟨target, ht, ?_, rfl⟩)
    exact fun h => hvalid ((hpart.invalid_iff ht).mp h)

/-! ## The entry-points of a list of paths -/

/-- Paths that entry-points have are those of a list of them, and the graph has
their data. -/
theorem exists_order (hd : (items.map path).Nodup) {paths : List String}
    (hpaths : ∀ key ∈ paths, key ∈ (remainingGraph items).keys) :
    ∃ order : List EntryPointWithInfo, order.map path = paths ∧ (∀ item ∈ order, item ∈ items)
      ∧ paths.filterMap (remainingGraph items).data? = order.map (·.entryPoint) := by
  induction paths with
  | nil => exact ⟨[], rfl, fun _ h => absurd h List.not_mem_nil, rfl⟩
  | cons key rest ih =>
    obtain ⟨order, hmap, hmem, hdata⟩ := ih fun k hk => hpaths k (List.mem_cons_of_mem _ hk)
    obtain ⟨item, hi, hvalid, rfl⟩ :=
      (mem_keys_remainingGraph hd key).mp (hpaths key List.mem_cons_self)
    refine ⟨item :: order, by rw [List.map_cons, hmap], ?_, ?_⟩
    · intro other ho
      rcases List.mem_cons.mp ho with rfl | ho
      · exact hi
      · exact hmem other ho
    · rw [List.filterMap_cons_some
        ((data?_removeInvalid hd item.path item.entryPoint).mpr ⟨item, hi, hvalid, rfl, rfl⟩),
        hdata, List.map_cons]

theorem other_mem_of_depends {item other : EntryPointWithInfo}
    (h : TransGen (Needs items) item other) : other ∈ items := by
  obtain ⟨_, _, hinto⟩ := TransGen.tail'_iff.mp h
  exact hinto.other_mem

/-- Among the dependencies of a valid target and itself are the paths of the
target and of what it needs. -/
theorem path_mem_dependencies (hd : (items.map path).Nodup) {target item : EntryPointWithInfo}
    (ht : target ∈ items) (hvalid : ¬ Invalid items target) (hi : item ∈ items) :
    item.path ∈ (remainingGraph items).dependencies target.path ++ [target.path]
      ↔ item = target ∨ TransGen (Needs items) target item := by
  rw [List.mem_append, List.mem_singleton, (coherent_remainingGraph items).mem_dependencies,
    dependsOn_remainingGraph hd ht hvalid]
  constructor
  · rintro (⟨_, other, hn, heq⟩ | heq)
    · exact Or.inr (eq_of_path_eq hd (other_mem_of_depends hn) hi heq ▸ hn)
    · exact Or.inl (eq_of_path_eq hd hi ht heq)
  · intro h
    by_cases heq : item.path = target.path
    · exact Or.inr heq
    · rcases h with rfl | hn
      · exact absurd rfl heq
      · exact Or.inl ⟨heq, item, hn, rfl⟩

theorem mem_keys_of_mem_dependencies (hd : (items.map path).Nodup) {target : EntryPointWithInfo}
    (ht : target ∈ items) (hvalid : ¬ Invalid items target) {key : String}
    (hkey : key ∈ (remainingGraph items).dependencies target.path ++ [target.path]) :
    key ∈ (remainingGraph items).keys := by
  have hcoherent := coherent_remainingGraph items
  rcases List.mem_append.mp hkey with hkey | hkey
  · exact hcoherent.dependsOn_target_mem ((hcoherent.mem_dependencies _ _).mp hkey).2
  · rw [List.mem_singleton.mp hkey, mem_keys_remainingGraph hd]
    exact ⟨target, ht, hvalid, rfl⟩

/-- The dependencies of a valid target and the target are in the order that is
asked for. -/
theorem targetOrder_dependencies (hd : (items.map path).Nodup) {target : EntryPointWithInfo}
    (ht : target ∈ items) (hvalid : ¬ Invalid items target) {order : List EntryPointWithInfo}
    (hmem : ∀ item ∈ order, item ∈ items)
    (hmap : order.map path = (remainingGraph items).dependencies target.path ++ [target.path]) :
    TargetOrder items target order := by
  have hcoherent := coherent_remainingGraph items
  have hlisted : ∀ {item : EntryPointWithInfo}, item ∈ items →
      (item ∈ order ↔ item.path ∈ order.map path) := by
    intro item hi
    constructor
    · exact List.mem_map_of_mem
    · intro hp
      obtain ⟨other, ho, heq⟩ := List.mem_map.mp hp
      exact eq_of_path_eq hd (hmem other ho) hi heq ▸ ho
  have hiff : ∀ item, item ∈ order ↔ item = target ∨ TransGen (Needs items) target item := by
    intro item
    have hitem : item = target ∨ TransGen (Needs items) target item → item ∈ items := by
      rintro (rfl | hn)
      · exact ht
      · exact other_mem_of_depends hn
    constructor
    · intro hi
      have hp := (hlisted (hmem item hi)).mp hi
      rw [hmap] at hp
      exact (path_mem_dependencies hd ht hvalid (hmem item hi)).mp hp
    · intro h
      rw [hlisted (hitem h), hmap]
      exact (path_mem_dependencies hd ht hvalid (hitem h)).mpr h
  refine ⟨?_, List.Nodup.of_map path (hmap ▸ hcoherent.nodup_dependencies target.path), hiff, ?_⟩
  · obtain ⟨front, last, rfl, _, hlast⟩ := List.map_eq_append_iff.mp hmap
    obtain ⟨item, rest, rfl, heq, hrest⟩ := List.map_eq_cons_iff.mp hlast
    rw [List.map_eq_nil_iff.mp hrest, List.getLast?_concat,
      eq_of_path_eq hd (hmem item (by simp)) ht heq]
  · rintro before item after rfl other hn hno
    -- the graph has the edges of valid items only
    have hvalid' : ¬ Invalid items item := by
      rcases (hiff item).mp (by simp) with rfl | hneeds
      · exact hvalid
      · exact fun h => hvalid (h.of_depends hneeds)
    have hother : ¬ Invalid items other :=
      fun h => hvalid' (h.of_depends (TransGen.single hn))
    rw [List.map_append, List.map_cons] at hmap
    have hbefore := hcoherent.mem_before_of_dependencies hmap.symm
      (leads_remainingGraph hd hn hvalid') (Or.inl rfl) fun hdep => by
        obtain ⟨back, htrans, heq⟩ := (dependsOn_remainingGraph hd hn.other_mem hother _).mp hdep
        exact hno (eq_of_path_eq hd (other_mem_of_depends htrans) hn.mem heq ▸ htrans)
    obtain ⟨same, hs, heq⟩ := List.mem_map.mp hbefore
    exact eq_of_path_eq hd (hmem same (List.mem_append_left _ hs)) hn.other_mem heq ▸ hs

/-! ## Sorting for a target -/

theorem entryPoints_of_sortEntryPoints {configuration : Configuration}
    {target : Option EntryPoint} {session after : Session} {sorted : SortedEntryPoints}
    (h : (sortEntryPoints configuration items target).runFrom session = (.ok sorted, after)) :
    sorted.entryPoints
      = (processingOrder (remainingGraph (items.filter (·.entryPoint.compiledByAngular))) target).filterMap
          (remainingGraph (items.filter (·.entryPoint.compiledByAngular))).data? := by
  obtain ⟨ignored, _, rfl⟩ := runFrom_sortEntryPoints_eq_ok.mp h
  rfl

theorem processingOrder_of_invalid (hd : (items.map path).Nodup) {target : EntryPointWithInfo}
    (ht : target ∈ items) (h : Invalid items target) :
    processingOrder (remainingGraph items) (some target.entryPoint) = [] := by
  have hgone : (remainingGraph items).contains target.path = false := by
    rw [← Bool.not_eq_true, Graph.contains_iff, mem_keys_remainingGraph hd]
    rintro ⟨item, hi, hvalid, heq⟩
    exact hvalid (eq_of_path_eq hd ht hi heq.symm ▸ h)
  have hboth : ¬ (target.entryPoint.compiledByAngular
      && (remainingGraph items).contains target.path) = true := by
    rw [hgone, Bool.and_false]
    exact Bool.false_ne_true
  exact if_neg hboth

theorem processingOrder_of_valid (hd : (items.map path).Nodup) {target : EntryPointWithInfo}
    (ht : target ∈ items) (hcompiled : target.entryPoint.compiledByAngular = true)
    (hvalid : ¬ Invalid items target) :
    processingOrder (remainingGraph items) (some target.entryPoint)
      = (remainingGraph items).dependencies target.path ++ [target.path] := by
  have hthere : (remainingGraph items).contains target.path = true := by
    rw [Graph.contains_iff, mem_keys_remainingGraph hd]
    exact ⟨target, ht, hvalid, rfl⟩
  exact if_pos (by rw [hcompiled, hthere, Bool.and_true])

/-- The entry-points that are sorted for a target: none if it is invalid, else
those of the order that is asked for. -/
theorem processed_of_target (hd : (items.map path).Nodup) {target : EntryPointWithInfo}
    (ht : target ∈ items) (hcompiled : target.entryPoint.compiledByAngular = true) :
    let listed := (processingOrder (remainingGraph items) (some target.entryPoint)).filterMap
      (remainingGraph items).data?
    (Invalid items target → listed = [])
      ∧ (¬ Invalid items target → ∃ order, listed = order.map (·.entryPoint)
          ∧ TargetOrder items target order) := by
  refine ⟨fun h => by rw [processingOrder_of_invalid hd ht h]; rfl, fun hvalid => ?_⟩
  obtain ⟨order, hmap, hmem, hlisted⟩ :=
    exists_order hd fun key hkey => mem_keys_of_mem_dependencies hd ht hvalid hkey
  rw [processingOrder_of_valid hd ht hcompiled hvalid]
  exact ⟨order, hlisted, targetOrder_dependencies hd ht hvalid hmem hmap⟩

/-- The entry-points that are sorted for a target are the same among any part
that is closed under needs. -/
theorem processed_congr (hd : (items.map path).Nodup) (hdpart : (part.map path).Nodup)
    (hpart : ClosedPart items part) {target : EntryPointWithInfo} (ht : target ∈ part)
    (hcompiled : target.entryPoint.compiledByAngular = true) :
    (processingOrder (remainingGraph part) (some target.entryPoint)).filterMap
        (remainingGraph part).data?
      = (processingOrder (remainingGraph items) (some target.entryPoint)).filterMap
          (remainingGraph items).data? := by
  by_cases hinvalid : Invalid items target
  · rw [processingOrder_of_invalid hd (hpart.mem _ ht) hinvalid,
      processingOrder_of_invalid hdpart ht ((hpart.invalid_iff ht).mpr hinvalid)]
    rfl
  · have hvalid : ¬ Invalid part target := fun h => hinvalid ((hpart.invalid_iff ht).mp h)
    rw [processingOrder_of_valid hd (hpart.mem _ ht) hcompiled hinvalid,
      processingOrder_of_valid hdpart ht hcompiled hvalid,
      dependencies_remainingGraph hd hdpart hpart ht hinvalid]
    apply List.filterMap_congr
    intro key hkey
    rw [← dependencies_remainingGraph hd hdpart hpart ht hinvalid] at hkey
    obtain ⟨item, hi, hv, rfl⟩ := (mem_keys_remainingGraph hdpart key).mp
      (mem_keys_of_mem_dependencies hdpart ht hvalid hkey)
    rw [(data?_removeInvalid hdpart _ item.entryPoint).mpr ⟨item, hi, hv, rfl, rfl⟩,
      (data?_removeInvalid hd _ item.entryPoint).mpr ⟨item, hpart.mem item hi,
        fun h => hv ((hpart.invalid_iff hi).mpr h), rfl, rfl⟩]

end Items

/-- **The order for a target depends on what the target needs and on nothing
else**: among any part of the entry-points that has what its members import, in
any order, the same list comes out. It is empty if the target is invalid, and
else in the order that `TargetOrder` asks for. -/
theorem sortEntryPoints_target (items part given : List EntryPointWithInfo)
    (target : EntryPointWithInfo) (configuration configuration' : Configuration)
    (session after session' after' : Session) (sorted sorted' : SortedEntryPoints)
    (hdistinct : (items.map path).Nodup) (hsublist : part.Sublist items) (hgiven : given.Perm part)
    (htarget : target ∈ part) (hcompiled : target.entryPoint.compiledByAngular = true)
    (hclosed : ∀ item ∈ part, ∀ other ∈ items, other.entryPoint.compiledByAngular = true →
      other.path ∈ item.info.dependencies → other ∈ part)
    (hsorted : (sortEntryPoints configuration items (some target.entryPoint)).runFrom session
      = (.ok sorted, after))
    (hsorted' : (sortEntryPoints configuration' given (some target.entryPoint)).runFrom session'
      = (.ok sorted', after')) :
    sorted'.entryPoints = sorted.entryPoints
      ∧ (Invalid (items.filter (·.entryPoint.compiledByAngular)) target → sorted.entryPoints = [])
      ∧ (¬ Invalid (items.filter (·.entryPoint.compiledByAngular)) target →
          ∃ order, sorted.entryPoints = order.map (·.entryPoint)
            ∧ TargetOrder (items.filter (·.entryPoint.compiledByAngular)) target order) := by
  have hd : ((items.filter (·.entryPoint.compiledByAngular)).map path).Nodup :=
    hdistinct.sublist (List.filter_sublist.map path)
  have hd' : ((given.filter (·.entryPoint.compiledByAngular)).map path).Nodup :=
    ((hgiven.map path).nodup_iff.mpr (hdistinct.sublist (hsublist.map path))).sublist
      (List.filter_sublist.map path)
  have hpart : ClosedPart (items.filter (·.entryPoint.compiledByAngular))
      (given.filter (·.entryPoint.compiledByAngular)) := by
    constructor
    · intro item hi
      obtain ⟨hi, hc⟩ := List.mem_filter.mp hi
      exact List.mem_filter.mpr ⟨hsublist.subset (hgiven.mem_iff.mp hi), hc⟩
    · intro item hi other ho himport
      obtain ⟨hi, _⟩ := List.mem_filter.mp hi
      obtain ⟨ho, hc⟩ := List.mem_filter.mp ho
      exact List.mem_filter.mpr
        ⟨hgiven.mem_iff.mpr (hclosed item (hgiven.mem_iff.mp hi) other ho hc himport), hc⟩
  have ht : target ∈ items.filter (·.entryPoint.compiledByAngular) :=
    List.mem_filter.mpr ⟨hsublist.subset htarget, hcompiled⟩
  have ht' : target ∈ given.filter (·.entryPoint.compiledByAngular) :=
    List.mem_filter.mpr ⟨hgiven.mem_iff.mpr htarget, hcompiled⟩
  rw [entryPoints_of_sortEntryPoints hsorted, entryPoints_of_sortEntryPoints hsorted']
  exact ⟨processed_congr hd hd' hpart ht' hcompiled, processed_of_target hd ht hcompiled⟩

/-- A target whose imports form a cycle, with a package of another kind and
invalid ones around it. -/
theorem sortEntryPoints_target_cycle :
    let plain : EntryPointWithInfo :=
      { entryPoint := { (default : EntryPoint) with path := "/n" }, info := {} }
    let part := [itemAt "/t" ["/u", "/v"] [], itemAt "/u" ["/v", "/w"] [], itemAt "/v" ["/u"] [],
      itemAt "/w" ["/n"] []]
    let others := [itemAt "/x" ["/t"] [], itemAt "/b" [] ["q"], plain, itemAt "/y" ["/b", "/u"] []]
    let items := others ++ part
    let sort := fun items => (sortEntryPoints ⟨[], ""⟩ items
      (some (itemAt "/t" ["/u", "/v"] []).entryPoint)).runFrom { tree := {} }
    (items.map path).Nodup ∧ part.Sublist items ∧ part.reverse.Perm part
      ∧ ∃ sorted after sorted' after', sort items = (.ok sorted, after)
        ∧ sort part.reverse = (.ok sorted', after')
        ∧ sorted.entryPoints.map (·.path) = ["/v", "/w", "/u", "/t"]
        ∧ sorted'.entryPoints = sorted.entryPoints := by
  intro plain part others items sort
  have hdistinct : (items.map path).Nodup := by decide
  have hsublist : part.Sublist items := List.sublist_append_right _ _
  have hclosed : ∀ item ∈ part, ∀ other ∈ items, other.entryPoint.compiledByAngular = true →
      other.path ∈ item.info.dependencies → other ∈ part := by
    have hapart : ∀ item ∈ part, ∀ other ∈ others, other.entryPoint.compiledByAngular = true →
        other.path ∉ item.info.dependencies := by decide
    intro item hi other ho hc himport
    exact (List.mem_append.mp ho).resolve_left fun ho => hapart item hi other ho hc himport
  have h := sortEntryPoints_target items part part.reverse (itemAt "/t" ["/u", "/v"] [])
    ⟨[], ""⟩ ⟨[], ""⟩ { tree := {} } _ { tree := {} } _ _ _ hdistinct hsublist
    (List.reverse_perm part) List.mem_cons_self rfl hclosed rfl rfl
  exact ⟨hdistinct, hsublist, List.reverse_perm part, _, _, _, _, rfl, rfl, by decide +kernel, h.1⟩

end PackageOrder
