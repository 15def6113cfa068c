/-
PackageOrder.Proofs.Graph.Edges — what each change of a graph does to its nodes
and edges, and the facts that hold of every graph made by such changes.

* `Graph.Built` — the graphs that can be made: from the empty one by adding
  nodes, adding edges between nodes and removing nodes, in any order.
* `Graph.Coherent` — the invariant of the two tables: both list the nodes in
  order, edges lead to nodes only, and each edge is in both tables. It holds of
  every graph that can be made (`Built.coherent`).
* `Graph.Leads` — an edge; `Graph.DependsOn` — one or more edges in a row.

A change is described once by its effect on the nodes, on their data and on the
edges; nothing after this module looks into the tables. Removing a node takes it out of
one table at the places that the other one lists, so it is the invariant that makes all of
its edges go (`Coherent.tables_removeNode`). An edge that is added comes last, one that is
there already keeps its place (`withEnd`), and removing nodes keeps the order of the others.
-/
import Mathlib.Data.List.Nodup
import Mathlib.Logic.Relation
import PackageOrder.Graph
import PackageOrder.Proofs.Lookup

namespace PackageOrder

/-! ## Tables of edges -/

/-- Ends with one more, which comes last if it is new. -/
def withEnd (ends : List String) (target : String) : List String :=
  if target ∈ ends then ends else ends ++ [target]

theorem mem_withEnd {ends : List String} {target other : String} :
    other ∈ withEnd ends target ↔ other ∈ ends ∨ other = target := by
  unfold withEnd
  split
  · rename_i hmem
    exact ⟨Or.inl, fun h => h.elim id fun heq => heq ▸ hmem⟩
  · rw [List.mem_append, List.mem_singleton]

namespace EdgeTable

/-- The keys of a table in order. -/
def keys (table : EdgeTable) : List String :=
  table.map (·.1)

theorem keys_addNode (table : EdgeTable) (node : String) :
    (table.addNode node).keys
      = if node ∈ table.keys then table.keys else table.keys ++ [node] := by
  unfold addNode keys
  simp only [lookup_isSome_iff_mem_keys]
  split
  · rfl
  · simp

theorem keys_addEnd (table : EdgeTable) (node other : String) :
    (table.addEnd node other).keys = table.keys := by
  unfold addEnd keys
  rw [List.map_map]
  apply List.map_congr_left
  rintro ⟨key, ends⟩ _
  simp only [Function.comp_apply]
  split <;> rfl

/-- The table without a node and the edges that end in it, wherever they start. -/
def removeNode (table : EdgeTable) (node : String) : EdgeTable :=
  (table.removeKey node).map fun (key, ends) => (key, ends.filter (· ≠ node))

theorem keys_removeNode (table : EdgeTable) (node : String) :
    (table.removeNode node).keys = table.keys.filter (· ≠ node) := by
  simp [removeNode, removeKey, keys, List.filter_map, List.map_map, Function.comp_def]

theorem mem_keys_of_mem_ends {table : EdgeTable} {node other : String}
    (h : other ∈ table.ends node) : node ∈ table.keys := by
  unfold ends at h
  cases hl : table.lookup node with
  | none => simp [hl] at h
  | some ends =>
    rw [keys, ← lookup_isSome_iff_mem_keys, hl]
    rfl

theorem ends_addNode (table : EdgeTable) (added node : String) :
    (table.addNode added).ends node = table.ends node := by
  unfold addNode ends
  split
  · rfl
  · rw [List.lookup_append]
    cases hl : table.lookup node with
    | some ends => rfl
    | none =>
      simp only [Option.none_or, List.lookup_cons, List.lookup_nil]
      cases node == added <;> rfl

theorem ends_addEnd {table : EdgeTable} {source : String} (hs : source ∈ table.keys)
    (target node : String) :
    (table.addEnd source target).ends node
      = if node = source then withEnd (table.ends source) target else table.ends node := by
  let extend (key : String) (ends : List String) : List String :=
    if key = source then withEnd ends target else ends
  have hmap : table.addEnd source target
      = table.map fun entry => (entry.1, extend entry.1 entry.2) := by
    apply List.map_congr_left
    rintro ⟨key, ends⟩ _
    simp only [extend, withEnd]
    by_cases hkey : key = source
    · by_cases hmem : target ∈ ends <;> simp [hkey, hmem]
    · simp [hkey]
  rw [ends, hmap, lookup_map_values extend]
  by_cases hnode : node = source
  · subst hnode
    obtain ⟨ends, hl⟩ := Option.isSome_iff_exists.mp ((lookup_isSome_iff_mem_keys table node).mpr hs)
    rw [if_pos rfl, EdgeTable.ends, hl, Option.map_some, Option.getD_some, Option.getD_some]
    exact if_pos rfl
  · rw [if_neg hnode, EdgeTable.ends]
    cases hl : table.lookup node with
    | none => rfl
    | some ends => exact if_neg hnode

theorem mem_ends_addEnd {table : EdgeTable} {source : String} (hs : source ∈ table.keys)
    (target node other : String) :
    other ∈ (table.addEnd source target).ends node
      ↔ other ∈ table.ends node ∨ (node = source ∧ other = target) := by
  rw [ends_addEnd hs]
  by_cases hnode : node = source
  · rw [if_pos hnode, mem_withEnd, hnode]
    simp
  · simp [hnode]

theorem ends_removeNode (table : EdgeTable) (removed node : String) :
    (table.removeNode removed).ends node
      = if node = removed then [] else (table.ends node).filter (· ≠ removed) := by
  rw [ends, removeNode, lookup_map_values fun _ (ends : List String) => ends.filter (· ≠ removed),
    removeKey, lookup_filter_ne, ends]
  split
  · rfl
  · cases table.lookup node <;> rfl

theorem mem_ends_removeNode {table : EdgeTable} {removed node other : String} :
    other ∈ (table.removeNode removed).ends node
      ↔ other ∈ table.ends node ∧ node ≠ removed ∧ other ≠ removed := by
  rw [ends_removeNode]
  by_cases hnode : node = removed <;> simp [hnode]

/-- What a table lists is found, if it lists each key once. -/
theorem ends_of_mem {table : EdgeTable} (hnodup : table.keys.Nodup) {node : String}
    {others : List String} (hmem : (node, others) ∈ table) : table.ends node = others := by
  obtain ⟨before, after, rfl⟩ := List.append_of_mem hmem
  rw [keys, List.map_append, List.map_cons, List.nodup_middle, List.nodup_cons] at hnodup
  have hbefore : before.lookup node = none := by
    rw [← Option.not_isSome_iff_eq_none, lookup_isSome_iff_mem_keys]
    exact fun hin => hnodup.1 (List.mem_append_left _ hin)
  rw [ends, List.lookup_append, hbefore, Option.none_or, List.lookup_cons_self, Option.getD_some]

/-! ## Taking out the ends of a node -/

theorem removeEnds_eq (table : EdgeTable) (nodes : List String) (other : String) :
    table.removeEnds nodes other = table.map fun entry =>
      (entry.1, if entry.1 ∈ nodes then entry.2.filter (· ≠ other) else entry.2) := by
  induction nodes generalizing table with
  | nil => simp [removeEnds]
  | cons node rest ih =>
    have hstep : table.removeEnds (node :: rest) other
        = (table.removeEnd node other).removeEnds rest other := rfl
    rw [hstep, ih, removeEnd, List.map_map]
    apply List.map_congr_left
    rintro ⟨key, ends⟩ _
    simp only [Function.comp_apply, List.mem_cons]
    by_cases hkey : key = node
    · by_cases hrest : node ∈ rest <;> simp [hkey, hrest, List.filter_filter]
    · simp [hkey]

theorem mem_ends_removeEnds (table : EdgeTable) (nodes : List String) (removed node other : String) :
    other ∈ (table.removeEnds nodes removed).ends node
      ↔ other ∈ table.ends node ∧ ¬ (node ∈ nodes ∧ other = removed) := by
  rw [ends, removeEnds_eq, lookup_map_values fun key (ends : List String) =>
    if key ∈ nodes then ends.filter (· ≠ removed) else ends, ends]
  cases hl : table.lookup node with
  | none => simp
  | some ends => by_cases hnode : node ∈ nodes <;> simp [hnode]

theorem removeKey_removeEnds (table : EdgeTable) (nodes : List String) (node other : String) :
    (table.removeEnds nodes other).removeKey node = (table.removeKey node).removeEnds nodes other := by
  rw [removeEnds_eq, removeEnds_eq, removeKey, List.filter_map]
  rfl

/-- Without a place for a node no other one is missing. -/
theorem removeKey_of_notMem {table : EdgeTable} {node : String} (h : node ∉ table.keys) :
    table.removeKey node = table := by
  rw [removeKey, List.filter_eq_self]
  rintro ⟨key, ends⟩ hmem
  exact decide_eq_true fun heq => h (heq ▸ List.mem_map_of_mem hmem)

/-- **No edge to a node is left** when its ends are taken out at the nodes that have an
edge to it. -/
theorem removeEnds_eq_removeNode {table : EdgeTable} (hnodup : table.keys.Nodup)
    {nodes : List String} {node : String}
    (h : ∀ source, source ≠ node → node ∈ table.ends source → source ∈ nodes) :
    (table.removeKey node).removeEnds nodes node = table.removeNode node := by
  rw [removeEnds_eq, removeNode]
  apply List.map_congr_left
  rintro ⟨source, others⟩ hmem
  obtain ⟨hmem, hne⟩ := List.mem_filter.mp hmem
  dsimp only
  split
  · rfl
  · rename_i hsource
    -- the node is no end at the places that are passed over
    have hnot : node ∉ others := fun hin =>
      hsource (h source (of_decide_eq_true hne) ((ends_of_mem hnodup hmem).symm ▸ hin))
    rw [List.filter_eq_self.mpr]
    intro other hother
    exact decide_eq_true fun heq => hnot (heq ▸ hother)

/-- Without a node that no edge starts from or ends in a table is what it was. -/
theorem removeNode_of_notMem {table : EdgeTable} (hnodup : table.keys.Nodup) {node : String}
    (hkey : node ∉ table.keys) (hends : ∀ source, node ∉ table.ends source) :
    table.removeNode node = table := by
  have hremoved : (table.removeKey node).removeEnds [] node = table.removeNode node :=
    removeEnds_eq_removeNode hnodup fun source _ hl => absurd hl (hends source)
  rw [← hremoved, removeKey_of_notMem hkey]
  rfl

end EdgeTable

/-! ## Nodes and edges of a graph -/

namespace Graph

variable {α : Type}

theorem contains_iff (graph : Graph α) (node : String) :
    graph.contains node = true ↔ node ∈ graph.keys :=
  lookup_isSome_iff_mem_keys graph.nodes node

theorem connects_iff (graph : Graph α) (source target : String) :
    graph.connects source target = true ↔ source ∈ graph.keys ∧ target ∈ graph.keys := by
  rw [connects, Bool.and_eq_true, contains_iff, contains_iff]

theorem data?_isSome_iff (graph : Graph α) (node : String) :
    (graph.data? node).isSome = true ↔ node ∈ graph.keys :=
  lookup_isSome_iff_mem_keys graph.nodes node

theorem keys_addNode (graph : Graph α) (node : String) (data : α) :
    (graph.addNode node data).keys
      = if node ∈ graph.keys then graph.keys else graph.keys ++ [node] := by
  by_cases hc : graph.contains node = true
  · rw [if_pos ((contains_iff graph node).mp hc), keys, addNode, if_pos hc, List.map_map]
    apply List.map_congr_left
    rintro ⟨key, held⟩ _
    simp only [Function.comp_apply]
    split <;> rfl
  · rw [if_neg (fun h => hc ((contains_iff graph node).mpr h)), keys, addNode, if_neg hc]
    simp [keys]

theorem keys_addDependency (graph : Graph α) (source target : String) :
    (graph.addDependency source target).keys = graph.keys := by
  unfold addDependency
  split <;> rfl

/-- Without a text that is no node a graph is what it was. -/
theorem removeNode_of_notMem {graph : Graph α} {node : String} (h : node ∉ graph.keys) :
    graph.removeNode node = graph :=
  if_neg fun hc => h ((contains_iff graph node).mp hc)

theorem keys_removeNode (graph : Graph α) (node : String) :
    (graph.removeNode node).keys = graph.keys.filter (· ≠ node) := by
  by_cases hc : graph.contains node = true
  · rw [removeNode, if_pos hc]
    simp [keys, List.filter_map, Function.comp_def]
  · rw [contains_iff] at hc
    rw [removeNode_of_notMem hc, eq_comm, List.filter_eq_self]
    exact fun key hkey => decide_eq_true fun heq => hc (heq ▸ hkey)

theorem data?_addNode (graph : Graph α) (node : String) (data : α) (key : String) :
    (graph.addNode node data).data? key
      = if key = node then some data else graph.data? key := by
  let renew (key : String) (held : α) : α := if key = node then data else held
  by_cases hc : graph.contains node = true
  · have hnodes : (graph.addNode node data).nodes
        = graph.nodes.map fun entry => (entry.1, renew entry.1 entry.2) := by
      unfold addNode
      dsimp only
      rw [if_pos hc]
      apply List.map_congr_left
      rintro ⟨key, held⟩ _
      simp only [renew]
      split <;> rfl
    rw [data?, hnodes, lookup_map_values renew]
    by_cases hk : key = node
    · obtain ⟨held, hheld⟩ := Option.isSome_iff_exists.mp hc
      simp [hk, hheld, renew]
    · simp [hk, renew, data?]
  · have hnodes : (graph.addNode node data).nodes = graph.nodes ++ [(node, data)] := if_neg hc
    rw [data?, hnodes, List.lookup_append]
    have hnone : graph.nodes.lookup node = none := Option.not_isSome_iff_eq_none.mp hc
    by_cases hk : key = node
    · simp [hk, hnone]
    · have hne : (key == node) = false := beq_eq_false_iff_ne.mpr hk
      simp [hk, List.lookup_cons, hne, data?]

theorem data?_addDependency (graph : Graph α) (source target key : String) :
    (graph.addDependency source target).data? key = graph.data? key := by
  unfold addDependency
  split <;> rfl

theorem data?_removeNode (graph : Graph α) (node key : String) :
    (graph.removeNode node).data? key = if key = node then none else graph.data? key := by
  by_cases hc : graph.contains node = true
  · rw [removeNode, if_pos hc]
    exact lookup_filter_ne node key graph.nodes
  · rw [removeNode, if_neg hc]
    split
    · rename_i hkey
      rw [hkey]
      exact Option.not_isSome_iff_eq_none.mp hc
    · rfl

/-- There is an edge from one node to another. -/
def Leads (graph : Graph α) (source target : String) : Prop :=
  target ∈ graph.directDependencies source

/-- A node depends on another, directly or through others. -/
def DependsOn (graph : Graph α) : String → String → Prop :=
  Relation.TransGen graph.Leads

/-- The two tables tell of the same edges between the same nodes. -/
structure Coherent (graph : Graph α) : Prop where
  nodup : graph.keys.Nodup
  outgoing_keys : graph.outgoing.keys = graph.keys
  incoming_keys : graph.incoming.keys = graph.keys
  leads_mem : ∀ source target, graph.Leads source target → target ∈ graph.keys
  mirrored : ∀ source target,
    source ∈ graph.directDependants target ↔ graph.Leads source target

/-- The graphs that are made by adding nodes and edges and removing nodes. -/
inductive Built : Graph α → Prop where
  | empty : Built {}
  | addNode {graph : Graph α} (node : String) (data : α) :
      Built graph → Built (graph.addNode node data)
  | addDependency {graph : Graph α} (source target : String) :
      Built graph → Built (graph.addDependency source target)
  | removeNode {graph : Graph α} (node : String) :
      Built graph → Built (graph.removeNode node)

theorem directDependencies_addNode (graph : Graph α) (added : String) (data : α) (node : String) :
    (graph.addNode added data).directDependencies node = graph.directDependencies node :=
  EdgeTable.ends_addNode _ _ _

theorem leads_addNode (graph : Graph α) (node : String) (data : α) (source target : String) :
    (graph.addNode node data).Leads source target ↔ graph.Leads source target := by
  rw [Leads, directDependencies_addNode, Leads]

namespace Coherent

variable {graph : Graph α}

theorem source_mem (h : graph.Coherent) {source target : String}
    (hl : graph.Leads source target) : source ∈ graph.keys := by
  rw [← h.outgoing_keys]
  exact EdgeTable.mem_keys_of_mem_ends hl

/-- **Both tables lose all edges of a node that is removed**: since they mirror each other,
each lists all places of the other one at which the node is an end. An edge from the node to
itself stands at a place that is gone as a whole. -/
theorem tables_removeNode (h : graph.Coherent) (node : String) :
    (graph.removeNode node).outgoing = graph.outgoing.removeNode node
      ∧ (graph.removeNode node).incoming = graph.incoming.removeNode node := by
  have hout : graph.outgoing.keys.Nodup := h.outgoing_keys ▸ h.nodup
  have hin : graph.incoming.keys.Nodup := h.incoming_keys ▸ h.nodup
  by_cases hc : graph.contains node = true
  · rw [Graph.removeNode, if_pos hc]
    dsimp only
    refine ⟨EdgeTable.removeEnds_eq_removeNode hout fun source hne hl => ?_, ?_⟩
    · rw [EdgeTable.mem_ends_removeEnds]
      exact ⟨(h.mirrored source node).mpr hl, fun hself => hne hself.2⟩
    · rw [EdgeTable.removeKey_removeEnds]
      exact EdgeTable.removeEnds_eq_removeNode hin fun target _ hl => (h.mirrored node target).mp hl
  · rw [contains_iff] at hc
    rw [removeNode_of_notMem hc]
    constructor
    · exact (EdgeTable.removeNode_of_notMem hout (h.outgoing_keys ▸ hc) fun source hl =>
        hc (h.leads_mem source node hl)).symm
    · exact (EdgeTable.removeNode_of_notMem hin (h.incoming_keys ▸ hc) fun target hl =>
        hc (h.source_mem ((h.mirrored node target).mp hl))).symm

theorem directDependencies_removeNode (h : graph.Coherent) (removed node : String) :
    (graph.removeNode removed).directDependencies node
      = if node = removed then [] else (graph.directDependencies node).filter (· ≠ removed) := by
  rw [directDependencies, (h.tables_removeNode removed).1]
  exact EdgeTable.ends_removeNode _ _ _

theorem leads_removeNode (h : graph.Coherent) (node source target : String) :
    (graph.removeNode node).Leads source target
      ↔ graph.Leads source target ∧ source ≠ node ∧ target ≠ node := by
  rw [Leads, h.directDependencies_removeNode]
  by_cases hsource : source = node <;> simp [hsource, Leads]

/-- An edge is added only between nodes. -/
theorem directDependencies_addDependency (h : graph.Coherent) (source target node : String) :
    (graph.addDependency source target).directDependencies node
      = if node = source ∧ source ∈ graph.keys ∧ target ∈ graph.keys then
          withEnd (graph.directDependencies source) target
        else graph.directDependencies node := by
  by_cases hc : graph.connects source target = true
  · have hkeys := (connects_iff graph source target).mp hc
    have hs : source ∈ graph.outgoing.keys := by
      rw [h.outgoing_keys]; exact hkeys.1
    rw [Graph.addDependency, if_pos hc, directDependencies, EdgeTable.ends_addEnd hs]
    simp only [hkeys, and_true, directDependencies]
  · rw [Graph.addDependency, if_neg hc, if_neg]
    rw [connects_iff] at hc
    exact fun hall => hc hall.2

theorem leads_addDependency (h : graph.Coherent) (source target first second : String) :
    (graph.addDependency source target).Leads first second
      ↔ graph.Leads first second
        ∨ ((source ∈ graph.keys ∧ target ∈ graph.keys) ∧ first = source ∧ second = target) := by
  rw [Leads, h.directDependencies_addDependency, Leads]
  split
  · rename_i hadded
    simp [mem_withEnd, hadded]
  · rename_i hnot
    exact ⟨Or.inl, fun hl => hl.resolve_right fun ⟨hkeys, hfirst, _⟩ => hnot ⟨hfirst, hkeys⟩⟩

theorem empty : Coherent ({} : Graph α) where
  nodup := List.nodup_nil
  outgoing_keys := rfl
  incoming_keys := rfl
  leads_mem := by intro _ _ h; cases h
  mirrored := by
    intro _ _
    constructor <;> intro h <;> cases h

theorem addNode (h : graph.Coherent) (node : String) (data : α) :
    (graph.addNode node data).Coherent where
  nodup := by
    rw [keys_addNode]
    split
    · exact h.nodup
    · rename_i hnew
      rw [List.nodup_append_comm, List.singleton_append]
      exact List.nodup_cons.mpr ⟨hnew, h.nodup⟩
  outgoing_keys := by
    rw [keys_addNode, Graph.addNode, EdgeTable.keys_addNode, h.outgoing_keys]
  incoming_keys := by
    rw [keys_addNode, Graph.addNode, EdgeTable.keys_addNode, h.incoming_keys]
  leads_mem := by
    intro source target hl
    have hmem := h.leads_mem source target ((leads_addNode graph node data _ _).mp hl)
    rw [keys_addNode]
    split
    · exact hmem
    · exact List.mem_append_left _ hmem
  mirrored := by
    intro source target
    rw [leads_addNode, ← h.mirrored, directDependants, directDependants, Graph.addNode,
      EdgeTable.ends_addNode]

theorem addDependency (h : graph.Coherent) (source target : String) :
    (graph.addDependency source target).Coherent where
  nodup := by rw [keys_addDependency]; exact h.nodup
  outgoing_keys := by
    rw [keys_addDependency, Graph.addDependency]
    split
    · rw [EdgeTable.keys_addEnd]; exact h.outgoing_keys
    · exact h.outgoing_keys
  incoming_keys := by
    rw [keys_addDependency, Graph.addDependency]
    split
    · rw [EdgeTable.keys_addEnd]; exact h.incoming_keys
    · exact h.incoming_keys
  leads_mem := by
    intro first second hl
    rw [keys_addDependency]
    rcases (h.leads_addDependency _ _ _ _).mp hl with hl | ⟨⟨_, ht⟩, _, rfl⟩
    · exact h.leads_mem _ _ hl
    · exact ht
  mirrored := by
    intro first second
    rw [h.leads_addDependency, ← h.mirrored]
    by_cases hc : graph.connects source target = true
    · have hkeys := (connects_iff graph source target).mp hc
      have ht : target ∈ graph.incoming.keys := by
        rw [h.incoming_keys]; exact hkeys.2
      rw [Graph.addDependency, if_pos hc, directDependants, EdgeTable.mem_ends_addEnd ht]
      simp [hkeys, directDependants, and_comm]
    · rw [Graph.addDependency, if_neg hc]
      rw [connects_iff] at hc
      simp [hc]

theorem removeNode (h : graph.Coherent) (node : String) : (graph.removeNode node).Coherent where
  nodup := by rw [keys_removeNode]; exact h.nodup.filter _
  outgoing_keys := by
    rw [keys_removeNode, (h.tables_removeNode node).1, EdgeTable.keys_removeNode, h.outgoing_keys]
  incoming_keys := by
    rw [keys_removeNode, (h.tables_removeNode node).2, EdgeTable.keys_removeNode, h.incoming_keys]
  leads_mem := by
    intro source target hl
    obtain ⟨hl, _, ht⟩ := (h.leads_removeNode node _ _).mp hl
    rw [keys_removeNode, List.mem_filter]
    exact ⟨h.leads_mem _ _ hl, by simpa using ht⟩
  mirrored := by
    intro source target
    rw [h.leads_removeNode, ← h.mirrored, directDependants, (h.tables_removeNode node).2,
      EdgeTable.mem_ends_removeNode, and_comm (a := target ≠ node)]
    exact Iff.rfl

end Coherent

theorem Built.coherent {graph : Graph α} (h : graph.Built) : graph.Coherent := by
  induction h with
  | empty => exact .empty
  | addNode node data _ ih => exact ih.addNode node data
  | addDependency source target _ ih => exact ih.addDependency source target
  | removeNode node _ ih => exact ih.removeNode node

/-! ## Removing several nodes -/

theorem Built.foldl_removeNode {graph : Graph α} (h : graph.Built) (removed : List String) :
    (removed.foldl Graph.removeNode graph).Built := by
  induction removed generalizing graph with
  | nil => exact h
  | cons node rest ih => exact ih (h.removeNode node)

theorem data?_foldl_removeNode (graph : Graph α) (removed : List String) (key : String) :
    (removed.foldl removeNode graph).data? key
      = if key ∈ removed then none else graph.data? key := by
  induction removed generalizing graph with
  | nil => rfl
  | cons node rest ih =>
    rw [List.foldl_cons, ih, data?_removeNode]
    by_cases hnode : key = node
    · simp [hnode]
    · simp [hnode]

theorem Coherent.leads_foldl_removeNode {graph : Graph α} (h : graph.Coherent)
    (removed : List String) (source target : String) :
    (removed.foldl Graph.removeNode graph).Leads source target
      ↔ graph.Leads source target ∧ source ∉ removed ∧ target ∉ removed := by
  induction removed generalizing graph with
  | nil => simp
  | cons node rest ih =>
    rw [List.foldl_cons, ih (h.removeNode node), h.leads_removeNode]
    simp only [List.mem_cons, not_or]
    constructor
    · rintro ⟨⟨hl, hs, ht⟩, hs', ht'⟩
      exact ⟨hl, ⟨hs, hs'⟩, ht, ht'⟩
    · rintro ⟨hl, ⟨hs, hs'⟩, ht, ht'⟩
      exact ⟨⟨hl, hs, ht⟩, hs', ht'⟩

/-- Removing other nodes keeps the edges of a node to those that stay. -/
theorem Coherent.directDependencies_foldl_removeNode {graph : Graph α} (h : graph.Coherent)
    (removed : List String) {node : String} (hnode : node ∉ removed) :
    (removed.foldl Graph.removeNode graph).directDependencies node
      = (graph.directDependencies node).filter (· ∉ removed) := by
  induction removed generalizing graph with
  | nil => simp
  | cons first rest ih =>
    rw [List.mem_cons, not_or] at hnode
    rw [List.foldl_cons, ih (h.removeNode first) hnode.2]
    rw [h.directDependencies_removeNode, if_neg hnode.1, List.filter_filter]
    apply List.filter_congr
    intro target _
    simp [Bool.and_comm]

end Graph

end PackageOrder
