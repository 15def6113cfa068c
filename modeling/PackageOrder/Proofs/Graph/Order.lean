/-
PackageOrder.Proofs.Graph.Order — what the lists of dependencies, of dependants
and of all nodes hold, and the order of the last one.

`Graph.overallOrder` lists every node once. A node stands after each node that
it depends on by a first step that does not lead back
(`Coherent.mem_before_of_overallOrder`); that is as much as the walk gives, since
on a cycle it may finish a node before the others that the cycle leads to. The
same holds of the dependencies of a node with the node behind them
(`Coherent.mem_before_of_dependencies`). So the order of all nodes is topological
but for edges on cycles (`overallOrder_topological`).
-/
import PackageOrder.Proofs.Graph.Walk

namespace PackageOrder

open Relation (ReflTransGen TransGen)

namespace Graph

variable {α : Type} {graph : Graph α}

/-- Edges lead from a node to itself, or it depends on what they lead to. -/
theorem reaches_iff (graph : Graph α) (node other : String) :
    graph.outgoing.Reaches node other ↔ other = node ∨ graph.DependsOn node other :=
  Relation.reflTransGen_iff_eq_or_transGen

/-- Without a way back to a node no edges lead back to it from a next one. -/
theorem not_reaches_of_leads {node first : String} (hl : graph.Leads node first)
    (hno : ¬ graph.DependsOn first node) : ¬ graph.outgoing.Reaches first node := by
  intro hback
  rcases (reaches_iff graph first node).mp hback with rfl | hd
  · exact hno (TransGen.single hl)
  · exact hno hd

/-- What a walk from a node meets besides it is what edges lead to from there. -/
theorem mem_reachable (graph : Graph α) {edges : EdgeTable}
    (hends : ∀ node next, edges.Leads node next → next ∈ graph.keys) (node other : String) :
    other ∈ graph.reachable edges node
      ↔ node ∈ graph.keys ∧ other ≠ node ∧ edges.Reaches node other := by
  unfold reachable
  by_cases hc : graph.contains node = true
  · have hnode := (contains_iff graph node).mp hc
    have hstarts : ∀ start ∈ [node], start ∈ graph.keys := by
      intro start hs
      rw [List.mem_singleton.mp hs]
      exact hnode
    rw [if_pos hc, List.mem_filter, mem_postOrder graph hends hstarts]
    simp only [List.mem_singleton, exists_eq_left, decide_eq_true_eq, hnode, true_and]
    exact and_comm
  · rw [if_neg hc]
    rw [contains_iff] at hc
    simp [hc]

/-- What a walk from a node meets besides it is listed once. -/
theorem nodup_reachable (graph : Graph α) {edges : EdgeTable}
    (hends : ∀ node next, edges.Leads node next → next ∈ graph.keys) (node : String) :
    (graph.reachable edges node).Nodup := by
  unfold reachable
  split
  · rename_i hc
    refine List.Nodup.filter _ (nodup_postOrder graph hends fun start hs => ?_)
    rw [List.mem_singleton.mp hs]
    exact (contains_iff graph node).mp hc
  · exact List.nodup_nil

namespace Coherent

/-- A node that depends on something is a node of the graph. -/
theorem dependsOn_source_mem (h : graph.Coherent) {node other : String}
    (hd : graph.DependsOn node other) : node ∈ graph.keys := by
  obtain ⟨_, hl, _⟩ := TransGen.head'_iff.mp hd
  exact h.source_mem hl

theorem dependsOn_target_mem (h : graph.Coherent) {node other : String}
    (hd : graph.DependsOn node other) : other ∈ graph.keys := by
  obtain ⟨_, _, hl⟩ := TransGen.tail'_iff.mp hd
  exact h.leads_mem _ _ hl

/-- Against the edges one meets what depends on a node. -/
theorem incoming_reaches_iff (h : graph.Coherent) (node other : String) :
    graph.incoming.Reaches node other ↔ graph.outgoing.Reaches other node := by
  have hswap : graph.incoming.Leads = Function.swap graph.outgoing.Leads := by
    funext source target
    exact propext (h.mirrored target source)
  rw [EdgeTable.Reaches, hswap, Relation.reflTransGen_swap]
  exact Iff.rfl

theorem mem_dependencies (h : graph.Coherent) (node other : String) :
    other ∈ graph.dependencies node ↔ other ≠ node ∧ graph.DependsOn node other := by
  rw [dependencies, mem_reachable graph h.leads_mem, reaches_iff]
  constructor
  · rintro ⟨_, hne, heq | hd⟩
    · exact absurd heq hne
    · exact ⟨hne, hd⟩
  · rintro ⟨hne, hd⟩
    exact ⟨h.dependsOn_source_mem hd, hne, Or.inr hd⟩

theorem incoming_leads_mem (h : graph.Coherent) (target source : String)
    (hl : graph.incoming.Leads target source) : source ∈ graph.keys :=
  h.source_mem ((h.mirrored source target).mp hl)

theorem mem_dependants (h : graph.Coherent) (node other : String) :
    other ∈ graph.dependants node ↔ other ≠ node ∧ graph.DependsOn other node := by
  rw [dependants, mem_reachable graph h.incoming_leads_mem, h.incoming_reaches_iff, reaches_iff]
  constructor
  · rintro ⟨_, hne, heq | hd⟩
    · exact absurd heq.symm hne
    · exact ⟨hne, hd⟩
  · rintro ⟨hne, hd⟩
    exact ⟨h.dependsOn_target_mem hd, hne, Or.inr hd⟩

/-! ## The order of all nodes -/

theorem starts_mem_keys (graph : Graph α) : ∀ start ∈ graph.roots ++ graph.keys,
    start ∈ graph.keys := by
  intro start hs
  rcases List.mem_append.mp hs with hs | hs
  · exact (List.mem_filter.mp hs).1
  · exact hs

theorem mem_overallOrder (h : graph.Coherent) (node : String) :
    node ∈ graph.overallOrder ↔ node ∈ graph.keys := by
  rw [overallOrder, mem_postOrder graph h.leads_mem (starts_mem_keys graph)]
  constructor
  · rintro ⟨start, hs, hr⟩
    rcases (reaches_iff graph start node).mp hr with rfl | hd
    · exact starts_mem_keys graph _ hs
    · exact h.dependsOn_target_mem hd
  · intro hnode
    exact ⟨node, List.mem_append_right _ hnode, ReflTransGen.refl⟩

theorem nodup_overallOrder (h : graph.Coherent) : graph.overallOrder.Nodup :=
  nodup_postOrder graph h.leads_mem (starts_mem_keys graph)

/-- A node stands after what it depends on by a first step that does not lead
back to it. -/
theorem mem_before_of_overallOrder (h : graph.Coherent) {before after : List String}
    {node : String} (heq : graph.overallOrder = before ++ node :: after) {first last : String}
    (hl : graph.Leads node first) (hr : last = first ∨ graph.DependsOn first last)
    (hno : ¬ graph.DependsOn first node) : last ∈ before := by
  apply mem_before_of_postOrder graph h.leads_mem (starts_mem_keys graph) heq hl
  · exact (reaches_iff graph first last).mpr hr
  · exact not_reaches_of_leads hl hno

theorem idxOf_overallOrder_lt (h : graph.Coherent) {node first last : String}
    (hl : graph.Leads node first) (hr : last = first ∨ graph.DependsOn first last)
    (hno : ¬ graph.DependsOn first node) :
    graph.overallOrder.idxOf last < graph.overallOrder.idxOf node := by
  obtain ⟨before, after, heq⟩ := List.append_of_mem
    ((h.mem_overallOrder node).mpr (h.source_mem hl))
  have hmem := h.mem_before_of_overallOrder heq hl hr hno
  have hnodup := h.nodup_overallOrder
  rw [heq, List.nodup_middle, List.nodup_cons] at hnodup
  have hnode : node ∉ before := fun hin => hnodup.1 (List.mem_append_left _ hin)
  rw [heq, List.idxOf_append, if_pos hmem, List.idxOf_append, if_neg hnode, List.idxOf_cons_self]
  have hlt := List.idxOf_lt_length_of_mem hmem
  omega

/-! ## The dependencies of a node and the node itself -/

theorem nodup_dependencies (h : graph.Coherent) (root : String) :
    (graph.dependencies root ++ [root]).Nodup := by
  rw [List.nodup_append_comm, List.singleton_append, List.nodup_cons]
  exact ⟨fun hmem => ((h.mem_dependencies root root).mp hmem).1 rfl,
    nodup_reachable graph h.leads_mem root⟩

/-- Behind its dependencies a node stands after all of them; each of these stands
after what it depends on by a first step that does not lead back to it. -/
theorem mem_before_of_dependencies (h : graph.Coherent) {root : String}
    {before after : List String} {node : String}
    (heq : graph.dependencies root ++ [root] = before ++ node :: after) {first last : String}
    (hl : graph.Leads node first) (hr : last = first ∨ graph.DependsOn first last)
    (hno : ¬ graph.DependsOn first node) : last ∈ before := by
  have hnodup := h.nodup_dependencies root
  have hlast : graph.DependsOn node last := by
    rcases hr with rfl | hr
    · exact TransGen.single hl
    · exact TransGen.head hl hr
  have hback : last ≠ node := by
    rintro rfl
    rcases hr with rfl | hr
    · exact hno (TransGen.single hl)
    · exact hno hr
  by_cases hroot : node = root
  · -- the node itself comes last
    subst hroot
    have hnot : node ∉ graph.dependencies node :=
      fun hmem => ((h.mem_dependencies node node).mp hmem).1 rfl
    obtain ⟨rfl, _, _⟩ := (List.append_cons_inj_of_notMem hnot List.not_mem_nil).mp heq
    exact (h.mem_dependencies node last).mpr ⟨hback, hlast⟩
  · have hnode : node ∈ graph.dependencies root := by
      have hmem : node ∈ graph.dependencies root ++ [root] := by rw [heq]; simp
      exact (List.mem_append.mp hmem).resolve_right fun hm => hroot (List.mem_singleton.mp hm)
    have hdep := ((h.mem_dependencies root node).mp hnode).2
    have hkey := h.dependsOn_source_mem hdep
    have hstarts : ∀ start ∈ [root], start ∈ graph.keys := by
      intro start hs
      rw [List.mem_singleton.mp hs]
      exact hkey
    have hfilter : graph.dependencies root
        = (graph.postOrder graph.outgoing [root]).filter (· ≠ root) :=
      if_pos ((contains_iff graph root).mpr hkey)
    obtain ⟨front, back, hpost⟩ := List.append_of_mem
      (List.mem_of_mem_filter (hfilter ▸ hnode))
    rw [hfilter, hpost, List.filter_append, List.filter_cons_of_pos (by simpa using hroot),
      List.append_assoc, List.cons_append] at heq hnodup
    rw [List.nodup_middle, List.nodup_cons, List.mem_append, not_or] at hnodup
    obtain ⟨rfl, _, _⟩ := (List.append_cons_inj_of_notMem hnodup.1.1 hnodup.1.2).mp heq
    -- the root is not reached from here, so it is not what stands before
    have hmem := mem_before_of_postOrder graph h.leads_mem hstarts hpost hl
      ((reaches_iff graph first last).mpr hr) (not_reaches_of_leads hl hno)
    have hne : last ≠ root := by
      rintro rfl
      rcases hr with rfl | hr
      · exact hno hdep
      · exact hno (hr.trans hdep)
    exact List.mem_filter.mpr ⟨hmem, by simpa using hne⟩

/-- In the order of all nodes a node stands before each one that depends on it by a first
step from which there is no way back. -/
theorem sublist_overallOrder (h : graph.Coherent) {node first last : String}
    (hl : graph.Leads node first) (hr : last = first ∨ graph.DependsOn first last)
    (hno : ¬ graph.DependsOn first node) : List.Sublist [last, node] graph.overallOrder := by
  obtain ⟨before, after, heq⟩ := List.append_of_mem
    ((h.mem_overallOrder node).mpr (h.source_mem hl))
  have hlast := h.mem_before_of_overallOrder heq hl hr hno
  rw [heq]
  exact (List.singleton_sublist.mpr hlast).append
    (List.singleton_sublist.mpr List.mem_cons_self)

end Coherent

/-- **The order of all nodes is topological, cycles apart.** It lists every node once and
nothing else. What an edge leads to stands before the node that it starts from unless it
depends on that node in turn; so without cycles every node stands after everything that it
depends on. -/
theorem overallOrder_topological (h : graph.Built) :
    graph.keys.Nodup ∧ graph.overallOrder.Perm graph.keys
      ∧ (∀ source target, graph.Leads source target → ¬ graph.DependsOn target source →
          List.Sublist [target, source] graph.overallOrder)
      ∧ ((∀ node, ¬ graph.DependsOn node node) → ∀ source target,
          graph.DependsOn source target → List.Sublist [target, source] graph.overallOrder) := by
  have hcoherent := h.coherent
  refine ⟨hcoherent.nodup, ?_, ?_, ?_⟩
  · exact (List.perm_ext_iff_of_nodup hcoherent.nodup_overallOrder hcoherent.nodup).mpr
      hcoherent.mem_overallOrder
  · exact fun source target hl hno => hcoherent.sublist_overallOrder hl (Or.inl rfl) hno
  · intro hacyclic source target hd
    obtain ⟨first, hl, hr⟩ := TransGen.head'_iff.mp hd
    refine hcoherent.sublist_overallOrder hl ((reaches_iff graph first target).mp hr) ?_
    exact fun hback => hacyclic source (TransGen.head hl hback)

/-- Two nodes that need each other, the first of which needs a third one and itself. -/
def cyclicGraph : Graph Unit :=
  let nodes := (((({} : Graph Unit).addNode "a" ()).addNode "b" ()).addNode "c" ()).addNode "d" ()
  ((((nodes.addDependency "a" "b").addDependency "b" "a").addDependency "a" "c").addDependency
    "a" "a").removeNode "d"

/-- What lies off a cycle stands before the node that needs it. -/
theorem overallOrder_topological_cyclic :
    cyclicGraph.Built ∧ cyclicGraph.Leads "a" "c" ∧ ¬ cyclicGraph.DependsOn "c" "a"
      ∧ cyclicGraph.overallOrder = ["b", "c", "a"] ∧ cyclicGraph.overallOrder.Perm cyclicGraph.keys
      ∧ List.Sublist ["c", "a"] cyclicGraph.overallOrder := by
  have hbuilt : cyclicGraph.Built :=
    .removeNode _ <| .addDependency _ _ <| .addDependency _ _ <| .addDependency _ _ <|
      .addDependency _ _ <| .addNode _ _ <| .addNode _ _ <| .addNode _ _ <| .addNode _ _ .empty
  have hleads : cyclicGraph.Leads "a" "c" := by
    change "c" ∈ cyclicGraph.directDependencies "a"
    decide +kernel
  have hno : ¬ cyclicGraph.DependsOn "c" "a" := by
    intro hd
    obtain ⟨next, hl, _⟩ := TransGen.head'_iff.mp hd
    change next ∈ cyclicGraph.directDependencies "c" at hl
    rw [show cyclicGraph.directDependencies "c" = [] by decide +kernel] at hl
    cases hl
  obtain ⟨_, hperm, hedges, _⟩ := overallOrder_topological hbuilt
  exact ⟨hbuilt, hleads, hno, by decide +kernel, hperm, hedges "a" "c" hleads hno⟩

end Graph

end PackageOrder
