/-
PackageOrder.Proofs.Graph.Mirror — the two tables of a graph, and the lists that are
made from them, tell of the same edges.

Every change edits both tables: an edge is entered at both of its ends, and a node that is
removed is taken out of each table where the other one lists it. So in every graph that is
made by such changes the tables mirror each other (`Built.coherent`), and they list each
edge once (`Built.distinct`). What is reached along the edges of one table is then what
comes to a node along those of the other one (`Built.mirrors`).
-/
import PackageOrder.Proofs.Graph.Order

namespace PackageOrder

/-! ## Tables that list each edge once -/

theorem nodup_withEnd {ends : List String} (h : ends.Nodup) (target : String) :
    (withEnd ends target).Nodup := by
  unfold withEnd
  split
  · exact h
  · rename_i hnew
    rw [List.nodup_append_comm, List.singleton_append]
    exact List.nodup_cons.mpr ⟨hnew, h⟩

namespace EdgeTable

/-- A table in which no node has the same end twice. -/
def Distinct (table : EdgeTable) : Prop :=
  ∀ node, (table.ends node).Nodup

namespace Distinct

variable {table : EdgeTable}

theorem addNode (h : table.Distinct) (added : String) : (table.addNode added).Distinct := by
  intro node
  rw [ends_addNode]
  exact h node

theorem addEnd (h : table.Distinct) {source : String} (hsource : source ∈ table.keys)
    (target : String) : (table.addEnd source target).Distinct := by
  intro node
  rw [ends_addEnd hsource]
  split
  · exact nodup_withEnd (h source) target
  · exact h node

theorem removeNode (h : table.Distinct) (removed : String) : (table.removeNode removed).Distinct := by
  intro node
  rw [ends_removeNode]
  split
  · exact List.nodup_nil
  · exact (h node).filter _

end Distinct

end EdgeTable

namespace Graph

variable {α : Type} {graph : Graph α}

/-- **Neither table lists an edge twice**, however often it was added. -/
theorem Built.distinct (h : graph.Built) : graph.outgoing.Distinct ∧ graph.incoming.Distinct := by
  induction h with
  | empty => exact ⟨fun _ => List.nodup_nil, fun _ => List.nodup_nil⟩
  | addNode node _ _ ih => exact ⟨ih.1.addNode node, ih.2.addNode node⟩
  | @addDependency graph source target hbuilt ih =>
    have hcoherent := hbuilt.coherent
    rw [Graph.addDependency]
    split
    · rename_i hconnects
      obtain ⟨hsource, htarget⟩ := (connects_iff graph source target).mp hconnects
      exact ⟨ih.1.addEnd (hcoherent.outgoing_keys ▸ hsource) target,
        ih.2.addEnd (hcoherent.incoming_keys ▸ htarget) source⟩
    · exact ih
  | removeNode node hbuilt ih =>
    obtain ⟨hout, hin⟩ := hbuilt.coherent.tables_removeNode node
    rw [hout, hin]
    exact ⟨ih.1.removeNode node, ih.2.removeNode node⟩

/-- **The two tables of a graph mirror each other, and so do the lists made of them.** All
three tables have the same nodes, no edge ends elsewhere or is listed twice, and a table
lists an edge exactly if the other one does. The dependencies of a node are the other nodes
that edges lead to from it, each once, and a node is among them exactly if it has the first
one among its dependants. -/
theorem Built.mirrors (h : graph.Built) :
    (graph.keys.Nodup ∧ graph.outgoing.keys = graph.keys ∧ graph.incoming.keys = graph.keys)
      ∧ (∀ source target,
          source ∈ graph.incoming.ends target ↔ target ∈ graph.outgoing.ends source)
      ∧ (∀ node, graph.outgoing.ends node ⊆ graph.keys ∧ graph.incoming.ends node ⊆ graph.keys
          ∧ (graph.outgoing.ends node).Nodup ∧ (graph.incoming.ends node).Nodup)
      ∧ (∀ node, (graph.dependencies node).Nodup ∧ (graph.dependants node).Nodup
          ∧ ∀ other, other ∈ graph.dependencies node ↔ other ≠ node ∧ graph.DependsOn node other)
      ∧ ∀ node other, other ∈ graph.dependencies node ↔ node ∈ graph.dependants other := by
  have hcoherent := h.coherent
  obtain ⟨hout, hin⟩ := h.distinct
  refine ⟨⟨hcoherent.nodup, hcoherent.outgoing_keys, hcoherent.incoming_keys⟩,
    hcoherent.mirrored, fun node => ⟨?_, ?_, hout node, hin node⟩, fun node => ⟨?_, ?_, ?_⟩, ?_⟩
  · exact fun target htarget => hcoherent.leads_mem node target htarget
  · exact fun source hsource => hcoherent.incoming_leads_mem node source hsource
  · exact nodup_reachable graph hcoherent.leads_mem node
  · exact nodup_reachable graph hcoherent.incoming_leads_mem node
  · exact hcoherent.mem_dependencies node
  · intro node other
    rw [hcoherent.mem_dependencies, hcoherent.mem_dependants, ne_comm]

/-- Three nodes on a cycle; the first one, which had an edge to itself, was removed and has
come back with an edge to it only. -/
def renewedGraph : Graph Unit :=
  let nodes := ((({} : Graph Unit).addNode "a" ()).addNode "b" ()).addNode "c" ()
  let loop := (nodes.addDependency "a" "a").addDependency "a" "b"
  let cycle := ((loop.addDependency "a" "b").addDependency "b" "c").addDependency "c" "a"
  ((cycle.removeNode "a").addNode "a" ()).addDependency "c" "a"

/-- No edge of the removed node has come back with it, in either table. -/
theorem Built.mirrors_renewed :
    renewedGraph.Built ∧ renewedGraph.outgoing = [("b", ["c"]), ("c", ["a"]), ("a", [])]
      ∧ renewedGraph.incoming = [("b", []), ("c", ["b"]), ("a", ["c"])]
      ∧ renewedGraph.dependencies "b" = ["a", "c"] ∧ "b" ∈ renewedGraph.dependants "a"
      ∧ ¬ renewedGraph.DependsOn "a" "b" := by
  have hbuilt : renewedGraph.Built :=
    .addDependency _ _ <| .addNode _ _ <| .removeNode _ <| .addDependency _ _ <|
      .addDependency _ _ <| .addDependency _ _ <| .addDependency _ _ <| .addDependency _ _ <|
      .addNode _ _ <| .addNode _ _ <| .addNode _ _ .empty
  have hlist : renewedGraph.dependencies "b" = ["a", "c"] := by decide +kernel
  have hnone : renewedGraph.dependencies "a" = [] := by decide +kernel
  obtain ⟨_, _, _, hexact, hmirror⟩ := Built.mirrors hbuilt
  refine ⟨hbuilt, by decide +kernel, by decide +kernel, hlist,
    (hmirror "b" "a").mp (hlist ▸ List.mem_cons_self), fun hd => ?_⟩
  have hmem := ((hexact "a").2.2 "b").mpr ⟨by decide, hd⟩
  rw [hnone] at hmem
  cases hmem

end Graph

end PackageOrder
