/-
PackageOrder.Proofs.Graph.Local — a walk depends on nothing but the edges of
the nodes that it can come to.

Two tables may differ elsewhere, and the walks may be given different depths:
as long as some nodes are closed under the edges, the tables agree on them and
both depths suffice for them, a walk that starts there is the same
(`Walk.visit_congr`). So the dependencies of a node are the same, and in the
same order, in any two graphs that agree on what the node leads to
(`Graph.dependencies_congr`).
-/
import PackageOrder.Proofs.Graph.Order

namespace PackageOrder

namespace Walk

/-! ## A walk forgets nothing -/

/-- What was met stays met. -/
theorem met_visit (edges : EdgeTable) : ∀ (depth : Nat) (walk : Walk) (node : String),
    ∀ other ∈ walk.met, other ∈ (visit edges depth walk node).met
  | 0, _, _ => fun _ h => h
  | depth + 1, walk, node => by
      intro other hmet
      rw [visit]
      split
      · exact hmet
      · have hfold : ∀ (ends : List String) (walk : Walk), other ∈ walk.met →
            other ∈ (ends.foldl (visit edges depth) walk).met := by
          intro ends
          induction ends with
          | nil => exact fun _ h => h
          | cons first rest ih =>
            exact fun walk h => ih _ (met_visit edges depth walk first other h)
        exact hfold _ _ (List.mem_cons_of_mem _ hmet)

/-! ## Tables that agree on some nodes -/

/-- Two tables have the same edges, in the same order, from each of some nodes,
and these lead to no others. -/
structure AgreeOn (bound : Finset String) (one other : EdgeTable) : Prop where
  same : ∀ node ∈ bound, one.ends node = other.ends node
  closed : ∀ node ∈ bound, ∀ next ∈ one.ends node, next ∈ bound

section Congr

variable {bound : Finset String} {one other : EdgeTable}

/-- If single visits to two depths agree, so do several. -/
theorem foldl_visit_congr {depth depth' : Nat}
    (hvisit : ∀ walk node, node ∈ bound → (walk.unmet bound).card ≤ depth →
      (walk.unmet bound).card ≤ depth' → visit one depth walk node = visit other depth' walk node) :
    ∀ (starts : List String) (walk : Walk), (∀ start ∈ starts, start ∈ bound) →
      (walk.unmet bound).card ≤ depth → (walk.unmet bound).card ≤ depth' →
      starts.foldl (visit one depth) walk = starts.foldl (visit other depth') walk
  | [], _, _, _, _ => rfl
  | start :: starts, walk, hstarts, hdepth, hdepth' => by
      have hfewer := card_unmet_le (met_visit one depth walk start) bound
      rw [List.foldl_cons, List.foldl_cons,
        ← hvisit walk start (hstarts start List.mem_cons_self) hdepth hdepth']
      exact foldl_visit_congr hvisit starts _
        (fun s hs => hstarts s (List.mem_cons_of_mem _ hs))
        (Nat.le_trans hfewer hdepth) (Nat.le_trans hfewer hdepth')

/-- **A walk sees only the edges of the nodes it can come to.** -/
theorem visit_congr (h : AgreeOn bound one other) :
    ∀ (depth depth' : Nat) (walk : Walk) (node : String), node ∈ bound →
      (walk.unmet bound).card ≤ depth → (walk.unmet bound).card ≤ depth' →
      visit one depth walk node = visit other depth' walk node
  | 0, 0, _, _, _, _, _ => rfl
  | 0, depth' + 1, walk, node, hnode, hdepth, _ => by
      rw [visit, visit, if_pos (mem_met_of_card_unmet hnode hdepth)]
  | depth + 1, 0, walk, node, hnode, _, hdepth' => by
      rw [visit, visit, if_pos (mem_met_of_card_unmet hnode hdepth')]
  | depth + 1, depth' + 1, walk, node, hnode, hdepth, hdepth' => by
      rw [visit, visit]
      by_cases hmet : node ∈ walk.met
      · rw [if_pos hmet, if_pos hmet]
      · have hlt := unmet_lt hnode hmet
        rw [if_neg hmet, if_neg hmet, h.same node hnode,
          foldl_visit_congr (visit_congr h depth depth') (other.ends node)]
        · exact fun next hnext => h.closed node hnode next ((h.same node hnode).symm ▸ hnext)
        · omega
        · omega

end Congr

end Walk

/-! ## Dependencies -/

namespace Graph

variable {α : Type} {one other : Graph α} {bound : Finset String}

/-- The number of nodes suffices for the depth of a walk among some of them. -/
theorem unmet_le_length (graph : Graph α) (hbound : ∀ node ∈ bound, node ∈ graph.keys) :
    (Walk.unmet bound {}).card ≤ graph.nodes.length + 1 := by
  have hle : (Walk.unmet bound {}).card ≤ bound.card := Finset.card_filter_le _ _
  have hsub : bound.card ≤ graph.keys.toFinset.card :=
    Finset.card_le_card fun node h => List.mem_toFinset.mpr (hbound node h)
  have hlen := graph.keys.toFinset_card_le
  have hkeys : graph.keys.length = graph.nodes.length := List.length_map _
  omega

/-- **Two graphs that agree on what a node leads to have the same dependencies of
it**, in the same order. -/
theorem dependencies_congr (hsame : Walk.AgreeOn bound one.outgoing other.outgoing)
    (hone : ∀ node ∈ bound, node ∈ one.keys) (hother : ∀ node ∈ bound, node ∈ other.keys)
    {node : String} (hnode : node ∈ bound) : one.dependencies node = other.dependencies node := by
  have hwalk := Walk.visit_congr hsame (one.nodes.length + 1) (other.nodes.length + 1) {} node
    hnode (one.unmet_le_length hone) (other.unmet_le_length hother)
  unfold dependencies reachable postOrder
  rw [if_pos ((contains_iff one node).mpr (hone node hnode)),
    if_pos ((contains_iff other node).mpr (hother node hnode)), List.foldl_cons, List.foldl_cons,
    hwalk]
  rfl

end Graph

end PackageOrder
