/-
PackageOrder.Proofs.Graph.Walk — what a depth-first walk meets, and in which
order it finishes.

During a walk a node is *open* when it was met and is not finished: the walk is
somewhere below it. Open nodes are the ones above the node being visited, so
they all lead to it; this is the hypothesis that a visit needs and hands on.

* `Walk.Sound` — the invariant of a walk. Its last field is the order: when a
  node is finished, everything that it leads to by a first step from which it
  cannot be reached again has been finished before.
* `Walk.Covers` — what visiting some nodes one after the other does to a walk.
  `covers_visit` proves it of a single visit by induction on the depth.
* `Graph.mem_postOrder`, `Graph.nodup_postOrder`, `Graph.mem_before_of_postOrder`
  — the same for the list that the walk makes.
-/
import Mathlib.Data.Finset.Card
import Mathlib.Data.Finset.Filter
import PackageOrder.Proofs.Graph.Edges

namespace PackageOrder

open Relation (ReflTransGen)

namespace EdgeTable

/-- There is an edge from one node to another. -/
def Leads (edges : EdgeTable) (source target : String) : Prop :=
  target ∈ edges.ends source

/-- Edges lead from one node to another, none if they are the same. -/
def Reaches (edges : EdgeTable) : String → String → Prop :=
  ReflTransGen edges.Leads

end EdgeTable

namespace Walk

/-! ## The invariant -/

/-- A node was met and is not finished. -/
def IsOpen (walk : Walk) (node : String) : Prop :=
  node ∈ walk.met ∧ node ∉ walk.finished

/-- The nodes among some that were not met; there is a visit for each at most. -/
def unmet (bound : Finset String) (walk : Walk) : Finset String :=
  bound.filter (· ∉ walk.met)

/-- The invariant of a walk. The finished nodes stand the last one first. -/
structure Sound (edges : EdgeTable) (walk : Walk) : Prop where
  finished_met : ∀ node ∈ walk.finished, node ∈ walk.met
  nodup : walk.finished.Nodup
  closed : ∀ node ∈ walk.finished, ∀ next, edges.Leads node next → next ∈ walk.met
  settled : ∀ later node earlier, walk.finished = later ++ node :: earlier →
    ∀ first last, edges.Leads node first → edges.Reaches first last →
      ¬ edges.Reaches first node → last ∈ earlier

/-- A walk goes on from another one and has come back to the same open nodes. -/
structure Extends (walk after : Walk) : Prop where
  met : ∀ node ∈ walk.met, node ∈ after.met
  opened : ∀ node, after.IsOpen node ↔ walk.IsOpen node

theorem Extends.refl (walk : Walk) : walk.Extends walk :=
  ⟨fun _ h => h, fun _ => Iff.rfl⟩

theorem Extends.trans {first second third : Walk} (h1 : first.Extends second)
    (h2 : second.Extends third) : first.Extends third :=
  ⟨fun node h => h2.met node (h1.met node h),
    fun node => (h2.opened node).trans (h1.opened node)⟩

/-- Meeting more nodes leaves no more of them to be met. -/
theorem card_unmet_le {walk after : Walk} (h : ∀ node ∈ walk.met, node ∈ after.met)
    (bound : Finset String) : (after.unmet bound).card ≤ (walk.unmet bound).card := by
  apply Finset.card_le_card
  intro node hnode
  rw [unmet, Finset.mem_filter] at hnode ⊢
  exact ⟨hnode.1, fun hmet => hnode.2 (h node hmet)⟩

/-- A node was met if none is left. -/
theorem mem_met_of_card_unmet {bound : Finset String} {walk : Walk} {node : String}
    (hmem : node ∈ bound) (h : (walk.unmet bound).card ≤ 0) : node ∈ walk.met := by
  by_contra hnew
  have hunmet : node ∈ walk.unmet bound := Finset.mem_filter.mpr ⟨hmem, hnew⟩
  exact absurd h (Nat.not_le.mpr (Finset.card_pos.mpr ⟨node, hunmet⟩))

/-- Meeting a new node leaves fewer nodes to be met. -/
theorem unmet_lt {bound : Finset String} {walk : Walk} {node : String}
    (hmem : node ∈ bound) (hnew : node ∉ walk.met) :
    (unmet bound { walk with met := node :: walk.met }).card < (walk.unmet bound).card := by
  apply Finset.card_lt_card
  constructor
  · intro other hother
    rw [unmet, Finset.mem_filter] at hother ⊢
    exact ⟨hother.1, fun hmet => hother.2 (List.mem_cons_of_mem _ hmet)⟩
  · intro hsub
    have hnode : node ∈ walk.unmet bound := Finset.mem_filter.mpr ⟨hmem, hnew⟩
    exact (Finset.mem_filter.mp (hsub hnode)).2 (List.mem_cons_self ..)

/-- What visiting some nodes one after the other does to a walk. -/
structure Covers (edges : EdgeTable) (walk : Walk) (starts : List String) (after : Walk) :
    Prop where
  sound : after.Sound edges
  onward : walk.Extends after
  starts_met : ∀ start ∈ starts, start ∈ after.met
  reached : ∀ node ∈ after.met, node ∈ walk.met ∨ ∃ start ∈ starts, edges.Reaches start node

/-- What a visit may rely on: the node is one of those that edges lead to, the
depth suffices for the nodes left, and every open node leads to it. -/
structure Ready (edges : EdgeTable) (bound : Finset String) (depth : Nat) (walk : Walk)
    (starts : List String) : Prop where
  sound : walk.Sound edges
  depth_le : (walk.unmet bound).card ≤ depth
  starts_mem : ∀ start ∈ starts, start ∈ bound
  leads : ∀ node, walk.IsOpen node → ∀ start ∈ starts, edges.Reaches node start

/-! ## Finishing a node -/

section Finish

variable {edges : EdgeTable} {walk below : Walk} {node : String}

theorem Sound.open_node (hs : walk.Sound edges) (hnew : node ∉ walk.met) :
    IsOpen { walk with met := node :: walk.met } node :=
  ⟨List.mem_cons_self .., fun h => hnew (hs.finished_met node h)⟩

/-- Meeting a node keeps the invariant. -/
theorem Sound.meet (hs : walk.Sound edges) (node : String) :
    Sound edges { walk with met := node :: walk.met } where
  finished_met := fun other h => List.mem_cons_of_mem _ (hs.finished_met other h)
  nodup := hs.nodup
  closed := fun other h next hl => List.mem_cons_of_mem _ (hs.closed other h next hl)
  settled := hs.settled

/-- Open nodes lead to the node that is being visited, itself included. -/
theorem reaches_of_open (hopen : ∀ other, walk.IsOpen other → edges.Reaches other node)
    {other : String} (h : IsOpen { walk with met := node :: walk.met } other) :
    edges.Reaches other node := by
  obtain ⟨hmet, hfin⟩ := h
  rcases List.mem_cons.mp hmet with rfl | hmet
  · exact ReflTransGen.refl
  · exact hopen other ⟨hmet, hfin⟩

/-- What a node leads to by a step from which there is no way back is finished
when the nodes below it are: an open one on the way would be a way back. -/
theorem finished_of_reaches (hb : below.Sound edges)
    (hback : ∀ other, below.IsOpen other → edges.Reaches other node)
    {first last : String} (hmet : first ∈ below.met) (hr : edges.Reaches first last)
    (hno : ¬ edges.Reaches first node) : last ∈ below.finished := by
  have hfinished : ∀ other, edges.Reaches first other → other ∈ below.met →
      other ∈ below.finished := by
    intro other hother hm
    by_contra hfin
    exact hno (hother.trans (hback other ⟨hm, hfin⟩))
  induction hr with
  | refl => exact hfinished first ReflTransGen.refl hmet
  | tail hr hstep ih => exact hfinished _ (hr.tail hstep) (hb.closed _ ih _ hstep)

/-- Finishing a node all of whose ends were met keeps the invariant. -/
theorem Sound.finish (hb : below.Sound edges) (hnode : below.IsOpen node)
    (hends : ∀ next, edges.Leads node next → next ∈ below.met)
    (hback : ∀ other, below.IsOpen other → edges.Reaches other node) :
    Sound edges { below with finished := node :: below.finished } where
  finished_met := by
    intro other h
    rcases List.mem_cons.mp h with rfl | h
    · exact hnode.1
    · exact hb.finished_met other h
  nodup := List.nodup_cons.mpr ⟨hnode.2, hb.nodup⟩
  closed := by
    intro other h next hl
    rcases List.mem_cons.mp h with rfl | h
    · exact hends next hl
    · exact hb.closed other h next hl
  settled := by
    intro later other earlier heq first last hl hr hno
    cases later with
    | nil =>
      obtain ⟨rfl, rfl⟩ := List.cons.inj heq
      exact finished_of_reaches hb hback (hends first hl) hr hno
    | cons _ later =>
      exact hb.settled later other earlier (List.cons.inj heq).2 first last hl hr hno

end Finish

/-! ## Visits -/

section Visit

variable {edges : EdgeTable} {bound : Finset String}

/-- If single visits to a depth do what they should, so do several. -/
theorem covers_foldl {depth : Nat}
    (hvisit : ∀ walk node, Ready edges bound depth walk [node] →
      Covers edges walk [node] (visit edges depth walk node)) :
    ∀ (starts : List String) (walk : Walk), Ready edges bound depth walk starts →
      Covers edges walk starts (starts.foldl (visit edges depth) walk)
  | [], walk, h => ⟨h.sound, .refl walk, by simp, fun _ hn => Or.inl hn⟩
  | start :: starts, walk, h => by
      have hfirst := hvisit walk start
        ⟨h.sound, h.depth_le,
          fun s hs => h.starts_mem s (List.mem_cons.mpr (Or.inl (List.mem_singleton.mp hs))),
          fun n hn s hs => h.leads n hn s (List.mem_cons.mpr (Or.inl (List.mem_singleton.mp hs)))⟩
      have hready : Ready edges bound depth (visit edges depth walk start) starts :=
        ⟨hfirst.sound,
          Nat.le_trans (card_unmet_le hfirst.onward.met bound) h.depth_le,
          fun s hs => h.starts_mem s (List.mem_cons_of_mem _ hs),
          fun n hn s hs =>
            h.leads n ((hfirst.onward.opened n).mp hn) s (List.mem_cons_of_mem _ hs)⟩
      have hrest := covers_foldl hvisit starts _ hready
      refine ⟨hrest.sound, hfirst.onward.trans hrest.onward, ?_, ?_⟩
      · intro s hs
        rcases List.mem_cons.mp hs with rfl | hs
        · exact hrest.onward.met _ (hfirst.starts_met _ (List.mem_singleton.mpr rfl))
        · exact hrest.starts_met s hs
      · intro n hn
        rcases hrest.reached n hn with hn | ⟨s, hs, hr⟩
        · rcases hfirst.reached n hn with hn | ⟨s, hs, hr⟩
          · exact Or.inl hn
          · rw [List.mem_singleton.mp hs] at hr
            exact Or.inr ⟨start, List.mem_cons_self .., hr⟩
        · exact Or.inr ⟨s, List.mem_cons_of_mem _ hs, hr⟩

theorem covers_of_met {walk : Walk} {node : String} (hs : walk.Sound edges)
    (hmet : node ∈ walk.met) : Covers edges walk [node] walk :=
  ⟨hs, .refl walk, fun s h => by rw [List.mem_singleton.mp h]; exact hmet, fun _ h => Or.inl h⟩

/-- Finishing the node that was met last comes back to the same open nodes. -/
theorem Extends.finish {walk below : Walk} {node : String} (hnew : node ∉ walk.met)
    (h : Extends { walk with met := node :: walk.met } below) :
    walk.Extends { below with finished := node :: below.finished } where
  met := fun other ho => h.met other (List.mem_cons_of_mem _ ho)
  opened := by
    intro other
    constructor
    · rintro ⟨hm, hf⟩
      rw [List.mem_cons, not_or] at hf
      obtain ⟨hm', hf'⟩ := (h.opened other).mp ⟨hm, hf.2⟩
      exact ⟨(List.mem_cons.mp hm').resolve_left hf.1, hf'⟩
    · rintro ⟨hm, hf⟩
      obtain ⟨hm', hf'⟩ := (h.opened other).mpr ⟨List.mem_cons_of_mem _ hm, hf⟩
      refine ⟨hm', ?_⟩
      rw [List.mem_cons, not_or]
      exact ⟨fun heq => hnew (heq ▸ hm), hf'⟩

/-- A node is visited when what it leads to was visited below it. -/
theorem Covers.finish {walk below : Walk} {node : String} (hs : walk.Sound edges)
    (hnew : node ∉ walk.met) (hopen : ∀ other, walk.IsOpen other → edges.Reaches other node)
    (h : Covers edges { walk with met := node :: walk.met } (edges.ends node) below) :
    Covers edges walk [node] { below with finished := node :: below.finished } := by
  have hnode : below.IsOpen node := (h.onward.opened node).mpr (hs.open_node hnew)
  refine ⟨h.sound.finish hnode h.starts_met ?_, h.onward.finish hnew, ?_, ?_⟩
  · exact fun other ho => reaches_of_open hopen ((h.onward.opened other).mp ho)
  · intro start hstart
    rw [List.mem_singleton.mp hstart]
    exact hnode.1
  · intro other ho
    rcases h.reached other ho with ho | ⟨next, hn, hr⟩
    · rcases List.mem_cons.mp ho with rfl | ho
      · exact Or.inr ⟨_, List.mem_singleton.mpr rfl, ReflTransGen.refl⟩
      · exact Or.inl ho
    · exact Or.inr ⟨node, List.mem_singleton.mpr rfl, ReflTransGen.head hn hr⟩

/-- The nodes left suffice for the depth: at depth zero there are none. -/
theorem Ready.mem_met {walk : Walk} {node : String} (h : Ready edges bound 0 walk [node]) :
    node ∈ walk.met :=
  mem_met_of_card_unmet (h.starts_mem node (List.mem_singleton.mpr rfl)) h.depth_le

/-- Below a node that is met there is a visit less deep to be made. -/
theorem Ready.below (hends : ∀ node next, edges.Leads node next → next ∈ bound) {depth : Nat}
    {walk : Walk} {node : String} (h : Ready edges bound (depth + 1) walk [node])
    (hnew : node ∉ walk.met) :
    Ready edges bound depth { walk with met := node :: walk.met } (edges.ends node) where
  sound := h.sound.meet node
  depth_le := by
    have hlt := unmet_lt (h.starts_mem node (List.mem_singleton.mpr rfl)) hnew
    have hle := h.depth_le
    omega
  starts_mem := fun next hn => hends node next hn
  leads := by
    intro other ho next hn
    exact (reaches_of_open (fun o ho => h.leads o ho node (List.mem_singleton.mpr rfl)) ho).tail hn

/-- A visit meets a node and what it leads to, and comes back to the same open
nodes. -/
theorem covers_visit (hends : ∀ node next, edges.Leads node next → next ∈ bound) :
    ∀ (depth : Nat) (walk : Walk) (node : String), Ready edges bound depth walk [node] →
      Covers edges walk [node] (visit edges depth walk node)
  | 0, _, _, h => covers_of_met h.sound h.mem_met
  | depth + 1, walk, node, h => by
      by_cases hmet : node ∈ walk.met
      · rw [visit, if_pos hmet]
        exact covers_of_met h.sound hmet
      · rw [visit, if_neg hmet]
        have hopen : ∀ other, walk.IsOpen other → edges.Reaches other node :=
          fun other ho => h.leads other ho node (List.mem_singleton.mpr rfl)
        have hbelow := covers_foldl (covers_visit hends depth) (edges.ends node) _
          (h.below hends hmet)
        exact hbelow.finish h.sound hmet hopen

end Visit

end Walk

/-! ## The order of a walk -/

namespace Graph

variable {α : Type} (graph : Graph α) {edges : EdgeTable} {starts : List String}

/-- A walk over a whole graph meets and finishes what its starts lead to. -/
theorem covers_walk (hends : ∀ node next, edges.Leads node next → next ∈ graph.keys)
    (hstarts : ∀ start ∈ starts, start ∈ graph.keys) :
    Walk.Covers edges {} starts
      (starts.foldl (Walk.visit edges (graph.nodes.length + 1)) {}) := by
  have hbound : ∀ node next, edges.Leads node next → next ∈ graph.keys.toFinset :=
    fun node next h => List.mem_toFinset.mpr (hends node next h)
  apply Walk.covers_foldl (Walk.covers_visit hbound (graph.nodes.length + 1))
  refine ⟨⟨by simp, List.nodup_nil, by simp, by simp⟩, ?_, ?_, ?_⟩
  · have hle : (Walk.unmet graph.keys.toFinset {}).card ≤ graph.keys.toFinset.card :=
      Finset.card_filter_le _ _
    have hlen := graph.keys.toFinset_card_le
    have hkeys : graph.keys.length = graph.nodes.length := List.length_map _
    omega
  · exact fun start h => List.mem_toFinset.mpr (hstarts start h)
  · exact fun node h => absurd h.1 List.not_mem_nil

theorem mem_postOrder (hends : ∀ node next, edges.Leads node next → next ∈ graph.keys)
    (hstarts : ∀ start ∈ starts, start ∈ graph.keys) (node : String) :
    node ∈ graph.postOrder edges starts ↔ ∃ start ∈ starts, edges.Reaches start node := by
  have h := covers_walk graph hends hstarts
  unfold postOrder
  revert h
  generalize starts.foldl (Walk.visit edges (graph.nodes.length + 1)) {} = walk
  intro h
  rw [List.mem_reverse]
  -- no node is open any more
  have hfinished : ∀ other ∈ walk.met, other ∈ walk.finished := by
    intro other hm
    by_contra hf
    exact List.not_mem_nil ((h.onward.opened other).mp ⟨hm, hf⟩).1
  constructor
  · intro hnode
    rcases h.reached node (h.sound.finished_met node hnode) with hm | hr
    · exact absurd hm List.not_mem_nil
    · exact hr
  · rintro ⟨start, hs, hr⟩
    induction hr with
    | refl => exact hfinished start (h.starts_met start hs)
    | tail _ hstep ih => exact hfinished _ (h.sound.closed _ ih _ hstep)

theorem nodup_postOrder (hends : ∀ node next, edges.Leads node next → next ∈ graph.keys)
    (hstarts : ∀ start ∈ starts, start ∈ graph.keys) : (graph.postOrder edges starts).Nodup :=
  List.nodup_reverse.mpr (covers_walk graph hends hstarts).sound.nodup

/-- A node stands after everything that it leads to by a first step from which
there is no way back to it. -/
theorem mem_before_of_postOrder (hends : ∀ node next, edges.Leads node next → next ∈ graph.keys)
    (hstarts : ∀ start ∈ starts, start ∈ graph.keys) {before after : List String} {node : String}
    (heq : graph.postOrder edges starts = before ++ node :: after) {first last : String}
    (hl : edges.Leads node first) (hr : edges.Reaches first last)
    (hno : ¬ edges.Reaches first node) : last ∈ before := by
  have h := (covers_walk graph hends hstarts).sound.settled
    after.reverse node before.reverse (by
      rw [postOrder, List.reverse_eq_iff] at heq
      rw [heq]
      simp)
  exact List.mem_reverse.mp (h first last hl hr hno)

end Graph

end PackageOrder
