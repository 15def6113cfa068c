/-
PackageOrder.Graph — directed graphs of dependencies. An edge leads from a node
to one that it depends on.

Nodes and edges keep the order in which they were added, and every order below
is made from that one alone. The edges are held twice, by where they start and
by where they end.

`postOrder` is a depth-first walk that lists a node after everything it leads
to, cycles apart. A walk never meets more nodes one inside the other than there
are, so their number bounds its depth.
-/
namespace PackageOrder

/-- The ends of edges by the node at their other end. -/
abbrev EdgeTable := List (String × List String)

namespace EdgeTable

/-- The ends of the edges of a node. -/
def ends (table : EdgeTable) (node : String) : List String :=
  (table.lookup node).getD []

/-- The table with a place for a node, in which there are no edges if it is
new. -/
def addNode (table : EdgeTable) (node : String) : EdgeTable :=
  if (table.lookup node).isSome then table else table ++ [(node, [])]

/-- The table with an end more for a node. -/
def addEnd (table : EdgeTable) (node other : String) : EdgeTable :=
  table.map fun (key, ends) =>
    if key = node ∧ other ∉ ends then (key, ends ++ [other]) else (key, ends)

/-- The table without the place of a node. -/
def removeKey (table : EdgeTable) (node : String) : EdgeTable :=
  table.filter (·.1 ≠ node)

/-- The table with an end less for a node. -/
def removeEnd (table : EdgeTable) (node other : String) : EdgeTable :=
  table.map fun (key, ends) =>
    if key = node then (key, ends.filter (· ≠ other)) else (key, ends)

/-- The table with an end less for each of some nodes. -/
def removeEnds (table : EdgeTable) (nodes : List String) (other : String) : EdgeTable :=
  nodes.foldl (removeEnd · · other) table

end EdgeTable

/-- A directed graph whose nodes are texts with data. -/
structure Graph (α : Type) where
  nodes : List (String × α) := []
  outgoing : EdgeTable := []
  incoming : EdgeTable := []

/-- The nodes that a walk has met, and those it has finished with, the last one
first. -/
structure Walk where
  met : List String := []
  finished : List String := []

/-- Walks from a node to everything it leads to that was not met before, to a
given depth. -/
def Walk.visit (edges : EdgeTable) : Nat → Walk → String → Walk
  | 0, walk, _ => walk
  | depth + 1, walk, node =>
    if node ∈ walk.met then walk
    else
      let below := (edges.ends node).foldl (visit edges depth)
        { walk with met := node :: walk.met }
      { below with finished := node :: below.finished }

namespace Graph

variable {α : Type}

/-! ## Nodes and edges -/

/-- The nodes in order. -/
def keys (graph : Graph α) : List String :=
  graph.nodes.map (·.1)

/-- Whether a text is a node. -/
def contains (graph : Graph α) (node : String) : Bool :=
  (graph.nodes.lookup node).isSome

/-- The data of a node. -/
def data? (graph : Graph α) (node : String) : Option α :=
  graph.nodes.lookup node

/-- The graph with a node, which keeps its place and edges if it is there. -/
def addNode (graph : Graph α) (node : String) (data : α) : Graph α where
  nodes :=
    if graph.contains node then
      graph.nodes.map fun (key, held) => if key = node then (key, data) else (key, held)
    else graph.nodes ++ [(node, data)]
  outgoing := graph.outgoing.addNode node
  incoming := graph.incoming.addNode node

/-- The graph without a node and its edges. What each table lists for the node says
at which places of the other one the node is an end. -/
def removeNode (graph : Graph α) (node : String) : Graph α :=
  if graph.contains node then
    -- an edge from the node to itself is gone from here when the sources are read
    let incoming := graph.incoming.removeEnds (graph.outgoing.ends node) node
    { nodes := graph.nodes.filter (·.1 ≠ node)
      outgoing := (graph.outgoing.removeKey node).removeEnds (incoming.ends node) node
      incoming := incoming.removeKey node }
  else graph

/-- Whether an edge may lead from one text to another: both are nodes. -/
def connects (graph : Graph α) (source target : String) : Bool :=
  graph.contains source && graph.contains target

/-- The graph with an edge between two nodes. -/
def addDependency (graph : Graph α) (source target : String) : Graph α :=
  if graph.connects source target then
    { graph with
      outgoing := graph.outgoing.addEnd source target
      incoming := graph.incoming.addEnd target source }
  else graph

/-- What a node depends on directly. -/
def directDependencies (graph : Graph α) (node : String) : List String :=
  graph.outgoing.ends node

/-- What depends on a node directly. -/
def directDependants (graph : Graph α) (node : String) : List String :=
  graph.incoming.ends node

/-! ## Walks -/

/-- The nodes met on a walk from some nodes, each after what it leads to. -/
def postOrder (graph : Graph α) (edges : EdgeTable) (starts : List String) : List String :=
  (starts.foldl (Walk.visit edges (graph.nodes.length + 1)) {}).finished.reverse

/-- What a walk from a node meets besides it. -/
def reachable (graph : Graph α) (edges : EdgeTable) (node : String) : List String :=
  if graph.contains node then (graph.postOrder edges [node]).filter (· ≠ node) else []

/-- Everything a node depends on, each after what it depends on itself. -/
def dependencies (graph : Graph α) (node : String) : List String :=
  graph.reachable graph.outgoing node

/-- Everything that depends on a node. -/
def dependants (graph : Graph α) (node : String) : List String :=
  graph.reachable graph.incoming node

/-- The nodes that nothing depends on. -/
def roots (graph : Graph α) : List String :=
  graph.keys.filter fun node => (graph.incoming.ends node).isEmpty

/-- All nodes, each after what it depends on. The walk starts at the roots;
nodes that only cycles lead to come after. -/
def overallOrder (graph : Graph α) : List String :=
  graph.postOrder graph.outgoing (graph.roots ++ graph.keys)

end Graph

end PackageOrder
