import GraphScribe.Number.Binary64

/-!
# Graphs

A graph keeps its nodes and its edges in the order in which they were added; everything that shows
a graph follows that order. Edges may name nodes that the graph does not have.
-/

namespace GraphScribe

/-- The name of a node. -/
abbrev NodeId := Int64

/-- A node with its cost. -/
structure Node where
  id : NodeId
  cost : Binary64
deriving DecidableEq

/-- An edge between two names. A directed edge leads only from its source to its target. -/
structure Edge where
  source : NodeId
  target : NodeId
  cost : Binary64
  directed : Bool
deriving DecidableEq

/-- The edge leads from `start` to `finish`. -/
def Edge.connects (e : Edge) (start finish : NodeId) : Bool :=
  (e.source == start && e.target == finish) ||
    (!e.directed && (e.source == finish && e.target == start))

/-- What a graph is made of. -/
inductive GraphElement where
  | node (node : Node)
  | edge (edge : Edge)
deriving DecidableEq

namespace GraphElement

/-- The node that an element is. -/
def node? : GraphElement → Option Node
  | node n => some n
  | edge _ => none

/-- The edge that an element is. -/
def edge? : GraphElement → Option Edge
  | node _ => none
  | edge e => some e

end GraphElement

/-- Nodes and edges, each in the order of their addition. -/
structure Graph where
  nodes : List Node
  edges : List Edge
deriving DecidableEq

namespace Graph

/-- The graph without nodes and edges. -/
def empty : Graph := ⟨[], []⟩

instance : Inhabited Graph := ⟨empty⟩

/-- Adds a node after all others. -/
def addNode (g : Graph) (node : Node) : Graph :=
  { g with nodes := g.nodes ++ [node] }

/-- Adds an edge after all others. -/
def addEdge (g : Graph) (edge : Edge) : Graph :=
  { g with edges := g.edges ++ [edge] }

/-- The graph of some elements, in order. -/
def ofElements (elements : List GraphElement) : Graph :=
  ⟨elements.filterMap (·.node?), elements.filterMap (·.edge?)⟩

/-- The number of nodes. -/
def nodeCount (g : Graph) : Nat := g.nodes.length

/-- The number of edges. -/
def edgeCount (g : Graph) : Nat := g.edges.length

/-- Some edge leads from `start` to `finish`. -/
def isAdjacent (g : Graph) (start finish : NodeId) : Bool :=
  g.edges.any (·.connects start finish)

end Graph
end GraphScribe
