import SecOpent.Python.Text

/-!
# The graph of assets

`domain/assets/models.py` and `domain/assets/graph.py`: what was discovered, as typed values with
relations between them. An edge brings its end points into the graph.

## Main definitions

* `AssetNode`, `AssetEdge`, `AssetGraph`
* `AssetGraph.addNode`, `AssetGraph.addEdge`

## Main results

* `mem_nodes_addNodes`, `mem_nodes_addEdges`, `mem_edges_addEdges`: what a graph has after nodes and
  edges are added
-/

namespace SecOpent.Assets

/-- `AssetType`. -/
inductive AssetType
  | domain | ip | port | service | url | endpoint | technology
  deriving DecidableEq, Repr

/-- `AssetType.value`. -/
def AssetType.value : AssetType → String
  | .domain => "domain"
  | .ip => "ip"
  | .port => "port"
  | .service => "service"
  | .url => "url"
  | .endpoint => "endpoint"
  | .technology => "technology"

/-- The members of `AssetType`. -/
def AssetType.all : List AssetType := [.domain, .ip, .port, .service, .url, .endpoint, .technology]

/-- `AssetRelation`. -/
inductive AssetRelation
  | resolvesTo | exposes | runs | serves | contains | uses
  deriving DecidableEq, Repr

/-- `AssetRelation.value`. -/
def AssetRelation.value : AssetRelation → String
  | .resolvesTo => "resolves_to"
  | .exposes => "exposes"
  | .runs => "runs"
  | .serves => "serves"
  | .contains => "contains"
  | .uses => "uses"

/-- The members of `AssetRelation`. -/
def AssetRelation.all : List AssetRelation :=
  [.resolvesTo, .exposes, .runs, .serves, .contains, .uses]

/-- `AssetNode`. -/
@[ext]
structure AssetNode where
  type : AssetType
  value : String
  value_ne : value ≠ ""

instance : DecidableEq AssetNode := fun _ _ => decidable_of_iff _ AssetNode.ext_iff.symm

/-- `AssetEdge`. -/
structure AssetEdge where
  src : AssetNode
  dst : AssetNode
  rel : AssetRelation
  deriving DecidableEq

/-- `AssetGraph`. -/
structure AssetGraph where
  nodes : List AssetNode := []
  edges : List AssetEdge := []

namespace AssetGraph

variable (graph : AssetGraph)

/-- `add_node`. -/
def addNode (node : AssetNode) : AssetGraph :=
  if node ∈ graph.nodes then graph else { graph with nodes := graph.nodes ++ [node] }

/-- `add_edge`. -/
def addEdge (edge : AssetEdge) : AssetGraph :=
  let withEnds := (graph.addNode edge.src).addNode edge.dst
  if edge ∈ withEnds.edges then withEnds else { withEnds with edges := withEnds.edges ++ [edge] }

/-- Several nodes are added, one after the other. -/
def addNodes (nodes : List AssetNode) : AssetGraph := nodes.foldl addNode graph

/-- Several edges are added, one after the other. -/
def addEdges (edges : List AssetEdge) : AssetGraph := edges.foldl addEdge graph

variable {graph} {node : AssetNode} {edge : AssetEdge}

@[simp] theorem mem_nodes_addNode {new : AssetNode} :
    node ∈ (graph.addNode new).nodes ↔ node ∈ graph.nodes ∨ node = new := by
  unfold addNode
  split
  next hmem =>
    constructor
    · exact .inl
    · rintro (h | rfl)
      · exact h
      · exact hmem
  next => simp

@[simp] theorem edges_addNode {new : AssetNode} : (graph.addNode new).edges = graph.edges := by
  unfold addNode
  split <;> rfl

@[simp] theorem mem_nodes_addEdge {new : AssetEdge} :
    node ∈ (graph.addEdge new).nodes ↔ node ∈ graph.nodes ∨ node = new.src ∨ node = new.dst := by
  -- The end points are added whether the edge is new or not.
  simp only [addEdge]
  split <;> simp [or_assoc]

@[simp] theorem mem_edges_addEdge {new : AssetEdge} :
    edge ∈ (graph.addEdge new).edges ↔ edge ∈ graph.edges ∨ edge = new := by
  simp only [addEdge, edges_addNode]
  split
  next hmem =>
    simp only [edges_addNode]
    constructor
    · exact .inl
    · rintro (h | rfl)
      · exact h
      · exact hmem
  next => simp

@[simp] theorem edges_addNodes {nodes : List AssetNode} :
    (graph.addNodes nodes).edges = graph.edges := by
  induction nodes generalizing graph with
  | nil => rfl
  | cons new nodes ih => exact ih.trans edges_addNode

@[simp] theorem mem_nodes_addNodes {nodes : List AssetNode} :
    node ∈ (graph.addNodes nodes).nodes ↔ node ∈ graph.nodes ∨ node ∈ nodes := by
  induction nodes generalizing graph with
  | nil => simp [addNodes]
  | cons new nodes ih =>
    -- On the nodes: the first is added to the graph, and the others to what that gives.
    rw [addNodes, List.foldl_cons, ← addNodes, ih, mem_nodes_addNode, List.mem_cons, or_assoc]

@[simp] theorem mem_nodes_addEdges {edges : List AssetEdge} :
    node ∈ (graph.addEdges edges).nodes ↔
      node ∈ graph.nodes ∨ ∃ edge ∈ edges, node = edge.src ∨ node = edge.dst := by
  induction edges generalizing graph with
  | nil => simp [addEdges]
  | cons new edges ih =>
    rw [addEdges, List.foldl_cons, ← addEdges, ih, mem_nodes_addEdge, or_assoc]
    simp

@[simp] theorem mem_edges_addEdges {edges : List AssetEdge} :
    edge ∈ (graph.addEdges edges).edges ↔ edge ∈ graph.edges ∨ edge ∈ edges := by
  induction edges generalizing graph with
  | nil => simp [addEdges]
  | cons new edges ih =>
    rw [addEdges, List.foldl_cons, ← addEdges, ih, mem_edges_addEdge, List.mem_cons, or_assoc]

end AssetGraph

end SecOpent.Assets
