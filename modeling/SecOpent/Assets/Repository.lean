import Mathlib.Data.Set.List
import SecOpent.Assets.Graph
import SecOpent.Python.Table
import SecOpent.Python.Traversal

/-!
# The repository of the asset graph

`SqlAlchemyAssetRepository` of `infrastructure/repositories/sqlalchemy_assets.py`: a row for each
node and each edge, whose keys join the values. The id of a node tells the node, but the id of an
edge need not tell the edge, and of the edges with one id the last one that is saved is loaded.

## Main definitions

* `nodeId`, `edgeId`: the keys
* `AssetRepository.saveGraph`, `loadGraph`: writing a graph, and reading all rows
* `AssetRepository.Lossless`: what is loaded is the union of what was saved
* `EndsSaved`, `IdsTell`: the condition

## Main results

* `nodeId_inj`: the id of a node tells the node
* `saveAll_eq_ok`: when graphs can be saved, and what the tables hold then
* `loadGraph_eq_ok`: what is loaded from rows
* `lossless_iff`: exactly when nothing is lost
-/

namespace SecOpent.Assets

open Python

/-! ## Rows -/

/-- `CoreAssetNode`. -/
structure CoreAssetNode where
  id : String
  assetType : String
  value : String

/-- `CoreAssetEdge`. -/
structure CoreAssetEdge where
  id : String
  srcId : String
  dstId : String
  rel : String

/-- `_node_id`. -/
def nodeId (node : AssetNode) : String := node.type.value ++ (":" ++ node.value)

/-- `_edge_id`. -/
def edgeId (edge : AssetEdge) : String :=
  nodeId edge.src ++ ("|" ++ (edge.rel.value ++ ("|" ++ nodeId edge.dst)))

/-- The row of a node. -/
def nodeRow (node : AssetNode) : CoreAssetNode := ⟨nodeId node, node.type.value, node.value⟩

/-- The row of an edge. -/
def edgeRow (edge : AssetEdge) : CoreAssetEdge :=
  ⟨edgeId edge, nodeId edge.src, nodeId edge.dst, edge.rel.value⟩

/-- `AssetType(row.asset_type)`. -/
def typeOf (assetType : String) : Except String AssetType :=
  match AssetType.all.find? fun type => type.value = assetType with
  | some type => .ok type
  | none => .error ("'" ++ assetType ++ "' is not a valid AssetType")

/-- `AssetNode(…)` of a row. -/
def nodeOf (row : CoreAssetNode) : Except String AssetNode := do
  let type ← typeOf row.assetType
  if h : row.value = "" then .error "AssetNode.value must be non-empty"
  else .ok ⟨type, row.value, h⟩

/-- `nodes[…]`. -/
def nodeAt (nodes : Dict String AssetNode) (id : String) : Except String AssetNode :=
  match nodes.get? id with
  | some node => .ok node
  | none => .error ("'" ++ id ++ "'")

/-- `AssetRelation(edge_row.rel)`. -/
def relationOf (rel : String) : Except String AssetRelation :=
  match AssetRelation.all.find? fun relation => relation.value = rel with
  | some relation => .ok relation
  | none => .error ("'" ++ rel ++ "' is not a valid AssetRelation")

/-- `AssetEdge(…)` of a row. -/
def edgeOf (nodes : Dict String AssetNode) (row : CoreAssetEdge) : Except String AssetEdge := do
  let src ← nodeAt nodes row.srcId
  let dst ← nodeAt nodes row.dstId
  let rel ← relationOf row.rel
  .ok ⟨src, dst, rel⟩

/-- `load_graph`, of the rows in the order in which the queries answer. -/
def loadGraph (nodeRows : List CoreAssetNode) (edgeRows : List CoreAssetEdge) :
    Except String AssetGraph := do
  let items ← nodeRows.mapM fun row => (nodeOf row).map (row.id, ·)
  let nodes := Dict.ofItems items
  let edges ← edgeRows.mapM (edgeOf nodes)
  .ok ((AssetGraph.addNodes {} nodes.values).addEdges edges)

/-! ## Writing -/

/-- The two tables. -/
structure AssetRepository where
  nodes : Table CoreAssetNode CoreAssetNode.id
  edges : Table CoreAssetEdge CoreAssetEdge.id

namespace AssetRepository

/-- Tables without rows. -/
def empty : AssetRepository := ⟨.empty, .empty⟩

/-- `session.merge` of the row of an edge: the database checks its foreign keys. -/
def mergeEdge (repo : AssetRepository) (edge : AssetEdge) : Except String AssetRepository :=
  if (repo.nodes.get? (nodeId edge.src)).isSome && (repo.nodes.get? (nodeId edge.dst)).isSome then
    .ok { repo with edges := repo.edges.put (edgeRow edge) }
  else .error "FOREIGN KEY constraint failed"

/-- `save_graph`. -/
def saveGraph (repo : AssetRepository) (graph : AssetGraph) : Except String AssetRepository :=
  graph.edges.foldlM mergeEdge { repo with nodes := repo.nodes.putAll (graph.nodes.map nodeRow) }

/-- Several graphs are saved, one after the other, into an empty repository. -/
def saveAll (graphs : List AssetGraph) : Except String AssetRepository :=
  graphs.foldlM saveGraph empty

/-- The graphs can be saved, and whatever the order of the rows, what is loaded are their nodes and
their edges. -/
def Lossless (graphs : List AssetGraph) : Prop :=
  ∃ repo, saveAll graphs = .ok repo ∧ ∀ nodeRows edgeRows,
    nodeRows.Perm repo.nodes.rows.values → edgeRows.Perm repo.edges.rows.values →
    ∃ graph, loadGraph nodeRows edgeRows = .ok graph ∧
      (∀ node, node ∈ graph.nodes ↔ ∃ saved ∈ graphs, node ∈ saved.nodes) ∧
      ∀ edge, edge ∈ graph.edges ↔ ∃ saved ∈ graphs, edge ∈ saved.edges

end AssetRepository

/-- The end points of an edge are among the nodes. -/
def EndsIn (nodes : List AssetNode) (edge : AssetEdge) : Prop := edge.src ∈ nodes ∧ edge.dst ∈ nodes

/-- The end points of each edge are nodes of its graph, or of one that was saved before. -/
def EndsSaved (graphs : List AssetGraph) : Prop :=
  ∀ before graph after, graphs = before ++ graph :: after → ∀ edge ∈ graph.edges,
    EndsIn ((before ++ [graph]).flatMap AssetGraph.nodes) edge

/-- No two edges have one id. -/
def IdsTell (edges : List AssetEdge) : Prop :=
  ∀ edge ∈ edges, ∀ edge' ∈ edges, edgeId edge = edgeId edge' → edge = edge'

/-! ## Ids -/

/-- **The id of a node tells the node.** -/
theorem nodeId_inj {node node' : AssetNode} (h : nodeId node = nodeId node') : node = node' := by
  have hcolon : ∀ type : AssetType, ':' ∉ type.value.toList := by
    intro type
    cases type <;> decide
  have hparts : ∀ node, partition ':' (nodeId node).toList =
      (node.type.value.toList, node.value.toList) := by
    intro node
    rw [nodeId, String.toList_append, String.toList_append]
    exact partition_append ':' (hcolon node.type)
  -- No type has a colon, so the first one ends it.
  have heq := (hparts node).symm.trans ((congrArg (fun id : String => partition ':' id.toList) h).trans
    (hparts node'))
  obtain ⟨htype, hvalue⟩ := Prod.mk.inj heq
  have hvalues : ∀ type type' : AssetType, type.value = type'.value → type = type' := by
    intro type type' htypes
    cases type <;> cases type' <;> first | rfl | exact absurd htypes (by decide)
  cases node
  cases node'
  simp only [AssetNode.mk.injEq]
  exact ⟨hvalues _ _ (String.toList_injective htype), String.toList_injective hvalue⟩

theorem typeOf_value (type : AssetType) : typeOf type.value = .ok type := by
  cases type <;> rfl

theorem nodeOf_nodeRow (node : AssetNode) : nodeOf (nodeRow node) = .ok node := by
  rw [nodeOf, nodeRow, typeOf_value]
  exact dif_neg node.value_ne

theorem relationOf_value (rel : AssetRelation) : relationOf rel.value = .ok rel := by
  cases rel <;> rfl

theorem relationValue_inj {rel rel' : AssetRelation} (h : rel.value = rel'.value) : rel = rel' := by
  have hread := relationOf_value rel
  rw [h, relationOf_value] at hread
  exact (Except.ok.inj hread).symm

theorem nodeRow_inj {node node' : AssetNode} (h : nodeRow node = nodeRow node') : node = node' :=
  nodeId_inj (congrArg CoreAssetNode.id h)

/-- A whole row tells the edge, as it has the ids of the end points. -/
theorem edgeRow_inj {edge edge' : AssetEdge} (h : edgeRow edge = edgeRow edge') : edge = edge' := by
  have hsrc := nodeId_inj (congrArg CoreAssetEdge.srcId h)
  have hdst := nodeId_inj (congrArg CoreAssetEdge.dstId h)
  have hrel := relationValue_inj (congrArg CoreAssetEdge.rel h)
  cases edge
  cases edge'
  simp only [AssetEdge.mk.injEq]
  exact ⟨hsrc, hdst, hrel⟩

/-! ## What the tables hold -/

/-- The tables after these nodes and edges are written. -/
def stored (nodes : List AssetNode) (edges : List AssetEdge) : AssetRepository :=
  ⟨Table.empty.putAll (nodes.map nodeRow), Table.empty.putAll (edges.map edgeRow)⟩

section Stored

variable {nodes nodes' : List AssetNode} {edges edges' : List AssetEdge} {node : AssetNode}
  {edge : AssetEdge} {graph : AssetGraph} {graphs : List AssetGraph} {repo : AssetRepository}

/-- The row of every node is there, and no other. -/
theorem stored_nodes_iff {row : CoreAssetNode} :
    row ∈ (stored nodes edges).nodes.rows.values ↔ ∃ node ∈ nodes, row = nodeRow node := by
  rw [Table.mem_values_iff]
  constructor
  · intro hget
    obtain ⟨node, hnode, rfl⟩ := List.mem_map.mp (Table.mem_of_get?_putAll hget)
    exact ⟨node, hnode, rfl⟩
  · rintro ⟨node, hnode, rfl⟩
    refine Table.get?_putAll_of_inj _ (List.mem_map_of_mem hnode) fun row' hrow' hid => ?_
    obtain ⟨node', -, rfl⟩ := List.mem_map.mp hrow'
    rw [nodeId_inj hid]

theorem stored_get?_isSome :
    ((stored nodes edges).nodes.get? (nodeId node)).isSome = true ↔ node ∈ nodes := by
  rw [Option.isSome_iff_exists]
  constructor
  · rintro ⟨row, hget⟩
    have hkey := Table.key_of_get? hget
    have hrow : row ∈ (stored nodes edges).nodes.rows.values := by
      rw [Table.mem_values_iff, hkey]
      exact hget
    -- The row found under the id is that of a node with this id.
    obtain ⟨node', hnode', rfl⟩ := stored_nodes_iff.mp hrow
    rwa [← nodeId_inj hkey]
  · intro hnode
    exact ⟨nodeRow node, Table.mem_values_iff.mp (stored_nodes_iff.mpr ⟨node, hnode, rfl⟩)⟩

/-- **The row of every edge is there exactly if the ids tell the edges.** -/
theorem stored_edges_iff :
    (∀ edge ∈ edges, edgeRow edge ∈ (stored nodes edges).edges.rows.values) ↔ IdsTell edges := by
  constructor
  · intro hall edge hedge edge' hedge' hid
    have hrow := Table.mem_values_iff.mp (hall edge hedge)
    have hrow' := Table.mem_values_iff.mp (hall edge' hedge')
    -- One row cannot be that of both edges.
    have hids : (edgeRow edge).id = (edgeRow edge').id := hid
    rw [hids, hrow'] at hrow
    exact (edgeRow_inj (Option.some.inj hrow)).symm
  · intro htell edge hedge
    rw [Table.mem_values_iff]
    -- Later rows under the id are rows of the same edge, so none is overwritten with another.
    refine Table.get?_putAll_of_inj _ (List.mem_map_of_mem hedge) fun row' hrow' hid => ?_
    obtain ⟨edge', hedge', rfl⟩ := List.mem_map.mp hrow'
    rw [htell edge' hedge' edge hedge hid]

/-! ## Saving -/

theorem mergeEdge_eq_ok : (stored nodes edges).mergeEdge edge = .ok repo ↔
    EndsIn nodes edge ∧ repo = stored nodes (edges ++ [edge]) := by
  have hput : (stored nodes edges).edges.put (edgeRow edge) =
      (stored nodes (edges ++ [edge])).edges := by
    simp only [stored, List.map_append, Table.putAll_append]
    rfl
  have hfound : ((stored nodes edges).nodes.get? (nodeId edge.src)).isSome &&
      ((stored nodes edges).nodes.get? (nodeId edge.dst)).isSome ↔ EndsIn nodes edge := by
    rw [Bool.and_eq_true, stored_get?_isSome, stored_get?_isSome]
    rfl
  unfold AssetRepository.mergeEdge
  rw [hput]
  split
  next hends =>
    constructor
    · rintro ⟨⟩
      exact ⟨hfound.mp hends, rfl⟩
    · rintro ⟨-, rfl⟩
      rfl
  next hends => exact iff_of_false nofun fun h => hends (hfound.mpr h.1)

theorem mergeEdges_eq_ok : edges'.foldlM AssetRepository.mergeEdge (stored nodes edges) = .ok repo ↔
    (∀ edge ∈ edges', EndsIn nodes edge) ∧ repo = stored nodes (edges ++ edges') := by
  induction edges' generalizing edges with
  | nil => simp [pure, Except.pure, eq_comm]
  | cons edge edges' ih =>
    rw [List.foldlM_cons, bind_eq_ok_iff, List.forall_mem_cons]
    constructor
    · rintro ⟨_, hmerge, hrest⟩
      obtain ⟨hends, rfl⟩ := mergeEdge_eq_ok.mp hmerge
      obtain ⟨hlater, rfl⟩ := ih.mp hrest
      exact ⟨⟨hends, hlater⟩, by rw [List.append_assoc, List.singleton_append]⟩
    · rintro ⟨⟨hends, hlater⟩, rfl⟩
      refine ⟨_, mergeEdge_eq_ok.mpr ⟨hends, rfl⟩, ih.mpr ⟨hlater, ?_⟩⟩
      rw [List.append_assoc, List.singleton_append]

theorem saveGraph_eq_ok : (stored nodes edges).saveGraph graph = .ok repo ↔
    (∀ edge ∈ graph.edges, EndsIn (nodes ++ graph.nodes) edge) ∧
      repo = stored (nodes ++ graph.nodes) (edges ++ graph.edges) := by
  have hnodes : (⟨(stored nodes edges).nodes.putAll (graph.nodes.map nodeRow),
      (stored nodes edges).edges⟩ : AssetRepository) = stored (nodes ++ graph.nodes) edges := by
    simp only [stored, List.map_append, Table.putAll_append]
  rw [AssetRepository.saveGraph, hnodes, mergeEdges_eq_ok]

theorem endsSaved_concat : EndsSaved (graphs ++ [graph]) ↔
    EndsSaved graphs ∧
      ∀ edge ∈ graph.edges, EndsIn ((graphs ++ [graph]).flatMap AssetGraph.nodes) edge := by
  constructor
  · intro h
    refine ⟨fun before graph' after heq => ?_, h graphs graph [] rfl⟩
    exact h before graph' (after ++ [graph]) (by rw [heq, List.append_assoc, List.cons_append])
  · rintro ⟨hbefore, hlast⟩ before graph' after heq
    rcases List.eq_nil_or_concat after with rfl | ⟨after, last, rfl⟩
    · obtain ⟨rfl, hgraph⟩ := List.append_inj' heq rfl
      obtain rfl := List.singleton_inj.mp hgraph
      exact hlast
    · rw [List.concat_eq_append, ← List.cons_append, ← List.append_assoc] at heq
      exact hbefore before graph' after (List.append_inj' heq rfl).1

/-- **Graphs can be saved** exactly if end points are there. -/
theorem saveAll_eq_ok : AssetRepository.saveAll graphs = .ok repo ↔
    EndsSaved graphs ∧
      repo = stored (graphs.flatMap AssetGraph.nodes) (graphs.flatMap AssetGraph.edges) := by
  -- On the last graph: the end points of its edges may be nodes of any graph before it.
  induction graphs using List.reverseRecOn generalizing repo with
  | nil =>
    have hnone : EndsSaved [] := fun before graph after h => by simp at h
    constructor
    · rintro ⟨⟩
      exact ⟨hnone, rfl⟩
    · rintro ⟨-, rfl⟩
      rfl
  | append_singleton graphs graph ih =>
    have hsave : AssetRepository.saveAll (graphs ++ [graph]) =
        AssetRepository.saveAll graphs >>= (·.saveGraph graph) := by
      rw [AssetRepository.saveAll, List.foldlM_append]
      simp only [List.foldlM_cons, List.foldlM_nil, bind_pure]
      rfl
    rw [hsave, bind_eq_ok_iff, endsSaved_concat, List.flatMap_append, List.flatMap_append,
      List.flatMap_singleton, List.flatMap_singleton]
    constructor
    · rintro ⟨_, hbefore, hlast⟩
      obtain ⟨hends, rfl⟩ := ih.mp hbefore
      obtain ⟨hends', rfl⟩ := saveGraph_eq_ok.mp hlast
      exact ⟨⟨hends, hends'⟩, rfl⟩
    · rintro ⟨⟨hends, hends'⟩, rfl⟩
      exact ⟨_, ih.mpr ⟨hends, rfl⟩, saveGraph_eq_ok.mpr ⟨hends', rfl⟩⟩

/-! ## Loading -/

theorem get?_ofItems_nodes (nodes : List AssetNode) (node : AssetNode) :
    (Dict.ofItems (nodes.map fun node => (nodeId node, node))).get? (nodeId node) =
      if node ∈ nodes then some node else none := by
  rw [Dict.get?_ofItems_map]
  split
  next hmem =>
    -- Several nodes of the list may have the id, and they are the same.
    obtain ⟨found, hfound⟩ := Option.isSome_iff_exists.mp
      ((List.find?_isSome (p := fun found => nodeId found = nodeId node)).mpr
        ⟨node, List.mem_reverse.mpr hmem, decide_eq_true rfl⟩)
    have hid : nodeId found = nodeId node := by simpa using List.find?_some hfound
    rw [hfound, nodeId_inj hid]
  next hmem =>
    rw [List.find?_eq_none]
    intro found hfound hid
    rw [← nodeId_inj (of_decide_eq_true hid)] at hmem
    exact hmem (List.mem_reverse.mp hfound)

/-- An edge is read back from its row, if its end points are among the nodes. -/
theorem edgeOf_edgeRow (hends : EndsIn nodes edge) :
    edgeOf (Dict.ofItems (nodes.map fun node => (nodeId node, node))) (edgeRow edge) =
      .ok edge := by
  have hat : ∀ node ∈ nodes, nodeAt (Dict.ofItems (nodes.map fun node => (nodeId node, node)))
      (nodeId node) = .ok node := by
    intro node hnode
    rw [nodeAt, get?_ofItems_nodes, if_pos hnode]
  rw [edgeOf, edgeRow, hat _ hends.1, hat _ hends.2, relationOf_value]
  rfl

/-- **What is loaded from the rows** of nodes and of edges between them. -/
theorem loadGraph_eq_ok (hends : ∀ edge ∈ edges, EndsIn nodes edge) :
    ∃ graph, loadGraph (nodes.map nodeRow) (edges.map edgeRow) = .ok graph ∧
      (∀ node, node ∈ graph.nodes ↔ node ∈ nodes) ∧ ∀ edge, edge ∈ graph.edges ↔ edge ∈ edges := by
  have hitems : (nodes.map nodeRow).mapM (fun row => (nodeOf row).map (row.id, ·)) =
      .ok (nodes.map fun node => (nodeId node, node)) :=
    mapM_map_eq_ok fun node _ => by rw [nodeOf_nodeRow]; rfl
  have hedges : (edges.map edgeRow).mapM
      (edgeOf (Dict.ofItems (nodes.map fun node => (nodeId node, node)))) = .ok edges := by
    have hread := mapM_map_eq_ok fun edge hedge => edgeOf_edgeRow (hends edge hedge)
    rwa [List.map_id'] at hread
  have hvalues : ∀ node, node ∈ (Dict.ofItems (nodes.map fun node => (nodeId node, node))).values ↔
      node ∈ nodes := by
    intro node
    rw [Dict.mem_values]
    constructor
    · rintro ⟨id, hget⟩
      rw [Dict.get?_ofItems_map] at hget
      exact List.mem_reverse.mp (List.mem_of_find?_eq_some hget)
    · intro hnode
      exact ⟨nodeId node, by rw [get?_ofItems_nodes, if_pos hnode]⟩
  refine ⟨_, bind_eq_ok_iff.mpr ⟨_, hitems, bind_eq_ok_iff.mpr ⟨_, hedges, rfl⟩⟩, fun node => ?_,
    fun edge => by simp⟩
  simp only [AssetGraph.mem_nodes_addEdges, AssetGraph.mem_nodes_addNodes, hvalues, List.not_mem_nil,
    false_or]
  refine or_iff_left_of_imp ?_
  -- An edge brings in end points that are there already.
  rintro ⟨edge, hedge, rfl | rfl⟩
  · exact (hends edge hedge).1
  · exact (hends edge hedge).2

/-- The rows of a table, in any order, are those of what they were made from. -/
theorem exists_map_of_perm {α β : Type} {row : α → β} (hinj : Function.Injective row)
    {rows values : List β} (hperm : rows.Perm values) (hmade : ∀ r ∈ values, ∃ a, row a = r) :
    ∃ listed : List α, rows = listed.map row ∧ ∀ a, a ∈ listed ↔ row a ∈ values := by
  have hrange : rows ∈ Set.range (List.map row) := by
    rw [Set.range_list_map]
    exact fun r hr => hmade r (hperm.mem_iff.mp hr)
  obtain ⟨listed, rfl⟩ := hrange
  refine ⟨listed, rfl, fun a => ?_⟩
  rw [← hperm.mem_iff, List.mem_map_of_injective hinj]

theorem stored_edges_made {row : CoreAssetEdge}
    (h : row ∈ (stored nodes edges).edges.rows.values) : ∃ edge ∈ edges, edgeRow edge = row :=
  List.mem_map.mp (Table.mem_of_get?_putAll (Table.mem_values_iff.mp h))

/-- What is loaded from the tables: the nodes, and the edges whose rows are there. -/
theorem load_stored (hends : ∀ edge ∈ edges, EndsIn nodes edge) {nodeRows : List CoreAssetNode}
    {edgeRows : List CoreAssetEdge}
    (hnodes : nodeRows.Perm (stored nodes edges).nodes.rows.values)
    (hedges : edgeRows.Perm (stored nodes edges).edges.rows.values) :
    ∃ graph, loadGraph nodeRows edgeRows = .ok graph ∧
      (∀ node, node ∈ graph.nodes ↔ node ∈ nodes) ∧
      ∀ edge, edge ∈ graph.edges ↔ edgeRow edge ∈ (stored nodes edges).edges.rows.values := by
  obtain ⟨listed, rfl, hlisted⟩ := exists_map_of_perm (fun _ _ => nodeRow_inj) hnodes fun row hrow =>
    let ⟨node, _, hnode⟩ := stored_nodes_iff.mp hrow
    ⟨node, hnode.symm⟩
  obtain ⟨listed', rfl, hlisted'⟩ := exists_map_of_perm (fun _ _ => edgeRow_inj) hedges
    fun row hrow => let ⟨edge, _, hedge⟩ := stored_edges_made hrow; ⟨edge, hedge⟩
  have hmem : ∀ node, node ∈ listed ↔ node ∈ nodes := by
    intro node
    rw [hlisted, stored_nodes_iff]
    constructor
    · rintro ⟨node', hnode', hrow⟩
      rwa [nodeRow_inj hrow]
    · exact fun hnode => ⟨node, hnode, rfl⟩
  have hends' : ∀ edge ∈ listed', EndsIn listed edge := by
    intro edge hedge
    -- Every row was made from an edge that was saved, whose end points were saved too.
    obtain ⟨edge', hedge', hrow⟩ := stored_edges_made ((hlisted' edge).mp hedge)
    rw [edgeRow_inj hrow] at hedge'
    exact ⟨(hmem _).mpr (hends edge hedge').1, (hmem _).mpr (hends edge hedge').2⟩
  obtain ⟨graph, hload, hloadedNodes, hloadedEdges⟩ := loadGraph_eq_ok hends'
  exact ⟨graph, hload, fun node => (hloadedNodes node).trans (hmem node),
    fun edge => (hloadedEdges edge).trans (hlisted' edge)⟩

/-- The edges of graphs that can be saved end in nodes that are saved. -/
theorem EndsSaved.ends (h : EndsSaved graphs) (hedge : edge ∈ graphs.flatMap AssetGraph.edges) :
    EndsIn (graphs.flatMap AssetGraph.nodes) edge := by
  obtain ⟨graph, hgraph, hmem⟩ := List.mem_flatMap.mp hedge
  obtain ⟨before, after, rfl⟩ := List.append_of_mem hgraph
  have hsub : ∀ node ∈ (before ++ [graph]).flatMap AssetGraph.nodes,
      node ∈ (before ++ graph :: after).flatMap AssetGraph.nodes := by
    intro node hnode
    rw [List.append_cons, List.flatMap_append]
    exact List.mem_append_left _ hnode
  have hends := h before graph after rfl edge hmem
  exact ⟨hsub _ hends.1, hsub _ hends.2⟩

end Stored

/-- **No node and no edge is lost** exactly if the end points of the edges are saved with them or
before, and the ids of the edges tell them apart. -/
theorem lossless_iff (graphs : List AssetGraph) :
    AssetRepository.Lossless graphs ↔
      EndsSaved graphs ∧ IdsTell (graphs.flatMap AssetGraph.edges) := by
  rw [← @stored_edges_iff (graphs.flatMap AssetGraph.nodes)]
  simp only [AssetRepository.Lossless, saveAll_eq_ok, ← List.mem_flatMap]
  constructor
  · rintro ⟨_, ⟨hends, rfl⟩, hload⟩
    refine ⟨hends, fun edge hedge => ?_⟩
    obtain ⟨graph, hgraph, -, hedges⟩ := hload _ _ (.refl _) (.refl _)
    obtain ⟨graph', hgraph', -, hrows⟩ := load_stored (fun _ => hends.ends) (.refl _) (.refl _)
    -- Both describe the one graph that is loaded.
    obtain rfl := Except.ok.inj (hgraph.symm.trans hgraph')
    exact (hrows edge).mp ((hedges edge).mpr hedge)
  · rintro ⟨hends, hrows⟩
    refine ⟨_, ⟨hends, rfl⟩, fun nodeRows edgeRows hnodes hedges => ?_⟩
    obtain ⟨graph, hgraph, hnodes, hloaded⟩ := load_stored (fun _ => hends.ends) hnodes hedges
    refine ⟨graph, hgraph, hnodes, fun edge => (hloaded edge).trans ⟨fun hrow => ?_, hrows edge⟩⟩
    obtain ⟨edge', hedge', hrow⟩ := stored_edges_made hrow
    rwa [← edgeRow_inj hrow]

/-- A domain that resolves to an address, whose text looks like an edge of its own. -/
def resolvingEdge : AssetEdge :=
  ⟨⟨.domain, "n", by decide⟩, ⟨.ip, "b|exposes|port:p", by decide⟩, .resolvesTo⟩

/-- A domain, whose text looks like an edge of its own, that exposes a port. -/
def exposingEdge : AssetEdge :=
  ⟨⟨.domain, "n|resolves_to|ip:b", by decide⟩, ⟨.port, "p", by decide⟩, .exposes⟩

/-- A graph with both edges. -/
def sharedRowGraph : AssetGraph := AssetGraph.addEdges {} [resolvingEdge, exposingEdge]

/-- The two edges share a row, and one of them is lost. -/
theorem shared_row_loses_edge : ¬AssetRepository.Lossless [sharedRowGraph] := by
  rintro ⟨repo, hsave, hload⟩
  have hedges : (AssetRepository.saveAll [sharedRowGraph] >>= fun repo =>
      loadGraph repo.nodes.rows.values repo.edges.rows.values).map AssetGraph.edges =
        .ok [exposingEdge] := by rfl
  obtain ⟨graph, hgraph, -, hloaded⟩ := hload _ _ (.refl _) (.refl _)
  have hall : (Except.ok repo >>= fun repo : AssetRepository =>
      loadGraph repo.nodes.rows.values repo.edges.rows.values).map AssetGraph.edges =
        .ok graph.edges := congrArg (Except.map AssetGraph.edges) hgraph
  rw [hsave, hall] at hedges
  have hresolving : resolvingEdge ∈ graph.edges :=
    (hloaded resolvingEdge).mpr ⟨sharedRowGraph, List.mem_singleton_self _, by decide⟩
  rw [Except.ok.inj hedges] at hresolving
  exact absurd hresolving (by decide)

end SecOpent.Assets
