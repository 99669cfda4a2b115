import OraDesktop.Workflow.Types
import OraDesktop.Lib.Explore
import Mathlib.Data.List.Sort

/-!
# The parsed workflow graph and its topology queries

`FlatGraph` is one scope as `parse_flat` leaves it: nodes in document order, edges, the
topological order, the workflow globals, and the Iteration regions. `WorkflowGraph` is the root
scope together with the body scope of each Loop.

In the source one recursive type serves for both, and a body could hold Loops of its own. The
parser only ever puts bodies under the root, so the two levels are two types here and a nested
Loop cannot be written down.

## Well-formedness

Queries are total on any graph. What the parser guarantees of a scope is `FlatGraph.WellFormed`.
-/

namespace OraDesktop.Workflow

/-- One scope of a parsed workflow: the root, or the body of a Loop. Edges stay within a scope. -/
structure FlatGraph where
  nodes : List WorkflowGraphNode
  edges : List WorkflowGraphEdge
  /-- Node ids in the order `toposort` returned. -/
  topoOrder : List String
  globalVariables : List WorkflowGlobalVariable
  regions : List CompositeRegion

/-- A parsed workflow: the root scope, and the configuration and body of each Loop. -/
structure WorkflowGraph extends FlatGraph where
  loops : List (String × LoopConfig × FlatGraph)

namespace FlatGraph

variable (g : FlatGraph)

/-- The ids of the scope's nodes, in document order. -/
def nodeIds : List String := g.nodes.map (·.id)

/-- Ids are unique in a scope, so the first node found is the one. -/
def node (id : String) : Option WorkflowGraphNode := g.nodes.find? (·.id == id)

def startNode : Option WorkflowGraphNode := g.nodes.find? (·.nodeType == .start)

def region (ownerId : String) : Option CompositeRegion := g.regions.find? (·.ownerId == ownerId)

/-- `WorkflowGraph::region_owner`: the composite whose region holds the node. -/
def regionOwner (nodeId : String) : Option String :=
  (g.regions.find? (·.contains nodeId)).map (·.ownerId)

def nodesInTopologicalOrder : List WorkflowGraphNode := g.topoOrder.filterMap g.node

def successorIds (id : String) : List String :=
  (g.edges.filter (·.source == id)).map (·.target)

def predecessorIds (id : String) : List String :=
  (g.edges.filter (·.target == id)).map (·.source)

def successors (id : String) : List WorkflowGraphNode := (g.successorIds id).filterMap g.node

/-- The order `incoming_edges` sorts by: source, target, handle. -/
def edgeLe (a b : WorkflowGraphEdge) : Bool :=
  (((compare a.source b.source).then (compare a.target b.target)).then
    (compare a.sourceHandle b.sourceHandle)).isLE

/-- Sorted, so that what decides at a node does not depend on the order of the document. -/
def incomingEdges (id : String) : List WorkflowGraphEdge :=
  (g.edges.filter (·.target == id)).insertionSort (fun a b => edgeLe a b)

def outgoingEdges (id : String) : List WorkflowGraphEdge :=
  (g.edges.filter (·.source == id)).insertionSort (fun a b => edgeLe a b)

/-- `WorkflowGraph::reachable_from`, following edges forwards or backwards. -/
def reachableFrom (next : String → List String) (seed : String) : List String :=
  Explore.explore next (g.edges.length + 1) [seed] []

def orderByTopology (ids : List String) : List WorkflowGraphNode :=
  (g.topoOrder.filter (· ∈ ids)).filterMap g.node

def transitiveSuccessors (id : String) : List WorkflowGraphNode :=
  if id ∈ g.nodeIds then g.orderByTopology (g.reachableFrom g.successorIds id) else []

def transitivePredecessors (id : String) : List WorkflowGraphNode :=
  if id ∈ g.nodeIds then g.orderByTopology (g.reachableFrom g.predecessorIds id) else []

/-- A run of a graph with such nodes is refused, since nothing would ever start them. -/
def unreachableFromStart : List String :=
  match g.startNode with
  | none => g.nodeIds
  | some start =>
    g.nodeIds.filter fun id =>
      id != start.id && !((g.transitiveSuccessors start.id).map (·.id)).contains id

/-! ### What the parser guarantees of a scope -/

def Edge (a b : String) : Prop := ∃ e ∈ g.edges, e.source = a ∧ e.target = b

/-- The structural guarantees of `parse_flat`. -/
structure WellFormed : Prop where
  nodup_ids : g.nodeIds.Nodup
  source_mem : ∀ e ∈ g.edges, e.source ∈ g.nodeIds
  target_mem : ∀ e ∈ g.edges, e.target ∈ g.nodeIds
  /-- `toposort` lists every node once … -/
  topo_perm : g.topoOrder.Perm g.nodeIds
  /-- … and every edge goes forward in it. -/
  topo_forward : ∀ e ∈ g.edges, g.topoOrder.idxOf e.source < g.topoOrder.idxOf e.target
  start_unique : ∀ m ∈ g.nodes, ∀ n ∈ g.nodes,
    m.nodeType = .start → n.nodeType = .start → m = n
  nodup_owners : (g.regions.map (·.ownerId)).Nodup
  region_nonempty : ∀ r ∈ g.regions, r.memberIds ≠ []
  region_owner_iteration : ∀ r ∈ g.regions, ∃ n ∈ g.nodes, n.id = r.ownerId ∧
    n.nodeType = .iteration
  region_member_mem : ∀ r ∈ g.regions, ∀ m ∈ r.memberIds, m ∈ g.nodeIds
  region_disjoint : ∀ r ∈ g.regions, ∀ r' ∈ g.regions, ∀ m ∈ r.memberIds, m ∈ r'.memberIds → r = r'
  region_member_kind : ∀ r ∈ g.regions, ∀ n ∈ g.nodes, n.id ∈ r.memberIds →
    n.nodeType ≠ .output ∧ n.nodeType ≠ .iteration
  /-- Edges that leave a member stay in its region … -/
  region_closed : ∀ r ∈ g.regions, ∀ e ∈ g.edges, e.source ∈ r.memberIds → e.target ∈ r.memberIds
  /-- … and only the owner's edges enter it. -/
  region_entry : ∀ r ∈ g.regions, ∀ e ∈ g.edges, e.target ∈ r.memberIds →
    e.source ∈ r.memberIds ∨ e.source = r.ownerId
  region_reached : ∀ r ∈ g.regions, ∀ m ∈ r.memberIds, Relation.TransGen g.Edge r.ownerId m

/-! ### What the queries answer -/

variable {g}

theorem mem_nodeIds {id : String} : id ∈ g.nodeIds ↔ ∃ node ∈ g.nodes, node.id = id := by
  rw [nodeIds, List.mem_map]

variable {id : String} {node : WorkflowGraphNode} (h : g.node id = some node)

include h

theorem mem_of_node : node ∈ g.nodes ∧ node.id = id :=
  ⟨List.mem_of_find?_eq_some h, by simpa using List.find?_some h⟩

theorem mem_nodeIds_of_node : id ∈ g.nodeIds :=
  mem_nodeIds.mpr ⟨node, mem_of_node h⟩

end FlatGraph

namespace WorkflowGraph

variable (g : WorkflowGraph)

def loopBody (id : String) : Option (LoopConfig × FlatGraph) := g.loops.lookup id

/-- `WorkflowGraph::execution_node`: the node in the root scope or in a Loop body. -/
def executionNode (id : String) : Option WorkflowGraphNode :=
  (g.node id).or (g.nodes.findSome? fun n => (g.loopBody n.id).bind fun body => body.2.node id)

/-- `WorkflowGraph::loop_owner`: the Loop whose body declares the node. -/
def loopOwner (nodeId : String) : Option String :=
  (g.loops.find? fun l => (l.2.2.node nodeId).isSome).map (·.1)

/-- `WorkflowGraph::execution_scopes`: the root scope, then the bodies in root node order. -/
def executionScopes : List FlatGraph :=
  g.toFlatGraph :: g.nodes.filterMap fun n => (g.loopBody n.id).map (·.2)

def firstUnsupportedNode : Option WorkflowGraphNode :=
  g.executionScopes.findSome? fun scope => scope.nodes.find? (!·.nodeType.supported)

/-! ### What the parser guarantees of a workflow -/

/-- The structural guarantees of `parse`. -/
structure WellFormed : Prop where
  root : g.toFlatGraph.WellFormed
  body : ∀ l ∈ g.loops, l.2.2.WellFormed
  nodup_loops : (g.loops.map (·.1)).Nodup
  loop_node : ∀ l ∈ g.loops, ∃ n ∈ g.nodes, n.id = l.1 ∧ n.nodeType = .loop
  /-- A node belongs to one scope. -/
  body_disjoint : ∀ l ∈ g.loops, ∀ id ∈ l.2.2.nodeIds, id ∉ g.nodeIds
  bodies_disjoint : ∀ l ∈ g.loops, ∀ l' ∈ g.loops, ∀ id ∈ l.2.2.nodeIds, id ∈ l'.2.2.nodeIds → l = l'
  body_kind : ∀ l ∈ g.loops, ∀ n ∈ l.2.2.nodes, n.nodeType ≠ .loop ∧ n.nodeType ≠ .iteration ∧
    n.nodeType ≠ .output
  member_kind : ∀ r ∈ g.regions, ∀ n ∈ g.nodes, n.id ∈ r.memberIds → n.nodeType ≠ .loop
  maxIterations_pos : ∀ l ∈ g.loops, 1 ≤ l.2.1.maxIterations

variable {g}

theorem mem_of_loopBody {id : String} {config : LoopConfig} {body : FlatGraph}
    (h : g.loopBody id = some (config, body)) : (id, config, body) ∈ g.loops := by
  rw [loopBody] at h
  generalize g.loops = loops at h ⊢
  induction loops with
  | nil => cases h
  | cons l loops ih =>
    obtain ⟨key, value⟩ := l
    rw [List.lookup_cons] at h
    split at h
    · rename_i heq
      rw [beq_iff_eq] at heq
      cases h
      exact heq ▸ List.mem_cons_self
    · exact List.mem_cons_of_mem _ (ih h)

theorem WellFormed.loopBody_eq (h : g.WellFormed) {id : String} {config : LoopConfig}
    {body : FlatGraph} (hl : (id, config, body) ∈ g.loops) : g.loopBody id = some (config, body) := by
  rcases hfound : g.loopBody id with _ | ⟨config', body'⟩
  · have := List.lookup_eq_none_iff.mp hfound _ hl
    simp at this
  · have heq := List.inj_on_of_nodup_map h.nodup_loops (mem_of_loopBody hfound) hl rfl
    cases heq
    rfl

/-- A node found in a body is the one `execution_node` finds. -/
theorem WellFormed.executionNode_of_body (h : g.WellFormed) {id nodeId : String} {config : LoopConfig}
    {body : FlatGraph} (hl : (id, config, body) ∈ g.loops) {node : WorkflowGraphNode}
    (hnode : body.node nodeId = some node) : g.executionNode nodeId = some node := by
  have hmem := FlatGraph.mem_nodeIds_of_node hnode
  have hroot : g.node nodeId = none := by
    rcases hfound : g.node nodeId with _ | found
    · rfl
    · exact absurd (FlatGraph.mem_nodeIds_of_node hfound) (h.body_disjoint _ hl _ hmem)
  obtain ⟨owner, howner, hid, -⟩ := h.loop_node _ hl
  rw [executionNode, hroot, Option.none_or]
  rcases hfound : g.nodes.findSome? fun n => (g.loopBody n.id).bind fun body => body.2.node nodeId
    with _ | found
  · have := List.findSome?_eq_none_iff.mp hfound owner howner
    rw [hid, h.loopBody_eq hl] at this
    exact absurd (this.symm.trans hnode) (by simp)
  obtain ⟨n, -, hn⟩ := List.exists_of_findSome?_eq_some hfound
  obtain ⟨⟨config', body'⟩, hbody, hin⟩ := Option.bind_eq_some_iff.mp hn
  have heq := h.bodies_disjoint _ hl _ (mem_of_loopBody hbody) nodeId hmem
    (FlatGraph.mem_nodeIds_of_node hin)
  cases heq
  rw [hfound, ← hin, hnode]

theorem executionNode_of_root {nodeId : String} {node : WorkflowGraphNode}
    (hnode : g.node nodeId = some node) : g.executionNode nodeId = some node := by
  rw [executionNode, hnode, Option.some_or]

variable (g)

/-! ### Composite units of a resume -/

/-- `resume_unit_owner_id`: the composite that restarts when this node triggers a resume. -/
def resumeUnitOwnerId (nodeId : String) : Option String :=
  if (g.region nodeId).isSome || (g.loopBody nodeId).isSome then some nodeId
  else (g.regionOwner nodeId).or (g.loopOwner nodeId)

/-- `resume_unit_member_ids`: the nodes that run inside a composite. -/
def resumeUnitMemberIds (owner : String) : List String :=
  match g.region owner with
  | some region => region.memberIds
  | none => ((g.loopBody owner).map fun body => body.2.nodeIds).getD []

/-- What one resume trigger clears: its composite unit or itself, and the outer descendants. -/
def resumeUnit (nodeId : String) : List String :=
  match g.resumeUnitOwnerId nodeId with
  | some owner =>
    owner :: g.resumeUnitMemberIds owner ++ (g.transitiveSuccessors owner).map (·.id)
  | none => nodeId :: (g.transitiveSuccessors nodeId).map (·.id)

end WorkflowGraph

end OraDesktop.Workflow
