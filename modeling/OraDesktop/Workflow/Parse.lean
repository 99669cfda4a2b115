import OraDesktop.Workflow.Wire

/-!
# Parsing a workflow document

`parse` turns a frozen document into the graph the engine runs: it keeps the part of the document
that Start reaches (`project`), splits it into the root scope and the body of each Loop
(`parseScopedGraph`), parses every scope on its own (`parseFlat`), and finally checks that no
executable text refers across a boundary or to a node it dropped.

Where the source collects its input in a hash map and reports the first problem it meets, the order
of the report is not determined; the errors here come in document order.

## Main definitions

* `Toposort` — the topological order, which the `petgraph` crate computes
* `parseFlat`, `deriveRegions` — one scope and its Iteration regions
* `ExecutionDocument`, `project` — the reachable part of a document
* `WorkflowGraph.parse`
-/

namespace OraDesktop.Workflow

/-- `toposort` of the `petgraph` crate on the node ids and edges of a graph: a topological order,
or nothing if there is none. -/
class Toposort where
  order : List String → List (String × String) → Option (List String)
  /-- An order lists every node once … -/
  perm : ∀ {nodes : List String} {edges : List (String × String)} {l : List String},
    order nodes edges = some l → l.Perm nodes
  /-- … and every edge goes forward in it. -/
  forward : ∀ {nodes : List String} {edges : List (String × String)} {l : List String},
    order nodes edges = some l → ∀ e ∈ edges, l.idxOf e.1 < l.idxOf e.2

/-! ### Iteration regions -/

section

variable (nodes : List ContainedNode)

/-- The owners of regions, each once, in the order of their first members. -/
def regionOwners : List String :=
  (nodes.filterMap (·.parentId)).reverse.dedup.reverse

/-- The region of an owner: its members in document order. -/
def regionOf (ownerId : String) : CompositeRegion :=
  ⟨ownerId, (nodes.filter (·.parentId == some ownerId)).map (·.node.id)⟩

/-- The node with the given id among the parsed ones. -/
def containedNode (id : String) : Option WorkflowGraphNode :=
  (nodes.find? (·.node.id == id)).map (·.node)

end

section

variable (region : CompositeRegion) (edges : List WorkflowGraphEdge)

def memberTargets (source : String) : List String :=
  ((edges.filter (·.source == source)).map (·.target)).filter region.contains

/-- The members that the owner's entry edges reach within the region. -/
def reachedMembers : List String :=
  let entries := memberTargets region edges region.ownerId
  Explore.visit (memberTargets region edges) (entries.length + edges.length) entries.reverse []

end

section

variable (region : CompositeRegion) (nodes : List ContainedNode) (edges : List WorkflowGraphEdge)

/-- The rules for one member: its kind, and where its edges lead. -/
def checkMember (member : String) : Option GraphError :=
  let node := containedNode nodes member
  let nodeType := node.map (·.nodeType)
  if nodeType = some .output then
    some (.invalidRegion member "iteration region must not contain an output node")
  else if nodeType = some .iteration then
    some (.invalidRegion member "iteration region must not contain a nested iteration node")
  else if (node.bind (·.agentConfig)).any (·.interactive) then
    some (.invalidRegion member "iteration region must not contain an interactive node")
  else (edges.find? fun e => e.source == member && !region.contains e.target).map fun e =>
    .invalidRegion member ("iteration region node's edge to " ++ e.target ++
      " leaves the region; connect the iteration node's exit instead")

/-- A region is entered from its owner alone and never left, so a round is over when its members
are. -/
def validateRegion : Option GraphError :=
  if region.memberIds.isEmpty then
    some (.invalidRegion region.ownerId "iteration region must contain at least one node")
  else if (memberTargets region edges region.ownerId).isEmpty then
    some (.invalidRegion region.ownerId
      "iteration region must be entered by an edge from the iteration node")
  else match region.memberIds.find? (· ∉ reachedMembers region edges) with
    | some member => some (.invalidRegion member
        "iteration region node is not reachable from the iteration node's entry edge")
    | none => (region.memberIds.findSome? (checkMember region nodes edges)).or
        ((edges.find? fun e => e.source != region.ownerId && !region.contains e.source &&
          region.contains e.target).map fun e => .invalidRegion e.source
            ("edge targets " ++ e.target ++
              " inside the iteration region; only the iteration node may enter its region"))

end

/-- The first node whose `parentId` names no Iteration. -/
def checkParents (nodes : List ContainedNode) : Option GraphError :=
  nodes.findSome? fun n => n.parentId.bind fun parent =>
    if (containedNode nodes parent).any (·.nodeType == .iteration) then none
    else some (.invalidRegion n.node.id
      ("parentId must reference an iteration node, but references " ++ parent))

/-- Regions are read off the `parentId` of nodes; nothing in the document lists them. -/
def deriveRegions (nodes : List ContainedNode) (edges : List WorkflowGraphEdge) :
    Except GraphError (List CompositeRegion) :=
  match checkParents nodes with
  | some e => .error e
  | none =>
    let regions := (regionOwners nodes).map (regionOf nodes)
    match regions.findSome? fun region => validateRegion region nodes edges with
    | some e => .error e
    | none => .ok regions

/-! ### One scope -/

/-- `parse_flat`'s loop over the nodes, after the ids seen already. -/
def parseNodes [JsonText] (seen : List String) :
    List Wire.Node → Except GraphError (List ContainedNode)
  | [] => .ok []
  | wire :: rest => do
    let contained ← wire.toModel seen
    return contained :: (← parseNodes (contained.node.id :: seen) rest)

/-- `parse_flat`'s reading of one edge. -/
def parseEdge (ids : List String) (wire : Wire.Edge) : Except GraphError WorkflowGraphEdge :=
  match wire.source, wire.target with
  | none, target => .error (.danglingEdge (target.getD ""))
  | some source, none => .error (.danglingEdge source)
  | some source, some target =>
    if source ∉ ids then .error (.danglingEdge source)
    else if target ∉ ids then .error (.danglingEdge target)
    else .ok ⟨source, target, wire.sourceHandle⟩

/-- The error for a node whose derived variables do not type. -/
def declarationError (node : WorkflowGraphNode) (reason : WorkflowVariablePool.DeclarationError) :
    GraphError :=
  if node.iterationConfig.isSome then .invalidIteration node.id reason
  else .invalidAggregator node.id reason

section

variable [JsonText] [Toposort]

/-- `parse_flat` once the document is decoded. -/
def assembleFlat (wireNodes : List Wire.Node) (wireEdges : List Wire.Edge)
    (globalVariables : List WorkflowGlobalVariable) : Except GraphError FlatGraph := do
  let contained ← parseNodes [] wireNodes
  let nodes := contained.map (·.node)
  let edges ← wireEdges.mapM (parseEdge (nodes.map (·.id)))
  if 1 < (nodes.filter (·.nodeType == .start)).length then throw .multipleStartNodes
  let topoOrder ← (Toposort.order (nodes.map (·.id)) (edges.map fun e => (e.source, e.target))).elim
    (.error .cycleDetected) .ok
  let regions ← deriveRegions contained edges
  let graph : FlatGraph := ⟨nodes, edges, topoOrder, globalVariables, regions⟩
  match graph.validateDerivedDeclarations with
  | some (node, reason) => .error (declarationError node reason)
  | none => .ok graph

/-- One scope by itself: it knows nothing of Loops, whose bodies are parsed as documents of their
own. -/
def parseFlat (document : Value) : Except GraphError FlatGraph :=
  match Wire.Envelope.read document with
  | none => .error .invalidJson
  | some envelope => do
    let wireNodes ← envelope.nodes.elim (.error .missingNodes) .ok
    let wireEdges ← envelope.edges.elim (.error .missingEdges) .ok
    let globalVariables ← (intoGlobalVariables envelope.globalVariables).mapError
      .invalidGlobalVariables
    assembleFlat wireNodes wireEdges globalVariables

end

/-! ### The reachable part of a document -/

def requiredString (v : Value) (reason : String) : Except GraphError String :=
  match v.asStr.filter fun text => !(Text.trim text).isEmpty with
  | some text => .ok text
  | none => .error (.invalid reason)

/-- A node before its configuration is decoded. -/
structure AuthoringNode where
  id : String
  kind : String
  owner : Option String
  /-- The owner is named by `data.containerId`, so it has to be a Loop. -/
  inLoop : Bool

/-- `project`'s reading of one node. -/
def authoringNode (raw : Value) : Except GraphError AuthoringNode := do
  let id ← requiredString (raw.index "id") "missing id"
  let data := raw.index "data"
  let kind ← requiredString (data.index "kind") ("node " ++ id ++ " has no node type")
  let container ← (data.get "containerId").mapM fun v =>
    requiredString v "containerId must be a non-empty string"
  -- `null` is how React Flow says that a node has no parent
  let parent ← ((raw.get "parentId").filter (· ≠ .null)).mapM fun v =>
    requiredString v "parentId must be a non-empty string"
  if container.isSome ∧ parent.isSome ∧ container ≠ parent then
    throw (.invalid "parentId disagrees with data.containerId")
  return ⟨id, kind, container.or parent, container.isSome⟩

/-- `project`'s first loop over the nodes, after those read already. -/
def authoringNodes (seen : List AuthoringNode) :
    List Value → Except GraphError (List AuthoringNode)
  | [] => .ok []
  | raw :: rest => do
    let node ← authoringNode raw
    if seen.any (·.id == node.id) then throw (.duplicateNodeId node.id)
    if node.kind = "start" ∧ seen.any fun n => n.kind == "start" && n.owner == node.owner then
      throw .multipleStartNodes
    return node :: (← authoringNodes (node :: seen) rest)

section

variable (nodes : List AuthoringNode)

/-- `project`'s check of a node's owner. -/
def checkOwner (node : AuthoringNode) : Option GraphError :=
  node.owner.bind fun owner =>
    match nodes.find? (·.id == owner) with
    | none => some (.invalid ("unknown container owner " ++ owner))
    | some parent =>
      let expected := if node.inLoop then "loop" else "iteration"
      if parent.kind ≠ expected ∨ parent.owner.isSome ∨ node.kind = "loop" ∨
          node.kind = "iteration" then
        some (.invalidRegion node.id "invalid or nested container ownership")
      else none

/-- `project`'s reading of one edge: only an Iteration's entry edges cross a boundary. -/
def authoringEdge (raw : Value) : Except GraphError (String × String) := do
  let source ← requiredString (raw.index "source") "edge has no source"
  let target ← requiredString (raw.index "target") "edge has no target"
  match nodes.find? (·.id == source), nodes.find? (·.id == target) with
  | none, _ => .error (.danglingEdge source)
  | some _, none => .error (.danglingEdge target)
  | some sourceNode, some targetNode =>
    if sourceNode.owner ≠ targetNode.owner ∧
        ¬(sourceNode.kind = "iteration" ∧ targetNode.owner = some source) then
      .error (.invalidRegion source "edge crosses a container boundary")
    else .ok (source, target)

def scopeStart (owner : Option String) : Option String :=
  (nodes.find? fun n => n.kind == "start" && n.owner == owner).map (·.id)

/-- Where execution goes from a node: into a Loop's body, and along its edges. -/
def activeSuccessors (edges : List (String × String)) (id : String) : List String :=
  (if nodes.any fun n => n.id == id && n.kind == "loop" then (scopeStart nodes (some id)).toList
    else []) ++ (edges.filter (·.1 == id)).map (·.2)

def activeNodes (edges : List (String × String)) (start : String) : List String :=
  Explore.visit (activeSuccessors nodes edges) (1 + nodes.length + edges.length) [start] []

end

def updateField (key : String) (f : Value → Value) : Value → Value
  | .obj fields => .obj (fields.map fun field => if field.1 = key then (key, f field.2) else field)
  | v => v

/-- The items of an array that satisfy a predicate. -/
def retainItems (p : Value → Bool) : Value → Value
  | .arr items => .arr (items.filter p)
  | v => v

/-- The field of an object is one of the given ids. -/
def isOneOf (ids : List String) (key : String) (v : Value) : Bool :=
  (v.index key).asStr.any ids.contains

structure ExecutionDocument where
  graph : Value
  unusedNodeIds : List String

/-- The document without the nodes that are not active, and without their edges. -/
def keepActive (document : Value) (nodes : List AuthoringNode) (active : List String) :
    ExecutionDocument where
  graph :=
    updateField "edges" (retainItems fun e => isOneOf active "source" e && isOneOf active "target" e)
      (updateField "nodes" (retainItems (isOneOf active "id")) document)
  unusedNodeIds :=
    ((nodes.map (·.id)).filter (· ∉ active)).insertionSort fun a b => compare a b ≠ .gt

/-- The document with what the Start reaches. Nodes that were dropped are remembered, since nothing
may refer to them. -/
def project (document : Value) : Except GraphError ExecutionDocument := do
  if document.asObject.isNone then throw .invalidJson
  let rawNodes ← (document.index "nodes").asArray.elim (.error .missingNodes) .ok
  let rawEdges ← (document.index "edges").asArray.elim (.error .missingEdges) .ok
  let nodes ← authoringNodes [] rawNodes
  match nodes.findSome? (checkOwner nodes) with
  | some e => throw e
  | none =>
    if (nodes.any (·.kind == "loop")) ∧ document.index "schemaVersion" ≠ Value.ofNat 2 then
      throw (.invalid "container graphs require schemaVersion 2")
    let edges ← rawEdges.mapM (authoringEdge nodes)
    match scopeStart nodes none with
    -- without an entry the document stays whole, and the engine reports what is missing
    | none => return ⟨document, []⟩
    | some start =>
      let active := activeNodes nodes edges start
      if nodes.any fun n => n.kind == "loop" && active.contains n.id &&
          (scopeStart nodes (some n.id)).isNone then
        throw (.invalid "every active Loop requires one Start node")
      return keepActive document nodes active

/-! ### Scopes -/

/-- A node with the scope it belongs to, and a Loop's configuration. -/
structure ScopedNode where
  id : String
  owner : Option String
  config : Option LoopConfig
  /-- The node as its scope's document has it. -/
  raw : Value

def containerOf (data : Value) : Except GraphError (Option String) :=
  match data.get "containerId" with
  | none => .ok none
  | some (.str owner) =>
    if (Text.trim owner).isEmpty then
      .error (.invalid "containerId must be a non-empty string when present")
    else .ok (some owner)
  | some _ => .error (.invalid "containerId must be a non-empty string when present")

/-- The configuration of a Loop node; other nodes have none. -/
def loopConfigOf (id : String) (owner : Option String) (node : Value) :
    Except GraphError (Option LoopConfig) :=
  let data := node.index "data"
  if data.index "kind" ≠ .str "loop" then .ok none
  else if owner.isSome ∨ (node.get "parentId").isSome then
    .error (.invalid "nested Loops are not supported")
  else ((LoopConfig.parse (data.index "loopConfig")).map some).mapError fun e =>
    .invalidNode (.loop id e)

/-- An object without one of its fields. The source may reorder the others, which are read by key. -/
def removeField (key : String) : Value → Value
  | .obj fields => .obj (fields.filter (·.1 ≠ key))
  | v => v

/-- `parse_scoped_graph`'s reading of one node, after the ids seen already. -/
def scopedNode (edges : List Value) (seen : List String) (node : Value) :
    Except GraphError ScopedNode := do
  let id ← requiredString (node.index "id") "node has no non-empty ID"
  let data := node.index "data"
  let owner ← containerOf data
  if data.index "kind" = .str "loopExit" ∧
      (owner.isNone ∨ edges.any fun e => e.index "source" == .str id) then
    throw (.invalid "loopExit must belong to a Loop and have no outgoing edges")
  if seen.contains id then throw (.duplicateNodeId id)
  let config ← loopConfigOf id owner node
  if owner.isSome ∧ data.index "kind" = .str "iteration" then
    throw (.invalid "nested composite nodes are not supported")
  if owner.isSome ∧ (node.get "parentId").any fun parent => parent.asStr != owner then
    throw (.invalid "parentId disagrees with data.containerId")
  return ⟨id, owner, config, if owner.isSome then removeField "parentId" node else node⟩

/-- `parse_scoped_graph`'s loop over the nodes. -/
def scopedNodes (edges : List Value) (seen : List String) :
    List Value → Except GraphError (List ScopedNode)
  | [] => .ok []
  | raw :: rest => do
    let node ← scopedNode edges seen raw
    return node :: (← scopedNodes edges (node.id :: seen) rest)

/-- `parse_scoped_graph`'s reading of one edge: the scope both its ends are in. -/
def scopedEdge (nodes : List ScopedNode) (raw : Value) : Except GraphError (Option String × Value) := do
  let source ← (raw.index "source").asStr.elim (.error (.invalid "edge has no source")) .ok
  let target ← (raw.index "target").asStr.elim (.error (.invalid "edge has no target")) .ok
  match nodes.find? (·.id == source), nodes.find? (·.id == target) with
  | none, _ => .error (.danglingEdge source)
  | some _, none => .error (.danglingEdge target)
  | some sourceNode, some targetNode =>
    if sourceNode.owner ≠ targetNode.owner then
      .error (.invalid "edges cannot cross Loop boundaries")
    else .ok (sourceNode.owner, raw)

def scopeDocument (nodes : List ScopedNode) (edges : List (Option String × Value)) (globals : Value)
    (owner : Option String) : Value :=
  .obj [("nodes", .arr ((nodes.filter (·.owner == owner)).map (·.raw))),
    ("edges", .arr ((edges.filter (·.1 == owner)).map (·.2))), ("globalVariables", globals)]

def validateScope (g : FlatGraph) : Option GraphError :=
  if g.startNode.isNone then some (.invalid "every container scope requires one Start node")
  else if g.unreachableFromStart.isEmpty then none
  else some (.invalidNode (.unreachable g.unreachableFromStart))

/-- The Loops of a document with their configurations, in the order of their ids. -/
def loopConfigs (nodes : List ScopedNode) : List (String × LoopConfig) :=
  (nodes.filterMap fun n => n.config.map (n.id, ·)).insertionSort fun a b => compare a.1 b.1 ≠ .gt

/-! ### Boundaries of Loops -/

def ConditionConfig.selectors (config : ConditionConfig) : List VariableSelector :=
  config.cases.flatMap fun case => case.conditions.map (·.variableSelector)

/-- The selectors of the Condition and Output configuration of a node. -/
def WorkflowGraphNode.boundSelectors (node : WorkflowGraphNode) : List VariableSelector :=
  (node.conditionConfig.elim [] (·.selectors)) ++
    (node.outputConfig.elim [] fun config => config.outputs.map (·.variableSelector))

/-- A selector may read the globals and the nodes that run before; anything else could not have a
value yet. -/
def requireVisible (globals : List String) (visible : String → Bool) (selector : VariableSelector) :
    Option GraphError :=
  if visible selector.nodeId || globals.contains selector.qualified then none
  else some (.invalid ("selector " ++ selector.qualified ++ " is outside the visible Loop scope"))

def validateNodeBindings (g : FlatGraph) (globals inherited : List String) : Option GraphError :=
  g.nodes.findSome? fun node =>
    let ancestors := (g.transitivePredecessors node.id).map (·.id)
    node.boundSelectors.findSome? (requireVisible globals fun id =>
      ancestors.contains id || inherited.contains id)

/-- The selectors a Loop reads before its first round. -/
def LoopConfig.initialSelectors (config : LoopConfig) : List VariableSelector :=
  config.variables.filterMap fun v => match v.initial with
    | .variable selector => some selector
    | .constant _ => none

/-- The selectors a Loop reads in a finished round. -/
def LoopConfig.roundSelectors (config : LoopConfig) : List VariableSelector :=
  config.variables.map (·.feedback) ++ config.outputs.map (·.variableSelector) ++
    config.until.selectors

/-- `loop_bindings::validate` for one node. -/
def validateLoopBindings (g : WorkflowGraph) (globals : List String) (node : WorkflowGraphNode) :
    Option GraphError :=
  (g.loopBody node.id).bind fun (config, body) =>
    let ancestors := (g.transitivePredecessors node.id).map (·.id)
    ((config.initialSelectors.findSome? (requireVisible globals ancestors.contains)).or
      (config.roundSelectors.findSome? (requireVisible globals fun id =>
        id == node.id || (body.node id).isSome || ancestors.contains id))).or
      (validateNodeBindings body globals (node.id :: ancestors))

/-- `loop_bindings::validate`. -/
def validateBindings (g : WorkflowGraph) : Option GraphError :=
  let globals := g.globalVariables.map (·.name)
  (validateNodeBindings g.toFlatGraph globals []).or
    (g.nodesInTopologicalOrder.findSome? (validateLoopBindings g globals))

/-! ### References to dropped nodes -/

/-- The node ids that the placeholders of a text name. -/
def templateNodeIds : Nat → List Char → List String
  | 0, _ => []
  | fuel + 1, text =>
    match Text.splitOnceChars templateOpen text with
    | none => []
    | some (_, afterOpen) =>
      match Text.splitOnceChars templateClose afterOpen with
      | none => []
      | some (selector, rest) =>
        ((Text.splitOnceChars ['.'] selector).map fun parts => String.ofList parts.1).toList ++
          templateNodeIds fuel rest

/-- The texts of a condition's literal operands. -/
def ConditionConfig.texts (config : ConditionConfig) : List String :=
  config.cases.flatMap fun case => case.conditions.filterMap fun rule => rule.value.bind Value.asStr

/-- The selectors of a node's configuration, in the order `unused_references` visits them. -/
def WorkflowGraphNode.selectors (node : WorkflowGraphNode) : List VariableSelector :=
  node.boundSelectors ++ (node.aggregatorConfig.elim [] (·.variables)) ++
    (node.iterationConfig.elim [] fun config => [config.iteratorSelector, config.collectSelector])

/-- The node ids that one node of a scope refers to, with the configuration of its Loop. -/
def referencedNodeIds (node : WorkflowGraphNode) (config : Option LoopConfig) : List String :=
  let loopSelectors := config.elim [] fun config =>
    (config.variables.flatMap fun v => (match v.initial with
      | .variable selector => [selector]
      | .constant _ => []) ++ [v.feedback]) ++
      config.outputs.map (·.variableSelector) ++ config.until.selectors
  let texts := (node.agentConfig.elim [] fun config => [config.prompt]) ++
    (node.conditionConfig.elim [] (·.texts)) ++ (config.elim [] (·.until.texts))
  (node.selectors ++ loopSelectors).map (·.nodeId) ++
    texts.flatMap fun text => templateNodeIds (text.length + 1) text.toList

/-- `unused_references::validate`. A body holds no Loops, so only the root's nodes have one. -/
def validateReferences (g : WorkflowGraph) (unused : List String) : Option GraphError :=
  let ids := g.nodes.flatMap (fun n => referencedNodeIds n ((g.loopBody n.id).map (·.1))) ++
    g.nodes.flatMap fun n => (g.loopBody n.id).elim [] fun body =>
      body.2.nodes.flatMap (referencedNodeIds · none)
  (ids.find? unused.contains).map fun id => .invalid ("variable references unused node " ++ id)

/-! ### The whole document -/

section

variable [JsonText] [Toposort]

def parseBody (document : Value) : Except GraphError FlatGraph := do
  let body ← parseFlat document
  match validateScope body with
  | some e => .error e
  | none =>
    if body.nodes.any (·.nodeType == .output) then
      .error (.invalid "Loop bodies export results through loopConfig.outputs")
    else .ok body

def parseBodies (document : Option String → Value) :
    List (String × LoopConfig) → Except GraphError (List (String × LoopConfig × FlatGraph))
  | [] => .ok []
  | (id, config) :: rest => do
    let body ← parseBody (document (some id))
    return (id, config, body) :: (← parseBodies document rest)

/-- `parse_scoped_graph` for a document with Loops. -/
def parseContainers (document : Value) (nodes edges : List Value) :
    Except GraphError WorkflowGraph := do
  if document.index "schemaVersion" ≠ Value.ofNat 2 then
    throw (.invalid "container graphs require schemaVersion 2")
  let nodes ← scopedNodes edges [] nodes
  match (nodes.filterMap (·.owner)).find? fun owner =>
      !nodes.any fun n => n.id == owner && n.config.isSome with
  | some owner => .error (.invalid ("unknown Loop owner " ++ owner))
  | none =>
    let edges ← edges.mapM (scopedEdge nodes)
    let globals := ((document.get "globalVariables").or (document.get "global_variables")).getD
      (.arr [])
    let scope := scopeDocument nodes edges globals
    let root ← parseFlat (scope none)
    match validateScope root with
    | some e => .error e
    | none =>
      let loops ← parseBodies scope (loopConfigs nodes)
      let g : WorkflowGraph := { root with loops }
      match validateBindings g with
      | some e => .error e
      | none => .ok g

/-- Whether a node makes the document one with Loops. -/
def usesContainers (node : Value) : Bool :=
  let data := node.index "data"
  data.index "kind" == .str "loop" || (data.get "containerId").isSome

/-- Splits a document into the root and the bodies of its Loops, and checks what crosses between
them. -/
def parseScopedGraph (document : Value) : Except GraphError WorkflowGraph := do
  let nodes := (document.index "nodes").asArray.getD []
  if nodes.any usesContainers then
    let nodes ← (document.index "nodes").asArray.elim (.error .missingNodes) .ok
    let edges ← (document.index "edges").asArray.elim (.error .missingEdges) .ok
    parseContainers document nodes edges
  else if nodes.any fun node => (node.index "data").index "kind" == .str "loopExit" then
    .error (.invalid "loopExit must belong to a Loop")
  else (parseFlat document).map fun root => { root with loops := [] }

/-- `WorkflowGraph::parse`, from the decoded document. -/
def WorkflowGraph.parse (document : Value) : Except GraphError WorkflowGraph := do
  let projected ← project document
  let g ← parseScopedGraph projected.graph
  match validateReferences g projected.unusedNodeIds with
  | some e => .error e
  | none => .ok g

end

end OraDesktop.Workflow
