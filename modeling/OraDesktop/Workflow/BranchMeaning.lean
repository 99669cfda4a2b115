import OraDesktop.Workflow.ParseSound
import OraDesktop.Workflow.Rehearsal

/-!
# What a branch projection means

The states of a scope are determined by its rows and edges alone: a node with a row has the state
of its row, and any other node is ready or inactive by what its incoming edges say, once all of
them say something. On a graph that is acyclic these equations have one solution, and the sweeps
of `BranchProjection` compute it, in whatever order they meet the nodes.

## Main results

* `Projector.Means.unique` — along a topological order the equations have at most one solution
* `Projector.means_resolve` — the sweeps solve them
-/

namespace OraDesktop.Workflow

namespace Projector

open BranchProjection

variable (c : Projector)

section

variable (σ : String → ProjectedNodeState) (edge : WorkflowGraphEdge)

/-- The edge leads on: it enters a round, or its source succeeded and, as a Condition, chose it. -/
def LeadsOn : Prop :=
  c.isEntry edge = true ∨ σ edge.source = .succeeded ∧ ∀ node ∈ c.graph.nodes,
    node.id = edge.source → node.nodeType = .condition →
      conditionEdgeActive node.id edge c.conditionDecisions = true

/-- The edge never leads on: its source does not run, was cancelled, or chose another branch. -/
def CutOff : Prop :=
  c.isEntry edge = false ∧ (σ edge.source = .inactive ∨ σ edge.source = .cancelled ∨
    σ edge.source = .succeeded ∧ ∃ node ∈ c.graph.nodes, node.id = edge.source ∧
      node.nodeType = .condition ∧ conditionEdgeActive node.id edge c.conditionDecisions = false)

end

/-- The node is the Start of the graph, and no edge leads to it. -/
def Starts (nodeId : String) : Prop :=
  (∃ node ∈ c.graph.nodes, node.id = nodeId ∧ node.nodeType = .start) ∧
    ∀ e ∈ c.graph.edges, e.target ≠ nodeId

/-- The states of a scope as its rows and edges determine them. The nodes that `starts` names are
ready without a predecessor. -/
structure Means (starts : String → Prop) (rows : List NodeRun) (σ : String → ProjectedNodeState) :
    Prop where
  seeded : ∀ row ∈ rows, σ row.nodeId = row.status.projected
  ready : ∀ n ∈ c.graph.nodeIds, c.inScope n = true → (∀ row ∈ rows, row.nodeId ≠ n) →
    (σ n = .ready ↔ starts n ∨
      (∀ e ∈ c.graph.edges, e.target = n → c.LeadsOn σ e ∨ c.CutOff σ e) ∧
        ∃ e ∈ c.graph.edges, e.target = n ∧ c.LeadsOn σ e)
  inactive : ∀ n ∈ c.graph.nodeIds, c.inScope n = true → (∀ row ∈ rows, row.nodeId ≠ n) →
    (σ n = .inactive ↔ ¬starts n ∧ ∀ e ∈ c.graph.edges, e.target = n → c.CutOff σ e)
  otherwise : ∀ n, (∀ row ∈ rows, row.nodeId ≠ n) → σ n ≠ .ready → σ n ≠ .inactive →
    σ n = .notReached
  outside : ∀ n, (∀ row ∈ rows, row.nodeId ≠ n) → n ∉ c.graph.nodeIds ∨ c.inScope n = false →
    σ n = .notReached

variable {c} {starts : String → Prop} {rows : List NodeRun} {σ σ' : String → ProjectedNodeState}

theorem leadsOn_congr {edge : WorkflowGraphEdge} (h : σ edge.source = σ' edge.source) :
    c.LeadsOn σ edge ↔ c.LeadsOn σ' edge := by
  rw [LeadsOn, LeadsOn, h]

theorem cutOff_congr {edge : WorkflowGraphEdge} (h : σ edge.source = σ' edge.source) :
    c.CutOff σ edge ↔ c.CutOff σ' edge := by
  rw [CutOff, CutOff, h]

/-- The induction is on the topological order: an edge reads the state of an earlier node. -/
theorem Means.unique
    (htopo : ∀ e ∈ c.graph.edges, c.graph.topoOrder.idxOf e.source < c.graph.topoOrder.idxOf e.target)
    (h : c.Means starts rows σ) (h' : c.Means starts rows σ') : σ = σ' := by
  funext n
  generalize hrank : c.graph.topoOrder.idxOf n = rank
  induction rank using Nat.strong_induction_on generalizing n with
  | _ rank ih =>
    by_cases hrow : ∃ row ∈ rows, row.nodeId = n
    · obtain ⟨row, hrow, rfl⟩ := hrow
      rw [h.seeded row hrow, h'.seeded row hrow]
    push Not at hrow
    by_cases hin : n ∈ c.graph.nodeIds ∧ c.inScope n = true
    · have hsource : ∀ e ∈ c.graph.edges, e.target = n → σ e.source = σ' e.source := by
        intro e he htarget
        exact ih _ (by rw [← hrank, ← htarget]; exact htopo e he) e.source rfl
      have hready : σ n = .ready ↔ σ' n = .ready := by
        rw [h.ready n hin.1 hin.2 hrow, h'.ready n hin.1 hin.2 hrow]
        refine or_congr_right (and_congr ?_ ?_)
        · exact forall₂_congr fun e he => forall_congr' fun ht =>
            or_congr (leadsOn_congr (hsource e he ht)) (cutOff_congr (hsource e he ht))
        · exact exists_congr fun e => and_congr_right fun he => and_congr_right fun ht =>
            leadsOn_congr (hsource e he ht)
      have hinactive : σ n = .inactive ↔ σ' n = .inactive := by
        rw [h.inactive n hin.1 hin.2 hrow, h'.inactive n hin.1 hin.2 hrow]
        exact and_congr_right fun _ => forall₂_congr fun e he => forall_congr' fun ht =>
          cutOff_congr (hsource e he ht)
      by_cases hr : σ n = .ready
      · rw [hr, hready.mp hr]
      · by_cases hi : σ n = .inactive
        · rw [hi, hinactive.mp hi]
        · rw [h.otherwise n hrow hr hi,
            h'.otherwise n hrow (mt hready.mpr hr) (mt hinactive.mpr hi)]
    · have hout : n ∉ c.graph.nodeIds ∨ c.inScope n = false := by
        by_cases hid : n ∈ c.graph.nodeIds
        · exact .inr (by simpa using fun hs => hin ⟨hid, hs⟩)
        · exact .inl hid
      rw [h.outside n hrow hout, h'.outside n hrow hout]

/-! ### The sweeps -/

theorem node_eq_of_mem (hids : c.graph.nodeIds.Nodup) {node : WorkflowGraphNode}
    (hnode : node ∈ c.graph.nodes) : c.graph.node node.id = some node := by
  rcases hfound : c.graph.node node.id with _ | found
  · have := List.find?_eq_none.mp hfound node hnode
    simp at this
  · obtain ⟨hmem, hid⟩ := FlatGraph.mem_of_node hfound
    rw [List.inj_on_of_nodup_map hids hmem hnode hid]

/-- What the source reads off an edge is what the states say about it. -/
theorem edgeState_iff (hids : c.graph.nodeIds.Nodup) (seed : Map String ProjectedNodeState)
    {edge : WorkflowGraphEdge} (hsource : edge.source ∈ c.graph.nodeIds) :
    (c.edgeState (c.resolve seed).states edge = .active ↔
        c.LeadsOn (c.resolve seed).state edge) ∧
      (c.edgeState (c.resolve seed).states edge = .inactive ↔
        c.CutOff (c.resolve seed).state edge) := by
  obtain ⟨node, hnode, hid⟩ := FlatGraph.mem_nodeIds.mp hsource
  have hfind : c.graph.node edge.source = some node := hid ▸ node_eq_of_mem hids hnode
  have honly : ∀ other ∈ c.graph.nodes, other.id = edge.source → other = node :=
    fun other hother hoid => List.inj_on_of_nodup_map hids hother hnode (hoid.trans hid.symm)
  have hleads : (∀ other ∈ c.graph.nodes, other.id = edge.source → other.nodeType = .condition →
      conditionEdgeActive other.id edge c.conditionDecisions = true) ↔
      (node.nodeType = .condition → conditionEdgeActive node.id edge c.conditionDecisions = true) :=
    ⟨fun h => h node hnode hid, fun h other hother hoid => honly other hother hoid ▸ h⟩
  have hcut : (∃ other ∈ c.graph.nodes, other.id = edge.source ∧ other.nodeType = .condition ∧
      conditionEdgeActive other.id edge c.conditionDecisions = false) ↔
      (node.nodeType = .condition ∧
        conditionEdgeActive node.id edge c.conditionDecisions = false) := by
    constructor
    · rintro ⟨other, hother, hoid, h⟩
      exact honly other hother hoid ▸ h
    · exact fun h => ⟨node, hnode, hid, h⟩
  rw [LeadsOn, CutOff, hleads, hcut, edgeState, state, hfind]
  by_cases hentry : c.isEntry edge
  · simp [hentry]
  rcases (c.resolve seed).states[edge.source]? with _ | state
  · simp [hentry]
  cases state with
  | succeeded =>
    by_cases hcond : node.nodeType = .condition
    · cases hactive : conditionEdgeActive node.id edge c.conditionDecisions <;>
        simp [hentry, hcond, hactive]
    · simp [hentry, hcond]
  | _ => simp [hentry]

theorem starts_iff (hstart : ∀ m ∈ c.graph.nodes, ∀ n ∈ c.graph.nodes,
    m.nodeType = .start → n.nodeType = .start → m = n) {nodeId : String} :
    c.Starts nodeId ↔ c.graph.incomingEdges nodeId = [] ∧
      (c.graph.startNode).any (·.id == nodeId) = true := by
  rw [Starts, and_comm]
  refine and_congr ?_ ?_
  · rw [List.eq_nil_iff_forall_not_mem]
    simp only [FlatGraph.mem_incomingEdges, not_and, ne_eq]
  · rw [Option.any_eq_true]
    constructor
    · rintro ⟨node, hnode, hid, htype⟩
      rcases hfound : c.graph.startNode with _ | found
      · have := List.find?_eq_none.mp hfound node hnode
        simp [htype] at this
      · have heq := hstart found (List.mem_of_find?_eq_some hfound) node hnode
          (by simpa using List.find?_some hfound) htype
        exact ⟨found, rfl, by simp [heq, hid]⟩
    · rintro ⟨node, hfound, hid⟩
      exact ⟨node, List.mem_of_find?_eq_some hfound, by simpa using hid,
        by simpa using List.find?_some hfound⟩

theorem means_resolve (hids : c.graph.nodeIds.Nodup)
    (hsource : ∀ e ∈ c.graph.edges, e.source ∈ c.graph.nodeIds)
    (hstart : ∀ m ∈ c.graph.nodes, ∀ n ∈ c.graph.nodes,
      m.nodeType = .start → n.nodeType = .start → m = n) (hrows : (rows.map (·.nodeId)).Nodup) :
    c.Means c.Starts rows (c.resolve (seedStates rows)).state := by
  have hseed := isSeed_seedStates rows
  have hfree : ∀ {n : String}, (∀ row ∈ rows, row.nodeId ≠ n) → n ∉ seedStates rows := by
    intro n h hmem
    obtain ⟨row, hrow, hid⟩ := mem_seedStates.mp hmem
    exact h row hrow hid
  have hactive := fun e he => (edgeState_iff hids (seedStates rows) (hsource e he)).1
  have hinactive := fun e he => (edgeState_iff hids (seedStates rows) (hsource e he)).2
  refine ⟨fun row hrow => ?_, fun n hn hscope hopen => ?_, fun n hn hscope hopen => ?_,
    fun n hopen hr hi => ?_, fun n hopen hout => ?_⟩
  · refine state_of_seed (getElem?_seedStates hrow fun r hr hid => ?_)
    rw [List.inj_on_of_nodup_map hrows hr hrow hid]
  · rw [derived_iff (.inl rfl) (hseed n), computeProjectedState_eq_ready,
      ← starts_iff hstart]
    simp only [hfree hopen, hn, hscope, not_false_eq_true, true_and, FlatGraph.mem_incomingEdges]
    refine or_congr_right (and_congr ?_ ?_)
    · refine forall_congr' fun e => ?_
      rw [and_imp]
      exact forall₂_congr fun he _ => or_congr (hactive e he) (hinactive e he)
    · refine exists_congr fun e => ?_
      rw [and_assoc]
      exact and_congr_right fun he => and_congr_right fun _ => hactive e he
  · rw [derived_iff (.inr rfl) (hseed n), computeProjectedState_eq_inactive,
      starts_iff hstart]
    simp only [hfree hopen, hn, hscope, not_false_eq_true, true_and, FlatGraph.mem_incomingEdges,
      not_and, Bool.not_eq_true]
    refine and_congr_right fun _ => forall_congr' fun e => ?_
    rw [and_imp]
    exact forall₂_congr fun he _ => hinactive e he
  · by_contra hne
    obtain ⟨row, hrow, hid, -⟩ :=
      getElem?_seedStates_mem (seed_of_state rfl hr hi hne)
    exact hopen row hrow hid
  · have hnot : ∀ {state}, state = .ready ∨ state = .inactive →
        (c.resolve (seedStates rows)).state n ≠ state := by
      intro state hkind heq
      obtain ⟨-, hid, hscope, -⟩ := (derived_iff hkind (hseed n)).mp heq
      rcases hout with hout | hout
      · exact hout hid
      · rw [hout] at hscope
        cases hscope
    by_contra hne
    obtain ⟨row, hrow, hid, -⟩ :=
      getElem?_seedStates_mem (seed_of_state rfl (hnot (.inl rfl)) (hnot (.inr rfl)) hne)
    exact hopen row hrow hid

theorem means_iff (hwf : c.graph.WellFormed) (hrows : (rows.map (·.nodeId)).Nodup) :
    c.Means c.Starts rows σ ↔ σ = (c.resolve (seedStates rows)).state := by
  have hmeans := means_resolve hwf.nodup_ids hwf.source_mem hwf.start_unique hrows
  exact ⟨fun h => h.unique hwf.topo_forward hmeans, fun h => h ▸ hmeans⟩

/-- The equations do not mention an order of the nodes or of the rows. -/
theorem resolve_perm (hwf : c.graph.WellFormed) (hrows : (rows.map (·.nodeId)).Nodup)
    {nodes : List WorkflowGraphNode} (hnodes : nodes.Perm c.graph.nodes) {rows' : List NodeRun}
    (hperm : rows'.Perm rows) :
    (Projector.resolve { c with graph := { c.graph with nodes := nodes } } (seedStates rows')).state =
      (c.resolve (seedStates rows)).state := by
  generalize hc : ({ c with graph := { c.graph with nodes := nodes } } : Projector) = c'
  have hmem : ∀ n, n ∈ c'.graph.nodes ↔ n ∈ c.graph.nodes := by
    intro n
    rw [← hc]
    exact hnodes.mem_iff
  have hids : c'.graph.nodeIds.Perm c.graph.nodeIds := by
    rw [← hc]
    exact hnodes.map _
  have hedges : c'.graph.edges = c.graph.edges := by rw [← hc]
  have hentry : c'.isEntry = c.isEntry := by rw [← hc]; rfl
  have hscope : c'.inScope = c.inScope := by rw [← hc]; rfl
  have hdecisions : c'.conditionDecisions = c.conditionDecisions := by rw [← hc]
  have hleads : c'.LeadsOn = c.LeadsOn := by
    funext σ e
    simp only [LeadsOn, hmem, hentry, hdecisions]
  have hcut : c'.CutOff = c.CutOff := by
    funext σ e
    simp only [CutOff, hmem, hentry, hdecisions]
  have hstarts : c'.Starts = c.Starts := by
    funext n
    simp only [Starts, hmem, hedges]
  have hmeans := means_resolve (c := c') (hids.nodup_iff.mpr hwf.nodup_ids)
    (fun e he => hids.mem_iff.mpr (hwf.source_mem e (hedges ▸ he)))
    (fun m hm n hn => hwf.start_unique m ((hmem m).mp hm) n ((hmem n).mp hn))
    (((hperm.map _).nodup_iff).mpr hrows)
  refine (means_iff hwf hrows).mp ⟨?_, ?_, ?_, ?_, ?_⟩
  · simpa only [hperm.mem_iff] using hmeans.seeded
  · simpa only [hperm.mem_iff, hids.mem_iff, hscope, hedges, hleads, hcut, hstarts]
      using hmeans.ready
  · simpa only [hperm.mem_iff, hids.mem_iff, hscope, hedges, hcut, hstarts] using hmeans.inactive
  · simpa only [hperm.mem_iff] using hmeans.otherwise
  · simpa only [hperm.mem_iff, hids.mem_iff, hscope] using hmeans.outside

end Projector

/-! ### Parsed graphs -/

theorem WorkflowGraph.WellFormed.scope {g : WorkflowGraph} (h : g.WellFormed) {scope : FlatGraph}
    (hscope : scope ∈ g.executionScopes) : scope.WellFormed := by
  rcases List.mem_cons.mp hscope with rfl | hbody
  · exact h.root
  · obtain ⟨n, -, hn⟩ := List.mem_filterMap.mp hbody
    obtain ⟨⟨config, body⟩, hfound, rfl⟩ := Option.map_eq_some_iff.mp hn
    exact h.body _ (WorkflowGraph.mem_of_loopBody hfound)

/-- The projection of a scope, and of a round of one of its regions, computes the states that the
rows and edges determine, whatever the order of the nodes and rows. -/
theorem projection_computes_meaning [JsonText] [Toposort] {document : Value} {g : WorkflowGraph}
    (hparse : WorkflowGraph.parse document = .ok g) {scope : FlatGraph}
    (hscope : scope ∈ g.executionScopes) (rows : List NodeRun) (decisions : Map String String) :
    (((rows.filter (·.iteration.isNone)).map (·.nodeId)).Nodup →
      (∀ σ, Projector.Means ⟨scope, decisions, .outer⟩ (Projector.Starts ⟨scope, decisions, .outer⟩)
        (rows.filter (·.iteration.isNone)) σ ↔
          σ = (BranchProjection.new scope rows decisions).state) ∧
      ∀ nodes rows', nodes.Perm scope.nodes → rows'.Perm rows →
        (BranchProjection.new { scope with nodes := nodes } rows' decisions).state =
          (BranchProjection.new scope rows decisions).state) ∧
    ∀ owner region round,
      ((rows.filter fun row => row.iteration == some round && region.contains row.nodeId).map
        (·.nodeId)).Nodup →
      (∀ σ, Projector.Means ⟨scope, decisions, .region owner region⟩
        (Projector.Starts ⟨scope, decisions, .region owner region⟩)
        (rows.filter fun row => row.iteration == some round && region.contains row.nodeId) σ ↔
          σ = (BranchProjection.newRegionRound scope owner region round rows decisions).state) ∧
      ∀ nodes rows', nodes.Perm scope.nodes → rows'.Perm rows →
        (BranchProjection.newRegionRound { scope with nodes := nodes } owner region round rows'
          decisions).state =
          (BranchProjection.newRegionRound scope owner region round rows decisions).state := by
  have hwf := (parse_wellFormed hparse).scope hscope
  refine ⟨fun hrows => ⟨fun σ => Projector.means_iff hwf hrows, fun nodes rows' hnodes hperm => ?_⟩,
    fun owner region round hrows =>
      ⟨fun σ => Projector.means_iff hwf hrows, fun nodes rows' hnodes hperm => ?_⟩⟩
  · exact Projector.resolve_perm (c := ⟨scope, decisions, .outer⟩) hwf hrows hnodes
      (hperm.filter _)
  · exact Projector.resolve_perm (c := ⟨scope, decisions, .region owner region⟩) hwf hrows hnodes
      (hperm.filter _)

def straightDocument : Value :=
  Document.ofParts [Document.node "start" "start", Document.node "out" "output"]
    [Document.edge "start" "out"]

/-- Before a run has rows its Start is ready, although no edge leads to it. -/
theorem start_ready_without_edges :
    ∃ g, @WorkflowGraph.parse .blank .documentOrder straightDocument = .ok g ∧
      ¬Projector.Means ⟨g.toFlatGraph, ∅, .outer⟩ (fun _ => False) []
        (BranchProjection.new g.toFlatGraph [] ∅).state := by
  let := JsonText.blank
  let := Toposort.documentOrder
  have hplay : rehearse straightDocument none [] (fun g _ _ =>
      decide ("start" ∈ g.nodeIds ∧ g.regionOwner "start" = none ∧
        (∀ e ∈ g.edges, e.target ≠ "start") ∧
        (BranchProjection.new g.toFlatGraph [] ∅).state "start" = .ready)) = true := by
    decide +kernel
  obtain ⟨g, -, -, -, hparse, -, hstates⟩ := runs_of_rehearse hplay
  obtain ⟨hid, howner, hedges, hready⟩ := of_decide_eq_true hstates
  refine ⟨g, hparse, fun h => ?_⟩
  have hscope : Projector.inScope ⟨g.toFlatGraph, ∅, .outer⟩ "start" = true := by
    simp [Projector.inScope, howner]
  have hinactive := (h.inactive "start" hid hscope fun _ hrow => absurd hrow List.not_mem_nil).mpr
    ⟨id, fun e he ht => absurd ht (hedges e he)⟩
  exact absurd (hready.symm.trans hinactive) (by decide)

/-- A Condition that leads to an Agent or else to an Output, and a node that nothing leads to. The
Agent's prompt reads a Start variable. -/
def branchingDocument : Value :=
  Document.ofParts
    [Document.node "start" "start"
        [("inputVariables", .arr [.obj [("name", .str "topic"), ("valueType", .str "string")]])],
      Document.node "pick" "condition" [("cases", .arr [.obj [("id", .str "long")]])],
      Document.node "write" "agent"
        [("agentConfig", .obj [("prompt", .str "On \x7b\x7b#start.topic#\x7d\x7d.")])],
      Document.node "out" "output", Document.node "draft" "agent"]
    [Document.edge "start" "pick", Document.edge "pick" "write" (some "long"),
      Document.edge "pick" "out"]

/-- The Condition has decided for its case: the Agent is ready and the else branch inactive,
whatever the order of the nodes and rows. -/
theorem projection_computes_meaning_branching :
    letI := JsonText.blank
    letI := Toposort.documentOrder
    let row (nodeId : String) (nodeType : NodeType) : NodeRun :=
      { NodeRunToStart.toRow ⟨nodeId, "root", nodeId, nodeType, none, none⟩ 0 with
        status := .succeeded }
    let rows := [row "pick" .condition, row "start" .start]
    let decisions : Map String String := Std.ExtTreeMap.insert ∅ "pick" "long"
    ∃ g σ, WorkflowGraph.parse branchingDocument = .ok g ∧
      (∀ σ', Projector.Means ⟨g.toFlatGraph, decisions, .outer⟩
        (Projector.Starts ⟨g.toFlatGraph, decisions, .outer⟩) rows σ' ↔ σ' = σ) ∧
      (BranchProjection.new { g.toFlatGraph with nodes := g.nodes.reverse } rows.reverse
        decisions).state = σ ∧ σ "write" = .ready ∧ σ "out" = .inactive := by
  let := JsonText.blank
  let := Toposort.documentOrder
  intro row rows decisions
  have hplay : rehearse branchingDocument none [] (fun g _ _ =>
      let σ := (BranchProjection.new g.toFlatGraph rows decisions).state
      decide (σ "write" = .ready ∧ σ "out" = .inactive)) = true := by decide +kernel
  obtain ⟨g, -, -, -, hparse, -, hstates⟩ := runs_of_rehearse hplay
  have hroot : g.toFlatGraph ∈ g.executionScopes := List.mem_cons_self
  have ⟨hmeans, hperm⟩ := (projection_computes_meaning hparse hroot rows decisions).1 (by decide)
  exact ⟨g, _, hparse, hmeans, hperm _ _ (List.reverse_perm _) (List.reverse_perm _),
    of_decide_eq_true hstates⟩

end OraDesktop.Workflow
