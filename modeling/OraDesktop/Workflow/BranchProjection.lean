import OraDesktop.Lib.Saturate
import OraDesktop.Workflow.State

/-!
# Branch projection

Which nodes may start is derived, never stored: node-runs seed the states of their nodes, and the
rest follows from the edges. `BranchProjection.new` projects a scope, `newRegionRound` one round of
an Iteration region, in which the owner's entry edges are active by construction.

The source repeats sweeps over the nodes until one changes nothing. A sweep only adds states, and a
state once derived stays derivable, so the result is a fixed point of the projection's rule
(`BranchProjection.states_resolve`).

## Main results

* `BranchProjection.states_resolve` — seeded states stay, the others are what the rule derives
* `BranchProjection.derived_iff` — a ready or inactive node is one the rule finds so
-/

namespace OraDesktop.Workflow

/-- What a node-run says of its node or, where a node has none, what its incoming edges do. -/
inductive ProjectedNodeState where
  | notReached
  | inactive
  | ready
  | running
  | awaitingInput
  | succeeded
  | failed
  | cancelled
  deriving DecidableEq

/-- Whether an edge may still lead to its target, which decides whether the target waits for it. -/
inductive EdgeState where
  | pending
  | active
  | inactive
  | failed

inductive ProjectionScope where
  | outer
  | region (ownerId : String) (members : CompositeRegion)

/-- The state a node-run of this status seeds. -/
def WorkflowNodeStatus.projected : WorkflowNodeStatus → ProjectedNodeState
  | succeeded => .succeeded
  | failed => .failed
  | cancelled => .cancelled
  | running => .running
  | pending => .awaitingInput

/-- `condition_edge_active`: an unlabelled edge belongs to the else branch. -/
def conditionEdgeActive (conditionId : String) (edge : WorkflowGraphEdge)
    (decisions : Map String String) : Bool :=
  match decisions[conditionId]? with
  | none => false
  | some selected =>
    match edge.sourceHandle with
    | none => selected == elseBranchId
    | some handle => handle == selected

/-- What a projection is computed from, apart from the node-runs: neither depends on how far the run
has come. -/
structure Projector where
  graph : FlatGraph
  conditionDecisions : Map String String
  scope : ProjectionScope

structure BranchProjection extends Projector where
  states : Map String ProjectedNodeState

namespace Projector

variable (c : Projector)

def inScope (nodeId : String) : Bool :=
  match c.scope with
  | .outer => (c.graph.regionOwner nodeId).isNone
  | .region _ members => members.contains nodeId

/-- The edge enters a region round from its owner. -/
def isEntry (edge : WorkflowGraphEdge) : Bool :=
  match c.scope with
  | .outer => false
  | .region ownerId _ => edge.source == ownerId

/-- A Condition's edge is active only for the branch it chose; any other edge is active once its
source has succeeded. -/
def edgeState (states : Map String ProjectedNodeState) (edge : WorkflowGraphEdge) : EdgeState :=
  if c.isEntry edge then .active
  else match states[edge.source]? with
    | some .succeeded =>
      match c.graph.node edge.source with
      | none => .pending
      | some source =>
        if source.nodeType = .condition then
          if conditionEdgeActive source.id edge c.conditionDecisions then .active else .inactive
        else .active
    | some .inactive | some .cancelled => .inactive
    | some .failed => .failed
    | _ => .pending

/-- The loop over a node's incoming edges: the first unresolved or failed one decides. -/
def resolveEdges : List EdgeState → Bool → ProjectedNodeState
  | [], anyActive => if anyActive then .ready else .inactive
  | .pending :: _, _ => .notReached
  | .failed :: _, _ => .failed
  | .active :: rest, _ => resolveEdges rest true
  | .inactive :: rest, anyActive => resolveEdges rest anyActive

section

variable (states : Map String ProjectedNodeState) (nodeId : String)

/-- `BranchProjection::compute_projected_state`: only the scope's entry starts without a
predecessor. -/
def computeProjectedState : ProjectedNodeState :=
  let edges := c.graph.incomingEdges nodeId
  if edges.isEmpty then
    if (c.graph.startNode).any (·.id == nodeId) then .ready else .inactive
  else resolveEdges (edges.map (c.edgeState states)) false

/-- The state `resolve_projected_nodes` inserts for a node without one. -/
def rule : Option ProjectedNodeState :=
  if c.inScope nodeId then
    match c.computeProjectedState states nodeId with
    | .ready => some .ready
    | .inactive => some .inactive
    | _ => none
  else none

end

/-- `resolve_projected_nodes`. Every sweep but the last adds a node's state. -/
def resolve (seed : Map String ProjectedNodeState) : BranchProjection :=
  { c with states := Saturate.saturate c.rule c.graph.nodeIds (c.graph.nodes.length + 1) seed }

end Projector

/-- The states node-runs seed; the last row of a node counts. -/
def seedStates (rows : List NodeRun) : Map String ProjectedNodeState :=
  Map.insertEntries (fun row => some (row.nodeId, row.status.projected)) rows ∅

namespace BranchProjection

def new (graph : FlatGraph) (nodeRuns : List NodeRun) (decisions : Map String String) :
    BranchProjection :=
  Projector.resolve ⟨graph, decisions, .outer⟩ (seedStates (nodeRuns.filter (·.iteration.isNone)))

def newRegionRound (graph : FlatGraph) (ownerId : String) (members : CompositeRegion) (round : Nat)
    (nodeRuns : List NodeRun) (decisions : Map String String) : BranchProjection :=
  Projector.resolve ⟨graph, decisions, .region ownerId members⟩
    (seedStates (nodeRuns.filter fun row =>
      row.iteration == some round && members.contains row.nodeId))

variable (p : BranchProjection)

def state (nodeId : String) : ProjectedNodeState := (p.states[nodeId]?).getD .notReached

/-- What a scheduling pass starts. A node is ready once, since its node-run then seeds its state. -/
def readyNodes : List WorkflowGraphNode :=
  p.graph.nodes.filter fun node => p.inScope node.id && p.state node.id == .ready

/-- Some node-run is still under way, so a projection without ready nodes is not drained. -/
def hasInFlight : Bool :=
  p.states.any fun _ state => state == .running || state == .awaitingInput

end BranchProjection

/-! ### Edges of a graph -/

variable {nodeId : String}

theorem FlatGraph.mem_incomingEdges {g : FlatGraph} {edge : WorkflowGraphEdge} :
    edge ∈ g.incomingEdges nodeId ↔ edge ∈ g.edges ∧ edge.target = nodeId := by
  rw [FlatGraph.incomingEdges, List.mem_insertionSort]
  simp

/-! ### Seeded states -/

variable {rows : List NodeRun}

theorem getElem?_seedStates_mem {state} (h : (seedStates rows)[nodeId]? = some state) :
    ∃ row ∈ rows, row.nodeId = nodeId ∧ row.status.projected = state := by
  by_contra hnone
  push Not at hnone
  -- without such a row some other value, or nothing, is found under the key
  have aux : ∀ (rows : List NodeRun) (m : Map String ProjectedNodeState),
      (∀ row ∈ rows, row.nodeId = nodeId → row.status.projected ≠ state) →
      m[nodeId]? ≠ some state →
      (Map.insertEntries (fun row : NodeRun => some (row.nodeId, row.status.projected))
        rows m)[nodeId]? ≠ some state := by
    intro rows
    induction rows with
    | nil => intro m _ hm; exact hm
    | cons row rows ih =>
      intro m hrows hm
      refine ih (m.insert row.nodeId row.status.projected)
        (fun r hr => hrows r (.tail _ hr)) ?_
      rw [Map.getElem?_insert]
      split
      · rename_i hid
        exact fun heq => hrows row (.head _) hid (Option.some.inj heq)
      · exact hm
  exact aux rows ∅ hnone (by simp) h

theorem mem_seedStates : nodeId ∈ seedStates rows ↔ ∃ row ∈ rows, row.nodeId = nodeId := by
  constructor
  · intro h
    obtain ⟨state, hstate⟩ :=
      Option.isSome_iff_exists.mp (Std.ExtTreeMap.isSome_getElem?_iff_mem.mpr h)
    obtain ⟨row, hrow, hid, -⟩ := getElem?_seedStates_mem hstate
    exact ⟨row, hrow, hid⟩
  · rintro ⟨row, hrow, rfl⟩
    have aux : ∀ (rows : List NodeRun) (m : Map String ProjectedNodeState),
        (row ∈ rows ∨ row.nodeId ∈ m) →
        row.nodeId ∈ Map.insertEntries
          (fun row : NodeRun => some (row.nodeId, row.status.projected)) rows m := by
      intro rows
      induction rows with
      | nil => intro m h; exact h.resolve_left (by simp)
      | cons r rows ih =>
        intro m h
        refine ih (m.insert r.nodeId r.status.projected) ?_
        rcases h with h | h
        · rcases List.mem_cons.mp h with rfl | h
          · exact .inr (by simp)
          · exact .inl h
        · exact .inr (by simp [h])
    exact aux rows ∅ (.inl hrow)

/-- When the rows of a node agree, its seeded state is theirs. -/
theorem getElem?_seedStates {row : NodeRun} (hrow : row ∈ rows)
    (hagree : ∀ r ∈ rows, r.nodeId = row.nodeId → r.status = row.status) :
    (seedStates rows)[row.nodeId]? = some row.status.projected := by
  obtain ⟨state, hstate⟩ := Option.isSome_iff_exists.mp
    (Std.ExtTreeMap.isSome_getElem?_iff_mem.mpr (mem_seedStates.mpr ⟨row, hrow, rfl⟩))
  obtain ⟨r, hr, hid, hproj⟩ := getElem?_seedStates_mem hstate
  rw [hstate, ← hproj, hagree r hr hid]

variable {state : ProjectedNodeState}

namespace Projector

variable {c : Projector} {states states' : Map String ProjectedNodeState}

/-! ### The rule -/

theorem resolveEdges_eq_ready {es : List EdgeState} {anyActive : Bool} :
    resolveEdges es anyActive = .ready ↔
      (∀ e ∈ es, e = .active ∨ e = .inactive) ∧ (anyActive ∨ .active ∈ es) := by
  induction es generalizing anyActive with
  | nil => cases anyActive <;> simp [resolveEdges]
  | cons e es ih => cases e <;> simp [resolveEdges, ih]

theorem resolveEdges_eq_inactive {es : List EdgeState} {anyActive : Bool} :
    resolveEdges es anyActive = .inactive ↔ (∀ e ∈ es, e = .inactive) ∧ anyActive = false := by
  induction es generalizing anyActive with
  | nil => cases anyActive <;> simp [resolveEdges]
  | cons e es ih => cases e <;> simp [resolveEdges, ih]

theorem computeProjectedState_eq_ready :
    c.computeProjectedState states nodeId = .ready ↔
      (c.graph.incomingEdges nodeId = [] ∧ (c.graph.startNode).any (·.id == nodeId) = true) ∨
      ((∀ e ∈ c.graph.incomingEdges nodeId,
          c.edgeState states e = .active ∨ c.edgeState states e = .inactive) ∧
        ∃ e ∈ c.graph.incomingEdges nodeId, c.edgeState states e = .active) := by
  unfold computeProjectedState
  rcases hedges : c.graph.incomingEdges nodeId with _ | ⟨e, es⟩
  · by_cases hstart : (c.graph.startNode).any (·.id == nodeId) <;> simp [hstart]
  · simp only [List.isEmpty_cons, Bool.false_eq_true, if_false, resolveEdges_eq_ready]
    simp [eq_comm (a := EdgeState.active)]

theorem computeProjectedState_eq_inactive :
    c.computeProjectedState states nodeId = .inactive ↔
      (c.graph.incomingEdges nodeId = [] → (c.graph.startNode).any (·.id == nodeId) = false) ∧
      ∀ e ∈ c.graph.incomingEdges nodeId, c.edgeState states e = .inactive := by
  unfold computeProjectedState
  rcases hedges : c.graph.incomingEdges nodeId with _ | ⟨e, es⟩
  · by_cases hstart : (c.graph.startNode).any (·.id == nodeId) <;> simp [hstart]
  · simp only [List.isEmpty_cons, Bool.false_eq_true, if_false, resolveEdges_eq_inactive]
    simp

theorem rule_eq_some :
    c.rule states nodeId = some state ↔ c.inScope nodeId = true ∧
      (state = .ready ∨ state = .inactive) ∧ c.computeProjectedState states nodeId = state := by
  unfold rule
  by_cases hscope : c.inScope nodeId
  · simp only [hscope, if_true, true_and]
    rcases hstate : c.computeProjectedState states nodeId <;> cases state <;> simp
  · simp [hscope]

theorem rule_stable : Saturate.Stable c.rule := by
  intro states states' nodeId state hext hrule
  obtain ⟨hscope, hkind, hstate⟩ := rule_eq_some.mp hrule
  refine rule_eq_some.mpr ⟨hscope, hkind, ?_⟩
  -- a resolved edge stays resolved as states are added
  have hstable : ∀ e, c.edgeState states e = .active ∨ c.edgeState states e = .inactive →
      c.edgeState states' e = c.edgeState states e := by
    intro e he
    unfold edgeState at he ⊢
    by_cases hentry : c.isEntry e
    · simp [hentry]
    · rcases hsource : states[e.source]? with _ | state
      · simp [hentry, hsource] at he
      · rw [hext _ _ hsource]
  rcases hkind with rfl | rfl
  · rw [computeProjectedState_eq_ready] at hstate ⊢
    refine hstate.imp id ?_
    rintro ⟨hall, e, he, hactive⟩
    exact ⟨fun e he => by rw [hstable e (hall e he)]; exact hall e he, e, he,
      by rw [hstable e (.inl hactive), hactive]⟩
  · rw [computeProjectedState_eq_inactive] at hstate ⊢
    exact ⟨hstate.1, fun e he => by rw [hstable e (.inr (hstate.2 e he)), hstate.2 e he]⟩

end Projector

namespace BranchProjection

open Projector

variable {c : Projector} {seed : Map String ProjectedNodeState}

/-! ### The fixed point -/

/-- Seeded states stay; every other node of the scope has the state the rule derives. -/
theorem states_resolve (nodeId : String) :
    (c.resolve seed).states[nodeId]? =
      if nodeId ∈ seed then seed[nodeId]?
      else if nodeId ∈ c.graph.nodeIds then c.rule (c.resolve seed).states nodeId else none :=
  Saturate.saturate_eq rule_stable (by simp [FlatGraph.nodeIds]) nodeId

theorem state_of_seed (h : seed[nodeId]? = some state) : (c.resolve seed).state nodeId = state := by
  have hmem : nodeId ∈ seed := Std.ExtTreeMap.isSome_getElem?_iff_mem.mp (by rw [h]; rfl)
  rw [BranchProjection.state, states_resolve, if_pos hmem, h]
  rfl

/-- A derived state comes from the rule, not from a node-run. -/
theorem derived_iff (hkind : state = .ready ∨ state = .inactive)
    (hseed : ∀ s, seed[nodeId]? = some s → s ≠ .ready ∧ s ≠ .inactive) :
    (c.resolve seed).state nodeId = state ↔ nodeId ∉ seed ∧ nodeId ∈ c.graph.nodeIds ∧
      c.inScope nodeId = true ∧ c.computeProjectedState (c.resolve seed).states nodeId = state := by
  have hne : state ≠ .notReached := by rcases hkind with rfl | rfl <;> simp
  have hstate : (c.resolve seed).state nodeId = state ↔
      (c.resolve seed).states[nodeId]? = some state := by
    rw [BranchProjection.state]
    rcases (c.resolve seed).states[nodeId]? with _ | s
    · simp [hne.symm]
    · simp
  rw [hstate, states_resolve]
  by_cases hmem : nodeId ∈ seed
  · rw [if_pos hmem]
    refine iff_of_false (fun h => ?_) (fun h => h.1 hmem)
    rcases hkind with rfl | rfl
    · exact (hseed _ h).1 rfl
    · exact (hseed _ h).2 rfl
  · rw [if_neg hmem]
    by_cases hid : nodeId ∈ c.graph.nodeIds
    · rw [if_pos hid, rule_eq_some]
      simp [hmem, hid, hkind]
    · simp [hid]

end BranchProjection

/-- Seeds hold statuses of node-runs, never derived states. -/
def IsSeed (seed : Map String ProjectedNodeState) : Prop :=
  ∀ (nodeId : String) (state : ProjectedNodeState),
    seed[nodeId]? = some state → state ≠ .ready ∧ state ≠ .inactive

theorem isSeed_seedStates (rows : List NodeRun) : IsSeed (seedStates rows) := by
  intro nodeId state h
  obtain ⟨row, -, -, rfl⟩ := getElem?_seedStates_mem h
  cases row.status <;> exact ⟨nofun, nofun⟩

namespace BranchProjection

open Projector

/-! ### Rows -/

variable {c : Projector} {seed : Map String ProjectedNodeState}

/-- A state that is not derived comes from a node-run. -/
theorem seed_of_state (hstate : (c.resolve seed).state nodeId = state) (hready : state ≠ .ready)
    (hinactive : state ≠ .inactive) (hreached : state ≠ .notReached) :
    seed[nodeId]? = some state := by
  rw [BranchProjection.state, states_resolve] at hstate
  split at hstate
  · rcases hs : seed[nodeId]? with _ | s
    · simp [hs] at hstate
      exact absurd hstate.symm hreached
    · simpa [hs] using hstate
  · split at hstate
    · rcases hrule : c.rule (c.resolve seed).states nodeId with _ | s
      · simp [hrule] at hstate
        exact absurd hstate.symm hreached
      obtain ⟨-, hkind, -⟩ := rule_eq_some.mp hrule
      simp only [hrule, Option.getD_some] at hstate
      subst hstate
      rcases hkind with rfl | rfl
      · exact absurd rfl hready
      · exact absurd rfl hinactive
    · simp at hstate
      exact absurd hstate.symm hreached

end BranchProjection

end OraDesktop.Workflow
