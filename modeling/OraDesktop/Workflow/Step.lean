import OraDesktop.Workflow.Engine
import OraDesktop.Workflow.Transactions

/-!
# What the engine does between two commits

The journal of a call is a path of steps. A `Step` says of one journal entry which transaction
produced the state after it (`Event.Effect`) and what the engine had established about the state
before it when it ran that transaction (`Guard`): the transaction itself checks less, and what
makes it safe is that the decision was taken on the state it runs on.

The one decision taken on an older state is the completion of a control node: a pass loads the run
once and completes all its control nodes against what it loaded. `SwiftPass` relates the loaded
state to the current one.

Every claim about whole histories is proved over steps; `Engine.traced_execute` carries it to the
engine's calls.
-/

namespace OraDesktop.Workflow

open Repository Journal

/-- Every attempt of the one state is in the other. -/
def World.Retains (w w' : World) : Prop := ∀ r ∈ w.rows, ∃ r' ∈ w'.rows, r.Same r'

def Materialized (scopeId : String) (iteration : Option Nat) (nodes : List WorkflowGraphNode)
    (starts : List NodeRunToStart) : Prop :=
  List.Forall₂ (fun node start => start.scopeId = scopeId ∧ start.nodeId = node.id ∧
    start.nodeType = node.nodeType ∧ start.iteration = iteration) nodes starts

section

variable [JsonText]

/-- What a journalled event does to the persisted state. -/
def Event.Effect (w : World) : Event → World → Prop
  | .pass, w' | .evaluate _ _ _, w' | .dispatch _ _ _, w' | .wake _ _ _, w' => w' = w
  | .startRun start now, w' => Commits (Repository.startRun start now) w w'
  | .startReadyNodes starts now, w' => Commits (Repository.startReadyNodes starts now) w w'
  | .completeNode _ id output structured now, w' =>
    Commits (Repository.completeNode id output structured now) w w'
  | .failNode id failure propagation now, w' =>
    Commits (Repository.failNode id failure propagation now) w w'
  | .transition id source target, w' =>
    Commits (Repository.transitionNodeRunStatus id source target) w w'
  | .startIterationRound ownerId round item starts now, w' =>
    Commits (Repository.startIterationRound ownerId round item starts now) w w'
  | .settleIterationRound ownerId round entry continuation now, w' =>
    Commits (Repository.settleIterationRound ownerId round entry continuation now) w w'
  | .completeIterationNode id ownerId exposed output now, w' =>
    Commits (Repository.completeIterationNode id ownerId exposed output now) w w'
  | .startLoopRound start now, w' => Commits (Repository.startLoopRound start now) w w'
  | .startScopeReadyNodes scopeId starts now, w' =>
    Commits (Repository.startScopeReadyNodes scopeId starts now) w w'
  | .advanceLoopRound scopeId advance now, w' =>
    Commits (Repository.advanceLoopRound scopeId advance now) w w'
  | .scheduleNodeRetry id failure retry now, w' =>
    Commits (Repository.scheduleNodeRetry id failure retry now) w w'
  | .beginNodeRetry id now, w' => Commits (Repository.beginNodeRetry id now) w w'
  | .failInterruptedNodeRuns ids now, w' =>
    Commits (Repository.failInterruptedNodeRuns ids now) w w'
  | .failOrphanedNodeRuns now, w' => Commits (Repository.failOrphanedNodeRuns now) w w'
  | .finishRun output now, w' => Commits (Repository.finishRun output now) w w'
  | .cancelRun now, w' => Commits (Repository.cancelRun now) w w'
  | .restartRun newRootScopeId, w' => Commits (Repository.restartRun newRootScopeId) w w'
  | .resumeFromFailure cleared, w' => Commits (Repository.resumeFromFailure cleared) w w'
  | .updateRunInput input vars, w' => Commits (Repository.updateRunInput input vars) w w'

variable (g : WorkflowGraph)

/-- The state's rows of the current root scope, as a pass loads them. -/
def World.rootRows (w : World) : List NodeRun := w.listNodeRunsInScope w.rootScopeId

/-- A Running control row of the root scope with its node. -/
structure SwiftRow (loaded : World) (row : NodeRun) (node : WorkflowGraphNode) : Prop where
  run_running : loaded.run.status = .running
  row_mem : row ∈ loaded.rootRows
  row_running : row.status = .running
  node_eq : g.node row.nodeId = some node
  swift : node.nodeType.runtime = some .swift

/-- The answer a control node of the root scope completes with. -/
def swiftAnswer (loaded : World) (row : NodeRun) (node : WorkflowGraphNode) :
    Except String String :=
  completeRunning node row loaded.run.input loaded.run.payload.variablePool loaded.rootRows

/-- The states a pass goes through while it completes the control rows it loaded: only an absorbed
failure lets it go on. -/
inductive SwiftPass (loaded : World) : World → Prop where
  | refl : SwiftPass loaded loaded
  | complete {w w' : World} {row : NodeRun} {node : WorkflowGraphNode} {output : String} {now : Int}
      (before : SwiftPass loaded w) (hrow : SwiftRow g loaded row node)
      (answer : swiftAnswer loaded row node = .ok output)
      (commits : Commits (completeNode row.id (some output) none now) w w') : SwiftPass loaded w'
  | absorb {w w' : World} {row : NodeRun} {node : WorkflowGraphNode} {failure : NodeFailure}
      {now : Int} (before : SwiftPass loaded w) (hrow : SwiftRow g loaded row node)
      (region : regionFailurePropagation g.toFlatGraph row.nodeId = .composite)
      (commits : Commits (failNode row.id failure .composite now) w w') : SwiftPass loaded w'

structure Plans (w : World) (row : NodeRun) (node : WorkflowGraphNode)
    (plan : CompositeAdvancePlan) : Prop where
  run_running : w.run.status = .running
  row_mem : row ∈ w.rootRows
  row_running : row.status = .running
  node_eq : g.node row.nodeId = some node
  composite : node.nodeType.runtime = some .composite
  plan_eq : IterationRuntime.planAdvance node g.toFlatGraph w.rootRows w.run.payload = .ok plan

/-- A Running Loop with its configuration and body. -/
structure LoopRow (w : World) (row : NodeRun) (config : LoopConfig) (body : FlatGraph) : Prop where
  run_running : w.run.status = .running
  row_mem : row ∈ w.rootRows
  row_running : row.status = .running
  isLoop : ∃ node, g.node row.nodeId = some node ∧ node.nodeType.runtime = some .scopedLoop
  body_eq : g.loopBody row.nodeId = some (config, body)

/-- A Running Loop and its active round, with no exit requested. -/
structure OpenRound (w : World) (row : NodeRun) (config : LoopConfig) (body : FlatGraph)
    (round : LoopRound) : Prop extends LoopRow g w row config body where
  round_eq : w.findActiveLoopRound row.id = some round
  no_exit : round.state.exit = none

def roundProjection (w : World) (body : FlatGraph) (round : LoopRound) : BranchProjection :=
  BranchProjection.new body (w.listNodeRunsInScope round.id) round.state.conditionDecisions

structure Prepared (row : NodeRun) (body : FlatGraph) (index : Nat) (pool : WorkflowVariablePool)
    (next : LoopRoundToStart) : Prop where
  parent : next.parentLoopNodeRunId = row.id
  index : next.roundIndex = index
  state : next.state = ⟨pool, ∅, none⟩
  start_scope : next.startNodeRun.scopeId = next.id
  start_node : ∃ start, body.startNode = some start ∧ next.startNodeRun.nodeId = start.id ∧
    next.startNodeRun.nodeType = start.nodeType
  start_iteration : next.startNodeRun.iteration = none

/-- A control row of a Loop round with its node. -/
structure RoundSwiftRow (w : World) (row : NodeRun) (body : FlatGraph) (round : LoopRound)
    (controlRow : NodeRun) (node : WorkflowGraphNode) : Prop where
  openRound : ∃ config, OpenRound g w row config body round
  row_mem : controlRow ∈ w.listNodeRunsInScope round.id
  row_running : controlRow.status = .running
  node_eq : body.node controlRow.nodeId = some node
  swift : node.nodeType.runtime = some .swift

/-- The pool an attempt of the scope is dispatched with. -/
def PoolOf (w : World) (scopeId : String) (pool : WorkflowVariablePool) : Prop :=
  pool = w.run.payload.variablePool ∨
    ∃ round ∈ w.rounds, round.id = scopeId ∧ pool = round.state.variablePool

def outerProjection (w : World) : BranchProjection :=
  BranchProjection.new g.toFlatGraph w.listNodeRuns w.run.payload.resolvedConditionDecisions

/-- Should the row be there, it is of an agent that was dispatched. -/
def Dispatched (w : World) (id : String) : Prop :=
  ∀ row, w.findNodeRunById id = some row → row.nodeType = .agent ∧ row.isWaiting = false

/-- The policy of the attempt's node grants it another one. -/
structure Retries (row : NodeRun) (failure : NodeFailure) (retry : NodeRetryToSchedule) : Prop where
  agent : row.nodeType = .agent
  granted : ∃ node policy, g.executionNode row.nodeId = some node ∧
    node.nodeType.runtime = some .async ∧ retryPolicy node = some policy ∧
    policy.nextRetry failure.kind ((row.payload.autoRetry.map (·.retry)).getD 0) =
      some retry.retry ∧ retry.maxRetries = policy.maxRetries

/-- Why a Loop advances the way it does, in terms of the state it was decided in. -/
def AdvanceGuard (w : World) (scopeId : String) : LoopRoundAdvance → Prop
  | .requestExit nodeRunId result => ∃ row config body round, OpenRound g w row config body round ∧
      round.id = scopeId ∧
      result = (config.exitOutputs round.state.variablePool).mapError (·.message) ∧
      ∃ exitRow, Engine.runningExit body (w.listNodeRunsInScope round.id) = some exitRow ∧
        exitRow.id = nodeRunId
  | .continue next => ∃ row config body round, OpenRound g w row config body round ∧
      round.id = scopeId ∧ Engine.readyLoopNodes (roundProjection w body round) = [] ∧
      (roundProjection w body round).hasInFlight = false ∧
      ∃ carried pool, config.completeRound round.roundIndex round.state.variablePool =
          .ok (.continue carried) ∧
        g.loopRoundPool row.nodeId w.run.payload.variablePool carried = .ok pool ∧
        Prepared row body (round.roundIndex + 1) pool next
  | .succeed outputs reason =>
      (∃ row config body round, OpenRound g w row config body round ∧ round.id = scopeId ∧
        (roundProjection w body round).hasInFlight = false ∧
        config.completeRound round.roundIndex round.state.variablePool =
          .ok (.succeeded outputs reason)) ∨
      ∃ parentId round exit, w.findActiveLoopRound parentId = some round ∧ round.id = scopeId ∧
        round.state.exit = some exit ∧ exit.result = .ok outputs ∧ reason = .loopExit
  | .fail _ => True

/-- What the engine has established about the state when an event is journalled. -/
def Guard (w : World) : Event → Prop
  | .pass => w.run.status = .running
  | .evaluate id loaded pool =>
      (∃ row node, SwiftPass g loaded w ∧ SwiftRow g loaded row node ∧ row.id = id ∧
        pool = loaded.run.payload.variablePool) ∨
      ∃ row body round controlRow node, RoundSwiftRow g loaded row body round controlRow node ∧
        controlRow.id = id ∧ pool = round.state.variablePool
  | .dispatch id nodeId pool => ∃ row ∈ w.rows, row.isLive = true ∧ row.id = id ∧
      row.nodeId = nodeId ∧ row.payload = .empty ∧ PoolOf w row.scopeId pool
  | .wake id nodeId pool => ∃ row ∈ w.rows, row.isLive = true ∧ row.id = id ∧
      row.nodeId = nodeId ∧ PoolOf w row.scopeId pool
  | .startRun start _ => ∃ node, g.startNode = some node ∧
      Engine.validateStart g node w.run.payload.variablePool = none ∧
      Materialized w.rootScopeId none [node] [start]
  | .startReadyNodes starts _ => w.run.status = .running ∧
      (((outerProjection g w).readyNodes ≠ [] ∧
          Materialized w.rootScopeId none (outerProjection g w).readyNodes starts) ∨
        ∃ row node nodeIds, Plans g w row node (.startRegionNodes nodeIds) ∧
          Materialized w.rootScopeId (regionRowsRound g.toFlatGraph row.nodeId w.rootRows)
            (nodeIds.filterMap g.node) starts)
  | .completeNode .callback id _ _ _ => Dispatched w id
  | .completeNode (.control loaded) id output structured _ => structured = none ∧
      ((∃ row node text, SwiftPass g loaded w ∧ SwiftRow g loaded row node ∧ row.id = id ∧
          output = some text ∧ swiftAnswer loaded row node = .ok text) ∨
        ∃ row body round controlRow node text,
          RoundSwiftRow g loaded row body round controlRow node ∧ loaded.Retains w ∧
          controlRow.id = id ∧ output = some text)
  | .failNode id _ propagation _ => propagation = .composite →
      (∃ row, w.findNodeRunById id = some row ∧ row.iteration.isSome = true ∧
        regionFailurePropagation g.toFlatGraph row.nodeId = .composite) ∨
      ∃ loaded row node, SwiftPass g loaded w ∧ SwiftRow g loaded row node ∧ row.id = id ∧
        regionFailurePropagation g.toFlatGraph row.nodeId = .composite
  | .transition id source target => Dispatched w id ∧
      (∀ row, w.findNodeRunById id = some row → Engine.isInteractive g row.nodeId = true) ∧
      ((source = .running ∧ target = .pending) ∨ (source = .pending ∧ target = .running))
  | .startIterationRound ownerId round item starts _ => ∃ row node nodeIds,
      Plans g w row node (.startRound round item nodeIds) ∧ row.nodeId = ownerId ∧
      Materialized w.rootScopeId (some round) (nodeIds.filterMap g.node) starts
  | .settleIterationRound ownerId round entry continuation _ => ∃ row node plan,
      Plans g w row node (.settleRound round entry plan) ∧ row.nodeId = ownerId ∧
      match plan, continuation with
      | .startNextRound next item nodeIds, .startNextRound next' item' starts =>
          next' = next ∧ item' = item ∧
            Materialized w.rootScopeId (some next) (nodeIds.filterMap g.node) starts
      | .complete exposed output, .complete exposed' output' =>
          exposed' = exposed ∧ output' = output
      | .fail error, .fail error' => error' = error
      | _, _ => False
  | .completeIterationNode id ownerId exposed output _ => ∃ row node,
      Plans g w row node (.completeNode exposed output) ∧ row.id = id ∧ row.nodeId = ownerId
  | .startLoopRound start _ => ∃ row config body carried pool, LoopRow g w row config body ∧
      w.findActiveLoopRound row.id = none ∧
      config.initializeCarried w.run.payload.variablePool = .ok carried ∧
      g.loopRoundPool row.nodeId w.run.payload.variablePool carried = .ok pool ∧
      Prepared row body 1 pool start
  | .startScopeReadyNodes scopeId starts _ => ∃ row config body round,
      OpenRound g w row config body round ∧ round.id = scopeId ∧
      Materialized round.id none (Engine.readyLoopNodes (roundProjection w body round)) starts
  | .advanceLoopRound scopeId advance _ => AdvanceGuard g w scopeId advance
  | .scheduleNodeRetry id failure retry _ => ∃ row, w.findNodeRunById id = some row ∧
      Retries g row failure retry
  | .beginNodeRetry _ _ => True
  | .failInterruptedNodeRuns ids _ => (w.run.status = .running ∨ w.run.status = .failed) ∧
      Engine.decideSweep g w = .absorbIntoComposite ids
  | .failOrphanedNodeRuns _ => w.run.status = .running ∨ w.run.status = .failed
  | .finishRun output _ => w.run.status = .running ∧ (outerProjection g w).readyNodes = [] ∧
      (outerProjection g w).hasInFlight = false ∧ output = computeRunOutput w.listNodeRuns
  | .cancelRun _ => True
  | .restartRun _ => True
  | .resumeFromFailure cleared => cleared = resumeClearNodeIds g w.listNodeRuns
  | .updateRunInput _ _ => True

def Step (w : World) (event : Event) (w' : World) : Prop := Guard g w event ∧ event.Effect w w'

end

end OraDesktop.Workflow
