import OraDesktop.Lib.Journal
import OraDesktop.Workflow.Runtime

/-!
# The workflow run engine

The operations of `WorkflowRunEngine` over one run, with the scheduling pass behind them. Calls are
serial for a run, and each is a sequence of repository transactions: what a call committed stays
when a later step of it fails, or when the process dies before the next one.

The frozen graph is a parameter: every operation parses the same text, and the histories below keep
it from the first call to the last. A switch to a newer snapshot between two calls is not one of
them; what it does to the pool is in `SnapshotSwitch`. The outside is an `Env`: the ids the
generators return, the clock, and whether the executor has already cleaned a Loop exit up.
`run_schedule` loops until the run is drained or waits; here it has fuel, and running out of it is
an error that no source function raises.

A callback concerns an attempt that was dispatched. Only agents are dispatched, and an attempt that
waits for its backoff was not yet, so callbacks for other rows are not calls (`callback`). Turns of a
human are taken in interactive attempts only (`humanTurn`).

## Main definitions

* `Event` — what the journal of a call records
* `Engine.runSchedule` — the scheduling loop
* `Op`, `Engine.execute` — the calls a run receives
-/

namespace OraDesktop.Workflow

open Repository Journal
open Proc (draw fail note)

/-- Why an attempt completes: its executor reports it, or the engine completes a control node
against the state it had loaded. -/
inductive Completion where
  | callback
  | control (loaded : World)

/-- What a call journals: its transactions, and the moments at which the engine reads the pool for
someone else. -/
inductive Event where
  /-- A scheduling pass starts over a Running run. -/
  | pass
  /-- A control node is completed against this pool of the loaded state. -/
  | evaluate (nodeRunId : String) (loaded : World) (pool : WorkflowVariablePool)
  /-- An agent attempt that was just inserted is handed to the executor with this pool. -/
  | dispatch (nodeRunId nodeId : String) (pool : WorkflowVariablePool)
  /-- An attempt whose backoff elapsed is handed to the executor with this pool. -/
  | wake (nodeRunId nodeId : String) (pool : WorkflowVariablePool)
  | startRun (start : NodeRunToStart) (now : Int)
  | startReadyNodes (starts : List NodeRunToStart) (now : Int)
  | completeNode (origin : Completion) (id : String) (output : Option String)
      (structured : Option Value) (now : Int)
  | failNode (id : String) (failure : NodeFailure) (propagation : FailurePropagation) (now : Int)
  | transition (id : String) (source target : WorkflowNodeStatus)
  | startIterationRound (ownerId : String) (round : Nat) (item : Value)
      (starts : List NodeRunToStart) (now : Int)
  | settleIterationRound (ownerId : String) (round : Nat) (entry : RoundOutcome)
      (continuation : IterationRoundContinuation) (now : Int)
  | completeIterationNode (id ownerId : String) (exposed : List (String × Value))
      (output : Option String) (now : Int)
  | startLoopRound (start : LoopRoundToStart) (now : Int)
  | startScopeReadyNodes (scopeId : String) (starts : List NodeRunToStart) (now : Int)
  | advanceLoopRound (scopeId : String) (advance : LoopRoundAdvance) (now : Int)
  | scheduleNodeRetry (id : String) (failure : NodeFailure) (retry : NodeRetryToSchedule)
      (now : Int)
  | beginNodeRetry (id : String) (now : Int)
  | failInterruptedNodeRuns (ids : List String) (now : Int)
  | failOrphanedNodeRuns (now : Int)
  | finishRun (output : Option String) (now : Int)
  | cancelRun (now : Int)
  | restartRun (newRootScopeId : String)
  | resumeFromFailure (cleared : List String)
  | updateRunInput (input : Option String) («variables» : Map String Value)

/-- The attempt whose retry an event dispatches. -/
def Event.wakes : Event → Option String
  | .wake id _ _ => some id
  | _ => none

def Event.reopens : Event → Bool
  | .restartRun _ | .resumeFromFailure _ => true
  | _ => false

/-- `EngineError`, as far as a run that exists and whose graph parses raises it. -/
inductive EngineError where
  | repository (error : RepositoryError)
  | validation (error : WorkflowValidationError)
  | outOfFuel

/-- The engine's computations. A call may be cut off after any commit, so each transaction is
journalled on its own. -/
abbrev Engine := Proc World Event EngineError

/-- What the outside supplies, by the number of earlier requests in a call. -/
structure Env where
  nodeRunId : Nat → String
  scopeId : Nat → String
  clock : Nat → Int
  /-- The executor has no live work left in an exited round. -/
  cleanupComplete : Nat → Bool

namespace Engine

/-- Runs one transaction; only a commit changes the persisted state. -/
def transact {ρ : Type} (event : Event) (tx : Transaction ρ) : Engine ρ := do
  let w ← Proc.get
  match tx w with
  | .error e => fail (.repository e)
  | .ok (.rollback result) => pure result
  | .ok (.commit result w') => do
    Proc.commit event w'
    pure result

section

variable (env : Env)

def generateNodeRunId : Engine String := do
  let n ← draw
  pure (env.nodeRunId n)

def generateScopeId : Engine String := do
  let n ← draw
  pure (env.scopeId n)

/-- `now_timestamp_millis`. -/
def now : Engine Int := do
  let n ← draw
  pure (env.clock n)

/-- One `NodeRunToStart` for each node, with a generated id. -/
def materialize (scopeId : String) (input : WorkflowGraphNode → Option String)
    (iteration : Option Nat) : List WorkflowGraphNode → Engine (List NodeRunToStart)
  | [] => pure []
  | node :: rest => do
    let id ← generateNodeRunId env
    let starts ← materialize scopeId input iteration rest
    pure (⟨id, scopeId, node.id, node.nodeType, input node, iteration⟩ :: starts)

end

/-- `AsyncNodeRuntime::dispatch` for the rows whose node is asynchronous; each sees the pool the
given computation reads. -/
def dispatchStarted (graph : FlatGraph) (pool : Engine WorkflowVariablePool) :
    List NodeRunToStart → Engine Unit
  | [] => pure ()
  | start :: rest => do
    if (graph.node start.nodeId).any (·.nodeType.runtime == some .async) then
      let pool ← pool
      note (.dispatch start.id start.nodeId pool)
    dispatchStarted graph pool rest

section

variable [JsonText] (g : WorkflowGraph) (env : Env)

/-! ### Swift completions -/

inductive SwiftOutcome where
  | idle
  | completed
  | stop

/-- The loop over the Running swift rows of a pass, against what was loaded when it started. -/
def completeSwift (loaded : World) (nodeRuns : List NodeRun) (now : Int) :
    List NodeRun → Bool → Engine SwiftOutcome
  | [], completed => pure (if completed then .completed else .idle)
  | row :: rest, completed =>
    match g.node row.nodeId with
    | none => completeSwift loaded nodeRuns now rest completed
    | some node =>
      if row.status ≠ .running ∨ node.nodeType.runtime ≠ some .swift then
        completeSwift loaded nodeRuns now rest completed
      else do
        let pool := loaded.run.payload.variablePool
        note (.evaluate row.id loaded pool)
        match completeRunning node row loaded.run.input pool nodeRuns with
        | .ok output => do
          let _ ← transact (.completeNode (.control loaded) row.id (some output) none now)
            (Repository.completeNode row.id (some output) none now)
          completeSwift loaded nodeRuns now rest true
        | .error message => do
          let propagation := regionFailurePropagation g.toFlatGraph row.nodeId
          let failure := NodeFailure.fromRuntime node.nodeType message
          let _ ← transact (.failNode row.id failure propagation now)
            (Repository.failNode row.id failure propagation now)
          -- an absorbed failure settles as a failed round on the next pass
          if propagation = .composite then completeSwift loaded nodeRuns now rest true
          else pure .stop

/-! ### Iteration -/

/-- The rows an Iteration starts, each with the round it belongs to. -/
def materializeRound (loaded : World) (round : Option Nat) (nodeIds : List String) :
    Engine (List NodeRunToStart) :=
  materialize env loaded.rootScopeId (startInput · loaded.run.input) round
    (nodeIds.filterMap g.node)

/-- The continuation of a settled round with its rows, and those rows. -/
def materializeContinuation (loaded : World) :
    CompositeContinuation → Engine (IterationRoundContinuation × List NodeRunToStart)
  | .startNextRound next item nodeIds => do
    let starts ← materializeRound g env loaded (some next) nodeIds
    pure (.startNextRound next item starts, starts)
  | .complete exposed output => pure (.complete exposed output, [])
  | .fail error => pure (.fail error, [])

/-- Dispatches what a plan started, each row with the pool as it is then. -/
def dispatchRefreshed (starts : List NodeRunToStart) : Engine Unit :=
  dispatchStarted g.toFlatGraph (do
    let refreshed ← Proc.get
    pure refreshed.run.payload.variablePool) starts

/-- A round transaction and the dispatch of the rows it started. -/
def commitRound (event : Event) (tx : Transaction AdvanceWorkflowRunResult)
    (starts : List NodeRunToStart) : Engine Bool := do
  match ← transact event tx with
  | .advanced => do
    dispatchRefreshed g starts
    pure true
  | _ => pure false

/-- `execute_composite_plan` with the dispatch of what it started: whether a transition was made. -/
def executeCompositePlan (loaded : World) (row : NodeRun) (nodeRuns : List NodeRun)
    (plan : CompositeAdvancePlan) (now : Int) : Engine Bool :=
  match plan with
  | .noop => pure false
  | .startRound round item nodeIds => do
    let starts ← materializeRound g env loaded (some round) nodeIds
    commitRound g (.startIterationRound row.nodeId round item starts now)
      (startIterationRound row.nodeId round item starts now) starts
  | .startRegionNodes nodeIds => do
    let round := regionRowsRound g.toFlatGraph row.nodeId nodeRuns
    let starts ← materializeRound g env loaded round nodeIds
    transact (.startReadyNodes starts now) (startReadyNodes starts now)
    dispatchRefreshed g starts
    pure true
  | .settleRound round entry continuation => do
    let (continuation, starts) ← materializeContinuation g env loaded continuation
    commitRound g (.settleIterationRound row.nodeId round entry continuation now)
      (settleIterationRound row.nodeId round entry continuation now) starts
  | .completeNode exposed output =>
    commitRound g (.completeIterationNode row.id row.nodeId exposed output now)
      (completeIterationNode row.id row.nodeId exposed output now) []
  | .failNode error =>
    let failure := NodeFailure.new .invalidRunPayload error
    commitRound g (.failNode row.id failure .run now) (Repository.failNode row.id failure .run now) []

/-! ### Loops -/

inductive LoopScheduleOutcome where
  | progressed
  | waiting

/-- A Loop that cannot go on fails with its run: there is no region that could absorb the
failure. -/
def failLoopNode (row : NodeRun) (message : String) (now : Int) : Engine LoopScheduleOutcome := do
  let failure := NodeFailure.new .invalidRunPayload message
  let _ ← transact (.failNode row.id failure .run now) (Repository.failNode row.id failure .run now)
  pure .progressed

/-- The rows and the pool a round starts with, drawn up before the transaction that inserts them. -/
def prepareLoopRound (row : NodeRun) (body : FlatGraph) (roundIndex : Nat)
    (pool : WorkflowVariablePool) : Engine LoopRoundToStart :=
  match body.startNode with
  | none => fail (.validation .missingStartNode)
  | some start => do
    let scopeId ← generateScopeId env
    let id ← generateNodeRunId env
    pure
      { id := scopeId
        parentLoopNodeRunId := row.id
        roundIndex
        state := ⟨pool, ∅, none⟩
        startNodeRun := ⟨id, scopeId, start.id, start.nodeType, none, none⟩ }

/-- `advance_loop_round`, whose result the scheduler ignores. -/
def advanceRound (scopeId : String) (advance : LoopRoundAdvance) (now : Int) :
    Engine LoopScheduleOutcome := do
  let _ ← transact (.advanceLoopRound scopeId advance now)
    (advanceLoopRound scopeId advance now)
  pure .progressed

/-- `complete_loop_controls`: the swift rows of a round, against the round's own state. -/
def completeLoopControls (body : FlatGraph) (loaded : World) (state : LoopRoundExecutionState)
    (nodeRuns : List NodeRun) (now : Int) : List NodeRun → Bool → Engine Bool
  | [], progressed => pure progressed
  | row :: rest, progressed =>
    match body.node row.nodeId with
    | none => completeLoopControls body loaded state nodeRuns now rest progressed
    | some node =>
      if row.status ≠ .running ∨ node.nodeType.runtime ≠ some .swift then
        completeLoopControls body loaded state nodeRuns now rest progressed
      else do
        note (.evaluate row.id loaded state.variablePool)
        match completeRunning node row none state.variablePool nodeRuns with
        | .ok output => do
          let _ ← transact (.completeNode (.control loaded) row.id (some output) none now)
            (Repository.completeNode row.id (some output) none now)
          completeLoopControls body loaded state nodeRuns now rest true
        | .error message => do
          let failure := NodeFailure.fromRuntime node.nodeType message
          let _ ← transact (.failNode row.id failure .run now)
            (Repository.failNode row.id failure .run now)
          pure true

/-- `settle_loop_exit`: an acknowledgement for anything but the exited active round is ignored. -/
def settleLoopExit (parentId scopeId : String) (result : Except String Unit) : Engine Unit := do
  let w ← Proc.get
  match w.findActiveLoopRound parentId with
  | none => pure ()
  | some round =>
    if round.id ≠ scopeId then pure ()
    else match round.state.exit with
      | none => pure ()
      | some exit => do
        let advance : LoopRoundAdvance := match result with
          | .error e => .fail e
          | .ok () => match exit.result with
            | .ok outputs => .succeed outputs .loopExit
            | .error e => .fail e
        let now ← now env
        let _ ← transact (.advanceLoopRound scopeId advance now)
          (advanceLoopRound scopeId advance now)
        pure ()

def driveLoopExitCleanup (row : NodeRun) (round : LoopRound) : Engine LoopScheduleOutcome := do
  let n ← draw
  if env.cleanupComplete n then
    settleLoopExit env row.id round.id (.ok ())
    pure .progressed
  else pure .waiting

def startFirstRound (config : LoopConfig) (body : FlatGraph) (row : NodeRun)
    (outerPool : WorkflowVariablePool) (now : Int) : Engine LoopScheduleOutcome :=
  match config.initializeCarried outerPool with
  | .error e => failLoopNode row e.message now
  | .ok carried =>
    match g.loopRoundPool row.nodeId outerPool carried with
    | .error e => failLoopNode row e.message now
    | .ok pool => do
      let round ← prepareLoopRound env row body 1 pool
      transact (.startLoopRound round now) (startLoopRound round now)
      pure .progressed

/-- The end of a round with nothing left to run: the next round, success or failure. -/
def completeLoopRound (config : LoopConfig) (body : FlatGraph) (row : NodeRun) (round : LoopRound)
    (outerPool : WorkflowVariablePool) (now : Int) : Engine LoopScheduleOutcome :=
  match config.completeRound round.roundIndex round.state.variablePool with
  | .error e => advanceRound round.id (.fail e.message) now
  | .ok (.succeeded outputs reason) => advanceRound round.id (.succeed outputs reason) now
  | .ok (.continue carried) =>
    match g.loopRoundPool row.nodeId outerPool carried with
    | .error e => advanceRound round.id (.fail e.message) now
    | .ok pool => do
      let next ← prepareLoopRound env row body (round.roundIndex + 1) pool
      advanceRound round.id (.continue next) now

/-- The ready nodes of a round; a reachable exit is started alone. -/
def readyLoopNodes (projection : BranchProjection) : List WorkflowGraphNode :=
  match projection.readyNodes.find? (·.nodeType.requestsLoopExit) with
  | some exit => [exit]
  | none => projection.readyNodes

def runningExit (body : FlatGraph) (nodeRuns : List NodeRun) : Option NodeRun :=
  nodeRuns.find? fun r => r.status == .running &&
    (body.node r.nodeId).any (·.nodeType.requestsLoopExit)

/-- One pass over a Loop: an exit goes before everything else, then control nodes, then ready nodes,
and only a drained round is completed. -/
def runLoopSchedule (row : NodeRun) (outerPool : WorkflowVariablePool) (now : Int) :
    Engine LoopScheduleOutcome :=
  match g.loopBody row.nodeId with
  | none => failLoopNode row ("Loop " ++ row.nodeId ++ " has no executable body") now
  | some (config, body) => do
    let w ← Proc.get
    match w.findActiveLoopRound row.id with
    | none => startFirstRound g env config body row outerPool now
    | some round =>
      if round.state.exit.isSome then driveLoopExitCleanup env row round
      else
        let nodeRuns := w.listNodeRunsInScope round.id
        match runningExit body nodeRuns with
        | some exit =>
          advanceRound round.id (.requestExit exit.id
            ((config.exitOutputs round.state.variablePool).mapError (·.message))) now
        | none => do
          if ← completeLoopControls body w round.state nodeRuns now nodeRuns false then
            return .progressed
          let w ← Proc.get
          let projection := BranchProjection.new body (w.listNodeRunsInScope round.id)
            round.state.conditionDecisions
          let ready := readyLoopNodes projection
          if !ready.isEmpty then
            let starts ← materialize env round.id (fun _ => none) none ready
            transact (.startScopeReadyNodes round.id starts now)
              (startScopeReadyNodes round.id starts now)
            dispatchStarted body (pure round.state.variablePool) starts
            return .progressed
          if projection.hasInFlight then return .waiting
          completeLoopRound g env config body row round outerPool now

/-! ### The scheduling pass -/

/-- `advance_composites`: the first Running composite that can move, moves. -/
def advanceComposites (loaded : World) (nodeRuns : List NodeRun) (now : Int) :
    List NodeRun → Engine Bool
  | [] => pure false
  | row :: rest =>
    match g.node row.nodeId with
    | none => advanceComposites loaded nodeRuns now rest
    | some node =>
      if row.status ≠ .running then advanceComposites loaded nodeRuns now rest
      else match node.nodeType.runtime with
        | some .scopedLoop => do
          match ← runLoopSchedule g env row loaded.run.payload.variablePool now with
          | .progressed => pure true
          | .waiting => advanceComposites loaded nodeRuns now rest
        | some .composite =>
          match IterationRuntime.planAdvance node g.toFlatGraph nodeRuns loaded.run.payload with
          | .error message => do
            let failure := NodeFailure.fromRuntime node.nodeType message
            let _ ← transact (.failNode row.id failure .run now)
              (Repository.failNode row.id failure .run now)
            pure true
          | .ok plan => do
            if ← executeCompositePlan g env loaded row nodeRuns plan now then pure true
            else advanceComposites loaded nodeRuns now rest
        | _ => advanceComposites loaded nodeRuns now rest

/-- The end of a pass in which nothing moved: start the ready nodes, or finish a drained run. The
answer says whether another pass follows. -/
def startReadyWave (pool : WorkflowVariablePool) (now : Int) : Engine Bool := do
  let w ← Proc.get
  let nodeRuns := w.listNodeRuns
  let projection := BranchProjection.new g.toFlatGraph nodeRuns
    w.run.payload.resolvedConditionDecisions
  let ready := projection.readyNodes
  if ready.isEmpty then
    if !projection.hasInFlight then
      let output := computeRunOutput nodeRuns
      transact (.finishRun output now) (finishRun output now)
    return false
  let starts ← materialize env w.rootScopeId (startInput · w.run.input) none ready
  transact (.startReadyNodes starts now) (startReadyNodes starts now)
  -- the pool loaded when the pass started, not the refreshed one
  dispatchStarted g.toFlatGraph (pure pool) starts
  return true

/-- One pass of `run_schedule`; the answer says whether another follows. -/
def schedulePass (now : Int) : Engine Bool := do
  let loaded ← Proc.get
  if loaded.run.status ≠ .running then return false
  note .pass
  let nodeRuns := loaded.listNodeRunsInScope loaded.rootScopeId
  match ← completeSwift g loaded nodeRuns now nodeRuns false with
  | .stop => return false
  | .completed => return true
  | .idle =>
    if ← advanceComposites g env loaded nodeRuns now nodeRuns then return true
    startReadyWave g env loaded.run.payload.variablePool now

/-- The loop of `run_schedule`. It ends when a pass moves nothing; the source has no bound, and here
fuel stands for one. -/
def scheduleLoop (now : Int) : Nat → Engine Unit
  | 0 => fail .outOfFuel
  | fuel + 1 => do
    if ← schedulePass g env now then scheduleLoop now fuel

/-- Passes are made until nothing moves, all with the time that was read before the first. -/
def runSchedule (fuel : Nat) : Engine Unit := do
  let now ← now env
  scheduleLoop g env now fuel

/-! ### Operations -/

/-- The checks `start` makes before its transaction. -/
def validateStart (start : WorkflowGraphNode) (pool : WorkflowVariablePool) :
    Option WorkflowValidationError :=
  ((g.firstUnsupportedNode.map fun node => .unsupportedNodeType node.id node.nodeType).or
    (if g.unreachableFromStart.isEmpty then none
      else some (.unreachableNodes g.unreachableFromStart))).or
    ((validateExecutableGraph g).or (validateStartInputs start pool))

/-- The checks come before the transaction, so a run that is refused stays Pending. -/
def start (fuel : Nat) : Engine Unit :=
  match g.startNode with
  | none => fail (.validation .missingStartNode)
  | some startNode => do
    let w ← Proc.get
    match validateStart g startNode w.run.payload.variablePool with
    | some e => fail (.validation e)
    | none => do
      let id ← generateNodeRunId env
      let row : NodeRunToStart :=
        ⟨id, w.rootScopeId, startNode.id, startNode.nodeType, startInput startNode w.run.input, none⟩
      let now ← now env
      match ← transact (.startRun row now) (startRun row now) with
      | .started => runSchedule g env fuel
      | .current => pure ()

def cancel : Engine Unit := do
  let now ← now env
  let _ ← transact (.cancelRun now) (cancelRun now)
  pure ()

/-- What is cleared is computed from the rows that were read before; the transaction checks the
status again, but not that set. -/
def resumeFromFailure (fuel : Nat) : Engine Unit := do
  let w ← Proc.get
  if w.run.status ≠ .failed ∧ w.run.status ≠ .cancelled then return ()
  let cleared := resumeClearNodeIds g w.listNodeRuns
  if cleared.isEmpty then return ()
  match ← transact (.resumeFromFailure cleared) (Repository.resumeFromFailure cleared) with
  | .resumed => runSchedule g env fuel
  | .notResumable => pure ()

/-- `WorkflowRunEngine::restart`; the argument is the new root scope's random id. -/
def restart (newRootScopeId : String) (fuel : Nat) : Engine Unit := do
  match ← transact (.restartRun newRootScopeId) (restartRun newRootScopeId) with
  | .restarted => start g env fuel
  | .notRestartable => pure ()

def updateRunInput (input : Option String) («variables» : Map String Value) : Engine Unit := do
  let _ ← transact (.updateRunInput input «variables»)
    (Repository.updateRunInput input «variables»)
  pure ()

/-- An attempt that is no longer active has nothing to report: its callback came too late and is
ignored. -/
def completeNode (id : String) (output : Option String) (structured : Option Value) (fuel : Nat) :
    Engine Unit := do
  let now ← now env
  match ← transact (.completeNode .callback id output structured now)
      (Repository.completeNode id output structured now) with
  | .advanced => runSchedule g env fuel
  | _ => pure ()

/-- `try_schedule_retry`: whether the failure is dealt with by a waiting attempt. -/
def trySchedulingRetry (row : NodeRun) (failure : NodeFailure) (now : Int) : Engine Bool := do
  let w ← Proc.get
  if row.status ≠ .running ∨ w.run.status ≠ .running then return false
  match g.executionNode row.nodeId with
  | none => return false
  | some node =>
    if node.nodeType.runtime ≠ some .async then return false
    match retryPolicy node with
    | none => return false
    | some policy =>
      match policy.nextRetry failure.kind ((row.payload.autoRetry.map (·.retry)).getD 0) with
      | none => return false
      | some retry => do
        let delayMs : Int := policy.waitSeconds retry * 1000
        let id ← generateNodeRunId env
        let waiting : NodeRetryToSchedule :=
          ⟨id, retry, policy.maxRetries, delayMs, min (now + delayMs) (2 ^ 63 - 1)⟩
        match ← transact (.scheduleNodeRetry row.id failure waiting now)
            (scheduleNodeRetry row.id failure waiting now) with
        | .runNotActive => pure false
        | _ => pure true

/-- A failure in a round of an Iteration may be the round's own; everywhere else it is the run's. -/
def failurePropagation (row : NodeRun) : FailurePropagation :=
  if row.iteration.isNone then .run else regionFailurePropagation g.toFlatGraph row.nodeId

/-- `WorkflowRunEngine::fail_node`. An error while deciding a retry counts as no retry. -/
def failNode (id : String) (failure : NodeFailure) (fuel : Nat) : Engine Unit := do
  let w ← Proc.get
  match w.findNodeRunById id with
  | none => pure ()
  | some row => do
    let now ← now env
    if ← (trySchedulingRetry g env row failure now).recover false then return ()
    let propagation := failurePropagation g row
    match ← transact (.failNode id failure propagation now)
        (Repository.failNode id failure propagation now) with
    | .advanced => if propagation = .composite then runSchedule g env fuel
    | _ => pure ()

/-- `dispatch_started_retry`: the scope a waiting attempt belongs to and its pool, if it still
runs. -/
def retryTarget (w : World) (row : NodeRun) : Option (FlatGraph × WorkflowVariablePool) :=
  if row.scopeId = w.rootScopeId then some (g.toFlatGraph, w.run.payload.variablePool)
  else (w.listNodeRunsInScope w.rootScopeId).findSome? fun loopRow =>
    if loopRow.status ≠ .running then none
    else (g.loopBody loopRow.nodeId).bind fun body =>
      (w.findActiveLoopRound loopRow.id).bind fun round =>
        if round.id = row.scopeId then some (body.2, round.state.variablePool) else none

/-- The wait is ended first, in a transaction of its own. An attempt without a target afterwards
fails, since nobody would run it. -/
def wakeRetry (id : String) (fuel : Nat) : Engine Unit := do
  let now ← now env
  match ← transact (.beginNodeRetry id now) (beginNodeRetry id now) with
  | .started row => do
    let w ← Proc.get
    match (retryTarget g w row).bind fun target =>
        (target.1.node row.nodeId).map fun node => (node, target.2) with
    | some (node, pool) =>
      if node.nodeType.runtime = some .async then
        note (.wake row.id row.nodeId pool)
        return ()
    | none => pure ()
    failNode g env row.id (.new .invalidRunPayload
      ("retry of node " ++ row.nodeId ++ " has no executable target in its scope")) fuel
  | _ => pure ()

/-- The executor acknowledges that nothing is left of a round, whether or not it succeeded in
cleaning up. -/
def finishLoopExit (parentId scopeId : String) (result : Except String Unit) (fuel : Nat) :
    Engine Unit := do
  settleLoopExit env parentId scopeId result
  runSchedule g env fuel

/-- A callback about an attempt: only agent attempts that do not wait have one. -/
def callback (id : String) (m : Engine Unit) : Engine Unit := do
  let w ← Proc.get
  if (w.findNodeRunById id).all fun row => row.nodeType == .agent && !row.isWaiting then m

/-- The node is configured for turns with a human. -/
def isInteractive (nodeId : String) : Bool :=
  (g.executionNode nodeId).any fun node => node.agentConfig.any (·.interactive)

/-- A turn of an interactive attempt begins or ends. -/
def humanTurn (id : String) (source target : WorkflowNodeStatus) : Engine Unit := do
  let w ← Proc.get
  if (w.findNodeRunById id).all fun row => isInteractive g row.nodeId then
    let _ ← transact (.transition id source target)
      (transitionNodeRunStatus id source target)

/-! ### The sweep after a crash -/

/-- `pending_loop_exits`: Running Loops whose exit only waits for its cleanup. -/
def pendingLoopExits (w : World) : List String :=
  (w.listNodeRuns.filter fun row => row.nodeType == .loop && row.status == .running &&
    (w.findActiveLoopRound row.id).any (·.state.exit.isSome)).map (·.id)

/-- What becomes of a run whose process has ended: nothing of it can be running any more. -/
inductive SweepDecision where
  | skip
  | absorbIntoComposite (interrupted : List String)
  | failRun

/-- `is_composite`. -/
def isCompositeRow (row : NodeRun) : Bool := row.nodeType == .iteration

/-- `decide_sweep`: a run survives when all its generating rows lie in the regions of Running
Iterations. -/
def decideSweep (w : World) : SweepDecision :=
  let exiting := pendingLoopExits w
  let running := w.listNodeRuns.filter fun row =>
    row.status == .running && !exiting.contains row.id
  let composites := (running.filter isCompositeRow).filterMap fun row => g.region row.nodeId
  let generating := running.filter fun row => !isCompositeRow row
  let inRegion := fun row : NodeRun => (g.regionOwner row.nodeId).any fun owner =>
    composites.any (·.ownerId == owner)
  if running.isEmpty then .skip
  else if composites.isEmpty || !generating.all inRegion then .failRun
  else .absorbIntoComposite (generating.map (·.id))

/-- `sweep_one_run` of a run that `list_recoverable_runs` lists. -/
def sweepOneRun : Engine Unit := do
  let w ← Proc.get
  if w.run.status ≠ .running ∧ w.run.status ≠ .failed then return ()
  let now ← now env
  match decideSweep g w with
  | .skip => pure ()
  | .absorbIntoComposite ids =>
    transact (.failInterruptedNodeRuns ids now) (failInterruptedNodeRuns ids now)
  | .failRun => transact (.failOrphanedNodeRuns now) (failOrphanedNodeRuns now)

end

end Engine

/-- The calls a run receives, from the user, the executor, the retry timer and the start of the
process. -/
inductive Op where
  | start
  | cancel
  | restart (newRootScopeId : String)
  | resumeFromFailure
  | updateRunInput (input : Option String) («variables» : Map String Value)
  | completeNode (id : String) (output : Option String) (structured : Option Value)
  | failNode (id : String) (failure : NodeFailure)
  | wakeRetry (id : String)
  | finishLoopExit (parentId scopeId : String) (result : Except String Unit)
  /-- An interactive attempt waits for its human: `park_node_run`, `restore_human_turn`. -/
  | park (id : String)
  /-- A human turn begins: `begin_human_turn`. -/
  | beginHumanTurn (id : String)
  /-- `WorkflowRunEngine::resume`: a bare scheduling pass. -/
  | resume
  /-- The process starts again: `run_workflow_run_boot_sweep` up to its reconciliation, which is a
  failed callback or a `resume`. -/
  | bootSweep

/-- One call with what the outside supplies during it. -/
structure Call where
  op : Op
  env : Env
  fuel : Nat

section

variable [JsonText] (g : WorkflowGraph)

def Engine.execute (call : Call) : Engine Unit :=
  match call.op with
  | .start => Engine.start g call.env call.fuel
  | .cancel => Engine.cancel call.env
  | .restart newRootScopeId => Engine.restart g call.env newRootScopeId call.fuel
  | .resumeFromFailure => Engine.resumeFromFailure g call.env call.fuel
  | .updateRunInput input vars => Engine.updateRunInput input vars
  | .completeNode id output structured =>
    callback id (Engine.completeNode g call.env id output structured call.fuel)
  | .failNode id failure => callback id (Engine.failNode g call.env id failure call.fuel)
  | .wakeRetry id => Engine.wakeRetry g call.env id call.fuel
  | .finishLoopExit parentId scopeId result =>
    Engine.finishLoopExit g call.env parentId scopeId result call.fuel
  | .park id => callback id (Engine.humanTurn g id .running .pending)
  | .beginHumanTurn id => callback id (Engine.humanTurn g id .pending .running)
  | .resume => Engine.runSchedule g call.env call.fuel
  | .bootSweep => Engine.sweepOneRun g call.env

end

end OraDesktop.Workflow
