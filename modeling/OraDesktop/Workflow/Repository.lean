import OraDesktop.Workflow.State

/-!
# The repository's transactions

Each function here is one database transaction of the engine's repository: it reads the persisted
state, and either commits a new one or returns without committing, which rolls back whatever it
wrote. An error rolls back as well and reaches the engine as an error.

A write the source skips because nothing changed is made unconditionally here: the state after it
is the same.

## Main definitions

* `Tx`, `Transaction` — a committed or rolled-back result
* `Repository.completeNode`, `Repository.failNode` — the two ways an attempt ends
* `Repository.startIterationRound`, `Repository.settleIterationRound`,
  `Repository.completeIterationNode` — Iteration rounds
* `Repository.startLoopRound`, `Repository.startScopeReadyNodes`, `Repository.advanceLoopRound` —
  Loop rounds
* `Repository.scheduleNodeRetry`, `Repository.beginNodeRetry` — automatic retries
* `Repository.failInterruptedNodeRuns`, `Repository.failOrphanedNodeRuns` — the sweep after a crash
* `Repository.startRun`, `Repository.finishRun`, `Repository.cancelRun`, `Repository.restartRun`,
  `Repository.resumeFromFailure`, `Repository.updateRunInput` — the run's own transitions
-/

namespace OraDesktop.Workflow

/-- How a transaction that raises no error ends. A rollback still has an answer, which the engine
may act on. -/
inductive Tx (ρ : Type) where
  | commit (result : ρ) (world : World)
  | rollback (result : ρ)

/-- One database transaction, as a function of the state it is run in: nothing interleaves with
it. -/
abbrev Transaction (ρ : Type) := World → Except RepositoryError (Tx ρ)

inductive AdvanceWorkflowRunResult where
  | advanced
  | notRunning
  | notFound

/-- How far a failure reaches: the whole run, or only the round of the Iteration around it. -/
inductive FailurePropagation where
  | run
  | composite
  deriving DecidableEq

def retryAbandoned : String := "\x7b\"reason\":\"retry_abandoned\"\x7d"

def interruptedByRestart : String := "\x7b\"reason\":\"interrupted_by_restart\"\x7d"

/-- The error `fail` gives a sibling in a Loop round that has none of its own. -/
def siblingFailed : String := "\x7b\"reason\":\"sibling_failed\"\x7d"

/-! ### Pool writes -/

section

variable (pool : WorkflowVariablePool) (selector writer : String) (value : Value)

/-- `write_pool_variable`: an undeclared variable is skipped. -/
def writePoolVariable : Except RepositoryError WorkflowVariablePool :=
  if selector ∈ pool.catalog then (pool.set selector writer value).mapError .pool else .ok pool

/-- `write_declared_pool_variable`: an undeclared variable is an error. -/
def writeDeclaredPoolVariable : Except RepositoryError WorkflowVariablePool :=
  (pool.set selector writer value).mapError .pool

end

/-- Writes a list of variables of one writer, each with the given write. -/
def writePoolVariables (write : WorkflowVariablePool → String → String → Value →
      Except RepositoryError WorkflowVariablePool) (writer : String) :
    List (String × Value) → WorkflowVariablePool → Except RepositoryError WorkflowVariablePool
  | [], pool => .ok pool
  | (selector, value) :: rest, pool => do
    let pool ← write pool selector writer value
    writePoolVariables write writer rest pool

section

variable [JsonText]

/-- The pool part of `update_run_execution_state` and `update_scope_execution_state`: what a
completed node's output writes. A condition's output is a routing decision, an aggregator's is
JSON text. -/
def writeNodeOutput (pool : WorkflowVariablePool) (nodeId : String) (nodeType : NodeType)
    (output : Option String) (structured : Option Value) :
    Except RepositoryError WorkflowVariablePool :=
  let writeText := fun (pool : WorkflowVariablePool) => match output with
    | some text => writePoolVariable pool (nodeId ++ ".output") nodeId (.str text)
    | none => .ok pool
  match nodeType with
  | .condition => .ok pool
  | .aggregator =>
    match output with
    | some text =>
      match JsonText.fromText text with
      | some value => writePoolVariable pool (nodeId ++ ".output") nodeId value
      | none => .error .json
    | none => .ok pool
  | .agent => do
    let pool ← writeText pool
    match structured with
    | some value => writePoolVariable pool (nodeId ++ ".structured_output") nodeId value
    | none => .ok pool
  | _ => writeText pool

/-- The decision a completed node records: its output, if it is a condition. -/
def nodeDecision (nodeType : NodeType) (output : Option String) : Option String :=
  if nodeType = .condition then output else none

def recordDecision (decisions : Map String String) (key : String) :
    Option String → Map String String
  | some branch => decisions.insert key branch
  | none => decisions

/-- The payload `update_run_execution_state` persists for a row of the root scope. -/
def updateRunExecutionState (payload : WorkflowRunPayload) (row : NodeRun)
    (output : Option String) (structured : Option Value) :
    Except RepositoryError WorkflowRunPayload := do
  let pool ← writeNodeOutput payload.variablePool row.nodeId row.nodeType output structured
  let decision := nodeDecision row.nodeType output
  return match row.iteration with
    | none => { payload with
        variablePool := pool
        conditionDecisions := recordDecision payload.conditionDecisions row.nodeId decision }
    | some round => { payload with
        variablePool := pool
        iterationConditionDecisions := recordDecision payload.iterationConditionDecisions
          (WorkflowRunPayload.iterationDecisionKey row.nodeId round) decision }

/-- The round state `update_scope_execution_state` persists for a row of a Loop round. -/
def updateScopeExecutionState (state : LoopRoundExecutionState) (row : NodeRun)
    (output : Option String) (structured : Option Value) :
    Except RepositoryError LoopRoundExecutionState := do
  let pool ← writeNodeOutput state.variablePool row.nodeId row.nodeType output structured
  return { state with
    variablePool := pool
    conditionDecisions := recordDecision state.conditionDecisions row.nodeId
      (nodeDecision row.nodeType output) }

/-! ### The end of an attempt -/

/-- Where `complete` puts what the node produced: the run payload, or its round's state while the
round is Running. -/
def World.recordCompletion (w : World) (row : NodeRun) (output : Option String)
    (structured : Option Value) : Except RepositoryError World :=
  if row.scopeId = w.rootScopeId then do
    let payload ← updateRunExecutionState w.run.payload row output structured
    return w.persistPayload payload
  else match w.findRound row.scopeId with
    | none => .error .incompleteWorkflowRunContext
    | some round => do
      let state ← updateScopeExecutionState round.state row output structured
      return w.updateRounds (fun r => r.id == round.id && r.status == .running)
        fun r => { r with state }

namespace Repository

/-- `scoped_node::complete`. The pool, the row and the current nodes change together, and only for
an active row. -/
def completeNode (id : String) (output : Option String) (structured : Option Value) (now : Int) :
    Transaction AdvanceWorkflowRunResult := fun w =>
  match w.findNodeRunById id with
  | none => .ok (.rollback .notFound)
  | some row =>
    if !row.status.isActive then .ok (.rollback .notRunning)
    else do
      let recorded ← w.recordCompletion row output structured
      let settled := recorded.updateRows (fun r => r.isLive && r.id == id) fun r => { r with
        status := .succeeded
        output := if r.nodeType = .condition then none else output
        finishedAt := some now }
      return .commit .advanced <|
        if row.scopeId = w.rootScopeId then
          settled.rewriteCurrentNodes (·.filter (· != row.nodeId))
        else settled

end Repository

end

namespace World

variable (w : World)

def persistFailedNodeRun (id : String) (failure : NodeFailure) (now : Int) : World :=
  w.updateRows (fun r => r.isLive && r.id == id) fun r => { r with
    status := .failed
    error := some failure.message
    output := failure.output
    payload := { r.payload with retryWait := none }
    finishedAt := some now }

/-- `settle_retry_waits`: no waiting attempt outlives its run. -/
def settleRetryWaits (status : WorkflowNodeStatus) (error : Option String) (now : Int) : World :=
  w.updateRows (fun r => r.isLive && r.status == .running && r.isWaiting) fun r => { r with
    status
    error := error.or r.error
    payload := { r.payload with retryWait := none }
    finishedAt := some now }

/-- The run becomes Failed with this error, if it is Running. -/
def failRunningRun (error : String) (now : Int) : World :=
  if w.run.status = .running then
    { w with run := { w.run with status := .failed, error := some error, finishedAt := some now } }
  else w

/-- What `fail` does to the Loop round an attempt failed in: siblings are cancelled, the round and
its Loop row fail. -/
def failRoundOf (row : NodeRun) (error : String) (now : Int) : World :=
  let siblings := w.updateRows
    (fun r => r.isLive && r.scopeId == row.scopeId && r.id != row.id && r.status.isActive)
    fun r => { r with
      status := .cancelled
      error := r.error.or (some siblingFailed)
      finishedAt := r.finishedAt.or (some now) }
  let closed := siblings.updateRounds (fun r => r.id == row.scopeId && r.status.isActive)
    fun r => { r with status := .failed }
  match w.findRound row.scopeId with
  | none => closed
  | some round =>
    closed.updateRows (fun r => r.isLive && r.id == round.parentLoopNodeRunId && r.status.isActive)
      fun r => { r with status := .failed, error := some error, finishedAt := some now }

/-- The node a failure is reported at: the Loop of a round's row, otherwise the row's own node. -/
def failureAnchor (row : NodeRun) : String :=
  (((w.findRound row.scopeId).bind fun round =>
    w.rows.find? (·.id == round.parentLoopNodeRunId)).map (·.nodeId)).getD row.nodeId

end World

namespace Repository

/-- `scoped_node::fail`. Only a Running row fails, so of two failures of one attempt the first
counts. -/
def failNode (id : String) (failure : NodeFailure) (propagation : FailurePropagation) (now : Int) :
    Transaction AdvanceWorkflowRunResult := fun w =>
  match w.findNodeRunById id with
  | none => .ok (.rollback .notFound)
  | some row =>
    if row.status ≠ .running then .ok (.rollback .notRunning)
    else
      let failed := w.persistFailedNodeRun id failure now
      match propagation with
      | .composite =>
        .ok (.commit .advanced (failed.rewriteCurrentNodes (·.filter (· != row.nodeId))))
      | .run =>
        let settled := failed.settleRetryWaits .cancelled (some retryAbandoned) now
        let closed :=
          if row.scopeId = w.rootScopeId then settled
          else settled.failRoundOf row failure.message now
        let anchored := closed.rewriteCurrentNodes fun _ => [w.failureAnchor row]
        .ok (.commit .advanced (anchored.failRunningRun failure.message now))

/-- `transition_node_run_status`, which is also `park_node_run` without its snapshot. -/
def transitionNodeRunStatus (id : String) (source target : WorkflowNodeStatus) :
    Transaction AdvanceWorkflowRunResult := fun w =>
  match w.findNodeRunById id with
  | none => .ok (.rollback .notFound)
  | some row =>
    if row.status ≠ source then .ok (.rollback .notRunning)
    else .ok (.commit .advanced
      (w.updateRows (fun r => r.isLive && r.id == id) fun r => { r with status := target }))

/-! ### Starting a run and its ready nodes -/

/-- `StartWorkflowRunResult`, for a run that exists. -/
inductive StartWorkflowRunResult where
  | started
  | current

def seedSystemVariables (pool : WorkflowVariablePool) (workflowId : String) (now : Int) :
    Except RepositoryError WorkflowVariablePool := do
  let pool ← writePoolVariable pool "sys.workflow_id" "sys" (.str workflowId)
  writePoolVariable pool "sys.timestamp" "sys" (Value.ofInt now)

/-- Starts a run that is Pending and has no current nodes; a second start finds it started and
changes nothing. -/
def startRun (start : NodeRunToStart) (now : Int) : Transaction StartWorkflowRunResult := fun w =>
  if w.run.status ≠ .pending ∨ w.run.currentNodes ≠ [] then .ok (.rollback .current)
  else do
    let inserted ← w.insertNodeRun start now
    let pool ← seedSystemVariables inserted.run.payload.variablePool w.run.workflowId now
    return .commit .started { inserted with run := { inserted.run with
      status := .running
      currentNodes := [start.nodeId]
      startedAt := some now
      payload := { inserted.run.payload with variablePool := pool } } }

/-- `start_ready_nodes`: not guarded by the run's status. -/
def startReadyNodes (starts : List NodeRunToStart) (now : Int) : Transaction Unit := fun w => do
  let inserted ← World.insertNodeRuns now starts w
  return .commit () (inserted.rewriteCurrentNodes fun nodes =>
    nodes ++ (starts.filter (·.iteration.isNone)).map (·.nodeId))

/-! ### Iteration rounds -/

inductive IterationRoundContinuation where
  | startNextRound (round : Nat) (item : Value) (nodeRuns : List NodeRunToStart)
  | complete (exposed : List (String × Value)) (output : Option String)
  | fail (error : String)

end Repository

namespace World

variable (w : World)

variable (ownerId : String)

/-- The rows of a composite owner itself, in the order a query sorts them. -/
def ownerRows : List NodeRun :=
  (w.rows.filter fun r => r.isLive && r.nodeId == ownerId && r.iteration.isNone).insertionSort
    (fun a b => NodeRun.le a b)

/-- `owner_row_is_running`: the latest row of the owner is Running. -/
def ownerRowIsRunning : Bool :=
  (w.ownerRows ownerId).getLast?.any (·.status == .running)

/-- A live Running row of a composite owner itself. -/
def isRunningOwnerRow (r : NodeRun) : Bool :=
  r.isLive && r.nodeId == ownerId && r.iteration.isNone && r.status == .running

def completeOwnerRow (output : Option String) (now : Int) : World :=
  (w.updateRows (isRunningOwnerRow ownerId) fun r => { r with
    status := .succeeded, output, finishedAt := some now }).rewriteCurrentNodes
    (·.filter (· != ownerId))

/-- `fail_owner_row`: unlike every other failure, the run's update is not guarded by its status. -/
def failOwnerRow (error : String) (now : Int) : World :=
  let failed := (w.updateRows (isRunningOwnerRow ownerId) fun r => { r with
    status := .failed, error := some error, finishedAt := some now }).rewriteCurrentNodes
    fun _ => [ownerId]
  let settled := failed.settleRetryWaits .cancelled (some retryAbandoned) now
  { settled with run := { settled.run with
    status := .failed, error := some error, finishedAt := some now } }

end World

namespace Repository

section

variable (ownerId : String) (round : Nat)

/-- The item and index of a round that starts. -/
def roundVariables (item : Value) : List (String × Value) :=
  [(ownerId ++ ".item", item), (ownerId ++ ".index", Value.ofNat round)]

/-- `iteration_start_round`. -/
def startIterationRound (item : Value)
    (starts : List NodeRunToStart) (now : Int) : Transaction AdvanceWorkflowRunResult := fun w =>
  if !w.ownerRowIsRunning ownerId then .ok (.rollback .notRunning)
  else do
    let pool ← writePoolVariables writeDeclaredPoolVariable ownerId
      (roundVariables ownerId round item) w.run.payload.variablePool
    let inserted ← World.insertNodeRuns now starts
      (w.persistPayload { w.run.payload with variablePool := pool })
    return .commit .advanced inserted

/-- `iteration_settle_round`: records the round and moves on, in one transaction. -/
def settleIterationRound (entry : RoundOutcome)
    (continuation : IterationRoundContinuation) (now : Int) :
    Transaction AdvanceWorkflowRunResult := fun w =>
  if !w.ownerRowIsRunning ownerId then .ok (.rollback .notRunning)
  else match w.run.payload.recordRoundOutcome ownerId round entry with
    | none => .ok (.rollback .notRunning)
    | some payload =>
      match continuation with
      | .startNextRound next item starts => do
        let pool ← writePoolVariables writeDeclaredPoolVariable ownerId
          (roundVariables ownerId next item) payload.variablePool
        let inserted ← World.insertNodeRuns now starts
          (w.persistPayload { payload with variablePool := pool })
        return .commit .advanced inserted
      | .complete exposed output => do
        let pool ← writePoolVariables writeDeclaredPoolVariable ownerId exposed
          payload.variablePool
        return .commit .advanced
          ((w.persistPayload { payload with variablePool := pool }).completeOwnerRow ownerId output
            now)
      | .fail error =>
        .ok (.commit .advanced ((w.persistPayload payload).failOwnerRow ownerId error now))

end

/-- `iteration_complete_node`. -/
def completeIterationNode (id ownerId : String) (exposed : List (String × Value))
    (output : Option String) (now : Int) : Transaction AdvanceWorkflowRunResult := fun w =>
  match w.findNodeRunById id with
  | none => .ok (.rollback .notFound)
  | some row =>
    if row.status ≠ .running then .ok (.rollback .notRunning)
    else do
      let pool ← writePoolVariables writeDeclaredPoolVariable ownerId exposed
        w.run.payload.variablePool
      return .commit .advanced
        ((w.persistPayload { w.run.payload with variablePool := pool }).completeOwnerRow ownerId
          output now)

/-! ### Loop rounds -/

inductive LoopCompletionReason where
  | conditionSatisfied
  | maxIterations
  | loopExit

inductive LoopRoundAdvance where
  | requestExit (nodeRunId : String) (result : Except String (Map String Value))
  | continue (next : LoopRoundToStart)
  | succeed (outputs : Map String Value) (reason : LoopCompletionReason)
  | fail (error : String)

/-- The insert shared by `start` and a `Continue`: the round, then its Start row. -/
def openLoopRound (start : LoopRoundToStart) (now : Int) (w : World) :
    Except RepositoryError World := do
  if start.startNodeRun.scopeId ≠ start.id then throw .incompleteWorkflowRunContext
  let opened ← w.insertLoopRound start.toRound
  opened.insertNodeRun start.startNodeRun now

/-- `loop_round::start`. The database itself refuses a second active round of a Loop. -/
def startLoopRound (start : LoopRoundToStart) (now : Int) : Transaction Unit := fun w => do
  let opened ← openLoopRound start now w
  return .commit () opened

/-- `loop_round::start_ready_nodes`. -/
def startScopeReadyNodes (scopeId : String) (starts : List NodeRunToStart) (now : Int) :
    Transaction Unit := fun w =>
  if !(w.rounds.any fun r => r.id == scopeId && r.status == .running) ||
      starts.any (·.scopeId != scopeId) then
    .error .incompleteWorkflowRunContext
  else do
    let inserted ← World.insertNodeRuns now starts w
    return .commit () inserted

/-- `loop_round::settle`: a round that is no longer Running keeps the status it has. -/
def settleRound (scopeId : String) (status : WorkflowScopeStatus) (w : World) : World :=
  w.updateRounds (fun r => r.id == scopeId && r.status == .running) fun r => { r with status }

end Repository

section

variable [JsonText]

namespace Repository

/-- `loop_exit::request`: the exit row succeeds, the round is marked, everything else still in
flight in it is cancelled. -/
def requestLoopExit (round : LoopRound) (nodeRunId : String)
    (result : Except String (Map String Value)) (now : Int) (w : World) :
    Except RepositoryError World :=
  if round.state.exit.isSome then .ok w
  else
    let isExitRow := fun r : NodeRun => r.isLive && r.id == nodeRunId && r.scopeId == round.id &&
      r.nodeType == .loopExit && r.status == .running
    if (w.rows.filter isExitRow).length ≠ 1 then .error .incompleteWorkflowRunContext
    else
      let exited := w.updateRows isExitRow fun r => { r with
        status := .succeeded, finishedAt := some now }
      let marked := exited.updateRounds (fun r => r.id == round.id && r.status == .running)
        fun r => { r with state := { round.state with exit := some ⟨nodeRunId, now, result⟩ } }
      .ok (marked.updateRows (fun r => r.isLive && r.scopeId == round.id && r.status.isActive)
        fun r => { r with status := .cancelled, finishedAt := some now })

/-- The end of a Loop: its exports reach the outer pool as its row succeeds. -/
def succeedLoop (round : LoopRound) (parent : NodeRun) (outputs : Map String Value) (now : Int)
    (w : World) : Except RepositoryError World := do
  let settled := settleRound round.id .succeeded w
  let pool ← writePoolVariables writePoolVariable parent.nodeId
    (outputs.toList.map fun output => (parent.nodeId ++ "." ++ output.1, output.2))
    w.run.payload.variablePool
  let completed := settled.updateRows
    (fun r => r.isLive && r.id == parent.id && r.status == .running) fun r => { r with
      status := .succeeded
      output := some (JsonText.toText (.obj outputs.toList))
      finishedAt := some now }
  return (completed.persistPayload { w.run.payload with variablePool := pool }).rewriteCurrentNodes
    (·.filter (· != parent.nodeId))

/-- A Loop round, its Loop and the run fail together. -/
def failLoop (round : LoopRound) (parent : NodeRun) (error : String) (now : Int) (w : World) :
    World :=
  let settled := w.settleRetryWaits .cancelled (some retryAbandoned) now
  let failed := settled.updateRows
    (fun r => r.isLive && r.scopeId == round.id && r.status.isActive) fun r => { r with
      status := .failed, error := some error, finishedAt := some now }
  let closed := settleRound round.id .failed failed
  let owner := closed.updateRows
    (fun r => r.isLive && r.id == parent.id && r.status == .running) fun r => { r with
      status := .failed, error := some error, finishedAt := some now }
  owner.failRunningRun error now

/-- `loop_round::advance`. -/
def advanceLoopRound (scopeId : String) (advance : LoopRoundAdvance) (now : Int) :
    Transaction AdvanceWorkflowRunResult := fun w =>
  match w.findRound scopeId with
  | none => .ok (.rollback .notFound)
  | some round =>
    match w.findNodeRunById round.parentLoopNodeRunId with
    | none => .ok (.rollback .notFound)
    | some parent =>
      if round.status ≠ .running ∨ parent.status ≠ .running ∨ w.run.status ≠ .running then
        .ok (.rollback .notRunning)
      else
        let activeChildren := w.rows.any fun r =>
          r.isLive && r.scopeId == scopeId && r.status.isActive
        match advance with
        | .requestExit nodeRunId result => do
          let exited ← requestLoopExit round nodeRunId result now w
          return .commit .advanced exited
        | .fail error => .ok (.commit .advanced (failLoop round parent error now w))
        | .continue next =>
          if activeChildren then .ok (.rollback .notRunning)
          else if next.parentLoopNodeRunId ≠ parent.id then .error .incompleteWorkflowRunContext
          else do
            let opened ← openLoopRound next now (settleRound scopeId .succeeded w)
            return .commit .advanced opened
        | .succeed outputs _ =>
          if activeChildren then .ok (.rollback .notRunning)
          else do
            let succeeded ← succeedLoop round parent outputs now w
            return .commit .advanced succeeded

end Repository

end

/-! ### Automatic retries -/

namespace Repository

structure NodeRetryToSchedule where
  nodeRunId : String
  retry : Nat
  maxRetries : Nat
  delayMs : Int
  dueAt : Int

inductive ScheduleNodeRetryResult where
  | scheduled
  | runNotActive
  | notRunning
  | notFound

inductive BeginNodeRetryResult where
  | started (row : NodeRun)
  | notDue (dueAt : Int)
  | abandoned
  | notWaiting
  | notFound

end Repository

/-- `deleted_attempt_count`: superseded attempts of the row's node and round, counted within a
Loop round but across the root scopes of restarts. -/
def World.deletedAttemptCount (w : World) (row : NodeRun) : Nat :=
  (w.rows.filter fun r => r.isDeleted && r.nodeId == row.nodeId && r.iteration == row.iteration &&
    (r.scopeId == row.scopeId || (w.findRound row.scopeId).isNone)).length

namespace Repository

/-- The waiting attempt `schedule_node_retry` puts in a failed one's place. -/
def waitingAttempt (failed : NodeRun) (attempt : Nat) (retry : NodeRetryToSchedule) (now : Int) :
    NodeRun where
  id := retry.nodeRunId
  scopeId := failed.scopeId
  nodeId := failed.nodeId
  nodeType := failed.nodeType
  status := .running
  input := failed.input
  output := none
  error := none
  payload :=
    { retryWait := some
        { attempt
          maxAttempt := attempt + (retry.maxRetries - retry.retry)
          retry := retry.retry
          maxRetries := retry.maxRetries
          delayMs := retry.delayMs
          scheduledAt := now
          dueAt := retry.dueAt
          previousNodeRunId := failed.id }
      autoRetry := some ⟨retry.retry, retry.maxRetries⟩
      retryChain := failed.payload.retryChain ++ [failed.id] }
  iteration := failed.iteration
  startedAt := none
  finishedAt := none
  createdAt := now
  isDeleted := false

/-- `schedule_node_retry`: the failed attempt is soft-deleted and a waiting one takes its place. -/
def scheduleNodeRetry (id : String) (failure : NodeFailure) (retry : NodeRetryToSchedule)
    (now : Int) : Transaction ScheduleNodeRetryResult := fun w =>
  match w.findNodeRunById id with
  | none => .ok (.rollback .notFound)
  | some row =>
    if row.status ≠ .running then .ok (.rollback .notRunning)
    else if w.run.status ≠ .running then .ok (.rollback .runNotActive)
    else do
      let failed := w.persistFailedNodeRun id failure now
      let deleted := failed.updateRows (·.id == id) fun r => { r with isDeleted := true }
      let attempt := deleted.deletedAttemptCount row + 1
      let scheduled ← deleted.insertRow (waitingAttempt row attempt retry now)
      return .commit .scheduled scheduled

/-- Ends a wait. A run that has ended meanwhile abandons the attempt, and a wait that is not over
stays as it is. -/
def beginNodeRetry (id : String) (now : Int) : Transaction BeginNodeRetryResult := fun w =>
  match w.findNodeRunById id with
  | none => .ok (.rollback .notFound)
  | some row =>
    match row.payload.retryWait with
    | none => .ok (.rollback .notWaiting)
    | some wait =>
      let unmarked := { row.payload with retryWait := none }
      if row.status ≠ .running then .ok (.rollback .notWaiting)
      else if w.run.status ≠ .running then
        .ok (.commit .abandoned (w.updateRows (fun r => r.isLive && r.id == id) fun r => { r with
          status := .cancelled
          error := some retryAbandoned
          payload := unmarked
          finishedAt := some now }))
      else if now < wait.dueAt then .ok (.rollback (.notDue wait.dueAt))
      else
        let started := { row with payload := unmarked, startedAt := some now }
        .ok (.commit (.started started)
          (w.updateRows (fun r => r.isLive && r.id == id) fun r => { r with
            payload := unmarked, startedAt := some now }))

/-! ### The sweep after a crash -/

/-- `fail_interrupted_node_runs`: the round rows of Iterations that survive. -/
def failInterruptedNodeRuns (ids : List String) (now : Int) : Transaction Unit := fun w =>
  .ok (.commit () (w.updateRows
    (fun r => r.isLive && r.status == .running && ids.contains r.id) fun r => { r with
      status := .failed
      error := some interruptedByRestart
      payload := { r.payload with retryWait := none }
      finishedAt := some now }))

/-- `fail_orphaned_node_runs` for one run: a generating row takes every other row in flight and the
run with it. -/
def failOrphanedNodeRuns (now : Int) : Transaction Unit := fun w =>
  if !(w.rows.any fun r => r.isLive && r.status == .running) then .ok (.rollback ())
  else
    let failed := w.updateRows (fun r => r.isLive && r.status.isActive) fun r => { r with
      status := .failed
      error := some interruptedByRestart
      output := none
      payload := { r.payload with retryWait := none }
      finishedAt := some now }
    let run := failed.failRunningRun interruptedByRestart now
    .ok (.commit () (run.updateRounds (·.status.isActive) fun r => { r with status := .failed }))

/-! ### The run's own transitions -/

/-- `finish_run`: `run_status IN (0, 1)`. -/
def finishRun (output : Option String) (now : Int) : Transaction Unit := fun w =>
  if w.run.status = .pending ∨ w.run.status = .running then
    .ok (.commit () { w with run := { w.run with
      status := .succeeded, output, finishedAt := some now, currentNodes := [] } })
  else .ok (.rollback ())

/-- `CancelWorkflowRunResult`, for a run that exists. -/
inductive CancelWorkflowRunResult where
  | cancelled
  | notActive

/-- Everything that is in flight ends with the run, in one transaction. -/
def cancelRun (now : Int) : Transaction CancelWorkflowRunResult := fun w =>
  if w.run.status ≠ .running then .ok (.rollback .notActive)
  else
    let settled := w.settleRetryWaits .cancelled none now
    let rows := settled.updateRows (fun r => r.isLive && r.status.isActive) fun r => { r with
      status := .cancelled, finishedAt := some now }
    let rounds := rows.updateRounds (·.status.isActive) fun r => { r with status := .cancelled }
    .ok (.commit .cancelled { rounds with run := { rounds.run with
      status := .cancelled, finishedAt := some now, currentNodes := [] } })

def resolveStartWriter (payload : WorkflowRunPayload) : Option String :=
  payload.startNodeId.or
    ((payload.variablePool.catalog.toList.find? fun entry =>
      Text.endsWith entry.1 ".request").map (·.2.writer))

def removeLegacyInstructionAliases (pool : WorkflowVariablePool) (startWriter : Option String) :
    WorkflowVariablePool :=
  let drop := fun (pool : WorkflowVariablePool) (selector : String) => { pool with
    catalog := pool.catalog.erase selector, values := pool.values.erase selector }
  let withoutTask := drop pool "sys.task"
  match startWriter with
  | some writer => drop withoutTask (writer ++ ".request")
  | none => withoutTask

/-- `reset_run_execution_state`: only the values the Start node owns survive. -/
def resetRunExecutionState (payload : WorkflowRunPayload) : WorkflowRunPayload :=
  if payload.variablePool.catalog.isEmpty && payload.conditionDecisions.isEmpty then payload
  else
    let startWriter := resolveStartWriter payload
    let pool := removeLegacyInstructionAliases payload.variablePool startWriter
    let isStartOwned := fun selector : String => startWriter.any fun writer =>
      pool.catalog[selector]?.any (·.writer == writer)
    { payload with
      variablePool := { pool with
        values := pool.values.filter fun selector _ => isStartOwned selector
        revision := saturatingSucc pool.revision }
      conditionDecisions := ∅
      iterationLedger := ∅
      iterationConditionDecisions := ∅ }

/-- `RestartWorkflowRunResult`, for a run that exists. -/
inductive RestartWorkflowRunResult where
  | restarted
  | notRestartable

/-- `restart_run`; the argument is the random id of the new root scope. -/
def restartRun (newRootScopeId : String) : Transaction RestartWorkflowRunResult := fun w =>
  if w.run.status = .running then .ok (.rollback .notRestartable)
  else if (w.rootScopeId :: w.retiredScopeIds).contains newRootScopeId ||
      w.rounds.any (·.id == newRootScopeId) then
    .error (.primaryKey newRootScopeId)
  else
    let deleted := w.updateRows (·.isLive) fun r => { r with isDeleted := true }
    let closed := deleted.updateRounds (·.status.isActive) fun r => { r with status := .cancelled }
    .ok (.commit .restarted { closed with
      run := { closed.run with
        status := .pending
        currentNodes := []
        output := none
        error := none
        startedAt := none
        finishedAt := none
        payload := resetRunExecutionState w.run.payload }
      rootScopeId := newRootScopeId
      retiredScopeIds := w.rootScopeId :: w.retiredScopeIds })

/-- `ResumeWorkflowRunResult`, for a run that exists. -/
inductive ResumeWorkflowRunResult where
  | resumed
  | notResumable

/-- A composite's row is Running for as long as its rounds are, and does no work of its own. -/
def runningRowBlocksResume (nodeType : NodeType) : Bool :=
  nodeType != .iteration && nodeType != .loop

/-- The payload part of `resume_from_failure`: everything of the cleared nodes is dropped. The
node of a per-round decision is what stands before the first `#` of its key. -/
def clearPayload (cleared : List String) (payload : WorkflowRunPayload) : WorkflowRunPayload :=
  let pool := payload.variablePool
  { payload with
    variablePool := { pool with
      values := pool.values.filter fun selector _ =>
        !(pool.catalog[selector]?.any fun definition => cleared.contains definition.writer)
      revision := saturatingSucc pool.revision }
    conditionDecisions := payload.conditionDecisions.filter fun id _ => !cleared.contains id
    iterationLedger := payload.iterationLedger.filter fun id _ => !cleared.contains id
    iterationConditionDecisions := payload.iterationConditionDecisions.filter fun key _ =>
      !cleared.contains (Text.beforeFirst '#' key) }

/-- The round belongs to a live row of a cleared node, and is restarted with it. -/
def isClearedRound (w : World) (cleared : List String) (round : LoopRound) : Bool :=
  w.rows.any fun r => r.isLive && cleared.contains r.nodeId && r.id == round.parentLoopNodeRunId

/-- `resume_from_failure`, given the nodes to clear. -/
def resumeFromFailure (cleared : List String) : Transaction ResumeWorkflowRunResult := fun w =>
  if (w.run.status ≠ .failed ∧ w.run.status ≠ .cancelled) ∨ cleared = [] then
    .ok (.rollback .notResumable)
  else if w.rows.any fun r => r.isLive && r.status == .running &&
      runningRowBlocksResume r.nodeType then
    .ok (.rollback .notResumable)
  else
    let bodies := w.updateRows (fun r => r.isLive && w.rounds.any fun round =>
      round.id == r.scopeId && isClearedRound w cleared round) fun r => { r with isDeleted := true }
    let closed := bodies.updateRounds
      (fun round => round.status.isActive && isClearedRound bodies cleared round)
      fun round => { round with status := .cancelled }
    let deleted := closed.updateRows (fun r => r.isLive && cleared.contains r.nodeId)
      fun r => { r with isDeleted := true }
    .ok (.commit .resumed { deleted with run := { deleted.run with
      status := .running
      error := none
      finishedAt := none
      currentNodes := []
      payload := clearPayload cleared w.run.payload } })

/-! ### The kickoff input -/

inductive RunInputRejectionReason where
  | undeclared
  | notStartOwned
  | typeMismatch (expectedType : ValueType)
  | lengthExceeded (maxLength : Nat)

/-- `UpdateWorkflowRunInputResult`, for a run that exists. -/
inductive UpdateWorkflowRunInputResult where
  | updated
  | notEditable
  | rejected («variable» : String) (reason : RunInputRejectionReason)

inductive UpdateTaskInputError where
  | rejected («variable» : String) (reason : RunInputRejectionReason)
  | database (error : RepositoryError)

/-- One Start variable of `update_task_input_in_payload`. -/
def updateTaskVariable (startWriter : String) (pool : WorkflowVariablePool) (name : String)
    (value : Value) : Except UpdateTaskInputError WorkflowVariablePool :=
  let selector := startWriter ++ "." ++ name
  match pool.catalog[selector]? with
  | none => .error (.rejected name .undeclared)
  | some definition =>
    if definition.writer ≠ startWriter then .error (.rejected name .notStartOwned)
    else if value = .null then .ok { pool with values := pool.values.erase selector }
    else match pool.set selector startWriter value with
      | .ok pool => .ok pool
      | .error (.typeMismatch _ valueType) => .error (.rejected name (.typeMismatch valueType))
      | .error (.lengthExceeded _ maxLength) => .error (.rejected name (.lengthExceeded maxLength))
      | .error other => .error (.database (.pool other))

/-- The variables of `update_task_input_in_payload`, in key order. -/
def updateTaskVariables (startWriter : String) : List (String × Value) → WorkflowVariablePool →
    Except UpdateTaskInputError WorkflowVariablePool
  | [], pool => .ok pool
  | (name, value) :: rest, pool => do
    let pool ← updateTaskVariable startWriter pool name value
    updateTaskVariables startWriter rest pool

def updateTaskInputInPayload (payload : WorkflowRunPayload) («variables» : Map String Value) :
    Except UpdateTaskInputError WorkflowRunPayload :=
  let startWriter := resolveStartWriter payload
  let pool := removeLegacyInstructionAliases payload.variablePool startWriter
  let written := match startWriter with
    | some writer => updateTaskVariables writer «variables».toList pool
    | none => if «variables».isEmpty then .ok pool
        else .error (.database .incompleteWorkflowRunContext)
  written.map fun pool => { payload with
    variablePool := { pool with revision := saturatingSucc pool.revision } }

def mirrorRunInputIntoPool (payload : WorkflowRunPayload) (input : Option String) :
    Except RepositoryError WorkflowRunPayload :=
  match resolveStartWriter payload with
  | none => .ok payload
  | some writer =>
    let selector := writer ++ ".input"
    let pool := payload.variablePool
    if selector ∈ pool.catalog then
      match input with
      | some text =>
        match pool.set selector writer (.str text) with
        | .error e => .error (.pool e)
        | .ok pool => .ok { payload with
            variablePool := { pool with revision := saturatingSucc pool.revision } }
      | none =>
        if selector ∈ pool.values then .ok { payload with variablePool := { pool with
          values := pool.values.erase selector, revision := saturatingSucc pool.revision } }
        else .ok payload
    else .ok payload

/-- The input may change before a run starts and after it has ended, but not while something may
read it. -/
def updateRunInput (input : Option String) («variables» : Map String Value) :
    Transaction UpdateWorkflowRunInputResult := fun w =>
  let editable := (w.run.status = .pending ∧ w.run.currentNodes = []) ∨ w.run.status = .succeeded ∨
    w.run.status = .failed ∨ w.run.status = .cancelled
  if ¬editable then .ok (.rollback .notEditable)
  else match updateTaskInputInPayload w.run.payload «variables» with
    | .error (.rejected name reason) => .ok (.rollback (.rejected name reason))
    | .error (.database e) => .error e
    | .ok payload => do
      let payload ← mirrorRunInputIntoPool payload input
      return .commit .updated { w with run := { w.run with input, payload } }

end Repository

end OraDesktop.Workflow
