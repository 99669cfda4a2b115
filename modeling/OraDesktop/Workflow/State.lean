import OraDesktop.Workflow.Condition

/-!
# What a run persists

One run's rows in the database: the run itself with its decoded payload, the node-run table with
its soft-deleted rows, and the Loop rounds. Everything the engine knows between two calls is here.

The payload is the decoded `WorkflowRunPayload`: a run the create handler made always has one, and
no transaction of the engine sets the column back to `NULL`. Timestamps other than those a query
reads, session bindings, checkpoints and the failure detail of a row are left out.

## Main definitions

* `NodeRun`, `LoopRound`, `WorkflowRunPayload`, `World`
* `World.listNodeRuns`, `World.listNodeRunsInScope`, `World.findNodeRunById`,
  `World.findActiveLoopRound` — the queries of the engine
* `World.insertNodeRun`, `World.insertLoopRound` — inserts, with the constraints and triggers of
  the schema
-/

namespace OraDesktop.Workflow

/-! ### Statuses -/

inductive WorkflowRunStatus where
  | pending
  | running
  | succeeded
  | failed
  | cancelled
  deriving DecidableEq

inductive WorkflowNodeStatus where
  | pending
  | running
  | succeeded
  | failed
  | cancelled
  deriving DecidableEq

inductive WorkflowScopeStatus where
  | pending
  | running
  | succeeded
  | failed
  | cancelled
  deriving DecidableEq

/-- `status IN (0, 1)` of a node-run. -/
def WorkflowNodeStatus.isActive : WorkflowNodeStatus → Bool
  | pending | running => true
  | _ => false

/-- `status IN (0, 1)` of a Loop round. -/
def WorkflowScopeStatus.isActive : WorkflowScopeStatus → Bool
  | pending | running => true
  | _ => false

/-! ### Failures and automatic retries -/

inductive NodeFailureKind where
  | missingAgentRef
  | workflowModelNotFound
  | missingAgentConfig
  | invalidRunPayload
  | promptTemplate
  | structuredOutput
  | missingSkillMaterialization
  | sessionEndedWithoutStopReason
  | sessionBindingRejected
  | baselinePersist
  | repository
  | session
  | agentRefusal
  | unknownStopReason
  | interruptedByRestart
  | multipleOutputs
  | conditionEvaluation
  | aggregatorNoMatch

/-- Failures that need not recur: of the session, or of what the agent answered. -/
def NodeFailureKind.autoRetry : NodeFailureKind → Bool
  | session | sessionEndedWithoutStopReason | sessionBindingRejected | structuredOutput
  | agentRefusal | unknownStopReason => true
  | _ => false

/-- `NodeFailure`, as far as the transactions read it. -/
structure NodeFailure where
  kind : NodeFailureKind
  message : String
  output : Option String

def NodeFailure.new (kind : NodeFailureKind) (message : String) : NodeFailure :=
  ⟨kind, message, none⟩

def NodeFailure.fromRuntime (nodeType : NodeType) (message : String) : NodeFailure :=
  .new (match nodeType with
    | .condition => .conditionEvaluation
    | .aggregator => .aggregatorNoMatch
    | .output =>
      if Text.startsWith message "multiple active output nodes:" then .multipleOutputs
      else .invalidRunPayload
    | _ => .invalidRunPayload) message

/-- `NodeRetryWait`: the marker of an attempt that waits for its backoff to elapse. -/
structure NodeRetryWait where
  attempt : Nat
  maxAttempt : Nat
  retry : Nat
  maxRetries : Nat
  delayMs : Int
  scheduledAt : Int
  dueAt : Int
  previousNodeRunId : String
  deriving DecidableEq

/-- `NodeAutoRetry`: how much of its policy's budget an attempt has used. -/
structure NodeAutoRetry where
  retry : Nat
  maxRetries : Nat
  deriving DecidableEq

/-- The keys of a node-run's payload that the engine reads back. -/
structure NodeRunPayload where
  retryWait : Option NodeRetryWait
  autoRetry : Option NodeAutoRetry
  retryChain : List String
  deriving DecidableEq

/-- The payload of a row that was inserted with none. -/
def NodeRunPayload.empty : NodeRunPayload := ⟨none, none, []⟩

/-! ### Node-runs, Loop rounds and the run payload -/

/-- One row of `workflow_node_runs`, which is one attempt of a node. -/
structure NodeRun where
  id : String
  scopeId : String
  nodeId : String
  nodeType : NodeType
  status : WorkflowNodeStatus
  input : Option String
  output : Option String
  error : Option String
  payload : NodeRunPayload
  /-- The round of an Iteration member's row. -/
  iteration : Option Nat
  startedAt : Option Int
  finishedAt : Option Int
  createdAt : Int
  isDeleted : Bool
  deriving DecidableEq

structure NodeRunToStart where
  id : String
  scopeId : String
  nodeId : String
  nodeType : NodeType
  input : Option String
  iteration : Option Nat

/-- `RoundOutcome`: how one Iteration round ended. -/
inductive RoundOutcome where
  | succeeded (item output : Value)
  | failed (item : Value) (error : String)

/-- `IterationLedger`: settled rounds by their number. -/
abbrev IterationLedger := Map Nat RoundOutcome

structure LoopExitState where
  nodeRunId : String
  requestedAt : Int
  result : Except String (Map String Value)

/-- A round has a pool and decisions of its own, so that a body reads and writes no other round. -/
structure LoopRoundExecutionState where
  variablePool : WorkflowVariablePool
  conditionDecisions : Map String String
  exit : Option LoopExitState

/-- `WorkflowExecutionScope`: one durable Loop round. -/
structure LoopRound where
  id : String
  parentLoopNodeRunId : String
  roundIndex : Nat
  status : WorkflowScopeStatus
  state : LoopRoundExecutionState

structure LoopRoundToStart where
  id : String
  parentLoopNodeRunId : String
  roundIndex : Nat
  state : LoopRoundExecutionState
  startNodeRun : NodeRunToStart

/-- `WorkflowRunPayload`, without its locale, skill receipt and prompt flag. -/
structure WorkflowRunPayload where
  startNodeId : Option String
  variablePool : WorkflowVariablePool
  conditionDecisions : Map String String
  iterationLedger : Map String IterationLedger
  iterationConditionDecisions : Map String String

namespace WorkflowRunPayload

def withVariablePool (startNodeId : Option String) (pool : WorkflowVariablePool) :
    WorkflowRunPayload :=
  ⟨startNodeId, pool, ∅, ∅, ∅⟩

variable (payload : WorkflowRunPayload)

/-- `WorkflowRunPayload::resolved_condition_decisions`: a decision an older payload kept among the
pool values, unless the dedicated field has one. -/
def resolvedConditionDecisions : Map String String :=
  Map.extend (Map.rekey (Text.stripSuffix ".selected_branch_id") Value.asStr
    payload.variablePool.values) payload.conditionDecisions

def iterationDecisionKey (conditionNodeId : String) (round : Nat) : String :=
  conditionNodeId ++ "#" ++ toString round

def iterationRoundDecisions (round : Nat) : Map String String :=
  Map.rekey (Text.stripSuffix ("#" ++ toString round)) some payload.iterationConditionDecisions

/-- `WorkflowRunPayload::iteration_ledger`, empty when the node has none. -/
def ledger (iterationNodeId : String) : IterationLedger :=
  (payload.iterationLedger[iterationNodeId]?).getD ∅

/-- `WorkflowRunPayload::record_round_outcome`: refuses a round that is settled already. -/
def recordRoundOutcome (iterationNodeId : String) (round : Nat) (outcome : RoundOutcome) :
    Option WorkflowRunPayload :=
  if round ∈ payload.ledger iterationNodeId then none
  else some { payload with
    iterationLedger := payload.iterationLedger.insert iterationNodeId
      ((payload.ledger iterationNodeId).insert round outcome) }

end WorkflowRunPayload

/-- The row of `workflow_runs`: how far the run is, and the payload its scheduling is computed
from. -/
structure Run where
  workflowId : String
  status : WorkflowRunStatus
  currentNodes : List String
  input : Option String
  output : Option String
  error : Option String
  payload : WorkflowRunPayload
  startedAt : Option Int
  finishedAt : Option Int

/-- The persisted state of one run: all that is left of it when the process ends. -/
structure World where
  run : Run
  /-- Every node-run row of the run, soft-deleted ones included. -/
  rows : List NodeRun
  /-- Every Loop round of the run. -/
  rounds : List LoopRound
  /-- The current root scope … -/
  rootScopeId : String
  /-- … and those of earlier executions, which keep their ids. -/
  retiredScopeIds : List String

/-! ### Queries -/

/-- `ORDER BY created_at, id`. -/
def NodeRun.le (a b : NodeRun) : Bool :=
  ((compare a.createdAt b.createdAt).then (compare a.id b.id)).isLE

/-- The row is not soft-deleted. Superseded attempts are kept for the record and read by nothing
that schedules. -/
def NodeRun.isLive (row : NodeRun) : Bool := !row.isDeleted

/-- The row waits for a retry to become due. Its status is Running all the while; only the marker
tells. -/
def NodeRun.isWaiting (row : NodeRun) : Bool := row.payload.retryWait.isSome

namespace World

variable (w : World)

/-- `list_node_runs`: the live rows of every scope. -/
def listNodeRuns : List NodeRun :=
  (w.rows.filter (·.isLive)).insertionSort (fun a b => NodeRun.le a b)

/-- Rows of retired scopes stay in the table, and are found under their own scope only. -/
def listNodeRunsInScope (scopeId : String) : List NodeRun :=
  (w.rows.filter fun row => row.isLive && row.scopeId == scopeId).insertionSort
    (fun a b => NodeRun.le a b)

def findNodeRunById (id : String) : Option NodeRun :=
  w.rows.find? fun row => row.isLive && row.id == id

def findActiveLoopRound (parentId : String) : Option LoopRound :=
  w.rounds.find? fun round => round.parentLoopNodeRunId == parentId && round.status.isActive

def findRound (scopeId : String) : Option LoopRound := w.rounds.find? (·.id == scopeId)

/-! ### Updates -/

/-- `UPDATE workflow_node_runs SET … WHERE …`. -/
def updateRows (p : NodeRun → Bool) (f : NodeRun → NodeRun) : World :=
  { w with rows := w.rows.map fun row => if p row then f row else row }

/-- `UPDATE workflow_execution_scopes SET … WHERE …` over the Loop rounds. -/
def updateRounds (p : LoopRound → Bool) (f : LoopRound → LoopRound) : World :=
  { w with rounds := w.rounds.map fun round => if p round then f round else round }

def rewriteCurrentNodes (mutate : List String → List String) : World :=
  { w with run := { w.run with currentNodes := mutate w.run.currentNodes } }

/-- `persist_run_payload`. -/
def persistPayload (payload : WorkflowRunPayload) : World :=
  { w with run := { w.run with payload } }

end World

/-! ### Inserts and the schema's constraints -/

/-- Why a transaction is rolled back with an error. -/
inductive RepositoryError where
  | primaryKey (id : String)
  /-- `workflow_node_runs_scope_node`: a second live row of one scope, node and round. -/
  | liveNodeRun (scopeId nodeId : String) (iteration : Option Nat)
  /-- `workflow_node_scope_validate_insert`. -/
  | nodeScope (scopeId : String)
  /-- `workflow_scope_validate_parent`. -/
  | roundParent (parentId : String)
  /-- The round number's range, its uniqueness, and the single active round of a parent. -/
  | roundIndex (parentId : String) (round : Nat)
  | incompleteWorkflowRunContext
  | pool (error : WorkflowVariablePoolError)
  | json

def NodeRunToStart.toRow (start : NodeRunToStart) (now : Int) : NodeRun where
  id := start.id
  scopeId := start.scopeId
  nodeId := start.nodeId
  nodeType := start.nodeType
  status := .running
  input := start.input
  output := none
  error := none
  payload := .empty
  iteration := start.iteration
  startedAt := some now
  finishedAt := none
  createdAt := now
  isDeleted := false

/-- The Running round that `LoopRoundToStart` asks for. -/
def LoopRoundToStart.toRound (start : LoopRoundToStart) : LoopRound where
  id := start.id
  parentLoopNodeRunId := start.parentLoopNodeRunId
  roundIndex := start.roundIndex
  status := .running
  state := start.state

namespace World

variable (w : World)

/-- A row is a live Running row of the current root scope. -/
def isRunningRootRow (row : NodeRun) : Bool :=
  row.isLive && row.scopeId == w.rootScopeId && row.status == .running

/-- `workflow_node_scope_validate_insert`: the current root scope, or a Running round whose parent
is still running there. -/
def acceptsNodeIn (scopeId : String) : Bool :=
  scopeId == w.rootScopeId || w.rounds.any fun round =>
    round.id == scopeId && round.status == .running &&
      w.rows.any fun parent => parent.id == round.parentLoopNodeRunId && w.isRunningRootRow parent

/-- `INSERT INTO workflow_node_runs`, with the primary key, the trigger and the unique index. -/
def insertRow (row : NodeRun) : Except RepositoryError World :=
  if w.rows.any (·.id == row.id) then .error (.primaryKey row.id)
  else if !w.acceptsNodeIn row.scopeId then .error (.nodeScope row.scopeId)
  else if w.rows.any fun other => other.isLive && other.scopeId == row.scopeId &&
      other.nodeId == row.nodeId && other.iteration == row.iteration then
    .error (.liveNodeRun row.scopeId row.nodeId row.iteration)
  else .ok { w with rows := w.rows ++ [row] }

def insertNodeRun (start : NodeRunToStart) (now : Int) : Except RepositoryError World :=
  w.insertRow (start.toRow now)

/-- `insert_node_run` for each row of a list. -/
def insertNodeRuns (now : Int) : List NodeRunToStart → World → Except RepositoryError World
  | [], w => .ok w
  | start :: rest, w => do
    let w ← w.insertNodeRun start now
    insertNodeRuns now rest w

/-- `INSERT INTO workflow_execution_scopes` of a Loop round, with the parent trigger, the primary
key, and the constraints on the round number. -/
def insertLoopRound (round : LoopRound) : Except RepositoryError World :=
  if !(w.run.status == .running && w.rows.any fun parent =>
      parent.id == round.parentLoopNodeRunId && parent.nodeType == .loop &&
        w.isRunningRootRow parent) then
    .error (.roundParent round.parentLoopNodeRunId)
  else if (w.rootScopeId :: w.retiredScopeIds).contains round.id ||
      w.rounds.any (·.id == round.id) then
    .error (.primaryKey round.id)
  else if !(1 ≤ round.roundIndex && round.roundIndex ≤ 100) ||
      w.rounds.any fun other => other.parentLoopNodeRunId == round.parentLoopNodeRunId &&
        (other.roundIndex == round.roundIndex || other.status.isActive) then
    .error (.roundIndex round.parentLoopNodeRunId round.roundIndex)
  else .ok { w with rounds := w.rounds ++ [round] }

end World

end OraDesktop.Workflow
