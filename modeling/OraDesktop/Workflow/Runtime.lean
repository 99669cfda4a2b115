import OraDesktop.Workflow.BranchProjection
import OraDesktop.Workflow.Repository

/-!
# Node runtimes

The pure decisions behind a scheduling pass: what a control node completes with, how an Iteration
or a Loop advances, which row gives the run its output, and whether a failed attempt is retried.
None of them changes the persisted state; the engine turns their answers into transactions.

## Main definitions

* `NodeType.runtime`, `completeRunning`, `startInput`, `computeRunOutput` — the runtime registry
* `IterationRuntime.planAdvance` — the next transition of a Running Iteration
* `LoopConfig.initializeCarried`, `LoopConfig.completeRound`, `WorkflowGraph.loopRoundPool` — the
  values a Loop round starts from and ends with
* `AgentRetryPolicy.nextRetry`, `AgentRetryPolicy.waitSeconds` — automatic retries
* `validateExecutableGraph`, `validateStartInputs` — what `start` checks first
-/

namespace OraDesktop.Workflow

open Repository

/-! ### The registry -/

/-- `RegisteredNodeRuntime`, without the objects behind it. -/
inductive NodeRuntimeKind where
  | swift
  | async
  | composite
  | scopedLoop
  deriving DecidableEq

/-- `NodeRuntimeRegistry::runtime` of the standard registry. -/
def NodeType.runtime : NodeType → Option NodeRuntimeKind
  | .start | .condition | .aggregator | .output | .loopExit => some .swift
  | .agent => some .async
  | .iteration => some .composite
  | .loop => some .scopedLoop
  | .prompt | .tool => none

def NodeType.requestsLoopExit (nodeType : NodeType) : Bool := nodeType == .loopExit

/-- `run_output_rank`: the lowest rank gives the run its output. -/
def NodeType.runOutputRank : NodeType → Option Nat
  | .output => some 0
  | .agent | .iteration => some 1
  | _ => none

def startInput (node : WorkflowGraphNode) (runInput : Option String) : Option String :=
  match node.nodeType with
  | .start => runInput
  | .agent => node.agentConfig.map (·.prompt)
  | .iteration => node.iterationConfig.map (·.iteratorSelector.qualified)
  | _ => none

/-- The candidate a later one has to beat in `compute_run_output`. -/
def betterOutput (best : Option (Nat × NodeRun)) (candidate : Nat × NodeRun) :
    Option (Nat × NodeRun) :=
  match best with
  | none => some candidate
  | some (rank, row) =>
    -- `max_by_key` over (reversed rank, finish time) keeps the later of two equal candidates
    if candidate.1 < rank ∨
        candidate.1 = rank ∧ row.finishedAt.getD 0 ≤ candidate.2.finishedAt.getD 0 then
      some candidate
    else some (rank, row)

/-- The rows `compute_run_output` chooses from, with their ranks. -/
def outputCandidates (nodeRuns : List NodeRun) : List (Nat × NodeRun) :=
  (nodeRuns.filter fun row => row.iteration.isNone && row.status == .succeeded).filterMap
    fun row => row.nodeType.runOutputRank.map (·, row)

/-- The output of the run is that of one succeeded row, chosen by the rank of its node and then by
time. -/
def computeRunOutput (nodeRuns : List NodeRun) : Option String :=
  ((outputCandidates nodeRuns).foldl betterOutput none).bind (·.2.output)

/-! ### Control nodes -/

section

variable [JsonText]

/-- The bindings of an Output, in order; a later binding of a name replaces the value of an earlier
one, in its place. -/
def resolveOutputs (pool : WorkflowVariablePool) :
    List OutputBinding → List (String × Value) → Except String (List (String × Value))
  | [], result => .ok result
  | binding :: rest, result =>
    match pool.resolve binding.variableSelector with
    | .error e => .error e.message
    | .ok none => .error ("result " ++ binding.name ++ " references unassigned variable " ++
        binding.variableSelector.qualified)
    | .ok (some value) => resolveOutputs pool rest (Value.insertField binding.name value result)

/-- `SwiftNodeRuntime::complete_running` of the five control runtimes. -/
def completeRunning (node : WorkflowGraphNode) (row : NodeRun) (runInput : Option String)
    (pool : WorkflowVariablePool) (nodeRuns : List NodeRun) : Except String String :=
  match node.nodeType with
  | .start => .ok (runInput.getD "")
  | .condition =>
    match node.conditionConfig with
    | none => .error ConditionError.missingConfig.message
    | some config => (evaluateCondition config pool).mapError (·.message)
  | .aggregator =>
    match node.aggregatorConfig with
    | none => .error AggregatorError.missingConfig.message
    | some config =>
      match config.selectOutput pool with
      | .ok value => .ok (JsonText.toText value)
      | .error e => .error e.message
  | .output =>
    match nodeRuns.find? fun candidate => candidate.id != row.id &&
        candidate.nodeType == .output && candidate.status == .succeeded with
    | some previous =>
      .error ("multiple active output nodes: " ++ previous.nodeId ++ " and " ++ node.id)
    | none =>
      match node.outputConfig with
      | none => .ok ""
      | some config => (resolveOutputs pool config.outputs []).map fun result =>
          JsonText.toText (.obj result)
  | _ => .error "loopExit requires the Loop scheduler"

/-! ### Iteration -/

inductive CompositeContinuation where
  | startNextRound (round : Nat) (item : Value) (nodeIds : List String)
  | complete (exposed : List (String × Value)) (output : Option String)
  | fail (error : String)

inductive CompositeAdvancePlan where
  | noop
  | startRound (round : Nat) (item : Value) (nodeIds : List String)
  | startRegionNodes (nodeIds : List String)
  | settleRound (round : Nat) (entry : RoundOutcome) (continuation : CompositeContinuation)
  | completeNode (exposed : List (String × Value)) (output : Option String)
  | failNode (error : String)

end

/-- `RoundOutcome::to_envelope`: both kinds of outcome have the same fields. -/
def RoundOutcome.toEnvelope : RoundOutcome → Value
  | succeeded item output => .obj
      [("item", item), ("status", .str "succeeded"), ("output", output), ("error", .null)]
  | failed item error => .obj
      [("item", item), ("status", .str "failed"), ("output", .null), ("error", .str error)]

/-- The collected value of a round that succeeded. -/
def RoundOutcome.collected : RoundOutcome → Option Value
  | succeeded _ output => some output
  | failed _ _ => none

def RoundOutcome.isFailed : RoundOutcome → Bool
  | succeeded _ _ => false
  | failed _ _ => true

def IterationLedger.outcomes (ledger : IterationLedger) : List RoundOutcome :=
  Std.ExtTreeMap.values ledger

/-- `project_exposed_values`: the output, the entries and the failure count. -/
def projectExposedValues (ledger : IterationLedger) : Value × Value × Value :=
  (.arr (ledger.outcomes.filterMap (·.collected)), .arr (ledger.outcomes.map (·.toEnvelope)),
    Value.ofNat (ledger.outcomes.filter (·.isFailed)).length)

namespace IterationRuntime

def resolveIteratorSource (config : IterationConfig) (payload : WorkflowRunPayload) :
    Except String Value :=
  match payload.variablePool.resolve config.iteratorSelector with
  | .error e => .error ("iteration source cannot be resolved: " ++ e.message)
  | .ok none => .error ("iteration source " ++ config.iteratorSelector.qualified ++
      " is not assigned yet")
  | .ok (some value) => .ok value

/-- The nodes of a region round that are ready, given the rows so far. -/
def readyRegionNodes (g : FlatGraph) (nodeId : String) (region : CompositeRegion) (round : Nat)
    (nodeRuns : List NodeRun) (payload : WorkflowRunPayload) : List String :=
  (BranchProjection.newRegionRound g nodeId region round nodeRuns
    (payload.iterationRoundDecisions round)).readyNodes.map (·.id)

/-- The variables a completed Iteration exposes. -/
def exposedVariables (nodeId : String) (ledger : IterationLedger) : List (String × Value) :=
  let projected := projectExposedValues ledger
  [(nodeId ++ ".output", projected.1), (nodeId ++ ".entries", projected.2.1),
    (nodeId ++ ".failed_count", projected.2.2)]

section

variable [JsonText]

def outputText (ledger : IterationLedger) : String :=
  JsonText.toText (projectExposedValues ledger).1

/-- `plan_startup`: an empty source completes the node at once. -/
def planStartup (node : WorkflowGraphNode) (config : IterationConfig) (g : FlatGraph)
    (region : CompositeRegion) (nodeRuns : List NodeRun) (payload : WorkflowRunPayload) :
    Except String CompositeAdvancePlan := do
  let source ← resolveIteratorSource config payload
  match source.asArray with
  | none => .error ("iteration source " ++ config.iteratorSelector.qualified ++
      " did not resolve to an array")
  | some items =>
    if config.maxIterations < items.length then
      .error ("iteration source " ++ config.iteratorSelector.qualified ++ " has " ++
        toString items.length ++ " elements, exceeding maxIterations " ++
        toString config.maxIterations ++ "; raise maxIterations or shorten the source array")
    else match items with
      | [] => .ok (.completeNode
          [(node.id ++ ".output", .arr []), (node.id ++ ".entries", .arr []),
            (node.id ++ ".failed_count", Value.ofNat 0)] (some "[]"))
      | item :: _ => .ok (.startRound 0 item (readyRegionNodes g node.id region 0 nodeRuns payload))

/-- `settle_round_outcome`: whether the round's own rows succeeded, and the collected value. -/
def settleRoundOutcome (config : IterationConfig) (regionRows : List NodeRun) (round : Nat)
    (item : Value) (payload : WorkflowRunPayload) : Except String RoundOutcome :=
  let roundRows := regionRows.filter (·.iteration == some round)
  match roundRows.find? (·.status == .failed) with
  | some failed => .ok (.failed item (failed.error.getD ""))
  | none =>
    if !(roundRows.any fun row => row.nodeId == config.collectSelector.nodeId &&
        row.status == .succeeded) then
      .ok (.failed item "collect target did not run this round")
    else match payload.variablePool.resolve config.collectSelector with
      | .error e => .error ("collect target cannot be resolved: " ++ e.message)
      | .ok none => .error ("collect target " ++ config.collectSelector.qualified ++
          " succeeded but produced no value this round")
      | .ok (some output) => .ok (.succeeded item output)

/-- The item of a round; a round past the end of the source has none. -/
def itemOf (source : Value) (round : Nat) : Value := ((source.asArray.getD [])[round]?).getD .null

def regionRowsOf (region : CompositeRegion) (nodeRuns : List NodeRun) : List NodeRun :=
  nodeRuns.filter fun row => row.iteration.isSome && region.contains row.nodeId

/-- The highest round with a row: `iter().filter_map(iteration).max()`. -/
def currentRound (regionRows : List NodeRun) : Option Nat :=
  (regionRows.filterMap (·.iteration)).max?

/-- What follows the settlement of the current round. -/
def planContinuation (node : WorkflowGraphNode) (config : IterationConfig) (g : FlatGraph)
    (region : CompositeRegion) (nodeRuns : List NodeRun) (payload : WorkflowRunPayload)
    (source : Value) (current : Nat) (entry : RoundOutcome) : CompositeContinuation :=
  let rounds := (source.asArray.getD []).length
  match entry, config.errorStrategy with
  | .failed _ error, .fail =>
    .fail ("iteration round " ++ toString current ++ " failed: " ++ error)
  | _, _ =>
    if current + 1 < rounds then
      .startNextRound (current + 1) (itemOf source (current + 1))
        (readyRegionNodes g node.id region (current + 1) nodeRuns payload)
    else
      let complete := (payload.ledger node.id).insert current entry
      .complete (exposedVariables node.id complete) (some (outputText complete))

/-- What an Iteration does next, from its ledger and the rows of its current round; it changes
nothing itself. -/
def planAdvance (node : WorkflowGraphNode) (g : FlatGraph) (nodeRuns : List NodeRun)
    (payload : WorkflowRunPayload) : Except String CompositeAdvancePlan :=
  match node.iterationConfig with
  | none => .error ("iteration node " ++ node.id ++ " has no iteration config")
  | some config =>
    match g.region node.id with
    | none => .error ("iteration node " ++ node.id ++ " has no region")
    | some region =>
      let regionRows := regionRowsOf region nodeRuns
      let ledger := payload.ledger node.id
      if regionRows.isEmpty && ledger.isEmpty then
        planStartup node config g region nodeRuns payload
      else do
        let source ← resolveIteratorSource config payload
        let rounds := (source.asArray.getD []).length
        match currentRound regionRows with
        | none => .error ("iteration node " ++ node.id ++ " has region rows without a round")
        | some current =>
          match ledger[current]? with
          | some settled =>
            -- the round is settled: the node fails with it, or moves on
            match settled, config.errorStrategy with
            | .failed _ error, .fail => .ok (.failNode error)
            | _, _ =>
              if current + 1 < rounds then
                .ok (.startRound (current + 1) (itemOf source (current + 1))
                  (readyRegionNodes g node.id region (current + 1) nodeRuns payload))
              else .ok (.completeNode (exposedVariables node.id ledger) (some (outputText ledger)))
          | none =>
            let projection := BranchProjection.newRegionRound g node.id region current nodeRuns
              (payload.iterationRoundDecisions current)
            if projection.hasInFlight then .ok .noop
            else
              let ready := projection.readyNodes.map (·.id)
              if !ready.isEmpty then .ok (.startRegionNodes ready)
              else do
                let entry ← settleRoundOutcome config regionRows current (itemOf source current)
                  payload
                .ok (.settleRound current entry
                  (planContinuation node config g region nodeRuns payload source current entry))

end

end IterationRuntime

/-! ### Loop rounds -/

inductive LoopRoundError where
  | unknownLoop (nodeId : String)
  | invalidCarriedVariables
  | invalidRound (round maxIterations : Nat)
  | limitReached (maxIterations : Nat) (observed : String)
  | typeMismatch (name : String) (valueType : ValueType)
  | unsetValue (selector : String)
  | variable (error : WorkflowVariablePoolError)
  | condition (error : ConditionError)

def LoopRoundError.message : LoopRoundError → String
  | unknownLoop nodeId => s!"Loop container does not exist: {nodeId}"
  | invalidCarriedVariables => "carried values do not match the Loop variable declarations"
  | invalidRound round maxIterations =>
    s!"invalid Loop round {round}; expected 1 through {maxIterations}"
  | limitReached maxIterations observed =>
    s!"Loop did not terminate within {maxIterations} rounds; last observed {observed}"
  | typeMismatch name valueType =>
    "Loop variable " ++ name ++ " does not match declared type " ++ valueType.toWire
  | unsetValue selector => s!"Loop selector has no value in this round: {selector}"
  | .variable error => error.message
  | .condition error => error.message

def resolveRequired (pool : WorkflowVariablePool) (selector : VariableSelector) :
    Except LoopRoundError Value :=
  match pool.resolve selector with
  | .error e => .error (.variable e)
  | .ok none => .error (.unsetValue (Text.join "." (selector.qualified :: selector.nested)))
  | .ok (some value) => .ok value

/-- The entries of a map, each computed or the first error. -/
def collectValues {β : Type} (name : β → String) (value : β → Except LoopRoundError Value) :
    List β → Except LoopRoundError (Map String Value)
  | [] => .ok ∅
  | b :: rest => do
    let v ← value b
    -- a later entry of the same name wins, as it does when a `BTreeMap` is collected
    let tail ← collectValues name value rest
    return if name b ∈ tail then tail else tail.insert (name b) v

/-- A carried value checked against its declared type. -/
def carriedValue («variable» : LoopVariable) (value : Value) : Except LoopRoundError Value :=
  match normalizeWorkflowValue value «variable».valueType with
  | some normalized => .ok normalized
  | none => .error (.typeMismatch «variable».name «variable».valueType)

namespace LoopConfig

variable (config : LoopConfig)

/-- The carried values of the first round, read from outside or given in the configuration, each of
its declared type. -/
def initializeCarried (outer : WorkflowVariablePool) : Except LoopRoundError (Map String Value) :=
  collectValues LoopVariable.name (fun v => do
    let value ← match v.initial with
      | .constant value => pure value
      | .variable selector => resolveRequired outer selector
    carriedValue v value) config.variables

/-- What a Loop exports, read from the pool of the round it ends with. -/
def exitOutputs (pool : WorkflowVariablePool) : Except LoopRoundError (Map String Value) :=
  collectValues OutputBinding.name (fun output => resolveRequired pool output.variableSelector)
    config.outputs

/-- The carried values of the next round, all read from one completed round. -/
def feedback (completed : WorkflowVariablePool) : Except LoopRoundError (Map String Value) :=
  collectValues LoopVariable.name (fun v => do
    let value ← resolveRequired completed v.feedback
    carriedValue v value) config.variables

end LoopConfig

inductive LoopRoundDecision where
  | continue (carried : Map String Value)
  | succeeded (outputs : Map String Value) (reason : LoopCompletionReason)

def observedValueLimit : Nat := 160

section

variable [JsonText]

def summarizeObservedValue (value : Value) : String :=
  let collapsed := Text.join " " (Text.splitWhitespace (renderValue value))
  if collapsed.length ≤ observedValueLimit then collapsed
  else String.ofList (collapsed.toList.take observedValueLimit) ++ "…"

def observedUntilSummary («until» : ConditionConfig) (pool : WorkflowVariablePool) : String :=
  let parts := (ConditionConfig.cases «until»).flatMap fun case => case.conditions.map fun rule =>
    let label := Text.join "." (rule.variableSelector.qualified :: rule.variableSelector.nested)
    let shown := match pool.resolve rule.variableSelector with
      | .ok (some value) => summarizeObservedValue value
      | .ok none => "unset"
      | .error _ => "unavailable"
    label ++ "=" ++ shown
  if parts.isEmpty then "no until comparison" else Text.join ", " parts

/-- Whether the `until` condition of a completed round holds; one without comparisons never does. -/
def LoopConfig.untilHolds (config : LoopConfig) (completed : WorkflowVariablePool) :
    Except LoopRoundError Bool :=
  if config.until.cases.any (!·.conditions.isEmpty) then
    match evaluateCondition config.until completed with
    | .ok branch => .ok (branch != elseBranchId)
    | .error e => .error (.condition e)
  else .ok false

/-- The feedback is computed first, even where no round follows it. The condition goes before the
budget, so a last round that satisfies it succeeds. -/
def LoopConfig.completeRound (config : LoopConfig) (round : Nat)
    (completed : WorkflowVariablePool) : Except LoopRoundError LoopRoundDecision := do
  if round = 0 ∨ config.maxIterations < round then
    throw (.invalidRound round config.maxIterations)
  let carried ← config.feedback completed
  if ← config.untilHolds completed then
    let outputs ← config.exitOutputs completed
    return .succeeded outputs .conditionSatisfied
  if round = config.maxIterations then
    match config.maxIterationsBehavior with
    | .succeed => do
      let outputs ← config.exitOutputs completed
      return .succeeded outputs .maxIterations
    | .fail =>
      throw (.limitReached config.maxIterations (observedUntilSummary config.until completed))
  return .continue carried

end

/-- Imports one outer variable into a round's pool, with its declaration. -/
def importVariable (outer pool : WorkflowVariablePool) (key : String)
    (definition : WorkflowVariableDefinition) : WorkflowVariablePool :=
  { pool with
    catalog := pool.catalog.insert key definition
    values := match outer.values[key]? with
      | some value => pool.values.insert key value
      | none => pool.values }

/-- The carried variables of a round, declared and set in order. -/
def setCarried (loopId : String) (carried : Map String Value) :
    List LoopVariable → WorkflowVariablePool → Except LoopRoundError WorkflowVariablePool
  | [], pool => .ok pool
  | v :: rest, pool =>
    let key := loopId ++ "." ++ v.name
    match (pool.declare key v.valueType loopId).set key loopId ((carried[v.name]?).getD .null) with
    | .error e => .error (.variable e)
    | .ok pool => setCarried loopId carried rest pool

/-- `WorkflowGraph::loop_round_pool`: a round starts from the body's own declarations, what its
Loop's ancestors wrote, the globals, and the carried values. -/
def WorkflowGraph.loopRoundPool (g : WorkflowGraph) (loopId : String) (outer : WorkflowVariablePool)
    (carried : Map String Value) : Except LoopRoundError WorkflowVariablePool :=
  match g.loopBody loopId with
  | none => .error (.unknownLoop loopId)
  | some (config, body) =>
    if carried.size ≠ config.variables.length ∨ config.variables.any (·.name ∉ carried) then
      .error .invalidCarriedVariables
    else
      let ancestors := (g.transitivePredecessors loopId).map (·.id)
      let globals := g.globalVariables.map (·.name)
      let imported := outer.catalog.foldl (fun pool key definition =>
        if ancestors.contains definition.writer || globals.contains key then
          importVariable outer pool key definition
        else pool) (WorkflowVariablePool.fromGraph body.asGraph)
      setCarried loopId carried config.variables imported

/-! ### Regions and resume -/

/-- A failure in a region is left to its Iteration, which has a strategy for it. -/
def regionFailurePropagation (g : FlatGraph) (nodeId : String) : FailurePropagation :=
  if (g.regionOwner nodeId).isSome then .composite else .run

def regionRowsRound (g : FlatGraph) (nodeId : String) (nodeRuns : List NodeRun) : Option Nat :=
  (g.region nodeId).bind fun region =>
    IterationRuntime.currentRound (IterationRuntime.regionRowsOf region nodeRuns)

/-- `resume_clear_node_ids`: the resume units of the nodes with a failed or cancelled row. The
source collects them in ordered sets; only membership matters to the transaction. -/
def resumeClearNodeIds (g : WorkflowGraph) (nodeRuns : List NodeRun) : List String :=
  ((nodeRuns.filter fun row => row.status == .failed || row.status == .cancelled).flatMap
    fun row => g.resumeUnit row.nodeId).dedup.insertionSort (fun a b => compare a b ≠ .gt)

/-! ### Retry policy -/

def maxRetryWaitSeconds : Nat := 600

/-- `AgentRetryPolicy::wait_seconds`: doubles with each retry, up to the limit. A shift by 64 or
more overflows and counts as the largest factor. -/
def AgentRetryPolicy.waitSeconds (policy : AgentRetryPolicy) (retry : Nat) : Nat :=
  let factor := if retry - 1 < 64 then 2 ^ (retry - 1) else 2 ^ 64 - 1
  min (min (policy.initialDelaySeconds * factor) (2 ^ 64 - 1)) maxRetryWaitSeconds

/-- The number of the next retry, if the failure is of a kind that is retried and the budget is not
used up. -/
def AgentRetryPolicy.nextRetry (policy : AgentRetryPolicy) (kind : NodeFailureKind)
    (retriesUsed : Nat) : Option Nat :=
  if policy.enabled && kind.autoRetry && retriesUsed < policy.maxRetries then some (retriesUsed + 1)
  else none

/-- `AsyncNodeRuntime::retry_policy`: only automatic agents retry. -/
def retryPolicy (node : WorkflowGraphNode) : Option AgentRetryPolicy :=
  (node.agentConfig.filter (!·.interactive)).map (·.retry)

/-! ### Validation at start -/

inductive WorkflowValidationError where
  | missingStartNode
  | unsupportedNodeType (nodeId : String) (nodeType : NodeType)
  | unreachableNodes (nodeIds : List String)
  | outputNodeHasSuccessors (nodeId : String)
  | duplicateOutputName (nodeId name : String)
  | duplicateConditionCase (nodeId caseId : String)
  | unknownConditionBranch (nodeId handle : String)
  | missingRequiredStartVariable (name : String)
  | invalidStartVariableOption (name : String)

/-- The first text of a list that occurred before. -/
def firstDuplicate : List String → List String → Option String
  | _, [] => none
  | seen, s :: rest => if seen.contains s then some s else firstDuplicate (s :: seen) rest

/-- One node of `validate_executable_graph`, apart from a Loop's body. -/
def validateExecutableNode (g : FlatGraph) (node : WorkflowGraphNode) :
    Option WorkflowValidationError :=
  match node.nodeType with
  | .output =>
    if !(g.successors node.id).isEmpty then some (.outputNodeHasSuccessors node.id)
    else node.outputConfig.bind fun config =>
      (firstDuplicate [] (config.outputs.map (·.name))).map (.duplicateOutputName node.id)
  | .condition => node.conditionConfig.bind fun config =>
      ((firstDuplicate [] (config.cases.map (·.id))).map (.duplicateConditionCase node.id)).or
        ((g.outgoingEdges node.id).findSome? fun edge =>
          let handle := edge.sourceHandle.getD elseBranchId
          if handle == elseBranchId || config.cases.any (·.id == handle) then none
          else some (.unknownConditionBranch node.id handle))
  | _ => none

def validateExecutableGraph (g : WorkflowGraph) : Option WorkflowValidationError :=
  g.nodes.findSome? fun node =>
    if node.nodeType = .loop then (g.loopBody node.id).bind fun body =>
      body.2.nodes.findSome? (validateExecutableNode body.2)
    else validateExecutableNode g.toFlatGraph node

def validateStartInput (startId : String) (pool : WorkflowVariablePool) (v : StartInputVariable) :
    Option WorkflowValidationError :=
  let value := (pool.values[startId ++ "." ++ v.name]?).or v.value
  let missing := match value with
    | none | some .null => true
    | some (.str text) => text.isEmpty
    | some (.arr items) => items.isEmpty
    | _ => false
  if v.required && missing then some (.missingRequiredStartVariable v.name)
  else if !v.options.isEmpty && (value.bind Value.asStr).any (!v.options.contains ·) then
    some (.invalidStartVariableOption v.name)
  else none

def validateStartInputs (start : WorkflowGraphNode) (pool : WorkflowVariablePool) :
    Option WorkflowValidationError :=
  start.inputVariables.findSome? (validateStartInput start.id pool)

end OraDesktop.Workflow
