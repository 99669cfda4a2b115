import OraDesktop.Process.Types

/-!
# The Scope runtime

The in-memory coordinator of one Scope. It launches Runs, remembers for each Run what was asked of
it and what is known about it, and on every `reconcile` asks the platform about the Runs that are
not cleaned up yet, merges the answers into what is known, and delivers the stop signal that is due.

A closure of the source that fails half way keeps what it had written; `absorb` and `deliver`
return the changed record beside the error for that reason.
-/

namespace OraDesktop.Process

inductive AdmissionError where
  | unavailable

inductive StartError where
  | conflictingRun (run : RunId)
  | scopeClosed

inductive StopError where
  | unknownRun (run : RunId)
  | deadlineOverflow

structure ReconcileFailure where
  run : RunId
  error : PlatformError

/-! ### Stop plans -/

/-- A stop deadline with the actions already delivered. -/
structure StopPlan where
  deadline : Instant
  notify : Bool
  notified : Bool
  forced : Bool

namespace StopPlan

/-- The instant from which a request asks for force. -/
def deadlineOf (now : Instant) : StopRequest → Option Instant
  | .force => some now
  | .wait timeout => now.checkedAdd timeout
  | .notifyThenWait timeout => now.checkedAdd timeout

/-- Whether a request asks for the cooperative signal. -/
def notifies : StopRequest → Bool
  | .notifyThenWait _ => true
  | _ => false

def new (request : StopRequest) (now : Instant) : Except StopError StopPlan :=
  match deadlineOf now request with
  | some deadline =>
    .ok { deadline := deadline, notify := notifies request, notified := false, forced := false }
  | none => .error .deadlineOverflow

def tighten (plan incoming : StopPlan) : StopPlan :=
  { plan with deadline := min plan.deadline incoming.deadline
              notify := plan.notify || incoming.notify }

def pending (plan : StopPlan) (now : Instant) : Option StopSignal :=
  if plan.forced then none
  else if plan.deadline ≤ now then some .force
  else if plan.notify && !plan.notified then some .requestExit
  else none

def delivered (plan : StopPlan) : StopSignal → StopPlan
  | .requestExit => { plan with notified := true }
  | .force => { plan with forced := true }

end StopPlan

/-! ### Records -/

structure RunRecord where
  spec : RunSpec
  snapshot : RunSnapshot
  stop : Option StopPlan

/-- Successful cleanup cannot upgrade the guarantee selected before launch. -/
def cleanupEvidence : ContainmentGuarantee → CleanupEvidence
  | .strong => .confirmedQuiescence
  | .bestEffort => .bestEffortComplete

namespace RunRecord

def isComplete (record : RunRecord) : Bool := record.snapshot.cleanup.isComplete

/-- A further stop plan tightens the one there is: the earlier deadline wins, and signals that were
delivered stay delivered. -/
def plan (record : RunRecord) (incoming : StopPlan) : RunRecord :=
  { record with stop := some (match record.stop with
      | some existing => existing.tighten incoming
      | none => incoming) }

/-- What an observation makes of the known state of the direct process: missing status may be
refined, never retracted. -/
def mergeDirect (previous current : DirectProcessState) : Except PlatformError DirectProcessState :=
  match previous, current with
  | .exited outcome, .unknown => .ok (.exited outcome)
  | .exited outcome, .exited .unknown => .ok (.exited outcome)
  | .exited .unknown, .exited outcome => .ok (.exited outcome)
  | .exited outcome, current =>
    if DirectProcessState.exited outcome = current then .ok (.exited outcome)
    else .error "platform observation contradicts a confirmed direct exit"
  | _, current => .ok current

section

variable (record : RunRecord)

/-- The snapshot after an observation that contradicts nothing. -/
def observed (evidence : CleanupEvidence) (observation : PlatformObservation)
    (direct : DirectProcessState) : RunRecord :=
  { record with snapshot := { record.snapshot with
      direct := direct
      cleanup := match observation.containment with
        | .empty => .complete evidence
        | .occupied | .unknown => .pending
      launch := match observation.direct with
        | .running | .exited _ => .started
        | .notStarted | .unknown => record.snapshot.launch } }

/-- Starts the descendants' grace period of a direct process that exited. -/
def scheduleGrace (now : Instant) : RunRecord × Except PlatformError Unit :=
  match record.spec.descendants with
  | .cleanup grace =>
    if !record.isComplete && record.snapshot.direct.isExited then
      match StopPlan.new (.notifyThenWait grace) now with
      | .ok incoming => (record.plan incoming, .ok ())
      | .error _ => (record, .error "stop deadline cannot be represented")
    else (record, .ok ())
  | .waitForAll => (record, .ok ())

/-- Merges one observation into the record. One that contradicts it is an error, and changes
nothing. -/
def absorb (evidence : CleanupEvidence) (now : Instant)
    (answer : Except PlatformError PlatformObservation) : RunRecord × Except PlatformError Unit :=
  match answer with
  | .error error => (record, .error error)
  | .ok observation =>
    if record.snapshot.launch = .started ∧ observation.direct = .notStarted then
      (record, .error "platform observation contradicts a confirmed launch")
    else if observation.containment = .empty ∧ observation.direct = .running then
      (record, .error "empty containment contains a running direct process")
    else match mergeDirect record.snapshot.direct observation.direct with
      | .error error => (record, .error error)
      | .ok direct => (record.observed evidence observation direct).scheduleGrace now

/-- The signal that is due: force from the deadline on, the cooperative one before it, and each at
most once. -/
def due (now : Instant) : Option StopSignal :=
  if record.isComplete then none else record.stop.bind (·.pending now)

/-- Delivers the signal that is due. An undelivered one stays due. -/
def deliver (now : Instant)
    (signal : StopSignal → Except PlatformError Unit) : RunRecord × Except PlatformError Unit :=
  match record.due now with
  | none => (record, .ok ())
  | some due => match signal due with
    | .error error => (record, .error error)
    | .ok () => ({ record with stop := record.stop.map (·.delivered due) }, .ok ())

end

def both (first second : Except PlatformError Unit) : Except PlatformError Unit :=
  match first with
  | .error error => .error error
  | .ok () => second

variable (record : RunRecord) (evidence : CleanupEvidence) (now : Instant)
  (observation : Except PlatformError PlatformObservation)

/-- One record of a reconciliation. Delivery does not wait for a successful observation, and an
error of either marks the cleanup blocked. -/
def reconcile
    (signal : StopSignal → Except PlatformError Unit) : RunRecord × Except PlatformError Unit :=
  if record.isComplete then (record, .ok ())
  else
    let (absorbed, result) := record.absorb evidence now observation
    let (delivered, delivery) := absorbed.deliver now signal
    match both result delivery with
    | .ok () => (delivered, .ok ())
    | .error error =>
      ({ delivered with snapshot := { delivered.snapshot with cleanup := .blocked error } },
        .error error)

/-- The signal a reconciliation of the record asks the platform to deliver. -/
def attempted : Option StopSignal :=
  if record.isComplete then none else (record.absorb evidence now observation).1.due now

end RunRecord

/-! ### The runtime -/

structure ScopeRuntime where
  guarantee : ContainmentGuarantee
  runs : Map RunId RunRecord
  state : ScopeState

namespace ScopeRuntime

/-- Freezes the actual guarantee before any Run is accepted. -/
def new (request : ContainmentRequest) (capabilities : PlatformCapabilities) :
    Except AdmissionError ScopeRuntime :=
  let fresh (guarantee : ContainmentGuarantee) : ScopeRuntime :=
    { guarantee := guarantee, runs := ∅, state := .open }
  match request, capabilities with
  | .requireStrong, .strongOnly | .requireStrong, .strongAndBestEffort
  | .preferStrong, .strongOnly | .preferStrong, .strongAndBestEffort => .ok (fresh .strong)
  | .preferStrong, .bestEffortOnly | .bestEffort, .bestEffortOnly
  | .bestEffort, .strongAndBestEffort => .ok (fresh .bestEffort)
  | .requireStrong, .bestEffortOnly | .bestEffort, .strongOnly
  | _, .unavailable => .error .unavailable

/-- The record of a Run right after the platform was asked to spawn it. -/
def launched (guarantee : ContainmentGuarantee) (id : RunId) (spec : RunSpec)
    (answer : Except SpawnError Unit) : RunRecord where
  spec := spec
  stop := none
  snapshot := match answer with
    | .ok () => { id := id, launch := .started, direct := .running, cleanup := .pending }
    | .error (.notStarted reason) =>
      { id := id, launch := .notStarted reason, direct := .notStarted
        cleanup := .complete (cleanupEvidence guarantee) }
    | .error (.unknown reason) =>
      { id := id, launch := .unknown reason, direct := .unknown, cleanup := .pending }

/-- Whether starting the Run asks the platform to spawn it. -/
def spawns (runtime : ScopeRuntime) (id : RunId) : Bool :=
  runtime.runs[id]?.isNone && decide (runtime.state = .open)

/-- Recovers an existing attempt or starts a new one, without retrying an uncertain spawn. -/
def start (platform : Platform) (runtime : ScopeRuntime) (id : RunId) (spec : RunSpec) :
    ScopeRuntime × Except StartError RunSnapshot :=
  match runtime.runs[id]? with
  | some record =>
    if record.spec ≠ spec then (runtime, .error (.conflictingRun id))
    else (runtime, .ok record.snapshot)
  | none =>
    if runtime.state ≠ .open then (runtime, .error .scopeClosed)
    else
      let record := launched runtime.guarantee id spec (platform.spawn id spec runtime.guarantee)
      ({ runtime with runs := runtime.runs.insert id record }, .ok record.snapshot)

def run (runtime : ScopeRuntime) (id : RunId) : Option RunSnapshot :=
  runtime.runs[id]?.map (·.snapshot)

/-- Seals admission and plans the stop of every Run that is not cleaned up. -/
def close (runtime : ScopeRuntime) (request : StopRequest) (now : Instant) :
    ScopeRuntime × Except StopError Unit :=
  if runtime.state.isClosed then (runtime, .ok ())
  else match StopPlan.new request now with
    | .error error => (runtime, .error error)
    | .ok plan =>
      ({ runtime with
          state := .closing
          runs := runtime.runs.map fun _ record =>
            if record.isComplete then record else record.plan plan }, .ok ())

/-- Stops only the named Run. An unknown one is an error, since nothing would be there to stop. -/
def stopRun (runtime : ScopeRuntime) (id : RunId) (request : StopRequest) (now : Instant) :
    ScopeRuntime × Except StopError Unit :=
  match runtime.runs[id]? with
  | none => (runtime, .error (.unknownRun id))
  | some record =>
    if record.isComplete then (runtime, .ok ())
    else match StopPlan.new request now with
      | .error error => (runtime, .error error)
      | .ok plan => ({ runtime with runs := runtime.runs.insert id (record.plan plan) }, .ok ())

variable (platform : Platform) (runtime : ScopeRuntime) (now : Instant)

def reconciled (id : RunId) (record : RunRecord) : RunRecord × Except PlatformError Unit :=
  record.reconcile (cleanupEvidence runtime.guarantee) now (platform.observe id)
    (platform.signal id)

/-- Advances every Run. Operational failures stay visible and are retried. -/
def reconcile : ScopeRuntime × List ReconcileFailure :=
  let runs := runtime.runs.map fun id record => (runtime.reconciled platform now id record).1
  let failures := runtime.runs.toList.filterMap fun (id, record) =>
    match (runtime.reconciled platform now id record).2 with
    | .ok () => none
    | .error error => some { run := id, error := error }
  let state := if runtime.state = .closing ∧ runs.toList.all fun (_, record) => record.isComplete
    then .closed (cleanupEvidence runtime.guarantee) else runtime.state
  ({ runtime with runs := runs, state := state }, failures)

end ScopeRuntime

end OraDesktop.Process
