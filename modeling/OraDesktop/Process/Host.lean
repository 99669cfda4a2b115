import OraDesktop.Process.GuardianCalls

/-!
# The host and its guardian

The host records what it is responsible for before it acts: the intent to start a Run, stops, the
close of the Scope, the one attempt to launch the guardian, and what was observed. In a pass it
binds the guardian, asks for the Scope and then for every Run, with a start or, once a stop was
recorded, with a stop; the answers are saved when the pass is over. Only one pass is under way for a
Scope, and a restarted host is a new incarnation with a higher epoch.

The model is one Scope: the host's tables are keyed by Scope and Run, and a Run belongs to one
Scope. Between the host and the guardian is a queue of requests. A request stays in it when its
client gives up, may be executed at any time and in any order, and may be lost; a reply reaches the
client only if it is still waiting for it. Which passes are due is left open, so that a pass may
begin whenever none is under way. A frame that is too large is refused before anything is recorded.
-/

namespace OraDesktop.Process

/-! ### The host's journal -/

/-- `ProcessStateError`, as far as the host's journal raises it. -/
inductive HostError where
  | rejected (reason : String)
  | contradictoryRunObservation (run : RunId)

/-- The journal of the host, for one Scope: what it was asked for, and what it has learnt of it. -/
structure HostState where
  intent : ScopeCreationIntent
  binding : HostBinding
  /-- The launch of the guardian was attempted. -/
  launched : Bool
  closeRequested : Bool
  intents : Map RunId RunSpec
  stops : List RunId
  runs : Map RunId RunSnapshot
  scope : Option ScopeState

/-- A terminal fact about a Run: it is cleaned up, and its direct process has exited or was never
there. -/
def RunSnapshot.isSettled (snapshot : RunSnapshot) : Bool :=
  snapshot.cleanup.isComplete && (snapshot.direct.isExited || decide (snapshot.direct = .notStarted))

/-- The Run was launched, as far as the snapshot tells. -/
def RunSnapshot.confirmsLaunch (snapshot : RunSnapshot) : Bool :=
  decide (snapshot.launch = .started) || decide (snapshot.direct = .running) ||
    snapshot.direct.isExited

def LaunchFact.isNotStarted : LaunchFact → Bool
  | .notStarted _ => true
  | _ => false

namespace HostState

variable (state : HostState)

def recordRunIntent (run : RunId) (spec : RunSpec) : Except HostError HostState :=
  match state.intents[run]? with
  | some existing =>
    if existing ≠ spec then .error (.rejected "RunId already has a different intent") else .ok state
  | none =>
    if state.closeRequested then .error (.rejected "host Scope is closing")
    else .ok { state with intents := state.intents.insert run spec }

def requestRunStop (run : RunId) : Except HostError HostState :=
  if run ∈ state.intents then
    .ok { state with stops := if run ∈ state.stops then state.stops else state.stops ++ [run] }
  else .error (.rejected "unknown host Run")

def requestScopeClose : HostState := { state with closeRequested := true }

/-- Includes the close of the Scope, so that a Run that is recorded after the close is never
started. -/
def runStopRequested (run : RunId) : Bool :=
  state.closeRequested || decide (run ∈ state.stops)

/-- A confirmed launch is not taken back: an observation that denies it is an error, and one that is
unsure of it keeps it. -/
def observeRun (snapshot : RunSnapshot) : Except HostError HostState :=
  let confirmed := state.runs[snapshot.id]?.any RunSnapshot.confirmsLaunch
  if confirmed && (snapshot.launch.isNotStarted || decide (snapshot.direct = .notStarted)) then
    .error (.contradictoryRunObservation snapshot.id)
  else
    let merged := if confirmed then { snapshot with launch := .started } else snapshot
    .ok { state with runs := state.runs.insert snapshot.id merged }

def observeScope (scope : ScopeState) : HostState :=
  { state with scope := some scope }

/-- A closed Scope needs no more coordination once every Run has a terminal fact. -/
def scopeSettled : Bool :=
  state.closeRequested && state.scope.any ScopeState.isClosed &&
    state.intents.toList.all fun (run, _) => state.runs[run]?.any RunSnapshot.isSettled

end HostState

/-! ### A pass -/

/-- One Run of a pass, with whether it is to be started or stopped as of when the pass began. -/
structure Entry where
  run : RunId
  spec : RunSpec
  stop : Bool

def Entry.operation (entry : Entry) : GuardianRunOperation :=
  if entry.stop then .stop entry.run else .start entry.run entry.spec

/-- The responsibilities of a pass, as they were when it began. -/
structure Work where
  access : Bool
  binding : HostBinding
  close : Bool
  runs : List Entry

structure Observation where
  scope : Option ScopeState
  runs : List RunSnapshot

/-- A Run that no guardian will start. The host makes this up itself, when the guardian answers that
it does not know the Run. -/
def cancelled (run : RunId) : RunSnapshot where
  id := run
  launch := .notStarted "cancelled before guardian acceptance"
  direct := .notStarted
  cleanup := .complete .bestEffortComplete

/-- How far a pass has got. Between two stages the host and the guardian go on, so what a pass knows
may be out of date. -/
inductive Worker where
  | idle
  | binding (work : Work)
  | scoping (work : Work)
  | stepping (work : Work) (observation : Observation) (entry : Entry) (rest : List Entry)
  | finished (observation : Observation)

namespace Worker

/-- The request the pass is waiting for. -/
def request : Worker → Option Guardian.Call
  | .binding work => some (.management .control (.bind work.binding))
  | .scoping work => some (.run .control ⟨⟨work.binding⟩, if work.close then .close else .scope⟩)
  | .stepping work _ entry _ => some (.run .control ⟨⟨work.binding⟩, entry.operation⟩)
  | .idle | .finished _ => none

def next (work : Work) (observation : Observation) : List Entry → Worker
  | [] => .finished observation
  | entry :: rest => .stepping work observation entry rest

/-- A pass begins. Where the guardian was never launched, a closing Scope is closed. -/
def begin (work : Work) : Worker :=
  if work.access then .binding work
  else if work.close then
    .finished { scope := some (.closed .bestEffortComplete)
                runs := work.runs.map fun entry => cancelled entry.run }
  else .finished { scope := none, runs := [] }

/-- The exchange failed: what was collected is kept, since each answer is a fact of its own. -/
def giveUp : Worker → Worker
  | .binding _ | .scoping _ => .finished { scope := none, runs := [] }
  | .stepping _ observation _ _ => .finished observation
  | worker => worker

/-- The client checks that a reply belongs to its request. -/
def correlated (intent : ScopeCreationIntent) (work : Work) (operation : GuardianRunOperation)
    (reply : GuardianRunReply) : Bool :=
  decide (reply.intent = intent) && decide (reply.session = ⟨work.binding⟩) &&
    match reply.result with
    | .rejected _ => true
    | .run snapshot => decide (operation.target = some snapshot.id)
    | .scope _ => decide (operation = .close ∨ operation = .scope)
    | .output _ _ _ _ => false

def receiveRun (work : Work) (observation : Observation) (entry : Entry) (rest : List Entry) :
    GuardianRunResult → Worker
  | .run snapshot => next work { observation with runs := observation.runs ++ [snapshot] } rest
  | .rejected .unknownRun =>
    if entry.stop then
      next work { observation with runs := observation.runs ++ [cancelled entry.run] } rest
    else next work observation rest
  | .rejected _ => next work observation rest
  | .scope _ | .output _ _ _ _ => .finished observation

def receive (intent : ScopeCreationIntent) (worker : Worker) (reply : Guardian.Reply) : Worker :=
  match worker, reply with
  | .binding work, .management (.bound bound session) =>
    if bound = intent ∧ session.host = work.binding then .scoping work else worker.giveUp
  | .scoping work, .run reply =>
    if correlated intent work (if work.close then .close else .scope) reply then
      match reply.result with
      | .scope state => next work { scope := some state, runs := [] } work.runs
      | _ => worker.giveUp
    else worker.giveUp
  | .stepping work observation entry rest, .run reply =>
    if correlated intent work entry.operation reply then
      receiveRun work observation entry rest reply.result
    else worker.giveUp
  | worker, _ => worker.giveUp

end Worker

/-! ### The system -/

/-- The host, its pass, the requests under way and the guardian. A request whose client has given up
stays under way. -/
structure System where
  host : HostState
  worker : Worker
  awaiting : Option Nat
  inbox : Option Guardian.Reply
  guardian : Option Guardian
  queue : List (Nat × Guardian.Call)
  tickets : Nat

inductive Action where
  | start (run : RunId) (spec : RunSpec)
  | stop (run : RunId)
  | close
  /-- A pass begins; the launch of the guardian may fail before it is recorded. -/
  | prepare (launch : Bool)
  | bootstrap
  /-- A client of the host reads output. -/
  | output (run : RunId) (stream : OutputStream) (offset maxBytes : Nat)
  | execute (ticket : Nat) (world : GuardianWorld)
  | reconcile (world : GuardianWorld)
  /-- A request is lost. -/
  | discard (ticket : Nat)
  | receive
  | giveUp
  /-- The next fact of a finished pass is saved. -/
  | save
  /-- The rest of a finished pass is lost. -/
  | abandon
  | restart (instanceId : Nat)

namespace System

variable (frame : Frame)

/-- The pass goes to its next stage and sends the request it has to wait for there. -/
def enter (system : System) (worker : Worker) : System :=
  match worker.request with
  | none => { system with worker := worker, awaiting := none, inbox := none }
  | some call =>
    { system with
      worker := worker
      awaiting := some system.tickets
      inbox := none
      tickets := system.tickets + 1
      queue := if system.guardian.isSome then system.queue ++ [(system.tickets, call)]
        else system.queue }

/-- `prepare`, with the host as the launch of the guardian left it. -/
def prepared (host : HostState) : Work where
  access := host.launched
  binding := host.binding
  close := host.closeRequested
  runs := host.intents.toList.map fun (run, spec) =>
    { run := run, spec := spec, stop := host.runStopRequested run }

/-- The request with this ticket. -/
def request (system : System) (ticket : Nat) : Option Guardian.Call :=
  (system.queue.find? fun item => item.1 == ticket).map (·.2)

section

variable (system : System)

/-- Saves the next fact of a finished pass. A contradiction is left out. -/
def saveNext (observation : Observation) : System :=
  match observation.runs with
  | snapshot :: rest =>
    { system with
      host := match system.host.observeRun snapshot with
        | .ok host => host
        | .error _ => system.host
      worker := .finished { observation with runs := rest } }
  | [] =>
    { system with
      host := match observation.scope with
        | some scope => system.host.observeScope scope
        | none => system.host
      worker := .idle }

/-- The guardian call of an action, with what the outside answers. -/
def call : Action → Option (GuardianWorld × Guardian.Call)
  | .execute ticket world => (system.request ticket).map fun call => (world, call)
  | .reconcile world => some (world, .reconcile)
  | _ => none

/-- The system after the guardian executed a call. -/
def afterCall (action : Action) (outcome : Journal.Outcome Guardian GuardianEvent
    Empty Guardian.Reply) : System :=
  match action with
  | .execute ticket _ =>
    { system with
      guardian := some outcome.state
      queue := system.queue.filter fun item => item.1 != ticket
      inbox := if system.awaiting = some ticket then outcome.result.toOption else system.inbox }
  | _ => { system with guardian := some outcome.state }

def apply (action : Action) : System :=
  match action with
  | .start run spec => match system.host.recordRunIntent run spec with
    | .ok host => { system with host := host }
    | .error _ => system
  | .stop run => match system.host.requestRunStop run with
    | .ok host => { system with host := host }
    | .error _ => system
  | .close => { system with host := system.host.requestScopeClose }
  | .prepare launch => match system.worker with
    | .idle =>
      let host := { system.host with
        launched := system.host.launched || (launch && !system.host.closeRequested) }
      { system with host := host }.enter (.begin (prepared host))
    | _ => system
  | .bootstrap =>
    if system.host.launched ∧ system.guardian.isNone then
      { system with guardian := some (Guardian.fresh system.host.intent) }
    else system
  | .output run stream offset maxBytes =>
    if run ∈ system.host.intents ∧ system.host.launched ∧ system.guardian.isSome then
      { system with
        tickets := system.tickets + 1
        queue := system.queue ++ [(system.tickets,
          .run .io ⟨⟨system.host.binding⟩, .output run stream offset maxBytes⟩)] }
    else system
  | .execute _ _ | .reconcile _ => match system.guardian, system.call action with
    | some guardian, some (world, call) =>
      system.afterCall action (Guardian.serve frame world call guardian 0)
    | _, _ => system
  | .discard ticket => { system with queue := system.queue.filter fun item => item.1 != ticket }
  | .receive => match system.inbox with
    | some reply => system.enter (system.worker.receive system.host.intent reply)
    | none => system
  | .giveUp => if system.awaiting.isSome then system.enter system.worker.giveUp else system
  | .save => match system.worker with
    | .finished observation => system.saveNext observation
    | _ => system
  | .abandon => match system.worker with
    | .finished _ => { system with worker := .idle }
    | _ => system
  | .restart instanceId =>
    if system.host.binding.epoch < Guardian.lastEpoch then
      { system with
        host := { system.host with
          binding := { epoch := system.host.binding.epoch + 1, instanceId := instanceId } }
        worker := .idle
        awaiting := none
        inbox := none }
    else system

def after (actions : List Action) : System := actions.foldl (apply frame) system

/-- How often an action makes the guardian spawn a Run. -/
def spawns (action : Action) (run : RunId) : Nat :=
  match system.guardian, system.call action with
  | some guardian, some (world, call) =>
    Guardian.spawnCount run (Guardian.serve frame world call guardian 0).journal
  | _, _ => 0

end

def initial (intent : ScopeCreationIntent) : System where
  host := { intent := intent, binding := intent.createdBy, launched := false
            closeRequested := false, intents := ∅, stops := [], runs := ∅, scope := none }
  worker := .idle
  awaiting := none
  inbox := none
  guardian := none
  queue := []
  tickets := 0

/-- Some process of the Scope may still be running. -/
def Running (system : System) : Prop :=
  ∃ guardian, system.guardian = some guardian ∧ ∃ (run : RunId) (record : RunRecord),
    guardian.runtime.runs[run]? = some record ∧ record.isComplete = false

/-- The host has recorded that the Run was not started and left nothing behind. -/
def RecordedNotStarted (system : System) (run : RunId) : Prop :=
  ∃ snapshot, system.host.runs[run]? = some snapshot ∧ snapshot.launch.isNotStarted = true ∧
    snapshot.cleanup.isComplete = true

end System

end OraDesktop.Process
