import OraDesktop.Lib.Journal
import OraDesktop.Process.ScopeRuntime

/-!
# The guardian of a Scope

One guardian process owns one Scope. It accepts Runs by committing a row to its journal, a SQLite
database that only this process ever opens, and only then lets the runtime spawn them; it answers
from the journal, never from memory. Hosts take the guardian over by binding themselves with a
higher epoch, and every Run operation carries the binding it was issued under.

A procedure here is a `Proc` over the whole guardian. What the outside decides while a call runs is
a `World`, asked with a fresh number for every question: whether a read fails, what becomes of a
write, the clock and the platform. A write that fails may have taken effect all the same, and a
transaction that could be neither committed nor rolled back stays open on the connection, whose
reads then see what was never committed.

Journal rows hold MessagePack; the model keeps the values, and `Frame` says which of them fit a
frame. Requests are taken after `serve_probe` has matched version, Scope and socket.
-/

namespace OraDesktop.Process

open Journal
open Proc (commit draw ensure fail whenever)

/-! ### Protocol -/

/-- One incarnation of the host. A restarted host binds with a later epoch, and the guardian then
refuses what the earlier one still sends. -/
structure HostBinding where
  epoch : Nat
  instanceId : Nat
  deriving DecidableEq

structure ScopeCreationIntent where
  scope : ScopeId
  guardian : Nat
  createdBy : HostBinding
  deriving DecidableEq

inductive GuardianChannel where
  | control
  | events
  | io
  deriving DecidableEq

structure GuardianHostSession where
  host : HostBinding
  deriving DecidableEq

inductive GuardianManagementOperation where
  | bind (host : HostBinding)
  | inspect (session : GuardianHostSession)

inductive GuardianManagementRejection where
  | staleHost
  | conflictingHost
  | invalidEpoch
  | wrongChannel
  | staleSession
  | storageUnavailable

inductive GuardianManagementReply where
  | bound (intent : ScopeCreationIntent) (session : GuardianHostSession)
  | current (intent : ScopeCreationIntent) (session : GuardianHostSession)
      (channel : GuardianChannel)
  | rejected (reason : GuardianManagementRejection)

inductive OutputStream where
  | stdout
  | stderr
  deriving DecidableEq

inductive OutputState where
  | «open»
  | eof
  | failed (reason : String)

structure OutputRead where
  bytes : List UInt8
  retained : Nat
  truncated : Bool
  state : OutputState

inductive GuardianRunOperation where
  | start (run : RunId) (spec : RunSpec)
  | query (run : RunId)
  | stop (run : RunId)
  | close
  | scope
  | output (run : RunId) (stream : OutputStream) (offset maxBytes : Nat)
  deriving DecidableEq

def GuardianRunOperation.channel : GuardianRunOperation → GuardianChannel
  | .output _ _ _ _ => .io
  | _ => .control

def GuardianRunOperation.target : GuardianRunOperation → Option RunId
  | .start run _ | .query run | .stop run | .output run _ _ _ => some run
  | .close | .scope => none

structure GuardianRunRequest where
  session : GuardianHostSession
  operation : GuardianRunOperation

inductive GuardianRunRejection where
  | management (reason : GuardianManagementRejection)
  | unknownRun
  | conflictingRun
  | scopeClosed
  | limitExceeded
  | storageUnavailable
  | outputUnavailable

inductive GuardianRunResult where
  | run (snapshot : RunSnapshot)
  | scope (state : ScopeState)
  | output (run : RunId) (stream : OutputStream) (offset : Nat) (output : OutputRead)
  | rejected (reason : GuardianRunRejection)

structure GuardianRunReply where
  intent : ScopeCreationIntent
  session : GuardianHostSession
  result : GuardianRunResult

def guardianRunLimit : Nat := 64
def guardianCaptureLimit : Nat := 1048576
def guardianOutputChunkLimit : Nat := 4096

/-! ### State -/

/-- `guardian_runs`: an accepted Run, with what was last written of it. -/
structure GuardianRow where
  spec : RunSpec
  snapshot : RunSnapshot
  stopRequested : Bool

/-- The guardian's journal, which is what its answers are read from. -/
structure GuardianStore where
  host : HostBinding
  scope : ScopeState
  rows : Map RunId GuardianRow

/-- The connection to the journal, with what an open transaction has written. -/
structure GuardianConnection where
  committed : GuardianStore
  pending : Option GuardianStore

namespace GuardianConnection

variable (connection : GuardianConnection)

def isAutocommit : Bool := connection.pending.isNone

/-- What a statement reads: within an open transaction its own writes too, committed or not. -/
def view : GuardianStore :=
  connection.pending.getD connection.committed

/-- What a statement outside a transaction of its own writes. -/
def write (f : GuardianStore → GuardianStore) : GuardianConnection :=
  match connection.pending with
  | none => { committed := f connection.committed, pending := none }
  | some pending => { connection with pending := some (f pending) }

end GuardianConnection

/-- `Management` with its `Runs`: the journal, and what is lost when the process ends. -/
structure Guardian where
  intent : ScopeCreationIntent
  connection : GuardianConnection
  runtime : ScopeRuntime
  live : List RunId
  settled : Bool

/-- What a commit of a procedure is about. Only a spawn is visible outside the guardian. -/
inductive GuardianEvent where
  | stored
  | stuck
  | remembered
  | spawned (run : RunId) (spec : RunSpec)

/-- What becomes of a write. A reported failure does not say whether it took effect. -/
inductive WriteOutcome where
  | written
  | lost
  /-- It took effect and was reported as failed. -/
  | kept
  /-- It failed and could not be rolled back. -/
  | stuck (pending : GuardianStore)

/-- What the outside answers in the course of one call, by the number of the question, so that no
answer is assumed to stay the same. -/
structure GuardianWorld where
  reads : Nat → Bool
  writes : Nat → WriteOutcome
  now : Nat → Instant
  platform : Nat → Platform
  output : Nat → RunId → OutputStream → Nat → Nat → Except PlatformError OutputRead

/-- Which values `encode_guardian_frame` has room for: a parameter, since the encoding itself is not
modelled. -/
structure Frame where
  spec : RunSpec → Bool
  snapshot : RunSnapshot → Bool

namespace Guardian

abbrev Work (ε α : Type) := Proc Guardian GuardianEvent ε α

variable {ε α : Type} (frame : Frame) (world : GuardianWorld)

def read (unavailable : ε) (f : GuardianStore → α) : Work ε α := do
  let n ← draw
  let guardian ← Proc.get
  if world.reads n then pure (f guardian.connection.view) else fail unavailable

/-- A write to the journal, in a transaction of its own. -/
def write (unavailable : ε) (f : GuardianStore → GuardianStore) : Work ε Unit := do
  let n ← draw
  let guardian ← Proc.get
  let written := { guardian with connection := guardian.connection.write f }
  match world.writes n with
  | .written => commit .stored written
  | .lost => fail unavailable
  | .kept => do
    commit .stored written
    fail unavailable
  | .stuck pending => do
    commit .stuck
      { guardian with connection := { guardian.connection with pending := some pending } }
    fail unavailable

def remember (f : Guardian → Guardian) : Work ε Unit := do
  let guardian ← Proc.get
  commit .remembered (f guardian)

/-! ### Runs -/

/-- The Run as the journal has it: what was never recorded is unknown, whatever the runtime has. -/
def snapshot (run : RunId) : Work GuardianRunRejection RunSnapshot := do
  let row ← read world .storageUnavailable (·.rows[run]?)
  match row with
  | some row => pure row.snapshot
  | none => fail .unknownRun

def scopeState : Work GuardianRunRejection ScopeState :=
  read world .storageUnavailable (·.scope)

/-- The snapshot of an accepted Run before anything was observed. It says that the launch is
unknown, which is true also if the process ends before the spawn. -/
def accepted (run : RunId) : RunSnapshot where
  id := run
  launch := .unknown "accepted; execution not yet observed"
  direct := .unknown
  cleanup := .pending

def capturesTooMuch : OutputPolicy → Bool
  | .capture stdoutLimit stderrLimit =>
    decide (stdoutLimit > guardianCaptureLimit) || decide (stderrLimit > guardianCaptureLimit)
  | .discard => false

section

variable (run : RunId) (spec : RunSpec)

/-- `self.runtime.start`: the only place where the platform is asked to spawn. -/
def launch : Work GuardianRunRejection Unit := do
  let n ← draw
  let guardian ← Proc.get
  let answer := guardian.runtime.start (world.platform n) run spec
  whenever (guardian.runtime.spawns run)
    (commit (.spawned run spec) { guardian with runtime := answer.1 })
  match answer.2 with
  | .ok _ => pure ()
  | .error _ => fail .storageUnavailable

def acceptedRow : GuardianRow where
  spec := spec
  snapshot := accepted run
  stopRequested := false

def withRow (store : GuardianStore) : GuardianStore :=
  { store with rows := store.rows.insert run (acceptedRow run spec) }

/-- Accepts a Run that is not known yet and launches it. The row is committed first: a spawn without
a row could be repeated. -/
def accept : Work GuardianRunRejection Unit := do
  let scope ← scopeState world
  ensure (scope = .open) .scopeClosed
  let count ← read world .storageUnavailable (·.rows.size)
  ensure (count < guardianRunLimit ∧ capturesTooMuch spec.output = false) .limitExceeded
  ensure (frame.spec spec) .limitExceeded
  ensure (frame.snapshot (accepted run)) .storageUnavailable
  write world .storageUnavailable (withRow run spec)
  remember fun guardian => { guardian with live := guardian.live ++ [run] }
  launch world run spec

/-- Replays an accepted identity without executing it. The same identity with another specification
is a conflict. -/
def start : Work GuardianRunRejection Unit := do
  let existing ← read world .storageUnavailable (·.rows[run]?)
  match existing with
  | some row => ensure (row.spec = spec) .conflictingRun
  | none => accept frame world run spec

end

/-- `self.runtime.stop_run` with `StopRequest::Force`. -/
def forceStop (run : RunId) : Work GuardianRunRejection Unit := do
  let n ← draw
  let guardian ← Proc.get
  let answer := guardian.runtime.stopRun run .force (world.now n)
  commit .remembered { guardian with runtime := answer.1 }
  match answer.2 with
  | .ok () => pure ()
  | .error _ => fail .storageUnavailable

/-- `self.runtime.close` with `StopRequest::Force`. -/
def forceClose : Work GuardianRunRejection Unit := do
  let n ← draw
  let guardian ← Proc.get
  let answer := guardian.runtime.close .force (world.now n)
  commit .remembered { guardian with runtime := answer.1 }
  match answer.2 with
  | .ok () => pure ()
  | .error _ => fail .storageUnavailable

/-- Reapplies a durable stop of one Run. A row that is not found is an error of the read. -/
def restoreStop (run : RunId) : Work GuardianRunRejection Unit := do
  let row ← read world .storageUnavailable (·.rows[run]?)
  match row with
  | some row => whenever row.stopRequested (forceStop world run)
  | none => fail .storageUnavailable

def restoreStopIntents : Work GuardianRunRejection Unit := do
  let guardian ← Proc.get
  ensure guardian.connection.isAutocommit .storageUnavailable
  let scope ← scopeState world
  whenever (scope ≠ .open) (forceClose world)
  guardian.live.forM (restoreStop world)

/-- Writes what the runtime knows of a Run to its row, which is what a restarted host is answered
from. -/
def saveSnapshot (run : RunId) : Work GuardianRunRejection Unit := do
  let guardian ← Proc.get
  match guardian.runtime.run run with
  | none => fail .storageUnavailable
  | some current => do
    ensure (frame.snapshot current) .storageUnavailable
    write world .storageUnavailable fun store =>
      { store with rows := store.rows.modify run fun row => { row with snapshot := current } }

/-- Writes the state of the runtime to the journal. An accepted Run without a live handle keeps the
Scope from being reported as cleaned up. -/
def saveScope : Work GuardianRunRejection Unit := do
  let count ← read world .storageUnavailable (·.rows.size)
  let guardian ← Proc.get
  whenever (count = guardian.live.length) do
    write world .storageUnavailable fun store => { store with scope := guardian.runtime.state }
    remember fun after => { after with settled := guardian.runtime.state.isClosed }

/-- Continues cleanup. A failure of the journal does not keep the runtime from advancing. -/
def reconcile : Work GuardianRunRejection Unit := do
  let guardian ← Proc.get
  whenever (guardian.settled = false) do
    let intents ← (restoreStopIntents world).attempt
    let n ← draw
    remember fun guardian => { guardian with
      runtime := (guardian.runtime.reconcile (world.platform n) (world.now n)).1 }
    match intents with
    | .error reason => fail reason
    | .ok () => do
      let guardian ← Proc.get
      guardian.live.forM (saveSnapshot frame world)
      saveScope world

/-- Commits the intent to close, before anything is stopped. -/
def closeScope : Work GuardianRunRejection Unit := do
  let scope ← scopeState world
  whenever (scope = .open) <|
    write world .storageUnavailable fun store => { store with
      scope := .closing
      rows := store.rows.map fun _ row => { row with stopRequested := true } }

/-- Commits the intent to stop a Run, so that the stop survives the call that asked for it. -/
def requestStop (run : RunId) : Work GuardianRunRejection Unit := do
  let _ ← snapshot world run
  write world .storageUnavailable fun store =>
    { store with rows := store.rows.modify run fun row => { row with stopRequested := true } }

/-- Every intent is committed before its side effect, and answers are read back from the journal. -/
def applyRun (operation : GuardianRunOperation) : Work GuardianRunRejection GuardianRunResult := do
  let guardian ← Proc.get
  ensure guardian.connection.isAutocommit .storageUnavailable
  match operation with
  | .start run spec => do
    start frame world run spec
    reconcile frame world
    return .run (← snapshot world run)
  | .query run => do
    reconcile frame world
    return .run (← snapshot world run)
  | .stop run => do
    requestStop world run
    reconcile frame world
    return .run (← snapshot world run)
  | .close => do
    closeScope world
    reconcile frame world
    return .scope (← scopeState world)
  | .scope => do
    reconcile frame world
    return .scope (← scopeState world)
  | .output run stream offset maxBytes => do
    ensure (maxBytes ≤ guardianOutputChunkLimit) .limitExceeded
    let _ ← snapshot world run
    let n ← draw
    match world.output n run stream offset maxBytes with
    | .ok output => return .output run stream offset output
    | .error _ => fail .outputUnavailable

/-! ### Management -/

/-- The last epoch the journal can hold: it stores an `i64`. -/
def lastEpoch : Nat := 2 ^ 63 - 1

section

variable (channel : GuardianChannel) (operation : GuardianManagementOperation)

/-- Takeover and inspection, at the moment they execute. -/
def applyManagement : Work GuardianManagementRejection GuardianManagementReply := do
  let guardian ← Proc.get
  ensure guardian.connection.isAutocommit .storageUnavailable
  let current ← read world .storageUnavailable (·.host)
  match operation with
  | .bind host => do
    ensure (channel = .control) .wrongChannel
    ensure (host.epoch ≤ lastEpoch) .invalidEpoch
    ensure (current.epoch ≤ host.epoch) .staleHost
    ensure (host.epoch = current.epoch → host.instanceId = current.instanceId)
      .conflictingHost
    whenever (host ≠ current) <|
      write world .storageUnavailable fun store => { store with host := host }
    return .bound guardian.intent { host := host }
  | .inspect session => do
    ensure (session.host = current) .staleSession
    return .current guardian.intent session channel

/-- `Management::execute` -/
def executeManagement : Work ε GuardianManagementReply := do
  match ← (applyManagement world channel operation).attempt with
  | .ok reply => return reply
  | .error reason => return .rejected reason

end

/-- `Runs::execute` -/
def executeOperation (operation : GuardianRunOperation) : Work ε GuardianRunResult := do
  match ← (applyRun frame world operation).attempt with
  | .ok result => return result
  | .error reason => return .rejected reason

/-- `Management::execute_run`: the binding is checked right before the operation runs. -/
def executeRun (channel : GuardianChannel) (request : GuardianRunRequest) :
    Work ε GuardianRunReply := do
  let guardian ← Proc.get
  let reply (result : GuardianRunResult) : GuardianRunReply :=
    { intent := guardian.intent, session := request.session, result := result }
  if channel ≠ request.operation.channel then
    pure (reply (.rejected (.management .wrongChannel)))
  else do
    match ← (applyManagement world channel (.inspect request.session)).attempt with
    | .ok _ => return reply (← executeOperation frame world request.operation)
    | .error reason => return reply (.rejected (.management reason))

/-- What the guardian is asked to do: by a host over a channel, or by its own clock. -/
inductive Call where
  | management (channel : GuardianChannel) (operation : GuardianManagementOperation)
  | run (channel : GuardianChannel) (request : GuardianRunRequest)
  /-- The background tick. -/
  | reconcile

inductive Reply where
  | management (reply : GuardianManagementReply)
  | run (reply : GuardianRunReply)
  | none

/-- One call, under the mutex every call holds: calls do not interleave, however they arrive. -/
def serve (world : GuardianWorld) : Call → Work Empty Reply
  | .management channel operation => do
    return .management (← executeManagement world channel operation)
  | .run channel request => do
    return .run (← executeRun frame world channel request)
  | .reconcile => do
    let _ ← (Guardian.reconcile frame world).attempt
    return .none

/-- A guardian right after `initialize` and `Management::new`. -/
def Initial (guardian : Guardian) : Prop :=
  guardian.connection = { committed := { host := guardian.intent.createdBy, scope := .open, rows := ∅ }
                          pending := none } ∧
    guardian.live = [] ∧ guardian.settled = false ∧
    ∃ capabilities, ScopeRuntime.new .bestEffort capabilities = .ok guardian.runtime

end Guardian

end OraDesktop.Process
