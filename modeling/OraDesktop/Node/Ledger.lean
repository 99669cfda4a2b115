import OraDesktop.Lib.Journal
import OraDesktop.Text

/-!
# The execution ledger of a Node

A Node accepts executions of five families for its Controller, under the control of a Cloud that
binds the runtime: a binding names the tenant, the workspace, the sandbox, the epochs and the
business intent it was issued for, and a permit is a binding for one execution. The ledger records
every acceptance and start before anything is done for it.

Each operation is a procedure that reads the ledger, may be refused a write before it takes effect
or lose the acknowledgement after it did, and journals what it commits. What the operations do not
look into is left open: the semantic validation of commands, the evidence a completion brings, and
everything about worktree executions, process attempts and restores but the liabilities they leave.
The unfinished executions a binding is answered with are not part of its result here.
-/

namespace OraDesktop.Node

/-! ### Bindings -/

abbrev ExecutionId := String

abbrev OperationId := String

abbrev NodeId := String

/-- `MessageValidationError`, as far as it is raised here. -/
inductive ValidationError where
  | emptyField (field : String)
  | invalidRuntimeBinding
  | command (reason : String)

/-- The boundaries at which a write guard may refuse a write. -/
inductive WritePoint where
  | accept
  | progress
  | complete

inductive Error where
  | sql
  | nodeMismatch
  | identityConflict
  | resourceConflict
  | invalidTransition
  | validation (error : ValidationError)
  | injected (point : WritePoint)

structure RuntimeBinding where
  tenantId : String
  workspaceId : String
  sandboxId : String
  runtimeGeneration : Int
  nodeId : NodeId
  nodeIncarnationId : String
  nodeInstanceId : String
  controllerEpoch : Int
  controlEpoch : Int
  controlVersion : Int
  sessionId : String
  actorUserId : String
  operationId : String
  executionId : ExecutionId
  nodeOperationId : OperationId
  inputClosed : Bool
  issuedAtMs : Int
  expiresAtMs : Int
  deriving DecidableEq

/-- The fields every binding names, with their names. -/
def RuntimeBinding.named (binding : RuntimeBinding) : List (String × String) :=
  [("tenant_id", binding.tenantId), ("workspace_id", binding.workspaceId),
    ("sandbox_id", binding.sandboxId), ("node_id", binding.nodeId),
    ("node_incarnation_id", binding.nodeIncarnationId),
    ("node_instance_id", binding.nodeInstanceId)]

def RuntimeBinding.validate (binding : RuntimeBinding) : Except ValidationError Unit :=
  match binding.named.find? fun (_, value) =>
      (Text.trim value).isEmpty || decide (256 < value.utf8ByteSize) with
  | some (field, _) => .error (.emptyField field)
  | none =>
    if binding.controllerEpoch ≤ 0 ∨ binding.controlEpoch < 0 ∨ binding.controlVersion ≤ 0 ∨
        binding.runtimeGeneration ≤ 0 ∨ binding.issuedAtMs ≤ 0 ∨
        (binding.inputClosed = false ∧
          (binding.controlEpoch = 0 ∨ binding.expiresAtMs ≤ binding.issuedAtMs ∨
            60000 < binding.expiresAtMs - binding.issuedAtMs ∨
            binding.sessionId.isEmpty = binding.operationId.isEmpty)) then
      .error .invalidRuntimeBinding
    else .ok ()

/-- The permit is neither closed, nor from the future, nor old, nor about to expire. -/
def RuntimeBinding.isLive (permit : RuntimeBinding) (now : Int) : Bool :=
  !(permit.inputClosed || decide (now + 2000 < permit.issuedAtMs) ||
    decide (10000 < now - permit.issuedAtMs) || decide (permit.expiresAtMs ≤ now + 2000))

/-- What a permit has to agree on with the binding that is stored. -/
def RuntimeBinding.matches (permit bound : RuntimeBinding) : Bool :=
  !(bound.inputClosed ||
    decide (permit.tenantId ≠ bound.tenantId) || decide (permit.workspaceId ≠ bound.workspaceId) ||
    decide (permit.sandboxId ≠ bound.sandboxId) ||
    decide (permit.runtimeGeneration ≠ bound.runtimeGeneration) ||
    decide (permit.nodeId ≠ bound.nodeId) ||
    decide (permit.nodeIncarnationId ≠ bound.nodeIncarnationId) ||
    decide (permit.controllerEpoch ≠ bound.controllerEpoch) ||
    decide (permit.controlEpoch ≠ bound.controlEpoch) ||
    decide (permit.sessionId ≠ bound.sessionId) ||
    decide (permit.actorUserId ≠ bound.actorUserId) ||
    decide (permit.operationId ≠ bound.operationId) || permit.executionId.isEmpty)

/-! ### Commands and records -/

inductive Family where
  | worktree
  | clone
  | plugin
  | agentSession
  | deliverRevision
  | deliverScheduledArtifacts
  deriving DecidableEq

/-- A command that is addressed to a Node; the body is what the ledger only compares. -/
structure Message where
  operationId : OperationId
  executionId : ExecutionId
  nodeId : NodeId
  body : String
  deriving DecidableEq

structure StartAgentSessionMessage extends Message where
  checkoutExecutionId : ExecutionId
  deriving DecidableEq

/-- An upload names no Node, so nothing compares one with the Node that receives it. -/
structure DeliverScheduledArtifactsMessage where
  operationId : OperationId
  executionId : ExecutionId
  body : String
  deriving DecidableEq

/-- The commands of the five families, each with its own table and its own rules for what may run
beside it. -/
inductive Command where
  | clone (message : Message)
  | plugins (message : Message)
  | startAgentSession (message : StartAgentSessionMessage)
  | deliverRevision (message : Message)
  | deliverScheduledArtifacts (message : DeliverScheduledArtifactsMessage)
  deriving DecidableEq

namespace Command

def family : Command → Family
  | .clone _ => .clone
  | .plugins _ => .plugin
  | .startAgentSession _ => .agentSession
  | .deliverRevision _ => .deliverRevision
  | .deliverScheduledArtifacts _ => .deliverScheduledArtifacts

def operation : Command → OperationId
  | .clone message | .plugins message | .deliverRevision message => message.operationId
  | .startAgentSession message => message.operationId
  | .deliverScheduledArtifacts message => message.operationId

def execution : Command → ExecutionId
  | .clone message | .plugins message | .deliverRevision message => message.executionId
  | .startAgentSession message => message.executionId
  | .deliverScheduledArtifacts message => message.executionId

def node : Command → Option NodeId
  | .clone message | .plugins message | .deliverRevision message => some message.nodeId
  | .startAgentSession message => some message.nodeId
  | .deliverScheduledArtifacts _ => none

def checkout : Command → Option ExecutionId
  | .startAgentSession message => some message.checkoutExecutionId
  | _ => none

end Command

structure PathBuf where
  isAbsolute : Bool
  components : List String
  deriving DecidableEq

def PathBuf.parent (path : PathBuf) : Option PathBuf :=
  if path.components = [] then none
  else some { path with components := path.components.dropLast }

def PathBuf.startsWith (path base : PathBuf) : Bool :=
  decide (path.isAbsolute = base.isAbsolute) && decide (base.components <+: path.components)

structure CloneTarget where
  repositoryId : String
  root : PathBuf
  path : PathBuf

inductive State where
  | accepted
  | running
  | unknown
  | completed
  deriving DecidableEq

structure Execution where
  command : Command
  target : Option CloneTarget
  state : State

/-- A row of `execution_identities`. Both identities are unique over all families, so a retry is
recognised by either. -/
structure Identity where
  operation : OperationId
  execution : ExecutionId
  kind : Family

/-- A row of `execution_control`: the permit an execution was accepted under, and whether it was
started by it. -/
structure Control where
  execution : ExecutionId
  permit : RuntimeBinding
  started : Bool

structure Ledger where
  nodeId : NodeId
  /-- `runtime_enforcement` -/
  enforced : Bool
  /-- `runtime_binding` -/
  binding : Option RuntimeBinding
  control : List Control
  /-- The records of the five families, each with its identity. -/
  executions : List Execution
  /-- The identities of worktree executions. -/
  worktrees : List (OperationId × ExecutionId)
  /-- Executions with an unfinished worktree or a process that is not cleaned up. -/
  liabilities : List ExecutionId
  /-- Restores of unknown outcome. -/
  legacyRestores : List ExecutionId
  /-- The paths of active worktrees. -/
  resources : List PathBuf

namespace Ledger

section

variable (ledger : Ledger)

def identities : List Identity :=
  (ledger.executions.map fun record =>
    ⟨record.command.operation, record.command.execution, record.command.family⟩) ++
  ledger.worktrees.map fun (operation, execution) => ⟨operation, execution, .worktree⟩

def identityKind (operation : OperationId) (execution : ExecutionId) :
    Except Error (Option Family) :=
  match ledger.identities.find? fun identity =>
      decide (identity.operation = operation) || decide (identity.execution = execution) with
  | some identity =>
    if identity.operation = operation ∧ identity.execution = execution then .ok (some identity.kind)
    else .error .identityConflict
  | none => .ok none

def read (family : Family) (execution : ExecutionId) : Option Execution :=
  ledger.executions.find? fun record =>
    decide (record.command.family = family) && decide (record.command.execution = execution)

/-- `find_clone`, `find_plugins`, `find_session`, `find_delivery` and `find_scheduled_artifacts`. -/
def find (family : Family) (operation : OperationId) (execution : ExecutionId) :
    Except Error (Option Execution) :=
  match ledger.identityKind operation execution with
  | .error error => .error error
  | .ok kind =>
    if kind.any (· ≠ family) then .error .identityConflict else .ok (ledger.read family execution)

/-- The unfinished executions but those of the peer family. -/
def unfinishedExecutionsBeside (peer : Option Family) : List ExecutionId :=
  ((ledger.executions.filter fun record =>
      decide (record.state ≠ .completed) && decide (peer ≠ some record.command.family)).map
    fun record => record.command.execution) ++ ledger.liabilities ++ ledger.legacyRestores

def unfinishedRuntimeExecutions : List ExecutionId :=
  ledger.unfinishedExecutionsBeside none

/-- Runtime control was required of this home. -/
def fenced : Bool := ledger.enforced || ledger.binding.isSome

def overlaps (path : PathBuf) : Bool :=
  (ledger.resources ++ ledger.executions.filterMap fun record => record.target.map (·.path)).any
    fun taken => taken.startsWith path || path.startsWith taken

/-- What a clone's destination must not be: of a blank repository, anywhere but directly below an
absolute root, or in the way of a path that is taken. -/
def refusesTarget (target : CloneTarget) : Bool :=
  (Text.trim target.repositoryId).isEmpty || !target.root.isAbsolute ||
    decide (target.path.parent ≠ some target.root) || ledger.overlaps target.path

/-- `clone_executions.repository` is unique. -/
def repositoryTaken (target : Option CloneTarget) : Bool :=
  target.any fun target => ledger.executions.any fun record =>
    record.target.any fun other => decide (other.repositoryId = target.repositoryId)

def checkoutTaken (checkout : ExecutionId) : Bool :=
  ledger.executions.any fun record =>
    decide (record.command.family = .agentSession) &&
      (decide (record.state ≠ .completed) ||
        decide (record.command.execution ∈ ledger.legacyRestores)) &&
      decide (record.command.checkout = some checkout)

/-- A record, its identity and its control, in one transaction. -/
def register (record : Execution) (permit : Option RuntimeBinding) (started : Bool) : Ledger :=
  { ledger with
    executions := ledger.executions ++ [record]
    control := ledger.control ++
      (permit.map fun permit => ⟨record.command.execution, permit, started⟩).toList }

def markStarted (execution : ExecutionId) : Ledger :=
  { ledger with control := ledger.control.map fun row =>
      if row.execution = execution then { row with started := true } else row }

def setState (family : Family) (execution : ExecutionId) (state : State) : Ledger :=
  { ledger with executions := ledger.executions.map fun record =>
      if record.command.family = family ∧ record.command.execution = execution then
        { record with state := state }
      else record }

end

/-- A binding may take the place of the one that is stored: epochs move forward, and while something
is unfinished the responsibility stays. -/
def supersedes (binding old : RuntimeBinding) (unfinished : List ExecutionId) : Bool :=
  !(decide (old.tenantId ≠ binding.tenantId) || decide (old.workspaceId ≠ binding.workspaceId) ||
    decide (binding.runtimeGeneration < old.runtimeGeneration) ||
    (decide (binding.runtimeGeneration = old.runtimeGeneration) &&
      decide (old.sandboxId ≠ binding.sandboxId)) ||
    (decide (old.runtimeGeneration < binding.runtimeGeneration) &&
      (!old.inputClosed || !unfinished.isEmpty || decide (binding.controlEpoch ≤ old.controlEpoch))) ||
    decide (binding.controllerEpoch < old.controllerEpoch) ||
    decide (binding.controlEpoch < old.controlEpoch) ||
    (decide (binding.controlEpoch = old.controlEpoch) &&
      (decide (binding.controlVersion < old.controlVersion) ||
        (old.inputClosed && !binding.inputClosed) ||
        decide (old.sessionId ≠ binding.sessionId) ||
        decide (old.operationId ≠ binding.operationId) ||
        decide (old.actorUserId ≠ binding.actorUserId))) ||
    (decide (old.controlEpoch < binding.controlEpoch) && !unfinished.isEmpty))

end Ledger

/-! ### Operations -/

/-- What an operation commits or grants. A grant writes nothing, but work may begin once it is
given. -/
inductive LedgerEvent where
  | enforced
  | bound (binding : RuntimeBinding)
  /-- The permit with the clock it was found live by. -/
  | accepted (command : Command) (permit : Option (RuntimeBinding × Int))
  | started (execution : ExecutionId)
  /-- The execution may be worked on. -/
  | granted (execution : ExecutionId)
  | progressed (execution : ExecutionId)
  | completed (execution : ExecutionId)
  | elsewhere
  deriving DecidableEq

inductive WriteOutcome where
  | written
  /-- Refused before it took effect. -/
  | refused
  /-- In effect, but reported as failed. -/
  | unacknowledged

/-- What the outside answers. The clock may be out of range, and is read anew by each operation. -/
structure World where
  writes : Nat → WriteOutcome
  now : Nat → Option Int

/-- The semantic validation of commands, which looks at nothing but the command. -/
abbrev Protocol := Command → Option String

open Journal
open Proc (commit draw ensure fail note whenever)

abbrev Work := Proc Ledger LedgerEvent Error

namespace Ledger

variable (protocol : Protocol) (world : World)

def write (point : WritePoint) (event : LedgerEvent) (ledger : Ledger) : Work Unit := do
  let n ← draw
  match world.writes n with
  | .written => commit event ledger
  | .refused => fail (.injected point)
  | .unacknowledged =>
    commit event ledger
    fail .sql

def nowMs : Work Int := do
  let n ← draw
  match world.now n with
  | some now => pure now
  | none => fail .invalidTransition

def live (permit : RuntimeBinding) : Work Int := do
  let now ← nowMs world
  ensure (permit.isLive now = true) .invalidTransition
  pure now

def checked (result : Except ValidationError Unit) : Work Unit :=
  match result with
  | .ok () => pure ()
  | .error error => fail (.validation error)

def enforceRuntimeControl : Work Unit := do
  let ledger ← Proc.get
  write world .accept .enforced { ledger with enforced := true }

/-- A new Node process closes the input an earlier one left. -/
def enforceRuntimeIncarnation (incarnation : String) : Work Unit := do
  enforceRuntimeControl world
  let ledger ← Proc.get
  match ledger.binding with
  | some binding =>
    whenever (binding.nodeIncarnationId ≠ incarnation)
      (write world .accept (.bound { binding with inputClosed := true })
        { ledger with binding := some { binding with inputClosed := true } })
  | none => pure ()

/-- A binding supersedes the one that is there; a first one that is open needs that no execution is
unfinished. -/
def checkBinding (ledger : Ledger) (binding : RuntimeBinding) : Work Unit :=
  match ledger.binding with
  | some old =>
    ensure (supersedes binding old ledger.unfinishedRuntimeExecutions = true) .invalidTransition
  | none =>
    ensure (binding.inputClosed = true ∨ ledger.unfinishedRuntimeExecutions = [])
      .resourceConflict

def bindRuntime (binding : RuntimeBinding) : Work Unit := do
  checked binding.validate
  let ledger ← Proc.get
  ensure (binding.nodeId = ledger.nodeId) .nodeMismatch
  checkBinding ledger binding
  whenever (binding.inputClosed = false) (do
    let _ ← live world binding
    pure ())
  write world .accept (.bound binding) { ledger with binding := some binding }

/-- The permit is complete, live, and the one that is bound. Returns the clock by which it was
live. -/
def validateRuntimePermit (permit : RuntimeBinding) : Work Int := do
  checked permit.validate
  let now ← live world permit
  let ledger ← Proc.get
  ensure (ledger.binding.any permit.matches = true) .invalidTransition
  pure now

def startControlledExecutionFor (execution : ExecutionId) (incarnation : Option String) :
    Work Bool := do
  let ledger ← Proc.get
  match ledger.control.find? fun row => decide (row.execution = execution) with
  | none =>
    if ledger.fenced then pure false
    else do
      note (.granted execution)
      pure true
  | some row =>
    if incarnation.any (· ≠ row.permit.nodeIncarnationId) then pure false
    else if row.started then do
      note (.granted execution)
      pure true
    else do
      let valid ← (validateRuntimePermit world row.permit).attempt
      match valid with
      | .error .invalidTransition => pure false
      | .error error => fail error
      | .ok _ =>
        write world .progress (.started execution) (ledger.markStarted execution)
        note (.granted execution)
        pure true

/-! ### Acceptance -/

/-- Deduplicates the whole input, then records it with its control. -/
def acceptInput (command : Command) (target : Option CloneTarget)
    (permit : Option (RuntimeBinding × Int)) (peer : Option Family) (refused : Ledger → Bool)
    (state : State) (started : Bool) : Work Execution := do
  match protocol command with
  | some reason => fail (.validation (.command reason))
  | none =>
    let ledger ← Proc.get
    ensure (command.node.all (· = ledger.nodeId) = true) .nodeMismatch
    match ledger.find command.family command.operation command.execution with
    | .error error => fail error
    | .ok (some record) =>
      ensure (record.command = command) .identityConflict
      pure record
    | .ok none =>
      ensure (permit.isSome = true → ledger.unfinishedExecutionsBeside peer = [])
        .resourceConflict
      ensure (refused ledger = false) .resourceConflict
      ensure (ledger.repositoryTaken target = false) .sql
      write world .accept (.accepted command permit)
        (ledger.register ⟨command, target, state⟩ (permit.map (·.1)) started)
      pure ⟨command, target, state⟩

/-- A bare input is accepted only in a home that never required runtime control. -/
def unfenced (m : Work Execution) : Work Execution := do
  let ledger ← Proc.get
  ensure (ledger.fenced = false) .invalidTransition
  m

/-- The permit is for exactly this execution. -/
def issuedFor (permit : RuntimeBinding) (command : Command) : Prop :=
  permit.executionId = command.execution ∧ permit.nodeOperationId = command.operation

instance (permit : RuntimeBinding) (command : Command) : Decidable (issuedFor permit command) :=
  inferInstanceAs (Decidable (_ ∧ _))

/-- `validate` of an envelope. -/
def validateEnvelope (command : Command) (permit : RuntimeBinding) : Work Unit := do
  checked permit.validate
  match protocol command with
  | some reason => fail (.validation (.command reason))
  | none =>
    ensure (permit.inputClosed = false ∧ issuedFor permit command ∧
      command.node.all (· = permit.nodeId) = true) (.validation .invalidRuntimeBinding)

section

variable (message : Message)

/-- The clone family has no fence of its own: a bare clone is accepted whether or not the home is
under control. -/
def acceptClone (target : CloneTarget) : Work Execution :=
  acceptInput protocol world (.clone message) (some target) none none (·.refusesTarget target)
    .accepted false

def acceptControlledClone (target : CloneTarget) (permit : RuntimeBinding) : Work Execution := do
  let now ← validateRuntimePermit world permit
  ensure (issuedFor permit (.clone message)) .identityConflict
  acceptInput protocol world (.clone message) (some target) (some (permit, now)) none
    (·.refusesTarget target) .accepted false

def acceptPlugins : Work Execution :=
  unfenced (acceptInput protocol world (.plugins message) none none none (fun _ => false)
    .accepted false)

def acceptControlledPlugins (permit : RuntimeBinding) : Work Execution := do
  validateEnvelope protocol (.plugins message) permit
  let now ← validateRuntimePermit world permit
  acceptInput protocol world (.plugins message) none (some (permit, now)) none (fun _ => false)
    .accepted false

end

def acceptSession (message : StartAgentSessionMessage) : Work Execution :=
  unfenced (acceptInput protocol world (.startAgentSession message) none none none
    (·.checkoutTaken message.checkoutExecutionId) .accepted false)

def acceptControlledSession (message : StartAgentSessionMessage) (permit : RuntimeBinding) :
    Work Execution := do
  let now ← validateRuntimePermit world permit
  ensure (issuedFor permit (.startAgentSession message)) .identityConflict
  acceptInput protocol world (.startAgentSession message) none (some (permit, now)) none
    (·.checkoutTaken message.checkoutExecutionId) .accepted false

/-- Cloud lets an upload run beside a Revision delivery. -/
def acceptDelivery (message : Message) : Work Execution :=
  unfenced (acceptInput protocol world (.deliverRevision message) none none
    (some .deliverScheduledArtifacts) (fun _ => false) .running true)

def acceptControlledDelivery (message : Message) (permit : RuntimeBinding) : Work Execution := do
  validateEnvelope protocol (.deliverRevision message) permit
  let now ← validateRuntimePermit world permit
  acceptInput protocol world (.deliverRevision message) none (some (permit, now))
    (some .deliverScheduledArtifacts) (fun _ => false) .running true

def acceptScheduledArtifacts (message : DeliverScheduledArtifactsMessage) : Work Execution :=
  unfenced (acceptInput protocol world (.deliverScheduledArtifacts message) none none
    (some .deliverRevision) (fun _ => false) .running true)

def acceptControlledScheduledArtifacts (message : DeliverScheduledArtifactsMessage)
    (permit : RuntimeBinding) : Work Execution := do
  validateEnvelope protocol (.deliverScheduledArtifacts message) permit
  let now ← validateRuntimePermit world permit
  acceptInput protocol world (.deliverScheduledArtifacts message) none (some (permit, now))
    (some .deliverRevision) (fun _ => false) .running true

/-! ### Start and completion -/

/-- Checks the record at the entrance of an execution, then the authority, and records that it
runs. -/
def startRecord (command : Command) (startable : State → Bool) (incarnation : String) :
    Work Bool := do
  let ledger ← Proc.get
  match ledger.find command.family command.operation command.execution with
  | .error error => fail error
  | .ok none => fail .identityConflict
  | .ok (some record) =>
    ensure (record.command = command ∧ startable record.state = true) .invalidTransition
    let allowed ← startControlledExecutionFor world command.execution (some incarnation)
    if allowed then do
      let ledger ← Proc.get
      write world .progress (.progressed command.execution)
        (ledger.setState command.family command.execution .running)
      pure true
    else pure false

def startPlugins (message : Message) (incarnation : String) : Work Bool :=
  startRecord world (.plugins message) (· ≠ .completed) incarnation

def startSession (message : StartAgentSessionMessage) (incarnation : String) : Work Bool :=
  startRecord world (.startAgentSession message) (· = .accepted) incarnation

/-- `advance_clone`: never from or to a terminal state. -/
def advanceClone (execution : ExecutionId) (state : State) : Work Unit := do
  let ledger ← Proc.get
  ensure ((ledger.read .clone execution).any (·.state ≠ .completed) = true ∧
    state ≠ .completed) .invalidTransition
  write world .progress (.progressed execution) (ledger.setState .clone execution state)

/-- Commits a terminal result the record may end with. -/
def complete (family : Family) (execution : ExecutionId) (evidence : Except Error Unit) :
    Work Unit := do
  let ledger ← Proc.get
  match ledger.read family execution with
  | none => fail .identityConflict
  | some record =>
    ensure (record.state ≠ .completed) .invalidTransition
    match evidence with
    | .error error => fail error
    | .ok () =>
      write world .complete (.completed execution) (ledger.setState family execution .completed)

/-- Worktrees, processes and restores go their own way. -/
def elsewhere (worktrees : List (OperationId × ExecutionId)) (liabilities legacyRestores : List ExecutionId)
    (resources : List PathBuf) : Work Unit := do
  let ledger ← Proc.get
  commit .elsewhere { ledger with
    worktrees := worktrees, liabilities := liabilities, legacyRestores := legacyRestores,
    resources := resources }

end Ledger

/-! ### Histories -/

inductive LedgerCall where
  | enforceRuntimeControl
  | enforceRuntimeIncarnation (incarnation : String)
  | bindRuntime (binding : RuntimeBinding)
  | acceptClone (message : Message) (target : CloneTarget)
  | acceptControlledClone (message : Message) (target : CloneTarget) (permit : RuntimeBinding)
  | acceptPlugins (message : Message)
  | acceptControlledPlugins (message : Message) (permit : RuntimeBinding)
  | acceptSession (message : StartAgentSessionMessage)
  | acceptControlledSession (message : StartAgentSessionMessage) (permit : RuntimeBinding)
  | acceptDelivery (message : Message)
  | acceptControlledDelivery (message : Message) (permit : RuntimeBinding)
  | acceptScheduledArtifacts (message : DeliverScheduledArtifactsMessage)
  | acceptControlledScheduledArtifacts (message : DeliverScheduledArtifactsMessage)
      (permit : RuntimeBinding)
  | startControlledExecutionFor (execution : ExecutionId) (incarnation : Option String)
  | startPlugins (message : Message) (incarnation : String)
  | startSession (message : StartAgentSessionMessage) (incarnation : String)
  | advanceClone (execution : ExecutionId) (state : State)
  | complete (family : Family) (execution : ExecutionId) (evidence : Except Error Unit)
  | elsewhere (worktrees : List (OperationId × ExecutionId)) (liabilities legacyRestores : List ExecutionId)
      (resources : List PathBuf)

inductive LedgerReply where
  | done
  | record (record : Execution)
  | started (allowed : Bool)

namespace Ledger

def serve (protocol : Protocol) (world : World) : LedgerCall → Work LedgerReply
  | .enforceRuntimeControl => do
    enforceRuntimeControl world
    pure .done
  | .enforceRuntimeIncarnation incarnation => do
    enforceRuntimeIncarnation world incarnation
    pure .done
  | .bindRuntime binding => do
    bindRuntime world binding
    pure .done
  | .acceptClone message target => .record <$> acceptClone protocol world message target
  | .acceptControlledClone message target permit =>
    .record <$> acceptControlledClone protocol world message target permit
  | .acceptPlugins message => .record <$> acceptPlugins protocol world message
  | .acceptControlledPlugins message permit =>
    .record <$> acceptControlledPlugins protocol world message permit
  | .acceptSession message => .record <$> acceptSession protocol world message
  | .acceptControlledSession message permit =>
    .record <$> acceptControlledSession protocol world message permit
  | .acceptDelivery message => .record <$> acceptDelivery protocol world message
  | .acceptControlledDelivery message permit =>
    .record <$> acceptControlledDelivery protocol world message permit
  | .acceptScheduledArtifacts message => .record <$> acceptScheduledArtifacts protocol world message
  | .acceptControlledScheduledArtifacts message permit =>
    .record <$> acceptControlledScheduledArtifacts protocol world message permit
  | .startControlledExecutionFor execution incarnation =>
    .started <$> startControlledExecutionFor world execution incarnation
  | .startPlugins message incarnation => .started <$> startPlugins world message incarnation
  | .startSession message incarnation => .started <$> startSession world message incarnation
  | .advanceClone execution state => do
    advanceClone world execution state
    pure .done
  | .complete family execution evidence => do
    complete world family execution evidence
    pure .done
  | .elsewhere worktrees liabilities legacyRestores resources => do
    elsewhere worktrees liabilities legacyRestores resources
    pure .done

/-- A home that never required runtime control. It may hold executions from before control was
introduced. -/
structure Initial (ledger : Ledger) : Prop where
  enforced : ledger.enforced = false
  binding : ledger.binding = none
  control : ledger.control = []
  nodup : (ledger.executions.map fun record => record.command.execution).Nodup

end Ledger

end OraDesktop.Node
