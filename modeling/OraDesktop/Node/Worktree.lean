import OraDesktop.Node.Ledger

/-!
# Worktree executions of a Node

A Node creates and removes Git worktrees for its Controller. Every execution is one record whose
progress is written before each Git mutation, and a pass over it — the first one of `submit` or a
later one of `recover` — decides from the recorded progress and a fresh observation of the
checkout, the branch and the directory.

Configuration, filesystem and Git are the outside: what they answer at each place of a pass where
they are asked is a `World`, and so are the fate of every write and the clock. A pass asks at most
once at each `Site`, so the answers of one pass are given by the execution and the site. A failed
read of the database ends a pass as a crash does and is not modelled apart; in a verification it is
one of the failures of `locate`.
-/

namespace OraDesktop.Node

namespace Worktree

open Journal
open Proc (commit draw fail)

/-! ### Commands and results -/

structure RuntimeIdentity where
  nodeId : NodeId
  incarnationId : String
  deriving DecidableEq

/-- `WorktreeExecutionSpec` -/
structure Spec where
  nodeId : NodeId
  workspaceId : String
  worktreeId : String
  repository : String
  mainWorkspace : String
  baseRef : String
  expectedBranch : String
  directoryName : String
  deriving DecidableEq

structure Message where
  requestId : String
  operationId : OperationId
  executionId : ExecutionId
  spec : Spec
  deriving DecidableEq

inductive Command where
  | ensure (message : Message)
  | remove (message : Message)
  deriving DecidableEq

namespace Command

def message : Command → Message
  | .ensure message | .remove message => message

def operationId (command : Command) : OperationId := command.message.operationId

def executionId (command : Command) : ExecutionId := command.message.executionId

def spec (command : Command) : Spec := command.message.spec

def isEnsure : Command → Bool
  | .ensure _ => true
  | .remove _ => false

end Command

/-- The places of a worktree: what a verification compares with the configuration. -/
structure Location where
  mainPath : PathBuf
  gitDirectory : PathBuf
  authorizedRoot : PathBuf
  worktreeRoot : PathBuf
  path : PathBuf
  deriving DecidableEq

/-- The frozen binding and baseline of an execution. Later passes work on these, and only check the
configuration against them. -/
structure Target extends Location where
  branch : String
  baseCommit : String
  deriving DecidableEq

inductive FailureCode where
  | repositoryNotFound
  | mainWorkspaceNotFound
  | invalidMainWorkspace
  | pathOutsideAuthorizedRoot
  | baseRefNotFound
  | branchConflict
  | worktreeConflict
  | identityConflict
  | operationFailed
  | resultUnknown
  deriving DecidableEq

structure Failure where
  code : FailureCode
  message : String
  deriving DecidableEq

structure Report where
  node : RuntimeIdentity
  workspaceId : String
  worktreeId : String
  deriving DecidableEq

structure Facts where
  path : PathBuf
  branch : String
  baseCommit : String
  deriving DecidableEq

inductive RemovalOutcome where
  | removed
  | alreadyAbsent
  deriving DecidableEq

/-- `WorktreeExecutionResult` -/
inductive Result where
  | ready (report : Report) (facts : Facts)
  | failed (report : Report) (failure : Failure)
  | removed (report : Report) (outcome : RemovalOutcome)
  | removalFailed (report : Report) (failure : Failure)
  deriving DecidableEq

namespace Result

def report : Result → Report
  | .ready report _ | .failed report _ | .removed report _ | .removalFailed report _ => report

def isEnsure : Result → Bool
  | .ready _ _ | .failed _ _ => true
  | .removed _ _ | .removalFailed _ _ => false

def failure : Result → Option Failure
  | .failed _ failure | .removalFailed _ failure => some failure
  | .ready _ _ | .removed _ _ => none

end Result

/-! ### Progress and observations -/

inductive Stage where
  | create
  | cleanupCreation
  | removeWorktree
  | removeBranch
  deriving DecidableEq

def Stage.isEnsure : Stage → Bool
  | .create | .cleanupCreation => true
  | .removeWorktree | .removeBranch => false

inductive Progress where
  | accepted
  | running (stage : Stage) (observer : RuntimeIdentity) (observedAt : String)
  | unknown (stage : Stage) (observer : RuntimeIdentity) (observedAt diagnostic : String)
  | completed (result : Result)
  deriving DecidableEq

namespace Progress

/-- The stage and the observer of a progress that `advance` may write. -/
def begun : Progress → Option (Stage × RuntimeIdentity)
  | .running stage observer _ | .unknown stage observer _ _ => some (stage, observer)
  | .accepted | .completed _ => none

def stage (progress : Progress) : Option Stage := progress.begun.map (·.1)

def isCompleted : Progress → Bool
  | .completed _ => true
  | .accepted | .running _ _ _ | .unknown _ _ _ _ => false

end Progress

structure Execution where
  command : Command
  target : Option Target
  progress : Progress

inductive DirectoryState where
  | absent
  | empty
  | nonempty
  deriving DecidableEq

structure Checkout where
  path : PathBuf
  branch : String
  head : String

structure Observation where
  checkout : Option Checkout
  branch : Option String
  directory : DirectoryState
  branchElsewhere : Bool

namespace Observation

def absent (observed : Observation) : Bool :=
  observed.checkout.isNone && observed.branch.isNone && decide (observed.directory = .absent) &&
    !observed.branchElsewhere

/-- The checkout of the target is in place, whatever was committed in it since. -/
def finished (observed : Observation) (target : Target) : Bool :=
  observed.checkout.any fun checkout =>
    !observed.branchElsewhere && decide (observed.branch = some checkout.head) &&
      decide (checkout.branch = target.branch) && decide (checkout.path = target.path) &&
      decide (observed.directory = .nonempty)

end Observation

/-! ### The database -/

inductive ResourceState where
  | reserved
  | present
  | removed
  deriving DecidableEq

structure Resource where
  spec : Spec
  target : Target
  state : ResourceState

namespace Resource

def isActive (resource : Resource) : Bool := decide (resource.state ≠ .removed)

/-- The base ref may differ, everything else that bears ownership may not. -/
def owns (resource : Resource) (spec : Spec) (target : Target) : Bool :=
  decide ({ resource.spec with baseRef := spec.baseRef } = spec) && decide (resource.target = target)

end Resource

structure Database where
  nodeId : NodeId
  executions : List Execution
  resources : List Resource
  /-- The identities of the executions of other families. -/
  others : List Identity
  /-- The destinations of clones. -/
  clonePaths : List PathBuf

namespace Database

variable (db : Database)

def identities : List Identity :=
  (db.executions.map fun record =>
    ⟨record.command.operationId, record.command.executionId, .worktree⟩) ++ db.others

def identityKind (operation : OperationId) (execution : ExecutionId) :
    Except Error (Option Family) :=
  match db.identities.find? fun identity =>
      decide (identity.operation = operation) || decide (identity.execution = execution) with
  | some identity =>
    if identity.operation = operation ∧ identity.execution = execution then .ok (some identity.kind)
    else .error .identityConflict
  | none => .ok none

def find (operation : OperationId) (execution : ExecutionId) : Except Error (Option Execution) :=
  match db.identityKind operation execution with
  | .error error => .error error
  | .ok kind =>
    if kind.any (· ≠ .worktree) then .error .identityConflict
    else
      match db.executions.find? fun record =>
          decide (record.command.operationId = operation) ||
            decide (record.command.executionId = execution) with
      | some record =>
        if record.command.operationId = operation ∧ record.command.executionId = execution then
          .ok (some record)
        else .error .identityConflict
      | none => .ok none

def existing (command : Command) : Except Error (Option Execution) :=
  match db.find command.operationId command.executionId with
  | .error error => .error error
  | .ok record =>
    if record.any (·.command ≠ command) then .error .identityConflict else .ok record

def lookup (execution : ExecutionId) : Option Execution :=
  db.executions.find? fun record => decide (record.command.executionId = execution)

def resource (worktree : String) : Option Resource :=
  db.resources.find? fun resource => decide (resource.spec.worktreeId = worktree)

/-- What stands against accepting a command for a target: whoever else uses the place, the branch or
the worktree. -/
def conflicts (command : Command) (target : Target) : Bool :=
  match command with
  | .ensure message =>
    let active := db.resources.filter (·.isActive)
    (db.resource message.spec.worktreeId).isSome ||
      (active.map (·.target.path) ++ db.clonePaths).any (fun path =>
        path.startsWith target.path || target.path.startsWith path) ||
      active.any fun resource =>
        decide (resource.spec.workspaceId = message.spec.workspaceId) ||
          decide (resource.target.path = target.path) ||
          (decide (resource.target.mainPath = target.mainPath) &&
            decide (resource.target.branch = target.branch))
  | .remove message =>
    match db.resource message.spec.worktreeId with
    | none => true
    | some resource =>
      !resource.owns message.spec target || decide (resource.state = .reserved) ||
        db.executions.any fun record =>
          !record.progress.isCompleted &&
            decide (record.command.spec.worktreeId = message.spec.worktreeId)

/-- A new record, and with an `ensure` the reservation of its target. -/
def insert (record : Execution) : Database :=
  { db with
    executions := db.executions ++ [record]
    resources := db.resources ++
      match record.command, record.target with
      | .ensure message, some target => [⟨message.spec, target, .reserved⟩]
      | _, _ => [] }

def setProgress (execution : ExecutionId) (progress : Progress) : Database :=
  { db with executions := db.executions.map fun record =>
      if record.command.executionId = execution then { record with progress := progress }
      else record }

def setResource (worktree : String) (state : ResourceState) : Database :=
  { db with resources := db.resources.map fun resource =>
      if resource.spec.worktreeId = worktree then { resource with state := state } else resource }

def recoverable : List Execution :=
  db.executions.filter fun record => !record.progress.isCompleted

end Database

/-! ### The outside -/

inductive Mutation where
  | create
  | removeBranch
  | removeEmptyDirectory
  | removeWorktree
  deriving DecidableEq

/-- The stage whose intent has to be recorded before a mutation. -/
def Command.stageOf : Command → Mutation → Option Stage
  | .ensure _, .create => some .create
  | .ensure _, .removeBranch | .ensure _, .removeEmptyDirectory => some .cleanupCreation
  | .ensure _, .removeWorktree => none
  | .remove _, .removeWorktree | .remove _, .removeEmptyDirectory => some .removeWorktree
  | .remove _, .removeBranch => some .removeBranch
  | .remove _, .create => none

/-- Where a pass verifies or observes. The answers may differ from site to site, since others use
the repository too. -/
inductive Site where
  | resolve
  | entry
  | cleanup
  | cleaned
  | create
  | created
  | removeWorktree
  | removedWorktree
  | removeEmptyDirectory
  | removeBranch
  | removed
  deriving DecidableEq

structure World where
  identity : RuntimeIdentity
  writes : Nat → WriteOutcome
  now : Nat → String
  acceptingWork : ExecutionId → Bool
  beginExecution : ExecutionId → Except Failure Unit
  /-- The places the configuration gives at a site. -/
  locate : ExecutionId → Site → Except Failure Location
  resolveBase : ExecutionId → Except Failure String
  observe : ExecutionId → Site → Except Failure Observation
  mutate : ExecutionId → Mutation → Except Failure Unit

/-- The semantic validation of messages. -/
structure Checks where
  command : Command → Option String
  event : Command → Result → Option String

/-- What a pass commits, and the Git mutations it makes, in the order in which they happen. -/
inductive Event where
  | accepted (execution : ExecutionId)
  | rejected (execution : ExecutionId) (result : Result)
  | progressed (execution : ExecutionId) (progress : Progress)
  | completed (execution : ExecutionId) (result : Result)
  | mutated (execution : ExecutionId) (mutation : Mutation) (actor : RuntimeIdentity)
  | elsewhere
  deriving DecidableEq

inductive PassError where
  | storage (error : Error)
  | validation (error : ValidationError)
  | stopping

abbrev Work := Proc Database Event PassError

def andThen {α β : Type} (answer : Except Failure α) (next : α → Work (Except Failure β)) :
    Work (Except Failure β) :=
  match answer with
  | .ok a => next a
  | .error reason => pure (.error reason)

variable (checks : Checks) (world : World)

def write (point : WritePoint) (event : Event) (db : Database) : Work Unit := do
  let n ← draw
  match world.writes n with
  | .written => commit event db
  | .refused => fail (.storage (.injected point))
  | .unacknowledged =>
    commit event db
    fail (.storage .sql)

def checked (verdict : Option String) (error : ValidationError → PassError) : Work Unit :=
  match verdict with
  | some reason => fail (error (.command reason))
  | none => pure ()

def reportOf (command : Command) : Report :=
  ⟨world.identity, command.spec.workspaceId, command.spec.worktreeId⟩

def failed (command : Command) (failure : Failure) : Result :=
  match command with
  | .ensure _ => .failed (reportOf world command) failure
  | .remove _ => .removalFailed (reportOf world command) failure

/-! ### Verification -/

/-- Resolves the configuration into a frozen target. -/
def resolve (db : Database) (command : Command) : Except Failure Target :=
  match world.locate command.executionId .resolve with
  | .error reason => .error reason
  | .ok location =>
    match command with
    | .ensure message =>
      match world.resolveBase message.executionId with
      | .error reason => .error reason
      | .ok baseCommit =>
        match world.observe message.executionId .resolve with
        | .error reason => .error reason
        | .ok observation =>
          if observation.branch.isSome || observation.branchElsewhere then
            .error ⟨.branchConflict, "branch is already occupied"⟩
          else if !observation.absent then
            .error ⟨.worktreeConflict, "target is already occupied"⟩
          else .ok ⟨location, message.spec.expectedBranch, baseCommit⟩
    | .remove message =>
      match db.resource message.spec.worktreeId with
      | none => .error ⟨.worktreeConflict, "no retained ownership record"⟩
      | some resource =>
        let target : Target :=
          ⟨location, message.spec.expectedBranch, resource.target.baseCommit⟩
        if resource.owns message.spec target then .ok target
        else .error ⟨.worktreeConflict, "request differs from retained ownership"⟩

/-- Rechecks the configuration and the ownership before a mutation. -/
def verify (db : Database) (command : Command) (target : Target) (site : Site) :
    Except Failure Unit :=
  match world.locate command.executionId site with
  | .error reason => .error reason
  | .ok location =>
    if location ≠ target.toLocation then
      .error ⟨.worktreeConflict, "saved target no longer matches configuration or repository"⟩
    else
      match db.resource command.spec.worktreeId with
      | none => .error ⟨.worktreeConflict, "ownership record is missing"⟩
      | some resource =>
        if resource.owns command.spec target then .ok ()
        else .error ⟨.worktreeConflict, "ownership changed"⟩

section

variable (command : Command)

def verified (target : Target) (site : Site) : Work (Except Failure Unit) := do
  let db ← Proc.get
  pure (verify world db command target site)

def inspect (target : Target) (site : Site) : Work (Except Failure Observation) := do
  match ← verified world command target site with
  | .error reason => pure (.error reason)
  | .ok () => pure (world.observe command.executionId site)

def mutate (mutation : Mutation) : Work (Except Failure Unit) := do
  Proc.note (.mutated command.executionId mutation world.identity)
  pure (world.mutate command.executionId mutation)

/-! ### Writes -/

/-- Reserves a fresh target, or associates a deletion with its ownership. -/
def accept (target : Target) : Work Execution := do
  checked (checks.command command) fun error => .storage (.validation error)
  let db ← Proc.get
  Proc.ensure (command.spec.nodeId = db.nodeId) (.storage .nodeMismatch)
  match db.existing command with
  | .error error => fail (.storage error)
  | .ok (some record) => pure record
  | .ok none =>
    Proc.ensure (db.conflicts command target = false) (.storage .resourceConflict)
    let record : Execution := ⟨command, some target, .accepted⟩
    write world .accept (.accepted command.executionId) (db.insert record)
    pure record

def validateResult (result : Result) : Except Error Unit :=
  if result.failure.any fun failure => failure.code = .resultUnknown then .error .invalidTransition
  else if result.report.node.nodeId ≠ command.spec.nodeId ∨
      result.report.workspaceId ≠ command.spec.workspaceId ∨
      result.report.worktreeId ≠ command.spec.worktreeId ∨
      result.isEnsure ≠ command.isEnsure then .error .identityConflict
  else
    match checks.event command result with
    | some reason => .error (.validation (.command reason))
    | none => .ok ()

end

def stored (answer : Except Error Unit) : Work Unit :=
  match answer with
  | .error error => fail (.storage error)
  | .ok () => pure ()

/-- Records a definitive failure of the preconditions. -/
def reject (command : Command) (result : Result) : Work Unit := do
  checked (checks.command command) fun error => .storage (.validation error)
  let db ← Proc.get
  Proc.ensure (command.spec.nodeId = db.nodeId) (.storage .nodeMismatch)
  match db.existing command with
  | .error error => fail (.storage error)
  | .ok (some _) => fail (.storage .invalidTransition)
  | .ok none =>
    stored (validateResult checks command result)
    Proc.ensure (result.failure.isSome = true) (.storage .invalidTransition)
    write world .accept (.rejected command.executionId result)
      (db.insert ⟨command, none, .completed result⟩)

/-- The progress is written only over the one the caller knows. -/
def advance (record : Execution) (progress : Progress) : Work Execution := do
  let db ← Proc.get
  match progress.begun with
  | none => fail (.storage .invalidTransition)
  | some (stage, observer) =>
    Proc.ensure (record.progress.isCompleted = false ∧ observer.nodeId = db.nodeId ∧
      (Text.trim observer.incarnationId).isEmpty = false ∧
      record.command.isEnsure = stage.isEnsure) (.storage .invalidTransition)
    Proc.ensure ((db.lookup record.command.executionId).map (·.progress) = some record.progress)
      (.storage .invalidTransition)
    write world .progress (.progressed record.command.executionId progress)
      (db.setProgress record.command.executionId progress)
    pure { record with progress := progress }

/-- What becomes of the resource with a result. -/
def Result.resourceState : Result → Option ResourceState
  | .ready _ _ => some .present
  | .removed _ _ | .failed _ _ => some .removed
  | .removalFailed _ _ => none

section

variable (record : Execution)

/-- The facts of a finished creation are those of the target. -/
def factsAgree (result : Result) : Except Error Unit :=
  match result with
  | .ready _ facts =>
    match record.target with
    | none => .error .invalidTransition
    | some target =>
      if facts.branch ≠ target.branch ∨ facts.baseCommit ≠ target.baseCommit ∨
          facts.path ≠ target.path then .error .identityConflict
      else .ok ()
  | .failed _ _ | .removed _ _ | .removalFailed _ _ => .ok ()

/-- Commits the result and the ownership that follows from it. -/
def complete (result : Result) : Work Unit := do
  Proc.ensure (record.progress.isCompleted = false) (.storage .invalidTransition)
  stored (validateResult checks record.command result)
  stored (factsAgree record result)
  let db ← Proc.get
  Proc.ensure ((db.lookup record.command.executionId).map (·.progress) = some record.progress)
    (.storage .invalidTransition)
  let done := db.setProgress record.command.executionId (.completed result)
  match result.resourceState with
  | none => write world .complete (.completed record.command.executionId result) done
  | some state =>
    Proc.ensure ((db.resource record.command.spec.worktreeId).isSome = true) (.storage .sql)
    write world .complete (.completed record.command.executionId result)
      (done.setResource record.command.spec.worktreeId state)

/-- Persists the intent and the acting incarnation before Git is called. -/
def running (stage : Stage) : Work Execution := do
  let n ← draw
  advance world record (.running stage world.identity (world.now n))

/-- Keeps an inconclusive result recoverable: a later pass observes again and does not repeat the
mutation blindly. -/
def unknown (stage : Stage) (reason : Failure) : Work Unit := do
  let n ← draw
  let _ ← advance world record (.unknown stage world.identity (world.now n) reason.message)
  pure ()

end

/-! ### Creation -/

inductive CreatePass where
  | recovery
  | afterMutation
  deriving DecidableEq

section

variable (record : Execution) (target : Target) (observed : Observation)

/-- What is found is what a creation of this execution may have left: a branch at the base commit
without a checkout, or only a directory once the cleanup has begun. -/
def residual : Bool :=
  decide (record.progress ≠ .accepted) && observed.checkout.isNone &&
    (decide (observed.branch = some target.baseCommit) ||
      (observed.branch.isNone && decide (record.progress.stage = some .cleanupCreation))) &&
    !observed.branchElsewhere &&
    (decide (observed.directory = .absent) || decide (observed.directory = .empty))

/-- Removes the branch, then the empty directory. The target is verified once more before the first
of them. -/
def cleanup : Work (Except Failure Unit) := do
  let ready ← verified world record.command target .cleanup
  let branch ← andThen ready fun _ =>
    if observed.branch.isSome then mutate world record.command .removeBranch else pure (.ok ())
  andThen branch fun _ =>
    if observed.directory = .empty then mutate world record.command .removeEmptyDirectory
    else pure (.ok ())

end

/-- The record and the observation to go on with, unless the cleanup was inconclusive. -/
def cleanupCreation (pass : CreatePass) (record : Execution) (target : Target)
    (observed : Observation) : Work (Option (Execution × Observation)) :=
  if pass = .recovery ∧ residual record target observed then do
    let record ← running world record .cleanupCreation
    match ← cleanup world record target observed with
    | .error reason =>
      unknown world record .cleanupCreation reason
      pure none
    | .ok () =>
      match world.observe record.command.executionId .cleaned with
      | .error reason =>
        unknown world record .cleanupCreation reason
        pure none
      | .ok observed => pure (some (record, observed))
  else pure (some (record, observed))

def addWorktree (record : Execution) (target : Target) : Work (Except Failure Unit) := do
  let ready ← verified world record.command target .create
  andThen ready fun _ => mutate world record.command .create

/-- Adds the worktree and looks again: what Git reports is not taken for what is there. -/
def create (again : Execution → Observation → Work Unit) (record : Execution) (target : Target) :
    Work Unit := do
  let record ← running world record .create
  let mutation ← addWorktree world record target
  match ← inspect world record.command target .created with
  | .error reason => unknown world record .create reason
  | .ok after =>
    if after.absent then
      let reason := match mutation with
        | .error reason => reason
        | .ok () => ⟨.operationFailed, "Git add left no worktree or branch"⟩
      complete checks world record (failed world record.command reason)
    else again record after

/-- One pass of `ensure`, with what it does after a mutation. -/
def ensureWith (again : Execution → Observation → Work Unit) (pass : CreatePass)
    (target : Target) (record : Execution) (observed : Observation) : Work Unit :=
  if observed.finished target then
    complete checks world record
      (.ready (reportOf world record.command) ⟨target.path, target.branch, target.baseCommit⟩)
  else do
    match ← cleanupCreation world pass record target observed with
    | none => pure ()
    | some (record, observed) =>
      if observed.absent then create checks world again record target
      else
        unknown world record .create
          ⟨.resultUnknown, "creation facts are incomplete or differ from the frozen baseline"⟩

/-- After a mutation only the observation is looked at: it is not absent, so nothing is added
again and the pass ends there. -/
def ensure : CreatePass → Target → Execution → Observation → Work Unit
  | .afterMutation => ensureWith checks world (fun _ _ => pure ()) .afterMutation
  | .recovery => fun target =>
    ensureWith checks world
      (ensureWith checks world (fun _ _ => pure ()) .afterMutation target) .recovery target

/-! ### Removal -/

section

variable (record : Execution) (target : Target)

/-- The record and the observation to go on with, unless the removal was inconclusive. -/
def removeCheckout (observed : Observation) : Work (Option (Execution × Observation)) :=
  if observed.checkout.isSome then do
    let record ← running world record .removeWorktree
    let ready ← verified world record.command target .removeWorktree
    match ← andThen ready fun _ => mutate world record.command .removeWorktree with
    | .error reason =>
      unknown world record .removeWorktree reason
      pure none
    | .ok () =>
      match ← inspect world record.command target .removedWorktree with
      | .error reason =>
        unknown world record .removeWorktree reason
        pure none
      | .ok after => pure (some (record, after))
  else pure (some (record, observed))

def removeResidue (observed : Observation) : Work (Option Execution) :=
  if observed.directory = .empty then do
    let record ← running world record .removeWorktree
    let ready ← verified world record.command target .removeEmptyDirectory
    match ← andThen ready fun _ => mutate world record.command .removeEmptyDirectory with
    | .error reason =>
      unknown world record .removeWorktree reason
      pure none
    | .ok () => pure (some record)
  else pure (some record)

/-- Looks again before the branch is deleted, since it may have been checked out or moved
meanwhile. -/
def removeOwnedBranch (observed : Observation) : Work (Option Execution) :=
  if observed.branch.isSome then do
    let record ← running world record .removeBranch
    match ← inspect world record.command target .removeBranch with
    | .error reason =>
      unknown world record .removeBranch reason
      pure none
    | .ok facts =>
      if !facts.branchElsewhere && facts.checkout.isNone &&
          decide (facts.directory = .absent) then do
        match ← mutate world record.command .removeBranch with
        | .error reason =>
          unknown world record .removeBranch reason
          pure none
        | .ok () => pure (some record)
      else do
        unknown world record .removeBranch
          ⟨.worktreeConflict, "ownership facts changed before branch cleanup"⟩
        pure none
  else pure (some record)

/-- Seals the removal once everything is proven absent. -/
def removed (initiallyAbsent : Bool) : Work Unit := do
  match ← inspect world record.command target .removed with
  | .error reason => unknown world record .removeBranch reason
  | .ok after =>
    if after.absent then
      complete checks world record (.removed (reportOf world record.command)
        (if initiallyAbsent then .alreadyAbsent else .removed))
    else
      unknown world record .removeBranch
        ⟨.resultUnknown, "not all cleanup targets are absent"⟩

def removeRest (observed : Observation) (initiallyAbsent : Bool) : Work Unit :=
  if observed.checkout.isSome || decide (observed.directory = .nonempty) ||
      observed.branchElsewhere then
    unknown world record .removeWorktree
      ⟨.resultUnknown, "checkout removal could not be proven"⟩
  else do
    match ← removeResidue world record target observed with
    | none => pure ()
    | some record =>
      match ← removeOwnedBranch world record target observed with
      | none => pure ()
      | some record => removed checks world record target initiallyAbsent

end

def remove (target : Target) (record : Execution) (observed : Observation) : Work Unit := do
  let db ← Proc.get
  match db.resource record.command.spec.worktreeId with
  | none => fail (.storage .resourceConflict)
  | some resource =>
    if resource.state = .removed ∧ observed.absent = false then
      complete checks world record (failed world record.command
        ⟨.worktreeConflict, "resources appeared after their ownership was retired"⟩)
    else if observed.branchElsewhere ||
        (observed.checkout.isNone && decide (observed.directory = .nonempty)) then
      unknown world record .removeWorktree
        ⟨.worktreeConflict, "branch is occupied elsewhere or unregistered residual files remain"⟩
    else do
      match ← removeCheckout world record target observed with
      | none => pure ()
      | some (record, after) => removeRest checks world record target after observed.absent

/-! ### Passes -/

def Execution.stage (record : Execution) : Option Stage :=
  match record.progress with
  | .accepted => some (if record.command.isEnsure then .create else .removeWorktree)
  | .running stage _ _ | .unknown stage _ _ _ => some stage
  | .completed _ => none

/-- Dispatches the same state machine for the first pass and every later one. -/
def drive (record : Execution) : Work Unit :=
  match record.target with
  | none => fail (.storage .invalidTransition)
  | some target =>
    match record.stage with
    | none => pure ()
    | some stage =>
      match world.beginExecution record.command.executionId with
      | .error reason =>
        -- nothing has begun yet, which the record keeps saying
        if record.progress = .accepted then pure () else unknown world record stage reason
      | .ok () => do
        match ← inspect world record.command target .entry with
        | .error reason => unknown world record stage reason
        | .ok observation =>
          match record.command with
          | .ensure _ => ensure checks world .recovery target record observation
          | .remove _ => remove checks world target record observation

/-- A failure of the preconditions is sealed as the result. -/
def refuse (command : Command) (reason : Failure) : Work Progress := do
  let result := failed world command reason
  reject checks world command result
  pure (.completed result)

/-- Drives a new execution and reads what has become of it. -/
def driveNew (record : Execution) : Work Progress := do
  drive checks world record
  let db ← Proc.get
  match db.existing record.command with
  | .ok (some record) => pure record.progress
  | .ok none => fail (.storage .invalidTransition)
  | .error error => fail (.storage error)

/-- A command that is known is only answered. -/
def submit (command : Command) : Work Progress := do
  checked (checks.command command) .validation
  Proc.ensure (command.spec.nodeId = world.identity.nodeId) (.storage .nodeMismatch)
  let db ← Proc.get
  match db.existing command with
  | .error error => fail (.storage error)
  | .ok (some record) => pure record.progress
  | .ok none =>
    Proc.ensure (world.acceptingWork command.executionId = true) .stopping
    match resolve world db command with
    | .error reason => refuse checks world command reason
    | .ok target =>
      match ← Proc.attempt (accept checks world command target) with
      | .ok record => driveNew checks world record
      | .error (.storage .resourceConflict) =>
        refuse checks world command
          ⟨.worktreeConflict, "resource is reserved or owned by another execution"⟩
      | .error error => fail error

/-- Drives the executions in their order for as long as work is accepted. -/
def driveAll : List Execution → Work Unit
  | [] => pure ()
  | record :: rest =>
    if world.acceptingWork record.command.executionId then do
      drive checks world record
      driveAll rest
    else pure ()

/-- Reconciles every incomplete execution, by the same passes that drive a new one. -/
def recover : Work Unit := do
  let db ← Proc.get
  driveAll checks world db.recoverable

inductive Call where
  | submit (command : Command)
  | recover
  /-- Executions of other families come and go. -/
  | elsewhere (others : List Identity) (clonePaths : List PathBuf)

def serve : Call → Work (Option Progress)
  | .submit command => do
    let progress ← submit checks world command
    pure (some progress)
  | .recover => do
    recover checks world
    pure none
  | .elsewhere others clonePaths => do
    let db ← Proc.get
    commit .elsewhere { db with others := others, clonePaths := clonePaths }
    pure none

/-- A database in which nothing was accepted yet. -/
structure Initial (db : Database) : Prop where
  executions : db.executions = []
  resources : db.resources = []

end Worktree

end OraDesktop.Node
