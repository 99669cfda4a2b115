import OraDesktop.Lib.Newest

/-!
# Scheduled runs

The persisted facts about scheduled occurrences, and the transactions that change them. An
occurrence is a task and a planned time. It is recorded once, with a run or as missed; a run is
accepted, or skipped because the task or the machine is busy, in the transaction that records it.
Recording prunes the history of the task, from which active runs and runs that still have a worktree
are exempt.
-/

namespace OraDesktop.Scheduled

/-! ### Times -/

/-- `i64::MAX` -/
def maxTime : Int := 9223372036854775807

/-- `i64::MIN` -/
def minTime : Int := -9223372036854775808

/-- What saturating arithmetic gives for an exact result. -/
def saturate (x : Int) : Int := max minTime (min maxTime x)

/-- What checked arithmetic gives: nothing where the exact result is out of range. -/
def checked (x : Int) : Option Int := if minTime ≤ x ∧ x ≤ maxTime then some x else none

/-- `MAX_SCHEDULED_OCCURRENCE_LATENESS_MILLIS` -/
def maxLateness : Int := 10 * 60 * 1000

/-- `MAX_CONCURRENT_LOCAL_SCHEDULED_RUNS` -/
def maxConcurrentRuns : Nat := 4

/-- `MAX_SCHEDULED_TASK_HISTORY_ENTRIES` -/
def maxHistoryEntries : Nat := 100

/-! ### Occurrences and runs -/

structure Occurrence where
  taskId : String
  scheduledAt : Int
  deriving DecidableEq

inductive MissReason where
  | appNotRunning
  | lateTrigger
  deriving DecidableEq

structure Missed where
  occurrence : Occurrence
  reason : MissReason
  observedAt : Int

inductive Timing where
  | notDue
  | due
  | missed (reason : MissReason)
  deriving DecidableEq

/-- Classifies a live observation. An occurrence stays due for the lateness that is allowed, and is
missed after it. -/
def Occurrence.timingAt (occurrence : Occurrence) (observedAt : Int) : Timing :=
  if observedAt < occurrence.scheduledAt then .notDue
  else if saturate (observedAt - occurrence.scheduledAt) ≤ maxLateness then .due
  else .missed .lateTrigger

inductive Status where
  | accepted
  | running
  | succeeded
  | failed
  | cancelled
  | skippedBusy
  | skippedCapacity
  deriving DecidableEq

/-- The run occupies the admission slots, from its admission on and not only while its session
runs. -/
def Status.isActive : Status → Bool
  | .accepted | .running => true
  | .succeeded | .failed | .cancelled | .skippedBusy | .skippedCapacity => false

inductive FailureReason where
  | targetUnavailable
  | modelUnavailable
  | worktreeFailed
  | approvalPolicyInvalid
  | timeout
  | executionError

inductive Verdict where
  | pass
  | warn
  | fail
  | blocked
  | idle
  | rangeUnresolved

structure Approval where
  policy : String
  consentedAt : Int

/-- The inputs that are frozen when an occurrence is admitted, so that editing the task does not
change a run under way. -/
structure Snapshot where
  revision : Nat
  projectId : String
  worktreeBaseBranch : Option String
  agentRef : String
  model : Option String
  prompt : String
  approval : Option Approval

structure Run where
  id : String
  occurrence : Occurrence
  snapshot : Snapshot
  status : Status
  sessionId : Option String
  worktreePath : Option String
  worktreeTaskId : Option String
  failureReason : Option FailureReason
  verdict : Option Verdict
  verdictDetail : Option String
  verdictAt : Option Int
  createdAt : Int
  updatedAt : Int

inductive Transition where
  | start (sessionId worktreePath worktreeTaskId : String)
  | succeed
  | fail (reason : FailureReason)
  | cancel

/-- Duplicate, backward and terminal transitions are rejected. -/
def Transition.isAllowedFrom (status : Status) : Transition → Bool
  | .start .. => decide (status = .accepted)
  | .succeed => decide (status = .running)
  | .fail _ | .cancel => status.isActive

namespace Run

/-- Admits an occurrence with the inputs of the current definition. -/
def accepted (id : String) (occurrence : Occurrence) (snapshot : Snapshot) (acceptedAt : Int) :
    Run :=
  ⟨id, occurrence, snapshot, .accepted, none, none, none, none, none, none, none, acceptedAt,
    acceptedAt⟩

/-- Applies a transition, unless it is rejected. A run that is bound to a worktree starts in that
one. -/
def transition (run : Run) (transition : Transition) (transitionedAt : Int) : Option Run :=
  if transition.isAllowedFrom run.status = false then none
  else
    match transition with
    | .start sessionId worktreePath worktreeTaskId =>
      if run.worktreeTaskId.any (fun existing => decide (existing ≠ worktreeTaskId)) ||
          run.worktreePath.any (fun existing => decide (existing ≠ worktreePath)) then none
      else some { run with
        status := .running, sessionId := some sessionId, worktreePath := some worktreePath,
        worktreeTaskId := some worktreeTaskId, failureReason := none, updatedAt := transitionedAt }
    | .succeed =>
      some { run with status := .succeeded, failureReason := none, updatedAt := transitionedAt }
    | .fail reason =>
      some { run with status := .failed, failureReason := some reason, updatedAt := transitionedAt }
    | .cancel =>
      some { run with status := .cancelled, failureReason := none, updatedAt := transitionedAt }

/-- History keeps the run: it is active, or has a worktree. -/
def isProtected (run : Run) : Bool := run.status.isActive || run.worktreeTaskId.isSome

end Run

/-! ### The tables -/

inductive Outcome where
  | accepted
  | missed (reason : MissReason)
  deriving DecidableEq

/-- A row of `scheduled_occurrences`: what became of an occurrence, kept apart from its run. -/
structure Row where
  occurrence : Occurrence
  outcome : Outcome
  observedAt : Int
  deriving DecidableEq

structure Db where
  occurrences : List Row
  runs : List Run

inductive DbError where
  | constraint
  | noRows
  | corruptRevision

inductive Candidate where
  | run (run : Run)
  | missed (missed : Missed)

def Candidate.occurrence : Candidate → Occurrence
  | .run admitted => admitted.occurrence
  | .missed fact => fact.occurrence

/-- `candidate_columns` -/
def Candidate.row : Candidate → Row
  | .run admitted => ⟨admitted.occurrence, .accepted, admitted.createdAt⟩
  | .missed fact => ⟨fact.occurrence, .missed fact.reason, fact.observedAt⟩

inductive Resolution where
  | notDue
  | admitted (run : Run)
  | existingRun (run : Run)
  | missed (missed : Missed)
  | existingMissed (missed : Missed)

namespace Db

def empty : Db := ⟨[], []⟩

section

variable (db : Db)

/-- The planned times of a task that are recorded. -/
def times (taskId : String) : List Int :=
  (db.occurrences.filter fun row => decide (row.occurrence.taskId = taskId)).map
    (·.occurrence.scheduledAt)

def activeOf (taskId : String) : List Run :=
  db.runs.filter fun run => decide (run.occurrence.taskId = taskId) && run.status.isActive

def active : List Run := db.runs.filter (·.status.isActive)

def admissionStatus (taskId : String) : Status :=
  if 0 < (db.activeOf taskId).length then .skippedBusy
  else if maxConcurrentRuns ≤ db.active.length then .skippedCapacity
  else .accepted

/-- The planned times that are not among the newest ones besides the one that was just inserted. -/
def outdated (taskId : String) (justInsertedAt : Int) : List Int :=
  Newest.beyond (maxHistoryEntries - 1)
    ((db.times taskId).filter fun time => decide (time ≠ justInsertedAt))

/-- A history that is full loses its oldest facts. Runs that are active or have a worktree stay, and
so do their records, so the bound may be exceeded. -/
def pruneOldestHistory (taskId : String) (justInsertedAt : Int) : Db :=
  let outdated := db.outdated taskId justInsertedAt
  let runs := db.runs.filter fun run =>
    !(decide (run.occurrence.taskId = taskId) && decide (run.occurrence.scheduledAt ∈ outdated) &&
      !run.status.isActive && run.worktreeTaskId.isNone)
  let occurrences := db.occurrences.filter fun row =>
    !(decide (row.occurrence.taskId = taskId) && decide (row.occurrence.scheduledAt ∈ outdated) &&
      !runs.any fun run => decide (run.occurrence = row.occurrence) && run.isProtected)
  ⟨occurrences, runs⟩

/-- Inserts a run; its identity and its occurrence are unique. -/
def insertRun (run : Run) : Except DbError Db :=
  if maxTime < run.snapshot.revision then .error .corruptRevision
  else if db.runs.any fun other => decide (other.id = run.id) ||
      decide (other.occurrence = run.occurrence) then .error .constraint
  else .ok { db with runs := db.runs ++ [run] }

/-- What is recorded for an occurrence. A record without its run is an error, not a fresh
occurrence. -/
def loadExistingResolution (row : Row) : Except DbError Resolution :=
  match row.outcome with
  | .accepted =>
    match db.runs.find? fun run => decide (run.occurrence = row.occurrence) with
    | some run => .ok (.existingRun run)
    | none => .error .noRows
  | .missed reason => .ok (.existingMissed ⟨row.occurrence, reason, row.observedAt⟩)

/-- Records an occurrence, or gives what was recorded. An error rolls back. -/
def resolve (candidate : Candidate) : Except DbError (Resolution × Db) :=
  match db.occurrences.find? fun row => decide (row.occurrence = candidate.occurrence) with
  | some row => (db.loadExistingResolution row).map fun resolution => (resolution, db)
  | none =>
    let inserted : Db := { db with occurrences := db.occurrences ++ [candidate.row] }
    let prune (db : Db) : Db :=
      db.pruneOldestHistory candidate.occurrence.taskId candidate.occurrence.scheduledAt
    match candidate with
    | .run run =>
      let admitted := { run with status := inserted.admissionStatus run.occurrence.taskId }
      (inserted.insertRun admitted).map fun db => (.admitted admitted, prune db)
    | .missed missed => .ok (.missed missed, prune inserted)

/-- Fails the runs that an earlier process left active: no worker is left that could end them. -/
def failInterrupted (interruptedAt : Int) : Db :=
  { db with runs := db.runs.map fun run =>
      if run.status.isActive then
        { run with
          status := .failed, failureReason := some .executionError, updatedAt := interruptedAt }
      else run }

end

inductive TransitionResolution where
  | updated (run : Run)
  | notFound
  | invalidState (run : Run)

def transition (db : Db) (runId : String) (transition : Transition) (transitionedAt : Int) :
    TransitionResolution × Db :=
  match db.runs.find? fun run => decide (run.id = runId) with
  | none => (.notFound, db)
  | some run =>
    match run.transition transition transitionedAt with
    | none => (.invalidState run, db)
    | some updated =>
      (.updated updated, { db with runs := db.runs.map fun other =>
        if other.id = runId ∧ other.status = run.status then
          { other with
            status := updated.status, sessionId := updated.sessionId,
            worktreePath := updated.worktreePath, worktreeTaskId := updated.worktreeTaskId,
            failureReason := updated.failureReason, updatedAt := updated.updatedAt }
        else other })

/-- The run may be given a worktree: it was accepted, for this project, and has none yet. -/
def bindable (runId projectId : String) (run : Run) : Bool :=
  decide (run.id = runId) && decide (run.status = .accepted) &&
    decide (run.snapshot.projectId = projectId) && run.worktreeTaskId.isNone

/-- Binds a run to the worktree task that is created in the same transaction; nothing where the run
is not admissible. -/
def bindWorktree (db : Db) (runId projectId taskId worktreePath : String) (now : Int) : Option Db :=
  let bound (run : Run) : Run :=
    if bindable runId projectId run then
      { run with
        worktreeTaskId := some taskId, worktreePath := some worktreePath, updatedAt := now }
    else run
  if db.runs.any (bindable runId projectId) then some { db with runs := db.runs.map bound } else none

def clearRetainedWorktreeLink (db : Db) (runId : String) : Db :=
  { db with runs := db.runs.map fun run =>
      if run.id = runId then { run with worktreeTaskId := none } else run }

/-- Only a run that succeeded carries a verdict. -/
def annotateVerdict (db : Db) (runId : String) (verdict : Verdict) (detail : Option String)
    (annotatedAt : Int) : Db :=
  { db with runs := db.runs.map fun run =>
      if run.id = runId ∧ run.status = .succeeded then
        { run with verdict := some verdict, verdictDetail := detail, verdictAt := some annotatedAt }
      else run }

end Db

/-! ### Admission -/

/-- `AdmitScheduledOccurrenceHandler::handle`: a live observation; nothing is recorded early. -/
def admitOccurrence (db : Db) (taskId : String) (snapshot : Snapshot) (scheduledAt acceptedAt : Int)
    (runId : String) : Except DbError (Resolution × Db) :=
  let occurrence : Occurrence := ⟨taskId, scheduledAt⟩
  match occurrence.timingAt acceptedAt with
  | .notDue => .ok (.notDue, db)
  | .due => db.resolve (.run (Run.accepted runId occurrence snapshot acceptedAt))
  | .missed reason => db.resolve (.missed ⟨occurrence, reason, acceptedAt⟩)

/-- `RecordOfflineMissedOccurrenceHandler::handle`: the latest time whose window has closed. -/
def recordOffline (db : Db) (taskId : String) (scheduledTimes : List Int) (observedAt : Int) :
    Except DbError (Option Resolution × Db) :=
  match (scheduledTimes.filter fun scheduledAt =>
      decide (scheduledAt ≤ observedAt) &&
        decide (maxLateness < saturate (observedAt - scheduledAt))).max? with
  | none => .ok (none, db)
  | some scheduledAt =>
    (db.resolve (.missed ⟨⟨taskId, scheduledAt⟩, .appNotRunning, observedAt⟩)).map
      fun (resolution, db) => (some resolution, db)

/-- A repository call, in the name of whoever makes it. Each is one transaction. -/
inductive Call where
  | trigger (taskId : String) (snapshot : Snapshot) (scheduledAt acceptedAt : Int) (runId : String)
  | recordOffline (taskId : String) (scheduledTimes : List Int) (observedAt : Int)
  | failInterrupted (interruptedAt : Int)
  | transition (runId : String) (transition : Transition) (transitionedAt : Int)
  | bindWorktree (runId projectId taskId worktreePath : String) (now : Int)
  | clearLink (runId : String)
  | annotateVerdict (runId : String) (verdict : Verdict) (detail : Option String) (annotatedAt : Int)

/-- The tables after a call; a failed transaction leaves them. -/
def Db.apply (db : Db) : Call → Db
  | .trigger taskId snapshot scheduledAt acceptedAt runId =>
    match admitOccurrence db taskId snapshot scheduledAt acceptedAt runId with
    | .ok (_, db) => db
    | .error _ => db
  | .recordOffline taskId scheduledTimes observedAt =>
    match Scheduled.recordOffline db taskId scheduledTimes observedAt with
    | .ok (_, db) => db
    | .error _ => db
  | .failInterrupted interruptedAt => db.failInterrupted interruptedAt
  | .transition runId transition transitionedAt =>
    (db.transition runId transition transitionedAt).2
  | .bindWorktree runId projectId taskId worktreePath now =>
    (db.bindWorktree runId projectId taskId worktreePath now).getD db
  | .clearLink runId => db.clearRetainedWorktreeLink runId
  | .annotateVerdict runId verdict detail annotatedAt =>
    db.annotateVerdict runId verdict detail annotatedAt

def Db.after (db : Db) (calls : List Call) : Db := calls.foldl Db.apply db

end OraDesktop.Scheduled
