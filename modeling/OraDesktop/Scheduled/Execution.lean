import OraDesktop.Lib.Journal
import OraDesktop.Scheduled.History
import OraDesktop.Text

/-!
# Executing scheduled runs

A trigger admits an occurrence and executes the run it gets. Many triggers execute at a time, so a
run is executed by a worker in steps: a lease is created, a Git worktree is added, the run is bound to
it, a session is started, and the run is settled. What the world answers is part of a step.

Admission also gives a run when it skips the occurrence. The trigger does not look at the status of
that run, and so a skipped run is provisioned like an accepted one, up to the commit that binds it.

## Main results

* `Working.step` — while no trigger skips, every worker holds a slot
* `skipped_has_no_effect_iff`
-/

namespace OraDesktop.Scheduled

open List

inductive ExecutionLocation where
  | local
  | cloud
  deriving DecidableEq

/-- What a trigger reads of a task's definition, beside what planning reads. -/
structure Task extends Definition where
  enabled : Bool
  executionLocation : ExecutionLocation
  projectId : String
  agentRef : String
  model : Option String
  prompt : String
  revision : Nat
  approval : Option Approval
  worktreeBaseBranch : Option String

def fullAutoInWorktreePolicy : String := "full_auto_in_worktree"

def Approval.isSupported (approval : Approval) : Bool :=
  decide (approval.policy = fullAutoInWorktreePolicy)

/-- The branch, if it is given and not blank; a task without one is not schedulable. -/
def givenBranch (branch : Option String) : Option String :=
  branch.filter fun branch => !(Text.trim branch).isEmpty

namespace Task

def localActivationAllowed (task : Task) : Bool :=
  decide (task.executionLocation = .local) && task.approval.any Approval.isSupported

def isSchedulable (task : Task) : Bool :=
  task.enabled && decide (task.executionLocation = .local) && task.localActivationAllowed &&
    (givenBranch task.worktreeBaseBranch).isSome &&
    match task.schedule with
    | .everyHours .. => task.scheduleAnchorAt.isSome
    | .daily .. | .weekly .. => true

def snapshot (task : Task) : Snapshot :=
  ⟨task.revision, task.projectId, task.worktreeBaseBranch, task.agentRef, task.model, task.prompt,
    task.approval⟩

end Task

/-- A trigger once it has loaded the definition of its task, with the clock it reads and the
identity it draws. -/
structure Trigger where
  task : Task
  scheduledAt : Int
  observedAt : Int
  runId : String

/-! ### Workers -/

/-- How far the execution of a run has come. A worker is between two of its calls at each of them,
and other calls may come in between. -/
inductive Stage where
  | admitted
  | leased (taskId worktreePath : String)
  | added (taskId worktreePath : String)
  | bound (taskId worktreePath : String)
  | started (sessionId taskId worktreePath : String)
  | running
  | settling (transition : Transition)

structure Worker where
  run : Run
  stage : Stage

inductive EffectKind where
  /-- Provisioning is attempted. -/
  | provisioning
  /-- A provisioning lease is created. -/
  | lease
  /-- Git is asked for the branch and the worktree. -/
  | worktree
  /-- A session is asked for. -/
  | session
  deriving DecidableEq

/-- What is done for a run outside the tables, and so is not undone with a transaction. -/
structure Effect where
  kind : EffectKind
  run : Run

/-- What a worker does next, with what it is told by the project, Git, the tables and the clock. -/
inductive Work where
  /-- Finds the project, validates the repository, selects an identity and creates the lease; or
  fails before that. -/
  | provision (identity : Option (String × String))
  /-- `create_task_worktree` and its baseline -/
  | addWorktree (succeeds : Bool)
  /-- `commit_worktree_task_for_scheduled_run`: whether the project is visible, nothing if the
  transaction fails. -/
  | commit (visible : Option Bool) (now : Int)
  | startSession (sessionId : Option String)
  /-- Records the start; the transaction may fail. -/
  | recordStart (stored : Bool) (now : Int)
  /-- The prompt has ended, and the session is asked to stop. -/
  | endPrompt (transition : Transition)
  /-- Records the end; the transaction may fail. -/
  | settle (stored : Bool) (now : Int)

/-- What is left after a step of a worker: its next stage if it goes on, the tables, and the
effects. -/
structure Progress where
  stage : Option Stage
  db : Db
  effects : List Effect

/-- The stage of a run whose worktree could not be made. -/
def Stage.worktreeFailed : Stage := .settling (.fail .worktreeFailed)

/-- One step of `execute`. Nothing happens where the worker is not at the step. -/
def Worker.advance (worker : Worker) (db : Db) (work : Work) : Progress :=
  let run := worker.run
  match worker.stage, work with
  | .admitted, .provision identity =>
    match givenBranch run.snapshot.worktreeBaseBranch with
    | none => ⟨some .worktreeFailed, db, []⟩
    | some _ =>
      match identity with
      | none => ⟨some .worktreeFailed, db, [⟨.provisioning, run⟩]⟩
      | some (taskId, worktreePath) =>
        ⟨some (.leased taskId worktreePath), db, [⟨.provisioning, run⟩, ⟨.lease, run⟩]⟩
  | .leased taskId worktreePath, .addWorktree succeeds =>
    ⟨some (if succeeds then .added taskId worktreePath else .worktreeFailed), db,
      [⟨.worktree, run⟩]⟩
  | .added taskId worktreePath, .commit visible now =>
    let bound :=
      if visible = some true then
        db.bindWorktree run.id run.snapshot.projectId taskId worktreePath now
      else none
    match bound with
    | some db => ⟨some (.bound taskId worktreePath), db, []⟩
    | none => ⟨some .worktreeFailed, db, []⟩
  | .bound taskId worktreePath, .startSession sessionId =>
    let next :=
      match sessionId with
      | some sessionId => .started sessionId taskId worktreePath
      | none => .settling (.fail .targetUnavailable)
    ⟨some next, db, [⟨.session, run⟩]⟩
  | .started sessionId taskId worktreePath, .recordStart stored now =>
    if stored then
      match db.transition run.id (.start sessionId worktreePath taskId) now with
      | (.updated _, db) => ⟨some .running, db, []⟩
      | (_, db) => ⟨none, db, []⟩
    else ⟨none, db, []⟩
  | .running, .endPrompt transition => ⟨some (.settling transition), db, []⟩
  | .settling transition, .settle stored now =>
    ⟨none, if stored then (db.transition run.id transition now).2 else db, []⟩
  | stage, _ => ⟨some stage, db, []⟩

/-! ### The system -/

structure State where
  db : Db
  workers : List Worker
  effects : List Effect

def State.idle (db : Db) : State := ⟨db, [], []⟩

inductive Action where
  | trigger (trigger : Trigger)
  /-- The worker of a run goes on. -/
  | work (runId : String) (work : Work)
  /-- The process ends and starts again; the transaction that fails the interrupted runs may fail. -/
  | restart (stored : Bool) (interruptedAt : Int)
  | recordOffline (taskId : String) (scheduledTimes : List Int) (observedAt : Int)
  | clearLink (runId : String)
  | annotateVerdict (runId : String) (verdict : Verdict) (detail : Option String) (annotatedAt : Int)

/-- `ScheduledTaskRuntime::trigger`: a run that admission gives is executed, whatever its status. -/
def State.trigger (state : State) (trigger : Trigger) : State :=
  if trigger.task.isSchedulable = false then state
  else
    match admitOccurrence state.db trigger.task.id trigger.task.snapshot trigger.scheduledAt
        trigger.observedAt trigger.runId with
    | .ok (.admitted run, db) =>
      { state with db := db, workers := state.workers ++ [⟨run, .admitted⟩] }
    | .ok (_, db) => { state with db := db }
    | .error _ => state

/-- The worker of a run goes on, if there is one; it is gone once the run has ended or the process
has. -/
def State.work (state : State) (runId : String) (work : Work) : State :=
  match state.workers.find? fun worker => decide (worker.run.id = runId) with
  | none => state
  | some worker =>
    let progress := worker.advance state.db work
    let others := state.workers.filter fun other => decide (other.run.id ≠ runId)
    let next := progress.stage.toList.map fun stage => (⟨worker.run, stage⟩ : Worker)
    ⟨progress.db, others ++ next, state.effects ++ progress.effects⟩

def State.step (state : State) : Action → State
  | .trigger trigger => state.trigger trigger
  | .work runId work => state.work runId work
  | .restart stored interruptedAt =>
    { state with
      db := if stored then state.db.failInterrupted interruptedAt else state.db
      workers := [] }
  | .recordOffline taskId scheduledTimes observedAt =>
    { state with db := state.db.apply (.recordOffline taskId scheduledTimes observedAt) }
  | .clearLink runId => { state with db := state.db.apply (.clearLink runId) }
  | .annotateVerdict runId verdict detail annotatedAt =>
    { state with db := state.db.apply (.annotateVerdict runId verdict detail annotatedAt) }

def State.run (state : State) (actions : List Action) : State := actions.foldl State.step state

/-- The trigger records its occurrence as skipped: the task may run and the occurrence is due and not
recorded, but the slots are taken. -/
def Db.skips (db : Db) (trigger : Trigger) : Bool :=
  let occurrence : Occurrence := ⟨trigger.task.id, trigger.scheduledAt⟩
  trigger.task.isSchedulable &&
    decide (occurrence.timingAt trigger.observedAt = .due) &&
    (db.occurrences.all fun row => decide (row.occurrence ≠ occurrence)) &&
    (db.runs.all fun run => decide (run.id ≠ trigger.runId) &&
      decide (run.occurrence ≠ occurrence)) &&
    decide ((trigger.task.revision : Int) ≤ maxTime) &&
    decide (db.admissionStatus trigger.task.id ≠ .accepted)

/-! ### Admission -/

/-- The run can be inserted with its record: nothing else has its identity or its occurrence. -/
structure Insertable (db : Db) (run : Run) : Prop where
  rows : ∀ row ∈ db.occurrences, row.occurrence ≠ run.occurrence
  runs : ∀ other ∈ db.runs, other.id ≠ run.id ∧ other.occurrence ≠ run.occurrence
  revision : (run.snapshot.revision : Int) ≤ maxTime

/-- The run with the status that admission gives it, which is a skip where the slots are taken. -/
def Db.admittedAs (db : Db) (run : Run) : Run :=
  { run with status := db.admissionStatus run.occurrence.taskId }

variable {db : Db}

theorem resolve_run_eq_admitted {run : Run} (h : Insertable db run) :
    db.resolve (.run run) =
      .ok (.admitted (db.admittedAs run), db.recorded (.run run) [db.admittedAs run]) := by
  have hruns : (db.runs.any fun other => decide (other.id = run.id) ||
      decide (other.occurrence = run.occurrence)) = false := by
    rw [any_eq_false]
    intro other hother heq
    obtain ⟨hid, hoccurrence⟩ := h.runs other hother
    simp [hid, hoccurrence] at heq
  unfold Db.resolve
  split
  next row hfound =>
    have heq : row.occurrence = (Candidate.run run).occurrence := by
      simpa using List.find?_some hfound
    exact absurd heq (h.rows row (mem_of_find?_eq_some hfound))
  next =>
    unfold Db.insertRun
    simp only [hruns, if_neg (not_lt.mpr h.revision)]
    rfl

theorem insertable_of_admitted {db after : Db} {run admitted : Run}
    (h : db.resolve (.run run) = .ok (.admitted admitted, after)) : Insertable db run := by
  unfold Db.resolve at h
  split at h
  next row _ =>
    unfold Db.loadExistingResolution at h
    split at h
    · split at h <;> cases h
    · cases h
  next hnone =>
    dsimp only at h
    unfold Db.insertRun at h
    split at h
    · cases h
    rename_i hrevision
    split at h
    · cases h
    rename_i hunique
    refine ⟨?_, ?_, not_lt.mp hrevision⟩
    · intro row hrow heq
      exact List.find?_eq_none.mp hnone row hrow (decide_eq_true heq)
    · intro other hother
      rw [Bool.not_eq_true, any_eq_false] at hunique
      simpa using hunique other hother

variable {trigger : Trigger}

namespace Trigger

def occurrence (trigger : Trigger) : Occurrence := ⟨trigger.task.id, trigger.scheduledAt⟩

def asked (trigger : Trigger) : Run :=
  Run.accepted trigger.runId trigger.occurrence trigger.task.snapshot trigger.observedAt

/-- The trigger finds its task schedulable and its occurrence due, and can insert its run. -/
structure Admits (db : Db) (trigger : Trigger) : Prop where
  schedulable : trigger.task.isSchedulable = true
  due : trigger.occurrence.timingAt trigger.observedAt = .due
  insertable : Insertable db trigger.asked

/-- A trigger that skips is one that admits a run which is not accepted. -/
theorem skips_iff :
    db.skips trigger = true ↔
      Admits db trigger ∧ db.admissionStatus trigger.task.id ≠ .accepted := by
  simp only [Db.skips, Bool.and_eq_true, all_eq_true, decide_eq_true_iff]
  constructor
  · rintro ⟨⟨⟨⟨⟨hschedulable, hdue⟩, hrows⟩, hruns⟩, hrevision⟩, hstatus⟩
    exact ⟨⟨hschedulable, hdue, hrows, hruns, hrevision⟩, hstatus⟩
  · rintro ⟨⟨hschedulable, hdue, hrows, hruns, hrevision⟩, hstatus⟩
    exact ⟨⟨⟨⟨⟨hschedulable, hdue⟩, hrows⟩, hruns⟩, hrevision⟩, hstatus⟩

end Trigger

/-- What a trigger leaves where it admits a run. -/
def State.admitting (state : State) (trigger : Trigger) : State :=
  ⟨state.db.recorded (.run trigger.asked) [state.db.admittedAs trigger.asked],
    state.workers ++ [⟨state.db.admittedAs trigger.asked, .admitted⟩], state.effects⟩

theorem State.trigger_of_admits {state : State} (h : trigger.Admits state.db) :
    state.trigger trigger = state.admitting trigger := by
  have hresult : admitOccurrence state.db trigger.task.id trigger.task.snapshot trigger.scheduledAt
      trigger.observedAt trigger.runId = .ok (.admitted (state.db.admittedAs trigger.asked),
        state.db.recorded (.run trigger.asked) [state.db.admittedAs trigger.asked]) := by
    unfold admitOccurrence
    have hdue : (⟨trigger.task.id, trigger.scheduledAt⟩ : Occurrence).timingAt trigger.observedAt =
      .due := h.due
    simp only [hdue]
    exact resolve_run_eq_admitted h.insertable
  unfold State.trigger
  rw [hresult, if_neg (by rw [h.schedulable]; decide)]
  rfl

theorem Trigger.admits_of_admitted {db after : Db} {run : Run}
    (hschedulable : trigger.task.isSchedulable = true)
    (h : admitOccurrence db trigger.task.id trigger.task.snapshot trigger.scheduledAt
      trigger.observedAt trigger.runId = .ok (.admitted run, after)) : trigger.Admits db := by
  unfold admitOccurrence at h
  dsimp only at h
  split at h
  · cases h
  next hdue => exact ⟨hschedulable, hdue, insertable_of_admitted h⟩
  rename_i reason _
  rcases Db.resolve_cases h with rfl | ⟨-, runs, hinserts, -⟩
  · unfold Db.resolve at h
    split at h
    · unfold Db.loadExistingResolution at h
      split at h
      · split at h <;> cases h
      · cases h
    · cases h
  · cases hinserts

/-- The tables are as before, or an occurrence is recorded. -/
inductive Records (db : Db) : Db → Prop
  | none : Records db db
  | insert {candidate : Candidate} {resolution : Resolution} {runs : List Run}
    (fresh : ∀ row ∈ db.occurrences, row.occurrence ≠ candidate.occurrence)
    (inserts : db.Inserts candidate resolution runs) : Records db (db.recorded candidate runs)

theorem records_of_resolve {db after : Db} {candidate : Candidate} {resolution : Resolution}
    (h : db.resolve candidate = .ok (resolution, after)) : Records db after := by
  rcases Db.resolve_cases h with rfl | ⟨hfresh, runs, hinserts, rfl⟩
  · exact .none
  · exact .insert hfresh hinserts

theorem records_recordOffline (db : Db) (taskId : String) (scheduledTimes : List Int)
    (observedAt : Int) : Records db (db.apply (.recordOffline taskId scheduledTimes observedAt)) := by
  unfold Db.apply
  dsimp only
  split
  next resolution after h =>
    rcases Db.recordOffline_cases h with rfl | ⟨_, -, -, _, h⟩
    · exact .none
    · exact records_of_resolve h
  next => exact .none

/-- A trigger executes the run it admits, and otherwise records at most. -/
theorem State.trigger_cases (state : State) (trigger : Trigger) :
    (trigger.Admits state.db ∧ state.trigger trigger = state.admitting trigger) ∨
      ∃ db, Records state.db db ∧ state.trigger trigger = { state with db := db } := by
  by_cases h : trigger.Admits state.db
  · exact .inl ⟨h, State.trigger_of_admits h⟩
  right
  unfold State.trigger
  split
  · exact ⟨state.db, .none, rfl⟩
  rename_i hschedulable
  split
  next run db hresult =>
    exact absurd (Trigger.admits_of_admitted (by simpa using hschedulable) hresult) h
  next resolution db _ hresult =>
    refine ⟨db, ?_, rfl⟩
    rcases Db.admitOccurrence_cases hresult with ⟨-, rfl⟩ | ⟨-, _, -, -, hresolve⟩
    · exact .none
    · exact records_of_resolve hresolve
  next => exact ⟨state.db, .none, rfl⟩

/-! ### Slots -/

/-- The run of a worker is active in the tables, and so counts against the slots. -/
def Db.Holds (db : Db) (run : Run) : Prop :=
  ∃ row ∈ db.runs, row.id = run.id ∧ row.occurrence = run.occurrence ∧ row.status.isActive = true

namespace Db.Holds

variable {db after : Db} {run : Run}

/-- Changing runs in place keeps the slot if the run stays active. -/
theorem mapRuns {f : Run → Run} (h : db.Holds run) (hf : ∀ row, Updates row (f row))
    (hactive : ∀ row, row.id = run.id → row.status.isActive = true →
      (f row).status.isActive = true) : (db.mapRuns f).Holds run := by
  obtain ⟨row, hrow, hid, hoccurrence, hstatus⟩ := h
  exact ⟨f row, mem_map_of_mem hrow, (hf row).id.trans hid,
    (hf row).occurrence.trans hoccurrence, hactive row hid hstatus⟩

/-- Recording keeps every slot: an active run is not pruned. -/
theorem recorded (h : db.Holds run) (candidate : Candidate) (runs : List Run) :
    (db.recorded candidate runs).Holds run := by
  obtain ⟨row, hrow, hid, hoccurrence, hstatus⟩ := h
  refine ⟨row, Db.mem_runs_prune.mpr ⟨mem_append_left _ hrow, ?_⟩, hid, hoccurrence, hstatus⟩
  rintro ⟨-, -, hnone⟩
  rw [(isProtected_eq_false.mp hnone).1] at hstatus
  cases hstatus

end Db.Holds

theorem Db.holds_admitted {run : Run} (hactive : (db.admittedAs run).status = .accepted) :
    (db.recorded (.run run) [db.admittedAs run]).Holds (db.admittedAs run) := by
  have hstatus : (db.admittedAs run).status.isActive = true := by rw [hactive]; rfl
  refine ⟨db.admittedAs run, Db.mem_runs_prune.mpr ⟨?_, ?_⟩, rfl, rfl, hstatus⟩
  · exact mem_append_right _ (mem_singleton.mpr rfl)
  · rintro ⟨-, -, hnone⟩
    rw [(isProtected_eq_false.mp hnone).1] at hstatus
    cases hstatus

/-! ### One step -/

/-- A step of a worker changes no other run, does nothing for another run, and keeps the run active
while the worker goes on. -/
structure Advances (worker : Worker) (db : Db) (progress : Progress) : Prop where
  db : ∃ f, Touches worker.run.id f ∧ (progress.stage.isSome → StaysActive f) ∧
    progress.db = db.mapRuns f
  effects : ∀ effect ∈ progress.effects, effect.run = worker.run

theorem advances_of_effects {worker : Worker} {stage : Option Stage} {effects : List Effect}
    (h : ∀ effect ∈ effects, effect.run = worker.run) : Advances worker db ⟨stage, db, effects⟩ :=
  ⟨⟨_, touches_id worker.run.id, fun _ _ hactive => hactive, db.mapRuns_self.symm⟩, h⟩

theorem Worker.advances (worker : Worker) (db : Db) (work : Work) :
    Advances worker db (worker.advance db work) := by
  unfold Worker.advance
  dsimp only
  split
  · -- provisioning, up to the lease
    split
    · exact advances_of_effects (by simp)
    · split <;> exact advances_of_effects (by simp)
  · exact advances_of_effects (by simp)
  · -- the commit binds the run
    split
    next after hbound =>
      split at hbound
      · obtain ⟨f, hf, hactive, heq⟩ := Db.bindWorktree_eq_mapRuns hbound
        exact ⟨⟨f, hf, fun _ => hactive, heq⟩, by simp⟩
      · cases hbound
    next => exact advances_of_effects (by simp)
  · exact advances_of_effects (by simp)
  next sessionId taskId worktreePath stored now _ =>
    -- the start keeps the run active, if it is recorded
    obtain ⟨f, hf, hactive, heq⟩ := db.transition_eq_mapRuns worker.run.id
      (.start sessionId worktreePath taskId) now
    split
    · split
      next updated after hresult =>
        rw [hresult] at heq
        exact ⟨⟨f, hf, fun _ => hactive ⟨_, _, _, rfl⟩, heq⟩, by simp⟩
      next resolution after _ hresult =>
        rw [hresult] at heq
        exact ⟨⟨f, hf, fun _ => hactive ⟨_, _, _, rfl⟩, heq⟩, by simp⟩
    · exact advances_of_effects (by simp)
  · exact advances_of_effects (by simp)
  next transition stored now _ =>
    obtain ⟨f, hf, -, heq⟩ := db.transition_eq_mapRuns worker.run.id transition now
    split
    · refine ⟨⟨f, hf, ?_, heq⟩, by simp⟩
      intro h
      cases h
    · exact advances_of_effects (by simp)
  · exact advances_of_effects (by simp)

/-! ### Whole runs -/

/-- No trigger skips: what is executed was accepted, and holds its slot. -/
structure Working (state : State) : Prop where
  sound : Sound state.db
  holds : ∀ worker ∈ state.workers, state.db.Holds worker.run
  distinct : (state.workers.map (·.run.id)).Nodup
  accepted : ∀ worker ∈ state.workers, worker.run.status = .accepted
  effects : ∀ effect ∈ state.effects, effect.run.status = .accepted

namespace Working

variable {state : State}

theorem idle (h : Sound db) : Working (.idle db) where
  sound := h
  holds := fun _ hmem => by cases hmem
  distinct := nodup_nil
  accepted := fun _ hmem => by cases hmem
  effects := fun _ hmem => by cases hmem

variable (h : Working state)

include h

/-- A call that keeps active runs keeps every slot. -/
theorem changeDb (hsound : Sound db)
    (hholds : ∀ run, state.db.Holds run → db.Holds run) : Working { state with db := db } where
  sound := hsound
  holds := fun worker hworker => hholds _ (h.holds worker hworker)
  distinct := h.distinct
  accepted := h.accepted
  effects := h.effects

theorem admitting (hadmits : trigger.Admits state.db)
    (hstatus : state.db.admissionStatus trigger.task.id = .accepted) :
    Working (state.admitting trigger) := by
  have hinserts : state.db.Inserts (.run trigger.asked)
      (.admitted (state.db.admittedAs trigger.asked)) [state.db.admittedAs trigger.asked] :=
    .run trigger.asked hadmits.insertable.runs
  have haccepted : (state.db.admittedAs trigger.asked).status = .accepted := hstatus
  have hinserted : Sound (state.db.insert (Candidate.run trigger.asked).row
      [state.db.admittedAs trigger.asked]) := h.sound.insert hadmits.insertable.rows hinserts
  refine ⟨hinserted.prune _ _, ?_, ?_, ?_, h.effects⟩
  · exact forall_mem_append.mpr ⟨fun worker hworker => (h.holds worker hworker).recorded _ _,
      forall_mem_singleton.mpr (Db.holds_admitted haccepted)⟩
  · -- the identity is new in the tables, where every worker has its run
    refine UniqueKey.nodup_snoc h.distinct fun worker hworker => ?_
    obtain ⟨row, hrow, heq, -⟩ := h.holds worker hworker
    rw [← heq]
    exact (hadmits.insertable.runs row hrow).1
  · exact forall_mem_append.mpr ⟨h.accepted, forall_mem_singleton.mpr haccepted⟩

theorem work (runId : String) (work : Work) : Working (state.work runId work) := by
  unfold State.work
  split
  · exact h
  rename_i worker hfound
  have hid : worker.run.id = runId := by simpa using List.find?_some hfound
  have hworker := mem_of_find?_eq_some hfound
  obtain ⟨⟨f, hf, hactive, heq⟩, heffects⟩ := worker.advances state.db work
  -- the workers that stay, and whether the one that moved is among them
  have hmem : ∀ other ∈ state.workers.filter (fun other => decide (other.run.id ≠ runId)) ++
      (worker.advance state.db work).stage.toList.map (fun stage => ⟨worker.run, stage⟩),
      (other ∈ state.workers ∧ other.run.id ≠ runId) ∨
        (other.run = worker.run ∧ (worker.advance state.db work).stage.isSome = true) := by
    intro other hother
    rcases mem_append.mp hother with hother | hother
    · rw [mem_filter, decide_eq_true_iff] at hother
      exact .inl hother
    · obtain ⟨stage, hstage, rfl⟩ := mem_map.mp hother
      rw [Option.mem_toList] at hstage
      exact .inr ⟨rfl, Option.isSome_of_mem hstage⟩
  refine ⟨?_, ?_, ?_, ?_, ?_⟩
  · dsimp only
    rw [heq]
    exact h.sound.mapRuns hf.updates
  · intro other hother
    dsimp only
    rw [heq]
    rcases hmem other hother with ⟨hold, hne⟩ | ⟨hsame, hgoes⟩
    · refine (h.holds other hold).mapRuns hf.updates ?_
      intro row hrow hstatus
      rwa [hf.others row (by rw [hrow, hid]; exact hne)]
    · rw [hsame]
      exact (h.holds worker hworker).mapRuns hf.updates fun row _ => hactive hgoes row
  · dsimp only
    rw [map_append, nodup_append]
    refine ⟨h.distinct.sublist (filter_sublist.map _), ?_, ?_⟩
    · cases (worker.advance state.db work).stage with
      | none => exact nodup_nil
      | some stage => exact nodup_singleton _
    · intro id hother other hnext
      obtain ⟨kept, hkept, rfl⟩ := mem_map.mp hother
      rw [mem_filter, decide_eq_true_iff] at hkept
      simp only [map_map, mem_map, Function.comp] at hnext
      obtain ⟨_, -, rfl⟩ := hnext
      rw [hid]
      exact hkept.2
  · intro other hother
    rcases hmem other hother with ⟨hold, -⟩ | ⟨hsame, -⟩
    · exact h.accepted other hold
    · rw [hsame]
      exact h.accepted worker hworker
  · intro effect heffect
    rcases mem_append.mp heffect with hold | hnew
    · exact h.effects effect hold
    · rw [heffects effect hnew]
      exact h.accepted worker hworker

theorem records (hrecords : Records state.db db) : Working { state with db := db } := by
  cases hrecords with
  | none => exact h
  | insert hfresh hinserts =>
    exact h.changeDb ((h.sound.insert hfresh hinserts).prune _ _) fun _ hholds => hholds.recorded _ _

theorem mapRuns {f : Run → Run} (hf : ∀ run, Updates run (f run))
    (hactive : StaysActive f) : Working { state with db := state.db.mapRuns f } :=
  h.changeDb (h.sound.mapRuns hf) fun _ hholds => hholds.mapRuns hf fun row _ => hactive row

/-- Every step keeps this, as long as no trigger skips. -/
theorem step {action : Action}
    (hskips : ∀ trigger, action = .trigger trigger → state.db.skips trigger = false) :
    Working (state.step action) := by
  cases action with
  | trigger trigger =>
    rcases state.trigger_cases trigger with ⟨hadmits, heq⟩ | ⟨db, hrecords, heq⟩
    · have hstatus : state.db.admissionStatus trigger.task.id = .accepted := by
        by_contra hskipped
        have hfalse := hskips trigger rfl
        rw [Trigger.skips_iff.mpr ⟨hadmits, hskipped⟩] at hfalse
        cases hfalse
      rw [State.step, heq]
      exact h.admitting hadmits hstatus
    · rw [State.step, heq]
      exact h.records hrecords
  | work runId work => exact h.work runId work
  | restart stored interruptedAt =>
    have hsound : Sound (if stored then state.db.failInterrupted interruptedAt else state.db) := by
      split
      · obtain ⟨f, hf, heq⟩ := state.db.failInterrupted_eq_mapRuns interruptedAt
        rw [heq]
        exact h.sound.mapRuns hf
      · exact h.sound
    refine ⟨hsound, ?_, nodup_nil, ?_, h.effects⟩ <;>
      · intro worker hworker
        cases hworker
  | recordOffline taskId scheduledTimes observedAt =>
    exact h.records (records_recordOffline _ taskId scheduledTimes observedAt)
  | clearLink runId =>
    obtain ⟨f, hf, hactive, heq⟩ := state.db.clearLink_eq_mapRuns runId
    have hstep := h.mapRuns hf.updates hactive
    rwa [← heq] at hstep
  | annotateVerdict runId verdict detail annotatedAt =>
    obtain ⟨f, hf, hactive, heq⟩ := state.db.annotateVerdict_eq_mapRuns runId verdict detail annotatedAt
    have hstep := h.mapRuns hf.updates hactive
    rwa [← heq] at hstep

theorem length_le {p : Run → Bool} {bound : Nat}
    (hp : ∀ run row : Run, row.occurrence = run.occurrence → p row = p run)
    (hbound : (state.db.runs.filter fun row => p row && row.status.isActive).length ≤ bound) :
    (state.workers.filter fun worker => p worker.run).length ≤ bound := by
  have hnodup : ((state.workers.filter fun worker => p worker.run).map (·.run.id)).Nodup :=
    h.distinct.sublist (filter_sublist.map _)
  have hsubset : (state.workers.filter fun worker => p worker.run).map (·.run.id) ⊆
      (state.db.runs.filter fun row => p row && row.status.isActive).map (·.id) := by
    intro id hid
    obtain ⟨worker, hworker, rfl⟩ := mem_map.mp hid
    rw [mem_filter] at hworker
    obtain ⟨row, hrow, hsame, hoccurrence, hactive⟩ := h.holds worker hworker.1
    refine mem_map.mpr ⟨row, mem_filter.mpr ⟨hrow, ?_⟩, hsame⟩
    rw [hp _ _ hoccurrence, hworker.2, hactive]
    rfl
  have hlength := (subperm_of_subset hnodup hsubset).length_le
  rw [length_map, length_map] at hlength
  exact hlength.trans hbound

end Working

/-- A step whose trigger, if it is one, does not skip. Only a trigger can put a run to work that was
not accepted. -/
def Unskipped (state : State) (action : Action) (next : State) : Prop :=
  (∀ trigger, action = .trigger trigger → state.db.skips trigger = false) ∧ next = state.step action

/-! ### One trigger -/

/-- The only worker and all effects are for an accepted run. -/
structure OnlyAccepted (state : State) : Prop where
  workers : ∀ worker ∈ state.workers, worker.run.status = .accepted
  effects : ∀ effect ∈ state.effects, effect.run.status = .accepted

theorem OnlyAccepted.step {state : State} (h : OnlyAccepted state) {action : Action}
    (htrigger : ∀ trigger, action ≠ .trigger trigger) : OnlyAccepted (state.step action) := by
  cases action with
  | trigger trigger => exact absurd rfl (htrigger trigger)
  | restart =>
    refine ⟨?_, h.effects⟩
    intro worker hworker
    cases hworker
  | recordOffline | clearLink | annotateVerdict => exact ⟨h.workers, h.effects⟩
  | work runId work =>
    rw [State.step, State.work]
    split
    · exact h
    rename_i worker hfound
    have haccepted := h.workers worker (mem_of_find?_eq_some hfound)
    refine ⟨?_, ?_⟩
    · intro other hother
      rcases mem_append.mp hother with hother | hother
      · exact h.workers other (mem_filter.mp hother).1
      · obtain ⟨stage, -, rfl⟩ := mem_map.mp hother
        exact haccepted
    · intro effect heffect
      rcases mem_append.mp heffect with hold | hnew
      · exact h.effects effect hold
      · rw [(worker.advances state.db work).effects effect hnew]
        exact haccepted

theorem OnlyAccepted.run {state : State} (h : OnlyAccepted state) {actions : List Action}
    (hactions : ∀ action ∈ actions, ∀ trigger, action ≠ .trigger trigger) :
    OnlyAccepted (state.run actions) := by
  induction actions generalizing state with
  | nil => exact h
  | cons action actions ih =>
    exact ih (h.step (hactions action mem_cons_self)) fun other hother =>
      hactions other (mem_cons_of_mem _ hother)

/-- A trigger that does not skip has accepted what it executes. -/
theorem onlyAccepted_trigger (h : db.skips trigger = false) :
    OnlyAccepted ((State.idle db).step (.trigger trigger)) := by
  rcases (State.idle db).trigger_cases trigger with ⟨hadmits, heq⟩ | ⟨after, -, heq⟩
  · rw [State.step, heq]
    refine ⟨?_, fun _ hmem => by cases hmem⟩
    intro worker hworker
    rw [mem_singleton.mp hworker]
    by_contra hskipped
    have hskips : db.skips trigger = true := Trigger.skips_iff.mpr ⟨hadmits, hskipped⟩
    rw [hskips] at h
    cases h
  · rw [State.step, heq]
    refine ⟨?_, ?_⟩ <;>
      · intro _ hmem
        cases hmem

theorem Trigger.Admits.givenBranch (h : trigger.Admits db) :
    ∃ branch, givenBranch trigger.task.worktreeBaseBranch = some branch := by
  have hschedulable := h.schedulable
  simp only [Task.isSchedulable, Bool.and_eq_true] at hschedulable
  exact Option.isSome_iff_exists.mp hschedulable.1.2

/-- The worker of a trigger that skips goes as far as the worktree. -/
theorem effects_of_skips (h : db.skips trigger = true) (identity : String × String) :
    ((State.idle db).run [.trigger trigger, .work trigger.runId (.provision (some identity)),
      .work trigger.runId (.addWorktree true)]).effects =
        [⟨.provisioning, db.admittedAs trigger.asked⟩, ⟨.lease, db.admittedAs trigger.asked⟩,
          ⟨.worktree, db.admittedAs trigger.asked⟩] := by
  obtain ⟨hadmits, -⟩ := Trigger.skips_iff.mp h
  obtain ⟨branch, hbranch⟩ := hadmits.givenBranch
  have hgiven : Scheduled.givenBranch
      (db.admittedAs trigger.asked).snapshot.worktreeBaseBranch = some branch := hbranch
  have hid : (db.admittedAs trigger.asked).id = trigger.runId := rfl
  have htrigger : (State.idle db).step (.trigger trigger) = (State.idle db).admitting trigger :=
    State.trigger_of_admits hadmits
  simp only [State.run, foldl_cons, foldl_nil, htrigger]
  simp [State.step, State.work, State.admitting, State.idle, Worker.advance, hgiven, hid]

/-! ### The whole -/

/-- A trigger, handled among any steps of its worker and any other calls, does something only for a
run that is recorded as accepted if and only if it does not skip. In every run in which no trigger
skips, all that was ever done was done for accepted runs, and at most one run of a task and four in
all are being executed. -/
theorem skipped_has_no_effect_iff (db : Db) (trigger : Trigger) {journal : List (Action × State)}
    {state : State} (hpath : Journal.Path Unskipped (State.idle Db.empty) journal state) :
    ((∀ actions : List Action, (∀ action ∈ actions, ∀ other, action ≠ .trigger other) →
      ∀ effect ∈ ((State.idle db).run (.trigger trigger :: actions)).effects,
        effect.run.status = .accepted) ↔ db.skips trigger = false) ∧
    (∀ effect ∈ state.effects, effect.run.status = .accepted) ∧
    (∀ taskId, (state.workers.filter fun worker =>
      decide (worker.run.occurrence.taskId = taskId)).length ≤ 1) ∧
    state.workers.length ≤ 4 := by
  have hworking : Working state := by
    refine hpath.invariant ?_ (Working.idle sound_empty)
    rintro before action after hbefore ⟨hskips, rfl⟩
    exact hbefore.step hskips
  refine ⟨⟨?_, ?_⟩, hworking.effects, ?_, ?_⟩
  · intro h
    by_contra hskips
    rw [Bool.not_eq_false] at hskips
    have heffects := effects_of_skips hskips ("task", "path")
    have hlease := h [.work trigger.runId (.provision (some ("task", "path"))),
      .work trigger.runId (.addWorktree true)] (by simp) ⟨.lease, db.admittedAs trigger.asked⟩
      (by rw [heffects]; simp)
    exact (Trigger.skips_iff.mp hskips).2 hlease
  · intro h actions hactions
    exact ((onlyAccepted_trigger h).run hactions).effects
  · intro taskId
    refine hworking.length_le (p := fun run => decide (run.occurrence.taskId = taskId)) ?_
      (hworking.sound.perTask taskId)
    intro run row heq
    simp only [heq]
  · have hall := hworking.length_le (p := fun _ => true) (fun _ _ _ => rfl)
      (by simpa [Db.active] using hworking.sound.overall)
    simpa [maxConcurrentRuns] using hall

/-- A task that may run every hour. -/
def approvedTask : Task :=
  { id := "task", schedule := everyHour.schedule, scheduleAnchorAt := some 0,
    updatedAt := 0, enabled := true, executionLocation := .local, projectId := "project",
    agentRef := "agent", model := none, prompt := "prompt", revision := 1,
    approval := some ⟨"full_auto_in_worktree", 0⟩, worktreeBaseBranch := some "main" }

/-- The first hour is admitted and provisioned. -/
def firstHour : List Action :=
  [.trigger ⟨approvedTask, 3600000, 3600000, "run-1"⟩,
    .work "run-1" (.provision (some ("worktree-1", "/worktrees/1"))),
    .work "run-1" (.addWorktree true)]

/-- The second hour comes while the first is still being provisioned. -/
def secondHour : List Action :=
  [.trigger ⟨approvedTask, 7200000, 7200000, "run-2"⟩,
    .work "run-2" (.provision (some ("worktree-2", "/worktrees/2"))),
    .work "run-2" (.addWorktree true), .work "run-2" (.commit (some true) 7200001),
    .work "run-2" (.settle true 7200002)]

/-- No trigger skips in the first hour, and one run is being executed. -/
theorem skipped_has_no_effect_first_hour :
    ((State.idle Db.empty).run firstHour).workers.length = 1 ∧
      ((State.idle Db.empty).run firstHour).workers.length ≤ 4 := by
  let trigger : Trigger := ⟨approvedTask, 3600000, 3600000, "run-1"⟩
  have hpath : ∃ journal, Journal.Path Unskipped (State.idle Db.empty) journal
      ((State.idle Db.empty).run firstHour) := by
    simp only [firstHour, State.run, foldl_cons, foldl_nil]
    refine ⟨_, .cons ⟨?_, rfl⟩ (.cons ⟨?_, rfl⟩ (.cons ⟨?_, rfl⟩ (.nil _)))⟩
    · intro trigger htrigger
      rw [← Action.trigger.inj htrigger]
      decide +kernel
    · intro trigger htrigger
      cases htrigger
    · intro trigger htrigger
      cases htrigger
  obtain ⟨journal, hpath⟩ := hpath
  exact ⟨by decide +kernel, (skipped_has_no_effect_iff Db.empty trigger hpath).2.2.2⟩

/-- A run that is skipped because its task is busy gets a lease and a worktree. The commit does not
bind it, and no session is asked for. -/
theorem skipped_run_is_provisioned :
    (((State.idle Db.empty).run firstHour).run secondHour).effects.map
        (fun effect => (effect.kind, effect.run.id, effect.run.status)) =
      [(.provisioning, "run-1", .accepted), (.lease, "run-1", .accepted),
        (.worktree, "run-1", .accepted), (.provisioning, "run-2", .skippedBusy),
        (.lease, "run-2", .skippedBusy), (.worktree, "run-2", .skippedBusy)] ∧
    (((State.idle Db.empty).run firstHour).run secondHour).db.runs.map
        (fun run => (run.id, run.status, run.worktreeTaskId)) =
      [("run-1", .accepted, none), ("run-2", .skippedBusy, none)] := by
  constructor <;> decide +kernel

end OraDesktop.Scheduled
