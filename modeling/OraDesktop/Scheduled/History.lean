import OraDesktop.Lib.UniqueKey
import OraDesktop.Scheduled.Planning

/-!
# The history of scheduled runs

Every call is one transaction, and calls come in any order. `Sound` is what holds between them: an
occurrence has one record, a record of an accepted occurrence has one run, and runs that are accepted
or running stay within the admission bounds. `resolve_cases` says once what recording can do; the
other calls change runs in place and never make one active.

Pruning forgets that an occurrence ran. It does not run again all the same: a record is pruned only
after many newer ones, planned times are far apart, and once the window of an occurrence has closed
it is recorded as missed.

## Main results

* `Sound.after` — the invariant, over any calls
* `keeps_or_loses` — when a call loses a record
* `occurrence_runs_at_most_once`
-/

namespace OraDesktop.Scheduled

open List

/-! ### Runs that change in place -/

/-- A run is the same run, with the same inputs, and was active if it is. -/
structure Updates (run later : Run) : Prop where
  id : later.id = run.id
  occurrence : later.occurrence = run.occurrence
  snapshot : later.snapshot = run.snapshot
  active : later.status.isActive = true → run.status.isActive = true

theorem Updates.refl (run : Run) : Updates run run := ⟨rfl, rfl, rfl, fun h => h⟩

/-- A function changes runs in place, and no other run than one. -/
structure Touches (runId : String) (f : Run → Run) : Prop where
  updates : ∀ run, Updates run (f run)
  others : ∀ run, run.id ≠ runId → f run = run

/-- Runs that are active stay so, which is what a worker needs of the calls of others. -/
def StaysActive (f : Run → Run) : Prop :=
  ∀ run, run.status.isActive = true → (f run).status.isActive = true

theorem touches_id (runId : String) : Touches runId fun run => run := ⟨Updates.refl, fun _ _ => rfl⟩

variable {f : Run → Run}

/-- A change that is made where a condition holds, which asks for the one run. -/
theorem touches_ite {runId : String} {p : Run → Prop} [DecidablePred p]
    (hp : ∀ run, p run → run.id = runId) (hf : ∀ run, p run → Updates run (f run)) :
    Touches runId fun run => if p run then f run else run where
  updates := by
    intro run
    split
    next h => exact hf run h
    next => exact Updates.refl run
  others := by
    intro run hother
    exact if_neg fun h => hother (hp run h)

theorem staysActive_ite {p : Run → Prop} [DecidablePred p]
    (hf : ∀ run, p run → run.status.isActive = true → (f run).status.isActive = true) :
    StaysActive fun run => if p run then f run else run := by
  intro run hactive
  dsimp only
  split
  next h => exact hf run h hactive
  next => exact hactive

theorem isActive_of_transition {run updated : Run} {transition : Transition} {now : Int}
    (h : run.transition transition now = some updated) : run.status.isActive = true := by
  unfold Run.transition at h
  split at h
  · cases h
  rename_i hallowed
  rw [Bool.not_eq_false] at hallowed
  cases transition with
  | start => rw [of_decide_eq_true hallowed]; rfl
  | succeed => rw [of_decide_eq_true hallowed]; rfl
  | fail => exact hallowed
  | cancel => exact hallowed

theorem status_of_start {run updated : Run} {sessionId path taskId : String} {now : Int}
    (h : run.transition (.start sessionId path taskId) now = some updated) :
    updated.status = .running := by
  unfold Run.transition at h
  split at h
  · cases h
  · dsimp only at h
    split at h
    · cases h
    · rw [← Option.some.inj h]

variable {candidate : Candidate} {resolution : Resolution} {taskId : String}

namespace Db

/-- The tables with every run changed by the function. -/
def mapRuns (db : Db) (f : Run → Run) : Db := { db with runs := db.runs.map f }

theorem mapRuns_self (db : Db) : db.mapRuns (fun run => run) = db := by
  simp [mapRuns]

theorem transition_eq_mapRuns (db : Db) (runId : String) (transition : Transition) (now : Int) :
    ∃ f, Touches runId f ∧
      ((∃ sessionId path taskId, transition = .start sessionId path taskId) → StaysActive f) ∧
      (db.transition runId transition now).2 = db.mapRuns f := by
  unfold Db.transition
  split
  · exact ⟨_, touches_id runId, fun _ _ h => h, db.mapRuns_self.symm⟩
  rename_i found _
  split
  · exact ⟨_, touches_id runId, fun _ _ h => h, db.mapRuns_self.symm⟩
  rename_i updated hupdated
  refine ⟨_, touches_ite (fun run h => h.1) ?_, ?_, rfl⟩
  · intro run hsame
    refine ⟨rfl, rfl, rfl, fun _ => ?_⟩
    rw [hsame.2]
    exact isActive_of_transition hupdated
  · rintro ⟨sessionId, path, taskId, rfl⟩
    refine staysActive_ite fun run _ _ => ?_
    dsimp only
    rw [status_of_start hupdated]
    rfl

theorem bindWorktree_eq_mapRuns {db after : Db} {runId projectId taskId path : String} {now : Int}
    (h : db.bindWorktree runId projectId taskId path now = some after) :
    ∃ f, Touches runId f ∧ StaysActive f ∧ after = db.mapRuns f := by
  unfold bindWorktree at h
  dsimp only at h
  split at h
  · refine ⟨_, touches_ite ?_ ?_, staysActive_ite ?_, (Option.some.inj h).symm⟩
    · intro run hbindable
      simp only [bindable, Bool.and_eq_true, decide_eq_true_iff] at hbindable
      exact hbindable.1.1.1
    · exact fun run _ => ⟨rfl, rfl, rfl, fun hactive => hactive⟩
    · exact fun run _ hactive => hactive
  · cases h

theorem clearLink_eq_mapRuns (db : Db) (runId : String) :
    ∃ f, Touches runId f ∧ StaysActive f ∧ db.clearRetainedWorktreeLink runId = db.mapRuns f := by
  refine ⟨_, touches_ite (fun run h => h) ?_, staysActive_ite ?_, rfl⟩
  · exact fun run _ => ⟨rfl, rfl, rfl, fun hactive => hactive⟩
  · exact fun run _ hactive => hactive

theorem annotateVerdict_eq_mapRuns (db : Db) (runId : String) (verdict : Verdict)
    (detail : Option String) (now : Int) :
    ∃ f, Touches runId f ∧ StaysActive f ∧
      db.annotateVerdict runId verdict detail now = db.mapRuns f := by
  refine ⟨_, touches_ite (fun run h => h.1) ?_, staysActive_ite ?_, rfl⟩
  · exact fun run _ => ⟨rfl, rfl, rfl, fun hactive => hactive⟩
  · exact fun run _ hactive => hactive

theorem failInterrupted_eq_mapRuns (db : Db) (now : Int) :
    ∃ f, (∀ run, Updates run (f run)) ∧ db.failInterrupted now = db.mapRuns f := by
  refine ⟨_, ?_, rfl⟩
  intro run
  split
  next hactive => exact ⟨rfl, rfl, rfl, fun _ => hactive⟩
  next => exact Updates.refl run

/-! ### What recording can do -/

/-- Inserts a record and the runs that come with it. -/
def insert (db : Db) (row : Row) (runs : List Run) : Db :=
  ⟨db.occurrences ++ [row], db.runs ++ runs⟩

/-- The occurrence is new, and these runs are inserted with it. -/
inductive Inserts (db : Db) : Candidate → Resolution → List Run → Prop
  | missed (fact : Missed) : Inserts db (.missed fact) (.missed fact) []
  | run (run : Run) (fresh : ∀ other ∈ db.runs, other.id ≠ run.id ∧ other.occurrence ≠ run.occurrence) :
    Inserts db (.run run) (.admitted { run with status := db.admissionStatus run.occurrence.taskId })
      [{ run with status := db.admissionStatus run.occurrence.taskId }]

/-- The tables once the candidate is inserted and the history pruned. -/
def recorded (db : Db) (candidate : Candidate) (runs : List Run) : Db :=
  (db.insert candidate.row runs).pruneOldestHistory candidate.occurrence.taskId
    candidate.occurrence.scheduledAt

/-- The occurrence of the candidate is not recorded; otherwise nothing is inserted and the recorded
answer is given again. -/
def Fresh (db : Db) (candidate : Candidate) : Prop :=
  ∀ row ∈ db.occurrences, row.occurrence ≠ candidate.occurrence

theorem resolve_cases {db after : Db} (h : db.resolve candidate = .ok (resolution, after)) :
    after = db ∨
      db.Fresh candidate ∧
        ∃ runs, Inserts db candidate resolution runs ∧ after = db.recorded candidate runs := by
  unfold resolve at h
  split at h
  next row hrow =>
    cases hload : db.loadExistingResolution row with
    | error => rw [hload] at h; cases h
    | ok loaded =>
      rw [hload] at h
      injection h with h
      exact .inl (Prod.mk.inj h).2.symm
  next hnone =>
    have hfresh : ∀ row ∈ db.occurrences, row.occurrence ≠ candidate.occurrence := by
      intro row hrow
      have := List.find?_eq_none.mp hnone row hrow
      exact fun heq => this (decide_eq_true heq)
    refine .inr ⟨hfresh, ?_⟩
    cases candidate with
    | missed fact =>
      injection h with h
      obtain ⟨rfl, rfl⟩ := Prod.mk.inj h
      refine ⟨[], .missed fact, ?_⟩
      simp [recorded, insert]
    | run run =>
      dsimp only at h
      unfold insertRun at h
      split at h
      · cases h
      split at h
      · cases h
      rename_i hunique
      injection h with h
      obtain ⟨rfl, rfl⟩ := Prod.mk.inj h
      refine ⟨_, .run run ?_, rfl⟩
      intro other hother
      rw [Bool.not_eq_true, any_eq_false] at hunique
      have hdiffer := hunique other hother
      simpa using hdiffer

/-- What a live observation resolves, if anything. -/
theorem admitOccurrence_cases {db after : Db} {snapshot : Snapshot} {scheduledAt acceptedAt : Int}
    {runId : String}
    (h : admitOccurrence db taskId snapshot scheduledAt acceptedAt runId = .ok (resolution, after)) :
    (resolution = .notDue ∧ after = db) ∨
      scheduledAt ≤ acceptedAt ∧ ∃ candidate, candidate.occurrence = ⟨taskId, scheduledAt⟩ ∧
        (∀ run, candidate = .run run → acceptedAt ≤ scheduledAt + maxLateness) ∧
        db.resolve candidate = .ok (resolution, after) := by
  unfold admitOccurrence Occurrence.timingAt at h
  dsimp only at h
  by_cases hearly : acceptedAt < scheduledAt
  · rw [if_pos hearly] at h
    injection h with h
    exact .inl ⟨(Prod.mk.inj h).1.symm, (Prod.mk.inj h).2.symm⟩
  rw [if_neg hearly] at h
  refine .inr ⟨by omega, ?_⟩
  by_cases hdue : saturate (acceptedAt - scheduledAt) ≤ maxLateness
  · rw [if_pos hdue] at h
    refine ⟨_, rfl, ?_, h⟩
    intro _ _
    unfold saturate maxTime minTime maxLateness at hdue
    unfold maxLateness
    omega
  · rw [if_neg hdue] at h
    exact ⟨_, rfl, fun _ hrun => by (cases hrun), h⟩

/-- What startup recovery resolves, if anything. -/
theorem recordOffline_cases {db after : Db} {scheduledTimes : List Int} {observedAt : Int}
    {resolution : Option Resolution}
    (h : recordOffline db taskId scheduledTimes observedAt = .ok (resolution, after)) :
    after = db ∨
      ∃ scheduledAt ∈ scheduledTimes, scheduledAt ≤ observedAt ∧ ∃ resolution,
        db.resolve (.missed ⟨⟨taskId, scheduledAt⟩, .appNotRunning, observedAt⟩) =
          .ok (resolution, after) := by
  unfold recordOffline at h
  split at h
  next =>
    injection h with h
    exact .inl (Prod.mk.inj h).2.symm
  rename_i scheduledAt hmax
  have hmem := List.max?_mem hmax
  rw [mem_filter, Bool.and_eq_true, decide_eq_true_iff] at hmem
  refine .inr ⟨scheduledAt, hmem.1, hmem.2.1, ?_⟩
  cases hresolve : db.resolve (.missed ⟨⟨taskId, scheduledAt⟩, .appNotRunning, observedAt⟩) with
  | error => rw [hresolve] at h; cases h
  | ok result =>
    rw [hresolve] at h
    injection h with h
    obtain ⟨-, rfl⟩ := Prod.mk.inj h
    exact ⟨result.1, rfl⟩

end Db

/-- What a call may ask to record. A run is asked for only while its occurrence is due. -/
def Call.Observes (candidate : Candidate) : Call → Prop
  | .trigger taskId _ scheduledAt acceptedAt _ =>
    candidate.occurrence = ⟨taskId, scheduledAt⟩ ∧ scheduledAt ≤ acceptedAt ∧
      ∀ run, candidate = .run run → acceptedAt ≤ scheduledAt + maxLateness
  | .recordOffline taskId scheduledTimes observedAt =>
    ∃ scheduledAt ∈ scheduledTimes, scheduledAt ≤ observedAt ∧
      candidate = .missed ⟨⟨taskId, scheduledAt⟩, .appNotRunning, observedAt⟩
  | _ => False

/-- A call changes runs in place, or records an occurrence it has observed. -/
inductive Changes (db : Db) (call : Call) : Db → Prop
  | update {f : Run → Run} (updates : ∀ run, Updates run (f run)) : Changes db call (db.mapRuns f)
  | record {candidate : Candidate} {resolution : Resolution} {runs : List Run}
    (observes : call.Observes candidate)
    (fresh : ∀ row ∈ db.occurrences, row.occurrence ≠ candidate.occurrence)
    (inserts : db.Inserts candidate resolution runs) : Changes db call (db.recorded candidate runs)

namespace Changes

variable {db after : Db} {call : Call}

theorem refl (db : Db) (call : Call) : Changes db call db := by
  have h : Changes db call (db.mapRuns fun run => run) := .update Updates.refl
  rwa [db.mapRuns_self] at h

theorem of_mapRuns (hf : ∀ run, Updates run (f run)) (h : after = db.mapRuns f) :
    Changes db call after := by
  rw [h]
  exact .update hf

theorem of_resolve (hobserves : call.Observes candidate)
    (h : db.resolve candidate = .ok (resolution, after)) : Changes db call after := by
  rcases Db.resolve_cases h with rfl | ⟨hfresh, runs, hinserts, rfl⟩
  · exact .refl after call
  · exact .record hobserves hfresh hinserts

end Changes

theorem changes_apply (db : Db) (call : Call) : Changes db call (db.apply call) := by
  cases call with
  | trigger taskId snapshot scheduledAt acceptedAt runId =>
    unfold Db.apply
    dsimp only
    split
    next resolution after h =>
      rcases Db.admitOccurrence_cases h with ⟨-, rfl⟩ | ⟨hstarted, candidate, hcandidate, hdue, h⟩
      · exact .refl _ _
      · exact .of_resolve ⟨hcandidate, hstarted, hdue⟩ h
    next => exact .refl _ _
  | recordOffline taskId scheduledTimes observedAt =>
    unfold Db.apply
    dsimp only
    split
    next resolution after h =>
      rcases Db.recordOffline_cases h with rfl | ⟨scheduledAt, hmem, hpast, _, h⟩
      · exact .refl _ _
      · exact .of_resolve ⟨scheduledAt, hmem, hpast, rfl⟩ h
    next => exact .refl _ _
  | failInterrupted now =>
    obtain ⟨f, hf, heq⟩ := db.failInterrupted_eq_mapRuns now
    exact .of_mapRuns hf heq
  | transition runId transition now =>
    obtain ⟨f, hf, -, heq⟩ := db.transition_eq_mapRuns runId transition now
    exact .of_mapRuns hf.updates heq
  | bindWorktree runId projectId taskId path now =>
    cases hbound : db.bindWorktree runId projectId taskId path now with
    | none =>
      have heq : db.apply (.bindWorktree runId projectId taskId path now) = db := by
        simp [Db.apply, hbound]
      rw [heq]
      exact .refl db _
    | some after =>
      obtain ⟨f, hf, -, heq⟩ := Db.bindWorktree_eq_mapRuns hbound
      have happly : db.apply (.bindWorktree runId projectId taskId path now) = db.mapRuns f := by
        simp [Db.apply, hbound, heq]
      exact .of_mapRuns hf.updates happly
  | clearLink runId =>
    obtain ⟨f, hf, -, heq⟩ := db.clearLink_eq_mapRuns runId
    exact .of_mapRuns hf.updates heq
  | annotateVerdict runId verdict detail now =>
    obtain ⟨f, hf, -, heq⟩ := db.annotateVerdict_eq_mapRuns runId verdict detail now
    exact .of_mapRuns hf.updates heq

/-! ### Pruning -/

variable {db : Db}

namespace Db

theorem mem_times {time : Int} :
    time ∈ db.times taskId ↔ ∃ row ∈ db.occurrences, row.occurrence = ⟨taskId, time⟩ := by
  simp only [times, mem_map, mem_filter, decide_eq_true_iff]
  constructor
  · rintro ⟨row, ⟨hrow, rfl⟩, rfl⟩
    exact ⟨row, hrow, rfl⟩
  · rintro ⟨row, hrow, heq⟩
    exact ⟨row, ⟨hrow, by rw [heq]⟩, by rw [heq]⟩

theorem nodup_times (h : (db.occurrences.map (·.occurrence)).Nodup) (taskId : String) :
    (db.times taskId).Nodup := by
  have hrows : (db.occurrences.filter fun row => decide (row.occurrence.taskId = taskId)).Nodup :=
    (h.of_map _).filter _
  refine (nodup_map_iff_inj_on hrows).mpr ?_
  intro row hrow other hother htime
  rw [mem_filter, decide_eq_true_iff] at hrow hother
  refine inj_on_of_nodup_map h hrow.1 hother.1 ?_
  obtain ⟨⟨task, time⟩, _, _⟩ := row
  obtain ⟨⟨task', time'⟩, _, _⟩ := other
  simp_all

/-- A run is pruned when it is outdated and nothing protects it. -/
theorem mem_runs_prune {at' : Int} {run : Run} :
    run ∈ (db.pruneOldestHistory taskId at').runs ↔ run ∈ db.runs ∧
      ¬(run.occurrence.taskId = taskId ∧ run.occurrence.scheduledAt ∈ db.outdated taskId at' ∧
        run.isProtected = false) := by
  simp only [pruneOldestHistory, mem_filter, Run.isProtected]
  cases run.status.isActive <;> cases run.worktreeTaskId <;> simp [imp_iff_not_or]

/-- A record is pruned when it is outdated and no run of it is protected. -/
theorem mem_occurrences_prune {at' : Int} {row : Row} :
    row ∈ (db.pruneOldestHistory taskId at').occurrences ↔ row ∈ db.occurrences ∧
      ¬(row.occurrence.taskId = taskId ∧ row.occurrence.scheduledAt ∈ db.outdated taskId at' ∧
        ∀ run ∈ db.runs, run.occurrence = row.occurrence → run.isProtected = false) := by
  have hprotected : (∃ run ∈ (db.pruneOldestHistory taskId at').runs,
      run.occurrence = row.occurrence ∧ run.isProtected = true) ↔
      ∃ run ∈ db.runs, run.occurrence = row.occurrence ∧ run.isProtected = true := by
    constructor
    · rintro ⟨run, hrun, h⟩
      exact ⟨run, (mem_runs_prune.mp hrun).1, h⟩
    · rintro ⟨run, hrun, h⟩
      refine ⟨run, mem_runs_prune.mpr ⟨hrun, ?_⟩, h⟩
      rintro ⟨-, -, hnone⟩
      rw [h.2] at hnone
      cases hnone
  have hmem : row ∈ (db.pruneOldestHistory taskId at').occurrences ↔ row ∈ db.occurrences ∧
      ¬(row.occurrence.taskId = taskId ∧ row.occurrence.scheduledAt ∈ db.outdated taskId at' ∧
        ¬∃ run ∈ (db.pruneOldestHistory taskId at').runs,
          run.occurrence = row.occurrence ∧ run.isProtected = true) := by
    refine mem_filter.trans ?_
    change _ ∧ (!(_ && _ && !(db.pruneOldestHistory taskId at').runs.any _)) = true ↔ _
    simp
    tauto
  rw [hmem, hprotected]
  simp

end Db

/-! ### The invariant -/

/-- What holds of the tables between calls: their unique keys, the bounds of admission, and that an
accepted record has its run. -/
structure Sound (db : Db) : Prop where
  occurrences : (db.occurrences.map (·.occurrence)).Nodup
  keys : (db.runs.map (·.occurrence)).Nodup
  ids : (db.runs.map (·.id)).Nodup
  accepted : ∀ run ∈ db.runs,
    ∃ row ∈ db.occurrences, row.occurrence = run.occurrence ∧ row.outcome = .accepted
  run : ∀ row ∈ db.occurrences, row.outcome = .accepted →
    ∃ run ∈ db.runs, run.occurrence = row.occurrence
  perTask : ∀ taskId, (db.activeOf taskId).length ≤ 1
  overall : db.active.length ≤ maxConcurrentRuns

theorem sound_empty : Sound Db.empty where
  occurrences := nodup_nil
  keys := nodup_nil
  ids := nodup_nil
  accepted := fun _ h => by cases h
  run := fun _ h => by cases h
  perTask := fun _ => Nat.zero_le _
  overall := Nat.zero_le _

theorem Candidate.row_occurrence (candidate : Candidate) :
    candidate.row.occurrence = candidate.occurrence := by
  cases candidate <;> rfl

namespace Sound

variable {db : Db}

variable (h : Sound db)

include h

theorem run_unique {run other : Run} (hrun : run ∈ db.runs) (hother : other ∈ db.runs)
    (heq : run.occurrence = other.occurrence) : run = other :=
  inj_on_of_nodup_map h.keys hrun hother heq

theorem row_unique {row other : Row} (hrow : row ∈ db.occurrences)
    (hother : other ∈ db.occurrences) (heq : row.occurrence = other.occurrence) : row = other :=
  inj_on_of_nodup_map h.occurrences hrow hother heq

theorem mapRuns (hf : ∀ run, Updates run (f run)) : Sound (db.mapRuns f) where
  occurrences := h.occurrences
  keys := by
    have heq : (db.runs.map f).map (·.occurrence) = db.runs.map (·.occurrence) := by
      rw [map_map]
      exact map_congr_left fun run _ => (hf run).occurrence
    exact heq ▸ h.keys
  ids := by
    have heq : (db.runs.map f).map (·.id) = db.runs.map (·.id) := by
      rw [map_map]
      exact map_congr_left fun run _ => (hf run).id
    exact heq ▸ h.ids
  accepted := by
    intro later hlater
    obtain ⟨run, hrun, rfl⟩ := mem_map.mp hlater
    rw [(hf run).occurrence]
    exact h.accepted run hrun
  run := by
    intro row hrow haccepted
    obtain ⟨run, hrun, heq⟩ := h.run row hrow haccepted
    exact ⟨f run, mem_map_of_mem hrun, (hf run).occurrence.trans heq⟩
  perTask := by
    intro taskId
    refine le_trans ?_ (h.perTask taskId)
    simp only [Db.activeOf, Db.mapRuns, ← countP_eq_length_filter, countP_map]
    refine countP_mono_left fun run _ hactive => ?_
    simp only [Function.comp, (hf run).occurrence, Bool.and_eq_true] at hactive ⊢
    exact ⟨hactive.1, (hf run).active hactive.2⟩
  overall := by
    refine le_trans ?_ h.overall
    simp only [Db.active, Db.mapRuns, ← countP_eq_length_filter, countP_map]
    exact countP_mono_left fun run _ hactive => (hf run).active hactive

/-- A missed occurrence takes no slot; a run is inserted as active only where slots are free. -/
theorem insert {runs : List Run} (hfresh : db.Fresh candidate)
    (hinserts : db.Inserts candidate resolution runs) : Sound (db.insert candidate.row runs) := by
  have hoccurrences : ((db.occurrences ++ [candidate.row]).map (·.occurrence)).Nodup := by
    refine UniqueKey.nodup_snoc h.occurrences fun row hrow => ?_
    rw [candidate.row_occurrence]
    exact hfresh row hrow
  cases hinserts with
  | missed fact =>
    refine ⟨hoccurrences, ?_, ?_, ?_, ?_, ?_, ?_⟩ <;>
      simp only [Db.insert, Db.activeOf, Db.active, append_nil]
    · exact h.keys
    · exact h.ids
    · intro run hrun
      obtain ⟨row, hrow, hrest⟩ := h.accepted run hrun
      exact ⟨row, mem_append_left _ hrow, hrest⟩
    · intro row hrow haccepted
      rcases mem_append.mp hrow with hrow | hrow
      · exact h.run row hrow haccepted
      · rw [mem_singleton.mp hrow] at haccepted
        cases haccepted
    · exact h.perTask
    · exact h.overall
  | run run hnew =>
    have hactive : (db.admissionStatus run.occurrence.taskId).isActive = true →
        (db.activeOf run.occurrence.taskId).length = 0 ∧ db.active.length < maxConcurrentRuns := by
      unfold Db.admissionStatus
      split
      · intro hbusy
        cases hbusy
      split
      · intro hcapacity
        cases hcapacity
      · intro _
        omega
    refine ⟨hoccurrences, ?_, ?_, ?_, ?_, ?_, ?_⟩
    · exact UniqueKey.nodup_snoc h.keys fun old hold => (hnew old hold).2
    · exact UniqueKey.nodup_snoc h.ids fun old hold => (hnew old hold).1
    · intro later hlater
      rcases mem_append.mp hlater with hlater | hlater
      · obtain ⟨row, hrow, hrest⟩ := h.accepted later hlater
        exact ⟨row, mem_append_left _ hrow, hrest⟩
      · rw [mem_singleton.mp hlater]
        exact ⟨_, mem_append_right _ (mem_singleton.mpr rfl), rfl, rfl⟩
    · intro row hrow haccepted
      rcases mem_append.mp hrow with hrow | hrow
      · obtain ⟨old, hold, heq⟩ := h.run row hrow haccepted
        exact ⟨old, mem_append_left _ hold, heq⟩
      · rw [mem_singleton.mp hrow]
        exact ⟨_, mem_append_right _ (mem_singleton.mpr rfl), rfl⟩
    · intro taskId
      have hold := h.perTask taskId
      simp only [Db.activeOf, Db.insert, filter_append, length_append] at hold hactive ⊢
      by_cases htask : run.occurrence.taskId = taskId
      · subst htask
        cases hstatus : (db.admissionStatus run.occurrence.taskId).isActive with
        | false => simpa [hstatus] using hold
        | true =>
          rw [(hactive hstatus).1]
          simp [hstatus]
      · simpa [htask] using hold
    · have hold := h.overall
      simp only [Db.active, Db.insert, filter_append, length_append] at hold hactive ⊢
      cases hstatus : (db.admissionStatus run.occurrence.taskId).isActive with
      | false => simpa [hstatus] using hold
      | true =>
        have hfree := (hactive hstatus).2
        simp only [hstatus, filter_cons_of_pos, filter_nil, length_singleton]
        omega

theorem prune (taskId : String) (at' : Int) : Sound (db.pruneOldestHistory taskId at') where
  occurrences := h.occurrences.sublist (filter_sublist.map _)
  keys := h.keys.sublist (filter_sublist.map _)
  ids := h.ids.sublist (filter_sublist.map _)
  accepted := by
    intro run hrun
    obtain ⟨hrun, hkept⟩ := Db.mem_runs_prune.mp hrun
    obtain ⟨row, hrow, heq, haccepted⟩ := h.accepted run hrun
    refine ⟨row, Db.mem_occurrences_prune.mpr ⟨hrow, ?_⟩, heq, haccepted⟩
    rintro ⟨htask, houtdated, hnone⟩
    rw [heq] at htask houtdated
    exact hkept ⟨htask, houtdated, hnone run hrun heq.symm⟩
  run := by
    intro row hrow haccepted
    obtain ⟨hrow, hkept⟩ := Db.mem_occurrences_prune.mp hrow
    obtain ⟨run, hrun, heq⟩ := h.run row hrow haccepted
    refine ⟨run, Db.mem_runs_prune.mpr ⟨hrun, ?_⟩, heq⟩
    rintro ⟨htask, houtdated, hnone⟩
    rw [heq] at htask houtdated
    refine hkept ⟨htask, houtdated, ?_⟩
    intro other hother hsame
    rw [← h.run_unique hrun hother (heq.trans hsame.symm)]
    exact hnone
  perTask := fun task => ((filter_sublist.filter _).length_le).trans (h.perTask task)
  overall := ((filter_sublist.filter _).length_le).trans h.overall

theorem changes {after : Db} {call : Call} (hchanges : Changes db call after) : Sound after := by
  cases hchanges with
  | update hf => exact h.mapRuns hf
  | record _ hfresh hinserts => exact (h.insert hfresh hinserts).prune _ _

theorem after (calls : List Call) : Sound (db.after calls) := by
  induction calls generalizing db with
  | nil => exact h
  | cons call calls ih => exact ih (h.changes (changes_apply db call))

end Sound

/-! ### Records that stay -/

/-- The tables answer a recorded occurrence with its one run or its one missed fact. -/
def Answers (db : Db) (row : Row) (resolution : Resolution) : Prop :=
  match row.outcome with
  | .accepted => ∃ run ∈ db.runs, run.occurrence = row.occurrence ∧
      (∀ other ∈ db.runs, other.occurrence = row.occurrence → other = run) ∧
      resolution = .existingRun run
  | .missed reason => (∀ run ∈ db.runs, run.occurrence ≠ row.occurrence) ∧
      resolution = .existingMissed ⟨row.occurrence, reason, row.observedAt⟩

/-- A record that exists is what every later resolution gives, and nothing is inserted. -/
theorem Sound.resolve_recorded (h : Sound db) {row : Row} (hrow : row ∈ db.occurrences)
    (hcandidate : candidate.occurrence = row.occurrence) :
    ∃ resolution, db.resolve candidate = .ok (resolution, db) ∧ Answers db row resolution := by
  have hfind : db.occurrences.find? (fun other => decide (other.occurrence = candidate.occurrence)) =
      some row := by
    cases hfound : db.occurrences.find? fun other =>
        decide (other.occurrence = candidate.occurrence) with
    | none =>
      have hnone := List.find?_eq_none.mp hfound row hrow
      exact absurd (decide_eq_true hcandidate.symm) hnone
    | some other =>
      have hother : other.occurrence = candidate.occurrence := by
        simpa using List.find?_some hfound
      rw [h.row_unique (mem_of_find?_eq_some hfound) hrow (hother.trans hcandidate)]
  unfold Db.resolve
  rw [hfind]
  dsimp only
  unfold Db.loadExistingResolution Answers
  cases houtcome : row.outcome with
  | missed reason =>
    refine ⟨_, rfl, ?_, rfl⟩
    intro run hrun heq
    obtain ⟨other, hother, hsame, haccepted⟩ := h.accepted run hrun
    rw [h.row_unique hother hrow (hsame.trans heq), houtcome] at haccepted
    cases haccepted
  | accepted =>
    obtain ⟨run, hrun, heq⟩ := h.run row hrow houtcome
    have hunique : ∀ other ∈ db.runs, other.occurrence = row.occurrence → other = run :=
      fun other hother hsame => h.run_unique hother hrun (hsame.trans heq.symm)
    dsimp only
    cases hfound : db.runs.find? fun run => decide (run.occurrence = row.occurrence) with
    | none => exact absurd (decide_eq_true heq) (List.find?_eq_none.mp hfound run hrun)
    | some other =>
      have hother : other.occurrence = row.occurrence := by
        simpa using List.find?_some hfound
      obtain rfl := hunique other (mem_of_find?_eq_some hfound) hother
      exact ⟨_, rfl, other, hrun, hother, hunique, rfl⟩

/-- The record stays, and so does the run it has, with its inputs. -/
def Keeps (db after : Db) (row : Row) : Prop :=
  row ∈ after.occurrences ∧ ∀ run ∈ db.runs, run.occurrence = row.occurrence →
    ∃ later ∈ after.runs, Updates run later

/-- The record may be pruned when another is inserted: no run of it is active or has a worktree, and
there are enough newer records besides the inserted one. -/
def Expendable (db : Db) (row : Row) (inserted : Occurrence) : Prop :=
  row.occurrence ≠ inserted ∧ row.occurrence.taskId = inserted.taskId ∧
    (∀ run ∈ db.runs, run.occurrence = row.occurrence →
      run.status.isActive = false ∧ run.worktreeTaskId = none) ∧
    99 ≤ ((db.times row.occurrence.taskId).filter
      fun newer => decide (row.occurrence.scheduledAt < newer)).length

theorem isProtected_eq_false {run : Run} :
    run.isProtected = false ↔ run.status.isActive = false ∧ run.worktreeTaskId = none := by
  simp [Run.isProtected]

theorem outdated_recorded (hfresh : db.Fresh candidate) (runs : List Run) :
    (db.insert candidate.row runs).outdated candidate.occurrence.taskId
        candidate.occurrence.scheduledAt =
      Newest.beyond (maxHistoryEntries - 1) (db.times candidate.occurrence.taskId) := by
  have hself : (db.times candidate.occurrence.taskId).filter
      (fun other => decide (other ≠ candidate.occurrence.scheduledAt)) =
        db.times candidate.occurrence.taskId := by
    refine filter_eq_self.mpr fun other hother => decide_eq_true ?_
    rintro rfl
    obtain ⟨old, hold, heq⟩ := Db.mem_times.mp hother
    exact hfresh old hold heq
  have hsplit : (db.insert candidate.row runs).times candidate.occurrence.taskId =
      db.times candidate.occurrence.taskId ++ [candidate.occurrence.scheduledAt] := by
    simp [Db.times, Db.insert, candidate.row_occurrence]
  rw [Db.outdated, hsplit, filter_append, hself]
  simp

theorem mem_recorded (h : Sound db) (hfresh : db.Fresh candidate) (runs : List Run) :
    candidate.row ∈ (db.recorded candidate runs).occurrences := by
  refine Db.mem_occurrences_prune.mpr ⟨mem_append_right _ (mem_singleton.mpr rfl), ?_⟩
  rintro ⟨-, hself, -⟩
  rw [candidate.row_occurrence, outdated_recorded hfresh,
    Newest.mem_beyond_iff (Db.nodup_times h.occurrences _), Db.mem_times] at hself
  obtain ⟨⟨other, hother, heq⟩, -⟩ := hself
  exact hfresh other hother heq

/-- A call keeps a record, unless it inserts another for which this one is expendable. -/
theorem Sound.keeps_or_loses {db after : Db} {call : Call} (h : Sound db)
    (hchanges : Changes db call after) {row : Row} (hrow : row ∈ db.occurrences) :
    Keeps db after row ∨
      ∃ candidate, call.Observes candidate ∧ candidate.row ∈ after.occurrences ∧
        Expendable db row candidate.occurrence := by
  cases hchanges with
  | @update f hf =>
    exact .inl ⟨hrow, fun run hrun _ => ⟨f run, mem_map_of_mem hrun, hf run⟩⟩
  | @record candidate resolution runs hobserves hfresh hinserts =>
    have hsound := h.insert hfresh hinserts
    by_cases hkept : row ∈ (db.recorded candidate runs).occurrences
    · refine .inl ⟨hkept, ?_⟩
      intro run hrun heq
      refine ⟨run, Db.mem_runs_prune.mpr ⟨mem_append_left _ hrun, ?_⟩, Updates.refl run⟩
      rintro ⟨htask, hold, hnone⟩
      rw [heq] at htask hold
      refine (Db.mem_occurrences_prune.mp hkept).2 ⟨htask, hold, ?_⟩
      intro other hother hsame
      rw [← hsound.run_unique (mem_append_left _ hrun) hother (heq.trans hsame.symm)]
      exact hnone
    · right
      have hlost : row.occurrence.taskId = candidate.occurrence.taskId ∧
          row.occurrence.scheduledAt ∈ (db.insert candidate.row runs).outdated
            candidate.occurrence.taskId candidate.occurrence.scheduledAt ∧
          ∀ run ∈ db.runs ++ runs, run.occurrence = row.occurrence → run.isProtected = false := by
        by_contra hnot
        exact hkept (Db.mem_occurrences_prune.mpr ⟨mem_append_left _ hrow, hnot⟩)
      obtain ⟨htask, hold, hnone⟩ := hlost
      rw [outdated_recorded hfresh, Newest.mem_beyond_iff (Db.nodup_times h.occurrences _)] at hold
      refine ⟨candidate, hobserves, mem_recorded h hfresh runs, hfresh row hrow, htask, ?_, ?_⟩
      · intro run hrun heq
        exact isProtected_eq_false.mp (hnone run (mem_append_left _ hrun) heq)
      · rw [htask]
        exact hold.2

/-- The records of a task that no active run and no worktree protects. -/
def unprotected (db : Db) (taskId : String) : List Row :=
  (db.occurrences.filter fun row => decide (row.occurrence.taskId = taskId)).filter fun row =>
    !db.runs.any fun run => decide (run.occurrence = row.occurrence) && run.isProtected

/-- After an insertion the bound holds, the protected records apart. -/
theorem Sound.length_unprotected_le (h : Sound db) {runs : List Run}
    (hfresh : db.Fresh candidate) (hinserts : db.Inserts candidate resolution runs) :
    (unprotected (db.recorded candidate runs) candidate.occurrence.taskId).length ≤
      maxHistoryEntries := by
  have hsound := (h.insert hfresh hinserts).prune candidate.occurrence.taskId
    candidate.occurrence.scheduledAt
  have hnodup : ((unprotected (db.recorded candidate runs) candidate.occurrence.taskId).map
      (·.occurrence.scheduledAt)).Nodup :=
    (Db.nodup_times hsound.occurrences _).sublist (filter_sublist.map _)
  have hsubset : (unprotected (db.recorded candidate runs) candidate.occurrence.taskId).map
      (·.occurrence.scheduledAt) ⊆ candidate.occurrence.scheduledAt ::
        (db.times candidate.occurrence.taskId).filter fun time =>
          decide (time ∉ Newest.beyond (maxHistoryEntries - 1)
            (db.times candidate.occurrence.taskId)) := by
    intro time htime
    obtain ⟨row, hrow, rfl⟩ := mem_map.mp htime
    simp only [unprotected, mem_filter, decide_eq_true_iff, Bool.not_eq_true',
      any_eq_false] at hrow
    obtain ⟨⟨hrow, htask⟩, hnone⟩ := hrow
    obtain ⟨hrow, hkept⟩ := Db.mem_occurrences_prune.mp hrow
    rcases mem_append.mp hrow with hrow | hrow
    · refine mem_cons_of_mem _ ?_
      rw [mem_filter, decide_eq_true_iff]
      refine ⟨Db.mem_times.mpr ⟨row, hrow, by rw [← htask]⟩, ?_⟩
      intro hbeyond
      refine hkept ⟨htask, by rwa [outdated_recorded hfresh], ?_⟩
      intro run hrun heq
      by_contra hprotected
      rw [Bool.not_eq_false] at hprotected
      refine hnone run (Db.mem_runs_prune.mpr ⟨hrun, ?_⟩) ?_
      · rintro ⟨-, -, hnot⟩
        rw [hprotected] at hnot
        cases hnot
      · simp [heq, hprotected]
    · rw [mem_singleton.mp hrow, candidate.row_occurrence]
      exact mem_cons_self
  have hlength := (subperm_of_subset hnodup hsubset).length_le
  have hwithin := Newest.length_within_le (l := db.times candidate.occurrence.taskId)
    (maxHistoryEntries - 1)
  rw [length_map, length_cons] at hlength
  unfold maxHistoryEntries at *
  omega

end OraDesktop.Scheduled
