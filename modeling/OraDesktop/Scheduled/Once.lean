import OraDesktop.Scheduled.History

/-!
# An occurrence runs at most once

Pruning forgets that an occurrence ran. It does not run again all the same, if the clock never goes
backwards and the runtime plans the times: when a record is pruned, ninety-nine newer planned times
have been observed. They do not fit into the window in which the occurrence is due, also where the
task is anchored anew meanwhile, so that window has closed, and whoever observes the occurrence later
finds it missed.

## Main results

* `Remembers.step` — what is known of past runs, kept by every call
* `occurrence_runs_at_most_once`
-/

namespace OraDesktop.Scheduled

open List

/-- The wall clock a call has read before it classifies an occurrence. The runtime reads it before the
transaction, so a clock that never goes backwards is taken to mean that calls commit in the order of
their readings. -/
def Call.observedAt : Call → Option Int
  | .trigger _ _ _ acceptedAt _ => some acceptedAt
  | .recordOffline _ _ observedAt => some observedAt
  | _ => none

/-- The runtime has planned what the call observes, for a definition of the task. Definitions change
between calls, and so does the time from which the task counts its hours. -/
def Call.PlannedBy (calendar : Calendar) (anchored : String → Int → Prop) : Call → Prop
  | .trigger taskId _ scheduledAt _ _ => ∃ task : Definition, task.id = taskId ∧
      Planned calendar (anchored taskId) task scheduledAt
  | .recordOffline taskId scheduledTimes observedAt => ∃ task : Definition, task.id = taskId ∧
      (∀ anchorAt, task.scheduleAnchorAt = some anchorAt →
        AnchoredUntil (anchored taskId) anchorAt observedAt) ∧
      scheduledTimes = recentScheduledOccurrences calendar task observedAt
  | _ => True

/-- The runs that are there and were not before; a call that answers with an existing run gains
none. -/
def Db.gained (db after : Db) : List Run :=
  after.runs.filter fun run => decide (∀ other ∈ db.runs, other.id ≠ run.id)

/-- The occurrences that get a run, call by call, also those whose record is pruned later. -/
def Db.started (db : Db) : List Call → List Occurrence
  | [] => []
  | call :: calls =>
    (db.gained (db.apply call)).map (·.occurrence) ++ (db.apply call).started calls

/-! ### One call -/

variable {db after : Db} {call : Call} {candidate : Candidate}

theorem Call.Observes.observedAt (h : call.Observes candidate) :
    ∃ now, call.observedAt = some now ∧ candidate.occurrence.scheduledAt ≤ now ∧
      ∀ run, candidate = .run run → now ≤ candidate.occurrence.scheduledAt + maxLateness := by
  cases call with
  | trigger taskId snapshot scheduledAt acceptedAt runId =>
    obtain ⟨hoccurrence, hstarted, hdue⟩ := h
    rw [hoccurrence]
    exact ⟨acceptedAt, rfl, hstarted, hdue⟩
  | recordOffline taskId scheduledTimes observedAt =>
    obtain ⟨scheduledAt, -, hstarted, rfl⟩ := h
    exact ⟨observedAt, rfl, hstarted, fun _ hrun => by cases hrun⟩
  | failInterrupted | transition | bindWorktree | clearLink | annotateVerdict => cases h

theorem Call.Observes.onGrid {calendar : Calendar} {anchored : String → Int → Prop}
    (h : call.Observes candidate) (hplanned : call.PlannedBy calendar anchored) :
    OnGrid (anchored candidate.occurrence.taskId) candidate.occurrence.scheduledAt := by
  cases call with
  | trigger taskId snapshot scheduledAt acceptedAt runId =>
    obtain ⟨task, -, htime⟩ := hplanned
    rw [h.1]
    exact onGrid_of_planned htime
  | recordOffline taskId scheduledTimes observedAt =>
    obtain ⟨scheduledAt, hmem, -, rfl⟩ := h
    obtain ⟨task, -, hanchor, rfl⟩ := hplanned
    exact onGrid_of_recent hanchor hmem
  | failInterrupted | transition | bindWorktree | clearLink | annotateVerdict => cases h

/-- A call that gives an occurrence a run has observed it while it was due, and records it. -/
theorem Sound.gained_spec (h : Sound db) (hchanges : Changes db call after) {run : Run}
    (hrun : run ∈ db.gained after) :
    ∃ candidate asked, candidate = .run asked ∧ call.Observes candidate ∧
      run.occurrence = candidate.occurrence ∧
      (∀ row ∈ db.occurrences, row.occurrence ≠ candidate.occurrence) ∧
      candidate.row ∈ after.occurrences := by
  rw [Db.gained, mem_filter, decide_eq_true_iff] at hrun
  obtain ⟨hrun, hnew⟩ := hrun
  cases hchanges with
  | @update f hf =>
    obtain ⟨old, hold, rfl⟩ := mem_map.mp hrun
    exact absurd (hf old).id.symm (hnew old hold)
  | @record candidate resolution runs hobserves hfresh hinserts =>
    have hstays := mem_recorded h hfresh runs
    rcases mem_append.mp (Db.mem_runs_prune.mp hrun).1 with hold | hinserted
    · exact absurd rfl (hnew run hold)
    cases hinserts with
    | missed => cases hinserted
    | run asked hunique =>
      rw [mem_singleton.mp hinserted]
      exact ⟨_, asked, rfl, hobserves, rfl, hfresh, hstays⟩

section

variable (hchanges : Changes db call after) {row : Row} (hrow : row ∈ after.occurrences)

include hchanges hrow

/-- A record that a call adds is the one it has observed. -/
theorem Changes.eq_row_of_new (hnew : row ∉ db.occurrences) :
    ∃ candidate resolution runs, candidate.row = row ∧
      (∀ row ∈ db.occurrences, row.occurrence ≠ candidate.occurrence) ∧
      db.Inserts candidate resolution runs ∧ after = db.recorded candidate runs := by
  cases hchanges with
  | update => exact absurd hrow hnew
  | @record candidate resolution runs _ hfresh hinserts =>
    rcases mem_append.mp (Db.mem_occurrences_prune.mp hrow).1 with hold | hinserted
    · exact absurd hold hnew
    · exact ⟨candidate, resolution, runs, (mem_singleton.mp hinserted).symm, hfresh, hinserts,
        rfl⟩

theorem Changes.row_cases :
    row ∈ db.occurrences ∨ ∃ candidate, candidate.row = row ∧ call.Observes candidate := by
  cases hchanges with
  | update => exact .inl hrow
  | @record candidate _ _ hobserves _ _ =>
    rcases mem_append.mp (Db.mem_occurrences_prune.mp hrow).1 with hold | hinserted
    · exact .inl hold
    · exact .inr ⟨candidate, (mem_singleton.mp hinserted).symm, hobserves⟩

end

/-! ### Calls under a clock -/

/-- What the tables tell of the occurrences that have had a run, before calls that will read the
clock at the later times: an occurrence is recorded, or its window has closed. -/
structure Remembers (anchored : String → Int → Prop) (past : List Occurrence) (later : List Int) (db : Db) :
    Prop where
  sound : Sound db
  grid : ∀ row ∈ db.occurrences, OnGrid (anchored row.occurrence.taskId) row.occurrence.scheduledAt
  observed : ∀ row ∈ db.occurrences, ∀ time ∈ later, row.occurrence.scheduledAt ≤ time
  known : ∀ occurrence ∈ past, (∃ row ∈ db.occurrences, row.occurrence = occurrence) ∨
    ∀ time ∈ later, occurrence.scheduledAt + maxLateness < time

namespace Remembers

variable {anchored : String → Int → Prop} {past : List Occurrence} {later rest : List Int}

theorem empty (later : List Int) : Remembers anchored [] later Db.empty where
  sound := sound_empty
  grid := nofun
  observed := nofun
  known := nofun

theorem closed_of_expendable (h : Remembers anchored past later db) {row : Row} {inserted : Occurrence}
    (hexpendable : Expendable db row inserted) {now : Int} (hnow : now ∈ later) :
    row.occurrence.scheduledAt + maxLateness < now := by
  by_contra hopen
  obtain ⟨-, -, -, hnewer⟩ := hexpendable
  have hwindow : ∀ newer ∈ (db.times row.occurrence.taskId).filter
      (fun newer => decide (row.occurrence.scheduledAt < newer)),
      OnGrid (anchored row.occurrence.taskId) newer ∧ row.occurrence.scheduledAt < newer ∧
        newer ≤ row.occurrence.scheduledAt + maxLateness := by
    intro newer hmem
    rw [mem_filter, decide_eq_true_iff] at hmem
    obtain ⟨other, hother, heq⟩ := Db.mem_times.mp hmem.1
    have hgrid := h.grid other hother
    have hobserved := h.observed other hother now hnow
    rw [heq] at hgrid hobserved
    exact ⟨hgrid, hmem.2, hobserved.trans (not_lt.mp hopen)⟩
  have hfew := length_window_le _
    ((Db.nodup_times h.sound.occurrences row.occurrence.taskId).filter _) hwindow
  omega

theorem step {calendar : Calendar} (h : Remembers anchored past later db)
    (hchanges : Changes db call after) (hplanned : call.PlannedBy calendar anchored)
    (hrest : ∀ time ∈ rest, time ∈ later)
    (hclock : ∀ now, call.observedAt = some now → ∀ time ∈ rest, now ≤ time) :
    Remembers anchored ((db.gained after).map (·.occurrence) ++ past) rest after where
  sound := h.sound.changes hchanges
  grid := by
    intro row hrow
    rcases hchanges.row_cases hrow with hold | ⟨candidate, rfl, hobserves⟩
    · exact h.grid row hold
    · rw [candidate.row_occurrence]
      exact hobserves.onGrid hplanned
  observed := by
    intro row hrow time htime
    rcases hchanges.row_cases hrow with hold | ⟨candidate, rfl, hobserves⟩
    · exact h.observed row hold time (hrest time htime)
    · obtain ⟨now, hnow, hstarted, -⟩ := hobserves.observedAt
      rw [candidate.row_occurrence]
      exact hstarted.trans (hclock now hnow time htime)
  known := by
    intro occurrence hmem
    rcases mem_append.mp hmem with hgained | hpast
    · obtain ⟨run, hrun, rfl⟩ := mem_map.mp hgained
      obtain ⟨candidate, -, -, -, heq, -, hstays⟩ := h.sound.gained_spec hchanges hrun
      exact .inl ⟨_, hstays, candidate.row_occurrence.trans heq.symm⟩
    rcases h.known occurrence hpast with ⟨row, hrow, rfl⟩ | hclosed
    · rcases h.sound.keeps_or_loses hchanges hrow with hkeeps | ⟨candidate, hobserves, -, hlost⟩
      · exact .inl ⟨row, hkeeps.1, rfl⟩
      · exact .inr fun time htime => h.closed_of_expendable hlost (hrest time htime)
    · exact .inr fun time htime => hclosed time (hrest time htime)

/-- Over any calls no occurrence gets two runs, and none that has had one gets another. -/
theorem nodup_started {calendar : Calendar} {calls : List Call}
    (h : Remembers anchored past (calls.filterMap Call.observedAt) db)
    (hclock : (calls.filterMap Call.observedAt).Pairwise (· ≤ ·))
    (hplanned : ∀ call ∈ calls, call.PlannedBy calendar anchored) :
    (db.started calls).Nodup ∧ ∀ occurrence ∈ db.started calls, occurrence ∉ past := by
  induction calls generalizing db past with
  | nil => exact ⟨nodup_nil, nofun⟩
  | cons call calls ih =>
    have hchanges := changes_apply db call
    have hrest : ∀ time ∈ calls.filterMap Call.observedAt,
        time ∈ (call :: calls).filterMap Call.observedAt := by
      intro time htime
      obtain ⟨other, hother, heq⟩ := mem_filterMap.mp htime
      exact mem_filterMap.mpr ⟨other, mem_cons_of_mem _ hother, heq⟩
    have hnow : ∀ now, call.observedAt = some now →
        ∀ time ∈ calls.filterMap Call.observedAt, now ≤ time := by
      intro now hnow
      rw [filterMap_cons_some hnow, pairwise_cons] at hclock
      exact hclock.1
    have htail : (calls.filterMap Call.observedAt).Pairwise (· ≤ ·) := by
      refine hclock.sublist ?_
      exact (sublist_cons_self call calls).filterMap Call.observedAt
    have hnext := h.step hchanges (hplanned call mem_cons_self) hrest hnow
    obtain ⟨hnodup, hfresh⟩ := ih hnext htail fun other hother =>
      hplanned other (mem_cons_of_mem _ hother)
    have hgained : ((db.gained (db.apply call)).map (·.occurrence)).Nodup :=
      hnext.sound.keys.sublist (filter_sublist.map _)
    refine ⟨nodup_append.mpr ⟨hgained, hnodup, ?_⟩, ?_⟩
    · rintro occurrence hmem _ hagain rfl
      exact hfresh occurrence hagain (mem_append_left _ hmem)
    · intro occurrence hmem hpast
      rcases mem_append.mp hmem with hmem | hmem
      · obtain ⟨run, hrun, rfl⟩ := mem_map.mp hmem
        obtain ⟨candidate, asked, hasked, hobserves, heq, hunseen, -⟩ :=
          h.sound.gained_spec hchanges hrun
        obtain ⟨now, hnow, -, hdue⟩ := hobserves.observedAt
        rw [heq] at hpast
        rcases h.known _ hpast with ⟨row, hrow, hsame⟩ | hclosed
        · exact hunseen row hrow hsame
        · have := hclosed now (mem_filterMap.mpr ⟨call, mem_cons_self, hnow⟩)
          have := hdue asked hasked
          omega
      · exact hfresh occurrence hmem (mem_append_right _ hpast)

end Remembers

/-! ### The whole -/

/-- After any calls, at most one run of a task and four in all are active. A recorded occurrence
keeps its outcome, which every later resolution gives; it is lost only as an expendable record when
another is inserted, and after an insertion the history of the task is within its bound. Under a
clock that never goes backwards no planned occurrence gets a second run, at whatever times the tasks
are anchored anew. -/
theorem occurrence_runs_at_most_once (calls : List Call) :
    ((∀ taskId, ((Db.empty.after calls).activeOf taskId).length ≤ 1) ∧
      (Db.empty.after calls).active.length ≤ 4) ∧ (∀ row ∈ (Db.empty.after calls).occurrences,
      (∀ candidate : Candidate, candidate.occurrence = row.occurrence →
        ∃ resolution, (Db.empty.after calls).resolve candidate =
            .ok (resolution, Db.empty.after calls) ∧
          Answers (Db.empty.after calls) row resolution) ∧
      ∀ call, Keeps (Db.empty.after calls) ((Db.empty.after calls).apply call) row ∨
        ∃ inserted ∈ ((Db.empty.after calls).apply call).occurrences,
          Expendable (Db.empty.after calls) row inserted.occurrence) ∧
    (∀ call, ∀ row ∈ ((Db.empty.after calls).apply call).occurrences,
      row ∉ (Db.empty.after calls).occurrences →
        (unprotected ((Db.empty.after calls).apply call) row.occurrence.taskId).length ≤ 100) ∧
    ∀ (calendar : Calendar) (anchored : String → Int → Prop),
      (calls.filterMap Call.observedAt).Pairwise (· ≤ ·) →
      (∀ call ∈ calls, call.PlannedBy calendar anchored) → (Db.empty.started calls).Nodup := by
  have hsound := sound_empty.after calls
  refine ⟨⟨hsound.perTask, hsound.overall⟩, ?_, ?_, ?_⟩
  · intro row hrow
    refine ⟨fun candidate hcandidate => hsound.resolve_recorded hrow hcandidate, ?_⟩
    intro call
    rcases hsound.keeps_or_loses (changes_apply _ call) hrow with hkeeps | ⟨candidate, -, hin, hlost⟩
    · exact .inl hkeeps
    · refine .inr ⟨candidate.row, hin, ?_⟩
      rwa [candidate.row_occurrence]
  · intro call row hrow hnew
    obtain ⟨candidate, resolution, runs, rfl, hfresh, hinserts, heq⟩ :=
      (changes_apply _ call).eq_row_of_new hrow hnew
    rw [heq, candidate.row_occurrence]
    exact hsound.length_unprotected_le hfresh hinserts
  · intro calendar anchored hclock hplanned
    exact ((Remembers.empty _).nodup_started hclock hplanned).1

def noTicks : Calendar := ⟨fun _ _ _ => [], nofun⟩

/-- The first hour is observed by the timer, and once more after a restart. Then the task is enabled
anew, and an hour later it is due again. -/
def hourlyCalls : List Call :=
  let snapshot : Snapshot := ⟨1, "project", some "main", "agent", none, "prompt", none⟩
  [.trigger "task" snapshot 3600000 3600000 "run-1", .failInterrupted 3600005,
    .trigger "task" snapshot 3600000 3600010 "run-2", .trigger "task" snapshot 7200020 7200020 "run-3"]

/-- The hypotheses on the clock and the plan are met where an occurrence is observed twice, by a task
that is anchored twice. -/
theorem occurrence_runs_at_most_once_hourly :
    Db.empty.started hourlyCalls = [⟨"task", 3600000⟩, ⟨"task", 7200020⟩] ∧
      (hourlyCalls.filterMap Call.observedAt).Pairwise (· ≤ ·) ∧
      (Db.empty.started hourlyCalls).Nodup := by
  have hclock : (hourlyCalls.filterMap Call.observedAt).Pairwise (· ≤ ·) := by decide
  have htrigger : ∀ anchorAt ∈ [0, 3600020], ∀ snapshot acceptedAt runId,
      (Call.trigger "task" snapshot (anchorAt + 3600000) acceptedAt runId).PlannedBy noTicks
        fun _ time => time ∈ [0, 3600020] := by
    intro anchorAt hanchor snapshot acceptedAt runId
    have hnext : ∀ anchorAt ∈ [0, 3600020], everyHour.schedule.nextHourlyOccurrenceAfter anchorAt
        anchorAt = some (anchorAt + 3600000) := by decide +kernel
    refine ⟨{ everyHour with scheduleAnchorAt := some anchorAt }, rfl,
      .inl ⟨anchorAt, anchorAt, rfl, le_rfl, hnext anchorAt hanchor, hanchor, ?_⟩⟩
    simp only [mem_cons, not_mem_nil, or_false] at hanchor ⊢
    omega
  refine ⟨by decide +kernel, hclock, ?_⟩
  refine (occurrence_runs_at_most_once hourlyCalls).2.2.2 noTicks
    (fun _ time => time ∈ [0, 3600020]) hclock ?_
  intro call hcall
  simp only [hourlyCalls, mem_cons, not_mem_nil, or_false] at hcall
  rcases hcall with rfl | rfl | rfl | rfl
  · exact htrigger 0 (by simp) _ _ _
  · trivial
  · exact htrigger 0 (by simp) _ _ _
  · exact htrigger 3600020 (by simp) _ _ _

end OraDesktop.Scheduled
