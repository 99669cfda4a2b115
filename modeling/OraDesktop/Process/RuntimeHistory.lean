import OraDesktop.Process.ScopeRuntime

/-!
# Histories of a Scope runtime

A history is a list of commands, each with the platform's answers while it ran. Nothing is assumed
of the answers: a platform may contradict itself, lose sight of a process and fail to deliver a
signal.

The deadlines asked for are read off the history (`requested`), without looking at stop plans: an
accepted stop of the Run, an accepted close of the Scope, and the descendants' grace period, counted
from the reconciliation in which the direct process was first known to have exited.

## Main results

* `getElem?_apply` — what a command does to one record
* `RunRecord.Keeps` — how a record may change: what is known is refined, never taken back
* `state_apply` — what a command does to the state of the Scope
* `keeps_after` — every history
-/

namespace OraDesktop.Process

inductive Command where
  | start (id : RunId) (spec : RunSpec)
  | stopRun (id : RunId) (request : StopRequest) (now : Instant)
  | close (request : StopRequest) (now : Instant)
  | reconcile (now : Instant)

/-- The clock reading a command is called with. -/
def Command.time : Command → Option Instant
  | .start _ _ => none
  | .stopRun _ _ now => some now
  | .close _ now => some now
  | .reconcile now => some now

/-- A command with the platform's answers while it runs. -/
structure Input where
  command : Command
  platform : Platform

namespace ScopeRuntime

section

variable (runtime : ScopeRuntime)

def apply (input : Input) : ScopeRuntime :=
  match input.command with
  | .start id spec => (runtime.start input.platform id spec).1
  | .stopRun id request now => (runtime.stopRun id request now).1
  | .close request now => (runtime.close request now).1
  | .reconcile now => (runtime.reconcile input.platform now).1

def after (inputs : List Input) : ScopeRuntime :=
  inputs.foldl apply runtime

/-- The signal the platform is asked to deliver to a Run. -/
def attempts (input : Input) (run : RunId) : Option StopSignal :=
  match input.command with
  | .reconcile now => runtime.runs[run]?.bind fun record =>
    record.attempted (cleanupEvidence runtime.guarantee) now (input.platform.observe run)
  | _ => none

/-- The signal delivered to a Run: the platform was asked and reported no error. -/
def deliveries (input : Input) (run : RunId) : List StopSignal :=
  match runtime.attempts input run with
  | some signal => match input.platform.signal run signal with
    | .ok () => [signal]
    | .error _ => []
  | none => []

end

/-- The signals delivered to a Run in the course of a history, in order. -/
def signals (run : RunId) : ScopeRuntime → List Input → List StopSignal
  | _, [] => []
  | runtime, input :: rest => runtime.deliveries input run ++ signals run (runtime.apply input) rest

/-- The Run is known and its direct process has exited. -/
def hasExited (runtime : ScopeRuntime) (run : RunId) : Bool :=
  runtime.runs[run]?.any (·.snapshot.direct.isExited)

/-- What the Run's specification says about descendants that outlive the direct process. -/
def policy (runtime : ScopeRuntime) (run : RunId) : Option DescendantPolicy :=
  runtime.runs[run]?.map (·.spec.descendants)

/-- The deadline a command asks for. A request whose deadline cannot be represented is refused. -/
def requests (run : RunId) (runtime : ScopeRuntime) (input : Input) : List Instant :=
  match input.command with
  | .start _ _ => []
  | .stopRun id request now =>
    if id = run ∧ run ∈ runtime.runs then (StopPlan.deadlineOf now request).toList else []
  | .close request now =>
    if run ∈ runtime.runs ∧ !runtime.state.isClosed then (StopPlan.deadlineOf now request).toList
    else []
  | .reconcile now =>
    if !runtime.hasExited run && (runtime.apply input).hasExited run then
      match runtime.policy run with
      | some (.cleanup grace) => (now.checkedAdd grace).toList
      | _ => []
    else []

/-- Every deadline a history asks for, for one Run. -/
def requested (run : RunId) : ScopeRuntime → List Input → List Instant
  | _, [] => []
  | runtime, input :: rest => requests run runtime input ++ requested run (runtime.apply input) rest

end ScopeRuntime

/-- The clock does not run backwards. `Instant::now` is monotonic, but nothing in the code checks
it. -/
def Clocked (inputs : List Input) : Prop := (inputs.filterMap (·.command.time)).Pairwise (· ≤ ·)

open ScopeRuntime

/-! ### One record -/

namespace RunRecord

variable {record : RunRecord} {evidence : CleanupEvidence} {now : Instant}
  {answer : Except PlatformError PlatformObservation}
  {signal : StopSignal → Except PlatformError Unit}

def stopped (record : RunRecord) (request : StopRequest) (now : Instant) : RunRecord :=
  if record.isComplete then record
  else match StopPlan.new request now with
    | .error _ => record
    | .ok plan => record.plan plan

/-- How a record may change: what is known is refined, and a completed Run does not change. -/
structure Keeps (before after : RunRecord) : Prop where
  spec : after.spec = before.spec
  launch : before.snapshot.launch = .started → after.snapshot.launch = .started
  exit : ∀ outcome, before.snapshot.direct = .exited outcome →
    ∃ outcome', after.snapshot.direct = .exited outcome' ∧
      (outcome' = outcome ∨ outcome = .unknown)
  complete : before.isComplete = true → after = before

namespace Keeps

theorem refl (record : RunRecord) : record.Keeps record :=
  ⟨rfl, id, fun outcome h => ⟨outcome, h, .inl rfl⟩, fun _ => rfl⟩

theorem trans {first second third : RunRecord} (h : first.Keeps second) (h' : second.Keeps third) :
    first.Keeps third where
  spec := h'.spec.trans h.spec
  launch := fun hstarted => h'.launch (h.launch hstarted)
  exit := by
    intro outcome hexit
    obtain ⟨outcome', hexit', hrefines⟩ := h.exit outcome hexit
    obtain ⟨outcome'', hexit'', hrefines'⟩ := h'.exit outcome' hexit'
    refine ⟨outcome'', hexit'', ?_⟩
    rcases hrefines with rfl | hunknown
    · exact hrefines'
    · exact .inr hunknown
  complete := by
    intro hcomplete
    have hsecond := h.complete hcomplete
    rw [h'.complete (by rwa [hsecond]), hsecond]

end Keeps

theorem stopped_of_complete {request : StopRequest} (h : record.isComplete = true) :
    record.stopped request now = record := if_pos h

/-- A stop request for a Run that is not cleaned up, by its deadline. -/
theorem stopped_of_open {request : StopRequest} (h : record.isComplete = false) :
    record.stopped request now = match StopPlan.deadlineOf now request with
      | none => record
      | some deadline => record.plan
          { deadline := deadline, notify := StopPlan.notifies request, notified := false
            forced := false } := by
  rw [stopped, if_neg (by simp [h]), StopPlan.new]
  cases StopPlan.deadlineOf now request <;> rfl

section

variable (record : RunRecord) (request : StopRequest) (now : Instant)

@[simp] theorem stopped_snapshot : (record.stopped request now).snapshot = record.snapshot := by
  rw [stopped]
  split
  · rfl
  · split <;> rfl

@[simp] theorem stopped_spec : (record.stopped request now).spec = record.spec := by
  rw [stopped]
  split
  · rfl
  · split <;> rfl

theorem keeps_stopped : record.Keeps (record.stopped request now) := by
  cases h : record.isComplete with
  | true =>
    rw [stopped_of_complete h]
    exact .refl record
  | false =>
    have hsnapshot := stopped_snapshot record request now
    exact ⟨stopped_spec .., fun h => by rwa [hsnapshot],
      fun outcome h => ⟨outcome, by rwa [hsnapshot], .inl rfl⟩, fun hdone => by simp [h] at hdone⟩

end

theorem mergeDirect_exited {outcome : ExitOutcome} {current direct : DirectProcessState}
    (h : mergeDirect (.exited outcome) current = .ok direct) :
    ∃ outcome', direct = .exited outcome' ∧ (outcome' = outcome ∨ outcome = .unknown) := by
  rw [mergeDirect.eq_def] at h
  split at h
  · cases h
    exact ⟨_, rfl, .inl (by simp_all)⟩
  · cases h
    exact ⟨_, rfl, .inl (by simp_all)⟩
  · cases h
    exact ⟨_, rfl, .inr (by simp_all)⟩
  · rename_i hexited _ _ _
    cases hexited
    split at h
    · cases h
      exact ⟨_, rfl, .inl rfl⟩
    · cases h
  · simp_all

/-- What an observation can do: nothing, or merge what does not contradict the record. -/
theorem absorb_cases (record : RunRecord) (evidence : CleanupEvidence) (now : Instant)
    (answer : Except PlatformError PlatformObservation) :
    ((record.absorb evidence now answer).1 = record ∧
      ∃ error, (record.absorb evidence now answer).2 = .error error) ∨
    ∃ observation direct, answer = .ok observation ∧
      mergeDirect record.snapshot.direct observation.direct = .ok direct ∧
      record.absorb evidence now answer =
        (record.observed evidence observation direct).scheduleGrace now := by
  rw [absorb.eq_def]
  split
  · exact .inl ⟨rfl, _, rfl⟩
  rename_i observation
  split
  · exact .inl ⟨rfl, _, rfl⟩
  split
  · exact .inl ⟨rfl, _, rfl⟩
  · split
    · exact .inl ⟨rfl, _, rfl⟩
    · rename_i direct hdirect
      exact .inr ⟨observation, direct, rfl, hdirect, rfl⟩

/-- The grace period changes the stop plan of a Run that is not cleaned up, or nothing. -/
theorem scheduleGrace_cases (record : RunRecord) (now : Instant) :
    record.scheduleGrace now = (record, .ok ()) ∧
      (∀ grace, record.spec.descendants = .cleanup grace →
        record.isComplete = true ∨ record.snapshot.direct.isExited = false) ∨
    ∃ grace, record.spec.descendants = .cleanup grace ∧ record.isComplete = false ∧
      record.snapshot.direct.isExited = true ∧
      (record.scheduleGrace now).1 = record.stopped (.notifyThenWait grace) now ∧
      ((record.scheduleGrace now).2 = .ok () ∨
        now.checkedAdd grace = none ∧ ∃ error, (record.scheduleGrace now).2 = .error error) := by
  rw [scheduleGrace]
  split
  · rename_i grace hpolicy
    split
    · rename_i hexited
      simp only [Bool.and_eq_true, Bool.not_eq_true'] at hexited
      obtain ⟨hopen, hexited⟩ := hexited
      refine .inr ⟨grace, hpolicy, hopen, hexited, ?_⟩
      rw [stopped, if_neg (by simp [hopen])]
      split
      · rename_i hnew
        rw [hnew]
        exact ⟨rfl, .inl rfl⟩
      rename_i hnew
      rw [hnew]
      refine ⟨rfl, .inr ⟨?_, _, rfl⟩⟩
      rw [StopPlan.new, StopPlan.deadlineOf] at hnew
      split at hnew
      · cases hnew
      · assumption
    · rename_i hexited
      refine .inl ⟨rfl, fun _ _ => ?_⟩
      cases hcomplete : record.isComplete with
      | true => exact .inl rfl
      | false => exact .inr (by simpa [hcomplete] using hexited)
  · rename_i hpolicy
    exact .inl ⟨rfl, fun grace h => by rw [hpolicy] at h; cases h⟩

theorem scheduleGrace_snapshot : (record.scheduleGrace now).1.snapshot = record.snapshot := by
  obtain ⟨h, _⟩ | ⟨grace, _, hopen, _, h, _⟩ := scheduleGrace_cases record now
  · rw [h]
  · rw [h, stopped_snapshot]

theorem scheduleGrace_spec : (record.scheduleGrace now).1.spec = record.spec := by
  obtain ⟨h, _⟩ | ⟨grace, _, _, _, h, _⟩ := scheduleGrace_cases record now
  · rw [h]
  · rw [h, stopped_spec]

theorem absorb_spec : (record.absorb evidence now answer).1.spec = record.spec := by
  obtain ⟨h, _⟩ | ⟨observation, direct, _, _, h⟩ :=
    absorb_cases record evidence now answer
  · rw [h]
  · rw [h, scheduleGrace_spec]
    rfl

theorem keeps_absorb (evidence : CleanupEvidence) (now : Instant)
    (answer : Except PlatformError PlatformObservation) (hopen : record.isComplete = false) :
    record.Keeps (record.absorb evidence now answer).1 := by
  obtain ⟨h, _⟩ | ⟨observation, direct, _, hdirect, h⟩ :=
    absorb_cases record evidence now answer
  · rw [h]
    exact .refl record
  refine ⟨absorb_spec, fun hstarted => ?_, fun outcome hexit => ?_, fun hcomplete => ?_⟩
  · rw [h, scheduleGrace_snapshot, observed]
    cases observation.direct <;> first | rfl | exact hstarted
  · rw [h, scheduleGrace_snapshot]
    rw [hexit] at hdirect
    exact mergeDirect_exited hdirect
  · rw [hopen] at hcomplete
    cases hcomplete

/-- A delivery changes the marks of the stop plan and nothing else. -/
theorem deliver_fst (record : RunRecord) (now : Instant)
    (signal : StopSignal → Except PlatformError Unit) :
    (record.deliver now signal).1 = record ∨
    ∃ due, record.due now = some due ∧ signal due = .ok () ∧
      (record.deliver now signal).1 = { record with stop := record.stop.map (·.delivered due) } := by
  rw [deliver]
  split
  · exact .inl rfl
  rename_i due hdue
  split
  · exact .inl rfl
  · rename_i hsignal
    exact .inr ⟨due, hdue, hsignal, rfl⟩

theorem deliver_snapshot : (record.deliver now signal).1.snapshot = record.snapshot := by
  obtain h | ⟨_, _, _, h⟩ := deliver_fst record now signal <;> rw [h]

theorem deliver_spec : (record.deliver now signal).1.spec = record.spec := by
  obtain h | ⟨_, _, _, h⟩ := deliver_fst record now signal <;> rw [h]

/-- An observation that completes the cleanup leaves nothing that could fail. -/
theorem absorb_ok_of_complete (hopen : record.isComplete = false)
    (h : (record.absorb evidence now answer).1.isComplete = true) :
    (record.absorb evidence now answer).2 = .ok () := by
  obtain ⟨habsorb, _⟩ | ⟨observation, direct, _, _, habsorb⟩ :=
    absorb_cases record evidence now answer
  · rw [habsorb, hopen] at h
    cases h
  rw [habsorb] at h ⊢
  rw [isComplete, scheduleGrace_snapshot] at h
  obtain ⟨hgrace, _⟩ | ⟨_, _, hgrace, _⟩ := scheduleGrace_cases
    (record.observed evidence observation direct) now
  · rw [hgrace]
  · rw [isComplete] at hgrace
    rw [hgrace] at h
    cases h

theorem reconcile_of_complete (h : record.isComplete = true) :
    record.reconcile evidence now answer signal = (record, .ok ()) := if_pos h

/-- What a reconciliation leaves of a record: the outcome of the delivery, unless an error marks the
cleanup blocked. -/
theorem reconcile_of_open (evidence : CleanupEvidence) (now : Instant)
    (answer : Except PlatformError PlatformObservation)
    (signal : StopSignal → Except PlatformError Unit) (hopen : record.isComplete = false) :
    let after := ((record.absorb evidence now answer).1.deliver now signal).1
    (record.reconcile evidence now answer signal).1 = after ∨
      after.isComplete = false ∧ ∃ error, (record.reconcile evidence now answer signal).1 =
        { after with snapshot := { after.snapshot with cleanup := .blocked error } } := by
  intro after
  rw [reconcile, if_neg (by simp [hopen])]
  simp only
  split
  · exact .inl rfl
  rename_i error herror
  refine .inr ⟨?_, error, rfl⟩
  -- Were the cleanup complete, neither the observation nor the delivery could have failed.
  by_contra hcomplete
  rw [Bool.not_eq_false, isComplete, deliver_snapshot] at hcomplete
  rw [absorb_ok_of_complete hopen hcomplete, deliver, due, isComplete,
    if_pos hcomplete] at herror
  cases herror

theorem isComplete_reconcile (hopen : record.isComplete = false) :
    (record.reconcile evidence now answer signal).1.isComplete =
      (record.absorb evidence now answer).1.isComplete := by
  obtain hafter | ⟨hblocked, error, hafter⟩ := reconcile_of_open evidence now answer signal hopen
  · rw [hafter, isComplete, deliver_snapshot]
    rfl
  · rw [isComplete, deliver_snapshot] at hblocked
    rw [hafter]
    exact hblocked.symm

theorem keeps_reconcile : record.Keeps (record.reconcile evidence now answer signal).1 := by
  cases hopen : record.isComplete with
  | true =>
    rw [reconcile_of_complete hopen]
    exact .refl record
  | false =>
    have habsorb := keeps_absorb evidence now answer hopen
    have hdeliver : record.Keeps ((record.absorb evidence now answer).1.deliver now signal).1 :=
      ⟨deliver_spec.trans habsorb.spec, fun h => by rw [deliver_snapshot]; exact habsorb.launch h,
        fun outcome h => by rw [deliver_snapshot]; exact habsorb.exit outcome h,
        fun h => by rw [hopen] at h; cases h⟩
    obtain h | ⟨_, error, h⟩ := reconcile_of_open evidence now answer signal
      hopen
    · rw [h]
      exact hdeliver
    · rw [h]
      exact ⟨hdeliver.spec, hdeliver.launch, hdeliver.exit, fun h => by rw [hopen] at h; cases h⟩

end RunRecord

/-! ### One command -/

namespace ScopeRuntime

variable {runtime : ScopeRuntime} {input : Input} {run : RunId}

theorem new_eq_ok {request : ContainmentRequest} {capabilities : PlatformCapabilities}
    (h : ScopeRuntime.new request capabilities = .ok runtime) :
    runtime.runs = ∅ ∧ runtime.state = .open := by
  rw [ScopeRuntime.new.eq_def] at h
  split at h <;> cases h <;> exact ⟨rfl, rfl⟩

theorem getElem?_apply (runtime : ScopeRuntime) (input : Input) (run : RunId) :
    (runtime.apply input).runs[run]? = match input.command with
      | .start id spec => if id = run ∧ runtime.spawns id then
          some (launched runtime.guarantee id spec (input.platform.spawn id spec runtime.guarantee))
          else runtime.runs[run]?
      | .stopRun id request now => if id = run then
          runtime.runs[run]?.map (·.stopped request now) else runtime.runs[run]?
      | .close request now => if runtime.state.isClosed then runtime.runs[run]? else
          runtime.runs[run]?.map (·.stopped request now)
      | .reconcile now => runtime.runs[run]?.map fun record =>
          (runtime.reconciled input.platform now run record).1 := by
  rw [apply]
  cases input.command with
  | start id spec =>
    simp only [start]
    split
    · rename_i record hrecord
      have hspawns : ¬(id = run ∧ runtime.spawns id = true) := by simp [spawns, hrecord]
      rw [if_neg hspawns]
      split <;> rfl
    · rename_i hrecord
      split
      · rename_i hstate
        rw [if_neg (by simp [spawns, hstate])]
      · rename_i hstate
        rw [Map.getElem?_insert]
        simp [spawns, hrecord, not_not.mp hstate]
  | stopRun id request now =>
    simp only
    by_cases hid : id = run
    · rw [if_pos hid, ← hid, stopRun]
      split
      · rename_i hrecord
        rw [hrecord]
        rfl
      rename_i record hrecord
      simp only [hrecord, Option.map_some, RunRecord.stopped]
      split
      · exact hrecord
      · cases hplan : StopPlan.new request now with
        | error error => simpa only [hplan] using hrecord
        | ok plan => rw [Map.getElem?_insert, if_pos rfl]
    · rw [if_neg hid, stopRun]
      split
      · rfl
      split
      · rfl
      · split
        · rfl
        · rw [Map.getElem?_insert, if_neg hid]
  | close request now =>
    simp only [close]
    split
    · rfl
    split
    · rename_i hplan
      have hstopped : (fun record : RunRecord => record.stopped request now) = id := by
        funext record
        rw [RunRecord.stopped, hplan]
        exact ite_self record
      rw [hstopped, Option.map_id, id]
    · rename_i hplan
      simp only [Std.ExtTreeMap.getElem?_map, RunRecord.stopped, hplan]
  | reconcile now =>
    simp only [reconcile, Std.ExtTreeMap.getElem?_map]

theorem state_apply (runtime : ScopeRuntime) (input : Input) :
    (runtime.apply input).state = runtime.state ∨
      (runtime.apply input).state = .closing ∧ runtime.state.isClosed = false ∨
      runtime.state = .closing ∧
        (∃ evidence, (runtime.apply input).state = .closed evidence) ∧
        ∀ (run : RunId) (record : RunRecord), (runtime.apply input).runs[run]? = some record →
          record.isComplete = true := by
  rw [apply]
  cases input.command with
  | start id spec =>
    refine .inl ?_
    simp only [start]
    split
    · split <;> rfl
    · split <;> rfl
  | stopRun id request now =>
    refine .inl ?_
    simp only [stopRun]
    split
    · rfl
    · split
      · rfl
      · split <;> rfl
  | close request now =>
    simp only [close]
    split
    · exact .inl rfl
    · rename_i hclosed
      split
      · exact .inl rfl
      · exact .inr (.inl ⟨rfl, by simpa using hclosed⟩)
  | reconcile now =>
    simp only [reconcile]
    split
    · rename_i hcomplete
      refine .inr (.inr ⟨hcomplete.1, ⟨_, rfl⟩, fun run record hrecord => ?_⟩)
      have hmem := Std.ExtTreeMap.mem_toList_iff_getElem?_eq_some.mpr hrecord
      exact List.all_eq_true.mp hcomplete.2 (run, record) hmem
    · exact .inl rfl

theorem state_ne_open_apply (h : runtime.state ≠ .open) (input : Input) :
    (runtime.apply input).state ≠ .open := by
  obtain hstate | ⟨hstate, _⟩ | ⟨_, ⟨evidence, hstate⟩, _⟩ := state_apply runtime input
  · rwa [hstate]
  · rw [hstate]
    exact nofun
  · rw [hstate]
    exact nofun

/-- How the runtime may change: no Run is forgotten, and a closed Scope stays closed. -/
structure Keeps (before after : ScopeRuntime) : Prop where
  record : ∀ (run : RunId) (record : RunRecord), before.runs[run]? = some record →
    ∃ record', after.runs[run]? = some record' ∧ record.Keeps record'
  closed : before.state.isClosed = true → after.state = before.state

theorem Keeps.refl (runtime : ScopeRuntime) : runtime.Keeps runtime :=
  ⟨fun _ record h => ⟨record, h, .refl record⟩, fun _ => rfl⟩

theorem Keeps.trans {first second third : ScopeRuntime} (h : first.Keeps second)
    (h' : second.Keeps third) : first.Keeps third where
  record := by
    intro run record hrecord
    obtain ⟨record', hrecord', hkeeps⟩ := h.record run record hrecord
    obtain ⟨record'', hrecord'', hkeeps'⟩ := h'.record run record' hrecord'
    exact ⟨record'', hrecord'', hkeeps.trans hkeeps'⟩
  closed := by
    intro hclosed
    have hsecond := h.closed hclosed
    rw [h'.closed (by rwa [hsecond]), hsecond]

theorem keeps_apply (runtime : ScopeRuntime) (input : Input) :
    runtime.Keeps (runtime.apply input) where
  record := by
    intro run record hrecord
    rw [getElem?_apply]
    split
    · rename_i id spec _
      split
      · rename_i hspawns
        rw [spawns, hspawns.1, hrecord] at hspawns
        cases hspawns.2
      · exact ⟨record, hrecord, .refl record⟩
    · split
      · exact ⟨_, by rw [hrecord]; rfl, RunRecord.keeps_stopped ..⟩
      · exact ⟨record, hrecord, .refl record⟩
    · split
      · exact ⟨record, hrecord, .refl record⟩
      · exact ⟨_, by rw [hrecord]; rfl, RunRecord.keeps_stopped ..⟩
    · exact ⟨_, by rw [hrecord]; rfl, RunRecord.keeps_reconcile⟩
  closed := by
    intro hclosed
    obtain h | ⟨_, h⟩ | ⟨h, _⟩ := state_apply runtime input
    · exact h
    · rw [h] at hclosed
      cases hclosed
    · rw [h] at hclosed
      cases hclosed

theorem run_apply_of_complete (input : Input) {run : RunId} {current : RunSnapshot}
    (h : runtime.run run = some current) (hcomplete : current.cleanup.isComplete = true) :
    (runtime.apply input).run run = some current := by
  obtain ⟨record, hrecord, rfl⟩ := Option.map_eq_some_iff.mp h
  obtain ⟨after, hafter, hkeeps⟩ := (keeps_apply runtime input).record run record hrecord
  rw [ScopeRuntime.run, hafter, hkeeps.complete hcomplete]
  rfl

/-- No command but the start of a Run makes one known. -/
theorem getElem?_apply_of_none {run : RunId} (h : runtime.runs[run]? = none)
    (hstart : ∀ spec, input.command ≠ .start run spec) :
    (runtime.apply input).runs[run]? = none := by
  rw [getElem?_apply, h]
  split
  · rename_i id spec hcommand
    refine if_neg ?_
    rintro ⟨rfl, _⟩
    exact hstart spec hcommand
  · split <;> rfl
  · split <;> rfl
  · rfl

/-- Every Run of a closed Scope is cleaned up, which is what being closed promises. -/
def Quiescent (runtime : ScopeRuntime) : Prop :=
  runtime.state.isClosed = true → ∀ (run : RunId) (record : RunRecord),
    runtime.runs[run]? = some record → record.isComplete = true

theorem Quiescent.apply (h : runtime.Quiescent) (input : Input) :
    (runtime.apply input).Quiescent := by
  intro hclosed run record hrecord
  obtain hstate | ⟨hstate, _⟩ | ⟨_, _, hcomplete⟩ := state_apply runtime input
  · rw [hstate] at hclosed
    cases hbefore : runtime.runs[run]? with
    | none =>
      -- A closed Scope launches nothing.
      have hnone : (runtime.apply input).runs[run]? = none := by
        rw [getElem?_apply, hbefore]
        split
        · refine if_neg ?_
          rintro ⟨rfl, hspawns⟩
          rw [spawns, Bool.and_eq_true, decide_eq_true_eq] at hspawns
          rw [hspawns.2] at hclosed
          cases hclosed
        · split <;> rfl
        · split <;> rfl
        · rfl
      rw [hnone] at hrecord
      cases hrecord
    | some before =>
      obtain ⟨after, hafter, hkeeps⟩ := (keeps_apply runtime input).record run before hbefore
      have hdone := h hclosed run before hbefore
      rw [hafter] at hrecord
      cases hrecord
      rw [hkeeps.complete hdone]
      exact hdone
  · rw [hstate] at hclosed
    cases hclosed
  · exact hcomplete run record hrecord

theorem keeps_after (runtime : ScopeRuntime) (inputs : List Input) :
    runtime.Keeps (runtime.after inputs) := by
  induction inputs generalizing runtime with
  | nil => exact .refl runtime
  | cons input rest ih => exact (keeps_apply runtime input).trans (ih (runtime.apply input))

theorem after_append (runtime : ScopeRuntime) (inputs rest : List Input) :
    runtime.after (inputs ++ rest) = (runtime.after inputs).after rest := List.foldl_append

theorem after_concat (runtime : ScopeRuntime) (inputs : List Input) (input : Input) :
    runtime.after (inputs ++ [input]) = (runtime.after inputs).apply input :=
  after_append runtime inputs [input]

variable (run : RunId) (runtime : ScopeRuntime) (inputs : List Input) (input : Input)

theorem signals_concat : signals run runtime (inputs ++ [input]) =
      signals run runtime inputs ++ (runtime.after inputs).deliveries input run := by
  induction inputs generalizing runtime with
  | nil => simp [signals, after]
  | cons first rest ih =>
    rw [List.cons_append, signals, signals, ih, List.append_assoc]
    rfl

theorem requested_concat : requested run runtime (inputs ++ [input]) =
      requested run runtime inputs ++ requests run (runtime.after inputs) input := by
  induction inputs generalizing runtime with
  | nil => simp [requested, after]
  | cons first rest ih =>
    rw [List.cons_append, requested, requested, ih, List.append_assoc]
    rfl

end ScopeRuntime

end OraDesktop.Process
