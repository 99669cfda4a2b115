import Mathlib.Data.List.Induction
import OraDesktop.Process.RuntimeHistory

/-!
# Evidence is monotone and stop plans only tighten

The plan to stop a Run carries the earliest deadline anyone asked for. Every reconciliation after
the exit of the direct process computes a grace deadline again; on a clock that does not run
backwards it is never earlier than the first.

## Main results

* `Tracked` — a record's stop plan against what was asked for and what was delivered
* `follows_after` — every history on such a clock keeps it
* `evidence_kept_and_stops_tighten` — the contract of the runtime, over every history
-/

namespace OraDesktop.Process

open ScopeRuntime List RunRecord StopPlan

/-! ### Stop plans against the deadlines asked for -/

/-- The deadline is the earliest of those asked for; without one, none was asked for. -/
def Earliest (asked : List Instant) : Option Instant → Prop
  | none => asked = []
  | some deadline => deadline ∈ asked ∧ ∀ other ∈ asked, deadline ≤ other

namespace Earliest

variable {asked : List Instant} {stop : Option StopPlan} {plan : StopPlan}

/-- A stop plan tightened by a deadline that is asked for now. -/
theorem concat (h : Earliest asked (stop.map (·.deadline))) :
    Earliest (asked ++ [plan.deadline]) (some (match stop with
      | some existing => existing.tighten plan
      | none => plan).deadline) := by
  cases stop with
  | none =>
    rw [show asked = [] from h]
    exact ⟨mem_singleton.mpr rfl, fun other hother => Nat.le_of_eq (mem_singleton.mp hother).symm⟩
  | some existing =>
    obtain ⟨hmem, hle⟩ := h
    refine ⟨?_, fun other hother => ?_⟩
    · rw [mem_append, mem_singleton]
      rcases Nat.le_total existing.deadline plan.deadline with hmin | hmin
      · refine .inl ?_
        show min existing.deadline plan.deadline ∈ asked
        rwa [Nat.min_eq_left hmin]
      · exact .inr (Nat.min_eq_right hmin)
    · rw [mem_append, mem_singleton] at hother
      rcases hother with hother | rfl
      · exact Nat.le_trans (Nat.min_le_left _ _) (hle other hother)
      · exact Nat.min_le_right _ _

end Earliest

/-- The signals a stop plan is marked with. The marks are set when the platform reports no error, so
they are the deliveries. -/
def StopPlan.sent (plan : StopPlan) : List StopSignal :=
  (if plan.notified then [.requestExit] else []) ++ if plan.forced then [.force] else []

theorem StopPlan.sent_sublist (plan : StopPlan) : plan.sent.Sublist [.requestExit, .force] := by
  obtain ⟨_, _, notified, forced⟩ := plan
  cases notified <;> cases forced <;> simp [sent]

/-- A pending signal was not delivered before, and force was not either. -/
theorem StopPlan.sent_delivered {plan : StopPlan} {now : Instant} {signal : StopSignal}
    (h : plan.pending now = some signal) :
    plan.sent ++ [signal] = (plan.delivered signal).sent := by
  rw [pending] at h
  split at h
  · cases h
  rename_i hforced
  split at h
  · cases h
    rw [sent, sent, if_neg hforced, append_nil]
    rfl
  split at h
  · rename_i hnotify
    cases h
    simp_all [sent, delivered]
  · cases h

/-- The deadline an observation asks for: the grace period of a direct process that is now known to
have exited and was not before. -/
def RunRecord.graceFrom (record after : RunRecord) (now : Instant) : List Instant :=
  if !record.snapshot.direct.isExited && after.snapshot.direct.isExited then
    match record.spec.descendants with
    | .cleanup grace => (now.checkedAdd grace).toList
    | .waitForAll => []
  else []

theorem RunRecord.graceFrom_reconcile {record : RunRecord} {evidence : CleanupEvidence}
    {now : Instant} {answer : Except PlatformError PlatformObservation}
    {signal : StopSignal → Except PlatformError Unit} (hopen : record.isComplete = false) :
    record.graceFrom (record.reconcile evidence now answer signal).1 now =
      record.graceFrom (record.absorb evidence now answer).1 now := by
  rw [graceFrom, graceFrom]
  obtain hafter | ⟨_, error, hafter⟩ := reconcile_of_open evidence now answer signal hopen
  · rw [hafter, deliver_snapshot]
  · rw [hafter, deliver_snapshot]

/-- A record against the history of its Run: the readings of the clock, the deadlines asked for and
the signals delivered. Nothing is planned any more for a Run that is cleaned up. -/
structure Tracked (times asked : List Instant) (sent : List StopSignal) (record : RunRecord) :
    Prop where
  earliest : record.isComplete = false → Earliest asked (record.stop.map (·.deadline))
  grace : record.isComplete = false → record.snapshot.direct.isExited = true →
    ∀ grace, record.spec.descendants = .cleanup grace →
      ∃ seen ∈ times, ∀ deadline, seen.checkedAdd grace = some deadline → deadline ∈ asked
  sent : sent = (record.stop.map StopPlan.sent).getD []

namespace Tracked

variable {times asked : List Instant} {sent : List StopSignal} {record : RunRecord}
  {now : Instant} {evidence : CleanupEvidence}
  {answer : Except PlatformError PlatformObservation}
  {signal : StopSignal → Except PlatformError Unit}

theorem times_append (h : Tracked times asked sent record) (more : List Instant) :
    Tracked (times ++ more) asked sent record where
  earliest := h.earliest
  grace := by
    intro hopen hexited grace hpolicy
    obtain ⟨seen, hseen, hdeadline⟩ := h.grace hopen hexited grace hpolicy
    exact ⟨seen, mem_append_left _ hseen, hdeadline⟩
  sent := h.sent

/-- What was asked of a Run that is cleaned up does not matter. -/
theorem of_complete (hcomplete : record.isComplete = true)
    (hsent : sent = (record.stop.map StopPlan.sent).getD []) : Tracked times asked sent record where
  earliest := fun h => by rw [hcomplete] at h; cases h
  grace := fun h => by rw [hcomplete] at h; cases h
  sent := hsent

theorem sent_stopped (record : RunRecord) (request : StopRequest) (now : Instant) :
    ((record.stopped request now).stop.map StopPlan.sent).getD [] =
      (record.stop.map StopPlan.sent).getD [] := by
  rw [stopped]
  split
  · rfl
  rw [StopPlan.new]
  cases deadlineOf now request with
  | none => rfl
  | some deadline =>
    simp only [plan]
    cases record.stop <;> rfl

section

variable {request : StopRequest} (hopen : record.isComplete = false)
  (h : Earliest asked (record.stop.map (·.deadline)))

include hopen h

theorem earliest_stopped : Earliest (asked ++ (StopPlan.deadlineOf now request).toList)
      ((record.stopped request now).stop.map (·.deadline)) := by
  rw [stopped_of_open hopen]
  cases deadlineOf now request with
  | none =>
    rw [Option.toList_none, append_nil]
    exact h
  | some deadline => exact h.concat

theorem earliest_stopped_of_later
    (hlater : ∀ deadline, StopPlan.deadlineOf now request = some deadline →
      ∃ earlier ∈ asked, earlier ≤ deadline) :
    Earliest asked ((record.stopped request now).stop.map (·.deadline)) := by
  rw [stopped_of_open hopen]
  cases hdeadline : deadlineOf now request with
  | none => exact h
  | some deadline =>
    obtain ⟨earlier, hmem, hle⟩ := hlater deadline hdeadline
    dsimp only [plan]
    cases hstop : record.stop with
    | none =>
      rw [hstop] at h
      rw [show asked = [] from h] at hmem
      cases hmem
    | some existing =>
      rw [hstop] at h
      have hmin : min existing.deadline deadline = existing.deadline :=
        Nat.min_eq_left (Nat.le_trans (h.2 earlier hmem) hle)
      change Earliest asked (some (min existing.deadline deadline))
      rwa [hmin]

end

variable (h : Tracked times asked sent record)

include h

theorem stopped (request : StopRequest) (now : Instant) :
    Tracked times (asked ++ (StopPlan.deadlineOf now request).toList) sent
      (record.stopped request now) := by
  have hsent := h.sent.trans (sent_stopped record request now).symm
  cases hopen : record.isComplete with
  | true =>
    rw [stopped_of_complete hopen]
    exact of_complete hopen h.sent
  | false =>
    refine ⟨fun _ => earliest_stopped hopen (h.earliest hopen), fun _ hexited grace hpolicy => ?_,
      hsent⟩
    rw [stopped_snapshot] at hexited
    rw [stopped_spec] at hpolicy
    obtain ⟨seen, hseen, hdeadline⟩ := h.grace hopen hexited grace hpolicy
    exact ⟨seen, hseen, fun deadline hd => mem_append_left _ (hdeadline deadline hd)⟩

omit h in
/-- A grace period that is counted again later asks for nothing new. -/
theorem checkedAdd_le {seen : Instant} {grace : Duration} {deadline : Instant} (hle : seen ≤ now)
    (h : now.checkedAdd grace = some deadline) :
    ∃ earlier, seen.checkedAdd grace = some earlier ∧ earlier ≤ deadline := by
  rw [Instant.checkedAdd] at h
  split at h
  · rename_i hlast
    cases h
    have hsum : seen + grace ≤ now + grace := Nat.add_le_add_right hle grace
    exact ⟨seen + grace, if_pos (Nat.le_trans hsum hlast), hsum⟩
  · cases h

theorem absorb (evidence : CleanupEvidence)
    (answer : Except PlatformError PlatformObservation) (hopen : record.isComplete = false)
    (hclock : ∀ seen ∈ times, seen ≤ now) :
    Tracked (times ++ [now])
      (asked ++ record.graceFrom (record.absorb evidence now answer).1 now) sent
      (record.absorb evidence now answer).1 := by
  obtain ⟨habsorb, _⟩ | ⟨observation, direct, _, _, habsorb⟩ :=
    absorb_cases record evidence now answer
  · have hsame : record.graceFrom record now = [] := by
      rw [graceFrom]
      cases record.snapshot.direct.isExited <;> rfl
    rw [habsorb, hsame, append_nil]
    exact h.times_append [now]
  · rw [habsorb]
    set observed := record.observed evidence observation direct with hobserved
    obtain ⟨hgrace, hcases⟩ | ⟨grace, hpolicy, hopen', hexited, hgrace, _⟩ :=
      scheduleGrace_cases observed now
    · rw [hgrace]
      cases hcomplete : observed.isComplete with
      | true => exact of_complete hcomplete h.sent
      | false =>
        -- The Run is not cleaned up and no grace period starts: nothing was asked for.
        have hrunning : ∀ grace, record.spec.descendants = .cleanup grace →
            observed.snapshot.direct.isExited = false := fun grace hpolicy => by
          rcases hcases grace hpolicy with hc | hc
          · rw [hcomplete] at hc
            cases hc
          · exact hc
        have hsame : record.graceFrom observed now = [] := by
          rw [graceFrom]
          split
          · rename_i hexited
            rw [Bool.and_eq_true] at hexited
            split
            · rename_i grace hpolicy
              rw [hrunning grace hpolicy] at hexited
              cases hexited.2
            · rfl
          · rfl
        rw [hsame, append_nil]
        refine ⟨fun _ => h.earliest hopen, fun _ hexited grace hpolicy => ?_, h.sent⟩
        rw [hrunning grace hpolicy] at hexited
        cases hexited
    · rw [hgrace]
      have hpolicy' : record.spec.descendants = .cleanup grace := hpolicy
      have hearliest : Earliest asked (observed.stop.map (·.deadline)) := h.earliest hopen
      have hsent := h.sent.trans (sent_stopped observed (.notifyThenWait grace) now).symm
      rw [graceFrom, stopped_snapshot, hexited, hpolicy', Bool.and_true]
      cases hbefore : record.snapshot.direct.isExited with
      | false =>
        refine ⟨fun _ => earliest_stopped hopen' hearliest, fun _ _ grace' hgrace' => ?_, hsent⟩
        rw [stopped_spec, hpolicy] at hgrace'
        cases hgrace'
        refine ⟨now, mem_append_right _ (mem_singleton.mpr rfl), fun deadline hd => ?_⟩
        refine mem_append_right _ ?_
        rw [Bool.not_false, if_pos rfl]
        show deadline ∈ (now.checkedAdd grace).toList
        rw [hd]
        exact mem_singleton.mpr rfl
      | true =>
        obtain ⟨seen, hseen, hasked⟩ := h.grace hopen hbefore grace hpolicy'
        rw [Bool.not_true, if_neg (by decide), append_nil]
        refine ⟨fun _ => earliest_stopped_of_later hopen' hearliest fun deadline hd => ?_,
          fun _ _ grace' hgrace' => ?_, hsent⟩
        · obtain ⟨earlier, hearlier, hle⟩ := checkedAdd_le (hclock seen hseen) hd
          exact ⟨earlier, hasked earlier hearlier, hle⟩
        · rw [stopped_spec, hpolicy] at hgrace'
          cases hgrace'
          exact ⟨seen, mem_append_left _ hseen, hasked⟩

theorem deliver (now : Instant) (signal : StopSignal → Except PlatformError Unit) :
    Tracked times asked (sent ++ match record.due now with
      | some due => match signal due with
        | .ok () => [due]
        | .error _ => []
      | none => []) (record.deliver now signal).1 := by
  rw [RunRecord.deliver]
  cases hdue : record.due now with
  | none =>
    rw [append_nil]
    exact h
  | some due =>
    simp only
    cases signal due with
    | error error =>
      rw [append_nil]
      exact h
    | ok =>
      rw [RunRecord.due] at hdue
      split at hdue
      · cases hdue
      obtain ⟨plan, hplan, hpending⟩ := Option.bind_eq_some_iff.mp hdue
      have hdeadline : (plan.delivered due).deadline = plan.deadline := by
        cases due <;> rfl
      refine ⟨fun hopen => ?_, h.grace, ?_⟩
      · have hearliest := h.earliest hopen
        rw [hplan] at hearliest ⊢
        show Earliest asked (some (plan.delivered due).deadline)
        rw [hdeadline]
        exact hearliest
      · rw [h.sent, hplan]
        exact sent_delivered hpending

theorem reconcile (hclock : ∀ seen ∈ times, seen ≤ now) :
    Tracked (times ++ [now])
      (asked ++ record.graceFrom (record.reconcile evidence now answer signal).1 now)
      (sent ++ match record.attempted evidence now answer with
        | some due => match signal due with
          | .ok () => [due]
          | .error _ => []
        | none => [])
      (record.reconcile evidence now answer signal).1 := by
  cases hopen : record.isComplete with
  | true =>
    rw [reconcile_of_complete hopen, attempted, if_pos hopen]
    exact of_complete hopen (by rw [append_nil]; exact h.sent)
  | false =>
    have hdelivered := (h.absorb evidence answer hopen hclock).deliver now signal
    rw [attempted, if_neg (by simp [hopen])]
    rw [graceFrom_reconcile hopen]
    obtain hafter | ⟨hopen', error, hafter⟩ :=
      reconcile_of_open evidence now answer signal hopen
    · rw [hafter]
      exact hdelivered
    · rw [hafter]
      exact ⟨fun _ => hdelivered.earliest hopen', fun _ => hdelivered.grace hopen', hdelivered.sent⟩

theorem force_mem_sent {plan : StopPlan}
    (hplan : record.stop = some plan) : .force ∈ sent ↔ plan.forced = true := by
  rw [h.sent, hplan]
  obtain ⟨_, _, notified, forced⟩ := plan
  cases notified <;> cases forced <;> simp [StopPlan.sent]

/-- Force is due from the earliest deadline on, until it is delivered or the Run is cleaned up. -/
theorem due_eq_force :
    record.due now = some .force ↔
      record.isComplete = false ∧ .force ∉ sent ∧ ∃ deadline ∈ asked, deadline ≤ now := by
  rw [due]
  cases hopen : record.isComplete with
  | true => simp
  | false =>
    have hearliest := h.earliest hopen
    cases hplan : record.stop with
    | none =>
      rw [hplan] at hearliest
      rw [show asked = [] from hearliest]
      simp
    | some plan =>
      rw [hplan] at hearliest
      obtain ⟨hmem, hle⟩ := hearliest
      have hdeadline : (∃ deadline ∈ asked, deadline ≤ now) ↔ plan.deadline ≤ now := by
        refine ⟨?_, fun hnow => ⟨plan.deadline, hmem, hnow⟩⟩
        rintro ⟨deadline, hd, hnow⟩
        exact Nat.le_trans (hle deadline hd) hnow
      rw [h.force_mem_sent hplan, hdeadline, Option.bind_some, pending]
      cases plan.forced with
      | true => simp
      | false =>
        by_cases hnow : plan.deadline ≤ now
        · simp [hnow]
        · simp [hnow]

end Tracked

/-! ### Whole histories -/

namespace ScopeRuntime

variable {runtime : ScopeRuntime} {input : Input} {run : RunId} {times asked : List Instant}
  {sent : List StopSignal}

/-- What is known of a Run against its history; of a Run that was never launched there is none. -/
def Follows (times asked : List Instant) (sent : List StopSignal) : Option RunRecord → Prop
  | none => asked = [] ∧ sent = []
  | some record => Tracked times asked sent record

theorem requests_reconcile {now : Instant} (h : input.command = .reconcile now)
    (record : RunRecord) (hrecord : runtime.runs[run]? = some record) :
    requests run runtime input =
      record.graceFrom (runtime.reconciled input.platform now run record).1 now := by
  have hafter : (runtime.apply input).runs[run]? =
      some (runtime.reconciled input.platform now run record).1 := by
    rw [getElem?_apply, h, hrecord]
    rfl
  simp only [requests, h, hasExited, hrecord, hafter, policy, graceFrom, Option.any_some,
    Option.map_some]
  split
  · cases record.spec.descendants <;> rfl
  · rfl

/-- Nothing is asked of a Run that is not known, and it is sent nothing. -/
theorem requests_of_none (h : runtime.runs[run]? = none) : requests run runtime input = [] := by
  have hmem : run ∉ runtime.runs := by simp [Std.ExtTreeMap.mem_iff_isSome_getElem?, h]
  cases hcommand : input.command with
  | start id spec => simp only [requests, hcommand]
  | stopRun id request now => simp only [requests, hcommand, hmem, and_false, if_false]
  | close request now => simp only [requests, hcommand, hmem, false_and, if_false]
  | reconcile now =>
    have hafter : (runtime.apply input).runs[run]? = none := by
      rw [getElem?_apply, hcommand, h]
      rfl
    simp [requests, hcommand, hasExited, hafter]

theorem Follows.apply_none (h : Follows times asked sent none)
    (hrecord : runtime.runs[run]? = none) :
    Follows (times ++ input.command.time.toList) (asked ++ requests run runtime input)
      (sent ++ runtime.deliveries input run) (runtime.apply input).runs[run]? := by
  obtain ⟨rfl, rfl⟩ := h
  have hdeliveries : runtime.deliveries input run = [] := by
    rw [deliveries, attempts, hrecord]
    cases input.command <;> rfl
  rw [requests_of_none hrecord, hdeliveries, getElem?_apply, hrecord]
  split
  · split
    · -- a Run that is launched has been asked nothing
      refine ⟨fun _ => rfl, fun _ hexited => ?_, rfl⟩
      rw [launched.eq_def] at hexited
      simp only at hexited
      split at hexited <;> cases hexited
    · exact ⟨rfl, rfl⟩
  · split <;> exact ⟨rfl, rfl⟩
  · split <;> exact ⟨rfl, rfl⟩
  · exact ⟨rfl, rfl⟩

theorem Follows.apply_some {record : RunRecord} (h : Tracked times asked sent record)
    (hrecord : runtime.runs[run]? = some record)
    (hclock : ∀ now, input.command.time = some now → ∀ seen ∈ times, seen ≤ now) :
    Follows (times ++ input.command.time.toList) (asked ++ requests run runtime input)
      (sent ++ runtime.deliveries input run) (runtime.apply input).runs[run]? := by
  have hmem : run ∈ runtime.runs := by simp [Std.ExtTreeMap.mem_iff_isSome_getElem?, hrecord]
  cases hcommand : input.command with
  | start id spec =>
    have hspawns : ¬(id = run ∧ runtime.spawns id = true) := by
      rintro ⟨rfl, hspawns⟩
      rw [spawns, hrecord] at hspawns
      cases hspawns
    simp only [getElem?_apply, requests, deliveries, attempts, hcommand, hrecord, if_neg hspawns,
      append_nil]
    exact h.times_append _
  | stopRun id request now =>
    simp only [getElem?_apply, requests, deliveries, attempts, hcommand, hrecord, hmem, and_true,
      append_nil]
    split
    · exact (h.stopped request now).times_append _
    · rw [append_nil]
      exact h.times_append _
  | close request now =>
    simp only [getElem?_apply, requests, deliveries, attempts, hcommand, hrecord, hmem, true_and,
      append_nil]
    cases runtime.state.isClosed with
    | true =>
      simp only [Bool.not_true, Bool.false_eq_true, if_true, if_false, append_nil]
      exact h.times_append _
    | false =>
      simp only [Bool.not_false, Bool.false_eq_true, if_true, if_false]
      exact (h.stopped request now).times_append _
  | reconcile now =>
    rw [requests_reconcile hcommand record hrecord]
    simp only [getElem?_apply, deliveries, attempts, hcommand, hrecord, Option.bind_some,
      Option.map_some, reconciled]
    exact h.reconcile (hclock now (by rw [hcommand]; rfl))

theorem follows_after (hfresh : runtime.runs[run]? = none) (inputs : List Input)
    (hclock : Clocked inputs) :
    Follows (inputs.filterMap (·.command.time)) (requested run runtime inputs)
      (signals run runtime inputs) (runtime.after inputs).runs[run]? := by
  induction inputs using List.reverseRecOn with
  | nil =>
    show Follows [] [] [] runtime.runs[run]?
    rw [hfresh]
    exact ⟨rfl, rfl⟩
  | append_singleton inputs input ih =>
    have htimes : (inputs ++ [input]).filterMap (·.command.time) =
        inputs.filterMap (·.command.time) ++ input.command.time.toList := by
      rw [filterMap_append]
      cases h : input.command.time <;> simp [h]
    rw [Clocked, htimes, pairwise_append] at hclock
    rw [requested_concat, signals_concat, after_concat, htimes]
    have hfollows := ih hclock.1
    cases hrecord : (runtime.after inputs).runs[run]? with
    | none =>
      rw [hrecord] at hfollows
      exact hfollows.apply_none hrecord
    | some record =>
      rw [hrecord] at hfollows
      refine Follows.apply_some hfollows hrecord fun now hnow seen hseen => ?_
      exact hclock.2.2 seen hseen now (by rw [hnow]; exact mem_singleton.mpr rfl)

theorem sent_sublist (h : Follows times asked sent runtime.runs[run]?) :
    sent.Sublist [.requestExit, .force] := by
  cases hrecord : runtime.runs[run]? with
  | none =>
    rw [hrecord] at h
    rw [h.2]
    exact nil_sublist _
  | some record =>
    rw [hrecord] at h
    rw [h.sent]
    cases record.stop with
    | none => exact nil_sublist _
    | some plan => exact plan.sent_sublist

/-- The platform is asked to force the exit of a Run exactly when force is due. -/
theorem attempts_eq_force {now : Instant} (h : Follows times asked sent runtime.runs[run]?)
    (hcommand : input.command = .reconcile now) (hclock : ∀ seen ∈ times, seen ≤ now) :
    runtime.attempts input run = some .force ↔
      (∃ record, (runtime.apply input).runs[run]? = some record ∧ record.isComplete = false) ∧
        .force ∉ sent ∧ ∃ deadline ∈ asked ++ requests run runtime input, deadline ≤ now := by
  simp only [attempts, getElem?_apply, hcommand]
  cases hrecord : runtime.runs[run]? with
  | none => simp
  | some record =>
    rw [hrecord] at h
    rw [requests_reconcile hcommand record hrecord, Option.bind_some, Option.map_some]
    cases hopen : record.isComplete with
    | true =>
      simp [attempted, reconciled, reconcile_of_complete hopen, hopen]
    | false =>
      have habsorb := h.absorb (cleanupEvidence runtime.guarantee) (input.platform.observe run)
        hopen hclock
      rw [attempted, if_neg (by simp [hopen]), habsorb.due_eq_force, reconciled,
        graceFrom_reconcile hopen]
      refine and_congr ?_ Iff.rfl
      simp [isComplete_reconcile hopen]

end ScopeRuntime

/-- In every history of a runtime: what is known about a Run is refined and never retracted, a
cleaned-up Run and a closed Scope stay as they are, the Scope is closed only from `Closing` and with
every Run cleaned up, each Run is sent the cooperative request at most once and before force, and
force at most once; and a reconciliation forces the exit of a Run that is not cleaned up exactly when
force was not delivered before and the earliest of the deadlines asked for has passed. -/
theorem evidence_kept_and_stops_tighten (request : ContainmentRequest)
    (capabilities : PlatformCapabilities) (runtime : ScopeRuntime)
    (hnew : ScopeRuntime.new request capabilities = .ok runtime) (inputs : List Input)
    (hclock : Clocked inputs) :
    (∀ before rest, inputs = before ++ rest → (runtime.after before).Keeps (runtime.after inputs)) ∧
    (∀ before input rest, inputs = before ++ input :: rest →
      (runtime.after before).state.isClosed = false →
      (runtime.after (before ++ [input])).state.isClosed = true →
      (runtime.after before).state = .closing ∧
        ∀ (run : RunId) (record : RunRecord),
          (runtime.after (before ++ [input])).runs[run]? = some record →
            record.isComplete = true) ∧
    (∀ run, (signals run runtime inputs).Sublist [.requestExit, .force]) ∧
    ∀ before input rest, inputs = before ++ input :: rest →
      ∀ now, input.command = .reconcile now → ∀ run : RunId,
        (runtime.after before).attempts input run = some .force ↔
          (∃ record, (runtime.after (before ++ [input])).runs[run]? = some record ∧
            record.isComplete = false) ∧
          .force ∉ signals run runtime before ∧
          ∃ deadline ∈ requested run runtime (before ++ [input]), deadline ≤ now := by
  have hfresh : ∀ run : RunId, runtime.runs[run]? = none := fun run => by
    simp [(new_eq_ok hnew).1]
  refine ⟨?_, ?_, fun run => ?_, ?_⟩
  · rintro before rest rfl
    rw [after_append]
    exact keeps_after _ rest
  · intro before input rest _ hopen hclosed
    rw [after_concat] at hclosed ⊢
    obtain h | ⟨h, _⟩ | ⟨h, _, hcomplete⟩ := state_apply (runtime.after before) input
    · rw [h, hopen] at hclosed
      cases hclosed
    · rw [h] at hclosed
      cases hclosed
    · exact ⟨h, hcomplete⟩
  · exact sent_sublist (follows_after (hfresh run) inputs hclock)
  · rintro before input rest rfl now hcommand run
    rw [Clocked, filterMap_append, pairwise_append] at hclock
    obtain ⟨hbefore, _, hlater⟩ := hclock
    rw [requested_concat, after_concat]
    refine attempts_eq_force (follows_after (hfresh run) before hbefore) hcommand
      fun seen hseen => hlater seen hseen now ?_
    rw [filterMap_cons, hcommand]
    exact mem_cons_self

/-- A Run whose direct process exits on its own while a stop with a later deadline is planned: the
grace period decides, and both signals are delivered once. -/
theorem evidence_kept_and_stops_tighten_grace :
    let spec := RunSpec.new "sh" "/" (.cleanup 5)
    let answers (direct : DirectProcessState) : Platform :=
      { spawn := fun _ _ _ => .ok ()
        observe := fun _ => .ok { direct := direct, containment := .occupied }
        signal := fun _ _ => .ok () }
    let inputs : List Input :=
      [⟨.start 7 spec, answers .unknown⟩, ⟨.stopRun 7 (.wait 100) 10, answers .unknown⟩,
        ⟨.reconcile 20, answers (.exited .unknown)⟩,
        ⟨.reconcile 22, answers (.exited (.code 1))⟩, ⟨.reconcile 25, answers .unknown⟩]
    ∃ runtime, ScopeRuntime.new .requireStrong .strongOnly = .ok runtime ∧ Clocked inputs ∧
      requested 7 runtime inputs = [110, 25] ∧
      (signals 7 runtime inputs).Sublist [.requestExit, .force] ∧
      signals 7 runtime inputs = [.requestExit, .force] := by
  intro spec answers inputs
  let runtime : ScopeRuntime := { guarantee := .strong, runs := ∅, state := .open }
  have hclock : Clocked inputs := by
    show List.Pairwise (· ≤ ·) [10, 20, 22, 25]
    decide
  have h := evidence_kept_and_stops_tighten .requireStrong .strongOnly runtime rfl inputs hclock
  exact ⟨runtime, rfl, hclock, by decide +kernel, h.2.2.1 7, by decide +kernel⟩

end OraDesktop.Process
