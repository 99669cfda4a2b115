import OraDesktop.Workflow.Rehearsal

/-!
# Terminal runs stay terminal

A run that is Succeeded, Failed or Cancelled still receives callbacks: attempts that were in flight
finish, retries wake up, an executor acknowledges an exit. None of them may bring the run back or
rewrite how it ended. Two arguments carry this. No step but `restart_run` and
`resume_from_failure` changes the outcome of a terminal run (`Step.sameOutcome`), since a pass works
on a Running run only (`Guard.running`), and the other calls take no such step (`unopened_execute`).

The error of a Failed run is traced back to the event that failed it: `Event.failure` is the message
an event fails the run with, and `failed_since` finds that event in the journal.
-/

namespace OraDesktop.Workflow

open Repository Journal Engine WorkflowRunStatus

def WorkflowRunStatus.isTerminal : WorkflowRunStatus → Bool
  | .succeeded | .failed | .cancelled => true
  | .pending | .running => false

/-- How the run ended, and the attempts it has, are the same in both states. -/
structure World.SameOutcome (w w' : World) : Prop where
  status_eq : w'.run.status = w.run.status
  error_eq : w'.run.error = w.run.error
  output_eq : w'.run.output = w.run.output
  rowIds_eq : w'.rows.map (·.id) = w.rows.map (·.id)

namespace World.SameOutcome

variable {w w' w'' : World}

theorem refl (w : World) : w.SameOutcome w := ⟨rfl, rfl, rfl, rfl⟩

theorem trans (h : w.SameOutcome w') (h' : w'.SameOutcome w'') : w.SameOutcome w'' where
  status_eq := h'.status_eq.trans h.status_eq
  error_eq := h'.error_eq.trans h.error_eq
  output_eq := h'.output_eq.trans h.output_eq
  rowIds_eq := h'.rowIds_eq.trans h.rowIds_eq

theorem of_frame {allowed : NodeRun → WorkflowNodeStatus → Prop} (hframe : w.Frame w')
    (hmoves : RowMoves allowed w [] w') : w.SameOutcome w' where
  status_eq := hframe.status_eq
  error_eq := hframe.error_eq
  output_eq := hframe.output_eq
  rowIds_eq := by simpa using hmoves.ids

/-- A failure reaches the run only while it is Running. -/
theorem of_failsRun {allowed : NodeRun → WorkflowNodeStatus → Prop} {error : String}
    (hrun : w.run.status ≠ .running) (hfails : FailsRun w w' error)
    (hmoves : RowMoves allowed w [] w') : w.SameOutcome w' where
  status_eq := by rw [hfails.status_eq, if_neg hrun]
  error_eq := by rw [hfails.error_eq, if_neg hrun]
  output_eq := hfails.output_eq
  rowIds_eq := by simpa using hmoves.ids

end World.SameOutcome

/-- The transactions only a scheduling pass runs, and so only over a Running run. -/
def Event.scheduled : Event → Bool
  | .startReadyNodes _ _ | .startIterationRound _ _ _ _ _ | .settleIterationRound _ _ _ _ _
  | .completeIterationNode _ _ _ _ _ | .startLoopRound _ _ | .startScopeReadyNodes _ _ _ => true
  | _ => false

section

variable [JsonText] {g : WorkflowGraph} {w w' : World} {e : Event}

/-! ### Steps -/

theorem Guard.running (h : Guard g w e) (hs : e.scheduled = true) : w.run.status = .running := by
  cases e with
  | startReadyNodes starts now => exact h.1
  | startIterationRound ownerId round item starts now =>
    obtain ⟨row, node, nodeIds, hplan, -⟩ := h
    exact hplan.run_running
  | settleIterationRound ownerId round entry continuation now =>
    obtain ⟨row, node, plan, hplan, -⟩ := h
    exact hplan.run_running
  | completeIterationNode id ownerId exposed output now =>
    obtain ⟨row, node, hplan, -⟩ := h
    exact hplan.run_running
  | startLoopRound start now =>
    obtain ⟨row, config, body, carried, pool, hloop, -⟩ := h
    exact hloop.run_running
  | startScopeReadyNodes scopeId starts now =>
    obtain ⟨row, config, body, round, hopen, -⟩ := h
    exact hopen.run_running
  | _ => cases hs

/-- No step but a reopening one touches how a terminal run ended. -/
theorem Step.sameOutcome (hk : w.Keyed) (hterm : w.run.status.isTerminal = true)
    (h : Step g w e w') (hreopens : e.reopens = false) : w.SameOutcome w' := by
  have hrun : w.run.status ≠ .running := fun h => by simp [h, isTerminal] at hterm
  have hpending : w.run.status ≠ .pending := fun h => by simp [h, isTerminal] at hterm
  obtain ⟨hguard, heffect⟩ := h
  have hframe := (heffect.change hk).run
  cases e with
  | pass | evaluate | dispatch | wake => exact heffect ▸ .refl w
  | startRun => exact absurd hframe.1 hpending
  | completeNode => exact .of_frame hframe (completeNode_rowMoves hk heffect)
  | failNode id failure propagation now =>
    cases propagation with
    | composite => exact .of_frame hframe (failNode_composite_rowMoves hk heffect)
    | run =>
      obtain ⟨hfails, hmoves, -⟩ := failNode_run_commits hk heffect
      exact .of_failsRun hrun hfails hmoves
  | transition id source target =>
    have hactive : source.isActive = true := by rcases hguard.2.2 with ⟨rfl, -⟩ | ⟨rfl, -⟩ <;> rfl
    exact .of_frame hframe (transitionNodeRunStatus_rowMoves hk hactive heffect)
  | advanceLoopRound scopeId advance now =>
    obtain ⟨_, _, -, -, hrunning, -⟩ := advanceLoopRound_commits heffect
    exact absurd hrunning hrun
  | scheduleNodeRetry id failure retry now =>
    obtain ⟨_, _, _, -, -, hrunning, -⟩ := scheduleNodeRetry_commits hk heffect
    exact absurd hrunning hrun
  | beginNodeRetry id now =>
    obtain ⟨-, -, hmoves⟩ := beginNodeRetry_commits hk heffect
    exact .of_frame hframe hmoves
  | finishRun =>
    rcases hframe.1 with h | h
    · exact absurd h hpending
    · exact absurd h hrun
  | cancelRun => exact absurd hframe.1 hrun
  | updateRunInput input vars =>
    obtain ⟨_, rfl⟩ := updateRunInput_commits heffect
    exact ⟨rfl, rfl, rfl, rfl⟩
  | failInterruptedNodeRuns => exact .of_frame hframe (failInterruptedNodeRuns_commits heffect).2.2
  | failOrphanedNodeRuns => exact .of_failsRun hrun hframe (failOrphanedNodeRuns_commits heffect).2.1
  | restartRun | resumeFromFailure => cases hreopens
  | startReadyNodes | startIterationRound | settleIterationRound | completeIterationNode
  | startLoopRound | startScopeReadyNodes => exact absurd (Guard.running hguard rfl) hrun

/-! ### The first failure -/

/-- The message an event fails the run with, should it still be Running. -/
def Event.failure : Event → Option String
  | .failNode _ failure .run _ => some failure.message
  | .settleIterationRound _ _ _ (.fail error) _ => some error
  | .advanceLoopRound _ (.fail error) _ => some error
  | .failOrphanedNodeRuns _ => some interruptedByRestart
  | _ => none

omit [JsonText] in
theorem Repository.FailsRun.failed {error : String} (hne : w.run.status ≠ .failed)
    (hfailed : w'.run.status = .failed) (h : FailsRun w w' error) :
    w.run.status = .running ∧ ∃ message, some error = some message ∧
      w'.run.error = some message := by
  have hrunning : w.run.status = .running := by
    by_contra hrun
    rw [h.status_eq, if_neg hrun] at hfailed
    exact hne hfailed
  exact ⟨hrunning, error, rfl, by rw [h.error_eq, if_pos hrunning]⟩

/-- A run fails in one step from Running, with the message of the event. -/
theorem Step.failed (hk : w.Keyed) (h : Step g w e w') (hne : w.run.status ≠ .failed)
    (hfailed : w'.run.status = .failed) :
    w.run.status = .running ∧ ∃ message, e.failure = some message ∧
      w'.run.error = some message := by
  have hframe : ¬w.Frame w' := fun hframe => hne (hframe.status_eq ▸ hfailed)
  have hto : w'.run.status ≠ .failed → False := (· hfailed)
  have hrun := (Event.Effect.change hk h.2).run
  cases e with
  | startRun | finishRun | cancelRun => exact (hto (by rw [hrun.2]; decide)).elim
  | restartRun | resumeFromFailure => exact (hto (by rw [show _ = _ from hrun]; decide)).elim
  | failNode id failure propagation now =>
    cases propagation with
    | composite => exact absurd hrun hframe
    | run => exact hrun.failed hne hfailed
  | settleIterationRound ownerId round entry continuation now =>
    cases continuation with
    | startNextRound | complete => exact absurd hrun hframe
    | fail error => exact ⟨Guard.running h.1 rfl, error, rfl, hrun.2⟩
  | advanceLoopRound scopeId advance now =>
    cases advance with
    | fail error => exact hrun.failed hne hfailed
    | _ => exact absurd hrun hframe
  | failOrphanedNodeRuns => exact hrun.failed hne hfailed
  | _ => exact absurd hrun hframe

theorem Step.not_failed_of_reopens (h : Step g w e w') (hreopens : e.reopens = true) :
    w'.run.status ≠ .failed := by
  cases e with
  | restartRun newRootScopeId =>
    rw [(restartRun_commits h.2).1]
    decide
  | resumeFromFailure cleared =>
    rw [(resumeFromFailure_commits h.2).2.1]
    decide
  | _ => cases hreopens

/-- The journal of a run that is Failed: an event failed it while it was Running, and its status and
error have been the same ever since. -/
def FailedSince (w₀ : World) (journal : List (Event × World)) (message : String) : Prop :=
  ∃ before event failed since, journal = before ++ (event, failed) :: since ∧
    (lastState w₀ before).run.status = .running ∧ event.failure = some message ∧
    ∀ s ∈ failed :: since.map (·.2), s.run.status = .failed ∧ s.run.error = some message

omit [JsonText] in
theorem FailedSince.error_eq {w₀ : World} {journal : List (Event × World)} {message : String}
    (h : FailedSince w₀ journal message) : (lastState w₀ journal).run.error = some message := by
  obtain ⟨before, event, failed, since, rfl, -, -, hkept⟩ := h
  rw [lastState_append]
  exact (hkept _ (lastState_mem failed since)).2

/-- A Failed run has been so since its first failure. -/
theorem exists_failedSince {w₀ : World} {journal : List (Event × World)} (hk : w₀.Keyed)
    (hw₀ : w₀.run.status ≠ .failed) (hpath : Path (Step g) w₀ journal w)
    (hfailed : w.run.status = .failed) : ∃ message, FailedSince w₀ journal message := by
  -- the last step either failed the run or found it Failed
  induction journal using List.reverseRecOn generalizing w with
  | nil =>
    cases hpath
    exact absurd hfailed hw₀
  | append_singleton journal entry ih =>
    obtain ⟨hbefore, hlast⟩ := hpath.of_append
    obtain ⟨e, s⟩ := entry
    cases hlast with
    | cons hstep hnil =>
      cases hnil
      have hkeyed := hbefore.invariant (fun _ _ _ hk h => h.keyed hk) hk
      by_cases hwas : (lastState w₀ journal).run.status = .failed
      · obtain ⟨message, hsince⟩ := ih hbefore hwas
        have hreopens : e.reopens = false := by
          by_contra h
          exact hstep.not_failed_of_reopens (Bool.of_not_eq_false h) hfailed
        have hsame := hstep.sameOutcome hkeyed (by rw [hwas]; rfl) hreopens
        have herror := hsince.error_eq
        obtain ⟨before, event, failed, since, rfl, hrunning, hmessage, hkept⟩ := hsince
        refine ⟨message, before, event, failed, since ++ [(e, w)], by simp, hrunning, hmessage, ?_⟩
        intro t ht
        rw [List.map_append, ← List.cons_append, List.mem_append] at ht
        rcases ht with ht | ht
        · exact hkept t ht
        · obtain rfl := List.mem_singleton.mp ht
          exact ⟨hfailed, hsame.error_eq.trans herror⟩
      · obtain ⟨hrunning, message, hmessage, herror⟩ := hstep.failed hkeyed hwas hfailed
        refine ⟨message, journal, e, w, [], rfl, hrunning, hmessage, ?_⟩
        intro t ht
        obtain rfl := List.mem_singleton.mp ht
        exact ⟨hfailed, herror⟩

/-! ### Terminal runs -/

/-- The history of the calls a terminal run receives, other than those that reopen it. -/
abbrev LateRuns (g : WorkflowGraph) (w : World) :=
  History (· = w) fun call : { call : Call // call.op.reopens = false } => execute g call.1

/-- A run that is Succeeded, Failed or Cancelled stays as it ended: no sequence of calls but
`restart` and `resume_from_failure` changes its status, error or output or adds an attempt; whatever
takes it out of its status is one of those two transactions; and the error of a Failed run is that
of its first failure. -/
theorem terminal_run_stays_terminal {w₀ : World} {journal : List (Event × World)}
    (hruns : Runs g w₀ journal w) (hterm : w.run.status.isTerminal = true) :
    (∀ later s, LateRuns g w w later s → ∀ t ∈ s :: later.map (·.2), w.SameOutcome t) ∧
    (∀ e s rest t, Runs g w₀ (journal ++ (e, s) :: rest) t → s.run.status ≠ w.run.status →
      (∃ id, e = .restartRun id) ∨ ∃ cleared, e = .resumeFromFailure cleared) ∧
    (w.run.status = .failed → ∃ message, w.run.error = some message ∧
      FailedSince w₀ journal message) := by
  obtain ⟨hcreated, hpath⟩ := hruns.path
  have hk : w.Keyed := hpath.invariant (fun _ _ _ hk h => h.keyed hk) hcreated.keyed
  refine ⟨fun later s hlate t ht => ?_, fun e s rest t hmore hleft => ?_, fun hfailed => ?_⟩
  · have hcall (call : { call : Call // call.op.reopens = false }) :=
      unopened_execute (g := g) call.1 call.2
    have hstep : ∀ s e t, s.Keyed ∧ w.SameOutcome s → Unopened g s e t →
        t.Keyed ∧ w.SameOutcome t := by
      rintro s e t ⟨hs, hsame⟩ ⟨hstep, hopen⟩
      exact ⟨hstep.keyed hs,
        hsame.trans (hstep.sameOutcome hs (by rwa [hsame.status_eq]) hopen)⟩
    have hlater := (History.path hcall hlate).2
    rcases List.mem_cons.mp ht with rfl | ht
    · exact (hlater.invariant hstep ⟨hk, .refl w⟩).2
    · exact (hlater.forall_state hstep ⟨hk, .refl w⟩ t (.tail _ ht)).2
  · obtain ⟨-, hmore⟩ := hmore.path
    obtain ⟨-, hrest⟩ := hmore.of_append
    rw [hpath.lastState_eq] at hrest
    cases hrest with
    | cons hstep _ =>
      cases e with
      | restartRun id => exact .inl ⟨id, rfl⟩
      | resumeFromFailure cleared => exact .inr ⟨cleared, rfl⟩
      | _ => exact absurd (hstep.sameOutcome hk hterm rfl).status_eq hleft
  · have hw₀ : w₀.run.status ≠ .failed := by
      rw [hcreated.eq.2.2]
      decide
    obtain ⟨message, hsince⟩ := exists_failedSince hcreated.keyed hw₀ hpath hfailed
    exact ⟨message, hpath.lastState_eq ▸ hsince.error_eq, hsince⟩

end

/-- Of two agents side by side one fails, and with it the run, while the other still works. -/
theorem terminal_run_stays_terminal_beside_running :
    letI := JsonText.blank
    ∃ g w₀ journal w, Runs g w₀ journal w ∧ w.run.status = .failed ∧
      (w.rows.any fun r => r.nodeId == "other" && r.status == .running) = true ∧
      (∀ later s, LateRuns g w w later s → ∀ t ∈ s :: later.map (·.2), w.SameOutcome t) ∧
      (∀ e s rest t, Runs g w₀ (journal ++ (e, s) :: rest) t → s.run.status ≠ .failed →
        (∃ id, e = .restartRun id) ∨ ∃ cleared, e = .resumeFromFailure cleared) ∧
      ∃ message, w.run.error = some message ∧ FailedSince w₀ journal message := by
  let := JsonText.blank
  let := Toposort.documentOrder
  have hplay : rehearse
      (Document.ofParts [Document.node "start" "start", Document.node "agent" "agent",
        Document.node "other" "agent"] [Document.edge "start" "agent", Document.edge "start" "other"])
      none [⟨.start, .tagged "a", 10⟩, ⟨.failNode "an3" (.new .session "lost"), .tagged "b", 10⟩]
      (fun _ _ w => w.run.status == .failed &&
        w.rows.any fun r => r.nodeId == "other" && r.status == .running) = true := by
    decide +kernel
  obtain ⟨g, w₀, journal, w, -, hruns, hcheck⟩ := runs_of_rehearse hplay
  rw [Bool.and_eq_true, beq_iff_eq] at hcheck
  have hfailed := hcheck.1
  have h := terminal_run_stays_terminal hruns (by rw [hfailed]; rfl)
  rw [hfailed] at h
  exact ⟨g, w₀, journal, w, hruns, hfailed, hcheck.2, h.1, h.2.1, h.2.2 rfl⟩

end OraDesktop.Workflow
