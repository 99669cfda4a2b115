import OraDesktop.Workflow.Step

/-!
# What an event does to the attempts

Most events update rows and insert new ones. A retry supersedes one row and puts a waiting one in
its place; the two transactions that reopen a run supersede rows and nothing else. `RowChange` says
this once for every event, and whatever holds of the table over a whole history is derived from it.

## Main results

* `Event.Effect.rowChange` — every event changes the rows as `RowChange` says
* `Event.Effect.roundChange` — rounds are only added, and stay with their Loop
* `Step.keyed` — the table's constraints
* `Step.attempts_grow` — attempts are only added
-/

namespace OraDesktop.Workflow

open Repository Journal

abbrev Unparked : NodeRun → WorkflowNodeStatus → Prop := fun _ s => s ≠ .pending

/-- What an event does to the rows, by the kind of change: only a retry and the two resets need more
than the general case. -/
def RowChange (w : World) : Event → World → Prop
  | .transition id _ target, w' => RowMoves (fun r s => r.id = id ∧ s = target) w [] w'
  | .scheduleNodeRetry id failure retry now, w' => ∃ row attempt deleted,
      w.findNodeRunById id = some row ∧ row.status = .running ∧
      World.rows deleted = w.rows.map (fun r => if r.id == id then supersededRow failure now r else r) ∧
      Inserts deleted [waitingAttempt row attempt retry now] w'
  | .restartRun _, w' | .resumeFromFailure _, w' => ∃ p : NodeRun → Bool,
      w'.rows = w.rows.map fun r => if p r then { r with isDeleted := true } else r
  | _, w' => ∃ starts : List NodeRunToStart, ∃ now,
      RowMoves Unparked w (starts.map (·.toRow now)) w'

/-- Rows are updated, and those of started nodes inserted. -/
abbrev Grows (w w' : World) : Prop := ∃ starts : List NodeRunToStart, ∃ now,
  RowMoves Unparked w (starts.map (·.toRow now)) w'

section

variable {w w' : World}

theorem grows_of_moves {allowed : NodeRun → WorkflowNodeStatus → Prop}
    (h : RowMoves allowed w [] w') (himp : ∀ r s, allowed r s → s ≠ .pending) : Grows w w' :=
  ⟨[], 0, h.mono himp⟩

theorem grows_of_eq (h : w'.rows = w.rows) : Grows w w' := ⟨[], 0, RowMoves.refl.frame h⟩

theorem grows_of_ends (h : RowMoves Ends w [] w') : Grows w w' :=
  grows_of_moves h fun _ s hs => by rcases hs with rfl | rfl <;> decide

theorem grows_of_inserts (starts : List NodeRunToStart) {now : Int}
    (h : Inserts w (starts.map (·.toRow now)) w') : Grows w w' :=
  ⟨starts, now, h.moves.mono fun _ _ hquiet => hquiet.elim⟩

end

/-! ### Rounds -/

/-- What never changes about a round. -/
def LoopRound.key (round : LoopRound) : String × String × Nat :=
  (round.id, round.parentLoopNodeRunId, round.roundIndex)

/-- The rounds before a change stand first after it, and a new one belongs to a Loop. -/
def RoundChange (w w' : World) : Prop := ∃ news : List LoopRound,
  w'.rounds.map (·.key) = w.rounds.map (·.key) ++ news.map (·.key) ∧
  ∀ round ∈ news, ∃ parent ∈ w.rows, parent.id = round.parentLoopNodeRunId ∧ parent.nodeType = .loop

section

variable {w w' : World}

theorem LoopRound.key_map {rounds : List LoopRound} {q : LoopRound → Bool} {k : LoopRound → LoopRound}
    (hk : ∀ r, (k r).key = r.key) :
    (rounds.map fun r => if q r then k r else r).map (·.key) = rounds.map (·.key) := by
  rw [List.map_map]
  refine List.map_congr_left fun r _ => ?_
  by_cases hq : q r = true
  · rw [Function.comp, if_pos hq, hk]
  · rw [Function.comp, if_neg hq]

theorem RoundChange.of_map {q : LoopRound → Bool} {k : LoopRound → LoopRound}
    (hrounds : w'.rounds = w.rounds.map fun r => if q r then k r else r)
    (hk : ∀ r, (k r).key = r.key) : RoundChange w w' :=
  ⟨[], by rw [hrounds, LoopRound.key_map hk, List.map_nil, List.append_nil], List.forall_mem_nil _⟩

theorem RoundChange.of_eq (h : w'.rounds = w.rounds) : RoundChange w w' :=
  ⟨[], by rw [h, List.map_nil, List.append_nil], List.forall_mem_nil _⟩

theorem RoundChange.insert {settled w₁ : World} {start : LoopRoundToStart}
    (hinsert : settled.insertLoopRound start.toRound = .ok w₁) (hrows : settled.rows = w.rows)
    (hkeys : settled.rounds.map (·.key) = w.rounds.map (·.key))
    (hrounds : w'.rounds = settled.rounds ++ [start.toRound]) : RoundChange w w' := by
  obtain ⟨-, parent, hparent, hid, hloop⟩ := insertLoopRound_eq hinsert
  refine ⟨[start.toRound], by rw [hrounds, List.map_append, hkeys], fun round hround => ?_⟩
  rw [List.mem_singleton.mp hround]
  exact ⟨parent, hrows ▸ hparent, hid, hloop⟩

/-! ### Events -/

def RunChange (w : World) : Event → World → Prop
  | .startRun _ _, w' => w.run.status = .pending ∧ w'.run.status = .running
  | .failNode _ failure .run _, w' => FailsRun w w' failure.message
  | .settleIterationRound _ _ _ (.fail error) _, w' =>
      w'.run.status = .failed ∧ w'.run.error = some error
  | .advanceLoopRound _ (.fail error) _, w' => FailsRun w w' error
  | .finishRun _ _, w' =>
      (w.run.status = .pending ∨ w.run.status = .running) ∧ w'.run.status = .succeeded
  | .cancelRun _, w' => w.run.status = .running ∧ w'.run.status = .cancelled
  | .restartRun _, w' => w'.run.status = .pending
  | .resumeFromFailure _, w' => w'.run.status = .running
  | .failOrphanedNodeRuns _, w' => FailsRun w w' interruptedByRestart
  | _, w' => w.Frame w'

/-- What an event does; a transition changes the rows so from an active status. -/
structure Change (w : World) (e : Event) (w' : World) : Prop where
  rows : (∀ id source target, e = .transition id source target → source.isActive = true) →
    RowChange w e w'
  rounds : RoundChange w w'
  run : RunChange w e w'

variable [JsonText] {e : Event}

variable (hk : w.Keyed) (heffect : e.Effect w w')

include hk heffect

theorem Event.Effect.change : Change w e w' := by
  cases e with
  | pass | evaluate | dispatch | wake =>
    obtain rfl : w' = w := heffect
    exact ⟨fun _ => grows_of_eq rfl, .of_eq rfl, .refl w'⟩
  | startRun start now =>
    obtain ⟨hpending, hrunning, hrounds, hinserts⟩ := startRun_commits heffect
    exact ⟨fun _ => grows_of_inserts [start] hinserts, .of_eq hrounds, hpending, hrunning⟩
  | startReadyNodes starts now =>
    obtain ⟨hframe, -, hrounds, hinserts⟩ := startReadyNodes_commits heffect
    exact ⟨fun _ => grows_of_inserts starts hinserts, .of_eq hrounds, hframe⟩
  | completeNode origin id output structured now =>
    obtain ⟨row, recorded, -, -, hrecorded, hframe, hrounds, -⟩ := completeNode_commits heffect
    refine ⟨fun _ => grows_of_moves (completeNode_rowMoves hk heffect) fun _ _ h => by
      rw [h.2]; decide, ?_, hframe⟩
    obtain ⟨-, payload, -, rfl⟩ | ⟨-, round, state, -, -, rfl⟩ := recordCompletion_eq_ok hrecorded
    · exact .of_eq hrounds
    · exact .of_map hrounds fun _ => rfl
  | failNode id failure propagation now =>
    cases propagation with
    | composite =>
      obtain ⟨-, -, -, hframe, hrounds, -⟩ := failNode_composite_commits heffect
      exact ⟨fun _ => grows_of_moves (failNode_composite_rowMoves hk heffect) fun _ _ h => by
        rw [h.2]; decide, .of_eq hrounds, hframe⟩
    | run =>
      obtain ⟨hfails, hmoves, row, hrounds⟩ := failNode_run_commits hk heffect
      refine ⟨fun _ => grows_of_ends hmoves, ?_, hfails⟩
      split at hrounds
      · exact .of_eq hrounds
      · exact .of_map hrounds fun _ => rfl
  | transition id source target =>
    obtain ⟨-, -, -, hframe, hrounds, -⟩ := transitionNodeRunStatus_commits heffect
    exact ⟨fun hactive => transitionNodeRunStatus_rowMoves hk (hactive _ _ _ rfl) heffect,
      .of_eq hrounds, hframe⟩
  | startIterationRound ownerId round item starts now =>
    obtain ⟨hframe, hrounds, hinserts⟩ := startIterationRound_commits heffect
    exact ⟨fun _ => grows_of_inserts starts hinserts, .of_eq hrounds, hframe⟩
  | settleIterationRound ownerId round entry continuation now =>
    obtain ⟨hrounds, payload, hinto⟩ := settleIterationRound_commits heffect
    cases continuation with
    | startNextRound next item starts =>
      exact ⟨fun _ => grows_of_inserts starts hinto.2.1, .of_eq hrounds, hinto.1⟩
    | complete exposed output =>
      exact ⟨fun _ => grows_of_moves hinto.2.2.1 fun _ _ h => by rw [h.2.2]; decide,
        .of_eq hrounds, hinto.1⟩
    | fail error =>
      exact ⟨fun _ => grows_of_ends hinto.2.2.2.2.2.2.1,
        .of_eq hrounds, hinto.1, hinto.2.1⟩
  | completeIterationNode id ownerId exposed output now =>
    obtain ⟨hframe, hrounds, -, hmoves⟩ := completeIterationNode_commits heffect
    exact ⟨fun _ => grows_of_moves hmoves fun _ _ h => by rw [h.2.2]; decide, .of_eq hrounds,
      hframe⟩
  | startLoopRound start now =>
    obtain ⟨hframe, hrounds, hinserts, w₁, hinsert⟩ := startLoopRound_commits heffect
    exact ⟨fun _ => grows_of_inserts [start.startNodeRun] hinserts,
      .insert hinsert rfl rfl hrounds, hframe⟩
  | startScopeReadyNodes scopeId starts now =>
    obtain ⟨-, hframe, hrounds, hinserts⟩ := startScopeReadyNodes_commits heffect
    exact ⟨fun _ => grows_of_inserts starts hinserts, .of_eq hrounds, hframe⟩
  | advanceLoopRound scopeId advance now =>
    obtain ⟨round, parent, -, -, -, hinto⟩ := advanceLoopRound_commits heffect
    cases advance with
    | requestExit nodeRunId result =>
      obtain ⟨hframe, hexit⟩ := requestLoopExit_eq_ok hinto
      refine ⟨fun _ => grows_of_moves (requestLoopExit_rowMoves hinto) fun _ _ h => h.2, ?_,
        hframe⟩
      obtain ⟨-, rfl⟩ | ⟨-, hrounds⟩ := hexit
      · exact .of_eq rfl
      · exact .of_map hrounds fun _ => rfl
    | «continue» next =>
      obtain ⟨-, hframe, -, ⟨w₁, hinsert⟩, -, hrounds, hinserts, -⟩ := hinto
      exact ⟨fun _ => grows_of_inserts [next.startNodeRun] hinserts,
        .insert hinsert rfl (LoopRound.key_map fun _ => rfl) hrounds, hframe⟩
    | succeed outputs reason =>
      obtain ⟨hframe, -, hrounds, hrows, -⟩ := hinto
      exact ⟨fun _ => grows_of_moves (succeedLoop_rowMoves hrows) fun _ _ h => by
        rw [h.2]; decide, .of_map hrounds fun _ => rfl, hframe⟩
    | fail error =>
      obtain ⟨hfails, hrounds, hmoves, -⟩ := hinto
      exact ⟨fun _ => grows_of_ends hmoves,
        .of_map hrounds fun _ => rfl, hfails⟩
  | scheduleNodeRetry id failure retry now =>
    obtain ⟨row, attempt, deleted, hrow, hrunning, -, hframe, hrounds, hrows⟩ :=
      scheduleNodeRetry_commits hk heffect
    exact ⟨fun _ => ⟨row, attempt, deleted, hrow, hrunning, hrows⟩, .of_eq hrounds, hframe⟩
  | beginNodeRetry id now =>
    obtain ⟨hframe, hrounds, hmoves⟩ := beginNodeRetry_commits hk heffect
    exact ⟨fun _ => grows_of_moves hmoves fun _ _ h => by rw [h.2.1]; decide, .of_eq hrounds,
      hframe⟩
  | finishRun output now =>
    obtain ⟨hbefore, hafter, hrows, hrounds⟩ := finishRun_commits heffect
    exact ⟨fun _ => grows_of_eq hrows, .of_eq hrounds, hbefore, hafter⟩
  | cancelRun now =>
    obtain ⟨hbefore, hafter, hrounds, hmoves⟩ := cancelRun_commits heffect
    exact ⟨fun _ => grows_of_ends hmoves,
      .of_map hrounds fun _ => rfl, hbefore, hafter⟩
  | restartRun newRootScopeId =>
    obtain ⟨hafter, hrounds, hrows⟩ := restartRun_commits heffect
    exact ⟨fun _ => ⟨_, hrows⟩, .of_map hrounds fun _ => rfl, hafter⟩
  | resumeFromFailure cleared =>
    obtain ⟨-, hafter, hrows, q, hrounds⟩ := resumeFromFailure_commits heffect
    exact ⟨fun _ => ⟨_, hrows⟩, .of_map hrounds fun _ => rfl, hafter⟩
  | updateRunInput input vars =>
    obtain ⟨-, rfl⟩ := updateRunInput_commits heffect
    exact ⟨fun _ => grows_of_eq rfl, .of_eq rfl, rfl, rfl, rfl, rfl, rfl⟩
  | failInterruptedNodeRuns ids now =>
    obtain ⟨hframe, hrounds, hmoves⟩ := failInterruptedNodeRuns_commits heffect
    exact ⟨fun _ => grows_of_ends hmoves, .of_eq hrounds, hframe⟩
  | failOrphanedNodeRuns now =>
    obtain ⟨hfails, hmoves, hrounds⟩ := failOrphanedNodeRuns_commits heffect
    exact ⟨fun _ => grows_of_ends hmoves,
      .of_map hrounds fun _ => rfl, hfails⟩

/-- Every event changes the rows as `RowChange` says; a transition does from an active status. -/
theorem Event.Effect.rowChange
    (hactive : ∀ id source target, e = .transition id source target → source.isActive = true) :
    RowChange w e w' := (heffect.change hk).rows hactive

end

/-! ### Changes by kind -/

section

variable {w w' : World} {e : Event}

/-- The three kinds of change: updates with inserts, a retry, a reopening. -/
theorem RowChange.kinds (h : RowChange w e w') :
    (∃ allowed news, RowMoves allowed w news w' ∧ e.reopens = false ∧
      (∀ r ∈ news, r.isLive = true ∧ r.status = .running ∧ r.payload = .empty) ∧
      ∀ r s, allowed r s → s = .pending →
        ∃ id source, e = .transition id source .pending ∧ r.id = id) ∨
    (∃ id failure retry now row attempt deleted, e = .scheduleNodeRetry id failure retry now ∧
      w.findNodeRunById id = some row ∧ row.status = .running ∧
      World.rows deleted =
        w.rows.map (fun r => if r.id == id then supersededRow failure now r else r) ∧
      Inserts deleted [waitingAttempt row attempt retry now] w') ∨
    (e.reopens = true ∧ ∃ p : NodeRun → Bool,
      w'.rows = w.rows.map fun r => if p r then { r with isDeleted := true } else r) := by
  have hstart : ∀ (starts : List NodeRunToStart) (now : Int), ∀ r ∈ starts.map (·.toRow now),
      r.isLive = true ∧ r.status = .running ∧ r.payload = .empty := by
    intro starts now r hr
    obtain ⟨start, -, rfl⟩ := List.mem_map.mp hr
    exact ⟨rfl, rfl, rfl⟩
  cases e with
  | transition id source target =>
    refine .inl ⟨_, _, h, rfl, List.forall_mem_nil _, fun r s hs hp => ⟨id, source, ?_, hs.1⟩⟩
    rw [← hp, hs.2]
  | scheduleNodeRetry id failure retry now =>
    obtain ⟨row, attempt, deleted, hrow⟩ := h
    exact .inr (.inl ⟨id, failure, retry, now, row, attempt, deleted, rfl, hrow⟩)
  | restartRun | resumeFromFailure => exact .inr (.inr ⟨rfl, h⟩)
  | _ =>
    obtain ⟨starts, now, hmoves⟩ := h
    exact .inl ⟨_, _, hmoves, rfl, hstart starts now, fun r s hs hp => absurd hp hs⟩

/-- The same attempt later on: it may have been superseded, and does not come to wait or to life. -/
structure NodeRun.Later (r r' : NodeRun) : Prop where
  attempt_eq : r'.attempt = r.attempt
  waits : r'.isWaiting = true → r.isWaiting = true
  live : r'.isLive = true → r.isLive = true
  frozen : r.isLive = false ∨ r.status.isActive = false → r'.status = r.status

theorem NodeRun.Later.refl (r : NodeRun) : r.Later r := ⟨rfl, fun h => h, fun h => h, fun _ => rfl⟩

theorem NodeRun.Evolves.later {r r' : NodeRun} (h : r.Evolves r') : r.Later r' where
  attempt_eq := h.attempt_eq
  waits := h.waits
  live := fun hlive => h.isLive_eq ▸ hlive
  frozen := fun hr => by rw [h.frozen hr]

theorem NodeRun.Later.delete (r : NodeRun) : r.Later { r with isDeleted := true } :=
  ⟨rfl, fun h => h, nofun, fun _ => rfl⟩

theorem NodeRun.Later.supersede {r : NodeRun} (failure : NodeFailure) (now : Int)
    (hlive : r.isLive = true) (hactive : r.status.isActive = true) :
    r.Later (supersededRow failure now r) where
  attempt_eq := rfl
  waits := nofun
  live := nofun
  frozen := fun h => by
    rcases h with h | h
    · rw [hlive] at h
      cases h
    · rw [hactive] at h
      cases h

theorem World.Keyed.later_supersede {id : String} {failure : NodeFailure} {now : Int} {row : NodeRun}
    (hk : w.Keyed) (hrow : w.findNodeRunById id = some row) (hrunning : row.status = .running) :
    List.Forall₂ NodeRun.Later w.rows
      (w.rows.map fun r => if r.id == id then supersededRow failure now r else r) := by
  rw [List.forall₂_map_right_iff, List.forall₂_same]
  intro r hr
  obtain ⟨hmem, hlive, hid⟩ := World.findNodeRunById_some hrow
  by_cases hrid : r.id = id
  · obtain rfl := hk.eq_of_id hr hmem (hrid.trans hid.symm)
    rw [if_pos (beq_iff_eq.mpr hrid)]
    exact .supersede failure now hlive (isActive_of_running hrunning)
  · rw [if_neg (by simpa using hrid)]
    exact .refl r

variable (hk : w.Keyed) (h : RowChange w e w')

include hk h

/-- The rows before a change stand first after it. -/
theorem RowChange.split :
    ∃ kept news, List.Forall₂ NodeRun.Later w.rows kept ∧ w'.rows = kept ++ news := by
  rcases h.kinds with ⟨allowed, news, hmoves, -⟩ | ⟨id, failure, retry, now, row, attempt, deleted, -,
    hrow, hrunning, hdeleted, hinserts⟩ | ⟨-, p, hrows⟩
  · obtain ⟨kept, hkept, hrows⟩ := hmoves.split
    exact ⟨kept, news, hkept.imp fun _ _ hr => hr.1.later, hrows⟩
  · refine ⟨_, _, ?_, hinserts.rows_eq⟩
    rw [hdeleted]
    exact hk.later_supersede hrow hrunning
  · refine ⟨w'.rows, [], ?_, (List.append_nil _).symm⟩
    rw [hrows, List.forall₂_map_right_iff, List.forall₂_same]
    intro r _
    split
    · exact .delete r
    · exact .refl r

theorem RowChange.attempts_grow : w.rows.map (·.attempt) <+: w'.rows.map (·.attempt) := by
  obtain ⟨kept, news, hkept, hrows⟩ := h.split hk
  rw [hrows, List.map_append, Fallible.map_eq_map hkept fun _ _ hr => hr.attempt_eq]
  exact List.prefix_append ..

theorem RowChange.keyed : w'.Keyed := by
  rcases h.kinds with ⟨allowed, news, hmoves, -⟩ | ⟨id, failure, retry, now, row, attempt, deleted, -,
    -, -, hdeleted, hinserts⟩ | ⟨-, p, hrows⟩
  · exact hmoves.keyed hk
  · exact hinserts.moves.keyed (supersede_keyed hk hdeleted (fun _ => rfl) fun _ => rfl)
  · exact supersede_keyed hk hrows (fun _ => rfl) fun _ => rfl

end

/-! ### Steps -/

section

variable [JsonText] {g : WorkflowGraph} {w w' : World} {e : Event}

theorem Step.rowChange (hk : w.Keyed) (h : Step g w e w') : RowChange w e w' := by
  refine Event.Effect.rowChange hk h.2 ?_
  rintro id source target rfl
  rcases h.1.2.2 with ⟨rfl, -⟩ | ⟨rfl, -⟩ <;> rfl

theorem Step.keyed (hk : w.Keyed) (h : Step g w e w') : w'.Keyed := (h.rowChange hk).keyed hk

theorem Step.attempts_grow (hk : w.Keyed) (h : Step g w e w') :
    w.rows.map (·.attempt) <+: w'.rows.map (·.attempt) := (h.rowChange hk).attempts_grow hk

end

end OraDesktop.Workflow
