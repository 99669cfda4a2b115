import OraDesktop.Workflow.ParseSound
import OraDesktop.Workflow.RetryChain

/-!
# The marker of a waiting attempt

An attempt that waits for its backoff is a Running row without a start time, and carries
`retry_wait`. The marker is what a wake looks for, so it must go in the transaction that starts or
settles the attempt. Some transactions remove it from the row they write; those that end a whole run
first settle every waiting attempt (`settle_retry_waits`), after which no row is marked
(`Quiescent`) and the later updates have nothing to remove. A control node's row is completed without
looking at the marker, which is right because only agents wait.

`loop_exit::request` does neither: it cancels what is in flight in its round and keeps the payloads.
`ExitsQuietly` excludes an exit over a waiting attempt, and that is all that has to be excluded.

## Main results

* `Step.marks` — one step
* `marker_iff_waiting` — every history without such an exit
* `exit_keeps_marker` — a history with one
-/

namespace OraDesktop.Workflow

open Repository Journal Engine List World WorkflowGraph

/-! ### Marked rows -/

/-- The marker of the row is right, and only an agent's row has one. -/
structure NodeRun.Marked (g : WorkflowGraph) (r : NodeRun) : Prop where
  waits : r.isWaiting = true → r.status = .running ∧ r.startedAt = none ∧ r.nodeType = .agent ∧
    ∃ node, g.executionNode r.nodeId = some node ∧ node.nodeType.runtime = some .async
  unstarted : r.status.isActive = true → r.startedAt = none → r.isWaiting = true

/-- The row has no marker and needs none. -/
structure NodeRun.Unmarked (r : NodeRun) : Prop where
  not_waiting : r.isWaiting = false
  started : r.status.isActive = true → r.startedAt ≠ none

def Marks (g : WorkflowGraph) (w : World) : Prop := ∀ r ∈ w.rows, r.isLive = true → r.Marked g

/-- No live row waits, which is what settling the waits of a run achieves. -/
def Quiescent (w : World) : Prop := ∀ r ∈ w.rows, r.isLive = true → r.Unmarked

section

variable {g : WorkflowGraph} {w w' : World} {p : NodeRun → Bool} {f : NodeRun → NodeRun}

variable {r : NodeRun}

theorem NodeRun.Unmarked.marked (h : r.Unmarked) : r.Marked g where
  waits := fun hw => by
    rw [h.not_waiting] at hw
    cases hw
  unstarted := fun hactive hnone => absurd hnone (h.started hactive)

/-- A row that ends, and did not wait or does not any more. -/
theorem NodeRun.Unmarked.of_ended (hwaits : r.isWaiting = false)
    (hended : r.status.isActive = false) : r.Unmarked where
  not_waiting := hwaits
  started := fun hactive => by
    rw [hended] at hactive
    cases hactive

theorem NodeRun.Marked.unmarked (h : r.Marked g) (hwaits : r.isWaiting = false) : r.Unmarked where
  not_waiting := hwaits
  started := fun hactive hnone => by
    rw [h.unstarted hactive hnone] at hwaits
    cases hwaits

theorem NodeRunToStart.unmarked (start : NodeRunToStart) (now : Int) : (start.toRow now).Unmarked :=
  ⟨rfl, fun _ h => by cases h⟩

theorem Quiescent.marks (h : Quiescent w) : Marks g w := fun r hr hlive => (h r hr hlive).marked

theorem Marks.frame (h : Marks g w) (hrows : w'.rows = w.rows) : Marks g w' := by
  intro r hr
  rw [hrows] at hr
  exact h r hr

theorem Quiescent.frame (h : Quiescent w) (hrows : w'.rows = w.rows) : Quiescent w' := by
  intro r hr
  rw [hrows] at hr
  exact h r hr

/-- A table update; the rows it writes have to be marked right. -/
theorem Marks.map (h : Marks g w) (hrows : w'.rows = w.rows.map fun r => if p r then f r else r)
    (hf : ∀ r ∈ w.rows, p r = true → (f r).isLive = true → (f r).Marked g) : Marks g w' := by
  intro r' hr' hlive
  rw [hrows] at hr'
  obtain ⟨r, hr, rfl⟩ := mem_map.mp hr'
  by_cases hp : p r = true
  · rw [if_pos hp] at hlive ⊢
    exact hf r hr hp hlive
  · rw [if_neg hp] at hlive ⊢
    exact h r hr hlive

/-- Where nothing waits, rows may end with the payload they have. -/
theorem Quiescent.settle (h : Quiescent w)
    (hf : ∀ r, (f r).isWaiting = r.isWaiting ∧ (f r).status.isActive = false)
    (hp : ∀ r, p r = true → r.isLive = true) : Quiescent (w.updateRows p f) := by
  intro r' hr' hlive
  obtain ⟨r, hr, rfl⟩ := (mem_updateRows ..).mp hr'
  by_cases hpr : p r = true
  · rw [if_pos hpr]
    exact .of_ended ((hf r).1.trans (h r hr (hp r hpr)).not_waiting) (hf r).2
  · rw [if_neg hpr] at hlive ⊢
    exact h r hr hlive

/-- `settle_retry_waits` leaves no waiting attempt. -/
theorem Marks.settleRetryWaits (h : Marks g w) (error : Option String) (now : Int) :
    Quiescent (w.settleRetryWaits .cancelled error now) := by
  intro r' hr' hlive
  obtain ⟨r, hr, rfl⟩ := (mem_updateRows ..).mp hr'
  by_cases hp : (r.isLive && r.status == .running && r.isWaiting) = true
  · rw [if_pos hp]
    exact .of_ended rfl rfl
  · rw [if_neg hp] at hlive ⊢
    have hmarked := h r hr hlive
    refine hmarked.unmarked (Bool.eq_false_iff.mpr fun hwaits => hp ?_)
    simp [hlive, hwaits, (hmarked.waits hwaits).1]

variable {now : Int}

theorem Marks.append (h : Marks g w) (starts : List NodeRunToStart)
    (hrows : w'.rows = w.rows ++ starts.map (·.toRow now)) : Marks g w' := by
  intro r hr hlive
  rw [hrows] at hr
  rcases mem_append.mp hr with hold | hnew
  · exact h r hold hlive
  · obtain ⟨start, -, rfl⟩ := mem_map.mp hnew
    exact (start.unmarked now).marked

section

variable (h : Marks g w) (hrows : w'.rows = w.rows.map fun r => if p r then f r else r)

include h hrows

/-- The attempts that may be settled without a look at their payload. -/
theorem Marks.settle (hf : ∀ r, (f r).isWaiting = r.isWaiting ∧ (f r).status.isActive = false)
    (hnot : ∀ r ∈ w.rows, p r = true → r.isWaiting = false) : Marks g w' :=
  h.map hrows fun r hr hp _ => (NodeRun.Unmarked.of_ended ((hf r).1.trans (hnot r hr hp)) (hf r).2).marked

theorem Marks.supersede (hdead : ∀ r, (f r).isLive = false) : Marks g w' := by
  refine h.map hrows fun r _ _ hlive => ?_
  rw [hdead] at hlive
  cases hlive

end

/-! ### Transactions -/

theorem Quiescent.failRoundOf (h : Quiescent w) (row : NodeRun) (error : String) (now : Int) :
    Quiescent (w.failRoundOf row error now) := by
  have hsiblings : Quiescent (w.updateRows
      (fun r => r.isLive && r.scopeId == row.scopeId && r.id != row.id && r.status.isActive)
      fun r => { r with
        status := .cancelled
        error := r.error.or (some siblingFailed)
        finishedAt := r.finishedAt.or (some now) }) := by
    refine h.settle (fun r => ⟨rfl, rfl⟩) fun r hp => ?_
    simp only [Bool.and_eq_true] at hp
    exact hp.1.1.1
  rw [World.failRoundOf]
  split
  · exact hsiblings.frame rfl
  · refine (hsiblings.frame rfl).settle (fun r => ⟨rfl, rfl⟩) fun r hp => ?_
    simp only [Bool.and_eq_true] at hp
    exact hp.1.1

theorem Marks.persistFailedNodeRun (h : Marks g w) (id : String) (failure : NodeFailure) (now : Int) :
    Marks g (w.persistFailedNodeRun id failure now) :=
  h.map rfl fun _ _ _ _ => (NodeRun.Unmarked.of_ended rfl rfl).marked

variable {id : String}

section

variable (h : Marks g w)

include h

/-- A failure removes the marker of the row, and of all others if it reaches the run. -/
theorem Marks.failNode {failure : NodeFailure} {propagation : FailurePropagation}
    (hc : Commits (failNode id failure propagation now) w w') : Marks g w' := by
  obtain ⟨result, hc⟩ := hc
  have hfailed := h.persistFailedNodeRun id failure now
  rw [Repository.failNode] at hc
  split at hc
  · cases hc
  rename_i row hrow
  split at hc
  · cases hc
  cases propagation with
  | composite =>
    cases hc
    exact hfailed.frame rfl
  | run =>
    have hsettled := hfailed.settleRetryWaits (some retryAbandoned) now
    cases hc
    refine Quiescent.marks (Quiescent.frame ?_ (rows_failRunningRun ..))
    refine Quiescent.frame ?_ (rows_rewriteCurrentNodes ..)
    split
    · exact hsettled
    · exact hsettled.failRoundOf row failure.message now

theorem Marks.failInterruptedNodeRuns {ids : List String}
    (hc : Commits (failInterruptedNodeRuns ids now) w w') : Marks g w' := by
  obtain ⟨result, hc⟩ := hc
  cases hc
  exact h.map rfl fun _ _ _ _ => (NodeRun.Unmarked.of_ended rfl rfl).marked

theorem Marks.failOrphanedNodeRuns (hc : Commits (failOrphanedNodeRuns now) w w') : Marks g w' := by
  obtain ⟨result, hc⟩ := hc
  rw [Repository.failOrphanedNodeRuns] at hc
  split at hc
  · cases hc
  · cases hc
    refine .frame ?_ (rows_failRunningRun ..)
    exact h.map rfl fun _ _ _ _ => (NodeRun.Unmarked.of_ended rfl rfl).marked

theorem Marks.cancelRun (hc : Commits (cancelRun now) w w') : Marks g w' := by
  obtain ⟨result, hc⟩ := hc
  rw [Repository.cancelRun] at hc
  split at hc
  · cases hc
  cases hc
  refine Quiescent.marks (.frame (.settle (h.settleRetryWaits none now) ?_ fun r hp => ?_) rfl)
  · exact fun r => ⟨rfl, rfl⟩
  simp only [Bool.and_eq_true] at hp
  exact hp.1

theorem Marks.transition {source target : WorkflowNodeStatus} (hk : w.Keyed)
    (hc : Commits (transitionNodeRunStatus id source target) w w')
    (hactive : source.isActive = true) (hnot : Dispatched w id) : Marks g w' := by
  obtain ⟨row, hrow, hstatus, -, -, hrows⟩ := transitionNodeRunStatus_commits hc
  obtain ⟨hmem, hlive, hid⟩ := findNodeRunById_some hrow
  have hunmarked := (h row hmem hlive).unmarked (hnot row hrow).2
  refine h.map hrows fun r hr hp _ => ?_
  simp only [Bool.and_eq_true, beq_iff_eq] at hp
  obtain rfl := hk.eq_of_id hr hmem (hp.2.trans hid.symm)
  exact NodeRun.Unmarked.marked ⟨hunmarked.not_waiting, fun _ => hunmarked.started (hstatus ▸ hactive)⟩

/-- The failed attempt is superseded, and the one in its place is marked. -/
theorem Marks.scheduleNodeRetry {failure : NodeFailure} {retry : NodeRetryToSchedule}
    (hk : w.Keyed) (hc : Commits (scheduleNodeRetry id failure retry now) w w')
    (hguard : ∃ row, w.findNodeRunById id = some row ∧ Retries g row failure retry) :
    Marks g w' := by
  obtain ⟨row, attempt, deleted, hrow, -, -, -, -, hdeleted, hinserts⟩ :=
    scheduleNodeRetry_commits hk hc
  obtain ⟨row', hrow', hagent, node, policy, hnode, hasync, -⟩ := hguard
  obtain rfl : row = row' := Option.some.inj (hrow.symm.trans hrow')
  have hothers : Marks g deleted := h.supersede hdeleted fun _ => rfl
  rw [Marks, hinserts.rows_eq]
  exact forall_mem_append.mpr ⟨hothers, forall_mem_singleton.mpr fun _ =>
    ⟨fun _ => ⟨rfl, rfl, hagent, node, hnode, hasync⟩, fun _ _ => rfl⟩⟩

/-- The end of a wait removes the marker, whether the attempt starts or is abandoned. -/
theorem Marks.beginNodeRetry (hc : Commits (beginNodeRetry id now) w w') : Marks g w' := by
  obtain ⟨result, hc⟩ := hc
  rw [Repository.beginNodeRetry] at hc
  split at hc
  · cases hc
  split at hc
  · cases hc
  dsimp only at hc
  split at hc
  · cases hc
  split at hc
  · cases hc
    exact h.map rfl fun _ _ _ _ => (NodeRun.Unmarked.of_ended rfl rfl).marked
  · split at hc
    · cases hc
    · cases hc
      exact h.map rfl fun _ _ _ _ => NodeRun.Unmarked.marked ⟨rfl, fun _ hnone => by cases hnone⟩

theorem Marks.failOwnerRow {ownerId error : String}
    (hnot : ∀ r ∈ w.rows, r.nodeId = ownerId → r.isLive = true → r.isWaiting = false) :
    Marks g (w.failOwnerRow ownerId error now) := by
  have howner : Marks g (w.updateRows (isRunningOwnerRow ownerId) fun r => { r with
      status := .failed, error := some error, finishedAt := some now }) := by
    refine h.settle rfl (fun r => ⟨rfl, rfl⟩) fun r hr hp => ?_
    obtain ⟨hlive, hnode, -⟩ := isRunningOwnerRow_iff.mp hp
    exact hnot r hr hnode hlive
  exact ((Marks.settleRetryWaits (howner.frame rfl) (some retryAbandoned) now).marks).frame rfl

theorem Marks.failLoop {round : LoopRound} {parent : NodeRun} {error : String} :
    Marks g (failLoop round parent error now w) := by
  refine Quiescent.marks (.frame ?_ (rows_failRunningRun ..))
  refine .settle (.frame (.settle (h.settleRetryWaits (some retryAbandoned) now) ?_ fun r hp => ?_)
    rfl) (fun r => ⟨rfl, rfl⟩) fun r hp => ?_
  · exact fun r => ⟨rfl, rfl⟩
  · simp only [Bool.and_eq_true] at hp
    exact hp.1.1
  · simp only [Bool.and_eq_true] at hp
    exact hp.1.1

/-- An exit over a round in which nothing waits. -/
theorem Marks.requestLoopExit {round : LoopRound} {nodeRunId : String}
    {result : Except String (Map String Value)}
    (hc : requestLoopExit round nodeRunId result now w = .ok w')
    (hquiet : ∀ r ∈ w.rows, r.isLive = true → r.scopeId = round.id → r.isWaiting = false) :
    Marks g w' := by
  rw [Repository.requestLoopExit] at hc
  split at hc
  · cases hc
    exact h
  dsimp only at hc
  split at hc
  · cases hc
  cases hc
  have hexited : Marks g (w.updateRows (fun r => r.isLive && r.id == nodeRunId &&
      r.scopeId == round.id && r.nodeType == .loopExit && r.status == .running) fun r => { r with
      status := .succeeded, finishedAt := some now }) := by
    refine h.settle rfl (fun r => ⟨rfl, rfl⟩) fun r hr hp => ?_
    simp only [Bool.and_eq_true, beq_iff_eq] at hp
    exact hquiet r hr hp.1.1.1.1 hp.1.1.2
  refine hexited.settle rfl (fun r => ⟨rfl, rfl⟩) fun r hr hp => ?_
  simp only [Bool.and_eq_true, beq_iff_eq] at hp
  obtain ⟨r₀, hr₀, rfl⟩ := (mem_updateRows ..).mp hr
  revert hp
  split
  · exact fun hp => hquiet r₀ hr₀ hp.1.1 hp.1.2
  · exact fun hp => hquiet r₀ hr₀ hp.1.1 hp.1.2

end

/-! ### The rows that do not wait -/

/-- A row of a node that is not run asynchronously. -/
theorem NodeRun.Marked.not_waiting_of_node (h : r.Marked g) {node : WorkflowGraphNode}
    (hnode : g.executionNode r.nodeId = some node) (hkind : node.nodeType.runtime ≠ some .async) :
    r.isWaiting = false := by
  refine Bool.eq_false_iff.mpr fun hwaits => ?_
  obtain ⟨-, -, -, found, hfound, hasync⟩ := h.waits hwaits
  obtain rfl : node = found := Option.some.inj (hnode.symm.trans hfound)
  exact hkind hasync

section

variable [JsonText]

theorem Plans.not_waiting {row : NodeRun} {node : WorkflowGraphNode} {plan : CompositeAdvancePlan}
    (h : Plans g w row node plan) (hm : Marks g w) :
    ∀ r ∈ w.rows, r.nodeId = row.nodeId → r.isLive = true → r.isWaiting = false := by
  intro r hr hnode hlive
  have hfound : g.executionNode r.nodeId = some node := by
    rw [hnode]
    exact executionNode_of_root h.node_eq
  refine (hm r hr hlive).not_waiting_of_node hfound ?_
  rw [h.composite]
  decide

theorem SwiftPass.retains {loaded : World} (h : SwiftPass g loaded w) : loaded.Retains w := by
  induction h with
  | refl => exact .refl loaded
  | complete before hrow answer commits ih => exact ih.trans (completeNode_retains commits)
  | absorb before hrow region commits ih =>
    obtain ⟨-, -, -, -, -, hrows⟩ := failNode_composite_commits commits
    exact ih.trans (.of_map hrows fun r => .ite (.unmark ..))

theorem Guard.control_not_waiting (hg : g.WellFormed) (hk : w.Keyed) (hm : Marks g w)
    {loaded : World} {output : Option String} {structured : Option Value}
    (h : Guard g w (.completeNode (.control loaded) id output structured now)) :
    ∀ r ∈ w.rows, r.isLive = true → r.id = id → r.isWaiting = false := by
  have hcontrol : ∃ row ∈ loaded.rows, row.id = id ∧ loaded.Retains w ∧ ∃ node,
      g.executionNode row.nodeId = some node ∧ node.nodeType.runtime = some .swift := by
    obtain ⟨-, ⟨row, node, text, hpass, hrow, hid, -⟩ |
      ⟨row, body, round, controlRow, node, text, hrow, hretains, hid, -⟩⟩ := h
    · exact ⟨row, (mem_listNodeRunsInScope.mp hrow.row_mem).1, hid, hpass.retains, node,
        executionNode_of_root hrow.node_eq, hrow.swift⟩
    · obtain ⟨config, hopen⟩ := hrow.openRound
      exact ⟨controlRow, (mem_listNodeRunsInScope.mp hrow.row_mem).1, hid, hretains, node,
        hg.executionNode_of_body (mem_of_loopBody hopen.body_eq) hrow.node_eq,
        hrow.swift⟩
  obtain ⟨row, hrow, hid, hretains, node, hnode, hswift⟩ := hcontrol
  intro r hr hlive hrid
  obtain ⟨row', hrow', hsame⟩ := hretains row hrow
  obtain rfl : r = row' := hk.eq_of_id hr hrow' (by rw [hrid, hsame.id_eq, hid])
  refine (hm r hr hlive).not_waiting_of_node (hsame.nodeId_eq ▸ hnode) ?_
  rw [hswift]
  decide

end

def RoundsOfLoops (w : World) : Prop :=
  ∀ round ∈ w.rounds, ∃ r ∈ w.rows, r.id = round.parentLoopNodeRunId ∧ r.nodeType = .loop

theorem RoundsOfLoops.change (h : RoundsOfLoops w) (hrounds : RoundChange w w')
    (hrows : w.rows.map (·.attempt) <+: w'.rows.map (·.attempt)) : RoundsOfLoops w' := by
  have hkept : ∀ r ∈ w.rows, ∃ r' ∈ w'.rows, r'.attempt = r.attempt := fun r hr =>
    mem_map.mp (hrows.subset (mem_map_of_mem hr))
  have hlater : ∀ id, (∃ r ∈ w.rows, r.id = id ∧ r.nodeType = .loop) →
      ∃ r ∈ w'.rows, r.id = id ∧ r.nodeType = .loop := by
    rintro id ⟨r, hr, hid, hloop⟩
    obtain ⟨r', hr', hsame⟩ := hkept r hr
    exact ⟨r', hr', (congrArg (·.id) hsame).trans hid, (congrArg (·.nodeType) hsame).trans hloop⟩
  obtain ⟨news, hkeys, hnews⟩ := hrounds
  intro round hround
  have hmem : round.key ∈ w.rounds.map (·.key) ++ news.map (·.key) :=
    hkeys ▸ mem_map_of_mem hround
  rw [← map_append, mem_map] at hmem
  obtain ⟨old, hold, hkey⟩ := hmem
  rw [← show old.parentLoopNodeRunId = round.parentLoopNodeRunId from congrArg (·.2.1) hkey]
  refine hlater _ ?_
  rcases mem_append.mp hold with hold | hnew
  · exact h old hold
  · exact hnews old hnew

/-! ### Steps -/

/-- No attempt waits in a round whose exit is requested. -/
def ExitsQuietly (w : World) : Event → Prop
  | .advanceLoopRound scopeId (.requestExit _ _) _ =>
      ∀ r ∈ w.rows, r.isLive = true → r.scopeId = scopeId → r.isWaiting = false
  | _ => True

def Event.requestsExit : Event → Bool
  | .advanceLoopRound _ (.requestExit _ _) _ => true
  | _ => false

theorem Event.exitsQuietly {e : Event} (h : e.requestsExit = false) (w : World) :
    ExitsQuietly w e := by
  rw [Event.requestsExit.eq_def] at h
  rw [ExitsQuietly.eq_def]
  split at h
  · cases h
  · trivial

section

variable [JsonText] {e : Event}

/-- An advancing round keeps the markers right if its exit is quiet. -/
theorem Marks.advanceLoopRound {scopeId : String} {advance : LoopRoundAdvance} (h : Marks g w)
    (hk : w.Keyed) (hloops : RoundsOfLoops w)
    (hc : Commits (advanceLoopRound scopeId advance now) w w')
    (hquiet : ExitsQuietly w (.advanceLoopRound scopeId advance now)) : Marks g w' := by
  obtain ⟨round, parent, hround, hparent, -, hinto⟩ := advanceLoopRound_commits hc
  cases advance with
  | requestExit nodeRunId result =>
    refine h.requestLoopExit hinto fun r hr hlive hscope => hquiet r hr hlive (hscope.trans ?_)
    exact (findRound_some hround).2
  | «continue» next =>
    obtain ⟨-, -, -, -, -, -, hinserts, -⟩ := hinto
    exact h.append [next.startNodeRun] hinserts.rows_eq
  | succeed outputs reason =>
    obtain ⟨-, -, -, hrows, -⟩ := hinto
    obtain ⟨hmem, hlive, hid⟩ := findNodeRunById_some hparent
    obtain ⟨owner, howner, hownerId, hloop⟩ := hloops round (findRound_some hround).1
    refine h.settle hrows (fun r => ⟨rfl, rfl⟩) fun r hr hp => ?_
    simp only [Bool.and_eq_true, beq_iff_eq] at hp
    obtain rfl := hk.eq_of_id hr howner (by rw [hp.1.2, hid, hownerId])
    refine Bool.eq_false_iff.mpr fun hwaits => ?_
    have hagent := ((h r hr hp.1.1).waits hwaits).2.2.1
    rw [hloop] at hagent
    cases hagent
  | fail error =>
    obtain ⟨-, -, -, hrows⟩ := hinto
    exact h.failLoop.frame hrows

/-- Every step but an exit over a waiting attempt keeps the markers right. -/
theorem Step.marks (hg : g.WellFormed) (hk : w.Keyed) (hloops : RoundsOfLoops w) (hm : Marks g w)
    (hquiet : ExitsQuietly w e) (h : Step g w e w') : Marks g w' := by
  obtain ⟨hguard, heffect⟩ := h
  cases e with
  | pass | evaluate | dispatch | wake =>
    obtain rfl : w' = w := heffect
    exact hm
  | startRun start now =>
    obtain ⟨-, -, -, hinserts⟩ := startRun_commits heffect
    exact hm.append [start] hinserts.rows_eq
  | startReadyNodes starts now => exact hm.append starts (startReadyNodes_commits heffect).2.2.2.rows_eq
  | completeNode origin id output structured now =>
    obtain ⟨row, recorded, hrow, -, -, -, -, hrows⟩ := completeNode_commits heffect
    refine hm.settle hrows (fun r => ⟨rfl, rfl⟩) fun r hr hp => ?_
    simp only [Bool.and_eq_true, beq_iff_eq] at hp
    cases origin with
    | callback =>
      obtain ⟨hmem, -, hid⟩ := findNodeRunById_some hrow
      obtain rfl := hk.eq_of_id hr hmem (hp.2.trans hid.symm)
      exact (hguard r hrow).2
    | control loaded => exact hguard.control_not_waiting hg hk hm r hr hp.1 hp.2
  | failNode id failure propagation now => exact hm.failNode heffect
  | transition id source target =>
    obtain ⟨hdispatched, -, hturn⟩ := hguard
    refine hm.transition hk heffect ?_ hdispatched
    rcases hturn with ⟨rfl, -⟩ | ⟨rfl, -⟩ <;> rfl
  | startIterationRound ownerId round item starts now =>
    exact hm.append starts (startIterationRound_commits heffect).2.2.rows_eq
  | settleIterationRound ownerId round entry continuation now =>
    obtain ⟨-, payload, hinto⟩ := settleIterationRound_commits heffect
    obtain ⟨row, node, plan, hplan, rfl, -⟩ := hguard
    have howner := hplan.not_waiting hm
    cases continuation with
    | startNextRound next item starts => exact hm.append starts hinto.2.1.rows_eq
    | complete exposed output =>
      refine hm.settle hinto.2.1 (fun r => ⟨rfl, rfl⟩) fun r hr hp => ?_
      obtain ⟨hlive, hnode, -⟩ := isRunningOwnerRow_iff.mp hp
      exact howner r hr hnode hlive
    | fail error => exact (hm.failOwnerRow howner).frame hinto.2.2.2.2.2.2.2
  | completeIterationNode id ownerId exposed output now =>
    obtain ⟨-, -, hrows, -⟩ := completeIterationNode_commits heffect
    obtain ⟨row, node, hplan, -, rfl⟩ := hguard
    refine hm.settle hrows (fun r => ⟨rfl, rfl⟩) fun r hr hp => ?_
    obtain ⟨hlive, hnode, -⟩ := isRunningOwnerRow_iff.mp hp
    exact hplan.not_waiting hm r hr hnode hlive
  | startLoopRound start now =>
    exact hm.append [start.startNodeRun] (startLoopRound_commits heffect).2.2.1.rows_eq
  | startScopeReadyNodes scopeId starts now =>
    exact hm.append starts (startScopeReadyNodes_commits heffect).2.2.2.rows_eq
  | advanceLoopRound scopeId advance now => exact hm.advanceLoopRound hk hloops heffect hquiet
  | scheduleNodeRetry id failure retry now => exact hm.scheduleNodeRetry hk heffect hguard
  | beginNodeRetry id now => exact hm.beginNodeRetry heffect
  | finishRun output now =>
    obtain ⟨-, -, hrows, -⟩ := finishRun_commits heffect
    exact hm.frame hrows
  | cancelRun now => exact hm.cancelRun heffect
  | restartRun newRootScopeId =>
    obtain ⟨-, -, hrows⟩ := restartRun_commits heffect
    exact hm.supersede hrows fun _ => rfl
  | resumeFromFailure cleared =>
    obtain ⟨-, -, hrows, -⟩ := resumeFromFailure_commits heffect
    exact hm.supersede hrows fun _ => rfl
  | updateRunInput input vars =>
    obtain ⟨-, rfl⟩ := updateRunInput_commits heffect
    exact hm.frame rfl
  | failInterruptedNodeRuns ids now => exact hm.failInterruptedNodeRuns heffect
  | failOrphanedNodeRuns now => exact hm.failOrphanedNodeRuns heffect

omit [JsonText] in
/-- A row that still waits after a change is live, or was superseded as it was. -/
theorem RowChange.still_waiting (hk : w.Keyed) (h : RowChange w e w') {r r' : NodeRun}
    (hr : r ∈ w.rows) (hr' : r' ∈ w'.rows) (hid : r'.id = r.id) (hlive : r.isLive = true)
    (hwaits : r'.isWaiting = true) :
    r'.isLive = true ∨ r'.status = r.status ∧ r'.startedAt = r.startedAt := by
  have hk' := h.keyed hk
  rcases h.kinds with ⟨allowed, news, hmoves, -⟩ | ⟨id, failure, retry, now, row, attempt, deleted, -,
    hrow, -, hdeleted, hinserts⟩ | ⟨-, p, hrows⟩
  · obtain ⟨s, hs, hev⟩ := hmoves.evolved hr
    obtain rfl := hk'.eq_of_id hs hr' (hev.id_eq.trans hid.symm)
    exact .inl (hev.isLive_eq ▸ hlive)
  · have hmem : (if r.id == id then supersededRow failure now r else r) ∈ w'.rows := by
      rw [hinserts.rows_eq, hdeleted]
      exact mem_append_left _ (mem_map_of_mem hr)
    split at hmem
    · obtain rfl := hk'.eq_of_id hmem hr' hid.symm
      cases hwaits
    · obtain rfl := hk'.eq_of_id hmem hr' hid.symm
      exact .inl hlive
  · have hmem : (if p r then { r with isDeleted := true } else r) ∈ w'.rows := by
      rw [hrows]
      exact mem_map_of_mem hr
    split at hmem
    · obtain rfl := hk'.eq_of_id hmem hr' hid.symm
      exact .inr ⟨rfl, rfl⟩
    · obtain rfl := hk'.eq_of_id hmem hr' hid.symm
      exact .inl hlive

/-- The invariant of every history without a loud exit. -/
structure Marking (g : WorkflowGraph) (w : World) : Prop where
  keyed : w.Keyed
  roundsOfLoops : RoundsOfLoops w
  marks : Marks g w

omit [JsonText] in
theorem Created.marking (h : Created g w) : Marking g w where
  keyed := h.keyed
  roundsOfLoops := by
    rw [RoundsOfLoops, h.eq.2.1]
    exact forall_mem_nil _
  marks := by
    rw [Marks, h.eq.1]
    exact forall_mem_nil _

theorem Marking.step (hg : g.WellFormed) (hm : Marking g w) (h : Step g w e w' ∧ ExitsQuietly w e) :
    Marking g w' where
  keyed := h.1.keyed hm.keyed
  roundsOfLoops := hm.roundsOfLoops.change (h.1.2.change hm.keyed).rounds
    (h.1.attempts_grow hm.keyed)
  marks := h.1.marks hg hm.keyed hm.roundsOfLoops hm.marks h.2

/-- Where no exit is requested over a waiting attempt, the live rows with `retry_wait` are in every
state the Running ones without a start time, and whatever starts or settles a waiting attempt removes
the marker as it does. -/
theorem marker_iff_waiting [Toposort] {document : Value}
    (hparse : WorkflowGraph.parse document = .ok g) {w₀ : World} {journal : List (Event × World)}
    (hruns : Runs g w₀ journal w) (hquiet : Along ExitsQuietly w₀ journal) :
    (∀ t ∈ w₀ :: journal.map (·.2), ∀ r ∈ t.rows, r.isLive = true →
      (r.isWaiting = true ↔ r.status = .running ∧ r.startedAt = none)) ∧
    ∀ before e t after, journal = before ++ (e, t) :: after →
      ∀ r ∈ (lastState w₀ before).rows, r.isLive = true → r.isWaiting = true →
      ∀ r' ∈ t.rows, r'.id = r.id → ¬(r'.status = .running ∧ r'.startedAt = none) →
        r'.isWaiting = false := by
  have hg := parse_wellFormed hparse
  obtain ⟨hcreated, hpath⟩ := hruns.path
  have hpath := hpath.along hquiet
  have hstep : ∀ s e t, Marking g s → Step g s e t ∧ ExitsQuietly s e → Marking g t :=
    fun _ _ _ hm h => hm.step hg h
  refine ⟨fun t ht r hr hlive => ?_, fun before e t after hjournal r hr hlive hwaits r' hr' hid hnot => ?_⟩
  · have hmarked := (hpath.forall_state hstep hcreated.marking t ht).marks r hr hlive
    exact ⟨fun h => ⟨(hmarked.waits h).1, (hmarked.waits h).2.1⟩,
      fun h => hmarked.unstarted (isActive_of_running h.1) h.2⟩
  · rw [hjournal] at hpath
    obtain ⟨hbefore, hafter⟩ := hpath.of_append
    have hm := hbefore.invariant hstep hcreated.marking
    cases hafter with
    | cons step _ =>
      have hm' := hm.step hg step
      have hmarked := (hm.marks r hr hlive).waits hwaits
      refine Bool.eq_false_iff.mpr fun hwaits' => hnot ?_
      rcases (step.1.rowChange hm.keyed).still_waiting hm.keyed hr hr' hid hlive hwaits' with
        hlive' | ⟨hstatus, hstarted⟩
      · have hmarked' := (hm'.marks r' hr' hlive').waits hwaits'
        exact ⟨hmarked'.1, hmarked'.2.1⟩
      · exact ⟨hstatus.trans hmarked.1, hstarted.trans hmarked.2.1⟩

end

end

/-- A Loop whose body has an agent with retries and, beside it, an agent before an exit. -/
def exitBesideRetry : Value :=
  Document.ofScopes
    [Document.node "start" "start", Document.loop "loop",
      Document.node "entry" "start" [Document.container "loop"],
      retryingAgent [Document.container "loop"],
      Document.node "other" "agent" [Document.container "loop"],
      Document.node "exit" "loopExit" [Document.container "loop"]]
    [Document.edge "start" "loop", Document.edge "entry" "agent", Document.edge "entry" "other",
      Document.edge "other" "exit"]

/-- An attempt waits, and nothing has been settled. -/
theorem marker_iff_waiting_in_loop :
    letI := JsonText.blank
    letI := Toposort.documentOrder
    ∃ g w₀ journal w, parse exitBesideRetry = .ok g ∧ Runs g w₀ journal w ∧
      (w.rows.any fun r => r.isLive && r.isWaiting) = true ∧
      ∀ r ∈ w.rows, r.isLive = true →
        (r.isWaiting = true ↔ r.status = .running ∧ r.startedAt = none) := by
  let := JsonText.blank
  let := Toposort.documentOrder
  have hplay : rehearse exitBesideRetry none
      [⟨.start, .tagged "a", 10⟩, ⟨.failNode "an6" (.new .session "lost"), .tagged "b", 10⟩]
      (fun _ journal w => (w.rows.any fun r => r.isLive && r.isWaiting) &&
        journal.all fun entry => !entry.1.requestsExit) = true := by
    decide +kernel
  obtain ⟨g, w₀, journal, w, hparse, hruns, hcheck⟩ := runs_of_rehearse hplay
  rw [Bool.and_eq_true] at hcheck
  have hquiet : Along ExitsQuietly w₀ journal := along_of_forall fun entry hentry s =>
    Event.exitsQuietly (by simpa using all_eq_true.mp hcheck.2 entry hentry) s
  exact ⟨g, w₀, journal, w, hparse, hruns, hcheck.1,
    (marker_iff_waiting hparse hruns hquiet).1 w hruns.path.2.mem_states⟩

/-- The exit of a round cancels an attempt that waits beside it, and the row stays marked. -/
theorem exit_keeps_marker :
    letI := JsonText.blank
    letI := Toposort.documentOrder
    ∃ g w₀ journal w, parse exitBesideRetry = .ok g ∧ Runs g w₀ journal w ∧
      ∃ r ∈ w.rows, r.isLive = true ∧ r.isWaiting = true ∧ r.status = .cancelled := by
  let := JsonText.blank
  let := Toposort.documentOrder
  have hplay : rehearse exitBesideRetry none
      [⟨.start, .tagged "a", 10⟩, ⟨.failNode "an6" (.new .session "lost"), .tagged "b", 10⟩,
        ⟨.completeNode "an7" none none, .tagged "c", 10⟩]
      (fun _ _ w => w.rows.any fun r => r.isLive && r.isWaiting && r.status == .cancelled) = true := by
    decide +kernel
  obtain ⟨g, w₀, journal, w, hparse, hruns, hcheck⟩ := runs_of_rehearse hplay
  obtain ⟨r, hr, hcancelled⟩ := any_eq_true.mp hcheck
  simp only [Bool.and_eq_true, beq_iff_eq] at hcancelled
  exact ⟨g, w₀, journal, w, hparse, hruns, r, hr, hcancelled.1.1, hcancelled.1.2, hcancelled.2⟩

end OraDesktop.Workflow
