import OraDesktop.Workflow.Step

/-!
# The scheduling loop is a path of steps

Every procedure of the scheduling loop is traced by `Step`: whatever it commits, it commits under
the guard its event promises. The proofs follow the procedures; the states they go through are fixed
by name as soon as something was decided on them.

## Main results

* `Engine.traced_schedulePass` — one scheduling pass
* `Engine.traced_runSchedule` — the loop
-/

namespace OraDesktop.Workflow

open Repository Journal Traced

/-! ### Attempts stay what they are -/

theorem World.Retains.trans {w w' w'' : World} (h : w.Retains w') (h' : w'.Retains w'') :
    w.Retains w'' := by
  intro r hr
  obtain ⟨r', hr', hs⟩ := h r hr
  obtain ⟨r'', hr'', hs'⟩ := h' r' hr'
  exact ⟨r'', hr'', hs.trans hs'⟩

theorem World.Retains.refl (w : World) : w.Retains w := fun r hr => ⟨r, hr, .refl r⟩

theorem World.Retains.of_map {w w' : World} {f : NodeRun → NodeRun} (h : w'.rows = w.rows.map f)
    (hf : ∀ r : NodeRun, r.Same (f r)) : w.Retains w' :=
  fun r hr => ⟨f r, h ▸ List.mem_map_of_mem hr, hf r⟩

/-- A conditional update of rows keeps what identifies them. -/
theorem NodeRun.Same.ite {r r' : NodeRun} {b : Bool} (h : r.Same r') :
    r.Same (if b then r' else r) := by
  cases b
  · exact .refl r
  · exact h

theorem completeNode_retains [JsonText] {w w' : World} {id : String} {output : Option String}
    {structured : Option Value} {now : Int}
    (h : Commits (Repository.completeNode id output structured now) w w') : w.Retains w' := by
  obtain ⟨-, -, -, -, -, -, -, hrows⟩ := completeNode_commits h
  exact .of_map hrows fun r => .ite (.rewrite ..)

/-- Neither the dispatch of a retry nor the reopening of the run. -/
def Event.plain : Event → Bool
  | .wake _ _ _ | .restartRun _ | .resumeFromFailure _ => false
  | _ => true

namespace Engine

variable {starts : List NodeRunToStart}

theorem mem_of_started {w w' : World} {now : Int} (h : Inserts w (starts.map (·.toRow now)) w') :
    ∀ start ∈ starts, ∃ now, start.toRow now ∈ w'.rows :=
  fun _ hstart => ⟨now, h.rows_eq ▸ List.mem_append_right _ (List.mem_map_of_mem hstart)⟩

variable [JsonText] {g : WorkflowGraph} {env : Env}

/-- A step that neither dispatches a retry nor reopens the run. -/
def Plain (g : WorkflowGraph) (w : World) (e : Event) (w' : World) : Prop :=
  Step g w e w' ∧ e.plain = true

/-! ### Rules for the engine's own operations -/

variable {event : Event}

section

variable {ρ : Type} {R : World → Event → World → Prop} {P : World → Prop} {Q : ρ → World → Prop}

structure Records (event : Event) (tx : Transaction ρ) : Prop where
  effect : (event.Effect ·) = Commits tx
  plain : event.plain = true

omit [JsonText] in
theorem traced_transact_of {tx : Transaction ρ}
    (hstep : ∀ w w', P w → Commits tx w w' → R w event w')
    (hcommit : ∀ w result w', P w → tx w = .ok (.commit result w') → Q result w')
    (hrollback : ∀ w result, P w → tx w = .ok (.rollback result) → Q result w) :
    Traced R P (transact event tx) Q := by
  refine .bind .get fun w => .of_eq fun s hs => ?_
  obtain ⟨rfl, hP⟩ := hs
  rcases htx : tx w with e | tx'
  · exact .fail
  cases tx' with
  | rollback result => exact .pure fun s hs => hs ▸ hrollback w result hP htx
  | commit result w' =>
    refine .bind (.commit (Q := fun _ s => s = w') fun s hs => ?_)
      fun _ => .pure fun s hs => hs ▸ hcommit w result w' hP htx
    subst hs
    exact ⟨hstep s w' hP ⟨result, htx⟩, rfl⟩

/-- A transaction is a step when its guard holds wherever it commits. -/
theorem traced_transact {tx : Transaction ρ} (hrecords : Records event tx)
    (hguard : ∀ w, P w → Guard g w event)
    (hcommit : ∀ w result w', P w → tx w = .ok (.commit result w') → Q result w')
    (hrollback : ∀ w result, P w → tx w = .ok (.rollback result) → Q result w) :
    Traced (Plain g) P (transact event tx) Q :=
  traced_transact_of (fun w w' hw h =>
    ⟨⟨hguard w hw, (congrFun₂ hrecords.effect w w').mpr h⟩, hrecords.plain⟩) hcommit hrollback

theorem traced_transact' {tx : Transaction ρ} (hrecords : Records event tx)
    (hguard : ∀ w, P w → Guard g w event) : Safe (Plain g) P (transact event tx) :=
  traced_transact hrecords hguard (fun _ _ _ _ _ => trivial) fun _ _ _ _ => trivial

/-- A transaction that says whether it moved the run. -/
theorem traced_advance {tx : Transaction AdvanceWorkflowRunResult} (hrecords : Records event tx)
    (hdecisive : Decisive tx) (hguard : ∀ w, P w → Guard g w event) :
    Traced (Plain g) P (transact event tx) fun result w' =>
      (result = .advanced ∧ ∃ w, P w ∧ Commits tx w w') ∨ (result ≠ .advanced ∧ P w') := by
  refine traced_transact hrecords hguard (fun w result w' hw htx => ?_) fun w result hw htx => ?_
  · rcases hdecisive w _ htx with ⟨_, heq⟩ | ⟨_, -, heq⟩
    · cases heq
      exact .inl ⟨rfl, w, hw, _, htx⟩
    · cases heq
  · rcases hdecisive w _ htx with ⟨_, heq⟩ | ⟨_, hne, heq⟩
    · cases heq
    · cases heq
      exact .inr ⟨hne, hw⟩

omit [JsonText] in
theorem traced_now : Traced R P (now env) fun _ w => P w :=
  draw.bind fun _ => .pure fun _ h => h

omit [JsonText] in
theorem traced_generateNodeRunId : Traced R P (generateNodeRunId env) fun _ w => P w :=
  draw.bind fun _ => .pure fun _ h => h

omit [JsonText] in
theorem traced_generateScopeId : Traced R P (generateScopeId env) fun _ w => P w :=
  draw.bind fun _ => .pure fun _ h => h

theorem traced_materialize (scopeId : String) (input : WorkflowGraphNode → Option String)
    (iteration : Option Nat) (nodes : List WorkflowGraphNode) :
    Traced (Plain g) P (materialize env scopeId input iteration nodes) fun starts w =>
      P w ∧ Materialized scopeId iteration nodes starts := by
  induction nodes with
  | nil => exact .pure fun _ h => ⟨h, .nil⟩
  | cons node rest ih =>
    refine traced_generateNodeRunId.bind fun id => ih.bind fun starts => .pure fun w h => ?_
    exact ⟨h.1, .cons ⟨rfl, rfl, rfl, rfl⟩ h.2⟩

end

/-- Dispatching rows that were just inserted, each with the pool its scope has now. -/
theorem traced_dispatchStarted (graph : FlatGraph) (pool : Engine WorkflowVariablePool) (w : World)
    (starts : List NodeRunToStart) (hrows : ∀ start ∈ starts, ∃ now, start.toRow now ∈ w.rows)
    (hpool : Traced (Plain g) (fun s => s = w) pool fun p s => s = w ∧
      ∀ start ∈ starts, PoolOf w start.scopeId p) :
    Traced (Plain g) (fun s => s = w) (dispatchStarted graph pool starts) fun _ s => s = w := by
  induction starts with
  | nil => exact .pure fun _ h => h
  | cons start rest ih =>
    have hrest : Traced (Plain g) (fun s => s = w) (dispatchStarted graph pool rest)
        fun _ s => s = w :=
      ih (fun s hs => hrows s (.tail _ hs))
        (hpool.post fun p s h => ⟨h.1, fun st hst => h.2 st (.tail _ hst)⟩)
    rw [dispatchStarted]
    split
    · refine hpool.bind fun p => (note (Q := fun _ s => s = w) fun s hs => ?_).bind
        fun _ => hrest
      obtain ⟨rfl, hp⟩ := hs
      obtain ⟨now, hrow⟩ := hrows start (.head _)
      exact ⟨⟨⟨⟨start.toRow now, hrow, rfl, rfl, rfl, rfl, hp start (.head _)⟩, rfl⟩, rfl⟩, rfl⟩
    · exact hrest

/-! ### Control nodes -/

/-- The swift part of a pass: with nothing completed, the state is the loaded one. -/
theorem traced_completeSwift (loaded : World) (hrun : loaded.run.status = .running) (now : Int)
    (rows : List NodeRun) (hrows : ∀ r ∈ rows, r ∈ loaded.rootRows) (completed : Bool) :
    Traced (Plain g) (fun w => SwiftPass g loaded w ∧ (completed = false → w = loaded))
      (completeSwift g loaded loaded.rootRows now rows completed)
      fun outcome w => outcome = .idle → w = loaded := by
  induction rows generalizing completed with
  | nil =>
    refine .pure fun w hw houtcome => hw.2 ?_
    cases completed
    · rfl
    · simp at houtcome
  | cons row rest ih =>
    have hrest : ∀ r ∈ rest, r ∈ loaded.rootRows := fun r hr => hrows r (.tail _ hr)
    rw [completeSwift]
    split
    · exact ih hrest completed
    rename_i node hnode
    split
    · exact ih hrest completed
    rename_i hswift
    rw [not_or, not_not, not_not] at hswift
    have hrow : SwiftRow g loaded row node :=
      ⟨hrun, hrows row (.head _), hswift.1, hnode, hswift.2⟩
    refine .bind (.note (Q := fun _ w => SwiftPass g loaded w) fun w hw =>
      ⟨⟨⟨.inl ⟨row, node, hw.1, hrow, rfl, rfl⟩, rfl⟩, rfl⟩, hw.1⟩) fun _ => ?_
    split
    · rename_i output hanswer
      refine .bind (traced_transact ⟨rfl, rfl⟩ (Q := fun _ w => SwiftPass g loaded w)
        (fun w hw => ⟨rfl, .inl ⟨row, node, output, hw, hrow, rfl, rfl, hanswer⟩⟩)
        (fun w result w' hw htx => hw.complete hrow hanswer ⟨result, htx⟩)
        fun w _ hw _ => hw) fun _ => ?_
      exact (ih hrest true).pre fun w hw => ⟨hw, fun h => by cases h⟩
    · rename_i message hanswer
      refine .bind (traced_transact ⟨rfl, rfl⟩
        (Q := fun _ w => regionFailurePropagation g.toFlatGraph row.nodeId = .composite →
          SwiftPass g loaded w)
        (fun w hw hregion => .inr ⟨loaded, row, node, hw, hrow, rfl, hregion⟩)
        (fun w result w' hw htx hregion => ?_) fun w _ hw _ _ => hw) fun _ => ?_
      · rw [hregion] at htx
        exact hw.absorb hrow hregion ⟨result, htx⟩
      · split
        · rename_i hregion
          exact (ih hrest true).pre fun w hw => ⟨hw hregion, fun h => by cases h⟩
        · exact .pure fun _ _ h => by cases h

variable {row : NodeRun} {loaded : World} {config : LoopConfig}

theorem traced_completeLoopControls {body : FlatGraph} {round : LoopRound}
    (hopen : OpenRound g loaded row config body round) (now : Int) (rows : List NodeRun)
    (hrows : ∀ r ∈ rows, r ∈ loaded.listNodeRunsInScope round.id) (progressed : Bool) :
    Traced (Plain g) (fun w => loaded.Retains w ∧ (progressed = false → w = loaded))
      (completeLoopControls body loaded round.state (loaded.listNodeRunsInScope round.id) now rows
        progressed)
      fun result w => result = false → w = loaded := by
  induction rows generalizing progressed with
  | nil => exact .pure fun w hw h => hw.2 h
  | cons controlRow rest ih =>
    have hrest : ∀ r ∈ rest, r ∈ loaded.listNodeRunsInScope round.id :=
      fun r hr => hrows r (.tail _ hr)
    rw [completeLoopControls]
    split
    · exact ih hrest progressed
    rename_i node hnode
    split
    · exact ih hrest progressed
    rename_i hswift
    rw [not_or, not_not, not_not] at hswift
    have hcontrol : RoundSwiftRow g loaded row body round controlRow node :=
      ⟨⟨config, hopen⟩, hrows controlRow (.head _), hswift.1, hnode, hswift.2⟩
    refine .bind (.note (Q := fun _ w => loaded.Retains w) fun w hw =>
      ⟨⟨⟨.inr ⟨row, body, round, controlRow, node, hcontrol, rfl, rfl⟩, rfl⟩, rfl⟩, hw.1⟩)
      fun _ => ?_
    split
    · rename_i output hanswer
      refine .bind (traced_transact ⟨rfl, rfl⟩ (Q := fun _ w => loaded.Retains w)
        (fun w hw => ⟨rfl, .inr ⟨row, body, round, controlRow, node, output, hcontrol, hw, rfl,
          rfl⟩⟩)
        (fun w result w' hw htx => hw.trans (completeNode_retains ⟨result, htx⟩))
        fun w _ hw _ => hw) fun _ => ?_
      exact (ih hrest true).pre fun w hw => ⟨hw, fun h => by cases h⟩
    · refine .bind (traced_transact' ⟨rfl, rfl⟩ fun _ _ h => by cases h) fun _ => ?_
      exact .pure fun _ _ h => by cases h

/-! ### Iteration -/

variable {w : World}

/-- Dispatching what a commit inserted, with the pool as it is then. -/
theorem traced_dispatchRefreshed (h : ∀ start ∈ starts, ∃ now, start.toRow now ∈ w.rows) :
    Traced (Plain g) (fun s => s = w) (dispatchRefreshed g starts) fun _ s => s = w := by
  refine traced_dispatchStarted _ _ w starts h (.bind .get fun a => .pure fun s hs => ?_)
  obtain ⟨rfl, rfl⟩ := hs
  exact ⟨rfl, fun _ _ => .inl rfl⟩

/-- A round transaction on a fixed state: unless it commits, the state stays. -/
theorem traced_commitRound {tx : Transaction AdvanceWorkflowRunResult} (hrecords : Records event tx)
    (hdecisive : Decisive tx) (hguard : Guard g loaded event)
    (hstarts : ∀ w', Commits tx loaded w' → ∀ start ∈ starts, ∃ now, start.toRow now ∈ w'.rows) :
    Traced (Plain g) (fun w => w = loaded) (commitRound g event tx starts)
      fun moved w => moved = false → w = loaded := by
  refine .bind (traced_advance hrecords hdecisive fun w hw => hw ▸ hguard) fun result => ?_
  split
  · refine .bind (Q := fun _ _ => True) (.of_eq fun w' hw' => ?_) fun _ =>
      .pure fun _ _ h => by cases h
    obtain ⟨-, w, rfl, hcommits⟩ | ⟨hne, -⟩ := hw'
    · exact (traced_dispatchRefreshed (hstarts w' hcommits)).post fun _ _ _ => trivial
    · exact absurd rfl hne
  · rename_i hne
    exact .pure fun w hw _ => (hw.resolve_left fun h => hne h.1).2

/-- Executing a plan on the state it was made for: without a transition the state stays. -/
theorem traced_executeCompositePlan {node : WorkflowGraphNode} {plan : CompositeAdvancePlan}
    (hplan : Plans g loaded row node plan) (now : Int) :
    Traced (Plain g) (fun w => w = loaded)
      (executeCompositePlan g env loaded row loaded.rootRows plan now)
      fun moved w => moved = false → w = loaded := by
  cases plan with
  | noop => exact .pure fun w hw _ => hw
  | startRound round item nodeIds =>
    refine .bind (traced_materialize _ _ _ _) fun starts => .of_eq fun w hw => ?_
    obtain ⟨rfl, hstarts⟩ := hw
    exact traced_commitRound ⟨rfl, rfl⟩ startIterationRound_decisive
      ⟨row, node, nodeIds, hplan, rfl, hstarts⟩
      fun w' hcommits => mem_of_started (startIterationRound_commits hcommits).2.2
  | startRegionNodes nodeIds =>
    refine .bind (traced_materialize _ _ _ _) fun starts =>
      .bind (traced_transact ⟨rfl, rfl⟩ (Q := fun _ w' => ∃ w, Commits
        (Repository.startReadyNodes starts now) w w') (fun w hw => ?_)
        (fun w result w' _ htx => ⟨w, result, htx⟩) fun w result hw htx => ?_) fun _ => ?_
    · exact hw.1 ▸ ⟨hplan.run_running, .inr ⟨row, node, nodeIds, hplan, hw.2⟩⟩
    · obtain ⟨_, -, heq⟩ := Fallible.bind_eq_ok.mp htx
      cases heq
    · refine .bind (Q := fun _ _ => True) (.of_eq fun w' hw' => ?_) fun _ =>
        .pure fun _ _ h => by cases h
      obtain ⟨w, hcommits⟩ := hw'
      exact (traced_dispatchRefreshed (mem_of_started
        (startReadyNodes_commits hcommits).2.2.2)).post fun _ _ _ => trivial
  | settleRound round entry continuation =>
    cases continuation with
    | startNextRound next item nodeIds =>
      refine .bind (Q := fun c w => w = loaded ∧ ∃ starts,
        c = (.startNextRound next item starts, starts) ∧
          Materialized loaded.rootScopeId (some next) (nodeIds.filterMap g.node) starts)
        (.bind (traced_materialize _ _ _ _) fun starts =>
          .pure fun w hw => ⟨hw.1, starts, rfl, hw.2⟩) fun c => .of_eq fun w hw => ?_
      obtain ⟨rfl, starts, rfl, hstarts⟩ := hw
      refine traced_commitRound ⟨rfl, rfl⟩ settleIterationRound_decisive
        ⟨row, node, _, hplan, rfl, rfl, rfl, hstarts⟩ fun w' hcommits => ?_
      obtain ⟨-, payload, hsettled⟩ := settleIterationRound_commits hcommits
      exact mem_of_started hsettled.2.1
    | complete exposed output =>
      refine .bind (Q := fun c w => w = loaded ∧ c = (.complete exposed output, []))
        (.pure fun w hw => ⟨hw, rfl⟩) fun c => .of_eq fun w hw => ?_
      obtain ⟨rfl, rfl⟩ := hw
      exact traced_commitRound ⟨rfl, rfl⟩ settleIterationRound_decisive
        ⟨row, node, _, hplan, rfl, rfl, rfl⟩ fun _ _ _ h => by cases h
    | fail error =>
      refine .bind (Q := fun c w => w = loaded ∧ c = (.fail error, []))
        (.pure fun w hw => ⟨hw, rfl⟩) fun c => .of_eq fun w hw => ?_
      obtain ⟨rfl, rfl⟩ := hw
      exact traced_commitRound ⟨rfl, rfl⟩ settleIterationRound_decisive
        ⟨row, node, _, hplan, rfl, rfl⟩ fun _ _ _ h => by cases h
  | completeNode exposed output =>
    exact traced_commitRound ⟨rfl, rfl⟩ completeIterationNode_decisive
      ⟨row, node, hplan, rfl, rfl⟩ fun _ _ _ h => by cases h
  | failNode error =>
    exact traced_commitRound ⟨rfl, rfl⟩ failNode_decisive (fun h => by cases h)
      fun _ _ _ h => by cases h

/-! ### Loops -/

variable {P : World → Prop}

theorem traced_failLoopNode (row : NodeRun) (message : String) (now : Int) :
    Traced (Plain g) P (failLoopNode row message now) fun outcome _ => outcome = .progressed :=
  .bind (traced_transact' ⟨rfl, rfl⟩ fun _ _ h => by cases h) fun _ => .pure fun _ _ => rfl

theorem traced_prepareLoopRound (row : NodeRun) (body : FlatGraph) (index : Nat)
    (pool : WorkflowVariablePool) :
    Traced (Plain g) P (prepareLoopRound env row body index pool) fun next w =>
      P w ∧ Prepared row body index pool next := by
  unfold prepareLoopRound
  split
  · exact .fail
  · rename_i start hstart
    refine traced_generateScopeId.bind fun scopeId => traced_generateNodeRunId.bind fun id =>
      .pure fun w hw => ⟨hw, ?_⟩
    exact ⟨rfl, rfl, rfl, rfl, ⟨start, hstart, rfl, rfl⟩, rfl⟩

theorem traced_advanceRound (scopeId : String) (advance : LoopRoundAdvance) (now : Int)
    (hguard : ∀ w, P w → AdvanceGuard g w scopeId advance) :
    Traced (Plain g) P (advanceRound scopeId advance now) fun outcome _ => outcome = .progressed :=
  .bind (traced_transact' ⟨rfl, rfl⟩ hguard) fun _ => .pure fun _ _ => rfl

theorem traced_settleLoopExit (parentId scopeId : String) (result : Except String Unit) :
    Safe (Plain g) P (settleLoopExit env parentId scopeId result) := by
  refine .bind .get fun w => ?_
  split
  · exact .done
  rename_i round hround
  split
  · exact .done
  rename_i hid
  rw [not_not] at hid
  split
  · exact .done
  rename_i exit hexit
  refine traced_now.bind fun now => .bind (traced_transact' ⟨rfl, rfl⟩
    fun s hs => ?_) fun _ => .done
  obtain ⟨rfl, -⟩ := hs
  cases result with
  | error e => exact trivial
  | ok u =>
    rcases hres : exit.result with e | outputs
    · exact trivial
    · exact .inr ⟨parentId, round, exit, hround, hid, hexit, hres, rfl⟩

theorem traced_driveLoopExitCleanup (w : World) (row : NodeRun) (round : LoopRound) :
    Traced (Plain g) (fun s => s = w) (driveLoopExitCleanup env row round) fun outcome s =>
      outcome = .waiting → s = w := by
  refine draw.bind fun n => ?_
  split
  · exact .bind (traced_settleLoopExit _ _ _) fun _ => .pure fun _ _ h => by cases h
  · exact .pure fun s hs _ => hs

theorem traced_startFirstRound {body : FlatGraph} (hloop : LoopRow g w row config body)
    (hround : w.findActiveLoopRound row.id = none) (now : Int) :
    Traced (Plain g) (fun s => s = w)
      (startFirstRound g env config body row w.run.payload.variablePool now)
      fun outcome _ => outcome = .progressed := by
  unfold startFirstRound
  split
  · exact traced_failLoopNode _ _ _
  rename_i carried hcarried
  split
  · exact traced_failLoopNode _ _ _
  rename_i pool hpool
  refine (traced_prepareLoopRound row body 1 pool).bind fun next => .bind
    (traced_transact' ⟨rfl, rfl⟩ fun s hs => ?_) fun _ => .pure fun _ _ => rfl
  obtain ⟨rfl, hnext⟩ := hs
  exact ⟨row, config, body, carried, pool, hloop, hround, hcarried, hpool, hnext⟩

theorem traced_completeLoopRound {body : FlatGraph} {round : LoopRound}
    (hopen : OpenRound g w row config body round)
    (hready : readyLoopNodes (roundProjection w body round) = [])
    (hflight : (roundProjection w body round).hasInFlight = false) (now : Int) :
    Traced (Plain g) (fun s => s = w)
      (completeLoopRound g env config body row round w.run.payload.variablePool now)
      fun outcome _ => outcome = .progressed := by
  unfold completeLoopRound
  split
  · exact traced_advanceRound _ _ _ fun _ _ => trivial
  · rename_i outputs reason hcomplete
    refine traced_advanceRound _ _ _ fun s hs => hs ▸ .inl ?_
    exact ⟨row, config, body, round, hopen, rfl, hflight, hcomplete⟩
  rename_i carried hcomplete
  split
  · exact traced_advanceRound _ _ _ fun _ _ => trivial
  rename_i pool hpool
  refine (traced_prepareLoopRound row body _ pool).bind fun next =>
    traced_advanceRound _ _ _ fun s hs => ?_
  obtain ⟨rfl, hnext⟩ := hs
  exact ⟨row, config, body, round, hopen, rfl, hready, hflight, carried, pool, hcomplete, hpool,
    hnext⟩

/-- One pass over a Loop: it waits only when nothing changed. -/
theorem traced_runLoopSchedule {node : WorkflowGraphNode} (hrun : w.run.status = .running)
    (hmem : row ∈ w.rootRows) (hrunning : row.status = .running)
    (hnode : g.node row.nodeId = some node) (hkind : node.nodeType.runtime = some .scopedLoop)
    (now : Int) :
    Traced (Plain g) (fun s => s = w) (runLoopSchedule g env row w.run.payload.variablePool now)
      fun outcome s => outcome = .waiting → s = w := by
  have hdone : ∀ (outcome : LoopScheduleOutcome) (s : World), outcome = .progressed →
      outcome = .waiting → s = w := fun _ _ h h' => by rw [h] at h'; cases h'
  unfold runLoopSchedule
  split
  · exact (traced_failLoopNode _ _ _).post hdone
  rename_i config body hbody
  have hloop : LoopRow g w row config body := ⟨hrun, hmem, hrunning, ⟨node, hnode, hkind⟩, hbody⟩
  refine .bind .get fun s => .of_eq fun s' hs' => ?_
  obtain ⟨rfl, rfl⟩ := hs'
  split
  · rename_i hround
    exact (traced_startFirstRound hloop hround now).post hdone
  rename_i round hround
  split
  · exact traced_driveLoopExitCleanup _ _ _
  rename_i hexit
  have hopen : OpenRound g s row config body round := by
    refine ⟨hloop, hround, ?_⟩
    rcases hx : round.state.exit with _ | x
    · rfl
    · simp [hx] at hexit
  dsimp only
  split
  · rename_i exitRow hexitRow
    refine (traced_advanceRound _ _ _ fun s' hs' => hs' ▸ ?_).post hdone
    exact ⟨row, config, body, round, hopen, rfl, rfl, exitRow, hexitRow, rfl⟩
  refine .bind ((traced_completeLoopControls hopen now _ (fun _ h => h) false).pre
    fun s' hs' => hs' ▸ ⟨.refl _, fun _ => rfl⟩) fun progressed => ?_
  split
  · exact .pure fun _ _ h => by cases h
  rename_i hidle
  refine .bind .get fun s' => .of_eq fun s'' hs'' => ?_
  obtain ⟨rfl, hsame⟩ := hs''
  obtain rfl := hsame (by simpa using hidle)
  split
  · refine .bind (traced_materialize _ _ _ _) fun starts => .bind
      (traced_transact ⟨rfl, rfl⟩ (Q := fun _ w' => ∃ w, w = s' ∧ Commits
        (Repository.startScopeReadyNodes round.id starts now) w w')
        (fun s hs => ?_) (fun w result w' hw htx => ⟨w, hw.1, result, htx⟩)
        fun w result hw htx => ?_) fun _ => ?_
    · exact hs.1 ▸ ⟨row, config, body, round, hopen, rfl, hs.2⟩
    · unfold Repository.startScopeReadyNodes at htx
      split at htx
      · cases htx
      · obtain ⟨_, -, heq⟩ := Fallible.bind_eq_ok.mp htx
        cases heq
    · refine .bind (Q := fun _ _ => True) (.of_eq fun w' hw' => ?_) fun _ =>
        .pure fun _ _ h => by cases h
      obtain ⟨w, rfl, hcommits⟩ := hw'
      obtain ⟨hscope, -, hrounds, hmoves⟩ := startScopeReadyNodes_commits hcommits
      have hround' : round ∈ w'.rounds := hrounds ▸ List.mem_of_find?_eq_some hround
      refine (traced_dispatchStarted body _ w' starts (mem_of_started hmoves)
        (.pure fun s hs => ⟨hs, fun start hstart => .inr ?_⟩)).post
        fun _ _ _ => trivial
      exact ⟨round, hround', (hscope start hstart).symm, rfl⟩
  · rename_i hready
    split
    · exact .pure fun _ h _ => h
    · rename_i hflight
      refine (traced_completeLoopRound hopen ?_ ?_ now).post hdone
      · simpa [roundProjection] using hready
      · simpa [roundProjection] using hflight

/-! ### The scheduling pass -/

theorem traced_advanceComposites (hrun : loaded.run.status = .running) (now : Int)
    (rows : List NodeRun) (hrows : ∀ r ∈ rows, r ∈ loaded.rootRows) :
    Traced (Plain g) (fun w => w = loaded)
      (advanceComposites g env loaded loaded.rootRows now rows)
      fun moved w => moved = false → w = loaded := by
  induction rows with
  | nil => exact .pure fun w hw _ => hw
  | cons row rest ih =>
    have hrest := ih fun r hr => hrows r (.tail _ hr)
    rw [advanceComposites]
    split
    · exact hrest
    rename_i node hnode
    split
    · exact hrest
    rename_i hrunning
    rw [not_not] at hrunning
    split
    · rename_i hkind
      refine (traced_runLoopSchedule hrun (hrows row (.head _)) hrunning hnode hkind now).bind
        fun outcome => ?_
      cases outcome with
      | progressed => exact .pure fun _ _ h => by cases h
      | waiting => exact hrest.pre fun w hw => hw rfl
    · rename_i hkind
      split
      · refine .bind (traced_transact' ⟨rfl, rfl⟩ fun _ _ h => by cases h) fun _ => ?_
        exact .pure fun _ _ h => by cases h
      rename_i plan hplan
      have hplans : Plans g loaded row node plan :=
        ⟨hrun, hrows row (.head _), hrunning, hnode, hkind, hplan⟩
      refine (traced_executeCompositePlan hplans now).bind fun moved => ?_
      cases moved with
      | false => exact hrest.pre fun w hw => hw rfl
      | true => exact .pure fun _ _ h => by cases h
    · exact hrest

theorem traced_startReadyWave (hrun : w.run.status = .running) (now : Int) :
    Safe (Plain g) (fun s => s = w) (startReadyWave g env w.run.payload.variablePool now) := by
  refine .bind .get fun s => .of_eq fun s' hs' => ?_
  obtain ⟨rfl, rfl⟩ := hs'
  dsimp only
  split
  · rename_i hready
    have hnone : (outerProjection g s).readyNodes = [] := by simpa [outerProjection] using hready
    split
    · rename_i hflight
      refine .bind (traced_transact' ⟨rfl, rfl⟩ fun s' hs' => ?_) fun _ => .done
      subst hs'
      exact ⟨hrun, hnone, by simpa [outerProjection] using hflight, rfl⟩
    · exact .done
  · rename_i hready
    have hsome : (outerProjection g s).readyNodes ≠ [] := by simpa [outerProjection] using hready
    refine .bind (traced_materialize _ _ _ _) fun starts => .bind (traced_transact ⟨rfl, rfl⟩
      (Q := fun _ w' => Commits (Repository.startReadyNodes starts now) s w')
      (fun s' hs' => ?_) (fun w result w' hw htx => hw.1 ▸ ⟨result, htx⟩)
      fun w result hw htx => ?_) fun _ => ?_
    · exact hs'.1 ▸ ⟨hrun, .inl ⟨hsome, hs'.2⟩⟩
    · obtain ⟨_, -, heq⟩ := Fallible.bind_eq_ok.mp htx
      cases heq
    · refine .bind (Q := fun _ _ => True) (.of_eq fun w' hcommits => ?_) fun _ => .done
      obtain ⟨-, hpayload, -, hmoves⟩ := startReadyNodes_commits hcommits
      refine (traced_dispatchStarted _ _ w' starts (mem_of_started hmoves)
        (.pure fun s hs => ⟨hs, fun start hstart => .inl ?_⟩)).post fun _ _ _ => trivial
      rw [hpayload]

theorem traced_schedulePass (now : Int) : Safe (Plain g) P (schedulePass g env now) := by
  refine .bind .get fun loaded => .of_eq fun s hs => ?_
  obtain ⟨rfl, -⟩ := hs
  split
  · exact .done
  rename_i hrun
  rw [not_not] at hrun
  refine .bind (.note (Q := fun _ w => w = loaded) fun w hw => ?_) fun _ => ?_
  · subst hw
    exact ⟨⟨⟨hrun, rfl⟩, rfl⟩, rfl⟩
  · refine .bind ((traced_completeSwift loaded hrun now _ (fun _ h => h) false).pre
      fun w hw => hw ▸ ⟨.refl, fun _ => rfl⟩) fun outcome => ?_
    cases outcome with
    | stop => exact .done
    | completed => exact .done
    | idle =>
      refine .bind ((traced_advanceComposites hrun now _ fun _ h => h).pre fun w hw => hw rfl)
        fun moved => ?_
      cases moved with
      | true => exact .done
      | false => exact (traced_startReadyWave hrun now).pre fun w hw => hw rfl

theorem traced_scheduleLoop (now : Int) (fuel : Nat) :
    Safe (Plain g) P (scheduleLoop g env now fuel) := by
  induction fuel generalizing P with
  | zero => exact .fail
  | succ fuel ih =>
    refine (traced_schedulePass now).bind fun again => ?_
    cases again with
    | true => exact ih
    | false => exact .done

theorem traced_runSchedule (fuel : Nat) : Safe (Plain g) P (runSchedule g env fuel) :=
  traced_now.bind fun now => traced_scheduleLoop now fuel

end Engine

end OraDesktop.Workflow
