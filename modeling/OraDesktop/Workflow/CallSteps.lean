import OraDesktop.Workflow.EngineSteps

/-!
# The engine's calls are paths of steps

The calls a run receives, on top of the scheduling loop. Only the timer's wake hands an attempt to
the executor outside a wave, and only two calls reopen a run; every other call is a path of `Plain`
steps.

## Main results

* `Engine.unwoken_execute` — every call but a wake
* `Engine.unopened_execute` — every call that does not reopen the run
* `Engine.traced_execute` — every call
-/

namespace OraDesktop.Workflow

open Repository Journal

/-- The calls that reopen a run. All others leave a run as it ended. -/
def Op.reopens : Op → Bool
  | .restart _ | .resumeFromFailure => true
  | _ => false

namespace Engine

variable {g : WorkflowGraph} {env : Env}

theorem readOnly_get : ReadOnly (Proc.get : Engine World) := fun _ _ => rfl

theorem errorAtomic_transact {ρ : Type} (event : Event) (tx : Transaction ρ) :
    ErrorAtomic (transact event tx) := by
  refine ErrorAtomic.bind_readOnly readOnly_get fun w => ?_
  rcases tx w with e | t
  · exact fun _ _ _ _ => rfl
  cases t with
  | rollback result => exact .pure
  | commit result w' =>
    intro s n e h
    cases h

theorem errorAtomic_trySchedulingRetry (row : NodeRun) (failure : NodeFailure) (now : Int) :
    ErrorAtomic (trySchedulingRetry g env row failure now) := by
  refine ErrorAtomic.bind_readOnly readOnly_get fun w => ?_
  split
  · exact .pure
  split
  · exact .pure
  split
  · exact .pure
  split
  · exact .pure
  split
  · exact .pure
  · refine ErrorAtomic.bind_readOnly (fun _ _ => rfl) fun id =>
      ErrorAtomic.bind_total (errorAtomic_transact _ _) fun result s n => ?_
    cases result <;> exact ⟨_, rfl⟩

theorem poolOf_of_retryTarget {w : World} {row : NodeRun} {graph : FlatGraph}
    {pool : WorkflowVariablePool} (h : retryTarget g w row = some (graph, pool)) :
    PoolOf w row.scopeId pool := by
  unfold retryTarget at h
  split at h
  · cases h
    exact .inl rfl
  obtain ⟨loopRow, -, hloop⟩ := List.exists_of_findSome?_eq_some h
  split at hloop
  · cases hloop
  obtain ⟨body, -, hbody⟩ := Option.bind_eq_some_iff.mp hloop
  obtain ⟨round, hround, heq⟩ := Option.bind_eq_some_iff.mp hbody
  split at heq
  · rename_i hid
    cases heq
    exact .inr ⟨round, List.mem_of_find?_eq_some hround, hid, rfl⟩
  · cases heq

variable [JsonText]

def Unwoken (g : WorkflowGraph) (w : World) (e : Event) (w' : World) : Prop :=
  Step g w e w' ∧ e.wakes = none

def Unopened (g : WorkflowGraph) (w : World) (e : Event) (w' : World) : Prop :=
  Step g w e w' ∧ e.reopens = false

variable {w w' : World} {e : Event}

theorem Plain.unwoken (h : Plain g w e w') : Unwoken g w e w' := by
  refine ⟨h.1, ?_⟩
  cases e with
  | wake => cases h.2
  | _ => rfl

theorem Plain.unopened (h : Plain g w e w') : Unopened g w e w' := by
  refine ⟨h.1, ?_⟩
  cases e with
  | restartRun | resumeFromFailure => cases h.2
  | _ => rfl

/-! ### Starting, cancelling and reopening a run -/

variable {P : World → Prop}

theorem traced_start (fuel : Nat) : Safe (Plain g) P (start g env fuel) := by
  unfold start
  split
  · exact .fail
  rename_i startNode hstart
  refine Traced.get.bind fun w => .of_eq fun s hs => ?_
  obtain ⟨rfl, -⟩ := hs
  split
  · exact .fail
  rename_i hvalid
  refine traced_generateNodeRunId.bind fun id => traced_now.bind fun now =>
    .bind (traced_transact' ⟨rfl, rfl⟩ fun s hs => ?_) fun result => ?_
  · subst hs
    exact ⟨startNode, hstart, hvalid, .cons ⟨rfl, rfl, rfl, rfl⟩ .nil⟩
  · cases result with
    | started => exact traced_runSchedule fuel
    | current => exact .done

theorem traced_cancel : Safe (Plain g) P (cancel env) :=
  traced_now.bind fun _ => .bind (traced_transact' ⟨rfl, rfl⟩ fun _ _ => trivial) fun _ => .done

theorem traced_resumeFromFailure (fuel : Nat) :
    Safe (Unwoken g) P (resumeFromFailure g env fuel) := by
  refine Traced.get.bind fun w => .of_eq fun s hs => ?_
  obtain ⟨rfl, -⟩ := hs
  split
  · exact .done
  dsimp only
  split
  · exact .done
  refine .bind (traced_transact_of (Q := fun _ _ => True) (fun s w' hs h => ⟨⟨?_, h⟩, rfl⟩)
    (fun _ _ _ _ _ => trivial) fun _ _ _ _ => trivial) fun result => ?_
  · subst hs
    rfl
  · cases result with
    | resumed => exact (traced_runSchedule fuel).mono fun _ _ _ => Plain.unwoken
    | notResumable => exact .done

theorem traced_restart (newRootScopeId : String) (fuel : Nat) :
    Safe (Unwoken g) P (restart g env newRootScopeId fuel) := by
  refine .bind (traced_transact_of (Q := fun _ _ => True) (fun _ _ _ h => ⟨⟨trivial, h⟩, rfl⟩)
    (fun _ _ _ _ _ => trivial) fun _ _ _ _ => trivial) fun result => ?_
  cases result with
  | restarted => exact (traced_start fuel).mono fun _ _ _ => Plain.unwoken
  | notRestartable => exact .done

/-! ### What the executor reports -/

theorem traced_completeNode (id : String) (output : Option String) (structured : Option Value)
    (fuel : Nat) :
    Safe (Plain g) (Dispatched · id) (completeNode g env id output structured fuel) := by
  refine traced_now.bind fun now => .bind (traced_transact' ⟨rfl, rfl⟩ fun _ h => h)
    fun result => ?_
  cases result with
  | advanced => exact traced_runSchedule fuel
  | notRunning => exact .done
  | notFound => exact .done

/-- Deciding a retry: a failure that is not dealt with left the state as it was. -/
theorem traced_trySchedulingRetry {w : World} {row : NodeRun} {id : String}
    (hrow : w.findNodeRunById id = some row) (failure : NodeFailure) (now : Int)
    (hagent : failure.kind.autoRetry = true → row.nodeType = .agent) :
    Traced (Plain g) (fun s => s = w) (trySchedulingRetry g env row failure now)
      fun dealt s => dealt = false → s = w := by
  have hid := (World.findNodeRunById_some hrow).2.2
  refine Traced.get.bind fun s => .of_eq fun s' hs' => ?_
  obtain ⟨rfl, rfl⟩ := hs'
  split
  · exact .pure fun _ h _ => h
  split
  · exact .pure fun _ h _ => h
  rename_i node hnode
  split
  · exact .pure fun _ h _ => h
  rename_i hasync
  rw [not_not] at hasync
  split
  · exact .pure fun _ h _ => h
  rename_i policy hpolicy
  split
  · exact .pure fun _ h _ => h
  rename_i retry hretry
  refine traced_generateNodeRunId.bind fun newId => .bind (traced_transact ⟨rfl, rfl⟩
    (Q := fun result w' => result = .runNotActive → w' = s)
    (fun s' hs' => ?_) (fun w result w' hw htx hresult => ?_) fun w _ hw _ _ => hw)
    fun result => ?_
  · subst hs'
    refine ⟨row, hid ▸ hrow, hagent ?_, node, policy, hnode, hasync, hpolicy, hretry, rfl⟩
    rw [AgentRetryPolicy.nextRetry] at hretry
    split at hretry
    · rename_i hcond
      simp only [Bool.and_eq_true] at hcond
      exact hcond.1.2
    · cases hretry
  · -- a commit reports a scheduled retry
    subst hresult
    unfold Repository.scheduleNodeRetry at htx
    split at htx
    · cases htx
    split at htx
    · cases htx
    · split at htx
      · cases htx
      · obtain ⟨_, -, heq⟩ := Fallible.bind_eq_ok.mp htx
        cases heq
  · cases result with
    | runNotActive => exact .pure fun _ h _ => h rfl
    | _ => exact .pure fun _ _ h => by cases h

theorem traced_failNode (id : String) (failure : NodeFailure) (fuel : Nat)
    (hagent : failure.kind.autoRetry = true → ∀ w, P w → Dispatched w id) :
    Safe (Plain g) P (failNode g env id failure fuel) := by
  refine Traced.get.bind fun w => .of_eq fun s hs => ?_
  obtain ⟨rfl, hP⟩ := hs
  split
  · exact .done
  rename_i row hrow
  refine traced_now.bind fun now => .bind ((traced_trySchedulingRetry hrow failure now
    fun hkind => (hagent hkind w hP row hrow).1).recover fun s n hs herr _ => ?_) fun dealt => ?_
  · obtain ⟨e, he⟩ := herr
    rw [errorAtomic_trySchedulingRetry row failure now s n e he, hs]
  · cases dealt with
    | true => exact .done
    | false =>
      refine .bind (traced_transact' ⟨rfl, rfl⟩ fun s hs hcomposite => ?_)
        fun result => ?_
      · obtain rfl := hs rfl
        unfold failurePropagation at hcomposite
        split at hcomposite
        · cases hcomposite
        rename_i hiteration
        refine .inl ⟨row, hrow, ?_, hcomposite⟩
        rcases hi : row.iteration with _ | i
        · simp [hi] at hiteration
        · rfl
      · cases result with
        | advanced =>
          dsimp only
          split
          · exact traced_runSchedule fuel
          · exact .done
        | notRunning => exact .done
        | notFound => exact .done

theorem traced_callback {id : String} {m : Engine Unit} (h : Safe (Plain g) (Dispatched · id) m) :
    Safe (Plain g) P (callback id m) := by
  refine Traced.get.bind fun w => ?_
  split
  · rename_i hagent
    refine h.pre fun s hs row hrow => ?_
    obtain ⟨rfl, -⟩ := hs
    simpa [hrow] using hagent
  · exact .done

theorem traced_humanTurn {id : String} {source target : WorkflowNodeStatus}
    (h : (source = .running ∧ target = .pending) ∨ (source = .pending ∧ target = .running)) :
    Safe (Plain g) (Dispatched · id) (humanTurn g id source target) := by
  refine Traced.get.bind fun w => ?_
  split
  · rename_i hinteractive
    refine .bind (traced_transact' ⟨rfl, rfl⟩ fun s hs => ?_) fun _ => .done
    obtain ⟨rfl, hdispatched⟩ := hs
    exact ⟨hdispatched, fun row hrow => by simpa [hrow] using hinteractive, h⟩
  · exact .done

/-! ### Sweeping and waking -/

theorem traced_sweepOneRun : Safe (Plain g) P (sweepOneRun g env) := by
  refine Traced.get.bind fun w => .of_eq fun s hs => ?_
  obtain ⟨rfl, -⟩ := hs
  split
  · exact .done
  rename_i hstatus
  have hrecoverable : w.run.status = .running ∨ w.run.status = .failed := by
    rwa [not_and_or, not_not, not_not] at hstatus
  refine traced_now.bind fun now => ?_
  rcases hdecision : decideSweep g w with _ | ids | _
  · exact .done
  · exact traced_transact' ⟨rfl, rfl⟩ fun s hs => hs ▸ ⟨hrecoverable, hdecision⟩
  · exact traced_transact' ⟨rfl, rfl⟩ fun s hs => hs ▸ hrecoverable

/-- Waking an attempt begins it and then hands it to the executor. -/
theorem traced_wakeRetry (id : String) (fuel : Nat) :
    Safe (Unopened g) P (wakeRetry g env id fuel) := by
  refine traced_now.bind fun now => .bind (.mono (fun _ _ _ => Plain.unopened)
    (traced_transact ⟨rfl, rfl⟩ (Q := fun result w' => ∀ row, result = .started row →
      ∃ r ∈ w'.rows, r.isLive = true ∧ row.Same r) (fun _ _ => trivial)
    (fun w result w' _ htx row hresult => mem_of_beginNodeRetry (hresult ▸ htx))
    fun w result _ htx row hresult => absurd (hresult ▸ htx) beginNodeRetry_ne_rollback))
    fun result => ?_
  cases result with
  | started row =>
    refine Traced.get.bind fun w => ?_
    have hfail : ∀ {P : World → Prop}, Safe (Unopened g) P
        (failNode g env row.id (.new .invalidRunPayload
          ("retry of node " ++ row.nodeId ++ " has no executable target in its scope")) fuel) :=
      (traced_failNode _ _ _ nofun).mono fun _ _ _ => Plain.unopened
    split
    · rename_i node pool htarget
      split
      · refine .bind (.note (Q := fun _ _ => True) fun s hs => ?_) fun _ => .done
        obtain ⟨rfl, hrow⟩ := hs
        obtain ⟨r, hr, hlive, hsame⟩ := hrow row rfl
        obtain ⟨target, ht, hnode⟩ := Option.bind_eq_some_iff.mp htarget
        obtain ⟨node', -, heq⟩ := Option.map_eq_some_iff.mp hnode
        cases heq
        refine ⟨⟨⟨⟨r, hr, hlive, hsame.id_eq, hsame.nodeId_eq, ?_⟩, rfl⟩, rfl⟩, trivial⟩
        rw [hsame.scopeId_eq]
        exact poolOf_of_retryTarget ht
      · exact hfail
    · exact hfail
  | _ => exact .done

theorem plain_execute (call : Call) (hwake : ∀ id, call.op ≠ .wakeRetry id)
    (hopen : call.op.reopens = false) : Safe (Plain g) (fun _ => True) (execute g call) := by
  obtain ⟨op, env, fuel⟩ := call
  cases op with
  | start => exact traced_start _
  | cancel => exact traced_cancel
  | restart | resumeFromFailure => cases hopen
  | updateRunInput => exact .bind (traced_transact' ⟨rfl, rfl⟩ fun _ _ => trivial) fun _ => .done
  | completeNode => exact traced_callback (traced_completeNode _ _ _ _)
  | failNode => exact traced_callback (traced_failNode _ _ _ fun _ _ h => h)
  | wakeRetry id => exact absurd rfl (hwake id)
  | finishLoopExit => exact (traced_settleLoopExit _ _ _).bind fun _ => traced_runSchedule _
  | park => exact traced_callback (traced_humanTurn (.inl ⟨rfl, rfl⟩))
  | beginHumanTurn => exact traced_callback (traced_humanTurn (.inr ⟨rfl, rfl⟩))
  | resume => exact traced_runSchedule _
  | bootSweep => exact traced_sweepOneRun

theorem unwoken_execute (call : Call) (hwake : ∀ id, call.op ≠ .wakeRetry id) :
    Safe (Unwoken g) (fun _ => True) (execute g call) := by
  by_cases hopen : call.op.reopens = false
  · exact (plain_execute call hwake hopen).mono fun _ _ _ => Plain.unwoken
  obtain ⟨op, env, fuel⟩ := call
  cases op with
  | restart => exact traced_restart _ _
  | resumeFromFailure => exact traced_resumeFromFailure _
  | _ => exact absurd rfl hopen

/-- Only a restart and a resume reopen the run. -/
theorem unopened_execute (call : Call) (hopen : call.op.reopens = false) :
    Safe (Unopened g) (fun _ => True) (execute g call) := by
  by_cases hwake : ∃ id, call.op = .wakeRetry id
  · obtain ⟨id, hid⟩ := hwake
    rw [execute, hid]
    exact traced_wakeRetry id _
  · exact (plain_execute call (not_exists.mp hwake) hopen).mono fun _ _ _ => Plain.unopened

theorem traced_execute (call : Call) : Safe (Step g) (fun _ => True) (execute g call) := by
  by_cases hwake : ∃ id, call.op = .wakeRetry id
  · obtain ⟨id, hid⟩ := hwake
    exact (unopened_execute call (by rw [hid]; rfl)).mono fun _ _ _ h => h.1
  · exact (unwoken_execute call (not_exists.mp hwake)).mono fun _ _ _ h => h.1

/-- Whatever a call of the engine does, it does by the steps of the abstract machine, one for each
entry of its journal, so invariants of the steps hold throughout it. -/
theorem execute_is_path (call : Call) (w : World) (n : Nat) :
    Path (Step g) w (execute g call w n).journal (execute g call w n).state :=
  (traced_execute call w n trivial).1

end Engine

end OraDesktop.Workflow
