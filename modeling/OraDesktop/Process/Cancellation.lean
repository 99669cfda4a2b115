import OraDesktop.Process.HostInvariant

/-!
# Recorded cancellations

A host that asks to stop a Run the guardian does not know records the Run as cancelled. The
guardian keeps nothing of such a stop, so the record is final only if no start of the Run under the
same binding is still waiting in the guardian: a start whose client gave up may be executed after
the stop that overtook it, and the Run is spawned although the host has recorded that it never will
be.

## Main results

* `invariant_apply` — every ordered action keeps the invariant
* `cancellation_final_of_ordered` — in an ordered run every recorded cancellation is final
-/

namespace OraDesktop.Process

open Guardian List Worker

namespace System

variable {system : System} {frame : Frame} {action : Action} {run : RunId} {guardian : Guardian}
  {world : GuardianWorld} {call : Call}

/-! ### Guardian calls -/

theorem queuedStart_of_call (hcall : system.call action = some (world, call))
    (hstart : StartOf guardian run call) : system.QueuedStart run guardian.store.host := by
  obtain ⟨channel, request, spec, rfl, hoperation, hhost⟩ := hstart
  cases action with
  | execute ticket world =>
    rw [System.call, Option.map_eq_some_iff] at hcall
    obtain ⟨call, hrequest, heq⟩ := hcall
    cases heq
    exact ⟨ticket, channel, request, spec, mem_queue_of_request hrequest, hoperation, hhost⟩
  | _ => cases hcall

theorem served_call (frame : Frame) (h : Invariant system)
    (hguardian : system.guardian = some guardian) (action : Action) (world : GuardianWorld) (call : Call) :
    Served system guardian call (serve frame world call guardian 0).journal
      (serve frame world call guardian 0).state
      (system.afterCall action (serve frame world call guardian 0)) := by
  refine ⟨(callEnds_serve (h.guardian guardian hguardian).2 call).1, hguardian, ?_, ?_, ?_, ?_,
    fun item hitem => ?_, ?_⟩
  case refine_5 =>
    cases action with
    | execute ticket world => exact mem_of_mem_filter hitem
    | _ => exact hitem
  all_goals cases action <;> rfl

section Call

variable (h : Invariant system) (hguardian : system.guardian = some guardian)
  (hcall : system.call action = some (world, call))
include h hguardian hcall

theorem evolves_call : Evolves system (system.afterCall action (serve frame world call guardian 0)) :=
  (served_call frame h hguardian action world call).evolves fun _ => queuedStart_of_call hcall

theorem invariant_call (hordered : system.overtakes action = false) :
    Invariant (system.afterCall action (serve frame world call guardian 0)) := by
  have hnone : ∀ channel request run, call = .run channel request →
      request.operation = .stop run → guardian.store.rows[run]? = none →
        ¬system.QueuedStart run request.session.host := by
    rintro channel ⟨session, operation⟩ run rfl rfl hunknown
      ⟨ticket, channel', ⟨session', operation'⟩, spec, hitem, rfl, hhost⟩
    rw [overtakes, hcall] at hordered
    simp only [stopTarget, Option.any_some, hguardian, hunknown, Option.isNone_none, Bool.true_and,
      List.any_eq_false, decide_eq_true_eq] at hordered
    refine hordered _ hitem ?_
    rw [startTarget, hhost]
  have hs := served_call frame h hguardian action world call
  have he : Evolves system (system.afterCall action (serve frame world call guardian 0)) :=
    evolves_call h hguardian hcall
  have hkept : ∀ reply, system.inbox = some reply →
      WorkerOk (system.afterCall action (serve frame world call guardian 0))
        (system.worker.receive system.host.intent reply) := fun reply hreply =>
    (h.inbox reply hreply).evolves he (by rw [hs.host]) (by rw [hs.host])
  refine hs.invariant h he (fun reply hreply => ?_) fun hrequest => ?_
  · rw [hs.worker]
    cases action with
    | execute ticket world' =>
      rw [System.call, Option.map_eq_some_iff] at hcall
      obtain ⟨call', hrequest, heq⟩ := hcall
      cases heq
      have hitem := mem_queue_of_request hrequest
      rw [afterCall] at hreply
      split at hreply
      · rename_i hawaiting
        refine hs.received h he hitem ((h.awaited ticket hawaiting).2 call hitem)
          ((callEnds_serve (h.guardian guardian hguardian).2 call).2 reply ?_) hnone
        cases hresult : (serve frame world call guardian 0).result with
        | error e => cases e
        | ok value =>
          rw [hresult] at hreply
          cases hreply
          rfl
      · exact hkept reply hreply
    | reconcile world => exact hkept reply hreply
    | _ => cases hcall
  · rw [hs.worker] at hrequest
    obtain ⟨hawaiting, hinbox⟩ := h.resting hrequest
    cases action with
    | execute ticket world =>
      rw [afterCall, hawaiting]
      exact hinbox
    | _ => exact hinbox

end Call

/-! ### Responsibilities -/

theorem recordRunIntent_ok {state host : HostState} {spec : RunSpec}
    (h : state.recordRunIntent run spec = .ok host) :
    host = state ∨ state.closeRequested = false ∧
      host = { state with intents := state.intents.insert run spec } := by
  rw [HostState.recordRunIntent] at h
  split at h
  · split at h
    · cases h
    · cases h
      exact .inl rfl
  · split at h
    · cases h
    · rename_i hopen
      cases h
      exact .inr ⟨by simpa using hopen, rfl⟩

theorem requestRunStop_ok {state host : HostState} (h : state.requestRunStop run = .ok host) :
    ∃ stops, host = { state with stops := stops } ∧ ∀ other ∈ state.stops, other ∈ stops := by
  rw [HostState.requestRunStop] at h
  split at h
  · cases h
    refine ⟨_, rfl, fun other hother => ?_⟩
    split
    · exact hother
    · exact mem_append_left _ hother
  · cases h

theorem runStopRequested_mono {state host : HostState}
    (hclose : state.closeRequested = true → host.closeRequested = true)
    (hstops : ∀ other ∈ state.stops, other ∈ host.stops) (run : RunId)
    (h : state.runStopRequested run = true) : host.runStopRequested run = true := by
  rw [HostState.runStopRequested, Bool.or_eq_true, decide_eq_true_eq] at h ⊢
  exact h.imp hclose (hstops run)

/-! ### A pass begins -/

theorem entries_begin (host : HostState) : ∀ entry ∈ (Worker.begin (prepared host)).entries,
    entry.stop = host.runStopRequested entry.run := by
  intro entry hentry
  rw [begin] at hentry
  split at hentry
  · obtain ⟨item, _, rfl⟩ := mem_map.mp hentry
    rfl
  · split at hentry <;> cases hentry

theorem nodup_prepared (host : HostState) : ((prepared host).runs.map (·.run)).Nodup := by
  have hkeys : (prepared host).runs.map (·.run) = host.intents.toList.map (·.1) := by
    rw [prepared, map_map]
    rfl
  rw [hkeys, List.Nodup, pairwise_map]
  refine Std.ExtTreeMap.distinct_keys_toList.imp fun hne heq => hne ?_
  exact Std.LawfulEqCmp.compare_eq_iff_eq.mpr heq

theorem workerOk_begin (h : Invariant system) :
    WorkerOk system (.begin (prepared system.host)) := by
  rw [begin]
  split
  · refine ⟨nodup_prepared system.host, fun entry hentry hstop => ?_, nofun, forall_mem_nil _,
      nofun⟩
    obtain ⟨item, _, rfl⟩ := mem_map.mp hentry
    exact hstop
  · rename_i haccess
    split
    · rename_i hclose
      -- The Scope closes before its guardian was ever launched.
      have hunlaunched : Unlaunched system := ⟨hclose, by simpa [prepared] using haccess⟩
      refine ⟨?_, forall_mem_nil _, nofun, fun snapshot hsnapshot => ?_, fun state hstate => ?_⟩
      · simpa [observation, entries, cancelled, Function.comp_def] using
          nodup_prepared system.host
      · obtain ⟨entry, _, rfl⟩ := mem_map.mp hsnapshot
        refine ⟨accounted_cancelled (.inr hunlaunched), agrees_cancelled (fun guardian hguardian => ?_)
          fun recorded => h.runs entry.run recorded⟩
        exact absurd hunlaunched (h.not_unlaunched hguardian)
      · cases hstate
        exact ⟨fun _ => .inr hunlaunched, fun _ => rfl⟩
    · exact .empty rfl rfl rfl

/-! ### A pass is saved -/

variable {snapshot : RunSnapshot}

/-- A fact that is saved replaces what was known of its Run and touches nothing else. -/
theorem observeRun_ok {state host : HostState} (h : state.observeRun snapshot = .ok host) :
    ∃ merged, host = { state with runs := state.runs.insert snapshot.id merged } ∧
      merged.id = snapshot.id ∧ merged.direct = snapshot.direct ∧
      merged.cleanup = snapshot.cleanup := by
  rw [HostState.observeRun] at h
  split at h
  · cases h
  · cases h
    refine ⟨_, rfl, ?_⟩
    split <;> exact ⟨rfl, rfl, rfl⟩

variable {scope : Option ScopeState} {rest : List RunSnapshot}

theorem saveNext_ok {host : HostState} (h : system.host.observeRun snapshot = .ok host) :
    system.saveNext ⟨scope, snapshot :: rest⟩ =
      { system with host := host, worker := .finished ⟨scope, rest⟩ } := by
  rw [saveNext.eq_def]
  simp only [h]

theorem saveNext_error {e : HostError} (h : system.host.observeRun snapshot = .error e) :
    system.saveNext ⟨scope, snapshot :: rest⟩ =
      { system with worker := .finished ⟨scope, rest⟩ } := by
  rw [saveNext.eq_def]
  simp only [h]

theorem evolves_saveNext (observation : Observation) :
    Evolves system (system.saveNext observation) := by
  obtain ⟨scope, runs⟩ := observation
  cases runs with
  | nil => cases scope <;> exact .pass rfl (fun _ => rfl) rfl rfl
  | cons snapshot rest =>
    cases hsave : system.host.observeRun snapshot with
    | ok host =>
      rw [saveNext_ok hsave]
      obtain ⟨merged, rfl, _⟩ := observeRun_ok hsave
      exact .pass rfl (fun _ => rfl) rfl rfl
    | error e =>
      rw [saveNext_error hsave]
      exact .pass rfl (fun _ => rfl) rfl rfl

/-- What is left to save once the fact about the first Run is saved. -/
theorem WorkerOk.tail (hok : WorkerOk system (.finished ⟨scope, snapshot :: rest⟩))
    {after : System} (he : Evolves system after) (hscope : after.host.scope = system.host.scope)
    (hruns : ∀ run : RunId, run ≠ snapshot.id → after.host.runs[run]? = system.host.runs[run]?) :
    WorkerOk after (.finished ⟨scope, rest⟩) := by
  have hnodup : (snapshot.id :: rest.map (·.id)).Nodup := by
    simpa [observation, entries] using hok.nodup
  rw [nodup_cons] at hnodup
  refine ⟨?_, forall_mem_nil _, ?_, fun other hother => ?_, fun state hstate => ?_⟩
  · simpa [observation, entries] using hnodup.2
  · rintro _ ⟨⟩
  · obtain ⟨haccounted, hagrees⟩ := hok.runs other (mem_cons_of_mem _ hother)
    refine ⟨haccounted.evolves he, ?_⟩
    have hne : other.id ≠ snapshot.id := fun heq => hnodup.1 (heq ▸ mem_map_of_mem hother)
    rw [Agrees, hruns other.id hne]
    exact hagrees
  · obtain ⟨hclosed, hkept⟩ := hok.scope state hstate
    refine ⟨fun h => (hclosed h).evolves he, ?_⟩
    rw [hscope]
    exact hkept

theorem invariant_saveNext (h : Invariant system) {observation : Observation}
    (hworker : system.worker = .finished observation) : Invariant (system.saveNext observation) := by
  have he : Evolves system (system.saveNext observation) := evolves_saveNext observation
  have hok := h.worker
  obtain ⟨hawaiting, hinbox⟩ := h.resting (by rw [hworker]; rfl)
  rw [hworker] at hok
  have hkept : ∀ (run : RunId) snapshot, system.host.runs[run]? = some snapshot →
      snapshot.id = run ∧ Accounted (system.saveNext observation) snapshot :=
    fun run snapshot hrun => (h.runs run snapshot hrun).imp id (·.evolves he)
  obtain ⟨scope, runs⟩ := observation
  cases runs with
  | nil =>
    rw [saveNext] at he hkept ⊢
    cases scope with
    | none =>
      exact h.rest he rfl rfl rfl rfl hawaiting hinbox (.empty rfl rfl rfl) hkept fun hclosed =>
        (h.scope hclosed).evolves he
    | some state =>
      exact h.rest he rfl rfl rfl rfl hawaiting hinbox (.empty rfl rfl rfl) hkept fun hclosed =>
        ((hok.scope state rfl).1 hclosed).evolves he
  | cons snapshot rest =>
    cases hsave : system.host.observeRun snapshot with
    | error e =>
      rw [saveNext_error hsave] at he hkept ⊢
      exact h.rest he rfl rfl rfl rfl hawaiting hinbox (hok.tail he rfl fun _ _ => rfl) hkept
        fun hclosed => (h.scope hclosed).evolves he
    | ok host =>
      rw [saveNext_ok hsave] at he hkept ⊢
      obtain ⟨merged, rfl, hid, hdirect, hcleanup⟩ := observeRun_ok hsave
      refine h.rest he rfl rfl rfl rfl hawaiting hinbox (hok.tail he rfl fun run hne => ?_)
        (fun run recorded hrun => ?_) fun hclosed => (h.scope hclosed).evolves he
      · exact (Map.getElem?_insert ..).trans (if_neg (Ne.symm hne))
      · rw [show ({ system.host with runs := system.host.runs.insert snapshot.id merged } :
          HostState).runs = system.host.runs.insert snapshot.id merged from rfl,
          Map.getElem?_insert] at hrun
        split at hrun
        · rename_i heq
          cases hrun
          refine ⟨hid.trans heq, ?_⟩
          exact ((hok.runs snapshot mem_cons_self).1.congr hid hdirect hcleanup).evolves he
        · exact hkept run recorded hrun

/-! ### Every action -/

theorem Evolves.trans {first second third : System} (h : Evolves first second)
    (h' : Evolves second third) (hworker : second.worker.entries = [])
    (hqueue : ∀ run binding, second.QueuedStart run binding → first.QueuedStart run binding)
    (hguardian : second.guardian = first.guardian) : Evolves first third where
  stop := fun run hstop => h'.stop run (h.stop run hstop)
  close := fun hclose => h'.close (h.close hclose)
  launched := fun hclose hlaunched => h'.launched (h.close hclose) (h.launched hclose hlaunched)
  entries := by
    intro entry hentry
    refine (h'.entries entry hentry).imp (fun hold => ?_) id
    rw [hworker] at hold
    cases hold
  starts := fun run binding hqueued => (h'.starts run binding hqueued).imp (hqueue run binding) id
  guardian := by
    intro guardian hfirst
    obtain ⟨last, hlast, hevolves⟩ := h'.guardian guardian (hguardian.trans hfirst)
    exact ⟨last, hlast, hevolves.later, hevolves.rows, hevolves.final, hevolves.closed,
      fun run hrow hqueued => hevolves.other run hrow fun hstart => hqueued (hqueue _ _ hstart)⟩

/-- An action keeps the invariant, and moves the system only as every action may. -/
structure Keeps (system after : System) : Prop where
  evolves : Evolves system after
  invariant : Invariant after

section

variable (h : Invariant system)

include h

theorem Keeps.refl : Keeps system system := ⟨.refl system, h⟩

theorem Keeps.record {host : HostState} (he : Evolves system { system with host := host })
    (hintent : host.intent = system.host.intent) (hruns : host.runs = system.host.runs)
    (hscope : host.scope = system.host.scope) (hlaunched : host.launched = system.host.launched) :
    Keeps system { system with host := host } :=
  ⟨he, h.record he hintent hruns hscope hlaunched.trans⟩

theorem keeps_start (run : RunId) (spec : RunSpec) :
    Keeps system (system.apply frame (.start run spec)) := by
  rw [apply]
  cases hok : system.host.recordRunIntent run spec with
  | error e => exact .refl h
  | ok host =>
    obtain rfl | ⟨_, rfl⟩ := recordRunIntent_ok hok
    · exact .refl h
    · exact .record h (.record (fun _ h => h) (fun h => h) fun _ h => h) rfl rfl rfl rfl

theorem keeps_stop (run : RunId) : Keeps system (system.apply frame (.stop run)) := by
  rw [apply]
  cases hok : system.host.requestRunStop run with
  | error e => exact .refl h
  | ok host =>
    obtain ⟨stops, rfl, hstops⟩ := requestRunStop_ok hok
    exact .record h (.record (runStopRequested_mono (fun h => h) hstops) (fun h => h) fun _ h => h)
      rfl rfl rfl rfl

theorem keeps_close : Keeps system (system.apply frame .close) :=
  .record h (.record (runStopRequested_mono (fun _ => rfl) fun _ h => h) (fun _ => rfl) fun _ h => h)
    rfl rfl rfl rfl

theorem keeps_enter {worker : Worker} (hok : WorkerOk system worker)
    (hentries : ∀ entry ∈ worker.entries,
      entry ∈ system.worker.entries ∨ entry.stop = system.host.runStopRequested entry.run) :
    Keeps system (system.enter worker) :=
  ⟨evolves_enter hentries, invariant_enter h hok hentries⟩

theorem keeps_prepare (launch : Bool) : Keeps system (system.apply frame (.prepare launch)) := by
  rw [apply]
  cases hworker : system.worker with
  | idle =>
    have he : Evolves system { system with host := { system.host with
        launched := system.host.launched || (launch && !system.host.closeRequested) } } :=
      .record (fun _ h => h) (fun h => h) fun hclose hlaunched => by simp [hclose, hlaunched]
    have hlater := h.record he rfl rfl rfl fun hlaunched => by simp [hlaunched]
    have hbegin := keeps_enter hlater (workerOk_begin hlater) fun entry hentry =>
      .inr (entries_begin _ entry hentry)
    refine ⟨he.trans hbegin.evolves ?_ (fun _ _ hqueued => hqueued) rfl, hbegin.invariant⟩
    exact congrArg entries hworker
  | _ => exact .refl h

theorem keeps_bootstrap : Keeps system (system.apply frame .bootstrap) := by
  rw [apply]
  split
  · rename_i hlaunch
    have hnone : system.guardian = none := Option.isNone_iff_eq_none.mp hlaunch.2
    have he : Evolves system { system with guardian := some (fresh system.host.intent) } := by
      refine .still (fun _ h => h) (fun h => h) (fun _ h => h) (fun _ h => .inl h)
        (fun _ _ h => .inl h) fun guardian hguardian => ?_
      rw [hnone] at hguardian
      cases hguardian
    refine ⟨he, fun guardian hguardian => ?_, h.queued, h.awaited, h.resting,
      fun run binding hqueued => ?_, fun run hqueued => (h.stops run hqueued).evolves he,
      h.worker.evolves he rfl rfl, fun reply hreply => (h.inbox reply hreply).evolves he rfl rfl,
      fun run snapshot hrun => (h.runs run snapshot hrun).imp id (·.evolves he),
      fun hclosed => (h.scope hclosed).evolves he⟩
    · cases hguardian
      exact ⟨hlaunch.1, (initial_fresh system.host.intent).sound⟩
    · obtain ⟨guardian, hguardian, _⟩ := h.starts run binding hqueued
      rw [hnone] at hguardian
      cases hguardian
  · exact .refl h

theorem keeps_output (run : RunId) (stream : OutputStream) (offset maxBytes : Nat) :
    Keeps system (system.apply frame (.output run stream offset maxBytes)) := by
  rw [apply]
  split
  · obtain ⟨he, hinvariant⟩ := h.requests (system.queue ++
        [(system.tickets, .run .io ⟨⟨system.host.binding⟩, .output run stream offset maxBytes⟩)])
      (system.tickets + 1) (fun item hitem => by
        rw [mem_append, mem_singleton] at hitem
        refine hitem.imp id ?_
        rintro rfl
        refine ⟨rfl, Nat.lt_succ_self _, fun channel request heq => ?_⟩
        cases heq
        exact ⟨fun _ _ => nofun, fun _ => nofun⟩) (Nat.le_succ _)
    exact ⟨he, hinvariant⟩
  · exact .refl h

theorem keeps_discard (ticket : Nat) : Keeps system (system.apply frame (.discard ticket)) := by
  obtain ⟨he, hinvariant⟩ := h.requests _ system.tickets
    (fun item hitem => .inl (mem_of_mem_filter hitem)) (Nat.le_refl _)
  exact ⟨he, hinvariant⟩

theorem keeps_call (hordered : system.overtakes action = false) :
    Keeps system (match system.guardian, system.call action with
      | some guardian, some (world, call) =>
        system.afterCall action (Guardian.serve frame world call guardian 0)
      | _, _ => system) := by
  cases hguardian : system.guardian with
  | none => exact .refl h
  | some guardian =>
    cases hcall : system.call action with
    | none => exact .refl h
    | some answer => exact ⟨evolves_call h hguardian hcall, invariant_call h hguardian hcall hordered⟩

theorem keeps_receive : Keeps system (system.apply frame .receive) := by
  rw [apply]
  cases hinbox : system.inbox with
  | none => exact .refl h
  | some reply =>
    exact keeps_enter h (h.inbox reply hinbox) fun entry hentry => .inl
      ((received_receive system.host.intent system.worker reply).entries hentry)

theorem keeps_giveUp : Keeps system (system.apply frame .giveUp) := by
  rw [apply]
  split
  · exact keeps_enter h h.worker.giveUp fun entry hentry =>
      .inl (entries_giveUp system.worker hentry)
  · exact .refl h

theorem keeps_save : Keeps system (system.apply frame .save) := by
  rw [apply]
  cases hworker : system.worker with
  | finished observation => exact ⟨evolves_saveNext observation, invariant_saveNext h hworker⟩
  | _ => exact .refl h

theorem keeps_abandon : Keeps system (system.apply frame .abandon) := by
  rw [apply]
  cases hworker : system.worker with
  | finished observation =>
    obtain ⟨hawaiting, hinbox⟩ := h.resting (by rw [hworker]; rfl)
    have he : Evolves system { system with worker := .idle } := .pass rfl (fun _ => rfl) rfl rfl
    exact ⟨he, h.rest he rfl rfl rfl rfl hawaiting hinbox (.empty rfl rfl rfl)
      (fun run snapshot hrun => (h.runs run snapshot hrun).imp id (·.evolves he))
      fun hclosed => (h.scope hclosed).evolves he⟩
  | _ => exact .refl h

theorem keeps_restart (instanceId : Nat) :
    Keeps system (system.apply frame (.restart instanceId)) := by
  rw [apply]
  split
  · have he : Evolves system
        { system with
          host := { system.host with
            binding := { epoch := system.host.binding.epoch + 1, instanceId := instanceId } }
          worker := .idle
          awaiting := none
          inbox := none } := .pass rfl (fun _ => rfl) rfl rfl
    exact ⟨he, h.rest he rfl rfl rfl rfl rfl rfl (.empty rfl rfl rfl)
      (fun run snapshot hrun => (h.runs run snapshot hrun).imp id (·.evolves he))
      fun hclosed => (h.scope hclosed).evolves he⟩
  · exact .refl h

theorem keeps_apply (hordered : system.overtakes action = false) :
    Keeps system (system.apply frame action) := by
  cases action with
  | start run spec => exact keeps_start h run spec
  | stop run => exact keeps_stop h run
  | close => exact keeps_close h
  | prepare launch => exact keeps_prepare h launch
  | bootstrap => exact keeps_bootstrap h
  | output run stream offset maxBytes => exact keeps_output h run stream offset maxBytes
  | execute ticket world | reconcile world => exact keeps_call h hordered
  | discard ticket => exact keeps_discard h ticket
  | receive => exact keeps_receive h
  | giveUp => exact keeps_giveUp h
  | save => exact keeps_save h
  | abandon => exact keeps_abandon h
  | restart instanceId => exact keeps_restart h instanceId

end

/-! ### Whole runs -/

/-- The Run has a row or is out of reach: either way it is not spawned any more. -/
def Spent (system : System) (run : RunId) : Prop :=
  (∃ guardian, system.guardian = some guardian ∧ run ∈ guardian.store.rows) ∨ Absent system run

theorem Spent.evolves {after : System} (h : Spent system run) (he : Evolves system after) :
    Spent after run := by
  rcases h with ⟨guardian, hguardian, hrow⟩ | habsent
  · obtain ⟨last, hlast, hevolves⟩ := he.guardian guardian hguardian
    exact .inl ⟨last, hlast, hevolves.rows run hrow⟩
  · exact .inr (habsent.evolves he)

theorem Accounted.spent (h : Accounted system snapshot) : Spent system snapshot.id := by
  rcases h with ⟨guardian, row, hguardian, hrow, _⟩ | ⟨habsent, _⟩
  · refine .inl ⟨guardian, hguardian, ?_⟩
    rw [Std.ExtTreeMap.mem_iff_isSome_getElem?, hrow]
    rfl
  · exact .inr habsent

theorem spawns_eq_zero (h : Invariant system) (hspent : Spent system run) (action : Action) :
    system.spawns frame action run = 0 := by
  rw [spawns]
  split
  · rename_i guardian world call hguardian hcall
    have hends : CallEnds guardian call (serve frame world call guardian 0).journal
        (serve frame world call guardian 0).state :=
      (callEnds_serve (h.guardian guardian hguardian).2 call).1
    rcases hspent with ⟨current, hcurrent, hrow⟩ | hfenced | hunlaunched
    · rw [hguardian] at hcurrent
      cases hcurrent
      by_contra hcount
      rw [Std.ExtTreeMap.mem_iff_isSome_getElem?, hends.spawned run hcount] at hrow
      cases hrow
    · obtain ⟨current, hcurrent, hrow, hstarts⟩ := hfenced.guardian
      rw [hguardian] at hcurrent
      cases hcurrent
      refine (hends.other run (fun hstart => ?_) hrow).2
      have hlt := hstarts _ (queuedStart_of_call hcall hstart)
      omega
    · exact absurd hunlaunched (h.not_unlaunched hguardian)
  · rfl

theorem scopeSettled_iff (state : HostState) : state.scopeSettled = true ↔
    state.closeRequested = true ∧ state.scope.any ScopeState.isClosed = true ∧
      ∀ run ∈ state.intents, ∃ snapshot, state.runs[run]? = some snapshot ∧
        snapshot.isSettled = true := by
  rw [HostState.scopeSettled, Bool.and_eq_true, Bool.and_eq_true, all_eq_true, and_assoc]
  refine and_congr_right fun _ => and_congr_right fun _ => ⟨fun h run hrun => ?_, fun h item hitem => ?_⟩
  · rw [Std.ExtTreeMap.mem_iff_isSome_getElem?] at hrun
    obtain ⟨spec, hspec⟩ := Option.isSome_iff_exists.mp hrun
    have hrecorded := h (run, spec) (Std.ExtTreeMap.mem_toList_iff_getElem?_eq_some.mpr hspec)
    rwa [Option.any_eq_true] at hrecorded
  · rw [Option.any_eq_true]
    refine h item.1 ?_
    rw [Std.ExtTreeMap.mem_iff_isSome_getElem?,
      Std.ExtTreeMap.mem_toList_iff_getElem?_eq_some.mp hitem]
    rfl

/-- What is saved of a settled Scope says the same again. -/
theorem settled_saveNext (h : Invariant system) {observation : Observation}
    (hworker : system.worker = .finished observation) (hsettled : system.host.scopeSettled = true) :
    (system.saveNext observation).host.scopeSettled = true := by
  have hok := h.worker
  rw [hworker] at hok
  obtain ⟨scope, runs⟩ := observation
  cases runs with
  | nil =>
    cases scope with
    | none => exact hsettled
    | some state =>
      rw [scopeSettled_iff] at hsettled ⊢
      exact ⟨hsettled.1, (hok.scope state rfl).2 hsettled.2.1, hsettled.2.2⟩
  | cons snapshot rest =>
    cases hsave : system.host.observeRun snapshot with
    | error e =>
      rw [saveNext_error hsave]
      exact hsettled
    | ok host =>
      rw [saveNext_ok hsave]
      obtain ⟨merged, rfl, hid, hdirect, hcleanup⟩ := observeRun_ok hsave
      rw [scopeSettled_iff] at hsettled ⊢
      refine ⟨hsettled.1, hsettled.2.1, fun run hrun => ?_⟩
      obtain ⟨recorded, hrecorded, hterminal⟩ := hsettled.2.2 run hrun
      rw [Map.getElem?_insert]
      split
      · rename_i heq
        -- The Run had a terminal fact already, and the new one agrees with it.
        refine ⟨merged, rfl, ?_⟩
        rw [← heq] at hrecorded
        rw [RunSnapshot.isSettled, Bool.and_eq_true] at hterminal
        obtain ⟨hdirect', hcleanup'⟩ :=
          (hok.runs snapshot mem_cons_self).2 recorded hrecorded hterminal.1
        rw [RunSnapshot.isSettled, hdirect, hcleanup, hdirect', hcleanup', Bool.and_eq_true]
        exact hterminal
      · exact ⟨recorded, hrecorded, hterminal⟩

theorem settled_apply (h : Invariant system) (hsettled : system.host.scopeSettled = true)
    (action : Action) : (system.apply frame action).host.scopeSettled = true := by
  rw [apply.eq_def]
  cases action with
  | start run spec =>
    simp only
    split
    · rename_i host hok
      obtain rfl | ⟨hopen, _⟩ := recordRunIntent_ok hok
      · exact hsettled
      · rw [((scopeSettled_iff _).mp hsettled).1] at hopen
        cases hopen
    · exact hsettled
  | stop run =>
    simp only
    split
    · rename_i host hok
      obtain ⟨stops, rfl, _⟩ := requestRunStop_ok hok
      exact hsettled
    · exact hsettled
  | close =>
    rw [scopeSettled_iff] at hsettled ⊢
    exact ⟨rfl, hsettled.2⟩
  | prepare launch | receive | giveUp =>
    simp only
    split
    · rw [host_enter]
      exact hsettled
    · exact hsettled
  | bootstrap | output run stream offset maxBytes | execute ticket world | reconcile world =>
    simp only; split <;> exact hsettled
  | discard ticket => exact hsettled
  | save =>
    simp only
    split
    · rename_i observation hworker
      exact settled_saveNext h hworker hsettled
    · exact hsettled
  | abandon | restart instanceId => simp only; split <;> exact hsettled

/-- Nothing of a Scope that is recorded as closed is running. -/
theorem not_running_of_settled (h : Invariant system) (hsettled : system.host.scopeSettled = true) :
    ¬system.Running := by
  rintro ⟨guardian, hguardian, run, record, hrecord, hincomplete⟩
  rcases h.scope ((scopeSettled_iff _).mp hsettled).2.1 with ⟨current, hcurrent, hclosed⟩ | hunlaunched
  · rw [hguardian] at hcurrent
    cases hcurrent
    have hsound := (h.guardian guardian hguardian).2
    have hcomplete := hsound.quiescent (hsound.closed hclosed).1 run record hrecord
    rw [hincomplete] at hcomplete
    cases hcomplete
  · exact h.not_unlaunched hguardian hunlaunched

/-- No stop is executed before a start of the same Run and binding. -/
def ordered (frame : Frame) : System → List Action → Bool
  | _, [] => true
  | system, action :: rest => !system.overtakes action && ordered frame (system.apply frame action) rest

theorem ordered_append (before later : List Action) :
    ordered frame system (before ++ later) =
      (ordered frame system before && ordered frame (system.after frame before) later) := by
  induction before generalizing system with
  | nil => rfl
  | cons action before ih =>
    rw [cons_append, ordered, ordered, ih, Bool.and_assoc]
    rfl

theorem invariant_after (h : Invariant system) {actions : List Action}
    (hordered : ordered frame system actions = true) : Invariant (system.after frame actions) := by
  induction actions generalizing system with
  | nil => exact h
  | cons action rest ih =>
    rw [ordered, Bool.and_eq_true, Bool.not_eq_true'] at hordered
    exact ih (keeps_apply h hordered.1).invariant hordered.2

theorem after_induction {P : System → Prop}
    (hstep : ∀ system action, Invariant system → system.overtakes action = false → P system →
      P (system.apply frame action)) (h : Invariant system) (hp : P system) {actions : List Action}
    (hordered : ordered frame system actions = true) : P (system.after frame actions) := by
  induction actions generalizing system with
  | nil => exact hp
  | cons action rest ih =>
    rw [ordered, Bool.and_eq_true, Bool.not_eq_true'] at hordered
    exact ih (keeps_apply h hordered.1).invariant (hstep system action h hordered.1 hp) hordered.2

theorem invariant_initial (intent : ScopeCreationIntent) : Invariant (initial intent) where
  guardian := nofun
  queued := forall_mem_nil _
  awaited := nofun
  resting := fun _ => ⟨rfl, rfl⟩
  starts := by
    rintro run binding ⟨ticket, channel, request, spec, hitem, _⟩
    cases hitem
  stops := by
    rintro run ⟨ticket, channel, request, hitem, _⟩
    cases hitem
  worker := .empty rfl rfl rfl
  inbox := nofun
  runs := by
    intro run snapshot hrun
    have hnone : (initial intent).host.runs[run]? = none := Std.ExtTreeMap.getElem?_empty
    rw [hnone] at hrun
    cases hrun
  scope := nofun

/-- Where no stop of a Run without a row overtakes a start of the same Run and binding, a recorded
cancellation is final and so is a settled Scope. -/
theorem cancellation_final_of_ordered (frame : Frame) (intent : ScopeCreationIntent)
    (before later : List Action)
    (hordered : ordered frame (initial intent) (before ++ later) = true) :
    (∀ run, ((initial intent).after frame before).RecordedNotStarted run →
      ∀ action, ((initial intent).after frame (before ++ later)).spawns frame action run = 0) ∧
    (((initial intent).after frame before).host.scopeSettled = true →
      ((initial intent).after frame (before ++ later)).host.scopeSettled = true ∧
      ¬((initial intent).after frame (before ++ later)).Running) := by
  have hlast := invariant_after (invariant_initial intent) hordered
  rw [ordered_append, Bool.and_eq_true] at hordered
  have hbefore := invariant_after (invariant_initial intent) hordered.1
  have happend : (initial intent).after frame (before ++ later) =
      ((initial intent).after frame before).after frame later := foldl_append
  rw [happend] at hlast ⊢
  refine ⟨fun run hrecorded action => ?_, fun hsettled => ?_⟩
  · obtain ⟨snapshot, hsnapshot, _⟩ := hrecorded
    obtain ⟨rfl, haccounted⟩ := hbefore.runs run snapshot hsnapshot
    refine spawns_eq_zero hlast ?_ action
    exact after_induction (P := fun system => Spent system snapshot.id)
      (fun system action h ho hspent => hspent.evolves (keeps_apply h ho).evolves) hbefore
      haccounted.spent hordered.2
  · have hkept : (((initial intent).after frame before).after frame later).host.scopeSettled = true :=
      after_induction (P := fun system => system.host.scopeSettled = true)
        (fun system action h _ hs => settled_apply h hs action) hbefore hsettled hordered.2
    exact ⟨hkept, not_running_of_settled hlast hkept⟩

/-! ### A start that is overtaken -/

def anyFrame : Frame where
  spec := fun _ => true
  snapshot := fun _ => true

/-- Every spawn succeeds and the processes keep running. -/
def runningPlatform : Platform where
  spawn := fun _ _ _ => .ok ()
  observe := fun _ => .ok { direct := .running, containment := .occupied }
  signal := fun _ _ => .ok ()

def reliable : GuardianWorld := unacknowledged none runningPlatform

/-- The guardian is up and a start of Run 7 is under way, with ticket 3; its client has given up. -/
def startLeftBehind : List Action :=
  [.start 7 (RunSpec.new "sh" "/" .waitForAll), .prepare true, .giveUp, .save, .bootstrap,
    .prepare true, .execute 1 reliable, .receive, .execute 2 reliable, .receive, .giveUp, .save]

/-- Run 7 is stopped in a pass of its own. -/
def stopPass : List Action :=
  [.stop 7, .prepare true, .execute 4 reliable, .receive, .execute 5 reliable, .receive,
    .execute 6 reliable, .receive, .save, .save]

def overtakenIntent : ScopeCreationIntent := ⟨2, 3, ⟨1, 4⟩⟩

/-- The start was lost before the stop was executed. -/
theorem cancellation_final_of_lost_start :
    ((initial overtakenIntent).after anyFrame
      (startLeftBehind ++ .discard 3 :: stopPass)).RecordedNotStarted 7 ∧
    ∀ action, ((initial overtakenIntent).after anyFrame
      ((startLeftBehind ++ .discard 3 :: stopPass) ++ [.prepare true])).spawns anyFrame action 7 = 0 := by
  have hrecorded : ((initial overtakenIntent).after anyFrame
      (startLeftBehind ++ .discard 3 :: stopPass)).RecordedNotStarted 7 :=
    ⟨cancelled 7, by decide +kernel, rfl, rfl⟩
  exact ⟨hrecorded, (cancellation_final_of_ordered anyFrame overtakenIntent
    (startLeftBehind ++ .discard 3 :: stopPass) [.prepare true] (by decide +kernel)).1 7 hrecorded⟩

/-- The start is executed after the stop that overtook it: the Run is recorded as never started, and
is spawned. -/
theorem cancelled_run_is_spawned :
    ((initial overtakenIntent).after anyFrame (startLeftBehind ++ stopPass)).RecordedNotStarted 7 ∧
    ((initial overtakenIntent).after anyFrame (startLeftBehind ++ stopPass)).spawns anyFrame
      (.execute 3 reliable) 7 = 1 :=
  ⟨⟨cancelled 7, by decide +kernel, rfl, rfl⟩, by decide +kernel⟩

end System

end OraDesktop.Process
