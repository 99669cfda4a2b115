import OraDesktop.Process.Host

/-!
# What stays true between the host and its guardian

A Run is out of reach of the guardian when it has no row and no request can give it one: its stop is
recorded, so that no pass asks to start it any more, and every start that is still under way belongs
to an incarnation the guardian has replaced. `Evolves` collects what every action respects; from it
follows that such a Run stays out of reach, and that facts about rows stay facts.

## Main results

* `Evolves` — what every action respects
* `Fenced`, `Unlaunched` — the two ways for a Run to be out of reach
* `Accounted.evolves` — an observation that is accounted for stays so
-/

namespace OraDesktop.Process

open Guardian

/-! ### Passes -/

variable {worker : Worker}

namespace Worker

def entries : Worker → List Entry
  | .binding work | .scoping work => work.runs
  | .stepping _ _ entry rest => entry :: rest
  | .idle | .finished _ => []

def observation : Worker → Observation
  | .stepping _ observation _ _ | .finished observation => observation
  | .idle | .binding _ | .scoping _ => { scope := none, runs := [] }

/-- The binding a pass knows to have been accepted. -/
def bound : Worker → Option HostBinding
  | .scoping work | .stepping work _ _ _ => some work.binding
  | .idle | .binding _ | .finished _ => none

section

variable {channel : GuardianChannel} {request : GuardianRunRequest} {run : RunId}

/-- A pass asks to start only Runs it is to start, under the binding that was accepted. -/
theorem request_start {spec : RunSpec} (h : worker.request = some (.run channel request))
    (hstart : request.operation = .start run spec) :
    (∃ entry ∈ worker.entries, entry.run = run ∧ entry.stop = false) ∧
      worker.bound = some request.session.host := by
  cases worker with
  | idle => cases h
  | binding work => cases h
  | scoping work =>
    cases h
    simp only at hstart
    split at hstart <;> cases hstart
  | stepping work observation entry rest =>
    cases h
    simp only [Entry.operation] at hstart
    split at hstart
    · cases hstart
    · rename_i hstop
      cases hstart
      exact ⟨⟨entry, List.mem_cons_self, rfl, by simpa using hstop⟩, rfl⟩
  | finished observation => cases h

theorem request_stop
    (h : worker.request = some (.run channel request)) (hstop : request.operation = .stop run) :
    ∃ entry ∈ worker.entries, entry.run = run ∧ entry.stop = true := by
  cases worker with
  | idle => cases h
  | binding work => cases h
  | scoping work =>
    cases h
    simp only at hstop
    split at hstop <;> cases hstop
  | stepping work observation entry rest =>
    cases h
    simp only [Entry.operation] at hstop
    split at hstop
    · rename_i hentry
      cases hstop
      exact ⟨entry, List.mem_cons_self, rfl, hentry⟩
    · cases hstop
  | finished observation => cases h

end

section

variable (work : Work) (observation : Observation) (rest : List Entry)

theorem entries_next : (next work observation rest).entries = rest := by
  cases rest <;> rfl

theorem observation_next : (next work observation rest).observation = observation := by
  cases rest <;> rfl

end

theorem entries_giveUp (worker : Worker) : worker.giveUp.entries ⊆ worker.entries := by
  cases worker <;> exact List.nil_subset _

/-- What a pass makes of a reply, by the stage it is at; anything unexpected ends the exchange. -/
inductive Received : Worker → Reply → Worker → Prop where
  | bound (work : Work) (intent : ScopeCreationIntent) (session : GuardianHostSession)
      (hhost : session.host = work.binding) :
    Received (.binding work) (.management (.bound intent session)) (.scoping work)
  | scope (work : Work) (reply : GuardianRunReply) (state : ScopeState)
      (hresult : reply.result = .scope state) :
    Received (.scoping work) (.run reply) (next work { scope := some state, runs := [] } work.runs)
  | run (work : Work) (observation : Observation) (entry : Entry) (rest : List Entry)
      (reply : GuardianRunReply) (snapshot : RunSnapshot) (hresult : reply.result = .run snapshot)
      (hid : snapshot.id = entry.run) :
    Received (.stepping work observation entry rest) (.run reply)
      (next work { observation with runs := observation.runs ++ [snapshot] } rest)
  | unknown (work : Work) (observation : Observation) (entry : Entry) (rest : List Entry)
      (reply : GuardianRunReply) (hresult : reply.result = .rejected .unknownRun)
      (hstop : entry.stop = true) :
    Received (.stepping work observation entry rest) (.run reply)
      (next work { observation with runs := observation.runs ++ [cancelled entry.run] } rest)
  | skip (work : Work) (observation : Observation) (entry : Entry) (rest : List Entry)
      (reply : Reply) :
    Received (.stepping work observation entry rest) reply (next work observation rest)
  | giveUp (worker : Worker) (reply : Reply) : Received worker reply worker.giveUp

theorem target_operation (entry : Entry) : entry.operation.target = some entry.run := by
  rw [Entry.operation]
  split <;> rfl

theorem received_stepping {intent : ScopeCreationIntent} {work : Work} {observation : Observation}
    {entry : Entry} {rest : List Entry} {reply : GuardianRunReply}
    (hcorrelated : correlated intent work entry.operation reply = true) :
    Received (.stepping work observation entry rest) (.run reply)
      (receiveRun work observation entry rest reply.result) := by
  cases hresult : reply.result with
  | run snapshot =>
    rw [correlated, hresult, target_operation] at hcorrelated
    simp only [Bool.and_eq_true, decide_eq_true_eq, Option.some.injEq] at hcorrelated
    exact .run work observation entry rest reply snapshot hresult hcorrelated.2.symm
  | scope _ | output _ _ _ _ => exact .giveUp (.stepping work observation entry rest) _
  | rejected reason =>
    rw [receiveRun.eq_def]
    split
    · rename_i heq
      cases heq
    · rename_i heq
      cases heq
      split
      · rename_i hstop
        exact .unknown work observation entry rest reply hresult hstop
      · exact .skip work observation entry rest _
    · exact .skip work observation entry rest _
    · rename_i heq
      cases heq
    · rename_i heq
      cases heq

theorem received_receive (intent : ScopeCreationIntent) (worker : Worker) (reply : Reply) :
    Received worker reply (worker.receive intent reply) := by
  rw [receive.eq_def]
  split
  · split
    · rename_i hbound
      exact .bound _ _ _ hbound.2
    · exact .giveUp _ _
  · rename_i work reply
    generalize (if work.close = true then GuardianRunOperation.close else .scope) = operation
    split
    · split
      · rename_i hresult
        exact .scope work reply _ hresult
      · exact .giveUp (.scoping work) _
    · exact .giveUp (.scoping work) _
  · split
    · rename_i hcorrelated
      exact received_stepping hcorrelated
    · exact .giveUp _ _
  · exact .giveUp _ _

theorem Received.entries {worker after : Worker} {reply : Reply} (h : Received worker reply after) :
    after.entries ⊆ worker.entries := by
  cases h with
  | bound work _ _ _ => exact List.Subset.refl _
  | giveUp _ _ => exact entries_giveUp _
  | scope work _ _ _ =>
    rw [entries_next]
    exact List.Subset.refl _
  | run _ _ entry rest _ _ _ _ | unknown _ _ entry rest _ _ _ | skip _ _ entry rest _ =>
    rw [entries_next]
    exact List.subset_cons_self entry rest

end Worker

namespace System

/-! ### Requests under way -/

/-- A start of the Run under this binding is under way. -/
def QueuedStart (system : System) (run : RunId) (host : HostBinding) : Prop :=
  ∃ ticket channel request spec, (ticket, Call.run channel request) ∈ system.queue ∧
    request.operation = .start run spec ∧ request.session.host = host

def QueuedStop (system : System) (run : RunId) : Prop :=
  ∃ ticket channel request, (ticket, Call.run channel request) ∈ system.queue ∧
    request.operation = .stop run

variable {system after : System} {run : RunId}

theorem QueuedStart.mono {host : HostBinding} (h : system.QueuedStart run host)
    (hqueue : ∀ item ∈ system.queue, item ∈ after.queue) : after.QueuedStart run host := by
  obtain ⟨ticket, channel, request, spec, hitem, hstart, hhost⟩ := h
  exact ⟨ticket, channel, request, spec, hqueue _ hitem, hstart, hhost⟩

theorem QueuedStop.mono (h : system.QueuedStop run)
    (hqueue : ∀ item ∈ system.queue, item ∈ after.queue) : after.QueuedStop run := by
  obtain ⟨ticket, channel, request, hitem, hstop⟩ := h
  exact ⟨ticket, channel, request, hqueue _ hitem, hstop⟩

/-! ### What every action respects -/

/-- How the guardian may change while requests are under way. -/
structure GuardianEvolves (system : System) (before after : Guardian) : Prop where
  later : Later before.store.host after.store.host
  rows : ∀ run ∈ before.store.rows, run ∈ after.store.rows
  final : ∀ run snapshot, Final run snapshot before → Final run snapshot after
  closed : before.store.scope.isClosed = true → after.store.scope.isClosed = true
  other : ∀ run : RunId, before.store.rows[run]? = none →
    ¬system.QueuedStart run before.store.host → after.store.rows[run]? = none

theorem GuardianEvolves.refl (system : System) (guardian : Guardian) :
    GuardianEvolves system guardian guardian :=
  ⟨.refl _, fun _ h => h, fun _ _ h => h, fun h => h, fun _ h _ => h⟩

/-- What every action respects: recorded stops stay, new requests follow what is recorded, and the
guardian changes only by what is under way. -/
structure Evolves (system after : System) : Prop where
  stop : ∀ run, system.host.runStopRequested run = true → after.host.runStopRequested run = true
  close : system.host.closeRequested = true → after.host.closeRequested = true
  launched : system.host.closeRequested = true → system.host.launched = false →
    after.host.launched = false
  entries : ∀ entry ∈ after.worker.entries,
    entry ∈ system.worker.entries ∨ entry.stop = after.host.runStopRequested entry.run
  starts : ∀ run host, after.QueuedStart run host →
    system.QueuedStart run host ∨ ∃ entry ∈ after.worker.entries, entry.run = run ∧ entry.stop = false
  guardian : ∀ guardian, system.guardian = some guardian →
    ∃ guardian', after.guardian = some guardian' ∧ GuardianEvolves system guardian guardian'

/-- The stop of the Run is recorded, and the pass under way knows. -/
structure Sealed (system : System) (run : RunId) : Prop where
  stop : system.host.runStopRequested run = true
  entries : ∀ entry ∈ system.worker.entries, entry.run = run → entry.stop = true

theorem Sealed.evolves (h : Sealed system run) (he : Evolves system after) : Sealed after run where
  stop := he.stop run h.stop
  entries := by
    intro entry hentry hrun
    rcases he.entries entry hentry with hold | hnew
    · exact h.entries entry hold hrun
    · rw [hnew, hrun]
      exact he.stop run h.stop

/-- The guardian has no row for the Run and will not get one. -/
structure Fenced (system : System) (run : RunId) : Prop extends Sealed system run where
  guardian : ∃ guardian, system.guardian = some guardian ∧ guardian.store.rows[run]? = none ∧
    ∀ host, system.QueuedStart run host → host.epoch < guardian.store.host.epoch

theorem Fenced.evolves (h : Fenced system run) (he : Evolves system after) : Fenced after run := by
  have hsealed := h.toSealed.evolves he
  obtain ⟨guardian, hguardian, hrow, hstarts⟩ := h.guardian
  obtain ⟨guardian', hguardian', hevolves⟩ := he.guardian guardian hguardian
  refine ⟨hsealed, guardian', hguardian', ?_, fun host hqueued => ?_⟩
  · refine hevolves.other run hrow fun hqueued => ?_
    have hlt := hstarts _ hqueued
    omega
  · rcases he.starts run host hqueued with hold | ⟨entry, hentry, hrun, hstop⟩
    · have hlt := hstarts host hold
      rcases hevolves.later with hlater | hlater
      · omega
      · rw [hlater]
        exact hlt
    · rw [hsealed.entries entry hentry hrun] at hstop
      cases hstop

/-- The Scope is to be closed and no guardian was ever launched for it. -/
structure Unlaunched (system : System) : Prop where
  close : system.host.closeRequested = true
  launched : system.host.launched = false

theorem Unlaunched.evolves (h : Unlaunched system) (he : Evolves system after) : Unlaunched after :=
  ⟨he.close h.close, he.launched h.close h.launched⟩

/-- The Run is out of reach: fenced off by a stop the guardian answered, or never within reach of a
guardian. -/
def Absent (system : System) (run : RunId) : Prop := Fenced system run ∨ Unlaunched system

theorem Absent.evolves (h : Absent system run) (he : Evolves system after) : Absent after run :=
  h.imp (·.evolves he) (·.evolves he)

/-! ### Observations -/

/-- An observation rests on the row of its Run, or the Run is out of reach. -/
def Accounted (system : System) (snapshot : RunSnapshot) : Prop :=
  (∃ guardian row, system.guardian = some guardian ∧
    guardian.store.rows[snapshot.id]? = some row ∧
    (snapshot.cleanup.isComplete = true →
      row.snapshot.direct = snapshot.direct ∧ row.snapshot.cleanup = snapshot.cleanup)) ∨
  Absent system snapshot.id ∧ snapshot.direct = .notStarted ∧
    snapshot.cleanup = .complete .bestEffortComplete

theorem Accounted.evolves {snapshot : RunSnapshot} (h : Accounted system snapshot)
    (he : Evolves system after) : Accounted after snapshot := by
  rcases h with ⟨guardian, row, hguardian, hrow, hsame⟩ | ⟨habsent, hfacts⟩
  · obtain ⟨guardian', hguardian', hevolves⟩ := he.guardian guardian hguardian
    cases hcomplete : snapshot.cleanup.isComplete with
    | true =>
      obtain ⟨hdirect, hcleanup⟩ := hsame hcomplete
      have hfinal : Final snapshot.id row.snapshot guardian :=
        ⟨by rw [hcleanup]; exact hcomplete, row, hrow, rfl⟩
      obtain ⟨_, row', hrow', hsnapshot⟩ := hevolves.final _ _ hfinal
      refine .inl ⟨guardian', row', hguardian', hrow', fun _ => ?_⟩
      rw [hsnapshot]
      exact ⟨hdirect, hcleanup⟩
    | false =>
      have hmem : snapshot.id ∈ guardian.store.rows := by
        rw [Std.ExtTreeMap.mem_iff_isSome_getElem?, hrow]
        rfl
      have hmem' := hevolves.rows _ hmem
      rw [Std.ExtTreeMap.mem_iff_isSome_getElem?] at hmem'
      obtain ⟨row', hrow'⟩ := Option.isSome_iff_exists.mp hmem'
      refine .inl ⟨guardian', row', hguardian', hrow', fun hcomplete' => ?_⟩
      rw [hcomplete] at hcomplete'
      cases hcomplete'
  · exact .inr ⟨habsent.evolves he, hfacts⟩

/-- An observation is accounted for by what it says, not by how the launch is told. -/
theorem Accounted.congr {snapshot other : RunSnapshot} (h : Accounted system snapshot)
    (hid : other.id = snapshot.id) (hdirect : other.direct = snapshot.direct)
    (hcleanup : other.cleanup = snapshot.cleanup) : Accounted system other := by
  rw [Accounted, hid, hdirect, hcleanup]
  exact h

/-- The Scope is closed: its journal says so, or it never had a guardian. -/
def Closed (system : System) : Prop :=
  (∃ guardian, system.guardian = some guardian ∧ guardian.store.scope.isClosed = true) ∨
    Unlaunched system

theorem Closed.evolves (h : Closed system) (he : Evolves system after) : Closed after := by
  rcases h with ⟨guardian, hguardian, hclosed⟩ | hunlaunched
  · obtain ⟨guardian', hguardian', hevolves⟩ := he.guardian guardian hguardian
    exact .inl ⟨guardian', hguardian', hevolves.closed hclosed⟩
  · exact .inr (hunlaunched.evolves he)

/-- The observation agrees with a terminal fact the host has recorded. -/
def Agrees (host : HostState) (snapshot : RunSnapshot) : Prop :=
  ∀ recorded, host.runs[snapshot.id]? = some recorded → recorded.cleanup.isComplete = true →
    snapshot.direct = recorded.direct ∧ snapshot.cleanup = recorded.cleanup

/-- A pass is in order: it knows of every stop that matters, and what it has observed is accounted
for. -/
structure WorkerOk (system : System) (worker : Worker) : Prop where
  nodup : (worker.observation.runs.map (·.id) ++ worker.entries.map (·.run)).Nodup
  stops : ∀ entry ∈ worker.entries, entry.stop = true →
    system.host.runStopRequested entry.run = true
  bound : ∀ host, worker.bound = some host →
    ∃ guardian, system.guardian = some guardian ∧ Later host guardian.store.host
  runs : ∀ snapshot ∈ worker.observation.runs,
    Accounted system snapshot ∧ Agrees system.host snapshot
  scope : ∀ state, worker.observation.scope = some state →
    (state.isClosed = true → Closed system) ∧
      (system.host.scope.any ScopeState.isClosed = true → state.isClosed = true)

theorem WorkerOk.evolves (h : WorkerOk system worker) (he : Evolves system after)
    (hruns : after.host.runs = system.host.runs) (hscope : after.host.scope = system.host.scope) :
    WorkerOk after worker where
  nodup := h.nodup
  stops := fun entry hentry hstop => he.stop _ (h.stops entry hentry hstop)
  bound := by
    intro host hhost
    obtain ⟨guardian, hguardian, hlater⟩ := h.bound host hhost
    obtain ⟨guardian', hguardian', hevolves⟩ := he.guardian guardian hguardian
    exact ⟨guardian', hguardian', hlater.trans hevolves.later⟩
  runs := by
    intro snapshot hsnapshot
    obtain ⟨haccounted, hagrees⟩ := h.runs snapshot hsnapshot
    refine ⟨haccounted.evolves he, ?_⟩
    rw [Agrees, hruns]
    exact hagrees
  scope := by
    intro state hstate
    obtain ⟨hclosed, hkept⟩ := h.scope state hstate
    refine ⟨fun hc => (hclosed hc).evolves he, ?_⟩
    rw [hscope]
    exact hkept

/-- A pass that has nothing to ask and has observed nothing. -/
theorem WorkerOk.empty (hentries : worker.entries = [])
    (hobservation : worker.observation = { scope := none, runs := [] })
    (hbound : worker.bound = none) : WorkerOk system worker where
  nodup := by
    rw [hentries, hobservation]
    exact List.nodup_nil
  stops := by
    rw [hentries]
    exact List.forall_mem_nil _
  bound := by
    rw [hbound]
    exact nofun
  runs := by
    rw [hobservation]
    exact List.forall_mem_nil _
  scope := by
    rw [hobservation]
    exact nofun

theorem WorkerOk.giveUp (h : WorkerOk system worker) : WorkerOk system worker.giveUp := by
  cases worker with
  | idle => exact h
  | binding work | scoping work => exact .empty rfl rfl rfl
  | stepping work observation entry rest =>
    refine ⟨?_, List.forall_mem_nil _, nofun, h.runs, h.scope⟩
    have hnodup := h.nodup
    rw [List.nodup_append] at hnodup
    simpa [Worker.giveUp, Worker.entries, Worker.observation] using hnodup.1
  | finished observation => exact h

end System

end OraDesktop.Process
