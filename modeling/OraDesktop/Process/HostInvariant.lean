import OraDesktop.Process.HostEvolution

/-!
# The invariant of the host and its guardian

Every fact the host has saved, or is about to save, is accounted for. The one step that needs more
than the invariant is the answer to a stop of a Run the guardian does not know: the Run is out of
reach only if no start of it is still under way under the same binding.

## Main results

* `overtakes` — a stop is executed before a start of the same Run and binding
* `Served.received` — the reply to a request is accounted for
-/

namespace OraDesktop.Process

open Guardian Worker

namespace System

variable {system after : System} {frame : Frame} {run : RunId} {guardian last : Guardian}
  {call : Call} {journal : List (GuardianEvent × Guardian)} {worker : Worker} {host : HostState}

/-- The host, the pass and the requests under way are in order. -/
structure Invariant (system : System) : Prop where
  guardian : ∀ guardian, system.guardian = some guardian →
    system.host.launched = true ∧ Sound guardian
  queued : ∀ item ∈ system.queue, item.1 < system.tickets
  awaited : ∀ ticket, system.awaiting = some ticket → ticket < system.tickets ∧
    ∀ call, (ticket, call) ∈ system.queue → system.worker.request = some call
  resting : system.worker.request = none → system.awaiting = none ∧ system.inbox = none
  starts : ∀ run host, system.QueuedStart run host →
    ∃ guardian, system.guardian = some guardian ∧ Later host guardian.store.host
  stops : ∀ run, system.QueuedStop run → Sealed system run
  worker : WorkerOk system system.worker
  inbox : ∀ reply, system.inbox = some reply →
    WorkerOk system (system.worker.receive system.host.intent reply)
  runs : ∀ (run : RunId) snapshot, system.host.runs[run]? = some snapshot →
    snapshot.id = run ∧ Accounted system snapshot
  scope : system.host.scope.any ScopeState.isClosed = true → Closed system

/-- The Run a request starts, and the binding it acts under. -/
def startTarget : Call → Option (RunId × HostBinding)
  | .run _ ⟨session, .start run _⟩ => some (run, session.host)
  | _ => none

/-- The Run a request stops, and the binding it acts under. -/
def stopTarget : Call → Option (RunId × HostBinding)
  | .run _ ⟨session, .stop run⟩ => some (run, session.host)
  | _ => none

/-- The guardian executes a stop of a Run it has no row of while a start of the same Run and binding
is still under way. With a row the stop is kept, and the start finds it. -/
def overtakes (system : System) (action : Action) : Bool :=
  match system.call action with
  | some (_, call) => (stopTarget call).any fun target =>
    system.guardian.any (fun guardian => guardian.store.rows[target.1]?.isNone) &&
      system.queue.any fun item => decide (startTarget item.2 = some target)
  | none => false

theorem Invariant.not_unlaunched (h : Invariant system) (hguardian : system.guardian = some guardian) :
    ¬Unlaunched system := by
  intro hunlaunched
  have hlaunched := (h.guardian guardian hguardian).1
  rw [hunlaunched.launched] at hlaunched
  cases hlaunched

theorem mem_queue_of_request {ticket : Nat} (h : system.request ticket = some call) :
    (ticket, call) ∈ system.queue := by
  rw [request, Option.map_eq_some_iff] at h
  obtain ⟨item, hfind, rfl⟩ := h
  have hticket := List.find?_some hfind
  rw [beq_iff_eq] at hticket
  rw [← hticket]
  exact List.mem_of_find?_eq_some hfind

/-! ### Actions that leave the guardian alone -/

theorem Evolves.still
    (hstop : ∀ run, system.host.runStopRequested run = true → after.host.runStopRequested run = true)
    (hclose : system.host.closeRequested = true → after.host.closeRequested = true)
    (hlaunched : system.host.closeRequested = true → system.host.launched = false →
      after.host.launched = false) (hentries : ∀ entry ∈ after.worker.entries,
      entry ∈ system.worker.entries ∨ entry.stop = after.host.runStopRequested entry.run)
    (hstarts : ∀ run host, after.QueuedStart run host → system.QueuedStart run host ∨
      ∃ entry ∈ after.worker.entries, entry.run = run ∧ entry.stop = false)
    (hguardian : ∀ guardian, system.guardian = some guardian → after.guardian = some guardian) :
    Evolves system after :=
  ⟨hstop, hclose, hlaunched, hentries, hstarts,
    fun guardian hg => ⟨guardian, hguardian guardian hg, .refl system guardian⟩⟩

theorem Evolves.record
    (hstop : ∀ run, system.host.runStopRequested run = true → host.runStopRequested run = true)
    (hclose : system.host.closeRequested = true → host.closeRequested = true)
    (hlaunched : system.host.closeRequested = true → system.host.launched = false →
      host.launched = false) : Evolves system { system with host := host } :=
  .still hstop hclose hlaunched (fun _ h => .inl h) (fun _ _ h => .inl h) fun _ h => h

theorem Evolves.refl (system : System) : Evolves system system :=
  .record (fun _ h => h) (fun h => h) fun _ h => h

/-- A pass ends, or its next stage needs no request. -/
theorem Evolves.pass (hentries : worker.entries = []) {awaiting : Option Nat}
    {inbox : Option Reply} (hstop : ∀ run, system.host.runStopRequested run = host.runStopRequested run)
    (hclose : host.closeRequested = system.host.closeRequested)
    (hlaunched : host.launched = system.host.launched) :
    Evolves system { system with host := host, worker := worker, awaiting := awaiting, inbox := inbox } := by
  refine .still (fun run h => ?_) (fun h => ?_) (fun _ h => ?_) (fun entry hentry => ?_)
    (fun _ _ h => .inl h) fun _ h => h
  · exact (hstop run).symm.trans h
  · exact hclose.trans h
  · exact hlaunched.trans h
  · rw [show ({ system with host := host, worker := worker, awaiting := awaiting, inbox := inbox } :
      System).worker = worker from rfl, hentries] at hentry
    cases hentry

/-! ### The next stage of a pass -/

@[simp] theorem host_enter : (system.enter worker).host = system.host := by
  rw [enter]
  split <;> rfl

@[simp] theorem worker_enter : (system.enter worker).worker = worker := by
  rw [enter]
  split <;> rfl

@[simp] theorem guardian_enter : (system.enter worker).guardian = system.guardian := by
  rw [enter]
  split <;> rfl

@[simp] theorem inbox_enter : (system.enter worker).inbox = none := by
  rw [enter]
  split <;> rfl

theorem awaiting_enter :
    (system.enter worker).awaiting = worker.request.map fun _ => system.tickets := by
  rw [enter]
  split <;> simp_all

theorem tickets_enter : (system.enter worker).tickets =
    if worker.request.isSome then system.tickets + 1 else system.tickets := by
  rw [enter]
  split <;> simp_all

theorem mem_queue_enter {item : Nat × Call} (h : item ∈ (system.enter worker).queue) :
    item ∈ system.queue ∨ item.1 = system.tickets ∧ worker.request = some item.2 := by
  rw [enter] at h
  split at h
  · exact .inl h
  rename_i call hcall
  simp only at h
  split at h
  · rw [List.mem_append, List.mem_singleton] at h
    refine h.imp id ?_
    rintro rfl
    exact ⟨rfl, hcall⟩
  · exact .inl h

theorem queuedStart_enter {binding : HostBinding} (h : (system.enter worker).QueuedStart run binding) :
    system.QueuedStart run binding ∨
      (∃ entry ∈ worker.entries, entry.run = run ∧ entry.stop = false) ∧
        worker.bound = some binding := by
  obtain ⟨ticket, channel, request, spec, hitem, hstart, rfl⟩ := h
  rcases mem_queue_enter hitem with hold | ⟨_, hrequest⟩
  · exact .inl ⟨ticket, channel, request, spec, hold, hstart, rfl⟩
  · exact .inr (request_start hrequest hstart)

theorem queuedStop_enter (h : (system.enter worker).QueuedStop run) :
    system.QueuedStop run ∨ ∃ entry ∈ worker.entries, entry.run = run ∧ entry.stop = true := by
  obtain ⟨ticket, channel, request, hitem, hstop⟩ := h
  rcases mem_queue_enter hitem with hold | ⟨_, hrequest⟩
  · exact .inl ⟨ticket, channel, request, hold, hstop⟩
  · exact .inr (request_stop hrequest hstop)

theorem evolves_enter (hentries : ∀ entry ∈ worker.entries,
    entry ∈ system.worker.entries ∨ entry.stop = system.host.runStopRequested entry.run) :
    Evolves system (system.enter worker) := by
  refine .still ?_ ?_ ?_ ?_ (fun run binding h => ?_) ?_
  · simp
  · simp
  · simp
  · simpa using hentries
  · rw [worker_enter]
    exact (queuedStart_enter h).imp id And.left
  · simp

theorem WorkerOk.sealed (hok : WorkerOk system worker) (hworker : system.worker = worker)
    {entry : Entry} (hentry : entry ∈ worker.entries) (hstop : entry.stop = true) :
    Sealed system entry.run := by
  refine ⟨hok.stops entry hentry hstop, fun other hother hrun => ?_⟩
  rw [hworker] at hother
  have hnodup := (List.nodup_append.mp hok.nodup).2.1
  rw [List.inj_on_of_nodup_map hnodup hother hentry hrun]
  exact hstop

section

variable (h : Invariant system)

include h

theorem invariant_enter (hok : WorkerOk system worker) (hentries : ∀ entry ∈ worker.entries,
      entry ∈ system.worker.entries ∨ entry.stop = system.host.runStopRequested entry.run) :
    Invariant (system.enter worker) := by
  have he := evolves_enter hentries
  have hok' : WorkerOk (system.enter worker) worker := hok.evolves he (by simp) (by simp)
  refine ⟨?_, fun item hitem => ?_, fun ticket hticket => ?_, fun hrequest => ?_,
    fun run binding hqueued => ?_, fun run hqueued => ?_, ?_, ?_, fun run snapshot hrun => ?_,
    fun hscope => ?_⟩
  · simpa using h.guardian
  · rw [tickets_enter]
    rcases mem_queue_enter hitem with hold | ⟨hticket, hrequest⟩
    · have hlt := h.queued item hold
      split <;> omega
    · rw [hrequest, hticket]
      exact Nat.lt_succ_self _
  · rw [awaiting_enter, Option.map_eq_some_iff] at hticket
    obtain ⟨call, hcall, rfl⟩ := hticket
    refine ⟨?_, fun call' hitem => ?_⟩
    · rw [tickets_enter, hcall]
      exact Nat.lt_succ_self _
    · rw [worker_enter]
      rcases mem_queue_enter hitem with hold | ⟨_, hrequest⟩
      · exact absurd (h.queued _ hold) (Nat.lt_irrefl _)
      · exact hrequest
  · rw [worker_enter] at hrequest
    rw [awaiting_enter, hrequest]
    exact ⟨rfl, inbox_enter⟩
  · rw [guardian_enter]
    rcases queuedStart_enter hqueued with hold | ⟨_, hbound⟩
    · exact h.starts run binding hold
    · exact hok.bound binding hbound
  · rcases queuedStop_enter hqueued with hold | ⟨entry, hentry, rfl, hstop⟩
    · exact (h.stops run hold).evolves he
    · exact hok'.sealed worker_enter hentry hstop
  · rw [worker_enter]
    exact hok'
  · simp
  · rw [host_enter] at hrun
    exact (h.runs run snapshot hrun).imp id (·.evolves he)
  · rw [host_enter] at hscope
    exact (h.scope hscope).evolves he

/-! ### Facts the host records -/

/-- The host records a responsibility: what was observed stays as it is. -/
theorem Invariant.record (he : Evolves system { system with host := host })
    (hintent : host.intent = system.host.intent) (hruns : host.runs = system.host.runs)
    (hscope : host.scope = system.host.scope)
    (hlaunched : system.host.launched = true → host.launched = true) :
    Invariant { system with host := host } where
  guardian := fun guardian hguardian => (h.guardian guardian hguardian).imp hlaunched id
  queued := h.queued
  awaited := h.awaited
  resting := h.resting
  starts := h.starts
  stops := fun run hqueued => (h.stops run hqueued).evolves he
  worker := h.worker.evolves he hruns hscope
  inbox := by
    intro reply hreply
    rw [show ({ system with host := host } : System).host.intent = system.host.intent from hintent]
    exact (h.inbox reply hreply).evolves he hruns hscope
  runs := by
    intro run snapshot hrun
    rw [show ({ system with host := host } : System).host.runs = system.host.runs from hruns] at hrun
    exact (h.runs run snapshot hrun).imp id (·.evolves he)
  scope := by
    intro hclosed
    rw [show ({ system with host := host } : System).host.scope = system.host.scope from hscope]
      at hclosed
    exact (h.scope hclosed).evolves he

/-- Requests are lost, or one is added that neither starts nor stops a Run. -/
theorem Invariant.requests (queue : List (Nat × Call)) (tickets : Nat)
    (hqueue : ∀ item ∈ queue, item ∈ system.queue ∨ item.1 = system.tickets ∧
      item.1 < tickets ∧ ∀ channel request, item.2 = .run channel request →
        (∀ run spec, request.operation ≠ .start run spec) ∧ ∀ run, request.operation ≠ .stop run)
    (htickets : system.tickets ≤ tickets) :
    Evolves system { system with queue := queue, tickets := tickets } ∧
      Invariant { system with queue := queue, tickets := tickets } := by
  have hstarts : ∀ run binding,
      ({ system with queue := queue, tickets := tickets } : System).QueuedStart run binding →
        system.QueuedStart run binding := by
    rintro run binding ⟨ticket, channel, request, spec, hitem, hstart, hhost⟩
    rcases hqueue _ hitem with hold | ⟨_, _, hnew⟩
    · exact ⟨ticket, channel, request, spec, hold, hstart, hhost⟩
    · exact absurd hstart ((hnew channel request rfl).1 run spec)
  have hstops : ∀ run, ({ system with queue := queue, tickets := tickets } : System).QueuedStop run →
      system.QueuedStop run := by
    rintro run ⟨ticket, channel, request, hitem, hstop⟩
    rcases hqueue _ hitem with hold | ⟨_, _, hnew⟩
    · exact ⟨ticket, channel, request, hold, hstop⟩
    · exact absurd hstop ((hnew channel request rfl).2 run)
  have he : Evolves system { system with queue := queue, tickets := tickets } :=
    .still (fun _ h => h) (fun h => h) (fun _ h => h) (fun _ h => .inl h)
      (fun run binding h => .inl (hstarts run binding h)) fun _ h => h
  refine ⟨he, h.guardian, fun item hitem => ?_, fun ticket hticket => ?_, h.resting,
    fun run binding hqueued => h.starts run binding (hstarts run binding hqueued),
    fun run hqueued => (h.stops run (hstops run hqueued)).evolves he, h.worker.evolves he rfl rfl,
    fun reply hreply => (h.inbox reply hreply).evolves he rfl rfl,
    fun run snapshot hrun => (h.runs run snapshot hrun).imp id (·.evolves he),
    fun hscope => (h.scope hscope).evolves he⟩
  · rcases hqueue item hitem with hold | ⟨_, hlt, _⟩
    · exact Nat.lt_of_lt_of_le (h.queued item hold) htickets
    · exact hlt
  · obtain ⟨hlt, hrequest⟩ := h.awaited ticket hticket
    refine ⟨Nat.lt_of_lt_of_le hlt htickets, fun call hitem => ?_⟩
    rcases hqueue _ hitem with hold | ⟨heq, _, _⟩
    · exact hrequest call hold
    · exact absurd (heq ▸ hlt) (Nat.lt_irrefl _)

theorem Invariant.rest (he : Evolves system after)
    (hguardian : after.guardian = system.guardian) (hqueue : after.queue = system.queue)
    (htickets : after.tickets = system.tickets) (hlaunched : after.host.launched = system.host.launched)
    (hawaiting : after.awaiting = none) (hinbox : after.inbox = none)
    (hok : WorkerOk after after.worker)
    (hruns : ∀ (run : RunId) snapshot, after.host.runs[run]? = some snapshot →
      snapshot.id = run ∧ Accounted after snapshot)
    (hscope : after.host.scope.any ScopeState.isClosed = true → Closed after) : Invariant after where
  guardian := by
    rw [hguardian, hlaunched]
    exact h.guardian
  queued := by
    rw [hqueue, htickets]
    exact h.queued
  awaited := by
    rw [hawaiting]
    exact nofun
  resting := fun _ => ⟨hawaiting, hinbox⟩
  starts := by
    intro run binding hqueued
    rw [hguardian]
    exact h.starts run binding (hqueued.mono fun item hitem => hqueue ▸ hitem)
  stops := fun run hqueued =>
    (h.stops run (hqueued.mono fun item hitem => hqueue ▸ hitem)).evolves he
  worker := hok
  inbox := by
    rw [hinbox]
    exact nofun
  runs := hruns
  scope := hscope

end

/-! ### The reply to a request -/

section Reply

variable {reply : Reply} {snapshot : RunSnapshot}

theorem Absent.row (habsent : Absent system run) (hguardian : system.guardian = some guardian)
    (hlaunched : system.host.launched = true) : guardian.store.rows[run]? = none := by
  rcases habsent with hfenced | hunlaunched
  · obtain ⟨current, hcurrent, hrow, _⟩ := hfenced.guardian
    rw [hguardian] at hcurrent
    cases hcurrent
    exact hrow
  · rw [hunlaunched.launched] at hlaunched
    cases hlaunched

/-- What the journal of the guardian says agrees with what the host has saved. -/
theorem agrees_of_row (hguardian : system.guardian = some guardian)
    (hlaunched : system.host.launched = true) {row : GuardianRow}
    (hrow : guardian.store.rows[snapshot.id]? = some row) (hsnapshot : row.snapshot = snapshot)
    (hruns : ∀ recorded, system.host.runs[snapshot.id]? = some recorded →
      recorded.id = snapshot.id ∧ Accounted system recorded) : Agrees system.host snapshot := by
  intro recorded hrecorded hcomplete
  obtain ⟨hid, ⟨current, row', hcurrent, hrow', hsame⟩ | ⟨habsent, _⟩⟩ := hruns recorded hrecorded
  · rw [hguardian] at hcurrent
    cases hcurrent
    rw [hid, hrow] at hrow'
    cases hrow'
    rw [hsnapshot] at hsame
    exact hsame hcomplete
  · rw [hid] at habsent
    rw [habsent.row hguardian hlaunched] at hrow
    cases hrow

/-- Nothing but a cancellation is saved of a Run without a row. -/
theorem agrees_cancelled (hrow : ∀ guardian, system.guardian = some guardian →
      guardian.store.rows[run]? = none)
    (hruns : ∀ recorded, system.host.runs[run]? = some recorded →
      recorded.id = run ∧ Accounted system recorded) : Agrees system.host (cancelled run) := by
  intro recorded hrecorded _
  obtain ⟨hid, ⟨guardian, row, hguardian, hrow', _⟩ | ⟨_, hdirect, hcleanup⟩⟩ :=
    hruns recorded hrecorded
  · rw [hid, hrow guardian hguardian] at hrow'
    cases hrow'
  · exact ⟨hdirect.symm, hcleanup.symm⟩

theorem accounted_cancelled (habsent : Absent system run) : Accounted system (cancelled run) :=
  .inr ⟨habsent, rfl, rfl⟩

theorem WorkerOk.goOn {work : Work} {observation : Observation} {rest : List Entry}
    (hok : WorkerOk system worker) (hbound : worker.bound = some work.binding)
    (hentries : rest ⊆ worker.entries)
    (hnodup : (observation.runs.map (·.id) ++ rest.map (·.run)).Nodup)
    (hruns : ∀ snapshot ∈ observation.runs, Accounted system snapshot ∧ Agrees system.host snapshot)
    (hscope : ∀ state, observation.scope = some state →
      (state.isClosed = true → Closed system) ∧
        (system.host.scope.any ScopeState.isClosed = true → state.isClosed = true)) :
    WorkerOk system (Worker.next work observation rest) where
  nodup := by
    rw [entries_next, observation_next]
    exact hnodup
  stops := by
    rw [entries_next]
    exact fun entry hentry => hok.stops entry (hentries hentry)
  bound := by
    intro binding hbinding
    cases rest with
    | nil => cases hbinding
    | cons entry rest =>
      cases hbinding
      exact hok.bound _ hbound
  runs := by
    rw [observation_next]
    exact hruns
  scope := by
    rw [observation_next]
    exact hscope

/-- The answer about a Run is added to what was observed. -/
theorem WorkerOk.observe {work : Work} {observation : Observation} {entry : Entry}
    {rest : List Entry} (hok : WorkerOk system (.stepping work observation entry rest))
    (hid : snapshot.id = entry.run) (haccounted : Accounted system snapshot)
    (hagrees : Agrees system.host snapshot) :
    WorkerOk system
      (Worker.next work { observation with runs := observation.runs ++ [snapshot] } rest) := by
  refine hok.goOn rfl (List.subset_cons_self entry rest) ?_ (fun other hother => ?_) hok.scope
  · have hnodup := hok.nodup
    rw [List.map_append, List.append_assoc]
    simpa [Worker.observation, Worker.entries, hid] using hnodup
  · rw [List.mem_append, List.mem_singleton] at hother
    rcases hother with hold | rfl
    · exact hok.runs other hold
    · exact ⟨haccounted, hagrees⟩

/-! ### A guardian call -/

/-- The guardian has served a call; the host and the pass are as they were. -/
structure Served (system : System) (first : Guardian) (call : Call)
    (journal : List (GuardianEvent × Guardian)) (last : Guardian) (after : System) : Prop where
  ends : CallEnds first call journal last
  guardian : system.guardian = some first
  host : after.host = system.host
  worker : after.worker = system.worker
  awaiting : after.awaiting = system.awaiting
  tickets : after.tickets = system.tickets
  queue : ∀ item ∈ after.queue, item ∈ system.queue
  last : after.guardian = some last

variable (hs : Served system guardian call journal last after)
include hs

theorem Served.evolves
    (hcall : ∀ run, StartOf guardian run call → system.QueuedStart run guardian.store.host) :
    Evolves system after := by
  refine ⟨?_, ?_, ?_, ?_, fun run binding h => .inl (h.mono hs.queue), fun current hcurrent => ?_⟩
  · rw [hs.host]
    exact fun _ h => h
  · rw [hs.host]
    exact id
  · rw [hs.host]
    exact fun _ h => h
  · rw [hs.worker]
    exact fun _ h => .inl h
  · rw [hs.guardian] at hcurrent
    cases hcurrent
    exact ⟨last, hs.last, hs.ends.later, hs.ends.rows, hs.ends.final, hs.ends.closed,
      fun run hrow hqueued => (hs.ends.other run (fun hstart => hqueued (hcall run hstart)) hrow).1⟩

variable (h : Invariant system) (he : Evolves system after)
include h he

theorem Served.invariant (hinbox : ∀ reply, after.inbox = some reply →
      WorkerOk after (after.worker.receive after.host.intent reply))
    (hresting : after.worker.request = none → after.inbox = none) : Invariant after where
  guardian := by
    intro current hcurrent
    rw [hs.last] at hcurrent
    cases hcurrent
    rw [hs.host]
    exact ⟨(h.guardian guardian hs.guardian).1, hs.ends.sound⟩
  queued := by
    intro item hitem
    rw [hs.tickets]
    exact h.queued item (hs.queue item hitem)
  awaited := by
    intro ticket hticket
    rw [hs.awaiting] at hticket
    obtain ⟨hlt, hrequest⟩ := h.awaited ticket hticket
    rw [hs.tickets, hs.worker]
    exact ⟨hlt, fun call hitem => hrequest call (hs.queue _ hitem)⟩
  resting := by
    intro hrequest
    refine ⟨?_, hresting hrequest⟩
    rw [hs.worker] at hrequest
    rw [hs.awaiting]
    exact (h.resting hrequest).1
  starts := by
    intro run binding hqueued
    obtain ⟨current, hcurrent, hlater⟩ := h.starts run binding (hqueued.mono hs.queue)
    rw [hs.guardian] at hcurrent
    cases hcurrent
    exact ⟨last, hs.last, hlater.trans hs.ends.later⟩
  stops := fun run hqueued => (h.stops run (hqueued.mono hs.queue)).evolves he
  worker := by
    rw [hs.worker]
    exact h.worker.evolves he (by rw [hs.host]) (by rw [hs.host])
  inbox := hinbox
  runs := by
    intro run snapshot hrun
    rw [hs.host] at hrun
    exact (h.runs run snapshot hrun).imp id (·.evolves he)
  scope := by
    intro hscope
    rw [hs.host] at hscope
    exact (h.scope hscope).evolves he

/-- The guardian does not know a Run it is asked to stop. -/
theorem Served.fenced (hrow : last.store.rows[run]? = none) (hstop : system.QueuedStop run)
    (hordered : ¬system.QueuedStart run guardian.store.host) : Fenced after run := by
  refine ⟨(h.stops run hstop).evolves he, last, hs.last, hrow, fun binding hqueued => ?_⟩
  have hstart := hqueued.mono hs.queue
  obtain ⟨current, hcurrent, hlater⟩ := h.starts run binding hstart
  rw [hs.guardian] at hcurrent
  cases hcurrent
  rcases hlater with hlt | heq
  · rcases hs.ends.later with hlt' | heq
    · exact Nat.lt_trans hlt hlt'
    · rw [heq]
      exact hlt
  · rw [heq] at hordered
    exact absurd hstart hordered

theorem Served.received {ticket : Nat} (hitem : (ticket, call) ∈ system.queue)
    (hrequest : system.worker.request = some call) (hreplies : Replies guardian last call reply)
    (hordered : ∀ channel request run, call = .run channel request →
      request.operation = .stop run → guardian.store.rows[run]? = none →
        ¬system.QueuedStart run request.session.host) :
    WorkerOk after (system.worker.receive after.host.intent reply) := by
  have hok : WorkerOk after system.worker := h.worker.evolves he (by rw [hs.host]) (by rw [hs.host])
  have hlaunched : after.host.launched = true := by
    rw [hs.host]
    exact (h.guardian guardian hs.guardian).1
  have hruns : ∀ (run : RunId) recorded, after.host.runs[run]? = some recorded →
      recorded.id = run ∧ Accounted after recorded := by
    intro run recorded hrecorded
    rw [hs.host] at hrecorded
    exact (h.runs run recorded hrecorded).imp id (·.evolves he)
  have hreceived := received_receive after.host.intent system.worker reply
  generalize system.worker.receive after.host.intent reply = next at hreceived
  generalize system.worker = worker at hreceived hok hrequest
  cases hreceived with
  | bound work intent session hbound =>
    cases hrequest
    refine ⟨hok.nodup, hok.stops, fun binding hbinding => ?_, hok.runs, hok.scope⟩
    cases hbinding
    exact ⟨last, hs.last, .inr (hreplies.symm.trans hbound)⟩
  | scope work reply state hresult =>
    cases hrequest
    have hstate : state = last.store.scope := by
      have hanswers := hreplies.1
      rw [hresult] at hanswers
      exact hanswers
    refine hok.goOn rfl (List.Subset.refl _) hok.nodup (List.forall_mem_nil _) fun state' hs => ?_
    cases hs
    refine ⟨fun hclosed => .inl ⟨last, hs.last, hstate ▸ hclosed⟩, fun hclosed => ?_⟩
    -- The Scope was closed when the host saved that it is, and a journal does not reopen it.
    rw [hs.host] at hclosed
    rcases (h.scope hclosed).evolves he with ⟨current, hcurrent, hscope⟩ | hunlaunched
    · rw [hs.last] at hcurrent
      cases hcurrent
      rw [hstate]
      exact hscope
    · rw [hunlaunched.launched] at hlaunched
      cases hlaunched
  | run work observation entry rest reply snapshot hresult hid =>
    cases hrequest
    have hanswers := hreplies.1
    rw [hresult] at hanswers
    obtain ⟨row, hrow, hsnapshot⟩ := hanswers entry.run (target_operation entry)
    rw [← hid] at hrow
    refine hok.observe hid (.inl ⟨last, row, hs.last, hrow, fun _ => ?_⟩)
      (agrees_of_row hs.last hlaunched hrow hsnapshot fun recorded => hruns snapshot.id recorded)
    rw [hsnapshot]
    exact ⟨rfl, rfl⟩
  | unknown work observation entry rest reply hresult hstop =>
    cases hrequest
    obtain ⟨hanswers, ⟨reason, hmanagement⟩ | hsession⟩ := hreplies
    · rw [hresult] at hmanagement
      cases hmanagement
    have hoperation : entry.operation = .stop entry.run := by
      rw [Entry.operation, if_pos hstop]
    rw [hresult] at hanswers
    have hrow := hanswers entry.run hoperation rfl
    have hunknown : guardian.store.rows[entry.run]? = none := by
      refine Std.ExtTreeMap.getElem?_eq_none fun hmem => ?_
      cases hrow.symm.trans (Std.ExtTreeMap.getElem?_eq_some_getElem (hs.ends.rows _ hmem))
    have hfenced : Fenced after entry.run :=
      hs.fenced h he hrow ⟨ticket, _, _, hitem, hoperation⟩
        (hsession ▸ hordered _ _ entry.run rfl hoperation hunknown)
    refine hok.observe rfl (accounted_cancelled (.inl hfenced))
      (agrees_cancelled (fun current hcurrent => ?_) fun recorded => hruns entry.run recorded)
    rw [hs.last] at hcurrent
    cases hcurrent
    exact hrow
  | skip work observation entry rest reply =>
    refine hok.goOn rfl (List.subset_cons_self entry rest) ?_ hok.runs hok.scope
    exact hok.nodup.sublist ((List.Sublist.refl _).append (List.sublist_cons_self _ _))
  | giveUp worker reply => exact hok.giveUp

end Reply

end System

end OraDesktop.Process
