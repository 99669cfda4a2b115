import OraDesktop.History.Recording
import OraDesktop.Session.Prompt

/-!
# What a follower receives

A view that loads a session while a prompt runs is given the history of the moment it is registered,
what the turn records from then on, and the end of the turn. The replay is exact because the cutoff
and the pending records are taken together: the file up to the cutoff never changes again, and no
pending record has the position of a line in it.

The updates that are read while a cancelled or stalled attempt is settled are recorded without being
mirrored, so followers miss them. A follower that is attached while this happens has a hole in its
stream; where it does not happen, nothing is missing.

## Main results

* `Follows` — what was delivered to a follower, and what is on its way
* `follower_misses_nothing` — through every run that settles no update past a follower
* `settled_update_is_not_mirrored` — a run that does
-/

namespace OraDesktop.Session

open History Delimited Latest List Follower Turn SessionRecorder

variable {codec : LineCodec HistoryRecord}

/-! ### The recorder in a turn -/

namespace Turn

/-- What the end of a turn asks of the recorder: the timings are frozen first, since the end of the
turn writes the open calls. -/
def endOperations (timings : ToolTimings) (stopReason : StopReason) (finish : EndIo) :
    List (Operation × Io) :=
  [(.toolTimings (timings.finishAll finish.elapsedMs), finish.io), (.turnEnd stopReason, finish.io)]

def settlingOperation : SettlingEvent → Option (Operation × Io)
  | .update update io => some (.update update none, io)
  | .permission | .otherResponse => none

/-- What an input asks of the recorder. Followers are no part of it, so the recorder of a turn is
that of a session without views. -/
def operations (turn : Turn) : Input → List (Operation × Io)
  | .update update stamp elapsedMs io delivered finish =>
    (.update update (turn.timings.observe update stamp elapsedMs).2, io) ::
      if delivered then []
      else endOperations (turn.timings.observe update stamp elapsedMs).1 .cancelled finish
  | .permission granted finish => if granted then [] else endOperations turn.timings .cancelled finish
  | .response stopReason finish =>
    stopReason.elim [] fun stopReason => endOperations turn.timings stopReason finish
  | .interrupted finish => endOperations turn.timings .cancelled finish
  | .cancelPrompt settling reusable drained finish =>
    (settling ++ if reusable then [] else drained).filterMap settlingOperation ++
      endOperations turn.timings .cancelled finish
  | .stalled settling .resent => settling.filterMap settlingOperation
  | .stalled settling (.failed drained finish) =>
    (settling ++ drained).filterMap settlingOperation ++
      endOperations turn.timings .cancelled finish
  | .load _ _ | .cancelFollower _ | .otherCommand | .relay _ _ => []

/-- What a run asks of the recorder; a turn that has ended asks nothing. -/
def performed (codec : LineCodec HistoryRecord) (turn : Turn) : List Input → List (Operation × Io)
  | [] => []
  | input :: rest =>
    (if turn.ended.isSome then [] else turn.operations input) ++
      performed codec (turn.step codec input).1 rest

variable {turn : Turn}

theorem settle_eq (settling : List SettlingEvent) :
    turn.settle codec settling = { turn with
      recorder := turn.recorder.performAll codec (settling.filterMap settlingOperation) } := by
  induction settling generalizing turn with
  | nil => rfl
  | cons event rest ih =>
    cases event with
    | update update io | permission | otherResponse => exact ih

theorem recorder_act (input : Input) :
    (turn.act codec input).1.recorder =
      turn.recorder.performAll codec (turn.operations input) := by
  cases input with
  | update update stamp elapsedMs io delivered finish => cases delivered <;> rfl
  | permission granted finish => cases granted <;> rfl
  | response stopReason finish => cases stopReason <;> rfl
  | interrupted finish => rfl
  | load operation accepted => cases accepted <;> rfl
  | cancelFollower operation => rfl
  | cancelPrompt settling reusable drained finish =>
    rw [act, settle_eq, operations, performAll_append]
    rfl
  | stalled settling outcome =>
    cases outcome with
    | resent =>
      rw [act, settle_eq]
      rfl
    | failed drained finish =>
      rw [act, settle_eq, operations, performAll_append]
      rfl
  | otherCommand => rfl
  | relay index step => rfl

/-- A step of a relay, an input that comes too late, or one of the running turn. -/
theorem step_cases (codec : LineCodec HistoryRecord) (turn : Turn) (input : Input) :
    (∃ index relayStep, input = .relay index relayStep) ∨
    (turn.ended.isSome = true ∧ turn.step codec input = (turn, [])) ∨
    (turn.ended = none ∧ turn.step codec input = turn.act codec input) := by
  cases input with
  | relay index relayStep => exact .inl ⟨index, relayStep, rfl⟩
  | _ =>
    refine .inr ?_
    rcases hended : turn.ended with _ | stopReason
    · refine .inr ⟨rfl, ?_⟩
      simp only [step, hended]
      rfl
    · refine .inl ⟨rfl, ?_⟩
      simp only [step, hended]
      rfl

theorem recorder_step (input : Input) :
    (turn.step codec input).1.recorder = turn.recorder.performAll codec
      (if turn.ended.isSome then [] else turn.operations input) := by
  rcases step_cases codec turn input with
    ⟨index, relayStep, rfl⟩ | ⟨hended, hstep⟩ | ⟨hended, hstep⟩
  · rw [operations, ite_self]
    rfl
  · rw [hstep, if_pos hended]
    rfl
  · rw [hstep, hended]
    exact recorder_act input

theorem recorder_run (codec : LineCodec HistoryRecord) (turn : Turn) (inputs : List Input) :
    (turn.run codec inputs).1.recorder =
      turn.recorder.performAll codec (turn.performed codec inputs) := by
  induction inputs generalizing turn with
  | nil => rfl
  | cons input rest ih =>
    rw [performed, performAll_append, ← recorder_step]
    exact ih (turn.step codec input).1

end Turn

/-! ### One follower -/

/-- What the turn mirrors of an update it recorded. -/
def liveEvent (recorded : Recorded) : LoadEvent := .sessionUpdate recorded.1 none recorded.2

/-- What closes a follower's stream: the boundary of the turn, and that nothing follows it. -/
def closingEvents : Option StopReason → List LoadEvent
  | none => []
  | some stopReason => [.turnEnded stopReason none, .completed]

namespace Follower

/-- The follower did not overflow and was not removed, its view is still there, and no read of its
history has failed. -/
def Kept (follower : Follower) : Prop :=
  follower.overflowed = false ∧ follower.removed = false ∧ follower.stopped = false

/-- What the relay has still to deliver, where `base` is the file up to the cutoff. -/
def undelivered (codec : LineCodec HistoryRecord) (base : Bytes) (follower : Follower) :
    List LoadEvent :=
  (if follower.replayed then [] else replayPrefix (parseHistory codec base) follower.pending) ++
    follower.queue ++ follower.closing

end Follower

/-- What was delivered to the follower and what is on its way is the replay of the moment it was
registered at, what was mirrored since, and the end of the turn if it has ended. -/
structure Follows (codec : LineCodec HistoryRecord) (base : Bytes) (unsettled : List Record)
    (live : List LoadEvent) (ended : Option StopReason) (follower : Follower) : Prop where
  cutoff : follower.cutoff = base.length
  pending : follower.pending = unsettled
  attached : follower.attached = ended.isNone
  closing : ended = none → follower.closing = []
  stream : follower.output ++ follower.undelivered codec base =
    replayPrefix (parseHistory codec base) unsettled ++ live ++ closingEvents ended

variable {base file : Bytes} {pending : List Record} {live : List LoadEvent}
  {ended : Option StopReason} {follower : Follower}

theorem follows_new (operation : Nat) (base : Bytes) (pending : List Record) :
    Follows codec base pending [] none (Follower.new operation base.length pending) :=
  ⟨rfl, rfl, rfl, fun _ => rfl, by simp [new, undelivered, closingEvents]⟩

namespace Follower

theorem kept_of_send {event : LoadEvent} (h : (follower.send event).Kept) : follower.Kept := by
  rw [send] at h
  split at h
  · exact h
  split at h
  · exact h
  · split at h
    · exact absurd h.1 nofun
    · exact h

theorem kept_of_finish {stopReason : StopReason} (h : (follower.finish stopReason).Kept) :
    follower.Kept := by
  rw [finish] at h
  split at h
  · exact h
  · exact h

end Follower

theorem Follows.send {event : LoadEvent} (h : Follows codec base pending live none follower)
    (hkept : (follower.send event).Kept) :
    Follows codec base pending (live ++ [event]) none (follower.send event) := by
  have hclosing := h.closing rfl
  have hstream := h.stream
  rw [undelivered, hclosing] at hstream
  have hgone := (kept_of_send hkept).2.2
  rw [Follower.send, if_neg (by simp [h.attached]), if_neg (by simp [hgone])] at hkept ⊢
  split at hkept
  · exact absurd hkept.1 nofun
  rename_i hroom
  rw [if_neg hroom]
  refine ⟨h.cutoff, h.pending, h.attached, h.closing, ?_⟩
  simp only [closingEvents, append_nil] at hstream
  simp only [undelivered, closingEvents, hclosing, append_nil]
  rw [← append_assoc _ live, ← hstream]
  simp

theorem Follows.finish {stopReason : StopReason}
    (h : Follows codec base pending live none follower) :
    Follows codec base pending live (some stopReason) (follower.finish stopReason) := by
  have hstream := h.stream
  rw [undelivered, h.closing rfl] at hstream
  have hattached : follower.attached = true := h.attached
  rw [Follower.finish, if_pos hattached]
  refine ⟨h.cutoff, h.pending, rfl, nofun, ?_⟩
  simp only [closingEvents, append_nil] at hstream
  simp only [undelivered, closingEvents]
  rw [← hstream]
  simp

/-! ### The relay -/

theorem Follower.kept_of_relay {relayStep : RelayStep}
    (h : (follower.relay codec file relayStep).Kept) : follower.Kept := by
  cases relayStep with
  | replay read =>
    cases read <;> rw [relay] at h <;> split at h
    · exact h
    · exact absurd h.2.2 (by simp [stopped])
    · exact h
    · exact h
  | deliver =>
    rw [relay] at h
    split at h
    · exact h
    · split at h <;> exact h
  | close =>
    rw [relay] at h
    split at h
    · exact h
    · split at h <;> exact h
  | leave => exact absurd h.2.2 nofun

/-- What the relay does moves events from the way to the view. -/
theorem Follows.relay {relayStep : RelayStep}
    (h : Follows codec base pending live ended follower) (hbase : base <+: file)
    (hkept : (follower.relay codec file relayStep).Kept) :
    Follows codec base pending live ended (follower.relay codec file relayStep) := by
  have hstream := h.stream
  have hgone := (kept_of_relay hkept).2.2
  cases relayStep with
  | leave => exact absurd hkept.2.2 nofun
  | replay read =>
    by_cases hreplayed : follower.replayed = true
    · cases read <;> rw [Follower.relay, if_pos (by simp [hreplayed])] <;> exact h
    cases read <;> rw [Follower.relay, if_neg (by simp [hreplayed, hgone])] at hkept ⊢
    · exact absurd hkept.2.2 (by simp [stopped])
    refine ⟨h.cutoff, h.pending, h.attached, h.closing, ?_⟩
    obtain ⟨rest, rfl⟩ := hbase
    rw [← hstream]
    simp [undelivered, hreplayed, h.cutoff, readUpTo]
  | deliver =>
    rw [Follower.relay]
    split
    · exact h
    rename_i event rest hqueue
    split
    · exact h
    rename_i hready
    have hreplayed : follower.replayed = true := by simpa [hgone] using hready
    refine ⟨h.cutoff, h.pending, h.attached, h.closing, ?_⟩
    rw [← hstream]
    simp [undelivered, hreplayed, hqueue]
  | close =>
    rw [Follower.relay]
    split
    · exact h
    rename_i event rest hclosing
    split
    · exact h
    have hended : ended ≠ none := by
      intro hnone
      rw [h.closing hnone] at hclosing
      cases hclosing
    refine ⟨h.cutoff, h.pending, h.attached, fun hnone => absurd hnone hended, ?_⟩
    rw [← hstream]
    simp [undelivered, hclosing]

namespace Follower

def relays (codec : LineCodec HistoryRecord) (file : Bytes) (follower : Follower)
    (steps : List RelayStep) : Follower :=
  steps.foldl (·.relay codec file ·) follower

/-- How many steps of the relay are left: the replay, what waits in the queue, and what waits for
the queue. -/
def left (follower : Follower) : Nat :=
  (if follower.replayed then 0 else 1) + follower.queue.length + 2 * follower.closing.length

theorem exists_relay (hgone : follower.stopped = false) (hleft : 0 < follower.left) :
    ∃ relayStep, (follower.relay codec file relayStep).left < follower.left ∧
      ((follower.relay codec file relayStep).Kept ↔ follower.Kept) := by
  rw [stopped, Bool.or_eq_false_iff] at hgone
  rcases hreplayed : follower.replayed with _ | _
  · refine ⟨.replay (some []), ?_, ?_⟩ <;> simp [relay, left, stopped, hgone, hreplayed, Kept]
  rcases hqueue : follower.queue with _ | ⟨event, rest⟩
  · rcases hclosing : follower.closing with _ | ⟨event, rest⟩
    · simp [left, hreplayed, hqueue, hclosing] at hleft
    · refine ⟨.close, ?_, ?_⟩ <;>
        simp [relay, left, stopped, hgone, hreplayed, hqueue, hclosing, queueCapacity, Kept]
      omega
  · refine ⟨.deliver, ?_, ?_⟩ <;> simp [relay, left, stopped, hgone, hreplayed, hqueue, Kept]

end Follower

/-- A relay that is left to run delivers everything. -/
theorem Follows.exists_delivered (h : Follows codec base pending live ended follower)
    (hbase : base <+: file) (hkept : follower.Kept) :
    ∃ steps, (follower.relays codec file steps).output =
      replayPrefix (parseHistory codec base) pending ++ live ++ closingEvents ended := by
  induction hn : follower.left using Nat.strong_induction_on generalizing follower with
  | _ n ih =>
    by_cases hleft : 0 < follower.left
    · obtain ⟨relayStep, hless, hiff⟩ := exists_relay hkept.2.2 hleft
      have hkept := hiff.mpr hkept
      obtain ⟨steps, hsteps⟩ := ih _ (hn ▸ hless) (h.relay hbase hkept) hkept rfl
      exact ⟨relayStep :: steps, hsteps⟩
    refine ⟨[], ?_⟩
    have hstream := h.stream
    rw [left] at hleft
    have hreplayed : follower.replayed = true := by
      by_contra hnot
      simp [hnot] at hleft
    have hqueue : follower.queue = [] := eq_nil_of_length_eq_zero (by omega)
    have hclosing : follower.closing = [] := eq_nil_of_length_eq_zero (by omega)
    rw [undelivered, if_pos hreplayed, hqueue, hclosing] at hstream
    rw [← hstream]
    simp [relays]

/-! ### The turn -/

/-- What is read in the loops that settle an attempt. They record what they read and do not mirror
it. -/
def Input.settled : Input → List SettlingEvent
  | .cancelPrompt settling reusable drained _ => settling ++ if reusable then [] else drained
  | .stalled settling .resent => settling
  | .stalled settling (.failed drained _) => settling ++ drained
  | .update .. | .permission .. | .response .. | .interrupted _ | .load .. | .cancelFollower _
  | .otherCommand | .relay .. => []

/-- No update is read in these loops while a follower is attached. -/
def Orderly (turn : Turn) (input : Input) : Prop :=
  input.settled.filterMap SettlingEvent.update? = [] ∨
    ∀ follower ∈ turn.followers, follower.attached = false

/-- All through a run: an update that is settled past a follower is the one way in which a follower
can miss anything. -/
def OrderlyRun (codec : LineCodec HistoryRecord) : Turn → List Input → Prop
  | _, [] => True
  | turn, input :: rest => Orderly turn input ∧ OrderlyRun codec (turn.step codec input).1 rest

instance (turn : Turn) (input : Input) : Decidable (Orderly turn input) :=
  inferInstanceAs (Decidable (_ ∨ _))

instance instDecidableOrderlyRun (codec : LineCodec HistoryRecord) :
    ∀ turn inputs, Decidable (OrderlyRun codec turn inputs)
  | _, [] => inferInstanceAs (Decidable True)
  | turn, input :: rest =>
    have := instDecidableOrderlyRun codec (turn.step codec input).1 rest
    inferInstanceAs (Decidable (Orderly turn input ∧ _))

section Step

variable {turn : Turn} {index : Nat} {follower' : Follower}

theorem length_step (input : Input) :
    turn.followers.length ≤ (turn.step codec input).1.followers.length := by
  rcases step_cases codec turn input with
    ⟨at', relayStep, rfl⟩ | ⟨hended, hstep⟩ | ⟨hrunning, hstep⟩
  · change _ ≤ (turn.followers.modify _ _).length
    rw [length_modify]
  · rw [hstep]
  rw [hstep]
  cases input with
  | update update stamp elapsedMs io delivered finish =>
    cases delivered <;> simp [Turn.act, Turn.mirror, Turn.finish]
  | permission granted finish => cases granted <;> simp [Turn.act, Turn.finish]
  | response stopReason finish => cases stopReason <;> simp [Turn.act, Turn.finish]
  | interrupted finish => simp [Turn.act, Turn.finish]
  | load operation accepted => cases accepted <;> simp [Turn.act, Turn.load]
  | cancelFollower operation => simp [Turn.act]
  | cancelPrompt settling reusable drained finish =>
    simp [Turn.act, Turn.settle_eq, Turn.finish]
  | stalled settling outcome => cases outcome <;> simp [Turn.act, Turn.settle_eq, Turn.finish]
  | otherCommand => exact Nat.le_refl _
  | relay at' relayStep => exact Nat.le_refl _

variable (hget : turn.followers[index]? = some follower)
include hget

theorem Follows.settled_eq_nil {settling : List SettlingEvent}
    (h : Follows codec base pending live none follower)
    (horderly : settling.filterMap SettlingEvent.update? = [] ∨
      ∀ follower ∈ turn.followers, follower.attached = false) : Turn.recordedBy settling = [] := by
  rcases horderly with hnone | hdetached
  · rw [recordedBy, hnone, map_nil]
  · have hattached := h.attached
    rw [hdetached follower (mem_of_getElem? hget)] at hattached
    cases hattached

theorem eq_of_getElem?_map {change : Follower → Follower}
    (hget' : (turn.followers.map change)[index]? = some follower') :
    follower' = change follower := by
  rw [List.getElem?_map, hget] at hget'
  exact (Option.some.inj hget').symm

variable (hkept : follower'.Kept) {input : Input}
include hkept

/-- An input of the running turn, and a follower that is still kept after it. -/
theorem Follows.act (hrunning : turn.ended = none)
    (hget' : (turn.act codec input).1.followers[index]? = some follower')
    (horderly : Orderly turn input)
    (h : follower.Kept → Follows codec base pending live none follower) :
    Follows codec base pending (live ++ (turn.act codec input).2.map liveEvent)
      (turn.act codec input).1.ended follower' := by
  have hlength : index < turn.followers.length := (List.getElem?_eq_some_iff.mp hget).1
  -- a follower that the input does not touch
  have hsame : turn.followers[index]? = some follower' →
      Follows codec base pending (live ++ []) turn.ended follower' := by
    intro hget'
    rw [hget] at hget'
    cases hget'
    rw [append_nil, hrunning]
    exact h hkept
  have hremove : ∀ operation, (turn.followers.map (·.remove operation))[index]? = some follower' →
      Follows codec base pending (live ++ []) turn.ended follower' := by
    intro operation hget'
    cases eq_of_getElem?_map hget hget'
    refine hsame (hget.trans ?_)
    rw [remove] at hkept ⊢
    split at hkept
    · exact absurd hkept.2.1 nofun
    · rename_i hne
      rw [if_neg hne]
  -- a turn that ends after it has settled what was read
  have hfinish : ∀ (settling : List SettlingEvent) (stopReason : StopReason),
      (settling.filterMap SettlingEvent.update? = [] ∨
        ∀ follower ∈ turn.followers, follower.attached = false) →
      (turn.followers.map (·.finish stopReason))[index]? = some follower' →
      Follows codec base pending (live ++ (recordedBy settling).map liveEvent)
        (some stopReason) follower' := by
    intro settling stopReason horderly hget'
    cases eq_of_getElem?_map hget hget'
    have hfollows := h (kept_of_finish hkept)
    rw [hfollows.settled_eq_nil hget horderly, map_nil, append_nil]
    exact hfollows.finish
  cases input with
  | update update stamp elapsedMs io delivered finish =>
    cases delivered with
    | true =>
      cases eq_of_getElem?_map hget hget'
      have hsent := (h (kept_of_send hkept)).send hkept
      change Follows codec base pending _ turn.ended _
      rw [hrunning]
      exact hsent
    | false =>
      change ((turn.followers.map _).map (Follower.finish .cancelled))[index]? = _ at hget'
      rw [map_map] at hget'
      cases eq_of_getElem?_map hget hget'
      have hsent := kept_of_finish hkept
      exact ((h (kept_of_send hsent)).send hsent).finish
  | permission granted finish =>
    cases granted with
    | true => exact hsame hget'
    | false => exact hfinish [] .cancelled (.inl rfl) hget'
  | response stopReason finish =>
    cases stopReason with
    | none => exact hsame hget'
    | some stopReason => exact hfinish [] stopReason (.inl rfl) hget'
  | interrupted finish => exact hfinish [] .cancelled (.inl rfl) hget'
  | load operation accepted =>
    cases accepted with
    | false => exact hsame hget'
    | true =>
      change (turn.followers.map _ ++ _)[index]? = _ at hget'
      rw [List.getElem?_append_left (by rw [length_map]; exact hlength)] at hget'
      exact hremove operation hget'
  | cancelFollower operation => exact hremove operation hget'
  | cancelPrompt settling reusable drained finish =>
    rw [Turn.act, Turn.settle_eq] at hget' ⊢
    exact hfinish _ .cancelled horderly hget'
  | stalled settling outcome =>
    cases outcome with
    | resent =>
      rw [Turn.act, Turn.settle_eq] at hget' ⊢
      have hunchanged := hget.symm.trans hget'
      cases hunchanged
      have hnone : recordedBy settling = [] := (h hkept).settled_eq_nil hget horderly
      rw [hnone]
      exact hsame hget
    | failed drained finish =>
      rw [Turn.act, Turn.settle_eq] at hget' ⊢
      exact hfinish _ .cancelled horderly hget'
  | otherCommand => exact hsame hget'
  | relay index step => exact hsame hget'

theorem Follows.step (hget' : (turn.step codec input).1.followers[index]? = some follower')
    (horderly : Orderly turn input) (hbase : base <+: turn.recorder.store.file)
    (h : follower.Kept → Follows codec base pending live turn.ended follower) :
    Follows codec base pending (live ++ (turn.step codec input).2.map liveEvent)
      (turn.step codec input).1.ended follower' := by
  rcases step_cases codec turn input with
    ⟨at', relayStep, rfl⟩ | ⟨hended, hstep⟩ | ⟨hrunning, hstep⟩
  · change (turn.followers.modify at' _)[index]? = _ at hget'
    change Follows codec base pending (live ++ []) turn.ended follower'
    rw [List.getElem?_modify, hget, Option.map_eq_map, Option.map_some, Option.some.injEq] at hget'
    rw [append_nil]
    split at hget'
    · subst hget'
      exact (h (kept_of_relay hkept)).relay hbase hkept
    · subst hget'
      exact h hkept
  · rw [hstep] at hget' ⊢
    rw [hget] at hget'
    cases hget'
    rw [map_nil, append_nil]
    exact h hkept
  · rw [hstep] at hget' ⊢
    rw [hrunning] at h
    exact .act hget hkept hrunning hget' horderly h

theorem Follows.run {inputs : List Input}
    (hget' : (turn.run codec inputs).1.followers[index]? = some follower')
    (horderly : OrderlyRun codec turn inputs) (hbase : base <+: turn.recorder.store.file)
    (h : follower.Kept → Follows codec base pending live turn.ended follower) :
    Follows codec base pending (live ++ (turn.run codec inputs).2.map liveEvent)
      (turn.run codec inputs).1.ended follower' := by
  induction inputs generalizing turn follower live with
  | nil =>
    rw [run] at hget' ⊢
    rw [hget] at hget'
    cases hget'
    rw [map_nil, append_nil]
    exact h hkept
  | cons input rest ih =>
    obtain ⟨hfirst, hrest⟩ := horderly
    have hlength : index < (turn.step codec input).1.followers.length :=
      Nat.lt_of_lt_of_le (List.getElem?_eq_some_iff.mp hget).1 (length_step input)
    have hnext := ih (List.getElem?_eq_getElem hlength) hget' hrest
      (hbase.trans (by rw [recorder_step]; exact file_performAll _)) fun hkept =>
        .step hget hkept (List.getElem?_eq_getElem hlength) hfirst hbase h
    rw [append_assoc, ← map_append] at hnext
    exact hnext

end Step

/-! ### The replay -/

/-- The replay of a moment: of every position that is settled the last line, and every record that
is pending, in the order of the positions. -/
structure ReplayOf (settled : List (Line HistoryRecord)) (unsettled : List Record)
    (items : List Replayed) : Prop where
  sorted : items.Pairwise fun a b => a.seq < b.seq
  mem : ∀ item, item ∈ items ↔
    (∃ line, settled.reverse.find? (fun other => decide (other.seq = line.seq)) = some line ∧
      item = .ofLine line) ∨
    ∃ record ∈ unsettled, item = .ofPending record

theorem replayOf_merged {recorder : SessionRecorder} {opened : Bytes}
    {lines : List (Line HistoryRecord)} (h : recorder.Sound codec opened lines) :
    ReplayOf (readableLines codec opened ++ lines) recorder.pendingRecords
      (merged (parseHistory codec recorder.store.file) recorder.pendingRecords) := by
  have hlatest : IsLatest Line.seq (readableLines codec opened ++ lines)
      (parseHistory codec recorder.store.file).lines := by
    rw [h.parseHistory.1]
    exact isLatest_latest Line.seq _
  constructor
  · refine sorted_insertionSort Replayed.seq ?_
    rw [map_append, map_map, map_map, nodup_append']
    refine ⟨pairwise_map.mpr (hlatest.sorted.imp fun hlt => Nat.ne_of_lt hlt),
      pairwise_map.mpr ((HistoryAssembler.sorted_pendingRecords h.placed).imp
        fun hlt => Nat.ne_of_lt hlt), ?_⟩
    -- no line of the file is at the position of a pending record
    intro seq hsettled hpending
    obtain ⟨line, hline, rfl⟩ := mem_map.mp hsettled
    obtain ⟨record, hrecord, heq⟩ := mem_map.mp hpending
    have hmem : line ∈ readableLines codec opened ++ lines :=
      mem_reverse.mp (mem_of_find?_eq_some ((hlatest.mem line).mp hline))
    refine HistoryAssembler.fresh_pendingRecords h.placed hrecord ?_
    have hseq : record.seq = line.seq := heq
    rw [hseq]
    exact mem_map_of_mem hmem
  · intro item
    rw [merged, mem_insertionSort, mem_append, mem_map, mem_map]
    simp only [hlatest.mem, eq_comm]

/-- The turn of a session that was opened over a file and has since recorded the operations. -/
def Turn.ofSession (codec : LineCodec HistoryRecord) (opened : Bytes) (readable writable : Bool)
    (earlier : List (Operation × Io)) : Turn :=
  Turn.start ((SessionRecorder.openRecorder codec opened readable writable).performAll codec earlier)

/-- A session is opened over a file that ends at the end of a line. Its recorder does whatever it is
asked to, and in a turn that runs a view is registered, while the recorder is still recording and
positions have not run out. The turn goes on in any way that settles no update past an attached
follower. If the follower was not dropped and no read of its history failed, it has been given the
first part, and is given the whole as its relay runs on, of: the replay of what was settled and
pending when it was registered, every update recorded since, and the end of the turn if it has
ended. -/
theorem follower_misses_nothing (codec : LineCodec HistoryRecord) {opened : Bytes}
    {readable writable : Bool} {earlier : List (Operation × Io)} {before after : List Input}
    {operation : Nat} {start turn last : Turn} {recorded : List Recorded} {follower : Follower}
    (hopened : AtBoundary newline opened) (hreadable : readable = false → opened = [])
    (hstart : start = Turn.ofSession codec opened readable writable earlier)
    (hturn : turn = (start.run codec before).1) (hwritable : turn.recorder.recording = true)
    (hroom : turn.recorder.assembler.nextSeq < maxSeq) (hrunning : turn.ended = none)
    (hlast : (turn.load operation).run codec after = (last, recorded))
    (horderly : OrderlyRun codec (turn.load operation) after)
    (hget : last.followers[turn.followers.length]? = some follower) (hkept : follower.Kept) :
    ∃ (settled : List (Line HistoryRecord)) (items : List Replayed) (stream : List LoadEvent),
      settled.map assembledOf = emitted (HistoryAssembler.new (parseHistory codec opened).nextSeq)
        ((earlier ++ start.performed codec before).map Prod.fst) ∧
      turn.recorder.store.file = opened ++ codec.bytes settled ∧
      ReplayOf (readableLines codec opened ++ settled) turn.recorder.pendingRecords items ∧
      stream = integrityNotice (parseHistory codec opened).integrity ++
        items.filterMap Replayed.event ++ recorded.map liveEvent ++ closingEvents last.ended ∧
      follower.output <+: stream ∧
      ∃ steps, (follower.relays codec last.recorder.store.file steps).output = stream := by
  have hrecorder : turn.recorder = (openRecorder codec opened readable
      writable).performAll codec (earlier ++ start.performed codec before) := by
    rw [hturn, recorder_run, performAll_append, hstart]
    rfl
  rw [hrecorder] at hroom hwritable
  obtain ⟨settled, hsettled, hsound⟩ := (sound_openRecorder hopened hreadable
    (lt_of_performAll_lt hroom)).performAll hroom hwritable
  rw [← hrecorder, nil_append] at hsound
  have hitems := replayOf_merged hsound
  -- the follower as it is registered
  have hfirst : (turn.load operation).followers[turn.followers.length]? = some (.new
      operation turn.recorder.store.file.length turn.recorder.pendingRecords) := by
    rw [load, durableBytes, hsound.durable]
    simp
  have hget' : ((turn.load operation).run codec after).1.followers[turn.followers.length]? =
      some follower := by
    rw [hlast]
    exact hget
  have hnew : (turn.load operation).ended = none := hrunning
  have hfollows := Follows.run hfirst hkept hget' horderly
    (prefix_refl turn.recorder.store.file) fun _ => by
      rw [hnew]
      exact follows_new operation turn.recorder.store.file turn.recorder.pendingRecords
  rw [hlast, nil_append] at hfollows
  have hfile : turn.recorder.store.file <+: last.recorder.store.file := by
    have hrun := recorder_run codec (turn.load operation) after
    rw [hlast] at hrun
    rw [hrun]
    exact file_performAll _
  have hstream : replayPrefix (parseHistory codec turn.recorder.store.file)
      turn.recorder.pendingRecords ++ recorded.map liveEvent ++ closingEvents last.ended =
      integrityNotice (parseHistory codec opened).integrity ++
        (merged (parseHistory codec turn.recorder.store.file)
          turn.recorder.pendingRecords).filterMap Replayed.event ++
        recorded.map liveEvent ++ closingEvents last.ended := by
    rw [replayPrefix, hsound.parseHistory.2]
  refine ⟨settled, _, _, hsettled, hsound.file, hitems, rfl, ?_, ?_⟩
  · rw [← hstream, ← hfollows.stream]
    exact prefix_append _ _
  · rw [← hstream]
    exact hfollows.exists_delivered hfile hkept

/-! ### Two runs -/

def said (text : String) : SessionUpdate := .agentMessageChunk ⟨.text text none none, none, none⟩

def known : List HistoryRecord :=
  [.update (said "a") none, .update (said "aa") none, .turnEnded .cancelled]

/-- A small codec, which numbers the known records together with their positions. -/
def numbered : LineCodec HistoryRecord where
  encode line :=
    if line.recordedAt = "" then
      (known.findIdx? fun record => decide (record = line.record)).bind fun index =>
        braced.encode ⟨"", 3 * line.seq + index, ()⟩
    else none
  decode text := (braced.decode text).bind fun line =>
    known[line.seq % 3]?.map fun record => ⟨"", line.seq / 3, record⟩
  decode_encode := by
    rintro ⟨recordedAt, seq, record⟩ text htext
    simp only [Option.ite_none_right_eq_some, Option.bind_eq_some_iff] at htext
    obtain ⟨rfl, index, hindex, htext⟩ := htext
    obtain ⟨hlt, hrecord, -⟩ := List.findIdx?_eq_some_iff_getElem.mp hindex
    have hsmall : index < 3 := hlt
    have hmod : (3 * seq + index) % 3 = index := by
      rw [Nat.mul_add_mod, Nat.mod_eq_of_lt hsmall]
    have hdiv : (3 * seq + index) / 3 = seq := by
      rw [Nat.mul_add_div (Nat.succ_pos 2), Nat.div_eq_of_lt hsmall, Nat.add_zero]
    rw [braced.decode_encode _ text htext]
    simp [hmod, hdiv, List.getElem?_eq_getElem hlt, of_decide_eq_true hrecord]
  newline_not_mem := by
    intro line text htext
    simp only [Option.ite_none_right_eq_some, Option.bind_eq_some_iff] at htext
    obtain ⟨-, index, -, htext⟩ := htext
    exact braced.newline_not_mem _ text htext
  encode_ne_nil := by
    intro line text htext
    simp only [Option.ite_none_right_eq_some, Option.bind_eq_some_iff] at htext
    obtain ⟨-, index, -, htext⟩ := htext
    exact braced.encode_ne_nil _ text htext

def promptIo : Io := ⟨fun _ => "", fun _ => .written⟩

def speaks : Input := .update (said "a") "" 0 promptIo true ⟨promptIo, fun _ => 0⟩

/-- A turn was cancelled, and in the next one a message is under way. -/
def conversation : Turn :=
  ((Turn.ofSession numbered [] true true [(.turnEnd .cancelled, promptIo)]).run numbered [speaks]).1

/-- The message goes on, the relay begins, and the connection is lost. -/
def following : List Input :=
  [speaks, .relay 0 (.replay (some [])), .relay 0 .deliver, .interrupted ⟨promptIo, fun _ => 0⟩]

theorem follower_misses_nothing_following :
    ∃ follower, ((conversation.load 7).run numbered following).1.followers[0]? = some follower ∧
      follower.output = [.turnEnded .cancelled (some ""), .sessionUpdate (said "a") none none,
        .sessionUpdate (said "a") none none] ∧
      ∃ settled items stream, settled.map assembledOf = [⟨0, .turnEnded .cancelled⟩] ∧
        ReplayOf settled [⟨1, .update (said "a") none⟩] items ∧
        stream = items.filterMap Replayed.event ++
          [.sessionUpdate (said "a") none none, .turnEnded .cancelled none, .completed] ∧
        follower.output <+: stream ∧
        ∃ steps, (follower.relays numbered
          ((conversation.load 7).run numbered following).1.recorder.store.file steps).output =
            stream := by
  obtain ⟨follower, hget, hkept, houtput⟩ :
      ∃ follower, ((conversation.load 7).run numbered following).1.followers[0]? = some follower ∧
        follower.Kept ∧ follower.output = [.turnEnded .cancelled (some ""),
          .sessionUpdate (said "a") none none, .sessionUpdate (said "a") none none] := by
    refine ⟨_, rfl, ?_⟩
    rw [Follower.Kept]
    decide +kernel
  refine ⟨follower, hget, houtput, ?_⟩
  have hturn : conversation = ((ofSession numbered [] true true
      [(.turnEnd .cancelled, promptIo)]).run numbered [speaks]).1 := rfl
  obtain ⟨settled, items, stream, hsettled, -, hitems, hstream, hgiven, hwhole⟩ :=
    follower_misses_nothing numbered (.inl rfl) (fun h => by cases h) rfl hturn
      (by decide +kernel) (by decide +kernel) (by decide +kernel) rfl (by decide +kernel) hget hkept
  have hcomplete : (parseHistory numbered []).integrity = .complete := by decide +kernel
  have hrecorded : ((conversation.load 7).run numbered following).2 = [(said "a", none)] := by
    decide +kernel
  have hended : ((conversation.load 7).run numbered following).1.ended = some .cancelled := by
    decide +kernel
  rw [hcomplete, hrecorded, hended, append_assoc] at hstream
  exact ⟨settled, items, stream, hsettled, hitems, hstream, hgiven, hwhole⟩

/-- An update is read after the prompt was cancelled, before the provider confirms it. It is
recorded, and a follower that was registered before is never sent it. -/
theorem settled_update_is_not_mirrored :
    conversation.recorder.recording = true ∧ conversation.ended = none ∧
    ((conversation.load 7).run numbered
      [.cancelPrompt [.update (said "a") promptIo] true [] ⟨promptIo, fun _ => 0⟩]).2 =
        [(said "a", none)] ∧ ((conversation.load 7).run numbered
      [.cancelPrompt [.update (said "a") promptIo] true [] ⟨promptIo, fun _ => 0⟩,
        .relay 0 (.replay (some [])), .relay 0 .close, .relay 0 .close, .relay 0 .deliver,
        .relay 0 .deliver]).1.followers.map
        (fun follower => (follower.output, follower.undelivered numbered [])) =
      [([.turnEnded .cancelled (some ""), .sessionUpdate (said "a") none none,
        .turnEnded .cancelled none, .completed], [])] ∧
    readableLines numbered ((conversation.load 7).run numbered
      [.cancelPrompt [.update (said "a") promptIo] true [] ⟨promptIo, fun _ => 0⟩]).1.recorder.store.file
      = [⟨"", 0, .turnEnded .cancelled⟩, ⟨"", 1, .update (said "aa") none⟩,
        ⟨"", 2, .turnEnded .cancelled⟩] := by
  decide +kernel

end OraDesktop.Session
