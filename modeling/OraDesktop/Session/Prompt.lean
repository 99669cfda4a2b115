import OraDesktop.Session.Followers

/-!
# One prompt turn

The loop of a session's actor while a prompt runs, from its first input to the end of the turn. An
update of the provider is recorded before it is mirrored to the followers and forwarded to the
owner; every way the turn ends is recorded before the followers' streams are closed with it. When a
prompt is cancelled, or its attempt is given up for inactivity, the updates still on their way are
read through the response fence in a loop of their own, and where the fence does not come, those
already queued are drained. These two loops record, but do not mirror to the followers.

What has no effect on the records or the followers is left out: titles, permissions beyond whether
they could be granted, the owner's stream beyond whether it still reads.
-/

namespace OraDesktop.Session

open History

/-! ### Tool timing -/

structure StartedTool where
  toolCallId : String
  startedAt : String
  durationMs : Option Nat

abbrev ToolTimings := List StartedTool

/-- The tool call an update is about, and the status it gives. -/
def toolIdentity : SessionUpdate → Option (String × Option ToolCallStatus)
  | .toolCall call => some (call.toolCallId, some call.status)
  | .toolCallUpdate update => some (update.toolCallId, update.fields.status)
  | .userMessageChunk _ | .agentMessageChunk _ | .agentThoughtChunk _ | .plan _ | .other _ => none

/-- Timing is given only where a start was seen that was not terminal. -/
def ToolTimings.observe (timings : ToolTimings) (update : SessionUpdate) (stamp : String)
    (elapsedMs : Nat) : ToolTimings × Option ToolCallTiming :=
  match toolIdentity update with
  | none => (timings, none)
  | some (toolCallId, status) =>
    let terminal := decide (status = some .completed ∨ status = some .failed)
    let started := timings.find? fun call => decide (call.toolCallId = toolCallId)
    match started with
    | none =>
      if terminal then (timings, none)
      else (timings ++ [⟨toolCallId, stamp, none⟩], some ⟨stamp, none⟩)
    | some call =>
      let duration := if terminal then call.durationMs.or (some elapsedMs) else call.durationMs
      (timings.map fun other =>
          if other.toolCallId = toolCallId then { other with durationMs := duration } else other,
        some ⟨call.startedAt, if terminal then duration else none⟩)

/-- Freezes every tool that was observed; one that ended before keeps the duration it had then. -/
def ToolTimings.finishAll (timings : ToolTimings) (elapsedMs : String → Nat) :
    List (String × ToolCallTiming) :=
  timings.map fun call =>
    (call.toolCallId, ⟨call.startedAt, call.durationMs.or (some (elapsedMs call.toolCallId))⟩)

/-! ### The turn -/

structure Turn where
  recorder : SessionRecorder
  timings : ToolTimings
  followers : List Follower
  ended : Option StopReason

/-- What the clock and the disk do at the end of a turn. -/
structure EndIo where
  io : Io
  elapsedMs : String → Nat

/-- An event that is read while a cancelled attempt is settled, from the queue the turn itself would
have read. -/
inductive SettlingEvent where
  | update (update : SessionUpdate) (io : Io)
  | permission
  | otherResponse

def SettlingEvent.update? : SettlingEvent → Option SessionUpdate
  | .update sent _ => some sent
  | .permission | .otherResponse => none

/-- What becomes of an attempt that was inactive for too long. -/
inductive StallOutcome where
  | resent
  /-- The turn fails; where the fence did not come, the queue is drained. -/
  | failed (drained : List SettlingEvent) (finish : EndIo)

inductive Input where
  /-- An update, and whether the owner still reads. -/
  | update (update : SessionUpdate) (stamp : String) (elapsedMs : Nat) (io : Io)
      (delivered : Bool) (finish : EndIo)
  | permission (granted : Bool) (finish : EndIo)
  /-- A response, with the end of the turn if it is the one that is waited for. -/
  | response (stopReason : Option StopReason) (finish : EndIo)
  /-- A lost connection, an overflown queue, a closed channel or a stop. -/
  | interrupted (finish : EndIo)
  | load (operation : Nat) (accepted : Bool)
  | cancelFollower (operation : Nat)
  /-- The prompt is cancelled: what is read until the response fence, whether it came, and what is
  drained if it did not. -/
  | cancelPrompt (settling : List SettlingEvent) (reusable : Bool) (drained : List SettlingEvent)
      (finish : EndIo)
  | stalled (settling : List SettlingEvent) (outcome : StallOutcome)
  | otherCommand
  | relay (index : Nat) (step : RelayStep)

/-- An update the recorder was given, with the timing it was given. -/
abbrev Recorded := SessionUpdate × Option ToolCallTiming

namespace Turn

def start (recorder : SessionRecorder) : Turn := ⟨recorder, [], [], none⟩

variable (codec : LineCodec HistoryRecord)

/-- Records the end of the turn and closes the followers' streams with it. -/
def finish (turn : Turn) (stopReason : StopReason) (finish : EndIo) : Turn :=
  { turn with
    recorder := (turn.recorder.finishToolTimings (turn.timings.finishAll finish.elapsedMs)).recordTurnEnd
      codec finish.io stopReason
    followers := turn.followers.map (·.finish stopReason)
    ended := some stopReason }

/-- Records and mirrors an update, in this order: a follower is sent nothing that the recorder was
not given first. -/
def mirror (turn : Turn) (update : SessionUpdate) (stamp : String) (elapsedMs : Nat) (io : Io) :
    Turn × Option ToolCallTiming :=
  let (timings, timing) := turn.timings.observe update stamp elapsedMs
  ({ turn with
      recorder := turn.recorder.recordUpdate codec io update timing
      timings := timings
      followers := turn.followers.map (·.send (.sessionUpdate update none timing)) }, timing)

/-- Records what is read while a cancelled attempt is settled. The updates have no timing, and no
follower is sent them. -/
def settle (turn : Turn) : List SettlingEvent → Turn
  | [] => turn
  | .update update io :: rest =>
    settle { turn with recorder := turn.recorder.recordUpdate codec io update none } rest
  | .permission :: rest | .otherResponse :: rest => settle turn rest

def recordedBy (settling : List SettlingEvent) : List Recorded :=
  (settling.filterMap SettlingEvent.update?).map fun update => (update, none)

/-- Captures the cutoff and the pending records, and registers the follower. The operation's older
follower, if there is one, is replaced. -/
def load (turn : Turn) (operation : Nat) : Turn :=
  { turn with followers := turn.followers.map (·.remove operation) ++
      [Follower.new operation turn.recorder.durableBytes turn.recorder.pendingRecords] }

/-- One input of the actor, and the updates it records. -/
def act (turn : Turn) : Input → Turn × List Recorded
  | .update update stamp elapsedMs io delivered finish =>
    let (mirrored, timing) := turn.mirror codec update stamp elapsedMs io
    (if delivered then mirrored else mirrored.finish codec .cancelled finish, [(update, timing)])
  | .permission granted finish =>
    (if granted then turn else turn.finish codec .cancelled finish, [])
  | .response stopReason finish =>
    (stopReason.elim turn fun stopReason => turn.finish codec stopReason finish, [])
  | .interrupted finish => (turn.finish codec .cancelled finish, [])
  | .load operation accepted => (if accepted then turn.load operation else turn, [])
  | .cancelFollower operation =>
    ({ turn with followers := turn.followers.map (·.remove operation) }, [])
  | .cancelPrompt settling reusable drained finish =>
    let read := settling ++ if reusable then [] else drained
    ((turn.settle codec read).finish codec .cancelled finish, recordedBy read)
  | .stalled settling .resent => (turn.settle codec settling, recordedBy settling)
  | .stalled settling (.failed drained finish) =>
    let read := settling ++ drained
    ((turn.settle codec read).finish codec .cancelled finish, recordedBy read)
  | .otherCommand => (turn, [])
  | .relay _ _ => (turn, [])

/-- One step: of a relay at any time, of the actor while the turn runs. -/
def step (turn : Turn) (input : Input) : Turn × List Recorded :=
  match input with
  | .relay index step =>
    ({ turn with followers :=
        turn.followers.modify index (·.relay codec turn.recorder.store.file step) }, [])
  | _ => if turn.ended.isSome then (turn, []) else turn.act codec input

/-- A run of the turn, and the updates it records. -/
def run (turn : Turn) : List Input → Turn × List Recorded
  | [] => (turn, [])
  | input :: rest =>
    let (next, recorded) := turn.step codec input
    let (last, later) := run next rest
    (last, recorded ++ later)

end Turn

end OraDesktop.Session
