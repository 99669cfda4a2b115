import OraDesktop.History.Recorder

/-!
# Views that follow a running turn

Loading a session while it runs a turn registers a follower: the cutoff of the durable history and
the pending records at that moment, and a bounded queue for what comes after. The follower's relay
first replays the recorded history up to the cutoff, merged with the pending records, and then
delivers the queue. A view that falls behind overflows its queue and is dropped with an error, and so
is one whose history cannot be read; the turn never waits for a view.
-/

namespace OraDesktop.Session

open History

inductive HistoryNotice where
  | unreadableRecords (count : Nat)
  | unrecordedContent (reason : String)
  deriving DecidableEq

/-- What a view is sent, in a replay and live alike; live events carry no time. -/
inductive LoadEvent where
  | sessionUpdate (update : SessionUpdate) (recordedAt : Option String)
      (toolTiming : Option ToolCallTiming)
  | turnEnded (stopReason : StopReason) (recordedAt : Option String)
  | historyNotice (notice : HistoryNotice)
  | completed
  deriving DecidableEq

/-! ### Replay -/

def integrityNotice : Integrity → List LoadEvent
  | .complete => []
  | .damaged unreadableLines => [.historyNotice (.unreadableRecords (min unreadableLines maxSeq))]

/-- The event of a record; bookkeeping has none. -/
def mapRecord (record : HistoryRecord) (recordedAt : Option String) : Option LoadEvent :=
  match record with
  | .update update toolTiming => some (.sessionUpdate update recordedAt toolTiming)
  | .turnEnded stopReason => some (.turnEnded stopReason recordedAt)
  | .gap reason => some (.historyNotice (.unrecordedContent reason))
  | .sessionMeta _ | .agentSwitched _ | .handoffDelivered _ => none

/-- A record at its position, with the time it was written at. -/
structure Replayed where
  seq : Nat
  record : HistoryRecord
  recordedAt : Option String

def Replayed.event (item : Replayed) : Option LoadEvent := mapRecord item.record item.recordedAt

def Replayed.ofLine (line : Line HistoryRecord) : Replayed :=
  ⟨line.seq, line.record, some line.recordedAt⟩

/-- A record that is not written yet, and so has no time. -/
def Replayed.ofPending (record : Record) : Replayed := ⟨record.seq, record.record, none⟩

section

variable (history : SessionHistory HistoryRecord) (pending : List Record)

/-- Durable history and pending records in one list, by position. -/
def merged : List Replayed :=
  (history.lines.map Replayed.ofLine ++ pending.map Replayed.ofPending).insertionSort
    fun a b => a.seq ≤ b.seq

def replayPrefix : List LoadEvent :=
  integrityNotice history.integrity ++ (merged history pending).filterMap Replayed.event

end

/-! ### Followers -/

/-- `FOLLOWER_QUEUE_CAPACITY` -/
def queueCapacity : Nat := 256

structure Follower where
  operation : Nat
  cutoff : Nat
  pending : List Record
  /-- The turn still sends to this follower. -/
  attached : Bool
  /-- The relay is past the replay. -/
  replayed : Bool
  queue : List LoadEvent
  /-- The end of the turn, which waits for room in the queue. -/
  closing : List LoadEvent
  output : List LoadEvent
  overflowed : Bool
  removed : Bool
  /-- The view has gone away. -/
  gone : Bool
  /-- The history could not be read. The view was sent that error, and nothing else. -/
  unreadable : Bool

namespace Follower

def new (operation cutoff : Nat) (pending : List Record) : Follower :=
  ⟨operation, cutoff, pending, true, false, [], [], [], false, false, false, false⟩

/-- The relay has returned, and with it the end of the queue it reads is closed. -/
def stopped (follower : Follower) : Bool := follower.gone || follower.unreadable

/-- Mirrors an event to the follower. The turn never waits for a view: one whose queue is full is
dropped, and has to load again. -/
def send (event : LoadEvent) (follower : Follower) : Follower :=
  if follower.attached = false then follower
  else if follower.stopped then { follower with attached := false }
  else if queueCapacity ≤ follower.queue.length then
    { follower with attached := false, overflowed := true }
  else { follower with queue := follower.queue ++ [event] }

/-- Detaches a closed view. What is in its queue is still relayed, but no end of the turn
follows. -/
def remove (operation : Nat) (follower : Follower) : Follower :=
  if follower.attached && decide (follower.operation = operation) then
    { follower with attached := false, removed := true }
  else follower

/-- Closes the stream with the boundary of the turn. Unlike an update, this waits for room in the
queue. -/
def finish (stopReason : StopReason) (follower : Follower) : Follower :=
  if follower.attached then
    { follower with attached := false, closing := [.turnEnded stopReason none, .completed] }
  else follower

end Follower

/-- One step of a relay, or of its view. The relay runs beside the turn, so these fall between any
two inputs. -/
inductive RelayStep where
  /-- The history is read, with what was appended to the file after the turn, and replayed, or
  cannot be read. -/
  | replay (read : Option Bytes)
  | deliver
  | close
  | leave

/-- A relay that has stopped does nothing more, and what closes the stream is then lost. -/
def Follower.relay (codec : LineCodec HistoryRecord) (file : Bytes) (follower : Follower) :
    RelayStep → Follower
  | .replay none =>
    if follower.stopped || follower.replayed then follower
    else { follower with unreadable := true }
  | .replay (some later) =>
    if follower.stopped || follower.replayed then follower
    else
      { follower with
        replayed := true
        output := follower.output ++
          replayPrefix (readUpTo codec (file ++ later) follower.cutoff) follower.pending }
  | .deliver =>
    match follower.queue with
    | [] => follower
    | event :: rest =>
      if follower.stopped || !follower.replayed then follower
      else { follower with queue := rest, output := follower.output ++ [event] }
  | .close =>
    match follower.closing with
    | [] => follower
    | event :: rest =>
      if follower.stopped || decide (queueCapacity ≤ follower.queue.length) then follower
      else { follower with closing := rest, queue := follower.queue ++ [event] }
  | .leave => { follower with gone := true }

end OraDesktop.Session
