import OraDesktop.History.Assembler

/-!
# The recorder of a session

A session's recorder folds what happens through the assembler and appends what settled, one line at
a time. A write that fails stops it for good: continuing would leave a file that looks complete and
misses the middle of a conversation. A session that is resumed after that is opened anew.
-/

namespace OraDesktop.History

/-- The clock and the fate of the appends of one operation, by the number of the append. -/
structure Io where
  now : Nat → String
  write : Nat → WriteResult

structure SessionRecorder where
  store : Store
  assembler : HistoryAssembler
  recording : Bool

namespace SessionRecorder

variable (codec : LineCodec HistoryRecord) (io : Io)

/-- Appends records one line at a time, and stops at the first write that fails. -/
def appendFrom (recorder : SessionRecorder) : Nat → List Record → SessionRecorder
  | _, [] => recorder
  | n, record :: rest =>
    match recorder.store.append codec (io.now n) [record] (io.write n) with
    | (store, .ok _) => appendFrom { recorder with store := store } (n + 1) rest
    | (store, .error _) => { recorder with store := store, recording := false }

section

variable (recorder : SessionRecorder)

def append (records : List Record) : SessionRecorder :=
  if recorder.recording then recorder.appendFrom codec io 0 records else recorder

/-- Records what an assembler operation emits. The assembler moves on also where the recorder has
stopped, since the live view still needs it. -/
def record (result : HistoryAssembler × List Record) : SessionRecorder :=
  { recorder with assembler := result.1 }.append codec io result.2

/-- `record_update` and `record_timed_update`. -/
def recordUpdate (update : SessionUpdate) (timing : Option ToolCallTiming) : SessionRecorder :=
  recorder.record codec io (recorder.assembler.pushUpdate update timing)

def recordPrompt (prompt : List ContentBlock) : SessionRecorder :=
  recorder.record codec io (recorder.assembler.pushUserPrompt prompt)

end

/-- Puts the host's identity of the message on a block of the prompt. -/
def identify (messageId : String) (assembled : Record) : Record :=
  match assembled.record with
  | .update (.userMessageChunk chunk) timing =>
    ⟨assembled.seq, .update (.userMessageChunk { chunk with messageId := some messageId }) timing⟩
  | _ => assembled

section

variable (recorder : SessionRecorder)

def recordIdentifiedPrompt (prompt : List ContentBlock) (messageId : String) : SessionRecorder :=
  let (assembler, records) := recorder.assembler.pushUserPrompt prompt
  recorder.record codec io (assembler, records.map (identify messageId))

def recordTurnEnd (stopReason : StopReason) : SessionRecorder :=
  recorder.record codec io (recorder.assembler.endTurn stopReason)

/-- Freezes open tool timing before the turn boundary, because the end of the turn writes the calls
for the last time. -/
def finishToolTimings (timings : List (String × ToolCallTiming)) : SessionRecorder :=
  { recorder with assembler := timings.foldl (fun assembler (toolCallId, timing) =>
      assembler.updateToolTiming toolCallId timing) recorder.assembler }

/-- A record that is not derived from an update. It takes a position of its own and interrupts no
text. -/
def appendStandalone (record : HistoryRecord) : SessionRecorder :=
  let (assembler, seq) := recorder.assembler.reserveSeq
  { recorder with assembler := assembler }.append codec io [⟨seq, record⟩]

end

/-- Opens the recorder of a session, resuming its positions from the file. A session whose history
already failed opens stopped. -/
def openRecorder (file : Bytes) (readable writable : Bool) : SessionRecorder :=
  ⟨Store.openWriter ⟨file, none⟩ readable, HistoryAssembler.new (parseHistory codec file).nextSeq,
    writable⟩

def durableBytes (recorder : SessionRecorder) : Nat := recorder.store.durableBytes.getD 0

def pendingRecords (recorder : SessionRecorder) : List Record := recorder.assembler.pendingRecords

end SessionRecorder

end OraDesktop.History
