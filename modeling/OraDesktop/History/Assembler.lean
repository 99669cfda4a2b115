import OraDesktop.History.Record

/-!
# From updates to records

The assembler folds the stream of updates into records that can no longer change, each at the
position its item claimed when it first appeared. Text grows until something proves that it ended,
a tool call is emitted once it settled and again when it changes after that, and the newest plan
stands until the turn ends.
-/

namespace OraDesktop.History

inductive TextKind where
  | message
  | thought
  deriving DecidableEq

/-- A message or thought that still accumulates chunks. Its content is text. -/
structure PendingText where
  seq : Nat
  kind : TextKind
  text : String
  annotations : Option Value
  textMetadata : Option Meta
  messageId : Option String
  metadata : Option Meta

/-- A tool call whose snapshot may still change. It stays open after it was written, since a late
update must go to the same position. -/
structure PendingTool where
  seq : Nat
  call : ToolCall
  /-- The call already reached the file under its position. -/
  written : Bool
  timing : Option ToolCallTiming

structure HistoryAssembler where
  nextSeq : Nat
  texts : List PendingText
  tools : List PendingTool
  plans : List (Nat × Plan)

abbrev Record := Assembled HistoryRecord

/-! ### Items -/

def chunkRecord (kind : TextKind) (chunk : ContentChunk) : HistoryRecord :=
  .update (match kind with
    | .message => .agentMessageChunk chunk
    | .thought => .agentThoughtChunk chunk) none

def PendingText.toRecord (pending : PendingText) : Record :=
  ⟨pending.seq, chunkRecord pending.kind
    ⟨.text pending.text pending.annotations pending.textMetadata, pending.messageId,
      pending.metadata⟩⟩

def PendingTool.toRecord (pending : PendingTool) : Record :=
  ⟨pending.seq, .update (.toolCall pending.call) pending.timing⟩

def planRecord (pending : Nat × Plan) : Record := ⟨pending.1, .update (.plan pending.2) none⟩

/-- Emits a call that has reached a terminal status, or was emitted before. -/
def PendingTool.settle (pending : PendingTool) : PendingTool × List Record :=
  if ¬(pending.call.status = .completed ∨ pending.call.status = .failed) ∧ pending.written = false
  then (pending, [])
  else
    let written := { pending with written := true }
    (written, [written.toRecord])

/-- The last snapshot of a call once its turn has ended. Only a turn that the agent ended on its
own terms is evidence that a call it left open has completed, and not for a projected child. -/
def PendingTool.settleAtTurnEnd (pending : PendingTool) (stopReason : StopReason) : Option Record :=
  if (pending.call.status = .pending ∨ pending.call.status = .inProgress) ∧
      childSourceId pending.call.metadata = none ∧ stopReason = .endTurn then
    some { pending with call := { pending.call with status := .completed } }.toRecord
  else if pending.written then none else some pending.toRecord

/-- The chunk continues the text. The metadata must agree too: a merged text has room for one of
each. -/
def PendingText.continuedBy (pending : PendingText) (kind : TextKind) (chunk : ContentChunk)
    (annotations : Option Value) (textMetadata : Option Meta) : Bool :=
  decide (pending.kind = kind) && decide (pending.messageId = chunk.messageId) &&
    sameOption (pending.metadata.map .obj) (chunk.metadata.map .obj) &&
    sameOption pending.annotations annotations &&
    sameOption (pending.textMetadata.map .obj) (textMetadata.map .obj)

namespace HistoryAssembler

/-- Resumes numbering after the positions of the file, with nothing open: what was open when the
last session ended was never written. -/
def new (nextSeq : Nat) : HistoryAssembler := ⟨nextSeq, [], [], []⟩

section

variable (assembler : HistoryAssembler)

def takeSeq : HistoryAssembler × Nat :=
  ({ assembler with nextSeq := followingSeq assembler.nextSeq }, assembler.nextSeq)

/-- Claims a position for a record that is not derived from an update. -/
def reserveSeq : HistoryAssembler × Nat := assembler.takeSeq

/-- Settles the open texts that can no longer grow, in the order they were opened. -/
def settleTexts (canNoLongerGrow : PendingText → Bool) : HistoryAssembler × List Record :=
  ({ assembler with texts := assembler.texts.filter fun pending => !canNoLongerGrow pending },
    (assembler.texts.filter canNoLongerGrow).map PendingText.toRecord)

/-- Closes the text runs that an entry with a position of its own interrupts. A run with a message
id can still be continued after it. -/
def interruptUnidentifiedText : HistoryAssembler × List Record :=
  assembler.settleTexts fun pending => pending.messageId.isNone

end

/-- The user's turn, one record for each block that is kept. It is complete when it arrives, so
nothing of it stays open. -/
def pushUserPrompt (assembler : HistoryAssembler) :
    List ContentBlock → HistoryAssembler × List Record
  | [] => (assembler, [])
  | block :: blocks =>
    let (claimed, seq) := assembler.takeSeq
    let (rest, records) := claimed.pushUserPrompt blocks
    (rest, ⟨seq, .update (.userMessageChunk ⟨block, none, none⟩) none⟩ :: records)

/-- Appends the text of a chunk to the first open text it continues. -/
def extendText (p : PendingText → Bool) (text : String) :
    List PendingText → Option (List PendingText)
  | [] => none
  | pending :: rest =>
    if p pending then some ({ pending with text := pending.text ++ text } :: rest)
    else (extendText p text rest).map (pending :: ·)

section

variable (assembler : HistoryAssembler) (kind : TextKind) (chunk : ContentChunk)

/-- Content that is not text stands alone where it arrived. -/
def standAlone : HistoryAssembler × List Record :=
  let (settled, records) := assembler.interruptUnidentifiedText
  let (claimed, seq) := settled.takeSeq
  (claimed, records ++ [⟨seq, chunkRecord kind chunk⟩])

/-- A new text ends the one before it on its stream: a changed message id is a new message, and a
chunk without one follows the last text without one. -/
def openText (text : String) (annotations : Option Value) (textMetadata : Option Meta) :
    HistoryAssembler × List Record :=
  let (settled, records) := assembler.settleTexts fun pending =>
    decide (pending.kind = kind) && decide (pending.messageId.isSome = chunk.messageId.isSome)
  let (claimed, seq) := settled.takeSeq
  ({ claimed with texts := claimed.texts ++
      [⟨seq, kind, text, annotations, textMetadata, chunk.messageId, chunk.metadata⟩] }, records)

/-- Merges a chunk into its message, or settles content that cannot merge. -/
def pushText : HistoryAssembler × List Record :=
  match chunk.content with
  | .other _ => assembler.standAlone kind chunk
  | .text text annotations textMetadata =>
    match extendText (·.continuedBy kind chunk annotations textMetadata) text assembler.texts with
    | some texts => ({ assembler with texts := texts }, [])
    | none => assembler.openText kind chunk text annotations textMetadata

end

/-- Changes the tool call with the identity, where there is one, and emits it if it settled. -/
def changeTool (toolCallId : String) (change : PendingTool → PendingTool) :
    List PendingTool → Option (List PendingTool × List Record)
  | [] => none
  | pending :: rest =>
    if pending.call.toolCallId = toolCallId then
      let (settled, records) := (change pending).settle
      some (settled :: rest, records)
    else (changeTool toolCallId change rest).map fun (rest, records) => (pending :: rest, records)

section

variable (assembler : HistoryAssembler) (call : ToolCall) (timing : Option ToolCallTiming)

/-- Starts tracking a tool call, and emits it if it arrived settled. An update of a call that was
never announced comes here too. -/
def openTool : HistoryAssembler × List Record :=
  let (settled, records) := assembler.interruptUnidentifiedText
  let (claimed, seq) := settled.takeSeq
  let (tool, emitted) := PendingTool.settle ⟨seq, call, false, timing⟩
  ({ claimed with tools := claimed.tools ++ [tool] }, records ++ emitted)

/-- Installs the opening snapshot of a tool call, in place of an earlier one. -/
def upsertTool : HistoryAssembler × List Record :=
  match changeTool call.toolCallId
      (fun pending => { pending with call := call, timing := timing.or pending.timing })
      assembler.tools with
  | some (tools, records) => ({ assembler with tools := tools }, records)
  | none => assembler.openTool call timing

end

/-- Applies a partial update to the snapshot it belongs to. -/
def updateTool (assembler : HistoryAssembler) (update : ToolCallUpdate)
    (timing : Option ToolCallTiming) : HistoryAssembler × List Record :=
  let changed (call : ToolCall) : ToolCall :=
    let call := call.update update.fields
    { call with metadata := retainToolMetadata call.metadata update.metadata }
  match changeTool update.toolCallId
      (fun pending => { pending with
        call := changed pending.call, timing := timing.or pending.timing })
      assembler.tools with
  | some (tools, records) => ({ assembler with tools := tools }, records)
  | none => assembler.openTool (changed (ToolCall.new update.toolCallId "Tool call")) timing

/-- Replaces the plan of the same source, which keeps the position of the first one. -/
def swapPlan (plan : Plan) : List (Nat × Plan) → Option (List (Nat × Plan))
  | [] => none
  | (seq, pending) :: rest =>
    if childSourceId pending.metadata = childSourceId plan.metadata then some ((seq, plan) :: rest)
    else (swapPlan plan rest).map ((seq, pending) :: ·)

/-- Keeps the newest plan of each child, and one of the parent. -/
def replacePlan (assembler : HistoryAssembler) (plan : Plan) : HistoryAssembler × List Record :=
  match swapPlan plan assembler.plans with
  | some plans => ({ assembler with plans := plans }, [])
  | none =>
    let (settled, records) := assembler.interruptUnidentifiedText
    let (claimed, seq) := settled.takeSeq
    ({ claimed with plans := claimed.plans ++ [(seq, plan)] }, records)

/-- Applies an update and returns what settled because of it. The prompt was recorded from the
request, so its echo is not. -/
def pushUpdate (assembler : HistoryAssembler) (update : SessionUpdate)
    (timing : Option ToolCallTiming) : HistoryAssembler × List Record :=
  match update with
  | .userMessageChunk _ => (assembler, [])
  | .agentMessageChunk chunk => assembler.pushText .message chunk
  | .agentThoughtChunk chunk => assembler.pushText .thought chunk
  | .toolCall call => assembler.upsertTool call timing
  | .toolCallUpdate update => assembler.updateTool update timing
  | .plan plan => assembler.replacePlan plan
  | .other _ => (assembler, [])

def setTiming (toolCallId : String) (timing : ToolCallTiming) :
    List PendingTool → List PendingTool
  | [] => []
  | pending :: rest =>
    if pending.call.toolCallId = toolCallId then { pending with timing := some timing } :: rest
    else pending :: setTiming toolCallId timing rest

/-- Replaces the timing of an open tool before a turn boundary. -/
def updateToolTiming (assembler : HistoryAssembler) (toolCallId : String)
    (timing : ToolCallTiming) : HistoryAssembler :=
  { assembler with tools := setTiming toolCallId timing assembler.tools }

/-- Open items are kept by kind, and a reader wants them in the order they appeared in. -/
def bySeq (records : List Record) : List Record :=
  records.insertionSort fun a b => a.seq ≤ b.seq

/-- Flushes every open item and closes the turn. Nothing is carried over, so the next turn starts
from an empty assembler. -/
def endTurn (assembler : HistoryAssembler) (stopReason : StopReason) :
    HistoryAssembler × List Record :=
  let records := bySeq (assembler.texts.map PendingText.toRecord ++
    assembler.tools.filterMap (·.settleAtTurnEnd stopReason) ++ assembler.plans.map planRecord)
  let (claimed, seq) := takeSeq ⟨assembler.nextSeq, [], [], []⟩
  (claimed, records ++ [⟨seq, .turnEnded stopReason⟩])

/-- The records that are still open; a tool call that was written is not one of them. -/
def pendingRecords (assembler : HistoryAssembler) : List Record :=
  bySeq (assembler.texts.map PendingText.toRecord ++
    (assembler.tools.filter fun pending => !pending.written).map PendingTool.toRecord ++
    assembler.plans.map planRecord)

end HistoryAssembler

end OraDesktop.History
