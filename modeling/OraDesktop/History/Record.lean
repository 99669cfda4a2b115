import OraDesktop.History.File
import OraDesktop.Json
import OraDesktop.Text

/-!
# The records of a conversation

What a history line holds, and the updates of the Agent Client Protocol that most records carry.
Of the protocol's types, everything the history does not look into is a JSON value.
-/

namespace OraDesktop.History

/-! ### Metadata -/

/-- A JSON object, its keys in the order they were first inserted. -/
abbrev Meta := List (String × Value)

/-- Optional values compare as the source compares them, without regard to the order of keys. -/
def sameOption : Option Value → Option Value → Bool
  | none, none => true
  | some a, some b => a.same b
  | _, _ => false

/-- A string that says something: blank text in a field counts as the field left out. -/
def nonBlank (value : Value) : Option String :=
  value.asStr.filter fun text => !(Text.trim text).isEmpty

/-- The projected child session an item belongs to; a source that is cleared or malformed belongs
to the parent. -/
def childSourceId (metadata : Option Meta) : Option String := do
  let source ← (← metadata).lookup "opencode/child-session"
  let id ← nonBlank (← source.get "id")
  let _ ← nonBlank (← source.get "parentID")
  let depth := (← (← source.get "depth").asF64).toRat
  if depth < 1 ∨ depth.den ≠ 1 ∨ 9007199254740991 < depth then none else some id

/-- Omitted namespaces survive, those that are given replace the old ones. -/
def retainToolMetadata (target incoming : Option Meta) : Option Meta :=
  match incoming with
  | none => target
  | some incoming =>
    some (incoming.foldl (fun target (key, value) => Value.insertField key value target)
      (target.getD []))

/-! ### Updates -/

inductive ContentBlock where
  | text (text : String) (annotations : Option Value) (metadata : Option Meta)
  /-- An image, a resource or a link. -/
  | other (body : Value)
  deriving DecidableEq

structure ContentChunk where
  content : ContentBlock
  messageId : Option String
  metadata : Option Meta
  deriving DecidableEq

inductive ToolCallStatus where
  | pending
  | inProgress
  | completed
  | failed
  deriving DecidableEq

structure ToolCall where
  toolCallId : String
  title : String
  status : ToolCallStatus
  kind : Value
  content : Value
  locations : Value
  rawInput : Option Value
  rawOutput : Option Value
  metadata : Option Meta
  deriving DecidableEq

/-- What an update of a tool call may change; a field that is left out keeps its value. -/
structure ToolCallFields where
  title : Option String
  status : Option ToolCallStatus
  kind : Option Value
  content : Option Value
  locations : Option Value
  rawInput : Option Value
  rawOutput : Option Value
  deriving DecidableEq

structure ToolCallUpdate where
  toolCallId : String
  fields : ToolCallFields
  metadata : Option Meta
  deriving DecidableEq

def ToolCall.new (toolCallId title : String) : ToolCall :=
  ⟨toolCallId, title, .pending, .str "other", .arr [], .arr [], none, none, none⟩

/-- `ToolCall::update`: the fields that are given replace the old ones. -/
def ToolCall.update (call : ToolCall) (fields : ToolCallFields) : ToolCall :=
  { call with
    title := fields.title.getD call.title
    status := fields.status.getD call.status
    kind := fields.kind.getD call.kind
    content := fields.content.getD call.content
    locations := fields.locations.getD call.locations
    rawInput := fields.rawInput.or call.rawInput
    rawOutput := fields.rawOutput.or call.rawOutput }

structure Plan where
  entries : Value
  metadata : Option Meta
  deriving DecidableEq

inductive SessionUpdate where
  | userMessageChunk (chunk : ContentChunk)
  | agentMessageChunk (chunk : ContentChunk)
  | agentThoughtChunk (chunk : ContentChunk)
  | toolCall (call : ToolCall)
  | toolCallUpdate (update : ToolCallUpdate)
  | plan (plan : Plan)
  /-- Session chrome, and whatever a newer protocol adds. -/
  | other (body : Value)
  deriving DecidableEq

inductive StopReason where
  | endTurn
  | maxTokens
  | maxTurnRequests
  | refusal
  | cancelled
  deriving DecidableEq

structure ToolCallTiming where
  startedAt : String
  durationMs : Option Nat
  deriving DecidableEq

/-- What a history line holds: what the agent reported, or what the host itself has to say about the
session. -/
inductive HistoryRecord where
  | sessionMeta (body : Value)
  | update (update : SessionUpdate) (toolTiming : Option ToolCallTiming)
  | turnEnded (stopReason : StopReason)
  | agentSwitched (body : Value)
  | handoffDelivered (agentSessionId : String)
  | gap (reason : String)
  deriving DecidableEq

end OraDesktop.History
