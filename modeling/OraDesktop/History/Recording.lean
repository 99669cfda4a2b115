import OraDesktop.History.Durability
import OraDesktop.History.Positions
import OraDesktop.History.Recorder

/-!
# What a recorder has written

A recorder that was opened at the end of a line and is still recording has written everything its
assembler emitted: its file is the one it was opened over, with a line for each record. The open
items have positions of their own for as long as positions have not run out.

The file it was opened over may hold lines that do not read; they stay where they are and do not
disturb the ones after them.

## Main results

* `SessionRecorder.Sound` — the file against what was emitted, and the open positions
* `Sound.performAll` — recording keeps it, for as long as it goes on
* `parseHistory_append` — what is read of such a file
-/

namespace OraDesktop.History

open Delimited Latest List HistoryAssembler

/-! ### Operations -/

/-- What the recorder of a session is asked to do. It is all that touches the assembler, so facts
about runs are proved by these cases. -/
inductive Operation where
  | update (update : SessionUpdate) (timing : Option ToolCallTiming)
  | prompt (blocks : List ContentBlock)
  | identifiedPrompt (blocks : List ContentBlock) (messageId : String)
  | toolTimings (timings : List (String × ToolCallTiming))
  | turnEnd (stopReason : StopReason)
  | standalone (record : HistoryRecord)

namespace SessionRecorder

variable (codec : LineCodec HistoryRecord)

def perform (recorder : SessionRecorder) (operation : Operation × Io) : SessionRecorder :=
  match operation.1 with
  | .update update timing => recorder.recordUpdate codec operation.2 update timing
  | .prompt blocks => recorder.recordPrompt codec operation.2 blocks
  | .identifiedPrompt blocks messageId =>
    recorder.recordIdentifiedPrompt codec operation.2 blocks messageId
  | .toolTimings timings => recorder.finishToolTimings timings
  | .turnEnd stopReason => recorder.recordTurnEnd codec operation.2 stopReason
  | .standalone record => recorder.appendStandalone codec operation.2 record

def performAll (recorder : SessionRecorder) (operations : List (Operation × Io)) :
    SessionRecorder :=
  operations.foldl (perform codec) recorder

end SessionRecorder

/-- What the assembler makes of an operation, whatever becomes of the append. -/
def Operation.emit (assembler : HistoryAssembler) : Operation → HistoryAssembler × List Record
  | .update sent timing => assembler.pushUpdate sent timing
  | .prompt blocks => assembler.pushUserPrompt blocks
  | .identifiedPrompt blocks messageId =>
    ((assembler.pushUserPrompt blocks).1,
      (assembler.pushUserPrompt blocks).2.map (SessionRecorder.identify messageId))
  | .toolTimings timings =>
    (timings.foldl (fun assembler (toolCallId, timing) =>
      assembler.updateToolTiming toolCallId timing) assembler, [])
  | .turnEnd stopReason => assembler.endTurn stopReason
  | .standalone record => (assembler.reserveSeq.1, [⟨assembler.reserveSeq.2, record⟩])

/-- The records that operations emit, one after the other. -/
def emitted (assembler : HistoryAssembler) : List Operation → List Record
  | [] => []
  | operation :: rest =>
    (operation.emit assembler).2 ++ emitted (operation.emit assembler).1 rest

/-! ### Positions -/

theorem lt_of_followingSeq_lt {seq : Nat} (h : followingSeq seq < maxSeq) : seq < maxSeq := by
  by_contra hge
  rw [followingSeq, if_neg hge] at h
  exact Nat.lt_irrefl _ h

namespace HistoryAssembler

variable {assembler : HistoryAssembler} {used : List Nat}

theorem nextSeq_pushUpdate (update : SessionUpdate) (timing : Option ToolCallTiming) :
    (assembler.pushUpdate update timing).1.nextSeq = assembler.nextSeq ∨
      (assembler.pushUpdate update timing).1.nextSeq = followingSeq assembler.nextSeq := by
  have htext : ∀ kind chunk, (assembler.pushText kind chunk).1.nextSeq = assembler.nextSeq ∨
      (assembler.pushText kind chunk).1.nextSeq = followingSeq assembler.nextSeq := by
    intro kind chunk
    rw [pushText.eq_def]
    split
    · exact .inr rfl
    · split
      · exact .inl rfl
      · exact .inr rfl
  cases update with
  | userMessageChunk chunk => exact .inl rfl
  | agentMessageChunk chunk => exact htext _ _
  | agentThoughtChunk chunk => exact htext _ _
  | toolCall call =>
    rw [pushUpdate, upsertTool.eq_def]
    split
    · exact .inl rfl
    · exact .inr rfl
  | toolCallUpdate update =>
    rw [pushUpdate, updateTool.eq_def]
    dsimp only
    split
    · exact .inl rfl
    · exact .inr rfl
  | plan plan =>
    rw [pushUpdate, replacePlan.eq_def]
    split
    · exact .inl rfl
    · exact .inr rfl
  | other body => exact .inl rfl

theorem lt_of_pushUserPrompt_lt {blocks : List ContentBlock}
    (h : (assembler.pushUserPrompt blocks).1.nextSeq < maxSeq) : assembler.nextSeq < maxSeq := by
  induction blocks generalizing assembler with
  | nil => exact h
  | cons block rest ih =>
    have hnext : assembler.takeSeq.1.nextSeq < maxSeq := ih h
    exact lt_of_followingSeq_lt hnext

/-- A record that is written at once takes the next position. -/
theorem placed_takeSeq (h : assembler.PlacedIn used) (hroom : assembler.nextSeq < maxSeq) :
    assembler.takeSeq.1.PlacedIn (used ++ [assembler.takeSeq.2]) := by
  have hclaimed := h.claim_used
  rw [← followingSeq_of_lt hroom] at hclaimed
  exact hclaimed

theorem placed_pushUserPrompt {blocks : List ContentBlock} (h : assembler.PlacedIn used)
    (hroom : (assembler.pushUserPrompt blocks).1.nextSeq < maxSeq) :
    (assembler.pushUserPrompt blocks).1.PlacedIn
      (used ++ (assembler.pushUserPrompt blocks).2.map (·.seq)) := by
  induction blocks generalizing assembler used with
  | nil =>
    rw [pushUserPrompt, map_nil, append_nil]
    exact h
  | cons block rest ih =>
    have hnext : assembler.nextSeq < maxSeq := lt_of_pushUserPrompt_lt hroom
    have hrest := ih (placed_takeSeq h hnext) hroom
    rw [append_assoc] at hrest
    exact hrest

theorem slots_toolTimings (assembler : HistoryAssembler)
    (timings : List (String × ToolCallTiming)) :
    (timings.foldl (fun assembler (toolCallId, timing) =>
        assembler.updateToolTiming toolCallId timing) assembler).slots = assembler.slots ∧
      (timings.foldl (fun assembler (toolCallId, timing) =>
        assembler.updateToolTiming toolCallId timing) assembler).nextSeq = assembler.nextSeq := by
  induction timings generalizing assembler with
  | nil => exact ⟨rfl, rfl⟩
  | cons timing rest ih =>
    obtain ⟨hslots, hnext⟩ := ih (assembler.updateToolTiming timing.1 timing.2)
    exact ⟨hslots.trans (by rw [slots, slots, updateToolTiming, slots_setTiming]), hnext⟩

end HistoryAssembler

namespace Operation

variable {assembler : HistoryAssembler} {used : List Nat} {operation : Operation}

theorem lt_of_emit_lt (h : (operation.emit assembler).1.nextSeq < maxSeq) :
    assembler.nextSeq < maxSeq := by
  cases operation with
  | update sent timing =>
    rcases assembler.nextSeq_pushUpdate sent timing with hsame | hnext
    · rw [emit, hsame] at h
      exact h
    · rw [emit, hnext] at h
      exact lt_of_followingSeq_lt h
  | prompt blocks | identifiedPrompt blocks messageId => exact lt_of_pushUserPrompt_lt h
  | toolTimings timings =>
    rw [emit, (slots_toolTimings assembler timings).2] at h
    exact h
  | turnEnd stopReason | standalone record => exact lt_of_followingSeq_lt h

theorem seq_identify (messageId : String) (record : Record) :
    (SessionRecorder.identify messageId record).seq = record.seq := by
  rw [SessionRecorder.identify.eq_def]
  split <;> rfl

/-- Every operation keeps the positions apart, as long as they have not run out. -/
theorem placed_emit (h : assembler.PlacedIn used)
    (hroom : (operation.emit assembler).1.nextSeq < maxSeq) :
    (operation.emit assembler).1.PlacedIn (used ++ (operation.emit assembler).2.map (·.seq)) := by
  have hnext := lt_of_emit_lt hroom
  cases operation with
  | update sent timing => exact (emits_pushUpdate h hnext).placed
  | prompt blocks => exact placed_pushUserPrompt h hroom
  | identifiedPrompt blocks messageId =>
    have hplaced := placed_pushUserPrompt h hroom
    rw [emit, map_map]
    simpa only [Function.comp_def, seq_identify] using hplaced
  | toolTimings timings =>
    obtain ⟨hslots, hsame⟩ := slots_toolTimings assembler timings
    exact (HistoryAssembler.Emits.silent h hsame hslots).placed
  | turnEnd stopReason => exact (emits_endTurn h hnext).placed
  | standalone record => exact placed_takeSeq h hnext

end Operation

/-! ### Files with lines that do not read -/

variable {codec : LineCodec HistoryRecord}

/-- The lines of a file that read, as they were written. -/
def readableLines (codec : LineCodec HistoryRecord) (file : Bytes) : List (Line HistoryRecord) :=
  (segments newline file).filterMap codec.decode

variable {lines : List (Line HistoryRecord)}

section Encodes

variable (h : codec.Encodes lines)
include h

theorem segments_bytes : segments newline (codec.bytes lines) = lines.map codec.text := by
  have hsegments := segments_delimit h.texts_ok (not_mem_nil (a := newline))
  rw [append_nil, if_pos rfl, append_nil] at hsegments
  exact hsegments

variable {file : Bytes} (hfile : AtBoundary newline file)
include hfile

/-- Lines that are appended at the end of a line all read. -/
theorem readableLines_append :
    readableLines codec (file ++ codec.bytes lines) = readableLines codec file ++ lines := by
  rw [readableLines, segments_append hfile, segments_bytes h, filterMap_append, h.filterMap_decode]
  rfl

/-- How many lines of a file do not read. An append at the end of a line does not change it, which
is how damage is told from loss. -/
def unreadableLines (codec : LineCodec HistoryRecord) (file : Bytes) : Nat :=
  (segments newline file).countP fun piece => (codec.decode piece).isNone

theorem unreadableLines_append :
    unreadableLines codec (file ++ codec.bytes lines) = unreadableLines codec file := by
  have hall : (lines.map codec.text).countP (fun piece => (codec.decode piece).isNone) = 0 := by
    rw [countP_eq_zero]
    intro text htext
    obtain ⟨line, hline, rfl⟩ := mem_map.mp htext
    simp [h.decode_text hline]
  rw [unreadableLines, segments_append hfile, segments_bytes h, countP_append, hall]
  rfl

end Encodes

/-- A file that ends at the end of a line is read line by line. -/
theorem parseHistory_boundary (codec : LineCodec HistoryRecord) {file : Bytes} (hfile : AtBoundary newline file) :
    (parseHistory codec file).lines = orderLines (readableLines codec file) ∧
      (parseHistory codec file).nextSeq =
        (((readableLines codec file).map Line.seq).max?).elim 0 followingSeq ∧
      (parseHistory codec file).integrity =
        if unreadableLines codec file = 0 then .complete else .damaged (unreadableLines codec file) := by
  refine ⟨rfl, rfl, ?_⟩
  rcases hfile with rfl | hlast
  · simp [parseHistory, segments, unreadableLines]
  -- only the last line of a file that does not end with a line break may be unfinished
  have hfst : (segments newline file).zipIdx.map Prod.fst = segments newline file :=
    zipIdx_map_fst 0 _
  rw [unreadableLines, ← hfst, countP_map]
  simp only [parseHistory, hlast, decide_true, Bool.not_true, Bool.false_and, Bool.not_false,
    Bool.and_true]
  rfl

/-! ### The recorder -/

def assembledOf (line : Line HistoryRecord) : Record := ⟨line.seq, line.record⟩

/-- The file is only ever appended to, also by an append that fails. -/
theorem Store.file_append (codec : LineCodec HistoryRecord) (store : Store) (recordedAt : String)
    (batch : List Record) (result : WriteResult) :
    store.file <+: (store.append codec recordedAt batch result).1.file := by
  rw [Store.append.eq_def]
  split
  · exact prefix_refl _
  split
  · exact prefix_refl _
  · cases result with
    | unopened => exact prefix_refl _
    | failed bytes | written => exact prefix_append _ _

namespace SessionRecorder

variable {io : Io} {recorder : SessionRecorder}

theorem appendFrom_cons (n : Nat) (record : Record) (rest : List Record) :
    recorder.appendFrom codec io n (record :: rest) =
      match recorder.store.append codec (io.now n) [record] (io.write n) with
      | (store, .ok _) => appendFrom codec io { recorder with store := store } (n + 1) rest
      | (store, .error _) => { recorder with store := store, recording := false } := rfl

theorem file_appendFrom (recorder : SessionRecorder) (n : Nat) (batch : List Record) :
    recorder.store.file <+: (recorder.appendFrom codec io n batch).store.file := by
  induction batch generalizing recorder n with
  | nil => exact prefix_refl _
  | cons record rest ih =>
    have hgrows := recorder.store.file_append codec (io.now n) [record] (io.write n)
    rw [appendFrom_cons]
    rcases hresult : recorder.store.append codec (io.now n) [record] (io.write n) with
      ⟨store, error | lines⟩
    · rw [hresult] at hgrows
      exact hgrows
    · rw [hresult] at hgrows
      exact hgrows.trans (ih { recorder with store := store } (n + 1))

/-- Appends of a recorder that is still recording afterwards have all been acknowledged. -/
theorem appendFrom_recording {n : Nat} {batch : List Record}
    (hstill : (recorder.appendFrom codec io n batch).recording = true) :
    ∃ lines, lines.map assembledOf = batch ∧
      codec.Encodes lines ∧
      recorder.appendFrom codec io n batch = { recorder with
        store := ⟨recorder.store.file ++ codec.bytes lines,
          recorder.store.durableBytes.map (· + (codec.bytes lines).length)⟩ } := by
  induction batch generalizing recorder n with
  | nil =>
    refine ⟨[], rfl, fun _ hline => absurd hline not_mem_nil, ?_⟩
    simp [appendFrom, LineCodec.bytes]
  | cons record rest ih =>
    rcases hresult : recorder.store.append codec (io.now n) [record] (io.write n) with ⟨store, answer⟩
    rw [appendFrom_cons, hresult] at hstill
    rw [appendFrom_cons, hresult]
    rcases answer with error | lines
    · cases hstill
    obtain ⟨hlines, hencoded, hstore⟩ := Store.append_ok (congrArg Prod.snd hresult)
    rw [hresult] at hstore
    obtain ⟨more, hmore, hmoreEncoded, hrest⟩ := ih hstill
    refine ⟨lines ++ more, ?_, ?_, ?_⟩
    · rw [map_append, hmore, hlines]
      rfl
    · exact forall_mem_append.mpr ⟨hencoded, hmoreEncoded⟩
    · dsimp only at hrest hstore ⊢
      rw [hrest, hstore, LineCodec.bytes_append]
      simp [Option.map_map, Function.comp_def, Nat.add_assoc]

theorem perform_eq (operation : Operation × Io) :
    recorder.perform codec operation =
      recorder.record codec operation.2 (operation.1.emit recorder.assembler) := by
  obtain ⟨operation, io⟩ := operation
  cases operation with
  | toolTimings timings =>
    rw [record, append]
    split <;> rfl
  | _ => rfl

theorem assembler_appendFrom (n : Nat) (batch : List Record) :
    (recorder.appendFrom codec io n batch).assembler = recorder.assembler := by
  induction batch generalizing recorder n with
  | nil => rfl
  | cons record rest ih =>
    rw [appendFrom_cons]
    split
    · exact ih (n + 1)
    · rfl

theorem assembler_perform (codec : LineCodec HistoryRecord) (recorder : SessionRecorder)
    (operation : Operation × Io) :
    (recorder.perform codec operation).assembler = (operation.1.emit recorder.assembler).1 := by
  rw [perform_eq, record, append]
  split
  · exact assembler_appendFrom 0 _
  · rfl

theorem file_perform (operation : Operation × Io) :
    recorder.store.file <+: (recorder.perform codec operation).store.file := by
  rw [perform_eq, record, append]
  split
  · exact file_appendFrom { recorder with assembler := (operation.1.emit recorder.assembler).1 } 0 _
  · exact prefix_refl _

theorem performAll_append (operations more : List (Operation × Io)) :
    recorder.performAll codec (operations ++ more) =
      (recorder.performAll codec operations).performAll codec more :=
  foldl_append

theorem file_performAll (operations : List (Operation × Io)) :
    recorder.store.file <+: (recorder.performAll codec operations).store.file := by
  induction operations generalizing recorder with
  | nil => exact prefix_refl _
  | cons operation rest ih => exact (file_perform operation).trans ih

/-- The recorder has written the lines to the file it was opened over, and its open items have
positions of their own. -/
structure Sound (codec : LineCodec HistoryRecord) (opened : Bytes) (recorder : SessionRecorder)
    (lines : List (Line HistoryRecord)) : Prop where
  boundary : AtBoundary newline opened
  encoded : ∀ line ∈ lines, (codec.encode line).isSome = true
  file : recorder.store.file = opened ++ codec.bytes lines
  durable : recorder.store.durableBytes = some recorder.store.file.length
  placed : recorder.assembler.PlacedIn ((readableLines codec opened ++ lines).map Line.seq)

variable {file : Bytes} {lines : List (Line HistoryRecord)}

/-- An operation that leaves the recorder recording has written what it emitted. -/
theorem Sound.perform {operation : Operation × Io} (h : Sound codec file recorder lines)
    (hroom : (operation.1.emit recorder.assembler).1.nextSeq < maxSeq)
    (hstill : (recorder.perform codec operation).recording = true) :
    ∃ more, more.map assembledOf = (operation.1.emit recorder.assembler).2 ∧
      Sound codec file (recorder.perform codec operation) (lines ++ more) := by
  have hplaced := Operation.placed_emit h.placed hroom
  have hassembler := assembler_perform codec recorder operation
  rw [perform_eq, record, append] at hstill hassembler ⊢
  by_cases hrecording : recorder.recording = true
  · rw [if_pos hrecording] at hstill hassembler ⊢
    obtain ⟨more, hmore, hencoded, heq⟩ := appendFrom_recording hstill
    refine ⟨more, hmore, h.boundary, forall_mem_append.mpr ⟨h.encoded, hencoded⟩,
      ?_, ?_, ?_⟩
    · rw [heq, LineCodec.bytes_append, ← append_assoc, ← h.file]
    · rw [heq]
      simp [h.durable]
    · have hseqs : more.map Line.seq = (operation.1.emit recorder.assembler).2.map (·.seq) := by
        rw [← hmore, map_map]
        rfl
      rw [hassembler, ← append_assoc, map_append, hseqs]
      exact hplaced
  · rw [if_neg hrecording] at hstill
    exact absurd hstill hrecording

variable {operations : List (Operation × Io)}

theorem lt_of_performAll_lt
    (h : (recorder.performAll codec operations).assembler.nextSeq < maxSeq) :
    recorder.assembler.nextSeq < maxSeq := by
  induction operations generalizing recorder with
  | nil => exact h
  | cons operation rest ih =>
    have hnext := ih h
    rw [assembler_perform] at hnext
    exact Operation.lt_of_emit_lt hnext

theorem recording_of_performAll (h : (recorder.performAll codec operations).recording = true) :
    recorder.recording = true := by
  induction operations generalizing recorder with
  | nil => exact h
  | cons operation rest ih =>
    have hfirst := ih h
    by_contra hstopped
    rw [perform_eq, record, append, if_neg hstopped] at hfirst
    exact hstopped hfirst

/-- A recorder that is still recording has written everything its assembler emitted. -/
theorem Sound.performAll (h : Sound codec file recorder lines)
    (hroom : (recorder.performAll codec operations).assembler.nextSeq < maxSeq)
    (hstill : (recorder.performAll codec operations).recording = true) :
    ∃ more, more.map assembledOf = emitted recorder.assembler (operations.map Prod.fst) ∧
      Sound codec file (recorder.performAll codec operations) (lines ++ more) := by
  induction operations generalizing recorder lines with
  | nil => exact ⟨[], rfl, by rw [append_nil]; exact h⟩
  | cons operation rest ih =>
    have hnext : (recorder.perform codec operation).assembler.nextSeq < maxSeq :=
      lt_of_performAll_lt hroom
    have hgoing : (recorder.perform codec operation).recording = true :=
      recording_of_performAll hstill
    rw [assembler_perform] at hnext
    obtain ⟨first, hfirst, hsound⟩ := h.perform hnext hgoing
    obtain ⟨more, hmore, hlast⟩ := ih hsound hroom hstill
    refine ⟨first ++ more, ?_, ?_⟩
    · rw [assembler_perform] at hmore
      rw [map_append, hfirst, hmore]
      rfl
    · rw [← append_assoc]
      exact hlast

/-- A recorder that was just opened at the end of a line. -/
theorem sound_openRecorder {readable writable : Bool} (hfile : AtBoundary newline file)
    (hreadable : readable = false → file = [])
    (hroom : (openRecorder codec file readable writable).assembler.nextSeq < maxSeq) :
    Sound codec file (openRecorder codec file readable writable) [] := by
  refine ⟨hfile, fun _ hline => absurd hline not_mem_nil, (append_nil _).symm, ?_, ?_⟩
  · cases readable with
    | true => rfl
    | false =>
      rw [hreadable rfl]
      rfl
  · refine ⟨nodup_nil, fun _ hslot => absurd hslot not_mem_nil, ?_,
      fun _ hslot => absurd hslot not_mem_nil⟩
    intro seq hseq
    rw [append_nil] at hseq
    obtain ⟨line, hline, rfl⟩ := mem_map.mp hseq
    change line.seq < (parseHistory codec file).nextSeq
    change (parseHistory codec file).nextSeq < maxSeq at hroom
    rw [(parseHistory_boundary codec hfile).2.1] at hroom ⊢
    refine lt_nextSeq (fun other hother => ?_) hline
    rcases hmax : ((readableLines codec file).map Line.seq).max? with _ | top
    · rw [List.max?_eq_none_iff, map_eq_nil_iff] at hmax
      rw [hmax] at hother
      cases hother
    · rw [hmax] at hroom
      exact Nat.lt_of_le_of_lt ((List.max?_eq_some_iff.mp hmax).2 _ (mem_map_of_mem hother))
        (lt_of_followingSeq_lt hroom)

/-- What is read up to what counts as durable: the lines, and nothing new that is damaged. -/
theorem Sound.parseHistory (h : Sound codec file recorder lines) :
    (History.parseHistory codec recorder.store.file).lines =
        orderLines (readableLines codec file ++ lines) ∧
      (History.parseHistory codec recorder.store.file).integrity =
        (History.parseHistory codec file).integrity := by
  have hboundary : AtBoundary newline (file ++ codec.bytes lines) := by
    rcases eq_nil_or_concat lines with rfl | ⟨init, line, rfl⟩
    · simpa [LineCodec.bytes] using h.boundary
    · refine .inr ?_
      simp [LineCodec.bytes, delimit]
  obtain ⟨hlines, -, hintegrity⟩ := parseHistory_boundary codec hboundary
  rw [h.file, hlines, hintegrity, readableLines_append h.encoded h.boundary,
    unreadableLines_append h.encoded h.boundary]
  exact ⟨rfl, (parseHistory_boundary codec h.boundary).2.2.symm⟩

end SessionRecorder

end OraDesktop.History
