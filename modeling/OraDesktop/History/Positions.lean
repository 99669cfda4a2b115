import OraDesktop.History.Assembler
import OraDesktop.Lib.UniqueKey

/-!
# The positions of open items

Every open item has a position of its own, and the position of an item that is not written yet is
in no line of the file. What an operation emits it takes from the open items, so this stays so for
as long as positions do not run out.

## Main results

* `Placed` — open positions against those of the file
* `emits_pushUpdate`, `emits_endTurn` — the operations keep it
* `sorted_pendingRecords`, `fresh_pendingRecords` — what is pending is apart from the file
-/

namespace OraDesktop.History

open List

/-! ### Slots -/

/-- Positions below `next` are claimed. Each slot is a claimed position with whether its item still
has to be written; then the file has no line there. -/
structure Placed (next : Nat) (slots : List (Nat × Bool)) (used : List Nat) : Prop where
  nodup : (slots.map (·.1)).Nodup
  below : ∀ slot ∈ slots, slot.1 < next
  used_below : ∀ seq ∈ used, seq < next
  fresh : ∀ slot ∈ slots, slot.2 = true → slot.1 ∉ used

namespace Placed

variable {next : Nat} {slots slots' : List (Nat × Bool)} {used : List Nat}

theorem perm (h : Placed next slots used) (hperm : slots.Perm slots') : Placed next slots' used where
  nodup := ((hperm.map (·.1)).nodup_iff).mp h.nodup
  below slot hslot := h.below slot (hperm.mem_iff.mpr hslot)
  used_below := h.used_below
  fresh slot hslot := h.fresh slot (hperm.mem_iff.mpr hslot)

theorem emit {gone : List (Nat × Bool)} (h : Placed next (slots ++ gone) used) {seqs : List Nat}
    (hseqs : ∀ seq ∈ seqs, seq ∈ gone.map (·.1)) : Placed next slots (used ++ seqs) where
  nodup := by
    have := h.nodup
    rw [map_append] at this
    exact this.of_append_left
  below slot hslot := h.below slot (mem_append_left _ hslot)
  used_below seq hseq := by
    rcases mem_append.mp hseq with hused | hnew
    · exact h.used_below seq hused
    · obtain ⟨slot, hslot, rfl⟩ := mem_map.mp (hseqs seq hnew)
      exact h.below slot (mem_append_right _ hslot)
  fresh slot hslot hopen hmem := by
    rcases mem_append.mp hmem with hused | hnew
    · exact h.fresh slot (mem_append_left _ hslot) hopen hused
    · have hnodup := h.nodup
      rw [map_append, nodup_append'] at hnodup
      exact hnodup.2.2 (mem_map_of_mem hslot) (hseqs _ hnew)

theorem claim (h : Placed next slots used) : Placed (next + 1) (slots ++ [(next, true)]) used where
  nodup := UniqueKey.nodup_snoc h.nodup fun slot hslot => Nat.ne_of_lt (h.below slot hslot)
  below slot hslot := by
    rcases mem_append.mp hslot with hold | hnew
    · have := h.below slot hold
      omega
    · rw [mem_singleton.mp hnew]
      exact Nat.lt_succ_self next
  used_below seq hseq := Nat.lt_succ_of_lt (h.used_below seq hseq)
  fresh slot hslot hopen hmem := by
    rcases mem_append.mp hslot with hold | hnew
    · exact h.fresh slot hold hopen hmem
    · rw [mem_singleton.mp hnew] at hmem
      exact Nat.lt_irrefl _ (h.used_below _ hmem)

/-- An item is written at once, at the next position. -/
theorem claim_used (h : Placed next slots used) : Placed (next + 1) slots (used ++ [next]) :=
  h.claim.emit (by simp)

/-- An item is written and stays open, or is written again. -/
theorem write {before after : List (Nat × Bool)} {seq : Nat} {isOpen : Bool}
    (h : Placed next (before ++ (seq, isOpen) :: after) used) :
    Placed next (before ++ (seq, false) :: after) (used ++ [seq]) := by
  have hothers : Placed next (before ++ after) (used ++ [seq]) := by
    have hperm : (before ++ (seq, isOpen) :: after).Perm ((before ++ after) ++ [(seq, isOpen)]) :=
      perm_middle.trans (perm_append_singleton _ _).symm
    exact (h.perm hperm).emit (by simp)
  have hmem : ∀ slot, slot ∈ before ++ (seq, false) :: after →
      slot = (seq, false) ∨ slot ∈ before ++ after :=
    fun slot hslot => mem_cons.mp (perm_middle.mem_iff.mp hslot)
  refine ⟨?_, fun slot hslot => ?_, hothers.used_below, fun slot hslot hopen => ?_⟩
  · have hnodup := h.nodup
    simpa using hnodup
  · rcases hmem slot hslot with rfl | hother
    · exact h.below (seq, isOpen) (mem_append_right _ mem_cons_self)
    · exact hothers.below slot hother
  · rcases hmem slot hslot with rfl | hother
    · cases hopen
    · exact hothers.fresh slot hother hopen

end Placed

/-! ### The assembler -/

namespace HistoryAssembler

/-- The positions of the open items, with whether they are still to be written. The kinds do not
matter for keeping positions apart. -/
def slots (assembler : HistoryAssembler) : List (Nat × Bool) :=
  assembler.texts.map (fun pending => (pending.seq, true)) ++
    assembler.tools.map (fun pending => (pending.seq, !pending.written)) ++
    assembler.plans.map fun pending => (pending.1, true)

/-- The open positions of the assembler against those of the file. -/
def PlacedIn (assembler : HistoryAssembler) (used : List Nat) : Prop :=
  Placed assembler.nextSeq assembler.slots used

variable {assembler : HistoryAssembler} {used : List Nat}

/-- What an operation emits goes to the file, and it claims at most one position. -/
structure Emits (assembler : HistoryAssembler) (used : List Nat)
    (result : HistoryAssembler × List Record) : Prop where
  placed : result.1.PlacedIn (used ++ result.2.map (·.seq))
  grows : assembler.nextSeq ≤ result.1.nextSeq
  claims : result.1.nextSeq ≤ assembler.nextSeq + 1

theorem followingSeq_of_lt {seq : Nat} (h : seq < maxSeq) : followingSeq seq = seq + 1 := if_pos h

theorem Emits.silent {result : HistoryAssembler} (h : assembler.PlacedIn used)
    (hnext : result.nextSeq = assembler.nextSeq) (hslots : result.slots = assembler.slots) :
    Emits assembler used (result, []) := by
  refine ⟨?_, Nat.le_of_eq hnext.symm, by rw [hnext]; exact Nat.le_succ _⟩
  rw [PlacedIn, hnext, hslots, map_nil, append_nil]
  exact h

theorem Emits.claiming {result : HistoryAssembler × List Record} (hroom : assembler.nextSeq < maxSeq)
    (hnext : result.1.nextSeq = followingSeq assembler.nextSeq)
    (hplaced : Placed (assembler.nextSeq + 1) result.1.slots (used ++ result.2.map (·.seq))) :
    Emits assembler used result := by
  rw [followingSeq_of_lt hroom] at hnext
  refine ⟨?_, by omega, by omega⟩
  rw [PlacedIn, hnext]
  exact hplaced

theorem placed_settleTexts (p : PendingText → Bool) (h : assembler.PlacedIn used) :
    (assembler.settleTexts p).1.PlacedIn (used ++ (assembler.settleTexts p).2.map (·.seq)) := by
  -- the texts that are settled are moved to the end
  have hperm : assembler.slots.Perm ((assembler.settleTexts p).1.slots ++
      (assembler.texts.filter p).map fun pending => (pending.seq, true)) := by
    have htexts : assembler.texts.Perm
        ((assembler.texts.filter fun pending => !p pending) ++ assembler.texts.filter p) :=
      (perm_append_comm.trans (filter_append_perm p assembler.texts)).symm
    have hslots := htexts.map fun pending : PendingText => (pending.seq, true)
    rw [map_append] at hslots
    simp only [slots, settleTexts, append_assoc]
    refine (hslots.append_right _).trans ?_
    rw [append_assoc]
    refine List.Perm.append_left _ ?_
    refine perm_append_comm.trans ?_
    rw [append_assoc]
  refine (h.perm hperm).emit ?_
  intro seq hseq
  simpa [settleTexts, PendingText.toRecord] using hseq

section

variable (assembler : HistoryAssembler)

/-- A text that is opened last is the last slot, up to the order. -/
theorem slots_snocText (text : PendingText) (next : Nat) :
    (assembler.slots ++ [(text.seq, true)]).Perm
      (slots { assembler with nextSeq := next, texts := assembler.texts ++ [text] }) := by
  simp only [slots, map_append, map_cons, map_nil, append_assoc]
  refine List.Perm.append_left _ ?_
  rw [← append_assoc]
  exact perm_append_comm

theorem slots_snocTool (tool : PendingTool) (next : Nat) :
    (assembler.slots ++ [(tool.seq, !tool.written)]).Perm
      (slots { assembler with nextSeq := next, tools := assembler.tools ++ [tool] }) := by
  simp only [slots, map_append, map_cons, map_nil, append_assoc]
  exact List.Perm.append_left _ (List.Perm.append_left _ perm_append_comm)

end

theorem slots_extendText {p : PendingText → Bool} {text : String} {texts texts' : List PendingText}
    (h : extendText p text texts = some texts') :
    texts'.map (fun pending => (pending.seq, true)) = texts.map fun pending => (pending.seq, true) := by
  induction texts generalizing texts' with
  | nil => cases h
  | cons pending rest ih =>
    rw [extendText] at h
    split at h
    · cases h
      rfl
    · obtain ⟨rest', hrest, rfl⟩ := Option.map_eq_some_iff.mp h
      rw [map_cons, map_cons, ih hrest]

/-- A tool call is emitted at its position, or not at all. -/
theorem settle_cases (pending : PendingTool) :
    pending.settle = (pending, []) ∨
      pending.settle = ({ pending with written := true },
        [{ pending with written := true }.toRecord]) := by
  rw [PendingTool.settle]
  split
  · exact .inl rfl
  · exact .inr rfl

/-- The tool call that is changed keeps its position; if it is emitted, it is written from then
on. -/
theorem changeTool_cases {toolCallId : String} {change : PendingTool → PendingTool}
    (hchange : ∀ pending, (change pending).seq = pending.seq ∧
      (change pending).written = pending.written)
    {tools tools' : List PendingTool} {records : List Record}
    (h : changeTool toolCallId change tools = some (tools', records)) :
    (records = [] ∧ tools'.map (fun pending => (pending.seq, !pending.written)) =
      tools.map fun pending => (pending.seq, !pending.written)) ∨
    ∃ before seq isOpen after,
      tools.map (fun pending => (pending.seq, !pending.written)) =
        before ++ (seq, isOpen) :: after ∧
      tools'.map (fun pending => (pending.seq, !pending.written)) =
        before ++ (seq, false) :: after ∧ records.map (·.seq) = [seq] := by
  induction tools generalizing tools' records with
  | nil => cases h
  | cons pending rest ih =>
    obtain ⟨hseq, hwritten⟩ := hchange pending
    rw [changeTool] at h
    split at h
    · rcases settle_cases (change pending) with hsettle | hsettle
      · rw [hsettle] at h
        cases h
        refine .inl ⟨rfl, ?_⟩
        rw [map_cons, map_cons, hseq, hwritten]
      · rw [hsettle] at h
        cases h
        refine .inr ⟨[], pending.seq, !pending.written, _, rfl, ?_, ?_⟩
        · rw [map_cons, hseq]
          rfl
        · rw [← hseq]
          rfl
    · obtain ⟨⟨rest', records'⟩, hrest, heq⟩ := Option.map_eq_some_iff.mp h
      cases heq
      rcases ih hrest with ⟨rfl, hsame⟩ | ⟨before, seq, isOpen, after, hbefore, hafter, hrecords⟩
      · exact .inl ⟨rfl, by rw [map_cons, map_cons, hsame]⟩
      refine .inr ⟨(pending.seq, !pending.written) :: before, seq, isOpen, after, ?_, ?_,
        hrecords⟩
      · rw [map_cons, hbefore]
        rfl
      · rw [map_cons, hafter]
        rfl

theorem slots_swapPlan {plan : Plan} {plans plans' : List (Nat × Plan)}
    (h : swapPlan plan plans = some plans') :
    plans'.map (fun pending => (pending.1, true)) = plans.map fun pending => (pending.1, true) := by
  induction plans generalizing plans' with
  | nil => cases h
  | cons pending rest ih =>
    rw [swapPlan] at h
    split at h
    · cases h
      rfl
    · obtain ⟨rest', hrest, rfl⟩ := Option.map_eq_some_iff.mp h
      rw [map_cons, map_cons, ih hrest]

theorem slots_setTiming (toolCallId : String) (timing : ToolCallTiming) (tools : List PendingTool) :
    (setTiming toolCallId timing tools).map (fun pending => (pending.seq, !pending.written)) =
      tools.map fun pending => (pending.seq, !pending.written) := by
  induction tools with
  | nil => rfl
  | cons pending rest ih =>
    rw [setTiming]
    split
    · rfl
    · rw [map_cons, ih, map_cons]

theorem seq_settleAtTurnEnd {pending : PendingTool} {stopReason : StopReason} {record : Record}
    (h : pending.settleAtTurnEnd stopReason = some record) : record.seq = pending.seq := by
  rw [PendingTool.settleAtTurnEnd] at h
  split at h
  · cases h
    rfl
  · split at h
    · cases h
    · cases h
      rfl

section

variable {chunk : ContentChunk} {timing : Option ToolCallTiming} (h : assembler.PlacedIn used)
  (hroom : assembler.nextSeq < maxSeq)

include h hroom

theorem emits_standAlone {kind : TextKind} :
    Emits assembler used (assembler.standAlone kind chunk) := by
  have hsettled := placed_settleTexts (fun pending => pending.messageId.isNone) h
  refine .claiming hroom rfl ?_
  have hclaimed := hsettled.claim_used
  rw [append_assoc] at hclaimed
  rw [standAlone, map_append]
  exact hclaimed

theorem emits_openText {kind : TextKind} {text : String} {annotations : Option Value}
    {textMetadata : Option Meta} :
    Emits assembler used (assembler.openText kind chunk text annotations textMetadata) := by
  have hsettled := placed_settleTexts (fun pending => decide (pending.kind = kind) &&
    decide (pending.messageId.isSome = chunk.messageId.isSome)) h
  refine .claiming hroom rfl ?_
  exact hsettled.claim.perm (slots_snocText _
    ⟨assembler.nextSeq, kind, text, annotations, textMetadata, chunk.messageId, chunk.metadata⟩ _)

theorem emits_pushText {kind : TextKind} :
    Emits assembler used (assembler.pushText kind chunk) := by
  rw [pushText]
  split
  · exact emits_standAlone h hroom
  split
  · rename_i texts htexts
    refine Emits.silent h rfl ?_
    rw [slots, slots, slots_extendText htexts]
  · exact emits_openText h hroom

omit hroom in
theorem emits_changeTool {toolCallId : String} {change : PendingTool → PendingTool}
    (hchange : ∀ pending, (change pending).seq = pending.seq ∧
      (change pending).written = pending.written) {tools : List PendingTool} {records : List Record}
    (hchanged : changeTool toolCallId change assembler.tools = some (tools, records)) :
    Emits assembler used ({ assembler with tools := tools }, records) := by
  rcases changeTool_cases hchange hchanged with
    ⟨rfl, hsame⟩ | ⟨before, seq, isOpen, after, hbefore, hafter, hrecords⟩
  · refine Emits.silent h rfl ?_
    rw [slots, slots, hsame]
  refine ⟨?_, Nat.le_refl _, Nat.le_succ _⟩
  -- the written slot stands between the texts and the plans
  have hslots : assembler.slots =
      (assembler.texts.map (fun pending => (pending.seq, true)) ++ before) ++ (seq, isOpen) ::
        (after ++ assembler.plans.map fun pending => (pending.1, true)) := by
    rw [slots, hbefore]
    simp
  have hwritten : slots { assembler with tools := tools } =
      (assembler.texts.map (fun pending => (pending.seq, true)) ++ before) ++ (seq, false) ::
        (after ++ assembler.plans.map fun pending => (pending.1, true)) := by
    rw [slots, hafter]
    simp
  rw [PlacedIn, hslots] at h
  rw [PlacedIn, hwritten, hrecords]
  exact h.write

theorem emits_openTool {call : ToolCall} :
    Emits assembler used (assembler.openTool call timing) := by
  have hsettled := (placed_settleTexts (fun pending => pending.messageId.isNone) h).claim
  rw [openTool]
  simp only [interruptUnidentifiedText, takeSeq]
  rcases settle_cases ⟨(assembler.settleTexts fun pending => pending.messageId.isNone).1.nextSeq,
    call, false, timing⟩ with hsettle | hsettle
  · rw [hsettle]
    refine .claiming hroom rfl ?_
    rw [append_nil]
    exact hsettled.perm (slots_snocTool _ ⟨assembler.nextSeq, call, false, timing⟩ _)
  · rw [hsettle]
    refine .claiming hroom rfl ?_
    rw [map_append, ← append_assoc]
    exact hsettled.write.perm (slots_snocTool _ ⟨assembler.nextSeq, call, true, timing⟩ _)

theorem emits_upsertTool {call : ToolCall} :
    Emits assembler used (assembler.upsertTool call timing) := by
  rw [upsertTool]
  split
  · rename_i tools records hchanged
    refine emits_changeTool h ?_ hchanged
    exact fun _ => ⟨rfl, rfl⟩
  · exact emits_openTool h hroom

theorem emits_updateTool {update : ToolCallUpdate} :
    Emits assembler used (assembler.updateTool update timing) := by
  rw [updateTool]
  dsimp only
  split
  · rename_i tools records hchanged
    refine emits_changeTool h ?_ hchanged
    exact fun _ => ⟨rfl, rfl⟩
  · exact emits_openTool h hroom

theorem emits_replacePlan {plan : Plan} : Emits assembler used (assembler.replacePlan plan) := by
  rw [replacePlan]
  split
  · rename_i plans hplans
    refine Emits.silent h rfl ?_
    rw [slots, slots, slots_swapPlan hplans]
  · have hsettled := (placed_settleTexts (fun pending => pending.messageId.isNone) h).claim
    refine .claiming hroom rfl (hsettled.perm ?_)
    simp only [slots, map_append, map_cons, map_nil, append_assoc]
    exact List.Perm.refl _

theorem emits_pushUpdate {update : SessionUpdate} :
    Emits assembler used (assembler.pushUpdate update timing) := by
  cases update with
  | userMessageChunk chunk => exact Emits.silent h rfl rfl
  | agentMessageChunk chunk | agentThoughtChunk chunk => exact emits_pushText h hroom
  | toolCall call => exact emits_upsertTool h hroom
  | toolCallUpdate update => exact emits_updateTool h hroom
  | plan plan => exact emits_replacePlan h hroom
  | other body => exact Emits.silent h rfl rfl

/-- At the end of a turn every open item goes, and the end takes the next position. -/
theorem emits_endTurn {stopReason : StopReason} : Emits assembler used (assembler.endTurn stopReason) := by
  have hempty : Placed assembler.nextSeq [] (used ++ (bySeq
      (assembler.texts.map PendingText.toRecord ++
        assembler.tools.filterMap (·.settleAtTurnEnd stopReason) ++
        assembler.plans.map planRecord)).map (·.seq)) := by
    have hall : Placed assembler.nextSeq ([] ++ assembler.slots) used := h
    refine hall.emit fun seq hseq => ?_
    obtain ⟨record, hrecord, rfl⟩ := mem_map.mp hseq
    rw [bySeq, mem_insertionSort, mem_append, mem_append] at hrecord
    simp only [slots, map_append, map_map, mem_append, Function.comp_def]
    rcases hrecord with (htext | htool) | hplan
    · obtain ⟨text, hopen, rfl⟩ := mem_map.mp htext
      exact .inl (.inl (mem_map.mpr ⟨text, hopen, rfl⟩))
    · obtain ⟨tool, htool, hsettled⟩ := mem_filterMap.mp htool
      exact .inl (.inr (mem_map.mpr ⟨tool, htool, (seq_settleAtTurnEnd hsettled).symm⟩))
    · obtain ⟨plan, hopen, rfl⟩ := mem_map.mp hplan
      exact .inr (mem_map.mpr ⟨plan, hopen, rfl⟩)
  refine .claiming hroom rfl ?_
  have hclaimed := hempty.claim_used
  simpa [endTurn, takeSeq, slots] using hclaimed

end

/-! ### What is pending -/

theorem seqs_unsorted : (assembler.texts.map PendingText.toRecord ++
    (assembler.tools.filter fun pending => !pending.written).map PendingTool.toRecord ++
    assembler.plans.map planRecord).map (·.seq) = (assembler.slots.filter (·.2)).map (·.1) := by
  simp only [slots, map_append, map_map, filter_append, filter_map,
    Function.comp_def]
  simp [PendingText.toRecord, PendingTool.toRecord, planRecord]

/-- Pending records are in the order of their positions. -/
theorem sorted_pendingRecords (h : assembler.PlacedIn used) :
    assembler.pendingRecords.Pairwise fun a b => a.seq < b.seq := by
  refine Latest.sorted_insertionSort (fun record : Record => record.seq) ?_
  rw [seqs_unsorted]
  exact h.nodup.sublist (filter_sublist.map _)

/-- No line of the file is at the position of a pending record. -/
theorem fresh_pendingRecords {record : Record} (h : assembler.PlacedIn used)
    (hrecord : record ∈ assembler.pendingRecords) : record.seq ∉ used := by
  have hseq : record.seq ∈ (assembler.slots.filter (·.2)).map (·.1) := by
    rw [← seqs_unsorted]
    exact mem_map_of_mem ((perm_insertionSort _ _).mem_iff.mp hrecord)
  obtain ⟨slot, hslot, heq⟩ := mem_map.mp hseq
  obtain ⟨hslot, hopen⟩ := mem_filter.mp hslot
  rw [← heq]
  exact h.fresh slot hslot hopen

end HistoryAssembler

end OraDesktop.History
