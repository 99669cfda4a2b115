import OraDesktop.History.File
import OraDesktop.Lib.Fallible

/-!
# What a history file keeps

The life of a history file is a sequence of openings, appends and crashes. A crash may cut off any
number of bytes, since appends are not synced; what counts as complete afterwards are the records
whose lines are whole in what is left.

A writer appends where the file ends, without looking at how it ends. After a line that was not
finished the first appended record is glued to what is left of it, and both are unreadable. Where
every opening and every append finds the file at the end of a line, and a failing append leaves no
readable piece, reading gives back exactly what was acknowledged. Whole lines of a batch that failed
are complete records too, but not acknowledged ones: they count from the next opening or crash on,
and until then nothing may be appended.

## Main results

* `Holds.apply` — one action
* `acknowledged_records_kept` — every life of a file
-/

namespace OraDesktop.History

open Delimited Latest List LineCodec

variable {R : Type} {codec : LineCodec R} {store : Store} {records : List (Line R)}

/-! ### Lives of a file -/

inductive Action (R : Type) where
  /-- The process ends, and of the file this many bytes are kept. -/
  | crash (kept : Nat)
  /-- The session is opened again; the length of the file may be unreadable. -/
  | reopen (readable : Bool)
  | append (recordedAt : String) (batch : List (Assembled R)) (result : WriteResult)

section

variable (codec : LineCodec R)

/-- The effect of an action on the file. A closed file is not appended to, so an append that meets
one changes nothing. -/
def Store.apply (store : Store) : Action R → Store
  | .crash kept => ⟨store.file.take kept, none⟩
  | .reopen readable => store.openWriter readable
  | .append recordedAt batch result =>
    match store.durableBytes with
    | none => store
    | some _ => (store.append codec recordedAt batch result).1

/-- The text of a line; a line that cannot be encoded never reaches a file. -/
def LineCodec.text (line : Line R) : Bytes := (codec.encode line).getD []

/-- The records of a batch whose lines a failing append has written whole. -/
def leftLines (recordedAt : String) (batch : List (Assembled R)) : WriteResult → List (Line R)
  | .failed bytes => ((linesOf recordedAt batch).mapM codec.encode).elim [] fun texts =>
      (linesOf recordedAt batch).take (wholeCount texts bytes)
  | .written | .unopened => []

/-- The records that are complete after an action: those whose lines a crash or a failing append left
whole, and those whose append was acknowledged. -/
def settled (store : Store) (records : List (Line R)) : Action R → List (Line R)
  | .crash kept => records.take (wholeCount (records.map codec.text) kept)
  | .reopen _ => records
  | .append recordedAt batch result =>
    match store.durableBytes with
    | none => records
    | some _ =>
      match (store.append codec recordedAt batch result).2 with
      | .ok lines => records ++ lines
      | .error _ => records ++ leftLines codec recordedAt batch result

/-- One action: on the file, and on the records that are complete in it. -/
def act (state : Store × List (Line R)) (action : Action R) : Store × List (Line R) :=
  (state.1.apply codec action, settled codec state.1 state.2 action)

/-- A whole life, from before there was a file: the sessions that opened it, and the crashes between
and within them. -/
def life (actions : List (Action R)) : Store × List (Line R) :=
  actions.foldl (act codec) (⟨[], none⟩, [])

/-- What a failing append leaves of its batch. The file is not cut back, so the bytes stay in front
of whatever is appended next. -/
def leftover (recordedAt : String) (batch : List (Assembled R)) : WriteResult → Bytes
  | .failed bytes => ((linesOf recordedAt batch).mapM codec.encode).elim [] fun texts =>
      (delimit newline texts).take bytes
  | .written | .unopened => []

/-- The append fails after whole lines of its batch: records that are in the file although their
append was not acknowledged. -/
def LeavesLines : Action R → Prop
  | .append recordedAt batch result => newline ∈ leftover codec recordedAt batch result
  | .crash _ | .reopen _ => False

/-- A failing append leaves no piece of a line that reads as a record. After whole lines the session
ends, and then it does not matter. -/
def LeavesUnreadable (recordedAt : String) (batch : List (Assembled R)) (result : WriteResult) :
    Prop :=
  newline ∈ leftover codec recordedAt batch result ∨ leftover codec recordedAt batch result = [] ∨
    codec.decode (leftover codec recordedAt batch result) = none

/-- The session is opened and appended to at the end of a line, no position is the last there is,
and a failing append leaves no piece that reads as a record. -/
def Orderly (store : Store) : Action R → Prop
  | .crash _ => True
  | .reopen readable => AtBoundary newline store.file ∧ (readable = false → store.file = [])
  | .append recordedAt batch result => AtBoundary newline store.file ∧
      (∀ record ∈ batch, record.seq < maxSeq) ∧ LeavesUnreadable codec recordedAt batch result

end

/-- The action ends the session: what is complete in the file then counts. -/
def Action.endsSession : Action R → Bool
  | .crash _ | .reopen _ => true
  | .append _ _ _ => false

/-- Every action of a life is orderly in the file it meets, and a session does not go on after an
append that left whole lines. -/
def OrderlyLife (codec : LineCodec R) : Store → List (Action R) → Prop
  | _, [] => True
  | store, action :: rest =>
    Orderly codec store action ∧
      (LeavesLines codec action → rest.head?.any Action.endsSession = true) ∧
      OrderlyLife codec (store.apply codec action) rest

instance (codec : LineCodec R) : DecidablePred (LeavesLines codec)
  | .append _ _ _ => inferInstanceAs (Decidable (_ ∈ _))
  | .crash _ | .reopen _ => inferInstanceAs (Decidable False)

instance (codec : LineCodec R) (store : Store) (action : Action R) :
    Decidable (Orderly codec store action) := by
  cases action with
  | crash kept => exact inferInstanceAs (Decidable True)
  | reopen readable =>
    exact inferInstanceAs (Decidable ((_ ∨ _) ∧ (_ → _)))
  | append recordedAt batch result =>
    have : Decidable (LeavesUnreadable codec recordedAt batch result) :=
      inferInstanceAs (Decidable (_ ∨ _ ∨ _))
    exact inferInstanceAs (Decidable ((_ ∨ _) ∧ (∀ record ∈ batch, _) ∧ _))

instance (codec : LineCodec R) : ∀ (store : Store) (actions : List (Action R)),
    Decidable (OrderlyLife codec store actions)
  | _, [] => inferInstanceAs (Decidable True)
  | store, action :: rest =>
    have := instDecidableOrderlyLife codec (store.apply codec action) rest
    inferInstanceAs (Decidable (Orderly codec store action ∧ (LeavesLines codec action → _) ∧ _))

/-! ### What is on disk -/

/-- The lines of the records, one after the other. -/
def LineCodec.bytes (codec : LineCodec R) (records : List (Line R)) : Bytes :=
  delimit newline (records.map codec.text)

/-- The record has a text and a position before the last. Numbering saturates at the last position,
which would then be given out again. -/
def Recordable (codec : LineCodec R) (line : Line R) : Prop :=
  (codec.encode line).isSome = true ∧ line.seq < maxSeq

/-- The file holds the records and an unfinished line. While the file is open and unless whole lines
were just `left` by a failing append, that line does not read as a record and the other ones are
durable. -/
structure Holds (codec : LineCodec R) (store : Store) (records : List (Line R)) (torn : Bytes)
    (left : Prop) : Prop where
  recordable : ∀ line ∈ records, Recordable codec line
  file : store.file = codec.bytes records ++ torn
  unfinished : newline ∉ torn
  unreadable : ¬left → store.durableBytes ≠ none → torn = [] ∨ codec.decode torn = none
  durable : ¬left → ∀ bytes, store.durableBytes = some bytes →
    bytes = (codec.bytes records).length

def LineCodec.Encodes (codec : LineCodec R) (lines : List (Line R)) : Prop :=
  ∀ line ∈ lines, (codec.encode line).isSome = true

namespace LineCodec.Encodes

variable (h : codec.Encodes records)
include h

theorem encode_eq {line : Line R} (hline : line ∈ records) :
    codec.encode line = some (codec.text line) := by
  obtain ⟨text, htext⟩ := Option.isSome_iff_exists.mp (h line hline)
  rw [LineCodec.text, htext]
  rfl

theorem decode_text {line : Line R} (hline : line ∈ records) :
    codec.decode (codec.text line) = some line :=
  codec.decode_encode line _ (h.encode_eq hline)

theorem texts_ok : ∀ text ∈ records.map codec.text, newline ∉ text ∧ text ≠ [] := by
  intro text htext
  obtain ⟨line, hline, rfl⟩ := mem_map.mp htext
  have hencode := h.encode_eq hline
  exact ⟨codec.newline_not_mem line _ hencode, codec.encode_ne_nil line _ hencode⟩

theorem filterMap_decode : (records.map codec.text).filterMap codec.decode = records := by
  have hsome : ∀ line ∈ records, (codec.decode ∘ codec.text) line = some line := fun _ => h.decode_text
  rw [filterMap_map, filterMap_congr hsome, filterMap_some]

theorem none_dropped (torn : Bool) (count : Nat) :
    (records.map codec.text).zipIdx.countP (fun (piece, index) =>
      (codec.decode piece).isNone && !(torn && decide (index + 1 = count))) = 0 := by
  rw [countP_eq_zero]
  rintro ⟨piece, index⟩ hmem
  have hpiece : piece ∈ records.map codec.text := (mem_zipIdx' hmem).2 ▸ getElem_mem _
  obtain ⟨line, hline, rfl⟩ := mem_map.mp hpiece
  simp [h.decode_text hline]

end LineCodec.Encodes

theorem Holds.encodes {torn : Bytes} {left : Prop} (h : Holds codec store records torn left) :
    codec.Encodes records :=
  fun line hline => (h.recordable line hline).1

theorem LineCodec.bytes_append (records more : List (Line R)) :
    codec.bytes (records ++ more) = codec.bytes records ++ codec.bytes more := by
  simp [bytes, delimit]

variable {torn : Bytes} {left : Prop}

theorem Holds.strengthen (h : Holds codec store records torn left) (hleft : ¬left) :
    Holds codec store records torn False :=
  ⟨h.recordable, h.file, h.unfinished, fun _ => h.unreadable hleft, fun _ => h.durable hleft⟩

theorem Holds.weaken (h : Holds codec store records torn False) : Holds codec store records torn left :=
  ⟨h.recordable, h.file, h.unfinished, fun _ => h.unreadable id, fun _ => h.durable id⟩

theorem Holds.at_boundary (h : Holds codec store records torn left)
    (hboundary : AtBoundary newline store.file) : torn = [] := by
  rw [h.file] at hboundary
  exact torn_eq_nil h.unfinished hboundary

theorem Holds.crash (h : Holds codec store records torn left) (kept : Nat) :
    ∃ torn', Holds codec (store.apply codec (.crash kept))
      (settled codec store records (.crash kept)) torn' False := by
  have hfree : ∀ text ∈ records.map codec.text, newline ∉ text := fun text htext =>
    (h.encodes.texts_ok text htext).1
  have hkept : ∀ line ∈ records.take (wholeCount (records.map codec.text) kept),
      Recordable codec line := fun line hline => h.recordable line (mem_of_mem_take hline)
  obtain ⟨cut, hcut, htake⟩ := take_delimit hfree kept
  -- the cut falls into the lines or into what follows them
  have hfile : ∃ torn', newline ∉ torn' ∧ (codec.bytes records ++ torn).take kept =
      codec.bytes (records.take (wholeCount (records.map codec.text) kept)) ++ torn' := by
    refine ⟨cut ++ torn.take (kept - (codec.bytes records).length), ?_, ?_⟩
    · intro hmem
      rcases mem_append.mp hmem with hmem | hmem
      · exact hcut hmem
      · exact h.unfinished (mem_of_mem_take hmem)
    · rw [take_append, bytes, htake, bytes, map_take,
        append_assoc]
  obtain ⟨torn', htorn', htake'⟩ := hfile
  refine ⟨torn', hkept, ?_, htorn', fun _ hopen => absurd rfl hopen, nofun⟩
  change store.file.take kept = _
  rw [h.file]
  exact htake'

theorem Holds.reopen {readable : Bool} (h : Holds codec store records torn left)
    (horderly : Orderly codec store (.reopen readable)) :
    Holds codec (store.apply codec (.reopen readable)) records [] False := by
  obtain ⟨hboundary, hreadable⟩ := horderly
  have htorn := h.at_boundary hboundary
  have hfile : store.file = codec.bytes records := by
    rw [h.file, htorn, append_nil]
  refine ⟨h.recordable, ?_, not_mem_nil, fun _ _ => .inl rfl, ?_⟩
  · rw [append_nil]
    exact hfile
  · rintro _ bytes ⟨⟩
    cases readable with
    | true => simp [hfile]
    | false =>
      rw [hreadable rfl] at hfile
      simp [← hfile]

variable {lines : List (Line R)}

theorem bytes_of_mapM {texts : List Bytes} (h : lines.mapM codec.encode = some texts) :
    texts = lines.map codec.text ∧ codec.Encodes lines := by
  rw [Fallible.mapM_eq_some] at h
  induction h with
  | nil => exact ⟨rfl, fun _ hline => absurd hline not_mem_nil⟩
  | cons hencode _ ih =>
    obtain ⟨rfl, hrest⟩ := ih
    refine ⟨?_, forall_mem_cons.mpr ⟨by rw [hencode]; rfl, hrest⟩⟩
    rw [map_cons, text, hencode]
    rfl

variable {batch : List (Assembled R)} {result : WriteResult} {recordedAt : String}

/-- An append that is acknowledged adds its lines to the file, and counts them as durable. -/
theorem Store.append_ok (hok : (store.append codec recordedAt batch result).2 = .ok lines) :
    lines = linesOf recordedAt batch ∧ codec.Encodes lines ∧
      (store.append codec recordedAt batch result).1 = ⟨store.file ++ codec.bytes lines,
        store.durableBytes.map (· + (codec.bytes lines).length)⟩ := by
  rw [Store.append.eq_def] at hok ⊢
  split
  · rename_i hempty
    rw [if_pos hempty] at hok
    cases hok
    have hbatch : batch = [] := by simpa using hempty
    refine ⟨by rw [hbatch]; rfl, fun _ hline => absurd hline not_mem_nil, ?_⟩
    simp [bytes]
  rename_i hsome
  rw [if_neg hsome] at hok
  rcases hmap : (linesOf recordedAt batch).mapM codec.encode with _ | texts
  · rw [hmap] at hok
    cases hok
  obtain ⟨htexts, hencoded⟩ := bytes_of_mapM hmap
  rw [hmap] at hok
  cases result with
  | unopened => cases hok
  | failed bytes => cases hok
  | written =>
    cases hok
    refine ⟨rfl, hencoded, ?_⟩
    rw [htexts]
    rfl

/-- An append that is acknowledged adds its lines to the records. -/
theorem Holds.append_ok (h : Holds codec store records [] False) (hopen : store.durableBytes ≠ none)
    (hseq : ∀ record ∈ batch, record.seq < maxSeq)
    (hok : (store.append codec recordedAt batch result).2 = .ok lines) :
    Holds codec (store.append codec recordedAt batch result).1 (records ++ lines) [] False := by
  obtain ⟨hlines, hencoded, hstore⟩ := Store.append_ok hok
  obtain ⟨durable, hdurable⟩ := Option.ne_none_iff_exists'.mp hopen
  have hlength := h.durable id durable hdurable
  have hfile := h.file
  rw [append_nil] at hfile
  rw [hstore]
  refine ⟨fun line hline => ?_, ?_, not_mem_nil, fun _ _ => .inl rfl, fun _ bytes hbytes => ?_⟩
  · rcases mem_append.mp hline with hold | hnew
    · exact h.recordable line hold
    · refine ⟨hencoded line hnew, ?_⟩
      rw [hlines] at hnew
      obtain ⟨record, hrecord, rfl⟩ := mem_map.mp hnew
      exact hseq record hrecord
  · dsimp only
    rw [hfile, bytes_append, append_nil]
  · dsimp only at hbytes
    rw [hdurable, Option.map_some, Option.some.injEq] at hbytes
    rw [← hbytes, hlength, bytes_append, length_append]

theorem Store.append_error {error : HistoryError}
    (herror : (store.append codec recordedAt batch result).2 = .error error) :
    (store.append codec recordedAt batch result).1 =
      ⟨store.file ++ leftover codec recordedAt batch result, store.durableBytes⟩ := by
  rw [Store.append.eq_def] at herror ⊢
  split
  · rename_i hempty
    rw [if_pos hempty] at herror
    cases herror
  rename_i hsome
  rw [if_neg hsome] at herror
  unfold leftover
  rcases hmap : (linesOf recordedAt batch).mapM codec.encode with _ | texts
  · cases result <;> simp
  rw [hmap] at herror
  cases result with
  | unopened => simp
  | failed bytes => rfl
  | written => cases herror

variable (codec batch result recordedAt) in
/-- What a failing append writes of its batch: whole lines, and a piece of the next one. -/
theorem leftover_eq : ∃ cut, newline ∉ cut ∧ leftover codec recordedAt batch result =
    codec.bytes (leftLines codec recordedAt batch result) ++ cut := by
  cases result with
  | written | unopened => exact ⟨[], not_mem_nil, rfl⟩
  | failed bytes =>
    rw [leftover, leftLines]
    rcases hmap : (linesOf recordedAt batch).mapM codec.encode with _ | texts
    · exact ⟨[], not_mem_nil, rfl⟩
    obtain ⟨rfl, hencoded⟩ := bytes_of_mapM hmap
    obtain ⟨cut, hcut, htake⟩ :=
      take_delimit (fun text htext => (hencoded.texts_ok text htext).1) bytes
    refine ⟨cut, hcut, ?_⟩
    rw [Option.elim_some, Option.elim_some, htake, LineCodec.bytes, map_take]

theorem recordable_leftLines (hseq : ∀ record ∈ batch, record.seq < maxSeq) :
    ∀ line ∈ leftLines codec recordedAt batch result, Recordable codec line := by
  cases result with
  | written | unopened => exact fun _ hline => absurd hline not_mem_nil
  | failed bytes =>
    rw [leftLines]
    rcases hmap : (linesOf recordedAt batch).mapM codec.encode with _ | texts
    · exact fun _ hline => absurd hline not_mem_nil
    intro line hline
    have hmem := mem_of_mem_take hline
    obtain ⟨record, hrecord, rfl⟩ := mem_map.mp hmem
    exact ⟨(bytes_of_mapM hmap).2 _ hmem, hseq record hrecord⟩

/-- An append that fails adds the records it wrote whole, and leaves a piece of the next one. -/
theorem Holds.append_error {error : HistoryError} (h : Holds codec store records [] False)
    (hseq : ∀ record ∈ batch, record.seq < maxSeq)
    (hleaves : LeavesUnreadable codec recordedAt batch result)
    (herror : (store.append codec recordedAt batch result).2 = .error error) :
    ∃ torn, Holds codec (store.append codec recordedAt batch result).1
      (records ++ leftLines codec recordedAt batch result) torn
      (LeavesLines codec (.append recordedAt batch result)) := by
  obtain ⟨cut, hcut, hleft⟩ := leftover_eq codec batch result recordedAt
  have hnone : ¬LeavesLines codec (.append recordedAt batch result) →
      leftLines codec recordedAt batch result = [] := by
    intro hnone
    rcases hlines : leftLines codec recordedAt batch result with _ | ⟨line, lines⟩
    · rfl
    · refine absurd ?_ hnone
      rw [LeavesLines, hleft, hlines]
      simp [LineCodec.bytes, delimit]
  rw [Store.append_error herror]
  refine ⟨cut, forall_mem_append.mpr ⟨h.recordable, recordable_leftLines hseq⟩, ?_, hcut,
    fun hno _ => ?_, fun hno bytes hbytes => ?_⟩
  · rw [h.file, append_nil, hleft, bytes_append, append_assoc]
  · have hcut : leftover codec recordedAt batch result = cut := by
      rw [hleft, hnone hno]
      rfl
    exact hcut ▸ hleaves.resolve_left hno
  · rw [hnone hno, append_nil]
    exact h.durable id bytes hbytes

theorem Holds.append (h : Holds codec store records torn False)
    (horderly : Orderly codec store (.append recordedAt batch result)) :
    ∃ torn', Holds codec (store.apply codec (.append recordedAt batch result))
      (settled codec store records (.append recordedAt batch result)) torn'
      (LeavesLines codec (.append recordedAt batch result)) := by
  obtain ⟨hboundary, hseq, hleaves⟩ := horderly
  have htorn := h.at_boundary hboundary
  subst htorn
  rw [Store.apply.eq_def, settled.eq_def]
  rcases hdurable : store.durableBytes with _ | durable
  · exact ⟨[], h.weaken⟩
  have hopen : store.durableBytes ≠ none := by
    rw [hdurable]
    exact nofun
  dsimp only
  rcases hresult : (store.append codec recordedAt batch result).2 with error | lines
  · exact h.append_error hseq hleaves hresult
  · exact ⟨[], (h.append_ok hopen hseq hresult).weaken⟩

theorem Holds.apply {action : Action R} (h : Holds codec store records torn left)
    (hleft : left → action.endsSession = true) (horderly : Orderly codec store action) :
    ∃ torn', Holds codec (store.apply codec action) (settled codec store records action) torn'
      (LeavesLines codec action) := by
  cases action with
  | crash kept => exact h.crash kept
  | reopen readable => exact ⟨[], h.reopen horderly⟩
  | append recordedAt batch result =>
    exact (h.strengthen fun hl => nomatch hleft hl).append horderly

/-- Through every orderly life. What the last action left is not there at its end. -/
theorem Holds.foldl_act {actions : List (Action R)} {state : Store × List (Line R)}
    (h : Holds codec state.1 state.2 torn left)
    (hleft : left → actions.head?.any Action.endsSession = true)
    (horderly : OrderlyLife codec state.1 actions) :
    ∃ torn', Holds codec (actions.foldl (act codec) state).1
      (actions.foldl (act codec) state).2 torn' False := by
  induction actions generalizing state torn left with
  | nil => exact ⟨torn, h.strengthen fun hl => nomatch hleft hl⟩
  | cons action rest ih =>
    obtain ⟨torn', hnext⟩ := h.apply hleft horderly.1
    exact ih hnext horderly.2.1 horderly.2.2

/-! ### What is read -/

theorem Holds.parseHistory (h : Holds codec store records torn False)
    (hopen : store.durableBytes ≠ none) :
    parseHistory codec store.file =
      ⟨orderLines records, ((records.map Line.seq).max?).elim 0 followingSeq, .complete⟩ := by
  have hpieces : segments newline store.file =
      records.map codec.text ++ (if torn = [] then [] else [torn]) := by
    rw [h.file, bytes]
    exact segments_delimit (h.encodes.texts_ok) h.unfinished
  rcases h.unreadable id hopen with htorn | htorn
  · simp only [if_pos htorn, append_nil] at hpieces
    simp only [History.parseHistory, hpieces, h.encodes.filterMap_decode, h.encodes.none_dropped,
      if_true]
  by_cases hempty : torn = []
  · simp only [if_pos hempty, append_nil] at hpieces
    simp only [History.parseHistory, hpieces, h.encodes.filterMap_decode,
      h.encodes.none_dropped, if_true]
  -- the unfinished line is the last piece, and the file does not end with a line break
  simp only [if_neg hempty] at hpieces
  have hlast : store.file.getLast? ≠ some newline := by
    rw [h.file, List.getLast?_append_of_ne_nil _ hempty]
    exact fun hlast => h.unfinished (mem_of_getLast? hlast)
  simp only [History.parseHistory, hpieces, filterMap_append, h.encodes.filterMap_decode,
    zipIdx_append, countP_append, h.encodes.none_dropped]
  simp [htorn, hlast]

/-- The position that comes next is above all of them. -/
theorem lt_nextSeq {line : Line R} (h : ∀ line ∈ records, line.seq < maxSeq)
    (hline : line ∈ records) : line.seq < ((records.map Line.seq).max?).elim 0 followingSeq := by
  rcases hmax : (records.map Line.seq).max? with _ | top
  · rw [List.max?_eq_none_iff] at hmax
    rw [map_eq_nil_iff] at hmax
    rw [hmax] at hline
    cases hline
  · obtain ⟨hmem, hle⟩ := List.max?_eq_some_iff.mp hmax
    obtain ⟨highest, hhighest, htop⟩ := mem_map.mp hmem
    have hbound := h highest hhighest
    have hseq := hle line.seq (mem_map_of_mem hline)
    rw [htop] at hbound
    simp only [Option.elim_some, followingSeq, if_pos hbound]
    omega

/-- Reading gives back the records, the last one of each position in order, nothing is reported as
damaged, the next position is free, and what counts as durable are whole records. -/
structure Kept (codec : LineCodec R) (store : Store) (records : List (Line R)) (durable : Nat) :
    Prop where
  lines : IsLatest Line.seq records (parseHistory codec store.file).lines
  integrity : (parseHistory codec store.file).integrity = .complete
  nextSeq : ∀ line ∈ records, line.seq < (parseHistory codec store.file).nextSeq
  durable : store.file.take durable = codec.bytes records ∧ durable = (codec.bytes records).length

/-- In every life of a file in which the session is opened and appended to at the ends of lines, no
position is the last there is, and failing appends leave no piece that reads as a record and end
their session if they leave whole lines: while the session is open, reading gives back exactly the
records that were complete when it was opened and those whose append was acknowledged since. -/
theorem acknowledged_records_kept {actions : List (Action R)} {durable : Nat}
    (horderly : OrderlyLife codec ⟨[], none⟩ actions)
    (hopen : (life codec actions).1.durableBytes = some durable) :
    Kept codec (life codec actions).1 (life codec actions).2 durable := by
  have hempty : Holds codec (R := R) ⟨[], none⟩ [] [] False :=
    ⟨nofun, rfl, not_mem_nil, fun _ hopen => absurd rfl hopen, nofun⟩
  obtain ⟨torn, h⟩ : ∃ torn, Holds codec (life codec actions).1 (life codec actions).2 torn False :=
    Holds.foldl_act hempty False.elim horderly
  have hparse := h.parseHistory (by rw [hopen]; exact nofun)
  have hdurable := h.durable id durable hopen
  refine ⟨?_, by rw [hparse], fun line hline => ?_, ?_, hdurable⟩
  · rw [hparse]
    exact isLatest_latest Line.seq _
  · rw [hparse]
    exact lt_nextSeq (fun line hline => (h.recordable line hline).2) hline
  · rw [h.file, hdurable, take_left]

/-! ### Two lives -/

/-- A small codec, a position in braces: a prefix of a line reads only if it is the whole line. -/
def braced : LineCodec Unit where
  encode line :=
    if line.recordedAt = "" ∧ line.seq < 200 then some [123, UInt8.ofNat (line.seq + 20), 125]
    else none
  decode
    | [123, seq, 125] => some ⟨"", seq.toNat - 20, ()⟩
    | _ => none
  decode_encode := by
    rintro ⟨recordedAt, seq, ⟨⟩⟩ text htext
    simp only [Option.ite_none_right_eq_some, Option.some.injEq] at htext
    obtain ⟨⟨rfl, hseq⟩, rfl⟩ := htext
    have hsmall : (seq + 20) % 256 - 20 = seq := by omega
    simpa using hsmall
  newline_not_mem := by
    rintro ⟨recordedAt, seq, ⟨⟩⟩ text htext
    simp only [Option.ite_none_right_eq_some, Option.some.injEq] at htext
    obtain ⟨⟨rfl, hseq⟩, rfl⟩ := htext
    intro hmem
    simp only [newline, mem_cons, not_mem_nil, or_false] at hmem
    rcases hmem with heq | heq | heq
    · cases heq
    · have htoNat := congrArg UInt8.toNat heq
      rw [UInt8.toNat_ofNat'] at htoNat
      change 10 = _ at htoNat
      omega
    · cases heq
  encode_ne_nil := by
    rintro line text htext
    simp only [Option.ite_none_right_eq_some, Option.some.injEq] at htext
    rw [← htext.2]
    exact cons_ne_nil _ _

/-- A crash at the end of a line, a record that is written again by an append that fails after it,
and one that fails within its line. -/
def orderlyActions : List (Action Unit) :=
  [.reopen true, .append "" [⟨0, ()⟩, ⟨1, ()⟩] .written, .crash 4, .reopen true,
    .append "" [⟨1, ()⟩] .written, .append "" [⟨0, ()⟩, ⟨3, ()⟩] (.failed 4), .reopen true,
    .append "" [⟨2, ()⟩] (.failed 2)]

theorem acknowledged_records_kept_orderly :
    parseHistory braced (life braced orderlyActions).1.file =
      ⟨[⟨"", 0, ()⟩, ⟨"", 1, ()⟩], 2, .complete⟩ ∧
    (life braced orderlyActions).2 = [⟨"", 0, ()⟩, ⟨"", 1, ()⟩, ⟨"", 0, ()⟩] ∧
    Kept braced (life braced orderlyActions).1 (life braced orderlyActions).2 12 := by
  refine ⟨by decide +kernel, by decide +kernel, acknowledged_records_kept ?_ (by decide +kernel)⟩
  decide +kernel

/-- A crash just before the end of a line. The record still reads; once another one is appended,
neither does, and the file is reported as damaged. -/
theorem torn_line_loses_records :
    (parseHistory braced (life braced
      [.reopen true, .append "" [⟨0, ()⟩] .written, .crash 3]).1.file =
        ⟨[⟨"", 0, ()⟩], 1, .complete⟩) ∧
    (life braced [.reopen true, .append "" [⟨0, ()⟩] .written, .crash 3, .reopen true]).1.durableBytes
      = some 3 ∧ (life braced [.reopen true, .append "" [⟨0, ()⟩] .written, .crash 3, .reopen true,
      .append "" [⟨1, ()⟩] .written]).2 = [⟨"", 1, ()⟩] ∧
    parseHistory braced (life braced [.reopen true, .append "" [⟨0, ()⟩] .written, .crash 3,
      .reopen true, .append "" [⟨1, ()⟩] .written]).1.file = ⟨[], 0, .damaged 1⟩ := by
  decide +kernel

end OraDesktop.History
