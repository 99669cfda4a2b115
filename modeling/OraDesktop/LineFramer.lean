import Mathlib.Algebra.Ring.Nat
import Mathlib.Data.List.Infix
import Mathlib.Data.PNat.Defs

/-!
# Records of a byte stream

The framer cuts a stream into the records between its newlines, and a record that is longer than the
limit into fragments. A full buffer is only flushed when another byte of its record arrives, which
may be with a later chunk. Appending and pushing are actions of the bytes (`push_append`), so the
cuts between chunks do not matter and a record can be read at once.

## Main results

* `frames_of_chunks` — the frames of a stream, however it is cut into chunks
-/

namespace OraDesktop.LineFramer

open List

inductive LineFrame where
  | line (bytes : List UInt8)
  | fragment (sequence index : Nat) (last : Bool) (bytes : List UInt8)

/-- The record that is being flushed. In the source its sequence number is a `u64` and its index a
`u32`; `frames_of_chunks` says for which streams neither overflows. -/
structure Overflow where
  sequence : Nat
  nextIndex : Nat

/-- The buffer never holds more than the limit, however long a line is: this is what the framer is
for. -/
structure BoundedLineFramer where
  maxRecordBytes : ℕ+
  buffer : List UInt8 := []
  overflow : Option Overflow := none
  nextSequence : Nat := 0
  bounded : buffer.length ≤ maxRecordBytes := by exact Nat.zero_le _

namespace BoundedLineFramer

abbrev Output := List LineFrame × BoundedLineFramer

def Output.andThen (output : Output) (next : BoundedLineFramer → Output) : Output :=
  (output.1 ++ (next output.2).1, (next output.2).2)

theorem Output.andThen_assoc (output : Output) (next after : BoundedLineFramer → Output) :
    (output.andThen next).andThen after =
      output.andThen fun framer => (next framer).andThen after := by
  simp [andThen]

section

variable (framer : BoundedLineFramer)

/-- Where the record stands; the first fragment takes the next sequence number. -/
def state : Overflow := framer.overflow.getD ⟨framer.nextSequence, 0⟩

def sequenceAfter : Nat := framer.nextSequence + if framer.overflow.isNone then 1 else 0

def takeRecord (last : Bool) : Output :=
  if last && framer.overflow.isNone then
    ([.line framer.buffer], { framer with buffer := [], bounded := Nat.zero_le _ })
  else
    ([.fragment framer.state.sequence framer.state.nextIndex last framer.buffer],
      { framer with
        buffer := []
        overflow := if last then none else some ⟨framer.state.sequence, framer.state.nextIndex + 1⟩
        nextSequence := framer.sequenceAfter
        bounded := Nat.zero_le _ })

def room : Nat := framer.maxRecordBytes - framer.buffer.length

/-- What there is room for joins the buffer. Some of a chunk may be left, and is for the next
turn. -/
def fill (bytes : List UInt8) : BoundedLineFramer :=
  { framer with
    buffer := framer.buffer ++ bytes.take framer.room
    bounded := by
      have := framer.bounded
      rw [length_append, length_take, room]
      omega }

variable {framer} (bytes more : List UInt8)

theorem room_fill : (framer.fill bytes).room = framer.room - bytes.length := by
  simp [room, fill]
  omega

theorem fill_append : framer.fill (bytes ++ more) = (framer.fill bytes).fill more := by
  rw [fill.eq_1 (framer.fill bytes)]
  simp only [room_fill]
  simp [fill, take_append]

end

/-- Each turn of the loop takes what there is room for. The buffer is full when something is left,
and is then flushed. -/
def appendBounded (framer : BoundedLineFramer) (bytes : List UInt8) : Output :=
  if bytes.length ≤ framer.room then ([], framer.fill bytes)
  else
    let flushed := (framer.fill bytes).takeRecord false
    let appended := flushed.2.appendBounded (bytes.drop framer.room)
    (flushed.1 ++ appended.1, appended.2)
  termination_by (bytes.length, framer.buffer.length)
  decreasing_by
    simp only [Prod.lex_def, length_drop, takeRecord, Bool.false_and, Bool.false_eq_true, if_false]
    have := framer.maxRecordBytes.pos
    by_cases hroom : framer.room = 0
    · exact .inr ⟨by omega, this.trans_le (by rw [room] at hroom; omega)⟩
    · exact .inl (by omega)

section

variable (framer : BoundedLineFramer) (bytes more : List UInt8)

theorem appendBounded_append : framer.appendBounded (bytes ++ more) =
    (framer.appendBounded bytes).andThen (·.appendBounded more) := by
  fun_induction appendBounded framer bytes with
  | case1 framer bytes h =>
    -- what fits only leaves less room for the rest
    change _ = (framer.fill bytes).appendBounded more
    rw [appendBounded, appendBounded.eq_1 _ more, length_append, drop_append,
      drop_eq_nil_of_le h, nil_append, room_fill, fill_append]
    simp only [Nat.le_sub_iff_add_le' h]
  | case2 framer bytes h flushed appended ih =>
    have hle := Nat.le_of_not_le h
    have hfill : framer.fill (bytes ++ more) = framer.fill bytes := by
      simp [fill, take_append_of_le_length hle]
    rw [appendBounded, if_neg (by rw [length_append]; omega), hfill,
      drop_append_of_le_length hle]
    simp only [flushed] at ih
    simp [ih, Output.andThen, appended, flushed]

theorem buffer_appendBounded (h : bytes ≠ []) : (framer.appendBounded bytes).2.buffer ≠ [] := by
  fun_induction appendBounded framer bytes with
  | case1 framer bytes hle => simp [fill, take_of_length_le hle, h]
  | case2 framer bytes hle flushed appended ih => exact ih (by simpa using hle)

/-- The pieces of a chunk between its newlines; all but the last close a record. -/
def pushPieces (framer : BoundedLineFramer) : List (List UInt8) → Output
  | [] => ([], framer)
  | [piece] => framer.appendBounded piece
  | piece :: pieces => ((framer.appendBounded piece).andThen (·.takeRecord true)).andThen
      (·.pushPieces pieces)

theorem pushPieces_cons {pieces : List (List UInt8)} (h : pieces ≠ []) :
    framer.pushPieces (bytes :: pieces) =
      ((framer.appendBounded bytes).andThen (·.takeRecord true)).andThen (·.pushPieces pieces) := by
  cases pieces with
  | nil => contradiction
  | cons => rfl

def push (framer : BoundedLineFramer) (chunk : List UInt8) : Output :=
  framer.pushPieces (chunk.splitOn 10)

theorem push_nil : framer.push [] = ([], framer) := by
  simp [push, pushPieces, appendBounded, fill]

theorem push_cons (byte : UInt8) : framer.push (byte :: bytes) =
    (if byte = 10 then framer.takeRecord true else framer.appendBounded [byte]).andThen
      (·.push bytes) := by
  simp only [push, splitOn, splitOnP_cons_eq_if_modifyHead, beq_iff_eq]
  have hne := splitOnP_ne_nil (· == (10 : UInt8)) bytes
  split
  · rw [pushPieces_cons _ _ hne, appendBounded]
    simp [Output.andThen, fill]
  · obtain ⟨piece, pieces, hpieces⟩ := exists_cons_of_ne_nil hne
    have hcons : framer.appendBounded (byte :: piece) =
        (framer.appendBounded [byte]).andThen (·.appendBounded piece) :=
      appendBounded_append framer [byte] piece
    rw [hpieces, modifyHead_cons]
    cases pieces with
    | nil => exact hcons
    | cons => simp only [pushPieces, hcons, Output.andThen_assoc]

theorem push_append :
    framer.push (bytes ++ more) = (framer.push bytes).andThen (·.push more) := by
  induction bytes generalizing framer with
  | nil => rw [push_nil]; rfl
  | cons byte bytes ih => simp only [cons_append, push_cons, ih, Output.andThen_assoc]

def pushChunks (framer : BoundedLineFramer) : List (List UInt8) → Output
  | [] => ([], framer)
  | chunk :: chunks => (framer.push chunk).andThen (·.pushChunks chunks)

theorem pushChunks_eq (chunks : List (List UInt8)) :
    framer.pushChunks chunks = framer.push chunks.flatten := by
  induction chunks generalizing framer with
  | nil => exact framer.push_nil.symm
  | cons chunk chunks ih => simp only [pushChunks, flatten_cons, push_append, ih]

def finish : Output :=
  if framer.buffer = [] ∧ framer.overflow = none then ([], framer) else framer.takeRecord true

end

/-- The frames of a stream that arrives in chunks. -/
def frames (limit : ℕ+) (chunks : List (List UInt8)) : List LineFrame :=
  ((pushChunks { maxRecordBytes := limit } chunks).andThen finish).1

/-- The pieces of a record that is longer than the limit. -/
inductive Pieces (limit sequence : Nat) : Nat → List UInt8 → List LineFrame → Prop
  | last {index : Nat} {bytes : List UInt8} : bytes ≠ [] → bytes.length ≤ limit →
      Pieces limit sequence index bytes [.fragment sequence index true bytes]
  | full {index : Nat} {bytes more : List UInt8} {frames : List LineFrame} :
      bytes.length = limit → Pieces limit sequence (index + 1) more frames →
      Pieces limit sequence index (bytes ++ more) (.fragment sequence index false bytes :: frames)

/-- The frames of records, from the next sequence number on. -/
inductive Frames (limit : Nat) : Nat → List (List UInt8) → List LineFrame → Prop
  | nil {sequence : Nat} : Frames limit sequence [] []
  | line {sequence : Nat} {record : List UInt8} {records : List (List UInt8)}
      {frames : List LineFrame} : record.length ≤ limit → Frames limit sequence records frames →
      Frames limit sequence (record :: records) ([.line record] ++ frames)
  | fragments {sequence : Nat} {record : List UInt8} {records : List (List UInt8)}
      {pieces frames : List LineFrame} : limit < record.length →
      Pieces limit sequence 0 record pieces → Frames limit (sequence + 1) records frames →
      Frames limit sequence (record :: records) (pieces ++ frames)

def closed (framer : BoundedLineFramer) (record : List UInt8) : Output :=
  (framer.appendBounded record).andThen (·.takeRecord true)

section

variable {framer : BoundedLineFramer} {record : List UInt8}

theorem closed_fits (h : record.length ≤ framer.room) :
    framer.closed record = (framer.fill record).takeRecord true := by
  rw [closed, appendBounded, if_pos h]
  rfl

theorem closed_flushes (h : ¬record.length ≤ framer.room) : framer.closed record =
    ((framer.fill record).takeRecord false).andThen (·.closed (record.drop framer.room)) := by
  rw [closed, appendBounded, if_neg h]
  simp [Output.andThen, closed]

end

def fresh (limit : ℕ+) (sequence : Nat) : BoundedLineFramer :=
  { maxRecordBytes := limit, nextSequence := sequence }

/-- A record that goes on, or that does not fit, is closed by its last piece. -/
theorem pieces_of_empty (framer : BoundedLineFramer) {record : List UInt8}
    (hbuffer : framer.buffer = []) (hne : record ≠ [])
    (h : framer.overflow = none → framer.room < record.length) : ∃ frames,
      Pieces framer.maxRecordBytes framer.state.sequence framer.state.nextIndex record frames ∧
      framer.closed record = (frames, fresh framer.maxRecordBytes framer.sequenceAfter) := by
  have hroom : framer.room = framer.maxRecordBytes := by simp [room, hbuffer]
  induction framer, record using appendBounded.induct with
  | case1 framer record hle =>
    have hsome : framer.overflow.isNone = false := by
      cases hoverflow : framer.overflow with
      | none => exact absurd (h hoverflow) (Nat.not_lt.mpr hle)
      | some => rfl
    refine ⟨_, .last hne (hle.trans_eq hroom), ?_⟩
    rw [closed_fits hle]
    simp [takeRecord, fill, take_of_length_le hle, hbuffer, hsome, state, sequenceAfter, fresh]
  | case2 framer record hle flushed ih =>
    obtain ⟨frames, hframes, heq⟩ := ih rfl (by simpa using hle) nofun rfl
    have hfull : (record.take framer.room).length = framer.maxRecordBytes := by
      rw [length_take, hroom]
      omega
    have hpieces : Pieces framer.maxRecordBytes framer.state.sequence framer.state.nextIndex _ _ :=
      .full hfull hframes
    rw [take_append_drop] at hpieces
    refine ⟨_, hpieces, ?_⟩
    rw [closed_flushes hle, Output.andThen, heq]
    simp [takeRecord, fill, hbuffer, state, sequenceAfter, flushed]

theorem frames_of_record (limit : ℕ+) (sequence : Nat) (record : List UInt8) :
    ∃ run next, (fresh limit sequence).closed record = (run, fresh limit next) ∧
      ∀ {records frames}, Frames limit next records frames →
        Frames limit sequence (record :: records) (run ++ frames) := by
  by_cases hle : record.length ≤ limit
  · refine ⟨_, sequence, ?_, .line hle⟩
    rw [closed_fits (by exact hle)]
    simp [takeRecord, fill, fresh, room, take_of_length_le hle]
  · have hlt := Nat.lt_of_not_le hle
    obtain ⟨run, hrun, heq⟩ := pieces_of_empty (fresh limit sequence)
      rfl (ne_nil_of_length_pos (Nat.zero_lt_of_lt hlt)) fun _ => hlt
    exact ⟨run, _, heq, .fragments hlt hrun⟩

/-- What stands between the newlines, without an empty tail. -/
def records : List (List UInt8) → List (List UInt8)
  | [] => []
  | [tail] => if tail = [] then [] else [tail]
  | record :: next => record :: records next

theorem frames_of_pieces (limit : ℕ+) (pieces : List (List UInt8)) (sequence : Nat) :
    Frames limit sequence (records pieces)
      (((fresh limit sequence).pushPieces pieces).andThen finish).1 := by
  fun_induction records pieces generalizing sequence with
  | case1 => exact .nil
  | case2 => simpa [pushPieces, appendBounded, fill, fresh, finish, Output.andThen] using Frames.nil
  | case3 tail h =>
    obtain ⟨run, next, heq, hframes⟩ := frames_of_record limit sequence tail
    have hfinish : (((fresh limit sequence).pushPieces [tail]).andThen finish).1 =
        ((fresh limit sequence).closed tail).1 := by
      rw [pushPieces, Output.andThen, finish,
        if_neg fun hempty => buffer_appendBounded _ _ h hempty.1]
      rfl
    rw [hfinish, heq, ← append_nil run]
    exact hframes .nil
  | case4 record next hne ih =>
    obtain ⟨run, next, heq, hframes⟩ := frames_of_record limit sequence record
    rw [closed] at heq
    rw [pushPieces_cons _ _ hne, heq, Output.andThen_assoc]
    exact hframes (ih next)

def size : LineFrame → Nat
  | .line bytes | .fragment _ _ _ bytes => bytes.length

section

variable {limit sequence index : Nat} {record : List UInt8} {records : List (List UInt8)}
  {frames : List LineFrame}

theorem Pieces.size_le (h : Pieces limit sequence index record frames) :
    ∀ frame ∈ frames, size frame ≤ limit := by
  induction h with
  | last _ hle => simpa [size] using hle
  | full hlength _ ih => exact forall_mem_cons.mpr ⟨hlength.le, ih⟩

theorem Frames.size_le (h : Frames limit sequence records frames) :
    ∀ frame ∈ frames, size frame ≤ limit := by
  induction h with
  | nil => nofun
  | line hle _ ih => exact forall_mem_cons.mpr ⟨hle, ih⟩
  | fragments _ hpieces _ ih => exact forall_mem_append.mpr ⟨hpieces.size_le, ih⟩

variable {number i : Nat} {last : Bool} {bytes : List UInt8}

theorem Pieces.numbered (h : Pieces limit sequence index record frames) (hlimit : 0 < limit)
    (hmem : .fragment number i last bytes ∈ frames) :
    number = sequence ∧ i * limit < index * limit + record.length := by
  induction h with
  | last hne _ =>
    cases mem_singleton.mp hmem
    exact ⟨rfl, Nat.lt_add_of_pos_right (length_pos_iff.mpr hne)⟩
  | @full index bytes more frames hlength _ ih =>
    rw [length_append, hlength]
    rcases mem_cons.mp hmem with heq | hmem
    · cases heq
      exact ⟨rfl, by omega⟩
    · obtain ⟨hnumber, hlt⟩ := ih hmem
      rw [Nat.succ_mul] at hlt
      exact ⟨hnumber, by omega⟩

/-- A fragment's number and index are bounded by the records it comes after and its own. -/
theorem Frames.numbered (h : Frames limit sequence records frames) (hlimit : 0 < limit)
    (hmem : .fragment number i last bytes ∈ frames) :
    number < sequence + records.length ∧ ∃ record ∈ records, i * limit < record.length := by
  induction h with
  | nil => cases hmem
  | line _ _ ih =>
    obtain ⟨hnumber, record, hrecord, hlt⟩ := ih (by simpa using hmem)
    exact ⟨by rw [length_cons]; omega, record, mem_cons_of_mem _ hrecord, hlt⟩
  | fragments _ hpieces _ ih =>
    rw [length_cons]
    rcases mem_append.mp hmem with hmem | hmem
    · obtain ⟨rfl, hlt⟩ := hpieces.numbered hlimit hmem
      exact ⟨by omega, _, mem_cons_self, by omega⟩
    · obtain ⟨hnumber, record, hrecord, hlt⟩ := ih hmem
      exact ⟨by omega, record, mem_cons_of_mem _ hrecord, hlt⟩

end

/-- The frames depend on the stream alone. A record within the limit is a line, a longer one the
run of its fragments under a sequence number of its own. With fewer than `2 ^ 32` fragments to a
record and fewer than `2 ^ 64` records, the counters stay in range after every fragment. -/
theorem frames_of_chunks (limit : ℕ+) (chunks : List (List UInt8)) :
    frames limit chunks = frames limit [chunks.flatten] ∧
      Frames limit 0 (records (chunks.flatten.splitOn 10)) (frames limit chunks) ∧
      (∀ frame ∈ frames limit chunks, size frame ≤ limit) ∧
      ∀ number index last bytes, .fragment number index last bytes ∈ frames limit chunks →
        ((records (chunks.flatten.splitOn 10)).length < 2 ^ 64 → number + 1 < 2 ^ 64) ∧
        ((∀ record ∈ records (chunks.flatten.splitOn 10), record.length ≤ (2 ^ 32 - 1) * limit) →
          index + 1 < 2 ^ 32) := by
  have heq : frames limit chunks = (((fresh limit 0).push chunks.flatten).andThen finish).1 := by
    rw [frames, pushChunks_eq]
    rfl
  have hframes := frames_of_pieces limit (chunks.flatten.splitOn 10) 0
  rw [← push, ← heq] at hframes
  refine ⟨?_, hframes, hframes.size_le, fun number index last bytes hmem => ?_⟩
  · rw [heq, frames, pushChunks_eq, flatten_singleton]
    rfl
  · obtain ⟨hnumber, record, hrecord, hlt⟩ := hframes.numbered limit.pos hmem
    refine ⟨fun hcount => by omega, fun hshort => ?_⟩
    have := Nat.lt_of_mul_lt_mul_right (hlt.trans_le (hshort record hrecord))
    omega

end BoundedLineFramer

end OraDesktop.LineFramer
