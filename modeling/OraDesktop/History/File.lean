import OraDesktop.Lib.Delimited
import OraDesktop.Lib.Latest

/-!
# Session history files

A session's history is a file of lines, one JSON object each. A line carries its position in the
conversation; records are appended when they settle, so the file is not in that order, and a record
that changes after it was written is appended again under its position. Reading keeps the last line
of each position, in order, and tolerates a last line that was never finished.

Bytes are bytes, and the JSON of a line is a parameter: what `serde_json` writes for a line it
reads back, it is not empty and it holds no line break.
-/

namespace OraDesktop.History

open Delimited

abbrev Bytes := List UInt8

/-- `b'\n'` -/
def newline : UInt8 := 10

/-- `u32::MAX` -/
def maxSeq : Nat := 4294967295

/-- `seq.saturating_add(1)`: the last position follows itself. -/
def followingSeq (seq : Nat) : Nat := if seq < maxSeq then seq + 1 else maxSeq

variable {R : Type}

/-- `AssembledRecord`: a record and the position it occupies. -/
structure Assembled (R : Type) where
  seq : Nat
  record : R

/-- `HistoryLine`: an assembled record as it is written, with the time of the append. -/
structure Line (R : Type) where
  recordedAt : String
  seq : Nat
  record : R
  deriving DecidableEq

/-- The JSON of lines. Writing one may fail. The laws are what the file format needs: a text reads
back, and is neither empty nor broken in two. -/
structure LineCodec (R : Type) where
  encode : Line R → Option Bytes
  decode : Bytes → Option (Line R)
  decode_encode : ∀ line text, encode line = some text → decode text = some line
  newline_not_mem : ∀ line text, encode line = some text → newline ∉ text
  encode_ne_nil : ∀ line text, encode line = some text → text ≠ []

/-! ### Reading -/

inductive Integrity where
  | complete
  | damaged (unreadableLines : Nat)
  deriving DecidableEq

structure SessionHistory (R : Type) where
  lines : List (Line R)
  nextSeq : Nat
  integrity : Integrity
  deriving DecidableEq

/-- Keeps the last line of each position and restores their order. -/
def orderLines (lines : List (Line R)) : List (Line R) := Latest.latest Line.seq lines

/-- Splits and decodes a file, tolerating a write that was interrupted in a line. -/
def parseHistory (codec : LineCodec R) (bytes : Bytes) : SessionHistory R :=
  let endsWithNewline := decide (bytes.getLast? = some newline)
  let pieces := segments newline bytes
  let parsed := pieces.filterMap codec.decode
  let droppedLines := pieces.zipIdx.countP fun (piece, index) =>
    (codec.decode piece).isNone && !(!endsWithNewline && decide (index + 1 = pieces.length))
  { lines := orderLines parsed
    nextSeq := ((parsed.map Line.seq).max?).elim 0 followingSeq
    integrity := if droppedLines = 0 then .complete else .damaged droppedLines }

/-- Reads the part of a file that was there at a cutoff, while a writer may be appending behind
it. -/
def readUpTo (codec : LineCodec R) (bytes : Bytes) (maxBytes : Nat) : SessionHistory R :=
  parseHistory codec (bytes.take maxBytes)

/-! ### Writing -/

/-- The file of a session, and what its writer counts as durable while it is open. -/
structure Store where
  file : Bytes
  durableBytes : Option Nat

/-- What becomes of a write, which is not the program's to choose. -/
inductive WriteResult where
  | written
  /-- The file could not be opened. -/
  | unopened
  /-- An error after this many bytes were written. -/
  | failed (bytes : Nat)

inductive HistoryError where
  | encode
  | unopened
  | append

/-- Opens a writer, which reads the length of the file; a length that cannot be read counts as
none. -/
def Store.openWriter (store : Store) (readable : Bool) : Store :=
  { store with durableBytes := some (if readable then store.file.length else 0) }

/-- The lines of a batch, which share the time of their append. -/
def linesOf (recordedAt : String) (records : List (Assembled R)) : List (Line R) :=
  records.map fun record => ⟨recordedAt, record.seq, record.record⟩

/-- Appends a batch in one write. The batch is encoded before the file is touched. -/
def Store.append (codec : LineCodec R) (store : Store) (recordedAt : String)
    (records : List (Assembled R)) (result : WriteResult) :
    Store × Except HistoryError (List (Line R)) :=
  if records.isEmpty then (store, .ok [])
  else
    match (linesOf recordedAt records).mapM codec.encode with
    | none => (store, .error .encode)
    | some texts =>
      let buffer := delimit newline texts
      match result with
      | .unopened => (store, .error .unopened)
      | .failed bytes => ({ store with file := store.file ++ buffer.take bytes }, .error .append)
      | .written =>
        (⟨store.file ++ buffer, store.durableBytes.map (· + buffer.length)⟩,
          .ok (linesOf recordedAt records))

end OraDesktop.History
