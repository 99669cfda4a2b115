import Mathlib.Data.Nat.Find
import Mathlib.Data.List.Basic

/-!
# Bytes as text

Bytes that are text are shown as they are. Other bytes are spelled: what is text among them stays,
with every backslash doubled, and every byte that is not becomes `\xNN`. Together with the flag that
tells the two renderings apart, the text determines the bytes.

## Main results

* `renderBytesLossless_reversible` — the bytes are read back from the text and the flag
-/

namespace OraDesktop.LosslessBytes

open List

def utf8 (text : List Char) : List UInt8 := text.flatMap String.utf8EncodeChar

/-- So many bytes at the start are text, and so end where a character ends. -/
def ValidPrefix (bytes : List UInt8) (n : Nat) : Prop :=
  n ≤ bytes.length ∧ ∃ text, utf8 text = bytes.take n

structure Utf8Error where
  validUpTo : Nat
  /-- There is none where the input ends inside a sequence. -/
  errorLen : Option Nat

/-- `std::str::from_utf8` gives the text whose bytes they are, or reports how many of them are the
longest prefix that is text, and how many after it are invalid. -/
class FromUtf8 where
  fromUtf8 : List UInt8 → Except Utf8Error (List Char)
  ok_iff : ∀ {bytes text}, fromUtf8 bytes = .ok text ↔ utf8 text = bytes
  valid : ∀ {bytes error}, fromUtf8 bytes = .error error → ValidPrefix bytes error.validUpTo
  longest : ∀ {bytes error}, fromUtf8 bytes = .error error →
    ∀ n, ValidPrefix bytes n → n ≤ error.validUpTo
  invalid : ∀ {bytes error n}, fromUtf8 bytes = .error error → error.errorLen = some n →
    0 < n ∧ error.validUpTo + n ≤ bytes.length

export FromUtf8 (fromUtf8)

/-- Whether a rendering is the original text or its reversible escaped form. -/
inductive ByteRendering where
  | utf8
  | escaped

/-- `\xNN`. -/
def escapeByte (byte : UInt8) : List Char :=
  ['\\', 'x', (byte.toNat / 16).digitChar, (byte.toNat % 16).digitChar]

/-- What `push_escaping_backslashes` appends: the text, with its backslashes doubled. -/
def escapingBackslashes (text : List Char) : List Char :=
  text.flatMap fun character => if character = '\\' then ['\\', '\\'] else [character]

section

variable [FromUtf8] {bytes : List UInt8} {error : Utf8Error}

theorem validUpTo_lt (h : fromUtf8 bytes = .error error) : error.validUpTo < bytes.length := by
  obtain ⟨hle, text, htext⟩ := FromUtf8.valid h
  refine lt_of_le_of_ne hle fun heq => ?_
  rw [heq, take_length] at htext
  rw [FromUtf8.ok_iff.mpr htext] at h
  cases h

/-- The number of bytes that are spelled after the valid prefix. -/
def invalidLen (bytes : List UInt8) (error : Utf8Error) : Nat :=
  error.errorLen.getD (bytes.length - error.validUpTo)

theorem invalidLen_pos (h : fromUtf8 bytes = .error error) : 0 < invalidLen bytes error := by
  rw [invalidLen]
  cases hlen : error.errorLen with
  | none => exact Nat.sub_pos_of_lt (validUpTo_lt h)
  | some n => exact (FromUtf8.invalid h hlen).1

theorem length_rest_lt (h : fromUtf8 bytes = .error error) :
    ((bytes.drop error.validUpTo).drop (invalidLen bytes error)).length < bytes.length := by
  have := validUpTo_lt h
  have := invalidLen_pos h
  simp only [length_drop]
  omega

/-- Escapes invalid bytes and backslashes, and keeps valid runs verbatim. -/
def escapeBytes (bytes : List UInt8) : List Char :=
  match h : fromUtf8 bytes with
  | .ok valid => escapingBackslashes valid
  | .error error =>
    let rest := bytes.drop error.validUpTo
    have _hshorter := length_rest_lt h
    escapingBackslashes ((fromUtf8 (bytes.take error.validUpTo)).toOption.getD []) ++
      ((rest.take (invalidLen bytes error)).flatMap escapeByte ++
        escapeBytes (rest.drop (invalidLen bytes error)))
termination_by bytes.length
decreasing_by exact _hshorter

def renderBytesLossless (bytes : List UInt8) : List Char × ByteRendering :=
  match fromUtf8 bytes with
  | .ok text => (text, .utf8)
  | .error _ => (escapeBytes bytes, .escaped)

end

/-! ### Reading back -/

def hexValue (digit : Char) : Nat := (range 16).findIdx (·.digitChar == digit)

/-- Undoes the escapes. No function of the source does: it is what makes a rendering reversible. -/
def unescape : List Char → List UInt8
  | '\\' :: '\\' :: rest => String.utf8EncodeChar '\\' ++ unescape rest
  | '\\' :: 'x' :: high :: low :: rest =>
    UInt8.ofNat (16 * hexValue high + hexValue low) :: unescape rest
  | character :: rest => String.utf8EncodeChar character ++ unescape rest
  | [] => []

def decodeRendered : List Char × ByteRendering → List UInt8
  | (text, .utf8) => utf8 text
  | (text, .escaped) => unescape text

theorem hexValue_digitChar : ∀ n < 16, hexValue n.digitChar = n := by decide

theorem unescape_escapeByte (byte : UInt8) (rest : List Char) :
    unescape (escapeByte byte ++ rest) = byte :: unescape rest := by
  have hbyte := byte.toNat_lt
  have hhigh := hexValue_digitChar (byte.toNat / 16) (by omega)
  have hlow := hexValue_digitChar (byte.toNat % 16) (by omega)
  have hsum : 16 * (byte.toNat / 16) + byte.toNat % 16 = byte.toNat := by omega
  simp [escapeByte, unescape, hhigh, hlow, hsum]

theorem unescape_flatMap_escapeByte (bytes : List UInt8) (rest : List Char) :
    unescape (bytes.flatMap escapeByte ++ rest) = bytes ++ unescape rest := by
  induction bytes with
  | nil => rfl
  | cons byte bytes ih =>
    rw [flatMap_cons, append_assoc, unescape_escapeByte, ih, cons_append]

theorem unescape_escapingBackslashes (text rest : List Char) :
    unescape (escapingBackslashes text ++ rest) = utf8 text ++ unescape rest := by
  induction text with
  | nil => rfl
  | cons character text ih =>
    rw [escapingBackslashes, flatMap_cons, append_assoc, ← escapingBackslashes, utf8, flatMap_cons,
      append_assoc, ← utf8, ← ih]
    split
    next hbackslash =>
      rw [hbackslash]
      rfl
    next hother =>
      rw [cons_append, nil_append, unescape]
      · exact fun _ heq _ => hother heq
      · exact fun _ _ _ heq _ => hother heq

section

variable [FromUtf8]

theorem unescape_escapeBytes (bytes : List UInt8) : unescape (escapeBytes bytes) = bytes := by
  induction bytes using escapeBytes.induct with
  | case1 bytes valid h =>
    have hvalid := unescape_escapingBackslashes valid []
    rw [append_nil, unescape, append_nil, FromUtf8.ok_iff.mp h] at hvalid
    rw [escapeBytes]
    split
    next text htext =>
      cases htext.symm.trans h
      exact hvalid
    next error herror => cases herror.symm.trans h
  | case2 bytes error h rest hshorter ih =>
    obtain ⟨-, text, htext⟩ := FromUtf8.valid h
    rw [escapeBytes]
    split
    next valid hvalid => cases hvalid.symm.trans h
    next other hother =>
      cases hother.symm.trans h
      rw [FromUtf8.ok_iff.mpr htext]
      simp only [Except.toOption, Option.getD_some]
      rw [unescape_escapingBackslashes, unescape_flatMap_escapeByte, ih, htext, take_append_drop,
        take_append_drop]

theorem decodeRendered_eq (bytes : List UInt8) :
    decodeRendered (renderBytesLossless bytes) = bytes := by
  rw [renderBytesLossless]
  split
  next text h => exact FromUtf8.ok_iff.mp h
  next => exact unescape_escapeBytes bytes

/-- The bytes are read back from the text and the flag, so no two byte sequences share both. -/
theorem renderBytesLossless_reversible :
    (∀ bytes, decodeRendered (renderBytesLossless bytes) = bytes) ∧
      Function.Injective renderBytesLossless :=
  ⟨decodeRendered_eq, Function.LeftInverse.injective decodeRendered_eq⟩

end

/-! ### The assumption can be met -/

theorem utf8_injective : Function.Injective utf8 := by
  intro text text' h
  have hdecoded : text.utf8Encode.utf8Decode? = text'.utf8Encode.utf8Decode? := by
    rw [List.utf8Encode, List.utf8Encode, ← utf8, h, utf8]
  rw [List.utf8Decode?_utf8Encode, List.utf8Decode?_utf8Encode] at hdecoded
  simpa using hdecoded

open Classical in
/-- The length of the longest prefix that is text. -/
noncomputable def longestPrefix (bytes : List UInt8) : Nat :=
  Nat.findGreatest (ValidPrefix bytes) bytes.length

theorem validPrefix_longestPrefix (bytes : List UInt8) : ValidPrefix bytes (longestPrefix bytes) := by
  classical
  exact Nat.findGreatest_spec (Nat.zero_le _) ⟨Nat.zero_le _, [], rfl⟩

open Classical in
/-- Reports invalid sequences byte by byte. -/
@[reducible] noncomputable def FromUtf8.bytewise : FromUtf8 where
  fromUtf8 bytes :=
    if h : ∃ text, utf8 text = bytes then .ok h.choose
    else .error ⟨longestPrefix bytes, some 1⟩
  ok_iff {bytes text} := by
    split
    next h =>
      rw [Except.ok.injEq]
      exact ⟨fun heq => heq ▸ h.choose_spec, fun heq => utf8_injective (h.choose_spec.trans heq.symm)⟩
    next h => exact ⟨nofun, fun heq => absurd ⟨text, heq⟩ h⟩
  valid {bytes error} h := by
    split at h
    next => cases h
    next =>
      cases h
      exact validPrefix_longestPrefix bytes
  longest {bytes error} h n hn := by
    split at h
    next => cases h
    next =>
      cases h
      exact Nat.le_findGreatest hn.1 hn
  invalid {bytes error n} h hlen := by
    split at h
    next => cases h
    next hnone =>
      cases h
      cases hlen
      obtain ⟨hle, text, htext⟩ := validPrefix_longestPrefix bytes
      refine ⟨Nat.one_pos, Nat.succ_le_of_lt (lt_of_le_of_ne hle fun heq => hnone ⟨text, ?_⟩)⟩
      exact htext.trans (take_of_length_le (Nat.le_of_eq heq.symm))

/-- A byte that starts no sequence is reported by itself, here as by the standard library. -/
theorem renderBytesLossless_invalid_byte :
    @fromUtf8 .bytewise [0x61, 0xFF] = .error ⟨1, some 1⟩ ∧
      decodeRendered (@renderBytesLossless .bytewise [0x61, 0xFF]) = [0x61, 0xFF] := by
  have hinvalid : ¬∃ text, utf8 text = [0x61, 0xFF] := by
    rintro ⟨text, htext⟩
    have hdecoded := List.utf8Decode?_utf8Encode (l := text)
    rw [List.utf8Encode, ← utf8, htext] at hdecoded
    cases hdecoded.symm.trans (by decide +kernel : _ = none)
  have hlongest : longestPrefix [0x61, 0xFF] = 1 := by
    refine le_antisymm (not_lt.mp fun hlt => hinvalid ?_) ?_
    · obtain ⟨_, text, htext⟩ := validPrefix_longestPrefix [0x61, 0xFF]
      exact ⟨text, htext.trans (take_of_length_le hlt)⟩
    · classical exact Nat.le_findGreatest (by decide) ⟨by decide, ['a'], by decide⟩
  exact ⟨(dif_neg hinvalid).trans (by rw [hlongest]), (@renderBytesLossless_reversible .bytewise).1 _⟩

end OraDesktop.LosslessBytes
