import OraDesktop.Lib.Delimited
import Mathlib.Algebra.BigOperators.Group.List.Basic

/-!
# The status Git prints

`git status --porcelain=v2 -z` prints a record for each change, ended by NUL, and after the record of
a rename or copy its original path, also ended by NUL. The parser reads whatever stands before a NUL
by itself, so an original path that looks like a record is taken for one.

## Main results

* `parseStatusV2Entries_print_iff` — when parsing gives back the changes
-/

namespace OraDesktop.Git

open List Delimited

structure StatusFileEntry where
  path : List Char
  isStaged : Bool
  isUntracked : Bool
  deriving DecidableEq

def metadataAfterXy (recordType : List Char) : Nat :=
  if recordType = ['1'] then 6 else if recordType = ['2'] then 7 else 8

/-- What the loop does with one record. -/
def parseRecord (record : List Char) : Option StatusFileEntry :=
  if record.head? = some '#' then none
  else match record.splitOn ' ' with
    | [] => none
    | recordType :: fields =>
      if recordType ∈ [['1'], ['2'], ['u']] then
        match fields with
        | [] => none
        | xy :: fields =>
          some ⟨[' '].intercalate (fields.drop (metadataAfterXy recordType)),
            xy.head? != some '.', false⟩
      else if recordType = ['?'] then some ⟨[' '].intercalate fields, false, true⟩
      else none

def parseStatusV2Entries (stdout : List Char) : List StatusFileEntry :=
  (segments '\x00' stdout).filterMap parseRecord

/-! ### What Git prints -/

/-- A column is a text without spaces, which is what separates the columns. -/
structure Column where
  text : List Char
  no_space : ' ' ∉ text := by decide

/-- A copy is printed as a rename is: a record, and then the path it came from. -/
inductive Kind where
  | ordinary
  | renamed (original : List Char)
  | unmerged

namespace Kind

def recordType : Kind → Column
  | ordinary => { text := ['1'] }
  | renamed _ => { text := ['2'] }
  | unmerged => { text := ['u'] }

/-- The columns between `XY` and the path: submodule state, modes, hashes, and the score of a
rename or copy. -/
def columns : Kind → Nat
  | ordinary => 6
  | renamed _ => 7
  | unmerged => 8

end Kind

/-- The first letter of `xy` is the status of the index. -/
inductive Change where
  | header (text : List Char)
  | untracked (path : List Char)
  | tracked (kind : Kind) (xy : Column) (columns : List Column)
      (length : columns.length = kind.columns) (path : List Char)

namespace Change

def record : Change → List Char
  | header text => '#' :: text
  | untracked path => delimit ' ' [['?']] ++ path
  | tracked kind xy columns _ path =>
    delimit ' ' ((kind.recordType :: xy :: columns).map (·.text)) ++ path

def original : Change → Option (List Char)
  | tracked (.renamed original) .. => some original
  | _ => none

/-- What is printed for the change, each ended by NUL. -/
def fields (change : Change) : List (List Char) := change.record :: change.original.toList

def entry : Change → Option StatusFileEntry
  | header _ => none
  | untracked path => some ⟨path, false, true⟩
  | tracked _ xy _ _ path => some ⟨path, xy.text.head? != some '.', false⟩

end Change

def print (changes : List Change) : List Char := delimit '\x00' (changes.flatMap Change.fields)

/-- The columns are told apart, and the path is put together again. -/
theorem splitOn_record {columns : List (List Char)} (h : ∀ text ∈ columns, ' ' ∉ text)
    (path : List Char) : (delimit ' ' columns ++ path).splitOn ' ' = columns ++ path.splitOn ' ' :=
  splitOnP_delimit h path

theorem parseRecord_record (change : Change) : parseRecord change.record = change.entry := by
  cases change with
  | header text => rfl
  | untracked path =>
    have hjoin : [' '].intercalate (path.splitOn ' ') = path := intercalate_splitOn ' '
    rw [parseRecord, Change.record, splitOn_record (by decide)]
    exact congrArg (fun path => some (StatusFileEntry.mk path false true)) hjoin
  | tracked kind xy columns length path =>
    have hjoin : [' '].intercalate (path.splitOn ' ') = path := intercalate_splitOn ' '
    have hdrop : (columns.map (·.text) ++ path.splitOn ' ').drop
        (metadataAfterXy kind.recordType.text) = path.splitOn ' ' := by
      apply drop_left'
      rw [length_map, length]
      cases kind <;> rfl
    rw [parseRecord, Change.record,
      splitOn_record (forall_mem_map.mpr fun column _ => column.no_space), map_cons, map_cons]
    simp only [cons_append, hdrop, hjoin]
    cases kind <;> rfl

/-- Which texts are no record, by their characters alone: a record begins with its letter and a
space. A lone `?` is one too, since an untracked record needs no second field, while a lone `1` lacks
the `XY` that the parser asks for. -/
theorem parseRecord_eq_none_iff (text : List Char) :
    parseRecord text = none ↔
      text ≠ ['?'] ∧ ∀ mark ∈ ['1', '2', 'u', '?'], ¬[mark, ' '] <+: text := by
  constructor
  · intro hnone
    refine ⟨?_, fun mark hmark ⟨rest, heq⟩ => ?_⟩
    · rintro rfl
      cases hnone
    · have hspace : ∀ word ∈ [[mark]], ' ' ∉ word := by
        rintro word hword hmem
        rw [mem_singleton.mp hword] at hmem
        rw [← mem_singleton.mp hmem] at hmark
        exact absurd hmark (by decide)
      have hsplit : text.splitOn ' ' = [mark] :: rest.splitOn ' ' :=
        heq ▸ splitOn_record hspace rest
      obtain ⟨xy, fields, hfields⟩ := exists_cons_of_ne_nil (splitOn_ne_nil ' ' rest)
      rw [parseRecord, hsplit, hfields, ← heq] at hnone
      simp only [mem_cons, not_mem_nil, or_false] at hmark
      rcases hmark with rfl | rfl | rfl | rfl <;> cases hnone
  · rintro ⟨hmark, hbegins⟩
    have hjoin : [' '].intercalate (text.splitOn ' ') = text := intercalate_splitOn ' '
    rw [parseRecord]
    split
    · rfl
    split
    · rfl
    rename_i recordType fields hsplit
    rw [hsplit] at hjoin
    have hword : ∀ mark ∈ ['1', '2', 'u', '?'], recordType = [mark] → fields = [] := by
      rintro mark hmem rfl
      cases fields with
      | nil => rfl
      | cons xy fields =>
        rw [intercalate_cons_cons] at hjoin
        exact absurd ⟨_, hjoin⟩ (hbegins mark hmem)
    split
    · rename_i htype
      simp only [mem_cons, not_mem_nil, or_false] at htype
      have hnil : fields = [] := by
        rcases htype with htype | htype | htype <;> exact hword _ (by decide) htype
      rw [hnil]
    · split
      · rename_i htype
        rw [hword '?' (by decide) htype, htype] at hjoin
        exact absurd hjoin.symm hmark
      · rfl

section

variable {changes : List Change} (h : ∀ change ∈ changes, ∀ text ∈ change.fields, '\x00' ∉ text)

include h

/-- What parsing gives: the entries, and what original paths read as. -/
theorem parseStatusV2Entries_print :
    parseStatusV2Entries (print changes) = changes.flatMap fun change =>
      change.entry.toList ++ change.original.toList.filterMap parseRecord := by
  have hempty : (fun record => if decide (record ≠ []) = true then parseRecord record else none) =
      parseRecord := by
    funext record
    cases record <;> rfl
  have hsplit := splitOnP_delimit (forall_mem_flatMap.mpr h) []
  rw [append_nil] at hsplit
  rw [parseStatusV2Entries, print, segments, hsplit, filterMap_filter, hempty,
    filterMap_append, filterMap_flatMap]
  refine (append_nil _).trans (flatMap_congr fun change _ => ?_)
  rw [Change.fields, filterMap_cons, parseRecord_record]
  cases change.entry <;> rfl

/-- Parsing gives back the changes if and only if no original path begins as a record does. What an
original path reads as comes on top of the entries, so comparing lengths shows the condition to be
necessary. -/
theorem parseStatusV2Entries_print_iff :
    parseStatusV2Entries (print changes) = changes.filterMap Change.entry ↔
      ∀ change ∈ changes, ∀ original ∈ change.original,
        original ≠ ['?'] ∧ ∀ mark ∈ ['1', '2', 'u', '?'], ¬[mark, ' '] <+: original := by
  simp only [← parseRecord_eq_none_iff]
  rw [parseStatusV2Entries_print h, filterMap_eq_flatMap_toList]
  constructor
  · intro heq change hchange original horiginal
    have hlength := congrArg length heq
    simp only [length_flatMap, length_append, sum_map_add] at hlength
    have hzero := List.sum_eq_zero_iff_forall_eq_nat.mp (Nat.add_eq_left.mp hlength) _
      (mem_map_of_mem hchange)
    rw [horiginal] at hzero
    simpa using hzero
  · intro hnone
    refine flatMap_congr fun change hchange => ?_
    rw [filterMap_eq_nil_iff.mpr fun original horiginal =>
      hnone change hchange original (Option.mem_toList.mp horiginal), append_nil]

end

/-- A rename that is staged and not changed since. What the columns say does not matter to the parser,
which counts them. -/
def renameOf (original : String) : Change :=
  .tracked (.renamed original.toList) { text := ['R', '.'] } (replicate 7 { text := ['0'] }) rfl ['n']

theorem parseStatusV2Entries_rename :
    parseStatusV2Entries (print [renameOf "old file"]) = [⟨['n'], true, false⟩] :=
  (parseStatusV2Entries_print_iff (by decide)).mpr (by simp [renameOf, Change.original])

theorem parseStatusV2Entries_invents :
    parseStatusV2Entries (print [renameOf "? f"]) = [⟨['n'], true, false⟩, ⟨['f'], false, true⟩] := by
  decide +kernel

end OraDesktop.Git
