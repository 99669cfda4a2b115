import Mathlib.Algebra.Ring.Nat
import Mathlib.Data.List.DropRight
import Mathlib.Data.List.Infix

/-!
# The string operations of the source

Rust's `str` methods that the modelled code calls, on `String` through its characters. Splitting
and searching recurse on the list of characters, so that every function here evaluates.
-/

namespace OraDesktop.Text

open List

/-- `char::is_whitespace`: the Unicode `White_Space` property. -/
def isWhitespace (c : Char) : Bool :=
  (9 ≤ c.val && c.val ≤ 13) || c.val == 0x20 || c.val == 0x85 || c.val == 0xA0 ||
    c.val == 0x1680 || (0x2000 ≤ c.val && c.val ≤ 0x200A) || c.val == 0x2028 ||
    c.val == 0x2029 || c.val == 0x202F || c.val == 0x205F || c.val == 0x3000

instance lawfulBEq_chars : LawfulBEq (List Char) := inferInstance

/-- Drops the characters satisfying `p` at the end of a list. -/
def dropEndWhile (p : Char → Bool) (cs : List Char) : List Char :=
  (cs.reverse.dropWhile p).reverse

theorem exists_dropEndWhile (p : Char → Bool) (cs : List Char) :
    ∃ right, cs = dropEndWhile p cs ++ right := by
  refine ⟨(cs.reverse.takeWhile p).reverse, ?_⟩
  rw [dropEndWhile, ← reverse_append, takeWhile_append_dropWhile, reverse_reverse]

theorem rdropWhile_append_of_last {p : Char → Bool} {cs tail : List Char} {last : Char}
    (h : p last = false) :
    (cs ++ [last] ++ tail).rdropWhile p = cs ++ [last] ++ tail.rdropWhile p := by
  induction tail using reverseRecOn with
  | nil => simp [rdropWhile, h]
  | append_singleton tail c ih =>
    rw [← append_assoc, rdropWhile_concat, rdropWhile_concat, ih]
    split
    · rfl
    · rw [append_assoc]

def trim (s : String) : String :=
  String.ofList (dropEndWhile isWhitespace (s.toList.dropWhile isWhitespace))

/-- `str::split` at every character satisfying `p`, on characters. The result is never empty. -/
def splitChars (p : Char → Bool) : List Char → List (List Char)
  | [] => [[]]
  | c :: cs =>
    if p c then [] :: splitChars p cs
    else match splitChars p cs with
      | [] => [[c]]
      | w :: ws => (c :: w) :: ws

/-- `str::split` at one character. -/
def split (sep : Char) (s : String) : List String :=
  (splitChars (· == sep) s.toList).map String.ofList

/-- `str::split(sep).next()`: the text before the first separator, or all of it. -/
def beforeFirst (sep : Char) (s : String) : String :=
  String.ofList (s.toList.takeWhile (· != sep))

def stripSuffix (suffix s : String) : Option String :=
  if suffix.toList <:+ s.toList then
    some (String.ofList (s.toList.take (s.toList.length - suffix.toList.length)))
  else none

/-- The characters before the first occurrence of `pat` and those after it. -/
def splitOnceChars (pat : List Char) : List Char → Option (List Char × List Char)
  | [] => if pat = [] then some ([], []) else none
  | c :: cs =>
    if pat <+: c :: cs then some ([], (c :: cs).drop pat.length)
    else (splitOnceChars pat cs).map fun r => (c :: r.1, r.2)

def contains (s needle : String) : Bool := decide (needle.toList <:+: s.toList)

def startsWith (s needle : String) : Bool := decide (needle.toList <+: s.toList)

def endsWith (s needle : String) : Bool := decide (needle.toList <:+ s.toList)

def join (sep : String) : List String → String
  | [] => ""
  | [s] => s
  | s :: rest => s ++ sep ++ join sep rest

def splitWhitespace (s : String) : List String :=
  ((splitChars isWhitespace s.toList).filter (· ≠ [])).map String.ofList

/-! ### Splitting -/

theorem splitChars_ne_nil (p : Char → Bool) (cs : List Char) : splitChars p cs ≠ [] := by
  cases cs with
  | nil => simp [splitChars]
  | cons c cs =>
    rw [splitChars]
    split
    · simp
    · split <;> simp

section

variable {p : Char → Bool} {word : List Char} (hword : ∀ c ∈ word, p c = false)

include hword

theorem splitChars_append {sep : Char} (hsep : p sep = true) (rest : List Char) :
    splitChars p (word ++ sep :: rest) = word :: splitChars p rest := by
  induction word with
  | nil => rw [nil_append, splitChars, if_pos hsep]
  | cons c word ih =>
    rw [cons_append, splitChars, if_neg (by simp [hword c mem_cons_self]),
      ih fun c hc => hword c (mem_cons_of_mem _ hc)]

theorem splitChars_word : splitChars p word = [word] := by
  induction word with
  | nil => rfl
  | cons c word ih =>
    rw [splitChars, if_neg (by simp [hword c mem_cons_self]),
      ih fun c hc => hword c (mem_cons_of_mem _ hc)]

end

theorem not_sep_of_mem_splitChars {p : Char → Bool} {cs word : List Char}
    (h : word ∈ splitChars p cs) : ∀ c ∈ word, p c = false ∧ c ∈ cs := by
  induction cs generalizing word with
  | nil =>
    obtain rfl : word = [] := by simpa [splitChars] using h
    simp
  | cons c cs ih =>
    rw [splitChars] at h
    split at h
    · rcases mem_cons.mp h with rfl | h
      · simp
      · exact fun a ha => ⟨(ih h a ha).1, mem_cons_of_mem _ (ih h a ha).2⟩
    rename_i hc
    split at h
    · rename_i hnil
      exact absurd hnil (splitChars_ne_nil p cs)
    rename_i first rest hsplit
    rcases mem_cons.mp h with rfl | h
    · intro a ha
      rcases mem_cons.mp ha with rfl | ha
      · exact ⟨by simpa using hc, mem_cons_self⟩
      · obtain ⟨hp, hmem⟩ := ih (hsplit ▸ mem_cons_self) a ha
        exact ⟨hp, mem_cons_of_mem _ hmem⟩
    · intro a ha
      obtain ⟨hp, hmem⟩ := ih (hsplit ▸ mem_cons_of_mem _ h) a ha
      exact ⟨hp, mem_cons_of_mem _ hmem⟩

theorem splitChars_join (p : Char → Bool) (sep : Char) (hsep : p sep = true) :
    ∀ words : List (List Char), words ≠ [] → (∀ word ∈ words, ∀ c ∈ word, p c = false) →
      splitChars p (join (String.singleton sep) (words.map String.ofList)).toList = words
  | [], hne, _ => absurd rfl hne
  | [word], _, hwords => by
    simpa [join] using splitChars_word (hwords word mem_cons_self)
  | word :: next :: rest, _, hwords => by
    have hrest := splitChars_join p sep hsep (next :: rest) (cons_ne_nil next rest)
      fun w hw => hwords w (mem_cons_of_mem _ hw)
    rw [map_cons, map_cons, join, String.toList_append, String.toList_append,
      String.toList_ofList, String.toList_singleton, append_assoc, singleton_append,
      splitChars_append (hwords word mem_cons_self) hsep, ← map_cons, hrest]
    exact cons_ne_nil _ _

/-! ### The first occurrence -/

section SplitOnce

variable {pat : List Char}

theorem splitOnceChars_self_append (hpat : pat ≠ []) (after : List Char) :
    splitOnceChars pat (pat ++ after) = some ([], after) := by
  obtain ⟨d, ds, rfl⟩ := exists_cons_of_ne_nil hpat
  have hpre : d :: ds <+: d :: (ds ++ after) := prefix_append (d :: ds) after
  rw [cons_append, splitOnceChars, if_pos hpre, ← cons_append, drop_left]

/-- What comes before the first occurrence, the pattern, and what comes after it make up the text;
what comes after it has no part in where the occurrence is. -/
theorem splitOnceChars_eq_some (hpat : pat ≠ []) {cs before after : List Char}
    (h : splitOnceChars pat cs = some (before, after)) :
    cs = before ++ (pat ++ after) ∧
      ∀ other, splitOnceChars pat (before ++ (pat ++ other)) = some (before, other) := by
  induction cs generalizing before with
  | nil =>
    rw [splitOnceChars, if_neg hpat] at h
    cases h
  | cons c cs ih =>
    rw [splitOnceChars] at h
    split at h
    next hpre =>
      obtain ⟨rest, hrest⟩ := hpre
      rw [← hrest, drop_left] at h
      cases h
      exact ⟨hrest.symm, splitOnceChars_self_append hpat⟩
    next hpre =>
      obtain ⟨⟨first, rest⟩, hfirst, heq⟩ := Option.map_eq_some_iff.mp h
      obtain ⟨rfl, rfl⟩ : c :: first = before ∧ rest = after := by simpa using heq
      obtain ⟨rfl, hother⟩ := ih hfirst
      refine ⟨rfl, fun other => ?_⟩
      rw [cons_append, splitOnceChars, if_neg, hother]
      · rfl
      · -- an occurrence at the front ends before the one that was found does
        intro hocc
        have hfront : c :: first ++ pat <+: c :: (first ++ (pat ++ other)) := ⟨other, by simp⟩
        have hearly : pat <+: c :: first ++ pat :=
          prefix_of_prefix_length_le hocc hfront (by simp; omega)
        exact hpre (hearly.trans ⟨rest, by simp⟩)

theorem splitOnceChars_eq_none_iff (hpat : pat ≠ []) {cs : List Char} :
    splitOnceChars pat cs = none ↔ ¬pat <:+: cs := by
  induction cs with
  | nil => simp [splitOnceChars, hpat]
  | cons c cs ih =>
    rw [splitOnceChars, infix_cons_iff]
    split
    next hpre => simp [hpre]
    next hpre => simp [hpre, ih]

/-- The first occurrence comes right after a text without the pattern's first character. -/
theorem splitOnceChars_append {d : Char} {ds before : List Char} (h : d ∉ before)
    (after : List Char) :
    splitOnceChars (d :: ds) (before ++ (d :: ds ++ after)) = some (before, after) := by
  induction before with
  | nil => exact splitOnceChars_self_append (cons_ne_nil d ds) after
  | cons c before ih =>
    obtain ⟨hne, hnot⟩ := not_or.mp (mt mem_cons.mpr h)
    rw [cons_append, splitOnceChars, if_neg, ih hnot]
    · rfl
    · intro hpre
      exact hne (cons_prefix_cons.mp hpre).1

end SplitOnce

end OraDesktop.Text
