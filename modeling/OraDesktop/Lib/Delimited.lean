import Mathlib.Data.List.Infix

/-!
# Delimited texts

Texts written one after the other, each ended by a delimiter that occurs in none of them, can be
told apart again: splitting at the delimiter gives them back, followed by whatever stands after the
last delimiter. What is left of such a file when only its first symbols are kept is again of this
form, with an unfinished text at the end.

## Main results

* `segments_delimit` — what splitting finds
* `segments_append` — and that it begins anew after a delimiter
* `take_delimit` — what a cut leaves
-/

namespace OraDesktop.Delimited

open List

variable {β : Type}

/-- The texts, each ended by the delimiter, the last one too: a file in which nothing is
unfinished. -/
def delimit (sep : β) (texts : List (List β)) : List β := texts.flatMap fun text => text ++ [sep]

variable {sep : β}

@[simp] theorem delimit_nil : delimit sep [] = [] := rfl

theorem delimit_cons (text : List β) (texts : List (List β)) :
    delimit sep (text :: texts) = text ++ sep :: delimit sep texts := by
  simp [delimit]

/-- The file ends with the delimiter, or is empty. -/
def AtBoundary (sep : β) (symbols : List β) : Prop :=
  symbols = [] ∨ symbols.getLast? = some sep

theorem torn_eq_nil {texts : List (List β)} {torn : List β} (htorn : sep ∉ torn)
    (h : AtBoundary sep (delimit sep texts ++ torn)) : torn = [] := by
  by_contra hne
  rcases h with hnil | hlast
  · exact hne (append_eq_nil_iff.mp hnil).2
  · rw [List.getLast?_append_of_ne_nil _ hne] at hlast
    exact htorn (mem_of_getLast? hlast)

/-- How many texts are whole within the first symbols. -/
def wholeCount : List (List β) → Nat → Nat
  | [], _ => 0
  | text :: texts, kept =>
    if text.length + 1 ≤ kept then wholeCount texts (kept - (text.length + 1)) + 1 else 0

/-- The first symbols of a file hold its first texts whole, and an unfinished one. -/
theorem take_delimit {texts : List (List β)} (htexts : ∀ text ∈ texts, sep ∉ text) (kept : Nat) :
    ∃ torn, sep ∉ torn ∧
      (delimit sep texts).take kept = delimit sep (texts.take (wholeCount texts kept)) ++ torn := by
  induction texts generalizing kept with
  | nil => exact ⟨[], not_mem_nil, by simp⟩
  | cons text rest ih =>
    obtain ⟨htext, hrest⟩ := forall_mem_cons.mp htexts
    rw [wholeCount]
    split
    · rename_i hle
      obtain ⟨torn, htorn, hcut⟩ := ih hrest (kept - (text.length + 1))
      refine ⟨torn, htorn, ?_⟩
      have hsplit : delimit sep (text :: rest) = (text ++ [sep]) ++ delimit sep rest := by
        rw [delimit_cons]
        simp
      have hlength : (text ++ [sep]).length = text.length + 1 := by simp
      rw [hsplit, take_append, hlength, hcut, take_of_length_le (by omega),
        take_succ_cons, delimit_cons]
      simp
    · rename_i hlt
      refine ⟨text.take kept, fun hmem => htext (mem_of_mem_take hmem), ?_⟩
      rw [delimit_cons, take_append_of_le_length (by omega)]
      simp

variable [DecidableEq β]

/-- What stands between the delimiters, without the empty pieces. -/
def segments (sep : β) (symbols : List β) : List (List β) :=
  (symbols.splitOnP fun b => decide (b = sep)).filter fun text => decide (text ≠ [])

/-- Splitting at the delimiter gives back the texts, and what stands after them split in turn. -/
theorem splitOnP_delimit {texts : List (List β)} (h : ∀ text ∈ texts, sep ∉ text) (torn : List β) :
    (delimit sep texts ++ torn).splitOnP (fun b => decide (b = sep)) =
      texts ++ torn.splitOnP fun b => decide (b = sep) := by
  induction texts with
  | nil => rfl
  | cons text rest ih =>
    obtain ⟨htext, hrest⟩ := forall_mem_cons.mp h
    have hfree : ∀ b ∈ text, decide (b = sep) = false :=
      fun b hb => decide_eq_false fun heq => htext (heq ▸ hb)
    rw [delimit_cons, append_assoc, cons_append,
      splitOnP_append_cons_of_forall_mem hfree sep (decide_eq_true rfl), ih hrest, cons_append]

/-- The piece after the last delimiter comes last, unless there is none. -/
theorem segments_delimit {texts : List (List β)} {torn : List β}
    (htexts : ∀ text ∈ texts, sep ∉ text ∧ text ≠ []) (htorn : sep ∉ torn) :
    segments sep (delimit sep texts ++ torn) =
      texts ++ (if torn = [] then [] else [torn]) := by
  have hfree : ∀ b ∈ torn, decide (b = sep) = false :=
    fun b hb => decide_eq_false fun heq => htorn (heq ▸ hb)
  rw [segments, splitOnP_delimit fun text htext => (htexts text htext).1,
    splitOnP_eq_singleton hfree, filter_append,
    filter_eq_self.mpr fun text htext => decide_eq_true (htexts text htext).2]
  by_cases hempty : torn = []
  · simp [hempty]
  · simp [hempty]

theorem segments_append {symbols more : List β} (h : AtBoundary sep symbols) :
    segments sep (symbols ++ more) = segments sep symbols ++ segments sep more := by
  rcases h with rfl | hlast
  · simp [segments]
  obtain ⟨init, rfl⟩ := List.getLast?_eq_some_iff.mp hlast
  have hsep : decide (sep = sep) = true := decide_eq_true rfl
  rw [append_assoc, singleton_append, segments,
    splitOnP_append_cons init more hsep, segments, splitOnP_append_cons init [] hsep,
    splitOnP_nil, filter_append, filter_append]
  simp [segments]

end OraDesktop.Delimited
