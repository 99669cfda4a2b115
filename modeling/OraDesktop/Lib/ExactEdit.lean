import OraDesktop.Lib.OrderedMap

/-!
# Exact edits of a keyed store

An `Edit` names one key, the exact content it expects there and the exact content it leaves. A
sequence of edits is *ready* when each finds what it expects in the store its predecessors left.
What a sequence leaves at a key is decided by the last edit that names it, so every statement here
is about one key at a time.

## Main results

* `Edit.getElem?_writeAll_of_forall` — edits that agree on a key leave what they agree on
* `Edit.getElem?_writeAll_of_split` — the last edit at a key decides
* `Edit.each_iff_forall_split` — what holds at each edit in its turn, such as readiness
-/

namespace OraDesktop

/-- Replaces the exact content of one key: an edit that finds anything else is not to be made. -/
structure Edit (κ ν : Type) where
  key : κ
  expected : Option ν
  planned : Option ν

namespace Edit

variable {κ ν : Type} [Ord κ] [Std.TransOrd κ] [Std.LawfulEqOrd κ]

def write (m : Map κ ν) (e : Edit κ ν) : Map κ ν :=
  match e.planned with
  | some v => m.insert e.key v
  | none => m.erase e.key

def writeAll (m : Map κ ν) (es : List (Edit κ ν)) : Map κ ν := es.foldl write m

/-- Each edit satisfies `P` in the store it is written to. -/
def Each (P : Map κ ν → Edit κ ν → Prop) (m : Map κ ν) : List (Edit κ ν) → Prop
  | [] => True
  | e :: es => P m e ∧ Each P (e.write m) es

/-- Each edit finds the content it expects when its turn comes. -/
def Ready (m : Map κ ν) (es : List (Edit κ ν)) : Prop :=
  Each (fun m e => m[e.key]? = e.expected) m es

theorem getElem?_write [DecidableEq κ] (m : Map κ ν) (e : Edit κ ν) (a : κ) :
    (e.write m)[a]? = if e.key = a then e.planned else m[a]? := by
  rcases hplanned : e.planned with _ | v
  · simp only [write, hplanned, Map.getElem?_erase]
  · simp only [write, hplanned, Map.getElem?_insert]

theorem write_of_ne [DecidableEq κ] {m : Map κ ν} {e : Edit κ ν} {a : κ} (h : e.key ≠ a) :
    (e.write m)[a]? = m[a]? := by
  rw [getElem?_write, if_neg h]

/-- Writing what is already there changes nothing. -/
theorem write_eq_self [DecidableEq κ] {m : Map κ ν} {e : Edit κ ν} (h : m[e.key]? = e.planned) :
    e.write m = m := by
  refine Std.ExtTreeMap.ext_getElem? fun a => ?_
  rw [getElem?_write]
  split
  · rename_i ha
    rw [← ha, h]
  · rfl

/-- A key that no edit names keeps its content. -/
theorem getElem?_writeAll_of_forall_ne [DecidableEq κ] {a : κ} :
    ∀ {es : List (Edit κ ν)} {m : Map κ ν}, (∀ e ∈ es, e.key ≠ a) → (writeAll m es)[a]? = m[a]?
  | [], _, _ => rfl
  | e :: es, m, h => by
    obtain ⟨he, hes⟩ := List.forall_mem_cons.mp h
    have htail : (writeAll (e.write m) es)[a]? = (e.write m)[a]? :=
      getElem?_writeAll_of_forall_ne hes
    exact htail.trans (write_of_ne he)

/-- Edits that agree on what they leave at a key leave it there, once one of them names the key. -/
theorem getElem?_writeAll_of_forall [DecidableEq κ] {a : κ} {v : Option ν} :
    ∀ {es : List (Edit κ ν)} {m : Map κ ν}, (∀ e ∈ es, e.key = a → e.planned = v) →
      (m[a]? = v ∨ ∃ e ∈ es, e.key = a) → (writeAll m es)[a]? = v
  | [], _, _, h => h.resolve_right fun ⟨_, he, _⟩ => by cases he
  | e :: es, m, hagree, h => by
    obtain ⟨he, hes⟩ := List.forall_mem_cons.mp hagree
    refine getElem?_writeAll_of_forall (m := e.write m) hes ?_
    by_cases hkey : e.key = a
    · left
      rw [getElem?_write, if_pos hkey, he hkey]
    · rw [write_of_ne hkey]
      refine h.imp_right fun ⟨e', hmem, hkey'⟩ => ⟨e', ?_, hkey'⟩
      exact (List.mem_cons.mp hmem).resolve_left fun heq => hkey (heq ▸ hkey')

/-- The last edit at a key decides what is left there. -/
theorem getElem?_writeAll_of_split [DecidableEq κ] {m : Map κ ν} {pre post : List (Edit κ ν)}
    {e : Edit κ ν} (h : ∀ e' ∈ post, e'.key ≠ e.key) :
    (writeAll m (pre ++ e :: post))[e.key]? = e.planned := by
  rw [writeAll, List.foldl_append]
  have hpost : (writeAll (e.write (writeAll m pre)) post)[e.key]? =
      (e.write (writeAll m pre))[e.key]? := getElem?_writeAll_of_forall_ne h
  refine hpost.trans ?_
  rw [getElem?_write, if_pos rfl]

omit [Std.LawfulEqOrd κ] in
theorem each_iff_forall_split {P : Map κ ν → Edit κ ν → Prop} {es : List (Edit κ ν)} :
    ∀ {m : Map κ ν}, Each P m es ↔
      ∀ pre e post, es = pre ++ e :: post → P (writeAll m pre) e := by
  induction es with
  | nil => simp [Each]
  | cons e es ih =>
    intro m
    rw [Each, ih]
    constructor
    · rintro ⟨hhead, htail⟩ pre e' post heq
      rcases pre with _ | ⟨e'', pre⟩
      · cases heq
        exact hhead
      · cases heq
        exact htail pre e' post rfl
    · intro h
      exact ⟨h [] e es rfl, fun pre e' post heq => h (e :: pre) e' post (by rw [heq]; rfl)⟩

end Edit

end OraDesktop
