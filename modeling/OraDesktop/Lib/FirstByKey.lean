import Mathlib.Data.List.Sort

/-!
# The first item of each key

Sorting items by a key, stably, and dropping every item whose key is that of the item before keeps
the first item of each key.

## Main results

* `mem_sortDedup_iff` — an item is kept when it is the first one with its key
* `nodup_map_sortDedup`
-/

namespace OraDesktop.FirstByKey

open List

variable {α κ : Type} [LinearOrder κ] (key : α → κ)

/-- Drops the items whose key is the last one kept. -/
def dedupFrom (last : Option κ) : List α → List α
  | [] => []
  | a :: as =>
    if last = some (key a) then dedupFrom last as else a :: dedupFrom (some (key a)) as

/-- Sorts by key and drops repeated keys. -/
def sortDedup (l : List α) : List α := dedupFrom key none (l.insertionSort fun a b => key a ≤ key b)

variable {key}

/-- In a sorted list the items that are kept are the first ones of their keys. -/
theorem mem_dedupFrom_iff {l : List α} {last : Option κ} {a : α}
    (hsorted : l.Pairwise fun a b => key a ≤ key b)
    (hlast : ∀ k, last = some k → ∀ b ∈ l, k ≤ key b) :
    a ∈ dedupFrom key last l ↔
      last ≠ some (key a) ∧ l.find? (fun b => decide (key b = key a)) = some a := by
  induction l generalizing last with
  | nil => simp [dedupFrom]
  | cons b l ih =>
    obtain ⟨hle, hsorted⟩ := pairwise_cons.mp hsorted
    rw [dedupFrom]
    by_cases hb : last = some (key b)
    · rw [if_pos hb, ih hsorted fun k hk c hc => hlast k hk c (mem_cons_of_mem _ hc)]
      refine and_congr_right fun hne => ?_
      have hkey : key b ≠ key a := fun heq => hne (hb.trans (congrArg some heq))
      simp [hkey]
    · rw [if_neg hb, mem_cons, ih hsorted fun k hk c hc => by cases hk; exact hle c hc]
      by_cases hkey : key b = key a
      · simp only [hkey, ne_eq, not_true, false_and, or_false, List.find?_cons, decide_true,
          Option.some.injEq]
        rw [hkey] at hb
        exact ⟨fun heq => ⟨hb, heq.symm⟩, fun heq => heq.2.symm⟩
      · have hne : a ≠ b := fun heq => hkey (by rw [heq])
        have hfind : (b :: l).find? (fun c => decide (key c = key a)) =
            l.find? fun c => decide (key c = key a) := by
          simp [hkey]
        simp only [hne, false_or, ne_eq, Option.some.injEq, hkey, not_false_eq_true, true_and,
          hfind]
        refine ⟨fun hfound => ⟨fun hsame => ?_, hfound⟩, fun h => h.2⟩
        -- the key before the head is below the head's, and that one below this one
        have hmem := mem_of_find?_eq_some hfound
        have hbelow := hlast _ hsame b mem_cons_self
        exact hkey (le_antisymm (hle a hmem) hbelow)

instance isTrans_key : IsTrans α fun a b => key a ≤ key b := ⟨fun _ _ _ => le_trans⟩

instance total_key : Std.Total fun a b : α => key a ≤ key b := ⟨fun a b => le_total (key a) (key b)⟩

/-- Stable sorting keeps the items of one key in order. -/
theorem filter_insertionSort (l : List α) (k : κ) :
    (l.insertionSort fun a b => key a ≤ key b).filter (fun a => decide (key a = k)) =
      l.filter fun a => decide (key a = k) := by
  have hpairwise : (l.filter fun a => decide (key a = k)).Pairwise fun a b => key a ≤ key b := by
    refine pairwise_of_forall_mem_list ?_
    intro a ha b hb
    rw [mem_filter, decide_eq_true_iff] at ha hb
    rw [ha.2, hb.2]
  have hsublist := (sublist_insertionSort hpairwise filter_sublist).filter
    fun a => decide (key a = k)
  rw [filter_filter] at hsublist
  simp only [Bool.and_self] at hsublist
  refine (hsublist.eq_of_length_le ?_).symm
  exact ((perm_insertionSort _ l).filter _).length_eq.le

variable (key) in
theorem mem_sortDedup_iff {l : List α} {a : α} :
    a ∈ sortDedup key l ↔ l.find? (fun b => decide (key b = key a)) = some a := by
  have hsorted := pairwise_insertionSort (fun a b => key a ≤ key b) l
  rw [sortDedup, mem_dedupFrom_iff hsorted fun k hk => by cases hk]
  rw [← List.head?_filter, ← List.head?_filter, filter_insertionSort]
  simp

theorem nodup_map_dedupFrom {l : List α} {last : Option κ}
    (hsorted : l.Pairwise fun a b => key a ≤ key b)
    (hlast : ∀ k, last = some k → ∀ b ∈ l, k ≤ key b) : ((dedupFrom key last l).map key).Nodup := by
  induction l generalizing last with
  | nil => exact nodup_nil
  | cons b l ih =>
    obtain ⟨hle, hsorted⟩ := pairwise_cons.mp hsorted
    rw [dedupFrom]
    split
    next => exact ih hsorted fun k hk c hc => hlast k hk c (mem_cons_of_mem _ hc)
    have hbelow : ∀ k, some (key b) = some k → ∀ c ∈ l, k ≤ key c := by
      intro k hk c hc
      cases hk
      exact hle c hc
    rw [map_cons, nodup_cons]
    refine ⟨fun hmem => ?_, ih hsorted hbelow⟩
    obtain ⟨c, hc, heq⟩ := mem_map.mp hmem
    exact ((mem_dedupFrom_iff hsorted hbelow).mp hc).1 (congrArg some heq.symm)

variable (key) in
theorem nodup_map_sortDedup (l : List α) : ((sortDedup key l).map key).Nodup := by
  exact nodup_map_dedupFrom (pairwise_insertionSort _ l) nofun

theorem find?_eq_some_of_unique {β : Type} {l : List β} {p : β → Bool} {a : β} (ha : a ∈ l)
    (hp : p a = true) (h : ∀ b ∈ l, p b = true → b = a) : l.find? p = some a := by
  cases hfind : l.find? p with
  | none => exact absurd hp (by simpa using List.find?_eq_none.mp hfind a ha)
  | some b => rw [h b (mem_of_find?_eq_some hfind) (List.find?_some hfind)]

theorem findSome?_eq_of_unique {β γ : Type} {l : List β} {f : β → Option γ} {a : β} (ha : a ∈ l)
    (h : ∀ b ∈ l, (f b).isSome → b = a) : l.findSome? f = f a := by
  cases hfind : l.findSome? f with
  | none => exact (List.findSome?_eq_none_iff.mp hfind a ha).symm
  | some c =>
    obtain ⟨b, hb, hfb⟩ := exists_of_findSome?_eq_some hfind
    rw [← h b hb (by simp [hfb]), hfb]

end OraDesktop.FirstByKey
