import Mathlib.Data.List.Sort
import Mathlib.Data.List.Nodup
import Mathlib.Order.Lattice

/-!
# Keeping the newest

A bounded history keeps its newest entries. `beyond n l` are the entries of `l` that do not make it,
found by sorting and skipping the first `n`. For entries that are all different this says, without
any order: those with `n` newer ones.

## Main results

* `mem_beyond_iff` — which entries are beyond the bound
* `length_within_le` — the others are at most as many as the bound
-/

namespace OraDesktop.Newest

variable {α : Type} [LinearOrder α]

/-- The entries after the `n` greatest. -/
def beyond (n : Nat) (l : List α) : List α := (l.insertionSort fun a b => b ≤ a).drop n

/-- In a strictly decreasing list what is greater than an entry stands before it. -/
theorem mem_drop_iff {l : List α} (h : l.Pairwise fun a b => b < a) (n : Nat) (x : α) :
    x ∈ l.drop n ↔ x ∈ l ∧ n ≤ (l.filter fun y => decide (x < y)).length := by
  induction l generalizing n with
  | nil => simp
  | cons a l ih =>
    obtain ⟨hgreatest, hl⟩ := List.pairwise_cons.mp h
    cases n with
    | zero => simp
    | succ n =>
      rw [List.drop_succ_cons, ih hl, List.mem_cons]
      by_cases hx : x ∈ l
      · have hless := hgreatest x hx
        simp [hx, hless]
      constructor
      · exact fun hmem => absurd hmem.1 hx
      · rintro ⟨heq | hmem, hcount⟩
        · -- nothing is greater than the first entry
          subst heq
          have hnone : l.filter (fun y => decide (x < y)) = [] := by
            rw [List.filter_eq_nil_iff]
            intro y hy hlt
            exact absurd (of_decide_eq_true hlt) (lt_asymm (hgreatest y hy))
          simp [hnone] at hcount
        · exact absurd hmem hx

theorem sorted_of_nodup {l : List α} (h : l.Nodup) :
    (l.insertionSort fun a b => b ≤ a).Pairwise fun a b => b < a := by
  have : IsTrans α fun a b => b ≤ a := ⟨fun _ _ _ hab hbc => le_trans hbc hab⟩
  have : Std.Total fun a b : α => b ≤ a := ⟨fun a b => le_total b a⟩
  have hle := List.pairwise_insertionSort (fun a b : α => b ≤ a) l
  have hne : (l.insertionSort fun a b => b ≤ a).Pairwise fun a b => a ≠ b :=
    (List.perm_insertionSort _ l).nodup_iff.mpr h
  exact (hle.and hne).imp fun hab => lt_of_le_of_ne hab.1 hab.2.symm

/-- An entry is beyond the bound when that many are newer. -/
theorem mem_beyond_iff {l : List α} (h : l.Nodup) (n : Nat) (x : α) :
    x ∈ beyond n l ↔ x ∈ l ∧ n ≤ (l.filter fun y => decide (x < y)).length := by
  have hperm := List.perm_insertionSort (fun a b : α => b ≤ a) l
  rw [beyond, mem_drop_iff (sorted_of_nodup h), List.mem_insertionSort]
  rw [(hperm.filter fun y => decide (x < y)).length_eq]

theorem length_within_le {l : List α} (n : Nat) :
    (l.filter fun x => decide (x ∉ beyond n l)).length ≤ n := by
  have hperm := (List.perm_insertionSort (fun a b : α => b ≤ a) l).filter
    fun x => decide (x ∉ beyond n l)
  rw [← hperm.length_eq, ← List.take_append_drop n (l.insertionSort fun a b => b ≤ a),
    List.filter_append, List.length_append]
  have hnone : ((l.insertionSort fun a b => b ≤ a).drop n).filter
      (fun x => decide (x ∉ beyond n l)) = [] := by
    rw [List.filter_eq_nil_iff]
    intro x hx hout
    exact of_decide_eq_true hout hx
  rw [hnone]
  exact (List.length_filter_le _ _).trans (List.length_take_le _ _)

end OraDesktop.Newest
