import Mathlib.Data.List.Sort
import Mathlib.Data.List.Nodup

/-!
# The latest item of each key

A list in which items may be written again under the key of an earlier one is read by keeping the
last item of each key, in the order of the keys. `IsLatest` says what that is without saying how it
is computed.

## Main results

* `isLatest_latest` — scanning backwards and sorting computes it
-/

namespace OraDesktop.Latest

variable {α κ : Type} [DecidableEq κ] (key : α → κ)

/-- Keeps the first item of each key that was not seen yet. -/
def firstPerKey : List κ → List α → List α
  | _, [] => []
  | seen, a :: rest =>
    if key a ∈ seen then firstPerKey seen rest else a :: firstPerKey (key a :: seen) rest

theorem mem_firstPerKey {seen : List κ} {l : List α} {a : α} :
    a ∈ firstPerKey key seen l ↔
      key a ∉ seen ∧ l.find? (fun b => decide (key b = key a)) = some a := by
  induction l generalizing seen with
  | nil => simp [firstPerKey]
  | cons b rest ih =>
    rw [firstPerKey, List.find?_cons]
    by_cases hkey : key b = key a
    · -- an item of this key: `a` is kept from here or not at all
      simp only [hkey, decide_true, Option.some.injEq]
      split
      · rename_i hseen
        rw [ih]
        exact ⟨fun h => absurd hseen h.1, fun h => absurd hseen h.1⟩
      rename_i hseen
      rw [List.mem_cons, ih]
      constructor
      · rintro (rfl | ⟨hnew, _⟩)
        · exact ⟨hseen, rfl⟩
        · exact absurd List.mem_cons_self hnew
      · rintro ⟨_, rfl⟩
        exact .inl rfl
    · have hne : a ≠ b := fun h => hkey (by rw [h])
      simp only [hkey, decide_false]
      split
      · exact ih
      rw [List.mem_cons, ih, List.mem_cons]
      constructor
      · rintro (heq | ⟨hnew, hfind⟩)
        · exact absurd heq hne
        · exact ⟨fun h => hnew (.inr h), hfind⟩
      · rintro ⟨hnew, hfind⟩
        refine .inr ⟨?_, hfind⟩
        rintro (heq | hseen)
        · exact hkey heq.symm
        · exact hnew hseen

theorem nodup_firstPerKey (seen : List κ) (l : List α) :
    ((firstPerKey key seen l).map key).Nodup := by
  induction l generalizing seen with
  | nil => simp [firstPerKey]
  | cons b rest ih =>
    rw [firstPerKey]
    split
    · exact ih seen
    rw [List.map_cons, List.nodup_cons]
    refine ⟨fun hmem => ?_, ih _⟩
    obtain ⟨a, ha, hkey⟩ := List.mem_map.mp hmem
    rw [mem_firstPerKey, hkey] at ha
    exact ha.1 List.mem_cons_self

variable [LinearOrder κ]

/-- The last item of each key, in the order of the keys. -/
def latest (l : List α) : List α :=
  (firstPerKey key [] l.reverse).insertionSort fun a b => key a ≤ key b

/-- The list holds the last item of each key of `l` and nothing else, in the order of the keys. -/
structure IsLatest (l out : List α) : Prop where
  sorted : out.Pairwise fun a b => key a < key b
  mem : ∀ a, a ∈ out ↔ l.reverse.find? (fun b => decide (key b = key a)) = some a

omit [DecidableEq κ] in
theorem ordered_insertionSort (l : List α) :
    (l.insertionSort fun a b => key a ≤ key b).Pairwise fun a b => key a ≤ key b := by
  have : IsTrans α fun a b => key a ≤ key b := ⟨fun _ _ _ hab hbc => le_trans hab hbc⟩
  have : Std.Total fun a b : α => key a ≤ key b := ⟨fun a b => le_total (key a) (key b)⟩
  exact List.pairwise_insertionSort _ l

omit [DecidableEq κ] in
theorem sorted_insertionSort {l : List α} (h : (l.map key).Nodup) :
    (l.insertionSort fun a b => key a ≤ key b).Pairwise fun a b => key a < key b := by
  have hne : (l.insertionSort fun a b => key a ≤ key b).Pairwise fun a b => key a ≠ key b := by
    rw [← List.pairwise_map]
    exact (((List.perm_insertionSort _ l).map key).nodup_iff).mpr h
  exact ((ordered_insertionSort key l).and hne).imp fun h => lt_of_le_of_ne h.1 h.2

theorem isLatest_latest (l : List α) : IsLatest key l (latest key l) where
  sorted := sorted_insertionSort key (nodup_firstPerKey key [] l.reverse)
  mem a := by
    rw [latest, List.mem_insertionSort, mem_firstPerKey]
    simp

end OraDesktop.Latest
