import Mathlib.Data.List.Nodup
import Mathlib.Data.List.Pairwise

/-!
# Tables with a unique key

A table is a list of rows. Inserting a row whose key is there fails, and with it everything that was
to be inserted in the same transaction.

## Main results

* `insertAll_eq_some_iff` — a list of rows can be inserted exactly when their keys are new and
  distinct
-/

namespace OraDesktop.UniqueKey

open List

theorem nodup_snoc {α β : Type} {f : α → β} {l : List α} {a : α} (h : (l.map f).Nodup)
    (hnew : ∀ b ∈ l, f b ≠ f a) : ((l ++ [a]).map f).Nodup := by
  rw [map_append, map_singleton, ← concat_eq_append]
  refine h.concat fun hmem => ?_
  obtain ⟨b, hb, heq⟩ := mem_map.mp hmem
  exact hnew b hb heq

variable {ρ κ : Type} [DecidableEq κ] (key : ρ → κ)

/-- Inserts a row whose key is new. A unique index refuses any other, and the transaction fails with
it. -/
def insert (table : List ρ) (row : ρ) : Option (List ρ) :=
  if table.any fun other => decide (key other = key row) then none else some (table ++ [row])

/-- Inserts rows one after the other, all or none. -/
def insertAll (table : List ρ) (rows : List ρ) : Option (List ρ) := rows.foldlM (insert key) table

variable {key}

theorem insert_eq_some_iff {table : List ρ} {row : ρ} {after : List ρ} :
    insert key table row = some after ↔ key row ∉ table.map key ∧ after = table ++ [row] := by
  unfold insert
  split
  next hfound =>
    obtain ⟨other, hother, heq⟩ := any_eq_true.mp hfound
    have hmem : key row ∈ table.map key :=
      of_decide_eq_true heq ▸ mem_map_of_mem hother
    simp [hmem]
  next hnew =>
    have hnot : key row ∉ table.map key := by
      intro hmem
      obtain ⟨other, hother, heq⟩ := mem_map.mp hmem
      exact hnew (any_eq_true.mpr ⟨other, hother, decide_eq_true heq⟩)
    simp only [hnot, not_false_eq_true, true_and, Option.some.injEq]
    exact eq_comm

/-- Rows can be inserted exactly when their keys are new and distinct. -/
theorem insertAll_eq_some_iff {table rows after : List ρ} :
    insertAll key table rows = some after ↔
      (rows.map key).Nodup ∧ (∀ row ∈ rows, key row ∉ table.map key) ∧ after = table ++ rows := by
  unfold insertAll
  induction rows generalizing table with
  | nil => simp [eq_comm]
  | cons row rows ih =>
    simp only [foldlM_cons, Option.bind_eq_bind, Option.bind_eq_some_iff, insert_eq_some_iff]
    constructor
    · rintro ⟨next, ⟨hnew, rfl⟩, hrest⟩
      obtain ⟨hnodup, hfresh, rfl⟩ := ih.mp hrest
      simp only [map_append, mem_append, not_or, map_cons, map_nil,
        mem_singleton] at hfresh
      refine ⟨nodup_cons.mpr ⟨?_, hnodup⟩, ?_, by simp⟩
      · intro hmem
        obtain ⟨other, hother, heq⟩ := mem_map.mp hmem
        exact (hfresh other hother).2 heq
      · intro other hother
        rcases mem_cons.mp hother with rfl | hother
        · exact hnew
        · exact (hfresh other hother).1
    · rintro ⟨hnodup, hfresh, rfl⟩
      obtain ⟨hnot, hnodup⟩ := nodup_cons.mp hnodup
      refine ⟨_, ⟨hfresh row mem_cons_self, rfl⟩, ih.mpr ⟨hnodup, ?_, by simp⟩⟩
      intro other hother
      simp only [map_append, mem_append, not_or, map_cons, map_nil,
        mem_singleton]
      refine ⟨hfresh other (mem_cons_of_mem _ hother), ?_⟩
      intro heq
      exact hnot (heq ▸ mem_map_of_mem hother)

theorem isSome_insertAll_iff {table rows : List ρ} :
    (insertAll key table rows).isSome ↔
      (rows.map key).Nodup ∧ ∀ row ∈ rows, key row ∉ table.map key := by
  rw [Option.isSome_iff_exists]
  constructor
  · rintro ⟨after, h⟩
    obtain ⟨hnodup, hfresh, -⟩ := insertAll_eq_some_iff.mp h
    exact ⟨hnodup, hfresh⟩
  · rintro ⟨hnodup, hfresh⟩
    exact ⟨_, insertAll_eq_some_iff.mpr ⟨hnodup, hfresh, rfl⟩⟩

omit [DecidableEq κ] in
/-- Where the lists that are put together have no value in common, a value says which list it comes
from. -/
theorem eq_of_nodup_flatMap {rows : List ρ} {values : ρ → List κ} {row row' : ρ} {value : κ}
    (h : (rows.flatMap values).Nodup) (hrow : row ∈ rows) (hrow' : row' ∈ rows)
    (hvalue : value ∈ values row) (hvalue' : value ∈ values row') : row = row' := by
  obtain ⟨-, hdisjoint⟩ := nodup_flatMap.mp h
  have hsymm : Std.Symm (Function.onFun List.Disjoint values) :=
    ⟨fun _ _ hapart _ hmem hmem' => hapart hmem' hmem⟩
  by_contra hne
  exact hdisjoint.forall hrow hrow' hne hvalue hvalue'

end OraDesktop.UniqueKey
