import Mathlib.Algebra.Ring.Nat
import Mathlib.Data.List.Nodup
import Std.Data.ExtTreeMap

/-!
# Ordered maps

`Map κ ν` is an ordered map with extensional equality: two maps are equal when they answer every
lookup alike. The lemmas here state `insert`, `erase` and `modify` by lookup, for keys whose order
decides equality, and add the two bulk operations that move entries between maps.

## Main results

* `Map.getElem?_insert`, `Map.getElem?_erase` — lookups after one update
* `Map.getElem?_insertEntries_eq_getLast?` — of several items for one key the last one is found
-/

namespace OraDesktop

/-- An ordered map with extensional equality, for the `BTreeMap`s of the source: iteration goes by
key, however it was filled. -/
abbrev Map (κ ν : Type) [Ord κ] := Std.ExtTreeMap κ ν

namespace Map

variable {κ κ' ν ν' : Type} [Ord κ] [Std.TransOrd κ] [Std.LawfulEqOrd κ]
  [Ord κ'] [Std.TransOrd κ'] [Std.LawfulEqOrd κ']

section

variable [DecidableEq κ] (m : Map κ ν) (k a : κ)

theorem getElem?_insert (v : ν) : (m.insert k v)[a]? = if k = a then some v else m[a]? := by
  rw [Std.ExtTreeMap.getElem?_insert]
  exact if_congr Std.LawfulEqOrd.compare_eq_iff_eq rfl rfl

theorem getElem?_erase : (m.erase k)[a]? = if k = a then none else m[a]? := by
  rw [Std.ExtTreeMap.getElem?_erase]
  exact if_congr Std.LawfulEqOrd.compare_eq_iff_eq rfl rfl

theorem getElem?_modify (f : ν → ν) :
    (m.modify k f)[a]? = if k = a then m[a]?.map f else m[a]? := by
  rw [Std.ExtTreeMap.getElem?_modify]
  by_cases h : k = a
  · subst h; simp
  · rw [if_neg (by rwa [Std.LawfulEqOrd.compare_eq_iff_eq]), if_neg h]

end

/-- Inserts every entry of `m'` into `m`. -/
def extend (m m' : Map κ ν) : Map κ ν := m'.foldl (fun acc k v => acc.insert k v) m

/-- Moves the entries whose key and value translate to their new keys. -/
def rekey (f : κ → Option κ') (g : ν → Option ν') (m : Map κ ν) : Map κ' ν' :=
  m.foldl (fun acc k v => match f k, g v with
    | some k', some v' => acc.insert k' v'
    | _, _ => acc) ∅

/-- Inserts the entries that the items of a list stand for, in order. -/
def insertEntries {ε : Type} (entry : ε → Option (κ × ν)) (es : List ε) (m : Map κ ν) : Map κ ν :=
  es.foldl (fun acc e => match entry e with
    | some (k, v) => acc.insert k v
    | none => acc) m

theorem getElem?_insertEntries_of_forall_ne {ε : Type} {entry : ε → Option (κ × ν)} {a : κ} :
    ∀ {es : List ε} (m : Map κ ν), (∀ e ∈ es, ∀ p, entry e = some p → p.1 ≠ a) →
      (insertEntries entry es m)[a]? = m[a]?
  | [], _, _ => rfl
  | e :: es, m, h => by
    rw [insertEntries, List.foldl_cons]
    refine (getElem?_insertEntries_of_forall_ne _ fun e' he' => h e' (.tail _ he')).trans ?_
    rcases he : entry e with _ | ⟨k, v⟩
    · rfl
    · classical rw [getElem?_insert, if_neg (h e (.head _) _ he)]

/-- When no two items stand for one key, every item's value is found under its key. -/
theorem getElem?_insertEntries_of_mem {ε : Type} {entry : ε → Option (κ × ν)} {a : κ} {v : ν} :
    ∀ {es : List ε} (m : Map κ ν),
      es.Pairwise (fun x y => ∀ p q, entry x = some p → entry y = some q → p.1 ≠ q.1) →
      (∃ e ∈ es, entry e = some (a, v)) → (insertEntries entry es m)[a]? = some v
  | e :: es, m, hdistinct, ⟨e', hmem, he'⟩ => by
    obtain ⟨hhead, htail⟩ := List.pairwise_cons.mp hdistinct
    rw [insertEntries, List.foldl_cons]
    rcases List.mem_cons.mp hmem with rfl | hmem
    · -- no later item touches the key
      refine (getElem?_insertEntries_of_forall_ne _ fun y hy p hp heq => ?_).trans ?_
      · exact hhead y hy (a, v) p he' hp heq.symm
      · simp [he']
    · exact getElem?_insertEntries_of_mem _ htail ⟨e', hmem, he'⟩

/-- The last item that stands for a key is found under it. -/
theorem getElem?_insertEntries_eq_getLast? [DecidableEq κ] (key : ν → κ) (a : κ) :
    ∀ (es : List ν) (m : Map κ ν), (insertEntries (fun e => some (key e, e)) es m)[a]? =
      ((es.filter fun e => key e = a).getLast?).or m[a]?
  | [], _ => rfl
  | e :: es, m => by
    have htail := getElem?_insertEntries_eq_getLast? key a es (m.insert (key e) e)
    refine htail.trans ?_
    rw [getElem?_insert, List.filter_cons]
    by_cases h : key e = a
    · cases hlast : (es.filter fun e => key e = a).getLast? <;>
        simp [h, List.getLast?_cons, hlast]
    · simp [h]

/-- Items inserted under their own keys are found under them. -/
theorem key_of_getElem?_insertEntries [DecidableEq κ] {key : ν → κ} {es : List ν} {a : κ} {v : ν}
    (h : (insertEntries (fun e => some (key e, e)) es (∅ : Map κ ν))[a]? = some v) : key v = a := by
  rw [getElem?_insertEntries_eq_getLast?] at h
  simp only [Std.ExtTreeMap.getElem?_empty, Option.or_none] at h
  exact of_decide_eq_true (List.mem_filter.mp (List.mem_of_getLast? h)).2

/-- When no two items stand for one key, the entries are those the items stand for. -/
theorem getElem?_insertEntries_eq_some_iff {ε : Type} {entry : ε → Option (κ × ν)} {es : List ε}
    (hes : es.Pairwise fun x y => ∀ p q, entry x = some p → entry y = some q → p.1 ≠ q.1)
    {a : κ} {v : ν} :
    (insertEntries entry es (∅ : Map κ ν))[a]? = some v ↔ ∃ e ∈ es, entry e = some (a, v) := by
  refine ⟨fun h => ?_, getElem?_insertEntries_of_mem ∅ hes⟩
  by_cases hkey : ∃ e ∈ es, ∃ w, entry e = some (a, w)
  · obtain ⟨e, he, w, hw⟩ := hkey
    rw [getElem?_insertEntries_of_mem ∅ hes ⟨e, he, hw⟩] at h
    cases h
    exact ⟨e, he, hw⟩
  · rw [getElem?_insertEntries_of_forall_ne ∅ ?_] at h
    · simp at h
    · rintro e he ⟨k, w⟩ hw rfl
      exact hkey ⟨e, he, w, hw⟩

/-- When no two items have one key, an item is found exactly under its own. -/
theorem getElem?_insertEntries_key_eq_some_iff {key : ν → κ} {es : List ν}
    (hes : (es.map key).Nodup) {a : κ} {v : ν} :
    (insertEntries (fun e => some (key e, e)) es (∅ : Map κ ν))[a]? = some v ↔
      v ∈ es ∧ key v = a := by
  rw [getElem?_insertEntries_eq_some_iff]
  · simp only [Option.some.injEq, Prod.mk.injEq]
    exact ⟨fun ⟨e, he, hk, hv⟩ => hv ▸ ⟨he, hk⟩, fun ⟨hv, hk⟩ => ⟨v, hv, hk, rfl⟩⟩
  · refine (List.pairwise_map.mp hes).imp ?_
    rintro x y hxy _ _ ⟨⟩ ⟨⟩
    exact hxy

/-- The values of a map, in the order of their keys. -/
def valueList (m : Map κ ν) : List ν := m.toList.map (·.2)

theorem mem_valueList {m : Map κ ν} {v : ν} : v ∈ valueList m ↔ ∃ k : κ, m[k]? = some v := by
  constructor
  · intro h
    obtain ⟨⟨k, v'⟩, hmem, rfl⟩ := List.mem_map.mp h
    exact ⟨k, Std.ExtTreeMap.mem_toList_iff_getElem?_eq_some.mp hmem⟩
  · rintro ⟨k, hk⟩
    exact List.mem_map.mpr ⟨(k, v), Std.ExtTreeMap.mem_toList_iff_getElem?_eq_some.mpr hk, rfl⟩

/-- Values that agree only under one key are different. -/
theorem pairwise_valueList_of_inj {β : Type} {m : Map κ ν} {f : ν → β}
    (hinj : ∀ {k k' : κ} {v v' : ν}, m[k]? = some v → m[k']? = some v' → f v = f v' → k = k') :
    (valueList m).Pairwise fun x y => f x ≠ f y := by
  rw [valueList, List.pairwise_map]
  refine m.distinct_keys_toList.imp_of_mem ?_
  rintro ⟨k, v⟩ ⟨k', v'⟩ hv hv' hne heq
  rw [Std.ExtTreeMap.mem_toList_iff_getElem?_eq_some] at hv hv'
  exact hne (Std.LawfulEqOrd.compare_eq_iff_eq.mpr (hinj hv hv' heq))

/-- The values of a map whose values know their keys have different keys. -/
theorem pairwise_valueList {m : Map κ ν} {key : ν → κ} (hkey : ∀ k v, m[k]? = some v → key v = k) :
    (valueList m).Pairwise fun x y => key x ≠ key y :=
  pairwise_valueList_of_inj fun hv hv' heq => by rw [← hkey _ _ hv, heq, hkey _ _ hv']

end Map

end OraDesktop
