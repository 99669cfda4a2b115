import OraDesktop.Lib.OrderedMap

/-!
# Saturating a partial map under a rule

`saturate` sweeps over a list of keys until a sweep adds nothing: a key that has no entry yet
receives the one the rule derives for it from the entries so far. Entries are never changed, so a
rule that keeps its answers as the map grows is satisfied by the result everywhere.

## Main results

* `saturate_extends` — entries are only added
* `saturate_closed` — with enough fuel, no key is left that the rule has an entry for
* `saturate_eq` — for a stable rule, the result is a fixed point of it
-/

namespace OraDesktop.Saturate

open Std.ExtTreeMap

variable {κ ν : Type} [Ord κ] [Std.TransOrd κ]

/-- Looks at one key; the flag records whether an entry was added. -/
def visit (rule : Map κ ν → κ → Option ν) (acc : Map κ ν × Bool) (k : κ) : Map κ ν × Bool :=
  if k ∈ acc.1 then acc
  else match rule acc.1 k with
    | some v => (acc.1.insert k v, true)
    | none => acc

def sweep (rule : Map κ ν → κ → Option ν) (keys : List κ) (acc : Map κ ν × Bool) : Map κ ν × Bool :=
  keys.foldl (visit rule) acc

/-- Sweeps until a sweep adds nothing, or fuel runs out; every sweep but the last one adds an
entry. -/
def saturate (rule : Map κ ν → κ → Option ν) (keys : List κ) : Nat → Map κ ν → Map κ ν
  | 0, m => m
  | fuel + 1, m =>
    let swept := sweep rule keys (m, false)
    if swept.2 then saturate rule keys fuel swept.1 else swept.1

variable {rule : Map κ ν → κ → Option ν}

theorem visit_flag_mono {acc : Map κ ν × Bool} {k : κ} (h : acc.2 = true) :
    (visit rule acc k).2 = true := by
  unfold visit
  split
  · exact h
  · split
    · rfl
    · exact h

theorem sweep_flag_mono : ∀ {keys : List κ} {acc : Map κ ν × Bool}, acc.2 = true →
    (sweep rule keys acc).2 = true
  | [], _, h => h
  | k :: keys, acc, h => by
    have hstep : sweep rule (k :: keys) acc = sweep rule keys (visit rule acc k) := rfl
    rw [hstep]
    exact sweep_flag_mono (visit_flag_mono h)

def Extends (m m' : Map κ ν) : Prop :=
  ∀ (k : κ) (v : ν), m[k]? = some v → m'[k]? = some v

theorem Extends.refl (m : Map κ ν) : Extends m m := fun _ _ h => h

theorem Extends.trans {m₁ m₂ m₃ : Map κ ν} (h : Extends m₁ m₂) (h' : Extends m₂ m₃) :
    Extends m₁ m₃ := fun k v hk => h' k v (h k v hk)

theorem Extends.mem {m m' : Map κ ν} (h : Extends m m') {k : κ} (hk : k ∈ m) : k ∈ m' := by
  obtain ⟨v, hv⟩ := Option.isSome_iff_exists.mp (isSome_getElem?_iff_mem.mpr hk)
  exact isSome_getElem?_iff_mem.mp (by rw [h k v hv]; rfl)

/-! ### What a sweep reports -/

/-- A sweep that reports no change made none, and the rule has nothing to add. -/
theorem sweep_unchanged : ∀ {keys : List κ} {m : Map κ ν}, (sweep rule keys (m, false)).2 = false →
      (sweep rule keys (m, false)).1 = m ∧ ∀ k ∈ keys, k ∉ m → rule m k = none
  | [], _, _ => ⟨rfl, by simp⟩
  | k :: keys, m, h => by
    have hvisit : visit rule (m, false) k = (m, false) ∧ (k ∉ m → rule m k = none) := by
      by_cases hk : k ∈ m
      · exact ⟨by simp [visit, hk], fun h => absurd hk h⟩
      rcases hr : rule m k with _ | v
      · exact ⟨by simp [visit, hk, hr], fun _ => rfl⟩
      -- an added entry raises the flag, and the flag stays up
      have hstep : sweep rule (k :: keys) (m, false) = sweep rule keys (m.insert k v, true) := by
        simp [sweep, visit, hk, hr]
      rw [hstep, sweep_flag_mono rfl] at h
      cases h
    have hsweep : sweep rule (k :: keys) (m, false) = sweep rule keys (m, false) := by
      rw [sweep, List.foldl_cons, hvisit.1, sweep]
    rw [hsweep] at h ⊢
    obtain ⟨heq, hnone⟩ := sweep_unchanged h
    refine ⟨heq, fun a ha => ?_⟩
    rcases List.mem_cons.mp ha with rfl | ha
    · exact hvisit.2
    · exact hnone a ha

def missing (keys : List κ) (m : Map κ ν) : Nat := (keys.filter (· ∉ m)).length

theorem missing_le_of_extends {keys : List κ} {m m' : Map κ ν} (h : Extends m m') :
    missing keys m' ≤ missing keys m := by
  refine List.Sublist.length_le (List.monotone_filter_right keys fun k hk => ?_)
  simp only [decide_eq_true_eq] at hk ⊢
  exact fun hm => hk (h.mem hm)

variable [Std.LawfulEqOrd κ]

theorem extends_insert {m : Map κ ν} {k : κ} (hk : k ∉ m) (v : ν) : Extends m (m.insert k v) := by
  classical
  intro a b hab
  rw [Map.getElem?_insert, if_neg]
  · exact hab
  · rintro rfl
    exact hk (isSome_getElem?_iff_mem.mp (by rw [hab]; rfl))

theorem visit_extends (acc : Map κ ν × Bool) (k : κ) : Extends acc.1 (visit rule acc k).1 := by
  unfold visit
  split
  · exact Extends.refl _
  · rename_i hk
    split
    · exact extends_insert hk _
    · exact Extends.refl _

theorem sweep_extends : ∀ (keys : List κ) (acc : Map κ ν × Bool),
    Extends acc.1 (sweep rule keys acc).1
  | [], _ => Extends.refl _
  | k :: keys, acc => (visit_extends acc k).trans (sweep_extends keys _)

theorem saturate_extends (keys : List κ) : ∀ (fuel : Nat) (m : Map κ ν),
    Extends m (saturate rule keys fuel m)
  | 0, m => Extends.refl m
  | fuel + 1, m => by
    unfold saturate
    simp only
    split
    · exact (sweep_extends keys (m, false)).trans (saturate_extends keys fuel _)
    · exact sweep_extends keys (m, false)

/-! ### The fuel -/

theorem missing_insert_lt {keys : List κ} {m : Map κ ν} {k : κ} (hmem : k ∈ keys) (hk : k ∉ m)
    (v : ν) : missing keys (m.insert k v) < missing keys m := by
  induction keys with
  | nil => cases hmem
  | cons a keys ih =>
    have hle : missing keys (m.insert k v) ≤ missing keys m :=
      missing_le_of_extends (extends_insert hk v)
    by_cases hak : a = k
    · subst hak
      have hin : a ∈ m.insert a v := by simp
      simp only [missing, List.filter_cons, hin, hk, not_true_eq_false, not_false_eq_true,
        decide_true, decide_false, if_true, List.length_cons] at hle ⊢
      simpa using Nat.lt_succ_of_le hle
    · have hlt := ih ((List.mem_cons.mp hmem).resolve_left (Ne.symm hak))
      have hiff : a ∈ m.insert k v ↔ a ∈ m := by
        simp [mem_insert, Ne.symm hak]
      by_cases ham : a ∈ m
      · simpa [missing, List.filter_cons, hiff, ham] using hlt
      · simpa [missing, List.filter_cons, hiff, ham] using hlt

theorem sweep_missing_lt {all : List κ} : ∀ {keys : List κ} {acc : Map κ ν × Bool}, keys ⊆ all →
    acc.2 = false → (sweep rule keys acc).2 = true →
      missing all (sweep rule keys acc).1 < missing all acc.1
  | [], acc, _, h, h' => by
    rw [sweep, List.foldl_nil, h] at h'
    cases h'
  | k :: keys, acc, hsub, h, h' => by
    have hkeys : keys ⊆ all := fun a ha => hsub (.tail _ ha)
    have hstep : sweep rule (k :: keys) acc = sweep rule keys (visit rule acc k) := rfl
    rw [hstep] at h' ⊢
    by_cases hk : k ∈ acc.1
    · have hvisit : visit rule acc k = acc := by simp [visit, hk]
      rw [hvisit] at h' ⊢
      exact sweep_missing_lt hkeys h h'
    rcases hr : rule acc.1 k with _ | v
    · have hvisit : visit rule acc k = acc := by simp [visit, hk, hr]
      rw [hvisit] at h' ⊢
      exact sweep_missing_lt hkeys h h'
    · have hvisit : visit rule acc k = (acc.1.insert k v, true) := by simp [visit, hk, hr]
      rw [hvisit]
      exact Nat.lt_of_le_of_lt (missing_le_of_extends (sweep_extends keys _))
        (missing_insert_lt (hsub (.head _)) hk v)

/-- With enough fuel, the rule has nothing to add to the result. -/
theorem saturate_closed {keys : List κ} : ∀ {fuel : Nat} {m : Map κ ν}, missing keys m < fuel →
    ∀ k ∈ keys, k ∉ saturate rule keys fuel m → rule (saturate rule keys fuel m) k = none
  | fuel + 1, m, hfuel => by
    rcases hflag : (sweep rule keys (m, false)).2 with _ | _
    · have hres : saturate rule keys (fuel + 1) m = (sweep rule keys (m, false)).1 := by
        simp [saturate, hflag]
      obtain ⟨heq, hnone⟩ := sweep_unchanged hflag
      rw [hres, heq]
      exact hnone
    · have hres : saturate rule keys (fuel + 1) m
          = saturate rule keys fuel (sweep rule keys (m, false)).1 := by
        simp [saturate, hflag]
      have hlt := sweep_missing_lt (List.Subset.refl keys) rfl hflag
      rw [hres]
      exact saturate_closed (by simp only at hlt; omega)

/-! ### Stable rules -/

/-- The rule keeps its answers as the map grows, so the order of the sweep does not matter. -/
def Stable (rule : Map κ ν → κ → Option ν) : Prop :=
  ∀ m m' k v, Extends m m' → rule m k = some v → rule m' k = some v

/-- Every entry that is not original is one the rule derives for a key. -/
def Justified (rule : Map κ ν → κ → Option ν) (keys : List κ) (m₀ m : Map κ ν) : Prop :=
  ∀ (k : κ) (v : ν), m[k]? = some v → m₀[k]? = some v ∨ k ∈ keys ∧ k ∉ m₀ ∧ rule m k = some v

theorem Justified.visit (hstable : Stable rule) {keys : List κ} {m₀ : Map κ ν}
    {acc : Map κ ν × Bool} {k : κ} (hk : k ∈ keys) (hext : Extends m₀ acc.1)
    (h : Justified rule keys m₀ acc.1) : Justified rule keys m₀ (visit rule acc k).1 := by
  unfold Saturate.visit
  split
  · exact h
  rename_i hnot
  rcases hr : rule acc.1 k with _ | v
  · exact h
  classical
  intro a b hab
  have hgrow : Extends acc.1 (acc.1.insert k v) := extends_insert hnot v
  rw [Map.getElem?_insert] at hab
  split at hab
  · rename_i hka
    subst hka
    cases hab
    exact .inr ⟨hk, fun hm => hnot (hext.mem hm), hstable _ _ _ _ hgrow hr⟩
  · rcases h a b hab with h0 | ⟨hin, hm, hrule⟩
    · exact .inl h0
    · exact .inr ⟨hin, hm, hstable _ _ _ _ hgrow hrule⟩

theorem Justified.sweep (hstable : Stable rule) {all : List κ} {m₀ : Map κ ν} :
    ∀ {keys : List κ} {acc : Map κ ν × Bool}, keys ⊆ all → Extends m₀ acc.1 →
      Justified rule all m₀ acc.1 → Justified rule all m₀ (sweep rule keys acc).1
  | [], _, _, _, h => h
  | k :: keys, acc, hsub, hext, h => by
    have hstep : Saturate.sweep rule (k :: keys) acc =
        Saturate.sweep rule keys (Saturate.visit rule acc k) := rfl
    rw [hstep]
    exact Justified.sweep hstable (fun a ha => hsub (.tail _ ha)) (hext.trans (visit_extends acc k))
      (h.visit hstable (hsub (.head _)) hext)

theorem Justified.saturate (hstable : Stable rule) {keys : List κ} {m₀ : Map κ ν} :
    ∀ (fuel : Nat) {m : Map κ ν}, Extends m₀ m → Justified rule keys m₀ m →
      Justified rule keys m₀ (saturate rule keys fuel m)
  | 0, _, _, h => h
  | fuel + 1, m, hext, h => by
    have hswept : Justified rule keys m₀ (Saturate.sweep rule keys (m, false)).1 :=
      Justified.sweep hstable (List.Subset.refl keys) hext h
    have hswext : Extends m₀ (Saturate.sweep rule keys (m, false)).1 :=
      hext.trans (sweep_extends keys (m, false))
    unfold Saturate.saturate
    simp only
    split
    · exact Justified.saturate hstable fuel hswext hswept
    · exact hswept

/-- The saturation of a stable rule is a fixed point: original entries stay, and every other key
has exactly the entry the rule derives from the result. -/
theorem saturate_eq [DecidableEq κ] (hstable : Stable rule) {keys : List κ} {m : Map κ ν} {fuel : Nat}
    (hfuel : keys.length < fuel) (k : κ) :
    (saturate rule keys fuel m)[k]? =
      if k ∈ m then m[k]? else if k ∈ keys then rule (saturate rule keys fuel m) k else none := by
  have hjust : Justified rule keys m (saturate rule keys fuel m) :=
    Justified.saturate hstable fuel (Extends.refl m) fun _ _ h => .inl h
  have hext : Extends m (saturate rule keys fuel m) := saturate_extends keys fuel m
  have hclosed : ∀ k ∈ keys, k ∉ saturate rule keys fuel m →
      rule (saturate rule keys fuel m) k = none :=
    saturate_closed (Nat.lt_of_le_of_lt (List.length_filter_le _ keys) hfuel)
  split
  · rename_i hk
    obtain ⟨v, hv⟩ := Option.isSome_iff_exists.mp (isSome_getElem?_iff_mem.mpr hk)
    rw [hext k v hv, hv]
  rename_i hk
  have hm : m[k]? = none := by simpa using hk
  rcases hres : (saturate rule keys fuel m)[k]? with _ | v
  · split
    · rename_i hin
      exact (hclosed k hin (by simpa using hres)).symm
    · rfl
  · rcases hjust k v hres with h0 | ⟨hin, -, hrule⟩
    · rw [hm] at h0
      cases h0
    · rw [if_pos hin, hrule]

end OraDesktop.Saturate
