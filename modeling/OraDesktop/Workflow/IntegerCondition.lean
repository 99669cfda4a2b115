import Mathlib.Data.Nat.Log
import Mathlib.Tactic.Linarith
import OraDesktop.Workflow.Condition

/-!
# Conditions on integers

Every numeric comparison reads its operands as doubles. A double is the nearest number with a
53-bit significand, and taking it keeps the order of two integers but may make them equal. So the
operators agree with integer arithmetic exactly where two different integers have different
doubles.
-/

namespace OraDesktop

/-! ### Nearest doubles -/

/-- The nearest natural number with a 53-bit significand, ties to even. -/
def nearestDouble (n : Nat) : Nat :=
  if n < 2 ^ 53 then n
  else
    let k := n.log2 - 52
    (if 2 ^ (k - 1) < n % 2 ^ k ∨ n % 2 ^ k = 2 ^ (k - 1) ∧ n / 2 ^ k % 2 = 1 then n / 2 ^ k + 1
      else n / 2 ^ k) * 2 ^ k

theorem toRat_roundToF64 (n : Nat) : (roundToF64 n).toRat = (nearestDouble n : ℚ) := by
  unfold roundToF64 nearestDouble
  split
  · rw [Dyadic.toRat_ofIntWithPrec_eq_mul_two_pow]
    simp
  · simp only [Dyadic.toRat_ofIntWithPrec_eq_mul_two_pow, neg_neg, zpow_natCast]
    generalize n / 2 ^ (n.log2 - 52) = q
    split <;> simp

/-- The bounds of the binade a number is rounded in. -/
theorem nearestDouble_bounds {n : Nat} (h : 2 ^ 53 ≤ n) :
    2 ^ n.log2 ≤ nearestDouble n ∧ nearestDouble n ≤ 2 ^ (n.log2 + 1) := by
  have hne : n ≠ 0 := by
    rintro rfl
    simp at h
  have hlog : 53 ≤ n.log2 := (Nat.le_log2 hne).mpr h
  obtain ⟨k, hk⟩ : ∃ k, n.log2 = 52 + k := ⟨n.log2 - 52, by omega⟩
  have hlow : 2 ^ 52 * 2 ^ k ≤ n := by
    rw [← pow_add, ← hk]
    exact Nat.log2_self_le hne
  have hhigh : n < 2 ^ 53 * 2 ^ k := by
    have := Nat.lt_log2_self (n := n)
    rw [hk, show 52 + k + 1 = 53 + k by omega, pow_add] at this
    exact this
  have hq : 2 ^ 52 ≤ n / 2 ^ k := (Nat.le_div_iff_mul_le (Nat.two_pow_pos k)).mpr hlow
  have hq' : n / 2 ^ k < 2 ^ 53 := Nat.div_lt_of_lt_mul (by rwa [mul_comm])
  rw [nearestDouble, if_neg (not_lt.mpr h), show n.log2 - 52 = k by omega, hk,
    show 52 + k + 1 = 53 + k by omega, pow_add, pow_add]
  dsimp only
  constructor
  · exact Nat.mul_le_mul_right _ (by split <;> omega)
  · exact Nat.mul_le_mul_right _ (by split <;> omega)

/-- Within a binade the quotients are rounded in order. -/
theorem nearestDouble_mono {n m : Nat} (h : n ≤ m) : nearestDouble n ≤ nearestDouble m := by
  by_cases hn : n < 2 ^ 53
  · by_cases hm : m < 2 ^ 53
    · rwa [nearestDouble, if_pos hn, nearestDouble, if_pos hm]
    have hbound := (nearestDouble_bounds (not_lt.mp hm)).1
    have hlog : 2 ^ 53 ≤ 2 ^ m.log2 :=
      Nat.pow_le_pow_right (by decide) ((Nat.le_log2 (by omega)).mpr (not_lt.mp hm))
    rw [nearestDouble, if_pos hn]
    omega
  · have hm : 2 ^ 53 ≤ m := (not_lt.mp hn).trans h
    have hlog : n.log2 ≤ m.log2 := by
      rw [Nat.log2_eq_log_two, Nat.log2_eq_log_two]
      exact Nat.log_mono_right h
    rcases hlog.lt_or_eq with hlt | heq
    · calc nearestDouble n ≤ 2 ^ (n.log2 + 1) := (nearestDouble_bounds (not_lt.mp hn)).2
        _ ≤ 2 ^ m.log2 := Nat.pow_le_pow_right (by decide) hlt
        _ ≤ nearestDouble m := (nearestDouble_bounds hm).1
    rw [nearestDouble, if_neg hn, nearestDouble, if_neg (not_lt.mpr hm), heq]
    refine Nat.mul_le_mul_right _ ?_
    generalize 2 ^ (m.log2 - 52) = P
    generalize 2 ^ (m.log2 - 52 - 1) = half
    rcases (Nat.div_le_div_right (c := P) h).lt_or_eq with hlt | heq
    · split <;> split <;> omega
    have hmod : n % P ≤ m % P := by
      have := Nat.div_add_mod n P
      have := Nat.div_add_mod m P
      rw [heq] at *
      omega
    rw [heq]
    split <;> split <;> omega

theorem nearestDouble_of_le {n : Nat} (h : n ≤ 2 ^ 53) : nearestDouble n = n := by
  rcases h.lt_or_eq with hlt | rfl
  · rw [nearestDouble, if_pos hlt]
  · decide +kernel

/-! ### Integers -/

/-- The integer a JSON integer is read as: the nearest one with a 53-bit significand. -/
def doubleOf (i : Int) : Int :=
  if 0 ≤ i then nearestDouble i.toNat else -nearestDouble i.natAbs

theorem doubleOf_mono {i j : Int} (h : i ≤ j) : doubleOf i ≤ doubleOf j := by
  unfold doubleOf
  split
  · rw [if_pos (by omega)]
    exact Int.ofNat_le.mpr (nearestDouble_mono (by omega))
  · split
    · omega
    · have := nearestDouble_mono (show j.natAbs ≤ i.natAbs by omega)
      omega

theorem doubleOf_of_natAbs_le {i : Int} (h : i.natAbs ≤ 2 ^ 53) : doubleOf i = i := by
  unfold doubleOf
  split
  · rw [nearestDouble_of_le (by omega)]
    omega
  · rw [nearestDouble_of_le h]
    omega

/-- The integers JSON numbers hold exactly, as an `i64` or a `u64`; all others are doubles
already. -/
abbrev Representable (i : Int) : Prop := -2 ^ 63 ≤ i ∧ i < 2 ^ 64

theorem asF64_ofInt {i : Int} (h : Representable i) :
    ∃ d : Dyadic, (Value.ofInt i).asF64 = some d ∧ d.toRat = (doubleOf i : ℚ) := by
  refine ⟨_, rfl, ?_⟩
  unfold doubleOf
  split
  · have hn : (UInt64.ofNat i.toNat).toNat = i.toNat := by
      rw [UInt64.toNat_ofNat']
      exact Nat.mod_eq_of_lt (by have := h.2; omega)
    rw [Number.asF64, hn, toRat_roundToF64]
    simp
  · rename_i hneg
    have hi : (Int64.ofInt i).toInt = i := Int64.toInt_ofInt_of_le h.1 (by omega)
    rw [Number.asF64, hi, Dyadic.toRat_neg, toRat_roundToF64]
    simp

namespace Workflow

variable {i j : Int}

section

variable (hi : Representable i) (hj : Representable j)

include hi hj

theorem equalValues_ofInt :
    equalValues (Value.ofInt i) (Value.ofInt j) = decide (doubleOf i = doubleOf j) := by
  obtain ⟨x, hx, hxr⟩ := asF64_ofInt hi
  obtain ⟨y, hy, hyr⟩ := asF64_ofInt hj
  rw [equalValues, hx, hy]
  refine decide_eq_decide.mpr ?_
  rw [← Dyadic.toRat_inj, hxr, hyr]
  exact Int.cast_inj

theorem compareNumbers_ofInt :
    compareNumbers (Value.ofInt i) (Value.ofInt j) = some (compare (doubleOf i) (doubleOf j)) := by
  obtain ⟨x, hx, hxr⟩ := asF64_ofInt hi
  obtain ⟨y, hy, hyr⟩ := asF64_ofInt hj
  have hlt : x < y ↔ doubleOf i < doubleOf j := by
    rw [← Dyadic.toRat_lt_toRat_iff, hxr, hyr]
    exact Int.cast_lt
  have heq : x = y ↔ doubleOf i = doubleOf j := by
    rw [← Dyadic.toRat_inj, hxr, hyr]
    exact Int.cast_inj
  rw [compareNumbers, hx, hy]
  show some (if x < y then Ordering.lt else if x = y then .eq else .gt) =
    some (if doubleOf i < doubleOf j then .lt else if doubleOf i = doubleOf j then .eq else .gt)
  simp only [hlt, heq]

theorem asF64_inj : (Value.ofInt i).asF64 = (Value.ofInt j).asF64 ↔ doubleOf i = doubleOf j := by
  obtain ⟨x, hx, hxr⟩ := asF64_ofInt hi
  obtain ⟨y, hy, hyr⟩ := asF64_ofInt hj
  rw [hx, hy, Option.some.injEq, ← Dyadic.toRat_inj, hxr, hyr]
  exact Int.cast_inj

end

/-- What integer arithmetic answers for the operators that compare two numbers. -/
def ComparisonOperator.onIntegers (i j : Int) : ComparisonOperator → Option Bool
  | .equals | .is => some (decide (i = j))
  | .notEquals | .isNot => some (decide (i ≠ j))
  | .greaterThan => some (decide (j < i))
  | .greaterThanOrEqual => some (decide (j ≤ i))
  | .lessThan => some (decide (i < j))
  | .lessThanOrEqual => some (decide (i ≤ j))
  | _ => none

/-- The operators answer for the doubles of two integers. -/
theorem evaluate_ofInt (hi : Representable i) (hj : Representable j) {operator : ComparisonOperator}
    {answer : Bool} (h : operator.onIntegers (doubleOf i) (doubleOf j) = some answer)
    (selector : String) :
    operator.evaluate (some (Value.ofInt i)) (some (Value.ofInt j)) selector = .ok answer := by
  cases operator <;> cases h <;>
    simp only [ComparisonOperator.evaluate, ComparisonOperator.apply, equalValues_ofInt hi hj,
      compareNumbers_ofInt hi hj, Option.map_some, Except.ok.injEq]
  case notEquals | isNot => simp
  case greaterThan => exact Bool.eq_iff_iff.mpr (by simp [compare_gt_iff_gt])
  case greaterThanOrEqual =>
    exact Bool.eq_iff_iff.mpr (by simp [Ordering.isGE_iff_ne_lt, compare_ge_iff_ge])
  case lessThan => exact Bool.eq_iff_iff.mpr (by simp [compare_lt_iff_lt])
  case lessThanOrEqual =>
    exact Bool.eq_iff_iff.mpr (by simp [Ordering.isLE_iff_ne_gt, compare_le_iff_le])

theorem onIntegers_doubleOf (h : i = j ∨ doubleOf i ≠ doubleOf j) (operator : ComparisonOperator) :
    operator.onIntegers (doubleOf i) (doubleOf j) = operator.onIntegers i j := by
  have heq : doubleOf i = doubleOf j ↔ i = j :=
    ⟨fun hd => h.resolve_right fun hne => hne hd, fun hij => by rw [hij]⟩
  have hlt : doubleOf i < doubleOf j ↔ i < j := by
    constructor
    · intro hd
      by_contra hle
      exact absurd (doubleOf_mono (not_lt.mp hle)) (not_le.mpr hd)
    · exact fun hij => lt_of_le_of_ne (doubleOf_mono hij.le) (mt heq.mp hij.ne)
  cases operator <;> simp only [ComparisonOperator.onIntegers, Option.some.injEq, decide_eq_decide,
    ne_eq] <;> omega

theorem evaluate_contains {items : List Int} (hitems : ∀ k ∈ items, Representable k)
    (hj : Representable j) (selector : String) :
    ComparisonOperator.contains.evaluate (some (.arr (items.map Value.ofInt)))
      (some (Value.ofInt j)) selector = .ok (decide (∃ k ∈ items, doubleOf k = doubleOf j)) := by
  have hany : (items.map Value.ofInt).any (fun item => equalValues item (Value.ofInt j)) =
      decide (∃ k ∈ items, doubleOf k = doubleOf j) := by
    rw [Bool.eq_iff_iff, List.any_map, List.any_eq_true, decide_eq_true_iff]
    refine exists_congr fun k => and_congr_right fun hk => ?_
    rw [Function.comp, equalValues_ofInt (hitems k hk) hj, decide_eq_true_iff]
  simp only [ComparisonOperator.evaluate, ComparisonOperator.apply, containsValue, hany]

/-- The operators agree with integer arithmetic on two integers exactly if these are equal or have
different doubles, which holds up to `2 ^ 53`. The last part says in arithmetic when two integers
have one double: if rounding both to 53 bits gives the same number. -/
theorem integer_conditions_exact_iff (hi : Representable i) (hj : Representable j) :
    ((∀ operator answer, ComparisonOperator.onIntegers i j operator = some answer →
        ∀ selector, operator.evaluate (some (Value.ofInt i)) (some (Value.ofInt j)) selector =
          .ok answer) ↔
      i = j ∨ (Value.ofInt i).asF64 ≠ (Value.ofInt j).asF64) ∧
    (∀ items : List Int, (∀ k ∈ items, Representable k) →
      ((∀ selector, ComparisonOperator.contains.evaluate
          (some (.arr (items.map Value.ofInt))) (some (Value.ofInt j)) selector =
            .ok (decide (j ∈ items))) ↔
        j ∈ items ∨ ∀ k ∈ items, (Value.ofInt k).asF64 ≠ (Value.ofInt j).asF64)) ∧
    (i.natAbs ≤ 2 ^ 53 → j.natAbs ≤ 2 ^ 53 →
      i = j ∨ (Value.ofInt i).asF64 ≠ (Value.ofInt j).asF64) ∧
    ((Value.ofInt i).asF64 = (Value.ofInt j).asF64 ↔ doubleOf i = doubleOf j) := by
  simp only [ne_eq, asF64_inj hi hj]
  refine ⟨⟨fun h => ?_, fun h operator answer hanswer selector => ?_⟩, fun items hitems => ?_,
    fun hsmall hsmall' => ?_, trivial⟩
  · by_contra hne
    rw [not_or, not_not] at hne
    have hint := h .equals (decide (i = j)) rfl ""
    rw [evaluate_ofInt hi hj rfl ""] at hint
    simp [hne.1, hne.2] at hint
  · exact evaluate_ofInt hi hj (onIntegers_doubleOf h operator ▸ hanswer) selector
  · have hdistinct : (∀ k ∈ items, ¬(Value.ofInt k).asF64 = (Value.ofInt j).asF64) ↔
        ¬∃ k ∈ items, doubleOf k = doubleOf j := by
      push Not
      exact forall₂_congr fun k hk => not_congr (asF64_inj (hitems k hk) hj)
    rw [hdistinct]
    simp only [evaluate_contains hitems hj, Except.ok.injEq, decide_eq_decide, forall_const]
    constructor
    · exact fun h => (em (j ∈ items)).imp_right fun hnot => mt h.mp hnot
    · rintro (hmem | hnone)
      · exact ⟨fun _ => hmem, fun _ => ⟨j, hmem, rfl⟩⟩
      · exact ⟨fun h => absurd h hnone, fun hmem => ⟨j, hmem, rfl⟩⟩
  · rw [doubleOf_of_natAbs_le hsmall, doubleOf_of_natAbs_le hsmall']
    exact eq_or_ne i j

/-- The integers after `2 ^ 53` share a double with their neighbours. -/
theorem neighbours_compare_equal :
    ComparisonOperator.equals.evaluate (some (Value.ofInt (2 ^ 53)))
      (some (Value.ofInt (2 ^ 53 + 1))) "node.count" = .ok true := by
  decide +kernel

theorem integer_conditions_exact_small :
    ComparisonOperator.lessThan.evaluate (some (Value.ofInt (-1))) (some (Value.ofInt 2)) "node.count" =
      .ok true :=
  ((integer_conditions_exact_iff (i := -1) (j := 2) (by decide) (by decide)).1.mpr
    ((integer_conditions_exact_iff (i := -1) (j := 2) (by decide) (by decide)).2.2.1 (by decide)
      (by decide))) .lessThan true rfl "node.count"

end Workflow

end OraDesktop
