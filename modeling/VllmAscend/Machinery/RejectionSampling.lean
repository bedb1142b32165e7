import Mathlib

/-!
# Machinery/RejectionSampling — accepting a draft or drawing from the residual

    emitted x  =  q x · min 1 (p x / q x)  +  (1 − ∑ min p q) · residual x / ∑ residual  =  p x

A draft drawn from `q` is kept with probability `min 1 (p / q)` and otherwise replaced by a draw from
the residual `max (p − q) 0`.  What the residual weighs in all is what the test rejects in all, so
the emitted value is distributed as `p` (`accepted_add_recovered`); the same holds for a draft that is
certain, with the draft's entry of `p` zeroed as the residual (`certain_add_recovered`).  The test
itself compares the quotient with a uniform draw (`integral_threshold`).
-/

namespace Machinery

open MeasureTheory

section Algebra

variable {V K : Type*} [Fintype V] [Field K] [LinearOrder K] [IsStrictOrderedRing K]

/-- A probability distribution on a finite type. -/
structure IsDistribution (p : V → K) : Prop where
  nonneg : ∀ x, 0 ≤ p x
  sum_eq_one : ∑ x, p x = 1

/-- What `q` leaves of `p`. -/
def leftover (p q : V → K) (x : V) : K := max (p x - q x) 0

omit [Fintype V] in
theorem min_add_leftover (p q : V → K) (x : V) : min (p x) (q x) + leftover p q x = p x := by
  unfold leftover
  obtain h | h := le_total (p x) (q x)
  · rw [min_eq_left h, max_eq_right (sub_nonpos.mpr h), add_zero]
  · rw [min_eq_right h, max_eq_left (sub_nonneg.mpr h), add_sub_cancel]

/-- **The mass the test rejects is the mass of the residual.** -/
theorem sum_leftover {p q : V → K} (hp : IsDistribution p) :
    ∑ x, leftover p q x = 1 - ∑ x, min (p x) (q x) := by
  rw [← hp.sum_eq_one, ← Finset.sum_sub_distrib]
  exact Finset.sum_congr rfl fun x _ => (sub_eq_of_eq_add' (min_add_leftover p q x).symm).symm

omit [Fintype V] in
/-- The mass of `x` that passes the test. -/
theorem mul_min_one_div {a b : K} (ha : 0 ≤ a) (hb : 0 ≤ b) : b * min 1 (a / b) = min a b := by
  obtain rfl | hb := hb.eq_or_lt
  · rw [zero_mul, min_eq_right ha]
  · rw [mul_min_of_nonneg _ _ hb.le, mul_one, mul_div_cancel₀ _ hb.ne', min_comm]

/-- **Accepted and recovered mass together are `p`.** -/
theorem accepted_add_recovered {p q : V → K} (hp : IsDistribution p) (hq : ∀ x, 0 ≤ q x) (x : V) :
    q x * min 1 (p x / q x) +
      (1 - ∑ y, min (p y) (q y)) * (leftover p q x / ∑ y, leftover p q y) = p x := by
  rw [mul_min_one_div (hp.nonneg x) (hq x), ← sum_leftover hp]
  by_cases hzero : ∑ y, leftover p q y = 0
  · -- nothing is rejected: the residual vanishes
    have hnone : leftover p q x = 0 :=
      (Finset.sum_eq_zero_iff_of_nonneg fun y _ => le_max_right _ _).mp hzero x (Finset.mem_univ x)
    rw [hnone, zero_div, mul_zero, add_zero]
    simpa [hnone] using min_add_leftover p q x
  · rw [mul_div_cancel₀ _ hzero, min_add_leftover]

/-- **What can be rejected can be replaced**: where `q` exceeds `p` somewhere, it leaves something elsewhere. -/
theorem exists_leftover_pos {p q : V → K} (hp : IsDistribution p) (hq : IsDistribution q) {d : V} (h : p d < q d) :
    ∃ x, 0 < leftover p q x := by
  have hmin : ∑ x, min (p x) (q x) < 1 := by
    rw [← hq.sum_eq_one]
    exact Finset.sum_lt_sum (fun x _ => min_le_right _ _) ⟨d, Finset.mem_univ d, (min_le_left _ _).trans_lt h⟩
  have hsum : ∑ _x : V, (0 : K) < ∑ x, leftover p q x := by
    rw [Finset.sum_const_zero, sum_leftover hp]
    exact sub_pos.mpr hmin
  obtain ⟨x, -, hx⟩ := Finset.exists_lt_of_sum_lt hsum
  exact ⟨x, hx⟩

omit [Fintype V] in
theorem pos_of_leftover_pos {p q : V → K} {x : V} (hq : 0 ≤ q x) (h : 0 < leftover p q x) : 0 < p x := by
  rcases lt_max_iff.mp h with h | h
  · exact hq.trans_lt (sub_pos.mp h)
  · exact absurd h (lt_irrefl 0)

variable [DecidableEq V]

omit [IsStrictOrderedRing K] in
/-- The mass that is left without one value. -/
theorem sum_update {p : V → K} (hp : IsDistribution p) (d : V) : ∑ x, Function.update p d 0 x = 1 - p d := by
  rw [Finset.sum_update_of_mem (Finset.mem_univ d), zero_add, ← hp.sum_eq_one,
    Finset.sum_eq_add_sum_sdiff_singleton_of_mem (Finset.mem_univ d)]
  ring

/-- What is not certain can be replaced, by another value. -/
theorem exists_update_pos {p : V → K} (hp : IsDistribution p) {d : V} (h : p d < 1) :
    ∃ x, 0 < Function.update p d 0 x := by
  have hsum : ∑ _x : V, (0 : K) < ∑ x, Function.update p d 0 x := by
    rw [Finset.sum_const_zero, sum_update hp]
    exact sub_pos.mpr h
  obtain ⟨x, -, hx⟩ := Finset.exists_lt_of_sum_lt hsum
  exact ⟨x, hx⟩

/-- **The emitted distribution**, over the drafts: a draft `d` drawn from `q` is kept with
probability `min 1 (p d / q d)`. -/
theorem sum_drafts {p q : V → K} (hp : IsDistribution p) (hq : IsDistribution q) (x : V) :
    ∑ d, q d * (min 1 (p d / q d) * (if x = d then 1 else 0) +
      (1 - min 1 (p d / q d)) * (leftover p q x / ∑ y, leftover p q y)) = p x := by
  have hsplit : ∀ d, q d * (min 1 (p d / q d) * (if x = d then 1 else 0) +
      (1 - min 1 (p d / q d)) * (leftover p q x / ∑ y, leftover p q y)) =
        (if x = d then q d * min 1 (p d / q d) else 0) +
          (q d - min (p d) (q d)) * (leftover p q x / ∑ y, leftover p q y) := fun d => by
    rw [← mul_min_one_div (hp.nonneg d) (hq.nonneg d)]
    split <;> ring
  rw [Finset.sum_congr rfl fun d _ => hsplit d, Finset.sum_add_distrib, ← Finset.sum_mul,
    Finset.sum_sub_distrib, hq.sum_eq_one, Finset.sum_ite_eq, if_pos (Finset.mem_univ x)]
  exact accepted_add_recovered hp hq.nonneg x

/-- **A certain draft**, kept with the probability the target gives it and otherwise replaced by
another value. -/
theorem certain_add_recovered {p : V → K} (hp : IsDistribution p) (d x : V) :
    p d * (if x = d then 1 else 0) +
      (1 - p d) * (Function.update p d 0 x / ∑ y, Function.update p d 0 y) = p x := by
  have hrest := sum_update hp d
  rw [hrest]
  obtain rfl | hne := eq_or_ne x d
  · simp
  · rw [if_neg hne, mul_zero, zero_add, Function.update_of_ne hne]
    by_cases hone : 1 - p d = 0
    · -- the draft has all the mass
      have hsum := hrest.trans hone
      have hx := (Finset.sum_eq_zero_iff_of_nonneg (fun y _ => by
        obtain rfl | hy := eq_or_ne y d
        · simp
        · rw [Function.update_of_ne hy]
          exact hp.nonneg y)).mp hsum x (Finset.mem_univ x)
      rw [Function.update_of_ne hne] at hx
      rw [hx, zero_div, mul_zero]
    · rw [mul_div_cancel₀ _ hone]

/-- The same, with the certain draft as a distribution of its own. -/
theorem certain_add_recovered_single {p : V → K} (hp : IsDistribution p) (d x : V) :
    (Pi.single d 1 : V → K) x * min 1 (p x / (Pi.single d 1 : V → K) x) +
      (1 - ∑ y, min (p y) ((Pi.single d 1 : V → K) y)) *
        (Function.update p d 0 x / ∑ y, Function.update p d 0 y) = p x := by
  have hle : ∀ y, p y ≤ 1 := fun y => hp.sum_eq_one ▸
    Finset.single_le_sum (fun y _ => hp.nonneg y) (Finset.mem_univ y)
  have hmin : ∀ y, min (p y) ((Pi.single d 1 : V → K) y) = if y = d then p d else 0 := fun y => by
    obtain rfl | hne := eq_or_ne y d
    · simp [hle]
    · simp [hne, hp.nonneg]
  have hpoint : ∀ y, 0 ≤ (Pi.single d 1 : V → K) y := fun y => by
    obtain rfl | hne := eq_or_ne y d
    · simp
    · simp [hne]
  rw [mul_min_one_div (hp.nonneg x) (hpoint x), hmin x, Finset.sum_congr rfl fun y _ => hmin y,
    Finset.sum_ite_eq', if_pos (Finset.mem_univ d), ← certain_add_recovered hp d x]
  split <;> simp

end Algebra

/-! ## The test -/

/-- The mass of the draws below a threshold. -/
theorem volume_threshold {c : ℝ} (hc : 0 ≤ c) :
    volume.real (Set.Iic c ∩ Set.Ico (0 : ℝ) 1) = min 1 c := by
  obtain h | h := lt_or_ge c 1
  · have hset : Set.Iic c ∩ Set.Ico (0 : ℝ) 1 = Set.Icc 0 c := by
      ext u
      simp only [Set.mem_inter_iff, Set.mem_Iic, Set.mem_Ico, Set.mem_Icc]
      constructor
      · exact fun ⟨hu, h0, _⟩ => ⟨h0, hu⟩
      · exact fun ⟨h0, hu⟩ => ⟨hu, h0, hu.trans_lt h⟩
    rw [hset, Real.volume_real_Icc_of_le hc, sub_zero, min_eq_right h.le]
  · have hset : Set.Iic c ∩ Set.Ico (0 : ℝ) 1 = Set.Ico 0 1 :=
      Set.inter_eq_right.mpr fun u hu => (hu.2.trans_le h).le
    rw [hset, Real.volume_real_Ico_of_le zero_le_one, sub_zero, min_eq_left h]

/-- **A uniform draw compared with a threshold.** -/
theorem integral_threshold {c : ℝ} (hc : 0 ≤ c) (a b : ℝ) :
    ∫ u in Set.Ico (0 : ℝ) 1, (if u ≤ c then a else b) = min 1 c * a + (1 - min 1 c) * b := by
  have hsplit : (fun u : ℝ => if u ≤ c then a else b) =
      fun u => (Set.Iic c).indicator (fun _ => a - b) u + b := by
    funext u
    by_cases h : u ≤ c <;> simp [h]
  have hindicator : Integrable ((Set.Iic c).indicator fun _ => a - b)
      (volume.restrict (Set.Ico (0 : ℝ) 1)) :=
    (integrable_const _).indicator measurableSet_Iic
  rw [hsplit, integral_add hindicator (integrable_const _), integral_indicator_const _
    measurableSet_Iic, setIntegral_const, measureReal_restrict_apply measurableSet_Iic,
    volume_threshold hc, Real.volume_real_Ico_of_le zero_le_one]
  simp only [smul_eq_mul]
  ring

end Machinery
