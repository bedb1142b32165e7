import VllmAscend.Machinery.Ragged

/-!
# Machinery/FloatRounding — integers through single precision

    q              2^(e+23) ≤ |q| < 2^(e+24)
    toFloat32 q    the nearest multiple of 2^e, halves to the even one

Integers up to `2²⁴` keep their value (`toFloat32_intCast`), so sums of ones do too (`floatCumsum_eq`),
and the quotient of two such integers is rounded to nothing behind the next integer: cutting off its
fraction divides (`truncate_toFloat32_div`).
-/

namespace Machinery

/-- The nearest integer, halves to the even one. -/
def roundHalfEven (q : ℚ) : ℤ :=
  if 2 * Int.fract q < 1 then ⌊q⌋
  else if 1 < 2 * Int.fract q then ⌊q⌋ + 1
  else if Even ⌊q⌋ then ⌊q⌋ else ⌊q⌋ + 1

/-- The nearest float with a fraction of 24 bits, among the normal ones. -/
def toFloat32 (q : ℚ) : ℚ :=
  if q = 0 then 0 else roundHalfEven (q / 2 ^ (Int.log 2 |q| - 23)) * 2 ^ (Int.log 2 |q| - 23)

/-- A float as an integer, towards zero. -/
def truncate (q : ℚ) : ℤ := if 0 ≤ q then ⌊q⌋ else ⌈q⌉

/-- A running sum of floats. -/
def floatCumsum (s : ℚ) : List ℚ → List ℚ
  | [] => []
  | x :: xs => toFloat32 (s + x) :: floatCumsum (toFloat32 (s + x)) xs

/-- A sum of floats, added up one by one. -/
def floatSum (xs : List ℚ) : ℚ := xs.foldl (fun s x => toFloat32 (s + x)) 0

theorem roundHalfEven_intCast (n : ℤ) : roundHalfEven n = n := by
  simp [roundHalfEven]

theorem roundHalfEven_le (q : ℚ) : (roundHalfEven q : ℚ) ≤ q + 1 / 2 := by
  have hfloor := Int.floor_add_fract q
  unfold roundHalfEven
  split
  · have := Int.fract_nonneg q
    linarith
  · split
    · push_cast
      linarith
    · split
      · have := Int.fract_nonneg q
        linarith
      · push_cast
        linarith

theorem le_roundHalfEven {q : ℚ} {n : ℤ} (h : n ≤ q) : n ≤ roundHalfEven q := by
  have hfloor : n ≤ ⌊q⌋ := Int.le_floor.mpr h
  unfold roundHalfEven
  split
  · exact hfloor
  · split
    · omega
    · split <;> omega

/-- A number of 24 bits is a multiple of its last bit. -/
theorem toFloat32_of_mul {q : ℚ} (hq : q ≠ 0) {k : ℤ} (h : q = k * 2 ^ (Int.log 2 |q| - 23)) :
    toFloat32 q = q := by
  have hpow : (2 : ℚ) ^ (Int.log 2 |q| - 23) ≠ 0 := zpow_ne_zero _ two_ne_zero
  have hdiv : q / 2 ^ (Int.log 2 |q| - 23) = k := by
    rw [div_eq_iff hpow]
    exact h
  rw [toFloat32, if_neg hq, hdiv, roundHalfEven_intCast]
  exact h.symm

/-- **Integers up to `2²⁴` are floats.** -/
theorem toFloat32_intCast {n : ℤ} (h : |n| ≤ 2 ^ 24) : toFloat32 n = n := by
  obtain rfl | hn := eq_or_ne n 0
  · simp [toFloat32]
  · have hne : (n : ℚ) ≠ 0 := Int.cast_ne_zero.mpr hn
    have habs : (0 : ℚ) < |(n : ℚ)| := abs_pos.mpr hne
    have hle : |(n : ℚ)| ≤ 2 ^ 24 := by exact_mod_cast h
    have hlog : (2 : ℚ) ^ Int.log 2 |(n : ℚ)| ≤ |(n : ℚ)| := by
      exact_mod_cast Int.zpow_log_le_self (b := 2) one_lt_two habs
    by_cases he : Int.log 2 |(n : ℚ)| ≤ 23
    · -- the last bit is a fraction of one
      obtain ⟨m, hm⟩ := Int.eq_ofNat_of_zero_le (sub_nonneg.mpr he)
      refine toFloat32_of_mul hne (k := n * 2 ^ m) ?_
      have hexp : Int.log 2 |(n : ℚ)| - 23 = -(m : ℤ) := by omega
      rw [hexp, zpow_neg, zpow_natCast]
      push_cast
      field_simp
    · -- the number is `2²⁴` itself
      have hpow : (2 : ℚ) ^ (24 : ℤ) ≤ 2 ^ Int.log 2 |(n : ℚ)| :=
        zpow_le_zpow_right₀ one_le_two (by omega)
      have heq : |(n : ℚ)| = 2 ^ (24 : ℤ) := le_antisymm (by exact_mod_cast hle) (hpow.trans hlog)
      have hlogEq : Int.log 2 |(n : ℚ)| = 24 := by
        rw [heq]
        exact Int.log_zpow (b := 2) one_lt_two 24
      have hval : n = 2 ^ 24 ∨ n = -2 ^ 24 := by
        have habsInt : |n| = 2 ^ 24 := by exact_mod_cast heq
        exact (abs_eq (by positivity)).mp habsInt
      rw [toFloat32, if_neg hne, hlogEq]
      obtain rfl | rfl := hval
      · have hround := roundHalfEven_intCast (2 ^ 23)
        norm_num at hround ⊢
        rw [hround]
        norm_num
      · have hround := roundHalfEven_intCast (-2 ^ 23)
        norm_num at hround ⊢
        rw [hround]
        norm_num

theorem truncate_intCast (n : ℤ) : truncate n = n := by
  unfold truncate
  split
  · exact Int.floor_intCast n
  · exact Int.ceil_intCast n

/-- **The rounded quotient does not reach the next integer.** -/
theorem truncate_toFloat32_div {a b : ℕ} (ha : a < 2 ^ 24) (hb : 0 < b) :
    truncate (toFloat32 ((a : ℚ) / b)) = (a / b : ℕ) := by
  obtain rfl | hpos := Nat.eq_zero_or_pos a
  · simp [toFloat32, truncate]
  · have hbq : (0 : ℚ) < b := by exact_mod_cast hb
    have hq : (0 : ℚ) < a / b := div_pos (by exact_mod_cast hpos) hbq
    have hlog : (2 : ℚ) ^ Int.log 2 ((a : ℚ) / b) ≤ a / b := by
      exact_mod_cast Int.zpow_log_le_self (b := 2) one_lt_two hq
    have hlt : (a : ℚ) / b < 2 ^ (24 : ℤ) := by
      have hle : (a : ℚ) / b ≤ a := div_le_self (by positivity) (by exact_mod_cast hb)
      exact hle.trans_lt (by exact_mod_cast ha)
    have he : Int.log 2 ((a : ℚ) / b) < 24 := by
      rw [← zpow_lt_zpow_iff_right₀ (one_lt_two (α := ℚ))]
      exact hlog.trans_lt hlt
    obtain ⟨m, hm⟩ := Int.eq_ofNat_of_zero_le (by omega : 0 ≤ 23 - Int.log 2 ((a : ℚ) / b))
    have hexp : Int.log 2 |(a : ℚ) / b| - 23 = -(m : ℤ) := by
      rw [abs_of_pos hq]
      omega
    have hMpos : (0 : ℚ) < 2 ^ m := by positivity
    -- half a last bit is less than one part of the denominator
    have hhalf : (b : ℚ) < 2 * 2 ^ m := by
      have hlow : (2 : ℚ) ^ (23 : ℤ) / 2 ^ m ≤ a / b := by
        refine le_trans (le_of_eq ?_) hlog
        have hlogEq : Int.log 2 ((a : ℚ) / b) = 23 - m := by omega
        rw [hlogEq, zpow_sub₀ two_ne_zero, zpow_natCast]
      rw [div_le_div_iff₀ hMpos hbq] at hlow
      have haq : (a : ℚ) < 2 ^ (24 : ℤ) := by exact_mod_cast ha
      have hmul : (2 : ℚ) ^ (23 : ℤ) * b < 2 ^ (24 : ℤ) * 2 ^ m :=
        hlow.trans_lt (mul_lt_mul_of_pos_right haq hMpos)
      norm_num at hmul
      linarith
    have hfloat : toFloat32 ((a : ℚ) / b) = roundHalfEven ((a : ℚ) / b * 2 ^ m) / 2 ^ m := by
      rw [toFloat32, if_neg hq.ne', hexp, zpow_neg, zpow_natCast, div_inv_eq_mul, div_eq_mul_inv _ (2 ^ m : ℚ)]
    have hdiv : ((a / b : ℕ) : ℚ) ≤ a / b := Nat.cast_div_le
    have hnext : (a : ℚ) / b ≤ ((a / b : ℕ) : ℚ) + 1 - 1 / b := by
      have hnat : a + 1 ≤ (a / b + 1) * b := by
        have := Nat.lt_div_mul_add hb (a := a)
        rw [Nat.succ_mul]
        omega
      have hcast : (a : ℚ) + 1 ≤ (((a / b : ℕ) : ℚ) + 1) * b := by exact_mod_cast hnat
      rw [div_le_iff₀ hbq, sub_mul, one_div_mul_cancel hbq.ne']
      linarith
    rw [hfloat]
    generalize a / b = k at hdiv hnext ⊢
    have hlower : (k : ℤ) * 2 ^ m ≤ roundHalfEven ((a : ℚ) / b * 2 ^ m) := by
      refine le_roundHalfEven ?_
      push_cast
      exact mul_le_mul_of_nonneg_right hdiv hMpos.le
    have hupper : (roundHalfEven ((a : ℚ) / b * 2 ^ m) : ℚ) < ((k : ℤ) + 1) * 2 ^ m := by
      have hround := roundHalfEven_le ((a : ℚ) / b * 2 ^ m)
      have hscaled := mul_le_mul_of_nonneg_right hnext hMpos.le
      have hpart : 1 / 2 < 1 / (b : ℚ) * 2 ^ m := by
        rw [one_div_mul_eq_div, div_lt_div_iff₀ two_pos hbq]
        linarith
      rw [sub_mul] at hscaled
      push_cast
      linarith
    generalize roundHalfEven ((a : ℚ) / b * 2 ^ m) = r at hlower hupper ⊢
    have hlowerQ : ((k : ℤ) : ℚ) * 2 ^ m ≤ r := by exact_mod_cast hlower
    have hfloor : ⌊(r : ℚ) / 2 ^ m⌋ = k := by
      rw [Int.floor_eq_iff, le_div_iff₀ hMpos, div_lt_iff₀ hMpos]
      exact ⟨hlowerQ, hupper⟩
    have hnonneg : (0 : ℚ) ≤ r / 2 ^ m :=
      div_nonneg ((by positivity : (0 : ℚ) ≤ ((k : ℤ) : ℚ) * 2 ^ m).trans hlowerQ) hMpos.le
    rw [truncate, if_pos hnonneg, hfloor]

/-- **Sums up to `2²⁴` are exact.** -/
theorem floatCumsum_eq : ∀ {xs : List ℤ} {s : ℤ}, (∀ x ∈ xs, 0 ≤ x) → 0 ≤ s →
    s + xs.sum ≤ 2 ^ 24 → floatCumsum s (xs.map Int.cast) = (cumsum s xs).map Int.cast
  | [], _, _, _, _ => rfl
  | x :: xs, s, h, hs, hsum => by
    rw [List.sum_cons] at hsum
    have hx := h x (.head _)
    have htail : 0 ≤ xs.sum := List.sum_nonneg fun y hy => h y (.tail _ hy)
    have hexact : toFloat32 ((s : ℚ) + x) = ((s + x : ℤ) : ℚ) := by
      rw [← Int.cast_add]
      exact toFloat32_intCast (abs_le.mpr ⟨by omega, by omega⟩)
    have ih := floatCumsum_eq (s := s + x) (fun y hy => h y (.tail _ hy)) (by omega)
      (by omega)
    rw [List.map_cons, floatCumsum, hexact, ih, cumsum, List.map_cons]

/-- **Sums of integers are exact** while they stay small. -/
theorem floatSum_eq {xs : List ℤ} (h : ∀ x ∈ xs, 0 ≤ x) (hsum : xs.sum ≤ 2 ^ 24) :
    floatSum (xs.map Int.cast) = xs.sum := by
  have key : ∀ (xs : List ℤ) (s : ℤ), (∀ x ∈ xs, 0 ≤ x) → 0 ≤ s → s + xs.sum ≤ 2 ^ 24 →
      (xs.map (Int.cast : ℤ → ℚ)).foldl (fun s x => toFloat32 (s + x)) s = ((s + xs.sum : ℤ) : ℚ) := by
    intro xs
    induction xs with
    | nil => simp
    | cons x xs ih =>
      intro s h hs hsum
      rw [List.sum_cons] at hsum
      have hx := h x (.head _)
      have hrest := List.sum_nonneg fun y hy => h y (.tail x hy)
      have hstep : toFloat32 ((s : ℚ) + x) = ((s + x : ℤ) : ℚ) := by
        rw [← Int.cast_add]
        exact toFloat32_intCast (abs_le.mpr ⟨by omega, by omega⟩)
      rw [List.map_cons, List.foldl_cons, hstep, ih (s + x) (fun y hy => h y (.tail x hy)) (by omega)
        (by omega), List.sum_cons, add_assoc]
  have hall := key xs 0 h le_rfl (by rwa [zero_add])
  rwa [Int.cast_zero, zero_add] at hall

end Machinery
