import Mathlib

/-!
# Machinery/FloatBits — sorting integers by their bits, read as floats

    0 …… 0x7F7FFFFF      0x7F800000      0x7F800001 …… 0x7FFFFFFF
    growing numbers      infinity        no numbers

The patterns of the non-negative floats grow with the floats, so the order of the floats is the order of
the patterns as integers, infinity included (`sortLt_natCast`).  All patterns behind infinity are NaN,
and a sort does not tell them apart (`sortLt_nan`).
-/

namespace Machinery

/-- What 32 bits stand for as a float. -/
inductive Float32Value where
  | nan
  | inf (negative : Bool)
  | finite (value : ℚ)
  deriving DecidableEq

/-- The absolute value, in units of `2⁻¹⁴⁹`. -/
def magnitude (exponent fraction : ℕ) : ℕ :=
  if exponent = 0 then fraction else (2 ^ 23 + fraction) * 2 ^ (exponent - 1)

def float32Value (b : BitVec 32) : Float32Value :=
  let exponent := b.toNat / 2 ^ 23 % 2 ^ 8
  let fraction := b.toNat % 2 ^ 23
  if exponent = 255 then if fraction = 0 then .inf b.msb else .nan
  else .finite ((if b.msb then -1 else 1) * (magnitude exponent fraction / 2 ^ 149))

/-- The order a sort goes by: NaN is behind everything else. -/
def Float32Value.sortLt : Float32Value → Float32Value → Bool
  | .nan, _ => false
  | _, .nan => true
  | .inf p, .inf q => p && !q
  | .inf p, .finite _ => p
  | .finite _, .inf q => !q
  | .finite p, .finite q => p < q

/-- `x < y` for a sort of float patterns. -/
def sortLt (a b : BitVec 32) : Bool := (float32Value a).sortLt (float32Value b)

theorem sortLt_irrefl (a : BitVec 32) : sortLt a a = false := by
  rw [sortLt]
  cases float32Value a with
  | nan => rfl
  | inf negative => cases negative <;> rfl
  | finite value => simp [Float32Value.sortLt]

/-! ## The patterns of the non-negative floats -/

/-- **The magnitude grows with the pattern.** -/
theorem magnitude_lt_succ (x : ℕ) :
    magnitude (x / 2 ^ 23) (x % 2 ^ 23) < magnitude ((x + 1) / 2 ^ 23) ((x + 1) % 2 ^ 23) := by
  have hlt := Nat.mod_lt x (Nat.two_pow_pos 23)
  by_cases hcarry : x % 2 ^ 23 + 1 < 2 ^ 23
  · -- the fraction grows
    have hdiv : (x + 1) / 2 ^ 23 = x / 2 ^ 23 := by omega
    have hmod : (x + 1) % 2 ^ 23 = x % 2 ^ 23 + 1 := by omega
    rw [hdiv, hmod, magnitude, magnitude]
    split
    · exact Nat.lt_succ_self _
    · exact Nat.mul_lt_mul_of_pos_right (by omega) (Nat.two_pow_pos _)
  · -- the fraction is full, and the exponent grows
    have hdiv : (x + 1) / 2 ^ 23 = x / 2 ^ 23 + 1 := by omega
    have hmod : (x + 1) % 2 ^ 23 = 0 := by omega
    rw [hdiv, hmod, magnitude, magnitude, if_neg (Nat.succ_ne_zero _), Nat.add_sub_cancel]
    split
    · next hzero =>
      rw [hzero]
      omega
    · next hpos =>
      obtain ⟨e, he⟩ := Nat.exists_eq_succ_of_ne_zero hpos
      rw [he, Nat.succ_sub_one]
      calc (2 ^ 23 + x % 2 ^ 23) * 2 ^ e
          < 2 ^ 24 * 2 ^ e := Nat.mul_lt_mul_of_pos_right (by omega) (Nat.two_pow_pos e)
        _ = (2 ^ 23 + 0) * 2 ^ (e + 1) := by ring

theorem magnitude_strictMono :
    StrictMono fun x : ℕ => magnitude (x / 2 ^ 23) (x % 2 ^ 23) :=
  strictMono_nat_of_lt_succ magnitude_lt_succ

theorem msb_ofNat {x : ℕ} (h : x < 2 ^ 31) : (BitVec.ofNat 32 x).msb = false := by
  rw [BitVec.msb_eq_decide, BitVec.toNat_ofNat, Nat.mod_eq_of_lt (by omega)]
  simpa using h

theorem float32Value_finite {x : ℕ} (h : x < 0x7F800000) :
    float32Value (BitVec.ofNat 32 x) =
      .finite (magnitude (x / 2 ^ 23) (x % 2 ^ 23) / 2 ^ 149) := by
  have hx : (BitVec.ofNat 32 x).toNat = x := by
    rw [BitVec.toNat_ofNat, Nat.mod_eq_of_lt (by omega)]
  have hexp : x / 2 ^ 23 % 2 ^ 8 = x / 2 ^ 23 := by omega
  have hne : x / 2 ^ 23 ≠ 255 := by omega
  rw [float32Value, hx, msb_ofNat (by omega), hexp, if_neg hne, if_neg Bool.false_ne_true, one_mul]

theorem float32Value_nan {x : ℕ} (hlow : 0x7F800000 < x) (hhigh : x < 2 ^ 31) :
    float32Value (BitVec.ofNat 32 x) = .nan := by
  have hx : (BitVec.ofNat 32 x).toNat = x := by
    rw [BitVec.toNat_ofNat, Nat.mod_eq_of_lt (by omega)]
  have hexp : x / 2 ^ 23 % 2 ^ 8 = 255 := by omega
  have hne : x % 2 ^ 23 ≠ 0 := by omega
  rw [float32Value, hx, hexp, if_pos rfl, if_neg hne]

theorem float32Value_inf : float32Value (BitVec.ofNat 32 0x7F800000) = .inf false := by
  decide +kernel

/-- **A sort does not tell the patterns behind infinity apart.** -/
theorem sortLt_nan {x y : ℕ} (hx : 0x7F800000 < x) (hx' : x < 2 ^ 31) :
    sortLt (BitVec.ofNat 32 x) (BitVec.ofNat 32 y) = false := by
  rw [sortLt, float32Value_nan hx hx']
  rfl

/-- **Smaller integers come first**, up to the first pattern behind infinity. -/
theorem sortLt_of_lt {x y : ℕ} (h : x < y) (hy : y ≤ 0x7F800001) :
    sortLt (BitVec.ofNat 32 x) (BitVec.ofNat 32 y) = true := by
  rw [sortLt]
  by_cases hnan : y = 0x7F800001
  · rw [float32Value_nan (by omega) (by omega : y < 2 ^ 31)]
    by_cases hinf : x = 0x7F800000
    · rw [hinf, float32Value_inf]
      rfl
    · rw [float32Value_finite (by omega)]
      rfl
  · rw [float32Value_finite (by omega)]
    by_cases hinf : y = 0x7F800000
    · rw [hinf, float32Value_inf]
      rfl
    · rw [float32Value_finite (by omega)]
      have hlt : (magnitude (x / 2 ^ 23) (x % 2 ^ 23) : ℚ) < magnitude (y / 2 ^ 23) (y % 2 ^ 23) := by
        exact_mod_cast magnitude_strictMono h
      exact decide_eq_true (div_lt_div_of_pos_right hlt (by positivity))

theorem sortLt_natCast {x y : ℕ} (hx : x ≤ 0x7F800001) (hy : y ≤ 0x7F800001) :
    sortLt (BitVec.ofNat 32 x) (BitVec.ofNat 32 y) = decide (x < y) := by
  obtain hlt | rfl | hgt := lt_trichotomy x y
  · rw [sortLt_of_lt hlt hy, decide_eq_true hlt]
  · rw [sortLt_irrefl, decide_eq_false (lt_irrefl _)]
  · have hback := sortLt_of_lt hgt hx
    rw [decide_eq_false hgt.not_gt]
    -- the sort order is asymmetric
    rw [sortLt] at hback ⊢
    generalize float32Value (BitVec.ofNat 32 x) = a at hback ⊢
    generalize float32Value (BitVec.ofNat 32 y) = b at hback ⊢
    cases a with
    | nan => rfl
    | inf p =>
      cases b with
      | nan => cases hback
      | inf q => cases p <;> cases q <;> simp_all [Float32Value.sortLt]
      | finite q => cases p <;> simp_all [Float32Value.sortLt]
    | finite p =>
      cases b with
      | nan => cases hback
      | inf q => cases q <;> simp_all [Float32Value.sortLt]
      | finite q =>
        simp only [Float32Value.sortLt, decide_eq_true_eq, decide_eq_false_iff_not] at hback ⊢
        exact hback.not_gt

end Machinery
