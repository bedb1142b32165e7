import VllmAscend.Machinery.Indexed

/-!
# Attention/NzLayout — masks in the NZ layout

    matrix         (r, c)                           R × C, padded to multiples of 16
    NZ layout      [0, c / 16, r, c mod 16]         columns of 16, one after the other

`nd_to_nz_2d` pads, reshapes and transposes; `nd_to_nz_spec` writes into zeros, reshapes and permutes.  Both
return the same tensor, which holds every entry of the matrix once and zeros besides (`ndToNz_eq`).
-/

namespace VllmAscend

namespace NzLayout

open Machinery Shaped

variable {α : Type} [Zero α]

/-- `_round_up` -/
def roundUp (x align : ℕ) : ℕ := (x + align - 1) / align * align

/-- `nd_to_nz_2d` -/
def ndToNz2d (inTensor : Shaped α) : Option (Shaped α) :=
  let auxDims := [1, roundUp (inTensor.size 0) 16, roundUp (inTensor.size 1) 16 / 16, 16]
  let padDims :=
    [0, roundUp (inTensor.size 1) 16 - inTensor.size 1, 0, roundUp (inTensor.size 0) 16 - inTensor.size 0]
  ((inTensor.pad padDims).reshape auxDims).map (transpose · 1 2)

/-- `nd_to_nz_spec` -/
def ndToNzSpec (maskTensor : Shaped α) : Option (Shaped α) :=
  let numTokens := maskTensor.size 0
  let maxSeqLen := maskTensor.size 1
  let tokensPad := (numTokens + 15) / 16 * 16
  let maxSeqLenPad := (maxSeqLen + 15) / 16 * 16
  let maskTensorPad := (zeros [1, tokensPad, maxSeqLenPad]).setFront 0 maskTensor
  (maskTensorPad.reshape [1, tokensPad, maxSeqLenPad / 16, 16]).map (permute · [0, 2, 1, 3])

/-- **The NZ layout** of a matrix. -/
structure IsNz (m : Shaped α) (R C : ℕ) (z : Shaped α) : Prop where
  shape_eq : z.shape = [1, (C + 15) / 16, 16 * ((R + 15) / 16), 16]
  entry_eq : ∀ b r k, b < (C + 15) / 16 → r < 16 * ((R + 15) / 16) → k < 16 →
    z.entry [0, b, r, k] = if r < R ∧ b * 16 + k < C then m.entry [r, b * 16 + k] else 0

/-! ## Indices of four dimensions -/

theorem inBounds₂ {a b i j : ℕ} (hi : i < a) (hj : j < b) : InBounds [a, b] [i, j] := .cons hi (.cons hj .nil)

theorem inBounds₃ {a b c i j k : ℕ} (hi : i < a) (hj : j < b) (hk : k < c) : InBounds [a, b, c] [i, j, k] :=
  .cons hi (inBounds₂ hj hk)

theorem inBounds₄ {a b c d i j k l : ℕ} (hi : i < a) (hj : j < b) (hk : k < c) (hl : l < d) :
    InBounds [a, b, c, d] [i, j, k, l] := .cons hi (inBounds₃ hj hk hl)

variable {m : Shaped α} {R C : ℕ}

/-- The layout is known from its entries. -/
theorem IsNz.unique {z z' : Shaped α} (h : IsNz m R C z) (h' : IsNz m R C z') : z = z' := by
  refine eq_of_entry (h.shape_eq.trans h'.shape_eq.symm) fun idx hidx => ?_
  rw [h.shape_eq] at hidx
  obtain _ | ⟨hi, _ | ⟨hb, _ | ⟨hr, _ | ⟨hk, _ | _⟩⟩⟩⟩ := hidx
  obtain rfl := Nat.lt_one_iff.mp hi
  rw [h.entry_eq _ _ _ hb hr hk, h'.entry_eq _ _ _ hb hr hk]

/-- Rows of a padded matrix, cut into columns of 16. -/
theorem isNz_of_entry {p q z : Shaped α} (front : List ℕ)
    (hplace : ∀ b r k, flatIndex [1, 16 * ((R + 15) / 16), (C + 15) / 16, 16] [0, r, b, k] =
      flatIndex p.shape (front ++ [r, b * 16 + k]))
    (hentry : ∀ r c, r < 16 * ((R + 15) / 16) → c < 16 * ((C + 15) / 16) →
      p.entry (front ++ [r, c]) = if r < R ∧ c < C then m.entry [r, c] else 0)
    (hq : p.reshape [1, 16 * ((R + 15) / 16), (C + 15) / 16, 16] = some q)
    (hshape : z.shape = [1, (C + 15) / 16, 16 * ((R + 15) / 16), 16])
    (hz : ∀ b r k, b < (C + 15) / 16 → r < 16 * ((R + 15) / 16) → k < 16 →
      z.entry [0, b, r, k] = q.entry [0, r, b, k]) : IsNz m R C z :=
  ⟨hshape, fun b r k hb hr hk => by
    rw [hz b r k hb hr hk, entry_of_reshape hq (hplace b r k), hentry r (b * 16 + k) hr (by omega)]⟩

theorem roundUp_eq (n : ℕ) : roundUp n 16 = 16 * ((n + 15) / 16) := Nat.mul_comm _ _

theorem flatIndex_columns (n b r k w : ℕ) :
    flatIndex [1, n, w, 16] [0, r, b, k] = r * (16 * w) + (b * 16 + k) := by
  simp only [flatIndex, List.prod_cons, List.prod_nil]
  ring

/-- **`nd_to_nz_2d`** -/
theorem ndToNz2d_eq (hm : m.shape = [R, C]) : ∃ z, ndToNz2d m = some z ∧ IsNz m R C z := by
  have hR : m.size 0 = R := by rw [size, hm]; rfl
  have hC : m.size 1 = C := by rw [size, hm]; rfl
  have hpadR : R + (16 * ((R + 15) / 16) - R) = 16 * ((R + 15) / 16) := by omega
  have hpadC : C + (16 * ((C + 15) / 16) - C) = 16 * ((C + 15) / 16) := by omega
  set p := m.pad [0, 16 * ((C + 15) / 16) - C, 0, 16 * ((R + 15) / 16) - R] with hp
  have hpshape : p.shape = [16 * ((R + 15) / 16), 16 * ((C + 15) / 16)] := by
    rw [hp, pad_shape hm, hpadR, hpadC]
  have hentry : ∀ r c, r < 16 * ((R + 15) / 16) → c < 16 * ((C + 15) / 16) →
      p.entry [r, c] = if r < R ∧ c < C then m.entry [r, c] else 0 := fun r c hr hc =>
    entry_pad hm (hpadR.symm ▸ hr) (hpadC.symm ▸ hc)
  have hprod : p.data.length = [1, 16 * ((R + 15) / 16), (C + 15) / 16, 16].prod := by
    rw [p.length_data, hpshape]
    simp only [List.prod_cons, List.prod_nil]
    ring
  have hq : p.reshape [1, 16 * ((R + 15) / 16), (C + 15) / 16, 16] = some ⟨_, p.data, hprod⟩ :=
    ofData_eq_some hprod
  refine ⟨transpose ⟨_, p.data, hprod⟩ 1 2, ?_, isNz_of_entry [] (fun b r k => ?_) hentry hq ?_ fun b r k hb hr hk => ?_⟩
  · simp only [ndToNz2d, hR, hC, roundUp_eq, Nat.mul_div_cancel_left _ (Nat.succ_pos 15)]
    rw [hq, Option.map_some]
  · rw [flatIndex_columns, hpshape, List.nil_append]
    simp only [flatIndex, List.prod_cons, List.prod_nil]
    ring
  · rfl
  · exact entry_tabulate (inBounds₄ Nat.one_pos hb hr hk) _

/-- **`nd_to_nz_spec`** -/
theorem ndToNzSpec_eq (hm : m.shape = [R, C]) : ∃ z, ndToNzSpec m = some z ∧ IsNz m R C z := by
  have hR : m.size 0 = R := by rw [size, hm]; rfl
  have hC : m.size 1 = C := by rw [size, hm]; rfl
  set p := (zeros [1, 16 * ((R + 15) / 16), 16 * ((C + 15) / 16)]).setFront 0 m with hp
  have hpshape : p.shape = [1, 16 * ((R + 15) / 16), 16 * ((C + 15) / 16)] := rfl
  have hentry : ∀ r c, r < 16 * ((R + 15) / 16) → c < 16 * ((C + 15) / 16) →
      p.entry [0, r, c] = if r < R ∧ c < C then m.entry [r, c] else 0 := fun r c hr hc => by
    have hin : InBounds [1, 16 * ((R + 15) / 16), 16 * ((C + 15) / 16)] [0, r, c] := inBounds₃ Nat.one_pos hr hc
    rw [hp, setFront, zeros, tabulate_shape, entry_tabulate hin, entry_tabulate hin, hR, hC]
    simp
  have hprod : p.data.length = [1, 16 * ((R + 15) / 16), (C + 15) / 16, 16].prod := by
    rw [p.length_data, hpshape]
    simp only [List.prod_cons, List.prod_nil]
    ring
  have hq : p.reshape [1, 16 * ((R + 15) / 16), (C + 15) / 16, 16] = some ⟨_, p.data, hprod⟩ :=
    ofData_eq_some hprod
  refine ⟨permute ⟨_, p.data, hprod⟩ [0, 2, 1, 3], ?_, isNz_of_entry [0] (fun b r k => ?_) hentry hq ?_ fun b r k hb hr hk => ?_⟩
  · simp only [ndToNzSpec, hR, hC, Nat.mul_comm _ 16, Nat.mul_div_cancel_left _ (Nat.succ_pos 15)]
    rw [hq, Option.map_some]
  · rw [flatIndex_columns, hpshape]
    simp only [flatIndex, List.cons_append, List.nil_append, List.prod_cons, List.prod_nil]
    ring
  · rfl
  · exact entry_tabulate (inBounds₄ Nat.one_pos hb hr hk) _

/-- **Both conversions return the NZ layout**, from which the matrix is known. -/
theorem ndToNz_eq (hm : m.shape = [R, C]) : ∃ z, ndToNz2d m = some z ∧ ndToNzSpec m = some z ∧
    IsNz m R C z ∧ ∀ m' : Shaped α, m'.shape = [R, C] → ndToNz2d m' = some z → m' = m := by
  obtain ⟨z, hz, hnz⟩ := ndToNz2d_eq hm
  obtain ⟨z', hz', hnz'⟩ := ndToNzSpec_eq hm
  refine ⟨z, hz, hnz.unique hnz' ▸ hz', hnz, fun m' hm' hsame => ?_⟩
  obtain ⟨w, hw, hnw⟩ := ndToNz2d_eq hm'
  obtain rfl := Option.some.inj (hw.symm.trans hsame)
  refine eq_of_entry (hm'.trans hm.symm) fun idx hidx => ?_
  rw [hm'] at hidx
  obtain _ | ⟨hr, _ | ⟨hc, _ | _⟩⟩ := hidx
  rename_i r c
  have hb : c / 16 < (C + 15) / 16 := by omega
  have hrow : r < 16 * ((R + 15) / 16) := by omega
  have hk := Nat.mod_lt c (Nat.succ_pos 15)
  have hsplit : c / 16 * 16 + c % 16 = c := Nat.div_add_mod' c 16
  have hfirst := hnw.entry_eq _ r _ hb hrow hk
  have hsecond := hnz.entry_eq _ r _ hb hrow hk
  rw [hsplit, if_pos ⟨hr, hc⟩] at hfirst hsecond
  exact hfirst.symm.trans hsecond

/-- A row of two columns. -/
theorem ndToNz_eq_twoColumns : ∃ z, ndToNz2d (⟨[1, 2], [5, 7], rfl⟩ : Shaped ℕ) = some z ∧
    ndToNzSpec (⟨[1, 2], [5, 7], rfl⟩ : Shaped ℕ) = some z ∧ z.shape = [1, 1, 16, 16] ∧
      z.entry [0, 0, 0, 1] = 7 := by
  obtain ⟨z, hz, hz', hnz, _⟩ := ndToNz_eq (m := (⟨[1, 2], [5, 7], rfl⟩ : Shaped ℕ)) rfl
  exact ⟨z, hz, hz', hnz.shape_eq, hnz.entry_eq 0 0 1 Nat.one_pos (Nat.succ_pos 15)
    (Nat.succ_lt_succ (Nat.succ_pos 14))⟩

end NzLayout

end VllmAscend
