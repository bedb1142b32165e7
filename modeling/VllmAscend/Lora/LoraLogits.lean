import Mathlib.Algebra.CharZero.Defs
import VllmAscend.Lora.PunicaNpu
import VllmAscend.Machinery.Strided

/-!
# Lora/LoraLogits — the adapters of the sampled tokens

    documented   y_t += scale * (x_t A_i) B_i             for i = sampler_indices[t], nothing for -1
    computed     A_i, B_i read through transposed views, the indices clamped when one is too large

`PunicaWrapperNPU.add_lora_logits`.  The kernels read the views row after row, whatever their strides, so a
stack must lie in memory transposed (`Strided.IsRowMajorAt`); and one index that is too large turns every
`-1` into adapter `0`.  These, with what the operators check, are the only ways to miss the documented law
(`followsLaw_iff`).
-/

namespace VllmAscend

open Machinery

variable {R : Type}

/-- The layout of `lora_a_stacked` or `lora_b_stacked`: one matrix, or a stack of them. -/
inductive LoraLayout where
  | matrix (size0 size1 stride0 stride1 : ℕ)
  | stack (layout : Strided)

/-- The layout after `unsqueeze(0)` of a single matrix. -/
def LoraLayout.unsqueezed : LoraLayout → Strided
  | matrix size0 size1 stride0 stride1 => ⟨1, size0, size1, size0 * stride0, stride0, stride1⟩
  | stack layout => layout

namespace PunicaWrapperNPU

/-- The weight that an operator is given: the sizes of the view, and memory from `data_ptr` on. -/
def weightOf (s : Strided) (data : ℕ → R) : LoraWeight R := ⟨s.size1, s.size2, data⟩

/-- `indices`, all of them clamped when one is too large.  `max` fails on an empty tensor. -/
def clampIndices (numLoras : ℕ) (samplerIndices : List ℤ) : Option (List ℤ) := do
  let largest ← samplerIndices.max?
  return if largest ≥ numLoras then samplerIndices.map fun i => min (max i 0) (numLoras - 1)
    else samplerIndices

section Operations

variable [CommRing R] (device : VectorDevice)

/-- `add_lora_logits` on `y` and `x` as matrices. -/
def addLoraLogits (samplerIndices : List ℤ) (y x : Tensor2 R) (layoutA : LoraLayout) (dataA : ℕ → R)
    (layoutB : LoraLayout) (dataB : ℕ → R) (scale : R) (buffer : Option (Tensor2 R)) :
    Option (Tensor2 R) := do
  let loraAStacked := layoutA.unsqueezed
  let loraBStacked := layoutB.unsqueezed
  let r := loraAStacked.size2
  let buffer := buffer.getD ⟨x.size0, r, fun _ => 0⟩
  let indices ← clampIndices loraAStacked.size0 samplerIndices
  let buffer ← bgmvShrink device 0 x (weightOf loraAStacked.transposed dataA) indices buffer scale
  bgmvExpand device 1 buffer (weightOf loraBStacked.transposed dataB) indices y 0 y.size1

end Operations

/-! ## Calls -/

/-- The shapes of a call: the stack `A` is `[num_loras, hidden, rank]`, the stack `B` is
`[num_loras, rank, vocab]`, each with its own strides. -/
structure LogitsShape where
  numLoras : ℕ
  hidden : ℕ
  rank : ℕ
  vocab : ℕ
  layoutA : LoraLayout
  layoutB : LoraLayout
  numLoras_pos : 0 < numLoras
  hidden_pos : 0 < hidden
  rank_pos : 0 < rank
  vocab_pos : 0 < vocab
  sizes_a : layoutA.unsqueezed.size0 = numLoras ∧ layoutA.unsqueezed.size1 = hidden ∧
    layoutA.unsqueezed.size2 = rank
  sizes_b : layoutB.unsqueezed.size0 = numLoras ∧ layoutB.unsqueezed.size1 = rank ∧
    layoutB.unsqueezed.size2 = vocab

namespace LogitsShape

/-- The matrices of a call, for `n` rows. -/
structure IsCall (s : LogitsShape) (n : ℕ) (y x : Tensor2 R) (buffer : Option (Tensor2 R)) : Prop where
  y_size0 : y.size0 = n
  y_size1 : y.size1 = s.vocab
  x_size0 : x.size0 = n
  x_size1 : x.size1 = s.hidden
  buffer_sizes : ∀ b ∈ buffer, b.size0 = n ∧ b.size1 = s.rank

/-- A row times the two matrices of an adapter, given by their entries. -/
def product [CommRing R] (s : LogitsShape) (row : ℕ → R) (a b : ℕ → ℕ → R) (v : ℕ) : R :=
  ((List.range s.rank).map fun k =>
    ((List.range s.hidden).map fun c => row c * a c k).sum * b k v).sum

/-- **The documented law**: a row with an adapter gains `scale * (x_t A_i) B_i`, a row with index `-1`
stays. -/
def FollowsLaw (R : Type) [CommRing R] (s : LogitsShape) (samplerIndices : List ℤ) : Prop :=
  ∀ (device : VectorDevice) (y x : Tensor2 R) (dataA dataB : ℕ → R) (scale : R)
    (buffer : Option (Tensor2 R)), s.IsCall samplerIndices.length y x buffer →
    ∃ y', addLoraLogits device samplerIndices y x s.layoutA dataA s.layoutB dataB scale buffer = some y' ∧
      y'.size0 = y.size0 ∧ y'.size1 = y.size1 ∧
      ∀ (t : ℕ) (i : ℤ), samplerIndices[t]? = some i → ∀ v < s.vocab,
        (i = -1 → y'.get t v = y.get t v) ∧
        ∀ j : ℕ, i = j → j < s.numLoras → y'.get t v = y.get t v + scale * s.product (x.get t)
          (fun c k => dataA (s.layoutA.unsqueezed.place j c k))
          (fun k v => dataB (s.layoutB.unsqueezed.place j k v)) v

/-- Whether a call follows its law: there are rows, the operators take the sizes, every adapter in use lies
in memory transposed, and no row is without adapter when the indices are clamped. -/
structure Fits (s : LogitsShape) (samplerIndices : List ℤ) : Prop where
  ne_nil : samplerIndices ≠ []
  rank_lt : s.rank < s.hidden
  rank_le : s.rank ≤ s.vocab
  reads : ∀ j : ℕ, (j : ℤ) ∈ samplerIndices → j < s.numLoras →
    s.layoutA.unsqueezed.transposed.IsRowMajorAt j ∧ s.layoutB.unsqueezed.transposed.IsRowMajorAt j
  noClamp : (∃ i ∈ samplerIndices, (s.numLoras : ℤ) ≤ i) → -1 ∉ samplerIndices

/-! ## What is computed -/

/-- What the two kernels add in column `v` of row `t`, for an index. -/
def kernelGain [CommRing R] (s : LogitsShape) (x : Tensor2 R) (dataA dataB : ℕ → R) (scale : R) (i : ℤ)
    (t v : ℕ) : R :=
  if i < 0 then 0
  else scale * s.product (x.get t)
    (fun c k => dataA (s.layoutA.unsqueezed.transposed.rowMajor i.toNat k c))
    (fun k v => dataB (s.layoutB.unsqueezed.transposed.rowMajor i.toNat v k)) v

end LogitsShape

/-- The index of a row after the clamping. -/
theorem clampIndices_eq (numLoras : ℕ) {samplerIndices : List ℤ} (hne : samplerIndices ≠ []) :
    ∃ indices, clampIndices numLoras samplerIndices = some indices ∧
      indices.length = samplerIndices.length ∧
      ∀ (t : ℕ) (i : ℤ), samplerIndices[t]? = some i → bgmvIndex indices t =
        if ∃ j ∈ samplerIndices, (numLoras : ℤ) ≤ j then min (max i 0) (numLoras - 1) else i := by
  obtain ⟨largest, hlargest⟩ := Option.isSome_iff_exists.mp (List.isSome_max?_of_ne_nil hne)
  obtain ⟨hmem, hmax⟩ := List.max?_eq_some_iff.mp hlargest
  have hiff : largest ≥ numLoras ↔ ∃ j ∈ samplerIndices, (numLoras : ℤ) ≤ j :=
    ⟨fun hge => ⟨largest, hmem, hge⟩, fun ⟨j, hj, hge⟩ => hge.trans (hmax j hj)⟩
  rw [clampIndices, hlargest]
  refine ⟨_, rfl, ?_, fun t i hi => ?_⟩
  · split
    · exact List.length_map _
    · rfl
  · rw [bgmvIndex, List.getD_eq_getElem?_getD]
    by_cases hclamp : largest ≥ numLoras
    · rw [if_pos hclamp, if_pos (hiff.mp hclamp), List.getElem?_map, hi]
      rfl
    · rw [if_neg hclamp, if_neg (hclamp ∘ hiff.mpr), hi]
      rfl

section Computed

variable [CommRing R] {s : LogitsShape} {samplerIndices : List ℤ} {y x : Tensor2 R}
  {buffer : Option (Tensor2 R)} {dataA dataB : ℕ → R} {scale : R} {device : VectorDevice}

/-- What the expand operators leave in a row, over all columns. -/
theorem expandImpl_get {index : ℕ → ℤ} {b : Tensor2 R} {weight : LoraWeight R} {t v : ℕ} (launch : ℕ)
    (ht : t < b.size0) (hv : v < y.size1) :
    (expandImpl device launch index b weight y 0 y.size1).get t v =
      y.get t v + if index t < 0 then 0 else dot b.data weight.data (b.size1 * t)
        ((index t).toNat * (b.size1 * y.size1) + v * b.size1) b.size1 := by
  have hother : ∀ idx < b.size0, idx ≠ t →
      (⟨b.data, weight.data, b.size1, y.size1, 0, y.size1⟩ : ExpandArgs R).gain (index idx) idx
        (y.size1 * t + v) = 0 := fun idx _ hne =>
    if_neg fun ⟨_, hlow, hhigh⟩ => hne (row_unique hv hlow hhigh)
  change (expandImpl device launch index b weight y 0 y.size1).data (y.size1 * t + v) = _
  rw [expandImpl_data device launch (Nat.zero_lt_of_lt ht), sum_range_single ht hother]
  refine congrArg (y.get t v + ·) ?_
  rw [ExpandArgs.gain]
  obtain hneg | hnonneg := lt_or_ge (index t) 0
  · rw [if_pos hneg, if_neg (by omega)]
  · simp only [Nat.add_zero]
    rw [if_pos ⟨hnonneg, by omega, by omega⟩, if_neg (not_lt.mpr hnonneg), Nat.add_sub_cancel_left]

/-- A row of the shrunken buffer times a row of the weights, in the words of the law. -/
theorem dot_shrunk {b : Tensor2 R} {i t v : ℕ} (hx : x.size1 = s.hidden) (hb : b.size1 = s.rank)
    (hget : ∀ k < s.rank, b.get t k = dot x.data dataA (x.size1 * t)
      (i * (x.size1 * s.rank) + k * x.size1) x.size1 * scale) :
    dot b.data dataB (b.size1 * t) (i * (b.size1 * s.vocab) + v * b.size1) b.size1 =
      scale * s.product (x.get t)
        (fun c k => dataA (s.layoutA.unsqueezed.transposed.rowMajor i k c))
        (fun k v => dataB (s.layoutB.unsqueezed.transposed.rowMajor i v k)) v := by
  rw [dot, LogitsShape.product, ← List.sum_map_mul_left, hb]
  refine congrArg List.sum (List.map_congr_left fun k hk => ?_)
  have hentry := hget k (List.mem_range.mp hk)
  rw [Tensor2.get, hb, dot, hx] at hentry
  simp only [Strided.rowMajor, Strided.transposed, s.sizes_a, s.sizes_b]
  rw [hentry, mul_comm _ scale, mul_assoc, Nat.mul_comm s.rank s.vocab, Nat.mul_comm s.hidden s.rank]
  simp only [Tensor2.get, hx]

/-- **What a call computes**, when there are rows and the operators take the sizes. -/
theorem addLoraLogits_eq (device : VectorDevice) (dataA dataB : ℕ → R) (scale : R)
    (hcall : s.IsCall samplerIndices.length y x buffer) (hne : samplerIndices ≠ []) (hrank : s.rank < s.hidden)
    (hvocab : s.rank ≤ s.vocab) :
    ∃ y', addLoraLogits device samplerIndices y x s.layoutA dataA s.layoutB dataB scale buffer = some y' ∧
      y'.size0 = y.size0 ∧ y'.size1 = y.size1 ∧
      ∀ (t : ℕ) (i : ℤ), samplerIndices[t]? = some i → ∀ v < s.vocab,
        y'.get t v = y.get t v + s.kernelGain x dataA dataB scale
          (if ∃ j ∈ samplerIndices, (s.numLoras : ℤ) ≤ j then min (max i 0) (s.numLoras - 1) else i) t v := by
  obtain ⟨indices, hclamp, hlength, hindex⟩ := clampIndices_eq s.numLoras hne
  obtain ⟨b, hb, hb0, hb1⟩ : ∃ b, buffer.getD ⟨x.size0, s.rank, fun _ => 0⟩ = b ∧
      b.size0 = samplerIndices.length ∧ b.size1 = s.rank := by
    cases buffer with
    | none => exact ⟨_, rfl, hcall.x_size0, rfl⟩
    | some b => exact ⟨b, rfl, hcall.buffer_sizes b rfl⟩
  have hshrink : bgmvShrink device 0 x (weightOf s.layoutA.unsqueezed.transposed dataA) indices b scale =
      some (shrinkImpl device 0 (bgmvIndex indices) x
        (weightOf s.layoutA.unsqueezed.transposed dataA) b scale) :=
    if_pos ⟨⟨hcall.x_size0.trans hb0.symm, hcall.x_size0.trans hlength.symm⟩, by
      rw [hb1, hcall.x_size1]
      exact hrank⟩
  have hexpand : ∀ b' : Tensor2 R, b'.size0 = b.size0 → b'.size1 = b.size1 →
      bgmvExpand device 1 b' (weightOf s.layoutB.unsqueezed.transposed dataB) indices y 0 y.size1 =
        some (expandImpl device 1 (bgmvIndex indices) b'
          (weightOf s.layoutB.unsqueezed.transposed dataB) y 0 y.size1) := fun b' h0 h1 =>
    if_pos ⟨⟨(h0.trans hb0).trans hcall.y_size0.symm, (h0.trans hb0).trans hlength.symm⟩, by
      rw [h1, hb1, hcall.y_size1]
      exact hvocab, le_rfl⟩
  refine ⟨expandImpl device 1 (bgmvIndex indices)
    (shrinkImpl device 0 (bgmvIndex indices) x (weightOf s.layoutA.unsqueezed.transposed dataA) b scale)
    (weightOf s.layoutB.unsqueezed.transposed dataB) y 0 y.size1, ?_, rfl, rfl, fun t i hi v hv => ?_⟩
  · simp only [addLoraLogits, s.sizes_a, hb, hclamp, Option.bind_eq_bind, Option.bind_some, hshrink]
    exact hexpand _ rfl rfl
  · have ht : t < samplerIndices.length := (List.getElem?_eq_some_iff.mp hi).1
    rw [expandImpl_get 1 (hb0.symm ▸ ht) (hcall.y_size1 ▸ hv), ← hindex t i hi, LogitsShape.kernelGain]
    refine congrArg (y.get t v + ·) ?_
    obtain hneg | hnonneg := lt_or_ge (bgmvIndex indices t) 0
    · rw [if_pos hneg, if_pos hneg]
    · rw [if_neg (not_lt.mpr hnonneg), if_neg (not_lt.mpr hnonneg), hcall.y_size1]
      refine dot_shrunk hcall.x_size1 hb1 fun k hk => ?_
      rw [shrinkImpl_get device 0 (hcall.x_size0.symm ▸ ht) (hb1.symm ▸ hk) hnonneg, hb1]
      rfl

/-- What the operators take. -/
theorem sizes_of_eq_some {y' : Tensor2 R} (hcall : s.IsCall samplerIndices.length y x buffer)
    (h : addLoraLogits device samplerIndices y x s.layoutA dataA s.layoutB dataB scale buffer = some y') :
    samplerIndices ≠ [] ∧ s.rank < s.hidden ∧ s.rank ≤ s.vocab := by
  have hb1 : (buffer.getD ⟨x.size0, s.rank, fun _ => 0⟩).size1 = s.rank := by
    cases buffer with
    | none => rfl
    | some b => exact (hcall.buffer_sizes b rfl).2
  simp only [addLoraLogits, s.sizes_a, Option.bind_eq_bind, Option.bind_eq_some_iff] at h
  obtain ⟨indices, hclamp, b, hshrink, hexpand⟩ := h
  rw [bgmvShrink, Option.ite_none_right_eq_some] at hshrink
  rw [bgmvExpand, Option.ite_none_right_eq_some] at hexpand
  obtain ⟨⟨-, hrank⟩, hb⟩ := hshrink
  obtain ⟨⟨-, hvocab, -⟩, -⟩ := hexpand
  obtain rfl := Option.some.inj hb
  refine ⟨fun hnil => ?_, ?_, ?_⟩
  · rw [hnil] at hclamp
    exact Option.some_ne_none _ hclamp.symm
  · rwa [hb1, hcall.x_size1] at hrank
  · change (buffer.getD ⟨x.size0, s.rank, fun _ => 0⟩).size1 ≤ y.size1 at hvocab
    rwa [hb1, hcall.y_size1] at hvocab

end Computed

/-! ## The law -/

section Law

variable [CommRing R] {s : LogitsShape} {samplerIndices : List ℤ} {x : Tensor2 R} {dataA dataB : ℕ → R}
  {scale : R} {t j v : ℕ}

theorem LogitsShape.product_congr {row : ℕ → R} {a a' b b' : ℕ → ℕ → R}
    (ha : ∀ c < s.hidden, ∀ k < s.rank, a c k = a' c k) (hb : ∀ k < s.rank, b k v = b' k v) :
    s.product row a b v = s.product row a' b' v := by
  refine congrArg List.sum (List.map_congr_left fun k hk => ?_)
  have hsum : ((List.range s.hidden).map fun c => row c * a c k) =
      (List.range s.hidden).map fun c => row c * a' c k :=
    List.map_congr_left fun c hc => by rw [ha c (List.mem_range.mp hc) k (List.mem_range.mp hk)]
  rw [hsum, hb k (List.mem_range.mp hk)]

/-- What an adapter adds is what the law says, where it lies in memory transposed. -/
theorem kernelGain_eq (ha : s.layoutA.unsqueezed.transposed.IsRowMajorAt j)
    (hb : s.layoutB.unsqueezed.transposed.IsRowMajorAt j) (hv : v < s.vocab) :
    s.kernelGain x dataA dataB scale j t v = scale * s.product (x.get t)
      (fun c k => dataA (s.layoutA.unsqueezed.place j c k))
      (fun k v => dataB (s.layoutB.unsqueezed.place j k v)) v := by
  rw [LogitsShape.kernelGain, if_neg (not_lt.mpr (Int.natCast_nonneg j)), Int.toNat_natCast]
  refine congrArg (scale * ·) (LogitsShape.product_congr (fun c hc k hk => ?_) fun k hk => ?_)
  · rw [← ha k (lt_of_lt_of_eq hk s.sizes_a.2.2.symm) c (lt_of_lt_of_eq hc s.sizes_a.2.1.symm),
      Strided.place_transposed]
  · rw [← hb v (lt_of_lt_of_eq hv s.sizes_b.2.2.symm) k (lt_of_lt_of_eq hk s.sizes_b.2.1.symm),
      Strided.place_transposed]

/-- The clamping leaves an adapter alone. -/
theorem clamped_of_lt (hj : j < s.numLoras) {clamped : Prop} [Decidable clamped] :
    (if clamped then min (max (j : ℤ) 0) (s.numLoras - 1) else j) = j := by
  split
  · omega
  · rfl

/-- **A call that fits follows the law.** -/
theorem LogitsShape.Fits.followsLaw (hfits : s.Fits samplerIndices) : s.FollowsLaw R samplerIndices := by
  intro device y x dataA dataB scale buffer hcall
  obtain ⟨y', heq, hsize0, hsize1, hget⟩ := addLoraLogits_eq device dataA dataB scale hcall
    hfits.ne_nil hfits.rank_lt hfits.rank_le
  refine ⟨y', heq, hsize0, hsize1, fun t i hi v hv => ⟨?_, ?_⟩⟩
  · rintro rfl
    rw [hget t _ hi v hv, if_neg fun hlarge => hfits.noClamp hlarge (List.mem_of_getElem? hi)]
    exact add_zero _
  · rintro j rfl hj
    obtain ⟨ha, hb⟩ := hfits.reads j (List.mem_of_getElem? hi) hj
    rw [hget t _ hi v hv, clamped_of_lt hj, kernelGain_eq ha hb hv]

/-- One core, which runs its tokens in order. -/
def sequential : VectorDevice :=
  ⟨1, Nat.one_pos, fun _ cores => cores.flatten, fun _ _ => List.Perm.refl _⟩

/-- What the law says of a call on any `x`, with the rest zero. -/
theorem LogitsShape.FollowsLaw.gain (hlaw : s.FollowsLaw R samplerIndices)
    (hx0 : x.size0 = samplerIndices.length) (hx1 : x.size1 = s.hidden) (dataA dataB : ℕ → R) (scale : R) :
    (samplerIndices ≠ [] ∧ s.rank < s.hidden ∧ s.rank ≤ s.vocab) ∧
    ∀ (t : ℕ) (i : ℤ), samplerIndices[t]? = some i → ∀ v < s.vocab,
      let gain := s.kernelGain x dataA dataB scale
        (if ∃ j ∈ samplerIndices, (s.numLoras : ℤ) ≤ j then min (max i 0) (s.numLoras - 1) else i) t v
      (i = -1 → gain = 0) ∧
      ∀ j : ℕ, i = j → j < s.numLoras → gain = scale * s.product (x.get t)
        (fun c k => dataA (s.layoutA.unsqueezed.place j c k))
        (fun k v => dataB (s.layoutB.unsqueezed.place j k v)) v := by
  have hcall : s.IsCall samplerIndices.length (R := R)
      ⟨samplerIndices.length, s.vocab, fun _ => 0⟩ x none := ⟨rfl, rfl, hx0, hx1, fun b hb => by cases hb⟩
  obtain ⟨y', heq, -, -, hsays⟩ := hlaw sequential _ x dataA dataB scale none hcall
  have hsizes := sizes_of_eq_some hcall heq
  refine ⟨hsizes, fun t i hi v hv => ?_⟩
  obtain ⟨y'', heq', -, -, hget⟩ := addLoraLogits_eq sequential dataA dataB scale hcall hsizes.1
    hsizes.2.1 hsizes.2.2
  obtain rfl := Option.some.inj (heq.symm.trans heq')
  obtain ⟨hnone, hvalid⟩ := hsays t i hi v hv
  rw [hget t i hi v hv] at hnone hvalid
  exact ⟨fun h => add_eq_left.mp (hnone h), fun j h hj => add_left_cancel (hvalid j h hj)⟩

/-- A row with a single one reads one row of the first matrix. -/
theorem LogitsShape.product_single {c : ℕ} (hc : c < s.hidden) {row : ℕ → R}
    (hrow : ∀ c', row c' = if c' = c then 1 else 0) (a b : ℕ → ℕ → R) :
    s.product row a b v = ((List.range s.rank).map fun k => a c k * b k v).sum := by
  refine congrArg List.sum (List.map_congr_left fun k _ => ?_)
  rw [sum_range_single hc fun c' _ hne => by rw [hrow, if_neg hne, zero_mul], hrow, if_pos rfl, one_mul]

/-- What the law says of a row with a single one, in its own words. -/
theorem LogitsShape.FollowsLaw.gain_single (hlaw : s.FollowsLaw R samplerIndices) (dataA dataB : ℕ → R)
    {i : ℤ} (hi : samplerIndices[t]? = some i) (hv : v < s.vocab) {c : ℕ} (hc : c < s.hidden) :
    let index := if ∃ j ∈ samplerIndices, (s.numLoras : ℤ) ≤ j then min (max i 0) (s.numLoras - 1) else i
    let gain := if index < 0 then 0 else ((List.range s.rank).map fun k =>
      dataA (s.layoutA.unsqueezed.transposed.rowMajor index.toNat k c) *
        dataB (s.layoutB.unsqueezed.transposed.rowMajor index.toNat v k)).sum
    (i = -1 → gain = 0) ∧
    ∀ j : ℕ, i = j → j < s.numLoras → gain = ((List.range s.rank).map fun k =>
      dataA (s.layoutA.unsqueezed.place j c k) * dataB (s.layoutB.unsqueezed.place j k v)).sum := by
  have hrow : ∀ c', (⟨samplerIndices.length, s.hidden, fun a => if a = s.hidden * t + c then 1 else 0⟩ :
      Tensor2 R).get t c' = if c' = c then 1 else 0 := fun c' =>
    if_congr Nat.add_left_cancel_iff rfl rfl
  have hgain := (hlaw.gain (x := ⟨samplerIndices.length, s.hidden,
    fun a => if a = s.hidden * t + c then 1 else 0⟩) rfl rfl dataA dataB 1).2 t i hi v hv
  simp only [LogitsShape.kernelGain, LogitsShape.product_single hc hrow, one_mul] at hgain
  exact hgain

variable [CharZero R]

/-- **An adapter in use lies in memory transposed**, where the law holds. -/
theorem LogitsShape.FollowsLaw.reads (hlaw : s.FollowsLaw R samplerIndices)
    (hmem : (j : ℤ) ∈ samplerIndices) (hj : j < s.numLoras) :
    s.layoutA.unsqueezed.transposed.IsRowMajorAt j ∧ s.layoutB.unsqueezed.transposed.IsRowMajorAt j := by
  obtain ⟨t, hi⟩ := List.mem_iff_getElem?.mp hmem
  have hsays := fun (dataA dataB : ℕ → R) (v : ℕ) (hv : v < s.vocab) (c : ℕ) (hc : c < s.hidden) =>
    (hlaw.gain_single dataA dataB hi hv hc).2 j rfl hj
  simp only [clamped_of_lt hj, if_neg (not_lt.mpr (Int.natCast_nonneg j)), Int.toNat_natCast] at hsays
  refine ⟨fun k hk c hc => ?_, fun v hv k hk => ?_⟩
  · rw [Strided.place_transposed]
    refine (reads_eq_of_sum_eq (R := R) (s.layoutA.unsqueezed.transposed.monotone_rowMajor_mid j c)
      (s.layoutA.unsqueezed.monotone_place_last j c) (fun data => ?_) k
      (lt_of_lt_of_eq hk s.sizes_a.2.2)).symm
    have hsum := hsays data (fun _ => 1) 0 s.vocab_pos c (lt_of_lt_of_eq hc s.sizes_a.2.1)
    simpa only [mul_one] using hsum
  · rw [Strided.place_transposed]
    refine (reads_eq_of_sum_eq (R := R) (s.layoutB.unsqueezed.transposed.monotone_rowMajor_last j v)
      (s.layoutB.unsqueezed.monotone_place_mid j v) (fun data => ?_) k
      (lt_of_lt_of_eq hk s.sizes_b.2.1)).symm
    have hsum := hsays (fun _ => 1) data v (lt_of_lt_of_eq hv s.sizes_b.2.2) 0 s.hidden_pos
    simpa only [one_mul] using hsum

/-- **No row is without adapter when the indices are clamped**, where the law holds: it would get the
first one. -/
theorem LogitsShape.FollowsLaw.noClamp (hlaw : s.FollowsLaw R samplerIndices)
    (hlarge : ∃ i ∈ samplerIndices, (s.numLoras : ℤ) ≤ i) : -1 ∉ samplerIndices := by
  intro hmem
  obtain ⟨t, hi⟩ := List.mem_iff_getElem?.mp hmem
  have hsays := (hlaw.gain_single (fun _ => 1) (fun _ => 1) hi s.vocab_pos s.hidden_pos).1 rfl
  have hpos := s.numLoras_pos
  have hindex : min (max (-1) 0) ((s.numLoras : ℤ) - 1) = 0 := by omega
  simp only [if_pos hlarge, hindex, lt_irrefl, if_false, mul_one, List.map_const',
    List.length_range, List.sum_replicate, nsmul_eq_mul, Nat.cast_eq_zero] at hsays
  exact s.rank_pos.ne' hsays

end Law

/-- Both stacks as they are allocated, `[num_loras, hidden, rank]` and `[num_loras, rank, vocab]`. -/
def contiguousShape (numLoras hidden rank vocab : ℕ) (hnumLoras : 0 < numLoras) (hhidden : 0 < hidden)
    (hrank : 0 < rank) (hvocab : 0 < vocab) : LogitsShape :=
  ⟨numLoras, hidden, rank, vocab, .stack (Strided.contiguous numLoras hidden rank),
    .stack (Strided.contiguous numLoras rank vocab), hnumLoras, hhidden, hrank, hvocab, ⟨rfl, rfl, rfl⟩,
    ⟨rfl, rfl, rfl⟩⟩

/-- **Stacks as they are allocated** serve rank one only. -/
theorem LogitsShape.Fits.rank_eq_one {numLoras hidden rank vocab : ℕ} {hnumLoras : 0 < numLoras}
    {hhidden : 0 < hidden} {hrank : 0 < rank} {hvocab : 0 < vocab} {samplerIndices : List ℤ}
    (hfits : (contiguousShape numLoras hidden rank vocab hnumLoras hhidden hrank hvocab).Fits samplerIndices)
    {j : ℕ} (hmem : (j : ℤ) ∈ samplerIndices) (hj : j < numLoras) : rank = 1 := by
  have hlt : rank < hidden := hfits.rank_lt
  obtain hsmall | hsmall :=
    Strided.isRowMajorAt_transposed_contiguous.mp (hfits.reads j hmem hj).1 <;> omega

end PunicaWrapperNPU

end VllmAscend
