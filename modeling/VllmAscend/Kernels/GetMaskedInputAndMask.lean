import VllmAscend.Machinery.BlockSplit
import VllmAscend.Ops.VocabParallelEmbedding

/-!
# Kernels/GetMaskedInputAndMask — the masking kernel and the Python function

    max(x, v) - v     0 when x ≤ v, else at least 1
    min(|·|, 2⁻¹²⁶) · 2⁵⁰ · 2⁵⁰ · 2²⁶     0 or 1

The kernel compares by saturating arithmetic on floats, which here are exact rationals, and both of its
tests let equality pass: a range includes its end.  It works in blocks of a length rounded up to 32,
which miss the last id when the length is a multiple of 32 already and the split leaves a remainder.
Everywhere else it is `get_masked_input_and_mask` (`custom_matches_iff`).
-/

namespace VllmAscend

open Machinery

/-! ## One id -/

def minAccuracyFp32 : ℚ := 1 / 2 ^ 126

def maxMul1Fp32 : ℚ := 1125899906842624

def maxMul2Fp32 : ℚ := 67108864

def negativeOneFp32 : ℚ := -1

/-- `Cast` of a float that is a small integer to `int8_t`. -/
def castInt8 (x : ℚ) : BitVec 8 := BitVec.ofInt 8 ⌊x⌋

/-- `Cast` of an `int8_t` to a float. -/
def castFloat (b : BitVec 8) : ℚ := b.toInt

def compareWithValue (input compareValue : ℚ) (isGreaterEqual : Bool) : BitVec 8 :=
  let computeBuf :=
    if isGreaterEqual then compareValue - max input compareValue
    else max input compareValue - compareValue
  let computeBuf := min |computeBuf| minAccuracyFp32
  let computeBuf := computeBuf * maxMul1Fp32 * maxMul1Fp32 * maxMul2Fp32
  castInt8 |computeBuf + negativeOneFp32|

def computeRangeMask (input startValue endValue : ℚ) : BitVec 8 :=
  let geResult := compareWithValue startValue input true
  let ltResult := compareWithValue input endValue false
  geResult &&& ltResult

/-- `Compute` on one element: the masked id and the mask. -/
def compute (s : ShardIndices) (input : ℤ) : ℤ × Bool :=
  let addedOffset := s.addedVocabStartIndex - (s.orgVocabEndIndex - s.orgVocabStartIndex) -
    s.numOrgVocabPadding
  let inputFloat : ℚ := input
  let orgVocabMask := computeRangeMask inputFloat s.orgVocabStartIndex s.orgVocabEndIndex
  let addedVocabMask := computeRangeMask inputFloat s.addedVocabStartIndex s.addedVocabEndIndex
  let validOffset := s.orgVocabStartIndex * castFloat orgVocabMask +
    addedOffset * castFloat addedVocabMask
  let vocabMask := orgVocabMask ||| addedVocabMask
  let inputFloat := (inputFloat - validOffset) * castFloat vocabMask
  (⌈inputFloat⌉, castInt8 (1 - castFloat vocabMask) != 0)

/-! ## The blocks -/

/-- The two output tensors. -/
structure MaskedOutput where
  maskedInput : List ℤ
  mask : List Bool

/-- Place `e` is in the block of `size` places from `start` on. -/
def InBlock (start : ℤ) (size e : ℕ) : Prop := start ≤ e ∧ (e : ℤ) < start + size

instance (start : ℤ) (size e : ℕ) : Decidable (InBlock start size e) :=
  inferInstanceAs (Decidable (_ ∧ _))

/-- The places of a tensor that satisfy `p` are written. -/
def overwriteAt {α : Type} (f : ℕ → α) (p : ℕ → Prop) [DecidablePred p] (out : List α) : List α :=
  out.mapIdx fun e v => if p e then f e else v

/-- `Process` on a block; what it writes behind the end of a tensor is not part of it. -/
def process (s : ShardIndices) (input : List ℤ) (start : ℤ) (size : ℕ) (out : MaskedOutput) :
    MaskedOutput where
  maskedInput := overwriteAt (fun e => (compute s (input.getD e 0)).1) (InBlock start size)
    out.maskedInput
  mask := overwriteAt (fun e => (compute s (input.getD e 0)).2) (InBlock start size) out.mask

/-- The `int64_t` of an integer. -/
def int64 (x : ℤ) : ℤ := x.bmod (2 ^ 64)

/-- `i * size/loop_cnt` -/
def blockOffset (size loopCnt i : ℕ) : ℤ := (int64 (i * size)).tdiv loopCnt

/-- The rounds of the loop on core `blockIdx`: `blockIdx`, `blockIdx + aivNum` and so on. -/
def coreBlocks (loopCnt aivNum blockIdx : ℕ) : List ℕ :=
  List.range' blockIdx ((loopCnt - blockIdx + aivNum - 1) / aivNum) aivNum

/-- `get_masked_input_and_mask_kernel` on all cores. -/
def getMaskedInputAndMaskKernel (s : ShardIndices) (input : List ℤ) (loopCnt aivNum : ℕ)
    (out : MaskedOutput) : MaskedOutput :=
  (List.range aivNum).foldl (fun out blockIdx =>
    (coreBlocks loopCnt aivNum blockIdx).foldl (fun out i =>
      process s input (blockOffset input.length loopCnt i)
        (roundUp 32 (input.length / loopCnt)) out) out) out

/-- `uint32_t loop_cnt` -/
def loopCnt (size aivNum : ℕ) : ℕ := (size + aivNum - 1) / aivNum % 2 ^ 32

/-- `get_masked_input_and_mask` of the extension: the tensors are allocated, not initialised. -/
def customMaskedInputAndMask (s : ShardIndices) (input : List ℤ) (aivNum : ℕ)
    (allocated : MaskedOutput) : MaskedOutput :=
  getMaskedInputAndMaskKernel s input (loopCnt input.length aivNum) (aivNum % 2 ^ 32) allocated

/-- What the `TORCH_CHECK`s ask for. -/
structure ShardIndices.Checked (s : ShardIndices) : Prop where
  org_nonneg : 0 ≤ s.orgVocabStartIndex
  org_le : s.orgVocabStartIndex ≤ s.orgVocabEndIndex
  padding_nonneg : 0 ≤ s.numOrgVocabPadding
  added_ge : s.orgVocabEndIndex ≤ s.addedVocabStartIndex
  added_le : s.addedVocabStartIndex ≤ s.addedVocabEndIndex

/-! ## The saturating comparisons -/

/-- **Zero becomes one and every other integer zero.** -/
theorem saturate_eq (d : ℤ) :
    castInt8 |min |(d : ℚ)| minAccuracyFp32 * maxMul1Fp32 * maxMul1Fp32 * maxMul2Fp32 +
      negativeOneFp32| = if d = 0 then 1#8 else 0#8 := by
  split
  · next hzero =>
    subst hzero
    have hmin : min |((0 : ℤ) : ℚ)| minAccuracyFp32 = 0 := by
      rw [Int.cast_zero, abs_zero]
      exact min_eq_left (by norm_num [minAccuracyFp32])
    rw [hmin]
    norm_num [negativeOneFp32, castInt8]
  · next hne =>
    have hone : (1 : ℚ) ≤ |(d : ℚ)| := by
      rw [← Int.cast_abs]
      exact_mod_cast Int.one_le_abs hne
    have hmin : min |(d : ℚ)| minAccuracyFp32 = minAccuracyFp32 := by
      refine min_eq_right (le_trans ?_ hone)
      norm_num [minAccuracyFp32]
    rw [hmin]
    norm_num [minAccuracyFp32, maxMul1Fp32, maxMul2Fp32, negativeOneFp32, castInt8]

theorem compareWithValue_ge (start x : ℤ) :
    compareWithValue start x true = if start ≤ x then 1#8 else 0#8 := by
  have hsub : (x : ℚ) - max (start : ℚ) x = ((x - max start x : ℤ) : ℚ) := by push_cast; rfl
  unfold compareWithValue
  simp only [if_true, hsub, saturate_eq]
  congr 1
  rw [eq_iff_iff]
  omega

/-- **The test against the end lets the end itself pass.** -/
theorem compareWithValue_le (x stop : ℤ) :
    compareWithValue x stop false = if x ≤ stop then 1#8 else 0#8 := by
  have hsub : max (x : ℚ) stop - stop = ((max x stop - stop : ℤ) : ℚ) := by push_cast; rfl
  unfold compareWithValue
  simp only [Bool.false_eq_true, if_false, hsub, saturate_eq]
  congr 1
  rw [eq_iff_iff]
  omega

/-- The `int8_t` of a truth value. -/
def boolInt8 (b : Bool) : BitVec 8 := if b then 1#8 else 0#8

/-- **A range of the kernel includes its end.** -/
theorem computeRangeMask_eq (x start stop : ℤ) :
    computeRangeMask x start stop = boolInt8 (decide (start ≤ x) && decide (x ≤ stop)) := by
  rw [computeRangeMask, compareWithValue_ge, compareWithValue_le]
  by_cases hstart : start ≤ x <;> by_cases hstop : x ≤ stop <;> simp [hstart, hstop, boolInt8]

theorem castFloat_boolInt8 (b : Bool) : castFloat (boolInt8 b) = (b.toInt : ℚ) := by
  cases b <;> rfl

theorem boolInt8_or (a b : Bool) : boolInt8 a ||| boolInt8 b = boolInt8 (a || b) := by
  cases a <;> cases b <;> rfl

theorem castInt8_not (b : Bool) : (castInt8 (1 - (b.toInt : ℚ)) != 0) = !b := by
  cases b with
  | false =>
    norm_num [castInt8]
    decide
  | true =>
    norm_num [castInt8]
    rfl

/-- **The kernel on one id.** -/
theorem compute_eq (s : ShardIndices) (x : ℤ) :
    compute s x =
      let org := decide (s.orgVocabStartIndex ≤ x) && decide (x ≤ s.orgVocabEndIndex)
      let added := decide (s.addedVocabStartIndex ≤ x) && decide (x ≤ s.addedVocabEndIndex)
      ((x - (s.orgVocabStartIndex * org.toInt +
        (s.addedVocabStartIndex - (s.orgVocabEndIndex - s.orgVocabStartIndex) -
          s.numOrgVocabPadding) * added.toInt)) * (org || added).toInt, !(org || added)) := by
  unfold compute
  simp only [computeRangeMask_eq, boolInt8_or, castFloat_boolInt8, castInt8_not]
  rw [Prod.mk.injEq]
  refine ⟨?_, rfl⟩
  rw [← Int.ceil_intCast (R := ℚ) ((x - _) * _)]
  push_cast
  rfl

/-- The ids on which the tests of the kernel make no difference: none is at the end of the added range,
and one at the end of the original range is the first added id on the rank that starts at 0. -/
def ShardIndices.Agrees (s : ShardIndices) (x : ℤ) : Prop :=
  x ≠ s.addedVocabEndIndex ∧ (x ≠ s.orgVocabEndIndex ∨
    s.orgVocabEndIndex = s.addedVocabStartIndex ∧ s.addedVocabStartIndex < s.addedVocabEndIndex ∧
      s.orgVocabStartIndex = 0)

instance (s : ShardIndices) (x : ℤ) : Decidable (s.Agrees x) :=
  inferInstanceAs (Decidable (_ ∧ _))

/-- **Exactly these ids are mapped as in the Python function.** -/
theorem compute_eq_localId_iff {s : ShardIndices} (h : s.Checked) (x : ℤ) :
    compute s x = s.localId x ↔ s.Agrees x := by
  obtain ⟨hnonneg, horgLe, hpad, hge, hle⟩ := h
  rw [compute_eq, localId_eq hge]
  by_cases hadded : x = s.addedVocabEndIndex
  · -- the end of the added range is let in
    have hin : (decide (s.addedVocabStartIndex ≤ x) && decide (x ≤ s.addedVocabEndIndex)) = true := by
      simp only [Bool.and_eq_true, decide_eq_true_eq]
      omega
    have hout : (decide (s.addedVocabStartIndex ≤ x) && decide (x < s.addedVocabEndIndex)) = false := by
      simp only [Bool.and_eq_false_iff, decide_eq_false_iff_not]
      omega
    have horg : (decide (s.orgVocabStartIndex ≤ x) && decide (x < s.orgVocabEndIndex)) = false := by
      simp only [Bool.and_eq_false_iff, decide_eq_false_iff_not]
      omega
    simp only [hin, hout, horg, Bool.or_true, Bool.or_false, Prod.mk.injEq, Bool.not_true,
      Bool.not_false, Bool.false_eq_true, and_false, false_iff]
    exact fun hagrees => hagrees.1 hadded
  · have hlast : decide (x ≤ s.addedVocabEndIndex) = decide (x < s.addedVocabEndIndex) :=
      decide_eq_decide.mpr (by omega)
    by_cases horg : x = s.orgVocabEndIndex
    · have hin : (decide (s.orgVocabStartIndex ≤ x) && decide (x ≤ s.orgVocabEndIndex)) = true := by
        simp only [Bool.and_eq_true, decide_eq_true_eq]
        omega
      have hout : (decide (s.orgVocabStartIndex ≤ x) && decide (x < s.orgVocabEndIndex)) = false := by
        simp only [Bool.and_eq_false_iff, decide_eq_false_iff_not]
        omega
      simp only [hlast, hin, hout, Bool.true_or, Bool.false_or, Prod.mk.injEq, Bool.toInt_true,
        Bool.toInt_false, mul_one, mul_zero, zero_add, Bool.not_true]
      by_cases hstart : s.addedVocabStartIndex ≤ x ∧ x < s.addedVocabEndIndex
      · have hfirst : (decide (s.addedVocabStartIndex ≤ x) &&
            decide (x < s.addedVocabEndIndex)) = true := by simpa using hstart
        simp only [hfirst, Bool.toInt_true, mul_one, one_mul, Bool.not_true, and_true]
        unfold ShardIndices.Agrees
        omega
      · have hnone : (decide (s.addedVocabStartIndex ≤ x) &&
            decide (x < s.addedVocabEndIndex)) = false := by simpa using hstart
        simp only [hnone, Bool.not_false, Bool.false_eq_true, and_false, false_iff]
        unfold ShardIndices.Agrees
        omega
    · have hend : decide (x ≤ s.orgVocabEndIndex) = decide (x < s.orgVocabEndIndex) :=
        decide_eq_decide.mpr (by omega)
      simp only [hlast, hend, mul_comm (x - _)]
      exact iff_of_true trivial ⟨hadded, .inl horg⟩

/-! ## All blocks -/

section Blocks

variable {α : Type} (f : ℕ → α)

theorem overwriteAt_overwriteAt (p q : ℕ → Prop) [DecidablePred p] [DecidablePred q]
    (out : List α) :
    overwriteAt f q (overwriteAt f p out) = overwriteAt f (fun e => p e ∨ q e) out := by
  rw [overwriteAt, overwriteAt, List.mapIdx_mapIdx]
  refine congrArg (List.mapIdx · out) (funext fun e => funext fun v => ?_)
  by_cases hp : p e <;> by_cases hq : q e <;> simp [hp, hq]

theorem overwriteAt_none {p : ℕ → Prop} [DecidablePred p] (hp : ∀ e, ¬ p e) (out : List α) :
    overwriteAt f p out = out := by
  refine List.ext_getElem? fun e => ?_
  simp [overwriteAt, List.getElem?_mapIdx, hp]

theorem overwriteAt_congr {p q : ℕ → Prop} [DecidablePred p] [DecidablePred q]
    (h : ∀ e, p e ↔ q e) (out : List α) : overwriteAt f p out = overwriteAt f q out := by
  simp only [overwriteAt, h]

end Blocks

/-- **Blocks in any order**: a place that is in one of them holds what the kernel computes from the
input there, any other what it held before. -/
theorem foldl_process (s : ShardIndices) (input : List ℤ) (start : ℕ → ℤ) (size : ℕ) :
    ∀ (blocks : List ℕ) (out : MaskedOutput),
      blocks.foldl (fun out i => process s input (start i) size out) out =
        { maskedInput := overwriteAt (fun e => (compute s (input.getD e 0)).1)
            (fun e => ∃ i ∈ blocks, InBlock (start i) size e) out.maskedInput
          mask := overwriteAt (fun e => (compute s (input.getD e 0)).2)
            (fun e => ∃ i ∈ blocks, InBlock (start i) size e) out.mask }
  | [], out => by
    have hnone : ∀ e, ¬ ∃ i ∈ ([] : List ℕ), InBlock (start i) size e := fun e => by simp
    rw [overwriteAt_none _ hnone, overwriteAt_none _ hnone]
    rfl
  | i :: blocks, out => by
    have hexists : ∀ e, InBlock (start i) size e ∨ (∃ k ∈ blocks, InBlock (start k) size e) ↔
        ∃ k ∈ i :: blocks, InBlock (start k) size e := fun e => by simp
    rw [List.foldl_cons, foldl_process s input start size blocks, process, overwriteAt_overwriteAt,
      overwriteAt_overwriteAt, overwriteAt_congr _ hexists, overwriteAt_congr _ hexists]

/-- **The cores share the blocks out.** -/
theorem mem_flatMap_coreBlocks {loopCnt aivNum i : ℕ} (haiv : 0 < aivNum) :
    i ∈ (List.range aivNum).flatMap (coreBlocks loopCnt aivNum) ↔ i < loopCnt := by
  rw [List.mem_flatMap]
  constructor
  · rintro ⟨core, -, hi⟩
    obtain ⟨k, hk, rfl⟩ := List.mem_range'.mp hi
    have hround : k + 1 ≤ (loopCnt - core + aivNum - 1) / aivNum := hk
    rw [Nat.le_div_iff_mul_le haiv, Nat.add_mul, Nat.one_mul, Nat.mul_comm k] at hround
    omega
  · intro hi
    have hmod := Nat.mod_lt i haiv
    have hdiv := Nat.mod_add_div i aivNum
    refine ⟨i % aivNum, List.mem_range.mpr hmod, List.mem_range'.mpr ⟨i / aivNum, ?_, hdiv.symm⟩⟩
    rw [← Nat.succ_le_iff, Nat.le_div_iff_mul_le haiv, Nat.succ_mul, Nat.mul_comm (i / aivNum)]
    omega

/-- Without an overflow a block starts where it should. -/
theorem blockOffset_eq {size loopCnt i : ℕ} (hfits : loopCnt * size < 2 ^ 63) (hi : i < loopCnt) :
    blockOffset size loopCnt i = blockStart size loopCnt i := by
  have hlt : i * size < 2 ^ 63 := (Nat.mul_le_mul_right size hi.le).trans_lt hfits
  have hexact : int64 ((i : ℤ) * size) = ((i * size : ℕ) : ℤ) := by
    rw [int64, ← Nat.cast_mul]
    refine Int.bmod_eq_of_le ?_ ?_
    · omega
    · omega
  rw [blockOffset, hexact]
  exact Int.ofNat_tdiv _ _

/-- The blocks reach every place of a tensor of `size` places: there is nothing to reach, or there are
blocks and cores, and the split leaves no remainder or the length of a block is rounded up. -/
def Covered (size aivNum : ℕ) : Prop :=
  size = 0 ∨ loopCnt size aivNum ≠ 0 ∧ aivNum % 2 ^ 32 ≠ 0 ∧
    (loopCnt size aivNum ∣ size ∨ ¬ 32 ∣ size / loopCnt size aivNum)

instance (size aivNum : ℕ) : Decidable (Covered size aivNum) := inferInstanceAs (Decidable (_ ∨ _))

/-- The places that some block on some core reaches. -/
def Reached (size aivNum e : ℕ) : Prop :=
  ∃ i ∈ (List.range (aivNum % 2 ^ 32)).flatMap (coreBlocks (loopCnt size aivNum) (aivNum % 2 ^ 32)),
    InBlock (blockOffset size (loopCnt size aivNum) i) (roundUp 32 (size / loopCnt size aivNum)) e

instance (size aivNum e : ℕ) : Decidable (Reached size aivNum e) :=
  inferInstanceAs (Decidable (∃ _ ∈ _, _))

/-- **What the extension returns.** -/
theorem customMaskedInputAndMask_eq (s : ShardIndices) (input : List ℤ) (aivNum : ℕ)
    (allocated : MaskedOutput) :
    customMaskedInputAndMask s input aivNum allocated =
      { maskedInput := overwriteAt (fun e => (compute s (input.getD e 0)).1)
          (Reached input.length aivNum) allocated.maskedInput
        mask := overwriteAt (fun e => (compute s (input.getD e 0)).2)
          (Reached input.length aivNum) allocated.mask } := by
  rw [customMaskedInputAndMask, getMaskedInputAndMaskKernel, ← List.foldl_flatMap, foldl_process]
  rfl

/-- Every place is reached exactly when the condition holds. -/
theorem reached_iff_covered {size aivNum : ℕ} (hfits : loopCnt size aivNum * size < 2 ^ 63) :
    (∀ e < size, Reached size aivNum e) ↔ Covered size aivNum := by
  by_cases hsize : size = 0
  · subst hsize
    exact iff_of_true (fun e he => absurd he (Nat.not_lt_zero e)) (.inl rfl)
  · by_cases hcores : aivNum % 2 ^ 32 = 0
    · refine iff_of_false (fun h => ?_) fun h => ?_
      · obtain ⟨i, hi, -⟩ := h 0 (Nat.pos_of_ne_zero hsize)
        rw [hcores] at hi
        simp at hi
      · exact (h.resolve_left hsize).2.1 hcores
    · have hmem : ∀ i, i ∈ (List.range (aivNum % 2 ^ 32)).flatMap
          (coreBlocks (loopCnt size aivNum) (aivNum % 2 ^ 32)) ↔ i < loopCnt size aivNum :=
        fun i => mem_flatMap_coreBlocks (Nat.pos_of_ne_zero hcores)
      by_cases hloop : loopCnt size aivNum = 0
      · refine iff_of_false (fun h => ?_) fun h => (h.resolve_left hsize).1 hloop
        obtain ⟨i, hi, -⟩ := h 0 (Nat.pos_of_ne_zero hsize)
        exact absurd ((hmem i).mp hi) (by omega)
      · have hcover : (∀ e < size, ∃ i < loopCnt size aivNum,
            blockStart size (loopCnt size aivNum) i ≤ e ∧
              e < blockStart size (loopCnt size aivNum) i +
                roundUp 32 (size / loopCnt size aivNum)) ↔
            loopCnt size aivNum ∣ size ∨ ¬ 32 ∣ size / loopCnt size aivNum :=
          blocks_cover_iff (Nat.pos_of_ne_zero hloop) (by decide)
        have hreached : ∀ e, Reached size aivNum e ↔ ∃ i < loopCnt size aivNum,
            blockStart size (loopCnt size aivNum) i ≤ e ∧
              e < blockStart size (loopCnt size aivNum) i +
                roundUp 32 (size / loopCnt size aivNum) := fun e => by
          constructor
          · rintro ⟨i, hi, hstart, hend⟩
            have hlt := (hmem i).mp hi
            rw [blockOffset_eq hfits hlt] at hstart hend
            exact ⟨i, hlt, by omega, by omega⟩
          · rintro ⟨i, hlt, hstart, hend⟩
            refine ⟨i, (hmem i).mpr hlt, ?_⟩
            rw [InBlock, blockOffset_eq hfits hlt]
            omega
        simp only [hreached, hcover, Covered, hsize, false_or, ne_eq, hloop, hcores,
          not_false_eq_true, true_and]

theorem overwriteAt_eq {α : Type} {f : ℕ → α} {p : ℕ → Prop} [DecidablePred p] {out ref : List α}
    (hlen : out.length = ref.length) (h : ∀ e < ref.length, p e ∧ ref[e]? = some (f e)) :
    overwriteAt f p out = ref := by
  refine List.ext_getElem? fun e => ?_
  rw [overwriteAt, List.getElem?_mapIdx]
  by_cases he : e < ref.length
  · obtain ⟨hp, hf⟩ := h e he
    rw [hf, List.getElem?_eq_getElem (hlen ▸ he), Option.map_some, if_pos hp]
  · rw [List.getElem?_eq_none (by omega), List.getElem?_eq_none (by omega)]
    rfl

/-- Memory that holds something else everywhere is overwritten with the reference only where `p`
holds and `f` is the reference. -/
theorem of_overwriteAt_eq {α : Type} {f : ℕ → α} {p : ℕ → Prop} [DecidablePred p] {other : α → α}
    (hother : ∀ v, other v ≠ v) {ref : List α} (h : overwriteAt f p (ref.map other) = ref) {e : ℕ}
    {v : α} (he : ref[e]? = some v) : p e ∧ f e = v := by
  have hget := congrArg (·[e]?) h
  simp only [overwriteAt, List.getElem?_mapIdx, List.getElem?_map, he, Option.map_some,
    Option.some.injEq] at hget
  by_cases hp : p e
  · exact ⟨hp, by rwa [if_pos hp] at hget⟩
  · rw [if_neg hp] at hget
    exact absurd hget (hother v)

/-- **The kernel returns what the Python function returns, whatever the memory it is given holds,
exactly when its blocks reach every place and every id is one on which its tests make no
difference.** -/
theorem custom_matches_iff {s : ShardIndices} (hchecked : s.Checked) {input : List ℤ} {aivNum : ℕ}
    (hfits : loopCnt input.length aivNum * input.length < 2 ^ 63) :
    (∀ allocated : MaskedOutput, allocated.maskedInput.length = input.length →
      allocated.mask.length = input.length →
        ((customMaskedInputAndMask s input aivNum allocated).maskedInput,
          (customMaskedInputAndMask s input aivNum allocated).mask) =
          getMaskedInputAndMask input s.orgVocabStartIndex s.orgVocabEndIndex s.numOrgVocabPadding
            s.addedVocabStartIndex s.addedVocabEndIndex) ↔
      Covered input.length aivNum ∧ ∀ x ∈ input, s.Agrees x := by
  simp only [getMaskedInputAndMask_eq hchecked.added_ge, customMaskedInputAndMask_eq,
    Prod.mk.injEq]
  constructor
  · intro h
    obtain ⟨hids, hmask⟩ := h
      ⟨(input.map fun x => (s.localId x).1).map (· + 1),
        (input.map fun x => (s.localId x).2).map (!·)⟩ (by simp) (by simp)
    have hplace : ∀ e x, input[e]? = some x →
        Reached input.length aivNum e ∧ compute s x = s.localId x := fun e x hx => by
      have hid := of_overwriteAt_eq (fun v : ℤ => by omega) hids (e := e)
        (v := (s.localId x).1) (by rw [List.getElem?_map, hx]; rfl)
      have hbit := of_overwriteAt_eq (fun v : Bool => by cases v <;> decide) hmask (e := e)
        (v := (s.localId x).2) (by rw [List.getElem?_map, hx]; rfl)
      rw [List.getD_eq_getElem?_getD, hx, Option.getD_some] at hid hbit
      exact ⟨hid.1, Prod.ext hid.2 hbit.2⟩
    refine ⟨(reached_iff_covered hfits).mp fun e he => ?_, fun x hx => ?_⟩
    · exact (hplace e _ (List.getElem?_eq_getElem he)).1
    · obtain ⟨e, he⟩ := List.mem_iff_getElem?.mp hx
      exact (compute_eq_localId_iff hchecked x).mp (hplace e x he).2
  · rintro ⟨hcovered, hagrees⟩ allocated hids hmask
    have hreached := (reached_iff_covered hfits).mpr hcovered
    have hplace : ∀ e < input.length, ∃ x, input[e]? = some x ∧
        compute s (input.getD e 0) = s.localId x := fun e he => by
      refine ⟨input[e], List.getElem?_eq_getElem he, ?_⟩
      rw [List.getD_eq_getElem _ _ he]
      exact (compute_eq_localId_iff hchecked _).mpr (hagrees _ (List.getElem_mem he))
    constructor
    · refine overwriteAt_eq (by simpa using hids) fun e he => ?_
      rw [List.length_map] at he
      obtain ⟨x, hx, hcompute⟩ := hplace e he
      exact ⟨hreached e he, by rw [List.getElem?_map, hx, hcompute]; rfl⟩
    · refine overwriteAt_eq (by simpa using hmask) fun e he => ?_
      rw [List.length_map] at he
      obtain ⟨x, hx, hcompute⟩ := hplace e he
      exact ⟨hreached e he, by rw [List.getElem?_map, hx, hcompute]; rfl⟩

/-- The first 65 ids on 40 cores go in two blocks of 32. -/
example : ¬ Covered 65 40 := by decide

/-- A rank with the original ids 0 to 3. -/
def ShardIndices.firstFour : ShardIndices := ⟨0, 4, 0, 4, 4⟩

theorem ShardIndices.firstFour_checked : firstFour.Checked :=
  ⟨by decide, by decide, by decide, by decide, by decide⟩

/-- Its last id is found. -/
theorem custom_matches_last :
    ((customMaskedInputAndMask .firstFour [3] 1 ⟨[9], [true]⟩).maskedInput,
      (customMaskedInputAndMask .firstFour [3] 1 ⟨[9], [true]⟩).mask) =
      getMaskedInputAndMask [3] 0 4 0 4 4 :=
  (custom_matches_iff ShardIndices.firstFour_checked (by decide)).mpr ⟨by decide, by decide⟩
    ⟨[9], [true]⟩ rfl rfl

/-- **The id behind it is not masked.** -/
theorem custom_matches_end :
    ((customMaskedInputAndMask .firstFour [4] 1 ⟨[9], [true]⟩).maskedInput,
      (customMaskedInputAndMask .firstFour [4] 1 ⟨[9], [true]⟩).mask) ≠
      getMaskedInputAndMask [4] 0 4 0 4 4 := by
  decide +kernel

end VllmAscend
