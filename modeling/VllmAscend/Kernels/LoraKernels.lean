import Mathlib.Algebra.BigOperators.Group.List.Basic
import Mathlib.Algebra.Ring.Defs
import VllmAscend.Machinery.Launch

/-!
# Kernels/LoraKernels — the low-rank products of every token

    shrink    y[idx] = scale * (A_l x[idx])                    over the rank
    expand    y[idx][slice] += B_l x[idx]                      over the columns of the slice
    bgmv      l = indices[idx]
    sgmv      l = the index of the segment that idx is in

The four kernels of `csrc/kernels` on the memory of a device, with the operators of `torch_binding` that
launch them.  Two pairs differ only in how they look up the adapter of a token.  Products are exact; what a
token adds does not depend on the others (`expand_eq`, `shrink_eq`).
-/

namespace VllmAscend

open Machinery

variable {R : Type}

/-- The vector cores, and the orders in which the tokens of the cores run, launch by launch. -/
structure VectorDevice where
  aivNum : ℕ
  aivNum_pos : 0 < aivNum
  schedule : ℕ → List (List ℕ) → List ℕ
  schedule_perm : ∀ launch cores, (schedule launch cores).Perm cores.flatten

/-- A two-dimensional tensor: its sizes, and memory from `data_ptr` on. -/
structure Tensor2 (R : Type) where
  size0 : ℕ
  size1 : ℕ
  data : ℕ → R

/-- The entry in a row and a column. -/
def Tensor2.get (t : Tensor2 R) (row col : ℕ) : R := t.data (t.size1 * row + col)

/-- The stacked weights of all adapters, `[num_loras, 1, hidden_out, hidden_in]`. -/
structure LoraWeight (R : Type) where
  hiddenOut : ℕ
  hiddenIn : ℕ
  data : ℕ → R

/-- The entry of an adapter. -/
def LoraWeight.get (w : LoraWeight R) (lora row col : ℕ) : R :=
  w.data (lora * (w.hiddenOut * w.hiddenIn) + row * w.hiddenIn + col)

/-! ## The kernels -/

/-- `CopyInIndex` of the BGMV kernels. -/
def bgmvIndex (indices : List ℤ) (idx : ℕ) : ℤ := indices.getD idx 0

/-- `CopyInIndex` of the SGMV kernels. -/
def sgmvIndex (loraIndices seqLen : List ℤ) (idx : ℕ) : ℤ :=
  let i := segmentIdx seqLen idx
  if i < seqLen.length then loraIndices.getD i 0 else -1

/-- The product of `numElements` entries from two addresses on. -/
def dot [CommRing R] (x w : ℕ → R) (xOffset wOffset numElements : ℕ) : R :=
  ((List.range numElements).map fun k => x (xOffset + k) * w (wOffset + k)).sum

/-- The arguments of `BGMVShrink` and `SGMVShrink`. -/
structure ShrinkArgs (R : Type) where
  x : ℕ → R
  weight : ℕ → R
  inputHiddenDim : ℕ
  maxLoRARank : ℕ
  scale : R

namespace ShrinkArgs

def tileLength : ℕ := 11776

variable [CommRing R]

/-- `ProcessImpl` for row `i`, tile by tile.  A row of one tile is copied in whole, before the tiles. -/
def processImpl (k : ShrinkArgs R) (reqLoRAWeightOffset idx i : ℕ) : R :=
  let incremental := tileLength < k.inputHiddenDim
  let tile := fun j numElements => dot k.x k.weight
    (k.inputHiddenDim * idx + if incremental then j * tileLength else 0)
    (reqLoRAWeightOffset + i * k.inputHiddenDim + j * tileLength) numElements
  let numTiles := k.inputHiddenDim / tileLength
  let acc := (List.range numTiles).foldl (fun acc j => acc + tile j tileLength) 0
  let remaining := k.inputHiddenDim % tileLength
  if remaining = 0 then acc else acc + tile numTiles remaining

/-- `Process` on a token. -/
def process (k : ShrinkArgs R) (reqLoRAIndex : ℤ) (idx : ℕ) (y : ℕ → R) : ℕ → R :=
  if reqLoRAIndex < 0 then y
  else fun a =>
    if k.maxLoRARank * idx ≤ a ∧ a < k.maxLoRARank * idx + k.maxLoRARank then
      k.processImpl (reqLoRAIndex.toNat * (k.inputHiddenDim * k.maxLoRARank)) idx
        (a - k.maxLoRARank * idx) * k.scale
    else y a

end ShrinkArgs

/-- The arguments of `BGMVExpand` and `SGMVExpand`. -/
structure ExpandArgs (R : Type) where
  x : ℕ → R
  weight : ℕ → R
  maxLoRARank : ℕ
  outputHiddenDim : ℕ
  sliceOffset : ℕ
  outputFullDim : ℕ

namespace ExpandArgs

def yOutTileNumElements : ℕ := 4096

variable [CommRing R]

/-- The outputs of a tile: each is the product of a row of the weights, added to what is there. -/
def tile (k : ExpandArgs R) (reqLoRAWeightOffset yOffset idx i numElements : ℕ) (y : ℕ → R) : ℕ → R :=
  fun a =>
    if yOffset + i * yOutTileNumElements ≤ a ∧ a < yOffset + i * yOutTileNumElements + numElements then
      y a + dot k.x k.weight (k.maxLoRARank * idx)
        (reqLoRAWeightOffset + (a - yOffset) * k.maxLoRARank) k.maxLoRARank
    else y a

/-- `Process` on a token. -/
def process (k : ExpandArgs R) (reqLoRAIndex : ℤ) (idx : ℕ) (y : ℕ → R) : ℕ → R :=
  let yOffset := k.outputFullDim * idx + k.sliceOffset
  let reqLoRAWeightOffset := reqLoRAIndex.toNat * (k.maxLoRARank * k.outputHiddenDim)
  let numStreamOut := k.outputHiddenDim / yOutTileNumElements
  let remainingY := k.outputHiddenDim % yOutTileNumElements
  if reqLoRAIndex < 0 then y
  else
    let y := (List.range numStreamOut).foldl
      (fun y i => k.tile reqLoRAWeightOffset yOffset idx i yOutTileNumElements y) y
    if remainingY = 0 then y else k.tile reqLoRAWeightOffset yOffset idx numStreamOut remainingY y

end ExpandArgs

/-- A kernel on all cores: `process` runs on the tokens of each, in the order of the schedule. -/
def VectorDevice.run (device : VectorDevice) (launch batchSize numTokensPerCore : ℕ)
    (process : ℕ → (ℕ → R) → ℕ → R) (y : ℕ → R) : ℕ → R :=
  let blockDim := ceilDiv batchSize numTokensPerCore
  (device.schedule launch ((List.range blockDim).map (coreTasks batchSize numTokensPerCore))).foldl
    (fun y idx => process idx y) y

/-! ## The operators -/

section Operators

variable [CommRing R] (device : VectorDevice) (launch : ℕ)

/-- What both shrink operators launch. -/
def shrinkImpl (index : ℕ → ℤ) (x : Tensor2 R) (weight : LoraWeight R) (y : Tensor2 R) (scale : R) :
    Tensor2 R :=
  let batchSize := x.size0
  let numTokensPerCore := ceilDiv batchSize device.aivNum
  let args := ⟨x.data, weight.data, x.size1, y.size1, scale⟩
  { y with
    data := device.run launch batchSize numTokensPerCore
      (fun idx => ShrinkArgs.process args (index idx) idx) y.data }

/-- What both expand operators launch. -/
def expandImpl (index : ℕ → ℤ) (x : Tensor2 R) (weight : LoraWeight R) (y : Tensor2 R)
    (sliceOffset sliceSize : ℕ) : Tensor2 R :=
  let batchSize := x.size0
  let numTokensPerCore := ceilDiv batchSize device.aivNum
  let args := ⟨x.data, weight.data, x.size1, sliceSize, sliceOffset, y.size1⟩
  { y with
    data := device.run launch batchSize numTokensPerCore
      (fun idx => ExpandArgs.process args (index idx) idx) y.data }

def bgmvShrink (x : Tensor2 R) (weight : LoraWeight R) (indices : List ℤ) (y : Tensor2 R) (scale : R) :
    Option (Tensor2 R) :=
  if (x.size0 = y.size0 ∧ x.size0 = indices.length) ∧ x.size1 > y.size1 then
    some (shrinkImpl device launch (bgmvIndex indices) x weight y scale)
  else none

def bgmvExpand (x : Tensor2 R) (weight : LoraWeight R) (indices : List ℤ) (y : Tensor2 R)
    (sliceOffset sliceSize : ℕ) : Option (Tensor2 R) :=
  if (x.size0 = y.size0 ∧ x.size0 = indices.length) ∧ x.size1 ≤ sliceSize ∧
      sliceSize + sliceOffset ≤ y.size1 then
    some (expandImpl device launch (bgmvIndex indices) x weight y sliceOffset sliceSize)
  else none

def sgmvShrink (x : Tensor2 R) (weight : LoraWeight R) (loraIndices seqLen : List ℤ) (y : Tensor2 R)
    (scale : R) : Option (Tensor2 R) :=
  if x.size1 > y.size1 then
    some (shrinkImpl device launch (sgmvIndex loraIndices seqLen) x weight y scale)
  else none

def sgmvExpand (x : Tensor2 R) (weight : LoraWeight R) (loraIndices seqLen : List ℤ) (y : Tensor2 R)
    (sliceOffset sliceSize : ℕ) : Option (Tensor2 R) :=
  if x.size1 ≤ sliceSize ∧ sliceSize + sliceOffset ≤ y.size1 then
    some (expandImpl device launch (sgmvIndex loraIndices seqLen) x weight y sliceOffset sliceSize)
  else none

end Operators

/-! ## The adapter of a token -/

/-- **Both lookups find the same adapter**, when one list repeats the other by the lengths. -/
theorem sgmvIndex_eq {loraIndices : List ℤ} {lens : List ℕ} (hlength : loraIndices.length = lens.length)
    {idx : ℕ} (hidx : idx < lens.sum) :
    sgmvIndex loraIndices (lens.map Nat.cast) idx = bgmvIndex (repeatInterleave loraIndices lens) idx := by
  obtain ⟨hlt, hget⟩ := getElem?_repeatInterleave hlength hidx
  rw [sgmvIndex, bgmvIndex, List.length_map, if_pos hlt, List.getD_eq_getElem?_getD,
    List.getD_eq_getElem?_getD, hget]

/-! ## Tiles -/

section Tiles

variable [CommRing R]

theorem dot_add (x w : ℕ → R) (xOffset wOffset m n : ℕ) :
    dot x w xOffset wOffset (m + n) = dot x w xOffset wOffset m + dot x w (xOffset + m) (wOffset + m) n := by
  rw [dot, dot, dot, List.range_add, List.map_append, List.sum_append, List.map_map]
  refine congrArg (HAdd.hAdd _) (congrArg List.sum (List.map_congr_left fun k _ => ?_))
  rw [Function.comp_apply, Nat.add_assoc, Nat.add_assoc]

/-- Tile after tile adds up to the product of the whole. -/
theorem foldl_dot (x w : ℕ → R) (xOffset wOffset m : ℕ) : ∀ q : ℕ,
    (List.range q).foldl (fun acc j => acc + dot x w (xOffset + j * m) (wOffset + j * m) m) 0 =
      dot x w xOffset wOffset (q * m)
  | 0 => by simp [dot]
  | q + 1 => by
    rw [List.range_succ, List.foldl_append, foldl_dot x w xOffset wOffset m q, Nat.succ_mul, dot_add]
    rfl

/-- **The tiles of a row give its product.** -/
theorem ShrinkArgs.processImpl_eq (k : ShrinkArgs R) (reqLoRAWeightOffset idx i : ℕ) :
    k.processImpl reqLoRAWeightOffset idx i =
      dot k.x k.weight (k.inputHiddenDim * idx) (reqLoRAWeightOffset + i * k.inputHiddenDim)
        k.inputHiddenDim := by
  have hdiv := Nat.div_add_mod' k.inputHiddenDim tileLength
  rw [processImpl]
  by_cases hinc : tileLength < k.inputHiddenDim
  · simp only [hinc, if_true, foldl_dot]
    split
    · next hzero =>
      rw [hzero, Nat.add_zero] at hdiv
      rw [hdiv]
    · rw [← dot_add, hdiv]
  · -- at most one tile, which the row was copied in for
    simp only [hinc, if_false, Nat.add_zero]
    obtain hlt | heq := (not_lt.mp hinc).lt_or_eq
    · rw [Nat.div_eq_of_lt hlt, Nat.mod_eq_of_lt hlt, List.range_zero, List.foldl_nil]
      split
      · next hzero => rw [hzero, dot, List.range_zero, List.map_nil, List.sum_nil]
      · rw [zero_add, Nat.zero_mul, Nat.add_zero]
    · rw [heq, Nat.mod_self, if_pos rfl, Nat.div_self (by decide), List.range_one, List.foldl_cons,
        List.foldl_nil, zero_add, Nat.zero_mul, Nat.add_zero]

namespace ExpandArgs

/-- What a token adds at an address. -/
def gain (k : ExpandArgs R) (reqLoRAIndex : ℤ) (idx a : ℕ) : R :=
  let yOffset := k.outputFullDim * idx + k.sliceOffset
  if 0 ≤ reqLoRAIndex ∧ yOffset ≤ a ∧ a < yOffset + k.outputHiddenDim then
    dot k.x k.weight (k.maxLoRARank * idx)
      (reqLoRAIndex.toNat * (k.maxLoRARank * k.outputHiddenDim) + (a - yOffset) * k.maxLoRARank)
      k.maxLoRARank
  else 0

/-- Tile after tile the outputs are added, each once. -/
theorem foldl_tile (k : ExpandArgs R) (reqLoRAWeightOffset yOffset idx : ℕ) (y : ℕ → R) (a : ℕ) :
    ∀ q : ℕ, (List.range q).foldl
        (fun y i => k.tile reqLoRAWeightOffset yOffset idx i yOutTileNumElements y) y a =
      y a + if yOffset ≤ a ∧ a < yOffset + q * yOutTileNumElements then
        dot k.x k.weight (k.maxLoRARank * idx)
          (reqLoRAWeightOffset + (a - yOffset) * k.maxLoRARank) k.maxLoRARank else 0
  | 0 => by
    rw [if_neg (by omega), add_zero]
    rfl
  | q + 1 => by
    rw [List.range_succ, List.foldl_append, List.foldl_cons, List.foldl_nil, tile,
      foldl_tile k reqLoRAWeightOffset yOffset idx y a q, Nat.succ_mul]
    by_cases hbelow : a < yOffset + q * yOutTileNumElements
    · rw [if_neg (by omega)]
      exact congrArg (y a + ·) (if_congr (by omega) rfl rfl)
    · rw [if_neg (c := yOffset ≤ a ∧ a < yOffset + q * yOutTileNumElements) (by omega), add_zero]
      by_cases hin : a < yOffset + q * yOutTileNumElements + yOutTileNumElements
      · rw [if_pos (by omega), if_pos (by omega)]
      · rw [if_neg (by omega), if_neg (by omega), add_zero]

/-- **What a token adds does not depend on what is there.** -/
theorem process_eq (k : ExpandArgs R) (reqLoRAIndex : ℤ) (idx : ℕ) (y : ℕ → R) (a : ℕ) :
    k.process reqLoRAIndex idx y a = y a + k.gain reqLoRAIndex idx a := by
  have hdiv := Nat.div_add_mod' k.outputHiddenDim yOutTileNumElements
  simp only [process, gain]
  by_cases hneg : reqLoRAIndex < 0
  · rw [if_pos hneg, if_neg (by omega), add_zero]
  rw [if_neg hneg]
  split
  · next hzero =>
    rw [foldl_tile]
    exact congrArg (y a + ·) (if_congr (by omega) rfl rfl)
  · rw [tile, foldl_tile]
    by_cases hbelow : a < k.outputFullDim * idx + k.sliceOffset +
        k.outputHiddenDim / yOutTileNumElements * yOutTileNumElements
    · rw [if_neg (by omega)]
      exact congrArg (y a + ·) (if_congr (by omega) rfl rfl)
    · rw [if_neg (c := _ ≤ a ∧ a < _ + k.outputHiddenDim / yOutTileNumElements * yOutTileNumElements)
        (by omega), add_zero]
      by_cases hin : a < k.outputFullDim * idx + k.sliceOffset + k.outputHiddenDim
      · rw [if_pos (by omega), if_pos (by omega)]
      · rw [if_neg (by omega), if_neg (by omega), add_zero]

end ExpandArgs

end Tiles

/-! ## Launches -/

section Launches

variable [CommRing R] (device : VectorDevice) (launch : ℕ) {index : ℕ → ℤ} {x y : Tensor2 R}
  {weight : LoraWeight R}

/-- **Every token runs once, on one core**, in whatever order. -/
theorem VectorDevice.schedule_tokens {batchSize : ℕ} (hpos : 0 < batchSize) :
    (device.schedule launch ((List.range (ceilDiv batchSize (ceilDiv batchSize device.aivNum))).map
      (coreTasks batchSize (ceilDiv batchSize device.aivNum)))).Perm (List.range batchSize) := by
  have hcores := flatMap_coreTasks batchSize (ceilDiv_pos hpos device.aivNum_pos)
  rw [List.flatMap_def] at hcores
  have hperm := device.schedule_perm launch
    ((List.range (ceilDiv batchSize (ceilDiv batchSize device.aivNum))).map
      (coreTasks batchSize (ceilDiv batchSize device.aivNum)))
  rwa [hcores] at hperm

/-- **What the expand operators do to an address.** -/
theorem expandImpl_data (hpos : 0 < x.size0) (sliceOffset sliceSize a : ℕ) :
    (expandImpl device launch index x weight y sliceOffset sliceSize).data a =
      y.data a + ((List.range x.size0).map fun idx =>
        (⟨x.data, weight.data, x.size1, sliceSize, sliceOffset, y.size1⟩ : ExpandArgs R).gain
          (index idx) idx a).sum :=
  foldl_gain
    (fun idx => ExpandArgs.process_eq _ (index idx) idx) (device.schedule_tokens launch hpos) y.data a

/-- The place of a column in a row belongs to no other row. -/
theorem row_unique {n t idx k : ℕ} (hk : k < n) (hlow : n * idx ≤ n * t + k)
    (hhigh : n * t + k < n * idx + n) : idx = t := by
  have hpos := Nat.zero_lt_of_lt hk
  have hquot : (n * t + k) / n = t := by
    rw [Nat.mul_add_div hpos, Nat.div_eq_of_lt hk, Nat.add_zero]
  have hidx : (n * t + k) / n = idx := by
    rw [Nat.div_eq_iff hpos, Nat.mul_comm idx n]
    omega
  rw [← hidx, hquot]

/-- **What the shrink operators leave for a token with an adapter.** -/
theorem shrinkImpl_get {t k : ℕ} (ht : t < x.size0) (hk : k < y.size1) (hindex : 0 ≤ index t)
    (scale : R) :
    (shrinkImpl device launch index x weight y scale).get t k =
      dot x.data weight.data (x.size1 * t)
        ((index t).toNat * (x.size1 * y.size1) + k * x.size1) x.size1 * scale := by
  refine foldl_own (t := t) (a := y.size1 * t + k) (fun data => ?_) (fun idx data hne => ?_)
    ((device.schedule_tokens launch (Nat.zero_lt_of_lt ht)).mem_iff.mpr (List.mem_range.mpr ht)) _
  · rw [ShrinkArgs.process, if_neg (by omega), if_pos ⟨Nat.le_add_right _ _, Nat.add_lt_add_left hk _⟩,
      ShrinkArgs.processImpl_eq, Nat.add_sub_cancel_left]
  · rw [ShrinkArgs.process]
    split
    · rfl
    · exact if_neg fun hin => hne (row_unique hk hin.1 hin.2)

end Launches

end VllmAscend
