import VllmAscend.Kernels.LoraKernels
import VllmAscend.Machinery.VectorUnit

/-!
# Kernels/ExpandTiles — the tiles of the expand kernels, in the local memory of a core

    x (rank floats)   ⇢  x x … x                    64 floats, one repeat
    W tile            ⇢  8192 entries               128 repeats
    products          ⇢  BlockReduceSum, PairReduceSum …  ⇢  y[progress …]
    y tile            ⇢  4096 outputs, added to what is there

`Kernels/LoraKernels` says what a token adds; here is how the cores come to it.  A repeat of the vector unit
multiplies 64 weights at once, which belong to `64 / rank` outputs, and two or three reductions sum the
products of each.  The last tile of a token is shorter, and so is its last tile of weights: the reductions
then run a whole repeat too far, and leave sums behind the outputs that nobody copies out.

Every core has one local memory for all its tokens, so each starts with what another left there.  No token
reads it: the kernel on a whole batch leaves what the plain products do (`expandKernel_eq`).
-/

namespace VllmAscend

open Machinery

variable {R : Type}

/-- The local memory of a core: the queues and the buffers of `Init`. -/
structure ExpandLocals (R : Type) where
  inQueueX : TQue R
  inQueueW : TQue R
  inQueueY : TQue R
  outQueueY : TQue R
  dupBufferX : LocalTensor R
  tmpBufferW : LocalTensor R
  inBufferY : LocalTensor R
  tmpBufferY : LocalTensor R

namespace ExpandArgs

/-! ## The constants -/

def bufferNum : ℕ := 2

def numBlocksPerRepeat : ℕ := 8

/-- 256 bytes of floats. -/
def numElementsPerRepeat : ℕ := 64

def wInTileNumElements : ℕ := 8192

def blockReduceNumRepeats : ℕ := wInTileNumElements / numElementsPerRepeat

/-- Repeats that read all the sums of some repeats of `BlockReduceSum`. -/
def pairReduceRepeat16 (blockReduceRepeatCount : ℕ) : ℕ :=
  (blockReduceRepeatCount * numBlocksPerRepeat + numElementsPerRepeat - 1) / numElementsPerRepeat

def pairReduceRepeat32 (blockReduceRepeatCount : ℕ) : ℕ := (pairReduceRepeat16 blockReduceRepeatCount + 1) / 2

def supportedRanks : List ℕ := [8, 16, 32, 64]

/-- Entries of a block of 32 bytes: floats, and the halves of the weights and of the outputs. -/
def floatsPerBlock : ℕ := 8

def halvesPerBlock : ℕ := 16

def numOutputElementsPerInputTile (k : ExpandArgs R) : ℕ :=
  blockReduceNumRepeats * (numElementsPerRepeat / k.maxLoRARank)

def numStreamInPerOutputTile (k : ExpandArgs R) : ℕ := yOutTileNumElements / k.numOutputElementsPerInputTile

/-! ## Copies -/

/-- The duplication of `CopyInX`: the input over and over, up to a whole repeat. -/
def duplicateX (maxLoRARank : ℕ) (xLocal xDup : LocalTensor R) : Option (LocalTensor R) :=
  (List.range (ceilDiv numElementsPerRepeat maxLoRARank)).foldlM (fun xDup i =>
    (List.range maxLoRARank).foldlM (fun xDup j => do
      let entry ← xLocal.read j 1
      xDup.write (i * maxLoRARank + j) 1 entry) xDup) xDup

def copyInX (k : ExpandArgs R) (idx : ℕ) (l : ExpandLocals R) : Option (ExpandLocals R) := do
  let (xLocal, inQueueX) ← l.inQueueX.allocTensor
  let xLocal ← xLocal.dataCopy floatsPerBlock k.maxLoRARank fun e => k.x (k.maxLoRARank * idx + e)
  let (xLocal, inQueueX) ← (inQueueX.enQue xLocal).deQue
  let xDup ← duplicateX k.maxLoRARank xLocal l.dupBufferX
  pure { l with inQueueX := inQueueX.freeTensor xLocal, dupBufferX := xDup }

def copyInY (yOffset progress numElements : ℕ) (y : ℕ → R) (l : ExpandLocals R) : Option (ExpandLocals R) := do
  let (yInLocal, inQueueY) ← l.inQueueY.allocTensor
  let yInLocal ← yInLocal.dataCopy halvesPerBlock numElements fun e =>
    y (yOffset + progress * yOutTileNumElements + e)
  pure { l with inQueueY := inQueueY.enQue yInLocal }

def copyInW (k : ExpandArgs R) (reqLoRAWeightOffset progress numElements : ℕ) (l : ExpandLocals R) :
    Option (ExpandLocals R) := do
  let (wLocal, inQueueW) ← l.inQueueW.allocTensor
  let wLocal ← wLocal.dataCopy halvesPerBlock numElements fun e =>
    k.weight (reqLoRAWeightOffset + progress * wInTileNumElements + e)
  pure { l with inQueueW := inQueueW.enQue wLocal }

def copyOut (yOffset progress numElements : ℕ) (l : ExpandLocals R) (y : ℕ → R) :
    Option (ExpandLocals R × (ℕ → R)) := do
  let (yOutLocal, outQueueY) ← l.outQueueY.deQue
  if halvesPerBlock ∣ numElements then
    let v ← yOutLocal.read 0 numElements
    let start := yOffset + progress * yOutTileNumElements
    pure ({ l with outQueueY := outQueueY.freeTensor yOutLocal },
      fun a => if start ≤ a ∧ a < start + numElements then v (a - start) else y a)
  else none

/-! ## Computation -/

variable [CommRing R]

def blockReduceSum (src : LocalTensor R) (offset repeats : ℕ) (dst : LocalTensor R) : Option (LocalTensor R) :=
  reduceInto 8 8 src offset repeats dst

def pairReduceSum (src : LocalTensor R) (offset repeats : ℕ) (dst : LocalTensor R) : Option (LocalTensor R) :=
  reduceInto 32 2 src offset repeats dst

/-- The reductions of `Compute`, by the rank: sums into the outputs, from `progress` on. -/
def reduceProducts (maxLoRARank progress blockReduceRepeatCount pairReduceRepeat16 pairReduceRepeat32 : ℕ)
    (wTmpTensor yLocal : LocalTensor R) : Option (LocalTensor R × LocalTensor R) :=
  if maxLoRARank = 8 then do
    let yLocal ← blockReduceSum wTmpTensor progress blockReduceRepeatCount yLocal
    pure (wTmpTensor, yLocal)
  else if maxLoRARank = 16 then do
    let wTmpTensor ← reduceInPlace 8 8 blockReduceRepeatCount wTmpTensor
    let yLocal ← pairReduceSum wTmpTensor progress pairReduceRepeat16 yLocal
    pure (wTmpTensor, yLocal)
  else if maxLoRARank = 32 then do
    let wTmpTensor ← reduceInPlace 8 8 blockReduceRepeatCount wTmpTensor
    let wTmpTensor ← reduceInPlace 32 2 pairReduceRepeat16 wTmpTensor
    let yLocal ← pairReduceSum wTmpTensor progress pairReduceRepeat32 yLocal
    pure (wTmpTensor, yLocal)
  else if maxLoRARank = 64 then do
    let wTmpTensor ← reduceInPlace 8 8 blockReduceRepeatCount wTmpTensor
    let yLocal ← blockReduceSum wTmpTensor progress pairReduceRepeat16 yLocal
    pure (wTmpTensor, yLocal)
  else pure (wTmpTensor, yLocal)

/-- `Compute`.  `xDup` is read again at every repeat. -/
def compute (k : ExpandArgs R) (progress blockReduceRepeatCount pairReduceRepeat16 pairReduceRepeat32 : ℕ)
    (l : ExpandLocals R) : Option (ExpandLocals R) := do
  let numElements := blockReduceRepeatCount * numElementsPerRepeat
  let (wLocal, inQueueW) ← l.inQueueW.deQue
  let w ← wLocal.read 0 numElements
  let wTmpTensor ← l.tmpBufferW.write 0 numElements w
  let xDup ← l.dupBufferX.read 0 numElementsPerRepeat
  let w ← wTmpTensor.read 0 numElements
  let wTmpTensor ← wTmpTensor.write 0 numElements fun e => xDup (e % numElementsPerRepeat) * w e
  let (wTmpTensor, yLocal) ← reduceProducts k.maxLoRARank progress blockReduceRepeatCount pairReduceRepeat16
    pairReduceRepeat32 wTmpTensor l.tmpBufferY
  pure { l with inQueueW := inQueueW.freeTensor wLocal, tmpBufferW := wTmpTensor, tmpBufferY := yLocal }

/-- `Compute` on a whole tile of weights. -/
def computeTile (k : ExpandArgs R) (progress : ℕ) (l : ExpandLocals R) : Option (ExpandLocals R) :=
  k.compute progress blockReduceNumRepeats (pairReduceRepeat16 blockReduceNumRepeats)
    (pairReduceRepeat32 blockReduceNumRepeats) l

def scaleOutput (numElements : ℕ) (l : ExpandLocals R) : Option (ExpandLocals R) := do
  let (yInLocal, inQueueY) ← l.inQueueY.deQue
  let yIn ← yInLocal.read 0 numElements
  let yInLocalFP32 ← l.inBufferY.write 0 numElements yIn
  let yIn ← yInLocalFP32.read 0 numElements
  let y ← l.tmpBufferY.read 0 numElements
  let yLocal ← l.tmpBufferY.write 0 numElements fun e => y e + yIn e
  let (yOutLocal, outQueueY) ← l.outQueueY.allocTensor
  let y ← yLocal.read 0 numElements
  let yOutLocal ← yOutLocal.write 0 numElements y
  pure { l with
    inQueueY := inQueueY.freeTensor yInLocal
    inBufferY := yInLocalFP32
    tmpBufferY := yLocal
    outQueueY := outQueueY.enQue yOutLocal }

/-! ## A token -/

/-- Tiles of weights, one after another. -/
def streamIn (k : ExpandArgs R) (reqLoRAWeightOffset first count : ℕ) (l : ExpandLocals R) :
    Option (ExpandLocals R) :=
  (List.range count).foldlM (fun l j => do
    let l ← k.copyInW reqLoRAWeightOffset (first + j) wInTileNumElements l
    k.computeTile (j * k.numOutputElementsPerInputTile) l) l

/-- A round of the loop of `Process`. -/
def streamOut (k : ExpandArgs R) (reqLoRAWeightOffset yOffset i : ℕ) (s : ExpandLocals R × (ℕ → R)) :
    Option (ExpandLocals R × (ℕ → R)) := do
  let l ← copyInY yOffset i yOutTileNumElements s.2 s.1
  let l ← k.streamIn reqLoRAWeightOffset (i * k.numStreamInPerOutputTile) k.numStreamInPerOutputTile l
  let l ← scaleOutput yOutTileNumElements l
  copyOut yOffset i yOutTileNumElements l s.2

/-- The weights of the last iteration: whole tiles, and the rest of them. -/
def streamInRest (k : ExpandArgs R) (reqLoRAWeightOffset first remainingY : ℕ) (l : ExpandLocals R) :
    Option (ExpandLocals R) := do
  let remainingW := remainingY * k.maxLoRARank
  let numCompleteWTileInForLastIteration := remainingW / wInTileNumElements
  let remainingWForLastRepeat := remainingW % wInTileNumElements
  let l ← k.streamIn reqLoRAWeightOffset first numCompleteWTileInForLastIteration l
  if remainingWForLastRepeat = 0 then pure l
  else
    let l ← k.copyInW reqLoRAWeightOffset (first + numCompleteWTileInForLastIteration) remainingWForLastRepeat l
    let lastRepeatCount := remainingWForLastRepeat / numElementsPerRepeat
    k.compute (numCompleteWTileInForLastIteration * k.numOutputElementsPerInputTile) lastRepeatCount
      (ExpandArgs.pairReduceRepeat16 lastRepeatCount) (ExpandArgs.pairReduceRepeat32 lastRepeatCount) l

def computeLastIteration (k : ExpandArgs R) (reqLoRAWeightOffset yOffset : ℕ) (s : ExpandLocals R × (ℕ → R)) :
    Option (ExpandLocals R × (ℕ → R)) :=
  let remainingY := k.outputHiddenDim % yOutTileNumElements
  if remainingY = 0 then some s
  else do
    let numStreamOut := k.outputHiddenDim / yOutTileNumElements
    let l ← copyInY yOffset numStreamOut remainingY s.2 s.1
    let l ← k.streamInRest reqLoRAWeightOffset (numStreamOut * k.numStreamInPerOutputTile) remainingY l
    let l ← scaleOutput remainingY l
    copyOut yOffset numStreamOut remainingY l s.2

/-- `Process` on a token, in the local memory of its core. -/
def processLocal (k : ExpandArgs R) (reqLoRAIndex : ℤ) (idx : ℕ) (s : ExpandLocals R × (ℕ → R)) :
    Option (ExpandLocals R × (ℕ → R)) :=
  let yOffset := k.outputFullDim * idx + k.sliceOffset
  if reqLoRAIndex < 0 then some s
  else do
    let reqLoRAWeightOffset := reqLoRAIndex.toNat * (k.maxLoRARank * k.outputHiddenDim)
    let l ← k.copyInX idx s.1
    let s ← (List.range (k.outputHiddenDim / yOutTileNumElements)).foldlM
      (fun s i => k.streamOut reqLoRAWeightOffset yOffset i s) (l, s.2)
    k.computeLastIteration reqLoRAWeightOffset yOffset s

end ExpandArgs

/-- A kernel on all cores, each with a local memory that stays from token to token. -/
def VectorDevice.runLocal {L : Type} (device : VectorDevice) (launch batchSize numTokensPerCore : ℕ)
    (process : ℕ → L × (ℕ → R) → Option (L × (ℕ → R))) (locals : ℕ → L) (y : ℕ → R) :
    Option ((ℕ → L) × (ℕ → R)) :=
  let blockDim := ceilDiv batchSize numTokensPerCore
  (device.schedule launch ((List.range blockDim).map (coreTasks batchSize numTokensPerCore))).foldlM
    (fun s idx => do
      let (l, y) ← process idx (s.1 (idx / numTokensPerCore), s.2)
      pure (Function.update s.1 (idx / numTokensPerCore) l, y)) (locals, y)

/-! ## What the reductions leave -/

section Reductions

variable [CommRing R] {rank progress repeats : ℕ} {wTmpTensor yLocal : LocalTensor R}

variable (progress yLocal) in
/-- **The reductions sum the products of each output**, and write nothing before the first. -/
theorem exists_reduceProducts (hrank : rank ∈ ExpandArgs.supportedRanks) (hrepeats : repeats ≤ 128)
    (hw : wTmpTensor.size = 8192) (hy : progress + 128 * (64 / rank) ≤ yLocal.size) :
    ∃ (wTmpTensor' : LocalTensor R) (n : ℕ) (v : ℕ → R), ExpandArgs.reduceProducts rank progress repeats
        (ExpandArgs.pairReduceRepeat16 repeats) (ExpandArgs.pairReduceRepeat32 repeats) wTmpTensor yLocal =
        some (wTmpTensor', yLocal.put progress n v) ∧
      wTmpTensor'.size = 8192 ∧ ∀ b, rank * b + rank ≤ repeats * 64 → b < n ∧ v b = groupSums rank wTmpTensor.data b := by
  have h16 : repeats * 8 ≤ ExpandArgs.pairReduceRepeat16 repeats * 64 ∧
      ExpandArgs.pairReduceRepeat16 repeats ≤ 16 := by
    simp only [ExpandArgs.pairReduceRepeat16, ExpandArgs.numBlocksPerRepeat, ExpandArgs.numElementsPerRepeat]
    omega
  have h32 : ExpandArgs.pairReduceRepeat16 repeats ≤ ExpandArgs.pairReduceRepeat32 repeats * 2 ∧
      ExpandArgs.pairReduceRepeat32 repeats ≤ 8 := by
    simp only [ExpandArgs.pairReduceRepeat32]
    omega
  generalize ExpandArgs.pairReduceRepeat16 repeats = repeats16 at h16 h32 ⊢
  generalize ExpandArgs.pairReduceRepeat32 repeats = repeats32 at h32 ⊢
  obtain ⟨blocks, hblock, hsize, hsums⟩ : ∃ blocks, reduceInPlace 8 8 repeats wTmpTensor = some blocks ∧
      blocks.size = 8192 ∧
      ∀ m b, m * b + m ≤ repeats * 8 → groupSums m blocks.data b = groupSums (m * 8) wTmpTensor.data b :=
    ⟨_, reduceInPlace_eq (by omega) (by omega), hw, fun m b hb => groupSums_put hb⟩
  simp only [ExpandArgs.supportedRanks, List.mem_cons, List.not_mem_nil, or_false] at hrank
  rcases hrank with rfl | rfl | rfl | rfl
  · -- the blocks are the outputs
    refine ⟨wTmpTensor, repeats * 8, groupSums 8 wTmpTensor.data, ?_, hw, fun b hb => ⟨by omega, rfl⟩⟩
    rw [ExpandArgs.reduceProducts, if_pos rfl, ExpandArgs.blockReduceSum, reduceInto_eq (by omega) (by omega)]
    rfl
  · -- an output is a pair of blocks
    refine ⟨blocks, repeats16 * 32, groupSums 2 blocks.data, ?_, hsize, fun b hb => ⟨by omega, hsums 2 b (by omega)⟩⟩
    rw [ExpandArgs.reduceProducts, if_neg (by decide), if_pos rfl, hblock, Option.bind_eq_bind, Option.bind_some,
      ExpandArgs.pairReduceSum, reduceInto_eq (by omega) (by omega)]
    rfl
  · -- an output is a pair of pairs of blocks
    obtain ⟨pairs, hpair, hpairs, hpairSums⟩ : ∃ pairs, reduceInPlace 32 2 repeats16 blocks = some pairs ∧
        pairs.size = 8192 ∧ ∀ b, 2 * b + 2 ≤ repeats16 * 32 →
          groupSums 2 pairs.data b = groupSums 4 blocks.data b :=
      ⟨_, reduceInPlace_eq (by omega) (by omega), hsize, fun b hb => groupSums_put hb⟩
    refine ⟨pairs, repeats32 * 32, groupSums 2 pairs.data, ?_, hpairs,
      fun b hb => ⟨by omega, (hpairSums b (by omega)).trans (hsums 4 b (by omega))⟩⟩
    rw [ExpandArgs.reduceProducts, if_neg (by decide), if_neg (by decide), if_pos rfl, hblock, Option.bind_eq_bind,
      Option.bind_some, hpair, Option.bind_some, ExpandArgs.pairReduceSum, reduceInto_eq (by omega) (by omega)]
    rfl
  · -- an output is eight blocks
    refine ⟨blocks, repeats16 * 8, groupSums 8 blocks.data, ?_, hsize, fun b hb => ⟨by omega, hsums 8 b (by omega)⟩⟩
    rw [ExpandArgs.reduceProducts, if_neg (by decide), if_neg (by decide), if_neg (by decide), if_pos rfl, hblock,
      Option.bind_eq_bind, Option.bind_some, ExpandArgs.blockReduceSum, reduceInto_eq (by omega) (by omega)]
    rfl

end Reductions

/-! ## The local memory between two tiles -/

/-- The queues and buffers of a core, but for the queue of the outputs that are added to. -/
structure ExpandLocals.Shaped (l : ExpandLocals R) : Prop where
  inQueueX : l.inQueueX.Idle 1 64
  inQueueW : l.inQueueW.Idle 2 8192
  outQueueY : l.outQueueY.Idle 2 4096
  dupBufferX : l.dupBufferX.size = 64
  tmpBufferW : l.tmpBufferW.size = 8192
  inBufferY : l.inBufferY.size = 4096
  tmpBufferY : l.tmpBufferY.size = 4096

/-- **A core between two tokens**: what its tensors hold does not matter. -/
structure ExpandLocals.Ready (l : ExpandLocals R) : Prop extends l.Shaped where
  inQueueY : l.inQueueY.Idle 2 4096

namespace ExpandArgs

variable {k : ExpandArgs R} {l : ExpandLocals R} {idx : ℕ}

/-- The input of a token is in place. -/
def Duplicated (k : ExpandArgs R) (idx : ℕ) (l : ExpandLocals R) : Prop :=
  ∀ a < 64, l.dupBufferX.data a = k.x (k.maxLoRARank * idx + a % k.maxLoRARank)

theorem rank_facts (hrank : k.maxLoRARank ∈ supportedRanks) :
    k.maxLoRARank ∣ 64 ∧ 8 ∣ k.maxLoRARank ∧ 0 < k.maxLoRARank ∧ k.numOutputElementsPerInputTile * k.maxLoRARank = 8192 ∧
      k.numStreamInPerOutputTile * k.numOutputElementsPerInputTile = 4096 ∧
      k.numOutputElementsPerInputTile = 128 * (64 / k.maxLoRARank) := by
  simp only [numStreamInPerOutputTile, numOutputElementsPerInputTile, supportedRanks, List.mem_cons, List.not_mem_nil,
    or_false] at hrank ⊢
  rcases hrank with h | h | h | h <;> rw [h] <;> decide

/-- The weights of a tile of outputs begin where its first row does. -/
theorem streamIn_offset (hrank : k.maxLoRARank ∈ supportedRanks) (i : ℕ) :
    i * k.numStreamInPerOutputTile * 8192 = i * 4096 * k.maxLoRARank := by
  obtain ⟨-, -, -, htile, htiles, -⟩ := rank_facts hrank
  rw [← htile, Nat.mul_assoc, ← Nat.mul_assoc k.numStreamInPerOutputTile, htiles, Nat.mul_assoc]

section Compute

variable [CommRing R] {reqLoRAWeightOffset progress first repeats : ℕ}

/-- The products of a row with the input. -/
theorem groupSums_products {rank b : ℕ} {x w v : ℕ → R} (hdvd : rank ∣ 64) (hrow : rank * b + rank ≤ repeats * 64)
    (hv : ∀ e < repeats * 64, v e = x ((e % 64) % rank) * w e) :
    groupSums rank v b = ((List.range rank).map fun e => x e * w (b * rank + e)).sum := by
  refine congrArg List.sum (List.map_congr_left fun e he => ?_)
  have he : e < rank := List.mem_range.mp he
  rw [hv _ (by omega), Nat.mod_mod_of_dvd _ hdvd, Nat.mul_add_mod, Nat.mod_eq_of_lt he, Nat.mul_comm b]

/-- A row in a tile of weights, counted from the first tile. -/
theorem wOffset_eq {n rank count e : ℕ} (htile : n * rank = 8192) :
    reqLoRAWeightOffset + (first + count) * 8192 + e * rank =
      reqLoRAWeightOffset + first * 8192 + (count * n + e) * rank := by
  rw [Nat.add_mul (count * n), Nat.mul_assoc count, htile, Nat.add_mul first]
  omega

variable (reqLoRAWeightOffset progress first repeats) in
/-- **A tile of weights is copied in and computed**: its outputs are there, and those before it stay. -/
theorem exists_wTile (hrank : k.maxLoRARank ∈ supportedRanks) (hl : l.Shaped) (hdup : k.Duplicated idx l)
    (hprogress : progress + k.numOutputElementsPerInputTile ≤ 4096) (hrepeats : repeats ≤ 128) :
    ∃ l', (do
        let l ← k.copyInW reqLoRAWeightOffset first (repeats * 64) l
        k.compute progress repeats (pairReduceRepeat16 repeats) (pairReduceRepeat32 repeats) l) = some l' ∧
      l'.Shaped ∧ l'.inQueueY = l.inQueueY ∧ l'.dupBufferX = l.dupBufferX ∧
      (∀ a < progress, l'.tmpBufferY.data a = l.tmpBufferY.data a) ∧
      ∀ b, k.maxLoRARank * b + k.maxLoRARank ≤ repeats * 64 → l'.tmpBufferY.data (progress + b) =
        dot k.x k.weight (k.maxLoRARank * idx) (reqLoRAWeightOffset + first * 8192 + b * k.maxLoRARank)
          k.maxLoRARank := by
  obtain ⟨hdvd, -, -, -, -, hnum⟩ := rank_facts hrank
  -- the weights
  obtain ⟨t, q, wLocal, halloc, hcopy, hload, hw⟩ := hl.inQueueW.fill (n := repeats * 64) (by decide)
    (fun e => k.weight (reqLoRAWeightOffset + first * wInTileNumElements + e)) (by omega)
  obtain ⟨q', hdeQue, hidle⟩ := hload.deQue
  have hblocks : halvesPerBlock ∣ repeats * 64 := (by decide : 16 ∣ 64).mul_left repeats
  obtain ⟨w, hreadW, hwdata⟩ := wLocal.exists_read (n := repeats * 64) (by rw [hload.size]; omega)
  obtain ⟨t₁, hcast, hsize₁, hdata₁⟩ := l.tmpBufferW.exists_write (n := repeats * 64) w
    (by rw [hl.tmpBufferW]; omega)
  -- the products
  obtain ⟨xDup, hreadX, hxdata⟩ := l.dupBufferX.exists_read (n := 64) hl.dupBufferX.ge
  obtain ⟨w₁, hread₁, hwdata₁⟩ := t₁.exists_read (n := repeats * 64) (by rw [hsize₁, hl.tmpBufferW]; omega)
  obtain ⟨t₂, hmul, hsize₂, hdata₂⟩ := t₁.exists_write (n := repeats * 64) (fun e => xDup (e % 64) * w₁ e)
    (by rw [hsize₁, hl.tmpBufferW]; omega)
  have hproduct : ∀ e < repeats * 64, t₂.data e =
      k.x (k.maxLoRARank * idx + (e % 64) % k.maxLoRARank) * k.weight (reqLoRAWeightOffset + first * 8192 + e) := by
    intro e he
    rw [hdata₂ e he, hxdata, hdup _ (Nat.mod_lt e (by decide)), hwdata₁, hdata₁ e he, hwdata, hw e he]
    rfl
  -- their sums
  have hsize : t₂.size = 8192 := hsize₂.trans (hsize₁.trans hl.tmpBufferW)
  obtain ⟨t₃, n, v, hreduce, hsize₃, hv⟩ := exists_reduceProducts progress l.tmpBufferY
    hrank hrepeats hsize (by rw [hl.tmpBufferY, ← hnum]; exact hprogress)
  refine ⟨{ l with
    inQueueW := q'.freeTensor wLocal, tmpBufferW := t₃, tmpBufferY := l.tmpBufferY.put progress n v }, ?_,
    { hl with inQueueW := hidle, tmpBufferW := hsize₃ }, rfl, rfl, fun a ha => LocalTensor.data_put_of_lt ha,
    fun b hrow => ?_⟩
  · simp only [copyInW, halloc, Option.bind_eq_bind, Option.bind_some, Option.pure_def,
      LocalTensor.dataCopy_eq hblocks, hcopy, compute, hdeQue, numElementsPerRepeat, hreadW, hcast, hreadX, hread₁,
      hmul, hreduce]
  · obtain ⟨hb, hvb⟩ := hv b hrow
    refine (LocalTensor.data_put hb).trans (hvb.trans ((groupSums_products
      (x := fun e => k.x (k.maxLoRARank * idx + e)) hdvd hrow hproduct).trans ?_))
    simp only [dot, Nat.add_assoc]

variable (reqLoRAWeightOffset first) in
/-- **Whole tiles of weights, one after another**, fill the outputs from the first on. -/
theorem exists_streamIn (hrank : k.maxLoRARank ∈ supportedRanks) (hl : l.Shaped) (hdup : k.Duplicated idx l) :
    ∀ count : ℕ, count * k.numOutputElementsPerInputTile ≤ 4096 →
      ∃ l', k.streamIn reqLoRAWeightOffset first count l = some l' ∧
        l'.Shaped ∧ l'.inQueueY = l.inQueueY ∧ l'.dupBufferX = l.dupBufferX ∧
        ∀ b < count * k.numOutputElementsPerInputTile, l'.tmpBufferY.data b =
          dot k.x k.weight (k.maxLoRARank * idx) (reqLoRAWeightOffset + first * 8192 + b * k.maxLoRARank)
            k.maxLoRARank := by
  obtain ⟨-, -, -, htile, -, -⟩ := rank_facts hrank
  intro count
  induction count with
  | zero => exact fun _ => ⟨l, rfl, hl, rfl, rfl, fun b hb => absurd hb (by omega)⟩
  | succ count ih =>
    intro hcount
    rw [Nat.succ_mul] at hcount
    obtain ⟨l₁, hloop, hl₁, hq₁, hx₁, hout₁⟩ := ih (by omega)
    have hdup₁ : k.Duplicated idx l₁ := by rwa [Duplicated, hx₁]
    obtain ⟨l₂, hstep, hl₂, hq₂, hx₂, hkeep, hout₂⟩ := exists_wTile reqLoRAWeightOffset
      (count * k.numOutputElementsPerInputTile) (first + count) blockReduceNumRepeats hrank hl₁ hdup₁ hcount (by decide)
    refine ⟨l₂, ?_, hl₂, hq₂.trans hq₁, hx₂.trans hx₁, fun b hb => ?_⟩
    · rw [streamIn] at hloop ⊢
      rw [foldlM_range_succ, hloop, Option.bind_some]
      exact hstep
    · rcases Nat.lt_or_ge b (count * k.numOutputElementsPerInputTile) with hlt | hge
      · rw [hkeep b hlt, hout₁ b hlt]
      · obtain ⟨e, rfl⟩ := Nat.exists_eq_add_of_le hge
        have he : e + 1 ≤ k.numOutputElementsPerInputTile := by
          rw [Nat.succ_mul] at hb
          omega
        have hrow : k.maxLoRARank * e + k.maxLoRARank ≤ blockReduceNumRepeats * 64 := by
          have hle := Nat.mul_le_mul_right k.maxLoRARank he
          rwa [htile, Nat.succ_mul, Nat.mul_comm e] at hle
        rw [hout₂ e hrow, wOffset_eq htile]

end Compute

/-! ## A tile of outputs -/

section Tiles

variable {yOffset i n : ℕ} {y : ℕ → R}

variable (idx) in
/-- **The input is copied in, over and over.** -/
theorem exists_copyInX (hrank : k.maxLoRARank ∈ supportedRanks) (hl : l.Shaped) :
    ∃ l', k.copyInX idx l = some l' ∧ l'.Shaped ∧ l'.inQueueY = l.inQueueY ∧ k.Duplicated idx l' := by
  obtain ⟨hdvd, hblocks, hpos, -, -, -⟩ := rank_facts hrank
  have hle : k.maxLoRARank ≤ 64 := Nat.le_of_dvd (by decide) hdvd
  have hcount : ceilDiv 64 k.maxLoRARank * k.maxLoRARank = 64 := by
    simp only [supportedRanks, List.mem_cons, List.not_mem_nil, or_false] at hrank
    rcases hrank with h | h | h | h <;> rw [h] <;> decide
  obtain ⟨t, q, xLocal, halloc, hcopy, hload, hx⟩ := hl.inQueueX.fill (by decide)
    (fun e => k.x (k.maxLoRARank * idx + e)) hle
  obtain ⟨q', hdeQue, hidle⟩ := hload.deQue
  have hdup : duplicateX k.maxLoRARank xLocal l.dupBufferX =
      some (l.dupBufferX.put 0 (ceilDiv 64 k.maxLoRARank * k.maxLoRARank) fun a => xLocal.data (a % k.maxLoRARank)) :=
    LocalTensor.foldlM_repeat (by rwa [hload.size]) (by
      rw [numElementsPerRepeat, hcount, hl.dupBufferX])
  rw [hcount] at hdup
  refine ⟨{ l with inQueueX := q'.freeTensor xLocal, dupBufferX := l.dupBufferX.put 0 64 _ }, ?_,
    { hl with inQueueX := hidle, dupBufferX := hl.dupBufferX }, rfl,
    fun a ha => (LocalTensor.data_put_zero ha).trans (hx _ (Nat.mod_lt a hpos))⟩
  simp only [copyInX, halloc, Option.bind_eq_bind, Option.bind_some, Option.pure_def, floatsPerBlock,
    LocalTensor.dataCopy_eq hblocks, hcopy, hdeQue, hdup]

variable (yOffset i y) in
/-- **The outputs of a tile are copied in.** -/
theorem exists_copyInY (hq : l.inQueueY.Idle 2 4096) (hblocks : 16 ∣ n) (hn : n ≤ 4096) :
    ∃ q yIn, copyInY yOffset i n y l = some { l with inQueueY := q } ∧ q.Loaded 2 4096 yIn ∧
      ∀ e < n, yIn.data e = y (yOffset + i * 4096 + e) := by
  obtain ⟨t, q, yIn, halloc, hcopy, hload, hy⟩ := hq.fill (by decide)
    (fun e => y (yOffset + i * yOutTileNumElements + e)) hn
  refine ⟨q.enQue yIn, yIn, ?_, hload, hy⟩
  simp only [copyInY, halloc, Option.bind_eq_bind, Option.bind_some, Option.pure_def, halvesPerBlock,
    LocalTensor.dataCopy_eq hblocks, hcopy]

variable [CommRing R]

variable (yOffset i y) in
/-- **The outputs of a tile are added to what is there, and copied out.** -/
theorem exists_scaleOutput {yIn : LocalTensor R} (hl : l.Shaped) (hq : l.inQueueY.Loaded 2 4096 yIn)
    (hblocks : 16 ∣ n) (hn : n ≤ 4096) :
    ∃ l', (do
        let l ← scaleOutput n l
        copyOut yOffset i n l y) = some (l', fun a =>
          if yOffset + i * yOutTileNumElements ≤ a ∧ a < yOffset + i * yOutTileNumElements + n then
            l.tmpBufferY.data (a - (yOffset + i * yOutTileNumElements)) +
              yIn.data (a - (yOffset + i * yOutTileNumElements))
          else y a) ∧
      l'.Ready ∧ l'.dupBufferX = l.dupBufferX := by
  obtain ⟨q, hdeQue, hidle⟩ := hq.deQue
  obtain ⟨w, hread, hw⟩ := yIn.exists_read (n := n) (by rwa [hq.size])
  obtain ⟨t₁, hcast, hsize₁, hdata₁⟩ := l.inBufferY.exists_write (n := n) w (by rwa [hl.inBufferY])
  obtain ⟨w₁, hread₁, hw₁⟩ := t₁.exists_read (n := n) (by rwa [hsize₁, hl.inBufferY])
  obtain ⟨v, hreadY, hv⟩ := l.tmpBufferY.exists_read (n := n) (by rwa [hl.tmpBufferY])
  obtain ⟨t₂, hadd, hsize₂, hdata₂⟩ := l.tmpBufferY.exists_write (n := n) (fun e => v e + w₁ e)
    (by rwa [hl.tmpBufferY])
  obtain ⟨w₂, hread₂, hw₂⟩ := t₂.exists_read (n := n) (by rwa [hsize₂, hl.tmpBufferY])
  obtain ⟨t, q₃, yOut, halloc, hwrite, hload, hout⟩ := hl.outQueueY.fill (n := n) (by decide) w₂ hn
  obtain ⟨q₄, hdeQue₄, hidle₄⟩ := hload.deQue
  obtain ⟨w₄, hread₄, hw₄⟩ := yOut.exists_read (n := n) (by rwa [hload.size])
  have hsum : ∀ e < n, w₄ e = l.tmpBufferY.data e + yIn.data e := by
    intro e he
    rw [hw₄, hout e he, hw₂, hdata₂ e he, hv, hw₁, hdata₁ e he, hw]
  refine ⟨{ l with
    inQueueY := q.freeTensor yIn, inBufferY := t₁, tmpBufferY := t₂, outQueueY := q₄.freeTensor yOut }, ?_,
    { hl with
      inQueueY := hidle, inBufferY := hsize₁.trans hl.inBufferY, tmpBufferY := hsize₂.trans hl.tmpBufferY
      outQueueY := hidle₄ }, rfl⟩
  simp only [scaleOutput, copyOut, hdeQue, Option.bind_eq_bind, Option.bind_some, Option.pure_def, hread, hcast, hread₁,
    hreadY, hadd, halloc, hread₂, hwrite, hdeQue₄, hread₄, halvesPerBlock, if_pos hblocks]
  refine congrArg (fun y => some (_, y)) (funext fun a => ?_)
  by_cases hin : yOffset + i * yOutTileNumElements ≤ a ∧ a < yOffset + i * yOutTileNumElements + n
  · rw [if_pos hin, if_pos hin, hsum _ (by omega)]
  · rw [if_neg hin, if_neg hin]

/-- The products of a tile, added to what was there. -/
theorem tile_eq {reqLoRAWeightOffset : ℕ} {out yIn : ℕ → R}
    (hout : ∀ b < n, out b = dot k.x k.weight (k.maxLoRARank * idx)
      (reqLoRAWeightOffset + i * 4096 * k.maxLoRARank + b * k.maxLoRARank) k.maxLoRARank)
    (hy : ∀ b < n, yIn b = y (yOffset + i * 4096 + b)) :
    (fun a => if yOffset + i * yOutTileNumElements ≤ a ∧ a < yOffset + i * yOutTileNumElements + n then
        out (a - (yOffset + i * yOutTileNumElements)) + yIn (a - (yOffset + i * yOutTileNumElements)) else y a) =
      k.tile reqLoRAWeightOffset yOffset idx i n y := by
  funext a
  rw [tile]
  split
  · next hin =>
    obtain ⟨b, rfl⟩ := Nat.exists_eq_add_of_le hin.1
    have hsub : yOffset + i * yOutTileNumElements + b - yOffset = i * 4096 + b := by
      rw [Nat.add_assoc, Nat.add_sub_cancel_left]
      rfl
    rw [Nat.add_sub_cancel_left, hout b (by omega), hy b (by omega), add_comm, hsub, Nat.add_mul,
      Nat.add_assoc reqLoRAWeightOffset]
    rfl
  · rfl

/-- **A round of the loop of `Process`** is a tile. -/
theorem exists_streamOut {reqLoRAWeightOffset : ℕ} (hrank : k.maxLoRARank ∈ supportedRanks) (hl : l.Ready)
    (hdup : k.Duplicated idx l) :
    ∃ l', k.streamOut reqLoRAWeightOffset yOffset i (l, y) =
        some (l', k.tile reqLoRAWeightOffset yOffset idx i yOutTileNumElements y) ∧
      l'.Ready ∧ k.Duplicated idx l' := by
  obtain ⟨-, -, -, -, htiles, -⟩ := rank_facts hrank
  obtain ⟨q, yIn, hcopyIn, hload, hy⟩ := exists_copyInY yOffset i y hl.inQueueY
    (by decide : 16 ∣ yOutTileNumElements) (by decide)
  obtain ⟨l₁, hstream, hl₁, hq₁, hx₁, hout⟩ := exists_streamIn reqLoRAWeightOffset (i * k.numStreamInPerOutputTile)
    (l := { l with inQueueY := q }) hrank { hl with } hdup _ htiles.le
  obtain ⟨l₂, hscale, hready, hx₂⟩ := exists_scaleOutput yOffset i y hl₁
    (by rwa [hq₁]) (by decide : 16 ∣ yOutTileNumElements) (by decide)
  rw [htiles, streamIn_offset hrank] at hout
  refine ⟨l₂, ?_, hready, ?_⟩
  · rw [streamOut, hcopyIn, Option.bind_eq_bind, Option.bind_some, hstream, Option.bind_some]
    exact hscale.trans (congrArg (fun y => some (l₂, y)) (tile_eq (n := yOutTileNumElements) hout hy))
  · rw [Duplicated, hx₂, hx₁]
    exact hdup

variable (yOffset y) in
/-- **The loop of `Process`**, tile after tile. -/
theorem exists_streamOuts (reqLoRAWeightOffset : ℕ) (hrank : k.maxLoRARank ∈ supportedRanks) (hl : l.Ready)
    (hdup : k.Duplicated idx l) : ∀ count : ℕ, ∃ l',
      (List.range count).foldlM (fun s i => k.streamOut reqLoRAWeightOffset yOffset i s) (l, y) =
        some (l', (List.range count).foldl
          (fun y i => k.tile reqLoRAWeightOffset yOffset idx i yOutTileNumElements y) y) ∧
      l'.Ready ∧ k.Duplicated idx l' := by
  intro count
  induction count with
  | zero => exact ⟨l, rfl, hl, hdup⟩
  | succ count ih =>
    obtain ⟨l₁, hloop, hl₁, hdup₁⟩ := ih
    obtain ⟨l₂, hstep, hl₂, hdup₂⟩ := exists_streamOut hrank hl₁ hdup₁
    refine ⟨l₂, ?_, hl₂, hdup₂⟩
    rw [foldlM_range_succ, hloop, Option.bind_some, List.range_succ, List.foldl_append, List.foldl_cons,
      List.foldl_nil]
    exact hstep

/-- **The last tile** is shorter, and so are its weights: whole tiles, and the rest of them. -/
theorem exists_streamInRest (reqLoRAWeightOffset first : ℕ) {remainingY : ℕ} (hrank : k.maxLoRARank ∈ supportedRanks)
    (hl : l.Shaped) (hdup : k.Duplicated idx l) (hblocks : 16 ∣ remainingY) (hremaining : remainingY < 4096) :
    ∃ l', k.streamInRest reqLoRAWeightOffset first remainingY l = some l' ∧
      l'.Shaped ∧ l'.inQueueY = l.inQueueY ∧ l'.dupBufferX = l.dupBufferX ∧
      ∀ b < remainingY, l'.tmpBufferY.data b =
        dot k.x k.weight (k.maxLoRARank * idx) (reqLoRAWeightOffset + first * 8192 + b * k.maxLoRARank)
          k.maxLoRARank := by
  obtain ⟨-, hfloats, hpos, htile, htiles, -⟩ := rank_facts hrank
  have hdvd : 64 ∣ remainingY * k.maxLoRARank % wInTileNumElements :=
    (Nat.dvd_mod_iff (by decide)).mpr ((by decide : 64 ∣ 16 * 8).trans (Nat.mul_dvd_mul hblocks hfloats))
  have hlt : remainingY * k.maxLoRARank % wInTileNumElements < 8192 := Nat.mod_lt _ (by decide)
  have hdiv : remainingY * k.maxLoRARank / wInTileNumElements * 8192 + remainingY * k.maxLoRARank % wInTileNumElements =
      remainingY * k.maxLoRARank := Nat.div_add_mod' _ _
  simp only [streamInRest]
  generalize remainingY * k.maxLoRARank / wInTileNumElements = count at hdiv ⊢
  generalize remainingY * k.maxLoRARank % wInTileNumElements = rest at hdvd hlt hdiv ⊢
  have hwhole : count * 8192 = count * k.numOutputElementsPerInputTile * k.maxLoRARank := by
    rw [Nat.mul_assoc, htile]
  have hcount : count * k.numOutputElementsPerInputTile ≤ remainingY :=
    Nat.le_of_mul_le_mul_right (by omega) hpos
  obtain ⟨l₁, hstream, hl₁, hq₁, hx₁, hout₁⟩ := exists_streamIn reqLoRAWeightOffset first hrank hl hdup
    count (by omega)
  by_cases hrest : rest = 0
  · refine ⟨l₁, ?_, hl₁, hq₁, hx₁, fun b hb => hout₁ b ?_⟩
    · rw [hstream, Option.bind_eq_bind, Option.bind_some, if_pos hrest]
      rfl
    · have hall : remainingY * k.maxLoRARank ≤ count * k.numOutputElementsPerInputTile * k.maxLoRARank := by omega
      exact hb.trans_le (Nat.le_of_mul_le_mul_right hall hpos)
  · obtain ⟨repeats, rfl⟩ := hdvd
    rw [Nat.mul_comm 64] at *
    have hprogress : count * k.numOutputElementsPerInputTile + k.numOutputElementsPerInputTile ≤ 4096 := by
      have hne : count * k.numOutputElementsPerInputTile < remainingY :=
        Nat.lt_of_mul_lt_mul_right (a := k.maxLoRARank) (by omega)
      have hcount : count < k.numStreamInPerOutputTile :=
        Nat.lt_of_mul_lt_mul_right (a := k.numOutputElementsPerInputTile) (by omega)
      rw [← htiles, ← Nat.succ_mul]
      exact Nat.mul_le_mul_right _ hcount
    obtain ⟨l₂, hstep, hl₂, hq₂, hx₂, hkeep, hout₂⟩ := exists_wTile reqLoRAWeightOffset
      (count * k.numOutputElementsPerInputTile) (first + count) repeats hrank hl₁
      (by rwa [Duplicated, hx₁]) hprogress (by omega)
    refine ⟨l₂, ?_, hl₂, hq₂.trans hq₁, hx₂.trans hx₁, fun b hb => ?_⟩
    · rw [hstream, Option.bind_eq_bind, Option.bind_some, if_neg hrest]
      simp only [numElementsPerRepeat, Nat.mul_div_cancel _ (by decide : 0 < 64)]
      exact hstep
    · rcases Nat.lt_or_ge b (count * k.numOutputElementsPerInputTile) with hbefore | hbehind
      · rw [hkeep b hbefore, hout₁ b hbefore]
      · obtain ⟨e, rfl⟩ := Nat.exists_eq_add_of_le hbehind
        have hrow := Nat.mul_le_mul_right k.maxLoRARank (Nat.succ_le_of_lt hb)
        rw [Nat.succ_mul, Nat.add_mul, ← hwhole] at hrow
        rw [hout₂ e (by rw [Nat.mul_comm]; omega), wOffset_eq htile]

/-- **The last iteration** is a tile of what remains. -/
theorem exists_computeLastIteration {reqLoRAWeightOffset : ℕ} (hrank : k.maxLoRARank ∈ supportedRanks) (hl : l.Ready)
    (hdup : k.Duplicated idx l) (hblocks : 16 ∣ k.outputHiddenDim) :
    ∃ l', k.computeLastIteration reqLoRAWeightOffset yOffset (l, y) = some (l',
        if k.outputHiddenDim % yOutTileNumElements = 0 then y
        else k.tile reqLoRAWeightOffset yOffset idx (k.outputHiddenDim / yOutTileNumElements)
          (k.outputHiddenDim % yOutTileNumElements) y) ∧ l'.Ready := by
  have hlt : k.outputHiddenDim % yOutTileNumElements < 4096 := Nat.mod_lt _ (by decide)
  have hremaining : 16 ∣ k.outputHiddenDim % yOutTileNumElements := (Nat.dvd_mod_iff (by decide)).mpr hblocks
  simp only [computeLastIteration]
  generalize k.outputHiddenDim % yOutTileNumElements = remainingY at hlt hremaining ⊢
  generalize k.outputHiddenDim / yOutTileNumElements = numStreamOut
  split
  · exact ⟨l, rfl, hl⟩
  · obtain ⟨q, yIn, hcopyIn, hload, hy⟩ := exists_copyInY yOffset numStreamOut y hl.inQueueY
      hremaining hlt.le
    obtain ⟨l₁, hstream, hl₁, hq₁, hx₁, hout⟩ := exists_streamInRest reqLoRAWeightOffset
      (numStreamOut * k.numStreamInPerOutputTile) (l := { l with inQueueY := q }) hrank { hl with } hdup hremaining hlt
    obtain ⟨l₂, hscale, hready, -⟩ := exists_scaleOutput yOffset numStreamOut y hl₁
      (by rwa [hq₁]) hremaining hlt.le
    refine ⟨l₂, ?_, hready⟩
    rw [streamIn_offset hrank] at hout
    rw [tile_eq hout hy] at hscale
    rw [hcopyIn, Option.bind_eq_bind, Option.bind_some, hstream, Option.bind_some]
    exact hscale

/-- **A token in the local memory of a core** is the token: whatever the memory held. -/
theorem exists_processLocal (hrank : k.maxLoRARank ∈ supportedRanks) (hblocks : 16 ∣ k.outputHiddenDim) (hl : l.Ready)
    (reqLoRAIndex : ℤ) :
    ∃ l', k.processLocal reqLoRAIndex idx (l, y) = some (l', k.process reqLoRAIndex idx y) ∧ l'.Ready := by
  rw [processLocal, process]
  split
  · exact ⟨l, rfl, hl⟩
  · obtain ⟨l₁, hcopy, hl₁, hq₁, hdup⟩ := exists_copyInX idx hrank hl.toShaped
    have hready : l₁.Ready := { hl₁ with inQueueY := hq₁ ▸ hl.inQueueY }
    obtain ⟨l₂, hloop, hl₂, hdup₂⟩ := exists_streamOuts (k.outputFullDim * idx + k.sliceOffset) y
      (reqLoRAIndex.toNat * (k.maxLoRARank * k.outputHiddenDim)) hrank hready hdup
      (k.outputHiddenDim / yOutTileNumElements)
    obtain ⟨l₃, hlast, hl₃⟩ := exists_computeLastIteration hrank hl₂ hdup₂ hblocks
    refine ⟨l₃, ?_, hl₃⟩
    simp only [hcopy, Option.bind_eq_bind, Option.bind_some, hloop]
    exact hlast

end Tiles

end ExpandArgs

/-! ## A batch -/

/-- **A kernel that does not depend on what its local memory holds** does on all cores what it does alone. -/
theorem VectorDevice.runLocal_eq {L : Type} {P : L → Prop} {kernel : ℕ → L × (ℕ → R) → Option (L × (ℕ → R))}
    {process : ℕ → (ℕ → R) → ℕ → R}
    (hkernel : ∀ idx l y, P l → ∃ l', kernel idx (l, y) = some (l', process idx y) ∧ P l') (device : VectorDevice)
    (launch batchSize numTokensPerCore : ℕ) {locals : ℕ → L} (hlocals : ∀ core, P (locals core)) (y : ℕ → R) :
    ∃ locals', device.runLocal launch batchSize numTokensPerCore kernel locals y =
        some (locals', device.run launch batchSize numTokensPerCore process y) ∧ ∀ core, P (locals' core) := by
  simp only [runLocal, run]
  generalize device.schedule launch _ = order
  induction order generalizing locals y with
  | nil => exact ⟨locals, rfl, hlocals⟩
  | cons idx order ih =>
    obtain ⟨l, hstep, hl⟩ := hkernel idx (locals (idx / numTokensPerCore)) y (hlocals _)
    have hlocals' : ∀ core, P (Function.update locals (idx / numTokensPerCore) l core) := by
      intro core
      rcases eq_or_ne core (idx / numTokensPerCore) with rfl | hne
      · rwa [Function.update_self]
      · rw [Function.update_of_ne hne]
        exact hlocals core
    obtain ⟨locals', hrest, hall⟩ := ih hlocals' (process idx y)
    refine ⟨locals', ?_, hall⟩
    rw [List.foldlM_cons, hstep, List.foldl_cons]
    exact hrest

/-- **The expand kernels on a batch, in the memory of their cores.**  Whatever the queues and the buffers hold, and in
whatever order the tokens run, nothing is read or written out of a tensor, no queue runs dry, and the outputs are
those that the products add. -/
theorem expandKernel_eq [CommRing R] (device : VectorDevice) (launch : ℕ) (index : ℕ → ℤ) {x y : Tensor2 R}
    {weight : LoraWeight R} {sliceOffset sliceSize : ℕ} (hrank : x.size1 ∈ ExpandArgs.supportedRanks)
    (hblocks : ExpandArgs.halvesPerBlock ∣ sliceSize) {locals : ℕ → ExpandLocals R}
    (hlocals : ∀ core, (locals core).Ready) :
    ∃ locals', device.runLocal launch x.size0 (ceilDiv x.size0 device.aivNum)
        (fun idx => ExpandArgs.processLocal ⟨x.data, weight.data, x.size1, sliceSize, sliceOffset, y.size1⟩ (index idx) idx)
        locals y.data =
        some (locals', (expandImpl device launch index x weight y sliceOffset sliceSize).data) ∧
      ∀ core, (locals' core).Ready :=
  device.runLocal_eq (fun idx _ _ hl => ExpandArgs.exists_processLocal hrank hblocks hl (index idx)) launch _ _ hlocals _

/-- A tensor of one value. -/
def constantTensor (size : ℕ) (v : R) : LocalTensor R := ⟨size, fun _ => v⟩

/-- The memory of a core with one value everywhere. -/
def constantLocals (v : R) : ExpandLocals R where
  inQueueX := ⟨[constantTensor 64 v], []⟩
  inQueueW := ⟨List.replicate ExpandArgs.bufferNum (constantTensor 8192 v), []⟩
  inQueueY := ⟨List.replicate ExpandArgs.bufferNum (constantTensor 4096 v), []⟩
  outQueueY := ⟨List.replicate ExpandArgs.bufferNum (constantTensor 4096 v), []⟩
  dupBufferX := constantTensor 64 v
  tmpBufferW := constantTensor 8192 v
  inBufferY := constantTensor 4096 v
  tmpBufferY := constantTensor 4096 v

theorem idle_replicate (num size : ℕ) (v : R) :
    TQue.Idle ⟨List.replicate num (constantTensor size v), []⟩ num size :=
  ⟨rfl, List.length_replicate, fun t ht => by rw [List.eq_of_mem_replicate ht]; rfl⟩

theorem ready_constantLocals (v : R) : (constantLocals v).Ready where
  inQueueX := idle_replicate 1 64 v
  inQueueW := idle_replicate 2 8192 v
  inQueueY := idle_replicate 2 4096 v
  outQueueY := idle_replicate 2 4096 v
  dupBufferX := rfl
  tmpBufferW := rfl
  inBufferY := rfl
  tmpBufferY := rfl

/-- Two cores, which run their tokens from the last to the first. -/
def backwards : VectorDevice := ⟨2, Nat.two_pos, fun _ cores => cores.flatten.reverse, fun _ _ => List.reverse_perm _⟩

/-- The inputs, the weights and the outputs of three tokens, the second without an adapter. -/
def threeInputs : Tensor2 ℤ := ⟨3, 16, Nat.cast⟩

def threeWeights : LoraWeight ℤ := ⟨48, 16, fun a => 2 * a⟩

def threeOutputs : Tensor2 ℤ := ⟨3, 64, fun a => 3 - a⟩

def threeIndices (idx : ℕ) : ℤ := [1, -1, 0].getD idx 0

theorem expandKernel_eq_threeTokens :
    ∃ locals', backwards.runLocal 0 3 (ceilDiv 3 2)
        (fun idx => ExpandArgs.processLocal ⟨threeInputs.data, threeWeights.data, 16, 48, 8, 64⟩ (threeIndices idx) idx)
        (fun core => constantLocals (core : ℤ)) threeOutputs.data =
        some (locals', (expandImpl backwards 0 threeIndices threeInputs threeWeights threeOutputs 8 48).data) ∧
      ∀ core, (locals' core).Ready :=
  expandKernel_eq backwards 0 threeIndices (x := threeInputs) (y := threeOutputs) (by decide) (by decide)
    fun core => ready_constantLocals (core : ℤ)

end VllmAscend
