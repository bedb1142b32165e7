import VllmAscend.Machinery.Ragged

/-!
# Worker/DrafterInputs — which of the target's tokens the drafter keeps

    cu_target_query_lens   0        a           a+b
    tokens                 ●●●●●○○  ●●●●○       ○ rejected
    token_indices          0 … a-n₁-1   a … a+b-n₂-1

`MtpProposer.prepare_inputs` and `EagleProposer.prepare_inputs` compute the indices of the kept
tokens in blocks of 1024.  The first gathers with one block for each request and leaves the places
beyond it at zero; the second walks over the blocks but stores the offsets of the first in each of
them.  Both are right exactly when no request keeps more than one block
(`MtpProposer.mtpIndices_iff`, `EagleProposer.eagleIndices_iff`).
-/

namespace VllmAscend

open Machinery

/-- `BLOCK_SIZE` -/
def drafterBlockSize : ℕ := 1024

/-! ## The MTP drafter -/

def prepareInputKernel (out cuQueryLens cuNumTokens : List ℤ) (blockSize : ℕ) :
    Option (List ℤ) :=
  let offsets := arange blockSize
  let startPos := cuNumTokens.dropLast
  let endPos := cuNumTokens.tail
  let numTokens := List.zipWith (· - ·) endPos startPos
  let globalIndices := startPos.map fun s => offsets.map fun o => s + o
  let values := cuQueryLens.dropLast.map fun s => offsets.map fun o => s + o
  let mask := numTokens.map fun n => offsets.map fun o => decide (o < n)
  scatter out (select₂ mask globalIndices) (select₂ mask values)

/-- What `prepare_inputs` returns. -/
structure DrafterInputs (H : Type) where
  cuNumTokens : List ℤ
  tokenIndices : List ℤ
  targetTokenIds : List ℤ
  targetPositions : List ℤ
  targetHiddenStates : List H
  targetSlotMapping : List ℤ

def MtpProposer.prepareInputs {H : Type} (cuTargetQueryLens numRejectedTokens : List ℤ)
    (tokenIds positions : List ℤ) (hiddenStates : List H) (slotMapping : List ℤ)
    (isTorchairGraph : Bool) : Option (DrafterInputs H) := do
  let queryLenPerReq :=
    List.zipWith (· - ·) cuTargetQueryLens.tail cuTargetQueryLens.dropLast
  let numTokensPerReq := List.zipWith (· - ·) queryLenPerReq numRejectedTokens
  if isTorchairGraph then
    let relativeIndex := (List.zipWith (· - ·) queryLenPerReq numRejectedTokens).map (· - 1)
    return {
      cuNumTokens := cuTargetQueryLens
      tokenIndices := List.zipWith (· + ·) cuTargetQueryLens.dropLast relativeIndex
      targetTokenIds := tokenIds
      targetPositions := positions
      targetHiddenStates := hiddenStates
      targetSlotMapping := slotMapping }
  else
    let cuNumTokens := 0 :: cumsum 0 numTokensPerReq
    let numTokens ← item cuNumTokens (-1)
    guard (0 ≤ numTokens)
    let tokenIndices ← prepareInputKernel (List.replicate numTokens.toNat 0) cuTargetQueryLens
      cuNumTokens drafterBlockSize
    return {
      cuNumTokens := cuNumTokens
      tokenIndices := tokenIndices
      targetTokenIds := ← gather tokenIds tokenIndices
      targetPositions := ← gather positions tokenIndices
      targetHiddenStates := ← gather hiddenStates tokenIndices
      targetSlotMapping := ← gather slotMapping tokenIndices }

/-! ## The EAGLE drafter -/

/-- `n` with a significand of `w` bits, to nearest and ties to even. -/
def roundSignificand (w n : ℕ) : ℕ :=
  let unit := 2 ^ (n.size - w)
  if 2 * (n % unit) < unit then n / unit * unit
  else if unit < 2 * (n % unit) then (n / unit + 1) * unit
  else if n / unit % 2 = 0 then n / unit * unit
  else (n / unit + 1) * unit

/-- `int(torch.ceil(torch.tensor(num_tokens / block_size)).item())`: the quotient by a power of two is
exact, and storing it as a float32 keeps 24 bits. -/
def numBlocks (numTokens : ℤ) (blockSize : ℕ) : ℕ :=
  (roundSignificand 24 numTokens.toNat + blockSize - 1) / blockSize

/-- One round of the loop over the blocks of a request; `none` is an entry never written. -/
def storeBlock (startPos endPos indexStart : ℤ) (blockSize : ℕ) (out : List (Option ℤ)) (i : ℕ) :
    Option (List (Option ℤ)) :=
  let offsetTensor := arange blockSize
  let globalStartOffset : ℤ := i * blockSize
  let targetIndices := offsetTensor.map fun o => startPos + globalStartOffset + o
  let valuesToStore := offsetTensor.map fun o => indexStart + o
  let mask := List.zipWith (fun t o => decide (startPos ≤ t) && decide (t < endPos) &&
    decide (o < endPos - startPos)) targetIndices offsetTensor
  scatter out (select mask targetIndices) ((select mask valuesToStore).map some)

def prepareEagleInputSequential (outTensor : List (Option ℤ)) (cuQueryLens cuNumTokens : List ℤ)
    (blockSize : ℕ) : Option (List (Option ℤ)) :=
  (List.range (cuNumTokens.length - 1)).foldlM (fun out (pid : ℕ) => do
    let startPos ← item cuNumTokens pid
    let endPos ← item cuNumTokens ((pid : ℤ) + 1)
    let indexStart ← item cuQueryLens pid
    (List.range (numBlocks (endPos - startPos) blockSize)).foldlM
      (storeBlock startPos endPos indexStart blockSize) out) outTensor

def EagleProposer.prepareInputs (cuTargetQueryLens numRejectedTokens : List ℤ) (numTokens : ℕ) :
    Option (List ℤ × List (Option ℤ)) := do
  let queryLenPerReq :=
    List.zipWith (· - ·) cuTargetQueryLens.tail cuTargetQueryLens.dropLast
  let numTokensPerReq := List.zipWith (· - ·) queryLenPerReq numRejectedTokens
  let cuNumTokens := 0 :: cumsum 0 numTokensPerReq
  let tokenIndices ← prepareEagleInputSequential (List.replicate numTokens none) cuTargetQueryLens
    cuNumTokens drafterBlockSize
  return (cuNumTokens, tokenIndices)

/-! ## A target step -/

/-- A token of the target's step, with what the drafter takes over of it. -/
structure TargetToken (H : Type) where
  tokenId : ℤ
  position : ℤ
  hiddenState : H
  slot : ℤ

/-- A request of the target's step: its query tokens, the last `rejected` of which are dropped. -/
structure TargetRequest (H : Type) where
  tokens : List (TargetToken H)
  rejected : ℕ
  rejected_le : rejected ≤ tokens.length

section Step

variable {H : Type}

/-- The number of kept tokens. -/
def TargetRequest.kept (r : TargetRequest H) : ℕ := r.tokens.length - r.rejected

variable (reqs : List (TargetRequest H))

/-- `cu_target_query_lens` -/
def cuTargetQueryLens : List ℤ :=
  0 :: cumsum 0 ((reqs.map fun r => r.tokens.length).map Nat.cast)

/-- `num_rejected_tokens` -/
def numRejectedTokens : List ℤ := reqs.map fun r => (r.rejected : ℤ)

/-- The running sums of the kept lengths. -/
def cuKept : List ℤ := 0 :: cumsum 0 ((reqs.map TargetRequest.kept).map Nat.cast)

/-- **The kept tokens' indices**, request after request. -/
def keptIndices : List ℤ :=
  (placed TargetRequest.tokens 0 reqs).flatMap fun d => segment d.start d.data.kept

theorem numTokensPerReq_eq :
    List.zipWith (· - ·) (List.zipWith (· - ·) (cuTargetQueryLens reqs).tail
      (cuTargetQueryLens reqs).dropLast) (numRejectedTokens reqs) =
        (reqs.map TargetRequest.kept).map Nat.cast := by
  rw [cuTargetQueryLens, List.tail_cons, cumsum_diff, numRejectedTokens, List.map_map,
    List.zipWith_map, List.zipWith_self, List.map_map]
  refine List.map_congr_left fun r _ => ?_
  have := r.rejected_le
  simp only [Function.comp_apply, TargetRequest.kept]
  omega

/-- The rows of the index tensor before the kernel. -/
def blankRow (d : Placed (TargetRequest H)) : List ℤ := List.replicate d.data.kept 0

/-- The row the kernel leaves. -/
def kernelRow (blockSize : ℕ) (d : Placed (TargetRequest H)) : List ℤ :=
  segment d.start (min d.data.kept blockSize) ++
    List.replicate (d.data.kept - blockSize) 0

theorem cuKept_eq : cuKept reqs =
    0 :: cumsum 0 (((placed TargetRequest.tokens 0 reqs).map fun d => (blankRow d).length).map
      Nat.cast) := by
  simp only [blankRow, List.length_replicate, map_placed, cuKept]

/-- **The kernel fills the first block of every request.** -/
theorem prepareInputKernel_eq (blockSize : ℕ) :
    prepareInputKernel ((placed TargetRequest.tokens 0 reqs).flatMap blankRow)
      (cuTargetQueryLens reqs) (cuKept reqs) blockSize =
        some ((placed TargetRequest.tokens 0 reqs).flatMap (kernelRow blockSize)) := by
  let rows := placed TargetRequest.tokens 0 reqs
  let block (d : Placed (TargetRequest H)) : List ℤ :=
    segment d.start (min d.data.kept blockSize)
  have hmask : (List.zipWith (· - ·) (cuKept reqs).tail (cuKept reqs).dropLast).map
      (fun n => (arange blockSize).map fun o => decide (o < n)) =
        rows.map fun d => (arange blockSize).map fun o => decide (o < (d.data.kept : ℤ)) := by
    rw [cuKept, List.tail_cons, cumsum_diff, List.map_map, List.map_map]
    exact (map_placed TargetRequest.tokens
      (fun r => (arange blockSize).map fun o => decide (o < (r.kept : ℤ))) 0 reqs).symm
  have hstart : (cuKept reqs).dropLast = (placed blankRow 0 rows).map fun d => (d.start : ℤ) := by
    rw [cuKept_eq]
    exact cons_cumsum_dropLast_placed blankRow rows
  have hvalues : (cuTargetQueryLens reqs).dropLast = rows.map fun d => (d.start : ℤ) :=
    cons_cumsum_dropLast_placed TargetRequest.tokens reqs
  have hindices : select₂ (rows.map fun d =>
      (arange blockSize).map fun o => decide (o < (d.data.kept : ℤ)))
      (((placed blankRow 0 rows).map fun d => (d.start : ℤ)).map fun s =>
        (arange blockSize).map fun o => s + o) =
          (placed blankRow 0 rows).flatMap fun d => segment d.start (block d.data).length := by
    rw [← map_placed blankRow _ 0 rows, List.map_map, select₂, List.zipWith_map, List.zipWith_self,
      List.flatMap_def]
    refine congrArg List.flatten (List.map_congr_left fun d _ => ?_)
    simpa [block] using select_offsets d.start blockSize d.data.data.kept
  have hstored : select₂ (rows.map fun d =>
      (arange blockSize).map fun o => decide (o < (d.data.kept : ℤ)))
      ((rows.map fun d => (d.start : ℤ)).map fun s =>
        (arange blockSize).map fun o => s + o) = rows.flatMap block := by
    rw [List.map_map, select₂, List.zipWith_map, List.zipWith_self, List.flatMap_def]
    exact congrArg List.flatten (List.map_congr_left fun d _ =>
      select_offsets d.start blockSize d.data.kept)
  have hscatter := scatter_rows blankRow block rows fun d _ => by
    simp [block, blankRow]
  unfold prepareInputKernel
  dsimp only
  rw [hmask, hstart, hvalues, hindices, hstored]
  refine hscatter.trans (congrArg some (List.flatMap_congr fun d _ => ?_))
  simp only [block, kernelRow, blankRow, length_segment, List.drop_replicate]
  congr 2
  omega

/-- A request of more than one block does not get its indices. -/
theorem kernelRow_eq_iff {blockSize : ℕ} (hpos : 0 < blockSize) (d : Placed (TargetRequest H)) :
    kernelRow blockSize d = segment d.start d.data.kept ↔ d.data.kept ≤ blockSize := by
  constructor
  · intro h
    by_contra hlong
    have hlt : blockSize < d.data.kept := Nat.lt_of_not_le hlong
    have hmin : min d.data.kept blockSize = blockSize := by omega
    -- the first place beyond the block is still zero
    have hzero : (kernelRow blockSize d)[blockSize]? = some 0 := by
      rw [kernelRow, hmin, List.getElem?_append_right (by simp)]
      simp [hlt]
    rw [h, getElem?_segment _ hlt, Option.some.injEq] at hzero
    omega
  · intro h
    rw [kernelRow, min_eq_left h, Nat.sub_eq_zero_of_le h]
    simp

theorem flatMap_kernelRow_eq_iff {blockSize : ℕ} (hpos : 0 < blockSize) :
    (placed TargetRequest.tokens 0 reqs).flatMap (kernelRow blockSize) = keptIndices reqs ↔
      ∀ r ∈ reqs, r.kept ≤ blockSize := by
  have hlen : ∀ d ∈ placed TargetRequest.tokens 0 reqs,
      (kernelRow blockSize d).length = (segment d.start d.data.kept).length := fun d _ => by
    simp only [kernelRow, List.length_append, length_segment, List.length_replicate]
    omega
  have hrows : (∀ r ∈ reqs, r.kept ≤ blockSize) ↔
      ∀ d ∈ placed TargetRequest.tokens 0 reqs, kernelRow blockSize d = segment d.start d.data.kept := by
    simp only [kernelRow_eq_iff hpos]
    conv_lhs => rw [← map_data_placed TargetRequest.tokens 0 reqs]
    exact List.forall_mem_map
  rw [hrows]
  exact ⟨flatMap_inj hlen, fun h => List.flatMap_congr h⟩

/-- Gathering the kept tokens of each request. -/
theorem gather_keptIndices {α : Type} (g : TargetToken H → α) :
    gather ((reqs.flatMap TargetRequest.tokens).map g) (keptIndices reqs) =
      some (reqs.flatMap fun r => (r.tokens.take r.kept).map g) := by
  have hrow : ∀ d ∈ placed TargetRequest.tokens 0 reqs,
      gather (reqs.flatMap TargetRequest.tokens) (segment d.start d.data.kept) =
        some (d.data.tokens.take d.data.kept) := fun d hd =>
    gather_placed hd (Nat.sub_le _ _)
  have hflat := gather_flatten hrow
  rw [← List.flatMap_def, ← List.flatMap_def,
    flatMap_placed TargetRequest.tokens fun r => r.tokens.take r.kept] at hflat
  rw [gather_map, keptIndices, hflat, Option.map_some, List.map_flatMap]

/-- The index tensor before the kernel, as long as the last running sum says. -/
theorem replicate_kept : List.replicate (reqs.map TargetRequest.kept).sum (0 : ℤ) =
    (placed TargetRequest.tokens 0 reqs).flatMap blankRow := by
  have hrows := flatMap_placed TargetRequest.tokens (fun r => List.replicate r.kept (0 : ℤ)) 0 reqs
  exact (hrows.trans (flatMap_replicate_eq _ _ _)).symm

/-- The MTP drafter's inputs on a batch. -/
def MtpProposer.prepareBatch : Option (DrafterInputs H) :=
  prepareInputs (cuTargetQueryLens reqs) (numRejectedTokens reqs)
    ((reqs.flatMap TargetRequest.tokens).map TargetToken.tokenId)
    ((reqs.flatMap TargetRequest.tokens).map TargetToken.position)
    ((reqs.flatMap TargetRequest.tokens).map TargetToken.hiddenState)
    ((reqs.flatMap TargetRequest.tokens).map TargetToken.slot) false

theorem getLast?_cuKept :
    item (cuKept reqs) (-1) = some (((reqs.map TargetRequest.kept).sum : ℕ) : ℤ) := by
  rw [item_neg_one, cuKept, getLast?_cumsum, zero_add, ← Nat.cast_list_sum]

/-- What `prepare_inputs` returns, up to the gathers. -/
theorem MtpProposer.prepareBatch_eq : prepareBatch reqs =
    let tokenIndices := (placed TargetRequest.tokens 0 reqs).flatMap (kernelRow drafterBlockSize)
    (do
      let targetTokenIds ←
        gather ((reqs.flatMap TargetRequest.tokens).map TargetToken.tokenId) tokenIndices
      let targetPositions ←
        gather ((reqs.flatMap TargetRequest.tokens).map TargetToken.position) tokenIndices
      let targetHiddenStates ←
        gather ((reqs.flatMap TargetRequest.tokens).map TargetToken.hiddenState) tokenIndices
      let targetSlotMapping ←
        gather ((reqs.flatMap TargetRequest.tokens).map TargetToken.slot) tokenIndices
      return ⟨cuKept reqs, tokenIndices, targetTokenIds, targetPositions, targetHiddenStates,
        targetSlotMapping⟩) := by
  have hkernel := prepareInputKernel_eq reqs drafterBlockSize
  rw [← replicate_kept] at hkernel
  have hcount := getLast?_cuKept reqs
  unfold cuKept at hkernel hcount ⊢
  unfold prepareBatch prepareInputs
  simp only [numTokensPerReq_eq, Bool.false_eq_true, if_false, hcount, Option.bind_eq_bind,
    Option.bind_some, Int.natCast_nonneg, guard_true, Int.toNat_natCast, hkernel]
  rfl

/-- **Within one block the MTP drafter gets the kept tokens.** -/
theorem MtpProposer.prepareBatch_of_le (hkept : ∀ r ∈ reqs, r.kept ≤ drafterBlockSize) :
    prepareBatch reqs = some {
      cuNumTokens := cuKept reqs
      tokenIndices := keptIndices reqs
      targetTokenIds := reqs.flatMap fun r => (r.tokens.take r.kept).map TargetToken.tokenId
      targetPositions := reqs.flatMap fun r => (r.tokens.take r.kept).map TargetToken.position
      targetHiddenStates := reqs.flatMap fun r => (r.tokens.take r.kept).map TargetToken.hiddenState
      targetSlotMapping := reqs.flatMap fun r => (r.tokens.take r.kept).map TargetToken.slot } := by
  have hindices := (flatMap_kernelRow_eq_iff reqs (by decide)).mpr hkept
  rw [prepareBatch_eq]
  simp only [hindices, gather_keptIndices, Option.bind_eq_bind, Option.bind_some]
  rfl

theorem MtpProposer.prepareBatch_iff :
    (∃ inputs, prepareBatch reqs = some inputs ∧ inputs.cuNumTokens = cuKept reqs ∧
      inputs.tokenIndices = keptIndices reqs) ↔ ∀ r ∈ reqs, r.kept ≤ drafterBlockSize := by
  constructor
  · rintro ⟨inputs, hinputs, -, hindices⟩
    rw [← flatMap_kernelRow_eq_iff reqs (by decide), ← hindices]
    rw [prepareBatch_eq] at hinputs
    simp only [Option.bind_eq_bind, Option.bind_eq_some_iff, Option.pure_def,
      Option.some.injEq] at hinputs
    obtain ⟨_, -, _, -, _, -, _, -, rfl⟩ := hinputs
    rfl
  · exact fun hkept => ⟨_, prepareBatch_of_le reqs hkept, rfl, rfl⟩

/-! ## The blocks of the EAGLE drafter -/

/-- What block `i` of a row stores: the offsets of the first block, as many as the row has left. -/
def storedBlock (indexStart : ℤ) (blockSize kept i : ℕ) : List (Option ℤ) :=
  (segment indexStart (min (kept - i * blockSize) blockSize)).map some

/-- A row after `k` blocks. -/
def rowAfter (indexStart : ℤ) (blockSize kept k : ℕ) : List (Option ℤ) :=
  (List.range k).flatMap (storedBlock indexStart blockSize kept) ++
    List.replicate (kept - k * blockSize) none

theorem length_storedBlocks (indexStart : ℤ) (blockSize kept : ℕ) : ∀ k : ℕ,
    ((List.range k).flatMap (storedBlock indexStart blockSize kept)).length =
      min (k * blockSize) kept
  | 0 => by simp
  | k + 1 => by
    rw [List.range_succ, List.flatMap_append, List.length_append,
      length_storedBlocks indexStart blockSize kept k, List.flatMap_singleton, storedBlock,
      List.length_map, length_segment, Nat.add_mul, Nat.one_mul]
    omega

theorem length_rowAfter (indexStart : ℤ) (blockSize kept k : ℕ) :
    (rowAfter indexStart blockSize kept k).length = kept := by
  rw [rowAfter, List.length_append, length_storedBlocks, List.length_replicate]
  omega

/-- The places block `i` writes. -/
theorem select_storeBlock (startPos : ℤ) (blockSize kept i : ℕ) (g : ℤ → ℤ) :
    select (List.zipWith (fun t o => decide (startPos ≤ t) && decide (t < startPos + kept) &&
        decide (o < startPos + kept - startPos))
      ((arange blockSize).map fun o => startPos + (i * blockSize : ℕ) + o) (arange blockSize))
      ((arange blockSize).map g) =
        (segment 0 (min (kept - i * blockSize) blockSize)).map g := by
  have hmask : List.zipWith (fun t o => decide (startPos ≤ t) && decide (t < startPos + kept) &&
        decide (o < startPos + kept - startPos))
      ((arange blockSize).map fun o => startPos + (i * blockSize : ℕ) + o) (arange blockSize) =
        (arange blockSize).map fun o => decide (o < ((kept - i * blockSize : ℕ) : ℤ)) := by
    rw [List.zipWith_map_left, List.zipWith_self]
    refine List.map_congr_left fun o ho => ?_
    obtain ⟨j, -, rfl⟩ := List.mem_map.mp ho
    rw [← Bool.decide_and, ← Bool.decide_and]
    refine decide_eq_decide.mpr ?_
    generalize i * blockSize = base
    omega
  have hselect := select_offsets 0 blockSize (kept - i * blockSize)
  simp only [zero_add, List.map_id'] at hselect
  rw [hmask, map_select, hselect]

/-- **One block is stored** in its request's row. -/
theorem storeBlock_eq (before after : List (Option ℤ)) (indexStart : ℤ) (blockSize kept k : ℕ) :
    storeBlock before.length (before.length + kept) indexStart blockSize
        (before ++ rowAfter indexStart blockSize kept k ++ after) k =
      some (before ++ rowAfter indexStart blockSize kept (k + 1) ++ after) := by
  have hplaces := select_storeBlock before.length blockSize kept k
    fun o => (before.length : ℤ) + (k * blockSize : ℕ) + o
  have hvalues := select_storeBlock before.length blockSize kept k fun o => indexStart + o
  rw [map_add_segment, add_zero] at hplaces hvalues
  rw [Nat.cast_mul] at hplaces hvalues
  unfold storeBlock
  dsimp only
  rw [hplaces, hvalues]
  change scatter _ _ (storedBlock indexStart blockSize kept k) = _
  by_cases hdone : kept ≤ k * blockSize
  · -- the row is full, and the block empty
    have hnone : min (kept - k * blockSize) blockSize = 0 := by omega
    have hempty : storedBlock indexStart blockSize kept k = [] := by
      rw [storedBlock, hnone]
      rfl
    have hrow : rowAfter indexStart blockSize kept (k + 1) =
        rowAfter indexStart blockSize kept k := by
      rw [rowAfter, List.range_succ, List.flatMap_append, List.flatMap_singleton, hempty,
        List.append_nil, rowAfter, Nat.sub_eq_zero_of_le hdone,
        Nat.sub_eq_zero_of_le (hdone.trans (Nat.mul_le_mul_right _ (Nat.le_succ k)))]
    rw [hnone, hempty, hrow]
    rfl
  · have hlen : (before ++ (List.range k).flatMap (storedBlock indexStart blockSize kept)).length =
        before.length + k * blockSize := by
      rw [List.length_append, length_storedBlocks]
      omega
    have hscatter := scatter_segment
      (before ++ (List.range k).flatMap (storedBlock indexStart blockSize kept))
      (List.replicate (min (kept - k * blockSize) blockSize) none)
      (storedBlock indexStart blockSize kept k)
      (List.replicate (kept - (k + 1) * blockSize) none ++ after) (by simp [storedBlock])
    have hrest : kept - k * blockSize =
        min (kept - k * blockSize) blockSize + (kept - (k + 1) * blockSize) := by
      rw [Nat.add_mul, Nat.one_mul]
      omega
    have hold : before ++ rowAfter indexStart blockSize kept k ++ after =
        before ++ (List.range k).flatMap (storedBlock indexStart blockSize kept) ++
          List.replicate (min (kept - k * blockSize) blockSize) none ++
            (List.replicate (kept - (k + 1) * blockSize) none ++ after) := by
      rw [rowAfter]
      conv_lhs => rw [hrest, ← List.replicate_append_replicate]
      simp only [List.append_assoc]
    rw [hlen, storedBlock, List.length_map, length_segment, Nat.cast_add, Nat.cast_mul] at hscatter
    rw [hold]
    refine hscatter.trans ?_
    rw [rowAfter, List.range_succ, List.flatMap_append, List.flatMap_singleton]
    simp only [List.append_assoc, storedBlock]

/-- The row the loop over the blocks leaves. -/
def eagleRow (blockSize : ℕ) (d : Placed (TargetRequest H)) : List (Option ℤ) :=
  rowAfter d.start blockSize d.data.kept (numBlocks d.data.kept blockSize)

/-- **The loop over the blocks fills every request's row.** -/
theorem prepareEagleInputSequential_eq (blockSize : ℕ) :
    prepareEagleInputSequential (List.replicate (reqs.map TargetRequest.kept).sum none)
      (cuTargetQueryLens reqs) (cuKept reqs) blockSize =
        some ((placed TargetRequest.tokens 0 reqs).flatMap (eagleRow blockSize)) := by
  have hblank : List.replicate (reqs.map TargetRequest.kept).sum (none : Option ℤ) =
      ((placed TargetRequest.tokens 0 reqs).map fun d =>
        List.replicate d.data.kept (none : Option ℤ)).flatten := by
    rw [← List.flatMap_def, flatMap_placed TargetRequest.tokens
      (fun r => List.replicate r.kept (none : Option ℤ)), flatMap_replicate_eq]
  rw [prepareEagleInputSequential, hblank, List.flatMap_def]
  refine foldlM_range_rows List.flatten ?_ ?_ ?_
  · simp [cuKept]
  · simp [cuKept]
  · intro r x y before after hx hy hlen hbefore
    rw [List.getElem?_map, Option.map_eq_some_iff] at hx hy
    obtain ⟨d, hd, rfl⟩ := hx
    obtain ⟨d', hd', rfl⟩ := hy
    cases hd.symm.trans hd'
    obtain ⟨e, he, hdata⟩ := exists_placed (fun r => List.replicate r.kept (none : Option ℤ)) (s := 0)
      (getElem?_of_placed hd)
    have hfront : e.start = before.flatten.length := by
      rw [start_eq he, Nat.zero_add, hbefore, ← List.map_take, ← List.flatMap_def,
        List.length_flatMap, List.length_flatMap]
      refine congrArg List.sum ?_
      simp only [List.length_replicate, eagleRow, length_rowAfter]
      rw [List.map_take, List.map_take]
      exact congrArg (List.take r) (map_placed TargetRequest.tokens TargetRequest.kept 0 reqs).symm
    have hcu : cuKept reqs = 0 :: cumsum 0
        ((reqs.map fun r => (List.replicate r.kept (none : Option ℤ)).length).map Nat.cast) := by
      simp only [cuKept, List.length_replicate]
    have hstart : item (cuKept reqs) r = some (before.flatten.length : ℤ) := by
      rw [item_natCast, hcu, ← hfront]
      exact getElem?_cons_cumsum he
    have hend : item (cuKept reqs) ((r : ℤ) + 1) =
        some ((before.flatten.length : ℤ) + d.data.kept) := by
      rw [← Nat.cast_succ, item_natCast, hcu, List.getElem?_cons_succ]
      refine (getElem?_cumsum he).trans ?_
      rw [hfront, hdata, List.length_replicate]
    have hindex : item (cuTargetQueryLens reqs) r = some (d.start : ℤ) := by
      rw [item_natCast]
      exact getElem?_cons_cumsum hd
    have hkept : (before.flatten.length : ℤ) + d.data.kept - before.flatten.length =
        (d.data.kept : ℤ) := by omega
    simp only [hstart, hend, hindex, Option.bind_eq_bind, Option.bind_some, hkept,
      List.flatten_append, List.flatten_cons, ← List.append_assoc]
    -- the rows of the other requests stay where they are
    have hblankRow : List.replicate d.data.kept (none : Option ℤ) =
        rowAfter d.start blockSize d.data.kept 0 := by simp [rowAfter]
    rw [hblankRow]
    exact foldlM_range_eq
      (fun k => before.flatten ++ rowAfter d.start blockSize d.data.kept k ++ after.flatten)
      fun k _ => storeBlock_eq before.flatten after.flatten d.start blockSize d.data.kept k

/-- A count of few bits is stored exactly. -/
theorem roundSignificand_of_lt {w n : ℕ} (h : n < 2 ^ w) : roundSignificand w n = n := by
  have hsize : n.size - w = 0 := Nat.sub_eq_zero_of_le (Nat.size_le.mpr h)
  simp [roundSignificand, hsize, Nat.mod_one]

/-- Within one block there is one block, or none for no tokens. -/
theorem numBlocks_of_le {kept : ℕ} (h : kept ≤ drafterBlockSize) :
    numBlocks kept drafterBlockSize = if kept = 0 then 0 else 1 := by
  have hlt : kept < 2 ^ 24 := by
    unfold drafterBlockSize at h
    omega
  rw [numBlocks, Int.toNat_natCast, roundSignificand_of_lt hlt]
  unfold drafterBlockSize at h ⊢
  split <;> omega

/-- The first place beyond the first block is never written, or holds the start of the row again. -/
theorem rowAfter_second (indexStart : ℤ) {blockSize kept : ℕ} (hpos : 0 < blockSize)
    (hlong : blockSize < kept) (k : ℕ) :
    (rowAfter indexStart blockSize kept k)[blockSize]? = some none ∨
      (rowAfter indexStart blockSize kept k)[blockSize]? = some (some indexStart) := by
  have hfirst : (storedBlock indexStart blockSize kept 0).length = blockSize := by
    rw [storedBlock, List.length_map, length_segment]
    omega
  match k with
  | 0 => exact .inl (by simp [rowAfter, hlong])
  | 1 =>
    refine .inl ?_
    rw [rowAfter, List.range_one, List.flatMap_singleton, List.getElem?_append_right hfirst.le,
      hfirst]
    simp [hlong]
  | k + 2 =>
    refine .inr ?_
    obtain ⟨m, hm⟩ : ∃ m, min (kept - 1 * blockSize) blockSize = m + 1 :=
      ⟨min (kept - 1 * blockSize) blockSize - 1, by omega⟩
    have hsecond : storedBlock indexStart blockSize kept 1 =
        some indexStart :: (segment (indexStart + 1) m).map some := by
      rw [storedBlock, hm, segment_succ, List.map_cons]
    have hrange : List.range (k + 2) = 0 :: 1 :: (List.range k).map fun i => i + 2 := by
      rw [List.range_succ_eq_map, List.range_succ_eq_map, List.map_cons, List.map_map]
      rfl
    rw [rowAfter, hrange, List.flatMap_cons, List.flatMap_cons, hsecond, List.append_assoc,
      List.getElem?_append_right hfirst.le, hfirst, Nat.sub_self]
    rfl

/-- A request of more than one block does not get its indices. -/
theorem eagleRow_eq_iff (d : Placed (TargetRequest H)) :
    eagleRow drafterBlockSize d = (segment d.start d.data.kept).map some ↔
      d.data.kept ≤ drafterBlockSize := by
  constructor
  · intro h
    by_contra hlong
    have hlt : drafterBlockSize < d.data.kept := Nat.lt_of_not_le hlong
    have hentry : (eagleRow drafterBlockSize d)[drafterBlockSize]? =
        some (some (d.start + drafterBlockSize : ℤ)) := by
      rw [h, List.getElem?_map, getElem?_segment _ hlt]
      rfl
    obtain hnone | hagain := rowAfter_second d.start (by decide) hlt
      (numBlocks d.data.kept drafterBlockSize)
    · rw [eagleRow, hnone, Option.some.injEq] at hentry
      exact absurd hentry.symm (Option.some_ne_none _)
    · rw [eagleRow, hagain, Option.some.injEq, Option.some.injEq] at hentry
      unfold drafterBlockSize at hentry
      omega
  · intro h
    rw [eagleRow, numBlocks_of_le h]
    split
    · next hzero => simp [rowAfter, hzero]
    · have hmin : min (d.data.kept - 0 * drafterBlockSize) drafterBlockSize = d.data.kept := by omega
      rw [rowAfter, List.range_one, List.flatMap_singleton, storedBlock, hmin, Nat.one_mul,
        Nat.sub_eq_zero_of_le h, List.replicate_zero, List.append_nil]

/-- The EAGLE drafter's inputs on a batch. -/
def EagleProposer.prepareBatch : Option (List ℤ × List (Option ℤ)) :=
  prepareInputs (cuTargetQueryLens reqs) (numRejectedTokens reqs)
    (reqs.map TargetRequest.kept).sum

/-- What `prepare_inputs` returns. -/
theorem EagleProposer.prepareBatch_eq : prepareBatch reqs =
    some (cuKept reqs,
      (placed TargetRequest.tokens 0 reqs).flatMap (eagleRow drafterBlockSize)) := by
  have hloop := prepareEagleInputSequential_eq reqs drafterBlockSize
  unfold cuKept at hloop ⊢
  unfold prepareBatch prepareInputs
  simp only [numTokensPerReq_eq, Option.bind_eq_bind, hloop, Option.bind_some]
  rfl

theorem EagleProposer.prepareBatch_iff :
    prepareBatch reqs = some (cuKept reqs, (keptIndices reqs).map some) ↔
      ∀ r ∈ reqs, r.kept ≤ drafterBlockSize := by
  have hlen : ∀ d ∈ placed TargetRequest.tokens 0 reqs, (eagleRow drafterBlockSize d).length =
      ((segment d.start d.data.kept).map some).length := fun d _ => by
    rw [eagleRow, length_rowAfter, List.length_map, length_segment]
  have hrows : (∀ r ∈ reqs, r.kept ≤ drafterBlockSize) ↔
      ∀ d ∈ placed TargetRequest.tokens 0 reqs,
        eagleRow drafterBlockSize d = (segment d.start d.data.kept).map some := by
    simp only [eagleRow_eq_iff]
    conv_lhs => rw [← map_data_placed TargetRequest.tokens 0 reqs]
    exact List.forall_mem_map
  rw [prepareBatch_eq, hrows, keptIndices, List.map_flatMap, Option.some.injEq, Prod.mk.injEq]
  exact ⟨fun h => flatMap_inj hlen h.2, fun h => ⟨rfl, List.flatMap_congr h⟩⟩

/-! ## Which batches get their indices -/

/-- **The MTP drafter's indices are those of the kept tokens exactly when no request keeps more than
one block.** -/
theorem MtpProposer.mtpIndices_iff :
    (∃ inputs, prepareInputs (cuTargetQueryLens reqs) (numRejectedTokens reqs)
        ((reqs.flatMap TargetRequest.tokens).map TargetToken.tokenId)
        ((reqs.flatMap TargetRequest.tokens).map TargetToken.position)
        ((reqs.flatMap TargetRequest.tokens).map TargetToken.hiddenState)
        ((reqs.flatMap TargetRequest.tokens).map TargetToken.slot) false = some inputs ∧
      inputs.cuNumTokens = cuKept reqs ∧ inputs.tokenIndices = keptIndices reqs) ↔
      ∀ r ∈ reqs, r.kept ≤ drafterBlockSize :=
  prepareBatch_iff reqs

/-- **The EAGLE drafter's indices are written, and those of the kept tokens, exactly when no request
keeps more than one block.** -/
theorem EagleProposer.eagleIndices_iff :
    prepareInputs (cuTargetQueryLens reqs) (numRejectedTokens reqs)
        (reqs.map TargetRequest.kept).sum = some (cuKept reqs, (keptIndices reqs).map some) ↔
      ∀ r ∈ reqs, r.kept ≤ drafterBlockSize :=
  prepareBatch_iff reqs

end Step

/-- A prefill chunk of `n` tokens, none rejected. -/
def TargetRequest.chunk (n : ℕ) : TargetRequest Unit where
  tokens := List.replicate n ⟨0, 0, (), 0⟩
  rejected := 0
  rejected_le := Nat.zero_le _

theorem TargetRequest.kept_chunk (n : ℕ) : (chunk n).kept = n := by
  simp [chunk, kept]

/-- A chunk one token longer than a block. -/
theorem chunk_kept : ¬ ∀ r ∈ [TargetRequest.chunk 1025], r.kept ≤ drafterBlockSize := by
  rw [List.forall_mem_singleton, TargetRequest.kept_chunk]
  decide

/-- …does not get its last index from the MTP drafter, -/
theorem MtpProposer.mtpIndices_misses :
    ¬ ∃ inputs, prepareInputs (cuTargetQueryLens [TargetRequest.chunk 1025])
        (numRejectedTokens [TargetRequest.chunk 1025])
        (([TargetRequest.chunk 1025].flatMap TargetRequest.tokens).map TargetToken.tokenId)
        (([TargetRequest.chunk 1025].flatMap TargetRequest.tokens).map TargetToken.position)
        (([TargetRequest.chunk 1025].flatMap TargetRequest.tokens).map TargetToken.hiddenState)
        (([TargetRequest.chunk 1025].flatMap TargetRequest.tokens).map TargetToken.slot) false =
          some inputs ∧
      inputs.cuNumTokens = cuKept [TargetRequest.chunk 1025] ∧
      inputs.tokenIndices = keptIndices [TargetRequest.chunk 1025] :=
  mt (prepareBatch_iff [TargetRequest.chunk 1025]).mp chunk_kept

/-- …nor from the EAGLE drafter. -/
theorem EagleProposer.eagleIndices_misses :
    prepareInputs (cuTargetQueryLens [TargetRequest.chunk 1025])
        (numRejectedTokens [TargetRequest.chunk 1025])
        ([TargetRequest.chunk 1025].map TargetRequest.kept).sum ≠
      some (cuKept [TargetRequest.chunk 1025],
        (keptIndices [TargetRequest.chunk 1025]).map some) :=
  mt (prepareBatch_iff [TargetRequest.chunk 1025]).mp chunk_kept

end VllmAscend
