import VllmAscend.Machinery.FlatRows
import VllmAscend.Machinery.Launch

/-!
# Worker/PrepareInputs — the batch, flattened

    row            0        1              2
    scheduled      ●●●      ●              ●●
    positions      c₀ …     c₁             c₂ c₂+1
    input ids      token_ids_cpu[row, position]
    slots          block_table[row, position / block_size] * block_size + position % block_size

`_prepare_inputs` computes one flat array after the other for all tokens of a step, from repeats, running
sums and reads of two matrices that are laid out flat with strides of their own.  Every array is row by row
what it should be (`prepareInputs_eq`), and no slot is written twice when no block is
(`prepareInputs_slots`).
-/

namespace VllmAscend

open Machinery

/-- The sizes the runner is made with. -/
structure InputSizes where
  maxNumReqs : ℕ
  maxNumTokens : ℕ
  maxModelLen : ℕ
  blockSize : ℕ

/-- `cdiv(max_model_len, block_size)` -/
def InputSizes.maxNumBlocksPerReq (n : InputSizes) : ℕ := ceilDiv n.maxModelLen n.blockSize

/-- The arrays that the runner keeps from step to step. -/
structure InputBuffers where
  arangeNp : List ℤ
  positionsNp : List ℤ
  seqLensNp : List ℤ
  slotMappingNp : List ℤ
  queryStartLocNp : List ℤ
  inputIdsCpu : List ℤ

/-- What `__init__` makes them with; only the first keeps its values. -/
structure InputBuffers.Sized (n : InputSizes) (buffers : InputBuffers) : Prop where
  arangeNp : buffers.arangeNp = arange (max (n.maxNumReqs + 1) (max n.maxModelLen n.maxNumTokens))
  positionsNp : buffers.positionsNp.length = n.maxNumTokens
  seqLensNp : buffers.seqLensNp.length = n.maxNumReqs
  slotMappingNp : buffers.slotMappingNp.length = n.maxNumTokens
  queryStartLocNp : buffers.queryStartLocNp.length = n.maxNumReqs + 1
  inputIdsCpu : buffers.inputIdsCpu.length = n.maxNumTokens

/-- The arrays of the batch that are read, with a row for each request there can be. -/
structure BatchArrays where
  numReqs : ℕ
  numComputedTokensCpu : List ℤ
  tokenIdsCpu : List (List ℤ)
  blockTableCpu : List (List ℤ)

/-- The part of `_prepare_inputs` that flattens the batch; `total` is `total_num_scheduled_tokens`. -/
def InputBuffers.prepareInputs (buffers : InputBuffers) (n : InputSizes) (batch : BatchArrays)
    (numScheduledTokens : List ℕ) (total : ℕ) : Option InputBuffers := do
  let reqIndices := repeatInterleave (buffers.arangeNp.take batch.numReqs) numScheduledTokens
  let cuNumTokens := cumsum 0 (numScheduledTokens.map Nat.cast)
  let cumsumsOffsets := repeatInterleave
    (List.zipWith (· - ·) cuNumTokens (numScheduledTokens.map Nat.cast)) numScheduledTokens
  let arange := List.zipWith (· - ·) (buffers.arangeNp.take total) cumsumsOffsets
  let computed ← gather batch.numComputedTokensCpu reqIndices
  let positions := List.zipWith (· + ·) computed arange
  let positionsNp ← setSlice buffers.positionsNp 0 total positions
  let seqLensNp ← setSlice buffers.seqLensNp 0 batch.numReqs
    (List.zipWith (· + ·) (batch.numComputedTokensCpu.take batch.numReqs)
      (numScheduledTokens.map Nat.cast))
  let blockTableIndices := List.zipWith (fun (i p : ℤ) => i * n.maxNumBlocksPerReq + p / n.blockSize)
    reqIndices positions
  let blockNumbers ← gather batch.blockTableCpu.flatten blockTableIndices
  let blockOffsets := positions.map (· % (n.blockSize : ℤ))
  let slotMappingNp ← setSlice buffers.slotMappingNp 0 total
    (List.zipWith (· + ·) (blockNumbers.map (· * (n.blockSize : ℤ))) blockOffsets)
  let queryStartLocNp ← setItem buffers.queryStartLocNp 0 0
  let queryStartLocNp ← setSlice queryStartLocNp 1 (batch.numReqs + 1) cuNumTokens
  let tokenIndices := List.zipWith (fun (p i : ℤ) => p + i * n.maxModelLen) positions reqIndices
  let inputIds ← gather batch.tokenIdsCpu.flatten tokenIndices
  let inputIdsCpu ← setSlice buffers.inputIdsCpu 0 total inputIds
  return { buffers with positionsNp, seqLensNp, slotMappingNp, queryStartLocNp, inputIdsCpu }

/-! ## Row by row -/

/-- A request of the step: its row of the batch, and what is scheduled of it. -/
structure ScheduledRow where
  numScheduledTokens : ℕ
  numComputedTokens : ℕ
  tokenIds : List ℤ
  blockIds : List ℤ

namespace ScheduledRow

def positions (r : ScheduledRow) : List ℤ :=
  (List.range r.numScheduledTokens).map fun t => ((r.numComputedTokens + t : ℕ) : ℤ)

def inputIds (r : ScheduledRow) : List ℤ :=
  (List.range r.numScheduledTokens).map fun t => r.tokenIds.getD (r.numComputedTokens + t) 0

/-- The slot of the `t`-th token. -/
def slot (blockSize : ℕ) (r : ScheduledRow) (t : ℕ) : ℤ :=
  r.blockIds.getD ((r.numComputedTokens + t) / blockSize) 0 * blockSize +
    ((r.numComputedTokens + t) % blockSize : ℕ)

def slots (blockSize : ℕ) (r : ScheduledRow) : List ℤ :=
  (List.range r.numScheduledTokens).map (r.slot blockSize)

end ScheduledRow

/-- The rows are those of the batch, and each fits into the arrays. -/
structure BatchArrays.Holds (n : InputSizes) (batch : BatchArrays) (rows : List ScheduledRow) : Prop where
  numReqs : batch.numReqs = rows.length
  le : rows.length ≤ n.maxNumReqs
  computed : batch.numComputedTokensCpu.take rows.length = rows.map fun r => (r.numComputedTokens : ℤ)
  tokenIds : batch.tokenIdsCpu.take rows.length = rows.map ScheduledRow.tokenIds
  width : ∀ row ∈ batch.tokenIdsCpu, row.length = n.maxModelLen
  blockIds : batch.blockTableCpu.take rows.length = rows.map ScheduledRow.blockIds
  blocks : ∀ row ∈ batch.blockTableCpu, row.length = n.maxNumBlocksPerReq
  fits : ∀ r ∈ rows, r.numComputedTokens + r.numScheduledTokens ≤ n.maxModelLen

section Rows

variable {n : InputSizes} {batch : BatchArrays} {rows : List ScheduledRow}

/-- A row of the batch, by its number. -/
theorem BatchArrays.Holds.row {α : Type} {xs : List α} {g : ScheduledRow → α}
    (h : xs.take rows.length = rows.map g) {d : ScheduledRow × ℕ} (hd : d ∈ rows.zipIdx) :
    xs[d.2]? = some (g d.1) := by
  have hget := List.mem_zipIdx_iff_getElem?.mp hd
  have hlt := (List.getElem?_eq_some_iff.mp hget).1
  rw [← List.getElem?_take_of_lt hlt, h, List.getElem?_map, hget]
  rfl

/-- The position of a token is in a block of its row. -/
theorem InputSizes.block_lt (hblock : 0 < n.blockSize) {p : ℕ} (hp : p < n.maxModelLen) :
    p / n.blockSize < n.maxNumBlocksPerReq :=
  (Nat.div_lt_iff_lt_mul hblock).mpr (hp.trans_le (le_ceilDiv_mul _ hblock))

/-- **The row of every token.** -/
theorem reqIndices_eq (rows : List ScheduledRow) :
    repeatInterleave (arange rows.length) (rows.map ScheduledRow.numScheduledTokens) =
      rows.zipIdx.flatMap fun d => List.replicate d.1.numScheduledTokens (d.2 : ℤ) := by
  have hnumbers : arange rows.length = rows.zipIdx.map fun d => (d.2 : ℤ) := by
    rw [← Function.comp_def, ← List.map_map, List.zipIdx_map_snd, ← List.range_eq_range', arange,
      Machinery.segment]
    simp
  have hcounts : rows.map ScheduledRow.numScheduledTokens =
      rows.zipIdx.map fun d => d.1.numScheduledTokens := by
    rw [← Function.comp_def, ← List.map_map, List.zipIdx_map_fst]
  rw [hnumbers, hcounts]
  exact repeatInterleave_map _ _ _

/-- **The computed tokens of the row, at every token.** -/
theorem BatchArrays.Holds.gather_computed (h : batch.Holds n rows) :
    gather batch.numComputedTokensCpu
        (rows.zipIdx.flatMap fun d => List.replicate d.1.numScheduledTokens (d.2 : ℤ)) =
      some (rows.zipIdx.flatMap fun d =>
        List.replicate d.1.numScheduledTokens (d.1.numComputedTokens : ℤ)) := by
  refine gather_flatMap fun d hd => gather_replicate _ ?_
  rw [item_natCast]
  exact BatchArrays.Holds.row h.computed hd

/-- **The position of every token.** -/
theorem positions_eq (rows : List ScheduledRow) :
    List.zipWith (· + ·)
        (rows.zipIdx.flatMap fun d =>
          List.replicate d.1.numScheduledTokens (d.1.numComputedTokens : ℤ))
        ((rows.map ScheduledRow.numScheduledTokens).flatMap (Machinery.segment 0)) =
      rows.zipIdx.flatMap fun d => d.1.positions := by
  have harange : (rows.map ScheduledRow.numScheduledTokens).flatMap (Machinery.segment 0) =
      rows.zipIdx.flatMap fun d => Machinery.segment 0 d.1.numScheduledTokens := by
    rw [List.flatMap_map]
    exact (flatMap_zipIdx (fun r => Machinery.segment 0 r.numScheduledTokens) rows).symm
  rw [harange, zipWith_flatMap_rows _ (by simp)]
  refine List.flatMap_congr fun d _ => List.ext_getElem (by simp [ScheduledRow.positions]) ?_
  intro j hj hj'
  simp [ScheduledRow.positions, Machinery.segment]

/-- Places in a matrix laid out flat, row after row: what is computed of row and position. -/
theorem zipWith_positions (f : ℤ → ℤ → ℤ) (rows : List ScheduledRow) :
    List.zipWith f (rows.zipIdx.flatMap fun d => List.replicate d.1.numScheduledTokens (d.2 : ℤ))
        (rows.zipIdx.flatMap fun d => d.1.positions) =
      rows.zipIdx.flatMap fun d => (List.range d.1.numScheduledTokens).map fun t =>
        f d.2 (d.1.numComputedTokens + t : ℕ) := by
  rw [zipWith_flatMap_rows _ (by simp [ScheduledRow.positions])]
  refine List.flatMap_congr fun d _ => List.ext_getElem (by simp [ScheduledRow.positions]) ?_
  intro j hj hj'
  simp [ScheduledRow.positions]

/-- **The block of every token.** -/
theorem BatchArrays.Holds.gather_blocks (h : batch.Holds n rows) (hblock : 0 < n.blockSize) :
    gather batch.blockTableCpu.flatten
        (rows.zipIdx.flatMap fun d => (List.range d.1.numScheduledTokens).map fun t =>
          ((d.2 : ℤ) * n.maxNumBlocksPerReq + ((d.1.numComputedTokens + t : ℕ) : ℤ) / n.blockSize)) =
      some (rows.zipIdx.flatMap fun d => (List.range d.1.numScheduledTokens).map fun t =>
        d.1.blockIds.getD ((d.1.numComputedTokens + t) / n.blockSize) 0) := by
  refine gather_flatMap fun d hd => ?_
  have hrow := BatchArrays.Holds.row h.blockIds hd
  have hwidth := h.blocks _ (List.mem_of_getElem? hrow)
  have hfits := h.fits d.1 (List.fst_mem_of_mem_zipIdx hd)
  refine gather_flatten_row h.blocks hrow fun t ht => ?_
  have hlt : (d.1.numComputedTokens + t) / n.blockSize < d.1.blockIds.length := by
    rw [hwidth]
    exact InputSizes.block_lt hblock (by have := List.mem_range.mp ht; omega)
  rw [List.getD_eq_getElem _ _ hlt, List.getElem?_eq_getElem hlt]

/-- **The id of every token.** -/
theorem BatchArrays.Holds.gather_tokenIds (h : batch.Holds n rows) :
    gather batch.tokenIdsCpu.flatten
        (rows.zipIdx.flatMap fun d => (List.range d.1.numScheduledTokens).map fun t =>
          (((d.1.numComputedTokens + t : ℕ) : ℤ) + (d.2 : ℤ) * n.maxModelLen)) =
      some (rows.zipIdx.flatMap fun d => d.1.inputIds) := by
  refine gather_flatMap fun d hd => ?_
  have hrow := BatchArrays.Holds.row h.tokenIds hd
  have hwidth := h.width _ (List.mem_of_getElem? hrow)
  have hfits := h.fits d.1 (List.fst_mem_of_mem_zipIdx hd)
  have hplaces : ∀ t : ℕ, ((d.1.numComputedTokens + t : ℕ) : ℤ) + (d.2 : ℤ) * n.maxModelLen =
      ((d.2 * n.maxModelLen + (d.1.numComputedTokens + t) : ℕ) : ℤ) := by
    intro t
    rw [Nat.cast_add (d.2 * n.maxModelLen), Nat.cast_mul, add_comm]
  simp only [hplaces]
  refine gather_flatten_row h.width hrow fun t ht => ?_
  have hlt : d.1.numComputedTokens + t < d.1.tokenIds.length := by
    have := List.mem_range.mp ht
    omega
  rw [List.getD_eq_getElem _ _ hlt, List.getElem?_eq_getElem hlt]

/-- A slice from the front is overwritten. -/
theorem setSlice_front {xs ys : List ℤ} {k : ℕ} (hys : ys.length = k) (hk : k ≤ xs.length) :
    setSlice xs 0 k ys = some (ys ++ xs.drop k) := by
  have hset := setSlice_append [] (xs.take k) ys (xs.drop k) (i := 0) (j := k) rfl
    (by rw [hys]; simp) (by rw [List.length_take_of_le hk, hys])
  rwa [List.nil_append, List.take_append_drop] at hset

/-- **The slot of every token.** -/
theorem slots_eq (blockSize : ℕ) (rows : List ScheduledRow) :
    List.zipWith (· + ·)
        ((rows.zipIdx.flatMap fun d => (List.range d.1.numScheduledTokens).map fun t =>
          d.1.blockIds.getD ((d.1.numComputedTokens + t) / blockSize) 0).map (· * (blockSize : ℤ)))
        ((rows.zipIdx.flatMap fun d => d.1.positions).map (· % (blockSize : ℤ))) =
      rows.zipIdx.flatMap fun d => d.1.slots blockSize := by
  rw [List.map_flatMap, List.map_flatMap, zipWith_flatMap_rows _ (by simp [ScheduledRow.positions])]
  refine List.flatMap_congr fun d _ => List.ext_getElem (by simp [ScheduledRow.positions, ScheduledRow.slots]) ?_
  intro j hj hj'
  simp [ScheduledRow.positions, ScheduledRow.slots, ScheduledRow.slot]

theorem length_flatMap_range {α : Type} (g : ScheduledRow → ℕ → α) (rows : List ScheduledRow) :
    (rows.flatMap fun r => (List.range r.numScheduledTokens).map (g r)).length =
      (rows.map ScheduledRow.numScheduledTokens).sum := by
  rw [List.length_flatMap]
  simp

/-- **Every array is row by row what it should be**: positions, slots and input ids of the tokens in the
order of the rows, the running sums of the lengths and the lengths of the sequences. -/
theorem InputBuffers.prepareInputs_eq {buffers : InputBuffers} (hsized : buffers.Sized n)
    (hblock : 0 < n.blockSize) (h : batch.Holds n rows) {total : ℕ}
    (htotal : (rows.map ScheduledRow.numScheduledTokens).sum = total) (hle : total ≤ n.maxNumTokens) :
    buffers.prepareInputs n batch (rows.map ScheduledRow.numScheduledTokens) total =
      some { buffers with
        positionsNp := rows.flatMap ScheduledRow.positions ++ buffers.positionsNp.drop total
        seqLensNp := (rows.map fun r => ((r.numComputedTokens + r.numScheduledTokens : ℕ) : ℤ)) ++
          buffers.seqLensNp.drop rows.length
        slotMappingNp := rows.flatMap (ScheduledRow.slots n.blockSize) ++ buffers.slotMappingNp.drop total
        queryStartLocNp := 0 :: (cumsum 0 (rows.map fun r => (r.numScheduledTokens : ℤ)) ++
          buffers.queryStartLocNp.drop (rows.length + 1))
        inputIdsCpu := rows.flatMap ScheduledRow.inputIds ++ buffers.inputIdsCpu.drop total } := by
  have hreqs := h.le
  have htake : ∀ k ≤ max (n.maxNumReqs + 1) (max n.maxModelLen n.maxNumTokens),
      buffers.arangeNp.take k = arange k := by
    intro k hk
    rw [hsized.arangeNp, arange, segment_take, Nat.min_eq_left hk, arange]
  have hcounts : (rows.map ScheduledRow.numScheduledTokens).map Nat.cast =
      rows.map fun r => (r.numScheduledTokens : ℤ) := by
    rw [List.map_map]
    rfl
  have harange := batchedArange (rows.map ScheduledRow.numScheduledTokens)
  rw [htotal] at harange
  have hblocks := h.gather_blocks hblock
  have hseqLens : List.zipWith (· + ·) (batch.numComputedTokensCpu.take rows.length)
      ((rows.map ScheduledRow.numScheduledTokens).map Nat.cast) =
        rows.map fun r => ((r.numComputedTokens + r.numScheduledTokens : ℕ) : ℤ) := by
    rw [h.computed, hcounts, List.zipWith_map, List.zipWith_self]
    exact List.map_congr_left fun r _ => (Nat.cast_add _ _).symm
  have htokens : List.zipWith (fun (p i : ℤ) => p + i * n.maxModelLen)
      (rows.zipIdx.flatMap fun d => d.1.positions)
      (rows.zipIdx.flatMap fun d => List.replicate d.1.numScheduledTokens (d.2 : ℤ)) =
        rows.zipIdx.flatMap fun d => (List.range d.1.numScheduledTokens).map fun t =>
          (((d.1.numComputedTokens + t : ℕ) : ℤ) + (d.2 : ℤ) * n.maxModelLen) := by
    rw [List.zipWith_comm]
    exact zipWith_positions _ rows
  have hlengthPositions : (rows.flatMap ScheduledRow.positions).length = total :=
    (length_flatMap_range _ rows).trans htotal
  have hlengthSlots : (rows.flatMap (ScheduledRow.slots n.blockSize)).length = total :=
    (length_flatMap_range _ rows).trans htotal
  have hlengthIds : (rows.flatMap ScheduledRow.inputIds).length = total :=
    (length_flatMap_range _ rows).trans htotal
  obtain ⟨first, rest, hstart⟩ : ∃ first rest, buffers.queryStartLocNp = first :: rest :=
    List.exists_cons_of_length_pos (by rw [hsized.queryStartLocNp]; omega)
  have hrest : rows.length ≤ rest.length := by
    have hlength := hsized.queryStartLocNp
    rw [hstart, List.length_cons] at hlength
    omega
  have hitem : setItem buffers.queryStartLocNp 0 0 = some (0 :: rest) := by
    rw [hstart]
    exact setItem_append [] rest first 0 rfl
  have hslice : setSlice (0 :: rest) 1 (rows.length + 1)
      (cumsum 0 (rows.map fun r => (r.numScheduledTokens : ℤ))) =
        some (0 :: (cumsum 0 (rows.map fun r => (r.numScheduledTokens : ℤ)) ++ rest.drop rows.length)) := by
    have hset := setSlice_append [(0 : ℤ)] (rest.take rows.length)
      (cumsum 0 (rows.map fun r => (r.numScheduledTokens : ℤ))) (rest.drop rows.length) (i := 1)
      (j := rows.length + 1) rfl (by simp [add_comm]) (by simp [hrest])
    rwa [List.append_assoc, List.take_append_drop] at hset
  simp only [prepareInputs, h.numReqs, htake rows.length (by omega), htake total (by omega), reqIndices_eq,
    harange, h.gather_computed, positions_eq, zipWith_positions, htokens, hblocks, h.gather_tokenIds,
    slots_eq, Option.bind_eq_bind, Option.bind_some, hseqLens, hitem]
  simp only [hcounts, hstart, hslice, flatMap_zipIdx, Option.bind_some, List.drop_succ_cons,
    setSlice_front hlengthPositions (hle.trans_eq hsized.positionsNp.symm),
    setSlice_front hlengthSlots (hle.trans_eq hsized.slotMappingNp.symm),
    setSlice_front hlengthIds (hle.trans_eq hsized.inputIdsCpu.symm)]
  rw [setSlice_front (List.length_map _) (by rw [hsized.seqLensNp]; exact hreqs)]
  rfl

/-! ## Slots -/

/-- The blocks a row's tokens go to, by their numbers in its table. -/
def ScheduledRow.Writes (blockSize : ℕ) (r : ScheduledRow) (j : ℕ) : Prop :=
  ∃ t < r.numScheduledTokens, j = (r.numComputedTokens + t) / blockSize

/-- Different requests share no block that is written, and no request lists such a block twice. -/
structure BlocksApart (blockSize : ℕ) (rows : List ScheduledRow) : Prop where
  shared : ∀ (i i' : ℕ) (r r' : ScheduledRow), rows[i]? = some r → rows[i']? = some r' → i ≠ i' →
    ∀ j j', r.Writes blockSize j → r'.Writes blockSize j' → r.blockIds.getD j 0 ≠ r'.blockIds.getD j' 0
  twice : ∀ r ∈ rows, ∀ j j', r.Writes blockSize j → r.Writes blockSize j' → j ≠ j' →
    r.blockIds.getD j 0 ≠ r.blockIds.getD j' 0

/-- **No slot is written twice** when no block is. -/
theorem BlocksApart.slots_nodup (hblock : 0 < n.blockSize) (h : BlocksApart n.blockSize rows) :
    (rows.flatMap (ScheduledRow.slots n.blockSize)).Nodup := by
  have hoffset : ∀ p : ℕ, (0 : ℤ) ≤ (p % n.blockSize : ℕ) ∧ ((p % n.blockSize : ℕ) : ℤ) < n.blockSize :=
    fun p => ⟨Int.natCast_nonneg _, Int.ofNat_lt.mpr (Nat.mod_lt _ hblock)⟩
  rw [List.nodup_flatMap]
  refine ⟨fun r hr => List.nodup_range.map_on fun t ht t' ht' heq => ?_, ?_⟩
  · -- in one request, block and offset give the position
    obtain ⟨hblocks, hoffsets⟩ := block_unique heq (hoffset _) (hoffset _)
    have hquot : (r.numComputedTokens + t) / n.blockSize = (r.numComputedTokens + t') / n.blockSize :=
      not_not.mp fun hne => h.twice r hr _ _ ⟨t, List.mem_range.mp ht, rfl⟩
        ⟨t', List.mem_range.mp ht', rfl⟩ hne hblocks
    have hdiv := Nat.div_add_mod (r.numComputedTokens + t) n.blockSize
    have hdiv' := Nat.div_add_mod (r.numComputedTokens + t') n.blockSize
    rw [hquot, Int.ofNat_inj.mp hoffsets, hdiv'] at hdiv
    omega
  · rw [List.pairwise_iff_getElem]
    intro i i' hi hi' hlt
    rw [Function.onFun, List.disjoint_left]
    intro v hv hv'
    obtain ⟨t, ht, rfl⟩ := List.mem_map.mp hv
    obtain ⟨t', ht', heq⟩ := List.mem_map.mp hv'
    obtain ⟨hblocks, -⟩ := block_unique heq (hoffset _) (hoffset _)
    exact h.shared i i' _ _ (List.getElem?_eq_getElem hi) (List.getElem?_eq_getElem hi') hlt.ne _ _
      ⟨t, List.mem_range.mp ht, rfl⟩ ⟨t', List.mem_range.mp ht', rfl⟩ hblocks.symm

end Rows

end VllmAscend
