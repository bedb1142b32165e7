import VllmAscend.Machinery.Collective

/-!
# Ops/SequenceParallel — rows padded, scattered to the ranks and gathered again

    rows     a b c d e           padded     a b │ c d │ e 0
    slices   a b │ c d │ e 0     gathered   a b c d e 0, and the padding is cut off

`MetadataForPadding` holds the sizes: the rows are padded to the next multiple of the group, and every rank
has a slice (`slicesOf`).  Both ways to a slice are the same, and gathering slices of rows or of their sums
returns them (`paddingRoundTrip`), also when a function is applied to every row in between.  A row is an entry
here: `F.pad` of a tensor of rows pads its first dimension, and only that one is ever cut.
-/

namespace VllmAscend

open Machinery

variable {n : ℕ} {V W : Type}

/-! ## Collectives of rows -/

/-- The sums of the rows of all ranks. -/
def sumRows [AddCommMonoid V] (len : ℕ) (xs : Fin n → List V) : List V :=
  (List.range len).map fun k => ∑ r, (xs r).getD k 0

/-- `tensor_model_parallel_all_gather(x, 0)`, of tensors of one length. -/
def tensorModelParallelAllGather (xs : Fin n → List V) : Option (Fin n → List V) :=
  if n = 1 then some xs
  else if ∀ r s, (xs r).length = (xs s).length then some fun _ => (List.ofFn xs).flatten else none

/-- `tensor_model_parallel_reduce_scatter(x, 0)`, of tensors of one length that the group divides. -/
def tensorModelParallelReduceScatter [AddCommMonoid V] (xs : Fin n → List V) : Option (Fin n → List V) :=
  if n = 1 then some xs
  else if ∀ r s, (xs r).length = (xs s).length ∧ (xs r).length % n = 0 then
    some fun r => ((sumRows (xs r).length xs).drop (r * ((xs r).length / n))).take ((xs r).length / n)
  else none

/-! ## The metadata -/

structure MetadataForPadding where
  paddingFlag : Bool
  lengthsSumPadding : ℕ
  lengthsSumUnpadding : ℕ
  padSize : ℕ
  notDummyAndIsPrefill : Bool
  tpSize : ℕ
  tpRankInGroup : ℕ
  sliceSize : ℕ
  mc2Mask : List Bool

/-- `MetadataForPadding(...)`; `none` is the failed assertion. -/
def MetadataForPadding.init (tpSize tpRankInGroup : ℕ) (paddingFlag : Bool)
    (lengthsSumPadding lengthsSumUnpadding padSize : ℕ) (notDummyAndIsPrefill : Bool) :
    Option MetadataForPadding :=
  if lengthsSumPadding % tpSize = 0 then
    some ⟨paddingFlag, lengthsSumPadding, lengthsSumUnpadding, padSize, notDummyAndIsPrefill, tpSize,
      tpRankInGroup, lengthsSumPadding / tpSize,
      (List.range lengthsSumPadding).map fun i => decide (i < lengthsSumUnpadding)⟩
  else none

/-- The attributes that `init_metadata_for_sp` looks for; `none` is a missing one. -/
structure SpAttnMetadata where
  isOnlyPrefill : Option Bool
  numPrefills : Option ℕ

/-- `is_perifll` -/
def SpAttnMetadata.isPrefill (attnMetadata : SpAttnMetadata) : Bool :=
  attnMetadata.isOnlyPrefill = some true ∨ 0 < attnMetadata.numPrefills.getD 0

/-- `init_metadata_for_sp`, for `numTokens` input ids. -/
def initMetadataForSp (tpSize tpRankInGroup : ℕ) (attnMetadata : Option SpAttnMetadata) (numTokens : ℕ)
    (enableSequenceParallelism : Bool) : Option MetadataForPadding :=
  if enableSequenceParallelism ∧ attnMetadata.any SpAttnMetadata.isPrefill then
    let lengthsSumPadding := (numTokens + tpSize - 1) / tpSize * tpSize
    MetadataForPadding.init tpSize tpRankInGroup (numTokens ≠ lengthsSumPadding) lengthsSumPadding numTokens
      (lengthsSumPadding - numTokens) true
  else MetadataForPadding.init tpSize tpRankInGroup false 0 0 0 false

namespace MetadataForPadding

variable (md : MetadataForPadding)

/-- `F.pad(data, (0, 0, 0, pad_size))` -/
def padRows [Zero V] (padSize : ℕ) (data : List V) : List V := data ++ List.replicate padSize 0

/-- `padded_data`, where it depends on `padding_flag`. -/
def paddedData [Zero V] (data : List V) : List V := if md.paddingFlag then padRows md.padSize data else data

/-- `padding_slice` -/
def paddingSlice [Zero V] (data : List V) : List V :=
  let start := md.tpRankInGroup * md.sliceSize
  let stop := start + md.sliceSize
  ((padRows md.padSize data).take stop).drop start

/-- `padding_aligned_scatter` -/
def paddingAlignedScatter [Zero V] (data : List V) : Option (List V) :=
  let padded := md.paddedData data
  (splitSizes (tensorSplitSizes padded.length md.tpSize) padded)[md.tpRankInGroup]?

/-- `padding_aligned_reduce_scatter`, called by every rank. -/
def paddingAlignedReduceScatter [AddCommMonoid V] (mds : Fin n → MetadataForPadding) (data : Fin n → List V) :
    Option (Fin n → List V) :=
  tensorModelParallelReduceScatter fun r => (mds r).paddedData (data r)

/-- `allgather_unpadding_aligned`, called by every rank. -/
def allgatherUnpaddingAligned (mds : Fin n → MetadataForPadding) (paddedData : Fin n → List V) :
    Option (Fin n → List V) :=
  (tensorModelParallelAllGather paddedData).map fun gathered r =>
    if (mds r).paddingFlag then (gathered r).take (mds r).lengthsSumUnpadding else gathered r

end MetadataForPadding

/-! ## The sizes -/

/-- **Metadata of a rank**: the rows are padded to slices of one size, one for each rank. -/
structure IsPadding (tpSize numTokens sliceSize rank : ℕ) (md : MetadataForPadding) : Prop where
  tpSize_eq : md.tpSize = tpSize
  rank_eq : md.tpRankInGroup = rank
  unpadding_eq : md.lengthsSumUnpadding = numTokens
  sliceSize_eq : md.sliceSize = sliceSize
  padded_eq : numTokens + md.padSize = tpSize * sliceSize
  flag_eq : md.paddingFlag = true ↔ md.padSize ≠ 0

theorem initMetadataForSp_eq {tpSize : ℕ} (htp : 0 < tpSize) (rank : ℕ) {attnMetadata : Option SpAttnMetadata}
    (hprefill : attnMetadata.any SpAttnMetadata.isPrefill = true) (numTokens : ℕ) :
    ∃ md, initMetadataForSp tpSize rank attnMetadata numTokens true = some md ∧
      IsPadding tpSize numTokens ((numTokens + tpSize - 1) / tpSize) rank md := by
  have hceil : numTokens ≤ (numTokens + tpSize - 1) / tpSize * tpSize := by
    have h := Nat.lt_div_mul_add htp (a := numTokens + tpSize - 1)
    omega
  rw [initMetadataForSp, if_pos ⟨rfl, hprefill⟩]
  simp only [MetadataForPadding.init, Nat.mul_mod_left, if_true]
  refine ⟨_, rfl, rfl, rfl, rfl, Nat.mul_div_cancel _ htp, ?_, ?_⟩
  · rw [Nat.add_sub_cancel' hceil, Nat.mul_comm]
  · simp only [decide_eq_true_iff]
    omega

/-- The slice of a rank. -/
def slicesOf (sliceSize : ℕ) (rows : List V) (r : Fin n) : List V := (rows.drop (r * sliceSize)).take sliceSize

theorem length_slicesOf {m : ℕ} {rows : List V} (h : rows.length = n * m) (r : Fin n) :
    (slicesOf m rows r).length = m := by
  have hle : (r : ℕ) * m + m ≤ rows.length := by
    rw [h, ← Nat.succ_mul]
    exact Nat.mul_le_mul_right m r.isLt
  exact List.length_take_of_le (by rw [List.length_drop]; omega)

theorem slicesOf_map (f : V → W) (m : ℕ) (rows : List V) (r : Fin n) :
    slicesOf m (rows.map f) r = (slicesOf m rows r).map f := by
  rw [slicesOf, slicesOf, List.map_take, List.map_drop]

theorem flatten_slicesOf {m : ℕ} {rows : List V} (h : rows.length = n * m) :
    (List.ofFn (slicesOf (n := n) m rows)).flatten = rows := by
  have hrange : List.ofFn (slicesOf (n := n) m rows) = (List.range n).map fun o => (rows.drop (o * m)).take m := by
    refine List.ext_getElem (by simp) fun i hi hi' => ?_
    rw [List.getElem_ofFn, List.getElem_map, List.getElem_range]
    rfl
  rw [hrange, ← List.flatMap_def, Shaped.flatMap_drop_take m n rows h]

/-- The slice of the only rank. -/
theorem slicesOf_one {m : ℕ} {rows : List V} (h : rows.length = 1 * m) (r : Fin 1) : slicesOf m rows r = rows := by
  rw [slicesOf, Fin.val_eq_zero r, Nat.zero_mul, List.drop_zero, List.take_of_length_le (h.trans (Nat.one_mul m)).le]

/-! ## Slices gathered and sums scattered -/

/-- **Gathering the slices of rows.** -/
theorem tensorModelParallelAllGather_slicesOf {m : ℕ} {rows : List V} (h : rows.length = n * m) :
    tensorModelParallelAllGather (slicesOf (n := n) m rows) = some fun _ => rows := by
  rw [tensorModelParallelAllGather]
  split
  · next hone =>
    subst hone
    exact congrArg some (funext (slicesOf_one h))
  · have hlengths : ∀ r s : Fin n, (slicesOf m rows r).length = (slicesOf m rows s).length := fun r s =>
      (length_slicesOf h r).trans (length_slicesOf h s).symm
    rw [if_pos hlengths, flatten_slicesOf h]

variable [AddCommMonoid V]

theorem length_sumRows (len : ℕ) (xs : Fin n → List V) : (sumRows len xs).length = len := by
  rw [sumRows, List.length_map, List.length_range]

/-- The sum of the rows of one rank. -/
theorem sumRows_one (xs : Fin 1 → List V) (r : Fin 1) : sumRows (xs r).length xs = xs r := by
  refine List.ext_getElem (length_sumRows _ xs) fun k hk hk' => ?_
  simp only [sumRows, List.getElem_map, List.getElem_range, Fin.sum_univ_one]
  rw [Subsingleton.elim 0 r, List.getD_eq_getElem _ _ hk']

/-- **Scattering sums of rows** gives the slices of the sums. -/
theorem tensorModelParallelReduceScatter_eq {m : ℕ} (hn : 0 < n) {xs : Fin n → List V}
    (h : ∀ r, (xs r).length = n * m) :
    tensorModelParallelReduceScatter xs = some (slicesOf m (sumRows (n * m) xs)) := by
  rw [tensorModelParallelReduceScatter]
  split
  · next hone =>
    subst hone
    refine congrArg some (funext fun r => ?_)
    rw [slicesOf_one (length_sumRows _ xs), ← h r, sumRows_one]
  · have hlengths : ∀ r s, (xs r).length = (xs s).length ∧ (xs r).length % n = 0 := fun r s =>
      ⟨(h r).trans (h s).symm, by rw [h r, Nat.mul_mod_right]⟩
    rw [if_pos hlengths]
    refine congrArg some (funext fun r => ?_)
    rw [h r, Nat.mul_div_cancel_left m hn]
    rfl

/-- Rows that are only padding change no sum of the others. -/
theorem take_sumRows {len numTokens : ℕ} (hle : numTokens ≤ len) {xs ys : Fin n → List V}
    (h : ∀ r, ∀ k < numTokens, (xs r).getD k 0 = (ys r).getD k 0) :
    (sumRows len xs).take numTokens = sumRows numTokens ys := by
  rw [sumRows, sumRows, ← List.map_take, List.take_range, Nat.min_eq_left hle]
  exact List.map_congr_left fun k hk => Finset.sum_congr rfl fun r _ => h r k (List.mem_range.mp hk)

namespace IsPadding

variable {tpSize numTokens m rank : ℕ} {md : MetadataForPadding}

/-- Padding depends on the flag only by name. -/
theorem paddedData_eq (h : IsPadding tpSize numTokens m rank md) (data : List V) :
    md.paddedData data = MetadataForPadding.padRows md.padSize data := by
  rw [MetadataForPadding.paddedData]
  rcases Nat.eq_zero_or_pos md.padSize with hzero | hpos
  · rw [if_neg fun hflag => h.flag_eq.mp hflag hzero, MetadataForPadding.padRows, hzero]
    exact (List.append_nil data).symm
  · rw [if_pos (h.flag_eq.mpr hpos.ne')]

theorem length_padRows (h : IsPadding tpSize numTokens m rank md) {data : List V} (hdata : data.length = numTokens) :
    (MetadataForPadding.padRows md.padSize data).length = tpSize * m := by
  rw [MetadataForPadding.padRows, List.length_append, List.length_replicate, hdata, h.padded_eq]

/-- The slice of a rank, cut out of the padded rows. -/
theorem paddingSlice_eq {rank : Fin tpSize} (h : IsPadding tpSize numTokens m rank md) (data : List V) :
    md.paddingSlice data = slicesOf m (MetadataForPadding.padRows md.padSize data) rank := by
  rw [MetadataForPadding.paddingSlice, List.drop_take, h.rank_eq, h.sliceSize_eq, Nat.add_sub_cancel_left]
  rfl

/-- **Both ways to a slice are the same.** -/
theorem paddingAlignedScatter_eq {rank : Fin tpSize} (h : IsPadding tpSize numTokens m rank md) {data : List V}
    (hdata : data.length = numTokens) : md.paddingAlignedScatter data = some (md.paddingSlice data) := by
  have hlength := h.length_padRows hdata
  have hsizes : tensorSplitSizes (tpSize * m) tpSize = List.replicate tpSize m := by
    rw [tensorSplitSizes_of_dvd (Nat.dvd_mul_right tpSize m), Nat.mul_div_cancel_left m rank.pos]
  simp only [MetadataForPadding.paddingAlignedScatter]
  rw [h.paddedData_eq, h.paddingSlice_eq, h.tpSize_eq, h.rank_eq, hlength, hsizes,
    Shaped.splitSizes_replicate hlength, List.getElem?_map, List.getElem?_range rank.isLt]
  rfl

end IsPadding

section Round

variable {numTokens m : ℕ} {mds : Fin n → MetadataForPadding}

/-- **Gathering slices cuts the padding off.** -/
theorem allgatherUnpaddingAligned_slicesOf {V : Type} (h : ∀ r : Fin n, IsPadding n numTokens m r (mds r)) {rows : List V}
    (hrows : rows.length = n * m) :
    MetadataForPadding.allgatherUnpaddingAligned mds (slicesOf m rows) = some fun _ => rows.take numTokens := by
  rw [MetadataForPadding.allgatherUnpaddingAligned, tensorModelParallelAllGather_slicesOf hrows, Option.map_some]
  refine congrArg some (funext fun r => ?_)
  rw [(h r).unpadding_eq]
  split
  · rfl
  · next hflag =>
    -- Without padding there is nothing to cut off.
    have hpad : (mds r).padSize = 0 := by_contra fun hpad => hflag ((h r).flag_eq.mpr hpad)
    have hle : rows.length ≤ numTokens := by rw [hrows, ← (h r).padded_eq, hpad, Nat.add_zero]
    exact (List.take_of_length_le hle).symm

theorem paddingAlignedReduceScatter_eq (hn : 0 < n) (h : ∀ r : Fin n, IsPadding n numTokens m r (mds r))
    {data : Fin n → List V} (hdata : ∀ r, (data r).length = numTokens) :
    ∃ sums : List V, sums.length = n * m ∧ sums.take numTokens = sumRows numTokens data ∧
      MetadataForPadding.paddingAlignedReduceScatter mds data = some (slicesOf m sums) := by
  have hlength : ∀ r, ((mds r).paddedData (data r)).length = n * m := fun r => by
    rw [(h r).paddedData_eq, (h r).length_padRows (hdata r)]
  refine ⟨_, length_sumRows _ _, take_sumRows ?_ fun r k hk => ?_, tensorModelParallelReduceScatter_eq hn hlength⟩
  · rw [← (h ⟨0, hn⟩).padded_eq]
    exact Nat.le_add_right numTokens _
  · rw [(h r).paddedData_eq, MetadataForPadding.padRows]
    exact List.getD_append _ _ _ _ (hk.trans_eq (hdata r).symm)

end Round

/-- **Padded rows come back.**  Both ways to a rank's slice are the same, gathering the slices returns the rows,
and gathering slices of sums returns the sums, also with a function applied to every row in between. -/
theorem paddingRoundTrip {tpSize : ℕ} (htp : 0 < tpSize) {attnMetadata : Fin tpSize → Option SpAttnMetadata}
    (hprefill : ∀ r, (attnMetadata r).any SpAttnMetadata.isPrefill = true) (numTokens : ℕ) :
    ∃ mds : Fin tpSize → MetadataForPadding,
      (∀ r : Fin tpSize, initMetadataForSp tpSize r (attnMetadata r) numTokens true = some (mds r)) ∧
      (∀ data : List V, data.length = numTokens →
        (∀ r, (mds r).paddingAlignedScatter data = some ((mds r).paddingSlice data)) ∧
        MetadataForPadding.allgatherUnpaddingAligned mds (fun r => (mds r).paddingSlice data) =
          some fun _ => data) ∧
      ∀ data : Fin tpSize → List V, (∀ r, (data r).length = numTokens) →
        ∃ scattered, MetadataForPadding.paddingAlignedReduceScatter mds data = some scattered ∧
          MetadataForPadding.allgatherUnpaddingAligned mds scattered = some (fun _ => sumRows numTokens data) ∧
          ∀ (W : Type) (f : V → W),
            MetadataForPadding.allgatherUnpaddingAligned mds (fun r => (scattered r).map f) =
              some fun _ => (sumRows numTokens data).map f := by
  choose mds hmds hpadding using fun r : Fin tpSize => initMetadataForSp_eq htp r (hprefill r) numTokens
  refine ⟨mds, hmds, fun data hdata => ⟨fun r => (hpadding r).paddingAlignedScatter_eq hdata, ?_⟩,
    fun data hdata => ?_⟩
  · -- Every rank pads by the same number of rows.
    have hpad : ∀ r, (mds r).padSize = (mds ⟨0, htp⟩).padSize := fun r =>
      Nat.add_left_cancel ((hpadding r).padded_eq.trans (hpadding ⟨0, htp⟩).padded_eq.symm)
    simp only [(hpadding _).paddingSlice_eq, hpad]
    rw [allgatherUnpaddingAligned_slicesOf hpadding ((hpadding ⟨0, htp⟩).length_padRows hdata), ← hdata]
    simp only [MetadataForPadding.padRows, List.take_left]
  · obtain ⟨sums, hlength, htake, hscatter⟩ := paddingAlignedReduceScatter_eq htp hpadding hdata
    refine ⟨_, hscatter, ?_, fun W f => ?_⟩
    · rw [allgatherUnpaddingAligned_slicesOf hpadding hlength, htake]
    · simp only [← slicesOf_map]
      rw [allgatherUnpaddingAligned_slicesOf hpadding ((List.length_map f).trans hlength), ← List.map_take, htake]

theorem paddingRoundTrip_threeTokens : ∃ mds : Fin 2 → MetadataForPadding,
    (∀ r : Fin 2, initMetadataForSp 2 r (some ⟨some true, none⟩) 3 true = some (mds r)) ∧
      MetadataForPadding.allgatherUnpaddingAligned mds (fun r => (mds r).paddingSlice [5, 6, (7 : ℤ)]) =
        some fun _ => [5, 6, 7] := by
  have hprefill : ∀ r : Fin 2, ((fun _ => some ⟨some true, none⟩ : Fin 2 → Option SpAttnMetadata) r).any
      SpAttnMetadata.isPrefill = true := fun _ => rfl
  obtain ⟨mds, hmds, hslices, -⟩ := paddingRoundTrip (V := ℤ) Nat.two_pos hprefill 3
  exact ⟨mds, hmds, (hslices [5, 6, 7] rfl).2⟩

end VllmAscend
