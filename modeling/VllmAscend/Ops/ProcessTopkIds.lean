import VllmAscend.Machinery.FixedBlocks
import VllmAscend.Machinery.FloatRounding

/-!
# Ops/ProcessTopkIds — sorted ids into fixed buffers

    ids          0 0 1 | 2 2 | 5          two experts for each rank, at most two rows
    buffers      0 0 | 2 2 | 5 6          6 experts: an empty slot says 6
    kept         ✓ ✓ ✗ | ✓ ✓ | ✓

The rank of an id is a division of floats, the place in the rank counts from the last change of the rank,
and what has no place goes to a cell behind the buffers.  Each rank gets its first rows, in order
(`processTopkIds_eq`).
-/

namespace VllmAscend

open Machinery

/-- `process_topk_ids`; `none` is the error for more ranks than experts. -/
def processTopkIds (topkIds : List ℤ) (expertNum epSize maxRowPerEpRank numTokens topK : ℕ) :
    Option (List ℤ × List ℤ) :=
  let originalTotalElements := numTokens * topK
  if originalTotalElements = 0 then
    let outputLen := epSize * maxRowPerEpRank
    some (List.replicate outputLen (expertNum : ℤ), List.replicate originalTotalElements (-1))
  else
  let expertsPerEpRankVal := expertNum / epSize
  if expertsPerEpRankVal = 0 then none
  else do
  let assignedEpRank := topkIds.map fun e : ℤ =>
    truncate (toFloat32 (toFloat32 e / expertsPerEpRankVal))
  let indicesArange := arange topkIds.length
  let isNewSegment :=
    true :: List.zipWith (fun r r' => decide (r ≠ r')) assignedEpRank.tail assignedEpRank.dropLast
  let tempStartMarkers := List.zipWith (fun new i => if new then i else -1) isNewSegment indicesArange
  let startOffsetForEachToken := cummax tempStartMarkers
  let tokenIntraEpRankIdx : List ℤ := List.zipWith (· - ·) indicesArange startOffsetForEachToken
  let isKeptMask := tokenIntraEpRankIdx.map fun j => decide (j < (maxRowPerEpRank : ℤ))
  let cumsumKept := (floatCumsum 0 (isKeptMask.map fun kept => if kept then 1 else 0)).map truncate
  let indicesInRecCondListForAll := cumsumKept.map (· - 1)
  let unpadIndices :=
    List.zipWith (fun kept i => if kept then i else -1) isKeptMask indicesInRecCondListForAll
  let outputLen := epSize * maxRowPerEpRank
  let allDestinationIndices :=
    List.zipWith (fun r j : ℤ => r * maxRowPerEpRank + j) assignedEpRank tokenIntraEpRankIdx
  let tempPadBuffer := List.replicate (outputLen + 1) (expertNum : ℤ)
  let scatterIndices :=
    List.zipWith (fun kept i => if kept then i else (outputLen : ℤ)) isKeptMask allDestinationIndices
  let tempPadBuffer ← scatter tempPadBuffer scatterIndices topkIds
  return (tempPadBuffer.take outputLen, unpadIndices)

/-- The rows for rank `r`, in order: each id and its number. -/
def rowsFor (expertsPerRank : ℕ) (ids : List ℤ) (r : ℕ) : List (ℤ × ℕ) :=
  ids.zipIdx.filter fun p => p.1.toNat / expertsPerRank = r

/-- The slots of the buffers: the first `m` rows for each rank. -/
def slots (expertsPerRank epSize m : ℕ) (ids : List ℤ) : List (Option (ℤ × ℕ)) :=
  (List.range epSize).flatMap fun r => padBlock m (rowsFor expertsPerRank ids r)

/-- Which rows are among the first `m` for their rank. -/
def keptMask (expertsPerRank epSize m : ℕ) (ids : List ℤ) : List Bool :=
  (List.range epSize).flatMap fun r =>
    (List.range (rowsFor expertsPerRank ids r).length).map fun j => decide (j < m)

/-- Sorted ids of experts that are spread evenly over the ranks, few enough for floats. -/
structure IsExpanded (expertNum epSize : ℕ) (ids : List ℤ) : Prop where
  epSize_dvd : epSize ∣ expertNum
  sorted : ids.Pairwise (· ≤ ·)
  bounds : ∀ id ∈ ids, 0 ≤ id ∧ id < expertNum
  expertNum_le : expertNum ≤ 2 ^ 24
  length_le : ids.length ≤ 2 ^ 24

section Rows

variable {expertNum epSize m : ℕ} {ids : List ℤ}

theorem IsExpanded.rank_lt (h : IsExpanded expertNum epSize ids) {id : ℤ} (hid : id ∈ ids) :
    0 < expertNum / epSize ∧ id.toNat / (expertNum / epSize) < epSize := by
  obtain ⟨k, hk⟩ := h.epSize_dvd
  obtain ⟨hlow, hhigh⟩ := h.bounds id hid
  have hpos : 0 < expertNum := by omega
  have hsize : 0 < epSize := Nat.pos_of_ne_zero fun hzero => by
    rw [hzero, Nat.zero_mul] at hk
    omega
  have hdiv : expertNum / epSize = k := by rw [hk, Nat.mul_div_cancel_left _ hsize]
  have hk' : 0 < k := Nat.pos_of_ne_zero fun hzero => by
    rw [hzero, Nat.mul_zero] at hk
    omega
  rw [hdiv]
  exact ⟨hk', (Nat.div_lt_iff_lt_mul hk').mpr (by rw [← hk]; omega)⟩

/-- **The rows are those for each rank**, rank by rank. -/
theorem IsExpanded.zipIdx_eq (h : IsExpanded expertNum epSize ids) :
    ids.zipIdx = (List.range epSize).flatMap (rowsFor (expertNum / epSize) ids) := by
  refine eq_groups_of_sorted (fun p : ℤ × ℕ => p.1.toNat / (expertNum / epSize)) ?_ fun p hp => ?_
  · have hsorted := h.sorted
    rw [← List.zipIdx_map_fst 0 ids, List.pairwise_map] at hsorted
    exact hsorted.imp fun hle => Nat.div_le_div_right (Int.toNat_le_toNat hle)
  · exact (h.rank_lt (List.fst_mem_of_mem_zipIdx hp)).2

theorem rowsFor_key {r : ℕ} {p : ℤ × ℕ} (hp : p ∈ rowsFor (expertNum / epSize) ids r) :
    p.1.toNat / (expertNum / epSize) = r ∧ ids[p.2]? = some p.1 := by
  obtain ⟨hmem, hkey⟩ := List.mem_filter.mp hp
  exact ⟨of_decide_eq_true hkey, List.mk_mem_zipIdx_iff_getElem?.mp hmem⟩

/-- The kept rows know that they are kept, whatever their running number is. -/
theorem unpad_mask : ∀ {bs : List Bool} {s : ℤ}, 0 ≤ s →
    (List.zipWith (fun kept i => if kept then i else -1) bs
        ((cumsum s (bs.map fun kept => if kept then 1 else 0)).map (· - 1))).map
          (fun i : ℤ => decide (i ≠ -1)) = bs
  | [], _, _ => rfl
  | b :: bs, s, hs => by
    cases b with
    | true =>
      have htail := @unpad_mask bs (s + 1) (by omega)
      have hhead : s + 1 - 1 ≠ -1 := by omega
      simp only [List.map_cons, if_true, cumsum, List.zipWith_cons_cons, htail, hhead, ne_eq,
        not_false_eq_true, decide_true]
    | false =>
      have htail := @unpad_mask bs (s + 0) (by omega)
      simp only [List.map_cons, Bool.false_eq_true, if_false, cumsum, List.zipWith_cons_cons, htail,
        ne_eq, not_true_eq_false, decide_false]

/-- The rank of a row, by division of floats. -/
theorem IsExpanded.assigned_eq (h : IsExpanded expertNum epSize ids) {id : ℤ} (hid : id ∈ ids) :
    truncate (toFloat32 (toFloat32 id / (expertNum / epSize : ℕ))) =
      (id.toNat / (expertNum / epSize) : ℕ) := by
  obtain ⟨hlow, hhigh⟩ := h.bounds id hid
  have hle := h.expertNum_le
  have hcast : ((id.toNat : ℕ) : ℤ) = id := Int.toNat_of_nonneg hlow
  rw [toFloat32_intCast (abs_le.mpr ⟨by omega, by omega⟩), ← hcast, Int.cast_natCast, Int.toNat_natCast]
  exact truncate_toFloat32_div (by omega) (h.rank_lt hid).1

theorem cummax_markers_none (xs : List ℤ) :
    cummax (markers none 0 xs) = cummaxFrom (-1) (markers none 0 xs) := by
  cases xs with
  | nil => rfl
  | cons x xs => rfl

/-- Few enough rows are counted exactly. -/
theorem floatCumsum_mask {bs : List Bool} (h : bs.length ≤ 2 ^ 24) :
    (floatCumsum 0 (bs.map fun kept => if kept then 1 else 0)).map truncate =
      cumsum 0 (bs.map fun kept => if kept then 1 else 0) := by
  have hle : (bs.map fun kept => if kept then (1 : ℤ) else 0).sum ≤ bs.length := by
    have hsum := List.sum_le_card_nsmul (bs.map fun kept => if kept then (1 : ℤ) else 0) 1 fun x hx => by
      obtain ⟨kept, -, rfl⟩ := List.mem_map.mp hx
      split <;> omega
    simpa using hsum
  have hcast : (bs.map fun kept => if kept then (1 : ℚ) else 0) =
      (bs.map fun kept => if kept then (1 : ℤ) else 0).map Int.cast := by
    rw [List.map_map]
    refine List.map_congr_left fun kept _ => ?_
    cases kept <;> simp
  have hexact := @floatCumsum_eq (bs.map fun kept => if kept then (1 : ℤ) else 0) 0
    (fun x hx => by
      obtain ⟨kept, -, rfl⟩ := List.mem_map.mp hx
      split <;> omega) le_rfl (by omega)
  rw [hcast, ← Int.cast_zero, hexact, List.map_map]
  exact (List.map_congr_left fun c _ => truncate_intCast c).trans (List.map_id _)

@[simp] theorem length_slots (expertsPerRank epSize m : ℕ) (ids : List ℤ) :
    (slots expertsPerRank epSize m ids).length = epSize * m := by
  rw [slots, length_flatMap_const fun _ _ => length_padBlock _ _, List.length_range]

/-- **The buffers hold the first rows for each rank**, and the rows without a slot are marked. -/
theorem processTopkIds_eq (h : IsExpanded expertNum epSize ids) {numTokens topK : ℕ}
    (hlen : ids.length = numTokens * topK) :
    ∃ unpadIndices, processTopkIds ids expertNum epSize m numTokens topK =
        some ((slots (expertNum / epSize) epSize m ids).map fun slot => slot.elim (expertNum : ℤ) Prod.fst,
          unpadIndices) ∧
      unpadIndices.map (fun i => decide (i ≠ -1)) = keptMask (expertNum / epSize) epSize m ids := by
  by_cases hnil : ids = []
  · subst hnil
    have hzero : numTokens * topK = 0 := hlen.symm
    refine ⟨[], ?_, ?_⟩
    · rw [processTopkIds, hzero]
      simp only [if_true, slots, padBlock, rowsFor, List.zipIdx_nil, List.filter_nil, List.take_nil,
        List.map_nil, List.nil_append, List.length_nil, Nat.sub_zero, List.map_replicate, Option.elim_none, List.replicate_zero, flatMap_replicate_eq, List.map_const',
        List.sum_replicate, List.length_range, smul_eq_mul]
    · simp [keptMask, rowsFor]
  · obtain ⟨id, hid⟩ := List.exists_mem_of_ne_nil ids hnil
    have hper := (h.rank_lt hid).1
    have hsome : numTokens * topK ≠ 0 := by
      rw [← hlen]
      exact List.length_pos_iff.mpr hnil |>.ne'
    set f := rowsFor (expertNum / epSize) ids with hf
    set es := entries f (List.range epSize) with hes
    have hzip : es.map (fun e => e.2.val) = ids.zipIdx := (entries_map_val f _).trans h.zipIdx_eq.symm
    have hids : ids = es.map fun e => e.2.val.1 := by
      conv_lhs => rw [← List.zipIdx_map_fst 0 ids, ← hzip, List.map_map]
      rfl
    have hmem : ∀ e ∈ es, (f e.1)[e.2.pos]? = some e.2.val := fun e he => getElem?_of_mem_entries he
    have hassigned : (ids.map fun e : ℤ => truncate (toFloat32 (toFloat32 e / (expertNum / epSize : ℕ)))) =
        es.map fun e => (e.1 : ℤ) := by
      conv_lhs => rw [hids, List.map_map]
      refine List.map_congr_left fun e he => ?_
      have hrow := rowsFor_key (List.mem_of_getElem? (hmem e he))
      rw [Function.comp_apply, h.assigned_eq (List.mem_of_getElem? hrow.2), hrow.1]
    have hlength : ids.length = es.length := by
      conv_lhs => rw [hids, List.length_map]
    have hindices : arange ids.length = es.map fun e => ((e.2.start + e.2.pos : ℕ) : ℤ) := by
      rw [entries_map_index, ← h.zipIdx_eq, List.length_zipIdx]
    have hstart : cummax (List.zipWith (fun new i => if new then i else -1)
        (true :: List.zipWith (fun r r' => decide (r ≠ r')) (es.map fun e => (e.1 : ℤ)).tail
          (es.map fun e => (e.1 : ℤ)).dropLast) (arange ids.length)) =
          es.map fun e => (e.2.start : ℤ) := by
      have hmarkers := markers_eq (es.map fun e => (e.1 : ℤ))
      rw [List.length_map, ← hlength] at hmarkers
      rw [hmarkers, cummax_markers_none, ← flatMap_groups, ← flatMap_starts]
      exact cummax_markers le_rfl (by decide) (List.nodup_range.map Nat.cast_injective)
        fun _ _ hnone => by cases hnone
    have hintra : List.zipWith (· - ·) (arange ids.length) (es.map fun e => (e.2.start : ℤ)) =
        es.map fun e => (e.2.pos : ℤ) := by
      rw [hindices, List.zipWith_map_left, List.zipWith_map_right, List.zipWith_self]
      refine List.map_congr_left fun e _ => ?_
      push_cast
      ring
    have hkept : ((es.map fun e => (e.2.pos : ℤ)).map fun j => decide (j < (m : ℤ))) =
        keptMask (expertNum / epSize) epSize m ids := by
      have hrange : keptMask (expertNum / epSize) epSize m ids =
          (tagged 0 ((List.range epSize).map fun r => List.range (f r).length)).map
            fun e => decide (e.2 < m) := by
        have hcomp : (fun e : ℕ × ℕ => decide (e.2 < m)) = (fun j => decide (j < m)) ∘ Prod.snd := rfl
        rw [hcomp, ← List.map_map, tagged_map_snd, List.map_flatten, List.map_map, keptMask,
          List.flatMap_def]
        rfl
      rw [hrange, tagged_range, List.map_map, List.map_map]
      refine List.map_congr_left fun e _ => ?_
      simp only [Function.comp_apply, Nat.cast_lt]
    have hcumsum : (floatCumsum 0 ((keptMask (expertNum / epSize) epSize m ids).map
        fun kept => if kept then 1 else 0)).map truncate =
          cumsum 0 ((keptMask (expertNum / epSize) epSize m ids).map fun kept => if kept then 1 else 0) := by
      refine floatCumsum_mask ?_
      rw [← hkept, List.length_map, List.length_map, ← hlength]
      exact h.length_le
    -- where each row goes
    have htarget : List.zipWith (fun kept i => if kept then i else ((epSize * m : ℕ) : ℤ))
        ((es.map fun e => (e.2.pos : ℤ)).map fun j => decide (j < (m : ℤ)))
        (List.zipWith (fun r j : ℤ => r * m + j) (es.map fun e => (e.1 : ℤ))
          (es.map fun e => (e.2.pos : ℤ))) =
        (tagged 0 ((List.range epSize).map fun r => List.range ((f r).map Prod.fst).length)).map
          fun e => if e.2 < m then ((e.1 * m + e.2 : ℕ) : ℤ) else ((0 + (List.range epSize).length) * m : ℕ) := by
      simp only [List.length_map, tagged_range, List.zipWith_map_left, List.zipWith_map_right,
        List.zipWith_self, List.map_map]
      refine List.map_congr_left fun e _ => ?_
      simp
    obtain ⟨y, hy⟩ := @scatter_blocks _ _ (fun r => (f r).map Prod.fst) m (expertNum : ℤ)
      (List.range epSize) [] 0 (expertNum : ℤ) (by simp)
    have hflat : ((List.range epSize).flatMap fun r => (f r).map Prod.fst) = ids := by
      rw [← List.map_flatMap, ← h.zipIdx_eq, List.zipIdx_map_fst]
    rw [hflat, ← htarget] at hy
    have hbuffer : [] ++ List.replicate ((List.range epSize).length * m) (expertNum : ℤ) ++ [(expertNum : ℤ)] =
        List.replicate (epSize * m + 1) (expertNum : ℤ) := by
      rw [List.nil_append, List.length_range, List.replicate_succ']
    rw [hbuffer] at hy
    have hblocks : ((List.range epSize).flatMap fun r => ((f r).map Prod.fst).take m ++
        List.replicate (m - ((f r).map Prod.fst).length) (expertNum : ℤ)) =
          (slots (expertNum / epSize) epSize m ids).map fun slot => slot.elim (expertNum : ℤ) Prod.fst := by
      rw [slots, List.map_flatMap]
      refine List.flatMap_congr fun r _ => ?_
      rw [padBlock, List.map_append, List.map_map, List.map_replicate, List.length_map, List.map_take]
      rfl
    rw [List.nil_append, hblocks] at hy
    refine ⟨_, ?_, unpad_mask (s := 0) le_rfl⟩
    rw [processTopkIds, if_neg hsome, if_neg hper.ne']
    simp only [hassigned, hstart, hintra, hy, Option.bind_eq_bind, Option.bind_some, Option.pure_def,
      Option.some.injEq]
    rw [hkept, hcumsum, List.take_left' (by rw [List.length_map, length_slots])]

end Rows

end VllmAscend
