import VllmAscend.Ops.MoeOperators
import VllmAscend.Ops.ProcessTopkIds

/-!
# Ops/All2AllBuffer — experts behind buffers of one length

    rank s     slots: id, row        →  rank r    the rows of all ranks, by local id = id − r * experts
               outputs by slot       ←            outputs by slot

The ids are put into the slots by rank and place, the rows by counting the filled slots.  The two agree
when the rows in slots come first, that is when no rank's buffer overflows before the last rank that gets
rows.  The local id is counted from the global rank, so it is right when the group starts at rank 0
(`pairsIdsWithRows_iff`).
-/

namespace VllmAscend

open Machinery

variable {V : Type}

/-- A rank of the group: its global rank, and its rows sorted by expert. -/
structure EpRank (V : Type) where
  rank : ℕ
  numTokens : ℕ
  hiddenStates : List V
  expandedExpertIdx : List ℤ

/-- What a rank sends: the ids and the rows of its slots, and the rows named by them. -/
structure ScatterBuffers (V : Type) where
  expertIdx : List ℤ
  hiddenStatesPadIdx : List ℤ
  hiddenStates : List V
  unpadIndices : List ℤ

/-- `expert_idx_buffer != global_num_experts` -/
def slotMask (globalNumExperts : ℕ) (buffer : List ℤ) : List Bool :=
  buffer.map fun e => decide (e ≠ (globalNumExperts : ℤ))

section Exchange

variable (globalNumExperts maxRowPerEpRank topK : ℕ)

/-- Up to the first exchange. -/
def scatterBuffers (worldSize : ℕ) (ep : EpRank V) : Option (ScatterBuffers V) := do
  let (expertIdx, unpadIndices) ← processTopkIds ep.expandedExpertIdx globalNumExperts worldSize
    maxRowPerEpRank ep.numTokens topK
  let mask := slotMask globalNumExperts expertIdx
  let nonPadLen := mask.count true
  let hiddenStatesPadIdx ← setMasked mask (List.replicate expertIdx.length 0) (arange nonPadLen)
  let hiddenStates ← gather ep.hiddenStates hiddenStatesPadIdx
  return ⟨expertIdx, hiddenStatesPadIdx, hiddenStates, unpadIndices⟩

/-- `expert_idx_buffer_gather[mask] - ep_group.rank * (global_num_experts // ep_group.world_size)` -/
def localExpertIdx (worldSize rank : ℕ) (gathered : List ℤ) : List ℤ :=
  (select (slotMask globalNumExperts gathered) gathered).map
    (· - (rank * (globalNumExperts / worldSize) : ℕ))

/-- The rows sorted by local id, and their running counts; `sortedIdx` is the sort. -/
def groupedRows (worldSize : ℕ) (localIdx : List ℤ) (hiddenStates : List V) (sortedIdx : List ℤ) :
    Option (List V × List ℤ) := do
  let localNumExperts := globalNumExperts / worldSize
  let sortedLocalExpertIdx ← gather (localIdx.map fun e : ℤ => truncate (toFloat32 e)) sortedIdx
  let expertTokens := npuMoeComputeExpertTokens sortedLocalExpertIdx localNumExperts
  let hiddenStates ← gather hiddenStates sortedIdx
  return (hiddenStates, expertTokens)

/-- Up to the second exchange: the outputs back in their slots; `resortedIdx` is the sort of the sort. -/
def scatterBack [Zero V] (mask : List Bool) (mlpOutput : List V) (resortedIdx : List ℤ) :
    Option (List V) := do
  let hiddenStates ← gather mlpOutput resortedIdx
  setMasked mask (List.replicate mask.length 0) hiddenStates

/-- The outputs back at their rows, before `npu_moe_finalize_routing`. -/
def unpadRows [Zero V] (ep : EpRank V) (buffers : ScatterBuffers V) (gathered : List V) :
    Option (List V) :=
  let rowIdxLen := ep.numTokens * topK
  let gathered := select (slotMask globalNumExperts buffers.expertIdx) gathered
  if gathered.length ≠ rowIdxLen then
    setMasked (buffers.unpadIndices.map fun i => decide (i ≠ -1)) (List.replicate rowIdxLen 0) gathered
  else some gathered

/-- The ids that rank `r` receives. -/
def gatheredIds (buffers : List (ScatterBuffers V)) (r : ℕ) : List ℤ :=
  allToAllSingle (buffers.map ScatterBuffers.expertIdx) r

/-- The rows that rank `r` receives. -/
def gatheredRows (buffers : List (ScatterBuffers V)) (r : ℕ) : List V :=
  allToAllSingle (buffers.map ScatterBuffers.hiddenStates) r

/-- From the outputs of the experts of every rank to the rows of every rank. -/
def returnedRows [Zero V] (ranks : List (EpRank V)) (buffers : List (ScatterBuffers V))
    (mlpOutput : ℕ → List V) (resortedIdx : ℕ → List ℤ) : Option (List (List V)) := do
  let backs ← (List.range ranks.length).mapM fun r =>
    scatterBack (slotMask globalNumExperts (gatheredIds buffers r)) (mlpOutput r) (resortedIdx r)
  (ranks.zip buffers).zipIdx.mapM fun p =>
    unpadRows globalNumExperts topK p.1.1 p.1.2 (allToAllSingle backs p.2)

/-- What the sorts and the experts of every rank may return: rank `r` has the experts from
`r * experts` on. -/
structure IsExpertRun (ranks : List (EpRank V)) (buffers : List (ScatterBuffers V)) (f : ℕ → V → V)
    (sortedIdx : ℕ → List ℤ) (mlpOutput : ℕ → List V) (resortedIdx : ℕ → List ℤ) : Prop where
  sorted : ∀ (r : ℕ) ep, ranks[r]? = some ep → IsArgsort (fun a b : ℚ => decide (a < b))
    ((localExpertIdx globalNumExperts ranks.length ep.rank (gatheredIds buffers r)).map
      fun e : ℤ => toFloat32 e) (sortedIdx r)
  experts : ∀ (r : ℕ) ep rows expertTokens, ranks[r]? = some ep →
    groupedRows globalNumExperts ranks.length
        (localExpertIdx globalNumExperts ranks.length ep.rank (gatheredIds buffers r))
        (select (slotMask globalNumExperts (gatheredIds buffers r)) (gatheredRows buffers r))
        (sortedIdx r) = some (rows, expertTokens) →
      IsGroupedOutput (fun e => f (r * (globalNumExperts / ranks.length) + e))
        (groupCounts 0 expertTokens) rows (mlpOutput r)
  resorted : ∀ (r : ℕ) ep, ranks[r]? = some ep → IsArgsort (fun a b : ℚ => decide (a < b))
    ((sortedIdx r).map fun i : ℤ => toFloat32 i) (resortedIdx r)

/-- The output of every row that has a slot, from its own hidden state, and zero for the others. -/
def keptOutputs [Zero V] (worldSize : ℕ) (f : ℕ → V → V) (ep : EpRank V) : List V :=
  List.zipWith (fun kept (row : ℤ × ℕ) =>
      if kept then f row.1.toNat (ep.hiddenStates.getD row.2 0) else 0)
    (keptMask (globalNumExperts / worldSize) worldSize maxRowPerEpRank ep.expandedExpertIdx)
    ep.expandedExpertIdx.zipIdx

/-- The ids go with their rows: every slot names the id and the row of the same expanded row, the first
ones for its rank; every received id is grouped as the expert it is on its rank; and every expanded row
gets its own output back. -/
structure PairsIdsWithRows [Zero V] (ranks : List (EpRank V)) (buffers : List (ScatterBuffers V)) :
    Prop where
  slots : ∀ (s : ℕ) ep b, ranks[s]? = some ep → buffers[s]? = some b →
    b.expertIdx = (slots (globalNumExperts / ranks.length) ranks.length maxRowPerEpRank
        ep.expandedExpertIdx).map (fun slot => slot.elim (globalNumExperts : ℤ) Prod.fst) ∧
      b.hiddenStatesPadIdx = (VllmAscend.slots (globalNumExperts / ranks.length) ranks.length
        maxRowPerEpRank ep.expandedExpertIdx).map fun slot => slot.elim 0 fun row => (row.2 : ℤ)
  localIdx : ∀ (r : ℕ) ep, ranks[r]? = some ep →
    localExpertIdx globalNumExperts ranks.length ep.rank (gatheredIds buffers r) =
      localExpertIdx globalNumExperts ranks.length r (gatheredIds buffers r)
  local_lt : ∀ (r : ℕ) ep, ranks[r]? = some ep →
    ∀ e ∈ localExpertIdx globalNumExperts ranks.length ep.rank (gatheredIds buffers r),
      0 ≤ e ∧ e < (globalNumExperts / ranks.length : ℕ)
  returned : ∀ f sortedIdx mlpOutput resortedIdx,
    IsExpertRun globalNumExperts ranks buffers f sortedIdx mlpOutput resortedIdx →
      returnedRows globalNumExperts topK ranks buffers mlpOutput resortedIdx =
        some (ranks.map (keptOutputs globalNumExperts maxRowPerEpRank ranks.length f))

/-- Every rank has rows, no buffer of a rank overflows before the last rank that gets rows, and a rank
that receives rows has its place in the group as its global rank. -/
structure NothingShifts (ranks : List (EpRank V)) : Prop where
  nonempty : ∀ ep ∈ ranks, ep.expandedExpertIdx ≠ []
  overflow : ∀ ep ∈ ranks, ∀ r r', r < r' →
    maxRowPerEpRank < (rowsFor (globalNumExperts / ranks.length) ep.expandedExpertIdx r).length →
      rowsFor (globalNumExperts / ranks.length) ep.expandedExpertIdx r' = []
  rank_eq : ∀ (r : ℕ) ep, ranks[r]? = some ep →
    (∃ sender ∈ ranks,
      rowsFor (globalNumExperts / ranks.length) sender.expandedExpertIdx r ≠ []) → ep.rank = r

/-- Every rank has the sorted ids of its tokens' experts and a row for each; there are few enough rows
for floats. -/
structure IsEpBatch (ranks : List (EpRank V)) : Prop where
  one_le : 1 ≤ maxRowPerEpRank
  expanded : ∀ ep ∈ ranks, IsExpanded globalNumExperts ranks.length ep.expandedExpertIdx
  length_ids : ∀ ep ∈ ranks, ep.expandedExpertIdx.length = ep.numTokens * topK
  length_rows : ∀ ep ∈ ranks, ep.hiddenStates.length = ep.expandedExpertIdx.length
  total_le : (ranks.map fun ep => ep.expandedExpertIdx.length).sum ≤ 2 ^ 24

end Exchange

/-! ## The slots -/

section Slots

variable {globalNumExperts worldSize m topK : ℕ} {ep : EpRank V}

/-- The rows in slots, in order. -/
def keptRows (expertsPerRank epSize m : ℕ) (ids : List ℤ) : List (ℤ × ℕ) :=
  (List.range epSize).flatMap fun r => (rowsFor expertsPerRank ids r).take m

theorem reduceOption_slots (expertsPerRank epSize m : ℕ) (ids : List ℤ) :
    (slots expertsPerRank epSize m ids).reduceOption = keptRows expertsPerRank epSize m ids := by
  rw [slots, reduceOption_flatMap, keptRows]
  simp only [reduceOption_padBlock]

theorem mem_of_mem_slots {expertsPerRank epSize : ℕ} {ids : List ℤ} {row : ℤ × ℕ}
    (h : some row ∈ slots expertsPerRank epSize m ids) : ids[row.2]? = some row.1 := by
  obtain ⟨r, -, hr⟩ := List.mem_flatMap.mp h
  obtain hfront | hback := List.mem_append.mp hr
  · obtain ⟨row', hrow', heq⟩ := List.mem_map.mp hfront
    cases heq
    exact List.mk_mem_zipIdx_iff_getElem?.mp (List.mem_filter.mp (List.mem_of_mem_take hrow')).1
  · cases List.eq_of_mem_replicate hback

/-- No id is the filling. -/
theorem slotMask_slots {ids : List ℤ} (h : IsExpanded globalNumExperts worldSize ids)
    (expertsPerRank : ℕ) :
    slotMask globalNumExperts ((slots expertsPerRank worldSize m ids).map fun slot =>
      slot.elim (globalNumExperts : ℤ) Prod.fst) =
        (slots expertsPerRank worldSize m ids).map Option.isSome := by
  rw [slotMask, List.map_map]
  refine List.map_congr_left fun slot hslot => ?_
  cases slot with
  | none => simp
  | some row =>
    have hlt := (h.bounds row.1 (List.mem_of_getElem? (mem_of_mem_slots hslot))).2
    exact decide_eq_true hlt.ne

/-- **What a rank sends**, up to the rows that its counting names. -/
theorem scatterBuffers_eq (h : IsExpanded globalNumExperts worldSize ep.expandedExpertIdx)
    (hlen : ep.expandedExpertIdx.length = ep.numTokens * topK) :
    ∃ padIdx unpadIndices,
      setMasked ((slots (globalNumExperts / worldSize) worldSize m ep.expandedExpertIdx).map
          Option.isSome) (List.replicate (worldSize * m) 0)
        (arange (keptRows (globalNumExperts / worldSize) worldSize m ep.expandedExpertIdx).length) =
          some padIdx ∧
      unpadIndices.map (fun i => decide (i ≠ -1)) =
        keptMask (globalNumExperts / worldSize) worldSize m ep.expandedExpertIdx ∧
      scatterBuffers globalNumExperts m topK worldSize ep =
        (gather ep.hiddenStates padIdx).map fun hiddenStates =>
          ⟨(slots (globalNumExperts / worldSize) worldSize m ep.expandedExpertIdx).map fun slot =>
            slot.elim (globalNumExperts : ℤ) Prod.fst, padIdx, hiddenStates, unpadIndices⟩ := by
  obtain ⟨unpadIndices, hprocess, hunpad⟩ := processTopkIds_eq (m := m) h hlen
  have hcount : ((slots (globalNumExperts / worldSize) worldSize m ep.expandedExpertIdx).map
      Option.isSome).count true =
        (keptRows (globalNumExperts / worldSize) worldSize m ep.expandedExpertIdx).length := by
    rw [← reduceOption_slots, ← List.length_map (fun row : ℤ × ℕ => row.2),
      ← filter_isSome_map 0, List.length_map, List.count, List.countP_map, List.countP_eq_length_filter]
    exact congrArg List.length (List.filter_congr fun d _ => by simp)
  have hset : ∃ padIdx, setMasked ((slots (globalNumExperts / worldSize) worldSize m
      ep.expandedExpertIdx).map Option.isSome) (List.replicate (worldSize * m) 0)
      (arange (keptRows (globalNumExperts / worldSize) worldSize m ep.expandedExpertIdx).length) =
        some padIdx := by
    rw [setMasked, if_pos ⟨by simp, by rw [length_arange, hcount]⟩]
    exact ⟨_, rfl⟩
  obtain ⟨padIdx, hpadIdx⟩ := hset
  refine ⟨padIdx, unpadIndices, hpadIdx, hunpad, ?_⟩
  rw [scatterBuffers, hprocess]
  simp only [slotMask_slots h, hcount, List.length_map, length_slots, hpadIdx, Option.bind_eq_bind,
    Option.bind_some, Option.pure_def]
  exact Option.map_eq_bind.symm

/-- **Counting the slots names their rows** exactly when the rows in slots are the first ones. -/
theorem padIdx_eq_iff {expertsPerRank : ℕ} {ids padIdx : List ℤ}
    (hset : setMasked ((slots expertsPerRank worldSize m ids).map Option.isSome)
      (List.replicate (worldSize * m) 0) (arange (keptRows expertsPerRank worldSize m ids).length) =
        some padIdx) :
    (padIdx = (slots expertsPerRank worldSize m ids).map fun slot =>
        slot.elim 0 fun row => (row.2 : ℤ)) ↔
      (keptRows expertsPerRank worldSize m ids).map (fun row => (row.2 : ℤ)) =
        arange (keptRows expertsPerRank worldSize m ids).length := by
  have hvals := filter_isSome_map (0 : ℤ) (fun row : ℤ × ℕ => (row.2 : ℤ))
    (slots expertsPerRank worldSize m ids)
  rw [reduceOption_slots] at hvals
  constructor
  · rintro rfl
    rw [setMasked] at hset
    split at hset
    · next hlen =>
      have hselect := select_fill hlen.1 hlen.2
      rw [Option.some.inj hset, select_map, hvals] at hselect
      exact hselect
    · cases hset
  · intro hkept
    have hfill := setMasked_map Option.isSome (fun _ => (0 : ℤ))
      (fun slot : Option (ℤ × ℕ) => slot.elim 0 fun row => (row.2 : ℤ))
      (slots expertsPerRank worldSize m ids)
    rw [hvals, hkept, List.map_const', length_slots, hset, Option.some.injEq] at hfill
    rw [hfill]
    refine List.map_congr_left fun slot _ => ?_
    cases slot <;> rfl

/-- **…that is, when no buffer overflows before the last rank with rows.** -/
theorem keptRows_arange_iff {ids : List ℤ} (h : IsExpanded globalNumExperts worldSize ids) (hm : 1 ≤ m) :
    (keptRows (globalNumExperts / worldSize) worldSize m ids).map (fun row => (row.2 : ℤ)) =
        arange (keptRows (globalNumExperts / worldSize) worldSize m ids).length ↔
      ∀ r r', r < r' → m < (rowsFor (globalNumExperts / worldSize) ids r).length →
        rowsFor (globalNumExperts / worldSize) ids r' = [] := by
  have hnum : ((List.range worldSize).flatMap (rowsFor (globalNumExperts / worldSize) ids)).map Prod.snd =
      List.range' 0 ids.length := by
    rw [← h.zipIdx_eq, List.zipIdx_map_snd]
  have hiff := take_consecutive_iff hm hnum
  have hcast : (keptRows (globalNumExperts / worldSize) worldSize m ids).map
      (fun row => (row.2 : ℤ)) =
        arange (keptRows (globalNumExperts / worldSize) worldSize m ids).length ↔
      (keptRows (globalNumExperts / worldSize) worldSize m ids).map Prod.snd =
        List.range' 0 (keptRows (globalNumExperts / worldSize) worldSize m ids).length := by
    have harange : ∀ n, arange n = (List.range' 0 n).map fun j : ℕ => (j : ℤ) := fun n => by
      rw [← List.range_eq_range', arange, Machinery.segment]
      simp
    have hsplit : (keptRows (globalNumExperts / worldSize) worldSize m ids).map (fun row => (row.2 : ℤ)) =
        ((keptRows (globalNumExperts / worldSize) worldSize m ids).map Prod.snd).map
          fun j : ℕ => (j : ℤ) := by
      rw [List.map_map]
      rfl
    rw [harange, hsplit]
    exact (List.map_injective_iff.mpr Nat.cast_injective).eq_iff
  rw [hcast]
  refine hiff.trans ⟨fun hpairs r r' hlt hover => ?_, fun hpairs => ?_⟩
  · by_cases hr' : r' < worldSize
    · have hget := List.pairwise_iff_getElem.mp hpairs r r' (by simp; omega) (by simpa) hlt
      rw [List.getElem_range, List.getElem_range] at hget
      exact hget hover
    · refine List.eq_nil_iff_forall_not_mem.mpr fun row hrow => hr' ?_
      obtain ⟨hkey, hget⟩ := rowsFor_key hrow
      rw [← hkey]
      exact (h.rank_lt (List.mem_of_getElem? hget)).2
  · exact List.pairwise_lt_range.imp fun hlt hover => hpairs _ _ hlt hover

end Slots

/-! ## The exchange -/

section Ranks

variable {globalNumExperts m topK : ℕ} {ranks : List (EpRank V)}

/-- What a rank sends when nothing shifts. -/
def sentBuffers [Zero V] (globalNumExperts worldSize m : ℕ) (unpadIndices : List ℤ) (ep : EpRank V) :
    ScatterBuffers V where
  expertIdx := (slots (globalNumExperts / worldSize) worldSize m ep.expandedExpertIdx).map fun slot =>
    slot.elim (globalNumExperts : ℤ) Prod.fst
  hiddenStatesPadIdx := (slots (globalNumExperts / worldSize) worldSize m ep.expandedExpertIdx).map
    fun slot => slot.elim 0 fun row => (row.2 : ℤ)
  hiddenStates := (slots (globalNumExperts / worldSize) worldSize m ep.expandedExpertIdx).map
    fun slot => ep.hiddenStates.getD (slot.elim 0 Prod.snd) 0
  unpadIndices := unpadIndices

/-- **Every rank sends its slots with their rows.** -/
theorem IsEpBatch.scatterBuffers_eq [Zero V] (h : IsEpBatch globalNumExperts m topK ranks)
    (hshift : NothingShifts globalNumExperts m ranks) :
    ∃ unpadIndices : EpRank V → List ℤ,
      (∀ ep ∈ ranks, (unpadIndices ep).map (fun i => decide (i ≠ -1)) =
        keptMask (globalNumExperts / ranks.length) ranks.length m ep.expandedExpertIdx) ∧
      ranks.mapM (scatterBuffers globalNumExperts m topK ranks.length) =
        some (ranks.map fun ep => sentBuffers globalNumExperts ranks.length m (unpadIndices ep) ep) := by
  have hrank : ∀ ep : EpRank V, ∃ unpadIndices : List ℤ, ep ∈ ranks →
      unpadIndices.map (fun i => decide (i ≠ -1)) =
        keptMask (globalNumExperts / ranks.length) ranks.length m ep.expandedExpertIdx ∧
      scatterBuffers globalNumExperts m topK ranks.length ep =
        some (sentBuffers globalNumExperts ranks.length m unpadIndices ep) := by
    intro ep
    by_cases hep : ep ∈ ranks
    · have hexp := h.expanded ep hep
      obtain ⟨padIdx, unpadIndices, hset, hunpad, hscatter⟩ :=
        VllmAscend.scatterBuffers_eq (m := m) hexp (h.length_ids ep hep)
      have hpad := (padIdx_eq_iff hset).mpr
        ((keptRows_arange_iff hexp h.one_le).mpr (hshift.overflow ep hep))
      have hpos : 0 < ep.hiddenStates.length := by
        rw [h.length_rows ep hep]
        exact List.length_pos_iff.mpr (hshift.nonempty ep hep)
      have hgather : gather ep.hiddenStates padIdx =
          some ((slots (globalNumExperts / ranks.length) ranks.length m ep.expandedExpertIdx).map
            fun slot => ep.hiddenStates.getD (slot.elim 0 Prod.snd) 0) := by
        rw [hpad]
        refine gather_eq_some fun slot hslot => ?_
        have hlt : slot.elim 0 Prod.snd < ep.hiddenStates.length := by
          cases slot with
          | none => exact hpos
          | some row =>
            rw [h.length_rows ep hep]
            exact (List.getElem?_eq_some_iff.mp (mem_of_mem_slots hslot)).1
        have hcast : (slot.elim 0 fun row => (row.2 : ℤ)) = ((slot.elim 0 Prod.snd : ℕ) : ℤ) := by
          cases slot <;> rfl
        rw [hcast, item_natCast, List.getElem?_eq_getElem hlt, List.getD_eq_getElem _ _ hlt]
      refine ⟨unpadIndices, fun _ => ⟨hunpad, ?_⟩⟩
      rw [hscatter, hgather, Option.map_some, hpad]
      rfl
    · exact ⟨[], fun hep' => absurd hep' hep⟩
  choose unpadIndices hunpad using hrank
  refine ⟨unpadIndices, fun ep hep => (hunpad ep hep).1, ?_⟩
  have hmap := mapM_map_eq_some (c := id) fun ep hep => (hunpad ep hep).2
  rwa [List.map_id] at hmap

/-- The slots that rank `r` receives, with their senders. -/
def receivedSlots (globalNumExperts m : ℕ) (ranks : List (EpRank V)) (r : ℕ) :
    List (EpRank V × Option (ℤ × ℕ)) :=
  ranks.flatMap fun ep =>
    (padBlock m (rowsFor (globalNumExperts / ranks.length) ep.expandedExpertIdx r)).map (ep, ·)

/-- **An exchange of slots**, whatever is sent for each. -/
theorem exchange_slots {β : Type} (g : EpRank V → Option (ℤ × ℕ) → β) {r : ℕ} (hr : r < ranks.length) :
    allToAllSingle (ranks.map fun ep =>
        (slots (globalNumExperts / ranks.length) ranks.length m ep.expandedExpertIdx).map (g ep)) r =
      (receivedSlots globalNumExperts m ranks r).map fun p => g p.1 p.2 := by
  simp only [slots, List.map_flatMap]
  rw [allToAllSingle_eq (m := m) (List.length_range).symm
    (fun ep _ r _ => by rw [List.length_map, length_padBlock]) (List.getElem?_range hr), receivedSlots,
    List.map_flatMap]
  simp only [List.map_map, Function.comp_def]

/-- **The way back**: what is sent for the slots of every rank comes to the slots. -/
theorem exchange_back {β : Type} (g : EpRank V → Option (ℤ × ℕ) → β) {s : ℕ} {ep : EpRank V}
    (hs : ranks[s]? = some ep) :
    allToAllSingle ((List.range ranks.length).map fun r =>
        (receivedSlots globalNumExperts m ranks r).map fun p => g p.1 p.2) s =
      (slots (globalNumExperts / ranks.length) ranks.length m ep.expandedExpertIdx).map (g ep) := by
  simp only [receivedSlots, List.map_flatMap, List.map_map, Function.comp_def]
  rw [allToAllSingle_eq (m := m) List.length_range
    (fun r _ ep _ => by rw [List.length_map, length_padBlock]) hs, slots, List.map_flatMap]

theorem mem_receivedSlots {r : ℕ} {p : EpRank V × Option (ℤ × ℕ)} {row : ℤ × ℕ}
    (hp : p ∈ receivedSlots globalNumExperts m ranks r) (hrow : p.2 = some row) :
    p.1 ∈ ranks ∧ row ∈ rowsFor (globalNumExperts / ranks.length) p.1.expandedExpertIdx r := by
  obtain ⟨ep, hep, hp⟩ := List.mem_flatMap.mp hp
  obtain ⟨slot, hslot, rfl⟩ := List.mem_map.mp hp
  obtain rfl : slot = some row := hrow
  rw [padBlock] at hslot
  obtain hfront | hback := List.mem_append.mp hslot
  · obtain ⟨row', hrow', heq⟩ := List.mem_map.mp hfront
    cases heq
    exact ⟨hep, List.mem_of_mem_take hrow'⟩
  · cases List.eq_of_mem_replicate hback

/-- The slots with rows that rank `r` receives. -/
def receivedRows (globalNumExperts m : ℕ) (ranks : List (EpRank V)) (r : ℕ) :
    List (EpRank V × Option (ℤ × ℕ)) :=
  (receivedSlots globalNumExperts m ranks r).filter (·.2.isSome)

/-- The local id of a received row. -/
def localId (expertsPerRank r : ℕ) (p : EpRank V × Option (ℤ × ℕ)) : ℤ :=
  p.2.elim 0 fun row => row.1 - (r * expertsPerRank : ℕ)

/-- Everything received is an expert of the rank. -/
theorem IsEpBatch.localId_bounds (h : IsEpBatch globalNumExperts m topK ranks) {r : ℕ}
    {p : EpRank V × Option (ℤ × ℕ)} (hp : p ∈ receivedRows globalNumExperts m ranks r) :
    ∃ row, p.2 = some row ∧ p.1 ∈ ranks ∧
      row ∈ rowsFor (globalNumExperts / ranks.length) p.1.expandedExpertIdx r ∧
      0 ≤ localId (globalNumExperts / ranks.length) r p ∧
      localId (globalNumExperts / ranks.length) r p < (globalNumExperts / ranks.length : ℕ) ∧
      r * (globalNumExperts / ranks.length) + (localId (globalNumExperts / ranks.length) r p).toNat =
        row.1.toNat := by
  obtain ⟨hmem, hsome⟩ := List.mem_filter.mp hp
  obtain ⟨row, hrow⟩ := Option.isSome_iff_exists.mp hsome
  obtain ⟨hep, hfor⟩ := mem_receivedSlots hmem hrow
  obtain ⟨hkey, hget⟩ := rowsFor_key hfor
  have hid := List.mem_of_getElem? hget
  have hpos := ((h.expanded p.1 hep).rank_lt hid).1
  have hlow := ((h.expanded p.1 hep).bounds row.1 hid).1
  obtain ⟨hge, hlt⟩ := (Nat.div_eq_iff hpos).mp hkey
  rw [localId, hrow, Option.elim_some]
  generalize globalNumExperts / ranks.length = per at *
  generalize r * per = base at *
  exact ⟨row, rfl, hep, hfor, by omega, by omega, by omega⟩

theorem slotMask_received (h : IsEpBatch globalNumExperts m topK ranks) (r : ℕ) :
    slotMask globalNumExperts ((receivedSlots globalNumExperts m ranks r).map fun p =>
      p.2.elim (globalNumExperts : ℤ) Prod.fst) =
        (receivedSlots globalNumExperts m ranks r).map fun p => p.2.isSome := by
  rw [slotMask, List.map_map]
  refine List.map_congr_left fun p hp => ?_
  cases hslot : p.2 with
  | none => simp [hslot]
  | some row =>
    obtain ⟨hep, hfor⟩ := mem_receivedSlots hp hslot
    have hlt := ((h.expanded p.1 hep).bounds row.1 (List.mem_of_getElem? (rowsFor_key hfor).2)).2
    simpa [hslot] using hlt.ne

/-- The local ids counted from the place in the group. -/
theorem localExpertIdx_received (h : IsEpBatch globalNumExperts m topK ranks) (r : ℕ) :
    localExpertIdx globalNumExperts ranks.length r
        ((receivedSlots globalNumExperts m ranks r).map fun p =>
          p.2.elim (globalNumExperts : ℤ) Prod.fst) =
      (receivedRows globalNumExperts m ranks r).map (localId (globalNumExperts / ranks.length) r) := by
  rw [localExpertIdx, slotMask_received h, select_map, List.map_map]
  refine List.map_congr_left fun p hp => ?_
  obtain ⟨row, hrow, -⟩ := h.localId_bounds hp
  rw [Function.comp_apply, localId, hrow]
  rfl

/-- There are few enough received rows for floats. -/
theorem IsEpBatch.length_receivedRows_le (h : IsEpBatch globalNumExperts m topK ranks) (r : ℕ) :
    (receivedRows globalNumExperts m ranks r).length ≤ 2 ^ 24 := by
  refine le_trans ?_ h.total_le
  rw [receivedRows, receivedSlots, List.filter_flatMap, List.length_flatMap]
  refine List.sum_le_sum fun ep _ => ?_
  rw [List.filter_map, List.length_map]
  calc ((padBlock m (rowsFor (globalNumExperts / ranks.length) ep.expandedExpertIdx r)).filter
        Option.isSome).length
      = ((rowsFor (globalNumExperts / ranks.length) ep.expandedExpertIdx r).take m).length := by
        have hslots := congrArg List.length (filter_isSome_map () (fun _ => ())
          (padBlock m (rowsFor (globalNumExperts / ranks.length) ep.expandedExpertIdx r)))
        rwa [List.length_map, List.length_map, reduceOption_padBlock] at hslots
    _ ≤ (rowsFor (globalNumExperts / ranks.length) ep.expandedExpertIdx r).length := by
        rw [List.length_take]
        exact min_le_right _ _
    _ ≤ ep.expandedExpertIdx.zipIdx.length := List.length_filter_le _ _
    _ = ep.expandedExpertIdx.length := List.length_zipIdx

/-- The hidden state in a slot. -/
def slotRow [Zero V] (p : EpRank V × Option (ℤ × ℕ)) : V := p.1.hiddenStates.getD (p.2.elim 0 Prod.snd) 0

/-- The output for a slot. -/
def slotOutput [Zero V] (f : ℕ → V → V) (p : EpRank V × Option (ℤ × ℕ)) : V :=
  p.2.elim 0 fun row => f row.1.toNat (p.1.hiddenStates.getD row.2 0)

/-- **A rank sends the outputs back in their slots**: sorting the sort undoes it. -/
theorem IsEpBatch.scatterBack_eq [Zero V] (h : IsEpBatch globalNumExperts m topK ranks) {r : ℕ}
    {f : ℕ → V → V} {sortedIdx resortedIdx : List ℤ} {mlpOutput : List V}
    (hsorted : IsArgsort (fun a b : ℚ => decide (a < b))
      (((receivedRows globalNumExperts m ranks r).map
        (localId (globalNumExperts / ranks.length) r)).map fun e : ℤ => toFloat32 e) sortedIdx)
    (hmlp : ∀ rows expertTokens, groupedRows globalNumExperts ranks.length
      ((receivedRows globalNumExperts m ranks r).map (localId (globalNumExperts / ranks.length) r))
      ((receivedRows globalNumExperts m ranks r).map slotRow) sortedIdx = some (rows, expertTokens) →
        IsGroupedOutput (fun e => f (r * (globalNumExperts / ranks.length) + e))
          (groupCounts 0 expertTokens) rows mlpOutput)
    (hresorted : IsArgsort (fun a b : ℚ => decide (a < b)) (sortedIdx.map fun i : ℤ => toFloat32 i)
      resortedIdx) :
    scatterBack ((receivedSlots globalNumExperts m ranks r).map fun p => p.2.isSome) mlpOutput
      resortedIdx = some ((receivedSlots globalNumExperts m ranks r).map (slotOutput f)) := by
  set ps := receivedRows globalNumExperts m ranks r with hps
  set key := localId (V := V) (globalNumExperts / ranks.length) r with hkey
  have hbounds : ∀ p ∈ ps, 0 ≤ key p ∧ key p < (globalNumExperts / ranks.length : ℕ) := fun p hp => by
    obtain ⟨row, -, -, -, hlow, hhigh, -⟩ := h.localId_bounds hp
    exact ⟨hlow, hhigh⟩
  have hexact : ∀ p ∈ ps, toFloat32 (key p) = key p := fun p hp => by
    obtain ⟨row, -, hep, -⟩ := h.localId_bounds hp
    obtain ⟨hlow, hhigh⟩ := hbounds p hp
    have hle := (h.expanded p.1 hep).expertNum_le
    have hdiv := Nat.div_le_self globalNumExperts ranks.length
    exact toFloat32_intCast (abs_le.mpr ⟨by omega, by omega⟩)
  have hindices : sortedIdx.Perm (arange ps.length) := by
    have hperm := hsorted.perm
    rwa [List.length_map, List.length_map] at hperm
  obtain ⟨out, hout, hperm⟩ := gather_perm hindices
  have houtOf : ∀ {β : Type} (g : EpRank V × Option (ℤ × ℕ) → β),
      gather (ps.map g) sortedIdx = some (out.map g) := fun g => by
    rw [gather_map, hout]
    rfl
  have hsortedOut : out.Pairwise fun a b => (key a).toNat ≤ (key b).toNat := by
    have hpairs := hsorted.sorted (out.map fun p => toFloat32 (key p)) (by
      rw [List.map_map]
      exact houtOf _)
    rw [List.pairwise_map] at hpairs
    refine hpairs.imp_of_mem fun ha hb hfalse => ?_
    rw [hexact _ (hperm.mem_iff.mp ha), hexact _ (hperm.mem_iff.mp hb), decide_eq_false_iff_not,
      not_lt] at hfalse
    exact Int.toNat_le_toNat (by exact_mod_cast hfalse)
  have hrows : groupedRows globalNumExperts ranks.length (ps.map key) (ps.map slotRow) sortedIdx =
      some (out.map slotRow, cumsum 0 (((List.range (globalNumExperts / ranks.length)).map fun e =>
        (out.filter fun p => (key p).toNat = e).length).map Nat.cast)) := by
    have hids : (ps.map key).map (fun e : ℤ => truncate (toFloat32 e)) = ps.map key := by
      rw [List.map_map]
      refine List.map_congr_left fun p hp => ?_
      rw [Function.comp_apply, hexact p hp, truncate_intCast]
    rw [groupedRows, hids, houtOf key, houtOf slotRow]
    simp only [Option.bind_eq_bind, Option.bind_some, Option.pure_def]
    rw [npuMoeComputeExpertTokens_eq fun p hp => (hbounds p (hperm.mem_iff.mp hp)).1]
  have hgroups := hmlp _ _ hrows
  rw [groupCounts_cumsum] at hgroups
  have hmlpEq := hgroups.eq_map hsortedOut fun p hp => by
    have hp' := hbounds p (hperm.mem_iff.mp hp)
    omega
  have houtput : mlpOutput = out.map (slotOutput f) := by
    rw [hmlpEq]
    refine List.map_congr_left fun p hp => ?_
    obtain ⟨row, hrow, -, -, -, -, hexpert⟩ := h.localId_bounds (hperm.mem_iff.mp hp)
    rw [hkey, hexpert, slotRow, slotOutput, hrow]
    rfl
  have hback : gather mlpOutput resortedIdx = some (ps.map (slotOutput f)) := by
    refine gather_argsort_argsort (by rwa [List.length_map])
      (by rw [houtput]; exact houtOf _) (fun i hi j hj => ?_) hresorted
    have hlen : ps.length ≤ 2 ^ 24 := h.length_receivedRows_le r
    have hplace : ∀ k ∈ sortedIdx, 0 ≤ k ∧ k < (ps.length : ℤ) := fun k hk => by
      have hmem := hindices.mem_iff.mp hk
      rw [arange, Machinery.segment] at hmem
      obtain ⟨j, hj, rfl⟩ := List.mem_map.mp hmem
      have hlt := List.mem_range.mp hj
      omega
    have hi' := hplace i hi
    have hj' := hplace j hj
    rw [toFloat32_intCast (abs_le.mpr ⟨by omega, by omega⟩),
      toFloat32_intCast (abs_le.mpr ⟨by omega, by omega⟩), decide_eq_decide, Int.cast_lt]
  have hfill := setMasked_map (fun p : EpRank V × Option (ℤ × ℕ) => p.2.isSome) (fun _ => (0 : V))
    (slotOutput f) (receivedSlots globalNumExperts m ranks r)
  rw [scatterBack, hback, Option.bind_eq_bind, Option.bind_some, List.length_map, ← List.map_const']
  refine hfill.trans (congrArg some (List.map_congr_left fun p _ => ?_))
  rw [slotOutput]
  cases p.2 <;> rfl

theorem filter_zipIdx_lt {α : Type} : ∀ (l : List α) (k n : ℕ),
    ((l.zipIdx k).filter fun p => decide (p.2 < k + n)).map Prod.fst = l.take n
  | [], _, _ => by simp
  | x :: l, k, 0 => by
    have htail := filter_zipIdx_lt l (k + 1) 0
    rw [List.take_zero, List.map_eq_nil_iff, List.filter_eq_nil_iff] at htail ⊢
    intro p hp
    have hle := (List.mem_zipIdx hp).1
    rw [decide_eq_true_eq]
    omega
  | x :: l, k, n + 1 => by
    have htail := filter_zipIdx_lt l (k + 1) n
    rw [Nat.add_right_comm, Nat.add_assoc] at htail
    rw [List.zipIdx_cons, List.filter_cons_of_pos (by simp), List.map_cons, htail, List.take_succ_cons]

/-- **A rank puts the outputs back at their rows**, and zeros at the others. -/
theorem IsEpBatch.unpadRows_eq [Zero V] (h : IsEpBatch globalNumExperts m topK ranks) {ep : EpRank V}
    (hep : ep ∈ ranks) {unpadIndices : List ℤ}
    (hunpad : unpadIndices.map (fun i => decide (i ≠ -1)) =
      keptMask (globalNumExperts / ranks.length) ranks.length m ep.expandedExpertIdx) (f : ℕ → V → V) :
    unpadRows globalNumExperts topK ep
        (sentBuffers globalNumExperts ranks.length m unpadIndices ep)
        ((slots (globalNumExperts / ranks.length) ranks.length m ep.expandedExpertIdx).map
          fun slot => slotOutput f (ep, slot)) =
      some (keptOutputs globalNumExperts m ranks.length f ep) := by
  have hexp := h.expanded ep hep
  set per := globalNumExperts / ranks.length with hper
  -- every row with its place among those for its rank
  set ps := (List.range ranks.length).flatMap fun r =>
    (rowsFor per ep.expandedExpertIdx r).zipIdx with hps
  have hrows : ep.expandedExpertIdx.zipIdx = ps.map Prod.fst := by
    rw [hexp.zipIdx_eq, hps, List.map_flatMap]
    exact List.flatMap_congr fun r _ => (List.zipIdx_map_fst 0 _).symm
  have hmask : keptMask per ranks.length m ep.expandedExpertIdx = ps.map fun p => decide (p.2 < m) := by
    rw [keptMask, hps, List.map_flatMap]
    refine List.flatMap_congr fun r _ => ?_
    rw [List.range_eq_range', ← List.zipIdx_map_snd 0, List.map_map]
    rfl
  have hkept : keptRows per ranks.length m ep.expandedExpertIdx =
      (ps.filter fun p => decide (p.2 < m)).map Prod.fst := by
    rw [keptRows, hps, List.filter_flatMap, List.map_flatMap]
    refine List.flatMap_congr fun r _ => ?_
    have htake := filter_zipIdx_lt (rowsFor per ep.expandedExpertIdx r) 0 m
    rw [Nat.zero_add] at htake
    exact htake.symm
  set v : (ℤ × ℕ) × ℕ → V := fun p => f p.1.1.toNat (ep.hiddenStates.getD p.1.2 0) with hv
  have hexpected : keptOutputs globalNumExperts m ranks.length f ep =
      ps.map fun p => if decide (p.2 < m) then v p else 0 := by
    rw [keptOutputs, ← hper, hmask, hrows, List.zipWith_map_left, List.zipWith_map_right,
      List.zipWith_self]
  have hselect : select (slotMask globalNumExperts
      ((slots per ranks.length m ep.expandedExpertIdx).map fun slot =>
        slot.elim (globalNumExperts : ℤ) Prod.fst))
      ((slots per ranks.length m ep.expandedExpertIdx).map fun slot => slotOutput f (ep, slot)) =
        (ps.filter fun p => decide (p.2 < m)).map v := by
    have hvals := filter_isSome_map (0 : V)
      (fun row : ℤ × ℕ => f row.1.toNat (ep.hiddenStates.getD row.2 0))
      (slots per ranks.length m ep.expandedExpertIdx)
    rw [reduceOption_slots, hkept, List.map_map] at hvals
    rw [slotMask_slots hexp, select_map]
    exact hvals
  have hlength : ep.numTokens * topK = ps.length := by
    rw [← h.length_ids ep hep, ← List.length_zipIdx (i := 0), hrows, List.length_map]
  have hfill := setMasked_map (fun p : (ℤ × ℕ) × ℕ => decide (p.2 < m)) (fun _ => (0 : V)) v ps
  rw [unpadRows, sentBuffers]
  simp only [← hper, hselect, hunpad, hmask, hlength, ← List.map_const', hfill, hexpected]
  split
  · rfl
  · next hall =>
    rw [not_not, List.length_map, List.length_filter_eq_length_iff] at hall
    rw [List.filter_eq_self.mpr hall]
    exact congrArg some (List.map_congr_left fun p hp => (if_pos (hall p hp)).symm)

/-- The ids that a rank receives when nothing shifts. -/
theorem gatheredIds_eq [Zero V] (unpadIndices : EpRank V → List ℤ) {r : ℕ} (hr : r < ranks.length) :
    gatheredIds (ranks.map fun ep =>
        sentBuffers globalNumExperts ranks.length m (unpadIndices ep) ep) r =
      (receivedSlots globalNumExperts m ranks r).map fun p =>
        p.2.elim (globalNumExperts : ℤ) Prod.fst := by
  rw [gatheredIds, List.map_map]
  exact exchange_slots (fun _ slot => slot.elim (globalNumExperts : ℤ) Prod.fst) hr

/-- The rows that a rank receives when nothing shifts. -/
theorem gatheredRows_eq [Zero V] (unpadIndices : EpRank V → List ℤ) {r : ℕ} (hr : r < ranks.length) :
    gatheredRows (ranks.map fun ep =>
        sentBuffers globalNumExperts ranks.length m (unpadIndices ep) ep) r =
      (receivedSlots globalNumExperts m ranks r).map slotRow := by
  rw [gatheredRows, List.map_map]
  exact exchange_slots (fun ep slot => slotRow (ep, slot)) hr

/-- **Every row gets its own output back** when nothing shifts. -/
theorem IsEpBatch.returnedRows_eq [Zero V] (h : IsEpBatch globalNumExperts m topK ranks)
    {unpadIndices : EpRank V → List ℤ}
    (hunpad : ∀ ep ∈ ranks, (unpadIndices ep).map (fun i => decide (i ≠ -1)) =
      keptMask (globalNumExperts / ranks.length) ranks.length m ep.expandedExpertIdx)
    {f : ℕ → V → V} {mlpOutput : ℕ → List V} {resortedIdx : ℕ → List ℤ}
    (hback : ∀ r < ranks.length,
      scatterBack ((receivedSlots globalNumExperts m ranks r).map fun p => p.2.isSome) (mlpOutput r)
        (resortedIdx r) = some ((receivedSlots globalNumExperts m ranks r).map (slotOutput f))) :
    returnedRows globalNumExperts topK ranks
        (ranks.map fun ep => sentBuffers globalNumExperts ranks.length m (unpadIndices ep) ep) mlpOutput
        resortedIdx = some (ranks.map (keptOutputs globalNumExperts m ranks.length f)) := by
  have hbacks : (List.range ranks.length).mapM (fun r => scatterBack
      (slotMask globalNumExperts (gatheredIds (ranks.map fun ep =>
        sentBuffers globalNumExperts ranks.length m (unpadIndices ep) ep) r)) (mlpOutput r)
      (resortedIdx r)) = some ((List.range ranks.length).map fun r =>
        (receivedSlots globalNumExperts m ranks r).map (slotOutput f)) := by
    have hmap := mapM_map_eq_some (l := List.range ranks.length) (c := id) (f := fun r => scatterBack
      (slotMask globalNumExperts (gatheredIds (ranks.map fun ep =>
        sentBuffers globalNumExperts ranks.length m (unpadIndices ep) ep) r)) (mlpOutput r)
      (resortedIdx r)) fun r hr => by
        have hlt := List.mem_range.mp hr
        rw [id, gatheredIds_eq unpadIndices hlt, slotMask_received h]
        exact hback r hlt
    rwa [List.map_id] at hmap
  have hzip : (ranks.zip (ranks.map fun ep =>
      sentBuffers globalNumExperts ranks.length m (unpadIndices ep) ep)).zipIdx =
        ranks.zipIdx.map fun p =>
          ((p.1, sentBuffers globalNumExperts ranks.length m (unpadIndices p.1) p.1), p.2) := by
    have hpairs := List.zip_map' (f := id)
      (g := fun ep => sentBuffers globalNumExperts ranks.length m (unpadIndices ep) ep) (l := ranks)
    rw [List.map_id] at hpairs
    rw [hpairs, List.zipIdx_map]
    rfl
  have hranks : ranks.map (keptOutputs globalNumExperts m ranks.length f) =
      ranks.zipIdx.map fun p => keptOutputs globalNumExperts m ranks.length f p.1 := by
    generalize keptOutputs globalNumExperts m ranks.length f = g
    conv_lhs => rw [← List.zipIdx_map_fst 0 ranks, List.map_map]
    rfl
  rw [returnedRows, hbacks, Option.bind_eq_bind, Option.bind_some, hzip, hranks]
  refine mapM_map_eq_some fun p hp => ?_
  have hs : ranks[p.2]? = some p.1 := List.mk_mem_zipIdx_iff_getElem?.mp hp
  have hep := List.mem_of_getElem? hs
  rw [exchange_back (fun ep slot => slotOutput f (ep, slot)) hs]
  exact h.unpadRows_eq hep (hunpad p.1 hep) f

/-- Local ids are those of the rank when its place in the group is its global rank, or it gets nothing. -/
theorem NothingShifts.localExpertIdx_eq (h : IsEpBatch globalNumExperts m topK ranks)
    (hshift : NothingShifts globalNumExperts m ranks) {r : ℕ} {ep : EpRank V} (hr : ranks[r]? = some ep) :
    localExpertIdx globalNumExperts ranks.length ep.rank
        ((receivedSlots globalNumExperts m ranks r).map fun p =>
          p.2.elim (globalNumExperts : ℤ) Prod.fst) =
      (receivedRows globalNumExperts m ranks r).map (localId (globalNumExperts / ranks.length) r) := by
  rw [← localExpertIdx_received h]
  cases hrows : receivedRows globalNumExperts m ranks r with
  | nil =>
    have hselect : select (slotMask globalNumExperts ((receivedSlots globalNumExperts m ranks r).map
        fun p => p.2.elim (globalNumExperts : ℤ) Prod.fst))
        ((receivedSlots globalNumExperts m ranks r).map fun p =>
          p.2.elim (globalNumExperts : ℤ) Prod.fst) = [] := by
      rw [slotMask_received h, select_map, ← receivedRows, hrows]
      rfl
    rw [localExpertIdx, localExpertIdx, hselect]
    rfl
  | cons p ps =>
    obtain ⟨row, -, hep, hfor, -⟩ := h.localId_bounds (hrows ▸ List.mem_cons_self : p ∈ _)
    rw [hshift.rank_eq r ep hr ⟨p.1, hep, List.ne_nil_of_mem hfor⟩]

/-- What a rank has sent, when the slots name the right rows. -/
theorem PairsIdsWithRows.sent [Zero V] (h : IsEpBatch globalNumExperts m topK ranks)
    {buffers : List (ScatterBuffers V)}
    (hbuffers : ranks.mapM (scatterBuffers globalNumExperts m topK ranks.length) = some buffers)
    (hpairs : PairsIdsWithRows globalNumExperts m topK ranks buffers) {s : ℕ} {ep : EpRank V}
    (hs : ranks[s]? = some ep) :
    ep.expandedExpertIdx ≠ [] ∧
      (keptRows (globalNumExperts / ranks.length) ranks.length m ep.expandedExpertIdx).map
          (fun row => (row.2 : ℤ)) =
        arange (keptRows (globalNumExperts / ranks.length) ranks.length m
          ep.expandedExpertIdx).length := by
  have hep := List.mem_of_getElem? hs
  have hlt := (List.getElem?_eq_some_iff.mp hs).1
  obtain ⟨hlen, hget⟩ := getElem?_of_mapM hbuffers
  have hb := hget s
  rw [hs, Option.bind_some] at hb
  rw [← hlen] at hlt
  obtain ⟨padIdx, unpadIndices, hset, -, hscatter⟩ :=
    VllmAscend.scatterBuffers_eq (m := m) (h.expanded ep hep) (h.length_ids ep hep)
  rw [hscatter, List.getElem?_eq_getElem hlt] at hb
  obtain ⟨hiddenStates, hgather, hbuffer⟩ := Option.map_eq_some_iff.mp hb.symm
  have hpad := (hpairs.slots s ep _ hs (List.getElem?_eq_getElem hlt)).2
  rw [← hbuffer] at hpad
  have hpadEq : padIdx = (VllmAscend.slots (globalNumExperts / ranks.length) ranks.length m
      ep.expandedExpertIdx).map fun slot => slot.elim 0 fun row => (row.2 : ℤ) := hpad
  refine ⟨fun hnil => ?_, (padIdx_eq_iff hset).mp hpadEq⟩
  -- without rows there is nothing to name
  have hrows : ep.hiddenStates = [] := List.eq_nil_of_length_eq_zero (by
    rw [h.length_rows ep hep, hnil, List.length_nil])
  have hpadLen : padIdx.length = ranks.length * m := by
    rw [hpadEq, List.length_map, length_slots]
  have hpos : 0 < padIdx.length := by
    rw [hpadLen]
    exact Nat.mul_pos (List.length_pos_of_mem hep) h.one_le
  obtain ⟨i, is, hcons⟩ := List.exists_cons_of_length_pos hpos
  rw [hrows, hcons, gather, List.mapM_cons] at hgather
  simp [item, place] at hgather

/-- **A group whose ids go with their rows does not shift them.** -/
theorem PairsIdsWithRows.nothingShifts [Zero V] (h : IsEpBatch globalNumExperts m topK ranks)
    {buffers : List (ScatterBuffers V)}
    (hbuffers : ranks.mapM (scatterBuffers globalNumExperts m topK ranks.length) = some buffers)
    (hpairs : PairsIdsWithRows globalNumExperts m topK ranks buffers) :
    NothingShifts globalNumExperts m ranks := by
  refine ⟨fun ep hep => ?_, fun ep hep => ?_, fun r ep hr hreceives => ?_⟩
  · obtain ⟨s, hs⟩ := List.mem_iff_getElem?.mp hep
    exact (hpairs.sent h hbuffers hs).1
  · obtain ⟨s, hs⟩ := List.mem_iff_getElem?.mp hep
    exact (keptRows_arange_iff (h.expanded ep hep) h.one_le).mp (hpairs.sent h hbuffers hs).2
  · obtain ⟨sender, hsender, hne⟩ := hreceives
    have hlt := (List.getElem?_eq_some_iff.mp hr).1
    have hids : buffers.map ScatterBuffers.expertIdx = ranks.map fun ep =>
        (VllmAscend.slots (globalNumExperts / ranks.length) ranks.length m ep.expandedExpertIdx).map fun slot =>
          slot.elim (globalNumExperts : ℤ) Prod.fst := by
      have hlen := (getElem?_of_mapM hbuffers).1
      refine List.ext_getElem (by simp [hlen]) fun s hs hs' => ?_
      rw [List.length_map] at hs hs'
      rw [List.getElem_map, List.getElem_map]
      exact (hpairs.slots s _ _ (List.getElem?_eq_getElem hs') (List.getElem?_eq_getElem hs)).1
    have hgathered : gatheredIds buffers r = (receivedSlots globalNumExperts m ranks r).map fun p =>
        p.2.elim (globalNumExperts : ℤ) Prod.fst := by
      rw [gatheredIds, hids]
      exact exchange_slots (fun _ slot => slot.elim (globalNumExperts : ℤ) Prod.fst) hlt
    have hlocal := hpairs.localIdx r ep hr
    rw [localExpertIdx, localExpertIdx, List.map_inj_left, hgathered, slotMask_received h,
      select_map] at hlocal
    -- the sender's first row is received
    obtain ⟨row, hrow⟩ := List.exists_mem_of_ne_nil
      ((rowsFor (globalNumExperts / ranks.length) sender.expandedExpertIdx r).take m) (by
        rw [ne_eq, List.take_eq_nil_iff, not_or]
        have hm := h.one_le
        exact ⟨by omega, hne⟩)
    have hmem : (sender, some row) ∈ (receivedSlots globalNumExperts m ranks r).filter
        fun p => p.2.isSome := by
      refine List.mem_filter.mpr ⟨List.mem_flatMap.mpr ⟨sender, hsender, List.mem_map_of_mem ?_⟩, rfl⟩
      exact List.mem_append_left _ (List.mem_map_of_mem hrow)
    have hid := hlocal _ (List.mem_map_of_mem hmem)
    obtain ⟨hkey, hget⟩ := rowsFor_key (List.mem_of_mem_take hrow)
    have hpos := ((h.expanded sender hsender).rank_lt (List.mem_of_getElem? hget)).1
    have hmul : ep.rank * (globalNumExperts / ranks.length) = r * (globalNumExperts / ranks.length) := by
      have hcast := sub_right_injective hid
      exact_mod_cast hcast
    exact Nat.eq_of_mul_eq_mul_right hpos hmul

/-- **Ids go with their rows exactly when nothing shifts.** -/
theorem pairsIdsWithRows_iff [Zero V] (h : IsEpBatch globalNumExperts m topK ranks) :
    (∃ buffers, ranks.mapM (scatterBuffers globalNumExperts m topK ranks.length) = some buffers ∧
      PairsIdsWithRows globalNumExperts m topK ranks buffers) ↔
      NothingShifts globalNumExperts m ranks := by
  constructor
  · rintro ⟨buffers, hbuffers, hpairs⟩
    exact hpairs.nothingShifts h hbuffers
  · intro hshift
    obtain ⟨unpadIndices, hunpad, hbuffers⟩ := h.scatterBuffers_eq hshift
    refine ⟨_, hbuffers, ⟨fun s ep b hs hb => ?_, fun r ep hr => ?_, fun r ep hr e he => ?_,
      fun f sortedIdx mlpOutput resortedIdx hrun => ?_⟩⟩
    · rw [List.getElem?_map, hs, Option.map_some, Option.some.injEq] at hb
      subst hb
      exact ⟨rfl, rfl⟩
    · have hlt := (List.getElem?_eq_some_iff.mp hr).1
      rw [gatheredIds_eq unpadIndices hlt, NothingShifts.localExpertIdx_eq h hshift hr,
        localExpertIdx_received h]
    · have hlt := (List.getElem?_eq_some_iff.mp hr).1
      rw [gatheredIds_eq unpadIndices hlt, NothingShifts.localExpertIdx_eq h hshift hr] at he
      obtain ⟨p, hp, rfl⟩ := List.mem_map.mp he
      obtain ⟨row, -, -, -, hlow, hhigh, -⟩ := h.localId_bounds hp
      exact ⟨hlow, hhigh⟩
    · refine h.returnedRows_eq hunpad fun r hlt => ?_
      have hr := List.getElem?_eq_getElem hlt
      have hsorted := hrun.sorted r _ hr
      have hexperts := fun rows expertTokens => hrun.experts r _ rows expertTokens hr
      have hresorted := hrun.resorted r _ hr
      rw [gatheredIds_eq unpadIndices hlt, NothingShifts.localExpertIdx_eq h hshift hr] at hsorted
      simp only [gatheredIds_eq unpadIndices hlt, gatheredRows_eq unpadIndices hlt,
        NothingShifts.localExpertIdx_eq h hshift hr, slotMask_received h, select_map] at hexperts
      exact h.scatterBack_eq hsorted hexperts hresorted

end Ranks

/-! ## Two ranks -/

/-- Two experts on two ranks, with the numbers of the rows for hidden states. -/
def twoRanks (start : ℕ) (ids : List ℤ) : List (EpRank ℤ) :=
  [⟨start, ids.length, arange ids.length, ids⟩, ⟨start + 1, ids.length, arange ids.length, ids⟩]

theorem twoRanks_isEpBatch (start : ℕ) {ids : List ℤ} (hsorted : ids.Pairwise (· ≤ ·))
    (hids : ∀ id ∈ ids, 0 ≤ id ∧ id < 2) (hlen : ids.length ≤ 8) : IsEpBatch 2 1 1 (twoRanks start ids) where
  one_le := le_rfl
  expanded ep hep := by
    have heq : ep.expandedExpertIdx = ids := by
      obtain rfl | rfl := by simpa [twoRanks] using hep
      all_goals rfl
    rw [heq]
    exact ⟨⟨1, rfl⟩, hsorted, hids, by norm_num, hlen.trans (by norm_num)⟩
  length_ids ep hep := by
    obtain rfl | rfl := by simpa [twoRanks] using hep
    all_goals exact (Nat.mul_one _).symm
  length_rows ep hep := by
    obtain rfl | rfl := by simpa [twoRanks] using hep
    all_goals exact length_arange _
  total_le := by
    simp only [twoRanks, List.map_cons, List.map_nil, List.sum_cons, List.sum_nil]
    omega

theorem pairsIdsWithRows_twoRanks :
    (∃ buffers, (twoRanks 0 [0, 1]).mapM (scatterBuffers 2 1 1 2) = some buffers ∧
      PairsIdsWithRows 2 1 1 (twoRanks 0 [0, 1]) buffers) ↔ NothingShifts 2 1 (twoRanks 0 [0, 1]) :=
  pairsIdsWithRows_iff (twoRanks_isEpBatch 0 (by decide) (by decide) (by decide))

/-- **One row too many for rank 0** shifts the row for rank 1; and in a group that starts at rank 2 every
id is local to the wrong rank. -/
theorem not_pairsIdsWithRows :
    (IsEpBatch 2 1 1 (twoRanks 0 [0, 0, 1]) ∧
      ¬ ∃ buffers, (twoRanks 0 [0, 0, 1]).mapM (scatterBuffers 2 1 1 2) = some buffers ∧
        PairsIdsWithRows 2 1 1 (twoRanks 0 [0, 0, 1]) buffers) ∧
    (IsEpBatch 2 1 1 (twoRanks 2 [0, 1]) ∧
      ¬ ∃ buffers, (twoRanks 2 [0, 1]).mapM (scatterBuffers 2 1 1 2) = some buffers ∧
        PairsIdsWithRows 2 1 1 (twoRanks 2 [0, 1]) buffers) := by
  have hoverflow : IsEpBatch 2 1 1 (twoRanks 0 [0, 0, 1]) :=
    twoRanks_isEpBatch 0 (by decide) (by decide) (by decide)
  have hstart : IsEpBatch 2 1 1 (twoRanks 2 [0, 1]) :=
    twoRanks_isEpBatch 2 (by decide) (by decide) (by decide)
  refine ⟨⟨hoverflow, ?_⟩, ⟨hstart, ?_⟩⟩
  · rintro ⟨buffers, hbuffers, hpairs⟩
    have hnil := (hpairs.nothingShifts hoverflow hbuffers).overflow _ (.head _) 0 1 one_pos (by decide)
    revert hnil
    decide
  · rintro ⟨buffers, hbuffers, hpairs⟩
    have hrank := (hpairs.nothingShifts hstart hbuffers).rank_eq 0 _ rfl ⟨_, .head _, by decide⟩
    revert hrank
    decide

end VllmAscend
