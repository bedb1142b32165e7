import VllmAscend.Machinery.LastIndex
import VllmAscend.Machinery.Ragged

/-!
# Ops/ExpertLoadBalancer — where the experts are, and where the tokens go

    expert_map_tensor[layer]    [[4, 1], [2, 4], [0, 3]]
    physical id                   0  1    2  3    4  5
    expert_placement_map        rank 0: 4 ↦ 0, 1 ↦ 1   rank 1: 2 ↦ 0, 4 ↦ 1   …
    log2phy on rank 1           4 ↦ 3 (its own), 1 ↦ 1, …

A layer's table lists the experts of each rank.  A rank knows where its own experts are (the placement
map) and, for every expert, a physical id: a place in the concatenated rows, its own where it has the
expert, one at random where it has not.  The owner of a physical id computes the expert it has loaded in
that slot, which is the one asked for as long as no rank lists an expert twice
(`placements_consistent_iff`).
-/

namespace VllmAscend

open Machinery

structure ExpertLoadBalancer where
  expertMapTensor : List (List (List ℤ))
  layersNum : ℕ
  ranksNum : ℕ
  globalExpertNum : ℕ

/-- A `dict[int, α]`.  The order of the keys decides nothing but the order of the random draws. -/
abbrev ExpertDict (α : Type) := AList fun _ : ℤ => α

/-- `random.choice` of the list, at the random number `k`. -/
def randomChoice {α : Type} (k : ℕ) (xs : List α) : Option α := xs[k % xs.length]?

/-- `generate_index_dicts`, from the row that starts at `currentIdx` on. -/
def generateIndexDicts (currentIdx : ℕ) : List (List ℤ) → List (ExpertDict ℕ)
  | [] => []
  | row :: rows => insertIdx ∅ currentIdx row :: generateIndexDicts (currentIdx + row.length) rows

namespace ExpertLoadBalancer

variable (b : ExpertLoadBalancer)

def generateExpertPlacementMap : Option (List (List (List ℤ))) :=
  let expertPlacementMap := List.replicate b.layersNum
    (List.replicate b.ranksNum (List.replicate b.globalExpertNum (-1)))
  (List.range b.layersNum).foldlM (fun expertPlacementMap (layerId : ℕ) =>
    (List.range b.ranksNum).foldlM (fun expertPlacementMap (gpuId : ℕ) => do
      let layer ← b.expertMapTensor[layerId]?
      let eIds ← layer[gpuId]?
      modifyItem (fun m => modifyItem (fun row => scatter row eIds (arange eIds.length)) m gpuId)
        expertPlacementMap layerId) expertPlacementMap) expertPlacementMap

/-- `generate_log2phy_expert_map`, with the random number `draw rank key` for each choice. -/
def generateLog2phyExpertMap (layerId : ℕ) (draw : ℕ → ℤ → ℕ) : Option (List (List ℤ)) := do
  let layer ← b.expertMapTensor[layerId]?
  let concatenated := layer.flatten
  let rankExpertToGlobal := generateIndexDicts 0 layer
  let resultDict : ExpertDict (List ℕ) := collectIdx ∅ 0 concatenated
  let log2phyMap := List.replicate b.ranksNum (List.replicate b.globalExpertNum (-1))
  (List.range b.ranksNum).foldlM (fun log2phyMap (rank : ℕ) =>
    resultDict.entries.foldlM (fun log2phyMap entry => do
      let key := entry.1
      let indicesInConcat := entry.2
      let expertToGlobal ← rankExpertToGlobal[rank]?
      let chosenIndex ← (expertToGlobal.lookup key).or
        (randomChoice (draw rank key) indicesInConcat)
      modifyItem (fun row => setItem row key (chosenIndex : ℤ)) log2phyMap rank) log2phyMap)
    log2phyMap

/-- `rank_local_expert_num` and `rank_expert_map`. -/
def getRankPlacementMap (layerId rankId : ℕ) : Option (ℕ × List ℤ) := do
  let expertPlacementMap ← b.generateExpertPlacementMap
  let layerExpertMap ← expertPlacementMap[layerId]?
  let rankExpertMap ← layerExpertMap[rankId]?
  return (rankExpertMap.countP (· ≠ -1), rankExpertMap)

def getRankLog2phyMap (layerId rankId : ℕ) (draw : ℕ → ℤ → ℕ) : Option (List ℤ) := do
  let layerLog2phyMap ← b.generateLog2phyExpertMap layerId draw
  layerLog2phyMap[rankId]?

/-- Every layer and rank lists `n` expert ids, and every expert is in every layer. -/
structure WellFormed (n : ℕ) : Prop where
  length_eq : b.expertMapTensor.length = b.layersNum
  length_layer : ∀ layer ∈ b.expertMapTensor, layer.length = b.ranksNum
  length_row : ∀ layer ∈ b.expertMapTensor, ∀ row ∈ layer, row.length = n
  id_lt : ∀ layer ∈ b.expertMapTensor, ∀ row ∈ layer, ∀ e ∈ row, 0 ≤ e ∧ e < b.globalExpertNum
  covered : ∀ layer ∈ b.expertMapTensor, ∀ e < b.globalExpertNum, ∃ row ∈ layer, (e : ℤ) ∈ row

/-- The experts of a rank in a layer. -/
def row? (layerId rankId : ℕ) : Option (List ℤ) :=
  b.expertMapTensor[layerId]?.bind fun layer => layer[rankId]?

/-- Slot `j` of rank `k` has expert `e`, by the table and by the placement map of the rank. -/
def Owns (layerId k j e : ℕ) : Prop :=
  (b.row? layerId k).bind (fun row => row[j]?) = some (e : ℤ) ∧
    ∃ localExpertNum rankExpertMap,
      b.getRankPlacementMap layerId k = some (localExpertNum, rankExpertMap) ∧
        rankExpertMap[e]? = some (j : ℤ)

/-- On rank `r` every expert has a physical id whose slot has the expert, on `r` itself when it lists
the expert, and `r` reports `n` experts. -/
def Consistent (n layerId r : ℕ) (draw : ℕ → ℤ → ℕ) : Prop :=
  (∃ log2phy, b.getRankLog2phyMap layerId r draw = some log2phy ∧
    ∀ e < b.globalExpertNum, ∃ p : ℕ, log2phy[e]? = some (p : ℤ) ∧
      b.Owns layerId (p / n) (p % n) e ∧
      ∀ row, b.row? layerId r = some row → (e : ℤ) ∈ row → p / n = r) ∧
    ∃ rankExpertMap, b.getRankPlacementMap layerId r = some (n, rankExpertMap)

/-! ## The placement map -/

/-- The placement map of a rank. -/
def placementRow (globalExpertNum : ℕ) (row : List ℤ) : List ℤ :=
  (List.range globalExpertNum).map fun e : ℕ =>
    ((lastIdx (e : ℤ) row).map fun j : ℕ => (j : ℤ)).getD (-1)

theorem getElem?_placementRow {globalExpertNum e : ℕ} (he : e < globalExpertNum) (row : List ℤ) :
    (placementRow globalExpertNum row)[e]? =
      some (((lastIdx (e : ℤ) row).map fun j : ℕ => (j : ℤ)).getD (-1)) := by
  simp [placementRow, he]

theorem scatter_placementRow {globalExpertNum : ℕ} {row : List ℤ}
    (h : ∀ e ∈ row, 0 ≤ e ∧ e < globalExpertNum) :
    scatter (List.replicate globalExpertNum (-1)) row (arange row.length) =
      some (placementRow globalExpertNum row) := by
  obtain ⟨out, hout, hlen, hget⟩ := scatter_arange
    (show ∀ i ∈ row, 0 ≤ i ∧ i < (List.replicate globalExpertNum (-1 : ℤ)).length by simpa using h)
  rw [hout, Option.some.injEq]
  rw [List.length_replicate] at hlen hget
  refine List.ext_getElem? fun e => ?_
  by_cases he : e < globalExpertNum
  · rw [hget e he, getElem?_placementRow he, List.getElem?_replicate, if_pos he]
    cases lastIdx (e : ℤ) row <;> rfl
  · rw [List.getElem?_eq_none (by omega), List.getElem?_eq_none (by simp [placementRow]; omega)]

variable {b} {n : ℕ}

/-- **Each rank has its own placement map.** -/
theorem generateExpertPlacementMap_eq (h : b.WellFormed n) :
    b.generateExpertPlacementMap =
      some (b.expertMapTensor.map fun layer => layer.map (placementRow b.globalExpertNum)) := by
  refine foldlM_range_rows (fun m => m) (by simp) (by simp [h.length_eq]) ?_
  intro layerId old new before after hold hnew hbefore _
  rw [List.getElem?_map] at hnew
  obtain ⟨layer, hlayer, rfl⟩ := Option.map_eq_some_iff.mp hnew
  have hlayerMem := List.mem_of_getElem? hlayer
  obtain rfl : old = List.replicate b.ranksNum (List.replicate b.globalExpertNum (-1)) :=
    List.eq_of_mem_replicate (List.mem_of_getElem? hold)
  refine foldlM_range_rows (fun ranks => before ++ ranks :: after) (by simp)
    (by simp [h.length_layer layer hlayerMem]) ?_
  intro gpuId oldRow newRow beforeRow afterRow holdRow hnewRow hbeforeRow _
  rw [List.getElem?_map] at hnewRow
  obtain ⟨row, hrow, rfl⟩ := Option.map_eq_some_iff.mp hnewRow
  obtain rfl : oldRow = List.replicate b.globalExpertNum (-1) :=
    List.eq_of_mem_replicate (List.mem_of_getElem? holdRow)
  simp only [hlayer, hrow, Option.bind_eq_bind, Option.bind_some]
  rw [modifyItem_append _ _ _ _ hbefore, modifyItem_append _ _ _ _ hbeforeRow,
    scatter_placementRow (h.id_lt layer hlayerMem row (List.mem_of_getElem? hrow))]
  rfl

theorem getRankPlacementMap_eq (h : b.WellFormed n) {layerId rankId : ℕ} {row : List ℤ}
    (hrow : b.row? layerId rankId = some row) :
    b.getRankPlacementMap layerId rankId =
      some ((placementRow b.globalExpertNum row).countP (· ≠ -1), placementRow b.globalExpertNum row) := by
  obtain ⟨layer, hlayer, hrow⟩ := Option.bind_eq_some_iff.mp hrow
  simp only [getRankPlacementMap, generateExpertPlacementMap_eq h, List.getElem?_map, hlayer, hrow,
    Option.map_some, Option.bind_eq_bind, Option.bind_some, Option.pure_def]

/-- **The experts of a rank are counted once each.** -/
theorem countP_placementRow {globalExpertNum : ℕ} {row : List ℤ}
    (h : ∀ e ∈ row, 0 ≤ e ∧ e < globalExpertNum) :
    (placementRow globalExpertNum row).countP (· ≠ -1) = row.dedup.length := by
  have hheld : (placementRow globalExpertNum row).countP (· ≠ -1) =
      ((List.range globalExpertNum).filter fun e : ℕ => (e : ℤ) ∈ row).length := by
    rw [placementRow, List.countP_map, List.countP_eq_length_filter]
    refine congrArg List.length (List.filter_congr fun e _ => ?_)
    cases hlast : lastIdx (e : ℤ) row with
    | none => simp [hlast, lastIdx_eq_none.mp hlast]
    | some j =>
      have hmem := List.mem_of_getElem? (getElem?_of_lastIdx hlast)
      simp only [Function.comp_apply, hlast, Option.map_some, Option.getD_some, hmem, decide_true,
        decide_eq_true_eq]
      omega
  have hperm : (((List.range globalExpertNum).filter fun e : ℕ => (e : ℤ) ∈ row).map
      fun e : ℕ => (e : ℤ)).Perm row.dedup := by
    refine (List.perm_ext_iff_of_nodup ?_ row.nodup_dedup).mpr fun e => ?_
    · exact (List.nodup_range.filter _).map Nat.cast_injective
    · rw [List.mem_map, List.mem_dedup]
      constructor
      · rintro ⟨e', he', rfl⟩
        exact of_decide_eq_true (List.mem_filter.mp he').2
      · intro he
        obtain ⟨hnonneg, hlt⟩ := h e he
        obtain ⟨e', rfl⟩ := Int.eq_ofNat_of_zero_le hnonneg
        exact ⟨e', List.mem_filter.mpr ⟨List.mem_range.mpr (by exact_mod_cast hlt),
          decide_eq_true he⟩, rfl⟩
  rw [hheld, ← hperm.length_eq, List.length_map]

theorem length_dedup_eq_iff {row : List ℤ} : row.dedup.length = row.length ↔ row.Nodup := by
  rw [← List.dedup_eq_self]
  exact ⟨fun hlen => row.dedup_sublist.eq_of_length hlen, fun h => by rw [h]⟩

/-! ## The physical ids -/

theorem getElem?_generateIndexDicts : ∀ {rows : List (List ℤ)} {s n rank : ℕ} {row : List ℤ},
    (∀ row ∈ rows, row.length = n) → rows[rank]? = some row →
      (generateIndexDicts s rows)[rank]? = some (insertIdx ∅ (s + rank * n) row)
  | row' :: rows, s, n, 0, row, _, h => by
    cases h
    simp [generateIndexDicts]
  | row' :: rows, s, n, rank + 1, row, hlen, h => by
    have hrest : rows[rank]? = some row := h
    have ih := getElem?_generateIndexDicts (s := s + n) (fun r hr => hlen r (.tail _ hr)) hrest
    rw [generateIndexDicts, List.getElem?_cons_succ, hlen row' (.head _), ih, Nat.add_mul,
      Nat.one_mul, Nat.add_assoc, Nat.add_comm n]

/-- **A place in rows of one length** is a row and a place in it. -/
theorem getElem?_flatten_rows : ∀ {rows : List (List ℤ)} {n p : ℕ} {e : ℤ},
    (∀ row ∈ rows, row.length = n) → rows.flatten[p]? = some e →
      rows[p / n]?.bind (fun row => row[p % n]?) = some e
  | row :: rows, n, p, e, hlen, h => by
    have hrow : row.length = n := hlen row (.head _)
    rw [List.flatten_cons] at h
    by_cases hp : p < n
    · rw [List.getElem?_append_left (hrow.symm ▸ hp)] at h
      simpa [Nat.div_eq_of_lt hp, Nat.mod_eq_of_lt hp] using h
    · rw [List.getElem?_append_right (by omega), hrow] at h
      have hpos : 0 < n := Nat.pos_of_ne_zero fun hzero => by
        have hnil : rows.flatten = [] := List.flatten_eq_nil_iff.mpr fun r hr =>
          List.length_eq_zero_iff.mp ((hlen r (.tail _ hr)).trans hzero)
        rw [hnil, List.getElem?_nil] at h
        cases h
      have ih := getElem?_flatten_rows (fun r hr => hlen r (.tail _ hr)) h
      have hdiv : p / n = (p - n) / n + 1 := by
        rw [← Nat.add_div_right _ hpos, Nat.sub_add_cancel (by omega)]
      have hmod : p % n = (p - n) % n := Nat.mod_eq_sub_mod (by omega)
      rw [hdiv, hmod, List.getElem?_cons_succ]
      exact ih

theorem mem_randomChoice {α : Type} {k : ℕ} {xs : List α} (h : xs ≠ []) :
    ∃ x ∈ xs, randomChoice k xs = some x := by
  have hlt : k % xs.length < xs.length := Nat.mod_lt _ (List.length_pos_iff.mpr h)
  exact ⟨xs[k % xs.length], List.getElem_mem hlt, List.getElem?_eq_getElem hlt⟩

/-- The physical id of an expert: on the rank itself in its last slot, or else anywhere. -/
def Physical (layer : List (List ℤ)) (n rank : ℕ) (e : ℤ) (p : ℕ) : Prop :=
  layer.flatten[p]? = some e ∧
    ∀ row, layer[rank]? = some row → e ∈ row → ∃ j, row[j]? = some e ∧ p = rank * n + j

/-- **The choice for one expert on one rank.** -/
theorem exists_physical {layer : List (List ℤ)} {n rank : ℕ} {row : List ℤ}
    (hlen : ∀ row ∈ layer, row.length = n) (hrow : layer[rank]? = some row) (k : ℕ) {e : ℤ}
    {places : List ℕ} (hplaces : (collectIdx ∅ 0 layer.flatten).lookup e = some places) :
    ∃ p, ((insertIdx ∅ (rank * n) row).lookup e).or (randomChoice k places) = some p ∧
      Physical layer n rank e p := by
  obtain ⟨hne, hmem⟩ := mem_of_mem_collectIdx hplaces
  rw [lookup_insertIdx, AList.lookup_empty, Option.or_none]
  cases hlast : lastIdx e row with
  | none =>
    obtain ⟨p, hp, hchoice⟩ := mem_randomChoice (k := k) hne
    refine ⟨p, hchoice, hmem p hp, fun row' hrow' he => ?_⟩
    obtain rfl := Option.some.inj (hrow.symm.trans hrow')
    exact absurd he (lastIdx_eq_none.mp hlast)
  | some j =>
    have hj := getElem?_of_lastIdx hlast
    refine ⟨rank * n + j, rfl, ?_, fun row' hrow' _ => ?_⟩
    · -- the place of slot `j` in the concatenated rows
      have hsplit := List.take_append_drop rank layer
      obtain ⟨hrank, hget⟩ := List.getElem?_eq_some_iff.mp hrow
      have hfront : (layer.take rank).flatten.length = rank * n := by
        rw [List.length_flatten, List.map_congr_left (g := fun _ => n)
          fun r hr => hlen r (List.mem_of_mem_take hr), List.map_const', List.sum_replicate,
          List.length_take, min_eq_left hrank.le, smul_eq_mul]
      have hlt : j < row.length := (List.getElem?_eq_some_iff.mp hj).1
      rw [← hsplit, List.flatten_append, List.getElem?_append_right (by omega), hfront,
        Nat.add_sub_cancel_left, List.drop_eq_getElem_cons hrank, hget, List.flatten_cons,
        List.getElem?_append_left hlt, hj]
    · obtain rfl := Option.some.inj (hrow.symm.trans hrow')
      exact ⟨j, hj, rfl⟩

/-- **Every rank has a physical id for every expert of the layer.** -/
theorem getRankLog2phyMap_physical (h : b.WellFormed n) {layerId rank : ℕ}
    {layer : List (List ℤ)} (hlayer : b.expertMapTensor[layerId]? = some layer)
    (hrank : rank < b.ranksNum) (draw : ℕ → ℤ → ℕ) :
    ∃ log2phy, b.getRankLog2phyMap layerId rank draw = some log2phy ∧
      ∀ e < b.globalExpertNum, ∃ p : ℕ, log2phy[e]? = some (p : ℤ) ∧ Physical layer n rank e p := by
  have hlayerMem := List.mem_of_getElem? hlayer
  have hlen := h.length_row layer hlayerMem
  set dict := collectIdx ∅ 0 layer.flatten with hdict
  -- the keys of the dictionary are the experts
  have hkeys : ∀ entry ∈ dict.entries, 0 ≤ entry.1 ∧ entry.1 < b.globalExpertNum := fun entry he => by
    have hin : entry.1 ∈ dict := List.mem_map_of_mem he
    obtain hempty | hflat := mem_collectIdx.mp hin
    · exact absurd hempty (AList.notMem_empty _)
    · obtain ⟨row, hrow, hmem⟩ := List.mem_flatten.mp hflat
      exact h.id_lt layer hlayerMem row hrow _ hmem
  have hentry : ∀ r < b.ranksNum, ∀ entry ∈ dict.entries, ∃ p : ℕ,
      (do
        let expertToGlobal ← (generateIndexDicts 0 layer)[r]?
        (expertToGlobal.lookup entry.1).or (randomChoice (draw r entry.1) entry.2)) = some p ∧
        Physical layer n r entry.1 p := fun r hr entry he => by
    obtain ⟨row, hrow⟩ : ∃ row, layer[r]? = some row :=
      ⟨_, List.getElem?_eq_getElem ((h.length_layer layer hlayerMem).symm ▸ hr)⟩
    rw [getElem?_generateIndexDicts hlen hrow, Nat.zero_add]
    exact exists_physical hlen hrow _ (AList.mem_lookup_iff.mpr he)
  choose! place hplace hphysical using hentry
  -- the row of each rank
  have hrows : ∀ r < b.ranksNum, ∃ out : List ℤ,
      (dict.entries.foldlM (fun row entry => setItem row entry.1 (place r entry : ℤ))
        (List.replicate b.globalExpertNum (-1))) = some out ∧
      ∀ entry ∈ dict.entries, out[entry.1.toNat]? = some (place r entry : ℤ) := fun r hr => by
    obtain ⟨out, hout, -, hget, -⟩ := @foldlM_setItem_nodup _ _ Sigma.fst
      (fun entry => (place r entry : ℤ)) _ (List.replicate b.globalExpertNum (-1)) dict.keys_nodup
      (by simpa using hkeys)
    exact ⟨out, hout, hget⟩
  choose! out hout hget using hrows
  have hmap : b.generateLog2phyExpertMap layerId draw =
      some ((List.range b.ranksNum).map out) := by
    simp only [generateLog2phyExpertMap, hlayer, Option.bind_eq_bind, Option.bind_some]
    refine foldlM_range_rows (fun m => m) (by simp) (by simp) ?_
    intro r old new before after hold hnew hbefore _
    have hr : r < b.ranksNum := by
      have := (List.getElem?_eq_some_iff.mp hold).1
      rwa [List.length_replicate] at this
    obtain rfl : old = List.replicate b.globalExpertNum (-1) :=
      List.eq_of_mem_replicate (List.mem_of_getElem? hold)
    obtain rfl : out r = new := by simpa [hr] using hnew
    have hstep := foldlM_row before after (dict.entries.map fun entry => (entry.1, (place r entry : ℤ)))
      (List.replicate b.globalExpertNum (-1))
    rw [List.map_map, List.foldlM_map, List.foldlM_map, hout r hr, hbefore] at hstep
    refine Eq.trans (foldlM_congr_mem fun m entry he => ?_) hstep
    have hval := hplace r hr entry he
    rw [Option.bind_eq_bind, Option.bind_eq_some_iff] at hval
    obtain ⟨expertToGlobal, hdicts, hval⟩ := hval
    simp only [hdicts, hval, Option.bind_some, Function.comp_apply]
  refine ⟨out rank, ?_, fun e he => ?_⟩
  · simp [getRankLog2phyMap, hmap, hrank]
  · obtain ⟨row, hrow, hmem⟩ := h.covered layer hlayerMem e he
    have hin : (e : ℤ) ∈ dict := mem_collectIdx.mpr (.inr (List.mem_flatten.mpr ⟨row, hrow, hmem⟩))
    obtain ⟨places, hplaces⟩ := Option.isSome_iff_exists.mp (AList.lookup_isSome.mpr hin)
    have hentry := AList.mem_lookup_iff.mp hplaces
    exact ⟨_, hget rank hrank _ hentry, hphysical rank hrank _ hentry⟩

/-! ## The maps together -/

/-- A slot that has the expert, on a rank without repeats. -/
theorem owns_of_row (h : b.WellFormed n) {layerId k j e : ℕ} {row : List ℤ}
    (hrow : b.row? layerId k = some row) (hnodup : row.Nodup) (hj : row[j]? = some (e : ℤ))
    (he : e < b.globalExpertNum) : b.Owns layerId k j e := by
  refine ⟨by rw [hrow, Option.bind_some, hj], _, _, getRankPlacementMap_eq h hrow, ?_⟩
  rw [getElem?_placementRow he, lastIdx_of_nodup hnodup hj]
  rfl

/-- The number of experts a rank reports. -/
theorem reports_iff (h : b.WellFormed n) {layerId r : ℕ} {row : List ℤ}
    (hrow : b.row? layerId r = some row) :
    (∃ rankExpertMap, b.getRankPlacementMap layerId r = some (n, rankExpertMap)) ↔ row.Nodup := by
  obtain ⟨layer, hlayer, hget⟩ := Option.bind_eq_some_iff.mp hrow
  have hlayerMem := List.mem_of_getElem? hlayer
  have hrowMem := List.mem_of_getElem? hget
  rw [getRankPlacementMap_eq h hrow, countP_placementRow (h.id_lt layer hlayerMem row hrowMem),
    ← length_dedup_eq_iff, h.length_row layer hlayerMem row hrowMem]
  simp

/-- **The maps agree, on every rank and for every random choice, exactly when no rank lists an expert
twice.** -/
theorem placements_consistent_iff (h : b.WellFormed n) :
    (∀ draw, ∀ layerId < b.layersNum, ∀ r < b.ranksNum, b.Consistent n layerId r draw) ↔
      ∀ layer ∈ b.expertMapTensor, ∀ row ∈ layer, row.Nodup := by
  constructor
  · intro hconsistent layer hlayer row hrow
    obtain ⟨layerId, hlayerId⟩ := List.mem_iff_getElem?.mp hlayer
    obtain ⟨r, hr⟩ := List.mem_iff_getElem?.mp hrow
    have hlayerLt := (List.getElem?_eq_some_iff.mp hlayerId).1
    have hrLt := (List.getElem?_eq_some_iff.mp hr).1
    rw [h.length_eq] at hlayerLt
    rw [h.length_layer layer hlayer] at hrLt
    have hrow? : b.row? layerId r = some row := Option.bind_eq_some_iff.mpr ⟨layer, hlayerId, hr⟩
    exact (reports_iff h hrow?).mp (hconsistent (fun _ _ => 0) layerId hlayerLt r hrLt).2
  · intro hnodup draw layerId hlayerLt r hrLt
    rw [← h.length_eq] at hlayerLt
    obtain ⟨layer, hlayer⟩ : ∃ layer, b.expertMapTensor[layerId]? = some layer :=
      ⟨_, List.getElem?_eq_getElem hlayerLt⟩
    have hlayerMem := List.mem_of_getElem? hlayer
    have hlen := h.length_row layer hlayerMem
    have hrow? : ∀ k row, layer[k]? = some row → b.row? layerId k = some row := fun k row hk =>
      Option.bind_eq_some_iff.mpr ⟨layer, hlayer, hk⟩
    obtain ⟨own, hown⟩ : ∃ row, layer[r]? = some row :=
      ⟨_, List.getElem?_eq_getElem ((h.length_layer layer hlayerMem).symm ▸ hrLt)⟩
    refine ⟨?_, (reports_iff h (hrow? r own hown)).mpr
      (hnodup layer hlayerMem own (List.mem_of_getElem? hown))⟩
    obtain ⟨log2phy, hlog2phy, hphysical⟩ := getRankLog2phyMap_physical h hlayer hrLt draw
    refine ⟨log2phy, hlog2phy, fun e he => ?_⟩
    obtain ⟨p, hp, hflat, hlocal⟩ := hphysical e he
    refine ⟨p, hp, ?_, fun row hrow hmem => ?_⟩
    · obtain ⟨row, hrow, hslot⟩ := Option.bind_eq_some_iff.mp (getElem?_flatten_rows hlen hflat)
      exact owns_of_row h (hrow? _ row hrow) (hnodup layer hlayerMem row (List.mem_of_getElem? hrow))
        hslot he
    · obtain rfl := Option.some.inj ((hrow? r own hown).symm.trans hrow)
      obtain ⟨j, hj, rfl⟩ := hlocal own hown hmem
      have hlt := (List.getElem?_eq_some_iff.mp hj).1
      rw [hlen own (List.mem_of_getElem? hown)] at hlt
      rw [Nat.mul_comm, Nat.mul_add_div (by omega), Nat.div_eq_of_lt hlt, Nat.add_zero]

/-- Two ranks that share an expert. -/
def replicated : ExpertLoadBalancer := ⟨[[[0, 1], [2, 1]]], 1, 2, 3⟩

theorem replicated_wellFormed : replicated.WellFormed 2 :=
  ⟨by decide, by decide, by decide, by decide, by decide⟩

theorem replicated_consistent : replicated.Consistent 2 0 1 fun _ _ => 0 :=
  (placements_consistent_iff replicated_wellFormed).mpr (by decide) _ 0 (by decide) 1 (by decide)

/-- A rank that lists an expert twice. -/
def repeated : ExpertLoadBalancer := ⟨[[[0, 0], [1, 2]]], 1, 2, 3⟩

theorem repeated_wellFormed : repeated.WellFormed 2 :=
  ⟨by decide, by decide, by decide, by decide, by decide⟩

/-- **A draw sends rank 1 to slot 0 of rank 0, which has the expert in slot 1 and reports one
expert.** -/
theorem repeated_inconsistent :
    repeated.WellFormed 2 ∧ ¬ repeated.Consistent 2 0 1 (fun _ _ => 0) ∧
      repeated.getRankPlacementMap 0 0 = some (1, [1, -1, -1]) := by
  refine ⟨repeated_wellFormed, ?_, by decide +kernel⟩
  rintro ⟨⟨log2phy, hlog2phy, hall⟩, -⟩
  have heval : repeated.getRankLog2phyMap 0 1 (fun _ _ => 0) = some [0, 2, 3] := by decide +kernel
  obtain rfl := Option.some.inj (heval.symm.trans hlog2phy)
  obtain ⟨p, hp, ⟨-, num, rankMap, hmap, hslot⟩, -⟩ := hall 0 (by decide)
  have hzero : p = 0 := by simpa using hp.symm
  have hmapEval : repeated.getRankPlacementMap 0 0 = some (1, [1, -1, -1]) := by decide +kernel
  rw [hzero, Nat.zero_div, hmapEval] at hmap
  cases hmap
  rw [hzero] at hslot
  cases hslot

end ExpertLoadBalancer

end VllmAscend
