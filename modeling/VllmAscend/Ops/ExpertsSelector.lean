import VllmAscend.Machinery.FlatRows
import VllmAscend.Machinery.SortBack
import VllmAscend.Machinery.TopK

/-!
# Ops/ExpertsSelector — the largest experts of the largest groups

    biased scores   −3 −4 │ −1 −2 │ −5 −6        the group in the middle is chosen
    masked           0  0 │ −1 −2 │  0  0        and none of its experts is among the largest

Experts stand in groups, and a token is to be routed to the best experts of its best groups.  The scores of the
other groups are overwritten with 0 before the experts are selected.  With a bias the scores that are left may be
negative: the other groups stay out exactly while enough of these are positive (`selectExpertUseGroupTopk_iff`).
-/

namespace VllmAscend

open Machinery

/-! ## The selection -/

section Selector

variable {K : Type} [Field K] [LinearOrder K]

/-- `torch.topk(row, k)[1]`; which of equal entries it returns is up to `topk`. -/
def topkIndices (topk : List K → ℕ → List ℕ) (k : ℕ) (row : List K) : Option (List ℕ) :=
  if k ≤ row.length then some (topk row k) else none

/-- `row.view(num_expert_group, -1)` -/
def groupsOf (numExpertGroup : ℕ) (row : List K) : List (List K) :=
  (List.range numExpertGroup).map fun g =>
    (row.drop (g * (row.length / numExpertGroup))).take (row.length / numExpertGroup)

/-- `row.masked_fill(~topk_weight_mask, 0.0)` -/
def maskGroups (numExpertGroup : ℕ) (topkGroupIndices : List ℕ) (row : List K) : List K :=
  let topkGroupMask := (List.range numExpertGroup).map fun g => decide (g ∈ topkGroupIndices)
  let topkWeightMask := topkGroupMask.flatMap (List.replicate (row.length / numExpertGroup))
  List.zipWith (fun kept w => if kept then w else 0) topkWeightMask row

/-- `_native_grouped_topk`.  The last dimension of the view is inferred, so that there has to be a token. -/
def nativeGroupedTopk (topkGroups : List K → ℕ → List ℕ) (topkWeights : List (List K))
    (numExpertGroup topkGroup : Option ℕ) : Option (List (List K)) := do
  let topkGroup := topkGroup.getD 0
  let numExpertGroup := numExpertGroup.getD 0
  guard (topkWeights ≠ [] ∧ 0 < numExpertGroup)
  topkWeights.mapM fun row => do
    guard (numExpertGroup ∣ row.length)
    let groupedWeights ← (groupsOf numExpertGroup row).mapM List.max?
    let topkGroupIndices ← topkIndices topkGroups topkGroup groupedWeights
    return maskGroups numExpertGroup topkGroupIndices row

/-- `_renormalize_topk_weights` -/
def renormalizeTopkWeights (renormalize : Bool) (row : List K) : List K :=
  if renormalize then row.map (· / row.sum) else row

/-- `topk_weights + e_score_correction_bias.unsqueeze(0)` -/
def biasedScores (eScoreCorrectionBias : Option (List K)) (row : List K) : List K :=
  match eScoreCorrectionBias with
  | some bias => List.zipWith (· + ·) row bias
  | none => row

/-- `_select_expert_use_group_topk` -/
def selectExpertUseGroupTopk (topkGroups topkExperts : List K → ℕ → List ℕ) (topkWeights : List (List K))
    (topkGroup : Option ℕ) (renormalize : Bool) (topK : ℕ) (numExpertGroup : Option ℕ)
    (eScoreCorrectionBias : Option (List K)) : Option (List (List K) × List (List ℕ)) := do
  guard (topkGroup.isSome ∧ numExpertGroup.isSome)
  let biased := topkWeights.map (biasedScores eScoreCorrectionBias)
  let masked ← nativeGroupedTopk topkGroups biased numExpertGroup topkGroup
  let topkIds ← masked.mapM (topkIndices topkExperts topK)
  let source := if eScoreCorrectionBias.isSome then topkWeights else masked
  let weights ← (source.zip topkIds).mapM fun e => e.2.mapM fun i => e.1[i]?
  return (weights.map (renormalizeTopkWeights renormalize), topkIds)

/-! ## What is to be selected -/

/-- **The best experts of the chosen groups**: `groupSize` experts stand in a group. -/
structure SelectsInGroups (biased scores : List K) (groups : List ℕ) (groupSize topK : ℕ) (renormalize : Bool)
    (weights : List K) (ids : List ℕ) : Prop where
  length : ids.length = topK
  nodup : ids.Nodup
  mem : ∀ e ∈ ids, e < biased.length ∧ e / groupSize ∈ groups
  le : ∀ e ∈ ids, ∀ e', e' ∉ ids → e' / groupSize ∈ groups → ∀ x ∈ biased[e]?, ∀ y ∈ biased[e']?, y ≤ x
  weights : ∃ unnormalised, ids.mapM (fun e => scores[e]?) = some unnormalised ∧
    weights = renormalizeTopkWeights renormalize unnormalised

/-- The maxima of the groups of a row. -/
def groupMaxima (numExpertGroup : ℕ) (row : List K) : List K :=
  (groupsOf numExpertGroup row).map fun group => group.max?.getD 0

/-- **The groups are respected**: a result for each token, in the groups with the largest maxima. -/
def RespectsGroups (topkGroups : List K → ℕ → List ℕ) (scores : List (List K)) (topkGroup : ℕ)
    (renormalize : Bool) (topK numExpertGroup groupSize : ℕ) (eScoreCorrectionBias : Option (List K))
    (result : Option (List (List K) × List (List ℕ))) : Prop :=
  ∃ weights ids, result = some (weights, ids) ∧ weights.length = scores.length ∧ ids.length = scores.length ∧
    ∀ (t : ℕ) (row : List K), scores[t]? = some row →
      ∃ groups ws is, IsTopk (groupMaxima numExpertGroup (biasedScores eScoreCorrectionBias row)) topkGroup groups ∧
        groups = topkGroups (groupMaxima numExpertGroup (biasedScores eScoreCorrectionBias row)) topkGroup ∧
        weights[t]? = some ws ∧ ids[t]? = some is ∧
        SelectsInGroups (biasedScores eScoreCorrectionBias row) row groups groupSize topK renormalize ws is

/-- The experts of the groups with a positive score. -/
def positiveExperts (groups : List ℕ) (groupSize : ℕ) (row : List K) : Finset ℕ :=
  (placesWith (0 < ·) row).filter fun e => e / groupSize ∈ groups

/-! ## A row -/

section Row

variable {numExpertGroup groupSize : ℕ} {row : List K}

theorem mapM_max?_groupsOf (hgroup : 0 < groupSize) (hrow : row.length = numExpertGroup * groupSize) :
    (groupsOf numExpertGroup row).mapM List.max? = some (groupMaxima numExpertGroup row) := by
  refine mapM_eq_some_map fun group hgroup' => ?_
  obtain ⟨g, hg, rfl⟩ := List.mem_map.mp hgroup'
  have hg := List.mem_range.mp hg
  have hsize : row.length / numExpertGroup = groupSize := by
    rw [hrow, Nat.mul_div_cancel_left _ (Nat.zero_lt_of_lt hg)]
  have hne : (row.drop (g * groupSize)).take groupSize ≠ [] := by
    rw [ne_eq, List.take_eq_nil_iff, List.drop_eq_nil_iff, not_or, hrow]
    exact ⟨hgroup.ne', Nat.not_le.mpr (Nat.mul_lt_mul_of_pos_right hg hgroup)⟩
  rw [hsize]
  obtain ⟨m, hm⟩ := Option.isSome_iff_exists.mp (List.isSome_max?_iff.mpr hne)
  rw [hm, Option.getD_some]

omit [Field K] [LinearOrder K] in
theorem length_groupsOf (row : List K) : (groupsOf numExpertGroup row).length = numExpertGroup := by
  rw [groupsOf, List.length_map, List.length_range]

theorem length_groupMaxima (row : List K) : (groupMaxima numExpertGroup row).length = numExpertGroup := by
  rw [groupMaxima, List.length_map, length_groupsOf]

omit [LinearOrder K] in
/-- **Only the chosen groups keep their scores.** -/
theorem getElem?_maskGroups (hgroup : 0 < groupSize) (hrow : row.length = numExpertGroup * groupSize)
    (groups : List ℕ) (e : ℕ) :
    (maskGroups numExpertGroup groups row)[e]? = row[e]?.map fun w => if e / groupSize ∈ groups then w else 0 := by
  by_cases he : e < row.length
  · have hdiv : e / groupSize < numExpertGroup := Nat.div_lt_of_lt_mul (by rwa [Nat.mul_comm, ← hrow])
    have hsize : row.length / numExpertGroup = groupSize := by
      rw [hrow, Nat.mul_div_cancel_left _ (Nat.zero_lt_of_lt hdiv)]
    have hmask : (((List.range numExpertGroup).map fun g => decide (g ∈ groups)).flatMap
        (List.replicate groupSize))[e]? = some (decide (e / groupSize ∈ groups)) := by
      have hgroups : (((List.range numExpertGroup).map fun g => decide (g ∈ groups)).map
          (List.replicate groupSize))[e / groupSize]? =
            some (List.replicate groupSize (decide (e / groupSize ∈ groups))) := by
        rw [List.map_map, List.getElem?_map, List.getElem?_range hdiv]
        rfl
      have hflat := getElem?_flatten_row (fun l hl => by
        obtain ⟨b, -, rfl⟩ := List.mem_map.mp hl
        exact List.length_replicate) hgroups (Nat.mod_lt e hgroup)
      rw [Nat.div_add_mod'] at hflat
      rw [List.flatMap_def, hflat, List.getElem?_replicate_of_lt (Nat.mod_lt e hgroup)]
    rw [maskGroups, hsize, List.getElem?_zipWith, hmask, List.getElem?_eq_getElem he]
    simp
  · have hnone : row[e]? = none := List.getElem?_eq_none (Nat.not_lt.mp he)
    rw [maskGroups, List.getElem?_zipWith, hnone]
    simp

omit [LinearOrder K] in
theorem length_maskGroups (hgroup : 0 < groupSize) (hrow : row.length = numExpertGroup * groupSize)
    (groups : List ℕ) : (maskGroups numExpertGroup groups row).length = row.length := by
  refine Nat.le_antisymm ?_ ?_
  · rw [maskGroups, List.length_zipWith]
    exact min_le_right _ _
  · by_contra hlt
    have hlt := Nat.not_le.mp hlt
    have hsome := getElem?_maskGroups hgroup hrow groups (maskGroups numExpertGroup groups row).length
    rw [List.getElem?_eq_none le_rfl, List.getElem?_eq_getElem hlt] at hsome
    cases hsome

/-- The positive entries of a masked row are those of the chosen groups. -/
theorem placesWith_maskGroups (hgroup : 0 < groupSize) (hrow : row.length = numExpertGroup * groupSize)
    (groups : List ℕ) :
    placesWith (0 < ·) (maskGroups numExpertGroup groups row) = positiveExperts groups groupSize row := by
  ext e
  rw [mem_placesWith, positiveExperts, Finset.mem_filter, mem_placesWith, getElem?_maskGroups hgroup hrow]
  constructor
  · rintro ⟨x, hx, hpos⟩
    obtain ⟨w, hw, rfl⟩ := Option.map_eq_some_iff.mp hx
    split_ifs at hpos with hmem
    · exact ⟨⟨w, hw, hpos⟩, hmem⟩
    · exact absurd hpos (lt_irrefl _)
  · rintro ⟨⟨w, hw, hpos⟩, hmem⟩
    exact ⟨w, by rw [hw, Option.map_some, if_pos hmem], hpos⟩

/-- **While enough experts are positive, or all groups are chosen**, what is selected of the masked row are the
best experts of the chosen groups. -/
theorem mem_groups_of_isTopk (hgroup : 0 < groupSize) (hrow : row.length = numExpertGroup * groupSize)
    {topkGroup topK : ℕ} {groups ids : List ℕ} (hgroups : IsTopk (groupMaxima numExpertGroup row) topkGroup groups)
    (hids : IsTopk (maskGroups numExpertGroup groups row) topK ids)
    (h : topkGroup = numExpertGroup ∨ topK ≤ (positiveExperts groups groupSize row).card) :
    ∀ e ∈ ids, e < row.length ∧ e / groupSize ∈ groups := by
  intro e he
  have hlt := hids.lt e he
  rw [length_maskGroups hgroup hrow] at hlt
  refine ⟨hlt, ?_⟩
  obtain rfl | hcard := h
  · -- as many distinct groups as there are
    have hdiv : e / groupSize < topkGroup := Nat.div_lt_of_lt_mul (by rwa [Nat.mul_comm, ← hrow])
    have hall : groups.toFinset = Finset.range topkGroup := by
      refine Finset.eq_of_subset_of_card_le (fun g hg => ?_) ?_
      · have hg := hgroups.lt g (List.mem_toFinset.mp hg)
        rw [length_groupMaxima] at hg
        exact Finset.mem_range.mpr hg
      · rw [Finset.card_range, List.toFinset_card_of_nodup hgroups.nodup, hgroups.length]
    exact List.mem_toFinset.mp (hall ▸ Finset.mem_range.mpr hdiv)
  · rw [← placesWith_maskGroups hgroup hrow] at hcard
    have hpos := hids.forall_of_card hcard (fun x y hx hy => (not_lt.mp hy).trans_lt hx) e he
    by_contra hnot
    have hzero : (maskGroups numExpertGroup groups row)[e]? = some 0 := by
      rw [getElem?_maskGroups hgroup hrow, List.getElem?_eq_getElem hlt, Option.map_some, if_neg hnot]
    exact lt_irrefl _ (hpos 0 hzero)

end Row

/-! ## The batch -/

section Batch

variable {topkGroups topkExperts : List K → ℕ → List ℕ} {scores : List (List K)}
  {numExpertGroup groupSize topkGroup topK : ℕ} {eScoreCorrectionBias : Option (List K)}

/-- The groups that are chosen for a token. -/
def chosenGroups (topkGroups : List K → ℕ → List ℕ) (numExpertGroup topkGroup : ℕ) (biased : List K) : List ℕ :=
  topkGroups (groupMaxima numExpertGroup biased) topkGroup

variable (topkGroups numExpertGroup topkGroup eScoreCorrectionBias) in
/-- The scores of a token that the experts are selected by. -/
def maskedScoresOf (row : List K) : List K :=
  maskGroups numExpertGroup (chosenGroups topkGroups numExpertGroup topkGroup (biasedScores eScoreCorrectionBias row))
    (biasedScores eScoreCorrectionBias row)

/-- Rows of whole groups, and a bias for each expert. -/
structure IsGroupedBatch (scores : List (List K)) (eScoreCorrectionBias : Option (List K))
    (numExpertGroup groupSize topkGroup topK : ℕ) : Prop where
  groups_pos : 0 < numExpertGroup
  size_pos : 0 < groupSize
  topkGroup_le : topkGroup ≤ numExpertGroup
  topK_le : topK ≤ topkGroup * groupSize
  length_row : ∀ row ∈ scores, row.length = numExpertGroup * groupSize
  length_bias : ∀ bias ∈ eScoreCorrectionBias, bias.length = numExpertGroup * groupSize

namespace IsGroupedBatch

variable (h : IsGroupedBatch scores eScoreCorrectionBias numExpertGroup groupSize topkGroup topK)

include h

omit [LinearOrder K] in
theorem length_biased {row : List K} (hrow : row ∈ scores) :
    (biasedScores eScoreCorrectionBias row).length = numExpertGroup * groupSize := by
  cases hbias : eScoreCorrectionBias with
  | none => exact h.length_row row hrow
  | some bias =>
    rw [biasedScores, List.length_zipWith, h.length_row row hrow, h.length_bias bias hbias, min_self]

theorem isTopk_groups (hgroups : Topks topkGroups) (row : List K) :
    IsTopk (groupMaxima numExpertGroup (biasedScores eScoreCorrectionBias row)) topkGroup
      (chosenGroups topkGroups numExpertGroup topkGroup (biasedScores eScoreCorrectionBias row)) :=
  hgroups _ _ (by rw [length_groupMaxima]; exact h.topkGroup_le)

theorem length_masked {row : List K} (hrow : row ∈ scores) :
    (maskedScoresOf topkGroups numExpertGroup topkGroup eScoreCorrectionBias row).length =
      numExpertGroup * groupSize := by
  rw [maskedScoresOf, length_maskGroups h.size_pos (h.length_biased hrow), h.length_biased hrow]

omit [Field K] [LinearOrder K] in
theorem topK_le_length : topK ≤ numExpertGroup * groupSize := h.topK_le.trans (Nat.mul_le_mul_right _ h.topkGroup_le)

theorem isTopk_experts (hexperts : Topks topkExperts) {row : List K} (hrow : row ∈ scores) :
    IsTopk (maskedScoresOf topkGroups numExpertGroup topkGroup eScoreCorrectionBias row) topK
      (topkExperts (maskedScoresOf topkGroups numExpertGroup topkGroup eScoreCorrectionBias row) topK) :=
  hexperts _ _ (by rw [h.length_masked hrow]; exact h.topK_le_length)

theorem nativeGroupedTopk_eq (hne : scores ≠ []) :
    nativeGroupedTopk topkGroups (scores.map (biasedScores eScoreCorrectionBias)) (some numExpertGroup)
        (some topkGroup) =
      some (scores.map (maskedScoresOf topkGroups numExpertGroup topkGroup eScoreCorrectionBias)) := by
  have hnonempty : scores.map (biasedScores eScoreCorrectionBias) ≠ [] := by simpa using hne
  have hrows := mapM_map_eq_some (l := scores) (c := biasedScores eScoreCorrectionBias)
    (g := maskedScoresOf topkGroups numExpertGroup topkGroup eScoreCorrectionBias)
    (f := fun row => do
      guard (numExpertGroup ∣ row.length)
      let groupedWeights ← (groupsOf numExpertGroup row).mapM List.max?
      let topkGroupIndices ← topkIndices topkGroups topkGroup groupedWeights
      return maskGroups numExpertGroup topkGroupIndices row) fun row hrow => by
    have hlength := h.length_biased hrow
    have hle : topkGroup ≤ (groupMaxima numExpertGroup (biasedScores eScoreCorrectionBias row)).length := by
      rw [length_groupMaxima]
      exact h.topkGroup_le
    simp only [hlength, dvd_mul_right, guard_true, mapM_max?_groupsOf h.size_pos hlength, topkIndices,
      if_pos hle, Option.bind_eq_bind, Option.bind_some]
    rfl
  rw [nativeGroupedTopk]
  simp only [Option.getD_some, hnonempty, h.groups_pos, ne_eq, not_false_eq_true, and_self, guard_true,
    Option.bind_eq_bind]
  exact hrows

/-- **What is returned**, token by token. -/
theorem selectExpertUseGroupTopk_eq (hexperts : Topks topkExperts) (hne : scores ≠ []) (renormalize : Bool) :
    selectExpertUseGroupTopk topkGroups topkExperts scores (some topkGroup) renormalize topK (some numExpertGroup)
        eScoreCorrectionBias =
      some (scores.map fun row => renormalizeTopkWeights renormalize
          ((topkExperts (maskedScoresOf topkGroups numExpertGroup topkGroup eScoreCorrectionBias row) topK).map
            fun e => (if eScoreCorrectionBias.isSome then row
              else maskedScoresOf topkGroups numExpertGroup topkGroup eScoreCorrectionBias row).getD e 0),
        scores.map fun row =>
          topkExperts (maskedScoresOf topkGroups numExpertGroup topkGroup eScoreCorrectionBias row) topK) := by
  have hids := mapM_map_eq_some (l := scores) (f := topkIndices topkExperts topK)
    (c := maskedScoresOf topkGroups numExpertGroup topkGroup eScoreCorrectionBias)
    (g := fun row => topkExperts (maskedScoresOf topkGroups numExpertGroup topkGroup eScoreCorrectionBias row) topK)
    fun row hrow => by
      rw [topkIndices, h.length_masked hrow, if_pos h.topK_le_length]
  have hsource : (if eScoreCorrectionBias.isSome then scores
      else scores.map (maskedScoresOf topkGroups numExpertGroup topkGroup eScoreCorrectionBias)) =
        scores.map fun row => if eScoreCorrectionBias.isSome then row
          else maskedScoresOf topkGroups numExpertGroup topkGroup eScoreCorrectionBias row := by
    split
    · exact (List.map_id _).symm
    · rfl
  have hlength : ∀ row ∈ scores, (if eScoreCorrectionBias.isSome then row
      else maskedScoresOf topkGroups numExpertGroup topkGroup eScoreCorrectionBias row).length =
        (maskedScoresOf topkGroups numExpertGroup topkGroup eScoreCorrectionBias row).length := by
    intro row hrow
    split
    · rw [h.length_row row hrow, h.length_masked hrow]
    · rfl
  have hweights := mapM_map_eq_some (l := scores)
    (f := fun e : List K × List ℕ => e.2.mapM fun i => e.1[i]?)
    (c := fun row => (if eScoreCorrectionBias.isSome then row
        else maskedScoresOf topkGroups numExpertGroup topkGroup eScoreCorrectionBias row,
      topkExperts (maskedScoresOf topkGroups numExpertGroup topkGroup eScoreCorrectionBias row) topK))
    (g := fun row =>
      (topkExperts (maskedScoresOf topkGroups numExpertGroup topkGroup eScoreCorrectionBias row) topK).map
        fun e => (if eScoreCorrectionBias.isSome then row
          else maskedScoresOf topkGroups numExpertGroup topkGroup eScoreCorrectionBias row).getD e 0)
    fun row hrow => mapM_eq_some_map fun e he => by
      have hlt := (h.isTopk_experts hexperts hrow).lt e he
      rw [← hlength row hrow] at hlt
      rw [List.getElem?_eq_getElem hlt, List.getD_eq_getElem _ _ hlt]
  rw [selectExpertUseGroupTopk]
  simp only [Option.isSome_some, and_self, guard_true, h.nativeGroupedTopk_eq hne, hids, hsource, List.zip_map',
    hweights, Option.bind_eq_bind, Option.bind_some, List.map_map]
  rfl

end IsGroupedBatch

/-- **Grouped top-k respects the groups exactly when** there is a token, and every token has as many experts with
a positive score in its groups as are to be selected, or no group is left out. -/
theorem selectExpertUseGroupTopk_iff (hgroups : Topks topkGroups)
    (h : IsGroupedBatch scores eScoreCorrectionBias numExpertGroup groupSize topkGroup topK)
    (renormalize : Bool) :
    (∀ topkExperts : List K → ℕ → List ℕ, Topks topkExperts →
      RespectsGroups topkGroups scores topkGroup renormalize topK numExpertGroup groupSize eScoreCorrectionBias
        (selectExpertUseGroupTopk topkGroups topkExperts scores (some topkGroup) renormalize topK
          (some numExpertGroup) eScoreCorrectionBias)) ↔
      scores ≠ [] ∧ ∀ row ∈ scores, topkGroup = numExpertGroup ∨
        topK ≤ (positiveExperts (chosenGroups topkGroups numExpertGroup topkGroup
          (biasedScores eScoreCorrectionBias row)) groupSize (biasedScores eScoreCorrectionBias row)).card := by
  have : Inhabited K := ⟨0⟩
  constructor
  · intro hall
    have hne : scores ≠ [] := by
      rintro rfl
      obtain ⟨weights, ids, hresult, -⟩ := hall _ topks_topkPreferring
      rw [selectExpertUseGroupTopk] at hresult
      cases hresult
    refine ⟨hne, fun row hrow => ?_⟩
    by_contra hnot
    obtain ⟨hleft, hfew⟩ := not_or.mp hnot
    obtain ⟨t, ht⟩ := List.mem_iff_getElem?.mp hrow
    have hbiased := h.length_biased hrow
    -- an expert of a group that is left out
    have hchosen := h.isTopk_groups hgroups row
    obtain ⟨g, hg, hout⟩ : ∃ g < numExpertGroup, g ∉ chosenGroups topkGroups numExpertGroup topkGroup
        (biasedScores eScoreCorrectionBias row) := by
      have hcard : (chosenGroups topkGroups numExpertGroup topkGroup
          (biasedScores eScoreCorrectionBias row)).toFinset.card < (Finset.range numExpertGroup).card := by
        rw [List.toFinset_card_of_nodup hchosen.nodup, hchosen.length, Finset.card_range]
        exact h.topkGroup_le.lt_of_ne hleft
      obtain ⟨g, hg, hout⟩ := Finset.exists_mem_notMem_of_card_lt_card hcard
      exact ⟨g, Finset.mem_range.mp hg, fun hmem => hout (List.mem_toFinset.mpr hmem)⟩
    have hexpert : g * groupSize < (biasedScores eScoreCorrectionBias row).length := by
      rw [hbiased]
      exact Nat.mul_lt_mul_of_pos_right hg h.size_pos
    have hzero : (maskedScoresOf topkGroups numExpertGroup topkGroup eScoreCorrectionBias row)[g * groupSize]? =
        some 0 := by
      rw [maskedScoresOf, getElem?_maskGroups h.size_pos hbiased, List.getElem?_eq_getElem hexpert,
        Option.map_some, Nat.mul_div_cancel _ h.size_pos, if_neg hout]
    -- it is selected when it is preferred to equal ones
    have hpreferring : Topks fun (xs : List K) k => topkPreferring xs (g * groupSize) k := fun _ _ hk =>
      isTopk_topkPreferring _ hk
    obtain ⟨weights, ids, hresult, -, -, hrows⟩ := hall _ hpreferring
    rw [h.selectExpertUseGroupTopk_eq hpreferring hne] at hresult
    obtain ⟨rfl, rfl⟩ := Prod.mk.injEq .. ▸ Option.some.inj hresult
    obtain ⟨groups, ws, is, -, hgroupsEq, -, his, hselects⟩ := hrows t row ht
    rw [List.getElem?_map, ht] at his
    obtain rfl := Option.some.inj his
    have hmem : g * groupSize ∈ topkPreferring
        (maskedScoresOf topkGroups numExpertGroup topkGroup eScoreCorrectionBias row) (g * groupSize) topK := by
      refine mem_topkPreferring hzero (by rw [h.length_masked hrow]; exact h.topK_le_length) ?_
      rw [maskedScoresOf, placesWith_maskGroups h.size_pos hbiased]
      exact Nat.not_le.mp hfew
    have hin := (hselects.mem _ hmem).2
    rw [Nat.mul_div_cancel _ h.size_pos, hgroupsEq] at hin
    exact hout hin
  · rintro ⟨hne, hrows⟩ topkExperts hexperts
    refine ⟨_, _, h.selectExpertUseGroupTopk_eq hexperts hne renormalize, List.length_map _, List.length_map _,
      fun t row ht => ?_⟩
    have hrow := List.mem_of_getElem? ht
    have hbiased := h.length_biased hrow
    have hchosen := h.isTopk_groups hgroups row
    have hids : IsTopk (maskedScoresOf topkGroups numExpertGroup topkGroup eScoreCorrectionBias row) topK _ :=
      h.isTopk_experts hexperts hrow
    have hmem := mem_groups_of_isTopk h.size_pos hbiased hchosen hids (hrows row hrow)
    refine ⟨_, _, _, hchosen, rfl, by rw [List.getElem?_map, ht]; rfl, by rw [List.getElem?_map, ht]; rfl, ?_⟩
    have hkept : ∀ e, e / groupSize ∈ chosenGroups topkGroups numExpertGroup topkGroup
        (biasedScores eScoreCorrectionBias row) →
          (maskedScoresOf topkGroups numExpertGroup topkGroup eScoreCorrectionBias row)[e]? =
            (biasedScores eScoreCorrectionBias row)[e]? := by
      intro e he
      rw [maskedScoresOf, getElem?_maskGroups h.size_pos hbiased]
      simp only [if_pos he, Option.map_id']
    refine ⟨hids.length, hids.nodup, hmem, fun e he e' he' hgroup x hx y hy => ?_, _, ?_, rfl⟩
    · exact hids.le e he e' he' x ((hkept e (hmem e he).2).symm ▸ hx) y ((hkept e' hgroup).symm ▸ hy)
    · refine mapM_eq_some_map fun e he => ?_
      obtain ⟨hlt, hgroup⟩ := hmem e he
      have hlt' : e < row.length := by rwa [h.length_row row hrow, ← hbiased]
      cases hbias : eScoreCorrectionBias with
      | some bias => simp [List.getElem?_eq_getElem hlt']
      | none =>
        have hsame := hkept e hgroup
        rw [hbias] at hsame
        simp only [Option.isSome_none, Bool.false_eq_true, if_false, List.getD_eq_getElem?_getD, hsame]
        simp [biasedScores, List.getElem?_eq_getElem hlt']

/-- Two groups of two experts, one of them to be chosen; all scores are positive. -/
theorem selectExpertUseGroupTopk_iff_positive :
    RespectsGroups (fun xs k => topkPreferring xs 0 k) [[1 / 2, 1 / 4, 1 / 8, 1 / 8]] 1 true 2 2 2
      (some [0, 0, 0, (0 : ℚ)])
      (selectExpertUseGroupTopk (fun xs k => topkPreferring xs 0 k) (fun xs k => topkPreferring xs 0 k)
        [[1 / 2, 1 / 4, 1 / 8, 1 / 8]] (some 1) true 2 (some 2) (some [0, 0, 0, 0])) :=
  (selectExpertUseGroupTopk_iff topks_topkPreferring
    ⟨by decide, by decide, by decide, by decide, by decide, by decide⟩ true).mpr
    ⟨by decide, by decide +kernel⟩ _ topks_topkPreferring

/-- **With negative biased scores the other group is selected.** -/
theorem selectExpertUseGroupTopk_negative :
    ¬ RespectsGroups (fun xs k => topkPreferring xs 0 k) [[1 / 2, 1 / 2, 1 / 2, 1 / 2]] 1 true 2 2 2
      (some [-1, -2, -3, (-4 : ℚ)])
      (selectExpertUseGroupTopk (fun xs k => topkPreferring xs 0 k) (fun xs k => topkPreferring xs 0 k)
        [[1 / 2, 1 / 2, 1 / 2, 1 / 2]] (some 1) true 2 (some 2) (some [-1, -2, -3, -4])) := by
  rintro ⟨weights, ids, hresult, -, -, hrows⟩
  have hvalue : selectExpertUseGroupTopk (fun xs k => topkPreferring xs 0 k) (fun xs k => topkPreferring xs 0 k)
      [[1 / 2, 1 / 2, 1 / 2, 1 / 2]] (some 1) true 2 (some 2) (some [-1, -2, -3, (-4 : ℚ)]) =
        some ([[1 / 2, 1 / 2]], [[2, 3]]) := by decide +kernel
  have hgroups : topkPreferring (groupMaxima 2 (biasedScores (some [-1, -2, -3, (-4 : ℚ)])
      [1 / 2, 1 / 2, 1 / 2, 1 / 2])) 0 1 = [0] := by decide +kernel
  rw [hvalue] at hresult
  cases hresult
  obtain ⟨groups, ws, is, -, rfl, -, his, hselects⟩ := hrows 0 _ rfl
  cases his
  have hmem := (hselects.mem 2 (by decide)).2
  simp only [hgroups] at hmem
  exact absurd hmem (by decide)

end Batch

end Selector

end VllmAscend
