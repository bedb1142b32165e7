import VllmAscend.Machinery.Grouping

/-!
# Ops/MoeOperators — the operators that sort rows by expert and put them back

    npu_moe_init_routing             x_t for every choice, expert by expert; where each row went
    npu_moe_compute_expert_tokens    how many rows there are up to each expert
    npu_moe_finalize_routing         every token's rows, scaled and added up

The counts of the rows come as running counts or as counts, as `group_list_type` says.
-/

namespace VllmAscend

open Machinery

variable {R V : Type}

/-- `npu_moe_init_routing`: the rows sorted by expert, where each row went, and the sorted experts;
`sortIndices` is the sort.  Only the rows of `active_num` tokens are returned. -/
def npuMoeInitRouting (hiddenStates : List V) (rowIdx expertIdx : List (List ℤ))
    (activeNum topK : ℕ) (sortIndices : List ℤ) : Option (List V × List ℤ × List ℤ) := do
  let expandedExpertIdx ← gather expertIdx.flatten sortIndices
  let rows ← gather rowIdx.flatten sortIndices
  let expandedX ← gather hiddenStates (rows.map (· % hiddenStates.length))
  let expandedRowIdx ← scatter (List.replicate rows.length 0) rows (arange rows.length)
  return (expandedX.take (min hiddenStates.length activeNum * topK), expandedRowIdx, expandedExpertIdx)

/-- `npu_moe_compute_expert_tokens`: the running count of the rows. -/
def npuMoeComputeExpertTokens (expandedExpertIdx : List ℤ) (numExperts : ℕ) : List ℤ :=
  cumsum 0 ((List.range numExperts).map fun e : ℕ =>
    ((expandedExpertIdx.filter (· = (e : ℤ))).length : ℤ))

/-- `npu_moe_finalize_routing`: each token gets its rows back, scaled and added up. -/
def npuMoeFinalizeRouting [CommRing R] [AddCommGroup V] [Module R V] (expandedX : List V)
    (scales : List (List R)) (expandedSrcToDstRow : List ℤ) : Option (List V) :=
  scales.zipIdx.mapM fun row => do
    let outs ← row.1.zipIdx.mapM fun scale => do
      let dst ← item expandedSrcToDstRow ((scale.2 * scales.length + row.2 : ℕ) : ℤ)
      let x ← item expandedX dst
      return scale.1 • x
    return outs.sum

/-- The rows of each expert as `group_list` and `group_list_type` say: running counts, or counts. -/
def groupCounts (groupListType : ℕ) (groupList : List ℤ) : List ℕ :=
  if groupListType = 0 then
    (List.zipWith (· - ·) groupList (0 :: groupList).dropLast).map Int.toNat
  else groupList.map Int.toNat

/-- **The running counts say the counts.** -/
theorem groupCounts_cumsum (counts : List ℕ) :
    groupCounts 0 (cumsum 0 (counts.map Nat.cast)) = counts := by
  rw [groupCounts, if_pos rfl, cumsum_diff, List.map_map]
  exact (List.map_congr_left fun c _ => Int.toNat_natCast c).trans (List.map_id counts)

theorem npuMoeComputeExpertTokens_eq {δ : Type} {key : δ → ℤ} {out : List δ} {numExperts : ℕ}
    (h : ∀ p ∈ out, 0 ≤ key p) :
    npuMoeComputeExpertTokens (out.map key) numExperts =
      cumsum 0 (((List.range numExperts).map fun e =>
        (out.filter fun p => (key p).toNat = e).length).map Nat.cast) := by
  rw [npuMoeComputeExpertTokens, List.map_map]
  refine congrArg (cumsum 0) (List.map_congr_left fun e _ => ?_)
  rw [List.filter_map, List.length_map, Function.comp_apply]
  refine congrArg (fun l => (List.length l : ℤ)) (List.filter_congr fun p hp => ?_)
  have hkey := h p hp
  rw [Function.comp_apply, decide_eq_decide]
  omega

end VllmAscend
