import VllmAscend.Core.Request
import VllmAscend.Machinery.FlatRows

/-!
# Worker/SpecDecodeMetadata — the rows of the logits when tokens were drafted

    scheduled      ● ● ● d d │ ● │ ● d              d drafted
    logits rows        ● d d │ ● │ ● d              the last d + 1 of each request
    target             0 1   │   │ 4                the rows that judge a draft
    bonus                  2 │ 3 │   5              the rows behind the last draft

`_calc_spec_decode_metadata` computes five index vectors of the flattened batch, some of them places in
others.  For every batch they are these (`calcSpecDecodeMetadata_eq`).
-/

namespace VllmAscend

open Machinery

/-- `num_draft_tokens`, for the rows that the batch has for its requests. -/
def numDraftTokens (numReqs : ℕ) (reqIdToIndex : Dict ℕ) (scheduledSpecDecodeTokens : Dict (List Token)) :
    Option (List ℕ) :=
  scheduledSpecDecodeTokens.entries.foldlM (fun num entry => do
    let reqIdx ← reqIdToIndex.lookup entry.1
    setItem num reqIdx entry.2.length) (List.replicate numReqs 0)

structure SpecDecodeMetadata where
  draftTokenIds : List ℤ
  numDraftTokens : List ℕ
  cuNumDraftTokens : List ℤ
  targetLogitsIndices : List ℤ
  bonusLogitsIndices : List ℤ
  logitsIndices : List ℤ

/-- `_calc_spec_decode_metadata` -/
def calcSpecDecodeMetadata (arangeNp inputIds : List ℤ) (numDraftTokens : List ℕ)
    (cuNumScheduledTokens : List ℤ) : Option SpecDecodeMetadata := do
  let numSampledTokens := numDraftTokens.map (· + 1)
  let cuNumSampledTokens := cumsum 0 (numSampledTokens.map Nat.cast)
  let totalNumSampledTokens ← item cuNumSampledTokens (-1)
  let sampledStarts := List.zipWith (· - ·) cuNumSampledTokens (numSampledTokens.map Nat.cast)
  let cumsumsOffsets := repeatInterleave sampledStarts numSampledTokens
  let arange := List.zipWith (· - ·) (arangeNp.take totalNumSampledTokens.toNat) cumsumsOffsets
  let logitsIndices := repeatInterleave
    (List.zipWith (· - ·) cuNumScheduledTokens (numSampledTokens.map Nat.cast)) numSampledTokens
  let logitsIndices := List.zipWith (· + ·) logitsIndices arange
  let bonusLogitsIndices := cuNumSampledTokens.map (· - 1)
  let cuNumDraftTokens := cumsum 0 (numDraftTokens.map Nat.cast)
  let totalNumDraftTokens ← item cuNumDraftTokens (-1)
  let cumsumsOffsets := repeatInterleave
    (List.zipWith (· - ·) cuNumDraftTokens (numDraftTokens.map Nat.cast)) numDraftTokens
  let arange := List.zipWith (· - ·) (arangeNp.take totalNumDraftTokens.toNat) cumsumsOffsets
  let targetLogitsIndices := repeatInterleave sampledStarts numDraftTokens
  let targetLogitsIndices := List.zipWith (· + ·) targetLogitsIndices arange
  let draftTokenIds ← gather inputIds logitsIndices
  let draftTokenIds ← gather draftTokenIds (targetLogitsIndices.map (· + 1))
  return {
    draftTokenIds, numDraftTokens, cuNumDraftTokens, targetLogitsIndices, bonusLogitsIndices,
    logitsIndices }

/-! ## Row by row -/

/-- A request of the step: the input ids of its scheduled tokens, of which the last are drafts, but not
the first. -/
structure DraftRow where
  inputIds : List ℤ
  numDraftTokens : ℕ
  lt : numDraftTokens < inputIds.length

namespace DraftRow

def numScheduledTokens (r : DraftRow) : ℕ := r.inputIds.length

/-- The tokens whose logits are computed: the drafts, and the one before them. -/
def sampled (r : DraftRow) : List ℤ := r.inputIds.drop (r.numScheduledTokens - (r.numDraftTokens + 1))

def drafts (r : DraftRow) : List ℤ := r.inputIds.drop (r.numScheduledTokens - r.numDraftTokens)

@[simp] theorem length_sampled (r : DraftRow) : r.sampled.length = r.numDraftTokens + 1 := by
  have hlt := r.lt
  rw [sampled, List.length_drop, numScheduledTokens]
  omega

/-- Behind the first of the sampled tokens are the drafts. -/
theorem drop_sampled (r : DraftRow) : r.sampled.drop 1 = r.drafts := by
  have hlt := r.lt
  rw [sampled, drafts, List.drop_drop, numScheduledTokens]
  congr 1
  omega

end DraftRow

section Rows

variable (rows : List DraftRow)

/-- The rows, with their places among the scheduled tokens. -/
def scheduledRows : List (Placed DraftRow) := placed DraftRow.inputIds 0 rows

/-- The rows, with their places among the sampled tokens. -/
def sampledRows : List (Placed DraftRow) := placed DraftRow.sampled 0 rows

/-- The last `d + 1` scheduled tokens of each request. -/
def lastTokens : List ℤ :=
  (scheduledRows rows).flatMap fun d =>
    Machinery.segment ((d.start + (d.data.numScheduledTokens - (d.data.numDraftTokens + 1)) : ℕ) : ℤ)
      (d.data.numDraftTokens + 1)

/-- The places that judge a draft: those before the last of the request. -/
def targetPlaces : List ℤ :=
  (sampledRows rows).flatMap fun d => Machinery.segment d.start d.data.numDraftTokens

/-- The last place of each request. -/
def bonusPlaces : List ℤ := (sampledRows rows).map fun d => ((d.start + d.data.numDraftTokens : ℕ) : ℤ)

theorem numDrafts_placed : (sampledRows rows).map (fun d => d.data.numDraftTokens) =
    rows.map DraftRow.numDraftTokens :=
  map_placed _ DraftRow.numDraftTokens 0 rows

theorem numSampled_placed : (sampledRows rows).map (fun d => d.data.numDraftTokens + 1) =
    (rows.map DraftRow.numDraftTokens).map (· + 1) := by
  rw [List.map_map]
  exact map_placed _ (fun r : DraftRow => r.numDraftTokens + 1) 0 rows

/-- The running sums less the counts are the starts. -/
theorem sampledStarts_eq :
    List.zipWith (· - ·) (cumsum 0 (((rows.map DraftRow.numDraftTokens).map (· + 1)).map Nat.cast))
        (((rows.map DraftRow.numDraftTokens).map (· + 1)).map Nat.cast) =
      (sampledRows rows).map fun d => (d.start : ℤ) := by
  have hcounts : (rows.map DraftRow.numDraftTokens).map (· + 1) =
      rows.map fun r => r.sampled.length := by
    rw [List.map_map]
    exact List.map_congr_left fun r _ => r.length_sampled.symm
  rw [hcounts]
  exact cumsum_sub_placed DraftRow.sampled rows

/-- **The sampled places are split** into those that judge a draft and the last ones. -/
theorem target_bonus_perm :
    (targetPlaces rows ++ bonusPlaces rows).Perm (arange (rows.flatMap DraftRow.sampled).length) := by
  have hrows := flatMap_placed_segment DraftRow.sampled 0 rows
  have hsplit : ∀ d ∈ sampledRows rows, Machinery.segment d.start d.data.numDraftTokens ++
      [((d.start + d.data.numDraftTokens : ℕ) : ℤ)] = Machinery.segment d.start d.data.sampled.length := by
    intro d _
    rw [DraftRow.length_sampled, segment_add, Nat.cast_add]
    simp [Machinery.segment]
  rw [Nat.cast_zero] at hrows
  rw [arange, ← hrows, targetPlaces, bonusPlaces, ← List.flatMap_singleton' ((sampledRows rows).map _),
    List.flatMap_map]
  exact (List.flatMap_append_perm _ _ _).trans (List.flatMap_congr hsplit ▸ List.Perm.refl _)

theorem logitsIndices_eq :
    List.zipWith (· + ·)
        (repeatInterleave
          (List.zipWith (· - ·) (cumsum 0 ((rows.map DraftRow.numScheduledTokens).map Nat.cast))
            (((rows.map DraftRow.numDraftTokens).map (· + 1)).map Nat.cast))
          ((rows.map DraftRow.numDraftTokens).map (· + 1)))
        (((rows.map DraftRow.numDraftTokens).map (· + 1)).flatMap (Machinery.segment 0)) =
      lastTokens rows := by
  have hends := cumsum_placed DraftRow.inputIds 0 rows
  rw [Nat.cast_zero] at hends
  have hcounts : (rows.map DraftRow.numDraftTokens).map (· + 1) =
      (scheduledRows rows).map fun d => d.data.numDraftTokens + 1 := by
    rw [List.map_map]
    exact (map_placed _ (fun r : DraftRow => r.numDraftTokens + 1) 0 rows).symm
  have hstarts : List.zipWith (· - ·) (cumsum 0 ((rows.map DraftRow.numScheduledTokens).map Nat.cast))
      (((rows.map DraftRow.numDraftTokens).map (· + 1)).map Nat.cast) =
        (scheduledRows rows).map fun d =>
          ((d.start + (d.data.numScheduledTokens - (d.data.numDraftTokens + 1)) : ℕ) : ℤ) := by
    refine (congrArg (List.zipWith _ · _) hends).trans ?_
    rw [hcounts, List.map_map, scheduledRows, List.zipWith_map, List.zipWith_self]
    refine List.map_congr_left fun d _ => ?_
    have hlt := d.data.lt
    rw [Function.comp_apply, DraftRow.numScheduledTokens]
    omega
  rw [hstarts, hcounts]
  exact zipWith_repeatInterleave_segment _ _ _

theorem bonusLogitsIndices_eq :
    (cumsum 0 (((rows.map DraftRow.numDraftTokens).map (· + 1)).map Nat.cast)).map (· - 1) =
      bonusPlaces rows := by
  have hends := cumsum_placed DraftRow.sampled 0 rows
  rw [Nat.cast_zero] at hends
  have hcounts : (rows.map DraftRow.numDraftTokens).map (· + 1) =
      rows.map fun r => r.sampled.length := by
    rw [List.map_map]
    exact List.map_congr_left fun r _ => r.length_sampled.symm
  rw [hcounts, hends, List.map_map]
  refine List.map_congr_left fun d _ => ?_
  rw [Function.comp_apply, DraftRow.length_sampled]
  omega

/-- **The input ids at the sampled tokens.** -/
theorem gather_lastTokens (rest : List ℤ) :
    gather (rows.flatMap DraftRow.inputIds ++ rest) (lastTokens rows) =
      some (rows.flatMap DraftRow.sampled) := by
  rw [← flatMap_placed DraftRow.inputIds DraftRow.sampled 0 rows]
  refine gather_flatMap fun d hd => ?_
  have hgather := gather_placed_drop hd
    (d.data.numScheduledTokens - (d.data.numDraftTokens + 1)) rest
  have hlt := d.data.lt
  have hcount : d.data.inputIds.length - (d.data.numScheduledTokens - (d.data.numDraftTokens + 1)) =
      d.data.numDraftTokens + 1 := by
    rw [DraftRow.numScheduledTokens]
    omega
  rw [hcount] at hgather
  exact hgather

/-- **Behind the places that judge a draft are the drafts.** -/
theorem gather_targetPlaces :
    gather (rows.flatMap DraftRow.sampled) ((targetPlaces rows).map (· + 1)) =
      some (rows.flatMap DraftRow.drafts) := by
  rw [← flatMap_placed DraftRow.sampled DraftRow.drafts 0 rows, targetPlaces, List.map_flatMap]
  refine gather_flatMap fun d hd => ?_
  have hgather := gather_placed_drop hd 1 []
  have hnext : (Machinery.segment d.start d.data.numDraftTokens).map (· + 1) =
      Machinery.segment (d.start + 1 : ℕ) d.data.numDraftTokens := by
    rw [Nat.cast_add, add_comm (d.start : ℤ), ← map_add_segment]
    exact List.map_congr_left fun i _ => add_comm _ _
  rw [List.append_nil, DraftRow.length_sampled, Nat.add_sub_cancel, DraftRow.drop_sampled] at hgather
  rw [hnext]
  exact hgather

/-- The last place of a request, among the last tokens, is its last token. -/
theorem gather_bonusPlaces :
    gather (lastTokens rows) (bonusPlaces rows) =
      some ((scheduledRows rows).map fun d => (d.start : ℤ) + d.data.numScheduledTokens - 1) := by
  have hlast : ∀ d ∈ scheduledRows rows,
      (Machinery.segment ((d.start + (d.data.numScheduledTokens - (d.data.numDraftTokens + 1)) : ℕ) : ℤ)
        (d.data.numDraftTokens + 1)).getLast? = some ((d.start : ℤ) + d.data.numScheduledTokens - 1) := by
    intro d _
    have hlt := d.data.lt
    rw [List.getLast?_eq_getElem?, length_segment, Nat.add_sub_cancel,
      getElem?_segment _ (Nat.lt_succ_self _), DraftRow.numScheduledTokens]
    congr 1
    omega
  have hgather := gather_last hlast
  have hcounts : (rows.map DraftRow.numDraftTokens).map (· + 1) =
      (scheduledRows rows).map fun d => (Machinery.segment
        ((d.start + (d.data.numScheduledTokens - (d.data.numDraftTokens + 1)) : ℕ) : ℤ)
        (d.data.numDraftTokens + 1)).length := by
    simp only [length_segment]
    rw [List.map_map]
    exact (map_placed _ (fun r : DraftRow => r.numDraftTokens + 1) 0 rows).symm
  rwa [← hcounts, bonusLogitsIndices_eq] at hgather

variable {rows}

/-- **The metadata of every batch.** -/
theorem calcSpecDecodeMetadata_eq (hne : rows ≠ []) {m : ℕ} (hm : (rows.flatMap DraftRow.sampled).length ≤ m)
    (rest : List ℤ) :
    calcSpecDecodeMetadata (arange m) (rows.flatMap DraftRow.inputIds ++ rest)
        (rows.map DraftRow.numDraftTokens)
        (cumsum 0 ((rows.map DraftRow.numScheduledTokens).map Nat.cast)) =
      some {
        draftTokenIds := rows.flatMap DraftRow.drafts
        numDraftTokens := rows.map DraftRow.numDraftTokens
        cuNumDraftTokens := cumsum 0 ((rows.map DraftRow.numDraftTokens).map Nat.cast)
        targetLogitsIndices := targetPlaces rows
        bonusLogitsIndices := bonusPlaces rows
        logitsIndices := lastTokens rows } := by
  have htotalSampled : item (cumsum 0 (((rows.map DraftRow.numDraftTokens).map (· + 1)).map Nat.cast)) (-1) =
      some ((((rows.map DraftRow.numDraftTokens).map (· + 1)).sum : ℕ) : ℤ) := by
    rw [item_cumsum (by simpa using hne), Nat.cast_list_sum]
  have htotalDraft : item (cumsum 0 ((rows.map DraftRow.numDraftTokens).map Nat.cast)) (-1) =
      some (((rows.map DraftRow.numDraftTokens).sum : ℕ) : ℤ) := by
    rw [item_cumsum (by simpa using hne), Nat.cast_list_sum]
  have hsampled : ((rows.map DraftRow.numDraftTokens).map (· + 1)).sum ≤ m := by
    rw [List.length_flatMap] at hm
    simp only [DraftRow.length_sampled] at hm
    rwa [List.map_map]
  have hdraft : (rows.map DraftRow.numDraftTokens).sum ≤ m := by
    refine Nat.le_trans ?_ hsampled
    rw [List.map_map]
    exact List.sum_le_sum fun r _ => Nat.le_succ _
  have htake : ∀ k ≤ m, (arange m).take k = arange k := by
    intro k hk
    rw [arange, segment_take, Nat.min_eq_left hk, arange]
  have htarget : List.zipWith (· + ·)
      (repeatInterleave ((sampledRows rows).map fun d => (d.start : ℤ)) (rows.map DraftRow.numDraftTokens))
      ((rows.map DraftRow.numDraftTokens).flatMap (Machinery.segment 0)) = targetPlaces rows := by
    rw [← numDrafts_placed rows]
    exact zipWith_repeatInterleave_segment _ _ _
  have harange := batchedArange ((rows.map DraftRow.numDraftTokens).map (· + 1))
  rw [sampledStarts_eq] at harange
  simp only [calcSpecDecodeMetadata, htotalSampled, htotalDraft, Option.bind_eq_bind, Option.bind_some,
    Int.toNat_natCast, htake _ hsampled, htake _ hdraft, sampledStarts_eq, harange, batchedArange, htarget,
    logitsIndices_eq, bonusLogitsIndices_eq, gather_lastTokens, gather_targetPlaces]
  rfl

theorem length_lastTokens (rows : List DraftRow) :
    (lastTokens rows).length = (rows.flatMap DraftRow.sampled).length := by
  rw [lastTokens, List.length_flatMap, List.length_flatMap]
  simp only [length_segment, DraftRow.length_sampled]
  exact congrArg List.sum (map_placed _ (fun r : DraftRow => r.numDraftTokens + 1) 0 rows)

/-- **The index vectors of every batch.**  The logits are computed for the last `d + 1` scheduled tokens of
each request; their rows are split into the bonus rows, the last one of each request, and the target rows,
the `d` before it; and the drafts are the last `d` input ids. -/
theorem calcSpecDecodeMetadata_indices (hne : rows ≠ []) {m : ℕ}
    (hm : (rows.map DraftRow.numScheduledTokens).sum ≤ m) (rest : List ℤ) :
    ∃ out, calcSpecDecodeMetadata (arange m) (rows.flatMap DraftRow.inputIds ++ rest)
        (rows.map DraftRow.numDraftTokens)
        (cumsum 0 ((rows.map DraftRow.numScheduledTokens).map Nat.cast)) = some out ∧
      out.logitsIndices = ((scheduledRows rows).flatMap fun d =>
        Machinery.segment ((d.start + (d.data.numScheduledTokens - (d.data.numDraftTokens + 1)) : ℕ) : ℤ)
          (d.data.numDraftTokens + 1)) ∧
      out.bonusLogitsIndices =
        (sampledRows rows).map (fun d => ((d.start + d.data.numDraftTokens : ℕ) : ℤ)) ∧
      out.targetLogitsIndices =
        ((sampledRows rows).flatMap fun d => Machinery.segment d.start d.data.numDraftTokens) ∧
      (out.targetLogitsIndices ++ out.bonusLogitsIndices).Perm (arange out.logitsIndices.length) ∧
      gather out.logitsIndices out.bonusLogitsIndices =
        some ((scheduledRows rows).map fun d => (d.start : ℤ) + d.data.numScheduledTokens - 1) ∧
      out.cuNumDraftTokens = cumsum 0 ((rows.map DraftRow.numDraftTokens).map Nat.cast) ∧
      out.draftTokenIds = rows.flatMap fun r =>
        r.inputIds.drop (r.numScheduledTokens - r.numDraftTokens) := by
  have hsampled : (rows.flatMap DraftRow.sampled).length ≤ m := by
    refine Nat.le_trans ?_ hm
    rw [List.length_flatMap]
    refine List.sum_le_sum fun r _ => ?_
    rw [DraftRow.length_sampled]
    exact r.lt
  refine ⟨_, calcSpecDecodeMetadata_eq hne hsampled rest, rfl, rfl, rfl, ?_, gather_bonusPlaces rows, rfl, rfl⟩
  rw [length_lastTokens]
  exact target_bonus_perm rows

end Rows

/-- Two requests, the first with two drafts. -/
theorem calcSpecDecodeMetadata_indices_twoRows :
    ∃ out, calcSpecDecodeMetadata (arange 8) [10, 11, 12, 20] [2, 0] [3, 4] = some out ∧
      out.logitsIndices = [0, 1, 2, 3] ∧ out.targetLogitsIndices = [0, 1] ∧
      out.bonusLogitsIndices = [2, 3] ∧ out.draftTokenIds = [11, 12] := by
  have hne : ([⟨[10, 11, 12], 2, by decide⟩, ⟨[20], 0, by decide⟩] : List DraftRow) ≠ [] :=
    List.cons_ne_nil _ _
  obtain ⟨out, hout, hlogits, hbonus, htarget, -, -, -, hdrafts⟩ :=
    calcSpecDecodeMetadata_indices hne (m := 8) (by decide) []
  exact ⟨out, hout, hlogits, htarget, hbonus, hdrafts⟩

end VllmAscend
