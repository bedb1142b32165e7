import VllmAscend.Machinery.Shaped
import VllmAscend.Machinery.TopK

/-!
# Models/PanguRouting — the best expert of every group, rank by rank

    experts        0 … g-1 │ g … 2g-1 │ … │          one group for each choice
    rank r         groups r·G … r·G + G-1            one id for each of these, counted from the rank's first

`topk_wrapper` of `models/pangu_moe`.  Either the best expert of a token's group is taken, or the best of those
that are the best for the most tokens of the batch.  The router does this for every batch but one without
tokens, whose view is ambiguous on the first path, and for two experts or more: `squeeze` leaves nothing to
slice of the scale of a single one (`panguGroup8Topk_iff`).
-/

namespace VllmAscend

open Machinery

variable {R : Type}

/-! ## The routing function -/

/-- `softmax` of a row, and the functions that may choose among equal entries. -/
structure RoutingOps (R : Type) where
  softmax : List R → List R
  max : List R → R × ℕ
  argmax : List R → ℕ
  argsortDescending : List ℕ → List ℕ

/-- `row[start:stop]` -/
def sliceRow (start stop : ℕ) (row : List R) : List R := (row.take stop).drop start

/-- A row viewed as groups of a size. -/
def viewGroups (numGroup size : ℕ) (row : List R) : List (List R) :=
  (List.range numGroup).map fun j => (row.drop (j * size)).take size

/-- `router_scale[start:stop]`, after `squeeze`; a tensor without dimensions cannot be sliced. -/
def sliceScale (start stop : ℕ) (routerScale : Shaped R) : Option (List R) :=
  match routerScale.squeeze.shape with
  | [_] => some (sliceRow start stop routerScale.squeeze.data)
  | _ => none

/-- The first path: `num_voted_experts == 8`. -/
def originalTopk (ops : RoutingOps R) (localNumExperts localNumGroup expertsPerGroup : ℕ) (scores : List (List R)) :
    Option (List (List R) × List (List ℕ)) :=
  -- the size of the last dimension that `view` infers
  let size := scores.length * localNumExperts / (scores.length * localNumGroup)
  let bias := (List.range ((localNumExperts + expertsPerGroup - 1) / expertsPerGroup)).map (· * expertsPerGroup)
  if 0 < scores.length * localNumGroup ∧
      scores.length * localNumExperts % (scores.length * localNumGroup) = 0 ∧ 0 < size ∧
      0 < expertsPerGroup ∧ bias.length = localNumGroup then
    let picked := scores.map fun row => (viewGroups localNumGroup size row).map ops.max
    some (picked.map (·.map Prod.fst), picked.map fun row => List.zipWith (· + ·) (row.map Prod.snd) bias)
  else none

/-- `expert_vote_freq` -/
def expertVoteFreq (localNumGroup expertsPerGroup : ℕ) (bestExpertIdx : List (List ℕ)) : List (List ℕ) :=
  let voteMask : List (List (List Bool)) := bestExpertIdx.map fun row => row.map fun best =>
    (List.range expertsPerGroup).map fun e => decide (best = e)
  (List.range localNumGroup).map fun j => (List.range expertsPerGroup).map fun e =>
    voteMask.countP fun row : List (List Bool) => (row.getD j []).getD e false

/-- `masked_scores` of one token. -/
def maskScores [Zero R] (keepMask : List (List Bool)) (scoresGrouped : List (List R)) : List (List R) :=
  List.zipWith (List.zipWith fun keep score => if keep then score else 0) keepMask scoresGrouped

/-- The second path, where the batch votes. -/
def votedTopk [Zero R] (ops : RoutingOps R) (numVotedExperts localNumExperts localNumGroup expertsPerGroup : ℕ)
    (scores : List (List R)) : Option (List (List R) × List (List ℕ)) :=
  if scores.length * localNumExperts = scores.length * localNumGroup * expertsPerGroup ∧ 0 < expertsPerGroup then
    let groupExpertOffset := (List.range localNumGroup).map (· * expertsPerGroup)
    let scoresGrouped := scores.map (viewGroups localNumGroup expertsPerGroup)
    let bestExpertIdx := scoresGrouped.map (·.map ops.argmax)
    let sortedIndices := (expertVoteFreq localNumGroup expertsPerGroup bestExpertIdx).map ops.argsortDescending
    let topkExperts := sortedIndices.map (·.take numVotedExperts)
    let keepMask := topkExperts.map fun experts => (List.range expertsPerGroup).map fun e => decide (e ∈ experts)
    let picked := scoresGrouped.map fun groups => (maskScores keepMask groups).map ops.max
    some (picked.map (·.map Prod.fst),
      picked.map fun row => List.zipWith (· + ·) (row.map Prod.snd) groupExpertOffset)
  else none

/-- The path that `num_voted_experts` selects. -/
def groupTopk [Zero R] (ops : RoutingOps R) (numVotedExperts localNumExperts localNumGroup expertsPerGroup : ℕ)
    (scores : List (List R)) : Option (List (List R) × List (List ℕ)) :=
  if numVotedExperts = 8 then originalTopk ops localNumExperts localNumGroup expertsPerGroup scores
  else votedTopk ops numVotedExperts localNumExperts localNumGroup expertsPerGroup scores

/-- `pangu_group8_topk` of `topk_wrapper(num_voted_experts)`, on a rank of the group. -/
def panguGroup8Topk [Zero R] [Mul R] (ops : RoutingOps R) (routerScale : Shaped R)
    (epSize rankInGroup numVotedExperts : ℕ) (gatingOutput : List (List R)) (topk globalNumExperts : ℕ) :
    Option (List (List R) × List (List ℕ)) := do
  let localNumExperts := globalNumExperts / epSize
  let localNumGroup := topk / epSize
  let expertsPerGroup := globalNumExperts / topk
  let localGroupStart := rankInGroup * localNumExperts
  let localGroupEnd := (rankInGroup + 1) * localNumExperts
  let scores := (gatingOutput.map ops.softmax).map (sliceRow localGroupStart localGroupEnd)
  let routerWeights ← sliceScale localGroupStart localGroupEnd routerScale
  let (topkWeights, topkIds) ← groupTopk ops numVotedExperts localNumExperts localNumGroup expertsPerGroup scores
  let selected ← topkIds.mapM fun row => row.mapM fun id => routerWeights[id]?
  return (List.zipWith (List.zipWith (· * ·)) topkWeights selected, topkIds)

/-- **What is documented** of these functions, over exact scores. -/
structure RoutingOps.Documented [LinearOrder R] [Zero R] (ops : RoutingOps R) : Prop where
  length_softmax : ∀ row, (ops.softmax row).length = row.length
  softmax_pos : ∀ row, ∀ x ∈ ops.softmax row, 0 < x
  max_lt : ∀ row : List R, row ≠ [] → (ops.max row).2 < row.length
  max_eq : ∀ row : List R, row ≠ [] → (ops.max row).1 = row.getD (ops.max row).2 0
  le_max : ∀ row : List R, ∀ x ∈ row, x ≤ (ops.max row).1
  argmax_lt : ∀ row : List R, row ≠ [] → ops.argmax row < row.length
  le_argmax : ∀ row : List R, ∀ x ∈ row, x ≤ row.getD (ops.argmax row) 0
  argsort_perm : ∀ keys : List ℕ, (ops.argsortDescending keys).Perm (List.range keys.length)
  argsort_sorted : ∀ keys : List ℕ, (ops.argsortDescending keys).Pairwise fun i j => keys.getD j 0 ≤ keys.getD i 0

/-! ## Both paths -/

section Paths

variable [Zero R] {ops : RoutingOps R} {δ : Type} {numGroup size : ℕ} {rows : List δ} {f : δ → List R}
  {groups : δ → ℕ → List R}

/-- Scores of a group, those of some places only. -/
def keptScores (size : ℕ) (keep : ℕ → Bool) (scores : List R) : List R :=
  List.zipWith (fun keep score => if keep then score else 0) ((List.range size).map keep) scores

theorem getD_keptScores (keep : ℕ → Bool) {scores : List R} (hlength : scores.length = size) {e : ℕ}
    (he : e < size) : (keptScores size keep scores).getD e 0 = if keep e then scores.getD e 0 else 0 := by
  rw [keptScores, List.getD_eq_getElem?_getD, List.getElem?_zipWith, List.getElem?_map, List.getElem?_range he,
    List.getElem?_eq_getElem (hlength.symm ▸ he), List.getD_eq_getElem _ _ (hlength.symm ▸ he)]
  rfl

theorem length_keptScores (keep : ℕ → Bool) {scores : List R} (hlength : scores.length = size) :
    (keptScores size keep scores).length = size := by
  rw [keptScores, List.length_zipWith, List.length_map, List.length_range, hlength, Nat.min_self]

theorem keptScores_true {scores : List R} (hlength : scores.length = size) :
    keptScores size (fun _ => true) scores = scores := by
  refine List.ext_getElem (by rw [length_keptScores _ hlength, hlength]) fun e he he' => ?_
  have hentry := getD_keptScores (fun _ => true) hlength (hlength ▸ he')
  rwa [if_pos rfl, List.getD_eq_getElem _ _ he, List.getD_eq_getElem _ _ he'] at hentry

/-- What is picked from every group of every row. -/
def pickAll (numGroup size : ℕ) (rows : List δ) (pick : δ → ℕ → R × ℕ) : List (List R) × List (List ℕ) :=
  (rows.map fun row => (List.range numGroup).map fun j => (pick row j).1,
    rows.map fun row => (List.range numGroup).map fun j => (pick row j).2 + j * size)

omit [Zero R] in
theorem pickAll_eq (pick : δ → ℕ → R × ℕ) :
    (((rows.map fun row => (List.range numGroup).map (pick row)).map (·.map Prod.fst),
      (rows.map fun row => (List.range numGroup).map (pick row)).map fun row =>
        List.zipWith (· + ·) (row.map Prod.snd) ((List.range numGroup).map (· * size))) :
      List (List R) × List (List ℕ)) = pickAll numGroup size rows pick := by
  rw [pickAll, List.map_map, List.map_map]
  refine congrArg₂ Prod.mk (List.map_congr_left fun row _ => List.map_map ..) (List.map_congr_left fun row _ => ?_)
  rw [Function.comp_apply, List.map_map, List.zipWith_map, List.zipWith_self]
  rfl

omit [Zero R] in
/-- **The first path** picks from whole groups. -/
theorem originalTopk_eq (hgroup : 0 < numGroup) (hsize : 0 < size) (hrows : rows ≠ [])
    (hview : ∀ row ∈ rows, viewGroups numGroup size (f row) = (List.range numGroup).map (groups row)) :
    originalTopk ops (numGroup * size) numGroup size (rows.map f) =
      some (pickAll numGroup size rows fun row j => ops.max (groups row j)) := by
  have hlength : 0 < rows.length := List.length_pos_iff.mpr hrows
  have hpos : 0 < rows.length * numGroup := Nat.mul_pos hlength hgroup
  have hbias : (numGroup * size + size - 1) / size = numGroup := by
    rw [Nat.add_sub_assoc hsize, Nat.mul_comm, Nat.mul_add_div hsize, Nat.div_eq_of_lt (Nat.sub_lt hsize Nat.one_pos),
      Nat.add_zero]
  have hdiv : rows.length * (numGroup * size) / (rows.length * numGroup) = size := by
    rw [← Nat.mul_assoc, Nat.mul_div_cancel_left _ hpos]
  have hmod : rows.length * (numGroup * size) % (rows.length * numGroup) = 0 := by
    rw [← Nat.mul_assoc, Nat.mul_mod_right]
  simp only [originalTopk, List.length_map, hbias, hdiv, hmod, List.length_range]
  rw [if_pos ⟨hpos, trivial, hsize, hsize, trivial⟩]
  have hpicked : (rows.map f).map (fun row => (viewGroups numGroup size row).map ops.max) =
      rows.map fun row => (List.range numGroup).map fun j => ops.max (groups row j) := by
    rw [List.map_map]
    refine List.map_congr_left fun row hrow => ?_
    rw [Function.comp_apply, hview row hrow, List.map_map]
    rfl
  rw [hpicked, pickAll_eq]

omit [Zero R] in
/-- The votes, place by place. -/
theorem expertVoteFreq_eq (best : δ → ℕ → ℕ) :
    expertVoteFreq numGroup size (rows.map fun row => (List.range numGroup).map (best row)) =
      (List.range numGroup).map fun j => (List.range size).map fun e => (rows.map (best · j)).count e := by
  rw [expertVoteFreq]
  refine List.map_congr_left fun j hj => List.map_congr_left fun e he => ?_
  rw [List.count_eq_countP, List.countP_map, List.countP_map, List.countP_map]
  refine List.countP_congr fun row _ => ?_
  simp only [Function.comp_apply, List.map_map]
  rw [getD_map_range (List.mem_range.mp hj), Function.comp_apply, getD_map_range (List.mem_range.mp he),
    decide_eq_true_iff, beq_iff_eq]

/-- The places of a group that are kept. -/
def keptPlaces (ops : RoutingOps R) (numVotedExperts size : ℕ) (rows : List δ) (groups : δ → ℕ → List R) (j : ℕ) :
    List ℕ :=
  (ops.argsortDescending ((List.range size).map fun e =>
    (rows.map fun row => ops.argmax (groups row j)).count e)).take numVotedExperts

/-- **The second path** picks from the kept places of the groups. -/
theorem votedTopk_eq (hsize : 0 < size) (numVotedExperts : ℕ)
    (hview : ∀ row ∈ rows, viewGroups numGroup size (f row) = (List.range numGroup).map (groups row)) :
    votedTopk ops numVotedExperts (numGroup * size) numGroup size (rows.map f) =
      some (pickAll numGroup size rows fun row j => ops.max (keptScores size
        (fun e => decide (e ∈ keptPlaces ops numVotedExperts size rows groups j)) (groups row j))) := by
  have hgrouped : (rows.map f).map (viewGroups numGroup size) = rows.map fun row =>
      (List.range numGroup).map (groups row) := by
    rw [List.map_map]
    exact List.map_congr_left hview
  have hbest : (rows.map fun row => (List.range numGroup).map (groups row)).map (·.map ops.argmax) =
      rows.map fun row => (List.range numGroup).map fun j => ops.argmax (groups row j) := by
    rw [List.map_map]
    exact List.map_congr_left fun row _ => List.map_map ..
  simp only [votedTopk, List.length_map]
  rw [if_pos ⟨(Nat.mul_assoc _ _ _).symm, hsize⟩, hgrouped, hbest, expertVoteFreq_eq]
  simp only [List.map_map (l := List.range numGroup)]
  have hpicked : ∀ keep : ℕ → ℕ → Bool, (rows.map fun row => (List.range numGroup).map (groups row)).map
      (fun groups => (maskScores ((List.range numGroup).map fun j => (List.range size).map (keep j)) groups).map
        ops.max) = rows.map fun row => (List.range numGroup).map fun j =>
          ops.max (keptScores size (keep j) (groups row j)) := fun keep => by
    rw [List.map_map]
    refine List.map_congr_left fun row _ => ?_
    rw [Function.comp_apply, maskScores, List.zipWith_map, List.zipWith_self, List.map_map]
    rfl
  rw [← pickAll_eq, ← hpicked]
  rfl

end Paths

/-! ## What is routed -/

/-- A batch for the router, with sizes that fit. -/
structure RouterInput (R : Type) where
  gatingOutput : List (List R)
  routerScale : Shaped R
  epSize : ℕ
  topk : ℕ
  globalNumExperts : ℕ
  topk_pos : 0 < topk
  epSize_dvd : epSize ∣ topk
  topk_dvd : topk ∣ globalNumExperts
  length_eq : ∀ row ∈ gatingOutput, row.length = globalNumExperts
  shape_eq : routerScale.shape = [1, globalNumExperts]

namespace RouterInput

variable (x : RouterInput R)

/-- The size of a group. -/
def groupSize : ℕ := x.globalNumExperts / x.topk

/-- The groups of a rank. -/
def numGroups : ℕ := x.topk / x.epSize

/-- The experts of a rank. -/
def numExperts : ℕ := x.globalNumExperts / x.epSize

theorem epSize_pos : 0 < x.epSize := Nat.pos_of_dvd_of_pos x.epSize_dvd x.topk_pos

theorem topk_eq : x.topk = x.epSize * x.numGroups := (Nat.mul_div_cancel' x.epSize_dvd).symm

theorem globalNumExperts_eq : x.globalNumExperts = x.topk * x.groupSize := (Nat.mul_div_cancel' x.topk_dvd).symm

theorem numExperts_eq : x.numExperts = x.numGroups * x.groupSize := by
  rw [numExperts, x.globalNumExperts_eq, x.topk_eq, Nat.mul_assoc, Nat.mul_div_cancel_left _ x.epSize_pos]

theorem numGroups_pos : 0 < x.numGroups :=
  Nat.div_pos (Nat.le_of_dvd x.topk_pos x.epSize_dvd) x.epSize_pos

theorem group_lt {rank j : ℕ} (hrank : rank < x.epSize) (hj : j < x.numGroups) : rank * x.numGroups + j < x.topk :=
  calc
    rank * x.numGroups + j < (rank + 1) * x.numGroups := by
      rw [Nat.succ_mul]
      exact Nat.add_lt_add_left hj _
    _ ≤ x.topk := by
      rw [x.topk_eq]
      exact Nat.mul_le_mul_right _ hrank

theorem expert_lt {rank id : ℕ} (hrank : rank < x.epSize) (hid : id < x.numExperts) :
    rank * x.numExperts + id < x.globalNumExperts :=
  calc
    rank * x.numExperts + id < (rank + 1) * x.numExperts := by
      rw [Nat.succ_mul]
      exact Nat.add_lt_add_left hid _
    _ ≤ x.globalNumExperts := by
      rw [x.numExperts_eq, x.globalNumExperts_eq, x.topk_eq, Nat.mul_assoc]
      exact Nat.mul_le_mul_right _ hrank

/-- The call on a rank. -/
def call [Zero R] [Mul R] (ops : RoutingOps R) (numVotedExperts rank : ℕ) :
    Option (List (List R) × List (List ℕ)) :=
  panguGroup8Topk ops x.routerScale x.epSize rank numVotedExperts x.gatingOutput x.topk x.globalNumExperts

section Meaning

variable [LinearOrder R] [Zero R] [Mul R] (ops : RoutingOps R)

/-- The softmax score of an expert, over all experts. -/
def score (row : List R) (expert : ℕ) : R := (ops.softmax row).getD expert 0

/-- The expert's own router scale. -/
def scale (expert : ℕ) : R := x.routerScale.data.getD expert 0

/-- Place `e` of a group is that of a best expert of it. -/
def IsBest (group : ℕ) (row : List R) (e : ℕ) : Prop :=
  e < x.groupSize ∧
    ∀ e' < x.groupSize, score ops row (group * x.groupSize + e') ≤ score ops row (group * x.groupSize + e)

/-- The places of a group that a token may be sent to: all, or those that got the most votes of the batch. -/
def IsElected (numVotedExperts group : ℕ) (kept : List ℕ) : Prop :=
  if numVotedExperts = 8 then kept = List.range x.groupSize
  else ∃ best : List ℕ, List.Forall₂ (x.IsBest ops group) x.gatingOutput best ∧
    IsTopk ((List.range x.groupSize).map fun e => best.count e) (min numVotedExperts x.groupSize) kept

/-- Weight and id are those of the best of these places, on a rank. -/
def Picks (rank j : ℕ) (kept : List ℕ) (row : List R) (weight : R) (id : ℕ) : Prop :=
  ∃ e ∈ kept, e < x.groupSize ∧
    id + rank * x.numExperts = (rank * x.numGroups + j) * x.groupSize + e ∧
    weight = score ops row (id + rank * x.numExperts) * x.scale (id + rank * x.numExperts) ∧
    ∀ e' ∈ kept, score ops row ((rank * x.numGroups + j) * x.groupSize + e') ≤
      score ops row (id + rank * x.numExperts)

/-- **What a rank returns**: for every token one id and weight for each of its groups. -/
structure IsRouted (numVotedExperts rank : ℕ) (routed : List (List R) × List (List ℕ)) : Prop where
  length_weights : routed.1.map List.length = List.replicate x.gatingOutput.length x.numGroups
  length_ids : routed.2.map List.length = List.replicate x.gatingOutput.length x.numGroups
  picks : ∀ j < x.numGroups, ∃ kept, x.IsElected ops numVotedExperts (rank * x.numGroups + j) kept ∧
    ∀ t row, x.gatingOutput[t]? = some row →
      x.Picks ops rank j kept row ((routed.1.getD t []).getD j 0) ((routed.2.getD t []).getD j 0)

/-- The groups that a token hits on all ranks. -/
def hits (routed : ℕ → List (List R) × List (List ℕ)) (t : ℕ) : List ℕ :=
  (List.range x.epSize).flatMap fun rank =>
    ((routed rank).2.getD t []).map fun id => (id + rank * x.numExperts) / x.groupSize

/-- **Every group is routed**: by one rank each, to its best expert. -/
def RoutesGroups (numVotedExperts : ℕ) : Prop :=
  ∃ routed : ℕ → List (List R) × List (List ℕ),
    (∀ rank < x.epSize, x.call ops numVotedExperts rank = some (routed rank) ∧
      x.IsRouted ops numVotedExperts rank (routed rank)) ∧
    ∀ t < x.gatingOutput.length, x.hits routed t = List.range x.topk

end Meaning

/-! ## One group -/

section Group

variable [Zero R] (ops : RoutingOps R)

/-- The scores of a group. -/
def groupScores (group : ℕ) (row : List R) : List R :=
  ((ops.softmax row).drop (group * x.groupSize)).take x.groupSize

variable {x ops}

theorem getD_groupScores {group e : ℕ} (he : e < x.groupSize) (row : List R) :
    (x.groupScores ops group row).getD e 0 = score ops row (group * x.groupSize + e) := by
  rw [groupScores, score, List.getD_eq_getElem?_getD, List.getD_eq_getElem?_getD, List.getElem?_take_of_lt he,
    List.getElem?_drop]

variable [LinearOrder R]

theorem length_groupScores (h : ops.Documented) {group : ℕ} (hgroup : group < x.topk) {row : List R}
    (hrow : row ∈ x.gatingOutput) : (x.groupScores ops group row).length = x.groupSize := by
  have hle : group * x.groupSize + x.groupSize ≤ (ops.softmax row).length := by
    rw [h.length_softmax, x.length_eq row hrow, x.globalNumExperts_eq, ← Nat.succ_mul]
    exact Nat.mul_le_mul_right _ hgroup
  exact List.length_take_of_le (by rw [List.length_drop]; omega)

theorem score_pos (h : ops.Documented) {group e : ℕ} (hgroup : group < x.topk) (he : e < x.groupSize)
    {row : List R} (hrow : row ∈ x.gatingOutput) : 0 < score ops row (group * x.groupSize + e) := by
  have hlt : e < (x.groupScores ops group row).length := (length_groupScores h hgroup hrow).symm ▸ he
  rw [← getD_groupScores he, List.getD_eq_getElem _ _ hlt]
  exact h.softmax_pos row _ (List.mem_of_mem_drop (List.mem_of_mem_take (List.getElem_mem hlt)))

/-- **The best of the places that are kept**: what is not kept has the score zero, and every score is positive. -/
theorem max_keptScores (h : ops.Documented) {group : ℕ} (hgroup : group < x.topk) {row : List R}
    (hrow : row ∈ x.gatingOutput) (keep : ℕ → Bool) {e : ℕ} (he : e < x.groupSize) (hkeep : keep e = true) :
    (ops.max (keptScores x.groupSize keep (x.groupScores ops group row))).2 < x.groupSize ∧
      keep (ops.max (keptScores x.groupSize keep (x.groupScores ops group row))).2 = true ∧
      (ops.max (keptScores x.groupSize keep (x.groupScores ops group row))).1 = score ops row
        (group * x.groupSize + (ops.max (keptScores x.groupSize keep (x.groupScores ops group row))).2) ∧
      ∀ e' < x.groupSize, keep e' = true → score ops row (group * x.groupSize + e') ≤
        (ops.max (keptScores x.groupSize keep (x.groupScores ops group row))).1 := by
  have hlength := length_groupScores h hgroup hrow
  have hkept := length_keptScores keep hlength
  generalize hscores : keptScores x.groupSize keep (x.groupScores ops group row) = scores at hkept ⊢
  have hne : scores ≠ [] := List.ne_nil_of_length_pos (hkept.symm ▸ Nat.zero_lt_of_lt he)
  have hlt : (ops.max scores).2 < x.groupSize := hkept ▸ h.max_lt scores hne
  have hentry : ∀ a < x.groupSize,
      scores.getD a 0 = if keep a then score ops row (group * x.groupSize + a) else 0 := fun a ha => by
    rw [← hscores, getD_keptScores keep hlength ha, getD_groupScores ha]
  have hle : ∀ e' < x.groupSize, keep e' = true → score ops row (group * x.groupSize + e') ≤ (ops.max scores).1 :=
    fun e' he' hkeep' => by
      have hmem := h.le_max scores _ (List.getElem_mem (hkept.symm ▸ he'))
      rwa [← List.getD_eq_getElem _ 0, hentry e' he', if_pos hkeep'] at hmem
  have hpos : 0 < (ops.max scores).1 := (score_pos h hgroup he hrow).trans_le (hle e he hkeep)
  have hmax := h.max_eq scores hne
  rw [hentry _ hlt] at hmax
  by_cases hkeepMax : keep (ops.max scores).2 = true
  · rw [if_pos hkeepMax] at hmax
    exact ⟨hlt, hkeepMax, hmax, hle⟩
  · rw [if_neg hkeepMax] at hmax
    exact absurd hmax hpos.ne'

/-- The places that the second path keeps are elected. -/
theorem isElected_keptPlaces (h : ops.Documented) {group : ℕ} (hgroup : group < x.topk)
    (hsize : 0 < x.groupSize) {numVotedExperts : ℕ} (horiginal : numVotedExperts ≠ 8) {j : ℕ}
    {groups : List R → ℕ → List R} (hgroups : ∀ row, groups row j = x.groupScores ops group row) :
    x.IsElected ops numVotedExperts group
      (keptPlaces ops numVotedExperts x.groupSize x.gatingOutput groups j) := by
  rw [IsElected, if_neg horiginal]
  refine ⟨x.gatingOutput.map fun row => ops.argmax (groups row j), ?_, ?_⟩
  · rw [List.forall₂_map_right_iff, List.forall₂_same]
    intro row hrow
    rw [hgroups row]
    have hlength := length_groupScores h hgroup hrow
    have hne : x.groupScores ops group row ≠ [] := List.ne_nil_of_length_pos (hlength.symm ▸ hsize)
    have hlt := (h.argmax_lt _ hne).trans_eq hlength
    refine ⟨hlt, fun e he => ?_⟩
    have hle := h.le_argmax _ _ (List.getElem_mem (hlength.symm ▸ he))
    rwa [← List.getD_eq_getElem _ 0, getD_groupScores he, getD_groupScores hlt] at hle
  · have hkeys : ((List.range x.groupSize).map fun e =>
        (x.gatingOutput.map fun row => ops.argmax (groups row j)).count e).length = x.groupSize := by
      rw [List.length_map, List.length_range]
    rw [keptPlaces, List.take_eq_take_min, (h.argsort_perm _).length_eq, List.length_range, hkeys]
    exact isTopk_take (h.argsort_perm _) (h.argsort_sorted _) ((min_le_right _ _).trans_eq hkeys.symm)

omit [LinearOrder R] [Zero R] in
/-- The groups of a rank. -/
theorem viewGroups_sliceRow (rank : ℕ) (row : List R) : viewGroups x.numGroups x.groupSize
    (sliceRow (rank * x.numExperts) ((rank + 1) * x.numExperts) (ops.softmax row)) =
      (List.range x.numGroups).map fun j => x.groupScores ops (rank * x.numGroups + j) row := by
  refine List.map_congr_left fun j hj => ?_
  have hle : j * x.groupSize + x.groupSize ≤ x.numExperts := by
    rw [x.numExperts_eq, ← Nat.succ_mul]
    exact Nat.mul_le_mul_right _ (List.mem_range.mp hj)
  have hstart : rank * x.numExperts + j * x.groupSize = (rank * x.numGroups + j) * x.groupSize := by
    rw [x.numExperts_eq, Nat.add_mul, Nat.mul_assoc]
  rw [sliceRow, groupScores, List.drop_drop, List.drop_take, hstart, List.take_take, ← hstart, Nat.succ_mul]
  congr 1
  omega

/-! ## One rank -/

variable (x ops) in
/-- The places of a rank's group that a token may be sent to. -/
def candidates (numVotedExperts rank j : ℕ) : List ℕ :=
  if numVotedExperts = 8 then List.range x.groupSize
  else keptPlaces ops numVotedExperts x.groupSize x.gatingOutput
    (fun row j => x.groupScores ops (rank * x.numGroups + j) row) j

variable (x ops) in
/-- The score and the place that are picked from a rank's group. -/
def pick (numVotedExperts rank : ℕ) (row : List R) (j : ℕ) : R × ℕ :=
  ops.max (keptScores x.groupSize (fun e => decide (e ∈ x.candidates ops numVotedExperts rank j))
    (x.groupScores ops (rank * x.numGroups + j) row))

/-- **Either path picks from the candidates.** -/
theorem groupTopk_eq (h : ops.Documented) {numVotedExperts rank : ℕ} (hrank : rank < x.epSize) (hsize : 0 < x.groupSize)
    (hbatch : x.gatingOutput = [] → numVotedExperts ≠ 8) :
    groupTopk ops numVotedExperts x.numExperts x.numGroups x.groupSize
      ((x.gatingOutput.map ops.softmax).map (sliceRow (rank * x.numExperts) ((rank + 1) * x.numExperts))) =
        some (pickAll x.numGroups x.groupSize x.gatingOutput (x.pick ops numVotedExperts rank)) := by
  have hview : ∀ row ∈ x.gatingOutput, viewGroups x.numGroups x.groupSize
      ((sliceRow (rank * x.numExperts) ((rank + 1) * x.numExperts) ∘ ops.softmax) row) =
        (List.range x.numGroups).map fun j => x.groupScores ops (rank * x.numGroups + j) row := fun row _ =>
    viewGroups_sliceRow rank row
  rw [x.numExperts_eq] at hview ⊢
  rw [List.map_map, groupTopk]
  by_cases horiginal : numVotedExperts = 8
  · rw [if_pos horiginal, originalTopk_eq x.numGroups_pos hsize (fun hnil => hbatch hnil horiginal) hview]
    -- all places of a group are candidates
    have hpick : ∀ row ∈ x.gatingOutput, ∀ j ∈ List.range x.numGroups,
        x.pick ops numVotedExperts rank row j = ops.max (x.groupScores ops (rank * x.numGroups + j) row) := by
      intro row hrow j hj
      have hlength := length_groupScores h (x.group_lt hrank (List.mem_range.mp hj)) hrow
      have hall : (List.range x.groupSize).map (fun e => decide (e ∈ x.candidates ops numVotedExperts rank j)) =
          (List.range x.groupSize).map fun _ => true := by
        rw [candidates, if_pos horiginal]
        exact List.map_congr_left fun e he => decide_eq_true he
      rw [pick, keptScores, hall]
      exact congrArg ops.max (keptScores_true hlength)
    refine congrArg some (congrArg₂ Prod.mk ?_ ?_)
    · exact List.map_congr_left fun row hrow => List.map_congr_left fun j hj => by rw [hpick row hrow j hj]
    · exact List.map_congr_left fun row hrow => List.map_congr_left fun j hj => by rw [hpick row hrow j hj]
  · rw [if_neg horiginal, votedTopk_eq hsize numVotedExperts hview]
    refine congrArg (fun pick => some (pickAll _ _ _ pick)) (funext fun row => funext fun j => ?_)
    rw [pick, candidates, if_neg horiginal]

end Group

section Call

variable [LinearOrder R] [Zero R] [Mul R] {ops : RoutingOps R} {x}

omit [LinearOrder R] in
/-- The call, under the names of its sizes. -/
theorem call_unfold (numVotedExperts rank : ℕ) : x.call ops numVotedExperts rank =
    (sliceScale (rank * x.numExperts) ((rank + 1) * x.numExperts) x.routerScale).bind fun routerWeights =>
      (groupTopk ops numVotedExperts x.numExperts x.numGroups x.groupSize ((x.gatingOutput.map ops.softmax).map
        (sliceRow (rank * x.numExperts) ((rank + 1) * x.numExperts)))).bind fun routed =>
          (routed.2.mapM fun row : List ℕ => row.mapM fun id => routerWeights[id]?).bind fun selected =>
            some (List.zipWith (List.zipWith (· * ·)) routed.1 selected, routed.2) := rfl

omit [LinearOrder R] [Mul R] in
/-- The scale of a rank's experts, unless there is but one expert. -/
theorem sliceScale_eq {rank : ℕ} (hrank : rank < x.epSize) (hexperts : x.globalNumExperts ≠ 1) :
    ∃ routerWeights,
      sliceScale (rank * x.numExperts) ((rank + 1) * x.numExperts) x.routerScale = some routerWeights ∧
        ∀ id < x.numExperts, routerWeights[id]? = some (x.scale (id + rank * x.numExperts)) := by
  have hshape : x.routerScale.squeeze.shape = [x.globalNumExperts] := by
    change x.routerScale.shape.filter (· != 1) = _
    rw [x.shape_eq, List.filter_cons_of_neg (by simp), List.filter_cons_of_pos (by simpa using hexperts)]
    rfl
  have hlength : x.routerScale.data.length = x.globalNumExperts := by
    rw [x.routerScale.length_data, x.shape_eq, List.prod_cons, List.prod_singleton, one_mul]
  refine ⟨_, by rw [sliceScale, hshape], fun id hid => ?_⟩
  have hlt : rank * x.numExperts + id < x.routerScale.data.length := hlength.symm ▸ x.expert_lt hrank hid
  have hstop : rank * x.numExperts + id < (rank + 1) * x.numExperts := by
    rw [Nat.succ_mul]
    exact Nat.add_lt_add_left hid _
  rw [sliceRow, List.getElem?_drop, List.getElem?_take_of_lt hstop]
  rw [scale, Nat.add_comm id, List.getD_eq_getElem _ _ hlt]
  exact List.getElem?_eq_getElem hlt

omit [Mul R] in
/-- The candidates of a group are some of its places. -/
theorem isElected_candidates (h : ops.Documented) {numVotedExperts rank j : ℕ} (hrank : rank < x.epSize)
    (hj : j < x.numGroups) (hsize : 0 < x.groupSize) :
    x.IsElected ops numVotedExperts (rank * x.numGroups + j) (x.candidates ops numVotedExperts rank j) := by
  by_cases horiginal : numVotedExperts = 8
  · rw [IsElected, if_pos horiginal, candidates, if_pos horiginal]
  · rw [candidates, if_neg horiginal]
    exact isElected_keptPlaces h (x.group_lt hrank hj) hsize horiginal fun _ => rfl

omit [Mul R] in
theorem IsElected.lt {numVotedExperts group : ℕ} {kept : List ℕ}
    (h : x.IsElected ops numVotedExperts group kept) {e : ℕ} (he : e ∈ kept) : e < x.groupSize := by
  rw [IsElected] at h
  split at h
  · exact List.mem_range.mp (h ▸ he)
  · obtain ⟨best, -, htopk⟩ := h
    exact (htopk.lt e he).trans_eq (by rw [List.length_map, List.length_range])

omit [Mul R] in
theorem IsElected.exists_mem {numVotedExperts group : ℕ} {kept : List ℕ}
    (h : x.IsElected ops numVotedExperts group kept) (hvoted : 0 < numVotedExperts) (hsize : 0 < x.groupSize) :
    ∃ e, e ∈ kept := by
  rw [IsElected] at h
  split at h
  · exact ⟨0, h ▸ List.mem_range.mpr hsize⟩
  · obtain ⟨best, -, htopk⟩ := h
    exact List.exists_mem_of_length_pos (htopk.length.symm ▸ Nat.lt_min.mpr ⟨hvoted, hsize⟩)

omit [Mul R] in
/-- **The pick of a rank's group** is the best candidate. -/
theorem pick_spec (h : ops.Documented) {numVotedExperts rank j : ℕ} (hvoted : 0 < numVotedExperts)
    (hrank : rank < x.epSize) (hj : j < x.numGroups) (hsize : 0 < x.groupSize) {row : List R}
    (hrow : row ∈ x.gatingOutput) :
    (x.pick ops numVotedExperts rank row j).2 ∈ x.candidates ops numVotedExperts rank j ∧
      (x.pick ops numVotedExperts rank row j).1 = score ops row
        ((rank * x.numGroups + j) * x.groupSize + (x.pick ops numVotedExperts rank row j).2) ∧
      ∀ e ∈ x.candidates ops numVotedExperts rank j,
        score ops row ((rank * x.numGroups + j) * x.groupSize + e) ≤ (x.pick ops numVotedExperts rank row j).1 := by
  have helected : x.IsElected ops numVotedExperts _ _ := isElected_candidates h hrank hj hsize
  obtain ⟨e, he⟩ := helected.exists_mem hvoted hsize
  obtain ⟨-, hkept, heq, hle⟩ := max_keptScores h (x.group_lt hrank hj) hrow
    (fun e => decide (e ∈ x.candidates ops numVotedExperts rank j)) (helected.lt he) (decide_eq_true he)
  exact ⟨of_decide_eq_true hkept, heq, fun e' he' => hle e' (helected.lt he') (decide_eq_true he')⟩

/-- **The call on a rank.** -/
theorem call_eq (h : ops.Documented) {numVotedExperts rank : ℕ} (hvoted : 0 < numVotedExperts)
    (hrank : rank < x.epSize) (hexperts : 2 ≤ x.globalNumExperts)
    (hbatch : x.gatingOutput = [] → numVotedExperts ≠ 8) :
    x.call ops numVotedExperts rank = some
      (x.gatingOutput.map fun row => (List.range x.numGroups).map fun j =>
          (x.pick ops numVotedExperts rank row j).1 *
            x.scale ((x.pick ops numVotedExperts rank row j).2 + j * x.groupSize + rank * x.numExperts),
        (pickAll x.numGroups x.groupSize x.gatingOutput (x.pick ops numVotedExperts rank)).2) := by
  have hsize : 0 < x.groupSize :=
    Nat.div_pos (Nat.le_of_dvd (by omega) x.topk_dvd) x.topk_pos
  obtain ⟨routerWeights, hslice, hweights⟩ := sliceScale_eq hrank (by omega : x.globalNumExperts ≠ 1)
  have hselected : (pickAll x.numGroups x.groupSize x.gatingOutput (x.pick ops numVotedExperts rank)).2.mapM
      (fun row => row.mapM fun id => routerWeights[id]?) =
        some (x.gatingOutput.map fun row => (List.range x.numGroups).map fun j =>
          x.scale ((x.pick ops numVotedExperts rank row j).2 + j * x.groupSize + rank * x.numExperts)) := by
    refine mapM_map_eq_some fun row hrow => mapM_map_eq_some fun j hj => hweights _ ?_
    have hj := List.mem_range.mp hj
    have hplace := (isElected_candidates h hrank hj hsize).lt (pick_spec h hvoted hrank hj hsize hrow).1
    calc
      (x.pick ops numVotedExperts rank row j).2 + j * x.groupSize < (j + 1) * x.groupSize := by
        rw [Nat.succ_mul, Nat.add_comm]
        exact Nat.add_lt_add_left hplace _
      _ ≤ x.numExperts := by
        rw [x.numExperts_eq]
        exact Nat.mul_le_mul_right _ hj
  rw [call_unfold, hslice, Option.bind_some, groupTopk_eq h hrank hsize hbatch, Option.bind_some, hselected,
    Option.bind_some]
  refine congrArg some (congrArg₂ Prod.mk ?_ rfl)
  rw [pickAll, List.zipWith_map, List.zipWith_self]
  exact List.map_congr_left fun row _ => by rw [List.zipWith_map, List.zipWith_self]

/-- **What a rank returns is what is routed.** -/
theorem isRouted_call (h : ops.Documented) {numVotedExperts rank : ℕ} (hvoted : 0 < numVotedExperts)
    (hrank : rank < x.epSize) (hexperts : 2 ≤ x.globalNumExperts)
    (hbatch : x.gatingOutput = [] → numVotedExperts ≠ 8) :
    ∃ routed, x.call ops numVotedExperts rank = some routed ∧ x.IsRouted ops numVotedExperts rank routed := by
  have hsize : 0 < x.groupSize :=
    Nat.div_pos (Nat.le_of_dvd (by omega) x.topk_dvd) x.topk_pos
  refine ⟨_, call_eq h hvoted hrank hexperts hbatch, ?_, ?_, fun j hj => ⟨_, isElected_candidates h hrank hj hsize,
    fun t row hrow => ?_⟩⟩
  · simp only [List.map_map, Function.comp_def, List.length_map, List.length_range, List.map_const']
  · simp only [pickAll, List.map_map, Function.comp_def, List.length_map, List.length_range, List.map_const']
  · obtain ⟨hmem, hscore, hle⟩ := pick_spec h hvoted hrank hj hsize (List.mem_of_getElem? hrow)
    have hid : (x.pick ops numVotedExperts rank row j).2 + j * x.groupSize + rank * x.numExperts =
        (rank * x.numGroups + j) * x.groupSize + (x.pick ops numVotedExperts rank row j).2 := by
      rw [x.numExperts_eq, Nat.add_mul, Nat.mul_assoc]
      omega
    simp only [pickAll, List.getD_eq_getElem?_getD, List.getElem?_map, hrow, Option.map_some, Option.getD_some,
      List.getElem?_range hj]
    refine ⟨_, hmem, (isElected_candidates h hrank hj hsize).lt hmem, hid, ?_, fun e he => ?_⟩
    · rw [hid, hscore]
    · rw [hid, ← hscore]
      exact hle e he

/-- **Every group is hit once**, in order of the ranks. -/
theorem hits_eq {numVotedExperts : ℕ} {routed : ℕ → List (List R) × List (List ℕ)}
    (h : ∀ rank < x.epSize, x.IsRouted ops numVotedExperts rank (routed rank)) {t : ℕ}
    (ht : t < x.gatingOutput.length) : x.hits routed t = List.range x.topk := by
  rw [hits, x.topk_eq, range_mul]
  refine List.flatMap_congr fun rank hrank => ?_
  have hrouted := h rank (List.mem_range.mp hrank)
  have hlength : ((routed rank).2.getD t []).length = x.numGroups := by
    have hget := congrArg (fun lengths => lengths[t]?) hrouted.length_ids
    simp only [List.getElem?_map, List.getElem?_replicate, ht, if_true] at hget
    obtain ⟨ids, hids, hnum⟩ := Option.map_eq_some_iff.mp hget
    rw [List.getD_eq_getElem?_getD, hids, Option.getD_some, hnum]
  refine List.ext_getElem (by rw [List.length_map, List.length_map, List.length_range, hlength]) fun j hj hj' => ?_
  rw [List.length_map, List.length_range] at hj'
  obtain ⟨kept, -, hpicks⟩ := hrouted.picks j hj'
  obtain ⟨e, -, he, hid, -⟩ := hpicks t _ (List.getElem?_eq_getElem ht)
  rw [List.getElem_map, List.getElem_map, List.getElem_range, ← List.getD_eq_getElem _ 0, hid,
    Nat.add_comm (_ * _), Nat.add_mul_div_right _ _ (Nat.zero_lt_of_lt he), Nat.div_eq_of_lt he, Nat.zero_add]

omit [LinearOrder R] in
/-- Nothing is routed of a single expert, or on the first path of no tokens. -/
theorem call_eq_none {numVotedExperts rank : ℕ}
    (hnot : ¬ (2 ≤ x.globalNumExperts ∧ (x.gatingOutput = [] → numVotedExperts ≠ 8))) :
    x.call ops numVotedExperts rank = none := by
  rw [call_unfold]
  obtain hzero | hone | htwo : x.globalNumExperts = 0 ∨ x.globalNumExperts = 1 ∨ 2 ≤ x.globalNumExperts := by omega
  · -- without experts the groups have no entries to take the largest of
    have hsize : x.groupSize = 0 := by rw [groupSize, hzero, Nat.zero_div]
    have hnone : ∀ scores, groupTopk ops numVotedExperts x.numExperts x.numGroups x.groupSize scores = none := by
      intro scores
      rw [groupTopk, originalTopk, votedTopk, hsize]
      split
      · exact if_neg fun hcond => absurd hcond.2.2.2.1 (Nat.lt_irrefl 0)
      · exact if_neg fun hcond => absurd hcond.2 (Nat.lt_irrefl 0)
    rw [hnone]
    exact Option.bind_fun_none _
  · have hshape : x.routerScale.squeeze.shape = [] := by
      change x.routerScale.shape.filter (· != 1) = _
      rw [x.shape_eq, hone]
      rfl
    rw [sliceScale, hshape, Option.bind_none]
  · obtain ⟨hnil, horiginal⟩ : x.gatingOutput = [] ∧ numVotedExperts = 8 := by
      by_contra hcond
      exact hnot ⟨htwo, fun hnil height => hcond ⟨hnil, height⟩⟩
    have hnone : groupTopk ops numVotedExperts x.numExperts x.numGroups x.groupSize
        ((x.gatingOutput.map ops.softmax).map
          (sliceRow (rank * x.numExperts) ((rank + 1) * x.numExperts))) = none := by
      rw [groupTopk, if_pos horiginal, originalTopk, hnil]
      exact if_neg fun hcond => absurd hcond.1 (by simp)
    rw [hnone]
    exact Option.bind_fun_none _

omit [Mul R] in
/-- With as many votes as a group has places, all are elected. -/
theorem IsElected.mem {numVotedExperts group : ℕ} {kept : List ℕ} (h : x.IsElected ops numVotedExperts group kept)
    (hvoted : x.groupSize ≤ numVotedExperts) {e : ℕ} (he : e < x.groupSize) : e ∈ kept := by
  rw [IsElected] at h
  split at h
  · exact h ▸ List.mem_range.mpr he
  · obtain ⟨best, -, htopk⟩ := h
    have hsub : kept.toFinset ⊆ Finset.range x.groupSize := fun i hi =>
      Finset.mem_range.mpr ((htopk.lt i (List.mem_toFinset.mp hi)).trans_eq (by rw [List.length_map, List.length_range]))
    have hcard : (Finset.range x.groupSize).card ≤ kept.toFinset.card := by
      rw [List.toFinset_card_of_nodup htopk.nodup, htopk.length, Finset.card_range, Nat.min_eq_right hvoted]
    have hall := Finset.eq_of_subset_of_card_le hsub hcard
    exact List.mem_toFinset.mp (hall ▸ Finset.mem_range.mpr he)

/-- **The pick of all places** has the largest score of its group. -/
theorem Picks.isGreatest {rank j : ℕ} {kept : List ℕ} {row : List R} {weight : R} {id : ℕ}
    (h : x.Picks ops rank j kept row weight id) (hkept : ∀ e < x.groupSize, e ∈ kept) :
    ∃ e < x.groupSize, score ops row (id + rank * x.numExperts) =
        score ops row ((rank * x.numGroups + j) * x.groupSize + e) ∧
      ∀ e' < x.groupSize, score ops row ((rank * x.numGroups + j) * x.groupSize + e') ≤
        score ops row (id + rank * x.numExperts) := by
  obtain ⟨e, -, he, hid, -, hle⟩ := h
  exact ⟨e, he, by rw [hid], fun e' he' => hle e' (hkept e' he')⟩

/-- **Both paths choose experts of one score**, when as many are voted for as a group has. -/
theorem score_eq_of_groupSize_le (h : ops.Documented) {numVotedExperts rank : ℕ}
    (hvoted : x.groupSize ≤ numVotedExperts) (hrank : rank < x.epSize)
    {routed original : List (List R) × List (List ℕ)} (hrouted : x.call ops numVotedExperts rank = some routed)
    (horiginal : x.call ops 8 rank = some original) {t j : ℕ} (ht : t < x.gatingOutput.length)
    (hj : j < x.numGroups) :
    score ops (x.gatingOutput.getD t []) ((routed.2.getD t []).getD j 0 + rank * x.numExperts) =
      score ops (x.gatingOutput.getD t []) ((original.2.getD t []).getD j 0 + rank * x.numExperts) := by
  obtain ⟨hexperts, hbatch⟩ : 2 ≤ x.globalNumExperts ∧ (x.gatingOutput = [] → numVotedExperts ≠ 8) := by
    by_contra hnot
    exact absurd (hrouted.symm.trans (call_eq_none hnot)) (Option.some_ne_none _)
  have hsize : 0 < x.groupSize :=
    Nat.div_pos (Nat.le_of_dvd (by omega) x.topk_dvd) x.topk_pos
  have hne : x.gatingOutput ≠ [] := List.ne_nil_of_length_pos (Nat.zero_lt_of_lt ht)
  obtain ⟨_, hcall, hisRouted⟩ := isRouted_call h (hsize.trans_le hvoted) hrank hexperts hbatch
  obtain rfl := Option.some.inj (hcall.symm.trans hrouted)
  obtain ⟨_, hcall', hisOriginal⟩ := isRouted_call h (by omega : 0 < 8) hrank hexperts fun hnil => absurd hnil hne
  obtain rfl := Option.some.inj (hcall'.symm.trans horiginal)
  have hrow : x.gatingOutput[t]? = some (x.gatingOutput.getD t []) := by
    rw [List.getD_eq_getElem _ _ ht, List.getElem?_eq_getElem ht]
  obtain ⟨kept, helected, hpicks⟩ := hisRouted.picks j hj
  obtain ⟨all, hall, hpicks'⟩ := hisOriginal.picks j hj
  have hmem : ∀ e < x.groupSize, e ∈ all := fun e he => by
    rw [IsElected, if_pos rfl] at hall
    exact hall ▸ List.mem_range.mpr he
  obtain ⟨e, he, heq, hle⟩ := (hpicks t _ hrow).isGreatest fun e he => helected.mem hvoted he
  obtain ⟨e', he', heq', hle'⟩ := (hpicks' t _ hrow).isGreatest hmem
  exact le_antisymm (heq ▸ hle' e he) (heq' ▸ hle e' he')

/-- **When the router routes.**  Every group goes to its best expert for every batch, unless there is a single
expert, or no token on the first path; and when as many experts are voted for as a group has, both paths choose
experts of one score. -/
theorem panguGroup8Topk_iff (h : ops.Documented) (x : RouterInput R) {numVotedExperts : ℕ}
    (hvoted : 0 < numVotedExperts) :
    (x.RoutesGroups ops numVotedExperts ↔
      2 ≤ x.globalNumExperts ∧ (x.gatingOutput = [] → numVotedExperts ≠ 8)) ∧
    (x.groupSize ≤ numVotedExperts → ∀ rank < x.epSize, ∀ routed original,
      x.call ops numVotedExperts rank = some routed → x.call ops 8 rank = some original →
        ∀ t < x.gatingOutput.length, ∀ j < x.numGroups,
          score ops (x.gatingOutput.getD t []) ((routed.2.getD t []).getD j 0 + rank * x.numExperts) =
            score ops (x.gatingOutput.getD t []) ((original.2.getD t []).getD j 0 + rank * x.numExperts)) := by
  refine ⟨⟨fun hroutes => ?_, fun hcond => ?_⟩, fun hle rank hrank routed original hrouted horiginal t ht j hj =>
    score_eq_of_groupSize_le h hle hrank hrouted horiginal ht hj⟩
  · obtain ⟨routed, hall, -⟩ := hroutes
    by_contra hnot
    exact absurd ((hall 0 x.epSize_pos).1.symm.trans (call_eq_none hnot)) (Option.some_ne_none _)
  · have hrouted : ∀ rank, ∃ routed, rank < x.epSize →
        x.call ops numVotedExperts rank = some routed ∧ x.IsRouted ops numVotedExperts rank routed := fun rank => by
      by_cases hrank : rank < x.epSize
      · obtain ⟨routed, hrouted⟩ := isRouted_call h hvoted hrank hcond.1 hcond.2
        exact ⟨routed, fun _ => hrouted⟩
      · exact ⟨([], []), fun hlt => absurd hlt hrank⟩
    choose routed hrouted using hrouted
    exact ⟨routed, hrouted, fun t ht => hits_eq (fun rank hrank => (hrouted rank hrank).2) ht⟩

end Call

end RouterInput

/-! ## The first choice -/

section First

variable [LinearOrder R] [Zero R] {softmax : List R → List R}

/-- The place of the first of the largest entries. -/
def firstMax (row : List R) : ℕ := row.findIdx fun x => row.all (· ≤ x)

/-- The functions that choose the first of equal entries. -/
def firstRouting (softmax : List R → List R) : RoutingOps R where
  softmax := softmax
  max row := (row.getD (firstMax row) 0, firstMax row)
  argmax := firstMax
  argsortDescending keys := (List.range keys.length).insertionSort fun i j => keys.getD j 0 ≤ keys.getD i 0

omit [Zero R] in
theorem firstMax_lt {row : List R} (h : row ≠ []) : firstMax row < row.length := by
  obtain ⟨x, hx⟩ : ∃ x, row.max? = some x :=
    Option.ne_none_iff_exists'.mp fun hnone => h (List.max?_eq_none_iff.mp hnone)
  obtain ⟨hmem, hle⟩ := List.max?_eq_some_iff.mp hx
  exact List.findIdx_lt_length_of_exists ⟨x, hmem, List.all_eq_true.mpr fun y hy => decide_eq_true (hle y hy)⟩

theorem le_getD_firstMax {row : List R} {x : R} (hx : x ∈ row) : x ≤ row.getD (firstMax row) 0 := by
  have hlt := firstMax_lt (List.ne_nil_of_mem hx)
  have hall := List.findIdx_getElem (p := fun x => row.all (· ≤ x)) (w := hlt)
  rw [List.getD_eq_getElem _ _ hlt]
  exact of_decide_eq_true (List.all_eq_true.mp hall x hx)

theorem documented_firstRouting (hlength : ∀ row, (softmax row).length = row.length)
    (hpos : ∀ row, ∀ x ∈ softmax row, 0 < x) : (firstRouting softmax).Documented where
  length_softmax := hlength
  softmax_pos := hpos
  max_lt _ := firstMax_lt
  max_eq _ _ := rfl
  le_max _ _ := le_getD_firstMax
  argmax_lt _ := firstMax_lt
  le_argmax _ _ := le_getD_firstMax
  argsort_perm keys := List.perm_insertionSort _ _
  argsort_sorted keys := by
    have : IsTrans ℕ fun i j => keys.getD j 0 ≤ keys.getD i 0 := ⟨fun _ _ _ hij hjk => hjk.trans hij⟩
    have : Std.Total fun i j : ℕ => keys.getD j 0 ≤ keys.getD i 0 := ⟨fun _ _ => le_total _ _⟩
    exact List.pairwise_insertionSort _ _

end First

/-- The exponentials of the logits, divided by their sum. -/
noncomputable def softmaxExp (row : List ℝ) : List ℝ :=
  (row.map Real.exp).map (· / (row.map Real.exp).sum)

theorem documented_softmaxExp : (firstRouting softmaxExp).Documented := by
  refine documented_firstRouting (fun row => by rw [softmaxExp, List.length_map, List.length_map])
    fun row x hx => ?_
  obtain ⟨y, hy, rfl⟩ := List.mem_map.mp hx
  have hpos : ∀ z ∈ row.map Real.exp, 0 < z := fun z hz => by
    obtain ⟨l, -, rfl⟩ := List.mem_map.mp hz
    exact Real.exp_pos l
  exact div_pos (hpos y hy) (List.sum_pos _ hpos (List.ne_nil_of_mem hy))

/-- One token, four experts in two groups, on two ranks. -/
def fourExperts : RouterInput ℝ where
  gatingOutput := [[0, 1, 1, 0]]
  routerScale := ⟨[1, 4], [1, 1, 1, 1], rfl⟩
  epSize := 2
  topk := 2
  globalNumExperts := 4
  topk_pos := Nat.two_pos
  epSize_dvd := ⟨1, rfl⟩
  topk_dvd := ⟨2, rfl⟩
  length_eq row hrow := by
    obtain rfl := List.mem_singleton.mp hrow
    rfl
  shape_eq := rfl

theorem panguGroup8Topk_iff_fourExperts : fourExperts.RoutesGroups (firstRouting softmaxExp) 5 :=
  (RouterInput.panguGroup8Topk_iff documented_softmaxExp fourExperts (Nat.succ_pos 4)).1.mpr
    ⟨Nat.le_add_left 2 2, fun hnil => absurd hnil (List.cons_ne_nil _ _)⟩

/-- One token and one expert. -/
def oneExpert : RouterInput ℝ where
  gatingOutput := [[0]]
  routerScale := ⟨[1, 1], [1], rfl⟩
  epSize := 1
  topk := 1
  globalNumExperts := 1
  topk_pos := Nat.one_pos
  epSize_dvd := ⟨1, rfl⟩
  topk_dvd := ⟨1, rfl⟩
  length_eq row hrow := by
    obtain rfl := List.mem_singleton.mp hrow
    rfl
  shape_eq := rfl

/-- **The scale of a single expert cannot be sliced.** -/
theorem not_routesGroups_oneExpert : ¬ oneExpert.RoutesGroups (firstRouting softmaxExp) 8 := by
  rintro ⟨routed, hall, -⟩
  have hnone : oneExpert.call (firstRouting softmaxExp) 8 0 = none :=
    RouterInput.call_eq_none fun hcond => absurd hcond.1 (Nat.not_succ_le_self 1)
  exact absurd ((hall 0 Nat.one_pos).1.symm.trans hnone) (Option.some_ne_none _)

end VllmAscend
