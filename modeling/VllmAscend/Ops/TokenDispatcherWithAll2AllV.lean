import VllmAscend.Machinery.SortBack
import VllmAscend.Ops.FusedExpertsWithAll2AllQuant

/-!
# Ops/TokenDispatcherWithAll2AllV — the exchange by sequence, its rows and its scales

    rank r     choices of its tokens, sorted by expert        counts of its experts told to everyone
    rank s     │ rank 0's │ rank 1's │ …                      keys rebuilt from the counts
               sorted by local expert, and back               only with two local experts or more
    rank r     outputs at the sorted choices                  weighted and added up by token

`TokenDispatcherWithAll2AllV` of `ops/moe_dispatcher`.  Every rank computes its sizes from the counts of all
ranks, and the order of the local experts from the same counts.  The exchange is correct
(`allToAllV_correct`).  With quantisation the scales are exchanged and sorted along with the rows, except by
the exit for a single local expert, which leaves them out (`tokenDispatchQuant_keepsScales_iff`).
-/

namespace VllmAscend

open Machinery
open TokenDispatcherWithAllGather (choices)

variable {R V Q S X : Type}

/-- The settings of a dispatcher; `numExperts` are the logical and the redundant experts. -/
structure TokenDispatcherWithAll2AllV where
  numExperts : ℕ
  numLocalExperts : ℕ

/-- `torch.histc(xs, bins, 0, bins)` of whole numbers: unit bins, the last one with its upper end. -/
def histc (xs : List ℤ) (bins : ℕ) : List ℕ :=
  (List.range bins).map fun e : ℕ => (xs.filter fun x : ℤ => x = e ∨ e + 1 = bins ∧ x = bins).length

/-- `npu_moe_token_permute`: the rows in the order of a sort of their indices, `topK` for each token, and
where each went.  No rows are dropped when `numOutTokens` is zero. -/
def npuMoeTokenPermute (sort : List ℤ → List ℤ) (topK : ℕ) (tokens : List X) (indices : List ℤ)
    (numOutTokens : ℕ) : Option (List X × List ℤ) := do
  let sortIndices := sort indices
  let permutedTokens ← gather tokens (sortIndices.map (· / (topK : ℤ)))
  let sortedIndices ← scatter (List.replicate sortIndices.length 0) sortIndices (arange sortIndices.length)
  return (if numOutTokens = 0 then permutedTokens else permutedTokens.take numOutTokens, sortedIndices)

/-- `npu_moe_token_unpermute` without `probs` -/
def npuMoeTokenUnpermute (permutedTokens : List X) (sortedIndices : List ℤ) : Option (List X) :=
  gather permutedTokens sortedIndices

/-- `npu_moe_token_unpermute` with `probs`: each token gets its rows back, scaled and added up. -/
def npuMoeTokenUnpermuteProbs [CommRing R] [AddCommGroup V] [Module R V] (topK : ℕ)
    (permutedTokens : List V) (sortedIndices : List ℤ) (probs : List (List R)) : Option (List V) :=
  npuMoeFinalizeRoutingByToken topK permutedTokens probs sortedIndices

/-- `npu_moe_init_routing_v2` of rows that have one expert each, without a quantisation of its own: the rows
and their scales by expert, and where each went. -/
def npuMoeInitRoutingV2 (sort : List ℤ → List ℤ) (x : List X) (expertIdx : List ℤ) (scale : List S)
    (activeNum expertNum : ℕ) : Option (List X × List ℤ × List S) :=
  if ∀ e ∈ expertIdx, 0 ≤ e ∧ e < expertNum then do
    let sortIndices := sort expertIdx
    let expandedX ← gather x sortIndices
    let expandedRowIdx ← scatter (List.replicate sortIndices.length 0) sortIndices
      (arange sortIndices.length)
    let expandedScale ← gather scale sortIndices
    return (expandedX.take activeNum, expandedRowIdx, expandedScale.take activeNum)
  else none

namespace TokenDispatcherWithAll2AllV

/-- `__init__` asserts that there is a local expert. -/
def init (numExperts numGlobalRedundantExperts numLocalExperts : ℕ) :
    Option TokenDispatcherWithAll2AllV :=
  if 0 < numLocalExperts then some ⟨numExperts + numGlobalRedundantExperts, numLocalExperts⟩ else none

/-- What a rank has before the exchange. -/
structure LocalRows (V : Type) where
  permutatedLocalInputTokens : List V
  reversedLocalInputPermutationMapping : List ℤ
  numLocalTokensPerExpert : List ℕ
  inputSplits : List ℕ

/-- What a rank has from the counts of all ranks. -/
structure GlobalCounts where
  outputSplits : List ℕ
  numTokensPerLocalExpert : List ℕ
  /-- set with two local experts or more -/
  globalInputTokensLocalExpertsIndices : Option (List ℤ)

/-- What a rank has dispatched: what it returns, and what it keeps for the combination. -/
structure Dispatched (X S : Type) where
  hiddenStates : List X
  groupList : List ℕ
  dynamicScale : Option (List S)
  inputSplits : List ℕ
  outputSplits : List ℕ
  reversedLocalInputPermutationMapping : List ℤ
  /-- left as it was by the exit for one local expert -/
  reversedGlobalInputPermutationMapping : Option (List ℤ)

variable (d : TokenDispatcherWithAll2AllV) (sort : List ℤ → List ℤ) (topK : ℕ)

/-- `_dispatch_preprocess` up to the gather of the counts, of `epSize` ranks. -/
def dispatchPreprocess (epSize : ℕ) (rank : QuantMoeRank R V) : Option (LocalRows V) := do
  let topkIds ← physicalIds rank.log2phy rank.topkIds
  let numLocalTokensPerExpert := histc topkIds.flatten d.numExperts
  let inputSplits ←
    if d.numExperts = epSize * d.numLocalExperts then viewSum epSize numLocalTokensPerExpert else none
  let (rows, mapping) ←
    npuMoeTokenPermute sort topK rank.hiddenStates topkIds.flatten topkIds.flatten.length
  return ⟨rows, mapping, numLocalTokensPerExpert, inputSplits⟩

/-- `expert_ids_per_ep_rank` -/
def expertIdsPerEpRank : List ℤ := (List.range d.numExperts).map fun i => ((i % d.numLocalExperts : ℕ) : ℤ)

/-- `_preprocess` from the gather of the counts on, on rank `epRank`. -/
def preprocess (epSize : ℕ) (numLocalTokensPerExpert : List (List ℕ)) (epRank : ℕ) :
    Option GlobalCounts := do
  let numGlobalTokensPerExpert ← viewRows epSize numLocalTokensPerExpert.flatten
  let numGlobalTokensPerLocalExpert := numGlobalTokensPerExpert.map fun row =>
    (row.drop (epRank * d.numLocalExperts)).take d.numLocalExperts
  return {
    outputSplits := numGlobalTokensPerLocalExpert.map List.sum
    numTokensPerLocalExpert := (List.range d.numLocalExperts).map fun e =>
      (numGlobalTokensPerLocalExpert.map (·.getD e 0)).sum
    globalInputTokensLocalExpertsIndices := if 1 < d.numLocalExperts then
      some (repeatInterleave d.expertIdsPerEpRank numGlobalTokensPerLocalExpert.flatten) else none }

variable {n : ℕ}

/-- Both, on every rank of the group. -/
def preprocessAll (ranks : Fin n → QuantMoeRank R V) : Option (List (LocalRows V) × List GlobalCounts) := do
  let locals ← (List.finRange n).mapM fun r => d.dispatchPreprocess sort topK n (ranks r)
  let globals ← (List.finRange n).mapM fun s : Fin n =>
    d.preprocess n (locals.map LocalRows.numLocalTokensPerExpert) s
  return (locals, globals)

/-- `async_all_to_all` with `input_splits` and `output_splits` of every rank. -/
def allToAllV (locals : List (LocalRows V)) (globals : List GlobalCounts) (rows : List (List X)) :
    Option (List (List X)) :=
  allToAllSizes rows (locals.map LocalRows.inputSplits) (globals.map GlobalCounts.outputSplits)

/-- `_dispatch_postprocess` without quantisation: the rows, and where each went. -/
def dispatchPostprocess (globalInputTokens : List X) (indices : Option (List ℤ)) :
    Option (List X × Option (List ℤ)) :=
  if d.numLocalExperts ≤ 1 then some (globalInputTokens, none)
  else do
    let indices ← indices
    let (globalInputTokens, mapping) ← npuMoeTokenPermute sort 1 globalInputTokens indices 0
    return (globalInputTokens, some mapping)

/-- `_dispatch_postprocess` with quantisation: the rows, their scales, and where each went. -/
def dispatchPostprocessQuant (globalInputTokens : List Q) (dynamicScale : List S)
    (indices : Option (List ℤ)) : Option (List Q × Option (List S) × Option (List ℤ)) :=
  if d.numLocalExperts ≤ 1 then some (globalInputTokens, none, none)
  else do
    let indices ← indices
    let activeNum := indices.length
    if activeNum ≤ 0 then
      return (globalInputTokens, some dynamicScale, some indices)
    else
      let (globalInputTokens, mapping, expandedScale) ←
        npuMoeInitRoutingV2 sort globalInputTokens indices dynamicScale activeNum d.numLocalExperts
      return (globalInputTokens, some expandedScale, some mapping)

/-- `token_dispatch` without quantisation, on every rank. -/
def tokenDispatch (ranks : Fin n → QuantMoeRank R V) : Option (List (Dispatched V Empty)) := do
  let (locals, globals) ← d.preprocessAll sort topK ranks
  let globalInputTokens ← allToAllV locals globals (locals.map LocalRows.permutatedLocalInputTokens)
  (locals.zip (globals.zip globalInputTokens)).mapM fun p => do
    let (hiddenStates, mapping) ←
      d.dispatchPostprocess sort p.2.2 p.2.1.globalInputTokensLocalExpertsIndices
    return ⟨hiddenStates, p.2.1.numTokensPerLocalExpert, none, p.1.inputSplits, p.2.1.outputSplits,
      p.1.reversedLocalInputPermutationMapping, mapping⟩

/-- `token_dispatch` with quantisation, on every rank; `npu_dynamic_quant` has a scale for each row. -/
def tokenDispatchQuant (quant : V → Q × S) (ranks : Fin n → QuantMoeRank R V) :
    Option (List (Dispatched Q S)) := do
  let (locals, globals) ← d.preprocessAll sort topK ranks
  let quantised := locals.map fun rank => rank.permutatedLocalInputTokens.map quant
  let dynamicScale ← allToAllV locals globals (quantised.map (List.map Prod.snd))
  let globalInputTokens ← allToAllV locals globals (quantised.map (List.map Prod.fst))
  (locals.zip (globals.zip (globalInputTokens.zip dynamicScale))).mapM fun p => do
    let (hiddenStates, dynamicScale, mapping) ← d.dispatchPostprocessQuant sort p.2.2.1 p.2.2.2
      p.2.1.globalInputTokensLocalExpertsIndices
    return ⟨hiddenStates, p.2.1.numTokensPerLocalExpert, dynamicScale, p.1.inputSplits, p.2.1.outputSplits,
      p.1.reversedLocalInputPermutationMapping, mapping⟩

/-- `_combine_preprocess` -/
def combinePreprocess (hiddenStates : List V) (mapping : Option (List ℤ)) : Option (List V) :=
  if 0 < hiddenStates.length ∧ 1 < d.numLocalExperts then do
    let mapping ← mapping
    npuMoeTokenUnpermute hiddenStates mapping
  else some hiddenStates

/-- `token_combine`, on every rank. -/
def tokenCombine [CommRing R] [AddCommGroup V] [Module R V] (ranks : Fin n → QuantMoeRank R V)
    (dispatched : List (Dispatched X S)) (mlpOutput : List (List V)) : Option (List (List V)) := do
  let hiddenStates ← (dispatched.zip mlpOutput).mapM fun p =>
    d.combinePreprocess p.2 p.1.reversedGlobalInputPermutationMapping
  let permutatedLocalInputTokens ← allToAllSizes hiddenStates (dispatched.map Dispatched.outputSplits)
    (dispatched.map Dispatched.inputSplits)
  ((List.finRange n).zip (dispatched.zip permutatedLocalInputTokens)).mapM fun p =>
    npuMoeTokenUnpermuteProbs topK p.2.2 p.2.1.reversedLocalInputPermutationMapping (ranks p.1).topkWeights

/-! ## What the exchange is to give -/

/-- **The rows of a rank with the scales of their quantisation**: one scale for each row, that of the choice
which the row was quantised from, and so what is dequantised is what was quantised. -/
structure KeepsScales (quant : V → Q × S) (x : RankChoice n R → V) (result : Dispatched Q S)
    (fed : List (RankChoice n R)) : Prop where
  rows : result.hiddenStates = fed.map fun c => (quant (x c)).1
  scales : result.dynamicScale = some (fed.map fun c => (quant (x c)).2)
  dequantised : ∀ dequant : Q → S → V, (∀ v, dequant (quant v).1 (quant v).2 = v) → ∀ scales,
    result.dynamicScale = some scales → List.zipWith dequant result.hiddenStates scales = fed.map x

/-- **The scales are kept on every rank**, with the rows of the choices that it owns. -/
def ScalesKept [Zero V] (quant : V → Q × S) (ranks : Fin n → QuantMoeRank R V)
    (routing : Fin n → List (List (ℤ × R))) : Prop :=
  ∃ dispatched, d.tokenDispatchQuant sort topK quant ranks = some dispatched ∧ dispatched.length = n ∧
    ∀ s : Fin n, ∃ result fed, dispatched[(s : ℕ)]? = some result ∧
      KeepsScales quant (RankChoice.row fun r => (ranks r).hiddenStates) result fed ∧
      FeedsOwned d.numLocalExperts routing s result.groupList fed

/-- **The exchange is correct**: the sizes agree, every rank feeds its experts the choices it owns, and every
token gets the weighted sum of its experts' outputs. -/
def AllToAllVCorrect [CommRing R] [AddCommGroup V] [Module R V] (ranks : Fin n → QuantMoeRank R V)
    (routing : Fin n → List (List (ℤ × R))) : Prop :=
  ∃ dispatched, d.tokenDispatch sort topK ranks = some dispatched ∧ dispatched.length = n ∧
    (∀ r s : Fin n, ∃ sender receiver size, dispatched[(r : ℕ)]? = some sender ∧
      dispatched[(s : ℕ)]? = some receiver ∧ sender.inputSplits[(s : ℕ)]? = some size ∧
      receiver.outputSplits[(r : ℕ)]? = some size) ∧
    (∀ s : Fin n, ∃ result fed, dispatched[(s : ℕ)]? = some result ∧
      result.hiddenStates = fed.map (RankChoice.row fun r => (ranks r).hiddenStates) ∧
      FeedsOwned d.numLocalExperts routing s result.groupList fed) ∧
    ∀ (f : ℕ → V → V) (mlpOutput : Fin n → List V),
      (∀ (s : Fin n) result, dispatched[(s : ℕ)]? = some result →
        IsGroupedOutput (fun e => f (s * d.numLocalExperts + e)) result.groupList result.hiddenStates
          (mlpOutput s)) →
      d.tokenCombine topK ranks dispatched ((List.finRange n).map mlpOutput) =
        some ((List.finRange n).map fun r => mixtures f (ranks r).hiddenStates (routing r))

/-! ## Before the exchange -/

section Rank

variable {sort topK} {m : ℕ} {routing : List (List (ℤ × R))}

/-- The counts of the experts. -/
theorem histc_eq {δ : Type} {id : δ → ℤ} {bins : ℕ} {ps : List δ} (h : ∀ p ∈ ps, 0 ≤ id p ∧ id p < bins) :
    histc (ps.map id) bins = (List.range bins).map fun e => (ps.filter fun p => (id p).toNat = e).length := by
  refine List.map_congr_left fun e _ => ?_
  rw [List.filter_map, List.length_map]
  refine congrArg List.length (List.filter_congr fun p hp => ?_)
  obtain ⟨hlow, hhigh⟩ := h p hp
  rw [Function.comp_apply, decide_eq_decide]
  omega

/-- What a rank has before the exchange, of its sorted choices. -/
def localRows [Zero V] (n m : ℕ) (hiddenStates : List V) (out : List (ℕ × (ℤ × R) × ℕ)) (dst : List ℤ) :
    LocalRows V where
  permutatedLocalInputTokens := out.map fun p => hiddenStates.getD p.1 0
  reversedLocalInputPermutationMapping := dst
  numLocalTokensPerExpert := (List.range (n * m)).map fun e =>
    (out.filter fun p => p.2.1.1.toNat = e).length
  inputSplits := groupSizes (fun p => p.2.1.1.toNat / m) n out

/-- **What a rank has before the exchange.** -/
theorem dispatchPreprocess_eq [Zero V] (hsort : Argsorts sort) (hn : 0 < n) (hlocal : 0 < m)
    {rank : QuantMoeRank R V} (h : IsQuantMoeRank (n * m) topK rank routing) :
    ∃ out dst, dispatchPreprocess ⟨n * m, m⟩ sort topK n rank =
        some (localRows n m rank.hiddenStates out dst) ∧
      IsSortedChoices routing out ∧ IsPlacedByToken topK routing out dst := by
  obtain ⟨out, dst, houtOf, hnumbers, hdst, hout, hplace⟩ := h.isMoeRank.exists_sortedChoices (hsort _)
  refine ⟨out, dst, ?_, hout, hplace⟩
  have hrows := h.isMoeRank.gather_tokens hout
  rw [← hnumbers] at hrows
  have hlength : (routing.map (List.map Prod.fst)).flatten.length = out.length := by
    rw [TokenDispatcherWithAllGather.choices_map_id, List.length_map, hout.perm.length_eq]
  have hcounts : histc (routing.map (List.map Prod.fst)).flatten (n * m) =
      (List.range (n * m)).map fun e => (out.filter fun p => p.2.1.1.toNat = e).length := by
    rw [TokenDispatcherWithAllGather.choices_map_id,
      histc_eq fun p hp => by exact_mod_cast h.isMoeRank.bounds_of_mem hp]
    exact List.map_congr_left fun e _ => ((hout.perm.filter _).length_eq).symm
  have hsplits := viewSum_eq hn hlocal (fun p : ℕ × (ℤ × R) × ℕ => p.2.1.1.toNat) out
  simp only [dispatchPreprocess, h.physicalIds_eq, npuMoeTokenPermute, hrows, hdst, hcounts, hsplits,
    Option.bind_eq_bind, Option.bind_some, Option.pure_def, if_true]
  rw [hlength]
  have htake : (if out.length = 0 then out.map fun p => rank.hiddenStates.getD p.1 0
      else (out.map fun p => rank.hiddenStates.getD p.1 0).take out.length) =
        out.map fun p => rank.hiddenStates.getD p.1 0 := by
    split
    · rfl
    · exact List.take_of_length_le (by rw [List.length_map])
  rw [htake]
  rfl

end Rank

/-! ## The counts of all ranks -/

section Group

variable {sort topK} {m : ℕ} {hiddenStates : Fin n → List V} {routing : Fin n → List (List (ℤ × R))}
  {out : Fin n → List (ℕ × (ℤ × R) × ℕ)}

/-- What rank `s` receives. -/
abbrev received (m : ℕ) (out : Fin n → List (ℕ × (ℤ × R) × ℕ)) (s : ℕ) : List (RankChoice n R) :=
  destined (RankChoice.owner m) (groupChoices out) s

/-- What rank `s` has from the counts of all ranks. -/
def globalCounts (m : ℕ) (out : Fin n → List (ℕ × (ℤ × R) × ℕ)) (s : ℕ) : GlobalCounts where
  outputSplits := destinedSizes (RankChoice.owner m) (groupChoices out) s
  numTokensPerLocalExpert := (List.range m).map fun e =>
    ((received m out s).filter (RankChoice.localExpert m · = e)).length
  globalInputTokensLocalExpertsIndices :=
    if 1 < m then some ((received m out s).map fun c => (c.localExpert m : ℤ)) else none

/-- The local experts of all experts, the same for every rank. -/
theorem expertIdsPerEpRank_eq {γ : Type} {ds : List γ} (hds : ds.length = n) :
    expertIdsPerEpRank ⟨n * m, m⟩ = ds.flatMap fun _ => (List.range m).map fun e : ℕ => (e : ℤ) := by
  have hblock : ∀ s : ℕ, ((List.range m).map (s * m + ·)).map (fun i => ((i % m : ℕ) : ℤ)) =
      (List.range m).map fun e : ℕ => (e : ℤ) := by
    intro s
    rw [List.map_map]
    refine List.map_congr_left fun e he => ?_
    rw [Function.comp_apply, Nat.mul_add_mod', Nat.mod_eq_of_lt (List.mem_range.mp he)]
  rw [expertIdsPerEpRank, range_mul, List.map_flatMap]
  simp only [hblock]
  rw [List.flatMap_def, List.flatMap_def, List.map_const', List.map_const', List.length_range, hds]

theorem localExpert_of_mem {s e : ℕ} (he : e < m) {row : List (RankChoice n R)} :
    ∀ c ∈ expertGroup m s row e, c.localExpert m = e := fun _ hc =>
  ((expert_eq_iff he).mpr (of_decide_eq_true (List.mem_filter.mp hc).2)).1

/-- **The keys that rank `s` rebuilds from the counts** are the local experts of what it receives. -/
theorem repeatInterleave_eq (hlocal : 0 < m) (hout : ∀ r, IsSortedChoices (routing r) (out r)) (s : ℕ) :
    repeatInterleave (expertIdsPerEpRank ⟨n * m, m⟩) ((groupChoices out).flatMap (expertSizes m s)) =
      (received m out s).map fun c => (c.localExpert m : ℤ) := by
  rw [expertIdsPerEpRank_eq length_groupChoices, received, destined_eq hlocal hout]
  exact repeatInterleave_groups (groupChoices out) m (expertGroup m s) (RankChoice.localExpert m)
    fun row _ e he => localExpert_of_mem he

/-- The rows of the ranks for a local expert. -/
theorem sum_getD_expertSizes {s e : ℕ} (he : e < m) :
    (((groupChoices out).map (expertSizes m s)).map (·.getD e 0)).sum =
      ((received m out s).filter (RankChoice.localExpert m · = e)).length := by
  rw [received, destined, List.filter_flatMap, List.length_flatMap, List.map_map]
  refine congrArg List.sum (List.map_congr_left fun row _ => ?_)
  rw [Function.comp_apply, filter_filter_owner he, expertSizes, List.getD_eq_getElem?_getD,
    List.getElem?_map, List.getElem?_range he]
  rfl

/-- **What a rank has from the counts of all ranks.** -/
theorem preprocess_eq (hn : 0 < n) (hlocal : 0 < m) (hout : ∀ r, IsSortedChoices (routing r) (out r))
    {s : ℕ} (hs : s < n) :
    preprocess ⟨n * m, m⟩ n ((List.finRange n).map fun r => (List.range (n * m)).map fun e =>
        ((out r).filter fun p => p.2.1.1.toNat = e).length) s =
      some (globalCounts m out s) := by
  have hcounts : ((List.finRange n).map fun r => (List.range (n * m)).map fun e =>
      ((out r).filter fun p => p.2.1.1.toNat = e).length).flatten =
        (groupChoices out).flatMap fun row => (List.range n).flatMap fun s => expertSizes m s row := by
    rw [← List.flatMap_def, groupChoices, List.flatMap_map]
    exact List.flatMap_congr fun r _ => counts_eq r
  have hview := viewRows_flatMap (groupChoices out)
    (g := fun row => (List.range n).flatMap fun s => expertSizes m s row) (m := (List.range n).length * m)
    (by rwa [length_groupChoices]) fun row _ => length_flatMap_const fun s _ => length_expertSizes s row
  rw [length_groupChoices] at hview
  have hslice : ((groupChoices out).map fun row => (List.range n).flatMap fun s => expertSizes m s row).map
      (fun row => (row.drop (s * m)).take m) = (groupChoices out).map (expertSizes m s) := by
    rw [List.map_map]
    refine List.map_congr_left fun row _ => ?_
    exact chunk_flatMap (fun s _ => length_expertSizes s row) (List.getElem?_range hs)
  have hindices := repeatInterleave_eq hlocal hout s
  rw [List.flatMap_def] at hindices
  simp only [preprocess, hcounts, hview, hslice, Option.bind_eq_bind, Option.bind_some, Option.pure_def,
    hindices, globalCounts, Option.some.injEq, GlobalCounts.mk.injEq, and_true]
  refine ⟨?_, List.map_congr_left fun e he => sum_getD_expertSizes (List.mem_range.mp he)⟩
  rw [List.map_map, destinedSizes]
  exact List.map_congr_left fun row _ => sum_expertSizes hlocal s row

/-- **What all ranks have before the exchange**, of their sorted choices. -/
theorem preprocessAll_eq [Zero V] (hsort : Argsorts sort) (hn : 0 < n) (hlocal : 0 < m)
    {ranks : Fin n → QuantMoeRank R V} (h : ∀ r, IsQuantMoeRank (n * m) topK (ranks r) (routing r)) :
    ∃ (out : Fin n → List (ℕ × (ℤ × R) × ℕ)) (dst : Fin n → List ℤ),
      preprocessAll ⟨n * m, m⟩ sort topK ranks =
        some ((List.finRange n).map fun r => localRows n m (ranks r).hiddenStates (out r) (dst r),
          (List.finRange n).map fun s : Fin n => globalCounts m out s) ∧
      (∀ r, IsSortedChoices (routing r) (out r)) ∧ ∀ r, IsPlacedByToken topK (routing r) (out r) (dst r) := by
  choose out dst hlocals hout hplace using fun r => dispatchPreprocess_eq hsort hn hlocal (h r)
  refine ⟨out, dst, ?_, hout, hplace⟩
  have hglobals : (List.finRange n).mapM (fun s : Fin n => preprocess ⟨n * m, m⟩ n
      ((List.finRange n).map fun r => (List.range (n * m)).map fun e =>
        ((out r).filter fun p => p.2.1.1.toNat = e).length) s) =
      some ((List.finRange n).map fun s : Fin n => globalCounts m out s) :=
    mapM_eq_some_map fun s _ => preprocess_eq hn hlocal hout s.isLt
  have hall : (List.finRange n).mapM (fun r => dispatchPreprocess ⟨n * m, m⟩ sort topK n (ranks r)) =
      some ((List.finRange n).map fun r => localRows n m (ranks r).hiddenStates (out r) (dst r)) :=
    mapM_eq_some_map fun r _ => hlocals r
  simp only [preprocessAll, hall, List.map_map, Function.comp_def, localRows, hglobals, Option.bind_eq_bind,
    Option.bind_some, Option.pure_def]

/-- **The exchange brings every rank what is destined for it.** -/
theorem allToAllV_eq [Zero V] (hrank : ∀ r, IsMoeRank (n * m) topK (hiddenStates r) (routing r))
    (hout : ∀ r, IsSortedChoices (routing r) (out r)) (dst : Fin n → List ℤ) (x : RankChoice n R → X) :
    allToAllV ((List.finRange n).map fun r => localRows n m (hiddenStates r) (out r) (dst r))
        ((List.finRange n).map fun s : Fin n => globalCounts m out s)
        ((List.finRange n).map fun r => (out r).map fun p => x (r, p)) =
      some ((List.finRange n).map fun s : Fin n => (received m out s).map x) := by
  have hsorted : ∀ row ∈ groupChoices out, row.Pairwise fun a b =>
      RankChoice.owner m a ≤ RankChoice.owner m b := groupChoices_sorted hout
  have hexchange := exchange_groups x hsorted (groupChoices_lt hrank hout)
  rw [length_groupChoices, ← List.map_coe_finRange_eq_range, List.map_map, List.map_map, groupChoices,
    List.map_map, List.map_map] at hexchange
  rw [allToAllV, List.map_map, List.map_map]
  have hsend : (List.finRange n).map (LocalRows.inputSplits ∘ fun r =>
      localRows n m (hiddenStates r) (out r) (dst r)) =
        (List.finRange n).map (groupSizes (RankChoice.owner m) n ∘ fun r => (out r).map (r, ·)) := by
    refine List.map_congr_left fun r _ => ?_
    rw [Function.comp_apply, Function.comp_apply, localRows, groupSizes, groupSizes]
    refine List.map_congr_left fun s _ => ?_
    rw [List.filter_map, List.length_map]
    rfl
  have hrows : (List.finRange n).map (fun r => (out r).map fun p => x (r, p)) =
      (List.finRange n).map (List.map x ∘ fun r => (out r).map (r, ·)) :=
    List.map_congr_left fun r _ => List.map_map.symm
  rw [hsend, hrows]
  exact hexchange

/-! ## After the exchange -/

/-- What rank `s` returns: with one local expert the rows as they came, and else by local expert. -/
structure Ordered (sort : List ℤ → List ℤ) (m : ℕ) (ds fed : List (RankChoice n R)) (back : List ℤ) :
    Prop where
  single : m ≤ 1 → fed = ds
  sortedBack : 1 < m → SortedBack sort (RankChoice.localExpert m) ds fed back

theorem exists_ordered (hsort : Argsorts sort) (m : ℕ) (ds : List (RankChoice n R)) :
    ∃ fed back, Ordered sort m ds fed back := by
  by_cases hm : m ≤ 1
  · exact ⟨ds, [], fun _ => rfl, fun h => absurd h (Nat.not_lt.mpr hm)⟩
  · obtain ⟨fed, back, h⟩ := exists_sortedBack hsort (RankChoice.localExpert m) ds
    exact ⟨fed, back, fun h => absurd h hm, fun _ => h⟩

namespace Ordered

variable {ds fed : List (RankChoice n R)} {back : List ℤ}

theorem perm (h : Ordered sort m ds fed back) : fed.Perm ds := by
  obtain hm | hm := le_or_gt m 1
  · exact h.single hm ▸ .refl _
  · exact (h.sortedBack hm).perm

theorem pairwise (h : Ordered sort m ds fed back) (hlocal : 0 < m) :
    fed.Pairwise fun a b => a.localExpert m ≤ b.localExpert m := by
  obtain hm | hm := le_or_gt m 1
  · obtain rfl : m = 1 := Nat.le_antisymm hm hlocal
    refine List.pairwise_of_forall fun a b => ?_
    rw [RankChoice.localExpert, RankChoice.localExpert, Nat.mod_one, Nat.mod_one]
  · exact (h.sortedBack hm).pairwise

/-- The keys of the received rows, where they are set. -/
abbrev indices (m : ℕ) (ds : List (RankChoice n R)) : Option (List ℤ) :=
  if 1 < m then some (ds.map fun c => (c.localExpert m : ℤ)) else none

/-- **The rows are returned in order**, and where each went is kept. -/
theorem dispatchPostprocess_eq (h : Ordered sort m ds fed back) (k : ℕ) (x : RankChoice n R → X) :
    dispatchPostprocess ⟨k, m⟩ sort (ds.map x) (indices m ds) =
      some (fed.map x, if 1 < m then some back else none) := by
  obtain hm | hm := le_or_gt m 1
  · rw [dispatchPostprocess, if_pos hm, h.single hm, if_neg (Nat.not_lt.mpr hm)]
  · have hsorted := h.sortedBack hm
    have hdiv : (sort (ds.map fun c => (c.localExpert m : ℤ))).map (· / ((1 : ℕ) : ℤ)) =
        sort (ds.map fun c => (c.localExpert m : ℤ)) := by
      simp
    simp only [dispatchPostprocess, if_neg (Nat.not_le.mpr hm), indices, if_pos hm, npuMoeTokenPermute, hdiv,
      hsorted.gather_eq, hsorted.scatter_eq, Option.bind_eq_bind, Option.bind_some, Option.pure_def, if_true]

/-- **With quantisation the scales are sorted along**, but for the exit for one local expert. -/
theorem dispatchPostprocessQuant_eq (h : Ordered sort m ds fed back) (k : ℕ) (x : RankChoice n R → Q)
    (scale : RankChoice n R → S) :
    ∃ mapping, dispatchPostprocessQuant ⟨k, m⟩ sort (ds.map x) (ds.map scale) (indices m ds) =
      some (fed.map x, if 1 < m then some (fed.map scale) else none, mapping) := by
  obtain hm | hm := le_or_gt m 1
  · exact ⟨none, by rw [dispatchPostprocessQuant, if_pos hm, h.single hm, if_neg (Nat.not_lt.mpr hm)]⟩
  · have hsorted := h.sortedBack hm
    have hlength := hsorted.perm.length_eq
    simp only [dispatchPostprocessQuant, if_neg (Nat.not_le.mpr hm), indices, if_pos hm, List.length_map,
      Option.bind_eq_bind, Option.bind_some, Option.pure_def]
    split
    · next hnone =>
      have hds := List.eq_nil_of_length_eq_zero (Nat.le_zero.mp hnone)
      have hfed := List.eq_nil_of_length_eq_zero (hlength.trans (Nat.le_zero.mp hnone))
      rw [hds, hfed]
      exact ⟨_, rfl⟩
    · have hbounds : ∀ e ∈ ds.map fun c => (c.localExpert m : ℤ), 0 ≤ e ∧ e < m := by
        intro e he
        obtain ⟨c, -, rfl⟩ := List.mem_map.mp he
        exact ⟨Int.natCast_nonneg _, by exact_mod_cast Nat.mod_lt _ (Nat.zero_lt_of_lt hm)⟩
      refine ⟨some back, ?_⟩
      simp only [npuMoeInitRoutingV2, if_pos hbounds, hsorted.gather_eq, hsorted.scatter_eq,
        Option.bind_eq_bind, Option.bind_some, Option.pure_def]
      rw [List.take_of_length_le (by rw [List.length_map, hlength]),
        List.take_of_length_le (by rw [List.length_map, hlength])]

/-- **The combination puts the outputs back** to where the rows were received. -/
theorem combinePreprocess_eq (h : Ordered sort m ds fed back) (k : ℕ) (y : RankChoice n R → V) :
    combinePreprocess ⟨k, m⟩ (fed.map y) (if 1 < m then some back else none) = some (ds.map y) := by
  rw [combinePreprocess]
  split
  · next hmany =>
    rw [if_pos hmany.2, Option.bind_eq_bind, Option.bind_some, npuMoeTokenUnpermute,
      (h.sortedBack hmany.2).gather_back]
  · next hfew =>
    obtain hm | hm := le_or_gt m 1
    · rw [h.single hm]
    · have hnone : (fed.map y).length = 0 := Nat.eq_zero_of_not_pos fun hpos => hfew ⟨hpos, hm⟩
      rw [List.length_map] at hnone
      have hds : ds = [] := List.eq_nil_of_length_eq_zero (h.perm.length_eq ▸ hnone)
      have hfed : fed = [] := List.eq_nil_of_length_eq_zero hnone
      rw [hds, hfed]

end Ordered

/-! ## The dispatch -/

/-- What rank `s` has dispatched, of the choices in the order in which it returns them. -/
def dispatchedRows (m : ℕ) (out : Fin n → List (ℕ × (ℤ × R) × ℕ)) (dst : Fin n → List ℤ) (rows : List X)
    (scale : Option (List S)) (mapping : Option (List ℤ)) (s : Fin n) : Dispatched X S where
  hiddenStates := rows
  groupList := (globalCounts m out s).numTokensPerLocalExpert
  dynamicScale := scale
  inputSplits := groupSizes (fun p => p.2.1.1.toNat / m) n (out s)
  outputSplits := destinedSizes (RankChoice.owner m) (groupChoices out) s
  reversedLocalInputPermutationMapping := dst s
  reversedGlobalInputPermutationMapping := mapping

section Dispatch

variable {ranks : Fin n → QuantMoeRank R V} {dst : Fin n → List ℤ} {fed : Fin n → List (RankChoice n R)}
  {back : Fin n → List ℤ}

/-- Rows that are made of the choices before the exchange. -/
theorem map_localRows [Zero V] (ranks : Fin n → QuantMoeRank R V) (m : ℕ)
    (out : Fin n → List (ℕ × (ℤ × R) × ℕ)) (dst : Fin n → List ℤ) (g : V → X) :
    ((List.finRange n).map fun r => localRows n m (ranks r).hiddenStates (out r) (dst r)).map
        (fun rank => rank.permutatedLocalInputTokens.map g) =
      (List.finRange n).map fun r => (out r).map fun p =>
        g (RankChoice.row (fun r => (ranks r).hiddenStates) (r, p)) := by
  rw [List.map_map]
  exact List.map_congr_left fun r _ => List.map_map

/-- **What every rank has dispatched.** -/
theorem tokenDispatch_eq [Zero V] (hlocals : preprocessAll ⟨n * m, m⟩ sort topK ranks =
      some ((List.finRange n).map fun r => localRows n m (ranks r).hiddenStates (out r) (dst r),
        (List.finRange n).map fun s : Fin n => globalCounts m out s))
    (hrank : ∀ r, IsMoeRank (n * m) topK (ranks r).hiddenStates (routing r))
    (hout : ∀ r, IsSortedChoices (routing r) (out r))
    (hfed : ∀ s : Fin n, Ordered sort m (received m out s) (fed s) (back s)) :
    tokenDispatch ⟨n * m, m⟩ sort topK ranks = some ((List.finRange n).map fun s => dispatchedRows m out dst
      ((fed s).map (RankChoice.row fun r => (ranks r).hiddenStates)) none (if 1 < m then some (back s) else none)
        s) := by
  have hexchange := allToAllV_eq hrank hout dst (RankChoice.row fun r => (ranks r).hiddenStates)
  have hrows := map_localRows ranks m out dst id
  simp only [List.map_id, id_eq] at hrows
  simp only [tokenDispatch, hlocals, Option.bind_eq_bind, Option.bind_some, hrows, hexchange,
    List.zip_map']
  refine mapM_map_eq_some fun s _ => ?_
  have hpost := (hfed s).dispatchPostprocess_eq (n * m) (RankChoice.row fun r => (ranks r).hiddenStates)
  rw [Ordered.indices] at hpost
  simp only [globalCounts, hpost, Option.bind_some]
  rfl

/-- **What every rank has dispatched with quantisation.** -/
theorem tokenDispatchQuant_eq [Zero V] (hlocals : preprocessAll ⟨n * m, m⟩ sort topK ranks =
      some ((List.finRange n).map fun r => localRows n m (ranks r).hiddenStates (out r) (dst r),
        (List.finRange n).map fun s : Fin n => globalCounts m out s))
    (hrank : ∀ r, IsMoeRank (n * m) topK (ranks r).hiddenStates (routing r))
    (hout : ∀ r, IsSortedChoices (routing r) (out r))
    (hfed : ∀ s : Fin n, Ordered sort m (received m out s) (fed s) (back s)) (quant : V → Q × S) :
    ∃ mapping : Fin n → Option (List ℤ), tokenDispatchQuant ⟨n * m, m⟩ sort topK quant ranks =
      some ((List.finRange n).map fun s => dispatchedRows m out dst
        ((fed s).map fun c => (quant (c.row fun r => (ranks r).hiddenStates)).1)
        (if 1 < m then some ((fed s).map fun c => (quant (c.row fun r => (ranks r).hiddenStates)).2)
          else none) (mapping s) s) := by
  choose mapping hpost using fun s : Fin n => (hfed s).dispatchPostprocessQuant_eq (n * m)
    (fun c => (quant (c.row fun r => (ranks r).hiddenStates)).1)
    (fun c => (quant (c.row fun r => (ranks r).hiddenStates)).2)
  refine ⟨mapping, ?_⟩
  have hexchange := fun {β : Type} (x : RankChoice n R → β) => allToAllV_eq hrank hout dst x
  have hscales := hexchange fun c => (quant (c.row fun r => (ranks r).hiddenStates)).2
  have htokens := hexchange fun c => (quant (c.row fun r => (ranks r).hiddenStates)).1
  have hrows := fun {β : Type} (g : V → β) =>
    map_localRows ranks m out dst g
  simp only [tokenDispatchQuant, hlocals, Option.bind_eq_bind, Option.bind_some]
  simp only [List.map_map, Function.comp_def] at hrows ⊢
  simp only [hrows, hscales, htokens, Option.bind_some, List.zip_map']
  refine mapM_map_eq_some fun s _ => ?_
  have hposts := hpost s
  rw [Ordered.indices] at hposts
  simp only [globalCounts, hposts, Option.bind_some]
  rfl

/-- **The combination brings the outputs back** to where the choices were sorted to. -/
theorem tokenCombine_eq [CommRing R] [AddCommGroup V] [Module R V]
    (hrank : ∀ r, IsMoeRank (n * m) topK (ranks r).hiddenStates (routing r))
    (hout : ∀ r, IsSortedChoices (routing r) (out r))
    (hfed : ∀ s : Fin n, Ordered sort m (received m out s) (fed s) (back s)) (rows : Fin n → List X)
    (scale : Option (List S)) (output : RankChoice n R → V) :
    tokenCombine ⟨n * m, m⟩ topK ranks ((List.finRange n).map fun s =>
        dispatchedRows m out dst (rows s) scale (if 1 < m then some (back s) else none) s)
        ((List.finRange n).map fun s => (fed s).map output) =
      ((List.finRange n).mapM fun r => npuMoeTokenUnpermuteProbs topK
        ((out r).map fun p => output (r, p)) (dst r) (ranks r).topkWeights) := by
  have hback : ((List.finRange n).map fun s => (dispatchedRows m out dst (rows s) scale
      (if 1 < m then some (back s) else none) s, (fed s).map output)).mapM (fun p =>
        combinePreprocess ⟨n * m, m⟩ p.2 p.1.reversedGlobalInputPermutationMapping) =
      some ((List.finRange n).map fun s : Fin n => (received m out s).map output) :=
    mapM_map_eq_some fun s _ => (hfed s).combinePreprocess_eq (n * m) output
  have hsorted : ∀ row ∈ groupChoices out, row.Pairwise fun a b =>
      RankChoice.owner m a ≤ RankChoice.owner m b := groupChoices_sorted hout
  have hreturned := Machinery.exchange_back output hsorted (groupChoices_lt hrank hout)
  rw [length_groupChoices, ← List.map_coe_finRange_eq_range, List.map_map, List.map_map, groupChoices,
    List.map_map, List.map_map] at hreturned
  have hsend : (List.finRange n).map (groupSizes (RankChoice.owner m) n ∘ fun r => (out r).map (r, ·)) =
      (List.finRange n).map fun r => groupSizes (fun p => p.2.1.1.toNat / m) n (out r) := by
    refine List.map_congr_left fun r _ => ?_
    rw [Function.comp_apply, groupSizes, groupSizes]
    refine List.map_congr_left fun s _ => ?_
    rw [List.filter_map, List.length_map]
    rfl
  have hrows : (List.finRange n).map (List.map output ∘ fun r => (out r).map (r, ·)) =
      (List.finRange n).map fun r => (out r).map fun p => output (r, p) :=
    List.map_congr_left fun r _ => List.map_map
  rw [hsend, hrows] at hreturned
  rw [tokenCombine, List.zip_map', hback, Option.bind_eq_bind, Option.bind_some, List.map_map, List.map_map]
  have hexchange : allToAllSizes ((List.finRange n).map fun s : Fin n => (received m out s).map output)
      ((List.finRange n).map (Dispatched.outputSplits ∘ fun s => dispatchedRows m out dst (rows s) scale
        (if 1 < m then some (back s) else none) s))
      ((List.finRange n).map (Dispatched.inputSplits ∘ fun s => dispatchedRows m out dst (rows s) scale
        (if 1 < m then some (back s) else none) s)) =
      some ((List.finRange n).map fun r => (out r).map fun p => output (r, p)) := hreturned
  rw [hexchange, Option.bind_some, List.zip_map']
  conv_lhs => arg 2; arg 1; rw [← List.map_id (List.finRange n)]
  rw [List.zip_map', List.mapM_map]
  rfl

theorem getElem?_dispatched {g : Fin n → Dispatched X S} (s : Fin n) :
    ((List.finRange n).map g)[(s : ℕ)]? = some (g s) := by
  rw [List.getElem?_map, List.getElem?_eq_getElem (by rw [List.length_finRange]; exact s.isLt),
    List.getElem_finRange]
  rfl

/-- What a rank returns feeds its experts right. -/
theorem Ordered.feeds (hlocal : 0 < m) (hout : ∀ r, IsSortedChoices (routing r) (out r)) {s : Fin n}
    (h : Ordered sort m (received m out s) (fed s) (back s)) :
    FeedsOwned m routing s (globalCounts m out s).numTokensPerLocalExpert (fed s) := by
  have hcounts : (globalCounts m out s).numTokensPerLocalExpert = (List.range m).map fun e =>
      ((fed s).filter (RankChoice.localExpert m · = e)).length :=
    List.map_congr_left fun e _ => ((h.perm.filter _).length_eq).symm
  rw [hcounts]
  exact feedsOwned hout h.perm (h.pairwise hlocal)

end Dispatch

end Group

/-- The settings that a constructor leaves. -/
theorem init_eq {d : TokenDispatcherWithAll2AllV} {numExperts numGlobalRedundantExperts m k : ℕ}
    (h : init numExperts numGlobalRedundantExperts m = some d) (hexperts : d.numExperts = k) :
    d = ⟨k, m⟩ ∧ 0 < m := by
  rw [init] at h
  split at h
  · next hpos =>
    cases h
    cases hexperts
    exact ⟨rfl, hpos⟩
  · cases h

/-- **The exit for one local expert returns no scales**, whatever it is called with. -/
theorem dynamicScale_eq_none {d : TokenDispatcherWithAll2AllV} (hsingle : d.numLocalExperts ≤ 1)
    {sort : List ℤ → List ℤ} {topK : ℕ} {quant : V → Q × S} {ranks : Fin n → QuantMoeRank R V}
    {dispatched : List (Dispatched Q S)}
    (h : d.tokenDispatchQuant sort topK quant ranks = some dispatched) :
    ∀ result ∈ dispatched, result.dynamicScale = none := by
  simp only [tokenDispatchQuant, Option.bind_eq_bind, Option.bind_eq_some_iff] at h
  obtain ⟨⟨locals, globals⟩, -, scales, -, tokens, -, h⟩ := h
  intro result hresult
  obtain ⟨i, hi⟩ := List.mem_iff_getElem?.mp hresult
  rw [(getElem?_of_mapM h).2, Option.bind_eq_some_iff] at hi
  obtain ⟨p, -, hp⟩ := hi
  rw [dispatchPostprocessQuant, if_pos hsingle, Option.bind_some] at hp
  cases hp
  rfl

theorem not_scalesKept [Zero V] (hn : 0 < n) {d : TokenDispatcherWithAll2AllV}
    (hsingle : d.numLocalExperts ≤ 1) {sort : List ℤ → List ℤ} {topK : ℕ} {quant : V → Q × S}
    {ranks : Fin n → QuantMoeRank R V} {routing : Fin n → List (List (ℤ × R))} :
    ¬ d.ScalesKept sort topK quant ranks routing := by
  rintro ⟨dispatched, hdispatched, -, hall⟩
  obtain ⟨result, order, hresult, hkeeps, -⟩ := hall ⟨0, hn⟩
  have hnone := dynamicScale_eq_none hsingle hdispatched result (List.mem_of_getElem? hresult)
  rw [hkeeps.scales] at hnone
  cases hnone

/-- **The scales are kept with the rows exactly when there are two local experts or more**, for every group,
routing and sort. -/
theorem tokenDispatchQuant_keepsScales_iff [Zero V] (hn : 0 < n) {numExperts numGlobalRedundantExperts m : ℕ}
    {d : TokenDispatcherWithAll2AllV} (hinit : init numExperts numGlobalRedundantExperts m = some d)
    (hexperts : d.numExperts = n * m) {sort : List ℤ → List ℤ} (hsort : Argsorts sort) {topK : ℕ}
    (quant : V → Q × S) {ranks : Fin n → QuantMoeRank R V} {routing : Fin n → List (List (ℤ × R))}
    (h : ∀ r, IsQuantMoeRank (n * m) topK (ranks r) (routing r)) :
    d.ScalesKept sort topK quant ranks routing ↔ 1 < m := by
  obtain ⟨rfl, hlocal⟩ := init_eq hinit hexperts
  obtain ⟨out, dst, hlocals, hout, -⟩ := preprocessAll_eq hsort hn hlocal h
  choose fed back hfed using fun s : Fin n => exists_ordered hsort m (received m out s)
  obtain ⟨mapping, hdispatch⟩ :=
    tokenDispatchQuant_eq hlocals (fun r => (h r).isMoeRank) hout hfed quant
  constructor
  · exact fun hkept => not_le.mp fun hsingle => not_scalesKept hn hsingle hkept
  · intro hm
    refine ⟨_, hdispatch, by rw [List.length_map, List.length_finRange], fun s =>
      ⟨_, fed s, getElem?_dispatched s, ⟨rfl, by rw [dispatchedRows, if_pos hm], ?_⟩,
        (hfed s).feeds hlocal hout⟩⟩
    intro dequant hdequant scales hscales
    rw [dispatchedRows, if_pos hm] at hscales
    cases hscales
    rw [dispatchedRows, List.zipWith_map, List.zipWith_self]
    exact List.map_congr_left fun c _ => hdequant _

/-- A rank with two tokens, one for the last and one for the first of four experts. -/
def twoTokens : QuantMoeRank ℤ ℤ where
  hiddenStates := [5, 7]
  routing := [[(3, 2)], [(0, 1)]]
  log2phy := none

theorem twoTokens_isQuantMoeRank : IsQuantMoeRank (2 * 2) 1 twoTokens [[(3, 2)], [(0, 1)]] where
  physicalIds_eq := rfl
  topkWeights_eq := rfl
  isMoeRank := ⟨rfl, by decide, by decide⟩

theorem tokenDispatchQuant_keepsScales_iff_twoRanks :
    ScalesKept ⟨4, 2⟩ argsort 1 (fun x : ℤ => (x, x)) (fun _ : Fin 2 => twoTokens)
        (fun _ => [[(3, 2)], [(0, 1)]]) ↔ 1 < 2 :=
  tokenDispatchQuant_keepsScales_iff Nat.two_pos (rfl : init 4 0 2 = some ⟨4, 2⟩) rfl argsort_argsorts
    (fun x : ℤ => (x, x)) fun _ => twoTokens_isQuantMoeRank

/-- Two ranks with one expert each: the rows arrive, and their scales are left out. -/
theorem scales_not_kept :
    init 2 0 1 = some ⟨2, 1⟩ ∧ (∀ _ : Fin 2, IsQuantMoeRank (2 * 1) 1 oneChoice [[(0, 2)]]) ∧
      (tokenDispatchQuant ⟨2, 1⟩ argsort 1 (fun x : ℤ => (x, x)) (fun _ : Fin 2 => oneChoice)).isSome ∧
      ¬ ScalesKept ⟨2, 1⟩ argsort 1 (fun x : ℤ => (x, x)) (fun _ : Fin 2 => oneChoice)
        fun _ => [[(0, 2)]] :=
  ⟨rfl, fun _ => oneChoice_isQuantMoeRank, by decide +kernel, not_scalesKept Nat.two_pos le_rfl⟩

/-- **The exchange is correct**, for every group, routing and sort. -/
theorem allToAllV_correct [CommRing R] [AddCommGroup V] [Module R V] (hn : 0 < n)
    {numExperts numGlobalRedundantExperts m : ℕ} {d : TokenDispatcherWithAll2AllV}
    (hinit : init numExperts numGlobalRedundantExperts m = some d) (hexperts : d.numExperts = n * m)
    {sort : List ℤ → List ℤ} (hsort : Argsorts sort) {topK : ℕ} {ranks : Fin n → QuantMoeRank R V}
    {routing : Fin n → List (List (ℤ × R))} (h : ∀ r, IsQuantMoeRank (n * m) topK (ranks r) (routing r)) :
    d.AllToAllVCorrect sort topK ranks routing := by
  obtain ⟨rfl, hlocal⟩ := init_eq hinit hexperts
  obtain ⟨out, dst, hlocals, hout, hplace⟩ := preprocessAll_eq hsort hn hlocal h
  choose fed back hfed using fun s : Fin n => exists_ordered hsort m (received m out s)
  have hrank := fun r => (h r).isMoeRank
  refine ⟨_, tokenDispatch_eq hlocals hrank hout hfed, by rw [List.length_map, List.length_finRange],
    fun r s => ?_, fun s => ⟨_, fed s, getElem?_dispatched s, rfl, (hfed s).feeds hlocal hout⟩,
    fun f mlpOutput hmlp => ?_⟩
  · have hrow : (groupChoices out)[(r : ℕ)]? = some ((out r).map (r, ·)) := by
      rw [groupChoices, List.getElem?_map, List.getElem?_eq_getElem (by
        rw [List.length_finRange]
        exact r.isLt), List.getElem_finRange]
      rfl
    refine ⟨_, _, _, getElem?_dispatched r, getElem?_dispatched s,
      by rw [dispatchedRows, groupSizes, List.getElem?_map, List.getElem?_range s.isLt]; rfl, ?_⟩
    rw [dispatchedRows, destinedSizes, List.getElem?_map, hrow, Option.map_some, List.filter_map,
      List.length_map]
    rfl
  · set output : RankChoice n R → V := fun c => f c.expert (c.row fun r => (ranks r).hiddenStates)
      with houtput
    have hmlpEq : (List.finRange n).map mlpOutput = (List.finRange n).map fun s => (fed s).map output :=
      List.map_congr_left fun s _ =>
        ((hfed s).feeds hlocal hout).output_eq hlocal (hmlp s _ (getElem?_dispatched s))
    rw [hmlpEq, tokenCombine_eq hrank hout hfed]
    refine mapM_eq_some_map fun r _ => ?_
    rw [(h r).topkWeights_eq]
    exact finalizeByToken_eq f (ranks r).hiddenStates (hplace r)

theorem allToAllV_correct_twoRanks :
    AllToAllVCorrect ⟨4, 2⟩ argsort 1 (fun _ : Fin 2 => twoTokens) fun _ => [[(3, 2)], [(0, 1)]] :=
  allToAllV_correct Nat.two_pos (rfl : init 4 0 2 = some ⟨4, 2⟩) rfl argsort_argsorts
    fun _ => twoTokens_isQuantMoeRank

end TokenDispatcherWithAll2AllV

end VllmAscend
