import VllmAscend.Machinery.FloatRounding
import VllmAscend.Ops.FusedExpertsWithAll2All

/-!
# Ops/FusedExpertsWithAll2AllQuant — the exchange of quantised rows

    rank r     quantised choices, sorted by physical expert     │ rank 0's │ rank 1's │ …
    counts     experts of rank 0  │ experts of rank 1 │ …        told to everyone first
    rank s     re-routed by expert, and back by a sort in float32

`fused_experts_with_all2all` of `quantization/w8a8_dynamic` with an expert map.  The ids are mapped to
physical experts, the counts of the experts are exchanged, and their sums are the sizes.  Its collectives
name no group, so they run over all ranks that there are, not over the ranks of the expert group
(`epSize_eq`); and the re-routing is undone by sorting indices in `float32`, which tells them apart up to
`2 ^ 24`.
-/

namespace VllmAscend

open Machinery
open TokenDispatcherWithAllGather (choices rowOf mem_choices)

variable {R V Q S : Type}

/-- What a rank brings to the quantised exchange. -/
structure QuantMoeRank (R V : Type) extends MoeRank R V where
  log2phy : Option (List ℤ)

/-- `log2phy[topk_ids]`, if there is a map. -/
def physicalIds (log2phy : Option (List ℤ)) (topkIds : List (List ℤ)) : Option (List (List ℤ)) :=
  match log2phy with
  | some log2phy => topkIds.mapM (gather log2phy)
  | none => some topkIds

/-- What a rank has quantised and sorted before the first exchange. -/
structure QuantisedRows (Q S : Type) where
  quantizedTokens : List Q
  expandedRowIdx : List ℤ
  globalExpertTokens : List ℕ
  tokenScales : List S

/-- `npu_moe_init_routing_quant`: the choices are numbered token by token. -/
def npuMoeInitRoutingQuant (quant : V → Q × S) (hiddenStates : List V) (expertIdx : List (List ℤ))
    (expertNum : ℕ) (sortIndices : List ℤ) : Option (QuantisedRows Q S) := do
  let expandedExpertIdx ← gather expertIdx.flatten sortIndices
  let expandedX ← gather
    (List.zipWith (fun x row => List.replicate row.length x) hiddenStates expertIdx).flatten sortIndices
  let expandedRowIdx ← scatter (List.replicate sortIndices.length 0) sortIndices
    (arange sortIndices.length)
  let expertTokens ← bincount expandedExpertIdx expertNum
  return ⟨expandedX.map fun x => (quant x).1, expandedRowIdx, expertTokens,
    expandedX.map fun x => (quant x).2⟩

/-- `xs.view(top_k, -1).permute(1, 0).view(-1)` -/
def viewPermute (topK : ℕ) (xs : List ℤ) : Option (List ℤ) :=
  if topK ∣ xs.length then
    some (((List.range (xs.length / topK)).map fun t =>
      (List.range topK).map fun k => xs.getD (k * (xs.length / topK) + t) 0).flatten)
  else none

/-- `init_routing_quant`, where there is no operator for it. -/
def initRoutingQuant (quant : V → Q × S) (hiddenStates : List V) (topK : ℕ) (topkIds : List (List ℤ))
    (globalNumExperts : ℕ) (sortIndices : List ℤ) : Option (QuantisedRows Q S) := do
  let numTokens := hiddenStates.length
  let (hiddenStates, expandedRowIdx, expandedExpertIdx) ←
    npuMoeInitRouting hiddenStates (rowIdx numTokens topK) topkIds numTokens topK sortIndices
  let expandedRowIdx ← viewPermute topK expandedRowIdx
  let globalExpertTokens ← bincount expandedExpertIdx globalNumExperts
  return ⟨hiddenStates.map fun x => (quant x).1, expandedRowIdx, globalExpertTokens,
    hiddenStates.map fun x => (quant x).2⟩

/-- `xs.view(n, -1)` -/
def viewRows (n : ℕ) (xs : List ℕ) : Option (List (List ℕ)) :=
  if n ∣ xs.length then
    some ((List.range n).map fun s => (xs.drop (s * (xs.length / n))).take (xs.length / n))
  else none

/-- `npu_moe_re_routing`: the rows by expert and then by rank, their scales, the index of each, and how many
rows each expert has. -/
def npuMoeReRouting (tokens : List Q) (expertTokenNumPerRank : List (List ℕ)) (perTokenScales : List S) :
    Option (List Q × List S × List ℤ × List ℤ) := do
  let numExperts := (expertTokenNumPerRank.headD []).length
  let permuteTokenIdx := byColumn expertTokenNumPerRank numExperts (arange tokens.length)
  let permuteTokens ← gather tokens permuteTokenIdx
  let permutePerTokenScales ← gather perTokenScales permuteTokenIdx
  let expertTokenNum := (List.range numExperts).map fun e =>
    (((expertTokenNumPerRank.map (·.getD e 0)).sum : ℕ) : ℤ)
  return (permuteTokens, permutePerTokenScales, permuteTokenIdx, expertTokenNum)

/-- `npu_moe_finalize_routing` with `drop_pad_mode = 2`: the rows are numbered token by token. -/
def npuMoeFinalizeRoutingByToken [CommRing R] [AddCommGroup V] [Module R V] (topK : ℕ)
    (expandedX : List V) (scales : List (List R)) (expandedSrcToDstRow : List ℤ) : Option (List V) :=
  scales.zipIdx.mapM fun row => do
    let outs ← row.1.zipIdx.mapM fun scale => do
      let dst ← item expandedSrcToDstRow ((row.2 * topK + scale.2 : ℕ) : ℤ)
      let x ← item expandedX dst
      return scale.1 • x
    return outs.sum

/-- What the collectives of the ranks have exchanged.  The sizes a rank sends are called
`gather_size_list`, those it receives `scatter_size_list`. -/
structure QuantExchange (Q S : Type) where
  gatherSizes : List (List ℕ)
  gatherSizeList : List (List ℕ)
  scatterSizeList : List (List ℕ)
  gatheredTokens : List (List Q)
  dynamicScale : List (List S)

section Phases

variable (hasInitRoutingQuant : Bool) (globalNumExperts topK : ℕ) (quant : V → Q × S)

/-- Up to the first exchange; `globalNumExperts` are the logical and the redundant experts. -/
def scatterRowsQuant (rank : QuantMoeRank R V) (sortIndices : List ℤ) : Option (QuantisedRows Q S) := do
  let topkIds ← physicalIds rank.log2phy rank.topkIds
  if hasInitRoutingQuant then
    npuMoeInitRoutingQuant quant rank.hiddenStates topkIds globalNumExperts sortIndices
  else
    initRoutingQuant quant rank.hiddenStates topK topkIds globalNumExperts sortIndices

variable {n : ℕ}

/-- The first phase on every rank that there is. -/
def scatterAllQuant (ranks : Fin n → QuantMoeRank R V) (sortIndices : Fin n → List ℤ) :
    Option (List (QuantisedRows Q S)) :=
  (List.finRange n).mapM fun r =>
    scatterRowsQuant hasInitRoutingQuant globalNumExperts topK quant (ranks r) (sortIndices r)

/-- `all_to_all_single` of the counts: over all `n` ranks, in equal splits. -/
def exchangeCounts (n : ℕ) (counts : List (List ℕ)) : Option (List (List ℕ)) :=
  if ∀ tokens ∈ counts, n ∣ tokens.length then some ((List.range n).map (allToAllSingle counts)) else none

/-- The exchanges of the counts, the rows and the scales.  The sizes are summed up for `epSize` ranks, and
the collectives run over all `n`. -/
def exchangeQuant (epSize n : ℕ) (scattered : List (QuantisedRows Q S)) : Option (QuantExchange Q S) := do
  let globalExpertTokens := scattered.map QuantisedRows.globalExpertTokens
  let gatherSizes ← exchangeCounts n globalExpertTokens
  let gatherSizeList ← globalExpertTokens.mapM (viewSum epSize)
  let scatterSizeList ← gatherSizes.mapM (viewSum epSize)
  let gatheredTokens ← allToAllSizes (scattered.map QuantisedRows.quantizedTokens) gatherSizeList
    scatterSizeList
  let dynamicScale ← allToAllSizes (scattered.map QuantisedRows.tokenScales) gatherSizeList
    scatterSizeList
  return ⟨gatherSizes, gatherSizeList, scatterSizeList, gatheredTokens, dynamicScale⟩

/-- The re-routing on rank `s`. -/
def reRoute (epSize : ℕ) (exchange : QuantExchange Q S) (s : ℕ) :
    Option (List Q × List S × List ℤ × List ℤ) := do
  let expertTokenNumPerRank ← viewRows epSize (exchange.gatherSizes.getD s [])
  npuMoeReRouting (exchange.gatheredTokens.getD s []) expertTokenNumPerRank
    (exchange.dynamicScale.getD s [])

/-- From the outputs of the experts of every rank to the tokens of every rank; `resortedIdx` is the sort
of the indices. -/
def finishAllQuant [CommRing R] [AddCommGroup V] [Module R V] (ranks : Fin n → QuantMoeRank R V)
    (scattered : List (QuantisedRows Q S)) (exchange : QuantExchange Q S) (mlpOutput : Fin n → List V)
    (resortedIdx : Fin n → List ℤ) : Option (List (List V)) := do
  let reorderedOutputs ← (List.finRange n).mapM fun s => gather (mlpOutput s) (resortedIdx s)
  let hiddenStates ← allToAllSizes reorderedOutputs exchange.scatterSizeList exchange.gatherSizeList
  ((List.finRange n).zip (scattered.zip hiddenStates)).mapM fun p =>
    npuMoeFinalizeRoutingByToken topK p.2.2 (ranks p.1).topkWeights p.2.1.expandedRowIdx

end Phases

/-! ## What the exchange is to give -/

/-- What the experts of every rank and the sort in `float32` may return: an expert takes a row and its
scale. -/
def IsQuantRun {n : ℕ} (epSize globalNumExperts : ℕ) (exchange : QuantExchange Q S)
    (f : ℕ → Q × S → V) (mlpOutput : Fin n → List V) (resortedIdx : Fin n → List ℤ) : Prop :=
  ∀ (s : Fin n) tokens scales inverseIndices expertTokens,
    reRoute epSize exchange s = some (tokens, scales, inverseIndices, expertTokens) →
      IsGroupedOutput (fun e => f (s * (globalNumExperts / epSize) + e)) (groupCounts 1 expertTokens)
        (tokens.zip scales) (mlpOutput s) ∧
      IsArgsort (fun a b : ℚ => decide (a < b)) (inverseIndices.map fun i : ℤ => toFloat32 i)
        (resortedIdx s)

/-- **The quantised exchange is correct**, whatever the sorts do among equal keys: the sizes agree, every
rank feeds its experts the choices it owns, each row with its scale, and every token gets the weighted sum
of its experts' outputs. -/
def QuantAllToAllCorrect [CommRing R] [AddCommGroup V] [Module R V] {n : ℕ} (hasInitRoutingQuant : Bool)
    (epSize globalNumExperts topK : ℕ) (quant : V → Q × S) (ranks : Fin n → QuantMoeRank R V)
    (routing : Fin n → List (List (ℤ × R))) : Prop :=
  ∀ sortIndices : Fin n → List ℤ,
    (∀ r, IsArgsort (fun a b : ℤ => decide (a < b)) ((routing r).map (List.map Prod.fst)).flatten
      (sortIndices r)) →
    ∃ scattered exchange,
      scatterAllQuant hasInitRoutingQuant globalNumExperts topK quant ranks sortIndices = some scattered ∧
      exchangeQuant epSize n scattered = some exchange ∧
      (∀ r s : Fin n, ∃ sent received size, exchange.gatherSizeList[(r : ℕ)]? = some sent ∧
        sent[(s : ℕ)]? = some size ∧ exchange.scatterSizeList[(s : ℕ)]? = some received ∧
        received[(r : ℕ)]? = some size) ∧
      (∀ s : Fin n, ∃ fed inverseIndices expertTokens,
        reRoute epSize exchange s =
          some (fed.map fun c => (quant (c.row fun r => (ranks r).hiddenStates)).1,
            fed.map fun c => (quant (c.row fun r => (ranks r).hiddenStates)).2,
            inverseIndices, expertTokens) ∧
          FeedsOwned (globalNumExperts / epSize) routing s (groupCounts 1 expertTokens) fed) ∧
      ∀ f mlpOutput resortedIdx, IsQuantRun epSize globalNumExperts exchange f mlpOutput resortedIdx →
        finishAllQuant topK ranks scattered exchange mlpOutput resortedIdx =
          some ((List.finRange n).map fun r =>
            mixtures (fun e x => f e (quant x)) (ranks r).hiddenStates (routing r))

/-- A rank's inputs, and the physical experts that its ids name. -/
structure IsQuantMoeRank (globalNumExperts topK : ℕ) (rank : QuantMoeRank R V)
    (routing : List (List (ℤ × R))) : Prop where
  physicalIds_eq : physicalIds rank.log2phy rank.topkIds = some (routing.map (List.map Prod.fst))
  topkWeights_eq : rank.topkWeights = routing.map (List.map Prod.snd)
  isMoeRank : IsMoeRank globalNumExperts topK rank.hiddenStates routing

/-! ## The choices, token by token -/

/-- The number of a choice, all choices of the first token before all of the second. -/
def tokenRow (topK : ℕ) (p : ℕ × (ℤ × R) × ℕ) : ℕ := p.1 * topK + p.2.2

section Choices

variable {topK : ℕ} {routing : List (List (ℤ × R))}

/-- **The choices stand in the order of their numbers.** -/
theorem choices_map_tokenRow (h : ∀ row ∈ routing, row.length = topK) :
    (choices routing).map (tokenRow topK) = List.range (routing.length * topK) := by
  have hrows := TokenDispatcherWithAllGather.flatMap_rows (fun t k => t * topK + k) (s := 0) h
  rw [← List.range_eq_range', ← List.flatMap_def, ← range_mul] at hrows
  exact hrows.symm

theorem length_choices (h : ∀ row ∈ routing, row.length = topK) :
    (choices routing).length = routing.length * topK := by
  have hlength := congrArg List.length (choices_map_tokenRow h)
  rwa [List.length_map, List.length_range] at hlength

/-- The rows of the tokens, one for each choice. -/
theorem repeatedRows_eq [Zero V] (h : ∀ row ∈ routing, row.length = topK) {hiddenStates : List V}
    (hlength : routing.length = hiddenStates.length) :
    (List.zipWith (fun x row => List.replicate row.length x) hiddenStates
        (routing.map (List.map Prod.fst))).flatten =
      (choices routing).map fun p => hiddenStates.getD p.1 0 := by
  have hrows := TokenDispatcherWithAllGather.flatMap_rows (fun t _ => hiddenStates.getD t 0) (s := 0) h
  rw [← List.range_eq_range'] at hrows
  rw [choices, ← hrows]
  refine congrArg List.flatten (List.ext_getElem (by simp [hlength]) fun t ht ht' => ?_)
  have hlt : t < routing.length := by simpa using ht'
  rw [List.getElem_zipWith, List.getElem_map, List.getElem_map, List.getElem_range, List.length_map,
    h _ (List.getElem_mem hlt), List.map_const', List.length_range,
    List.getD_eq_getElem _ _ (by rwa [← hlength])]

/-- Where a choice was sorted to, by its number in the order of the tokens. -/
def IsPlacedByToken (topK : ℕ) (routing : List (List (ℤ × R))) (out : List (ℕ × (ℤ × R) × ℕ))
    (dst : List ℤ) : Prop :=
  ∀ p ∈ choices routing, ∃ j : ℕ, dst[tokenRow topK p]? = some (j : ℤ) ∧ out[j]? = some p

end Choices

/-- **Finalizing token by token on a rank**, when the outputs stand where its sorted choices were. -/
theorem finalizeByToken_eq [CommRing R] [AddCommGroup V] [Module R V] {X : Type} [Zero X]
    {topK : ℕ} (f : ℕ → X → V) (xs : List X) {routing : List (List (ℤ × R))}
    {out : List (ℕ × (ℤ × R) × ℕ)} {dst : List ℤ} (hplace : IsPlacedByToken topK routing out dst) :
    npuMoeFinalizeRoutingByToken topK (out.map fun p => f p.2.1.1.toNat (xs.getD p.1 0))
        (routing.map (List.map Prod.snd)) dst = some (mixtures f xs routing) := by
  refine TokenDispatcherWithAllGather.finalizeRows_eq (fun t k => t * topK + k) Prod.snd
    (fun t choice => f choice.1.toNat (xs.getD t 0)) fun p hp => ?_
  obtain ⟨j, hj, hjOut⟩ := hplace p hp
  exact ⟨j, hj, by rw [List.getElem?_map, hjOut]; rfl⟩

namespace IsMoeRank

variable {globalNumExperts topK : ℕ} {hiddenStates : List V} {routing : List (List (ℤ × R))}

/-- What both ways to sort and quantise return, of the sorted choices. -/
def quantisedRows [Zero V] (globalNumExperts : ℕ) (quant : V → Q × S) (hiddenStates : List V)
    (out : List (ℕ × (ℤ × R) × ℕ)) (dst : List ℤ) : QuantisedRows Q S where
  quantizedTokens := out.map fun p => (quant (hiddenStates.getD p.1 0)).1
  expandedRowIdx := dst
  globalExpertTokens := (List.range globalNumExperts).map fun e =>
    (out.filter fun p => p.2.1.1.toNat = e).length
  tokenScales := out.map fun p => (quant (hiddenStates.getD p.1 0)).2

/-- **The choices of a rank in the order of a sort of their ids**, and where each went. -/
theorem exists_sortedChoices (h : IsMoeRank globalNumExperts topK hiddenStates routing)
    {sortIndices : List ℤ}
    (hsort : IsArgsort (fun a b : ℤ => decide (a < b)) (routing.map (List.map Prod.fst)).flatten
      sortIndices) :
    ∃ out dst, (∀ {β : Type} (g : ℕ × (ℤ × R) × ℕ → β),
        gather ((choices routing).map g) sortIndices = some (out.map g)) ∧
      sortIndices = out.map (fun p => (tokenRow topK p : ℤ)) ∧
      scatter (List.replicate sortIndices.length 0) sortIndices (arange sortIndices.length) = some dst ∧
      IsSortedChoices routing out ∧ IsPlacedByToken topK routing out dst := by
  rw [TokenDispatcherWithAllGather.choices_map_id] at hsort
  have hindices : sortIndices.Perm (arange (choices routing).length) := by
    have hperm := hsort.perm
    rwa [List.length_map] at hperm
  obtain ⟨out, hout, hperm⟩ := gather_perm hindices
  have houtOf : ∀ {β : Type} (g : ℕ × (ℤ × R) × ℕ → β),
      gather ((choices routing).map g) sortIndices = some (out.map g) := fun g => by
    rw [gather_map, hout]
    rfl
  have hnumbers : sortIndices = out.map fun p => (tokenRow topK p : ℤ) := by
    have hrows := gather_range hindices
    have harange : arange (choices routing).length =
        (choices routing).map fun p => (tokenRow topK p : ℤ) := by
      have hcast := congrArg (List.map fun i : ℕ => (i : ℤ)) (choices_map_tokenRow h.length_row)
      rw [List.map_map] at hcast
      rw [length_choices h.length_row, arange, Machinery.segment]
      exact (List.map_congr_left fun j _ => Int.zero_add _).trans hcast.symm
    rw [harange, houtOf] at hrows
    exact (Option.some.inj hrows).symm
  have hnodup : ((choices routing).map (tokenRow topK)).Nodup := by
    rw [choices_map_tokenRow h.length_row]
    exact List.nodup_range
  obtain ⟨dst, hdst, hplace⟩ := TokenDispatcherWithAllGather.scatter_places
    ((hperm.map _).nodup_iff.mpr hnodup) fun p hp => by
      have hmem := List.mem_map_of_mem (f := tokenRow topK) (hperm.mem_iff.mp hp)
      rw [choices_map_tokenRow h.length_row] at hmem
      rw [hperm.length_eq, length_choices h.length_row]
      exact List.mem_range.mp hmem
  have hsorted : out.Pairwise fun a b => a.2.1.1.toNat ≤ b.2.1.1.toNat := by
    have hpairs := hsort.sorted _ (houtOf _)
    rw [List.pairwise_map] at hpairs
    exact hpairs.imp fun hlt => Int.toNat_le_toNat (not_lt.mp (of_decide_eq_false hlt))
  have hlength : sortIndices.length = out.length := by rw [hnumbers, List.length_map]
  rw [← hnumbers, ← hlength] at hdst
  exact ⟨out, dst, houtOf, hnumbers, hdst, ⟨hperm, hsorted⟩, fun p hp => hplace p (hperm.mem_iff.mpr hp)⟩

/-- The token of a choice, from its number. -/
theorem tokenRow_div {p : ℕ × (ℤ × R) × ℕ} (hp : p.2.2 < topK) :
    (tokenRow topK p : ℤ) / topK = p.1 := by
  rw [tokenRow, ← Int.natCast_div, Nat.mul_comm, Nat.mul_add_div (Nat.zero_lt_of_lt hp),
    Nat.div_eq_of_lt hp, Nat.add_zero]

/-- **The rows of the tokens of sorted choices**, from the numbers of the choices. -/
theorem gather_tokens [Zero V] (h : IsMoeRank globalNumExperts topK hiddenStates routing)
    {out : List (ℕ × (ℤ × R) × ℕ)} (hout : IsSortedChoices routing out) :
    gather hiddenStates ((out.map fun p => (tokenRow topK p : ℤ)).map (· / (topK : ℤ))) =
      some (out.map fun p => hiddenStates.getD p.1 0) := by
  rw [List.map_map]
  refine mapM_map_eq_some fun p hp => ?_
  obtain ⟨row, hrow, hchoice⟩ := mem_choices.mp (hout.perm.mem_iff.mp hp)
  have hlt := (List.getElem?_eq_some_iff.mp hrow).1
  have hltK := (List.getElem?_eq_some_iff.mp hchoice).1
  rw [h.length_eq] at hlt
  rw [h.length_row row (List.mem_of_getElem? hrow)] at hltK
  rw [Function.comp_apply, tokenRow_div hltK, item_natCast, List.getElem?_eq_getElem hlt,
    List.getD_eq_getElem _ _ hlt]

/-- **The operator sorts the choices**, and tells where each went. -/
theorem npuMoeInitRoutingQuant_eq [Zero V]
    (h : IsMoeRank globalNumExperts topK hiddenStates routing) (quant : V → Q × S)
    {sortIndices : List ℤ}
    (hsort : IsArgsort (fun a b : ℤ => decide (a < b)) (routing.map (List.map Prod.fst)).flatten
      sortIndices) :
    ∃ out dst, npuMoeInitRoutingQuant quant hiddenStates (routing.map (List.map Prod.fst))
        globalNumExperts sortIndices =
          some (quantisedRows globalNumExperts quant hiddenStates out dst) ∧
      IsSortedChoices routing out ∧ IsPlacedByToken topK routing out dst := by
  obtain ⟨out, dst, houtOf, -, hdst, hout, hplace⟩ := h.exists_sortedChoices hsort
  refine ⟨out, dst, ?_, hout, hplace⟩
  simp only [npuMoeInitRoutingQuant, TokenDispatcherWithAllGather.choices_map_id, houtOf,
    repeatedRows_eq h.length_row h.length_eq, hdst, h.bincount_eq hout.perm, Option.bind_eq_bind,
    Option.bind_some, Option.pure_def, List.map_map]
  rfl

/-- Every number in the order of the places, at its number in the order of the tokens. -/
theorem viewPermute_eq {numTokens : ℕ} {dst : List ℤ} (htopK : 0 < topK)
    (hlength : dst.length = numTokens * topK) :
    ∃ dst', viewPermute topK dst = some dst' ∧ ∀ t k : ℕ, t < numTokens → k < topK →
      dst'[t * topK + k]? = some (dst.getD (k * numTokens + t) 0) := by
  have hdiv : dst.length / topK = numTokens := by rw [hlength, Nat.mul_div_cancel _ htopK]
  refine ⟨_, by rw [viewPermute, if_pos (hlength ▸ Dvd.intro_left _ rfl), hdiv],
    fun t k ht hk => ?_⟩
  rw [← List.flatMap_def]
  exact getElem?_rows (fun t k => dst.getD (k * numTokens + t) 0) hk (List.getElem?_range ht)

theorem length_expandedRowIdx {rowIdx expertIdx : List (List ℤ)} {activeNum : ℕ} {xs : List V}
    {sortIndices dst ids : List ℤ}
    (h : npuMoeInitRouting hiddenStates rowIdx expertIdx activeNum topK sortIndices = some (xs, dst, ids)) :
    dst.length = ids.length := by
  simp only [npuMoeInitRouting, Option.bind_eq_bind, Option.bind_eq_some_iff, Option.pure_def,
    Option.some.injEq, Prod.mk.injEq] at h
  obtain ⟨ids', hids, rows, hrows, xs', -, dst', hdst, -, rfl, rfl⟩ := h
  rw [length_scatter hdst, List.length_replicate, (getElem?_of_mapM hrows).1, (getElem?_of_mapM hids).1]

/-- **Without the operator the choices are sorted the same way**, and renumbered token by token. -/
theorem initRoutingQuant_eq [AddCommGroup V] (htopK : 0 < topK)
    (h : IsMoeRank globalNumExperts topK hiddenStates routing) (quant : V → Q × S)
    {sortIndices : List ℤ}
    (hsort : IsArgsort (fun a b : ℤ => decide (a < b)) (routing.map (List.map Prod.fst)).flatten
      sortIndices) :
    ∃ out dst, initRoutingQuant quant hiddenStates topK (routing.map (List.map Prod.fst))
        globalNumExperts sortIndices =
          some (quantisedRows globalNumExperts quant hiddenStates out dst) ∧
      IsSortedChoices routing out ∧ IsPlacedByToken topK routing out dst := by
  obtain ⟨out, dst, hinit, -, hperm, hsorted, hplace⟩ :=
    h.isBatch.npuMoeInitRouting_eq hsort (rfl : hiddenStates.length = hiddenStates.length)
  have hinit' : npuMoeInitRouting hiddenStates (rowIdx hiddenStates.length topK)
      (routing.map (List.map Prod.fst)) hiddenStates.length topK sortIndices =
        some (out.map fun p => hiddenStates.getD p.1 0, dst, out.map fun p => p.2.1.1) := hinit
  have hlength : dst.length = hiddenStates.length * topK := by
    rw [length_expandedRowIdx hinit', List.length_map, hperm.length_eq, length_choices h.length_row,
      h.length_eq]
  obtain ⟨dst', hview, hget⟩ := viewPermute_eq htopK hlength
  refine ⟨out, dst', ?_, ⟨hperm, hsorted⟩, fun p hp => ?_⟩
  · simp only [initRoutingQuant, hinit', hview, h.bincount_eq hperm, Option.bind_eq_bind,
      Option.bind_some, Option.pure_def, List.map_map]
    rfl
  · obtain ⟨row, hrow, hchoice⟩ := mem_choices.mp hp
    have hlt := (List.getElem?_eq_some_iff.mp hrow).1
    have hltK := (List.getElem?_eq_some_iff.mp hchoice).1
    rw [h.length_eq] at hlt
    rw [h.length_row row (List.mem_of_getElem? hrow)] at hltK
    obtain ⟨j, hj, hjOut⟩ := hplace p hp
    rw [rowOf] at hj
    exact ⟨j, by rw [tokenRow, hget _ _ hlt hltK, List.getD_eq_getElem?_getD, hj]; rfl, hjOut⟩

end IsMoeRank

/-- **What a rank has quantised and sorted before the first exchange.** -/
theorem IsQuantMoeRank.scatterRowsQuant_eq [AddCommGroup V] {globalNumExperts topK : ℕ}
    {rank : QuantMoeRank R V} {routing : List (List (ℤ × R))} (htopK : 0 < topK)
    (h : IsQuantMoeRank globalNumExperts topK rank routing) (hasInitRoutingQuant : Bool)
    (quant : V → Q × S) {sortIndices : List ℤ}
    (hsort : IsArgsort (fun a b : ℤ => decide (a < b)) (routing.map (List.map Prod.fst)).flatten
      sortIndices) :
    ∃ out dst, scatterRowsQuant hasInitRoutingQuant globalNumExperts topK quant rank sortIndices =
        some (IsMoeRank.quantisedRows globalNumExperts quant rank.hiddenStates out dst) ∧
      IsSortedChoices routing out ∧ IsPlacedByToken topK routing out dst := by
  rw [scatterRowsQuant, h.physicalIds_eq]
  cases hasInitRoutingQuant with
  | true => exact h.isMoeRank.npuMoeInitRoutingQuant_eq quant hsort
  | false => exact h.isMoeRank.initRoutingQuant_eq htopK quant hsort

/-! ## The counts of the experts -/

section Counts

variable {δ : Type} {n m : ℕ}

/-- What is viewed by rank, of equal blocks. -/
theorem viewSum_flatMap (ds : List δ) (hds : 0 < ds.length) {g : δ → List ℕ}
    (hg : ∀ d ∈ ds, (g d).length = m) :
    viewSum ds.length (ds.flatMap g) = some (ds.map fun d => (g d).sum) := by
  have hlength := length_flatMap_const hg
  rw [viewSum, hlength, if_pos (Dvd.intro _ rfl), Nat.mul_div_cancel_left _ hds]
  refine congrArg some (List.ext_getElem (by simp) fun r hr hr' => ?_)
  rw [List.length_map] at hr'
  rw [List.getElem_map, List.getElem_map, List.getElem_range,
    chunk_flatMap hg (List.getElem?_eq_getElem hr')]

theorem viewRows_flatMap (ds : List δ) (hds : 0 < ds.length) {g : δ → List ℕ}
    (hg : ∀ d ∈ ds, (g d).length = m) :
    viewRows ds.length (ds.flatMap g) = some (ds.map g) := by
  have hlength := length_flatMap_const hg
  rw [viewRows, hlength, if_pos (Dvd.intro _ rfl), Nat.mul_div_cancel_left _ hds]
  refine congrArg some (List.ext_getElem (by simp) fun r hr hr' => ?_)
  rw [List.length_map] at hr'
  rw [List.getElem_map, List.getElem_map, List.getElem_range,
    chunk_flatMap hg (List.getElem?_eq_getElem hr')]

end Counts

section Group

variable {n localNumExperts topK : ℕ} {hiddenStates : Fin n → List V}
  {routing : Fin n → List (List (ℤ × R))} {out : Fin n → List (ℕ × (ℤ × R) × ℕ)}

/-- The choices of a rank for the local experts of rank `s`. -/
def expertGroup (localNumExperts s : ℕ) (row : List (RankChoice n R)) (e : ℕ) : List (RankChoice n R) :=
  row.filter (RankChoice.expert · = s * localNumExperts + e)

/-- How many rows each rank has for each local expert of rank `s`. -/
def expertSizes (localNumExperts s : ℕ) (row : List (RankChoice n R)) : List ℕ :=
  (List.range localNumExperts).map fun e => (expertGroup localNumExperts s row e).length

theorem length_expertSizes (s : ℕ) (row : List (RankChoice n R)) :
    (expertSizes localNumExperts s row).length = localNumExperts := by
  rw [expertSizes, List.length_map, List.length_range]

theorem sum_expertSizes (hlocal : 0 < localNumExperts) (s : ℕ) (row : List (RankChoice n R)) :
    (expertSizes localNumExperts s row).sum =
      (row.filter (RankChoice.owner localNumExperts · = s)).length := by
  have hsum := sum_block_counts (s := s) RankChoice.expert hlocal row
  rwa [List.range'_eq_map_range, List.map_map] at hsum

/-- The counts of a rank, rank by rank. -/
theorem counts_eq (r : Fin n) :
    ((List.range (n * localNumExperts)).map fun e =>
        ((out r).filter fun p => p.2.1.1.toNat = e).length) =
      (List.range n).flatMap fun s => expertSizes localNumExperts s ((out r).map (r, ·)) := by
  rw [range_mul, List.map_flatMap]
  refine List.flatMap_congr fun s _ => ?_
  rw [List.map_map, expertSizes]
  refine List.map_congr_left fun e _ => ?_
  rw [Function.comp_apply, expertGroup, List.filter_map, List.length_map]
  rfl

theorem expert_eq_iff {s e : ℕ} (he : e < localNumExperts) {c : RankChoice n R} :
    (c.localExpert localNumExperts = e ∧ c.owner localNumExperts = s) ↔
      c.expert = s * localNumExperts + e := by
  constructor
  · rintro ⟨rfl, rfl⟩
    rw [RankChoice.owner, RankChoice.localExpert, Nat.mul_comm, Nat.div_add_mod]
  · intro hexpert
    have hlocal := Nat.zero_lt_of_lt he
    refine ⟨?_, ?_⟩
    · rw [RankChoice.localExpert, hexpert, Nat.mul_add_mod', Nat.mod_eq_of_lt he]
    · rw [RankChoice.owner, hexpert, Nat.mul_comm, Nat.mul_add_div hlocal, Nat.div_eq_of_lt he,
        Nat.add_zero]

/-- Of a rank's rows for rank `s`, those for a local expert. -/
theorem filter_filter_owner {s e : ℕ} (he : e < localNumExperts) (row : List (RankChoice n R)) :
    (row.filter (RankChoice.owner localNumExperts · = s)).filter
        (RankChoice.localExpert localNumExperts · = e) = expertGroup localNumExperts s row e := by
  rw [expertGroup, List.filter_filter]
  refine List.filter_congr fun c _ => ?_
  rw [← Bool.decide_and, decide_eq_decide]
  exact expert_eq_iff he

/-- **A rank's rows for rank `s`** are those for its local experts, one after the other. -/
theorem filter_owner_eq (hlocal : 0 < localNumExperts) {s : ℕ} {row : List (RankChoice n R)}
    (hsorted : row.Pairwise fun a b => a.expert ≤ b.expert) :
    row.filter (RankChoice.owner localNumExperts · = s) =
      (List.range localNumExperts).flatMap (expertGroup localNumExperts s row) := by
  have howner : ∀ {c : RankChoice n R}, c.owner localNumExperts = s →
      c.expert = s * localNumExperts + c.localExpert localNumExperts := fun hs =>
    (expert_eq_iff (Nat.mod_lt _ hlocal)).mp ⟨rfl, hs⟩
  have hlocalSorted : (row.filter (RankChoice.owner localNumExperts · = s)).Pairwise
      fun a b => a.localExpert localNumExperts ≤ b.localExpert localNumExperts := by
    refine (hsorted.filter _).imp_of_mem fun ha hb hle => ?_
    rw [howner (of_decide_eq_true (List.mem_filter.mp ha).2),
      howner (of_decide_eq_true (List.mem_filter.mp hb).2)] at hle
    omega
  exact (eq_groups_of_sorted (RankChoice.localExpert localNumExperts) hlocalSorted
    fun c _ => Nat.mod_lt _ hlocal).trans
      (List.flatMap_congr fun e he => filter_filter_owner (List.mem_range.mp he) row)

/-- What is exchanged of the sorted choices. -/
def groupExchange [Zero V] (localNumExperts : ℕ) (quant : V → Q × S) (hiddenStates : Fin n → List V)
    (out : Fin n → List (ℕ × (ℤ × R) × ℕ)) : QuantExchange Q S where
  gatherSizes := (List.range n).map fun s => (groupChoices out).flatMap (expertSizes localNumExperts s)
  gatherSizeList := (groupChoices out).map (groupSizes (RankChoice.owner localNumExperts) n)
  scatterSizeList := (List.range n).map
    (destinedSizes (RankChoice.owner localNumExperts) (groupChoices out))
  gatheredTokens := (List.range n).map fun s =>
    (destined (RankChoice.owner localNumExperts) (groupChoices out) s).map fun c =>
      (quant (c.row hiddenStates)).1
  dynamicScale := (List.range n).map fun s =>
    (destined (RankChoice.owner localNumExperts) (groupChoices out) s).map fun c =>
      (quant (c.row hiddenStates)).2

/-- **What the collectives exchange**, over the ranks of the group. -/
theorem exchangeQuant_eq [Zero V] (hn : 0 < n) (hlocal : 0 < localNumExperts)
    (hrank : ∀ r, IsMoeRank (n * localNumExperts) topK (hiddenStates r) (routing r))
    (hout : ∀ r, IsSortedChoices (routing r) (out r)) (quant : V → Q × S) (dst : Fin n → List ℤ) :
    exchangeQuant n n ((List.finRange n).map fun r =>
        IsMoeRank.quantisedRows (n * localNumExperts) quant (hiddenStates r) (out r) (dst r)) =
      some (groupExchange localNumExperts quant hiddenStates out) := by
  have hrowsOf : ∀ {β : Type} (x : RankChoice n R → β),
      ((List.finRange n).map fun r => (out r).map fun p => x (r, p)) =
        (groupChoices out).map (List.map x) := by
    intro β x
    rw [groupChoices, List.map_map]
    exact List.map_congr_left fun r _ => (List.map_map).symm
  have htokens : ((List.finRange n).map fun r => (out r).map fun p =>
      (quant ((hiddenStates r).getD p.1 0)).1) =
        (groupChoices out).map (List.map fun c => (quant (c.row hiddenStates)).1) :=
    hrowsOf fun c => (quant (c.row hiddenStates)).1
  have hscales : ((List.finRange n).map fun r => (out r).map fun p =>
      (quant ((hiddenStates r).getD p.1 0)).2) =
        (groupChoices out).map (List.map fun c => (quant (c.row hiddenStates)).2) :=
    hrowsOf fun c => (quant (c.row hiddenStates)).2
  have hcounts : ((List.finRange n).map fun r => (List.range (n * localNumExperts)).map fun e =>
      ((out r).filter fun p => p.2.1.1.toNat = e).length) =
        (groupChoices out).map fun row =>
          (List.range n).flatMap fun s => expertSizes localNumExperts s row := by
    rw [groupChoices, List.map_map]
    exact List.map_congr_left fun r _ => counts_eq r
  have hexchange : exchangeCounts n ((groupChoices out).map fun row =>
      (List.range n).flatMap fun s => expertSizes localNumExperts s row) =
        some ((List.range n).map fun s => (groupChoices out).flatMap (expertSizes localNumExperts s)) := by
    rw [exchangeCounts, if_pos fun tokens htokens => by
      obtain ⟨row, -, rfl⟩ := List.mem_map.mp htokens
      rw [length_flatMap_const fun s _ => length_expertSizes s row, List.length_range]
      exact Dvd.intro _ rfl]
    refine congrArg some (List.map_congr_left fun s hs => ?_)
    exact allToAllSingle_eq (g := fun row s => expertSizes localNumExperts s row)
      (by rw [length_groupChoices, List.length_range]) (fun row _ s _ => length_expertSizes s row)
      (List.getElem?_range (List.mem_range.mp hs))
  have hsend : ((groupChoices out).map fun row =>
      (List.range n).flatMap fun s => expertSizes localNumExperts s row).mapM (viewSum n) =
        some ((groupChoices out).map (groupSizes (RankChoice.owner localNumExperts) n)) := by
    refine mapM_map_eq_some fun row _ => ?_
    have hview := viewSum_flatMap (List.range n) (g := fun s => expertSizes localNumExperts s row)
      (by rwa [List.length_range]) fun s _ => length_expertSizes s row
    rw [List.length_range] at hview
    rw [hview, groupSizes]
    exact congrArg some (List.map_congr_left fun s _ => sum_expertSizes hlocal s row)
  have hreceive : ((List.range n).map fun s =>
      (groupChoices out).flatMap (expertSizes localNumExperts s)).mapM (viewSum n) =
        some ((List.range n).map
          (destinedSizes (RankChoice.owner localNumExperts) (groupChoices out))) := by
    refine mapM_map_eq_some fun s _ => ?_
    have hview := viewSum_flatMap (groupChoices out) (g := expertSizes localNumExperts s)
      (by rwa [length_groupChoices]) fun row _ => length_expertSizes s row
    rw [length_groupChoices] at hview
    rw [hview, destinedSizes]
    exact congrArg some (List.map_congr_left fun row _ => sum_expertSizes hlocal s row)
  have hall := fun {β : Type} (x : RankChoice n R → β) => exchange_groups x
    (groupChoices_sorted hout) (groupChoices_lt hrank hout)
  simp only [exchangeQuant, List.map_map, Function.comp_def, IsMoeRank.quantisedRows, hcounts, hexchange,
    hsend, hreceive, htokens, hscales, Option.bind_eq_bind, Option.bind_some, Option.pure_def]
  rw [length_groupChoices] at hall
  rw [hall, hall]
  rfl

/-- The choices in the order in which rank `s` feeds them. -/
def reRouted (localNumExperts : ℕ) (out : Fin n → List (ℕ × (ℤ × R) × ℕ)) (s : ℕ) :
    List (RankChoice n R) :=
  (List.range localNumExperts).flatMap fun e =>
    (groupChoices out).flatMap fun row => expertGroup localNumExperts s row e

/-- The index of each of them among those received. -/
def reRoutedIdx (localNumExperts : ℕ) (out : Fin n → List (ℕ × (ℤ × R) × ℕ)) (s : ℕ) : List ℤ :=
  byColumn ((groupChoices out).map (expertSizes localNumExperts s)) localNumExperts
    (arange (destined (RankChoice.owner localNumExperts) (groupChoices out) s).length)

/-- What rank `s` receives, expert by expert within each rank. -/
theorem destined_eq (hlocal : 0 < localNumExperts)
    (hout : ∀ r, IsSortedChoices (routing r) (out r)) (s : ℕ) :
    destined (RankChoice.owner localNumExperts) (groupChoices out) s =
      (groupChoices out).flatMap fun row =>
        (List.range localNumExperts).flatMap (expertGroup localNumExperts s row) := by
  refine List.flatMap_congr fun row hrow => filter_owner_eq hlocal ?_
  obtain ⟨r, -, rfl⟩ := List.mem_map.mp hrow
  exact List.pairwise_map.mpr (hout r).sorted

theorem byColumn_destined (hlocal : 0 < localNumExperts)
    (hout : ∀ r, IsSortedChoices (routing r) (out r)) (s : ℕ) :
    byColumn ((groupChoices out).map (expertSizes localNumExperts s)) localNumExperts
        (destined (RankChoice.owner localNumExperts) (groupChoices out) s) =
      reRouted localNumExperts out s := by
  rw [destined_eq hlocal hout]
  exact byColumn_flatMap (expertGroup localNumExperts s) localNumExperts (groupChoices out)

theorem sum_sizes (hlocal : 0 < localNumExperts) (s : ℕ) :
    ((groupChoices out).map (expertSizes localNumExperts s)).flatten.sum =
      (destined (RankChoice.owner localNumExperts) (groupChoices out) s).length := by
  rw [List.sum_flatten, List.map_map, destined, List.length_flatMap]
  exact congrArg List.sum (List.map_congr_left fun row _ => sum_expertSizes hlocal s row)

theorem reRouted_perm (hlocal : 0 < localNumExperts)
    (hout : ∀ r, IsSortedChoices (routing r) (out r)) (s : ℕ) :
    (reRouted localNumExperts out s).Perm
      (destined (RankChoice.owner localNumExperts) (groupChoices out) s) := by
  rw [← byColumn_destined hlocal hout]
  refine byColumn_perm (fun row hrow => ?_) (sum_sizes hlocal s)
  obtain ⟨row, -, rfl⟩ := List.mem_map.mp hrow
  exact length_expertSizes s row

theorem reRoutedIdx_perm (hlocal : 0 < localNumExperts) (s : ℕ) :
    (reRoutedIdx localNumExperts out s).Perm
      (arange (destined (RankChoice.owner localNumExperts) (groupChoices out) s).length) := by
  refine byColumn_perm (fun row hrow => ?_) (by rw [sum_sizes hlocal, length_arange])
  obtain ⟨row, -, rfl⟩ := List.mem_map.mp hrow
  exact length_expertSizes s row

theorem gather_reRoutedIdx (hlocal : 0 < localNumExperts)
    (hout : ∀ r, IsSortedChoices (routing r) (out r)) (s : ℕ) {β : Type} (x : RankChoice n R → β) :
    gather ((destined (RankChoice.owner localNumExperts) (groupChoices out) s).map x)
        (reRoutedIdx localNumExperts out s) =
      some ((reRouted localNumExperts out s).map x) := by
  rw [gather_map, reRoutedIdx, gather_byColumn, byColumn_destined hlocal hout]
  rfl

/-- **The order of the local experts.** -/
theorem reRouted_sorted (s : ℕ) :
    (reRouted localNumExperts out s).Pairwise fun a b =>
      a.localExpert localNumExperts ≤ b.localExpert localNumExperts := by
  have hmem : ∀ {e : ℕ}, e ∈ List.range localNumExperts → ∀ c ∈ (groupChoices out).flatMap
      (fun row => expertGroup localNumExperts s row e), c.localExpert localNumExperts = e := by
    intro e he c hc
    obtain ⟨row, -, hc⟩ := List.mem_flatMap.mp hc
    exact ((expert_eq_iff (List.mem_range.mp he)).mpr
      (of_decide_eq_true (List.mem_filter.mp hc).2)).1
  rw [reRouted, List.pairwise_flatMap]
  refine ⟨fun e he => List.pairwise_of_forall_mem_list fun a ha b hb => ?_,
    List.pairwise_lt_range.imp_of_mem fun he he' hlt a ha b hb => ?_⟩
  · rw [hmem he a ha, hmem he b hb]
  · rw [hmem he a ha, hmem he' b hb]
    exact hlt.le

/-- The counts of the local experts are those of the rows fed to them. -/
theorem expertTokenNum_eq (hlocal : 0 < localNumExperts)
    (hout : ∀ r, IsSortedChoices (routing r) (out r)) (s : ℕ) :
    groupCounts 1 ((List.range localNumExperts).map fun e =>
        (((((groupChoices out).map (expertSizes localNumExperts s)).map (·.getD e 0)).sum : ℕ) : ℤ)) =
      (List.range localNumExperts).map fun e =>
        ((reRouted localNumExperts out s).filter (RankChoice.localExpert localNumExperts · = e)).length := by
  rw [groupCounts, if_neg Nat.one_ne_zero, List.map_map]
  refine List.map_congr_left fun e he => ?_
  have hlt := List.mem_range.mp he
  rw [Function.comp_apply, Int.toNat_natCast, ((reRouted_perm hlocal hout s).filter _).length_eq,
    destined, List.filter_flatMap, List.length_flatMap, List.map_map]
  refine congrArg List.sum (List.map_congr_left fun row _ => ?_)
  rw [Function.comp_apply, filter_filter_owner hlt, expertSizes, List.getD_eq_getElem?_getD,
    List.getElem?_map, List.getElem?_range hlt]
  rfl

/-- **The re-routing on rank `s`**: its choices by local expert, each row with its scale. -/
theorem reRoute_eq (hn : 0 < n) (hlocal : 0 < localNumExperts)
    (hout : ∀ r, IsSortedChoices (routing r) (out r)) (exchange : QuantExchange Q S)
    {tokens : RankChoice n R → Q} {scales : RankChoice n R → S} {s : ℕ}
    (hsizes : exchange.gatherSizes.getD s [] =
      (groupChoices out).flatMap (expertSizes localNumExperts s))
    (htokens : exchange.gatheredTokens.getD s [] =
      (destined (RankChoice.owner localNumExperts) (groupChoices out) s).map tokens)
    (hscales : exchange.dynamicScale.getD s [] =
      (destined (RankChoice.owner localNumExperts) (groupChoices out) s).map scales) :
    ∃ expertTokens, reRoute n exchange s =
        some ((reRouted localNumExperts out s).map tokens, (reRouted localNumExperts out s).map scales,
          reRoutedIdx localNumExperts out s, expertTokens) ∧
      FeedsOwned localNumExperts routing s (groupCounts 1 expertTokens)
        (reRouted localNumExperts out s) := by
  have hview := viewRows_flatMap (groupChoices out) (g := expertSizes localNumExperts s)
    (by rwa [length_groupChoices]) fun row _ => length_expertSizes s row
  rw [length_groupChoices] at hview
  have hhead : (((groupChoices out).map (expertSizes localNumExperts s)).headD []).length =
      localNumExperts := by
    obtain ⟨row, rows, heq⟩ := List.exists_cons_of_length_pos
      (by rwa [length_groupChoices] : 0 < (groupChoices out).length)
    rw [heq, List.map_cons, List.headD_cons, length_expertSizes]
  refine ⟨_, ?_, (reRouted_perm hlocal hout s).trans (destined_perm hout s), reRouted_sorted s,
    expertTokenNum_eq hlocal hout s⟩
  rw [reRoute, hsizes, hview, htokens, hscales, Option.bind_eq_bind, Option.bind_some, npuMoeReRouting,
    hhead, List.length_map]
  have hgather := fun {β : Type} (x : RankChoice n R → β) => gather_reRoutedIdx hlocal hout s x
  simp only [reRoutedIdx] at hgather ⊢
  simp only [hgather, Option.bind_eq_bind, Option.bind_some, Option.pure_def]

/-- **Sorting the indices in `float32` undoes the re-routing**, while they are told apart. -/
theorem gather_resorted (hlocal : 0 < localNumExperts)
    (hout : ∀ r, IsSortedChoices (routing r) (out r)) {s : ℕ}
    (hbound : (ownedChoices localNumExperts routing s).length ≤ 2 ^ 24 + 1) {resortedIdx : List ℤ}
    (hresorted : IsArgsort (fun a b : ℚ => decide (a < b))
      ((reRoutedIdx localNumExperts out s).map fun i : ℤ => toFloat32 i) resortedIdx)
    (output : RankChoice n R → V) :
    gather ((reRouted localNumExperts out s).map output) resortedIdx =
      some ((destined (RankChoice.owner localNumExperts) (groupChoices out) s).map output) := by
  refine gather_argsort_argsort (p := reRoutedIdx localNumExperts out s) ?_
    (gather_reRoutedIdx hlocal hout s output) (fun i hi j hj => ?_) hresorted
  · rw [List.length_map]
    exact reRoutedIdx_perm hlocal s
  · have hexact : ∀ k ∈ reRoutedIdx localNumExperts out s, toFloat32 k = k := by
      intro k hk
      obtain ⟨hlow, hhigh⟩ := mem_arange.mp ((reRoutedIdx_perm hlocal s).mem_iff.mp hk)
      rw [(destined_perm hout s).length_eq] at hhigh
      exact toFloat32_intCast (abs_le.mpr ⟨by omega, by omega⟩)
    rw [hexact i hi, hexact j hj, decide_eq_decide, Int.cast_lt]

end Group

/-- **The quantised exchange is correct** when the expert group has all ranks that there are, and no rank
receives more rows than `float32` tells apart. -/
theorem quantAllToAllCorrect [CommRing R] [AddCommGroup V] [Module R V] {n localNumExperts topK : ℕ}
    (hn : 0 < n) (hlocal : 0 < localNumExperts) (htopK : 0 < topK) (hasInitRoutingQuant : Bool)
    (quant : V → Q × S) {ranks : Fin n → QuantMoeRank R V} {routing : Fin n → List (List (ℤ × R))}
    (h : ∀ r, IsQuantMoeRank (n * localNumExperts) topK (ranks r) (routing r))
    (hbound : ∀ s : Fin n, (ownedChoices localNumExperts routing s).length ≤ 2 ^ 24 + 1) :
    QuantAllToAllCorrect hasInitRoutingQuant n (n * localNumExperts) topK quant ranks routing := by
  intro sortIndices hsort
  choose out dst hscatter hout hplace using fun r =>
    (h r).scatterRowsQuant_eq htopK hasInitRoutingQuant quant (hsort r)
  have hrank := fun r => (h r).isMoeRank
  set hiddenStates : Fin n → List V := fun r => (ranks r).hiddenStates with hhidden
  have hscattered : scatterAllQuant hasInitRoutingQuant (n * localNumExperts) topK quant ranks sortIndices =
      some ((List.finRange n).map fun r =>
        IsMoeRank.quantisedRows (n * localNumExperts) quant (hiddenStates r) (out r) (dst r)) := by
    have hall := mapM_map_eq_some (c := id) (l := List.finRange n) (f := fun r =>
      scatterRowsQuant hasInitRoutingQuant (n * localNumExperts) topK quant (ranks r) (sortIndices r))
      (g := fun r => IsMoeRank.quantisedRows (n * localNumExperts) quant (hiddenStates r) (out r) (dst r))
      fun r _ => hscatter r
    rwa [List.map_id] at hall
  have hreRoute := fun s : Fin n => reRoute_eq hn hlocal hout
    (groupExchange localNumExperts quant hiddenStates out) (getD_map_range s.isLt _ _)
    (getD_map_range s.isLt _ _) (getD_map_range s.isLt _ _)
  refine ⟨_, _, hscattered, exchangeQuant_eq hn hlocal hrank hout quant dst, fun r s => ?_, fun s => ?_,
    fun f mlpOutput resortedIdx hrun => ?_⟩
  · have hrow : (groupChoices out)[(r : ℕ)]? = some ((out r).map (r, ·)) := by
      rw [groupChoices, List.getElem?_map, List.getElem?_eq_getElem (by
        rw [List.length_finRange]
        exact r.isLt), List.getElem_finRange]
      rfl
    refine ⟨_, _, _, by rw [groupExchange, List.getElem?_map, hrow]; rfl,
      by rw [groupSizes, List.getElem?_map, List.getElem?_range s.isLt]; rfl,
      by rw [groupExchange, List.getElem?_map, List.getElem?_range s.isLt]; rfl, ?_⟩
    rw [destinedSizes, List.getElem?_map, hrow]
    rfl
  · obtain ⟨expertTokens, hroute, hfeeds⟩ := hreRoute s
    rw [Nat.mul_div_cancel_left _ hn]
    exact ⟨_, _, _, hroute, hfeeds⟩
  · set output : RankChoice n R → V := fun c => f c.expert (quant (c.row hiddenStates)) with houtput
    have hback : ∀ s : Fin n, gather (mlpOutput s) (resortedIdx s) =
        some ((destined (RankChoice.owner localNumExperts) (groupChoices out) s).map output) := by
      intro s
      obtain ⟨expertTokens, hroute, hfeeds⟩ := hreRoute s
      obtain ⟨hmlp, hresorted⟩ := hrun s _ _ _ _ hroute
      rw [List.zip_map', Nat.mul_div_cancel_left _ hn] at hmlp
      have hmlpEq : mlpOutput s = (reRouted localNumExperts out s).map output :=
        hfeeds.output_eq hlocal hmlp
      rw [hmlpEq]
      exact gather_resorted hlocal hout (hbound s) hresorted output
    have hall := mapM_map_eq_some (c := id) (l := List.finRange n) (f := fun s =>
      gather (mlpOutput s) (resortedIdx s)) fun s _ => hback s
    have houtputs : (List.finRange n).map (fun s : Fin n =>
        (destined (RankChoice.owner localNumExperts) (groupChoices out) s).map output) =
          (List.range n).map fun s =>
            (destined (RankChoice.owner localNumExperts) (groupChoices out) s).map output := by
      rw [← List.map_coe_finRange_eq_range, List.map_map]
      rfl
    have hreturned := Machinery.exchange_back output
      (groupChoices_sorted hout) (groupChoices_lt hrank hout)
    have hzip : (List.finRange n).zip (((List.finRange n).map fun r =>
        IsMoeRank.quantisedRows (n * localNumExperts) quant (hiddenStates r) (out r) (dst r)).zip
          ((groupChoices out).map (List.map output))) =
        (List.finRange n).map fun r => (r,
          IsMoeRank.quantisedRows (n * localNumExperts) quant (hiddenStates r) (out r) (dst r),
          (out r).map fun p => output (r, p)) := by
      conv_lhs => arg 1; rw [← List.map_id (List.finRange n)]
      rw [groupChoices, List.map_map, List.zip_map', List.zip_map']
      refine List.map_congr_left fun r _ => ?_
      rw [Function.comp_apply, List.map_map]
      rfl
    rw [List.map_id] at hall
    rw [length_groupChoices] at hreturned
    rw [finishAllQuant, hall, houtputs, groupExchange, Option.bind_eq_bind, Option.bind_some]
    simp only [hreturned, Option.bind_some]
    rw [hzip]
    refine mapM_map_eq_some fun r _ => ?_
    rw [(h r).topkWeights_eq]
    exact finalizeByToken_eq (fun e x => f e (quant x)) (hiddenStates r) (hplace r)

/-! ## The group of the collectives -/

theorem length_of_viewSum {n : ℕ} {xs sizes : List ℕ} (h : viewSum n xs = some sizes) :
    sizes.length = n := by
  rw [viewSum] at h
  split at h
  · cases h
    rw [List.length_map, List.length_range]
  · cases h

/-- A collective is called with a size for every rank. -/
theorem length_of_allToAllSizes {α : Type} {inputs out : List (List α)}
    {sendSizes receiveSizes : List (List ℕ)}
    (h : allToAllSizes inputs sendSizes receiveSizes = some out) :
    ∀ sizes ∈ sendSizes, sizes.length = inputs.length := by
  rw [allToAllSizes] at h
  split at h
  · next hsizes =>
    obtain ⟨hlength, hall, -⟩ := hsizes
    intro sizes hmem
    obtain ⟨i, hi, rfl⟩ := List.getElem_of_mem hmem
    have hzip : (sendSizes[i], inputs[i]) ∈ sendSizes.zip inputs :=
      List.mem_iff_getElem.mpr ⟨i, by rw [List.length_zip]; omega, List.getElem_zip⟩
    exact (hall _ hzip).1
  · cases h

/-- **The exchange is called over all ranks that there are**, so they have to be the expert group. -/
theorem epSize_eq [CommRing R] [AddCommGroup V] [Module R V] {n epSize globalNumExperts topK : ℕ}
    (hn : 0 < n) {hasInitRoutingQuant : Bool} {quant : V → Q × S} {ranks : Fin n → QuantMoeRank R V}
    {routing : Fin n → List (List (ℤ × R))}
    (h : QuantAllToAllCorrect hasInitRoutingQuant epSize globalNumExperts topK quant ranks routing) :
    epSize = n := by
  choose sortIndices hsort using fun r =>
    exists_isArgsort ((routing r).map (List.map Prod.fst)).flatten
  obtain ⟨scattered, exchange, hscattered, hexchange, hsizes, -⟩ := h sortIndices hsort
  obtain ⟨sent, -, -, hsent, -⟩ := hsizes ⟨0, hn⟩ ⟨0, hn⟩
  have hlength : scattered.length = n := by
    rw [(getElem?_of_mapM hscattered).1, List.length_finRange]
  simp only [exchangeQuant, Option.bind_eq_bind, Option.bind_eq_some_iff, Option.pure_def,
    Option.some.injEq] at hexchange
  obtain ⟨gatherSizes, -, gatherSizeList, hsend, scatterSizeList, -, tokens, htokens, scales, -, heq⟩ :=
    hexchange
  rw [← heq] at hsent
  have hworld := length_of_allToAllSizes htokens sent (List.mem_of_getElem? hsent)
  rw [List.length_map, hlength] at hworld
  rw [(getElem?_of_mapM hsend).2, Option.bind_eq_some_iff] at hsent
  obtain ⟨counts, -, hview⟩ := hsent
  rw [← hworld, length_of_viewSum hview]

/-- **Both exchanges**: without quantisation over the ranks of the group, whatever they are; with it the
group has to be all ranks, and then it is right while `float32` tells the received rows apart. -/
theorem fusedExpertsWithAll2All_correct [CommRing R] [AddCommGroup V] [Module R V]
    {n epSize localNumExperts topK : ℕ} (hn : 0 < n) (hep : 0 < epSize) (hlocal : 0 < localNumExperts)
    (htopK : 0 < topK) {group : Fin epSize → MoeRank R V}
    (hgroup : ∀ r, IsMoeRank (epSize * localNumExperts) topK (group r).hiddenStates (group r).routing)
    (hasInitRoutingQuant : Bool) (quant : V → Q × S) {ranks : Fin n → QuantMoeRank R V}
    {routing : Fin n → List (List (ℤ × R))}
    (hranks : ∀ r, IsQuantMoeRank (epSize * localNumExperts) topK (ranks r) (routing r)) :
    AllToAllCorrect (epSize * localNumExperts) topK group ∧
      (QuantAllToAllCorrect hasInitRoutingQuant epSize (epSize * localNumExperts) topK quant ranks
        routing → epSize = n) ∧
      (epSize = n → (∀ s : Fin n, (ownedChoices localNumExperts routing s).length ≤ 2 ^ 24 + 1) →
        QuantAllToAllCorrect hasInitRoutingQuant epSize (epSize * localNumExperts) topK quant ranks
          routing) := by
  refine ⟨allToAllCorrect hep hlocal hgroup, epSize_eq hn, fun heq hbound => ?_⟩
  subst heq
  exact quantAllToAllCorrect hn hlocal htopK hasInitRoutingQuant quant hranks hbound

/-- A rank with one token and its only choice. -/
def oneChoice : QuantMoeRank ℤ ℤ where
  hiddenStates := [5]
  routing := [[(1, 2)]]
  log2phy := some [1, 0]

theorem oneChoice_isQuantMoeRank : IsQuantMoeRank 2 1 oneChoice [[(0, 2)]] where
  physicalIds_eq := rfl
  topkWeights_eq := rfl
  isMoeRank := ⟨rfl, by simp, by simp⟩

theorem fusedExpertsWithAll2All_correct_twoRanks :
    AllToAllCorrect 2 1 (fun _ : Fin 2 => oneChoice.toMoeRank) ∧
      QuantAllToAllCorrect true 2 2 1 (fun x : ℤ => (x, x)) (fun _ : Fin 2 => oneChoice)
        fun _ => [[(0, 2)]] := by
  have hgroup : ∀ _ : Fin 2, IsMoeRank (2 * 1) 1 oneChoice.toMoeRank.hiddenStates
      oneChoice.toMoeRank.routing := fun _ =>
    ⟨rfl, by simp [oneChoice], by simp [oneChoice]⟩
  obtain ⟨hplain, -, hquant⟩ := fusedExpertsWithAll2All_correct (n := 2) Nat.two_pos Nat.two_pos
    Nat.one_pos Nat.one_pos hgroup true (fun x : ℤ => (x, x)) (fun _ : Fin 2 =>
      oneChoice_isQuantMoeRank)
  exact ⟨hplain, hquant rfl (by decide)⟩

/-- An expert group of one rank, of two ranks that there are. -/
theorem not_quantAllToAllCorrect :
    (∀ _ : Fin 2, IsQuantMoeRank 2 1 oneChoice [[(0, 2)]]) ∧
      ¬ QuantAllToAllCorrect true 1 2 1 (fun x : ℤ => (x, x)) (fun _ : Fin 2 => oneChoice)
        fun _ => [[(0, 2)]] :=
  ⟨fun _ => oneChoice_isQuantMoeRank, fun h => by cases epSize_eq Nat.two_pos h⟩

end VllmAscend
