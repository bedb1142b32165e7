import VllmAscend.Attention.FallbackAttention
import VllmAscend.Multistream.MsSplit

/-!
# Multistream/MLASplit — the metadata of a batch, cut in two

    requests        d d d d │ p p p           decodes, then prefills
    cut early       d d ┆ d d │ p p p         prefills whole; the lengths of the second decodes run on
    cut between     d d d d ┆ p p p           every field in its part
    cut late        d d d d │ p ┆ p p         decodes whole; the chunks of the contexts are left out

`model_input_split_v1_mla_attn` cuts the metadata of `AscendMLAMetadataBuilder.build` field by field, some at a
token and some at a request, some counted from the first prefill.  What attention reads of each part is that of its
requests for exactly the cuts that `modelInputSplit_iff` names.
-/

namespace VllmAscend

open Machinery Torchair

/-! ## The metadata -/

/-- `AscendMLADecodeMetadata`. -/
structure AscendMLADecodeMetadata (μ : Type) where
  inputPositions : List ℕ
  blockTable : List (List ℕ)
  seqLens : List ℕ
  maxSeqLens : ℕ
  seqLensList : List ℕ
  actualSeqLengthsQ : Option (List ℤ)
  attnMask : Option (List (List μ))

/-- `AscendMLAPrefillMetadata`, with its mask. -/
structure MaskedPrefill (μ : Type) extends AscendMLAPrefillMetadata where
  attnMask : Option (List (List μ))

/-- `AscendMLAMetadata`. -/
structure AscendMLAMetadata (μ : Type) where
  numActualTokens : ℤ
  slotMapping : List ℤ
  queryStartLoc : Option (List ℤ)
  seqLens : List ℕ
  blockTables : List (List ℕ)
  numDecodes : ℤ
  numDecodeTokens : ℤ
  numPrefills : ℤ
  numInputTokens : ℤ
  queryLens : Option (List ℤ)
  headDim : ℕ
  attnMask : Option (List (List μ))
  attnState : AscendAttentionState
  decode : Option (AscendMLADecodeMetadata μ)
  prefill : Option (MaskedPrefill μ)
  enableDboAcrossDp : Bool

variable {μ : Type}

/-- `AscendMLAMetadataBuilder.build`, the metadata of the decodes. -/
def decodeMetadata (c : Torchair.AscendCommonAttentionMetadata) (specAttnMask : Option (List (List μ)))
    (numDecodes numDecodeTokens : ℕ) : Except BuildError (Option (AscendMLADecodeMetadata μ)) :=
  if 0 < numDecodes then do
    let seqLens := c.seqLensCpu.take c.numReqs
    let maxSeqLens ← orRaise .emptyReduction (seqLens.take numDecodes).max?
    return some {
      inputPositions := (c.positions.take c.numActualTokens).take numDecodeTokens
      blockTable := (c.blockTableTensor.take c.numReqs).take numDecodeTokens
      seqLens := seqLens.take numDecodeTokens
      maxSeqLens := maxSeqLens
      seqLensList := seqLens.take numDecodeTokens
      actualSeqLengthsQ := some ((c.queryStartLoc.take (numDecodes + 1)).drop 1)
      attnMask := specAttnMask }
  else .ok none

/-- `AscendMLAMetadataBuilder.build`; the rows of the decodes stand for the whole batch, where there are any. -/
def AscendMLAMetadataBuilder.build (builder : AscendMLAMetadataBuilder) (headSize : ℕ)
    (attnMask specAttnMask : Option (List (List μ))) (c : Torchair.AscendCommonAttentionMetadata) :
    Except BuildError (AscendMLAMetadata μ) := do
  let prefill ← builder.prefill c
  let (numDecodes, numPrefills, numDecodeTokens, _) ← splitDecodesAndPrefills c 1
  let decode ← decodeMetadata c specAttnMask numDecodes numDecodeTokens.toNat
  let blockTable := c.blockTableTensor.take c.numReqs
  let seqLens := c.seqLensCpu.take c.numReqs
  return {
    numActualTokens := c.numActualTokens
    slotMapping := c.slotMappingCpu.take c.numActualTokens
    queryStartLoc := some c.queryStartLoc
    seqLens := if 0 < numDecodes then seqLens.take numDecodeTokens.toNat else seqLens
    blockTables := if 0 < numDecodes then blockTable.take numDecodeTokens.toNat else blockTable
    numDecodes := numDecodes
    numDecodeTokens := numDecodeTokens
    numPrefills := numPrefills
    numInputTokens := 0
    queryLens := some (queryLensOf c)
    headDim := headSize
    attnMask := attnMask
    attnState := c.attnState
    decode := decode
    prefill := prefill.map fun p => { p with attnMask := attnMask }
    enableDboAcrossDp := c.enableDboAcrossDp }

/-! ## The cut -/

/-- `[input_tensor[:index], input_tensor[index:]]` -/
def splitAttnTensorType {α : Type} (inputTensor : List α) (index : ℤ) : List α × List α :=
  (inputTensor.take (sliceBound inputTensor.length index), inputTensor.drop (sliceBound inputTensor.length index))

/-- `[min(var, index), max(var - index, 0)]` -/
def splitAttnIntType (var index : ℤ) : ℤ × ℤ := (min var index, max (var - index) 0)

/-- The masks and the states of the two parts. -/
def splitMask (attnState : AscendAttentionState) (attnMask : List (List μ)) (tokenIndex numPrefillsPre : ℤ)
    (seqLens : List ℕ × List ℕ) :
    Option ((Option (List (List μ)) × AscendAttentionState) × Option (List (List μ)) × AscendAttentionState) :=
  if attnState = .prefillNoCache ∨ attnState = .prefillCacheHit then
    some ((some attnMask, attnState), some attnMask, attnState)
  else if attnState = .decodeOnly then some ((some attnMask, .decodeOnly), some attnMask, .decodeOnly)
  else do
    let rows := splitAttnTensorType attnMask tokenIndex
    let maxPost ← seqLens.2.max?
    let post := rows.2.map fun row => (splitAttnTensorType row maxPost).1
    if 0 < numPrefillsPre then
      let maxPre ← seqLens.1.max?
      let pre := rows.1.map fun row => (splitAttnTensorType row maxPre).1
      return ((some pre, .chunkedPrefill), some post, .chunkedPrefill)
    else return ((none, .decodeOnly), some post, .chunkedPrefill)

/-- The prefills, cut in two. -/
def splitPrefill (md : AscendMLAMetadata μ) (prefill : MaskedPrefill μ) (tokenIndex seqIndex : ℤ)
    (seqLens : List ℕ × List ℕ) (attnMask : Option (List (List μ)) × Option (List (List μ))) :
    Option (MaskedPrefill μ × MaskedPrefill μ) := do
  let inputPositions := splitAttnTensorType prefill.inputPositions (tokenIndex - md.numDecodeTokens)
  let blockTables := splitAttnTensorType prefill.blockTable (seqIndex - md.numDecodes)
  let queryLens := splitAttnTensorType prefill.queryLens (seqIndex - md.numDecodes)
  let queryStartLocPre := (splitAttnTensorType prefill.queryStartLoc (seqIndex + 1 - md.numDecodes)).1
  let start ← item prefill.queryStartLoc (seqIndex - md.numDecodes)
  let queryStartLocPost := (splitAttnTensorType prefill.queryStartLoc (seqIndex - md.numDecodes)).2.map (· - start)
  let contextLenPre := (splitAttnTensorType seqLens.1 md.numDecodes).2
  let contextLenPost := seqLens.2
  let maxQueryLenPre ← queryLens.1.max?
  let maxQueryLenPost ← queryLens.2.max?
  let maxSeqLensPre ← contextLenPre.max?
  let maxSeqLensPost ← contextLenPost.max?
  return ({
    attnMask := attnMask.1
    queryLens := queryLens.1
    seqLens := seqLens.1
    queryStartLoc := queryStartLocPre
    inputPositions := inputPositions.1
    contextLens := contextLenPre
    blockTable := blockTables.1
    maxQueryLen := maxQueryLenPre
    maxSeqLens := maxSeqLensPre
    chunkedContext := none }, {
    attnMask := attnMask.2
    queryLens := queryLens.2
    seqLens := seqLens.2
    queryStartLoc := queryStartLocPost
    inputPositions := inputPositions.2
    contextLens := contextLenPost
    blockTable := blockTables.2
    maxQueryLen := maxQueryLenPost
    maxSeqLens := maxSeqLensPost
    chunkedContext := none })

/-- The decodes, cut in two. -/
def splitDecode (decode : AscendMLADecodeMetadata μ) (tokenIndex seqIndex : ℤ) (seqLens : List ℕ) :
    Option (AscendMLADecodeMetadata μ × AscendMLADecodeMetadata μ) := do
  let inputPositions := splitAttnTensorType decode.inputPositions tokenIndex
  let blockTables := splitAttnTensorType decode.blockTable seqIndex
  let decodeSeqLens := splitAttnTensorType seqLens seqIndex
  let maxSeqLensPre ← decodeSeqLens.1.max?
  let maxSeqLensPost ← decodeSeqLens.2.max?
  return ({
    inputPositions := inputPositions.1
    blockTable := blockTables.1
    seqLens := decodeSeqLens.1
    maxSeqLens := maxSeqLensPre
    seqLensList := decodeSeqLens.1
    actualSeqLengthsQ := none
    attnMask := none }, {
    inputPositions := inputPositions.2
    blockTable := blockTables.2
    seqLens := decodeSeqLens.2
    maxSeqLens := maxSeqLensPost
    seqLensList := decodeSeqLens.2
    actualSeqLengthsQ := none
    attnMask := none })

/-- The metadata of the prefills and of the decodes, for the two parts. -/
def splitPhases (md : AscendMLAMetadata μ) (tokenIndex seqIndex numPrefillsPre : ℤ) (wholeSeqLens : List ℕ)
    (attnMask : Option (List (List μ)) × Option (List (List μ))) :
    Option ((Option (MaskedPrefill μ) × Option (AscendMLADecodeMetadata μ)) ×
      Option (MaskedPrefill μ) × Option (AscendMLADecodeMetadata μ)) :=
  if 0 < numPrefillsPre then do
    let prefill ← md.prefill
    let parts ← splitPrefill md prefill tokenIndex seqIndex (splitAttnTensorType wholeSeqLens seqIndex) attnMask
    return ((some parts.1, md.decode), some parts.2, none)
  else do
    let decode ← md.decode
    let parts ← splitDecode decode tokenIndex seqIndex wholeSeqLens
    return ((none, some parts.1), md.prefill, some parts.2)

/-- `query_start_loc[:seq_index + 1]`, and the rest from its first on. -/
def splitQueryStartLoc (queryStartLoc : Option (List ℤ)) (seqIndex : ℤ) :
    Option (Option (List ℤ) × Option (List ℤ)) :=
  match queryStartLoc with
  | none => some (none, none)
  | some loc => do
    let start ← item loc seqIndex
    return (some (splitAttnTensorType loc (seqIndex + 1)).1,
      some ((splitAttnTensorType loc seqIndex).2.map (· - start)))

/-- The lengths of all requests of the batch, wherever they are kept. -/
def AscendMLAMetadata.wholeSeqLens (md : AscendMLAMetadata μ) : Option (List ℕ) :=
  if 0 < md.numPrefills then md.prefill.map (·.seqLens) else md.decode.map (·.seqLens)

/-- `model_input_split_v1_mla_attn`, once it is known where to cut. -/
def AscendMLAMetadata.cut (md : AscendMLAMetadata μ) (tokenIndex seqIndex : ℤ) :
    Option (AscendMLAMetadata μ × AscendMLAMetadata μ) := do
  let slotMapping := splitAttnTensorType md.slotMapping tokenIndex
  let numDecodes := splitAttnIntType md.numDecodes seqIndex
  let numDecodeTokens := splitAttnIntType md.numDecodeTokens tokenIndex
  let numPrefills := splitAttnIntType md.numPrefills (max 0 (seqIndex - md.numDecodes))
  let wholeSeqLens ← md.wholeSeqLens
  let seqLens := splitAttnTensorType wholeSeqLens seqIndex
  let queryStartLoc ← splitQueryStartLoc md.queryStartLoc seqIndex
  let blockTable := splitAttnTensorType md.blockTables seqIndex
  let attnMask ← md.attnMask
  let (pre, post) ← splitMask md.attnState attnMask tokenIndex numPrefills.1 seqLens
  let (phasesPre, phasesPost) ← splitPhases md tokenIndex seqIndex numPrefills.1 wholeSeqLens (pre.1, post.1)
  return ({
    numActualTokens := tokenIndex
    numInputTokens := tokenIndex
    headDim := md.headDim
    slotMapping := slotMapping.1
    seqLens := seqLens.1
    queryStartLoc := queryStartLoc.1
    blockTables := blockTable.1
    numDecodes := numDecodes.1
    numPrefills := numPrefills.1
    numDecodeTokens := numDecodeTokens.1
    queryLens := none
    attnState := pre.2
    attnMask := pre.1
    prefill := phasesPre.1
    decode := phasesPre.2
    enableDboAcrossDp := md.enableDboAcrossDp }, {
    numActualTokens := md.numActualTokens - tokenIndex
    numInputTokens := md.numInputTokens - tokenIndex
    headDim := md.headDim
    slotMapping := slotMapping.2
    seqLens := seqLens.2
    queryStartLoc := queryStartLoc.2
    blockTables := blockTable.2
    numDecodes := numDecodes.2
    numPrefills := numPrefills.2
    numDecodeTokens := numDecodeTokens.2
    queryLens := none
    attnState := post.2
    attnMask := post.1
    prefill := phasesPost.1
    decode := phasesPost.2
    enableDboAcrossDp := md.enableDboAcrossDp })

/-- `model_input_split_v1_mla_attn`. -/
def modelInputSplitV1MlaAttn (md : AscendMLAMetadata μ) (numMicroBatches : ℕ) :
    Option (List (AscendMLAMetadata μ)) := do
  guard (0 < numMicroBatches ∧ numMicroBatches < 3)
  let (tokenIndex, seqIndex) ← computeSplitSeqIndex md.queryLens md.attnState md.numDecodeTokens (1 / 10)
  if tokenIndex = 0 ∨ seqIndex = 0 then return [md]
  else
    let queryLens ← md.queryLens
    if seqIndex = queryLens.length then return [md]
    else
      let parts ← md.cut tokenIndex seqIndex
      return [parts.1, parts.2]

/-! ## What a part is to describe -/

/-- `xs[lo:hi]`. -/
def between {α : Type} (xs : List α) (lo hi : ℕ) : List α := (xs.take hi).drop lo

/-- The tokens of the first requests. -/
def tokensBefore (requests : List MLARequest) (i : ℕ) : ℕ :=
  ((requests.take i).map MLARequest.numScheduledTokens).sum

/-- The decodes of a batch, which come first. -/
def decodesOf (requests : List MLARequest) : ℕ := (requests.map fun r => (r.numScheduledTokens : ℤ)).count 1

section Parts

variable (c : Torchair.AscendCommonAttentionMetadata) (requests : List MLARequest) (chunked : Bool) (lo hi : ℕ)

/-- What attention reads of the decodes `lo` up to `hi`. -/
structure DescribesDecodes (d : AscendMLADecodeMetadata μ) : Prop where
  blockTable : d.blockTable = between (c.blockTableTensor.take c.numReqs) lo hi
  seqLens : d.seqLens = between (c.seqLensCpu.take c.numReqs) lo hi
  seqLensList : d.seqLensList = d.seqLens
  inputPositions : d.inputPositions =
    between (c.positions.take c.numActualTokens) (tokensBefore requests lo) (tokensBefore requests hi)
  maxSeqLens : d.seqLens.max? = some d.maxSeqLens

/-- What attention reads of the prefills `lo` up to `hi`; their contexts are loaded when there are any. -/
structure DescribesPrefills (p : MaskedPrefill μ) : Prop where
  blockTable : p.blockTable = between (c.blockTableTensor.take c.numReqs) lo hi
  queryLens : p.queryLens = between (queryLensOf c) lo hi
  contextLens : p.contextLens = between (c.seqLensCpu.take c.numReqs) lo hi
  inputPositions : p.inputPositions =
    between (c.positions.take c.numActualTokens) (tokensBefore requests lo) (tokensBefore requests hi)
  queryStartLoc : p.queryStartLoc = (between c.queryStartLoc lo (hi + 1)).map (· - c.queryStartLoc.getD lo 0)
  maxQueryLen : p.queryLens.max? = some p.maxQueryLen
  maxSeqLens : p.contextLens.max? = some p.maxSeqLens
  chunkedContext : p.chunkedContext = none ↔
    (chunked = true → ∀ r ∈ between requests lo hi, r.numComputedTokens = 0)

/-- What is counted in the part for the requests `lo` up to `hi`, and where their tokens are written. -/
structure Outlines (part : AscendMLAMetadata μ) : Prop where
  numActualTokens : part.numActualTokens = (tokensBefore requests hi : ℤ) - tokensBefore requests lo
  slotMapping : part.slotMapping = between (c.slotMappingCpu.take c.numActualTokens) (tokensBefore requests lo)
    (tokensBefore requests hi)
  queryStartLoc : part.queryStartLoc =
    some ((between c.queryStartLoc lo (hi + 1)).map (· - c.queryStartLoc.getD lo 0))
  numDecodes : part.numDecodes = (min hi (decodesOf requests) - lo : ℕ)
  numDecodeTokens : part.numDecodeTokens = (min hi (decodesOf requests) - lo : ℕ)
  numPrefills : part.numPrefills = (hi - max lo (decodesOf requests) : ℕ)

/-- **The part describes the requests `lo` up to `hi`**, and no others. -/
structure Describes (part : AscendMLAMetadata μ) : Prop extends Outlines c requests lo hi part where
  decodes : lo < min hi (decodesOf requests) → ∃ d, part.decode = some d ∧
    DescribesDecodes c requests lo (min hi (decodesOf requests)) d
  prefills : max lo (decodesOf requests) < hi → ∃ p, part.prefill = some p ∧
    DescribesPrefills c requests chunked (max lo (decodesOf requests)) hi p

end Parts

section Slices

variable {α : Type} {xs : List α} {lo mid hi : ℕ}

theorem splitAttnTensorType_natCast (xs : List α) (j : ℕ) :
    splitAttnTensorType xs (j : ℤ) = (xs.take j, xs.drop j) := by
  rcases Nat.le_total j xs.length with h | h
  · rw [splitAttnTensorType, sliceBound_natCast h]
  · rw [splitAttnTensorType, sliceBound, if_pos (Int.natCast_nonneg j), Int.toNat_natCast, Nat.min_eq_right h,
      List.take_length, List.drop_length, List.take_of_length_le h, List.drop_eq_nil_of_le h]

theorem between_of_length_le (h : xs.length ≤ hi) : between xs lo hi = xs.drop lo := by
  rw [between, List.take_of_length_le h]

theorem take_between (h : mid ≤ hi) : (between xs lo hi).take (mid - lo) = between xs lo mid := by
  rw [between, between, List.drop_take, List.drop_take, List.take_take, Nat.min_eq_left (Nat.sub_le_sub_right h lo)]

theorem drop_between (h : lo ≤ mid) : (between xs lo hi).drop (mid - lo) = between xs mid hi := by
  rw [between, between, List.drop_drop, Nat.add_sub_cancel' h]

end Slices

/-! ## The batch, whole -/

section Whole

variable {c : Torchair.AscendCommonAttentionMetadata} {requests : List MLARequest}

theorem HoldsRequests.numReqs (h : HoldsRequests c requests) : c.numReqs = requests.length := by
  rw [h.metadata.numReqs, List.length_map]

theorem decodesOf_le (requests : List MLARequest) : decodesOf requests ≤ requests.length :=
  List.count_le_length.trans_eq (List.length_map _)

theorem min_decodesOf (requests : List MLARequest) :
    min requests.length (decodesOf requests) = decodesOf requests :=
  Nat.min_eq_right (decodesOf_le requests)

/-- The tokens, from the lengths of the queries. -/
theorem HoldsRequests.sum_take_queryLens (h : HoldsRequests c requests) (i : ℕ) :
    ((queryLensOf c).take i).sum = (tokensBefore requests i : ℤ) := by
  rw [h.queryLensOf_eq, tokensBefore, ← List.map_take, Nat.cast_list_sum, List.map_map]
  rfl

theorem HoldsRequests.tokensBefore_length (h : HoldsRequests c requests) :
    tokensBefore requests requests.length = c.numActualTokens := by
  have hsum := h.sum_take_queryLens requests.length
  rw [h.queryLensOf_eq, List.take_of_length_le (List.length_map _).le, ← h.metadata.numActualTokens] at hsum
  exact (Int.ofNat_inj.mp hsum).symm

/-- Each decode is one token. -/
theorem HoldsRequests.tokensBefore_decodes (h : HoldsRequests c requests) {i : ℕ} (hi : i ≤ decodesOf requests) :
    tokensBefore requests i = i := by
  have hone : ∀ r ∈ requests.take i, r.numScheduledTokens = 1 := by
    intro r hr
    obtain ⟨j, hj, rfl⟩ := List.mem_iff_getElem.mp hr
    rw [List.length_take] at hj
    have hget : (requests.map fun r => (r.numScheduledTokens : ℤ))[j]? =
        some ((requests.take i)[j].numScheduledTokens : ℤ) := by
      rw [List.getElem?_map, List.getElem_take, List.getElem?_eq_getElem (by omega)]
      rfl
    have hlt : j < decodesOf requests := (lt_min_iff.mp hj).1.trans_le hi
    exact_mod_cast (h.decodesFirst.lt_count hget).mpr hlt
  rw [tokensBefore, List.map_congr_left hone, List.map_const', List.sum_replicate, List.length_take, smul_eq_mul,
    mul_one, Nat.min_eq_left (hi.trans (decodesOf_le requests))]

/-- A request is one token at least. -/
theorem le_tokensBefore {i : ℕ} (hi : i ≤ requests.length) : i ≤ tokensBefore requests i := by
  have hle := List.card_nsmul_le_sum ((requests.take i).map MLARequest.numScheduledTokens) 1 fun n hn => by
    obtain ⟨r, -, rfl⟩ := List.mem_map.mp hn
    exact r.pos
  rwa [List.length_map, List.length_take, Nat.min_eq_left hi, smul_eq_mul, mul_one] at hle

theorem tokensBefore_mono {i j : ℕ} (h : i ≤ j) : tokensBefore requests i ≤ tokensBefore requests j := by
  rw [tokensBefore, tokensBefore, ← Nat.add_sub_cancel' h, List.take_add, List.map_append, List.sum_append]
  exact Nat.le_add_right _ _

/-- The chunks are left out exactly when no context is to be loaded. -/
theorem AscendMLAMetadataBuilder.prefillContext_eq_ok {builder : AscendMLAMetadataBuilder} {contexts : List ℕ}
    {chunkedContext : Option ChunkedContextMetadata}
    (hok : builder.prefillContext (contexts.map Nat.cast) = .ok chunkedContext) :
    chunkedContext = none ↔ (builder.chunkedPrefillEnabled = true → ∀ context ∈ contexts, context = 0) := by
  rcases hmax : (contexts.map (Nat.cast : ℕ → ℤ)).max? with _ | m
  · rw [prefillContext, hmax] at hok
    contradiction
  obtain ⟨hmem, hle⟩ := List.max?_eq_some_iff.mp hmax
  have hpos : 0 < m ↔ ∃ context ∈ contexts, context ≠ 0 := by
    refine ⟨fun hm => ?_, fun hsome => ?_⟩
    · obtain ⟨context, hcontext, rfl⟩ := List.mem_map.mp hmem
      exact ⟨context, hcontext, by omega⟩
    · obtain ⟨context, hcontext, hne⟩ := hsome
      have hcontext := hle context (List.mem_map_of_mem hcontext)
      omega
  rw [prefillContext, hmax, orRaise, bind_eq_ok] at hok
  obtain ⟨_, hm, hok⟩ := hok
  cases hm
  by_cases hload : builder.chunkedPrefillEnabled = true ∧ 0 < m
  · rw [if_pos hload, bind_eq_ok] at hok
    obtain ⟨-, -, hok⟩ := hok
    refine iff_of_false (fun hnone => ?_) fun hall => ?_
    · rw [hnone] at hok
      generalize chunks (contexts.map Nat.cast) m (builder.maxContextChunk (contexts.map Nat.cast)) = chunked at hok
      cases chunked <;> cases hok
    · obtain ⟨context, hcontext, hne⟩ := hpos.mp hload.2
      exact hne (hall hload.1 context hcontext)
  · rw [if_neg hload] at hok
    cases hok
    refine iff_of_true rfl fun henabled context hcontext => by_contra fun hne => ?_
    exact hload ⟨henabled, hpos.mpr ⟨context, hcontext, hne⟩⟩

variable {builder : AscendMLAMetadataBuilder}

theorem HoldsRequests.split (h : HoldsRequests c requests) : ∃ numPrefillTokens : ℤ,
    splitDecodesAndPrefills c 1 = .ok (decodesOf requests, requests.length - decodesOf requests,
      (decodesOf requests : ℤ), numPrefillTokens) := by
  obtain ⟨numPrefillTokens, hsplit, hreqs, -⟩ := h.split_eq
  rw [h.numReqs, ← decodesOf] at hreqs
  refine ⟨numPrefillTokens, hsplit.trans ?_⟩
  rw [← hreqs, Nat.add_sub_cancel_left]
  rfl

theorem HoldsRequests.length_seqLens (h : HoldsRequests c requests) :
    (c.seqLensCpu.take c.numReqs).length = requests.length := by
  rw [h.numReqs, h.seqLens, List.length_map]

theorem HoldsRequests.length_queryLens (h : HoldsRequests c requests) : (queryLensOf c).length = requests.length := by
  rw [h.queryLensOf_eq, List.length_map]

theorem orRaise_eq_ok {α : Type} {e : BuildError} {o : Option α} {x : α} : orRaise e o = .ok x ↔ o = some x := by
  cases o <;> simp [orRaise]

/-- **The prefills are described**, with the chunks of their contexts. -/
theorem AscendMLAMetadataBuilder.prefill_describes (h : HoldsRequests c requests)
    (hloc : c.queryStartLoc = c.queryStartLocCpu) (hlt : decodesOf requests < requests.length)
    {prefill : Option AscendMLAPrefillMetadata} (hok : builder.prefill c = .ok prefill)
    (attnMask : Option (List (List μ))) :
    ∃ p, prefill = some p ∧ p.seqLens = c.seqLensCpu.take c.numReqs ∧
      DescribesPrefills c requests builder.chunkedPrefillEnabled (decodesOf requests) requests.length
        ({ p with attnMask := attnMask } : MaskedPrefill μ) := by
  obtain ⟨numPrefillTokens, hsplit⟩ := h.split
  rw [AscendMLAMetadataBuilder.prefill, hsplit] at hok
  simp only [bind_eq_ok] at hok
  obtain ⟨chunkedContext, hchunked, _, hparts, hok⟩ := hok
  cases hparts
  rw [if_pos (Nat.sub_pos_of_lt hlt)] at hok
  simp only [bind_eq_ok, orRaise_eq_ok, Int.toNat_natCast] at hok
  obtain ⟨maxQueryLen, hmaxQueryLen, maxSeqLens, hmaxSeqLens, hok⟩ := hok
  cases hok
  have hcontexts : prefillContexts requests =
      (requests.drop (decodesOf requests)).map MLARequest.numComputedTokens := by
    rw [prefillContexts, h.prefills_eq, decodesOf]
  have hne : prefillContexts requests ≠ [] := by
    rw [hcontexts]
    exact List.ne_nil_of_length_pos (by rw [List.length_map, List.length_drop]; omega)
  rw [h.chunkedContext_eq, if_neg hne] at hchunked
  have hrows : (c.blockTableTensor.take c.numReqs).length ≤ requests.length := by
    rw [h.numReqs]
    exact List.length_take_le _ _
  have htokens : (c.positions.take c.numActualTokens).length ≤ tokensBefore requests requests.length := by
    rw [h.tokensBefore_length]
    exact List.length_take_le _ _
  have hlocs : c.queryStartLoc.length ≤ requests.length + 1 := by
    rw [hloc, h.metadata.queryStartLocCpu, List.length_cons, length_cumsum, List.length_map]
  refine ⟨_, rfl, rfl, ?_, ?_, ?_, ?_, ?_, hmaxQueryLen, hmaxSeqLens, ?_⟩
  · exact (between_of_length_le hrows).symm
  · exact (between_of_length_le h.length_queryLens.le).symm
  · exact (between_of_length_le h.length_seqLens.le).symm
  · rw [between_of_length_le htokens, h.tokensBefore_decodes le_rfl]
  · rw [between_of_length_le hlocs]
  · rw [between_of_length_le le_rfl]
    refine (prefillContext_eq_ok hchunked).trans (imp_congr_right fun _ => ?_)
    rw [hcontexts]
    exact List.forall_mem_map

/-- …and so are the decodes. -/
theorem decodeMetadata_describes (h : HoldsRequests c requests) (hpos : 0 < decodesOf requests)
    {specAttnMask : Option (List (List μ))} {decode : Option (AscendMLADecodeMetadata μ)}
    (hok : decodeMetadata c specAttnMask (decodesOf requests) (decodesOf requests) = .ok decode) :
    ∃ d, decode = some d ∧ DescribesDecodes c requests 0 (decodesOf requests) d := by
  rw [decodeMetadata, if_pos hpos] at hok
  simp only [bind_eq_ok, orRaise_eq_ok] at hok
  obtain ⟨maxSeqLens, hmax, hok⟩ := hok
  cases hok
  refine ⟨_, rfl, rfl, rfl, rfl, ?_, hmax⟩
  rw [h.tokensBefore_decodes le_rfl, h.tokensBefore_decodes (Nat.zero_le _)]
  rfl

/-- **`build` describes the batch.** -/
theorem AscendMLAMetadataBuilder.build_describes (h : HoldsRequests c requests)
    (hloc : c.queryStartLoc = c.queryStartLocCpu) {headSize : ℕ} {attnMask specAttnMask : Option (List (List μ))}
    {md : AscendMLAMetadata μ} (hok : builder.build headSize attnMask specAttnMask c = .ok md) :
    Describes c requests builder.chunkedPrefillEnabled 0 requests.length md ∧
      md.queryLens = some (queryLensOf c) ∧ md.attnState = c.attnState ∧
      (decodesOf requests < requests.length → ∃ p, md.prefill = some p ∧
        p.seqLens = c.seqLensCpu.take c.numReqs) := by
  obtain ⟨numPrefillTokens, hsplit⟩ := h.split
  rw [AscendMLAMetadataBuilder.build, hsplit] at hok
  simp only [bind_eq_ok] at hok
  obtain ⟨prefill, hprefill, _, hparts, decode, hdecode, hok⟩ := hok
  cases hparts
  cases hok
  have hmin := min_decodesOf requests
  have hzero : tokensBefore requests 0 = 0 := rfl
  refine ⟨⟨⟨?_, ?_, ?_, ?_, ?_, ?_⟩, fun hpos => ?_, fun hlt => ?_⟩, rfl, rfl, fun hlt => ?_⟩
  · rw [hzero, h.tokensBefore_length, Nat.cast_zero, sub_zero]
  · have hall : (c.slotMappingCpu.take c.numActualTokens).length ≤ tokensBefore requests requests.length := by
      rw [h.tokensBefore_length]
      exact List.length_take_le _ _
    rw [hzero, between_of_length_le hall]
    rfl
  · have hstart : c.queryStartLoc.getD 0 0 = 0 := by rw [hloc, h.metadata.queryStartLocCpu]; rfl
    have hall : c.queryStartLoc.length ≤ requests.length + 1 := by
      rw [hloc, h.metadata.queryStartLocCpu, List.length_cons, length_cumsum, List.length_map]
    simp only [hstart, sub_zero, List.map_id', between_of_length_le hall, List.drop_zero]
  · rw [hmin, Nat.sub_zero]
  · rw [hmin, Nat.sub_zero]
  · rw [Nat.max_eq_right (Nat.zero_le _)]
  · rw [hmin] at hpos ⊢
    exact decodeMetadata_describes h hpos hdecode
  · rw [Nat.max_eq_right (Nat.zero_le _)] at hlt ⊢
    obtain ⟨p, rfl, -, hp⟩ := prefill_describes h hloc hlt hprefill attnMask
    exact ⟨_, rfl, hp⟩
  · obtain ⟨p, rfl, hp, -⟩ := prefill_describes h hloc hlt hprefill attnMask
    exact ⟨_, rfl, hp⟩

end Whole

/-! ## The two parts -/

section Cut

variable {c : Torchair.AscendCommonAttentionMetadata} {requests : List MLARequest} {chunked : Bool}
  {md pre post : AscendMLAMetadata μ} {s : ℕ}

/-- The start locations of the first part. -/
theorem rebase_take {loc : List ℤ} {lo mid hi : ℕ} (a : ℤ) (h : mid ≤ hi) :
    ((between loc lo hi).map (· - a)).take (mid - lo) = (between loc lo mid).map (· - a) := by
  rw [← List.map_take, take_between h]

/-- The start locations of the second part count from its first request. -/
theorem rebase_drop {loc : List ℤ} {lo mid hi : ℕ} {start : ℤ} (h : lo ≤ mid)
    (hstart : item ((between loc lo hi).map (· - loc.getD lo 0)) ((mid - lo : ℕ) : ℤ) = some start) :
    (((between loc lo hi).map (· - loc.getD lo 0)).drop (mid - lo)).map (· - start) =
      (between loc mid hi).map (· - loc.getD mid 0) := by
  rw [item_natCast, List.getElem?_map, Option.map_eq_some_iff] at hstart
  obtain ⟨x, hx, rfl⟩ := hstart
  have hat : loc[mid]? = some x := by
    rw [between, List.getElem?_drop, Nat.add_sub_cancel' h, List.getElem?_take] at hx
    exact (Option.ite_none_right_eq_some.mp hx).2
  have hgetD : loc.getD mid 0 = x := by rw [List.getD_eq_getElem?_getD, hat, Option.getD_some]
  rw [← List.map_drop, drop_between h, List.map_map, hgetD]
  exact List.map_congr_left fun y _ => sub_sub_sub_cancel_right y x _

/-- All lengths are found. -/
theorem wholeSeqLens_eq (h : HoldsRequests c requests) (hne : requests ≠ [])
    (hwhole : Describes c requests chunked 0 requests.length md)
    (hprefill : decodesOf requests < requests.length → ∃ p, md.prefill = some p ∧
      p.seqLens = c.seqLensCpu.take c.numReqs) : md.wholeSeqLens = some (c.seqLensCpu.take c.numReqs) := by
  have hle := decodesOf_le requests
  have hpos := List.length_pos_of_ne_nil hne
  rw [AscendMLAMetadata.wholeSeqLens, hwhole.numPrefills]
  rcases hle.lt_or_eq with hlt | heq
  · obtain ⟨p, hp, hseqLens⟩ := hprefill hlt
    rw [if_pos (by omega), hp, Option.map_some, hseqLens]
  · obtain ⟨d, hd, hdescribes⟩ := hwhole.decodes (by omega)
    rw [if_neg (by omega), hd, Option.map_some, hdescribes.seqLens, heq, Nat.min_self,
      between_of_length_le h.length_seqLens.le, List.drop_zero]

/-- **What is counted is cut exactly**, and what is left is to cut the phases. -/
theorem cut_outlines (h : HoldsRequests c requests) (hlt : s < requests.length)
    (hwhole : Describes c requests chunked 0 requests.length md)
    (hprefill : decodesOf requests < requests.length → ∃ p, md.prefill = some p ∧
      p.seqLens = c.seqLensCpu.take c.numReqs)
    (hcut : md.cut (tokensBefore requests s : ℤ) (s : ℤ) = some (pre, post)) :
    Outlines c requests 0 s pre ∧ Outlines c requests s requests.length post ∧ ∃ attnMask,
      splitPhases md (tokensBefore requests s : ℤ) (s : ℤ) ((s - decodesOf requests : ℕ) : ℤ)
        (c.seqLensCpu.take c.numReqs) attnMask = some ((pre.prefill, pre.decode), post.prefill, post.decode) := by
  have hne : requests ≠ [] := List.ne_nil_of_length_pos (Nat.zero_lt_of_lt hlt)
  have hle := decodesOf_le requests
  have htokens := h.tokensBefore_length
  have hmono : tokensBefore requests s ≤ tokensBefore requests requests.length := tokensBefore_mono hlt.le
  have hge : s ≤ tokensBefore requests s := le_tokensBefore hlt.le
  have hdecodes : s ≤ decodesOf requests → tokensBefore requests s = s := h.tokensBefore_decodes
  have hpre : (splitAttnIntType md.numPrefills (max 0 ((s : ℤ) - md.numDecodes))).1 =
      ((s - decodesOf requests : ℕ) : ℤ) := by
    rw [splitAttnIntType, hwhole.numPrefills, hwhole.numDecodes]
    omega
  rw [AscendMLAMetadata.cut, wholeSeqLens_eq h hne hwhole hprefill, hpre, hwhole.queryStartLoc] at hcut
  simp only [Option.bind_eq_bind, Option.bind_some, Option.bind_eq_some_iff, splitQueryStartLoc,
    splitAttnTensorType_natCast] at hcut
  obtain ⟨loc, ⟨start, hstart, hloc⟩, attnMask, -, masks, -, phases, hphases, hcut⟩ := hcut
  cases hloc
  cases hcut
  have hslots := hwhole.slotMapping
  refine ⟨⟨?_, ?_, ?_, ?_, ?_, ?_⟩, ⟨?_, ?_, ?_, ?_, ?_, ?_⟩, _, hphases⟩
  · exact (sub_zero _).symm
  · change md.slotMapping.take _ = _
    rw [hslots]
    exact @take_between _ _ 0 _ _ hmono
  · rw [← Nat.cast_succ, splitAttnTensorType_natCast]
    exact congrArg some (@rebase_take _ 0 _ _ _ (Nat.succ_le_succ hlt.le))
  · change (splitAttnIntType md.numDecodes s).1 = _
    rw [splitAttnIntType, hwhole.numDecodes]
    omega
  · change (splitAttnIntType md.numDecodeTokens (tokensBefore requests s)).1 = _
    rw [splitAttnIntType, hwhole.numDecodeTokens]
    omega
  · rw [Nat.max_eq_right (Nat.zero_le _)]
  · change md.numActualTokens - _ = _
    rw [hwhole.numActualTokens]
    exact sub_right_comm _ _ _ |>.trans (sub_zero _)
  · change md.slotMapping.drop _ = _
    rw [hslots]
    exact @drop_between _ _ 0 _ _ (Nat.zero_le _)
  · exact congrArg some (@rebase_drop _ 0 _ _ _ (Nat.zero_le _) hstart)
  · change (splitAttnIntType md.numDecodes s).2 = _
    rw [splitAttnIntType, hwhole.numDecodes]
    omega
  · change (splitAttnIntType md.numDecodeTokens (tokensBefore requests s)).2 = _
    rw [splitAttnIntType, hwhole.numDecodeTokens]
    omega
  · change (splitAttnIntType md.numPrefills (max 0 ((s : ℤ) - md.numDecodes))).2 = _
    rw [splitAttnIntType, hwhole.numPrefills, hwhole.numDecodes]
    omega

/-- **Cut among the decodes**, the first part is described; the second one has the lengths of its prefills among
those of its decodes. -/
theorem cut_early (h : HoldsRequests c requests) (hpos : 0 < s) (hlt : s < requests.length)
    (hle : s ≤ decodesOf requests) (hwhole : Describes c requests chunked 0 requests.length md)
    (hpre : Outlines c requests 0 s pre) (hpost : Outlines c requests s requests.length post)
    {attnMask : Option (List (List μ)) × Option (List (List μ))}
    (hphases : splitPhases md (tokensBefore requests s : ℤ) (s : ℤ) ((s - decodesOf requests : ℕ) : ℤ)
      (c.seqLensCpu.take c.numReqs) attnMask = some ((pre.prefill, pre.decode), post.prefill, post.decode)) :
    Describes c requests chunked 0 s pre ∧ (Describes c requests chunked s requests.length post ↔
      (s < decodesOf requests → decodesOf requests = requests.length)) := by
  have hmin := min_decodesOf requests
  obtain ⟨d, hd, hdecode⟩ := hwhole.decodes (by omega)
  rw [hmin] at hdecode
  rw [splitPhases, if_neg (by omega), hd, Option.bind_eq_bind, Option.bind_some] at hphases
  simp only [splitDecode, Option.bind_eq_bind, Option.bind_eq_some_iff, splitAttnTensorType_natCast] at hphases
  obtain ⟨parts, ⟨maxPre, hmaxPre, maxPost, hmaxPost, hparts⟩, hphases⟩ := hphases
  cases hparts
  simp only [Option.pure_def, Option.some.injEq, Prod.mk.injEq] at hphases
  obtain ⟨⟨-, hdecodePre⟩, hprefillPost, hdecodePost⟩ := hphases
  refine ⟨⟨hpre, fun _ => ⟨_, hdecodePre.symm, ?_⟩, fun hprefills => ?_⟩, fun hdescribes hearly => ?_, fun hall => ?_⟩
  · rw [Nat.min_eq_left hle]
    refine ⟨?_, rfl, rfl, ?_, hmaxPre⟩
    · exact (congrArg (List.take s) hdecode.blockTable).trans (@take_between _ _ 0 _ _ hle)
    · exact (congrArg (List.take _) hdecode.inputPositions).trans (@take_between _ _ 0 _ _ (tokensBefore_mono hle))
  · omega
  · by_contra hmore
    obtain ⟨d', hd', hdecode'⟩ := hdescribes.decodes (by omega)
    obtain rfl := Option.some.inj (hdecodePost.trans hd')
    have hlength := congrArg List.length hdecode'.seqLens
    have hlens := h.length_seqLens
    change ((c.seqLensCpu.take c.numReqs).drop s).length = _ at hlength
    generalize c.seqLensCpu.take c.numReqs = lens at hlength hlens
    rw [hmin, List.length_drop, between, List.length_drop, List.length_take] at hlength
    omega
  · refine ⟨hpost, fun hdecodes => ⟨_, hdecodePost.symm, ?_⟩, fun hprefills => ?_⟩
    · rw [hmin] at hdecodes ⊢
      have heq := hall hdecodes
      refine ⟨?_, ?_, rfl, ?_, hmaxPost⟩
      · exact (congrArg (List.drop s) hdecode.blockTable).trans (@drop_between _ _ 0 _ _ (Nat.zero_le _))
      · rw [heq, between_of_length_le h.length_seqLens.le]
      · exact (congrArg (List.drop _) hdecode.inputPositions).trans (@drop_between _ _ 0 _ _ (Nat.zero_le _))
    · rw [Nat.max_eq_right hle] at hprefills ⊢
      obtain ⟨p, hp, hprefill⟩ := hwhole.prefills (by omega)
      rw [Nat.max_eq_right (Nat.zero_le _)] at hprefill
      exact ⟨p, hprefillPost.symm.trans hp, hprefill⟩

/-- **Cut among the prefills**, both parts are described as long as no context is to be loaded. -/
theorem cut_late (h : HoldsRequests c requests) (hlt : s < requests.length) (hgt : decodesOf requests < s)
    (hwhole : Describes c requests chunked 0 requests.length md)
    (hpre : Outlines c requests 0 s pre) (hpost : Outlines c requests s requests.length post)
    {attnMask : Option (List (List μ)) × Option (List (List μ))}
    (hphases : splitPhases md (tokensBefore requests s : ℤ) (s : ℤ) ((s - decodesOf requests : ℕ) : ℤ)
      (c.seqLensCpu.take c.numReqs) attnMask = some ((pre.prefill, pre.decode), post.prefill, post.decode)) :
    (Describes c requests chunked 0 s pre ↔
      (chunked = true → ∀ r ∈ between requests (decodesOf requests) s, r.numComputedTokens = 0)) ∧
    (Describes c requests chunked s requests.length post ↔
      (chunked = true → ∀ r ∈ requests.drop s, r.numComputedTokens = 0)) := by
  have hmin := min_decodesOf requests
  have htokens := h.tokensBefore_decodes (le_refl (decodesOf requests))
  have hmono : tokensBefore requests (decodesOf requests) ≤ tokensBefore requests s := tokensBefore_mono hgt.le
  obtain ⟨p, hp, hprefill⟩ := hwhole.prefills (by omega)
  rw [Nat.max_eq_right (Nat.zero_le _)] at hprefill
  have hnumDecodes : md.numDecodes = (decodesOf requests : ℕ) := by rw [hwhole.numDecodes, hmin, Nat.sub_zero]
  have hnumDecodeTokens : md.numDecodeTokens = (decodesOf requests : ℕ) := by
    rw [hwhole.numDecodeTokens, hmin, Nat.sub_zero]
  have hrequest : (s : ℤ) - decodesOf requests = ((s - decodesOf requests : ℕ) : ℤ) := by omega
  have hnext : (s : ℤ) + 1 - decodesOf requests = ((s + 1 - decodesOf requests : ℕ) : ℤ) := by omega
  have htoken : (tokensBefore requests s : ℤ) - decodesOf requests =
      ((tokensBefore requests s - tokensBefore requests (decodesOf requests) : ℕ) : ℤ) := by omega
  rw [splitPhases, if_pos (by omega), hp, Option.bind_eq_bind, Option.bind_some] at hphases
  simp only [splitPrefill, Option.bind_eq_bind, Option.bind_eq_some_iff, hnumDecodes,
    hnumDecodeTokens, hrequest, hnext, htoken, splitAttnTensorType_natCast] at hphases
  obtain ⟨parts, ⟨start, hstart, maxQueryPre, hmaxQueryPre, maxQueryPost, hmaxQueryPost, maxPre, hmaxPre, maxPost,
    hmaxPost, hparts⟩, hphases⟩ := hphases
  cases hparts
  simp only [Option.pure_def, Option.some.injEq, Prod.mk.injEq] at hphases
  obtain ⟨⟨hprefillPre, hdecodePre⟩, hprefillPost, -⟩ := hphases
  have hmaxPreLo : max 0 (decodesOf requests) = decodesOf requests := Nat.max_eq_right (Nat.zero_le _)
  have hmaxPostLo : max s (decodesOf requests) = s := Nat.max_eq_left hgt.le
  have hrest : between requests s requests.length = requests.drop s := between_of_length_le le_rfl
  refine ⟨⟨fun hdescribes => ?_, fun hnone => ⟨hpre, fun hdecodes => ?_, fun _ => ⟨_, hprefillPre.symm, ?_⟩⟩⟩,
    fun hdescribes => ?_, fun hnone => ⟨hpost, fun hdecodes => ?_, fun _ => ⟨_, hprefillPost.symm, ?_⟩⟩⟩
  · obtain ⟨q, hq, hdescribed⟩ := hdescribes.prefills (by omega)
    obtain rfl := Option.some.inj (hprefillPre.trans hq)
    rw [hmaxPreLo] at hdescribed
    exact hdescribed.chunkedContext.mp rfl
  · rw [Nat.min_eq_right hgt.le] at hdecodes ⊢
    obtain ⟨d, hd, hdecode⟩ := hwhole.decodes (by omega)
    rw [hmin] at hdecode
    exact ⟨d, hdecodePre.symm.trans hd, hdecode⟩
  · rw [hmaxPreLo]
    refine ⟨?_, ?_, rfl, ?_, ?_, hmaxQueryPre, hmaxPre, iff_of_true rfl hnone⟩
    · exact (congrArg (List.take _) hprefill.blockTable).trans (take_between hlt.le)
    · exact (congrArg (List.take _) hprefill.queryLens).trans (take_between hlt.le)
    · exact (congrArg (List.take _) hprefill.inputPositions).trans (take_between (tokensBefore_mono hlt.le))
    · exact (congrArg (List.take _) hprefill.queryStartLoc).trans (rebase_take _ (Nat.succ_le_succ hlt.le))
  · obtain ⟨q, hq, hdescribed⟩ := hdescribes.prefills (by omega)
    obtain rfl := Option.some.inj (hprefillPost.trans hq)
    rw [hmaxPostLo] at hdescribed
    exact hrest ▸ hdescribed.chunkedContext.mp rfl
  · omega
  · rw [hmaxPostLo]
    refine ⟨?_, ?_, ?_, ?_, ?_, hmaxQueryPost, hmaxPost, iff_of_true rfl (hrest.symm ▸ hnone)⟩
    · exact (congrArg (List.drop _) hprefill.blockTable).trans (drop_between hgt.le)
    · exact (congrArg (List.drop _) hprefill.queryLens).trans (drop_between hgt.le)
    · exact (between_of_length_le h.length_seqLens.le).symm
    · exact (congrArg (List.drop _) hprefill.inputPositions).trans (drop_between hmono)
    · rw [hprefill.queryStartLoc] at hstart ⊢
      exact rebase_drop hgt.le hstart

/-- What is computed is a boundary between two requests, or the front of the batch. -/
theorem exists_boundary (h : HoldsRequests c requests) (attnState : AscendAttentionState) :
    ∃ s : ℕ, s ≤ requests.length ∧ computeSplitSeqIndex (some (queryLensOf c)) attnState (decodesOf requests : ℕ)
      (1 / 10) = some ((tokensBefore requests s : ℤ), (s : ℤ)) := by
  by_cases hstate : attnState = .decodeOnly
  · refine ⟨decodesOf requests / 2, (Nat.div_le_self _ _).trans (decodesOf_le requests), ?_⟩
    rw [computeSplitSeqIndex, if_neg (not_not.mpr hstate), h.tokensBefore_decodes (Nat.div_le_self _ _)]
    rfl
  · have hnonneg : ∀ q ∈ queryLensOf c, 0 ≤ q := by
      rw [h.queryLensOf_eq]
      exact List.forall_mem_map.mpr fun r _ => Int.natCast_nonneg _
    obtain ⟨t, s, hsplitsAt, hsplits⟩ := exists_splitsAt hnonneg hstate (decodesOf requests : ℕ)
    rw [hsplitsAt]
    rcases hsplits.sound with hzero | hboundary
    · obtain ⟨rfl, rfl⟩ := Prod.mk.inj hzero
      exact ⟨0, Nat.zero_le _, rfl⟩
    · obtain rfl : t = tokensBefore requests s := hboundary.sum.trans (h.sum_take_queryLens s)
      exact ⟨s, hboundary.le.trans_eq h.length_queryLens, rfl⟩

/-- Where a batch is cut, there are requests on both sides. -/
theorem exists_cut (h : HoldsRequests c requests) (hqueryLens : md.queryLens = some (queryLensOf c))
    (hnumDecodeTokens : md.numDecodeTokens = (decodesOf requests : ℕ)) {numMicroBatches : ℕ}
    (hsplit : modelInputSplitV1MlaAttn md numMicroBatches = some [pre, post]) :
    ∃ s, 0 < s ∧ s < requests.length ∧ md.cut (tokensBefore requests s : ℤ) (s : ℤ) = some (pre, post) := by
  obtain ⟨s, hle, hindex⟩ := exists_boundary h md.attnState
  rw [modelInputSplitV1MlaAttn, hqueryLens, hnumDecodeTokens, hindex] at hsplit
  simp only [Option.bind_eq_bind, Option.bind_some] at hsplit
  obtain ⟨-, -, hsplit⟩ := Option.bind_eq_some_iff.mp hsplit
  split at hsplit
  · cases hsplit
  · next hfront =>
    rw [h.length_queryLens] at hsplit
    split at hsplit
    · cases hsplit
    · next hend =>
      obtain ⟨parts, hcut, hparts⟩ := Option.bind_eq_some_iff.mp hsplit
      cases hparts
      exact ⟨s, by omega, by omega, hcut⟩

/-- What becomes of metadata that describes its batch. -/
theorem split_describes (h : HoldsRequests c requests) (hwhole : Describes c requests chunked 0 requests.length md)
    (hqueryLens : md.queryLens = some (queryLensOf c))
    (hprefill : decodesOf requests < requests.length → ∃ p, md.prefill = some p ∧
      p.seqLens = c.seqLensCpu.take c.numReqs) {numMicroBatches : ℕ}
    (hsplit : modelInputSplitV1MlaAttn md numMicroBatches = some [pre, post]) :
    ∃ s, 0 < s ∧ s < requests.length ∧ Outlines c requests 0 s pre ∧ Outlines c requests s requests.length post ∧
      (Describes c requests chunked 0 s pre ↔ (decodesOf requests < s → chunked = true →
        ∀ r ∈ between requests (decodesOf requests) s, r.numComputedTokens = 0)) ∧
      (Describes c requests chunked s requests.length post ↔
        (s < decodesOf requests → decodesOf requests = requests.length) ∧
        (decodesOf requests < s → chunked = true → ∀ r ∈ requests.drop s, r.numComputedTokens = 0)) := by
  have hmin := min_decodesOf requests
  have hnumDecodeTokens : md.numDecodeTokens = (decodesOf requests : ℕ) := by
    rw [hwhole.numDecodeTokens, hmin, Nat.sub_zero]
  obtain ⟨s, hpos, hlt, hcut⟩ := exists_cut h hqueryLens hnumDecodeTokens hsplit
  obtain ⟨hpre, hpost, masks, hphases⟩ := cut_outlines h hlt hwhole hprefill hcut
  refine ⟨s, hpos, hlt, hpre, hpost, ?_⟩
  rcases Nat.lt_or_ge (decodesOf requests) s with hgt | hle
  · obtain ⟨hfirst, hsecond⟩ := cut_late h hlt hgt hwhole hpre hpost hphases
    exact ⟨hfirst.trans ⟨fun hnone _ => hnone, fun hnone => hnone hgt⟩,
      hsecond.trans ⟨fun hnone => ⟨fun hearly => absurd hearly hgt.le.not_gt, fun _ => hnone⟩,
        fun hnone => hnone.2 hgt⟩⟩
  · obtain ⟨hfirst, hsecond⟩ := cut_early h hpos hlt hle hwhole hpre hpost hphases
    exact ⟨iff_of_true hfirst fun hgt => absurd hgt hle.not_gt,
      hsecond.trans ⟨fun hall => ⟨hall, fun hgt => absurd hgt hle.not_gt⟩, fun hall => hall.1⟩⟩

/-- **Which cuts describe their requests.**  Whatever the batch, the counts, the slots and the start locations of the
two parts are those of the first `s` requests and of the rest.  The first part describes its requests unless it has
prefills whose contexts were to be loaded; the second one unless it was cut from decodes before prefills, or from
prefills while it has contexts to load. -/
theorem modelInputSplit_iff (h : HoldsRequests c requests) (hloc : c.queryStartLoc = c.queryStartLocCpu)
    {builder : AscendMLAMetadataBuilder} {headSize : ℕ} {attnMask specAttnMask : Option (List (List μ))}
    (hbuild : builder.build headSize attnMask specAttnMask c = .ok md) (numInputTokens : ℤ) {numMicroBatches : ℕ}
    (hsplit : modelInputSplitV1MlaAttn { md with numInputTokens := numInputTokens } numMicroBatches =
      some [pre, post]) :
    ∃ s, 0 < s ∧ s < requests.length ∧ Outlines c requests 0 s pre ∧ Outlines c requests s requests.length post ∧
      (Describes c requests builder.chunkedPrefillEnabled 0 s pre ↔
        (decodesOf requests < s → builder.chunkedPrefillEnabled = true →
          ∀ r ∈ between requests (decodesOf requests) s, r.numComputedTokens = 0)) ∧
      (Describes c requests builder.chunkedPrefillEnabled s requests.length post ↔
        (s < decodesOf requests → decodesOf requests = requests.length) ∧
        (decodesOf requests < s → builder.chunkedPrefillEnabled = true →
          ∀ r ∈ requests.drop s, r.numComputedTokens = 0)) := by
  obtain ⟨hwhole, hqueryLens, -, hprefill⟩ := builder.build_describes h hloc hbuild
  generalize hpadded : { md with numInputTokens := numInputTokens } = padded at hsplit
  have hdescribes : Describes c requests builder.chunkedPrefillEnabled 0 requests.length padded := by
    subst hpadded
    exact ⟨⟨hwhole.numActualTokens, hwhole.slotMapping, hwhole.queryStartLoc, hwhole.numDecodes,
      hwhole.numDecodeTokens, hwhole.numPrefills⟩, hwhole.decodes, hwhole.prefills⟩
  exact split_describes h hdescribes (hpadded ▸ hqueryLens) (hpadded ▸ hprefill) hsplit

end Cut

/-- A decode, a prefill that goes on, and a new one. -/
def goingOn : Torchair.AscendCommonAttentionMetadata where
  queryStartLoc := [0, 1, 3, 6]
  queryStartLocCpu := [0, 1, 3, 6]
  seqLensCpu := [4, 4, 3]
  numReqs := 3
  numActualTokens := 6
  maxQueryLen := 3
  decodeTokenPerReq := 1
  blockTableTensor := [[0, 1], [2, 3], [4, 5]]
  slotMappingCpu := [3, 6, 7, 8, 9, 10]
  actualSeqLengthsQ := []
  positions := [3, 2, 3, 0, 1, 2]
  attnState := .chunkedPrefill
  enableDboAcrossDp := false
  graphPadSize := -1

def goingOnRequests : List MLARequest :=
  [⟨3, 1, Nat.le_add_left 1 0⟩, ⟨2, 2, Nat.le_add_left 1 1⟩, ⟨0, 3, Nat.le_add_left 1 2⟩]

theorem goingOn_holds : HoldsRequests goingOn goingOnRequests where
  metadata := ⟨rfl, rfl, rfl, rfl⟩
  seqLens := rfl
  decodesFirst := by
    rw [DecodesFirst]
    decide

/-- **The prefill that goes on is cut off from its context**; the new one is described. -/
theorem modelInputSplit_cutsContext : ∃ md pre post : AscendMLAMetadata ℕ,
    (⟨2, 4, true, 8⟩ : AscendMLAMetadataBuilder).build 8 (some []) none goingOn = .ok md ∧
    modelInputSplitV1MlaAttn md 2 = some [pre, post] ∧ ¬Describes goingOn goingOnRequests true 0 2 pre ∧
    Describes goingOn goingOnRequests true 2 3 post := by
  obtain ⟨⟨md, parts⟩, hok, htokens⟩ : Returns (do
      let md ← (⟨2, 4, true, 8⟩ : AscendMLAMetadataBuilder).build 8 (some ([] : List (List ℕ))) none goingOn
      return (md, ← orRaise .assertion (modelInputSplitV1MlaAttn md 2)) : Except BuildError _)
      fun r => r.2.map (·.numActualTokens) = [3, 3] := by
    decide +kernel
  simp only [bind_eq_ok, orRaise_eq_ok] at hok
  obtain ⟨md', hbuild, parts', hsplit, hok⟩ := hok
  cases hok
  obtain ⟨pre, post, rfl⟩ := List.length_eq_two.mp ((List.length_map _).symm.trans (congrArg List.length htokens))
  obtain ⟨s, hpos, hlt, hpre, -, hfirst, hsecond⟩ :=
    modelInputSplit_iff goingOn_holds rfl hbuild md.numInputTokens hsplit
  obtain rfl : s = 2 := by
    have hthree : pre.numActualTokens = 3 := (List.cons.inj htokens).1
    have hcount := hpre.numActualTokens.symm.trans hthree
    have hbound : s < 3 := hlt
    interval_cases s
    · exact absurd hcount (by decide)
    · rfl
  exact ⟨md, pre, post, hbuild, hsplit, fun hdescribes => absurd (hfirst.mp hdescribes) (by decide),
    hsecond.mpr (by decide)⟩

end VllmAscend
