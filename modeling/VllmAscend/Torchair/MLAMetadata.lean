import VllmAscend.Machinery.Ragged
import VllmAscend.Torchair.GraphBatchSizes

/-!
# Torchair/MLAMetadata — the metadata of a padded decode step

    requests   q₀ ········ qₙ₋₁   0 ······ 0            g / m rows
    tokens     ········ sum q     ·········· g          g places

A decode graph is compiled for `g` tokens and `g / m` requests of `m` tokens each.
`AscendMLATorchairMetadataBuilder.build` fills the rows behind the real ones.  The size `g` is
selected for the number of tokens, so the number of rows to fill, `g / m - n`, is not negative only
while the requests are few enough: `decodePadded_iff`.
-/

namespace VllmAscend.Torchair

open Machinery

inductive AscendAttentionState where
  | prefillNoCache
  | prefillCacheHit
  | decodeOnly
  | chunkedPrefill
  | specDecoding
deriving DecidableEq

inductive SpeculativeMethod where
  | ngram
  | eagle
  | eagle3
  | deepseekMtp
deriving DecidableEq

/-- What `_build_attn_state` reads of the runner. -/
structure AttnStateConfig where
  speculativeMethod : Option SpeculativeMethod
  useEagle : Bool
  ascendSchedulerEnabled : Bool
  chunkedPrefillEnabled : Bool

/-- `_build_attn_state`. -/
def buildAttnState (c : AttnStateConfig)
    (seqLens numScheduledTokens numValidTokens : List ℕ) : AscendAttentionState :=
  if seqLens.take numScheduledTokens.length = numScheduledTokens then .prefillNoCache
  else if ∀ q ∈ numScheduledTokens, q = 1 then
    if c.speculativeMethod = some .deepseekMtp then .specDecoding else .decodeOnly
  else if ∀ v ∈ numValidTokens, v = 1 then
    if c.useEagle then .chunkedPrefill else .specDecoding
  else if !c.ascendSchedulerEnabled || c.chunkedPrefillEnabled then .chunkedPrefill
  else .prefillCacheHit

/-- The fields of `AscendCommonAttentionMetadata` that the builder reads. -/
structure AscendCommonAttentionMetadata where
  queryStartLoc : List ℤ
  queryStartLocCpu : List ℤ
  seqLensCpu : List ℕ
  numReqs : ℕ
  numActualTokens : ℕ
  maxQueryLen : ℕ
  decodeTokenPerReq : ℕ
  blockTableTensor : List (List ℕ)
  slotMappingCpu : List ℤ
  actualSeqLengthsQ : List ℤ
  positions : List ℕ
  attnState : AscendAttentionState
  enableDboAcrossDp : Bool
  graphPadSize : ℤ

inductive BuildError where
  | assertion
  /-- a dimension of a new tensor is negative -/
  | negativeDimension
  | shapeMismatch
  | indexError
  /-- the maximum of no entries, or a division by none -/
  | emptyReduction
deriving DecidableEq

/-- `split_decodes_and_prefills`: the numbers of decodes, of prefills and of the tokens of each. -/
def splitDecodesAndPrefills (c : AscendCommonAttentionMetadata) (decodeThreshold : ℕ) :
    Except BuildError (ℕ × ℕ × ℤ × ℤ) :=
  if c.maxQueryLen ≤ decodeThreshold then .ok (c.numReqs, 0, c.numActualTokens, 0)
  else
    let queryLens := List.zipWith (· - ·) (c.queryStartLocCpu.drop 1) c.queryStartLocCpu
    match queryLens.findIdx? ((decodeThreshold : ℤ) < ·) with
    | none => .ok (c.numReqs, 0, c.numActualTokens, 0)
    | some firstPrefill =>
      if (∀ q ∈ queryLens.drop firstPrefill, (decodeThreshold : ℤ) ≤ q) ∧
          ∀ q ∈ queryLens.take firstPrefill, q ≤ decodeThreshold then
        let numDecodeTokens := c.queryStartLocCpu.getD firstPrefill 0
        .ok (firstPrefill, c.numReqs - firstPrefill, numDecodeTokens,
          c.numActualTokens - numDecodeTokens)
      else .error .assertion

/-! ## The prefills of a batch -/

structure TorchairChunkedContextMetadata where
  cuSeqLens : List (List ℤ)
  starts : List (List ℤ)
  seqTot : List ℤ
  maxSeqLens : List ℤ
  chunkSeqLens : List (List ℤ)
deriving DecidableEq

structure AscendMLATorchairPrefillMetadata (γ : Type) where
  queryLens : List ℤ
  seqLens : List ℕ
  contextLens : List ℕ
  inputPositions : List ℕ
  blockTable : List (List ℕ)
  maxQueryLen : ℤ
  maxSeqLens : ℕ
  queryStartLoc : List ℤ
  chunkedContext : Option TorchairChunkedContextMetadata
  sin : List γ
  cos : List γ

structure AscendMLATorchairDecodeMetadata (γ : Type) where
  inputPositions : List ℕ
  blockTable : List (List ℕ)
  seqLens : List ℕ
  maxSeqLens : ℕ
  seqLensList : List ℕ
  actualSeqLengthsQ : List ℤ
  sin : List γ
  cos : List γ

structure AscendMLATorchairMetadata (γ : Type) where
  numActualTokens : ℕ
  queryLens : List ℤ
  slotMapping : List ℤ
  numDecodes : ℕ
  numDecodeTokens : ℤ
  numPrefills : ℕ
  attnState : AscendAttentionState
  prefill : Option (AscendMLATorchairPrefillMetadata γ)
  decode : Option (AscendMLATorchairDecodeMetadata γ)
  queryStartLoc : List ℤ
  blockTables : List (List ℕ)
  seqLens : List ℕ
  enableDboAcrossDp : Bool

/-- `AscendMLATorchairMetadataBuilder`, with the rows of the model's rotary caches. -/
structure MetadataBuilder (γ : Type) where
  torchairGraphEnabled : Bool
  chunkedPrefillEnabled : Bool
  chunkedPrefillWorkspaceSize : ℕ
  blockSize : ℕ
  maxBlocks : ℕ
  cosCache : List γ
  sinCache : List γ

/-- `PAD_SLOT_ID`. -/
def padSlotId : ℤ := -1

def orRaise {α : Type} (e : BuildError) : Option α → Except BuildError α
  | none => .error e
  | some x => .ok x

/-- `cache[positions]`. -/
def rows {γ : Type} (cache : List γ) (positions : List ℕ) : Except BuildError (List γ) :=
  orRaise .indexError (positions.mapM (cache[·]?))

/-- `torch.full((size,), value)`, or `torch.zeros`. -/
def full {α : Type} (size : ℤ) (value : α) : Except BuildError (List α) :=
  if size < 0 then .error .negativeDimension else .ok (List.replicate size.toNat value)

/-- The chunks of the contexts of the prefills. -/
def chunkedContext {γ : Type} (b : MetadataBuilder γ) (contextLens : List ℤ) (maxContextLen : ℤ) :
    Except BuildError TorchairChunkedContextMetadata := do
  let numPrefillsWithContext := contextLens.countP (0 < ·)
  let maxContextChunk : ℤ :=
    (b.chunkedPrefillWorkspaceSize / numPrefillsWithContext) / b.blockSize * b.blockSize
  if maxContextChunk ≤ 0 then throw .assertion
  let numChunks := ((maxContextLen + maxContextChunk - 1) / maxContextChunk).toNat
  let starts := (List.range numChunks).map fun i : ℕ =>
    List.replicate contextLens.length (i * maxContextChunk)
  let chunkSeqLens := starts.map fun row =>
    List.zipWith (fun context start => max (min context (start + maxContextChunk) - start) 0)
      contextLens row
  let maxSeqLens ← orRaise .emptyReduction (chunkSeqLens.mapM List.max?)
  return {
    cuSeqLens := chunkSeqLens.map fun row => 0 :: cumsum 0 row
    starts := starts
    seqTot := chunkSeqLens.map List.sum
    maxSeqLens := maxSeqLens
    chunkSeqLens := chunkSeqLens }

/-- The branch of `build` over the prefills. -/
def buildPrefill {γ : Type} (b : MetadataBuilder γ) (c : AscendCommonAttentionMetadata)
    (numDecodes : ℕ) (numDecodeTokens : ℤ) (queryLens : List ℤ) (seqLens inputPositions : List ℕ)
    (blockTable : List (List ℕ)) : Except BuildError (AscendMLATorchairPrefillMetadata γ) := do
  let tokensStart := numDecodeTokens.toNat
  let maxQueryLen ← orRaise .emptyReduction (queryLens.drop tokensStart).max?
  let maxSeqLens ← orRaise .emptyReduction (seqLens.drop tokensStart).max?
  let first := c.queryStartLoc.getD numDecodes 0
  let contextLens : List ℤ :=
    (List.zipWith (fun (s : ℕ) (q : ℤ) => (s : ℤ) - q) seqLens queryLens).drop numDecodes
  let maxContextLen ← orRaise .emptyReduction contextLens.max?
  let chunked ← if b.chunkedPrefillEnabled ∧ 0 < maxContextLen then
      (chunkedContext b contextLens maxContextLen).map some
    else .ok none
  let positions := inputPositions.drop tokensStart
  let cos ← rows b.cosCache positions
  let sin ← rows b.sinCache positions
  return {
    queryLens := queryLens.drop tokensStart
    seqLens := seqLens
    contextLens := seqLens.drop tokensStart
    inputPositions := positions
    blockTable := blockTable.drop numDecodes
    maxQueryLen := maxQueryLen
    maxSeqLens := maxSeqLens
    queryStartLoc := (c.queryStartLoc.drop numDecodes).map (· - first)
    chunkedContext := chunked
    sin := sin
    cos := cos }

/-! ## The decodes of a batch -/

/-- A row of a table of `maxBlocks` columns. -/
def fitRow (maxBlocks : ℕ) (row : List ℕ) : List ℕ :=
  if row.length ≤ maxBlocks then row ++ List.replicate (maxBlocks - row.length) 0
  else row.take maxBlocks

/-- `_get_graph_runner_block_tables`; the assignment spreads a single row. -/
def getGraphRunnerBlockTables (maxBlocks numSeqs : ℕ) (blockTables : List (List ℕ)) :
    Except BuildError (List (List ℕ)) :=
  let table := (blockTables.take numSeqs).map (fitRow maxBlocks)
  if table.length = numSeqs then .ok table
  else if table.length = 1 then .ok (List.replicate numSeqs (table.headD []))
  else .error .shapeMismatch

/-- What the padding of the decodes works on. -/
structure DecodeParts where
  seqLens : List ℕ
  slotMapping : List ℤ
  blockTable : List (List ℕ)
  inputPositions : List ℕ
  actualSeqLengthsQ : List ℤ
  numTokenPadSize : ℤ

/-- `num_token_pad_size`. -/
def tokenPadSize (c : AscendCommonAttentionMetadata) (numDecodeTokens : ℤ) : ℤ :=
  if c.graphPadSize ≠ 0 then c.graphPadSize - numDecodeTokens else 0

/-- `num_reqs_pad_size`. -/
def reqsPadSize (c : AscendCommonAttentionMetadata) : ℤ :=
  if c.graphPadSize ≠ 0 then c.graphPadSize / c.decodeTokenPerReq - c.numReqs else 0

/-- The branch of `build` that fills up the rows of a graph. -/
def padDecode {γ : Type} (b : MetadataBuilder γ) (c : AscendCommonAttentionMetadata)
    (numDecodeTokens : ℤ) (p : DecodeParts) : Except BuildError DecodeParts := do
  let numTokenPadSize := tokenPadSize c numDecodeTokens
  let numReqsPadSize := reqsPadSize c
  let slotPadding ← full numTokenPadSize padSlotId
  let width := (p.blockTable.headD []).length
  let blockTablePadding ← full numReqsPadSize (List.replicate width 0)
  let blockTable ← getGraphRunnerBlockTables b.maxBlocks (c.numReqs + numReqsPadSize).toNat
    (p.blockTable ++ blockTablePadding)
  let positionPadding ← full numTokenPadSize 0
  return {
    -- a list times a negative number is empty
    seqLens := p.seqLens ++ List.replicate numReqsPadSize.toNat 0
    slotMapping := p.slotMapping ++ slotPadding
    blockTable := blockTable
    inputPositions := p.inputPositions ++ positionPadding
    actualSeqLengthsQ := p.actualSeqLengthsQ ++
      (c.actualSeqLengthsQ.drop c.numReqs).take numReqsPadSize.toNat
    numTokenPadSize := numTokenPadSize }

/-- The graph's rows are filled up in the decode states only. -/
def padGraph {γ : Type} (b : MetadataBuilder γ) (c : AscendCommonAttentionMetadata)
    (numDecodeTokens : ℤ) (p : DecodeParts) : Except BuildError DecodeParts :=
  if c.graphPadSize ≠ -1 ∧ (c.attnState = .decodeOnly ∨ c.attnState = .specDecoding) then
    padDecode b c numDecodeTokens p
  else .ok p

/-- `actual_seq_lengths_q[-1] = batch_size`, where it is something else. -/
def endAt (batchSize : ℤ) (state : AscendAttentionState) (lengths : List ℤ) :
    Except BuildError (List ℤ) :=
  match lengths.getLast? with
  | none => .error .indexError
  | some last =>
    .ok (if last ≠ batchSize ∧ state = .specDecoding then lengths.dropLast ++ [batchSize]
      else lengths)

/-- The branch of `build` over the decodes, with the parts that the rest of it returns too. -/
def buildDecode {γ : Type} (b : MetadataBuilder γ) (c : AscendCommonAttentionMetadata)
    (numDecodes : ℕ) (numDecodeTokens : ℤ) (p : DecodeParts) :
    Except BuildError (DecodeParts × AscendMLATorchairDecodeMetadata γ) := do
  let maxSeqLens ← orRaise .emptyReduction (p.seqLens.take numDecodes).max?
  let parts ← padGraph b c numDecodeTokens {
    seqLens := p.seqLens.take numDecodeTokens.toNat
    slotMapping := p.slotMapping
    blockTable := p.blockTable.take numDecodeTokens.toNat
    inputPositions := p.inputPositions.take numDecodeTokens.toNat
    actualSeqLengthsQ := (c.queryStartLoc.drop 1).take numDecodes
    numTokenPadSize := 0 }
  let actualSeqLengthsQ ←
    endAt (numDecodeTokens + parts.numTokenPadSize) c.attnState parts.actualSeqLengthsQ
  let cos ← rows b.cosCache parts.inputPositions
  let sin ← rows b.sinCache parts.inputPositions
  return (parts, {
    inputPositions := parts.inputPositions
    blockTable := parts.blockTable
    seqLens := parts.seqLens
    maxSeqLens := maxSeqLens
    seqLensList := parts.seqLens
    actualSeqLengthsQ := actualSeqLengthsQ
    sin := sin
    cos := cos })

/-- What `build` takes a request with at most so many tokens for a decode. -/
def decodeThreshold {γ : Type} (b : MetadataBuilder γ) (c : AscendCommonAttentionMetadata) : ℕ :=
  if b.torchairGraphEnabled ∧ (c.attnState = .decodeOnly ∨ c.attnState = .specDecoding) then
    c.decodeTokenPerReq
  else 1

/-- `query_start_loc_cpu[1:] - query_start_loc_cpu[:-1]`, of the requests. -/
def queryLensOf (c : AscendCommonAttentionMetadata) : List ℤ :=
  (List.zipWith (· - ·) (c.queryStartLocCpu.drop 1) c.queryStartLocCpu).take c.numReqs

/-- The last statement of `build`. -/
def assemble {γ : Type} (c : AscendCommonAttentionMetadata) (numDecodes numPrefills : ℕ)
    (numDecodeTokens : ℤ) (prefill : Option (AscendMLATorchairPrefillMetadata γ))
    (parts : DecodeParts) (decode : Option (AscendMLATorchairDecodeMetadata γ)) :
    AscendMLATorchairMetadata γ where
  numActualTokens := c.numActualTokens
  queryLens := queryLensOf c
  slotMapping := parts.slotMapping
  numDecodes := numDecodes
  numDecodeTokens := numDecodeTokens
  numPrefills := numPrefills
  attnState := c.attnState
  prefill := prefill
  decode := decode
  queryStartLoc := c.queryStartLoc
  blockTables := parts.blockTable
  seqLens := parts.seqLens
  enableDboAcrossDp := c.enableDboAcrossDp

/-- The metadata of a part of the batch, where there is one. -/
def ifAny {α : Type} (n : ℕ) (part : Except BuildError α) : Except BuildError (Option α) :=
  if 0 < n then part.map some else .ok none

def require (p : Prop) [Decidable p] : Except BuildError Unit :=
  if p then .ok () else .error .assertion

/-- The slices of the step's buffers that `build` starts from. -/
def batchParts (c : AscendCommonAttentionMetadata) : DecodeParts where
  seqLens := c.seqLensCpu.take c.numReqs
  slotMapping := c.slotMappingCpu.take c.numActualTokens
  blockTable := c.blockTableTensor.take c.numReqs
  inputPositions := c.positions.take c.numActualTokens
  actualSeqLengthsQ := []
  numTokenPadSize := 0

/-- `build`. -/
def build {γ : Type} (b : MetadataBuilder γ) (c : AscendCommonAttentionMetadata) :
    Except BuildError (AscendMLATorchairMetadata γ) := do
  let (numDecodes, numPrefills, numDecodeTokens, numPrefillTokens) ←
    splitDecodesAndPrefills c (decodeThreshold b c)
  require (numDecodes + numPrefills = c.numReqs)
  require (numDecodeTokens + numPrefillTokens = c.numActualTokens)
  let parts := batchParts c
  let prefill ← ifAny numPrefills
    (buildPrefill b c numDecodes numDecodeTokens (queryLensOf c) parts.seqLens
      parts.inputPositions parts.blockTable)
  let decode ← ifAny numDecodes (buildDecode b c numDecodes numDecodeTokens parts)
  return assemble c numDecodes numPrefills numDecodeTokens prefill (decode.elim parts Prod.fst)
    (decode.map Prod.snd)

/-! ## A decode step under MTP -/

/-- A request in its decode phase: one sampled token and its drafts, at most `m` in all. -/
structure DecodeRequest (m : ℕ) where
  numComputedTokens : ℕ
  numSpecTokens : ℕ
  computed_pos : 0 < numComputedTokens
  le : 1 + numSpecTokens ≤ m

namespace DecodeRequest

variable {m : ℕ} (r : DecodeRequest m)

def numScheduledTokens : ℕ := 1 + r.numSpecTokens

/-- `num_tokens - len(scheduled_spec_decode_tokens)`. -/
def numValidTokens : ℕ := r.numScheduledTokens - r.numSpecTokens

def seqLen : ℕ := r.numComputedTokens + r.numScheduledTokens

end DecodeRequest

/-- `range(m, max_num_tokens + 1, m)`. -/
def actualSeqLengthsQ (m maxNumTokens : ℕ) : List ℤ :=
  (List.range' m ((maxNumTokens + 1 - m + (m - 1)) / m) m).map Nat.cast

/-- What the runner has when it builds the metadata of a decode step: the requests, and its
buffers, which reach at least as far as the step. -/
structure DecodeStep {γ : Type} (b : MetadataBuilder γ) (m : ℕ) where
  requests : List (DecodeRequest m)
  ne_nil : requests ≠ []
  seqLensRest : List ℕ
  positions : List ℕ
  slotMapping : List ℤ
  blockTable : List (List ℕ)
  maxNumTokens : ℕ
  enableDbo : Bool
  le_positions : (requests.map DecodeRequest.numScheduledTokens).sum ≤ positions.length
  le_slotMapping : (requests.map DecodeRequest.numScheduledTokens).sum ≤ slotMapping.length
  le_blockTable : requests.length ≤ blockTable.length
  width : ∀ row ∈ blockTable, row.length = b.maxBlocks
  cached : ∀ p ∈ positions.take (requests.map DecodeRequest.numScheduledTokens).sum,
    p < b.cosCache.length ∧ p < b.sinCache.length

/-- The runner's settings under MTP. -/
def mtp (ascendSchedulerEnabled chunkedPrefillEnabled : Bool) : AttnStateConfig where
  speculativeMethod := some .deepseekMtp
  useEagle := false
  ascendSchedulerEnabled := ascendSchedulerEnabled
  chunkedPrefillEnabled := chunkedPrefillEnabled

namespace DecodeStep

variable {γ : Type} {b : MetadataBuilder γ} {m : ℕ} (s : DecodeStep b m)

def numReqs : ℕ := s.requests.length

def queryLens : List ℕ := s.requests.map DecodeRequest.numScheduledTokens

def numTokens : ℕ := s.queryLens.sum

def seqLens : List ℕ := s.requests.map DecodeRequest.seqLen

def cuNumTokens : List ℤ := cumsum 0 (s.queryLens.map Nat.cast)

/-- The metadata that `_prepare_inputs` gives to `build`. -/
def commonAttnMetadata (c : AttnStateConfig) (graphPadSize : ℤ) :
    AscendCommonAttentionMetadata where
  queryStartLoc := 0 :: s.cuNumTokens
  queryStartLocCpu := 0 :: s.cuNumTokens
  seqLensCpu := s.seqLens ++ s.seqLensRest
  numReqs := s.numReqs
  numActualTokens := s.numTokens
  maxQueryLen := s.queryLens.foldl max 0
  decodeTokenPerReq := m
  blockTableTensor := s.blockTable
  slotMappingCpu := s.slotMapping
  actualSeqLengthsQ := Torchair.actualSeqLengthsQ m s.maxNumTokens
  positions := s.positions
  attnState := buildAttnState c (s.seqLens ++ s.seqLensRest) s.queryLens
    (s.requests.map DecodeRequest.numValidTokens)
  enableDboAcrossDp := s.enableDbo
  graphPadSize := graphPadSize

@[simp] theorem commonAttnMetadata_numReqs (c : AttnStateConfig) (g : ℤ) :
    (s.commonAttnMetadata c g).numReqs = s.numReqs := rfl

end DecodeStep

/-! ## What the padding is to give -/

/-- **The metadata of a step is padded to `g` tokens.** -/
structure DecodePadded {γ : Type} {b : MetadataBuilder γ} {m : ℕ} (s : DecodeStep b m) (g : ℤ)
    (md : AscendMLATorchairMetadata γ) (d : AscendMLATorchairDecodeMetadata γ) : Prop where
  inputPositions_length : (d.inputPositions.length : ℤ) = g
  slotMapping_length : (md.slotMapping.length : ℤ) = g
  seqLens_length : (d.seqLens.length : ℤ) = g / m
  seqLensList_length : (d.seqLensList.length : ℤ) = g / m
  blockTable_length : (d.blockTable.length : ℤ) = g / m
  actualSeqLengthsQ_length : (d.actualSeqLengthsQ.length : ℤ) = g / m
  inputPositions_real : d.inputPositions.take s.numTokens = s.positions.take s.numTokens
  slotMapping_real : md.slotMapping.take s.numTokens = s.slotMapping.take s.numTokens
  seqLens_real : d.seqLens.take s.numReqs = s.seqLens
  seqLensList_real : d.seqLensList.take s.numReqs = s.seqLens
  blockTable_real : d.blockTable.take s.numReqs = s.blockTable.take s.numReqs
  slotMapping_padding : ∀ slot ∈ md.slotMapping.drop s.numTokens, slot = padSlotId
  seqLens_padding : ∀ length ∈ d.seqLens.drop s.numReqs, length = 0
  seqLensList_padding : ∀ length ∈ d.seqLensList.drop s.numReqs, length = 0
  blockTable_padding : ∀ row ∈ d.blockTable.drop s.numReqs, row = List.replicate b.maxBlocks 0
  actualSeqLengthsQ_sorted : d.actualSeqLengthsQ.Pairwise (· ≤ ·)
  actualSeqLengthsQ_real :
    d.actualSeqLengthsQ.take (s.numReqs - 1) = s.cuNumTokens.take (s.numReqs - 1)
  actualSeqLengthsQ_last : d.actualSeqLengthsQ.getLast? = some g

/-! ## The step is a decode step -/

namespace DecodeStep

variable {γ : Type} {b : MetadataBuilder γ} {m : ℕ} (s : DecodeStep b m)

theorem length_queryLens : s.queryLens.length = s.numReqs := List.length_map _

theorem length_seqLens : s.seqLens.length = s.numReqs := List.length_map _

theorem length_cuNumTokens : s.cuNumTokens.length = s.numReqs := by
  rw [cuNumTokens, length_cumsum, List.length_map, length_queryLens]

theorem numReqs_pos : 0 < s.numReqs := List.length_pos_of_ne_nil s.ne_nil

theorem queryLens_mem {q : ℕ} (h : q ∈ s.queryLens) : 1 ≤ q ∧ q ≤ m := by
  obtain ⟨r, -, rfl⟩ := List.mem_map.mp h
  exact ⟨Nat.le_add_right 1 _, r.le⟩

theorem numReqs_le_numTokens : s.numReqs ≤ s.numTokens := by
  have h := List.card_nsmul_le_sum s.queryLens 1 fun q hq => (s.queryLens_mem hq).1
  rwa [length_queryLens, smul_eq_mul, mul_one] at h

theorem numTokens_le : s.numTokens ≤ s.numReqs * m := by
  have h := List.sum_le_card_nsmul s.queryLens m fun q hq => (s.queryLens_mem hq).2
  rwa [length_queryLens, smul_eq_mul] at h

theorem maxQueryLen_le : s.queryLens.foldl max 0 ≤ m := by
  have hfold : ∀ (qs : List ℕ) (k : ℕ), k ≤ m → (∀ q ∈ qs, q ≤ m) → qs.foldl max k ≤ m := by
    intro qs
    induction qs with
    | nil => exact fun k hk _ => hk
    | cons q qs ih =>
      intro k hk hqs
      exact ih _ (max_le hk (hqs q List.mem_cons_self)) fun q' hq' =>
        hqs q' (List.mem_cons_of_mem _ hq')
  exact hfold _ 0 (Nat.zero_le m) fun q hq => (s.queryLens_mem hq).2

/-- **Every decode step under MTP is taken for speculative decoding**, with or without drafts. -/
theorem buildAttnState_mtp (scheduler chunked : Bool) :
    buildAttnState (mtp scheduler chunked) (s.seqLens ++ s.seqLensRest) s.queryLens
      (s.requests.map DecodeRequest.numValidTokens) = .specDecoding := by
  have hcomputed : s.seqLens ≠ s.queryLens := by
    intro heq
    obtain ⟨r, hr⟩ := List.exists_mem_of_ne_nil _ s.ne_nil
    have hlen : r.numComputedTokens + r.numScheduledTokens = r.numScheduledTokens :=
      List.map_inj_left.mp heq r hr
    have hpos := r.computed_pos
    omega
  have hvalid : ∀ v ∈ s.requests.map DecodeRequest.numValidTokens, v = 1 := by
    intro v hv
    obtain ⟨r, -, rfl⟩ := List.mem_map.mp hv
    exact Nat.add_sub_cancel 1 r.numSpecTokens
  rw [buildAttnState, length_queryLens, ← length_seqLens, List.take_left, if_neg hcomputed]
  split
  · rfl
  · rfl

variable {s} {c : AttnStateConfig} {g : ℤ}

theorem splitDecodesAndPrefills_eq :
    splitDecodesAndPrefills (s.commonAttnMetadata c g) m = .ok (s.numReqs, 0, s.numTokens, 0) :=
  if_pos s.maxQueryLen_le

/-- What the branch over the decodes is given. -/
def decodeParts (s : DecodeStep b m) : DecodeParts where
  seqLens := s.seqLens
  slotMapping := s.slotMapping.take s.numTokens
  blockTable := s.blockTable.take s.numReqs
  inputPositions := s.positions.take s.numTokens
  actualSeqLengthsQ := []
  numTokenPadSize := 0

/-- **`build` comes down to its branch over the decodes.** -/
theorem build_eq (hgraph : b.torchairGraphEnabled = true) (scheduler chunked : Bool) :
    build b (s.commonAttnMetadata (mtp scheduler chunked) g) =
      (buildDecode b (s.commonAttnMetadata (mtp scheduler chunked) g) s.numReqs s.numTokens
        s.decodeParts).map fun r =>
          assemble (s.commonAttnMetadata (mtp scheduler chunked) g) s.numReqs 0 s.numTokens none
            r.1 (some r.2) := by
  have hthreshold :
      decodeThreshold b (s.commonAttnMetadata (mtp scheduler chunked) g) = m :=
    if_pos ⟨hgraph, Or.inr (s.buildAttnState_mtp scheduler chunked)⟩
  have hparts : batchParts (s.commonAttnMetadata (mtp scheduler chunked) g) = s.decodeParts := by
    have hseqLens : (s.seqLens ++ s.seqLensRest).take s.numReqs = s.seqLens := by
      rw [← length_seqLens, List.take_left]
    rw [batchParts, decodeParts, ← hseqLens]
    rfl
  have hreqs : require (s.numReqs + 0 = (s.commonAttnMetadata (mtp scheduler chunked) g).numReqs) =
    .ok () := if_pos rfl
  have htokens : require ((s.numTokens : ℤ) + 0 =
      (s.commonAttnMetadata (mtp scheduler chunked) g).numActualTokens) = .ok () :=
    if_pos (add_zero _)
  rw [build, hthreshold, splitDecodesAndPrefills_eq]
  simp only [bind, Except.bind, hreqs, htokens, hparts, ifAny, if_pos s.numReqs_pos,
    if_neg (lt_irrefl 0)]
  cases buildDecode b (s.commonAttnMetadata (mtp scheduler chunked) g) s.numReqs s.numTokens
    s.decodeParts <;> rfl

end DecodeStep

/-! ## Filling up the rows -/

section Filled

variable {α : Type} {xs : List α} {n k : ℕ} {x : α}

theorem length_filled (h : xs.length = n) : (xs ++ List.replicate k x).length = n + k := by
  rw [List.length_append, h, List.length_replicate]

theorem take_filled (h : xs.length = n) : (xs ++ List.replicate k x).take n = xs := by
  rw [← h, List.take_left]

theorem mem_drop_filled (h : xs.length = n) : ∀ y ∈ (xs ++ List.replicate k x).drop n, y = x := by
  rw [← h, List.drop_left]
  exact fun y hy => List.eq_of_mem_replicate hy

end Filled

/-- A gather whose positions are all rows of the cache. -/
theorem rows_returns {γ : Type} {cache : List γ} : ∀ {positions : List ℕ},
    (∀ p ∈ positions, p < cache.length) → ∃ out, rows cache positions = .ok out
  | [], _ => ⟨[], rfl⟩
  | p :: positions, h => by
    obtain ⟨out, hout⟩ := rows_returns fun q hq => h q (List.mem_cons_of_mem _ hq)
    have hp := h p List.mem_cons_self
    refine ⟨cache[p] :: out, ?_⟩
    rw [rows, List.mapM_cons, List.getElem?_eq_getElem hp]
    rw [rows] at hout
    cases hrest : positions.mapM (cache[·]?) with
    | none =>
      rw [hrest] at hout
      contradiction
    | some rest =>
      rw [hrest] at hout
      obtain rfl : rest = out := Except.ok.inj hout
      rfl

theorem full_natCast {α : Type} (k : ℕ) (x : α) : full (k : ℤ) x = .ok (List.replicate k x) := by
  rw [full, if_neg (Int.natCast_nonneg k).not_gt, Int.toNat_natCast]

theorem fitRow_self {maxBlocks : ℕ} {row : List ℕ} (h : row.length = maxBlocks) :
    fitRow maxBlocks row = row := by
  rw [fitRow, if_pos h.le, h, Nat.sub_self, List.replicate_zero, List.append_nil]

/-- Rows of the table's own width are left as they are. -/
theorem getGraphRunnerBlockTables_self {maxBlocks : ℕ} {table : List (List ℕ)}
    (h : ∀ row ∈ table, row.length = maxBlocks) :
    getGraphRunnerBlockTables maxBlocks table.length table = .ok table := by
  have hmap : (table.take table.length).map (fitRow maxBlocks) = table := by
    rw [List.take_length]
    exact (List.map_congr_left fun row hrow => fitRow_self (h row hrow)).trans (List.map_id table)
  rw [getGraphRunnerBlockTables, hmap]
  exact if_pos rfl

namespace DecodeStep

variable {γ : Type} {b : MetadataBuilder γ} {m : ℕ} (s : DecodeStep b m)

theorem decodeTokenPerReq_pos (s : DecodeStep b m) : 0 < m := by
  obtain ⟨r, -⟩ := List.exists_mem_of_ne_nil _ s.ne_nil
  have := r.le
  omega

theorem length_blockTable : (s.blockTable.take s.numReqs).length = s.numReqs :=
  List.length_take_of_le s.le_blockTable

theorem width_blockTable : ((s.blockTable.take s.numReqs).headD []).length = b.maxBlocks := by
  obtain ⟨row, rest, hrows⟩ := List.exists_cons_of_length_pos
    (s.length_blockTable.symm ▸ s.numReqs_pos)
  rw [hrows]
  refine s.width row (List.mem_of_mem_take (i := s.numReqs) ?_)
  rw [hrows]
  exact List.mem_cons_self

/-- What the decode branch fills up. -/
def realParts : DecodeParts where
  seqLens := s.seqLens
  slotMapping := s.slotMapping.take s.numTokens
  blockTable := s.blockTable.take s.numReqs
  inputPositions := s.positions.take s.numTokens
  actualSeqLengthsQ := s.cuNumTokens
  numTokenPadSize := 0

/-- The parts with `reqs` rows and `tokens` places behind the real ones. -/
def paddedParts (reqs tokens : ℕ) : DecodeParts where
  seqLens := s.seqLens ++ List.replicate reqs 0
  slotMapping := s.slotMapping.take s.numTokens ++ List.replicate tokens padSlotId
  blockTable := s.blockTable.take s.numReqs ++ List.replicate reqs (List.replicate b.maxBlocks 0)
  inputPositions := s.positions.take s.numTokens ++ List.replicate tokens 0
  actualSeqLengthsQ :=
    s.cuNumTokens ++ ((Torchair.actualSeqLengthsQ m s.maxNumTokens).drop s.numReqs).take reqs
  numTokenPadSize := tokens

variable {s} {c : AttnStateConfig}

theorem tokenPadSize_eq {k tokens : ℕ} (hpos : 0 < m * k) (hsize : m * k = s.numTokens + tokens) :
    tokenPadSize (s.commonAttnMetadata c (m * k : ℕ)) s.numTokens = tokens := by
  have hne : ((m * k : ℕ) : ℤ) ≠ 0 := by exact_mod_cast hpos.ne'
  refine (if_pos hne).trans ?_
  change ((m * k : ℕ) : ℤ) - s.numTokens = tokens
  rw [hsize]
  push_cast
  ring

theorem reqsPadSize_eq {k : ℕ} (hpos : 0 < m * k) :
    reqsPadSize (s.commonAttnMetadata c (m * k : ℕ)) = (k : ℤ) - s.numReqs := by
  have hne : ((m * k : ℕ) : ℤ) ≠ 0 := by exact_mod_cast hpos.ne'
  refine (if_pos hne).trans ?_
  change ((m * k : ℕ) : ℤ) / m - s.numReqs = (k : ℤ) - s.numReqs
  rw [← Int.natCast_div, Nat.mul_div_cancel_left _ s.decodeTokenPerReq_pos]

/-- **With no rows to take away the rows are filled up.** -/
theorem padDecode_eq {reqs tokens : ℕ} (hsize : m * (s.numReqs + reqs) = s.numTokens + tokens) :
    padDecode b (s.commonAttnMetadata c (m * (s.numReqs + reqs) : ℕ)) s.numTokens s.realParts =
      .ok (s.paddedParts reqs tokens) := by
  have hpos := Nat.mul_pos s.decodeTokenPerReq_pos (Nat.add_pos_left s.numReqs_pos reqs)
  have hreqs : reqsPadSize (s.commonAttnMetadata c (m * (s.numReqs + reqs) : ℕ)) = reqs := by
    rw [reqsPadSize_eq hpos, Nat.cast_add, add_sub_cancel_left]
  have htable : getGraphRunnerBlockTables b.maxBlocks ((s.numReqs : ℤ) + reqs).toNat
      (s.blockTable.take s.numReqs ++ List.replicate reqs (List.replicate b.maxBlocks 0)) =
      .ok (s.blockTable.take s.numReqs ++ List.replicate reqs (List.replicate b.maxBlocks 0)) := by
    have hlength : ((s.numReqs : ℤ) + reqs).toNat = (s.blockTable.take s.numReqs ++
        List.replicate reqs (List.replicate b.maxBlocks 0)).length := by
      rw [List.length_append, s.length_blockTable, List.length_replicate]
      exact Int.toNat_natCast _
    rw [hlength]
    refine getGraphRunnerBlockTables_self fun row hrow => ?_
    obtain hrow | hrow := List.mem_append.mp hrow
    · exact s.width row (List.mem_of_mem_take hrow)
    · rw [List.eq_of_mem_replicate hrow, List.length_replicate]
  rw [padDecode, tokenPadSize_eq hpos hsize, hreqs]
  simp only [realParts, full_natCast, s.width_blockTable, bind, Except.bind, Int.toNat_natCast,
    commonAttnMetadata_numReqs, htable]
  rfl

/-- **With rows to take away the step is not built.** -/
theorem padDecode_error {k : ℕ} (hlt : k < s.numReqs) (hpos : 0 < k) (hle : s.numTokens ≤ m * k) :
    padDecode b (s.commonAttnMetadata c (m * k : ℕ)) s.numTokens s.realParts =
      .error .negativeDimension := by
  have hpos := Nat.mul_pos s.decodeTokenPerReq_pos hpos
  have hrows : full ((k : ℤ) - s.numReqs) (List.replicate b.maxBlocks 0) =
      .error .negativeDimension := if_pos (by omega)
  rw [padDecode, tokenPadSize_eq hpos (Nat.add_sub_cancel' hle).symm, reqsPadSize_eq hpos]
  simp only [realParts, full_natCast, s.width_blockTable, bind, Except.bind, hrows]

/-- What the decode branch starts from is cut no further. -/
theorem realParts_eq : (⟨s.decodeParts.seqLens.take (s.numTokens : ℤ).toNat,
    s.decodeParts.slotMapping, s.decodeParts.blockTable.take (s.numTokens : ℤ).toNat,
    s.decodeParts.inputPositions.take (s.numTokens : ℤ).toNat,
    (((0 : ℤ) :: s.cuNumTokens).drop 1).take s.numReqs, 0⟩ : DecodeParts) = s.realParts := by
  have hle := s.numReqs_le_numTokens
  have hseq : s.seqLens.take s.numTokens = s.seqLens :=
    List.take_of_length_le (s.length_seqLens.trans_le hle)
  have hcu : s.cuNumTokens.take s.numReqs = s.cuNumTokens :=
    List.take_of_length_le s.length_cuNumTokens.le
  simp only [decodeParts, realParts, Int.toNat_natCast, List.take_take, hseq, List.drop_one,
    List.tail_cons, hcu, Nat.min_self, Nat.min_eq_right hle]

/-- The branch over the decodes, after the step's parts. -/
theorem buildDecode_eq (scheduler chunked : Bool) {g : ℤ} (hg : g ≠ -1) :
    ∃ maxSeqLens, buildDecode b (s.commonAttnMetadata (mtp scheduler chunked) g) s.numReqs
        s.numTokens s.decodeParts =
      padDecode b (s.commonAttnMetadata (mtp scheduler chunked) g) s.numTokens s.realParts >>=
        fun parts => endAt (s.numTokens + parts.numTokenPadSize) .specDecoding
            parts.actualSeqLengthsQ >>= fun lengths =>
          rows b.cosCache parts.inputPositions >>= fun cos =>
          rows b.sinCache parts.inputPositions >>= fun sin =>
          .ok (parts, ⟨parts.inputPositions, parts.blockTable, parts.seqLens, maxSeqLens,
            parts.seqLens, lengths, sin, cos⟩) := by
  have hstate : (s.commonAttnMetadata (mtp scheduler chunked) g).attnState = .specDecoding :=
    s.buildAttnState_mtp scheduler chunked
  have hmax : (s.decodeParts.seqLens.take s.numReqs).max?.isSome := by
    rw [List.isSome_max?_iff, ← List.length_pos_iff_ne_nil, List.length_take]
    exact lt_min s.numReqs_pos (s.length_seqLens.symm ▸ s.numReqs_pos)
  obtain ⟨maxSeqLens, hmax⟩ := Option.isSome_iff_exists.mp hmax
  have hpad : padGraph b (s.commonAttnMetadata (mtp scheduler chunked) g) s.numTokens s.realParts =
      padDecode b (s.commonAttnMetadata (mtp scheduler chunked) g) s.numTokens s.realParts :=
    if_pos ⟨hg, Or.inr hstate⟩
  refine ⟨maxSeqLens, ?_⟩
  rw [buildDecode, hmax, ← hpad, ← realParts_eq, ← hstate]
  rfl

end DecodeStep

/-! ## The ends of the requests -/

/-- Running sums of lengths grow, from the start to the sum. -/
theorem cumsum_bounds : ∀ (s : ℤ) (ns : List ℕ), ∀ x ∈ cumsum s (ns.map Nat.cast),
    s ≤ x ∧ x ≤ s + ns.sum
  | _, [], _, hx => nomatch hx
  | s, n :: ns, x, hx => by
    rw [List.map_cons, cumsum] at hx
    rw [List.sum_cons, Nat.cast_add]
    obtain rfl | hx := List.mem_cons.mp hx
    · omega
    · have := cumsum_bounds (s + n) ns x hx
      omega

theorem pairwise_cumsum : ∀ (s : ℤ) (ns : List ℕ), (cumsum s (ns.map Nat.cast)).Pairwise (· ≤ ·)
  | _, [] => List.Pairwise.nil
  | s, n :: ns => by
    rw [List.map_cons, cumsum]
    exact List.pairwise_cons.mpr
      ⟨fun x hx => (cumsum_bounds (s + n) ns x hx).1, pairwise_cumsum (s + n) ns⟩

section Lengths

variable {m maxNumTokens n reqs : ℕ}

theorem length_actualSeqLengthsQ (hm : 0 < m) :
    (actualSeqLengthsQ m maxNumTokens).length = maxNumTokens / m := by
  rw [actualSeqLengthsQ, List.length_map, List.length_range']
  obtain hlt | hle := lt_or_ge maxNumTokens m
  · rw [Nat.div_eq_of_lt hlt, Nat.div_eq_of_lt (by omega)]
  · rw [show maxNumTokens + 1 - m + (m - 1) = maxNumTokens by omega]

/-- **The padding rows end at the multiples of `m` behind the real ones.** -/
theorem mem_padding {x : ℤ} (h : x ∈ ((actualSeqLengthsQ m maxNumTokens).drop n).take reqs) :
    (n * m : ℕ) ≤ x ∧ x ≤ (m * (n + reqs) : ℕ) := by
  rw [actualSeqLengthsQ, ← List.map_drop, ← List.map_take, List.drop_range'] at h
  obtain ⟨y, hy, rfl⟩ := List.mem_map.mp h
  obtain ⟨i, hi, rfl⟩ := List.mem_take_iff_getElem.mp hy
  have hireqs : i + 1 ≤ reqs := (lt_min_iff.mp hi).1
  have hupper : m * (i + 1) ≤ m * reqs := Nat.mul_le_mul_left m hireqs
  rw [mul_add, mul_one] at hupper
  rw [List.getElem_range', mul_add, mul_comm m n]
  exact ⟨Nat.cast_le.mpr (by omega), Nat.cast_le.mpr (by omega)⟩

theorem pairwise_padding :
    (((actualSeqLengthsQ m maxNumTokens).drop n).take reqs).Pairwise (· ≤ ·) := by
  have hall : (actualSeqLengthsQ m maxNumTokens).Pairwise (· ≤ ·) :=
    List.pairwise_map.mpr ((List.pairwise_le_range' m).imp fun hle => Nat.cast_le.mpr hle)
  exact (hall.sublist (List.drop_sublist _ _)).sublist (List.take_sublist _ _)

/-- The last length is set to the batch size, whatever it was. -/
theorem endAt_eq {lengths : List ℤ} (hne : lengths ≠ []) (batchSize : ℤ) :
    endAt batchSize .specDecoding lengths = .ok (lengths.dropLast ++ [batchSize]) := by
  obtain ⟨front, last, rfl⟩ := (List.eq_nil_or_concat lengths).resolve_left hne
  rw [List.concat_eq_append, endAt, List.getLast?_concat, List.dropLast_concat]
  by_cases heq : last = batchSize
  · simp [heq]
  · simp [heq]

end Lengths

namespace DecodeStep

variable {γ : Type} {b : MetadataBuilder γ} {m : ℕ} {s : DecodeStep b m} {reqs tokens : ℕ}

/-- The lengths that a step of `reqs` filled rows is given. -/
def paddedLengths (s : DecodeStep b m) (reqs tokens : ℕ) : List ℤ :=
  (s.paddedParts reqs tokens).actualSeqLengthsQ.dropLast ++ [(s.numTokens : ℤ) + tokens]

theorem paddedParts_lengths_ne_nil : (s.paddedParts reqs tokens).actualSeqLengthsQ ≠ [] := by
  have hpos := s.length_cuNumTokens.symm ▸ s.numReqs_pos
  exact List.append_ne_nil_of_left_ne_nil (List.ne_nil_of_length_pos hpos) _

/-- **A step whose rows can be filled up is built**, from the padded parts. -/
theorem build_padded (hgraph : b.torchairGraphEnabled = true) (scheduler chunked : Bool)
    (hsize : m * (s.numReqs + reqs) = s.numTokens + tokens) :
    ∃ md d, build b (s.commonAttnMetadata (mtp scheduler chunked) (m * (s.numReqs + reqs) : ℕ)) =
        .ok md ∧ md.decode = some d ∧
      md.slotMapping = (s.paddedParts reqs tokens).slotMapping ∧
      d.inputPositions = (s.paddedParts reqs tokens).inputPositions ∧
      d.blockTable = (s.paddedParts reqs tokens).blockTable ∧
      d.seqLens = (s.paddedParts reqs tokens).seqLens ∧
      d.seqLensList = (s.paddedParts reqs tokens).seqLens ∧
      d.actualSeqLengthsQ = s.paddedLengths reqs tokens := by
  have hfirst : 0 < s.numTokens := s.numReqs_pos.trans_le s.numReqs_le_numTokens
  have hcached : ∀ p ∈ (s.paddedParts reqs tokens).inputPositions,
      p < b.cosCache.length ∧ p < b.sinCache.length := by
    intro p hp
    obtain hp | hp := List.mem_append.mp hp
    · exact s.cached p hp
    · -- a padded place reads the first row of the caches
      rw [List.eq_of_mem_replicate hp]
      have hlength : (s.positions.take s.numTokens).length = s.numTokens :=
        List.length_take_of_le s.le_positions
      obtain ⟨q, hq⟩ := List.exists_mem_of_length_pos (hlength.symm ▸ hfirst)
      have := s.cached q hq
      omega
  obtain ⟨cos, hcos⟩ := rows_returns fun p hp => (hcached p hp).1
  obtain ⟨sin, hsin⟩ := rows_returns fun p hp => (hcached p hp).2
  obtain ⟨maxSeqLens, hbuild⟩ := buildDecode_eq (s := s) scheduler chunked
    (g := (m * (s.numReqs + reqs) : ℕ)) (by omega)
  rw [padDecode_eq hsize] at hbuild
  change _ = (endAt _ _ _ >>= _) at hbuild
  rw [endAt_eq paddedParts_lengths_ne_nil] at hbuild
  change _ = (rows b.cosCache (s.paddedParts reqs tokens).inputPositions >>= _) at hbuild
  rw [hcos] at hbuild
  change _ = (rows b.sinCache (s.paddedParts reqs tokens).inputPositions >>= _) at hbuild
  rw [hsin] at hbuild
  refine ⟨_, _, by rw [build_eq hgraph, hbuild]; rfl, rfl, rfl, rfl, rfl, rfl, rfl, rfl⟩

theorem length_paddedLengths : (s.paddedLengths reqs tokens).length =
    s.numReqs + min reqs (s.maxNumTokens / m - s.numReqs) := by
  have hpos := s.numReqs_pos
  rw [paddedLengths, List.length_append, List.length_dropLast, List.length_singleton, paddedParts,
    List.length_append, length_cuNumTokens, List.length_take, List.length_drop,
    length_actualSeqLengthsQ s.decodeTokenPerReq_pos]
  omega

/-- **The ends of the padded requests grow up to the padded size.** -/
theorem pairwise_paddedLengths (hsize : m * (s.numReqs + reqs) = s.numTokens + tokens) :
    (s.paddedLengths reqs tokens).Pairwise (· ≤ ·) := by
  have htotal : ((m * (s.numReqs + reqs) : ℕ) : ℤ) = (s.numTokens : ℤ) + tokens := by
    rw [hsize, Nat.cast_add]
  have hreal : ∀ x ∈ s.cuNumTokens, x ≤ s.numTokens := fun x hx => by
    have := (cumsum_bounds 0 s.queryLens x hx).2
    rwa [zero_add] at this
  have hfull : (s.numTokens : ℤ) ≤ (s.numReqs * m : ℕ) := Nat.cast_le.mpr s.numTokens_le
  have hparts : (s.paddedParts reqs tokens).actualSeqLengthsQ.Pairwise (· ≤ ·) :=
    List.pairwise_append.mpr ⟨pairwise_cumsum 0 s.queryLens, pairwise_padding, fun x hx y hy =>
      (hreal x hx).trans (hfull.trans (mem_padding hy).1)⟩
  have hle : ∀ x ∈ (s.paddedParts reqs tokens).actualSeqLengthsQ, x ≤ (s.numTokens : ℤ) + tokens := by
    intro x hx
    obtain hx | hx := List.mem_append.mp hx
    · exact (hreal x hx).trans (le_add_of_nonneg_right (Int.natCast_nonneg tokens))
    · exact htotal ▸ (mem_padding hx).2
  refine List.pairwise_append.mpr ⟨hparts.sublist (List.dropLast_sublist _),
    List.pairwise_singleton _ _, fun x hx y hy => ?_⟩
  rw [List.mem_singleton.mp hy]
  exact hle x (List.mem_of_mem_dropLast hx)

theorem take_paddedLengths :
    (s.paddedLengths reqs tokens).take (s.numReqs - 1) = s.cuNumTokens.take (s.numReqs - 1) := by
  have hpos := s.numReqs_pos
  have hlength := s.length_cuNumTokens
  have hle : s.numReqs - 1 ≤ (s.paddedParts reqs tokens).actualSeqLengthsQ.dropLast.length := by
    rw [List.length_dropLast, paddedParts, List.length_append]
    omega
  rw [paddedLengths, List.take_append_of_le_length hle, List.dropLast_eq_take, List.take_take,
    Nat.min_eq_left (by rwa [List.length_dropLast] at hle), paddedParts,
    List.take_append_of_le_length (by omega)]

/-- **The padding is right exactly when the lengths of the padding rows are there.** -/
theorem decodePadded_parts {md : AscendMLATorchairMetadata γ} {d : AscendMLATorchairDecodeMetadata γ}
    (hsize : m * (s.numReqs + reqs) = s.numTokens + tokens)
    (hslots : md.slotMapping = (s.paddedParts reqs tokens).slotMapping)
    (hpositions : d.inputPositions = (s.paddedParts reqs tokens).inputPositions)
    (htable : d.blockTable = (s.paddedParts reqs tokens).blockTable)
    (hseqLens : d.seqLens = (s.paddedParts reqs tokens).seqLens)
    (hlist : d.seqLensList = (s.paddedParts reqs tokens).seqLens)
    (hlengths : d.actualSeqLengthsQ = s.paddedLengths reqs tokens) :
    DecodePadded s (m * (s.numReqs + reqs) : ℕ) md d ↔
      reqs ≤ s.maxNumTokens / m - s.numReqs := by
  have hm := s.decodeTokenPerReq_pos
  have hrows : ((m * (s.numReqs + reqs) : ℕ) : ℤ) / m = (s.numReqs + reqs : ℕ) := by
    rw [← Int.natCast_div, Nat.mul_div_cancel_left _ hm]
  have htokens : (s.positions.take s.numTokens).length = s.numTokens :=
    List.length_take_of_le s.le_positions
  have hslotsLength : (s.slotMapping.take s.numTokens).length = s.numTokens :=
    List.length_take_of_le s.le_slotMapping
  constructor
  · intro h
    have hlength := h.actualSeqLengthsQ_length
    rw [hrows, hlengths, length_paddedLengths] at hlength
    have := Nat.cast_injective hlength
    omega
  · intro h
    have hcount : (d.actualSeqLengthsQ.length : ℤ) = ((m * (s.numReqs + reqs) : ℕ) : ℤ) / m := by
      rw [hrows, hlengths, length_paddedLengths, Nat.min_eq_left h]
    exact {
      inputPositions_length := by rw [hpositions, hsize]; exact congrArg _ (length_filled htokens)
      slotMapping_length := by rw [hslots, hsize]; exact congrArg _ (length_filled hslotsLength)
      seqLens_length := by rw [hseqLens, hrows]; exact congrArg _ (length_filled s.length_seqLens)
      seqLensList_length := by rw [hlist, hrows]; exact congrArg _ (length_filled s.length_seqLens)
      blockTable_length := by
        rw [htable, hrows]; exact congrArg _ (length_filled s.length_blockTable)
      actualSeqLengthsQ_length := hcount
      inputPositions_real := hpositions ▸ take_filled htokens
      slotMapping_real := hslots ▸ take_filled hslotsLength
      seqLens_real := hseqLens ▸ take_filled s.length_seqLens
      seqLensList_real := hlist ▸ take_filled s.length_seqLens
      blockTable_real := htable ▸ take_filled s.length_blockTable
      slotMapping_padding := hslots ▸ mem_drop_filled hslotsLength
      seqLens_padding := hseqLens ▸ mem_drop_filled s.length_seqLens
      seqLensList_padding := hlist ▸ mem_drop_filled s.length_seqLens
      blockTable_padding := htable ▸ mem_drop_filled s.length_blockTable
      actualSeqLengthsQ_sorted := hlengths ▸ pairwise_paddedLengths hsize
      actualSeqLengthsQ_real := hlengths ▸ take_paddedLengths
      actualSeqLengthsQ_last := by
        rw [hlengths, paddedLengths, List.getLast?_concat, hsize, Nat.cast_add] }

/-- **A decode step is padded to the selected size exactly when that size has room for its requests
at `m` tokens each**, and either is not above `max_num_tokens` or leaves no row to fill. -/
theorem decodePadded_iff (hgraph : b.torchairGraphEnabled = true) (scheduler chunked : Bool)
    (sizes : List ℤ) (hsizes : ∀ size ∈ sizes, (m : ℤ) ∣ size) {g : ℤ}
    (hselect : selectTorchairPaddedBatchSize sizes s.numTokens = .ok g) :
    (∃ md d, build b (s.commonAttnMetadata (mtp scheduler chunked) g) = .ok md ∧
      md.decode = some d ∧ DecodePadded s g md d) ↔
    (s.numReqs * m : ℕ) ≤ g ∧ (g ≤ s.maxNumTokens ∨ g = (s.numReqs * m : ℕ)) := by
  have hm := s.decodeTokenPerReq_pos
  have hn := s.numReqs_pos
  have hfirst : 0 < s.numTokens := hn.trans_le s.numReqs_le_numTokens
  have hfind := select_eq_ok hselect
  have hle : decide ((s.numTokens : ℤ) ≤ g) = true :=
    List.find?_some (p := fun padded => decide ((s.numTokens : ℤ) ≤ padded)) hfind
  have hle : (s.numTokens : ℤ) ≤ g := of_decide_eq_true hle
  obtain ⟨k, rfl⟩ : ∃ k : ℕ, g = (m * k : ℕ) := by
    obtain ⟨q, rfl⟩ := hsizes g (List.mem_of_find?_eq_some hfind)
    have hq : 0 ≤ q := nonneg_of_mul_nonneg_right (by omega) (Nat.cast_pos.mpr hm)
    exact ⟨q.toNat, by rw [Nat.cast_mul, Int.toNat_of_nonneg hq]⟩
  have hle : s.numTokens ≤ m * k := Nat.cast_le.mp hle
  rw [Nat.cast_le, Nat.cast_le, Nat.cast_inj, Nat.mul_comm s.numReqs m, Nat.mul_le_mul_left_iff hm,
    Nat.mul_left_cancel_iff hm, Nat.mul_comm m k, ← Nat.le_div_iff_mul_le hm, Nat.mul_comm k m]
  obtain hlt | hge := lt_or_ge k s.numReqs
  · refine iff_of_false ?_ fun h => h.1.not_gt hlt
    rintro ⟨md, d, hbuild, -⟩
    have hk : 0 < k := Nat.pos_of_ne_zero fun hzero => by
      rw [hzero, Nat.mul_zero] at hle
      omega
    obtain ⟨maxSeqLens, hdecode⟩ := buildDecode_eq (s := s) scheduler chunked
      (g := (m * k : ℕ)) (by omega)
    rw [padDecode_error hlt hk hle] at hdecode
    rw [build_eq hgraph, hdecode] at hbuild
    cases hbuild
  · obtain ⟨reqs, rfl⟩ := Nat.exists_eq_add_of_le hge
    have hsize : m * (s.numReqs + reqs) = s.numTokens + (m * (s.numReqs + reqs) - s.numTokens) :=
      (Nat.add_sub_cancel' hle).symm
    obtain ⟨md, d, hbuild, hd, hslots, hpositions, htable, hseqLens, hlist, hlengths⟩ :=
      build_padded hgraph scheduler chunked hsize
    have hparts := decodePadded_parts hsize hslots hpositions htable hseqLens hlist hlengths
    have hcond : (s.numReqs ≤ s.numReqs + reqs ∧
        (s.numReqs + reqs ≤ s.maxNumTokens / m ∨ s.numReqs + reqs = s.numReqs)) ↔
        reqs ≤ s.maxNumTokens / m - s.numReqs := by omega
    rw [hcond, ← hparts]
    constructor
    · rintro ⟨md', d', hbuild', hd', h⟩
      obtain rfl : md = md' := Except.ok.inj (hbuild.symm.trans hbuild')
      obtain rfl : d = d' := Option.some.inj (hd.symm.trans hd')
      exact h
    · exact fun h => ⟨md, d, hbuild, hd, h⟩

end DecodeStep

/-! ## Requests without drafts -/

/-- A builder for tables of two blocks and positions below eight. -/
def smallBuilder : MetadataBuilder ℕ where
  torchairGraphEnabled := true
  chunkedPrefillEnabled := false
  chunkedPrefillWorkspaceSize := 0
  blockSize := 4
  maxBlocks := 2
  cosCache := List.range 8
  sinCache := List.range 8

/-- A request that has computed three tokens, with a number of drafts. -/
def draftedRequest (drafts : Fin 2) : DecodeRequest 2 where
  numComputedTokens := 3
  numSpecTokens := drafts
  computed_pos := Nat.succ_pos 2
  le := by omega

/-- A step of a request for each number of drafts. -/
def draftedStep (drafts : List (Fin 2)) (hne : drafts ≠ [])
    (hle : ((drafts.map draftedRequest).map DecodeRequest.numScheduledTokens).sum ≤ 8) :
    DecodeStep smallBuilder 2 where
  requests := drafts.map draftedRequest
  ne_nil := fun h => hne (List.map_eq_nil_iff.mp h)
  seqLensRest := []
  positions := List.replicate 8 3
  slotMapping := List.replicate 8 7
  blockTable := drafts.map fun _ => [1, 2]
  maxNumTokens := 8
  enableDbo := false
  le_positions := hle
  le_slotMapping := hle
  le_blockTable := by rw [List.length_map, List.length_map]
  width := fun row hrow => by
    obtain ⟨d, -, rfl⟩ := List.mem_map.mp hrow
    rfl
  cached := fun p hp => by
    rw [List.eq_of_mem_replicate (List.mem_of_mem_take hp)]
    exact ⟨Nat.lt_of_sub_pos (Nat.succ_pos 4), Nat.lt_of_sub_pos (Nat.succ_pos 4)⟩

/-- A request of one token and one of two are padded to two requests of two. -/
theorem decodePadded_oneDraft :
    (∃ md d, build smallBuilder ((draftedStep [0, 1] (by decide) (by decide)).commonAttnMetadata
        (mtp false false) 4) = .ok md ∧ md.decode = some d ∧
      DecodePadded (draftedStep [0, 1] (by decide) (by decide)) 4 md d) ↔
    (((draftedStep [0, 1] (by decide) (by decide)).numReqs * 2 : ℕ) : ℤ) ≤ 4 ∧
      ((4 : ℤ) ≤ (draftedStep [0, 1] (by decide) (by decide)).maxNumTokens ∨
        (4 : ℤ) = ((draftedStep [0, 1] (by decide) (by decide)).numReqs * 2 : ℕ)) :=
  DecodeStep.decodePadded_iff rfl false false [2, 4, 8] (by decide) rfl

/-- **Four requests without drafts** are four tokens; the graph of four tokens has two rows. -/
theorem not_decodePadded_noDrafts :
    selectTorchairPaddedBatchSize [2, 4, 8]
      (draftedStep [0, 0, 0, 0] (by decide) (by decide)).numTokens = .ok 4 ∧
    build smallBuilder ((draftedStep [0, 0, 0, 0] (by decide) (by decide)).commonAttnMetadata
      (mtp false false) 4) = .error .negativeDimension ∧
    ¬ ∃ md d, build smallBuilder
        ((draftedStep [0, 0, 0, 0] (by decide) (by decide)).commonAttnMetadata
          (mtp false false) 4) = .ok md ∧ md.decode = some d ∧
      DecodePadded (draftedStep [0, 0, 0, 0] (by decide) (by decide)) 4 md d := by
  refine ⟨rfl, rfl, ?_⟩
  rintro ⟨md, d, hbuild, -⟩
  cases hbuild

end VllmAscend.Torchair
