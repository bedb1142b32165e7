import VllmAscend.Attention.MLAChunkedContext
import VllmAscend.Attention.WeightAbsorption
import VllmAscend.Ops.VanillaChunkedPrefill

/-!
# Attention/FallbackAttention — from the metadata to attention without a kernel

    device block table     request 0        MLA    [:num_reqs], then the rows of the prefills
                           request 1        v1     all rows
                           ··· not used

Where no kernel serves, both backends attend with the functions of `Ops/VanillaChunkedPrefill`.  These view the
gathered cache with a row for each sequence.  The MLA builder hands over one row of the table for each prefill;
the other one the whole device table, and the view exists only while every row of it is used
(`fallbackAttention_iff`).
-/

namespace VllmAscend

open Machinery Torchair

/-! ## The metadata -/

/-- The lengths and the blocks of the prefills, with the chunks of their contexts. -/
structure AscendMLAPrefillMetadata where
  queryLens : List ℤ
  seqLens : List ℕ
  contextLens : List ℕ
  inputPositions : List ℕ
  blockTable : List (List ℕ)
  maxQueryLen : ℤ
  maxSeqLens : ℕ
  queryStartLoc : List ℤ
  chunkedContext : Option ChunkedContextMetadata

/-- `AscendMLAMetadataBuilder.build`, the metadata of the prefills. -/
def AscendMLAMetadataBuilder.prefill (builder : AscendMLAMetadataBuilder)
    (c : Torchair.AscendCommonAttentionMetadata) : Except BuildError (Option AscendMLAPrefillMetadata) := do
  let chunkedContext ← builder.chunkedContext c
  let (numDecodes, numPrefills, numDecodeTokens, _) ← splitDecodesAndPrefills c 1
  let blockTable := c.blockTableTensor.take c.numReqs
  let inputPositions := c.positions.take c.numActualTokens
  let queryLens := queryLensOf c
  let seqLens := c.seqLensCpu.take c.numReqs
  if 0 < numPrefills then
    let tokensStart := numDecodeTokens.toNat
    let maxQueryLen ← orRaise .emptyReduction (queryLens.drop tokensStart).max?
    let maxSeqLens ← orRaise .emptyReduction (seqLens.drop tokensStart).max?
    return some {
      queryLens := queryLens.drop tokensStart
      seqLens := seqLens
      contextLens := seqLens.drop tokensStart
      inputPositions := inputPositions.drop tokensStart
      blockTable := blockTable.drop numDecodes
      maxQueryLen := maxQueryLen
      maxSeqLens := maxSeqLens
      queryStartLoc := (c.queryStartLoc.drop numDecodes).map (· - c.queryStartLoc.getD numDecodes 0)
      chunkedContext := chunkedContext }
  else return none

structure AscendMetadata where
  numActualTokens : ℕ
  blockTables : List (List ℕ)
  queryStartLoc : List ℤ
  queryLens : List ℤ
  seqLens : List ℕ
  maxQueryLen : ℕ
  slotMapping : List ℤ
  attnState : AscendAttentionState
  enableDboAcrossDp : Bool

structure AscendAttentionMetadataBuilder where
  maxNumBlocksPerReq : ℕ

/-- `AscendAttentionMetadataBuilder.build`.  The rows of the requests are assigned to themselves, up to the
blocks a request can have; the table itself is handed on. -/
def AscendAttentionMetadataBuilder.build (builder : AscendAttentionMetadataBuilder)
    (c : Torchair.AscendCommonAttentionMetadata) : Except BuildError AscendMetadata :=
  if ∀ row ∈ c.blockTableTensor.take c.numReqs, row.length ≤ builder.maxNumBlocksPerReq then
    let queryStartLocCpu := c.queryStartLocCpu.take (c.numReqs + 1)
    .ok {
      numActualTokens := c.numActualTokens
      blockTables := c.blockTableTensor
      queryStartLoc := queryStartLocCpu
      queryLens := List.zipWith (· - ·) (queryStartLocCpu.drop 1) queryStartLocCpu.dropLast
      seqLens := c.seqLensCpu.take c.numReqs
      maxQueryLen := c.maxQueryLen
      slotMapping := c.slotMappingCpu.take c.numActualTokens
      attnState := c.attnState
      enableDboAcrossDp := c.enableDboAcrossDp }
  else .error .shapeMismatch

/-! ## The callers -/

section Callers

variable {R : Type} [CommRing R]

/-- The heads of an attention layer; the constructor asserts that the KV heads divide the query heads. -/
structure AscendAttentionBackendImpl (R : Type) where
  numHeads : ℕ
  headSize : ℕ
  scale : R
  numKvHeads : ℕ
  pos : 0 < numHeads
  dvd : numKvHeads ∣ numHeads

namespace AscendAttentionBackendImpl

variable (impl : AscendAttentionBackendImpl R)

/-- The rows of the query, and of the two caches. -/
abbrev Query : Type := Tensor₂ R impl.numHeads impl.headSize

abbrev Cached : Type := Tensor₂ R impl.numKvHeads impl.headSize

/-- `_forward_v1_style`; the kernel serves every head size but one. -/
def forwardV1Style (softmax : List (WithBot R) → List R)
    (pagedAttentionSplitfuse : List impl.Query → AscendMetadata → Option (List impl.Query))
    (query : List impl.Query) (keyCache valueCache : PagedCache impl.Cached) (attnMetadata : AscendMetadata) :
    Option (List impl.Query) :=
  if impl.headSize = 192 then do
    let cuSeqlenQ := cumsum 0 (0 :: attnMetadata.queryLens)
    let cuSeqlenK := cumsum 0 (0 :: attnMetadata.seqLens.map Nat.cast)
    let maxSeqlenQ ← attnMetadata.queryLens.max?
    let maxSeqlenK ← attnMetadata.seqLens.max?
    vanillaChunkedPrefill softmax impl.scale query.length query keyCache valueCache attnMetadata.blockTables
      cuSeqlenQ cuSeqlenK maxSeqlenQ.toNat maxSeqlenK true
  else pagedAttentionSplitfuse query attnMetadata

end AscendAttentionBackendImpl

namespace AscendMLAImpl

variable (impl : AscendMLAImpl R)

/-- `kv_b_proj` of one cached latent. -/
def project (kvC : Fin impl.kvLoraRank → R) : Fin (impl.numHeads * (impl.qkNopeHeadDim + impl.vHeadDim)) → R :=
  impl.kvBProj.apply (fun _ : Fin 1 => kvC) ⟨0, Nat.one_pos⟩

abbrev Query : Type := Tensor₂ R impl.numHeads (impl.qkNopeHeadDim + impl.qkRopeHeadDim)

abbrev Output : Type := Tensor₂ R impl.numHeads impl.vHeadDim

/-- `_forward_prefill`, by the state of the batch; kernels serve what is not attended to here. -/
def forwardPrefillByState (softmax : List (WithBot R) → List R)
    (kernel : List impl.Query → AscendMLAPrefillMetadata → Option (List impl.Output)) (chunkedPrefillForMla : Bool)
    (query : List impl.Query) (nopeCache : PagedCache (Fin impl.kvLoraRank → R))
    (ropeCache : PagedCache (Fin impl.qkRopeHeadDim → R)) (attnState : AscendAttentionState)
    (prefill : AscendMLAPrefillMetadata) : Option (List impl.Output) :=
  if attnState ∈ [.chunkedPrefill, .specDecoding, .prefillCacheHit] ∧ chunkedPrefillForMla = false then
    vanillaChunkedPrefillMla softmax impl.scale query.length query nopeCache ropeCache prefill.blockTable
      prefill.queryLens (prefill.contextLens.map Nat.cast) impl.project prefill.maxQueryLen.toNat
      prefill.maxSeqLens true
  else kernel query prefill

/-- The keys and the values of a cached position, from its latent. -/
def keyAt (nopeCache : PagedCache (Fin impl.kvLoraRank → R)) (ropeCache : PagedCache (Fin impl.qkRopeHeadDim → R))
    (blockIds : List ℕ) (j : ℕ) : Option impl.Query := do
  return catHeads (splitHeads (impl.project (← nopeCache.entry blockIds j))).1 (← ropeCache.entry blockIds j)

def valueAt (nopeCache : PagedCache (Fin impl.kvLoraRank → R)) (blockIds : List ℕ) (j : ℕ) :
    Option impl.Output := do
  return (splitHeads (impl.project (← nopeCache.entry blockIds j))).2

end AscendMLAImpl

end Callers

/-! ## The batch -/

/-- A request of the batch with its query tokens and the ids of its blocks. -/
structure PagedRequest (Query : Type) extends MLARequest where
  query : List Query
  length_query : query.length = numScheduledTokens
  blockIds : List ℕ

namespace PagedRequest

variable {Query : Type} (r : PagedRequest Query)

/-- The tokens that are cached when the step attends. -/
def seqLen : ℕ := r.numComputedTokens + r.numScheduledTokens

theorem le_seqLen : r.numScheduledTokens ≤ r.seqLen := Nat.le_add_left _ _

theorem seqLen_pos : 0 < r.seqLen := Nat.lt_of_lt_of_le r.pos r.le_seqLen

end PagedRequest

/-- **The metadata of a batch of requests, with their rows of the block table.**  A row has `width` entries. -/
structure HoldsPaged {Query : Type} (c : Torchair.AscendCommonAttentionMetadata)
    (requests : List (PagedRequest Query)) (width : ℕ) : Prop where
  metadata : IsMetadataOf c (requests.map fun r => (r.numScheduledTokens : ℤ))
  seqLens : c.seqLensCpu.take requests.length = requests.map PagedRequest.seqLen
  blockTable : c.blockTableTensor.take requests.length = requests.map PagedRequest.blockIds
  rows : ∀ row ∈ c.blockTableTensor, row.length = width

/-- The cache has the blocks of the table, and the requests fit into their rows. -/
structure Caches {Query α : Type} (cache : PagedCache α) (c : Torchair.AscendCommonAttentionMetadata)
    (requests : List (PagedRequest Query)) (width : ℕ) : Prop where
  has : ∀ row ∈ c.blockTableTensor, cache.Has row
  fits : ∀ r ∈ requests, r.seqLen ≤ width * cache.blockSize

section Batch

variable {Query : Type} {c : Torchair.AscendCommonAttentionMetadata} {requests : List (PagedRequest Query)}
  {width : ℕ}

theorem HoldsPaged.mem_blockTable (h : HoldsPaged c requests width) :
    ∀ r ∈ requests, r.blockIds ∈ c.blockTableTensor := by
  intro r hr
  have hmem : r.blockIds ∈ c.blockTableTensor.take requests.length :=
    h.blockTable ▸ List.mem_map_of_mem hr
  exact List.mem_of_mem_take hmem

/-- The query tokens of the batch, by their places in the requests. -/
theorem flatMap_query [Zero Query] (requests : List (PagedRequest Query)) :
    requests.flatMap PagedRequest.query =
      ragged requests (fun r => r.numScheduledTokens) fun r t => r.query.getD t 0 := by
  refine List.flatMap_congr fun r _ => List.ext_getElem (by simp [r.length_query]) fun i hi hi' => ?_
  simp [List.getElem?_eq_getElem hi]

theorem getElem?_query [Zero Query] (r : PagedRequest Query) {t : ℕ} (ht : t < r.numScheduledTokens) :
    r.query[t]? = some (r.query.getD t 0) := by
  have hlt : t < r.query.length := by rwa [r.length_query]
  rw [List.getD_eq_getElem _ _ hlt, List.getElem?_eq_getElem hlt]

/-- What is cached of a request, position by position. -/
theorem Caches.entry_eq {α : Type} {cache : PagedCache α} (hcache : Caches cache c requests width)
    (h : HoldsPaged c requests width) (z : α) :
    ∀ r ∈ requests, ∀ j < r.seqLen, cache.entry r.blockIds j = some ((cache.slots r.blockIds).getD j z) := by
  intro r hr j hj
  have hmem := h.mem_blockTable r hr
  have hlt : j < r.blockIds.length * cache.blockSize := by
    rw [h.rows _ hmem]
    exact hj.trans_le (hcache.fits r hr)
  rw [PagedCache.entry_eq (hcache.has _ hmem) hlt]
  rw [← PagedCache.length_slots (hcache.has _ hmem)] at hlt
  rw [List.getD_eq_getElem _ _ hlt, List.getElem?_eq_getElem hlt]

/-- A maximum of the lengths. -/
theorem exists_max_map {δ : Type} {ds : List δ} (hne : ds ≠ []) (f : δ → ℕ) :
    ∃ m, (ds.map f).max? = some m ∧ (∀ d ∈ ds, f d ≤ m) ∧ ∃ d ∈ ds, f d = m := by
  obtain ⟨m, hm⟩ := exists_max (l := ds.map f) (by simpa using hne)
  obtain ⟨hmem, hmax⟩ := List.max?_eq_some_iff.mp hm
  exact ⟨m, hm, fun d hd => hmax _ (List.mem_map_of_mem hd), List.mem_map.mp hmem⟩

theorem max?_map_cast {δ : Type} {ds : List δ} {f : δ → ℕ} {m : ℕ} (hm : (ds.map f).max? = some m) :
    (ds.map fun d => (f d : ℤ)).max? = some (m : ℤ) := by
  obtain ⟨hmem, hmax⟩ := List.max?_eq_some_iff.mp hm
  obtain ⟨d, hd, rfl⟩ := List.mem_map.mp hmem
  refine List.max?_eq_some_iff.mpr ⟨List.mem_map_of_mem hd, fun n hn => ?_⟩
  obtain ⟨d', hd', rfl⟩ := List.mem_map.mp hn
  exact_mod_cast hmax _ (List.mem_map_of_mem hd')

end Batch

/-! ## The whole device table -/

section V1

variable {R : Type} [CommRing R] {softmax : List (WithBot R) → List R} {impl : AscendAttentionBackendImpl R}
  {builder : AscendAttentionMetadataBuilder} {c : Torchair.AscendCommonAttentionMetadata}
  {requests : List (PagedRequest impl.Query)} {width : ℕ}

omit [CommRing R] in
/-- What `build` hands on. -/
theorem AscendAttentionMetadataBuilder.build_eq (builder : AscendAttentionMetadataBuilder) (h : HoldsPaged c requests width)
    (hwidth : width ≤ builder.maxNumBlocksPerReq) :
    ∃ md, builder.build c = .ok md ∧ md.blockTables = c.blockTableTensor ∧
      md.queryLens = requests.map (fun r => (r.numScheduledTokens : ℤ)) ∧
      md.seqLens = requests.map PagedRequest.seqLen := by
  have hreqs : c.numReqs = requests.length := by rw [h.metadata.numReqs, List.length_map]
  have hrows : ∀ row ∈ c.blockTableTensor.take c.numReqs, row.length ≤ builder.maxNumBlocksPerReq := by
    intro row hrow
    rw [h.rows row (List.mem_of_mem_take hrow)]
    exact hwidth
  have hstart : c.queryStartLocCpu.take (c.numReqs + 1) =
      0 :: cumsum 0 (requests.map fun r => (r.numScheduledTokens : ℤ)) := by
    rw [h.metadata.queryStartLocCpu]
    refine List.take_of_length_le ?_
    rw [List.length_cons, length_cumsum, List.length_map, hreqs]
  refine ⟨_, if_pos hrows, rfl, ?_, ?_⟩
  · simp only [hstart]
    exact cumsum_diff 0 _
  · simp only [hreqs, h.seqLens]

/-- **The v1 caller attends causally**: nothing fails on the way, and the output is causal attention. -/
def AttendsV1 (softmax : List (WithBot R) → List R) (impl : AscendAttentionBackendImpl R)
    (kernel : List impl.Query → AscendMetadata → Option (List impl.Query))
    (builder : AscendAttentionMetadataBuilder) (c : Torchair.AscendCommonAttentionMetadata)
    (requests : List (PagedRequest impl.Query)) (keyCache valueCache : PagedCache impl.Cached) : Prop :=
  ∃ md out, builder.build c = .ok md ∧
    impl.forwardV1Style softmax kernel (requests.flatMap PagedRequest.query) keyCache valueCache md = some out ∧
    causalAttention softmax impl.scale (kvHead impl.dvd) requests (fun r => r.numScheduledTokens)
      PagedRequest.seqLen (fun r t => r.query[t]?) (fun r => keyCache.entry r.blockIds)
      (fun r => valueCache.entry r.blockIds) = some out

/-- **Right exactly when the table has a row for each request and no more.** -/
theorem attendsV1_of_rows (hsoftmax : IsSoftmax softmax) (hhead : impl.headSize = 192)
    (kernel : List impl.Query → AscendMetadata → Option (List impl.Query)) (h : HoldsPaged c requests width)
    (hwidth : width ≤ builder.maxNumBlocksPerReq) {keyCache valueCache : PagedCache impl.Cached}
    (hkey : Caches keyCache c requests width) (hvalue : Caches valueCache c requests width)
    (hsize : keyCache.blockSize = valueCache.blockSize) :
    AttendsV1 softmax impl kernel builder c requests keyCache valueCache ↔
      requests ≠ [] ∧ c.blockTableTensor.length = requests.length := by
  obtain ⟨md, hmd, htables, hqueryLens, hseqLens⟩ := builder.build_eq h hwidth
  have hsum (lens : List ℤ) : cumsum 0 (0 :: lens) = 0 :: cumsum 0 lens := by rw [cumsum, add_zero]
  have hforward : ∀ {m n : ℕ}, (requests.map fun r => r.numScheduledTokens).max? = some m →
      (requests.map PagedRequest.seqLen).max? = some n →
      impl.forwardV1Style softmax kernel (requests.flatMap PagedRequest.query) keyCache valueCache md =
        vanillaChunkedPrefill softmax impl.scale
          (ragged requests (fun r => r.numScheduledTokens) fun r t => r.query.getD t 0).length
          (ragged requests (fun r => r.numScheduledTokens) fun r t => r.query.getD t 0) keyCache valueCache
          c.blockTableTensor (0 :: cumsum 0 (requests.map fun r => (r.numScheduledTokens : ℤ)))
          (0 :: cumsum 0 (requests.map fun r => (r.seqLen : ℤ))) m n true := by
    intro m n hm hn
    rw [AscendAttentionBackendImpl.forwardV1Style, if_pos hhead, hqueryLens, hseqLens, htables, flatMap_query,
      max?_map_cast hm, hn, hsum, hsum, List.map_map]
    rfl
  constructor
  · rintro ⟨md', out, hmd', hout, -⟩
    obtain rfl := Except.ok.inj (hmd.symm.trans hmd')
    have hne : requests ≠ [] := by
      rintro rfl
      rw [AscendAttentionBackendImpl.forwardV1Style, if_pos hhead, hqueryLens] at hout
      cases hout
    refine ⟨hne, ?_⟩
    by_contra hrows
    obtain ⟨m, hm, -, -⟩ := exists_max_map hne fun r => r.numScheduledTokens
    obtain ⟨n, hn, -, -⟩ := exists_max_map hne PagedRequest.seqLen
    obtain ⟨r, rest, rfl⟩ := List.exists_cons_of_ne_nil hne
    have hpos : 0 < width * keyCache.blockSize := r.seqLen_pos.trans_le (hkey.fits r (.head _))
    have hnone := keyCache.cachedRows_eq_none hkey.has h.rows hpos hrows n
    rw [hforward hm hn, vanillaChunkedPrefill, List.length_cons, length_cumsum, List.length_map,
      Nat.add_sub_cancel, ← hsize, hnone] at hout
    cases hout
  · rintro ⟨hne, hrows⟩
    obtain ⟨m, hm, hquery, -⟩ := exists_max_map hne fun r => r.numScheduledTokens
    obtain ⟨n, hn, hkv, ⟨r, hr, hmax⟩⟩ := exists_max_map hne PagedRequest.seqLen
    have htable : c.blockTableTensor = requests.map PagedRequest.blockIds := by
      rw [← h.blockTable, ← hrows, List.take_length]
    refine ⟨md, _, hmd, ?_, causalAttention_eq (fun r _ => r.le_seqLen) (fun r _ t ht => getElem?_query r ht)
      (hkey.entry_eq h 0) (hvalue.entry_eq h 0)⟩
    rw [hforward hm hn, htable]
    exact vanillaChunkedPrefill_eq hsoftmax (repeatHeads_eq impl.dvd impl.pos) hne
      (fun r hr => hkey.has _ (h.mem_blockTable r hr)) (fun r hr => hvalue.has _ (h.mem_blockTable r hr)) hsize
      (fun r hr => h.rows _ (h.mem_blockTable r hr)) (hmax ▸ hvalue.fits r hr) hquery hkv
      (fun r _ => r.le_seqLen) _

end V1

/-! ## One row for each prefill -/

section Prefills

variable {Query : Type} {builder : AscendMLAMetadataBuilder} {c : Torchair.AscendCommonAttentionMetadata}
  {requests : List (PagedRequest Query)} {width : ℕ}

/-- The requests that are not decodes. -/
def pagedPrefills (requests : List (PagedRequest Query)) : List (PagedRequest Query) :=
  requests.filter fun r => ¬ r.numScheduledTokens = 1

theorem HoldsPaged.holdsRequests (h : HoldsPaged c requests width)
    (hfirst : DecodesFirst (requests.map fun r => (r.numScheduledTokens : ℤ))) :
    HoldsRequests c (requests.map PagedRequest.toMLARequest) where
  metadata := by
    rw [List.map_map]
    exact h.metadata
  seqLens := by
    rw [List.length_map, List.map_map]
    exact h.seqLens
  decodesFirst := by
    rw [List.map_map]
    exact hfirst

/-- Behind the decodes are the prefills. -/
theorem drop_numDecodes
    (hfirst : DecodesFirst (requests.map fun r => (r.numScheduledTokens : ℤ))) :
    requests.drop ((requests.map fun r => (r.numScheduledTokens : ℤ)).count 1) = pagedPrefills requests := by
  refine (filter_eq_drop_of_border fun i r hr => ?_).symm
  have hlt := hfirst.lt_count (i := i) (n := r.numScheduledTokens) (by rw [List.getElem?_map, hr]; rfl)
  rw [← hlt]
  omega

/-- What `build` hands on of the prefills. -/
theorem AscendMLAMetadataBuilder.prefill_eq {config : MLAConfig}
    (hinit : AscendMLAMetadataBuilder.init config = .ok builder) (hblock : 0 < config.blockSize)
    (h : HoldsPaged c requests width)
    (hfirst : DecodesFirst (requests.map fun r => (r.numScheduledTokens : ℤ)))
    (hle : requests.length ≤ config.maxNumSeqs) (hne : pagedPrefills requests ≠ []) :
    ∃ prefill, builder.prefill c = .ok (some prefill) ∧
      prefill.blockTable = (pagedPrefills requests).map PagedRequest.blockIds ∧
      prefill.queryLens = (pagedPrefills requests).map (fun r => (r.numScheduledTokens : ℤ)) ∧
      prefill.contextLens = (pagedPrefills requests).map PagedRequest.seqLen ∧
      ((pagedPrefills requests).map fun r => r.numScheduledTokens).max? = some prefill.maxQueryLen.toNat ∧
      ((pagedPrefills requests).map PagedRequest.seqLen).max? = some prefill.maxSeqLens := by
  have hrequests := h.holdsRequests hfirst
  obtain ⟨chunkedContext, hchunked, -, -⟩ :=
    exists_chunkedContext hinit hblock hrequests (by rwa [List.length_map])
  obtain ⟨numPrefillTokens, hsplit, hreqs, -⟩ := hrequests.split_eq
  have hqueryLens := hrequests.queryLensOf_eq
  simp only [List.map_map, Function.comp_def] at hsplit hreqs hqueryLens
  have hnumReqs : c.numReqs = requests.length := by rw [h.metadata.numReqs, List.length_map]
  have hcount := drop_numDecodes hfirst
  have hlt : 0 < (prefillContexts (requests.map PagedRequest.toMLARequest)).length := by
    have hlength := congrArg List.length hcount
    rw [List.length_drop] at hlength
    have hpos := List.length_pos_of_ne_nil hne
    omega
  obtain ⟨m, hm, -, -⟩ := exists_max_map hne fun r => r.numScheduledTokens
  obtain ⟨n, hn, -, -⟩ := exists_max_map hne PagedRequest.seqLen
  have htokens : (queryLensOf c).drop ((requests.map fun r => (r.numScheduledTokens : ℤ)).count 1) =
      (pagedPrefills requests).map fun r => (r.numScheduledTokens : ℤ) := by
    rw [hqueryLens, ← List.map_drop, hcount]
  have hseqLens : (c.seqLensCpu.take c.numReqs).drop
      ((requests.map fun r => (r.numScheduledTokens : ℤ)).count 1) =
        (pagedPrefills requests).map PagedRequest.seqLen := by
    rw [hnumReqs, h.seqLens, ← List.map_drop, hcount]
  have hblockTable : (c.blockTableTensor.take c.numReqs).drop
      ((requests.map fun r => (r.numScheduledTokens : ℤ)).count 1) =
        (pagedPrefills requests).map PagedRequest.blockIds := by
    rw [hnumReqs, h.blockTable, ← List.map_drop, hcount]
  rw [AscendMLAMetadataBuilder.prefill, hchunked, hsplit]
  simp only [bind, Except.bind, if_pos hlt, Int.toNat_natCast, htokens, hseqLens, hblockTable, max?_map_cast hm,
    hn, orRaise]
  exact ⟨_, rfl, rfl, rfl, rfl, hm, rfl⟩

end Prefills

section MLA

variable {R : Type} [CommRing R] {softmax : List (WithBot R) → List R} {impl : AscendMLAImpl R}
  {builder : AscendMLAMetadataBuilder} {c : Torchair.AscendCommonAttentionMetadata}
  {requests : List (PagedRequest impl.Query)} {width : ℕ}

/-- **The MLA caller attends causally** for the prefills: nothing fails on the way, and the output is causal
attention. -/
def AttendsMLA (softmax : List (WithBot R) → List R) (impl : AscendMLAImpl R)
    (kernel : List impl.Query → AscendMLAPrefillMetadata → Option (List impl.Output))
    (builder : AscendMLAMetadataBuilder) (c : Torchair.AscendCommonAttentionMetadata)
    (attnState : AscendAttentionState) (requests : List (PagedRequest impl.Query))
    (nopeCache : PagedCache (Fin impl.kvLoraRank → R)) (ropeCache : PagedCache (Fin impl.qkRopeHeadDim → R)) :
    Prop :=
  ∃ prefill out, builder.prefill c = .ok (some prefill) ∧
    impl.forwardPrefillByState softmax kernel false ((pagedPrefills requests).flatMap PagedRequest.query)
      nopeCache ropeCache attnState prefill = some out ∧
    causalAttention softmax impl.scale id (pagedPrefills requests) (fun r => r.numScheduledTokens)
      PagedRequest.seqLen (fun r t => r.query[t]?) (fun r => impl.keyAt nopeCache ropeCache r.blockIds)
      (fun r => impl.valueAt nopeCache r.blockIds) = some out

theorem attendsMLA {config : MLAConfig} (hsoftmax : IsSoftmax softmax)
    (kernel : List impl.Query → AscendMLAPrefillMetadata → Option (List impl.Output))
    (hinit : AscendMLAMetadataBuilder.init config = .ok builder) (hblock : 0 < config.blockSize)
    (h : HoldsPaged c requests width)
    (hfirst : DecodesFirst (requests.map fun r => (r.numScheduledTokens : ℤ)))
    (hle : requests.length ≤ config.maxNumSeqs) (hne : pagedPrefills requests ≠ [])
    {attnState : AscendAttentionState} (hstate : attnState ∈ [.chunkedPrefill, .specDecoding, .prefillCacheHit])
    {nopeCache : PagedCache (Fin impl.kvLoraRank → R)} {ropeCache : PagedCache (Fin impl.qkRopeHeadDim → R)}
    (hnope : Caches nopeCache c requests width) (hrope : Caches ropeCache c requests width)
    (hsize : ropeCache.blockSize = nopeCache.blockSize) (hblocks : 1 < nopeCache.blocks.length) :
    AttendsMLA softmax impl kernel builder c attnState requests nopeCache ropeCache := by
  obtain ⟨prefill, hprefill, htable, hqueryLens, hcontextLens, hm, hn⟩ :=
    AscendMLAMetadataBuilder.prefill_eq hinit hblock h hfirst hle hne
  obtain ⟨m, hm', hquery, -⟩ := exists_max_map hne fun r => r.numScheduledTokens
  obtain ⟨n, hn', hkv, ⟨r, hr, hmax⟩⟩ := exists_max_map hne PagedRequest.seqLen
  obtain rfl := Option.some.inj (hm.symm.trans hm')
  obtain rfl := Option.some.inj (hn.symm.trans hn')
  have hrow : ∀ r ∈ pagedPrefills requests, r.blockIds ∈ c.blockTableTensor := fun r hr =>
    h.mem_blockTable r (List.mem_of_mem_filter hr)
  have hnopeAt : ∀ r ∈ pagedPrefills requests, ∀ j < r.seqLen,
      nopeCache.entry r.blockIds j = some ((nopeCache.slots r.blockIds).getD j 0) := fun r hr =>
    hnope.entry_eq h 0 r (List.mem_of_mem_filter hr)
  have hropeAt : ∀ r ∈ pagedPrefills requests, ∀ j < r.seqLen,
      ropeCache.entry r.blockIds j = some ((ropeCache.slots r.blockIds).getD j 0) := fun r hr =>
    hrope.entry_eq h 0 r (List.mem_of_mem_filter hr)
  refine ⟨prefill, _, hprefill, ?_, causalAttention_eq (fun r _ => r.le_seqLen)
    (fun r _ t ht => getElem?_query r ht)
    (fun r hr j hj => by rw [AscendMLAImpl.keyAt, hnopeAt r hr j hj, hropeAt r hr j hj]; rfl)
    (fun r hr j hj => by rw [AscendMLAImpl.valueAt, hnopeAt r hr j hj]; rfl)⟩
  rw [AscendMLAImpl.forwardPrefillByState, if_pos ⟨hstate, rfl⟩, htable, hqueryLens, hcontextLens, flatMap_query,
    List.map_map]
  exact vanillaChunkedPrefillMla_eq hsoftmax hne hblocks (fun r hr => hnope.has _ (hrow r hr))
    (fun r hr => hrope.has _ (hrow r hr)) hsize (fun r hr => h.rows _ (hrow r hr))
    (hmax ▸ hnope.fits r (List.mem_of_mem_filter hr)) hquery hkv (fun r _ => r.le_seqLen) impl.project _

end MLA

/-! ## Both fallbacks -/

section Both

variable {R : Type} [CommRing R] {softmax : List (WithBot R) → List R}

/-- A batch of the v1 backend that no kernel serves. -/
structure IsV1Batch (impl : AscendAttentionBackendImpl R) (builder : AscendAttentionMetadataBuilder)
    (c : Torchair.AscendCommonAttentionMetadata) (requests : List (PagedRequest impl.Query))
    (keyCache valueCache : PagedCache impl.Cached) (width : ℕ) : Prop where
  headSize : impl.headSize = 192
  holds : HoldsPaged c requests width
  fits : width ≤ builder.maxNumBlocksPerReq
  keys : Caches keyCache c requests width
  values : Caches valueCache c requests width
  blockSize : keyCache.blockSize = valueCache.blockSize

/-- A reordered batch of the MLA backend with prefills that no kernel serves.  Block 0 is the null block, so the
cache has another one. -/
structure IsMLABatch (impl : AscendMLAImpl R) (config : MLAConfig) (builder : AscendMLAMetadataBuilder)
    (c : Torchair.AscendCommonAttentionMetadata) (attnState : AscendAttentionState)
    (requests : List (PagedRequest impl.Query)) (nopeCache : PagedCache (Fin impl.kvLoraRank → R))
    (ropeCache : PagedCache (Fin impl.qkRopeHeadDim → R)) (width : ℕ) : Prop where
  init : AscendMLAMetadataBuilder.init config = .ok builder
  block : 0 < config.blockSize
  maxNumSeqs : requests.length ≤ config.maxNumSeqs
  state : attnState ∈ [.chunkedPrefill, .specDecoding, .prefillCacheHit]
  holds : HoldsPaged c requests width
  decodesFirst : DecodesFirst (requests.map fun r => (r.numScheduledTokens : ℤ))
  prefills : pagedPrefills requests ≠ []
  nope : Caches nopeCache c requests width
  rope : Caches ropeCache c requests width
  blockSize : ropeCache.blockSize = nopeCache.blockSize
  blocks : 1 < nopeCache.blocks.length

/-- **The fallbacks are causal attention**: the one of MLA for every batch, and the one of v1 exactly when the
device block table has a row for each request and no other. -/
theorem fallbackAttention_iff (hsoftmax : IsSoftmax softmax)
    {mla : AscendMLAImpl R} {config : MLAConfig} {mlaBuilder : AscendMLAMetadataBuilder}
    {c : Torchair.AscendCommonAttentionMetadata} {attnState : AscendAttentionState}
    {requests : List (PagedRequest mla.Query)} {nopeCache : PagedCache (Fin mla.kvLoraRank → R)}
    {ropeCache : PagedCache (Fin mla.qkRopeHeadDim → R)} {width : ℕ}
    (hmla : IsMLABatch mla config mlaBuilder c attnState requests nopeCache ropeCache width)
    {impl : AscendAttentionBackendImpl R} {builder : AscendAttentionMetadataBuilder}
    {c' : Torchair.AscendCommonAttentionMetadata} {requests' : List (PagedRequest impl.Query)}
    {keyCache valueCache : PagedCache impl.Cached} {width' : ℕ}
    (hv1 : IsV1Batch impl builder c' requests' keyCache valueCache width')
    (mlaKernel : List mla.Query → AscendMLAPrefillMetadata → Option (List mla.Output))
    (kernel : List impl.Query → AscendMetadata → Option (List impl.Query)) :
    AttendsMLA softmax mla mlaKernel mlaBuilder c attnState requests nopeCache ropeCache ∧
      (AttendsV1 softmax impl kernel builder c' requests' keyCache valueCache ↔
        requests' ≠ [] ∧ c'.blockTableTensor.length = requests'.length) :=
  ⟨attendsMLA hsoftmax mlaKernel hmla.init hmla.block hmla.holds hmla.decodesFirst hmla.maxNumSeqs hmla.prefills
    hmla.state hmla.nope hmla.rope hmla.blockSize hmla.blocks,
  attendsV1_of_rows hsoftmax hv1.headSize kernel hv1.holds hv1.fits hv1.keys hv1.values hv1.blockSize⟩

end Both

/-! ### A prefill of two tokens -/

/-- The metadata of one request of two tokens, in a device table of `rows` rows. -/
def twoTokenMetadata (rows : ℕ) : Torchair.AscendCommonAttentionMetadata where
  queryStartLoc := [0, 2]
  queryStartLocCpu := [0, 2]
  seqLensCpu := [2]
  numReqs := 1
  numActualTokens := 2
  maxQueryLen := 2
  decodeTokenPerReq := 1
  blockTableTensor := List.replicate rows [1]
  slotMappingCpu := [2, 3]
  actualSeqLengthsQ := []
  positions := [0, 1]
  attnState := .chunkedPrefill
  enableDboAcrossDp := false
  graphPadSize := -1

def twoTokenRequest {Query : Type} (query : Query) : PagedRequest Query where
  numComputedTokens := 0
  numScheduledTokens := 2
  pos := Nat.zero_lt_two
  query := [query, query]
  length_query := rfl
  blockIds := [1]

/-- The null block and another one. -/
def twoBlocks {α : Type} (x : α) : PagedCache α where
  blockSize := 2
  blocks := [[x, x], [x, x]]
  length_block := by
    intro block hblock
    obtain rfl | hblock := List.mem_cons.mp hblock
    · rfl
    · obtain rfl := List.mem_singleton.mp hblock
      rfl

theorem holdsPaged_twoTokens {Query : Type} (query : Query) {rows : ℕ} (hrows : 0 < rows) :
    HoldsPaged (twoTokenMetadata rows) [twoTokenRequest query] 1 where
  metadata := ⟨rfl, rfl, rfl, rfl⟩
  seqLens := rfl
  blockTable := by
    obtain ⟨n, rfl⟩ := Nat.exists_eq_succ_of_ne_zero hrows.ne'
    rfl
  rows row hrow := by
    rw [List.eq_of_mem_replicate hrow]
    rfl

theorem caches_twoTokens {Query α : Type} (query : Query) (x : α) (rows : ℕ) :
    Caches (twoBlocks x) (twoTokenMetadata rows) [twoTokenRequest query] 1 where
  has row hrow b hb := by
    rw [List.eq_of_mem_replicate hrow] at hb
    obtain rfl := List.mem_singleton.mp hb
    exact Nat.one_lt_two
  fits r hr := by
    obtain rfl := List.mem_singleton.mp hr
    exact le_rfl

/-- One head of the size that no kernel serves. -/
noncomputable def oneHead : AscendAttentionBackendImpl ℝ := ⟨1, 192, 1, 1, Nat.one_pos, by decide⟩

noncomputable def oneHeadMla : AscendMLAImpl ℝ := ⟨1, 1, 1, 1, 1, 1, ⟨fun _ _ => 1, true⟩⟩

theorem isV1Batch_twoTokens {rows : ℕ} (hrows : 0 < rows) :
    IsV1Batch oneHead ⟨1⟩ (twoTokenMetadata rows) [twoTokenRequest 0] (twoBlocks 0) (twoBlocks 0) 1 where
  headSize := rfl
  holds := holdsPaged_twoTokens 0 hrows
  fits := le_rfl
  keys := caches_twoTokens 0 0 rows
  values := caches_twoTokens 0 0 rows
  blockSize := rfl

theorem isMLABatch_twoTokens : IsMLABatch oneHeadMla ⟨128, 3, 256, true⟩ ⟨128, 2, true, 2048⟩
    (twoTokenMetadata 3) .chunkedPrefill [twoTokenRequest 0] (twoBlocks 0) (twoBlocks 0) 1 where
  init := rfl
  block := by decide
  maxNumSeqs := by decide
  state := by decide
  holds := holdsPaged_twoTokens 0 (by decide)
  decodesFirst := List.pairwise_singleton _ _
  prefills := by rintro ⟨⟩
  nope := caches_twoTokens 0 0 3
  rope := caches_twoTokens 0 0 3
  blockSize := rfl
  blocks := by decide

/-- With room for one request only, both are right. -/
theorem fallbackAttention_iff_twoTokens :
    AttendsMLA softmaxReal oneHeadMla (fun _ _ => none) ⟨128, 2, true, 2048⟩ (twoTokenMetadata 3) .chunkedPrefill
        [twoTokenRequest 0] (twoBlocks 0) (twoBlocks 0) ∧
      AttendsV1 softmaxReal oneHead (fun _ _ => none) ⟨1⟩ (twoTokenMetadata 1) [twoTokenRequest 0] (twoBlocks 0)
        (twoBlocks 0) := by
  obtain ⟨hmla, hv1⟩ := fallbackAttention_iff isSoftmax_softmaxReal isMLABatch_twoTokens
    (isV1Batch_twoTokens Nat.one_pos) (fun _ _ => none) fun _ _ => none
  exact ⟨hmla, hv1.mpr ⟨List.cons_ne_nil _ _, rfl⟩⟩

/-- **With room for three, the view of the gathered cache does not exist.** -/
theorem fallbackAttention_threeRows :
    IsV1Batch oneHead ⟨1⟩ (twoTokenMetadata 3) [twoTokenRequest 0] (twoBlocks 0) (twoBlocks 0) 1 ∧
      ¬ AttendsV1 softmaxReal oneHead (fun _ _ => none) ⟨1⟩ (twoTokenMetadata 3) [twoTokenRequest 0]
        (twoBlocks 0) (twoBlocks 0) := by
  have hbatch := isV1Batch_twoTokens (by decide : 0 < 3)
  refine ⟨hbatch, fun hattends => ?_⟩
  have hiff := attendsV1_of_rows isSoftmax_softmaxReal hbatch.headSize (fun _ _ => none) hbatch.holds hbatch.fits
    hbatch.keys hbatch.values hbatch.blockSize
  exact absurd (hiff.mp hattends).2 (by decide)

end VllmAscend
