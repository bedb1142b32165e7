import VllmAscend.Attention.MLABatch
import VllmAscend.Machinery.Launch
import VllmAscend.Machinery.Windows

/-!
# Attention/MLAChunkedContext — the contexts of the prefills, chunk by chunk

    workspace   ├─────────────────────────┤         the same for every chunk
    prefill 0   ├───────┤├───────┤├──┤              context of 20, chunks of 8
    prefill 1   ├───────┤├─┤                        context of 10
    prefill 2                                       no context

All prefills share one chunk size: the workspace, divided by the number of prefills that have a context, and
rounded down to blocks.  The chunks cover every context, a chunk of all prefills fits into the workspace, and
the size is never zero (`chunkedContext_tiles`).
-/

namespace VllmAscend

open Machinery Torchair

/-- The parts of the configuration that the builder reads. -/
structure MLAConfig where
  blockSize : ℕ
  maxNumSeqs : ℕ
  maxModelLen : ℕ
  chunkedPrefillEnabled : Bool

structure AscendMLAMetadataBuilder where
  blockSize : ℕ
  maxBlocks : ℕ
  chunkedPrefillEnabled : Bool
  chunkedPrefillWorkspaceSize : ℕ

/-- `self.chunked_prefill_workspace_size` -/
def MLAConfig.chunkedPrefillWorkspaceSize (c : MLAConfig) : ℕ :=
  min (max (8 * c.maxModelLen) (4 * c.maxNumSeqs * c.blockSize)) (128 * 1024)

/-- `AscendMLAMetadataBuilder.__init__`; the workspace is made only when prefills are chunked. -/
def AscendMLAMetadataBuilder.init (c : MLAConfig) : Except BuildError AscendMLAMetadataBuilder := do
  if c.chunkedPrefillEnabled then
    require (c.maxNumSeqs * c.blockSize ≤ c.chunkedPrefillWorkspaceSize)
  return {
    blockSize := c.blockSize
    maxBlocks := (c.maxModelLen + c.blockSize - 1) / c.blockSize
    chunkedPrefillEnabled := c.chunkedPrefillEnabled
    chunkedPrefillWorkspaceSize := if c.chunkedPrefillEnabled then c.chunkedPrefillWorkspaceSize else 0 }

structure ChunkedContextMetadata where
  cuSeqLens : List (List ℤ)
  starts : List (List ℤ)
  seqTot : List ℤ
  maxSeqLens : List ℤ
  chunkSeqLens : List (List ℤ)
deriving DecidableEq

/-- `round_down(x, y)` -/
def roundDown (x y : ℕ) : ℕ := x / y * y

/-- A list that is not empty has a maximum. -/
theorem exists_max {α : Type} [Max α] {l : List α} (h : l ≠ []) : ∃ m, l.max? = some m :=
  Option.isSome_iff_exists.mp (List.isSome_max?_iff.mpr h)

namespace AscendMLAMetadataBuilder

variable (builder : AscendMLAMetadataBuilder)

/-- `max_context_chunk` -/
def maxContextChunk (contextLensCpu : List ℤ) : ℕ :=
  roundDown (builder.chunkedPrefillWorkspaceSize / contextLensCpu.countP (0 < ·)) builder.blockSize

/-- `(chunk_ends - chunk_starts).clamp(min=0)` -/
def chunkSeqLen (size : ℕ) (context start : ℤ) : ℤ := max (min context (start + size) - start) 0

/-- The chunks of the contexts, each of at most `size` tokens. -/
def chunks (contextLensCpu : List ℤ) (maxContextLenCpu : ℤ) (size : ℕ) :
    Except BuildError ChunkedContextMetadata := do
  let numChunks := ceilDiv maxContextLenCpu.toNat size
  let chunkStarts : List (List ℤ) := (List.range numChunks).map fun i : ℕ =>
    List.replicate contextLensCpu.length ((i * size : ℕ) : ℤ)
  let chunkSeqLens := chunkStarts.map fun row => List.zipWith (chunkSeqLen size) contextLensCpu row
  let maxSeqLens ← orRaise .emptyReduction (chunkSeqLens.mapM List.max?)
  return {
    cuSeqLens := chunkSeqLens.map fun row => 0 :: cumsum 0 row
    starts := chunkStarts
    seqTot := chunkSeqLens.map List.sum
    maxSeqLens := maxSeqLens
    chunkSeqLens := chunkSeqLens }

/-- `chunked_context_metadata`, when there are prefills. -/
def prefillContext (contextLensCpu : List ℤ) : Except BuildError (Option ChunkedContextMetadata) := do
  let maxContextLenCpu ← orRaise .emptyReduction contextLensCpu.max?
  if builder.chunkedPrefillEnabled ∧ 0 < maxContextLenCpu then
    require (0 < builder.maxContextChunk contextLensCpu)
    (chunks contextLensCpu maxContextLenCpu (builder.maxContextChunk contextLensCpu)).map some
  else return none

/-- `build`, up to the chunks of the prefills. -/
def chunkedContext (c : Torchair.AscendCommonAttentionMetadata) :
    Except BuildError (Option ChunkedContextMetadata) := do
  let (numDecodes, numPrefills, numDecodeTokens, numPrefillTokens) ← splitDecodesAndPrefills c 1
  require (numDecodes + numPrefills = c.numReqs)
  require (numDecodeTokens + numPrefillTokens = c.numActualTokens)
  let queryLens := queryLensOf c
  let seqLens := c.seqLensCpu.take c.numReqs
  let numComputedTokensCpu := List.zipWith (fun (s : ℕ) (q : ℤ) => (s : ℤ) - q) seqLens queryLens
  if 0 < numPrefills then
    let _ ← orRaise .emptyReduction (queryLens.drop numDecodeTokens.toNat).max?
    let _ ← orRaise .emptyReduction (seqLens.drop numDecodeTokens.toNat).max?
    builder.prefillContext ((numComputedTokensCpu.take c.numReqs).drop numDecodes)
  else return none

/-! ## One chunk size for all -/

section Size

variable {builder} {contexts : List ℕ}

/-- **A chunk of all prefills fits into the workspace.** -/
theorem countP_mul_maxContextChunk_le (contextLens : List ℤ) :
    contextLens.countP (0 < ·) * builder.maxContextChunk contextLens ≤
      builder.chunkedPrefillWorkspaceSize := by
  rw [maxContextChunk, roundDown]
  exact (Nat.mul_le_mul_left _ (Nat.div_mul_le_self _ _)).trans (Nat.mul_div_le _ _)

/-- **The chunks are not empty**, when the workspace has a block for each prefill. -/
theorem maxContextChunk_pos {contextLens : List ℤ} (hblock : 0 < builder.blockSize)
    (hpos : 0 < contextLens.countP (0 < ·))
    (h : contextLens.length * builder.blockSize ≤ builder.chunkedPrefillWorkspaceSize) :
    0 < builder.maxContextChunk contextLens := by
  have hshare : builder.blockSize ≤
      builder.chunkedPrefillWorkspaceSize / contextLens.countP (0 < ·) := by
    rw [Nat.le_div_iff_mul_le hpos, Nat.mul_comm]
    exact (Nat.mul_le_mul_right _ List.countP_le_length).trans h
  rw [maxContextChunk, roundDown]
  exact Nat.mul_pos (Nat.div_pos hshare hblock) hblock

end Size

/-! ## The chunks -/

section Chunks

variable {contexts : List ℕ} {size : ℕ}

/-- The places of a chunk of a context are cut out by its window. -/
theorem range'_chunk (context start : ℕ) :
    List.range' ((start : ℤ).toNat) (chunkSeqLen size context start).toNat = cut 0 context start size := by
  have hlength : (chunkSeqLen size context start).toNat =
      min (start + size - 0) context - (start - 0) := by
    rw [chunkSeqLen]
    omega
  rw [hlength, cut, Int.toNat_natCast]
  rfl

/-- **Prefills without a context add nothing to a chunk.** -/
theorem sum_chunkSeqLen_le (start : ℕ) : ∀ contextLens : List ℤ,
    (contextLens.map fun context => chunkSeqLen size context start).sum ≤
      contextLens.countP (0 < ·) * size
  | [] => by simp
  | context :: contextLens => by
    have htail := sum_chunkSeqLen_le start contextLens
    rw [List.map_cons, List.sum_cons, List.countP_cons, chunkSeqLen]
    by_cases hcontext : 0 < context
    · rw [if_pos (decide_eq_true hcontext), Nat.cast_add, Nat.cast_one, Int.add_mul, one_mul]
      omega
    · rw [if_neg (by simpa using hcontext), Nat.add_zero]
      omega

theorem zipWith_replicate {α β γ : Type} (f : α → β → γ) (y : β) : ∀ xs : List α,
    List.zipWith f xs (List.replicate xs.length y) = xs.map (f · y)
  | [] => rfl
  | x :: xs => by
    rw [List.length_cons, List.replicate_succ, List.zipWith_cons_cons, zipWith_replicate f y xs, List.map_cons]

/-- The metadata of the first `n` chunks. -/
def chunkRows (contextLens : List ℤ) (size n : ℕ) (maxSeqLens : List ℤ) : ChunkedContextMetadata where
  cuSeqLens := (List.range n).map fun i => 0 :: cumsum 0 (contextLens.map (chunkSeqLen size · (i * size : ℕ)))
  starts := (List.range n).map fun i => List.replicate contextLens.length ((i * size : ℕ) : ℤ)
  seqTot := (List.range n).map fun i => (contextLens.map (chunkSeqLen size · (i * size : ℕ))).sum
  maxSeqLens := maxSeqLens
  chunkSeqLens := (List.range n).map fun i => contextLens.map (chunkSeqLen size · (i * size : ℕ))

/-- **The chunks of all prefills**: one row for each multiple of the size that is needed. -/
theorem chunks_eq {contextLens : List ℤ} (hne : contextLens ≠ []) (maxContextLen : ℤ) :
    ∃ maxSeqLens, chunks contextLens maxContextLen size =
      .ok (chunkRows contextLens size (ceilDiv maxContextLen.toNat size) maxSeqLens) := by
  have hmax : ∀ rows : List ℕ, ∃ maxSeqLens,
      (rows.map fun i => contextLens.map (chunkSeqLen size · (i * size : ℕ))).mapM List.max? =
        some maxSeqLens := by
    intro rows
    induction rows with
    | nil => exact ⟨[], rfl⟩
    | cons i rows ih =>
      obtain ⟨maxSeqLens, hrest⟩ := ih
      obtain ⟨m, hm⟩ := exists_max (l := contextLens.map (chunkSeqLen size · (i * size : ℕ))) (by simpa)
      exact ⟨m :: maxSeqLens, by rw [List.map_cons, List.mapM_cons, hm, hrest]; rfl⟩
  obtain ⟨maxSeqLens, hmax⟩ := hmax (List.range (ceilDiv maxContextLen.toNat size))
  refine ⟨maxSeqLens, ?_⟩
  simp only [chunks, List.map_map, Function.comp_def, zipWith_replicate, hmax, orRaise]
  rfl

end Chunks

/-! ## The context of every prefill is tiled -/

/-- **What the chunks are to be**: for each prefill a tiling of its context from its start, aligned to blocks,
with the sums of the rows, none above the workspace. -/
structure TilesContexts (md : ChunkedContextMetadata) (contexts : List ℕ) : Prop where
  rows : md.starts.length = md.chunkSeqLens.length
  startsLength : ∀ row ∈ md.starts, row.length = contexts.length
  chunkSeqLensLength : ∀ row ∈ md.chunkSeqLens, row.length = contexts.length
  tiles : ∀ i context, contexts[i]? = some context →
    (md.starts.zip md.chunkSeqLens).flatMap (fun row =>
      List.range' (row.1.getD i 0).toNat (row.2.getD i 0).toNat) = List.range context
  aligned : ∀ row ∈ md.starts, ∀ start ∈ row, (builder.blockSize : ℤ) ∣ start
  cuSeqLens : md.cuSeqLens = md.chunkSeqLens.map fun row => 0 :: cumsum 0 row
  seqTot : md.seqTot = md.chunkSeqLens.map List.sum
  fits : ∀ total ∈ md.seqTot, total ≤ builder.chunkedPrefillWorkspaceSize

/-- Chunks of the shared size, up to the end of every context. -/
theorem chunkRows_tiles {contexts : List ℕ} {n : ℕ} (maxSeqLens : List ℤ)
    (hcovers : ∀ context ∈ contexts, context ≤ n * builder.maxContextChunk (contexts.map Nat.cast)) :
    builder.TilesContexts
      (chunkRows (contexts.map Nat.cast) (builder.maxContextChunk (contexts.map Nat.cast)) n maxSeqLens)
      contexts where
  rows := by rw [chunkRows, List.length_map, List.length_map]
  startsLength row hrow := by
    obtain ⟨i, -, rfl⟩ := List.mem_map.mp hrow
    rw [List.length_replicate, List.length_map]
  chunkSeqLensLength row hrow := by
    obtain ⟨i, -, rfl⟩ := List.mem_map.mp hrow
    rw [List.length_map, List.length_map]
  tiles i context hi := by
    have hlt := (List.getElem?_eq_some_iff.mp hi).1
    rw [chunkRows, List.zip_map', List.flatMap_map,
      ← flatMap_cut_multiples (hcovers context (List.mem_of_getElem? hi))]
    refine List.flatMap_congr fun j _ => ?_
    rw [← range'_chunk, List.getD_eq_getElem?_getD, List.getD_eq_getElem?_getD, List.getElem?_map,
      List.getElem?_map, hi, List.getElem?_replicate_of_lt (by rwa [List.length_map])]
    rfl
  aligned row hrow start hstart := by
    obtain ⟨i, -, rfl⟩ := List.mem_map.mp hrow
    rw [List.eq_of_mem_replicate hstart, Int.natCast_dvd_natCast, maxContextChunk, roundDown]
    exact Dvd.dvd.mul_left (Nat.dvd_mul_left _ _) _
  cuSeqLens := by rw [chunkRows, List.map_map]; rfl
  seqTot := by rw [chunkRows, List.map_map]; rfl
  fits total htotal := by
    obtain ⟨i, -, rfl⟩ := List.mem_map.mp htotal
    refine (sum_chunkSeqLen_le _ _).trans ?_
    exact_mod_cast countP_mul_maxContextChunk_le (contexts.map Nat.cast)

/-- **The contexts of any prefills are tiled** when the workspace has a block for each. -/
theorem prefillContext_tiles (hchunked : builder.chunkedPrefillEnabled = true)
    (hblock : 0 < builder.blockSize) {contexts : List ℕ}
    (hworkspace : contexts.length * builder.blockSize ≤ builder.chunkedPrefillWorkspaceSize)
    (hcontext : ∃ context ∈ contexts, context ≠ 0) :
    ∃ md, builder.prefillContext (contexts.map Nat.cast) = .ok (some md) ∧
      builder.TilesContexts md contexts := by
  obtain ⟨context, hmem, hne⟩ := hcontext
  have hnil : contexts.map (Nat.cast : ℕ → ℤ) ≠ [] := by simpa using List.ne_nil_of_mem hmem
  obtain ⟨m, hm⟩ := exists_max hnil
  obtain ⟨hmaxMem, hmax⟩ := List.max?_eq_some_iff.mp hm
  have hmaxPos : 0 < m := by
    have hle := hmax context (List.mem_map_of_mem hmem)
    omega
  have hcount : 0 < (contexts.map (Nat.cast : ℕ → ℤ)).countP (0 < ·) :=
    List.countP_pos_iff.mpr ⟨m, hmaxMem, decide_eq_true hmaxPos⟩
  have hsize : 0 < builder.maxContextChunk (contexts.map Nat.cast) :=
    maxContextChunk_pos hblock hcount (by rwa [List.length_map])
  obtain ⟨maxSeqLens, hchunks⟩ := chunks_eq hnil m
  refine ⟨_, ?_, builder.chunkRows_tiles maxSeqLens (n :=
    ceilDiv m.toNat (builder.maxContextChunk (contexts.map Nat.cast))) fun context hcontext => ?_⟩
  · rw [prefillContext, hm]
    refine Eq.trans (if_pos ⟨hchunked, hmaxPos⟩) ?_
    rw [require, if_pos hsize, hchunks]
    rfl
  · refine Nat.le_trans ?_ (le_ceilDiv_mul _ hsize)
    have hle := hmax context (List.mem_map_of_mem hcontext)
    omega

/-- Without a context there is nothing to tile. -/
theorem prefillContext_eq_none {contexts : List ℕ} (hne : contexts ≠ [])
    (h : builder.chunkedPrefillEnabled = false ∨ ∀ context ∈ contexts, context = 0) :
    builder.prefillContext (contexts.map Nat.cast) = .ok none := by
  obtain ⟨m, hm⟩ := exists_max (l := contexts.map (Nat.cast : ℕ → ℤ)) (by simpa)
  obtain ⟨hmem, -⟩ := List.max?_eq_some_iff.mp hm
  obtain ⟨context, hcontext, hcast⟩ := List.mem_map.mp hmem
  have hnone : ¬(builder.chunkedPrefillEnabled = true ∧ 0 < m) := by
    rintro ⟨hchunked, hpos⟩
    obtain hdisabled | hzero := h
    · rw [hdisabled] at hchunked
      cases hchunked
    · have hcontext := hzero context hcontext
      omega
  rw [prefillContext, hm]
  exact if_neg hnone

end AscendMLAMetadataBuilder

/-! ## Every reordered batch -/

/-- A request of the batch. -/
structure MLARequest where
  numComputedTokens : ℕ
  numScheduledTokens : ℕ
  pos : 1 ≤ numScheduledTokens

/-- The metadata of a batch with these requests, the decodes first. -/
structure HoldsRequests (c : Torchair.AscendCommonAttentionMetadata) (requests : List MLARequest) : Prop where
  metadata : IsMetadataOf c (requests.map fun r => (r.numScheduledTokens : ℤ))
  seqLens : c.seqLensCpu.take requests.length =
    requests.map fun r => r.numComputedTokens + r.numScheduledTokens
  decodesFirst : DecodesFirst (requests.map fun r => (r.numScheduledTokens : ℤ))

/-- The contexts of the prefills. -/
def prefillContexts (requests : List MLARequest) : List ℕ :=
  (requests.filter fun r => ¬ r.numScheduledTokens = 1).map MLARequest.numComputedTokens

namespace HoldsRequests

variable {c : Torchair.AscendCommonAttentionMetadata} {requests : List MLARequest}

theorem queryLensOf_eq (h : HoldsRequests c requests) :
    queryLensOf c = requests.map fun r => (r.numScheduledTokens : ℤ) := by
  have hlens := zipWith_sub_cumsum 0 (requests.map fun r => (r.numScheduledTokens : ℤ))
  rw [queryLensOf, h.metadata.queryStartLocCpu, h.metadata.numReqs, List.drop_one, List.tail_cons, hlens,
    List.take_length]

/-- The computed tokens, from the lengths. -/
theorem numComputedTokens_eq (h : HoldsRequests c requests) :
    List.zipWith (fun (s : ℕ) (q : ℤ) => (s : ℤ) - q) (c.seqLensCpu.take c.numReqs) (queryLensOf c) =
      requests.map fun r => (r.numComputedTokens : ℤ) := by
  rw [h.metadata.numReqs, List.length_map, h.seqLens, h.queryLensOf_eq, List.zipWith_map, List.zipWith_self]
  exact List.map_congr_left fun r _ => by simp

/-- Behind the decodes are the prefills. -/
theorem prefills_eq (h : HoldsRequests c requests) :
    requests.filter (fun r => ¬ r.numScheduledTokens = 1) =
      requests.drop ((requests.map fun r => (r.numScheduledTokens : ℤ)).count 1) := by
  refine filter_eq_drop_of_border fun i r hr => ?_
  have hlt := h.decodesFirst.lt_count (i := i) (n := r.numScheduledTokens) (by rw [List.getElem?_map, hr]; rfl)
  rw [← hlt]
  omega

/-- The split of the batch, and the two assertions behind it. -/
theorem split_eq (h : HoldsRequests c requests) :
    ∃ numPrefillTokens : ℤ,
      splitDecodesAndPrefills c 1 = .ok ((requests.map fun r => (r.numScheduledTokens : ℤ)).count 1,
        (prefillContexts requests).length,
        ((requests.map fun r => (r.numScheduledTokens : ℤ)).count 1 : ℕ), numPrefillTokens) ∧
      (requests.map fun r => (r.numScheduledTokens : ℤ)).count 1 + (prefillContexts requests).length =
        c.numReqs ∧
      (((requests.map fun r => (r.numScheduledTokens : ℤ)).count 1 : ℕ) : ℤ) + numPrefillTokens =
        c.numActualTokens := by
  have hrows := eq_append_of_border List.count_le_length fun i n hn => h.decodesFirst.lt_count hn
  have hothers : ∀ n ∈ (requests.map fun r => (r.numScheduledTokens : ℤ)).filter (· ≠ 1), 1 < n := by
    intro n hn
    obtain ⟨hmem, hne⟩ := List.mem_filter.mp hn
    obtain ⟨r, -, rfl⟩ := List.mem_map.mp hmem
    have hpos := r.pos
    have hne := of_decide_eq_true hne
    omega
  have hlength : ((requests.map fun r => (r.numScheduledTokens : ℤ)).filter (· ≠ 1)).length =
      (prefillContexts requests).length := by
    rw [List.filter_map, prefillContexts, List.length_map, List.length_map]
    refine congrArg List.length (List.filter_congr fun r _ => ?_)
    simp
  have hreqs := h.metadata.numReqs
  have htokens := h.metadata.numActualTokens
  rw [hrows, List.length_append, List.length_replicate, hlength] at hreqs
  rw [hrows, List.sum_append, List.sum_replicate, nsmul_eq_mul, mul_one] at htokens
  have hsplit := splitDecodesAndPrefills_of_border hothers (hrows ▸ h.metadata)
  rw [hlength] at hsplit
  exact ⟨_, hsplit, hreqs.symm, htokens.symm⟩

/-- The contexts that `build` takes for those of the prefills. -/
theorem contextLens_eq (h : HoldsRequests c requests) :
    ((requests.map fun r => (r.numComputedTokens : ℤ)).take c.numReqs).drop
        ((requests.map fun r => (r.numScheduledTokens : ℤ)).count 1) =
      (prefillContexts requests).map Nat.cast := by
  have hlength : c.numReqs = (requests.map fun r => (r.numComputedTokens : ℤ)).length := by
    rw [h.metadata.numReqs, List.length_map, List.length_map]
  rw [hlength, List.take_length, ← List.map_drop, prefillContexts, h.prefills_eq, List.map_map]
  rfl

/-- **What `build` does about the chunks**: nothing without prefills, else it chunks their contexts. -/
theorem chunkedContext_eq (h : HoldsRequests c requests) (builder : AscendMLAMetadataBuilder) :
    builder.chunkedContext c =
      if prefillContexts requests = [] then .ok none
      else builder.prefillContext ((prefillContexts requests).map Nat.cast) := by
  obtain ⟨numPrefillTokens, hsplit, hreqs, htokens⟩ := h.split_eq
  rw [AscendMLAMetadataBuilder.chunkedContext, hsplit]
  simp only [bind, Except.bind, require, if_pos hreqs, if_pos htokens, h.numComputedTokens_eq,
    h.contextLens_eq]
  by_cases hnone : prefillContexts requests = []
  · rw [if_pos hnone, if_neg (by simp [hnone])]
    rfl
  · have hdrop : (requests.map fun r => (r.numScheduledTokens : ℤ)).count 1 < requests.length := by
      rw [h.metadata.numReqs, List.length_map] at hreqs
      have hpos := List.length_pos_of_ne_nil hnone
      omega
    obtain ⟨maxQueryLen, hmaxQueryLen⟩ := exists_max
      (l := (queryLensOf c).drop ((requests.map fun r => (r.numScheduledTokens : ℤ)).count 1)) (by
        rw [h.queryLensOf_eq, ne_eq, List.drop_eq_nil_iff, List.length_map]
        exact Nat.not_le.mpr hdrop)
    obtain ⟨maxSeqLens, hmaxSeqLens⟩ := exists_max (l := (c.seqLensCpu.take c.numReqs).drop
      ((requests.map fun r => (r.numScheduledTokens : ℤ)).count 1)) (by
        rw [h.metadata.numReqs, List.length_map, h.seqLens, ne_eq, List.drop_eq_nil_iff, List.length_map]
        exact Nat.not_le.mpr hdrop)
    rw [if_neg hnone, if_pos (List.length_pos_of_ne_nil hnone)]
    simp only [Int.toNat_natCast, hmaxQueryLen, hmaxSeqLens, orRaise]

end HoldsRequests

/-- What the constructor asserts of the workspace. -/
theorem AscendMLAMetadataBuilder.init_eq {config : MLAConfig} {builder : AscendMLAMetadataBuilder}
    (hinit : AscendMLAMetadataBuilder.init config = .ok builder) :
    builder.blockSize = config.blockSize ∧
      builder.chunkedPrefillEnabled = config.chunkedPrefillEnabled ∧
      (config.chunkedPrefillEnabled = true →
        config.maxNumSeqs * config.blockSize ≤ builder.chunkedPrefillWorkspaceSize) := by
  rw [AscendMLAMetadataBuilder.init] at hinit
  cases hchunked : config.chunkedPrefillEnabled with
  | false =>
    rw [hchunked] at hinit
    cases hinit
    exact ⟨rfl, rfl, fun h => by cases h⟩
  | true =>
    rw [hchunked, require] at hinit
    by_cases hle : config.maxNumSeqs * config.blockSize ≤ config.chunkedPrefillWorkspaceSize
    · rw [if_pos hle] at hinit
      cases hinit
      exact ⟨rfl, rfl, fun _ => hle⟩
    · rw [if_neg hle] at hinit
      cases hinit

/-- What `build` returns for a reordered batch, and that it raises nothing. -/
theorem exists_chunkedContext {config : MLAConfig} {builder : AscendMLAMetadataBuilder}
    (hinit : AscendMLAMetadataBuilder.init config = .ok builder) (hblock : 0 < config.blockSize)
    {c : Torchair.AscendCommonAttentionMetadata} {requests : List MLARequest} (h : HoldsRequests c requests)
    (hle : requests.length ≤ config.maxNumSeqs) :
    ∃ result, builder.chunkedContext c = .ok result ∧
      (result = none ↔ config.chunkedPrefillEnabled = false ∨
        ∀ context ∈ prefillContexts requests, context = 0) ∧
      ∀ md, result = some md → builder.TilesContexts md (prefillContexts requests) := by
  obtain ⟨hblockSize, henabled, hworkspace⟩ := AscendMLAMetadataBuilder.init_eq hinit
  rw [h.chunkedContext_eq, ← henabled]
  by_cases hnone : prefillContexts requests = []
  · refine ⟨none, if_pos hnone, iff_of_true rfl (Or.inr (by simp [hnone])), fun md hmd => ?_⟩
    cases hmd
  rw [if_neg hnone]
  by_cases hzero : builder.chunkedPrefillEnabled = false ∨ ∀ context ∈ prefillContexts requests, context = 0
  · refine ⟨none, builder.prefillContext_eq_none hnone hzero, iff_of_true rfl hzero, fun md hmd => ?_⟩
    cases hmd
  · rw [not_or, Bool.not_eq_false] at hzero
    have hlength : (prefillContexts requests).length * builder.blockSize ≤
        builder.chunkedPrefillWorkspaceSize := by
      rw [hblockSize]
      refine Nat.le_trans (Nat.mul_le_mul_right _ ?_) (hworkspace (henabled ▸ hzero.1))
      rw [prefillContexts, List.length_map]
      exact (List.length_filter_le _ _).trans hle
    obtain ⟨md, hmd, htiles⟩ := builder.prefillContext_tiles hzero.1 (hblockSize ▸ hblock) hlength
      (by simpa using hzero.2)
    refine ⟨some md, hmd, iff_of_false (Option.some_ne_none md) ?_, fun md' hmd' => ?_⟩
    · rw [not_or, Bool.not_eq_false]
      exact hzero
    · cases hmd'
      exact htiles

/-- **Every batch is tiled.**  For every configuration that the constructor accepts, and every reordered batch
of no more requests than it was made for, `build` asserts nothing false; and where there is a context, its
chunks tile the contexts of all prefills, each chunk fitting into the workspace. -/
theorem chunkedContext_tiles {config : MLAConfig} {builder : AscendMLAMetadataBuilder}
    (hinit : AscendMLAMetadataBuilder.init config = .ok builder) (hblock : 0 < config.blockSize)
    {c : Torchair.AscendCommonAttentionMetadata} {requests : List MLARequest} (h : HoldsRequests c requests)
    (hle : requests.length ≤ config.maxNumSeqs) :
    ∃ result, builder.chunkedContext c = .ok result ∧
      (result = none ↔ config.chunkedPrefillEnabled = false ∨
        ∀ context ∈ prefillContexts requests, context = 0) ∧
      ∀ md, result = some md → builder.TilesContexts md (prefillContexts requests) :=
  exists_chunkedContext hinit hblock h hle

/-- A decode and two prefills, the second without a context; the workspace is of two chunks. -/
theorem chunkedContext_tiles_threeRequests :
    ∃ builder result, AscendMLAMetadataBuilder.init ⟨128, 3, 256, true⟩ = .ok builder ∧
      builder.chunkedContext {
        queryStartLoc := [0, 1, 3, 6], queryStartLocCpu := [0, 1, 3, 6], seqLensCpu := [5, 202, 3]
        numReqs := 3, numActualTokens := 6, maxQueryLen := 3, decodeTokenPerReq := 1
        blockTableTensor := [], slotMappingCpu := [], actualSeqLengthsQ := [], positions := []
        attnState := .chunkedPrefill, enableDboAcrossDp := false, graphPadSize := -1 } = .ok result ∧
      ∀ md, result = some md → builder.TilesContexts md [200, 0] := by
  have hfirst : DecodesFirst [1, 2, 3] := by
    rw [DecodesFirst]
    decide
  obtain ⟨builder, hinit⟩ : ∃ builder, AscendMLAMetadataBuilder.init ⟨128, 3, 256, true⟩ = .ok builder :=
    ⟨_, rfl⟩
  have hrequests : HoldsRequests {
      queryStartLoc := [0, 1, 3, 6], queryStartLocCpu := [0, 1, 3, 6], seqLensCpu := [5, 202, 3]
      numReqs := 3, numActualTokens := 6, maxQueryLen := 3, decodeTokenPerReq := 1
      blockTableTensor := [], slotMappingCpu := [], actualSeqLengthsQ := [], positions := []
      attnState := .chunkedPrefill, enableDboAcrossDp := false, graphPadSize := -1 }
      [⟨4, 1, by decide⟩, ⟨200, 2, by decide⟩, ⟨0, 3, by decide⟩] :=
    ⟨⟨rfl, rfl, rfl, rfl⟩, rfl, hfirst⟩
  obtain ⟨result, hresult, -, htiles⟩ := chunkedContext_tiles hinit (by decide) hrequests (by decide)
  exact ⟨_, result, hinit, hresult, htiles⟩

end VllmAscend
