import VllmAscend.Machinery.Axes
import VllmAscend.Machinery.FlatRows
import VllmAscend.Machinery.PaddedRows
import VllmAscend.Machinery.Rows
import VllmAscend.Machinery.SortBack

/-!
# Ops/VanillaChunkedPrefill — attention over paged caches, without a kernel

    query tokens     r₀ r₀ r₁ r₁ r₁        ⟶   a rectangle, to the longest query
    block tables     [3 5] [4 9]           ⟶   a rectangle, to the longest cached sequence
    scores           q · k * scale             + −∞ behind the request's length
                                               + −∞ behind the query's own position

A ragged batch is padded into rectangles, attended to row by row, and selected again.  A query token sees the
positions that no mask hides, and these are the first ones of its request: the rest has weight 0, so that the
padding is not seen (`paddedAttention_eq`).
-/

namespace VllmAscend

open Machinery

/-! ## Paged caches -/

/-- A paged cache, with an entry in each slot of its blocks. -/
structure PagedCache (α : Type) where
  blockSize : ℕ
  blocks : List (List α)
  length_block : ∀ block ∈ blocks, block.length = blockSize

namespace PagedCache

variable {α : Type}

/-- `cache[block_tables]`, as a list of slots. -/
def gatherBlocks (cache : PagedCache α) (blockTables : List (List ℕ)) : Option (List α) :=
  (blockTables.mapM fun row : List ℕ => (row.mapM fun b => cache.blocks[b]?).map List.flatten).map List.flatten

/-- `cache[block_tables].view(n, max_num_blocks_per_seq * block_size)[:, :max_len]` -/
def cachedRows (cache : PagedCache α) (blockTables : List (List ℕ)) (n blockSize maxLen : ℕ) :
    Option (List (List α)) := do
  let maxNumBlocksPerSeq ← blockTables.head?.map List.length
  let rows ← Machinery.viewRows n (maxNumBlocksPerSeq * blockSize) (← cache.gatherBlocks blockTables)
  return rows.map (List.take maxLen)

/-- `cache.squeeze()`.  A cache of a single block loses the dimension that a block table indexes. -/
def squeeze (cache : PagedCache α) : Option (PagedCache α) := if cache.blocks.length = 1 then none else some cache

/-- What is cached at position `j` of a request with these blocks. -/
def entry (cache : PagedCache α) (blockIds : List ℕ) (j : ℕ) : Option α := do
  let block ← cache.blocks[← blockIds[j / cache.blockSize]?]?
  block[j % cache.blockSize]?

/-- The slots of a request with these blocks. -/
def slots (cache : PagedCache α) (blockIds : List ℕ) : List α := blockIds.flatMap fun b => cache.blocks.getD b []

variable {cache : PagedCache α}

/-- The ids of blocks that the cache has. -/
def Has (cache : PagedCache α) (blockIds : List ℕ) : Prop := ∀ b ∈ blockIds, b < cache.blocks.length

theorem length_getD {blockIds : List ℕ} (h : cache.Has blockIds) :
    ∀ b ∈ blockIds, (cache.blocks.getD b []).length = cache.blockSize := by
  intro b hb
  rw [List.getD_eq_getElem _ _ (h b hb)]
  exact cache.length_block _ (List.getElem_mem _)

theorem length_slots {blockIds : List ℕ} (h : cache.Has blockIds) :
    (cache.slots blockIds).length = blockIds.length * cache.blockSize :=
  length_flatMap_const (length_getD h)

/-- **The slots hold the positions in order.** -/
theorem entry_eq {blockIds : List ℕ} (h : cache.Has blockIds) {j : ℕ}
    (hj : j < blockIds.length * cache.blockSize) : cache.entry blockIds j = (cache.slots blockIds)[j]? := by
  have hpos : 0 < cache.blockSize := Nat.pos_of_ne_zero fun hzero => by simp [hzero] at hj
  have hblock : j / cache.blockSize < blockIds.length := Nat.div_lt_of_lt_mul (by rwa [Nat.mul_comm])
  have hid := h _ (List.getElem_mem hblock)
  have hrow : (blockIds.map fun b => cache.blocks.getD b [])[j / cache.blockSize]? =
      some cache.blocks[blockIds[j / cache.blockSize]] := by
    rw [List.getElem?_map, List.getElem?_eq_getElem hblock, Option.map_some, List.getD_eq_getElem _ _ hid]
  have hflat := getElem?_flatten_row (fun l hl => by
    obtain ⟨b, hb, rfl⟩ := List.mem_map.mp hl
    exact length_getD h b hb) hrow (Nat.mod_lt j hpos)
  rw [Nat.div_add_mod'] at hflat
  rw [slots, List.flatMap_def, hflat]
  simp [entry, List.getElem?_eq_getElem hblock, List.getElem?_eq_getElem hid]

theorem gatherBlocks_eq {blockTables : List (List ℕ)} (h : ∀ row ∈ blockTables, cache.Has row) :
    cache.gatherBlocks blockTables = some (blockTables.flatMap cache.slots) := by
  have hrows := mapM_eq_some_map (l := blockTables)
    (f := fun row : List ℕ => (row.mapM fun b => cache.blocks[b]?).map List.flatten) (g := cache.slots)
    fun row hrow => by
      have hblocks := mapM_eq_some_map (f := fun b => cache.blocks[b]?) (l := row)
        (g := fun b => cache.blocks.getD b []) fun b hb => by
          rw [List.getD_eq_getElem _ _ (h row hrow b hb), List.getElem?_eq_getElem (h row hrow b hb)]
      rw [hblocks, Option.map_some, slots, List.flatMap_def]
  rw [gatherBlocks, hrows, Option.map_some, List.flatMap_def]

variable {blockTables : List (List ℕ)} {width : ℕ}

/-- **One row for each row of the table.** -/
theorem cachedRows_eq (h : ∀ row ∈ blockTables, cache.Has row) (hne : blockTables ≠ [])
    (hwidth : ∀ row ∈ blockTables, row.length = width) (maxLen : ℕ) :
    cache.cachedRows blockTables blockTables.length cache.blockSize maxLen =
      some (blockTables.map fun row => (cache.slots row).take maxLen) := by
  obtain ⟨row, rest, rfl⟩ := List.exists_cons_of_ne_nil hne
  have hslots : ∀ row' ∈ row :: rest, (cache.slots row').length = row.length * cache.blockSize := by
    intro row' hrow'
    rw [length_slots (h row' hrow'), hwidth row' hrow', hwidth row (.head _)]
  have hview := Machinery.viewRows_flatMap (row :: rest) _ hslots
  simp only [cachedRows, gatherBlocks_eq h, List.head?_cons, Option.map_some, Option.bind_eq_bind,
    Option.bind_some, hview, List.map_map]
  rfl

/-- **A table with another number of rows than there are sequences has no such view.** -/
theorem cachedRows_eq_none (h : ∀ row ∈ blockTables, cache.Has row)
    (hwidth : ∀ row ∈ blockTables, row.length = width) (hpos : 0 < width * cache.blockSize) {n : ℕ}
    (hn : blockTables.length ≠ n) (maxLen : ℕ) : cache.cachedRows blockTables n cache.blockSize maxLen = none := by
  cases blockTables with
  | nil => rfl
  | cons row rest =>
    have hlength : ((row :: rest).flatMap cache.slots).length = (row :: rest).length * (width * cache.blockSize) :=
      length_flatMap_const fun row' hrow' => by rw [length_slots (h row' hrow'), hwidth row' hrow']
    have hview : Machinery.viewRows n (row.length * cache.blockSize) ((row :: rest).flatMap cache.slots) = none := by
      rw [Machinery.viewRows, hwidth row (.head _), hlength, if_neg fun heq => hn (Nat.eq_of_mul_eq_mul_right hpos heq)]
    simp only [cachedRows, gatherBlocks_eq h, List.head?_cons, Option.map_some, Option.bind_eq_bind,
      Option.bind_some, hview, Option.bind_none]

end PagedCache

/-! ## The attention of a padded batch -/

section Attention

variable {R : Type} [CommRing R] {h k d e : ℕ}

/-- **A normalisation in which a score of −∞ has weight 0.** -/
structure IsSoftmax (softmax : List (WithBot R) → List R) : Prop where
  length : ∀ scores, (softmax scores).length = scores.length
  bot : ∀ (scores : List R) (n : ℕ), scores ≠ [] →
    softmax (scores.map WithBot.some ++ List.replicate n ⊥) =
      softmax (scores.map WithBot.some) ++ List.replicate n 0

/-- The exponentials of the scores, divided by their sum. -/
noncomputable def softmaxReal (scores : List (WithBot ℝ)) : List ℝ :=
  let weights := scores.map fun x => WithBot.recBotCoe (C := fun _ => ℝ) 0 Real.exp x
  weights.map (· / weights.sum)

theorem isSoftmax_softmaxReal : IsSoftmax softmaxReal where
  length scores := by rw [softmaxReal, List.length_map, List.length_map]
  bot scores n _ := by
    simp only [softmaxReal, List.map_append, List.map_replicate, List.sum_append, WithBot.recBotCoe_bot,
      List.sum_replicate, smul_zero, add_zero, zero_div]

variable (softmax : List (WithBot R) → List R) (scale : R)

/-- Which KV head each query head uses; those are repeated when they are fewer. -/
def repeatHeads (k h : ℕ) : Option (Fin h → Fin k) :=
  if k < h then
    if hview : k * (h / k) = h then
      some fun j => ⟨j / (h / k), Nat.div_lt_of_lt_mul (by rw [Nat.mul_comm, hview]; exact j.2)⟩
    else none
  else if heq : h = k then some (Fin.cast heq) else none

/-- The KV head of a query head: each is used by `h / k` of them. -/
def kvHead (hdvd : k ∣ h) (j : Fin h) : Fin k :=
  ⟨j / (h / k), Nat.div_lt_of_lt_mul (by rw [Nat.div_mul_cancel hdvd]; exact j.2)⟩

/-- `torch.tril(torch.ones(m, m))`, with −∞ for its zeros and 0 for its ones. -/
def trilMask (m : ℕ) : List (List (WithBot R)) :=
  (List.range m).map fun i => (List.range m).map fun j => if j ≤ i then 0 else ⊥

/-- The masked scores of one query token for a head. -/
def maskedScores (causal : Bool) (scores : List R) (attnMask causalMask : List (WithBot R)) :
    List (WithBot R) :=
  let attnWeights := List.zipWith (· + ·) (scores.map WithBot.some) attnMask
  if causal then List.zipWith (· + ·) attnWeights causalMask else attnWeights

/-- One query token of the padded batch, with its row of the causal mask. -/
def attendPadded (causal : Bool) (keys : List (Tensor₂ R h d)) (values : List (Tensor₂ R h e))
    (attnMask : List (WithBot R)) (query : Tensor₂ R h d × List (WithBot R)) : Tensor₂ R h e := fun head i =>
  rowProduct
    (softmax (maskedScores causal (keys.map fun key => query.1 head ⬝ᵥ key head * scale) attnMask query.2))
    (values.map fun value => value head i)

/-- `attn_output`, behind the scores, the masks and the softmax: every query token with its own request. -/
def attendBatch (causal : Bool) (padQ : List (List (Tensor₂ R h d))) (padK : List (List (Tensor₂ R h d)))
    (padV : List (List (Tensor₂ R h e))) (attnMask : List (List (WithBot R)))
    (causalMaskPadding : List (List (List (WithBot R)))) : List (List (Tensor₂ R h e)) :=
  List.zipWith
    (fun (queries : List (Tensor₂ R h d × List (WithBot R)))
        (kv : List (Tensor₂ R h d) × List (Tensor₂ R h e) × List (WithBot R)) =>
      queries.map (attendPadded softmax scale causal kv.1 kv.2.1 kv.2.2))
    (List.zipWith List.zip padQ causalMaskPadding) (padK.zip (padV.zip attnMask))

/-- What the two functions have in common, from the masks on: `query` has the query tokens one after the other,
`key` and `value` a row for each request. -/
def paddedAttention (causal : Bool) (queryLens kvLens : List ℤ) (maxQueryLen maxKvLen : ℕ)
    (query : List (Tensor₂ R h d)) (key : List (List (Tensor₂ R k d))) (value : List (List (Tensor₂ R k e))) :
    Option (List (Tensor₂ R h e)) := do
  guard (kvLens.length = queryLens.length)
  let numBatch := queryLens.length
  let seqlenDiff := List.zipWith (· - ·) kvLens queryLens
  let qMask := lenMask queryLens maxQueryLen
  let kMask := lenMask kvLens maxKvLen
  let causalMaskIdx ← maskedSelect qMask (seqlenDiff.map fun diff => (arange maxQueryLen).map (· + diff))
  let causalMask ← gather (trilMask maxKvLen) causalMaskIdx
  let causalMaskPadding ←
    maskedFill qMask (fullRows numBatch maxQueryLen (List.replicate maxKvLen ⊥)) causalMask
  let padQ ← maskedFill qMask (fullRows numBatch maxQueryLen 0) query
  let padK ← maskedFill kMask (fullRows numBatch maxKvLen 0) (← maskedSelect kMask key)
  let padV ← maskedFill kMask (fullRows numBatch maxKvLen 0) (← maskedSelect kMask value)
  let heads ← repeatHeads k h
  let padK := padK.map (List.map fun (x : Tensor₂ R k d) j => x (heads j))
  let padV := padV.map (List.map fun (x : Tensor₂ R k e) j => x (heads j))
  let attnMask := kMask.map (List.map fun b => if b then (0 : WithBot R) else ⊥)
  maskedSelect qMask (attendBatch softmax scale causal padQ padK padV attnMask causalMaskPadding)

/-- `vanilla_chunked_prefill`; the output has room for `outputLen` tokens. -/
def vanillaChunkedPrefill (outputLen : ℕ) (query : List (Tensor₂ R h d))
    (keyCache : PagedCache (Tensor₂ R k d)) (valueCache : PagedCache (Tensor₂ R k d))
    (blockTables : List (List ℕ)) (cuSeqlenQ cuSeqlenK : List ℤ) (maxSeqlenQ maxSeqlenK : ℕ) (causal : Bool) :
    Option (List (Tensor₂ R h d)) := do
  let blockSize := valueCache.blockSize
  let numBatch := cuSeqlenQ.length - 1
  let key ← keyCache.cachedRows blockTables numBatch blockSize maxSeqlenK
  let value ← valueCache.cachedRows blockTables numBatch blockSize maxSeqlenK
  let seqlenK := List.zipWith (· - ·) (cuSeqlenK.drop 1) cuSeqlenK.dropLast
  let seqlenQ := List.zipWith (· - ·) (cuSeqlenQ.drop 1) cuSeqlenQ.dropLast
  let attnOutput ← paddedAttention softmax scale causal seqlenQ seqlenK maxSeqlenQ maxSeqlenK query key value
  if attnOutput.length = outputLen then return attnOutput else none

variable {latent nope rope : ℕ}

/-- `kv_b_proj(kv_c)[0].view(num_heads, nope_dim + v_head_dim).split([nope_dim, v_head_dim])` -/
def splitHeads (y : Fin (h * (nope + e)) → R) : Tensor₂ R h nope × Tensor₂ R h e :=
  (fun j i => y (finProdFinEquiv (j, Fin.castAdd e i)), fun j i => y (finProdFinEquiv (j, Fin.natAdd nope i)))

/-- `cat([k_nope, k_pe.expand(num_heads)])` -/
def catHeads (kNope : Tensor₂ R h nope) (kPe : Fin rope → R) : Tensor₂ R h (nope + rope) :=
  fun j => Fin.append (kNope j) kPe

/-- `vanilla_chunked_prefill_mla`; the projection is a layer, applied to each cached latent. -/
def vanillaChunkedPrefillMla (outputLen : ℕ) (query : List (Tensor₂ R h (nope + rope)))
    (nopeCache : PagedCache (Fin latent → R)) (ropeCache : PagedCache (Fin rope → R))
    (blockTables : List (List ℕ)) (queryLens contextLens : List ℤ)
    (kvBProj : (Fin latent → R) → Fin (h * (nope + e)) → R) (maxQueryLen maxContextLen : ℕ) (causal : Bool) :
    Option (List (Tensor₂ R h e)) := do
  guard (queryLens.length = blockTables.length)
  let blockSize := nopeCache.blockSize
  let batchSize := queryLens.length
  let nopeCache ← nopeCache.squeeze
  let cacheKvC ← nopeCache.cachedRows blockTables batchSize blockSize maxContextLen
  let cacheKPe ← ropeCache.cachedRows blockTables batchSize blockSize maxContextLen
  let projected ← Machinery.viewRows batchSize maxContextLen (cacheKvC.flatten.map fun c => splitHeads (kvBProj c))
  let key := List.zipWith (List.zipWith fun kv kPe => catHeads kv.1 kPe) projected cacheKPe
  let value := projected.map (List.map Prod.snd)
  let numQuery := (lenMask queryLens maxQueryLen).flatten.count true
  -- the tokens that a draft model adds
  let query := query ++ List.replicate (numQuery - query.length) 0
  let attnOutput ←
    paddedAttention softmax scale causal queryLens contextLens maxQueryLen maxContextLen query key value
  if attnOutput.length = outputLen then return attnOutput else none

/-! ## Causal attention -/

/-- **What a query token attends to**: all the given positions, with the KV head of each query head. -/
def attend (heads : Fin h → Fin k) (query : Tensor₂ R h d) (keys : List (Tensor₂ R k d))
    (values : List (Tensor₂ R k e)) : Tensor₂ R h e := fun head i =>
  rowProduct
    (softmax (keys.map fun key => ((query head ⬝ᵥ key (heads head) * scale : R) : WithBot R)))
    (values.map fun value => value (heads head) i)

/-- **Causal attention**: the query token `t` of a request attends to its positions
`0 … kvLen - queryLen + t`, request after request. -/
def causalAttention {δ : Type} (heads : Fin h → Fin k) (ds : List δ) (queryLen kvLen : δ → ℕ)
    (queryAt : δ → ℕ → Option (Tensor₂ R h d)) (keyAt : δ → ℕ → Option (Tensor₂ R k d))
    (valueAt : δ → ℕ → Option (Tensor₂ R k e)) : Option (List (Tensor₂ R h e)) :=
  (ds.mapM fun d => (List.range (queryLen d)).mapM fun t => do
    let positions := List.range (kvLen d - queryLen d + t + 1)
    return attend softmax scale heads (← queryAt d t) (← positions.mapM (keyAt d))
      (← positions.mapM (valueAt d))).map List.flatten

variable {softmax scale}

theorem repeatHeads_eq (hdvd : k ∣ h) (hpos : 0 < h) : repeatHeads k h = some (kvHead hdvd) := by
  rw [repeatHeads]
  split_ifs with hlt hview heq
  · rfl
  · exact absurd (Nat.mul_div_cancel' hdvd) hview
  · subst heq
    refine congrArg some (funext fun j => Fin.ext ?_)
    change (j : ℕ) = j / (h / h)
    rw [Nat.div_self hpos, Nat.div_one]
  · exact absurd (Nat.le_antisymm (Nat.not_lt.mp hlt) (Nat.le_of_dvd hpos hdvd)) heq

theorem repeatHeads_self (h : ℕ) : repeatHeads h h = some id := by
  rw [repeatHeads, if_neg (Nat.lt_irrefl h), dif_pos rfl]
  rfl

theorem rowProduct_append_zeros {xs ys : List R} (hlength : xs.length = ys.length) (zs : List R) (n : ℕ) :
    rowProduct (xs ++ List.replicate n 0) (ys ++ zs) = rowProduct xs ys := by
  have hzeros : rowProduct (List.replicate n 0) zs = 0 := by
    refine List.sum_eq_zero fun v hv => ?_
    obtain ⟨i, hi, rfl⟩ := List.getElem_of_mem hv
    rw [List.getElem_zipWith, List.getElem_replicate, zero_mul]
  rw [rowProduct_append hlength, hzeros, add_zero]

/-- The scores of a query token at position `i`: none is hidden up to there, and all behind. -/
theorem maskedScores_eq (score : ℕ → R) {i n m : ℕ} (hi : i < n) (hn : n ≤ m) :
    maskedScores true ((List.range m).map score) ((List.range m).map fun j => if j < n then 0 else ⊥)
        ((List.range m).map fun j => if j ≤ i then 0 else ⊥) =
      ((List.range (i + 1)).map score).map WithBot.some ++ List.replicate (m - (i + 1)) ⊥ := by
  obtain ⟨rest, rfl⟩ := Nat.exists_eq_add_of_le (Nat.lt_of_lt_of_le hi hn : i + 1 ≤ m)
  rw [maskedScores, if_pos rfl, List.map_map, List.zipWith_map, List.zipWith_self, List.zipWith_map,
    List.zipWith_self, List.range_add, List.map_append, List.map_map, List.map_map, Nat.add_sub_cancel_left]
  refine congrArg₂ (· ++ ·) (List.map_congr_left fun j hj => ?_)
    (List.eq_replicate_iff.mpr ⟨by simp, fun x hx => ?_⟩)
  · have hlt := List.mem_range.mp hj
    rw [if_pos (by omega), if_pos (by omega), add_zero, add_zero]
  · obtain ⟨j, -, rfl⟩ := List.mem_map.mp hx
    have hhidden : ¬ i.succ + j ≤ i := by omega
    simp only [Function.comp_apply, if_neg hhidden, WithBot.add_bot]

/-- **The padding and what comes behind a query token are not seen.** -/
theorem attendPadded_eq (hsoftmax : IsSoftmax softmax) (heads : Fin h → Fin k) (query : Tensor₂ R h d)
    (key : ℕ → Tensor₂ R k d) (value : ℕ → Tensor₂ R k e) {i n m : ℕ} (hi : i < n) (hn : n ≤ m) :
    attendPadded softmax scale true
        ((List.range m).map fun j head => (if j < n then key j else 0) (heads head))
        ((List.range m).map fun j head => (if j < n then value j else 0) (heads head))
        ((List.range m).map fun j => if j < n then 0 else ⊥)
        (query, (List.range m).map fun j => if j ≤ i then 0 else ⊥) =
      attend softmax scale heads query ((List.range (i + 1)).map key) ((List.range (i + 1)).map value) := by
  funext head l
  have hseen : ∀ j ∈ List.range (i + 1), j < n := fun j hj => by
    have hlt := List.mem_range.mp hj
    omega
  have hscores : (List.range (i + 1)).map (fun j =>
        query head ⬝ᵥ (if j < n then key j else 0) (heads head) * scale) =
      (List.range (i + 1)).map fun j => query head ⬝ᵥ key j (heads head) * scale :=
    List.map_congr_left fun j hj => by rw [if_pos (hseen j hj)]
  have hvalues : (List.range m).map (fun j => (if j < n then value j else 0) (heads head) l) =
      (List.range (i + 1)).map (fun j => value j (heads head) l) ++
        ((List.range m).drop (i + 1)).map fun j => (if j < n then value j else 0) (heads head) l := by
    have htake : (List.range m).take (i + 1) = List.range (i + 1) := by
      rw [List.take_range, min_eq_left (Nat.lt_of_lt_of_le hi hn)]
    conv_lhs => rw [← List.take_append_drop (i + 1) (List.range m), List.map_append, htake]
    exact congrArg (· ++ _) (List.map_congr_left fun j hj => by rw [if_pos (hseen j hj)])
  have hbot := hsoftmax.bot ((List.range (i + 1)).map fun j => query head ⬝ᵥ key j (heads head) * scale)
    (m - (i + 1)) (by simp)
  rw [attendPadded, attend, List.map_map, List.map_map, List.map_map, List.map_map]
  simp only [Function.comp_def]
  rw [maskedScores_eq _ hi hn, hscores, hbot, hvalues, rowProduct_append_zeros]
  · rw [List.map_map]
    rfl
  · rw [hsoftmax.length, List.length_map, List.length_map, List.length_map]

section Batch

variable {δ : Type} {ds : List δ} {queryLen kvLen : δ → ℕ} {maxQueryLen maxKvLen : ℕ}

/-- The rows of the triangle that the query tokens name. -/
theorem causalMask_eq (hkv : ∀ d ∈ ds, kvLen d ≤ maxKvLen) (hle : ∀ d ∈ ds, queryLen d ≤ kvLen d) :
    gather (trilMask (R := R) maxKvLen) (ragged ds queryLen fun d t => (t : ℤ) + ((kvLen d : ℤ) - queryLen d)) =
      some (ragged ds queryLen fun d t =>
        (List.range maxKvLen).map fun j => if j ≤ kvLen d - queryLen d + t then 0 else ⊥) := by
  refine gather_flatMap fun d hd => gather_eq_some fun t ht => ?_
  have hkv := hkv d hd
  have hle := hle d hd
  have hlt : kvLen d - queryLen d + t < maxKvLen := by
    have ht := List.mem_range.mp ht
    omega
  have hindex : (t : ℤ) + ((kvLen d : ℤ) - queryLen d) = ((kvLen d - queryLen d + t : ℕ) : ℤ) := by omega
  change item (trilMask maxKvLen) ((t : ℤ) + ((kvLen d : ℤ) - queryLen d)) = _
  rw [hindex, item_natCast, trilMask, List.getElem?_map, List.getElem?_range hlt]
  rfl

theorem attendBatch_grid (query : δ → ℕ → Tensor₂ R h d) (key : δ → ℕ → Tensor₂ R h d)
    (value : δ → ℕ → Tensor₂ R h e) (attnMask : δ → ℕ → WithBot R) (causalMask : δ → ℕ → List (WithBot R)) :
    attendBatch softmax scale true (grid ds maxQueryLen query) (grid ds maxKvLen key) (grid ds maxKvLen value)
        (grid ds maxKvLen attnMask) (grid ds maxQueryLen causalMask) =
      grid ds maxQueryLen fun d t => attendPadded softmax scale true ((List.range maxKvLen).map (key d))
        ((List.range maxKvLen).map (value d)) ((List.range maxKvLen).map (attnMask d)) (query d t, causalMask d t) := by
  rw [attendBatch, zipWith_zip_grid]
  simp only [grid, List.zip_map', List.zipWith_map, List.zipWith_self, List.map_map, Function.comp_def]

/-- **A padded batch is attended to causally**: the query token `t` of a request sees its positions
`0 … kvLen - queryLen + t`. -/
theorem paddedAttention_eq (hsoftmax : IsSoftmax softmax) {heads : Fin h → Fin k}
    (hheads : repeatHeads k h = some heads) (hquery : ∀ d ∈ ds, queryLen d ≤ maxQueryLen)
    (hkv : ∀ d ∈ ds, kvLen d ≤ maxKvLen) (hle : ∀ d ∈ ds, queryLen d ≤ kvLen d)
    (query : δ → ℕ → Tensor₂ R h d) (key : δ → ℕ → Tensor₂ R k d) (value : δ → ℕ → Tensor₂ R k e) :
    paddedAttention softmax scale true (ds.map fun d => (queryLen d : ℤ)) (ds.map fun d => (kvLen d : ℤ))
        maxQueryLen maxKvLen (ragged ds queryLen query) (grid ds maxKvLen key) (grid ds maxKvLen value) =
      some (ragged ds queryLen fun d t => attend softmax scale heads (query d t)
        ((List.range (kvLen d - queryLen d + t + 1)).map (key d))
        ((List.range (kvLen d - queryLen d + t + 1)).map (value d))) := by
  have hidx : (List.zipWith (· - ·) (ds.map fun d => (kvLen d : ℤ)) (ds.map fun d => (queryLen d : ℤ))).map
      (fun diff => (arange maxQueryLen).map (· + diff)) =
        grid ds maxQueryLen fun d t => (t : ℤ) + ((kvLen d : ℤ) - queryLen d) := by
    rw [List.zipWith_map, List.zipWith_self, List.map_map]
    exact List.map_congr_left fun d _ => by simp [arange, Machinery.segment, Function.comp_def]
  rw [paddedAttention]
  simp only [List.length_map, guard_true, lenMask_eq_grid, Option.bind_eq_bind, Option.bind_some, hidx,
    maskedSelect_grid hquery, causalMask_eq hkv hle, maskedSelect_grid hkv, fullRows_eq_grid,
    maskedFill_grid hquery, maskedFill_grid hkv, hheads, map_map_grid, decide_eq_true_eq]
  rw [attendBatch_grid, maskedSelect_grid hquery]
  refine congrArg some (ragged_congr _ fun d hd t ht => ?_)
  have hle := hle d hd
  rw [if_pos ht, if_pos ht]
  exact attendPadded_eq hsoftmax heads _ (key d) (value d) (by omega) (hkv d hd)

/-- What causal attention is, when everything it attends to is there. -/
theorem causalAttention_eq {heads : Fin h → Fin k} (hle : ∀ d ∈ ds, queryLen d ≤ kvLen d)
    {queryAt : δ → ℕ → Option (Tensor₂ R h d)} {keyAt : δ → ℕ → Option (Tensor₂ R k d)}
    {valueAt : δ → ℕ → Option (Tensor₂ R k e)} {query : δ → ℕ → Tensor₂ R h d} {key : δ → ℕ → Tensor₂ R k d}
    {value : δ → ℕ → Tensor₂ R k e} (hquery : ∀ d ∈ ds, ∀ t < queryLen d, queryAt d t = some (query d t))
    (hkey : ∀ d ∈ ds, ∀ j < kvLen d, keyAt d j = some (key d j))
    (hvalue : ∀ d ∈ ds, ∀ j < kvLen d, valueAt d j = some (value d j)) :
    causalAttention softmax scale heads ds queryLen kvLen queryAt keyAt valueAt =
      some (ragged ds queryLen fun d t => attend softmax scale heads (query d t)
        ((List.range (kvLen d - queryLen d + t + 1)).map (key d))
        ((List.range (kvLen d - queryLen d + t + 1)).map (value d))) := by
  rw [causalAttention, mapM_eq_some_map fun d hd => mapM_eq_some_map fun t ht => ?_, Option.map_some, ragged,
    List.flatMap_def]
  have hlt := List.mem_range.mp ht
  have hle := hle d hd
  have hseen : ∀ j ∈ List.range (kvLen d - queryLen d + t + 1), j < kvLen d := fun j hj => by
    have hj := List.mem_range.mp hj
    omega
  simp only [hquery d hd t hlt, mapM_eq_some_map fun j hj => hkey d hd j (hseen j hj),
    mapM_eq_some_map fun j hj => hvalue d hd j (hseen j hj)]
  rfl

/-- The rows of a table, position by position. -/
theorem cachedRows_eq_grid {α : Type} {cache : PagedCache α} {blockIds : δ → List ℕ} {width maxLen : ℕ}
    (hne : ds ≠ []) (hhas : ∀ d ∈ ds, cache.Has (blockIds d)) (hwidth : ∀ d ∈ ds, (blockIds d).length = width)
    (hmax : maxLen ≤ width * cache.blockSize) (z : α) :
    cache.cachedRows (ds.map blockIds) ds.length cache.blockSize maxLen =
      some (grid ds maxLen fun d j => (cache.slots (blockIds d)).getD j z) := by
  have hrows : cache.cachedRows (ds.map blockIds) (ds.map blockIds).length cache.blockSize maxLen =
      some ((ds.map blockIds).map fun row => (cache.slots row).take maxLen) :=
    cache.cachedRows_eq (by simpa using hhas) (by simpa using hne) (by simpa using hwidth) maxLen
  rw [List.length_map, List.map_map] at hrows
  rw [hrows]
  refine congrArg some (List.map_congr_left fun d hd => List.ext_getElem ?_ fun j hj hj' => ?_)
  · rw [Function.comp_apply, List.length_take, PagedCache.length_slots (hhas d hd), hwidth d hd,
      min_eq_left hmax, List.length_map, List.length_range]
  · simp only [Function.comp_apply, List.length_take, lt_min_iff] at hj
    simp [List.getElem?_eq_getElem hj.2]

/-- **`vanilla_chunked_prefill` is causal attention**, for a table with one row for each request. -/
theorem vanillaChunkedPrefill_eq (hsoftmax : IsSoftmax softmax) {heads : Fin h → Fin k}
    (hheads : repeatHeads k h = some heads) {blockIds : δ → List ℕ} {width : ℕ}
    {keyCache valueCache : PagedCache (Tensor₂ R k d)} (hne : ds ≠ [])
    (hkey : ∀ d ∈ ds, keyCache.Has (blockIds d)) (hvalue : ∀ d ∈ ds, valueCache.Has (blockIds d))
    (hsize : keyCache.blockSize = valueCache.blockSize) (hwidth : ∀ d ∈ ds, (blockIds d).length = width)
    (hmax : maxKvLen ≤ width * valueCache.blockSize) (hquery : ∀ d ∈ ds, queryLen d ≤ maxQueryLen)
    (hkv : ∀ d ∈ ds, kvLen d ≤ maxKvLen) (hle : ∀ d ∈ ds, queryLen d ≤ kvLen d)
    (query : δ → ℕ → Tensor₂ R h d) :
    vanillaChunkedPrefill softmax scale (ragged ds queryLen query).length (ragged ds queryLen query) keyCache
        valueCache (ds.map blockIds) (0 :: cumsum 0 (ds.map fun d => (queryLen d : ℤ)))
        (0 :: cumsum 0 (ds.map fun d => (kvLen d : ℤ))) maxQueryLen maxKvLen true =
      some (ragged ds queryLen fun d t => attend softmax scale heads (query d t)
        ((List.range (kvLen d - queryLen d + t + 1)).map fun j => (keyCache.slots (blockIds d)).getD j 0)
        ((List.range (kvLen d - queryLen d + t + 1)).map fun j => (valueCache.slots (blockIds d)).getD j 0)) := by
  have hdiff (len : δ → ℕ) : List.zipWith (· - ·) ((0 :: cumsum 0 (ds.map fun d => (len d : ℤ))).drop 1)
      (0 :: cumsum 0 (ds.map fun d => (len d : ℤ))).dropLast = ds.map fun d => (len d : ℤ) :=
    cumsum_diff 0 _
  have hkeyRows := cachedRows_eq_grid hne hkey hwidth (hsize ▸ hmax) 0
  rw [hsize] at hkeyRows
  simp only [vanillaChunkedPrefill, hdiff, List.length_cons, length_cumsum, List.length_map,
    Nat.add_sub_cancel, hkeyRows, cachedRows_eq_grid hne hvalue hwidth hmax (0 : Tensor₂ R k d),
    Option.bind_eq_bind, Option.bind_some, paddedAttention_eq hsoftmax hheads hquery hkv hle]
  rw [if_pos (by simp [ragged])]
  rfl

variable {latent nope rope : ℕ}

/-- **`vanilla_chunked_prefill_mla` is causal attention** with the keys and values that the cached latents are
projected to. -/
theorem vanillaChunkedPrefillMla_eq (hsoftmax : IsSoftmax softmax) {blockIds : δ → List ℕ} {width : ℕ}
    {nopeCache : PagedCache (Fin latent → R)} {ropeCache : PagedCache (Fin rope → R)} (hne : ds ≠ [])
    (hblocks : 1 < nopeCache.blocks.length) (hnope : ∀ d ∈ ds, nopeCache.Has (blockIds d))
    (hrope : ∀ d ∈ ds, ropeCache.Has (blockIds d)) (hsize : ropeCache.blockSize = nopeCache.blockSize)
    (hwidth : ∀ d ∈ ds, (blockIds d).length = width) (hmax : maxKvLen ≤ width * nopeCache.blockSize)
    (hquery : ∀ d ∈ ds, queryLen d ≤ maxQueryLen) (hkv : ∀ d ∈ ds, kvLen d ≤ maxKvLen)
    (hle : ∀ d ∈ ds, queryLen d ≤ kvLen d) (kvBProj : (Fin latent → R) → Fin (h * (nope + e)) → R)
    (query : δ → ℕ → Tensor₂ R h (nope + rope)) :
    vanillaChunkedPrefillMla softmax scale (ragged ds queryLen query).length (ragged ds queryLen query) nopeCache
        ropeCache (ds.map blockIds) (ds.map fun d => (queryLen d : ℤ)) (ds.map fun d => (kvLen d : ℤ)) kvBProj
        maxQueryLen maxKvLen true =
      some (ragged ds queryLen fun d t => attend softmax scale id (query d t)
        ((List.range (kvLen d - queryLen d + t + 1)).map fun j => catHeads
          (splitHeads (kvBProj ((nopeCache.slots (blockIds d)).getD j 0))).1
          ((ropeCache.slots (blockIds d)).getD j 0))
        ((List.range (kvLen d - queryLen d + t + 1)).map fun j =>
          (splitHeads (kvBProj ((nopeCache.slots (blockIds d)).getD j 0))).2)) := by
  have hropeRows := cachedRows_eq_grid hne hrope hwidth (hsize ▸ hmax) (0 : Fin rope → R)
  rw [hsize] at hropeRows
  have hsqueeze : nopeCache.squeeze = some nopeCache := by rw [PagedCache.squeeze, if_neg (by omega)]
  rw [vanillaChunkedPrefillMla]
  simp only [List.length_map, guard_true, hsqueeze, Option.bind_eq_bind, Option.bind_some, hropeRows,
    cachedRows_eq_grid hne hnope hwidth hmax (0 : Fin latent → R), map_flatten_cells, Machinery.viewRows_flatten,
    zipWith_zipWith_grid, map_map_grid, lenMask_eq_grid, count_lenMask hquery query, Nat.sub_self,
    List.replicate_zero, List.append_nil,
    paddedAttention_eq hsoftmax (repeatHeads_self h) hquery hkv hle]
  rw [if_pos (by simp [ragged])]
  rfl

end Batch

end Attention

end VllmAscend
