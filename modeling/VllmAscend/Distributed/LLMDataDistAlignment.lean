import VllmAscend.Machinery.Paging
import VllmAscend.Core.Prefill
import VllmAscend.Core.BlockPool
import VllmAscend.Distributed.LLMDataDistConnector

/-!
# Distributed/LLMDataDistAlignment — which remote block goes into which local one

    remote   0 ───────────────────────────────── L + k_p        all blocks of the prompt
    local              h ─────────────────────── L + k_d        the blocks without a hash
    pulled             └─ as many of the remote blocks, from the end ─┘

The worker matches the two lists at their ends, which is right when they end in the same block.  The
prefill engine allocated `k_p` lookahead tokens beyond the prompt and the decode engine `k_d`, so
that depends on `L` modulo the block size.
-/

namespace VllmAscend

open Machinery

variable {σ κ M : Type} {b h len kp kd n : ℕ}

/-- **The blocks of a remote prefill on the decode engine**: those the prefix cache has, for the
first `h` tokens, and those newly allocated for the tokens from there up to `n`. -/
structure RemotePrefillBlocks (b h n : ℕ) where
  computed : List KVCacheBlock
  new : List KVCacheBlock
  hit : computed.length * b = h
  hashed : ∀ blk ∈ computed, blk.blockHash.isSome = true
  unhashed : ∀ blk ∈ new, blk.blockHash.isNone = true
  pages : Pages BlockId b h n
  pages_eq : pages.list = new.map KVCacheBlock.blockId

namespace RemotePrefillBlocks

/-- `new_computed_blocks + new_blocks`. -/
def blocks (d : RemotePrefillBlocks b h n) : KVCacheBlocks := KVCacheBlocks.add [d.computed] [d.new]

/-- The blocks without a hash are the new ones. -/
theorem getUnhashedBlockIds_eq (d : RemotePrefillBlocks b h n) :
    d.blocks.getUnhashedBlockIds = d.pages.list := by
  have hcomputed : d.computed.filter (fun blk => blk.blockHash.isNone) = [] :=
    List.filter_eq_nil_iff.mpr fun blk hblk => by
      have := d.hashed blk hblk
      cases hhash : blk.blockHash <;> simp_all
  have hnew : d.new.filter (fun blk => blk.blockHash.isNone) = d.new :=
    List.filter_eq_self.mpr d.unhashed
  have hblocks : d.blocks = [d.computed ++ d.new] := rfl
  rw [hblocks, d.pages_eq, KVCacheBlocks.getUnhashedBlockIds, KVCacheBlocks.firstGroup,
    List.headD_cons, List.filter_append, hcomputed, hnew, List.nil_append]

end RemotePrefillBlocks

namespace LLMDataDist

variable {decoder decoder' decoder'' prefiller : LLMDataDistCMgrConnectorScheduler} {id : ReqId}
  {r : Request} {params : Option KVTransferParams} {async : Bool}
  {m : LLMDataDistCMgrConnectorMetadata} {worker worker' : LLMDataDistCMgrConnectorWorker}
  {entry : ReqMeta} {pulls : List Pull}

/-! ## From the parameters to the worker -/

/-- A prompt that was finished for its remote decode is published. -/
theorem requestFinished_published {p : KVTransferParams} {blockIds : List BlockId}
    (hp : r.kvTransferParams = some p) (hdecode : p.doRemoteDecode = some true)
    (hstatus : r.status = .finishedLengthCapped) :
    prefiller.requestFinished r blockIds =
      (decide (0 < blockIds.length), some (prefiller.published blockIds)) := by
  simp [LLMDataDistCMgrConnectorScheduler.requestFinished, PendingLoads.requestFinished, hp,
    hdecode, hstatus]

/-- All prompt tokens that are not computed are loaded, asynchronously. -/
theorem getNumNewMatchedTokens_remote (hremote : doRemotePrefill r.kvTransferParams = true)
    (hhit : h < r.promptTokenIds.length)
    (hmatched : decoder.getNumNewMatchedTokens r h = some (n, async)) :
    n = r.promptTokenIds.length - h ∧ async = true := by
  simp only [LLMDataDistCMgrConnectorScheduler.getNumNewMatchedTokens, if_pos hremote] at hmatched
  split at hmatched
  · cases hmatched
    exact ⟨rfl, by simpa using hhit⟩
  · contradiction

/-- **What the decode engine allocates**: in the prefill loop, blocks for the whole prompt and its
own lookahead tokens. -/
theorem prefillAllocArgs_remote
    {A : AscendScheduler σ LLMDataDistCMgrConnectorScheduler LLMDataDistCMgrConnectorMetadata}
    {fr : Frame σ LLMDataDistCMgrConnectorScheduler} {kv : σ} {c : ComputedTokens} {budget : ℤ}
    (hconn : A.connector = some llmDataDistConnector)
    (hremote : doRemotePrefill (fr.obj id).kvTransferParams = true)
    (hnew : (fr.obj id).numComputedTokens = 0)
    (hcomputed : A.getComputed fr id = .ok (kv, decoder, c))
    (hhit : c.numNewLocalComputedTokens < (fr.obj id).promptTokenIds.length) :
    A.decideTokens budget (fr.obj id) c = .ok (.schedule 0 []) ∧
      (A.prefillAllocArgs c 0).numNewComputedTokens + (A.prefillAllocArgs c 0).numNewTokens +
        (A.prefillAllocArgs c 0).numLookaheadTokens =
          (fr.obj id).promptTokenIds.length + A.numLookaheadTokens := by
  simp only [AscendScheduler.getComputed, if_pos hnew, hconn] at hcomputed
  split at hcomputed
  · contradiction
  · next conn numExternal loadKvAsync hmatched =>
    cases hcomputed
    simp only at hhit
    obtain ⟨matched, hmatched, heq⟩ := Option.map_eq_some_iff.mp hmatched
    cases heq
    obtain ⟨rfl, rfl⟩ := getNumNewMatchedTokens_remote hremote hhit hmatched
    refine ⟨?_, ?_⟩
    · simp only [AscendScheduler.decideTokens, if_true]
      rw [if_pos (by omega)]
    · simp only [AscendScheduler.prefillAllocArgs]
      omega

/-- **The entry of the metadata** has all the published blocks and the local blocks without a
hash. -/
theorem built_lookup {blockIds : List BlockId} {blocks : KVCacheBlocks}
    (hparams : r.kvTransferParams = some (prefiller.published blockIds)) (hne : blockIds ≠ [])
    (hnotified : decoder.updateStateAfterAlloc id r blocks n = some (decoder', params))
    (hbuilt : decoder'.buildConnectorMeta = some (decoder'', m)) :
    ∃ entry, m.requests.lookup id = some entry ∧ entry.remoteBlockIds = blockIds ∧
      entry.localBlockIds = blocks.getUnhashedBlockIds := by
  rw [LLMDataDistCMgrConnectorScheduler.updateStateAfterAlloc, Option.map_eq_some_iff] at hnotified
  obtain ⟨registered, hregister, heq⟩ := hnotified
  cases heq
  have hblocks : (prefiller.published blockIds).hasRemoteBlocks = true := by
    simpa [KVTransferParams.hasRemoteBlocks, LLMDataDistCMgrConnectorScheduler.published] using hne
  have hlookup := PendingLoads.register_lookup hregister hparams rfl hblocks rfl
  rw [LLMDataDistCMgrConnectorScheduler.buildConnectorMeta, Option.map_eq_some_iff] at hbuilt
  obtain ⟨built, hbuild, heq⟩ := hbuilt
  cases heq
  obtain ⟨_, _, hentries⟩ := PendingLoads.build_eq_some hbuild
  exact ⟨_, hentries id _ hlookup, rfl, rfl⟩

/-- **What `_read_blocks` pulls**: the last remote blocks, as many as there are local ones. -/
theorem readBlocks_eq_some (hpos : 0 < entry.localBlockIds.length)
    (hread : worker.readBlocks id entry = some (worker', pulls)) :
    entry.localBlockIds.length ≤ entry.remoteBlockIds.length ∧ pulls ≠ [] ∧
      ∀ pull ∈ pulls, pull.localBlockIds = entry.localBlockIds ∧ pull.remoteBlockIds =
        entry.remoteBlockIds.drop (entry.remoteBlockIds.length - entry.localBlockIds.length) := by
  simp only [LLMDataDistCMgrConnectorWorker.readBlocks, if_neg hpos.ne'] at hread
  split at hread
  · next hle =>
    cases hread
    have hremote : (if entry.localBlockIds.length < entry.remoteBlockIds.length then
        entry.remoteBlockIds.drop (entry.remoteBlockIds.length - entry.localBlockIds.length)
        else entry.remoteBlockIds) =
        entry.remoteBlockIds.drop (entry.remoteBlockIds.length - entry.localBlockIds.length) := by
      split
      · rfl
      · next hlt =>
        rw [Nat.sub_eq_zero_of_le (not_lt.mp hlt), List.drop_zero]
    rw [hremote]
    refine ⟨hle, by split <;> simp, fun pull hpull => ?_⟩
    split at hpull
    · obtain rfl | rfl : pull = _ ∨ pull = _ := by simpa using hpull
      · exact ⟨rfl, rfl⟩
      · exact ⟨rfl, rfl⟩
    · obtain rfl := List.mem_singleton.mp hpull
      exact ⟨rfl, rfl⟩
  · contradiction

/-- The assertion holds when there are enough remote blocks. -/
theorem readBlocks_isSome (worker : LLMDataDistCMgrConnectorWorker) (id : ReqId)
    (hle : entry.localBlockIds.length ≤ entry.remoteBlockIds.length) :
    ∃ worker' pulls, worker.readBlocks id entry = some (worker', pulls) := by
  simp only [LLMDataDistCMgrConnectorWorker.readBlocks, if_pos hle]
  split
  · exact ⟨_, _, rfl⟩
  · exact ⟨_, _, rfl⟩

/-! ## The alignment -/

/-- **The worker pulls the prompt where it belongs**: it does not raise, and for every block of the
prompt after the first `h` tokens, each of its pulls moves the remote block of these tokens into the
local one. -/
def Aligned (p : Pages BlockId b 0 n) {stop : ℕ} (q : Pages BlockId b h stop) (len : ℕ)
    (read : Option (LLMDataDistCMgrConnectorWorker × List Pull)) : Prop :=
  ∃ worker' pulls, read = some (worker', pulls) ∧ pulls ≠ [] ∧ ∀ i, h + i * b < len →
    ∀ pull ∈ pulls, ∃ remote dest, p.pageOf (h + i * b) = some remote ∧
      q.pageOf (h + i * b) = some dest ∧ pull.Moves remote dest

/-- Reading the entry of the request is aligned exactly when both ranges end in the same block. -/
theorem readBlocks_aligned_iff (hb : 0 < b) (hlen : h < len) (hkp : len ≤ n) {stop : ℕ}
    (hkd : len ≤ stop) (p : Pages BlockId b 0 n) (q : Pages BlockId b h stop)
    (hremote : entry.remoteBlockIds = p.list) (hlocal : entry.localBlockIds = q.list) :
    Aligned p q len (worker.readBlocks id entry) ↔ n ⌈/⌉ b = stop ⌈/⌉ b := by
  have hpos : 0 < entry.localBlockIds.length := by
    rw [hlocal]
    exact q.length_pos hb (hlen.trans_le hkd)
  constructor
  · rintro ⟨worker', pulls, hread, hne, hmoves⟩
    obtain ⟨hle, _, hpulls⟩ := readBlocks_eq_some hpos hread
    obtain ⟨pull, hpull⟩ := List.exists_mem_of_ne_nil pulls hne
    obtain ⟨hdest, hsource⟩ := hpulls pull hpull
    rw [hremote, hlocal] at hle hsource
    rw [hlocal] at hdest
    refine (p.zip_last_iff q hb hlen hkp hkd hle).mp fun i hi => ?_
    obtain ⟨x, y, hx, hy, hmove⟩ := hmoves i hi pull hpull
    rw [Pull.Moves, hsource, hdest] at hmove
    exact ⟨x, y, hx, hy, hmove⟩
  · intro hend
    have hle : q.list.length ≤ p.list.length := by
      rw [(p.ceilDiv_eq_iff q).mp hend]
      exact Nat.le_add_left _ _
    have hle' : entry.localBlockIds.length ≤ entry.remoteBlockIds.length := by
      rw [hremote, hlocal]
      exact hle
    obtain ⟨worker', pulls, hread⟩ := readBlocks_isSome worker id hle'
    obtain ⟨_, hne, hpulls⟩ := readBlocks_eq_some hpos hread
    refine ⟨worker', pulls, hread, hne, fun i hi pull hpull => ?_⟩
    obtain ⟨hdest, hsource⟩ := hpulls pull hpull
    simp only [Pull.Moves, hsource, hdest, hremote, hlocal]
    exact (p.zip_last_iff q hb hlen hkp hkd hle).mpr hend i hi

/-- **A remote prefill is pulled where it belongs exactly when both engines' allocations end in the
same block**, whatever the worker, the request and the metadata it is in. -/
theorem remotePrefill_aligned_iff (hb : 0 < b) (hhit : h < r.promptTokenIds.length)
    (p : Pages BlockId b 0 (r.promptTokenIds.length + kp))
    (d : RemotePrefillBlocks b h (r.promptTokenIds.length + kd))
    (hparams : r.kvTransferParams = some (prefiller.published p.list))
    (hnotified : decoder.updateStateAfterAlloc id r d.blocks n = some (decoder', params))
    (hbuilt : decoder'.buildConnectorMeta = some (decoder'', m)) :
    (∃ entry, m.requests.lookup id = some entry ∧
      Aligned p d.pages r.promptTokenIds.length (worker.readBlocks id entry)) ↔
      (r.promptTokenIds.length + kp) ⌈/⌉ b = (r.promptTokenIds.length + kd) ⌈/⌉ b := by
  have hne : p.list ≠ [] := List.length_pos_iff.mp (p.length_pos hb (by omega))
  obtain ⟨entry, hlookup, hremote, hlocal⟩ := built_lookup hparams hne hnotified hbuilt
  rw [d.getUnhashedBlockIds_eq] at hlocal
  have hread : Aligned p d.pages r.promptTokenIds.length (worker.readBlocks id entry) ↔ _ :=
    readBlocks_aligned_iff hb hhit (Nat.le_add_right _ kp) (Nat.le_add_right _ kd) p d.pages hremote
      hlocal
  rw [← hread]
  constructor
  · rintro ⟨entry', hlookup', haligned⟩
    rw [hlookup] at hlookup'
    cases hlookup'
    exact haligned
  · exact fun haligned => ⟨entry, hlookup, haligned⟩

/-- An engine with blocks of four tokens. -/
def smallEngine : LLMDataDistCMgrConnectorScheduler where
  reqsNeedRecv := ∅
  blockSize := 4
  engineId := "engine"
  localIp := "127.0.0.1"
  port := 5000
  tensorParallelSize := 1

def smallWorker : LLMDataDistCMgrConnectorWorker := ⟨0, false, ∅, fun _ _ => 0⟩

/-- A prompt of one block, prefilled on another engine into the given blocks. -/
def smallRequest (blockIds : List BlockId) : Request :=
  { Request.ofPrompt [1, 2, 3, 4] with kvTransferParams := some (smallEngine.published blockIds) }

/-- The block of the prompt on a prefill engine without lookahead tokens. -/
def smallPages : Pages BlockId 4 0 (4 + 0) := ⟨[10], by decide, by decide, by decide⟩

/-- …and with one lookahead token, for which there is one more block. -/
def smallPagesAhead : Pages BlockId 4 0 (4 + 1) := ⟨[10, 11], by decide, by decide, by decide⟩

/-- The block of the prompt on a decode engine without lookahead tokens. -/
def smallBlocks : RemotePrefillBlocks 4 0 (4 + 0) where
  computed := []
  new := [⟨20, 1, none⟩]
  hit := rfl
  hashed := by simp
  unhashed := by simp
  pages := ⟨[20], by decide, by decide, by decide⟩
  pages_eq := rfl

/-- What the worker of the decode engine is told. -/
def smallEntry (blockIds : List BlockId) : ReqMeta :=
  ⟨[20], blockIds, "127.0.0.1", 5000, "engine", 1⟩

/-- The decode engine's scheduler when the load is registered. -/
def smallDecoder (blockIds : List BlockId) : LLMDataDistCMgrConnectorScheduler :=
  { smallEngine with
    reqsNeedRecv := AList.insert "a"
      ({ smallEngine.published blockIds with doRemotePrefill := some false }, [20]) ∅ }

theorem smallDecoder_registered {blockIds : List BlockId} (hne : blockIds ≠ []) :
    smallEngine.updateStateAfterAlloc "a" (smallRequest blockIds) smallBlocks.blocks 4 =
      some (smallDecoder blockIds,
        some { smallEngine.published blockIds with doRemotePrefill := some false }) := by
  cases blockIds with
  | nil => exact absurd rfl hne
  | cons => rfl

/-- Without lookahead tokens on the prefill engine either. -/
theorem remotePrefill_aligned_iff_small :
    (∃ entry, (AList.insert "a" (smallEntry [10]) ∅ : Dict ReqMeta).lookup "a" = some entry ∧
      Aligned smallPages smallBlocks.pages 4 (smallWorker.readBlocks "a" entry)) ↔
      (4 + 0) ⌈/⌉ 4 = (4 + 0) ⌈/⌉ 4 :=
  remotePrefill_aligned_iff (b := 4) (h := 0) (r := smallRequest [10]) (by decide) (by decide)
    smallPages smallBlocks rfl (smallDecoder_registered (by decide)) rfl

/-- **With one lookahead token on the prefill engine only**, the block after the prompt's is pulled
into the block of the prompt. -/
theorem remotePrefill_misaligned :
    (smallEngine.updateStateAfterAlloc "a" (smallRequest [10, 11]) smallBlocks.blocks 4).map
      Prod.fst = some (smallDecoder [10, 11]) ∧
    (smallDecoder [10, 11]).buildConnectorMeta =
      some (smallEngine, ⟨AList.insert "a" (smallEntry [10, 11]) ∅⟩) ∧
    smallPagesAhead.pageOf 0 = some 10 ∧ smallBlocks.pages.pageOf 0 = some 20 ∧
    (smallWorker.readBlocks "a" (smallEntry [10, 11])).map Prod.snd =
      some [⟨0, none, [11], [20]⟩] ∧
    ¬Aligned smallPagesAhead smallBlocks.pages 4
      (smallWorker.readBlocks "a" (smallEntry [10, 11])) := by
  have hread : (smallWorker.readBlocks "a" (smallEntry [10, 11])).map Prod.snd =
      some [⟨0, none, [11], [20]⟩] := by decide
  refine ⟨rfl, rfl, rfl, rfl, hread, ?_⟩
  rintro ⟨worker, pulls, hpulls, _, hmoves⟩
  rw [hpulls] at hread
  cases hread
  obtain ⟨remote, dest, hremote, hdest, hmove⟩ := hmoves 0 (by decide) _ (List.mem_singleton_self _)
  cases hremote
  cases hdest
  exact absurd hmove (by simp [Pull.Moves])

end LLMDataDist

end VllmAscend
