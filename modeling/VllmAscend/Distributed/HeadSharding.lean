import VllmAscend.Distributed.ContiguousGroups
import VllmAscend.Machinery.WhileLoop

/-!
# Distributed/HeadSharding — which heads a decode rank reads

    decode rank    block ┌ token ┌ head d·H/D ⋯      one block: block_size · H/D heads
    prefill rank   block ┌ token ┌ head p·H/P ⋯      one block: block_size · H/P heads

A rank knows the length of its own blocks and computes the addresses of the remote ones with it.  So
what it reads into a block is the KV of its own heads where a block has the same heads on both
engines: the latent cache of MLA, or tensor parallelism of the same size.
-/

namespace VllmAscend

/-- What the caches of a layer are: the latent vector and its positional part, on every rank; or K
and V, whose heads are shared out among the ranks. -/
inductive CacheLayout where
  | mla (normDim peDim : ℕ)
  | heads (numKvHeads headDim : ℕ)
  deriving DecidableEq, Repr

/-- The caches that the two engines have in common. -/
structure KVCacheConfig where
  layout : CacheLayout
  elementSize : ℕ
  blockSize : ℕ
  /-- two for each layer -/
  numCaches : ℕ
  deriving DecidableEq, Repr

namespace KVCacheConfig

variable (c : KVCacheConfig)

def isMla : Bool :=
  match c.layout with
  | .mla .. => true
  | .heads .. => false

/-- The heads in the caches of a rank, of `tp`. -/
def localHeads (tp : ℕ) : ℕ :=
  match c.layout with
  | .mla .. => 1
  | .heads numKvHeads _ => numKvHeads / tp

/-- The first of them. -/
def firstHead (tp rank : ℕ) : ℕ :=
  match c.layout with
  | .mla .. => 0
  | .heads numKvHeads _ => rank * (numKvHeads / tp)

/-- The last dimension of the `k`-th cache. -/
def headDim (k : ℕ) : ℕ :=
  match c.layout with
  | .mla normDim peDim => if k % 2 = 0 then normDim else peDim
  | .heads _ headDim => headDim

def headBytes (k : ℕ) : ℕ := c.elementSize * c.headDim k

/-- `block_len` of `register_kv_caches`: the bytes of `[block_size, heads, dim]`. -/
def blockLen (tp : ℕ) : List ℕ :=
  match c.layout with
  | .mla normDim peDim =>
    [c.elementSize * (c.blockSize * 1 * normDim), c.elementSize * (c.blockSize * 1 * peDim)]
  | .heads numKvHeads headDim => [c.elementSize * (c.blockSize * (numKvHeads / tp) * headDim)]

/-- The bytes of a block of the `k`-th cache. -/
def blockBytes (tp k : ℕ) : ℕ := c.blockSize * c.localHeads tp * c.headBytes k

/-- The place of a byte of a head in a block. -/
def offset (tp k token head byte : ℕ) : ℕ :=
  (token * c.localHeads tp + head) * c.headBytes k + byte

/-- The sizes are positive, and the ranks of both engines get as many heads each. -/
structure Accepts (topology : TpTopology) : Prop where
  blockSize_pos : 0 < c.blockSize
  numCaches_pos : 0 < c.numCaches
  headBytes_pos : ∀ k, 0 < c.headBytes k
  divides : ∀ numKvHeads headDim, c.layout = .heads numKvHeads headDim →
    0 < numKvHeads ∧ topology.prefillTpSize ∣ numKvHeads ∧ topology.decodeTpSize ∣ numKvHeads

variable {c} {tp k token head byte : ℕ}

theorem offset_lt (htoken : token < c.blockSize) (hhead : head < c.localHeads tp)
    (hbyte : byte < c.headBytes k) : c.offset tp k token head byte < c.blockBytes tp k := by
  have hrow : token * c.localHeads tp + head + 1 ≤ c.blockSize * c.localHeads tp := by
    calc token * c.localHeads tp + head + 1 ≤ (token + 1) * c.localHeads tp := by
          rw [Nat.add_mul]
          omega
      _ ≤ c.blockSize * c.localHeads tp := Nat.mul_le_mul_right _ htoken
  calc c.offset tp k token head byte
      < (token * c.localHeads tp + head + 1) * c.headBytes k := by
        rw [offset, Nat.add_mul _ 1, Nat.one_mul]
        omega
    _ ≤ c.blockBytes tp k := Nat.mul_le_mul_right _ hrow

/-- **Every byte of a block** is one of some token and head. -/
theorem exists_offset {o : ℕ} (ho : o < c.blockBytes tp k) :
    ∃ token head byte, token < c.blockSize ∧ head < c.localHeads tp ∧ byte < c.headBytes k ∧
      o = c.offset tp k token head byte := by
  have hbytes : 0 < c.headBytes k := by
    by_contra h
    simp [blockBytes, Nat.eq_zero_of_not_pos h] at ho
  have hheads : 0 < c.localHeads tp := by
    by_contra h
    simp [blockBytes, Nat.eq_zero_of_not_pos h] at ho
  have hrow : o / c.headBytes k < c.blockSize * c.localHeads tp := Nat.div_lt_of_lt_mul
    (by rwa [Nat.mul_comm])
  refine ⟨o / c.headBytes k / c.localHeads tp, o / c.headBytes k % c.localHeads tp,
    o % c.headBytes k, Nat.div_lt_of_lt_mul (by rwa [Nat.mul_comm]), Nat.mod_lt _ hheads,
    Nat.mod_lt _ hbytes, ?_⟩
  rw [offset, Nat.div_add_mod', Nat.div_add_mod']

end KVCacheConfig

/-- A byte of the KV of an engine: its cache, block, token in the block, head, and place in the
head. -/
structure KVByte where
  cache : ℕ
  block : BlockId
  token : ℕ
  head : ℕ
  byte : ℕ
  deriving DecidableEq, Repr

/-- The caches of a rank, where they are in its memory. -/
structure RankCache (c : KVCacheConfig) (tp rank : ℕ) where
  baseAddrs : List ℕ
  length_eq : baseAddrs.length = c.numCaches
  numBlocks : ℕ
  disjoint : ∀ k k' base base', baseAddrs[k]? = some base → baseAddrs[k']? = some base' → k ≠ k' →
    base + numBlocks * c.blockBytes tp k ≤ base' ∨ base' + numBlocks * c.blockBytes tp k' ≤ base

/-- The place of a byte in the caches of a rank: one of the heads it owns. -/
def RankCache.At {c : KVCacheConfig} {tp rank : ℕ} (cache : RankCache c tp rank) (addr : ℕ)
    (x : KVByte) : Prop :=
  ∃ base head, cache.baseAddrs[x.cache]? = some base ∧ x.block < cache.numBlocks ∧
    x.token < c.blockSize ∧ head < c.localHeads tp ∧ x.head = c.firstHead tp rank + head ∧
    x.byte < c.headBytes x.cache ∧
    addr = base + x.block * c.blockBytes tp x.cache + c.offset tp x.cache x.token head x.byte

namespace BatchRead

/-- The reads of a batch: local address, remote address and length. -/
def reads (read : BatchRead) : List (ℕ × ℕ × ℕ) :=
  read.srcList.zip (read.dstList.zip read.lengthList)

/-- The remote address whose byte a batch read leaves at a local one: the last read goes. -/
def source (read : BatchRead) (addr : ℕ) : Option ℕ :=
  (read.reads.reverse.find? fun r => r.1 ≤ addr ∧ addr < r.1 + r.2.2).map fun r =>
    r.2.1 + (addr - r.1)

theorem source_isSome {read : BatchRead} {addr : ℕ} (h : (read.source addr).isSome) :
    ∃ r ∈ read.reads, r.1 ≤ addr ∧ addr < r.1 + r.2.2 := by
  rw [source, Option.isSome_map] at h
  obtain ⟨r, hr⟩ := Option.isSome_iff_exists.mp h
  exact ⟨r, List.mem_reverse.mp (List.mem_of_find?_eq_some hr), by simpa using List.find?_some hr⟩

/-- **Where the reads agree**, the source is theirs. -/
theorem source_eq {read : BatchRead} {addr remote : ℕ}
    (hsome : ∃ r ∈ read.reads, r.1 ≤ addr ∧ addr < r.1 + r.2.2)
    (hall : ∀ r ∈ read.reads, r.1 ≤ addr → addr < r.1 + r.2.2 → r.2.1 + (addr - r.1) = remote) :
    read.source addr = some remote := by
  rw [source]
  cases hfind : read.reads.reverse.find? fun r => r.1 ≤ addr ∧ addr < r.1 + r.2.2 with
  | none =>
    obtain ⟨r, hr, hcovers⟩ := hsome
    have hnot := List.find?_eq_none.mp hfind r (List.mem_reverse.mpr hr)
    exact absurd (by simpa using hcovers) hnot
  | some r =>
    have hmem := List.mem_reverse.mp (List.mem_of_find?_eq_some hfind)
    have hcovers : r.1 ≤ addr ∧ addr < r.1 + r.2.2 := by simpa using List.find?_some hfind
    rw [Option.map_some, hall r hmem hcovers.1 hcovers.2]

end BatchRead

/-- A transfer of a request to a decode rank, with the caches of both ranks. -/
structure HeadTransfer where
  config : KVCacheConfig
  topology : TpTopology
  accepts : config.Accepts topology
  rank : ℕ
  rank_lt : rank < topology.decodeTpSize
  reqId : ReqId
  reqMeta : Mooncake.ReqMeta
  remoteRank : ℕ
  remoteRank_eq : topology.getRemoteTpRank rank reqId = some remoteRank
  request : TransferRequest
  request_eq : topology.loadRequest rank reqId reqMeta = some request
  localCache : RankCache config topology.decodeTpSize rank
  remoteCache : RankCache config topology.prefillTpSize remoteRank
  thread : KVCacheRecvingThread
  blockLen_eq : thread.blockLen = config.blockLen topology.decodeTpSize
  localAddrs_eq : thread.localAddrs = localCache.baseAddrs
  reply : Option MooncakeAgentMetadata
  remoteAddrs_eq : thread.remoteAddrs request reply = some remoteCache.baseAddrs
  ret : ℤ
  local_nodup : request.localBlockIds.Nodup
  local_lt : ∀ b ∈ request.localBlockIds, b < localCache.numBlocks
  remote_lt : ∀ b ∈ request.remoteBlockIds, b < remoteCache.numBlocks

namespace HeadTransfer

/-- **The right bytes**: every byte of the heads of the decode rank, for the tokens of a local block,
is the one of the remote block with the same tokens; and nothing else is written. -/
structure ReadsOwnHeads (x : HeadTransfer) (read : BatchRead) : Prop where
  filled : ∀ (j : ℕ) (addr : ℕ) (y : KVByte), x.request.localBlockIds[j]? = some y.block →
    x.localCache.At addr y → ∃ remote source, x.request.remoteBlockIds[j]? = some remote ∧
      read.source addr = some source ∧ x.remoteCache.At source { y with block := remote }
  framed : ∀ addr, (read.source addr).isSome →
    ∃ y : KVByte, y.block ∈ x.request.localBlockIds ∧ x.localCache.At addr y

end HeadTransfer

/-! ## The reads of a transfer -/

namespace KVCacheRecvingThread

variable {self : KVCacheRecvingThread}

/-- The read of a group, from its first two blocks on. -/
def groupRead (blockLen : ℕ) (addrs : ℕ × ℕ) (group : List BlockId × List BlockId) : ℕ × ℕ × ℕ :=
  (addrs.1 + group.2.headD 0 * blockLen, addrs.2 + group.1.headD 0 * blockLen,
    group.2.length * blockLen)

theorem readLayers_eq {groups : List (List BlockId × List BlockId)} {layers : List (ℕ × ℕ)}
    {reads : List (ℕ × ℕ × ℕ)} (h : self.readLayers groups layers = .ok reads) :
    reads = layers.zipIdx.flatMap fun layer =>
      groups.map (groupRead (self.blockBytes layer.2) layer.1) := by
  rw [readLayers] at h
  cases hreads : layers.zipIdx.mapM fun layer =>
      groups.mapM (readGroup (self.blockBytes layer.2) layer.1) with
  | error e =>
    rw [hreads] at h
    contradiction
  | ok readss =>
    rw [hreads] at h
    cases h
    rw [List.flatMap, Machinery.eq_map_of_mapM_ok (fun layer reads hlayer => ?_) hreads]
    refine Machinery.eq_map_of_mapM_ok (fun group read hgroup => ?_) hlayer
    obtain ⟨_ | ⟨r, rs⟩, _ | ⟨l, ls⟩⟩ := group <;> simp_all [readGroup, groupRead]

theorem blockLen_of_ensureMetadata {thread : KVCacheRecvingThread} {req : TransferRequest}
    {reply : Option MooncakeAgentMetadata} (h : self.ensureMetadata req reply = .ok thread) :
    thread.blockLen = self.blockLen := by
  rw [ensureMetadata] at h
  split at h
  · cases reply with
    | none => contradiction
    | some agentMeta =>
      rw [getRemoteMetadata] at h
      split_ifs at h
      cases h
      rfl
  · cases h
    rfl

theorem blockBytes_congr {thread : KVCacheRecvingThread} (h : thread.blockLen = self.blockLen)
    (k : ℕ) : thread.blockBytes k = self.blockBytes k := by
  simp only [blockBytes, useMla, List.get_eq_getElem, h]
  rfl

/-- **What a successful transfer reads.** -/
theorem reads_of_transferKvCache {req : TransferRequest} {reply : Option MooncakeAgentMetadata}
    {ret : ℤ} {addrs : List ℕ} {read : BatchRead} (haddrs : self.remoteAddrs req reply = some addrs)
    (h : (self.transferKvCache req reply ret).2 = .ok (some read)) :
    ∃ groups, groupConcurrentContiguous req.remoteBlockIds req.localBlockIds = some groups ∧
      (self.localAddrs.zip addrs = [] ∨
        ∀ group ∈ groups.1.zip groups.2, group.1 ≠ [] ∧ group.2 ≠ []) ∧
      read.reads = (self.localAddrs.zip addrs).zipIdx.flatMap fun layer =>
        (groups.1.zip groups.2).map (groupRead (self.blockBytes layer.2) layer.1) := by
  obtain ⟨thread, hthread, haddrs, hport⟩ := ensureMetadata_ok_iff.mpr haddrs
  obtain ⟨port, hport⟩ := Option.isSome_iff_exists.mp hport
  obtain ⟨thread', hthread', hbatch⟩ := transferKvCache_ok_some h
  cases hthread.symm.trans hthread'
  have hlocal := localAddrs_of_ensureMetadata hthread
  have hbytes := blockBytes_congr (blockLen_of_ensureMetadata hthread)
  rw [batchRead] at hbatch
  cases hgroups : groupConcurrentContiguous req.remoteBlockIds req.localBlockIds with
  | none =>
    rw [hgroups] at hbatch
    contradiction
  | some groups =>
    simp only [hgroups, haddrs, hport] at hbatch
    cases hreads : thread.readLayers (groups.1.zip groups.2) (thread.localAddrs.zip addrs) with
    | error e =>
      rw [hreads] at hbatch
      contradiction
    | ok reads =>
      rw [hreads] at hbatch
      cases hbatch
      refine ⟨groups, rfl, hlocal ▸ readLayers_ok_iff.mp ⟨reads, hreads⟩, ?_⟩
      rw [BatchRead.reads, List.zip_map', List.zip_map', List.map_id'', ← hlocal,
        readLayers_eq hreads]
      · simp only [hbytes]
      · intro r
        rfl

end KVCacheRecvingThread

namespace HeadTransfer

variable {x : HeadTransfer} {read : BatchRead}

/-- The bytes of a block of the `k`-th cache of the decode rank; the length it reads. -/
def bytes (x : HeadTransfer) (k : ℕ) : ℕ := x.config.blockBytes x.topology.decodeTpSize k

theorem blockBytes_eq (k : ℕ) : x.thread.blockBytes k = x.bytes k := by
  have hget : x.thread.blockLen[if x.thread.useMla then k % 2 else 0]? =
      some (x.thread.blockBytes k) := List.getElem?_eq_getElem _
  rw [KVCacheRecvingThread.useMla, x.blockLen_eq, KVCacheConfig.blockLen] at hget
  refine Option.some.inj (hget.symm.trans ?_)
  rw [bytes, KVCacheConfig.blockBytes, KVCacheConfig.localHeads, KVCacheConfig.headBytes,
    KVCacheConfig.headDim]
  split
  · obtain hk | hk := Nat.mod_two_eq_zero_or_one k <;> simp [hk] <;> ring
  · simp
    ring

/-- A byte of a pair of blocks, from the remote one into the local one: `o` bytes from the start of
the blocks. -/
def Copies (x : HeadTransfer) (k o addr source j : ℕ) : Prop :=
  ∃ dest remote localBase remoteBase, x.request.localBlockIds[j]? = some dest ∧
    x.request.remoteBlockIds[j]? = some remote ∧ x.localCache.baseAddrs[k]? = some localBase ∧
    x.remoteCache.baseAddrs[k]? = some remoteBase ∧ o < x.bytes k ∧
    addr = localBase + dest * x.bytes k + o ∧ source = remoteBase + remote * x.bytes k + o

/-- The reads, group by group. -/
theorem exists_groups
    (h : (x.thread.transferKvCache x.request x.reply x.ret).2 = .ok (some read))
    (hle : x.request.localBlockIds.length ≤ x.request.remoteBlockIds.length) :
    ∃ groups : List (List BlockId × List BlockId),
      groups.flatMap blocksRead = x.request.remoteBlockIds.zip x.request.localBlockIds ∧
      read.reads = (x.localCache.baseAddrs.zip x.remoteCache.baseAddrs).zipIdx.flatMap fun layer =>
        groups.map (KVCacheRecvingThread.groupRead (x.bytes layer.2) layer.1) := by
  obtain ⟨groups, hgroups, hne, hreads⟩ :=
    KVCacheRecvingThread.reads_of_transferKvCache x.remoteAddrs_eq h
  rw [x.localAddrs_eq] at hne hreads
  have hlayers : x.localCache.baseAddrs.zip x.remoteCache.baseAddrs ≠ [] := by
    rw [← List.length_pos_iff, List.length_zip, x.localCache.length_eq, x.remoteCache.length_eq]
    simpa using x.accepts.numCaches_pos
  refine ⟨_, flatMap_blocksRead hgroups hle (hne.resolve_left hlayers), ?_⟩
  rw [hreads]
  simp only [blockBytes_eq]

/-- **Each byte that is read** is copied between two blocks at the same place of the two lists. -/
theorem copies_of_mem
    (h : (x.thread.transferKvCache x.request x.reply x.ret).2 = .ok (some read))
    (hle : x.request.localBlockIds.length ≤ x.request.remoteBlockIds.length) {r : ℕ × ℕ × ℕ}
    (hr : r ∈ read.reads) {addr : ℕ} (hstart : r.1 ≤ addr) (hstop : addr < r.1 + r.2.2) :
    ∃ k o j, x.Copies k o addr (r.2.1 + (addr - r.1)) j := by
  obtain ⟨groups, hblocks, hreads⟩ := exists_groups h hle
  rw [hreads] at hr
  obtain ⟨⟨⟨localBase, remoteBase⟩, k⟩, hlayer, hr⟩ := List.mem_flatMap.mp hr
  obtain ⟨group, hgroup, rfl⟩ := List.mem_map.mp hr
  rw [List.mem_zipIdx_iff_getElem?, List.getElem?_zip_eq_some] at hlayer
  simp only [KVCacheRecvingThread.groupRead] at hstart hstop ⊢
  obtain ⟨z, rfl⟩ := Nat.exists_eq_add_of_le hstart
  have hz : z < group.2.length * x.bytes k := by omega
  have hpos : 0 < x.bytes k := Nat.pos_of_ne_zero fun hzero => by simp [hzero] at hz
  have hmem : (group.1.headD 0 + z / x.bytes k, group.2.headD 0 + z / x.bytes k) ∈
      x.request.remoteBlockIds.zip x.request.localBlockIds := by
    rw [← hblocks]
    refine List.mem_flatMap.mpr ⟨group, hgroup, List.mem_map.mpr ⟨z / x.bytes k, ?_, rfl⟩⟩
    exact List.mem_range.mpr (Nat.div_lt_of_lt_mul (by rwa [Nat.mul_comm]))
  obtain ⟨j, hj⟩ := List.mem_iff_getElem?.mp hmem
  obtain ⟨hremote, hlocal⟩ := List.getElem?_zip_eq_some.mp hj
  refine ⟨k, z % x.bytes k, j, _, _, localBase, remoteBase, hlocal, hremote, hlayer.1, hlayer.2,
    Nat.mod_lt _ hpos, ?_, ?_⟩
  · have hdiv := Nat.div_add_mod' z (x.bytes k)
    rw [Nat.add_mul]
    omega
  · have hdiv := Nat.div_add_mod' z (x.bytes k)
    rw [Nat.add_mul, Nat.add_sub_cancel_left]
    omega

/-- **Each byte of the paired blocks** is read. -/
theorem exists_mem_of_copies
    (h : (x.thread.transferKvCache x.request x.reply x.ret).2 = .ok (some read))
    (hle : x.request.localBlockIds.length ≤ x.request.remoteBlockIds.length)
    {k o addr source j : ℕ} (hcopies : x.Copies k o addr source j) :
    ∃ r ∈ read.reads, r.1 ≤ addr ∧ addr < r.1 + r.2.2 := by
  obtain ⟨groups, hblocks, hreads⟩ := exists_groups h hle
  obtain ⟨dest, remote, localBase, remoteBase, hlocal, hremote, hlb, hrb, ho, haddr, _⟩ := hcopies
  have hmem : (remote, dest) ∈ groups.flatMap blocksRead := by
    rw [hblocks]
    exact List.mem_of_getElem? (List.getElem?_zip_eq_some.mpr ⟨hremote, hlocal⟩)
  obtain ⟨group, hgroup, hpair⟩ := List.mem_flatMap.mp hmem
  obtain ⟨(i : ℕ), hi, hpair⟩ := List.mem_map.mp hpair
  cases hpair
  rw [List.mem_range] at hi
  refine ⟨KVCacheRecvingThread.groupRead (x.bytes k) (localBase, remoteBase) group, ?_, ?_, ?_⟩
  · rw [hreads]
    refine List.mem_flatMap.mpr ⟨((localBase, remoteBase), k), ?_, List.mem_map_of_mem hgroup⟩
    rw [List.mem_zipIdx_iff_getElem?]
    exact List.getElem?_zip_eq_some.mpr ⟨hlb, hrb⟩
  · rw [haddr, KVCacheRecvingThread.groupRead, Nat.add_mul]
    simp only
    omega
  · have hlast : (i + 1) * x.bytes k ≤ group.2.length * x.bytes k := Nat.mul_le_mul_right _ hi
    rw [Nat.add_mul, Nat.one_mul] at hlast
    rw [haddr, KVCacheRecvingThread.groupRead, Nat.add_mul]
    simp only
    omega

/-- A copied byte goes into one block of one cache, so it comes from one place. -/
theorem Copies.source_eq {k k' o o' addr source source' j j' : ℕ}
    (h : x.Copies k o addr source j) (h' : x.Copies k' o' addr source' j') : source = source' := by
  obtain ⟨(dest : ℕ), (remote : ℕ), localBase, remoteBase, hlocal, hremote, hlb, hrb, ho, haddr,
    hsource⟩ := h
  obtain ⟨(dest' : ℕ), (remote' : ℕ), localBase', remoteBase', hlocal', hremote', hlb', hrb', ho',
    haddr', hsource'⟩ := h'
  have hin : ∀ {k dest o : ℕ}, dest ∈ x.request.localBlockIds → o < x.bytes k →
      dest * x.bytes k + o < x.localCache.numBlocks * x.bytes k := by
    intro k dest o hdest ho
    have hlast : (dest + 1) * x.bytes k ≤ x.localCache.numBlocks * x.bytes k :=
      Nat.mul_le_mul_right _ (x.local_lt dest hdest)
    rw [Nat.add_mul, Nat.one_mul] at hlast
    omega
  have hdest := hin (List.mem_of_getElem? hlocal) ho
  have hdest' := hin (List.mem_of_getElem? hlocal') ho'
  by_cases hk : k = k'
  · subst hk
    cases hlb.symm.trans hlb'
    cases hrb.symm.trans hrb'
    -- the same block, and the same byte of it
    have heq : dest * x.bytes k + o = dest' * x.bytes k + o' := by omega
    have hoo : o = o' := by
      have hmod := congrArg (· % x.bytes k) heq
      simpa [Nat.mod_eq_of_lt ho, Nat.mod_eq_of_lt ho'] using hmod
    subst hoo
    have hdd : dest = dest' :=
      Nat.eq_of_mul_eq_mul_right (Nat.zero_lt_of_lt ho) (Nat.add_right_cancel heq)
    subst hdd
    have hlt := (List.getElem?_eq_some_iff.mp hlocal).1
    have hj := (List.getElem?_inj hlt x.local_nodup).mp (hlocal.trans hlocal'.symm)
    subst hj
    cases hremote.symm.trans hremote'
    rw [hsource, hsource']
  · obtain hd | hd := x.localCache.disjoint k k' localBase localBase' hlb hlb' hk
    · have hd : localBase + x.localCache.numBlocks * x.bytes k ≤ localBase' := hd
      omega
    · have hd : localBase' + x.localCache.numBlocks * x.bytes k' ≤ localBase := hd
      omega

/-- **A copied byte** is where it was copied to. -/
theorem source_eq_of_copies
    (h : (x.thread.transferKvCache x.request x.reply x.ret).2 = .ok (some read))
    (hle : x.request.localBlockIds.length ≤ x.request.remoteBlockIds.length)
    {k o addr source j : ℕ} (hcopies : x.Copies k o addr source j) :
    read.source addr = some source := by
  refine BatchRead.source_eq (exists_mem_of_copies h hle hcopies) fun r hr hstart hstop => ?_
  obtain ⟨k', o', j', hcopies'⟩ := copies_of_mem h hle hr hstart hstop
  exact hcopies'.source_eq hcopies

/-- **A byte of a local block** has one of the remote block copied to it: the one as far from the
start of it. -/
theorem exists_copies (hle : x.request.localBlockIds.length ≤ x.request.remoteBlockIds.length)
    {j addr : ℕ} {y : KVByte} (hblock : x.request.localBlockIds[j]? = some y.block)
    (hat : x.localCache.At addr y) :
    ∃ head remote remoteBase, head < x.config.localHeads x.topology.decodeTpSize ∧
      y.head = x.config.firstHead x.topology.decodeTpSize x.rank + head ∧
      x.request.remoteBlockIds[j]? = some remote ∧
      x.remoteCache.baseAddrs[y.cache]? = some remoteBase ∧
      x.Copies y.cache (x.config.offset x.topology.decodeTpSize y.cache y.token head y.byte) addr
        (remoteBase + remote * x.bytes y.cache +
          x.config.offset x.topology.decodeTpSize y.cache y.token head y.byte) j := by
  obtain ⟨base, head, hbase, _, htoken, hhead, hy, hbyte, haddr⟩ := hat
  have hj := (List.getElem?_eq_some_iff.mp hblock).1
  have hcache := (List.getElem?_eq_some_iff.mp hbase).1
  rw [x.localCache.length_eq, ← x.remoteCache.length_eq] at hcache
  have hremote := List.getElem?_eq_getElem (hj.trans_le hle)
  have hremoteBase := List.getElem?_eq_getElem hcache
  exact ⟨head, _, _, hhead, hy, hremote, hremoteBase, y.block, _, base, _, hblock, hremote, hbase,
    hremoteBase, KVCacheConfig.offset_lt htoken hhead hbyte, haddr, rfl⟩

/-! ## When the heads are the own ones -/

/-- A block has the same heads on both engines, at the ranks of the transfer. -/
theorem same_heads (x : HeadTransfer)
    (h : x.config.isMla = true ∨ x.topology.prefillTpSize = x.topology.decodeTpSize) :
    x.config.localHeads x.topology.prefillTpSize = x.config.localHeads x.topology.decodeTpSize ∧
      x.config.firstHead x.topology.prefillTpSize x.remoteRank =
        x.config.firstHead x.topology.decodeTpSize x.rank := by
  obtain hmla | hsize := h
  · rw [KVCacheConfig.isMla] at hmla
    split at hmla
    · next hlayout => simp [KVCacheConfig.localHeads, KVCacheConfig.firstHead, hlayout]
    · contradiction
  · have hrank : x.remoteRank = x.rank := by
      have hremote := x.remoteRank_eq
      have hlt := x.rank_lt
      rw [TpTopology.getRemoteTpRank, TpTopology.getRemoteTpRanksForReq, if_pos hsize,
        List.getElem?_range (hsize ▸ hlt)] at hremote
      exact (Option.some.inj hremote).symm
    rw [hsize, hrank]
    exact ⟨rfl, rfl⟩

theorem localHeads_pos (x : HeadTransfer) : 0 < x.config.localHeads x.topology.decodeTpSize := by
  rw [KVCacheConfig.localHeads]
  split
  · exact Nat.one_pos
  · next n dim hlayout =>
    obtain ⟨hn, _, hdvd⟩ := x.accepts.divides n dim hlayout
    exact Nat.div_pos (Nat.le_of_dvd hn hdvd) x.topology.decodeTpSize_pos

/-- **More prefill ranks** have fewer heads each. -/
theorem localHeads_lt (x : HeadTransfer) (hmla : x.config.isMla ≠ true)
    (hsize : x.topology.prefillTpSize ≠ x.topology.decodeTpSize) :
    x.config.localHeads x.topology.prefillTpSize <
      x.config.localHeads x.topology.decodeTpSize := by
  have hlt : x.topology.decodeTpSize < x.topology.prefillTpSize :=
    lt_of_le_of_ne x.topology.decodeTpSize_le (Ne.symm hsize)
  rw [KVCacheConfig.isMla] at hmla
  split at hmla
  · contradiction
  · next n dim hlayout =>
    obtain ⟨hn, ⟨a, ha⟩, ⟨b, hb⟩⟩ := x.accepts.divides n dim hlayout
    have hP : 0 < x.topology.prefillTpSize := x.topology.decodeTpSize_pos.trans hlt
    simp only [KVCacheConfig.localHeads, hlayout]
    rw [Nat.div_eq_of_eq_mul_right hP ha,
      Nat.div_eq_of_eq_mul_right x.topology.decodeTpSize_pos hb]
    by_contra hba
    have hb_pos : 0 < b := Nat.pos_of_ne_zero fun hzero => by simp [hzero] at hb; omega
    have hcalc : x.topology.decodeTpSize * b < x.topology.prefillTpSize * a :=
      calc x.topology.decodeTpSize * b < x.topology.prefillTpSize * b :=
            Nat.mul_lt_mul_of_pos_right hlt hb_pos
        _ ≤ x.topology.prefillTpSize * a := Nat.mul_le_mul_left _ (not_lt.mp hba)
    omega

/-- The first byte of a head of a local block has its place. -/
theorem exists_at (x : HeadTransfer) {dest : BlockId} (hdest : dest ∈ x.request.localBlockIds)
    {head : ℕ} (hhead : head < x.config.localHeads x.topology.decodeTpSize) :
    ∃ addr, x.localCache.At addr
      ⟨0, dest, 0, x.config.firstHead x.topology.decodeTpSize x.rank + head, 0⟩ := by
  have hcache : 0 < x.localCache.baseAddrs.length :=
    x.localCache.length_eq ▸ x.accepts.numCaches_pos
  exact ⟨_, _, head, List.getElem?_eq_getElem hcache, x.local_lt dest hdest,
    x.accepts.blockSize_pos, hhead, rfl, x.accepts.headBytes_pos 0, rfl⟩

/-- With fewer heads in the remote blocks, the place of the first head too many is another. -/
theorem not_at_of_localHeads_lt {source remoteBase remote head : ℕ} {y : KVByte}
    (hlt : x.config.localHeads x.topology.prefillTpSize <
      x.config.localHeads x.topology.decodeTpSize)
    (hbase : x.remoteCache.baseAddrs[y.cache]? = some remoteBase) (htoken : y.token = 0)
    (hbyte : y.byte = 0) (hhead : head = x.config.localHeads x.topology.prefillTpSize)
    (hsource : source = remoteBase + remote * x.bytes y.cache +
      x.config.offset x.topology.decodeTpSize y.cache y.token head y.byte) :
    ¬x.remoteCache.At source { y with block := remote } := by
  rintro ⟨base, head', hbase', _, _, hhead', _, _, hsource'⟩
  cases hbase.symm.trans hbase'
  have hblock : remote * x.config.blockBytes x.topology.prefillTpSize y.cache ≤
      remote * x.bytes y.cache :=
    Nat.mul_le_mul_left _ (Nat.mul_le_mul_right _ (Nat.mul_le_mul_left _ hlt.le))
  rw [hsource] at hsource'
  simp only [KVCacheConfig.offset, htoken, hbyte, Nat.zero_mul, Nat.zero_add, Nat.add_zero]
    at hsource'
  have hbytes : head' * x.config.headBytes y.cache < head * x.config.headBytes y.cache :=
    Nat.mul_lt_mul_of_pos_right (hhead ▸ hhead') (x.accepts.headBytes_pos _)
  omega

/-- **A decode rank reads its own heads exactly where a block has the same heads on both engines**
and every local block has a remote one. -/
theorem reads_own_heads_iff (x : HeadTransfer)
    (h : (x.thread.transferKvCache x.request x.reply x.ret).2 = .ok (some read)) :
    x.ReadsOwnHeads read ↔
      (x.config.isMla = true ∨ x.topology.prefillTpSize = x.topology.decodeTpSize) ∧
        x.request.localBlockIds.length ≤ x.request.remoteBlockIds.length := by
  constructor
  · intro hreads
    have hremote : ∀ dest ∈ x.request.localBlockIds, ∀ j, x.request.localBlockIds[j]? = some dest →
        j < x.request.remoteBlockIds.length := by
      intro dest hdest j hj
      obtain ⟨addr, hat⟩ := x.exists_at hdest x.localHeads_pos
      obtain ⟨remote, _, hremote, _⟩ := hreads.filled j addr _ hj hat
      exact (List.getElem?_eq_some_iff.mp hremote).1
    have hle : x.request.localBlockIds.length ≤ x.request.remoteBlockIds.length := by
      by_contra hgt
      have hget := List.getElem?_eq_getElem (not_le.mp hgt)
      exact (hremote _ (List.getElem_mem _) _ hget).false
    refine ⟨?_, hle⟩
    by_contra hdiffer
    rw [not_or] at hdiffer
    have hlt := x.localHeads_lt hdiffer.1 hdiffer.2
    have hpos : 0 < x.request.localBlockIds.length := by
      by_contra hempty
      simp [KVCacheRecvingThread.transferKvCache, Nat.eq_zero_of_not_pos hempty] at h
    have hget := List.getElem?_eq_getElem hpos
    obtain ⟨addr, hat⟩ := x.exists_at (List.getElem_mem hpos) hlt
    obtain ⟨head, remote, remoteBase, _, hy, hremote, hbase, hcopies⟩ := exists_copies hle hget hat
    obtain ⟨remote', source, hremote', hsource, hat'⟩ := hreads.filled 0 addr _ hget hat
    cases hremote.symm.trans hremote'
    cases (source_eq_of_copies h hle hcopies).symm.trans hsource
    exact not_at_of_localHeads_lt hlt hbase rfl rfl (Nat.add_left_cancel hy).symm rfl hat'
  · rintro ⟨hsame, hle⟩
    obtain ⟨hheads, hfirst⟩ := x.same_heads hsame
    refine ⟨fun j addr y hblock hat => ?_, fun addr hsome => ?_⟩
    · obtain ⟨head, remote, remoteBase, hhead, hy, hremote, hbase, hcopies⟩ :=
        exists_copies hle hblock hat
      obtain ⟨_, _, _, _, htoken, _, _, hbyte, _⟩ := hat
      refine ⟨remote, _, hremote, source_eq_of_copies h hle hcopies, remoteBase, head, hbase,
        x.remote_lt remote (List.mem_of_getElem? hremote), htoken, hheads ▸ hhead, ?_, hbyte, ?_⟩
      · rw [hfirst]
        exact hy
      · simp only [bytes, KVCacheConfig.blockBytes, KVCacheConfig.offset, hheads]
    · obtain ⟨r, hr, hstart, hstop⟩ := BatchRead.source_isSome hsome
      obtain ⟨k, o, j, dest, _, localBase, _, hlocal, _, hlb, _, ho, haddr, _⟩ :=
        copies_of_mem h hle hr hstart hstop
      obtain ⟨token, head, byte, htoken, hhead, hbyte, rfl⟩ := KVCacheConfig.exists_offset ho
      exact ⟨⟨k, dest, token, x.config.firstHead x.topology.decodeTpSize x.rank + head, byte⟩,
        List.mem_of_getElem? hlocal, localBase, head, hlb,
        x.local_lt dest (List.mem_of_getElem? hlocal), htoken, hhead, rfl, hbyte, haddr⟩

/-- Two prefill ranks with one head each, and one decode rank with both. -/
def twoToOne : TpTopology where
  prefillTpSize := 2
  decodeTpSize := 1
  decodeTpSize_pos := Nat.one_pos
  decodeTpSize_le := by decide
  sample _ := [0]
  sample_length _ := rfl
  sample_nodup _ := List.nodup_singleton 0
  sample_lt _ p hp := by
    rw [List.mem_singleton.mp hp]
    decide

/-- A transfer of one block between them: one cache, one byte for each token and head. -/
def twoHeads : HeadTransfer where
  config := ⟨.heads 2 1, 1, 1, 1⟩
  topology := twoToOne
  accepts := by
    refine ⟨by decide, by decide, fun _ => by simp [KVCacheConfig.headBytes, KVCacheConfig.headDim],
      fun n dim h => ?_⟩
    cases h
    decide
  rank := 0
  rank_lt := by decide
  reqId := "a"
  reqMeta := ⟨[1], [1], "host", 50, "prefill"⟩
  remoteRank := 0
  remoteRank_eq := by decide
  request := ⟨"a", [1], [1], "prefill", "host", 50⟩
  request_eq := by decide
  localCache := ⟨[100], rfl, 4, by
    intro k k' base base' hk hk' hne
    obtain ⟨hlt, _⟩ := List.getElem?_eq_some_iff.mp hk
    obtain ⟨hlt', _⟩ := List.getElem?_eq_some_iff.mp hk'
    simp only [List.length_singleton] at hlt hlt'
    omega⟩
  remoteCache := ⟨[200], rfl, 4, by
    intro k k' base base' hk hk' hne
    obtain ⟨hlt, _⟩ := List.getElem?_eq_some_iff.mp hk
    obtain ⟨hlt', _⟩ := List.getElem?_eq_some_iff.mp hk'
    simp only [List.length_singleton] at hlt hlt'
    omega⟩
  thread := .init "decode" 60 [100] [2] (Or.inl rfl)
  blockLen_eq := by decide
  localAddrs_eq := by simp [KVCacheRecvingThread.localAddrs, KVCacheRecvingThread.init]
  reply := some ⟨"prefill", 9, [200]⟩
  remoteAddrs_eq := by decide
  ret := 0
  local_nodup := by simp
  local_lt := by simp
  remote_lt := by simp

/-- The read of that transfer. -/
theorem twoHeads_reads :
    (twoHeads.thread.transferKvCache twoHeads.request twoHeads.reply twoHeads.ret).2 =
      .ok (some ⟨("host", 9), [102], [202], [2]⟩) := by
  rfl

theorem reads_own_heads_iff_twoHeads : ∃ read,
    (twoHeads.thread.transferKvCache twoHeads.request twoHeads.reply twoHeads.ret).2 =
      .ok (some read) ∧
    (twoHeads.ReadsOwnHeads read ↔
      (twoHeads.config.isMla = true ∨
        twoHeads.topology.prefillTpSize = twoHeads.topology.decodeTpSize) ∧
      twoHeads.request.localBlockIds.length ≤ twoHeads.request.remoteBlockIds.length) :=
  ⟨_, twoHeads_reads, reads_own_heads_iff twoHeads twoHeads_reads⟩

/-- **Two prefill ranks, one decode rank**: the second head of the block is read from a later block
of the first prefill rank, which does not have that head at all. -/
theorem reads_other_heads : ∃ read,
    (twoHeads.thread.transferKvCache twoHeads.request twoHeads.reply twoHeads.ret).2 =
      .ok (some read) ∧ ¬twoHeads.ReadsOwnHeads read := by
  refine ⟨_, twoHeads_reads, fun hreads => ?_⟩
  obtain ⟨remote, source, hremote, hsource, _, head, hbase, _, _, hhead, _, _, haddr⟩ :=
    hreads.filled 0 103 ⟨0, 1, 0, 1, 0⟩ rfl
      ⟨100, 1, rfl, by decide, by decide, by decide, by decide, by decide, by decide⟩
  cases hremote
  cases hsource.symm.trans (by decide : _ = some 203)
  cases hbase
  have hzero : head = 0 := Nat.lt_one_iff.mp hhead
  subst hzero
  exact absurd haddr (by decide)

end HeadTransfer

end VllmAscend
