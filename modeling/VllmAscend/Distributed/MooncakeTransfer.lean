import VllmAscend.Distributed.MooncakeConnector

/-!
# Distributed/MooncakeTransfer — a decode rank reads the blocks of a request

    _get_remote_tp_rank ──▸ remote_handshake_port
    _transfer_kv_cache     metadata of that rank ──▸ groups of contiguous blocks
                           ──▸ one read for each group and layer ──▸ ret

The request names a prefill engine; the rank of it to read from is the own rank, or sampled from the
request id.  What the engine's memory holds and what the network does are outside this repository:
the reply of the remote rank and the return code of the read are inputs.
-/

namespace VllmAscend

/-- The sizes of the two engines, as `MooncakeConnectorWorker.__init__` accepts them, and the sample
that `random` draws from a request id. -/
structure TpTopology where
  prefillTpSize : ℕ
  decodeTpSize : ℕ
  decodeTpSize_pos : 0 < decodeTpSize
  decodeTpSize_le : decodeTpSize ≤ prefillTpSize
  sample : ReqId → List ℕ
  sample_length : ∀ id, (sample id).length = decodeTpSize
  sample_nodup : ∀ id, (sample id).Nodup
  sample_lt : ∀ id, ∀ p ∈ sample id, p < prefillTpSize

namespace TpTopology

variable (self : TpTopology)

/-- `_get_remote_tp_ranks_for_req`. -/
def getRemoteTpRanksForReq (reqId : ReqId) : List ℕ :=
  if self.prefillTpSize = self.decodeTpSize then List.range self.prefillTpSize
  else self.sample reqId

/-- `_get_remote_tp_rank`, of the worker with rank `tpRank`. -/
def getRemoteTpRank (tpRank : ℕ) (reqId : ReqId) : Option ℕ :=
  (self.getRemoteTpRanksForReq reqId)[tpRank]?

/-- **Every decode rank has a prefill rank** to read from. -/
theorem getRemoteTpRank_isSome {tpRank : ℕ} (h : tpRank < self.decodeTpSize) (reqId : ReqId) :
    ∃ p, self.getRemoteTpRank tpRank reqId = some p ∧ p < self.prefillTpSize := by
  rw [getRemoteTpRank, getRemoteTpRanksForReq]
  split_ifs with heq
  · have hlt : tpRank < self.prefillTpSize := heq ▸ h
    exact ⟨tpRank, List.getElem?_range hlt, hlt⟩
  · have hlt : tpRank < (self.sample reqId).length := (self.sample_length reqId).symm ▸ h
    exact ⟨_, List.getElem?_eq_getElem hlt, self.sample_lt reqId _ (List.getElem_mem hlt)⟩

end TpTopology

/-- What `add_request` of the receiving thread queues. -/
structure TransferRequest where
  requestId : ReqId
  localBlockIds : List BlockId
  remoteBlockIds : List BlockId
  remoteEngineId : String
  remoteHost : String
  remoteHandshakePort : ℕ
  deriving DecidableEq, Repr

/-- A turn of the loop of `start_load_kv`. -/
def TpTopology.loadRequest (self : TpTopology) (tpRank : ℕ) (reqId : ReqId)
    (meta' : Mooncake.ReqMeta) : Option TransferRequest :=
  (self.getRemoteTpRank tpRank reqId).map fun p =>
    ⟨reqId, meta'.localBlockIds, meta'.remoteBlockIds, meta'.remoteEngineId, meta'.remoteHost,
      meta'.remotePort + p⟩

/-! ## Groups of contiguous blocks -/

/-- `np.diff`. -/
def diff (xs : List ℕ) : List ℤ := List.zipWith (fun y x : ℕ => (y : ℤ) - x) xs.tail xs

/-- Arrays of one dimension broadcast together: one of length 1 is repeated. -/
def broadcast {α β γ : Type} (f : α → β → γ) (xs : List α) (ys : List β) : Option (List γ) :=
  if xs.length = ys.length then some (List.zipWith f xs ys)
  else
    match xs, ys with
    | [x], ys => some (ys.map (f x))
    | xs, [y] => some (xs.map (f · y))
    | _, _ => none

/-- `np.split` at ascending places, the first of them relative to `from'`. -/
def split {α : Type} (xs : List α) : List ℕ → ℕ → List (List α)
  | [], _ => [xs]
  | b :: bs, start => xs.take (b - start) :: split (xs.drop (b - start)) bs b

/-- The places after which one of the two lists goes on with another number than the next. -/
def breaks (src dst : List ℕ) : Option (List ℕ) :=
  (broadcast (fun s d => s != 1 || d != 1) (diff src) (diff dst)).map fun brk =>
    (brk.zipIdx.filter fun x => x.1).map fun x => x.2 + 1

/-- `group_concurrent_contiguous`; `none` is the `ValueError` of two arrays that do not broadcast. -/
def groupConcurrentContiguous (src dst : List ℕ) : Option (List (List ℕ) × List (List ℕ)) :=
  if src.length = 0 then some ([], [])
  else (breaks src dst).map fun brk => (split src brk 0, split dst brk 0)

/-! ## The receiving thread -/

/-- The metadata of a remote rank. -/
structure MooncakeAgentMetadata where
  engineId : String
  teRpcPort : ℕ
  kvCachesBaseAddr : List ℕ
  deriving DecidableEq, Repr

/-- The exceptions of `_transfer_kv_cache`. -/
inductive TransferFault where
  /-- `_get_remote_metadata`: a socket fails, or the reply does not decode -/
  | noMetadata
  /-- `assert engine_id != self.local_engine_id` -/
  | conflict
  /-- `ValueError` of `group_concurrent_contiguous` -/
  | lengths
  /-- `KeyError`: no addresses or no port for the engine -/
  | unknownRemote
  /-- `IndexError`: the first block of an empty group -/
  | emptyGroup
  /-- `RuntimeError`, by the return code -/
  | failed (ret : ℤ)
  deriving DecidableEq, Repr

/-- The arguments of a call of `batch_transfer_sync_read`. -/
structure BatchRead where
  /-- host and transfer port -/
  sessionId : String × ℕ
  srcList : List ℕ
  dstList : List ℕ
  lengthList : List ℕ
  deriving DecidableEq, Repr

structure KVCacheRecvingThread where
  localEngineId : String
  localHandshakePort : ℕ
  kvCachesBaseAddr : String → ℕ → Option (List ℕ)
  /-- the own addresses are there from `__init__` on -/
  local_known : (kvCachesBaseAddr localEngineId localHandshakePort).isSome
  remoteTePort : String → ℕ → Option ℕ
  blockLen : List ℕ
  /-- as `register_kv_caches` makes it -/
  blockLen_length : blockLen.length = 1 ∨ blockLen.length = 2
  requestQueue : List TransferRequest

namespace KVCacheRecvingThread

/-- At `__init__`. -/
def init (localEngineId : String) (localHandshakePort : ℕ) (localKvCachesBaseAddr blockLen : List ℕ)
    (h : blockLen.length = 1 ∨ blockLen.length = 2) : KVCacheRecvingThread where
  localEngineId := localEngineId
  localHandshakePort := localHandshakePort
  kvCachesBaseAddr := Function.update (fun _ _ => none) localEngineId
    (Function.update (fun _ => none) localHandshakePort (some localKvCachesBaseAddr))
  local_known := by simp
  remoteTePort _ _ := none
  blockLen := blockLen
  blockLen_length := h
  requestQueue := []

variable (self : KVCacheRecvingThread)

/-- `self.use_mla`. -/
def useMla : Bool := self.blockLen.length == 2

/-- The bytes of a block in layer `k`. -/
def blockBytes (k : ℕ) : ℕ :=
  self.blockLen.get ⟨if self.useMla then k % 2 else 0, by
    obtain h | h := self.blockLen_length <;> simp [useMla, h]
    omega⟩

/-- The own addresses, one for each layer. -/
def localAddrs : List ℕ :=
  (self.kvCachesBaseAddr self.localEngineId self.localHandshakePort).get self.local_known

/-- The rest of `_get_remote_metadata`, on the reply of another engine. -/
def setMetadata (port : ℕ) (agentMeta : MooncakeAgentMetadata)
    (hne : agentMeta.engineId ≠ self.localEngineId) : KVCacheRecvingThread :=
  { self with
    kvCachesBaseAddr := Function.update self.kvCachesBaseAddr agentMeta.engineId
      (Function.update (self.kvCachesBaseAddr agentMeta.engineId) port
        (some agentMeta.kvCachesBaseAddr))
    local_known := by
      rw [Function.update_of_ne hne.symm]
      exact self.local_known
    remoteTePort := Function.update self.remoteTePort agentMeta.engineId
      (Function.update (self.remoteTePort agentMeta.engineId) port (some agentMeta.teRpcPort)) }

/-- `_get_remote_metadata`, of the rank at `port`. -/
def getRemoteMetadata (port : ℕ) :
    Option MooncakeAgentMetadata → Except TransferFault KVCacheRecvingThread
  | none => .error .noMetadata
  | some agentMeta =>
    if hne : agentMeta.engineId ≠ self.localEngineId then .ok (self.setMetadata port agentMeta hne)
    else .error .conflict

/-- The metadata of the remote rank is there, or fetched. -/
def ensureMetadata (req : TransferRequest) (reply : Option MooncakeAgentMetadata) :
    Except TransferFault KVCacheRecvingThread :=
  match self.kvCachesBaseAddr req.remoteEngineId req.remoteHandshakePort with
  | none => self.getRemoteMetadata req.remoteHandshakePort reply
  | some _ => .ok self

/-- One group of blocks in one layer: source, destination and length of the read. -/
def readGroup (blockLen : ℕ) (addrs : ℕ × ℕ) :
    List BlockId × List BlockId → Except TransferFault (ℕ × ℕ × ℕ)
  | (remoteBlockId :: _, localBlockId :: rest) =>
    .ok (addrs.1 + localBlockId * blockLen, addrs.2 + remoteBlockId * blockLen,
      (rest.length + 1) * blockLen)
  | _ => .error .emptyGroup

/-- The loops over the layers and the groups. -/
def readLayers (groups : List (List BlockId × List BlockId)) (layers : List (ℕ × ℕ)) :
    Except TransferFault (List (ℕ × ℕ × ℕ)) :=
  (layers.zipIdx.mapM fun layer => groups.mapM (readGroup (self.blockBytes layer.2) layer.1)).map
    List.flatten

/-- The part of `_transfer_kv_cache` that puts the read together. -/
def batchRead (req : TransferRequest) : Except TransferFault BatchRead :=
  match groupConcurrentContiguous req.remoteBlockIds req.localBlockIds with
  | none => .error .lengths
  | some groups =>
    match self.kvCachesBaseAddr req.remoteEngineId req.remoteHandshakePort,
      self.remoteTePort req.remoteEngineId req.remoteHandshakePort with
    | some remoteAddrs, some remoteTransferPort =>
      (self.readLayers (groups.1.zip groups.2) (self.localAddrs.zip remoteAddrs)).map fun reads =>
        ⟨(req.remoteHost, remoteTransferPort), reads.map (·.1), reads.map (·.2.1),
          reads.map (·.2.2)⟩
    | _, _ => .error .unknownRemote

/-- `_transfer_kv_cache`, where the remote rank replies `reply` if it is asked for its metadata and
`batch_transfer_sync_read` returns `ret` if it is called.  A full prefix hit reads nothing. -/
def transferKvCache (req : TransferRequest) (reply : Option MooncakeAgentMetadata) (ret : ℤ) :
    KVCacheRecvingThread × Except TransferFault (Option BatchRead) :=
  if req.localBlockIds.length = 0 then (self, .ok none)
  else
    match self.ensureMetadata req reply with
    | .error e => (self, .error e)
    | .ok thread =>
      match thread.batchRead req with
      | .error e => (thread, .error e)
      | .ok read => (thread, if ret < 0 then .error (.failed ret) else .ok (some read))

/-! ## When a transfer succeeds -/

/-- The addresses of the remote rank, as they are known or replied. -/
def remoteAddrs (req : TransferRequest) (reply : Option MooncakeAgentMetadata) :
    Option (List ℕ) :=
  match self.kvCachesBaseAddr req.remoteEngineId req.remoteHandshakePort with
  | some addrs =>
    if (self.remoteTePort req.remoteEngineId req.remoteHandshakePort).isSome then some addrs
    else none
  | none => reply.bind fun agentMeta =>
    if agentMeta.engineId = req.remoteEngineId ∧ agentMeta.engineId ≠ self.localEngineId then
      some agentMeta.kvCachesBaseAddr
    else none

/-- No group of the two lists is empty; or there is no layer to read. -/
def Grouped (req : TransferRequest) (layers : List (ℕ × ℕ)) : Prop :=
  ∃ groups, groupConcurrentContiguous req.remoteBlockIds req.localBlockIds = some groups ∧
    (layers = [] ∨ ∀ group ∈ groups.1.zip groups.2, group.1 ≠ [] ∧ group.2 ≠ [])

/-- There is nothing to read; or the remote rank is known or replies, the lists of blocks go
together, and the read succeeds. -/
def Readable (req : TransferRequest) (reply : Option MooncakeAgentMetadata) (ret : ℤ) : Prop :=
  req.localBlockIds = [] ∨
    ∃ addrs, self.remoteAddrs req reply = some addrs ∧
      Grouped req (self.localAddrs.zip addrs) ∧ 0 ≤ ret

variable {self} {req : TransferRequest} {reply : Option MooncakeAgentMetadata} {ret : ℤ}

theorem exists_mapM_ok {α β ε : Type} {f : α → Except ε β} {xs : List α} :
    (∃ ys, xs.mapM f = .ok ys) ↔ ∀ x ∈ xs, ∃ y, f x = .ok y := by
  induction xs with
  | nil => simp [pure, Except.pure]
  | cons x xs ih =>
    rw [List.forall_mem_cons, ← ih]
    cases hx : f x with
    | error e => simp [List.mapM_cons, hx, bind, Except.bind]
    | ok y =>
      cases hxs : xs.mapM f with
      | error e => simp [List.mapM_cons, hx, hxs, bind, Except.bind]
      | ok ys => simp [List.mapM_cons, hx, hxs, bind, Except.bind, pure, Except.pure]

theorem readGroup_ok_iff {blockLen : ℕ} {addrs : ℕ × ℕ} {group : List BlockId × List BlockId} :
    (∃ read, readGroup blockLen addrs group = .ok read) ↔ group.1 ≠ [] ∧ group.2 ≠ [] := by
  obtain ⟨_ | ⟨r, rs⟩, _ | ⟨l, ls⟩⟩ := group <;> simp [readGroup]

theorem readLayers_ok_iff {groups : List (List BlockId × List BlockId)} {layers : List (ℕ × ℕ)} :
    (∃ reads, self.readLayers groups layers = .ok reads) ↔
      layers = [] ∨ ∀ group ∈ groups, group.1 ≠ [] ∧ group.2 ≠ [] := by
  have hlayers : (∃ reads, self.readLayers groups layers = .ok reads) ↔
      ∀ layer ∈ layers.zipIdx, ∀ group ∈ groups, group.1 ≠ [] ∧ group.2 ≠ [] := by
    have hread : ∀ layer : (ℕ × ℕ) × ℕ,
        (∃ reads, groups.mapM (readGroup (self.blockBytes layer.2) layer.1) = .ok reads) ↔
          ∀ group ∈ groups, group.1 ≠ [] ∧ group.2 ≠ [] := fun layer =>
      exists_mapM_ok.trans (forall₂_congr fun _ _ => readGroup_ok_iff)
    rw [readLayers, ← forall₂_congr fun layer _ => hread layer, ← exists_mapM_ok]
    cases hreads : layers.zipIdx.mapM fun layer =>
        groups.mapM (readGroup (self.blockBytes layer.2) layer.1) with
    | error e => simp [Except.map]
    | ok reads => simp [Except.map]
  cases layers with
  | nil => simp [hlayers]
  | cons layer layers =>
    rw [hlayers, List.zipIdx_cons, List.forall_mem_cons]
    constructor
    · rintro ⟨hall, _⟩
      exact Or.inr hall
    · rintro (hnil | hall)
      · contradiction
      · exact ⟨hall, fun _ _ => hall⟩

section Metadata

variable {port : ℕ} {agentMeta : MooncakeAgentMetadata}
  {hne : agentMeta.engineId ≠ self.localEngineId}

@[simp] theorem setMetadata_localAddrs :
    (self.setMetadata port agentMeta hne).localAddrs = self.localAddrs := by
  simp only [localAddrs, setMetadata, Function.update_of_ne hne.symm]

@[simp] theorem setMetadata_kvCachesBaseAddr :
    (self.setMetadata port agentMeta hne).kvCachesBaseAddr agentMeta.engineId port =
      some agentMeta.kvCachesBaseAddr := by
  simp [setMetadata]

@[simp] theorem setMetadata_remoteTePort :
    (self.setMetadata port agentMeta hne).remoteTePort agentMeta.engineId port =
      some agentMeta.teRpcPort := by
  simp [setMetadata]

theorem setMetadata_kvCachesBaseAddr_of_ne {engine : String} (h : engine ≠ agentMeta.engineId) :
    (self.setMetadata port agentMeta hne).kvCachesBaseAddr engine = self.kvCachesBaseAddr engine :=
  Function.update_of_ne h _ _

end Metadata

theorem localAddrs_of_ensureMetadata {thread : KVCacheRecvingThread}
    (h : self.ensureMetadata req reply = .ok thread) : thread.localAddrs = self.localAddrs := by
  rw [ensureMetadata] at h
  split at h
  · cases reply with
    | none => contradiction
    | some agentMeta =>
      rw [getRemoteMetadata] at h
      split_ifs at h
      cases h
      exact setMetadata_localAddrs
  · cases h
    rfl

theorem requestQueue_of_ensureMetadata {thread : KVCacheRecvingThread}
    (h : self.ensureMetadata req reply = .ok thread) :
    thread.requestQueue = self.requestQueue := by
  rw [ensureMetadata] at h
  split at h
  · cases reply with
    | none => contradiction
    | some agentMeta =>
      rw [getRemoteMetadata] at h
      split_ifs at h
      cases h
      rfl
  · cases h
    rfl

/-- **The addresses of the remote rank** are there after `ensureMetadata`, if at all. -/
theorem ensureMetadata_ok_iff {addrs : List ℕ} :
    (∃ thread, self.ensureMetadata req reply = .ok thread ∧
        thread.kvCachesBaseAddr req.remoteEngineId req.remoteHandshakePort = some addrs ∧
        (thread.remoteTePort req.remoteEngineId req.remoteHandshakePort).isSome) ↔
      self.remoteAddrs req reply = some addrs := by
  rw [ensureMetadata, remoteAddrs]
  cases hknown : self.kvCachesBaseAddr req.remoteEngineId req.remoteHandshakePort with
  | some known =>
    simp only
    constructor
    · rintro ⟨thread, hthread, haddrs, hport⟩
      cases hthread
      rw [if_pos hport, ← hknown, haddrs]
    · intro haddrs
      split_ifs at haddrs with hport
      exact ⟨self, rfl, hknown.trans haddrs, hport⟩
  | none =>
    cases reply with
    | none => simp [getRemoteMetadata]
    | some agentMeta =>
      simp only [getRemoteMetadata, Option.bind_some]
      constructor
      · rintro ⟨thread, hthread, haddrs, _⟩
        split_ifs at hthread with hne
        cases hthread
        by_cases heq : agentMeta.engineId = req.remoteEngineId
        · rw [← heq, setMetadata_kvCachesBaseAddr] at haddrs
          rw [if_pos ⟨heq, hne⟩, haddrs]
        · -- the reply of another engine leaves the addresses unknown
          rw [setMetadata_kvCachesBaseAddr_of_ne (Ne.symm heq), hknown] at haddrs
          contradiction
      · intro haddrs
        split_ifs at haddrs with hmeta
        obtain ⟨heq, hne⟩ := hmeta
        refine ⟨self.setMetadata req.remoteHandshakePort agentMeta hne, dif_pos hne, ?_, ?_⟩
        · rw [← heq, setMetadata_kvCachesBaseAddr, haddrs]
        · rw [← heq, setMetadata_remoteTePort]
          rfl

/-- **The read is put together** where the addresses are known and the groups are not empty. -/
theorem batchRead_ok_iff :
    (∃ read, self.batchRead req = .ok read) ↔
      ∃ addrs, self.kvCachesBaseAddr req.remoteEngineId req.remoteHandshakePort = some addrs ∧
        (self.remoteTePort req.remoteEngineId req.remoteHandshakePort).isSome ∧
        Grouped req (self.localAddrs.zip addrs) := by
  rw [batchRead]
  simp only [Grouped]
  cases groupConcurrentContiguous req.remoteBlockIds req.localBlockIds with
  | none => simp
  | some groups =>
    cases self.kvCachesBaseAddr req.remoteEngineId req.remoteHandshakePort with
    | none => simp
    | some addrs =>
      cases self.remoteTePort req.remoteEngineId req.remoteHandshakePort with
      | none => simp
      | some port =>
        have hlayers : (∃ reads, self.readLayers (groups.1.zip groups.2)
            (self.localAddrs.zip addrs) = .ok reads) ↔ _ := readLayers_ok_iff
        simp only [Option.some.injEq, Option.isSome_some, true_and, exists_eq_left', ← hlayers]
        cases self.readLayers (groups.1.zip groups.2) (self.localAddrs.zip addrs) with
        | error e => simp [Except.map]
        | ok reads => simp [Except.map]

/-- **A read that succeeded** was put together after the metadata was there. -/
theorem transferKvCache_ok_some {read : BatchRead}
    (h : (self.transferKvCache req reply ret).2 = .ok (some read)) :
    ∃ thread, self.ensureMetadata req reply = .ok thread ∧ thread.batchRead req = .ok read := by
  rw [transferKvCache] at h
  by_cases hempty : req.localBlockIds.length = 0
  · rw [if_pos hempty] at h
    cases h
  rw [if_neg hempty] at h
  cases hthread : self.ensureMetadata req reply with
  | error e =>
    rw [hthread] at h
    contradiction
  | ok thread =>
    simp only [hthread] at h
    cases hbatch : thread.batchRead req with
    | error e =>
      rw [hbatch] at h
      contradiction
    | ok batch =>
      simp only [hbatch] at h
      split_ifs at h
      cases h
      exact ⟨thread, rfl, hbatch⟩

/-- **When a transfer succeeds.** -/
theorem transferKvCache_ok_iff :
    (∃ read, (self.transferKvCache req reply ret).2 = .ok read) ↔ self.Readable req reply ret := by
  rw [transferKvCache, Readable]
  by_cases hempty : req.localBlockIds = []
  · simp [hempty]
  rw [if_neg (by simpa using hempty), or_iff_right hempty]
  simp only [← ensureMetadata_ok_iff]
  cases hthread : self.ensureMetadata req reply with
  | error e => simp
  | ok thread =>
    have hlocal := localAddrs_of_ensureMetadata hthread
    simp only
    constructor
    · rintro ⟨read, hread⟩
      cases hbatch : thread.batchRead req with
      | error e =>
        rw [hbatch] at hread
        contradiction
      | ok batch =>
        obtain ⟨addrs, haddrs, hport, hgroups⟩ := batchRead_ok_iff.mp ⟨batch, hbatch⟩
        simp only [hbatch] at hread
        split_ifs at hread with hret
        exact ⟨addrs, ⟨thread, rfl, haddrs, hport⟩, hlocal ▸ hgroups, not_lt.mp hret⟩
    · rintro ⟨addrs, ⟨thread', hthread', haddrs, hport⟩, hgroups, hret⟩
      cases hthread'
      obtain ⟨batch, hbatch⟩ := batchRead_ok_iff.mpr ⟨addrs, haddrs, hport, hlocal ▸ hgroups⟩
      exact ⟨some batch, by simp [hbatch, not_lt.mpr hret]⟩

end KVCacheRecvingThread

/-- A call of `_transfer_kv_cache`, with what comes from outside. -/
structure Transfer where
  thread : KVCacheRecvingThread
  request : TransferRequest
  reply : Option MooncakeAgentMetadata
  ret : ℤ

namespace Transfer

/-- The thread after the call, and how the call ends. -/
def run (t : Transfer) : KVCacheRecvingThread × Except TransferFault (Option BatchRead) :=
  t.thread.transferKvCache t.request t.reply t.ret

theorem run_requestQueue (t : Transfer) : t.run.1.requestQueue = t.thread.requestQueue := by
  rw [run, KVCacheRecvingThread.transferKvCache]
  by_cases hempty : t.request.localBlockIds.length = 0
  · rw [if_pos hempty]
  rw [if_neg hempty]
  split
  · rfl
  · next thread hthread =>
    have hqueue : thread.requestQueue = t.thread.requestQueue :=
      KVCacheRecvingThread.requestQueue_of_ensureMetadata hthread
    split <;> exact hqueue

/-- The local blocks are filled: there are none, or `batch_transfer_sync_read` was called for them
and returned a non-negative code. -/
def Filled (t : Transfer) : Prop :=
  t.request.localBlockIds = [] ∨ (∃ read, t.run.2 = .ok (some read)) ∧ 0 ≤ t.ret

/-- Nothing fails, of what the call depends on. -/
def Readable (t : Transfer) : Prop := t.thread.Readable t.request t.reply t.ret

/-- **The blocks are filled exactly where nothing fails.** -/
theorem filled_iff_readable (t : Transfer) : t.Filled ↔ t.Readable := by
  rw [Filled, Readable, ← KVCacheRecvingThread.transferKvCache_ok_iff]
  constructor
  · rintro (hempty | ⟨⟨read, hread⟩, _⟩)
    · exact ⟨none, by simp [KVCacheRecvingThread.transferKvCache, hempty]⟩
    · exact ⟨some read, hread⟩
  · rintro ⟨read, hread⟩
    by_cases hempty : t.request.localBlockIds = []
    · exact Or.inl hempty
    refine Or.inr ?_
    obtain hnil | ⟨_, _, _, hret⟩ := KVCacheRecvingThread.transferKvCache_ok_iff.mp ⟨read, hread⟩
    · exact absurd hnil hempty
    refine ⟨?_, hret⟩
    rw [run]
    rw [KVCacheRecvingThread.transferKvCache, if_neg (by simpa using hempty)] at hread ⊢
    split at hread
    · contradiction
    · split at hread
      · contradiction
      · next batch hbatch => exact ⟨batch, by simp [not_lt.mpr hret]⟩

end Transfer

end VllmAscend
