import VllmAscend.Distributed.RemoteLoads

/-!
# Distributed/LLMDataDistConnector — the LLMDataDist connector, on both engines

    prefill engine   request_finished ──▸ remote_block_ids, all blocks of the prompt
    decode engine    get_num_new_matched_tokens ──▸ update_state_after_alloc
                     build_connector_meta
                     worker: _read_blocks, the last remote blocks into the local ones

The scheduler sides run in the two engines' schedulers; the worker's `_read_blocks` pulls the blocks
over.  What the remote engine and the network do is outside this repository.
-/

namespace VllmAscend

namespace LLMDataDist

/-- What the worker needs to load the blocks of a request. -/
structure ReqMeta where
  localBlockIds : List BlockId
  remoteBlockIds : List BlockId
  remoteHost : String
  remotePort : ℕ
  engineId : String
  remoteTpSize : ℕ
  deriving DecidableEq, Repr

/-- The entry `add_new_req` makes. -/
def reqMeta (localBlockIds : List BlockId) (p : KVTransferParams) : Option ReqMeta :=
  match p.remoteBlockIds, p.remoteEngineId, p.remoteHost, p.remotePort, p.remoteTpSize with
  | some remoteBlockIds, some engineId, some remoteHost, some remotePort, some remoteTpSize =>
    some ⟨localBlockIds, remoteBlockIds, remoteHost, remotePort, engineId, remoteTpSize⟩
  | _, _, _, _, _ => none

/-- The four keys `update_state_after_alloc` asks for. -/
def complete (p : KVTransferParams) : Bool := p.namesRemote && p.remoteTpSize.isSome

end LLMDataDist

structure LLMDataDistCMgrConnectorMetadata where
  requests : Dict LLMDataDist.ReqMeta

structure LLMDataDistCMgrConnectorScheduler extends PendingLoads where
  blockSize : ℕ
  engineId : String
  localIp : String
  port : ℕ
  tensorParallelSize : ℕ

namespace LLMDataDistCMgrConnectorScheduler

/-- `get_num_new_matched_tokens`: all prompt tokens that are not computed, if the prompt is
prefilled remotely. -/
def getNumNewMatchedTokens (self : LLMDataDistCMgrConnectorScheduler) (r : Request)
    (numComputedTokens : ℕ) : Option (ℕ × Bool) :=
  if doRemotePrefill r.kvTransferParams then
    if numComputedTokens % self.blockSize = 0 then
      let count := r.promptTokenIds.length - numComputedTokens
      some (count, 0 < count)
    else none
  else some (0, false)

/-- `update_state_after_alloc`. -/
def updateStateAfterAlloc (self : LLMDataDistCMgrConnectorScheduler) (id : ReqId) (r : Request)
    (blocks : KVCacheBlocks) (numExternalTokens : ℕ) :
    Option (LLMDataDistCMgrConnectorScheduler × Option KVTransferParams) :=
  (self.register LLMDataDist.complete id r blocks.getUnhashedBlockIds numExternalTokens).map
    fun registered => ({ self with toPendingLoads := registered.1 }, registered.2)

/-- `build_connector_meta`. -/
def buildConnectorMeta (self : LLMDataDistCMgrConnectorScheduler) :
    Option (LLMDataDistCMgrConnectorScheduler × LLMDataDistCMgrConnectorMetadata) :=
  (self.build LLMDataDist.reqMeta).map fun built =>
    ({ self with toPendingLoads := built.1 }, ⟨built.2⟩)

/-- The parameters under which the decode engine finds the blocks of a finished prompt. -/
def published (self : LLMDataDistCMgrConnectorScheduler) (blockIds : List BlockId) :
    KVTransferParams where
  doRemotePrefill := some true
  doRemoteDecode := some false
  remoteBlockIds := some blockIds
  remoteEngineId := some self.engineId
  remoteHost := some self.localIp
  remotePort := some self.port
  remoteTpSize := some self.tensorParallelSize

/-- `request_finished`. -/
def requestFinished (self : LLMDataDistCMgrConnectorScheduler) (r : Request)
    (blockIds : List BlockId) : Bool × Option KVTransferParams :=
  PendingLoads.requestFinished self.published r blockIds

end LLMDataDistCMgrConnectorScheduler

/-- The connector, in the scheduler. -/
def llmDataDistConnector :
    KVConnector LLMDataDistCMgrConnectorScheduler LLMDataDistCMgrConnectorMetadata where
  getNumNewMatchedTokens conn _ r numComputedTokens :=
    (conn.getNumNewMatchedTokens r numComputedTokens).map fun matched => (conn, matched)
  updateStateAfterAlloc conn id r blocks numExternalTokens :=
    conn.updateStateAfterAlloc id r blocks numExternalTokens
  buildConnectorMeta conn _ := conn.buildConnectorMeta

/-! ## The worker -/

/-- A call of `pull_blocks`: the `i`-th remote block into the `i`-th local one. -/
structure Pull where
  remoteClusterId : ℕ
  /-- the cache of the cluster, where it has more than one -/
  modelId : Option ℕ
  remoteBlockIds : List BlockId
  localBlockIds : List BlockId
  deriving DecidableEq, Repr

/-- The remote block goes into the local one. -/
def Pull.Moves (p : Pull) (remote dest : BlockId) : Prop :=
  (remote, dest) ∈ p.remoteBlockIds.zip p.localBlockIds

structure LLMDataDistCMgrConnectorWorker where
  tpRank : ℕ
  useMla : Bool
  finishedReqs : Finset ReqId
  /-- `connect_to_remote_agent`: the cluster at an address -/
  connectToRemoteAgent : String → ℕ → ℕ

/-- `_read_blocks`, where the pulls succeed; `none` is its assertion. -/
def LLMDataDistCMgrConnectorWorker.readBlocks (self : LLMDataDistCMgrConnectorWorker)
    (requestId : ReqId) (m : LLMDataDist.ReqMeta) :
    Option (LLMDataDistCMgrConnectorWorker × List Pull) :=
  let tpOffset := self.tpRank % m.remoteTpSize
  let remoteClusterId := self.connectToRemoteAgent m.remoteHost (m.remotePort + tpOffset)
  let numLocalBlocks := m.localBlockIds.length
  if numLocalBlocks = 0 then some (self, [])
  else
    let numRemoteBlocks := m.remoteBlockIds.length
    if numLocalBlocks ≤ numRemoteBlocks then
      let remoteBlockIds :=
        if numLocalBlocks < numRemoteBlocks then
          m.remoteBlockIds.drop (numRemoteBlocks - numLocalBlocks)
        else m.remoteBlockIds
      let pull := fun modelId => ⟨remoteClusterId, modelId, remoteBlockIds, m.localBlockIds⟩
      let pulls := if self.useMla then [pull (some 0), pull (some 1)] else [pull none]
      some ({ self with finishedReqs := insert requestId self.finishedReqs }, pulls)
    else none

end VllmAscend
