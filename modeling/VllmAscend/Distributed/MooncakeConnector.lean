import VllmAscend.Distributed.RemoteLoads

/-!
# Distributed/MooncakeConnector — the scheduler side of the Mooncake connector

    get_num_new_matched_tokens ──▸ update_state_after_alloc ──▸ build_connector_meta
      do_remote_prefill ?            _reqs_need_recv[id] := …       one ReqMeta for each entry

Whether the tokens of a request are loaded asynchronously is read off `do_remote_prefill` alone;
whether the load is registered, off the other keys of the same dictionary.
-/

namespace VllmAscend

namespace Mooncake

/-- What the worker needs to load the blocks of a request. -/
structure ReqMeta where
  localBlockIds : List BlockId
  remoteBlockIds : List BlockId
  remoteHost : String
  remotePort : ℕ
  remoteEngineId : String
  deriving DecidableEq, Repr

/-- The entry `add_new_req` makes. -/
def reqMeta (localBlockIds : List BlockId) (p : KVTransferParams) : Option ReqMeta :=
  match p.remoteBlockIds, p.remoteEngineId, p.remoteHost, p.remotePort with
  | some remoteBlockIds, some remoteEngineId, some remoteHost, some remotePort =>
    some ⟨localBlockIds, remoteBlockIds, remoteHost, remotePort, remoteEngineId⟩
  | _, _, _, _ => none

end Mooncake

structure MooncakeConnectorMetadata where
  requests : Dict Mooncake.ReqMeta

/-- What changes of a `MooncakeConnectorScheduler`. -/
abbrev MooncakeConnectorScheduler := PendingLoads

namespace MooncakeConnectorScheduler

/-- `get_num_new_matched_tokens`: all prompt tokens but one, if the prompt is prefilled remotely. -/
def getNumNewMatchedTokens (self : MooncakeConnectorScheduler) (r : Request)
    (numComputedTokens : ℕ) : Option (MooncakeConnectorScheduler × ℕ × Bool) :=
  if doRemotePrefill r.kvTransferParams then
    if numComputedTokens = 0 then
      let count := r.promptTokenIds.length - 1
      if 0 < count then some (self, count, true) else some (self, 0, false)
    else none
  else some (self, 0, false)

/-- `update_state_after_alloc`. -/
def updateStateAfterAlloc (self : MooncakeConnectorScheduler) (id : ReqId) (r : Request)
    (blocks : KVCacheBlocks) (numExternalTokens : ℕ) :
    Option (MooncakeConnectorScheduler × Option KVTransferParams) :=
  self.register KVTransferParams.namesRemote id r
    (if 0 < numExternalTokens then blocks.getUnhashedBlockIds else []) numExternalTokens

/-- `build_connector_meta`. -/
def buildConnectorMeta (self : MooncakeConnectorScheduler) :
    Option (MooncakeConnectorScheduler × MooncakeConnectorMetadata) :=
  (self.build Mooncake.reqMeta).map fun built => (built.1, ⟨built.2⟩)

/-- **Tokens are loaded asynchronously only for a remote prefill**, and then there are some. -/
theorem getNumNewMatchedTokens_eq_some {conn conn' : MooncakeConnectorScheduler} {r : Request}
    {n m : ℕ} {async : Bool} (h : conn.getNumNewMatchedTokens r m = some (conn', n, async)) :
    conn' = conn ∧ (async = true → doRemotePrefill r.kvTransferParams = true ∧ 0 < n) := by
  simp only [getNumNewMatchedTokens] at h
  split at h
  · next hremote =>
    split at h
    · split at h
      · next hcount =>
        cases h
        exact ⟨rfl, fun _ => ⟨hremote, hcount⟩⟩
      · cases h
        exact ⟨rfl, fun hasync => nomatch hasync⟩
    · contradiction
  · cases h
    exact ⟨rfl, fun hasync => nomatch hasync⟩

/-- The metadata has one entry for each registered load, and none is left. -/
theorem buildConnectorMeta_eq_some {conn conn' : MooncakeConnectorScheduler}
    {m : MooncakeConnectorMetadata} (h : conn.buildConnectorMeta = some (conn', m)) :
    conn'.reqsNeedRecv = ∅ ∧ ∀ id, id ∈ m.requests ↔ id ∈ conn.reqsNeedRecv := by
  rw [buildConnectorMeta, Option.map_eq_some_iff] at h
  obtain ⟨built, hbuilt, heq⟩ := h
  cases heq
  obtain ⟨hempty, hkeys, _⟩ := PendingLoads.build_eq_some hbuilt
  exact ⟨hempty, hkeys⟩

end MooncakeConnectorScheduler

/-- The connector, in the scheduler. -/
def mooncakeConnector : KVConnector MooncakeConnectorScheduler MooncakeConnectorMetadata where
  getNumNewMatchedTokens conn _ r numComputedTokens :=
    MooncakeConnectorScheduler.getNumNewMatchedTokens conn r numComputedTokens
  updateStateAfterAlloc conn id r blocks numExternalTokens :=
    MooncakeConnectorScheduler.updateStateAfterAlloc conn id r blocks numExternalTokens
  buildConnectorMeta conn _ := MooncakeConnectorScheduler.buildConnectorMeta conn

end VllmAscend
