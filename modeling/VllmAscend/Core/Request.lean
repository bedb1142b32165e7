import Mathlib
import VllmAscend.Machinery.WhileLoop

/-!
# Core/Request — requests, and what the scheduler hands out about them

A request is named by its `request_id`; the object behind the name is the record `Request`, and
whoever holds the name sees the same record.  Token lists are kept as lists, since the scheduler
trims, appends and counts them; `numTokens` and `numTokensWithSpec` are the lengths the scheduler
reads off.
-/

namespace VllmAscend

/-- `request_id: str`. -/
abbrev ReqId := String

abbrev Token := ℕ

abbrev BlockId := ℕ

/-- A `dict[str, α]`.  Only keys, values and look-ups are ever read, not the order of the keys. -/
abbrev Dict (α : Type) := AList fun _ : ReqId => α

/-- `d.values()`. -/
def Dict.values {α : Type} (d : Dict α) : List α := d.entries.map Sigma.snd

/-- vLLM's `RequestStatus`. -/
inductive RequestStatus where
  | waiting
  | waitingForFsm
  | waitingForRemoteKvs
  | running
  | preempted
  | finishedStopped
  | finishedLengthCapped
  | finishedAborted
  | finishedIgnored
  deriving DecidableEq, Repr

/-- `RequestStatus.is_finished`. -/
def RequestStatus.isFinished : RequestStatus → Bool
  | .finishedStopped | .finishedLengthCapped | .finishedAborted | .finishedIgnored => true
  | _ => false

/-- The statuses the prefill loop has a branch for. -/
def RequestStatus.isSchedulable : RequestStatus → Bool
  | .waiting | .preempted | .waitingForRemoteKvs => true
  | _ => false

structure LoRARequest where
  loraIntId : ℕ
  longLoraMaxLen : Option ℕ
  deriving DecidableEq, Repr

/-- The keys of the `kv_transfer_params` dictionary that the connectors read; `none` is an absent
key. -/
structure KVTransferParams where
  doRemotePrefill : Option Bool
  doRemoteDecode : Option Bool
  remoteBlockIds : Option (List BlockId)
  remoteEngineId : Option String
  remoteHost : Option String
  remotePort : Option ℕ
  /-- sent as a decimal string -/
  remoteTpSize : Option ℕ
  deriving DecidableEq, Repr

/-- The object a request id names. -/
structure Request where
  status : RequestStatus
  promptTokenIds : List Token
  outputTokenIds : List Token
  specTokenIds : List Token
  numComputedTokens : ℤ
  numCachedTokens : ℤ
  loraRequest : Option LoRARequest
  kvTransferParams : Option KVTransferParams
  deriving DecidableEq, Repr

namespace Request

/-- `Request.num_tokens`: the prompt and what was generated so far. -/
def numTokens (r : Request) : ℕ := r.promptTokenIds.length + r.outputTokenIds.length

/-- `Request.num_tokens_with_spec`. -/
def numTokensWithSpec (r : Request) : ℕ := r.numTokens + r.specTokenIds.length

end Request

/-- vLLM's `KVCacheBlock`, the fields that are read. -/
structure KVCacheBlock where
  blockId : BlockId
  refCnt : ℕ
  blockHash : Option ℕ
  deriving DecidableEq, Repr

/-- `KVCacheBlocks.blocks`: one list of blocks for each KV cache group. -/
abbrev KVCacheBlocks := List (List KVCacheBlock)

namespace KVCacheBlocks

/-- `KVCacheBlocks.get_block_ids`. -/
def getBlockIds (b : KVCacheBlocks) : List (List BlockId) := b.map (·.map KVCacheBlock.blockId)

/-- `KVCacheBlocks.__add__`: group by group. -/
def add (b c : KVCacheBlocks) : KVCacheBlocks := List.zipWith (· ++ ·) b c

/-- `blocks[0]`. -/
def firstGroup (b : KVCacheBlocks) : List KVCacheBlock := b.headD []

/-- `KVCacheBlocks.get_unhashed_block_ids`, for the one KV cache group there is. -/
def getUnhashedBlockIds (b : KVCacheBlocks) : List BlockId :=
  (b.firstGroup.filter fun blk => blk.blockHash.isNone).map KVCacheBlock.blockId

end KVCacheBlocks

/-- vLLM's `NewRequestData`, the fields the worker keeps of it. -/
structure NewRequestData where
  reqId : ReqId
  promptTokenIds : List Token
  blockIds : List (List BlockId)
  numComputedTokens : ℤ
  loraRequest : Option LoRARequest
  deriving DecidableEq, Repr

/-- `NewRequestData.from_request(request, block_ids)`. -/
def NewRequestData.fromRequest (id : ReqId) (r : Request) (blockIds : List (List BlockId)) :
    NewRequestData where
  reqId := id
  promptTokenIds := r.promptTokenIds
  blockIds := blockIds
  numComputedTokens := r.numComputedTokens
  loraRequest := r.loraRequest

/-- One entry of vLLM's `CachedRequestData`, whose fields are parallel lists. -/
structure CachedRequestEntry where
  reqId : ReqId
  resumedFromPreemption : Bool
  newTokenIds : List Token
  newBlockIds : Option (List (List BlockId))
  numComputedTokens : ℤ
  deriving DecidableEq, Repr

/-- vLLM's `SchedulerOutput`; `M` is what the connector makes of `kv_connector_metadata`. -/
structure SchedulerOutput (M : Type) where
  scheduledNewReqs : List NewRequestData
  scheduledCachedReqs : List CachedRequestEntry
  numScheduledTokens : Dict ℤ
  totalNumScheduledTokens : ℤ
  scheduledSpecDecodeTokens : Dict (List Token)
  finishedReqIds : Finset ReqId
  kvConnectorMetadata : Option M

namespace SchedulerOutput

variable {M : Type} (out : SchedulerOutput M)

/-- The ids of `scheduled_new_reqs`. -/
def newIds : List ReqId := out.scheduledNewReqs.map NewRequestData.reqId

/-- `scheduled_cached_reqs.req_ids`. -/
def reqIds : List ReqId := out.scheduledCachedReqs.map CachedRequestEntry.reqId

/-- The ids of `scheduled_cached_reqs` that resume from a preemption, or that do not. -/
def cachedIds (resumed : Bool) : List ReqId :=
  (out.scheduledCachedReqs.filter fun entry => entry.resumedFromPreemption = resumed).map
    CachedRequestEntry.reqId

theorem mem_cachedIds {out : SchedulerOutput M} {e : CachedRequestEntry} {resumed : Bool}
    (he : e ∈ out.scheduledCachedReqs) (hresumed : e.resumedFromPreemption = resumed) :
    e.reqId ∈ out.cachedIds resumed :=
  List.mem_map_of_mem (List.mem_filter.mpr ⟨he, by simpa using hresumed⟩)

theorem reqIds_perm : out.reqIds.Perm (out.cachedIds true ++ out.cachedIds false) := by
  rw [cachedIds, cachedIds, ← List.map_append]
  refine List.Perm.map _ (List.Perm.symm ?_)
  simpa using List.filter_append_perm (fun entry => entry.resumedFromPreemption = true)
    out.scheduledCachedReqs

end SchedulerOutput

/-- `len(scheduled_spec_decode_tokens.get(id, []))`. -/
def numSpecTokens (spec : Dict (List Token)) (id : ReqId) : ℕ := ((spec.lookup id).getD []).length

/-- The tokens sampled for each request, and the drafts proposed for its next step if there are
any. -/
structure ModelRunnerOutput where
  sampledTokenIds : ReqId → List Token
  specTokenIds : ReqId → Option (List Token)

end VllmAscend
