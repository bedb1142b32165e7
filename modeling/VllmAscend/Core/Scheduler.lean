import VllmAscend.Core.Request

/-!
# Core/Scheduler — what an `AscendScheduler` holds and what it calls

    AscendScheduler (fixed at __init__)  ──reads/writes──▸  SchedulerState
          │
          ├─ kvCacheManager : KVCacheManager σ        the KV cache manager, over its own state σ
          ├─ connector      : Option (KVConnector κ M)   the KV connector, over its own state κ
          └─ super          : BaseScheduler σ κ M     vLLM's `Scheduler`, the class it extends

The three are outside this repository, so they are parameters: a KV cache manager may refuse any
allocation, a connector may answer anything.  What they are documented to do is stated where a
result relies on it.
-/

namespace VllmAscend

/-- What a call raises. -/
inductive Fault where
  /-- `assert num_external_computed_tokens > 0` -/
  | externalTokens
  /-- `assert num_new_tokens > 0` -/
  | newTokens
  /-- `assert prompt_limit <= request.lora_request.long_lora_max_len` -/
  | loraMaxLen
  /-- `assert (request.num_tokens - request.num_computed_tokens) == 1` -/
  | decodeReady
  /-- an assertion or a missing key inside the connector -/
  | connector
  /-- `raise RuntimeError(f"Invalid request status: {request.status}")` -/
  | invalidStatus
  /-- `assert total_num_scheduled_tokens <= self.max_num_scheduled_tokens` -/
  | totalScheduled
  /-- `assert token_budget >= 0` -/
  | tokenBudget
  /-- `assert len(self.running) <= self.max_num_running_reqs` -/
  | runningLimit
  /-- `assert len(new) + len(resumed) + len(running) <= len(self.running)` -/
  | scheduledCount
  /-- `self.requests[req_id]` on an id that is not there -/
  | keyError
  /-- `self.running.pop()` on an empty list -/
  | popFromEmpty
  /-- an output that was never issued, or is already processed -/
  | noSuchOutput
  /-- a loop that went round more often than the bound it is given -/
  | outOfRounds
  deriving DecidableEq, Repr

/-- The assertions of the prefill loop, on what the calls it makes hand it. -/
def Fault.isEntry : Fault → Bool
  | .externalTokens | .newTokens | .loraMaxLen | .connector => true
  | _ => false

/-- The mutable attributes of the scheduler.  `obj` is the store of `Request` objects; `requests`
is the key set of the dictionary `self.requests`. -/
structure SchedulerState (σ κ : Type) where
  waiting : List ReqId
  running : List ReqId
  requests : Finset ReqId
  obj : ReqId → Request
  scheduledReqIds : Finset ReqId
  finishedReqIds : Finset ReqId
  kv : σ
  conn : κ

/-- The object `id` names, changed in place. -/
def updateObj (obj : ReqId → Request) (id : ReqId) (f : Request → Request) : ReqId → Request :=
  Function.update obj id (f (obj id))

@[simp] theorem updateObj_self (obj : ReqId → Request) (id : ReqId) (f : Request → Request) :
    updateObj obj id f id = f (obj id) := Function.update_self _ _ _

theorem updateObj_of_ne {obj : ReqId → Request} {id id' : ReqId} {f : Request → Request}
    (h : id' ≠ id) : updateObj obj id f id' = obj id' := Function.update_of_ne h _ _

/-- What no change of the object touches, the update does not touch. -/
theorem updateObj_proj {α : Type} (g : Request → α) (obj : ReqId → Request) (id : ReqId)
    {f : Request → Request} (hf : g (f (obj id)) = g (obj id)) (id' : ReqId) :
    g (updateObj obj id f id') = g (obj id') := by
  by_cases h : id' = id
  · subst h
    rw [updateObj_self, hf]
  · rw [updateObj_of_ne h]

/-- The arguments of `kv_cache_manager.allocate_slots`. -/
structure AllocArgs where
  numNewTokens : ℤ
  numNewComputedTokens : ℕ
  newComputedBlocks : Option KVCacheBlocks
  numLookaheadTokens : ℕ
  delayCacheBlocks : Bool

/-- The methods of vLLM's `KVCacheManager` that are called. -/
structure KVCacheManager (σ : Type) where
  getComputedBlocks : σ → ReqId → Request → σ × KVCacheBlocks × ℕ
  createEmptyBlockList : KVCacheBlocks
  /-- `none`: the blocks the request needs are not free -/
  allocateSlots : σ → ReqId → Request → AllocArgs → σ × Option KVCacheBlocks
  free : σ → ReqId → σ
  getBlockIds : σ → ReqId → List (List BlockId)
  /-- `coordinator.get_blocks`: the blocks of a request, one list for each KV cache group -/
  coordinatorGetBlocks : σ → ReqId → List (List KVCacheBlock)
  /-- `block_pool.get_num_free_blocks` -/
  getNumFreeBlocks : σ → ℕ

/-- The scheduler side of a KV connector; `none` is an exception. -/
structure KVConnector (κ M : Type) where
  getNumNewMatchedTokens : κ → ReqId → Request → ℕ → Option (κ × ℕ × Bool)
  /-- the connector's state and the request's `kv_transfer_params` after the call -/
  updateStateAfterAlloc : κ → ReqId → Request → KVCacheBlocks → ℕ →
    Option (κ × Option KVTransferParams)
  buildConnectorMeta : κ → SchedulerOutput M → Option (κ × M)

/-- `request_ids: Union[str, Iterable[str]]`. -/
inductive RequestIds where
  /-- one id, as a plain string -/
  | str (id : ReqId)
  /-- a list, a tuple, a set: anything that can be gone through again and again -/
  | iterable (ids : List ReqId)
  /-- a generator: what is left of it -/
  | iterator (ids : List ReqId)

/-- vLLM's `Scheduler`, the methods that are called through `super()` or inherited. -/
structure BaseScheduler (σ κ M : Type) where
  schedule : SchedulerState σ κ → Except Fault (SchedulerState σ κ × SchedulerOutput M)
  addRequest : SchedulerState σ κ → ReqId → Request → SchedulerState σ κ
  finishRequests : SchedulerState σ κ → RequestIds → RequestStatus → SchedulerState σ κ
  updateFromOutput : SchedulerState σ κ → SchedulerOutput M → ModelRunnerOutput →
    SchedulerState σ κ
  /-- `_update_waiting_for_remote_kv`: when the blocks have arrived, the `num_computed_tokens` it
  sets -/
  updateWaitingForRemoteKv : σ → ReqId → Request → σ × Option ℤ
  /-- `_make_cached_request_data(running_reqs, resumed_reqs, num_scheduled_tokens,
  spec_decode_tokens, req_to_new_blocks)` -/
  makeCachedRequestData : (ReqId → Request) → List ReqId → List ReqId → Dict ℤ →
    Dict (List Token) → Dict (List (List BlockId)) → List CachedRequestEntry

/-- The fields of `AscendSchedulerConfig` that are read. -/
structure SchedulerConfig where
  chunkedPrefillEnabled : Bool
  isMultiStep : Bool
  maxModelLen : ℕ
  maxNumBatchedTokens : ℕ
  /-- `getattr(self.scheduler_config, "watermark", 0.01)` -/
  watermark : ℚ

/-- What `__init__` fixes. -/
structure AscendScheduler (σ κ M : Type) where
  schedulerConfig : SchedulerConfig
  /-- `lora_config.max_loras` -/
  loraConfig : Option ℕ
  maxNumScheduledTokens : ℕ
  maxNumRunningReqs : ℕ
  maxModelLen : ℕ
  /-- `kv_cache_config.num_blocks` -/
  numBlocks : ℕ
  blockSize : ℕ
  numLookaheadTokens : ℕ
  /-- `vllm_version_is("0.10.1.1")` -/
  vllmVersionIs01011 : Bool
  kvCacheManager : KVCacheManager σ
  connector : Option (KVConnector κ M)
  super : BaseScheduler σ κ M

/-- The local variables of `schedule()`. -/
structure Locals where
  scheduledNewReqs : List ReqId
  scheduledResumedReqs : List ReqId
  scheduledRunningReqs : List ReqId
  preemptedReqs : List ReqId
  /-- `req_to_new_block_ids`, and what `get_block_ids()` reads off `req_to_new_blocks` -/
  reqToNewBlockIds : Dict (List (List BlockId))
  numScheduledTokens : Dict ℤ
  tokenBudget : ℤ
  scheduledSpecDecodeTokens : Dict (List Token)
  scheduledLoras : Finset ℕ
  /-- from left to right -/
  skippedWaitingRequests : List ReqId
  reqIndex : ℕ

/-- `self` and the local variables, inside a call of `schedule()`. -/
structure Frame (σ κ : Type) extends SchedulerState σ κ, Locals

/-- `cdiv(a, b)`, that is `-(a // -b)`. -/
def cdiv (a b : ℤ) : ℤ := -Int.fdiv a (-b)

variable {σ κ M : Type}

namespace AscendScheduler

variable (self : AscendScheduler σ κ M)

/-- `self.lora_config and request.lora_request`, and the adapter would be one too many. -/
def exceedsMaxLoras (scheduledLoras : Finset ℕ) (r : Request) : Bool :=
  match self.loraConfig, r.loraRequest with
  | some maxLoras, some lora =>
    scheduledLoras.card = maxLoras ∧ lora.loraIntId ∉ scheduledLoras
  | _, _ => false

/-- `scheduled_loras.add(request.lora_request.lora_int_id)`, where there is one. -/
def recordLora (scheduledLoras : Finset ℕ) (r : Request) : Finset ℕ :=
  match self.loraConfig, r.loraRequest with
  | some _, some lora => insert lora.loraIntId scheduledLoras
  | _, _ => scheduledLoras

/-- `_get_prompt_limit`. -/
def getPromptLimit (r : Request) : Except Fault ℕ :=
  let c := self.schedulerConfig
  let promptLimit :=
    if c.chunkedPrefillEnabled ∧ ¬c.isMultiStep then c.maxModelLen
    else min c.maxModelLen c.maxNumBatchedTokens
  match r.loraRequest.bind LoRARequest.longLoraMaxLen with
  | none | some 0 => .ok promptLimit
  | some longLoraMaxLen =>
    if promptLimit ≤ longLoraMaxLen then .ok longLoraMaxLen else .error .loraMaxLen

/-- `_check_watermark_for_prefill`. -/
def checkWatermarkForPrefill (kv : σ) (id : ReqId) (r : Request) (numNewTokens : ℤ)
    (computedBlocks : List KVCacheBlock) : Bool :=
  let watermarkBlocks : ℚ := self.numBlocks * self.schedulerConfig.watermark
  let numComputedTokens : ℤ := r.numComputedTokens + computedBlocks.length * self.blockSize
  let numRequiredBlocks := cdiv (numNewTokens + numComputedTokens) self.blockSize
  let reqBlocks := self.kvCacheManager.coordinatorGetBlocks kv id
  let numNewBlocks := numRequiredBlocks - reqBlocks.length - computedBlocks.length
  let numEvictableComputedBlocks := computedBlocks.countP fun blk => blk.refCnt = 0
  let numFreeBlocks := self.kvCacheManager.getNumFreeBlocks kv
  ¬((numFreeBlocks - numEvictableComputedBlocks - numNewBlocks : ℤ) : ℚ) < watermarkBlocks

end AscendScheduler

end VllmAscend
