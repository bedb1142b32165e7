import VllmAscend.Core.Overrides

/-!
# Core/BlockPool — a KV cache manager

    free ──allocate_slots──▸ held[id]        held[id] ──free──▸ free

vLLM's KV cache manager with one KV cache group, on a list of free blocks.  The parameters
`KVCacheManager` and `BaseScheduler` are instantiated with it and with `vllmBase` wherever a
concrete scheduler is run.
-/

namespace VllmAscend

/-- The free blocks, and the blocks each request holds. -/
structure BlockPool where
  freeBlocks : List BlockId
  held : Dict (List BlockId)

namespace BlockPool

def heldBy (p : BlockPool) (id : ReqId) : List BlockId := (p.held.lookup id).getD []

def toBlocks (ids : List BlockId) : List KVCacheBlock := ids.map fun i => ⟨i, 1, none⟩

/-- `free`. -/
def release (p : BlockPool) (id : ReqId) : BlockPool :=
  { freeBlocks := p.freeBlocks ++ p.heldBy id, held := p.held.erase id }

/-- The blocks that hold the first `numTokens` tokens, less those that are there. -/
def numBlocksToAllocate (p : BlockPool) (blockSize : ℕ) (id : ReqId) (numTokens : ℤ)
    (newComputed : List BlockId) : ℕ :=
  (cdiv numTokens blockSize - (p.heldBy id).length - newComputed.length).toNat

/-- `allocate_slots`. -/
def allocate (p : BlockPool) (blockSize maxModelLen : ℕ) (id : ReqId) (r : Request)
    (args : AllocArgs) : BlockPool × Option KVCacheBlocks :=
  let newComputed := ((args.newComputedBlocks.getD []).firstGroup).map KVCacheBlock.blockId
  let numTokensNeedSlot := min (r.numComputedTokens + args.numNewComputedTokens +
    args.numNewTokens + args.numLookaheadTokens) maxModelLen
  let n := p.numBlocksToAllocate blockSize id numTokensNeedSlot newComputed
  if n > p.freeBlocks.length then (p, none)
  else
    let new := p.freeBlocks.take n
    ({ freeBlocks := p.freeBlocks.drop n
       held := p.held.insert id (p.heldBy id ++ newComputed ++ new) },
      some [toBlocks new])

/-- The manager; `prefixCache` is what of a request's prompt the prefix cache has. -/
def manager (blockSize maxModelLen : ℕ) (prefixCache : ReqId → List BlockId) :
    KVCacheManager BlockPool where
  getComputedBlocks p id _ :=
    (p, [toBlocks (prefixCache id)], (prefixCache id).length * blockSize)
  createEmptyBlockList := [[]]
  allocateSlots p id r args := p.allocate blockSize maxModelLen id r args
  free := release
  getBlockIds p id := [p.heldBy id]
  coordinatorGetBlocks p id := [toBlocks (p.heldBy id)]
  getNumFreeBlocks p := p.freeBlocks.length

/-- `num_blocks` blocks, less the null block. -/
def full (numBlocks : ℕ) : BlockPool := ⟨(List.range numBlocks).drop 1, ∅⟩

end BlockPool

/-- The numbers a deployment without LoRA and chunked prefill is configured with. -/
structure Deployment where
  maxModelLen : ℕ
  maxNumBatchedTokens : ℕ
  maxNumSeqs : ℕ
  numBlocks : ℕ
  blockSize : ℕ
  numLookaheadTokens : ℕ
  watermark : ℚ
  vllmVersionIs01011 : Bool
  prefixCache : ReqId → List BlockId

namespace Deployment

variable {κ M : Type}

/-- The scheduler of the deployment, with a connector or without. -/
def schedulerWith (d : Deployment) (connector : Option (KVConnector κ M)) :
    AscendScheduler BlockPool κ M where
  schedulerConfig := ⟨false, false, d.maxModelLen, d.maxNumBatchedTokens, d.watermark⟩
  loraConfig := none
  maxNumScheduledTokens := d.maxNumBatchedTokens
  maxNumRunningReqs := d.maxNumSeqs
  maxModelLen := d.maxModelLen
  numBlocks := d.numBlocks
  blockSize := d.blockSize
  numLookaheadTokens := d.numLookaheadTokens
  vllmVersionIs01011 := d.vllmVersionIs01011
  kvCacheManager := BlockPool.manager d.blockSize d.maxModelLen d.prefixCache
  connector := connector
  super := vllmBase d.maxModelLen BlockPool.release fun p _ _ => (p, none)

/-- …without. -/
def scheduler (d : Deployment) : AscendScheduler BlockPool Unit Unit := d.schedulerWith none

theorem laws (d : Deployment) (connector : Option (KVConnector κ M)) :
    (d.schedulerWith connector).BaseLaws := vllmBase_laws rfl

/-- The scheduler's state at `__init__`. -/
def init (d : Deployment) (conn : κ) : SchedulerState BlockPool κ where
  waiting := []
  running := []
  requests := ∅
  obj := fun _ => ⟨.waiting, [], [], [], 0, -1, none, none⟩
  scheduledReqIds := ∅
  finishedReqIds := ∅
  kv := BlockPool.full d.numBlocks
  conn := conn

end Deployment

/-- A new request with a prompt. -/
def Request.ofPrompt (promptTokenIds : List Token) : Request where
  status := .waiting
  promptTokenIds := promptTokenIds
  outputTokenIds := []
  specTokenIds := []
  numComputedTokens := 0
  numCachedTokens := -1
  loraRequest := none
  kvTransferParams := none

/-- The scheduler's state once requests with some prompts were added. -/
def Deployment.waitingFor (d : Deployment) (prompts : List (ReqId × List Token)) :
    SchedulerState BlockPool Unit :=
  prompts.foldl (fun s p => d.scheduler.super.addRequest s p.1 (.ofPrompt p.2)) (d.init ())

/-- A deployment of nine usable blocks of four tokens, and eight tokens of context. -/
def Deployment.small : Deployment where
  maxModelLen := 8
  maxNumBatchedTokens := 8
  maxNumSeqs := 4
  numBlocks := 10
  blockSize := 4
  numLookaheadTokens := 0
  watermark := 1 / 100
  vllmVersionIs01011 := true
  prefixCache := fun _ => []

end VllmAscend
