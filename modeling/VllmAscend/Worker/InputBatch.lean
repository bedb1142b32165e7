import VllmAscend.Machinery.WhileLoop
import VllmAscend.Worker.ModelRunner

/-!
# Worker/InputBatch — the persistent batch, row by row

    req_id ──req_id_to_index──▸ row ──▸ token_ids_cpu[row], temperature_cpu[row], generators[row], …

The batch keeps what the model is run with in parallel arrays, one row a request, in dictionaries by
row and in sets of ids.  A step removes requests, adds others into the rows that came free, moves
the rest down over the rows that are still free (`condense`), and copies what the sampler reads
(`refreshMetadata`).  `swapStates` exchanges two rows.

A numpy array is a function of the row, and a dictionary keyed by rows a function to `Option`.  Rows
have no end: `max_model_len` bounds what a request is allowed to grow to before it gets here.
-/

namespace VllmAscend

open Machinery

/-! ## Requests as the batch sees them -/

/-- vLLM's `SamplingType`; the parameters are `RANDOM_SEED` when they have a `seed`. -/
inductive SamplingType where
  | greedy
  | random
  | randomSeed (seed : ℤ)
  deriving DecidableEq, Repr

/-- vLLM's `SamplingParams`, the fields that are read. -/
structure SamplingParams where
  samplingType : SamplingType
  temperature : ℚ
  topP : ℚ
  topK : ℤ
  frequencyPenalty : ℚ
  presencePenalty : ℚ
  repetitionPenalty : ℚ
  logprobs : Option ℤ
  promptLogprobs : Option ℤ
  allowedTokenIds : Option (List Token)
  badWordsTokenIds : Option (List (List Token))
  deriving DecidableEq, Repr

/-- vLLM's `PoolingParams`, the field that is read. -/
structure PoolingParams where
  requiresTokenIds : Bool
  deriving DecidableEq, Repr

/-- A `torch.Generator`, by the seed it was made with. -/
structure Generator where
  seed : ℤ
  deriving DecidableEq, Repr

/-- `CachedRequestState`, with the fields that only the batch reads. -/
structure FullRequestState extends CachedRequestState where
  samplingParams : Option SamplingParams
  poolingParams : Option PoolingParams
  generator : Option Generator
  deriving DecidableEq, Repr

/-- What the batch raises. -/
inductive BatchFault where
  /-- an `assert` -/
  | assertion
  /-- `RuntimeError`: a removal after `removed` was read -/
  | removedRead
  | keyError
  | indexError
  /-- a request with neither sampling nor pooling parameters -/
  | notImplemented
  deriving DecidableEq, Repr

/-! ## The parts of vLLM it is built on -/

/-- vLLM's `MoveDirectionality`. -/
inductive MoveDirectionality where
  | unidirectional
  | swap
  deriving DecidableEq, Repr

/-- `AddedRequest`. -/
structure AddedRequest where
  index : ℕ
  params : SamplingParams
  promptTokIds : List Token
  outputTokIds : List Token
  deriving DecidableEq, Repr

/-- `MovedRequest`. -/
structure MovedRequest where
  fromIndex : ℕ
  toIndex : ℕ
  directionality : MoveDirectionality
  deriving DecidableEq, Repr

/-- vLLM's `BatchUpdate`. -/
structure BatchUpdate where
  batchSize : ℕ
  removed : List ℕ
  added : List AddedRequest
  moved : List MovedRequest
  deriving DecidableEq, Repr

/-- vLLM's `BatchUpdateBuilder`, and what its documentation says of it: removals are registered
before they are read, reading gives them in descending order, and the lowest one is what is peeked
at and popped. -/
class BatchUpdateBuilder (β : Type) where
  removedAppend : ℕ → β → Except BatchFault β
  removed : β → List ℕ × β
  peekRemoved : β → Option ℕ × β
  popRemoved : β → Option ℕ × β
  addedAppend : AddedRequest → β → β
  movedAppend : MovedRequest → β → β
  getAndReset : ℕ → β → Option BatchUpdate × β
  /-- the rows that were removed and not popped since -/
  pending : β → Finset ℕ
  /-- nothing has read the removals since the last reset -/
  Unread : β → Prop
  /-- something was removed, added or moved since the last reset -/
  Changed : β → Prop
  removedAppend_spec : ∀ {s i}, Unread s → i ∉ pending s → ∃ s', removedAppend i s = .ok s' ∧
    pending s' = insert i (pending s) ∧ Unread s' ∧ Changed s'
  removed_eq : ∀ s, (removed s).1 = (pending s).sort (· ≥ ·)
  pending_removed : ∀ s, pending (removed s).2 = pending s
  changed_removed : ∀ s, Changed (removed s).2 ↔ Changed s
  peekRemoved_eq : ∀ {s i}, IsLeast (pending s : Set ℕ) i → (peekRemoved s).1 = some i
  pending_peekRemoved : ∀ s, pending (peekRemoved s).2 = pending s
  changed_peekRemoved : ∀ s, Changed (peekRemoved s).2 ↔ Changed s
  popRemoved_none : ∀ {s}, pending s = ∅ → (popRemoved s).1 = none ∧ pending (popRemoved s).2 = ∅
  popRemoved_some : ∀ {s i}, IsLeast (pending s : Set ℕ) i →
    (popRemoved s).1 = some i ∧ pending (popRemoved s).2 = (pending s).erase i
  pending_addedAppend : ∀ a s, pending (addedAppend a s) = pending s
  changed_addedAppend : ∀ a s, Changed (addedAppend a s)
  pending_movedAppend : ∀ m s, pending (movedAppend m s) = pending s
  unread_movedAppend : ∀ {m s}, Unread s → Unread (movedAppend m s)
  changed_movedAppend : ∀ m s, Changed (movedAppend m s)
  isSome_getAndReset : ∀ n s, (getAndReset n s).1.isSome ↔ Changed s
  pending_getAndReset : ∀ n s, pending (getAndReset n s).2 = ∅
  unread_getAndReset : ∀ n s, Unread (getAndReset n s).2
  not_changed_getAndReset : ∀ n s, ¬Changed (getAndReset n s).2

/-- vLLM's `MultiGroupBlockTable`, by what is in its rows: the blocks of each group. -/
class MultiGroupBlockTable (τ : Type) where
  addRow : List (List BlockId) → ℕ → τ → τ
  appendRow : List (List BlockId) → ℕ → τ → τ
  moveRow : ℕ → ℕ → τ → τ
  swapRow : ℕ → ℕ → τ → τ
  row : τ → ℕ → List (List BlockId)
  row_addRow : ∀ b i t j, row (addRow b i t) j = if j = i then b else row t j
  row_appendRow : ∀ {b i t}, b.length = (row t i).length →
    ∀ j, row (appendRow b i t) j = if j = i then List.zipWith (· ++ ·) (row t i) b else row t j
  row_moveRow : ∀ {i j t k}, k ≠ i → row (moveRow i j t) k = if k = j then row t i else row t k
  row_swapRow : ∀ i j t k,
    row (swapRow i j t) k = if k = i then row t j else if k = j then row t i else row t k

/-- vLLM's `LogprobsTensors`, row by row; `none` is a row of `torch.empty` that was not written. -/
abbrev LogprobsTensors := List (Option (List Token × List ℚ × ℕ))

/-- vLLM's `SamplingMetadata`, the parts that are copies.  The generators, the output tokens and the
bad words are the batch's own objects. -/
structure SamplingMetadata where
  temperature : Option (List ℚ)
  allGreedy : Bool
  allRandom : Bool
  topP : Option (List ℚ)
  topK : Option (List ℤ)
  maxNumLogprobs : Option ℤ
  promptTokenIds : Option (List (List Token))
  frequencyPenalties : List ℚ
  presencePenalties : List ℚ
  repetitionPenalties : List ℚ
  noPenalties : Bool
  allowedTokenIdsMask : Option (List (Token → Bool))

/-! ## The batch -/

/-- What never changes about a batch. -/
structure BatchConfig where
  isPoolingModel : Bool
  isSpecDecode : Bool
  maxNumReqs : ℕ
  vocabSize : ℕ
  /-- what storing a number in a float32 array rounds it to -/
  float32 : ℚ → ℚ
  /-- vLLM's `is_spec_decode_unsupported` -/
  isSpecDecodeUnsupported : SamplingParams → Bool

structure InputBatch (β τ : Type) extends BatchConfig where
  /-- `_req_ids` -/
  reqIds : List (Option ReqId)
  reqIdToIndex : Dict ℕ
  tokenIdsCpu : ℕ → ℕ → Token
  numTokens : ℕ → ℕ
  numTokensNoSpec : ℕ → ℕ
  numPromptTokens : ℕ → ℕ
  numComputedTokensCpu : ℕ → ℤ
  blockTable : τ
  temperature : ℕ → ℚ
  temperatureCpu : ℕ → ℚ
  greedyReqs : Finset ReqId
  randomReqs : Finset ReqId
  topP : ℕ → ℚ
  topPCpu : ℕ → ℚ
  topPReqs : Finset ReqId
  topK : ℕ → ℤ
  topKCpu : ℕ → ℤ
  topKReqs : Finset ReqId
  specDecodeUnsupportedReqs : Finset ReqId
  frequencyPenalties : ℕ → ℚ
  frequencyPenaltiesCpu : ℕ → ℚ
  frequencyPenaltiesReqs : Finset ReqId
  presencePenalties : ℕ → ℚ
  presencePenaltiesCpu : ℕ → ℚ
  presencePenaltiesReqs : Finset ReqId
  repetitionPenalties : ℕ → ℚ
  repetitionPenaltiesCpu : ℕ → ℚ
  repetitionPenaltiesReqs : Finset ReqId
  requestLoraMapping : ℕ → ℕ
  loraIdToRequestIds : ℕ → Option (Finset ReqId)
  loraIdToLoraRequest : ℕ → Option LoRARequest
  generators : ℕ → Option Generator
  numLogprobs : Dict ℤ
  numPromptLogprobs : Dict ℤ
  inProgressPromptLogprobsCpu : Dict LogprobsTensors
  batchUpdateBuilder : β
  hasAllowedTokenIds : Finset ReqId
  allowedTokenIdsMask : Option (ℕ → Token → Bool)
  allowedTokenIdsMaskCpuTensor : Option (ℕ → Token → Bool)
  badWordsTokenIds : ℕ → Option (List (List Token))
  logitsProcessingNeedsTokenIds : ℕ → Bool
  reqOutputTokenIds : List (Option (List Token))
  samplingMetadata : SamplingMetadata
  poolingParams : Dict PoolingParams

/-- What the model runner writes into a row of a request that is in the batch. -/
inductive RowWrite where
  | numComputedTokens (n : ℤ)
  /-- `block_table.append_row` -/
  | blocks (newBlockIds : List (List BlockId))
  /-- a slice of `token_ids_cpu`, and the counts that go with it -/
  | tokens (start : ℕ) (values : List Token) (numTokens numTokensNoSpec : ℕ)
  /-- the output tokens are the request's own list, which the runner extends -/
  | outputTokenIds (outputTokenIds : List Token)
  deriving DecidableEq, Repr

/-- `row[start : start + len(values)] = values`. -/
def writeSlice (row : ℕ → Token) (start : ℕ) (values : List Token) : ℕ → Token := fun j =>
  if start ≤ j then (values[j - start]?).getD (row j) else row j

/-- `a[i], a[j] = a[j], a[i]` on a numpy array; on a dictionary, vLLM's `swap_dict_values`. -/
def swapRows {α : Type} (a : ℕ → α) (i j : ℕ) : ℕ → α :=
  Function.update (Function.update a i (a j)) j (a i)

/-- `t[i], t[j] = t[j], t[i]` on a tensor, whose rows on the right are views: the second assignment
reads what the first has written. -/
def swapViews {α : Type} (t : ℕ → α) (i j : ℕ) : ℕ → α :=
  let t := Function.update t i (t j)
  Function.update t j (t i)

/-- `l[i], l[j] = l[j], l[i]`. -/
def swapItems {α : Type} (l : List α) (i j : ℕ) : List α :=
  match l[i]?, l[j]? with
  | some x, some y => (l.set i y).set j x
  | _, _ => l

/-- `a[target] = a[source]`. -/
def copyRow {α : Type} (a : ℕ → α) (source target : ℕ) : ℕ → α :=
  Function.update a target (a source)

/-- `v = d.pop(source, None)`, and `d[target] = v` if there was one. -/
def moveEntry {α : Type} (d : ℕ → Option α) (source target : ℕ) : ℕ → Option α :=
  let popped := Function.update d source none
  match d source with
  | none => popped
  | some v => Function.update popped target (some v)

/-- `if c: s.add(id)`. -/
def addIf (c : Prop) [Decidable c] (id : ReqId) (s : Finset ReqId) : Finset ReqId :=
  if c then insert id s else s

namespace InputBatch

open BatchUpdateBuilder MultiGroupBlockTable

variable {β τ : Type}

section Properties

variable (self : InputBatch β τ)

def numReqs : ℕ := self.reqIdToIndex.keys.length

def allGreedy : Prop := self.randomReqs = ∅

def allRandom : Prop := self.greedyReqs = ∅

def noTopP : Prop := self.topPReqs = ∅

def noTopK : Prop := self.topKReqs = ∅

def noPenalties : Prop :=
  self.presencePenaltiesReqs = ∅ ∧ self.frequencyPenaltiesReqs = ∅ ∧
    self.repetitionPenaltiesReqs = ∅

def noAllowedTokenIds : Prop := self.hasAllowedTokenIds = ∅

def maxNumLogprobs : Option ℤ := self.numLogprobs.values.max?

instance : Decidable self.allGreedy := inferInstanceAs (Decidable (_ = _))
instance : Decidable self.allRandom := inferInstanceAs (Decidable (_ = _))
instance : Decidable self.noTopP := inferInstanceAs (Decidable (_ = _))
instance : Decidable self.noTopK := inferInstanceAs (Decidable (_ = _))
instance : Decidable self.noPenalties := inferInstanceAs (Decidable (_ ∧ _))
instance : Decidable self.noAllowedTokenIds := inferInstanceAs (Decidable (_ = _))

end Properties

/-! ## `add_request` -/

section Add

/-- `_register_add_request`: the row is the lowest that came free, or the next one. -/
def registerAddRequest [BatchUpdateBuilder β] (self : InputBatch β τ) (request : FullRequestState) :
    Except BatchFault (InputBatch β τ × ℕ) :=
  match request.samplingParams with
  | none => .error .assertion
  | some params =>
    let (popped, builder) := popRemoved self.batchUpdateBuilder
    let newReqIndex := popped.getD self.numReqs
    if newReqIndex < self.maxNumReqs then
      let added := ⟨newReqIndex, params, request.promptTokenIds, request.outputTokenIds⟩
      .ok ({ self with batchUpdateBuilder := addedAppend added builder }, newReqIndex)
    else .error .assertion

/-- The id and the output tokens take their place in the lists. -/
def placeRequest (self : InputBatch β τ) (reqId : ReqId) (request : FullRequestState)
    (reqIndex : ℕ) : InputBatch β τ :=
  { self with
    reqIds :=
      if reqIndex = self.reqIds.length then self.reqIds ++ [some reqId]
      else self.reqIds.set reqIndex (some reqId)
    reqOutputTokenIds :=
      if reqIndex = self.reqIds.length then
        self.reqOutputTokenIds ++ [some request.outputTokenIds]
      else self.reqOutputTokenIds.set reqIndex (some request.outputTokenIds)
    reqIdToIndex := self.reqIdToIndex.insert reqId reqIndex }

/-- Copy the prompt token ids and output token ids. -/
def storeTokens [MultiGroupBlockTable τ] (self : InputBatch β τ) (request : FullRequestState)
    (reqIndex : ℕ) : InputBatch β τ :=
  let numPromptTokens := request.promptTokenIds.length
  let row := writeSlice (self.tokenIdsCpu reqIndex) 0 request.promptTokenIds
  let row := writeSlice row numPromptTokens request.outputTokenIds
  { self with
    numPromptTokens := Function.update self.numPromptTokens reqIndex numPromptTokens
    tokenIdsCpu := Function.update self.tokenIdsCpu reqIndex row
    numTokens := Function.update self.numTokens reqIndex request.numTokens
    numTokensNoSpec := Function.update self.numTokensNoSpec reqIndex request.numTokens
    numComputedTokensCpu :=
      Function.update self.numComputedTokensCpu reqIndex request.numComputedTokens
    blockTable := addRow request.blockIds reqIndex self.blockTable }

/-- What is stored for `sampling_params.top_k`. -/
def effectiveTopK (vocabSize : ℕ) (params : SamplingParams) : ℤ :=
  if 0 < params.topK ∧ params.topK < vocabSize then params.topK else vocabSize

/-- What is stored for `sampling_params.temperature`: a greedy request gets -1, to avoid a later
division by zero. -/
def effectiveTemperature (float32 : ℚ → ℚ) (params : SamplingParams) : ℚ :=
  if params.samplingType = .greedy then -1 else float32 params.temperature

/-- The mask with the row of a restricted request written: `False` means that the token is allowed.
It is allocated, all `False`, when the first restricted request comes. -/
def maskWith (mask : Option (ℕ → Token → Bool)) (allowedTokenIds : List Token) (reqIndex : ℕ) :
    Option (ℕ → Token → Bool) :=
  if allowedTokenIds = [] then mask
  else
    some (Function.update (mask.getD fun _ _ => false) reqIndex
      fun t => decide (t ∉ allowedTokenIds))

/-- The branch of `add_request` for `request.sampling_params`. -/
def storeSamplingParams (self : InputBatch β τ) (reqId : ReqId) (params : SamplingParams)
    (generator : Option Generator) (reqIndex : ℕ) : InputBatch β τ :=
  let allowedTokenIds := params.allowedTokenIds.getD []
  { self with
    specDecodeUnsupportedReqs :=
      addIf (self.isSpecDecode ∧ self.isSpecDecodeUnsupported params) reqId
        self.specDecodeUnsupportedReqs
    temperatureCpu :=
      Function.update self.temperatureCpu reqIndex (effectiveTemperature self.float32 params)
    greedyReqs := addIf (params.samplingType = SamplingType.greedy) reqId self.greedyReqs
    randomReqs := addIf (params.samplingType ≠ SamplingType.greedy) reqId self.randomReqs
    topPCpu := Function.update self.topPCpu reqIndex (self.float32 params.topP)
    topPReqs := addIf (params.topP < 1) reqId self.topPReqs
    topKReqs := addIf (0 < params.topK ∧ params.topK < self.vocabSize) reqId self.topKReqs
    topKCpu := Function.update self.topKCpu reqIndex (effectiveTopK self.vocabSize params)
    frequencyPenaltiesCpu :=
      Function.update self.frequencyPenaltiesCpu reqIndex (self.float32 params.frequencyPenalty)
    frequencyPenaltiesReqs := addIf (params.frequencyPenalty ≠ 0) reqId self.frequencyPenaltiesReqs
    presencePenaltiesCpu :=
      Function.update self.presencePenaltiesCpu reqIndex (self.float32 params.presencePenalty)
    presencePenaltiesReqs := addIf (params.presencePenalty ≠ 0) reqId self.presencePenaltiesReqs
    repetitionPenaltiesCpu :=
      Function.update self.repetitionPenaltiesCpu reqIndex (self.float32 params.repetitionPenalty)
    repetitionPenaltiesReqs :=
      addIf (params.repetitionPenalty ≠ 1) reqId self.repetitionPenaltiesReqs
    generators :=
      match generator with
      | none => self.generators
      | some g => Function.update self.generators reqIndex (some g)
    numLogprobs :=
      match params.logprobs with
      | none => self.numLogprobs
      | some n => self.numLogprobs.insert reqId (if n = -1 then self.vocabSize else n)
    numPromptLogprobs :=
      match params.promptLogprobs with
      | none => self.numPromptLogprobs
      | some n => self.numPromptLogprobs.insert reqId n
    hasAllowedTokenIds := addIf (allowedTokenIds ≠ []) reqId self.hasAllowedTokenIds
    -- the tensor on the device is allocated along with the one on the host
    allowedTokenIdsMask :=
      if allowedTokenIds ≠ [] ∧ self.allowedTokenIdsMaskCpuTensor = none then
        some fun _ _ => false
      else self.allowedTokenIdsMask
    allowedTokenIdsMaskCpuTensor :=
      maskWith self.allowedTokenIdsMaskCpuTensor allowedTokenIds reqIndex
    badWordsTokenIds :=
      match params.badWordsTokenIds with
      | none | some [] => self.badWordsTokenIds
      | some words => Function.update self.badWordsTokenIds reqIndex (some words) }

/-- The branch of `add_request` for `request.pooling_params`. -/
def storePoolingParams (self : InputBatch β τ) (reqId : ReqId) (params : PoolingParams)
    (reqIndex : ℕ) : InputBatch β τ :=
  { self with
    poolingParams := self.poolingParams.insert reqId params
    logitsProcessingNeedsTokenIds :=
      Function.update self.logitsProcessingNeedsTokenIds reqIndex params.requiresTokenIds }

/-- The branches of `add_request` for the parameters; the mask row is written at the token ids. -/
def storeParams (self : InputBatch β τ) (reqId : ReqId) (request : FullRequestState)
    (reqIndex : ℕ) : Except BatchFault (InputBatch β τ) :=
  match request.samplingParams, request.poolingParams with
  | some params, _ =>
    if ∃ t ∈ params.allowedTokenIds.getD [], self.vocabSize ≤ t then .error .indexError
    else .ok (self.storeSamplingParams reqId params request.generator reqIndex)
  | none, some params => .ok (self.storePoolingParams reqId params reqIndex)
  | none, none => .error .notImplemented

/-- Add request lora ID. -/
def storeLora (self : InputBatch β τ) (reqId : ReqId) (loraRequest : Option LoRARequest)
    (reqIndex : ℕ) : InputBatch β τ :=
  { self with
    requestLoraMapping :=
      Function.update self.requestLoraMapping reqIndex (loraRequest.elim 0 LoRARequest.loraIntId)
    loraIdToRequestIds :=
      match loraRequest with
      | none => self.loraIdToRequestIds
      | some lora => Function.update self.loraIdToRequestIds lora.loraIntId
          (some (insert reqId ((self.loraIdToRequestIds lora.loraIntId).getD ∅)))
    loraIdToLoraRequest :=
      match loraRequest with
      | none => self.loraIdToLoraRequest
      | some lora => Function.update self.loraIdToLoraRequest lora.loraIntId (some lora) }

/-- `add_request`; it also returns the row, which no caller reads. -/
def addRequest [BatchUpdateBuilder β] [MultiGroupBlockTable τ] (self : InputBatch β τ)
    (reqId : ReqId) (request : FullRequestState) : Except BatchFault (InputBatch β τ) := do
  let (self, reqIndex) ←
    if self.isPoolingModel then .ok (self, self.numReqs) else self.registerAddRequest request
  if self.reqIds.length < reqIndex then .error .indexError
  else
    let self := (self.placeRequest reqId request reqIndex).storeTokens request reqIndex
    let self ← self.storeParams reqId request reqIndex
    return self.storeLora reqId request.loraRequest reqIndex

end Add

/-! ## `remove_request`, `swap_states` -/

section RemoveSwap

/-- The LoRA part of `remove_request`. -/
def releaseLora (self : InputBatch β τ) (reqId : ReqId) (reqIndex : ℕ) :
    Except BatchFault (InputBatch β τ) :=
  let loraId := self.requestLoraMapping reqIndex
  if loraId = 0 then .ok self
  else
    match self.loraIdToRequestIds loraId with
    | none => .error .keyError
    | some reqIds =>
      let last := reqIds.erase reqId = ∅
      if last ∧ self.loraIdToLoraRequest loraId = none then .error .keyError
      else
        .ok { self with
          loraIdToRequestIds := Function.update self.loraIdToRequestIds loraId
            (if last then none else some (reqIds.erase reqId))
          loraIdToLoraRequest :=
            if last then Function.update self.loraIdToLoraRequest loraId none
            else self.loraIdToLoraRequest
          requestLoraMapping := Function.update self.requestLoraMapping reqIndex 0 }

/-- What `remove_request` drops of a request before the LoRA part. -/
def dropRequest (self : InputBatch β τ) (reqId : ReqId) (reqIndex : ℕ) : InputBatch β τ :=
  { self with
    reqIdToIndex := self.reqIdToIndex.erase reqId
    reqIds := self.reqIds.set reqIndex none
    reqOutputTokenIds := self.reqOutputTokenIds.set reqIndex none
    greedyReqs := self.greedyReqs.erase reqId
    randomReqs := self.randomReqs.erase reqId
    topPReqs := self.topPReqs.erase reqId
    topKReqs := self.topKReqs.erase reqId
    specDecodeUnsupportedReqs := self.specDecodeUnsupportedReqs.erase reqId
    frequencyPenaltiesReqs := self.frequencyPenaltiesReqs.erase reqId
    presencePenaltiesReqs := self.presencePenaltiesReqs.erase reqId
    repetitionPenaltiesReqs := self.repetitionPenaltiesReqs.erase reqId
    generators := Function.update self.generators reqIndex none
    numLogprobs := self.numLogprobs.erase reqId
    numPromptLogprobs := self.numPromptLogprobs.erase reqId
    inProgressPromptLogprobsCpu := self.inProgressPromptLogprobsCpu.erase reqId }

/-- …and after it. -/
def dropMask (self : InputBatch β τ) (reqId : ReqId) (reqIndex : ℕ) : InputBatch β τ :=
  { self with
    hasAllowedTokenIds := self.hasAllowedTokenIds.erase reqId
    allowedTokenIdsMaskCpuTensor :=
      self.allowedTokenIdsMaskCpuTensor.map fun mask => Function.update mask reqIndex fun _ => false
    badWordsTokenIds := Function.update self.badWordsTokenIds reqIndex none
    poolingParams := self.poolingParams.erase reqId }

/-- `remove_request`, of an id that has a row. -/
def removeRow [BatchUpdateBuilder β] (self : InputBatch β τ) (reqId : ReqId) (reqIndex : ℕ) :
    Except BatchFault (InputBatch β τ) := do
  let batchUpdateBuilder ←
    if self.isPoolingModel then .ok self.batchUpdateBuilder
    else removedAppend reqIndex self.batchUpdateBuilder
  if reqIndex < self.reqIds.length then
    let self := { self with batchUpdateBuilder := batchUpdateBuilder }
    let self ← (self.dropRequest reqId reqIndex).releaseLora reqId reqIndex
    return self.dropMask reqId reqIndex
  else .error .indexError

/-- `remove_request`; an id without a row is left alone. -/
def removeRequest [BatchUpdateBuilder β] (self : InputBatch β τ) (reqId : ReqId) :
    Except BatchFault (InputBatch β τ) :=
  match self.reqIdToIndex.lookup reqId with
  | none => .ok self
  | some reqIndex => self.removeRow reqId reqIndex

/-- What `swap_states` makes of the rows of two requests. -/
def swapped [BatchUpdateBuilder β] [MultiGroupBlockTable τ] (self : InputBatch β τ) (i1 i2 : ℕ)
    (oldIdI1 oldIdI2 : ReqId) : InputBatch β τ :=
  { self with
    batchUpdateBuilder := movedAppend ⟨i1, i2, .swap⟩ self.batchUpdateBuilder
    reqIds := swapItems self.reqIds i1 i2
    reqOutputTokenIds := swapItems self.reqOutputTokenIds i1 i2
    reqIdToIndex := (self.reqIdToIndex.insert oldIdI1 i2).insert oldIdI2 i1
    numTokens := swapRows self.numTokens i1 i2
    numTokensNoSpec := swapRows self.numTokensNoSpec i1 i2
    numPromptTokens := swapRows self.numPromptTokens i1 i2
    numComputedTokensCpu := swapRows self.numComputedTokensCpu i1 i2
    temperatureCpu := swapRows self.temperatureCpu i1 i2
    topPCpu := swapRows self.topPCpu i1 i2
    topKCpu := swapRows self.topKCpu i1 i2
    frequencyPenaltiesCpu := swapRows self.frequencyPenaltiesCpu i1 i2
    presencePenaltiesCpu := swapRows self.presencePenaltiesCpu i1 i2
    repetitionPenaltiesCpu := swapRows self.repetitionPenaltiesCpu i1 i2
    tokenIdsCpu := swapRows self.tokenIdsCpu i1 i2
    generators := swapRows self.generators i1 i2
    badWordsTokenIds := swapRows self.badWordsTokenIds i1 i2
    requestLoraMapping := swapRows self.requestLoraMapping i1 i2
    allowedTokenIdsMaskCpuTensor :=
      self.allowedTokenIdsMaskCpuTensor.map fun mask => swapViews mask i1 i2
    blockTable := swapRow i1 i2 self.blockTable }

/-- `swap_states`. -/
def swapStates [BatchUpdateBuilder β] [MultiGroupBlockTable τ] (self : InputBatch β τ)
    (i1 i2 : ℕ) : Except BatchFault (InputBatch β τ) :=
  match self.reqIds[i1]?, self.reqIds[i2]? with
  | some (some oldIdI1), some (some oldIdI2) => .ok (self.swapped i1 i2 oldIdI1 oldIdI2)
  | some _, some _ => .error .assertion
  | _, _ => .error .indexError

end RemoveSwap

/-! ## `condense` -/

section Condense

/-- `while last_req_index in empty_req_indices: last_req_index -= 1`.  Row 0 ends it, free or not:
a free row 0 is the smallest empty index, and the loop around this one breaks. -/
def largestNonEmpty (emptyReqIndices : List ℕ) : ℕ → ℕ
  | 0 => 0
  | lastReqIndex + 1 =>
    if lastReqIndex + 1 ∈ emptyReqIndices then largestNonEmpty emptyReqIndices lastReqIndex
    else lastReqIndex + 1

/-- Move active request down into empty request index. -/
def moveRequest [BatchUpdateBuilder β] [MultiGroupBlockTable τ] (self : InputBatch β τ)
    (reqId : ReqId) (lastReqIndex emptyIndex : ℕ) : InputBatch β τ :=
  let outputTokenIds := self.reqOutputTokenIds[lastReqIndex]?.join
  let numTokens := self.numTokens lastReqIndex
  { self with
    batchUpdateBuilder := movedAppend ⟨lastReqIndex, emptyIndex, .unidirectional⟩
      (popRemoved self.batchUpdateBuilder).2
    reqIds := (self.reqIds.set emptyIndex (some reqId)).set lastReqIndex none
    reqOutputTokenIds :=
      (self.reqOutputTokenIds.set emptyIndex outputTokenIds).set lastReqIndex none
    reqIdToIndex := self.reqIdToIndex.insert reqId emptyIndex
    -- only the tokens of the request are copied
    tokenIdsCpu := Function.update self.tokenIdsCpu emptyIndex fun j =>
      if j < numTokens then self.tokenIdsCpu lastReqIndex j else self.tokenIdsCpu emptyIndex j
    numTokens := Function.update self.numTokens emptyIndex numTokens
    numTokensNoSpec := copyRow self.numTokensNoSpec lastReqIndex emptyIndex
    numPromptTokens := copyRow self.numPromptTokens lastReqIndex emptyIndex
    numComputedTokensCpu := copyRow self.numComputedTokensCpu lastReqIndex emptyIndex
    blockTable := moveRow lastReqIndex emptyIndex self.blockTable
    temperatureCpu := copyRow self.temperatureCpu lastReqIndex emptyIndex
    topPCpu := copyRow self.topPCpu lastReqIndex emptyIndex
    topKCpu := copyRow self.topKCpu lastReqIndex emptyIndex
    frequencyPenaltiesCpu := copyRow self.frequencyPenaltiesCpu lastReqIndex emptyIndex
    presencePenaltiesCpu := copyRow self.presencePenaltiesCpu lastReqIndex emptyIndex
    repetitionPenaltiesCpu := copyRow self.repetitionPenaltiesCpu lastReqIndex emptyIndex
    generators := moveEntry self.generators lastReqIndex emptyIndex
    requestLoraMapping := copyRow self.requestLoraMapping lastReqIndex emptyIndex
    allowedTokenIdsMaskCpuTensor :=
      self.allowedTokenIdsMaskCpuTensor.map fun mask => copyRow mask lastReqIndex emptyIndex
    badWordsTokenIds := moveEntry self.badWordsTokenIds lastReqIndex emptyIndex }

/-- One round of `while empty_req_indices:`, on the batch and `last_req_index`.  The list is the
builder's own, so each round sees what the rounds before have popped. -/
def condenseRound [BatchUpdateBuilder β] [MultiGroupBlockTable τ] :
    InputBatch β τ × ℕ → Except BatchFault (Pass (InputBatch β τ × ℕ))
  | (self, lastReqIndex) =>
    let (emptyReqIndices, builder) := removed self.batchUpdateBuilder
    let self := { self with batchUpdateBuilder := builder }
    if emptyReqIndices = [] then .ok (.leave (self, lastReqIndex))
    else
      let lastReqIndex := largestNonEmpty emptyReqIndices lastReqIndex
      let (peeked, builder) := peekRemoved self.batchUpdateBuilder
      let self := { self with batchUpdateBuilder := builder }
      match peeked with
      | none => .error .assertion
      | some emptyIndex =>
        if lastReqIndex ≤ emptyIndex then .ok (.leave (self, lastReqIndex))
        else
          match self.reqIds[lastReqIndex]? with
          | none => .error .indexError
          | some none => .error .assertion
          | some (some reqId) =>
            .ok (.again (self.moveRequest reqId lastReqIndex emptyIndex, lastReqIndex - 1))

/-- Trim lists to the batch size. -/
def trim (self : InputBatch β τ) (numReqs : ℕ) : InputBatch β τ :=
  { self with
    reqIds := self.reqIds.take numReqs
    reqOutputTokenIds := self.reqOutputTokenIds.take numReqs }

/-- `condense`: slide non-empty requests down into lower, empty indices.  Every round but the last
pops an index, so there are no more of them than the bound allows. -/
def condense [BatchUpdateBuilder β] [MultiGroupBlockTable τ] (self : InputBatch β τ) :
    Except BatchFault (InputBatch β τ) :=
  let numReqs := self.numReqs
  if self.isPoolingModel then .ok (self.trim numReqs)
  else
    let (emptyReqIndices, builder) := removed self.batchUpdateBuilder
    let self := { self with batchUpdateBuilder := builder }
    if emptyReqIndices = [] then .ok self
    else if numReqs = 0 then .ok { self with reqIds := [], reqOutputTokenIds := [] }
    else do
      let lastReqIndex := numReqs + emptyReqIndices.length - 1
      let (self, _) ← whileLoop BatchFault.assertion condenseRound (emptyReqIndices.length + 1)
        (self, lastReqIndex)
      return self.trim numReqs

end Condense

/-! ## `refresh_metadata` -/

section Refresh

/-- `copy_slice(from, to, length)`: what `to` is afterwards. -/
def copySlice {α : Type} (source target : ℕ → α) (length : ℕ) : ℕ → α := fun i =>
  if i < length then source i else target i

/-- `_make_prompt_token_ids_tensor`: the prompts, padded with `vocab_size`. -/
def makePromptTokenIdsTensor (self : InputBatch β τ) : List (List Token) :=
  let maxPromptLen := ((List.range self.numReqs).map self.numPromptTokens).foldl max 0
  (List.range self.numReqs).map fun i => (List.range maxPromptLen).map fun j =>
    if self.numPromptTokens i ≤ j then self.vocabSize else self.tokenIdsCpu i j

/-- `_make_sampling_metadata`, and the batch with the device tensors it has written. -/
def makeSamplingMetadata (self : InputBatch β τ) :
    Except BatchFault (InputBatch β τ × SamplingMetadata) :=
  let n := self.numReqs
  let rows {α : Type} (a : ℕ → α) : List α := (List.range n).map a
  let copyIf {α : Type} (c : Bool) (source target : ℕ → α) : ℕ → α :=
    if c then copySlice source target n else target
  let penalties : Bool := ¬self.noPenalties
  let device : InputBatch β τ := { self with
    temperature := copyIf (¬self.allGreedy) self.temperatureCpu self.temperature
    topP := copyIf (¬self.noTopP) self.topPCpu self.topP
    topK := copyIf (¬self.noTopK) self.topKCpu self.topK
    frequencyPenalties := copyIf penalties self.frequencyPenaltiesCpu self.frequencyPenalties
    presencePenalties := copyIf penalties self.presencePenaltiesCpu self.presencePenalties
    repetitionPenalties := copyIf penalties self.repetitionPenaltiesCpu self.repetitionPenalties }
  let needsPromptTokenIds : Bool :=
    penalties || (List.range n).any self.logitsProcessingNeedsTokenIds
  let metadata (mask : Option (List (Token → Bool))) : SamplingMetadata :=
    { temperature := if self.allGreedy then none else some (rows device.temperature)
      allGreedy := self.allGreedy
      allRandom := self.allRandom
      topP := if self.noTopP then none else some (rows device.topP)
      topK := if self.noTopK then none else some (rows device.topK)
      maxNumLogprobs := self.maxNumLogprobs
      promptTokenIds :=
        if needsPromptTokenIds then some self.makePromptTokenIdsTensor else none
      frequencyPenalties := rows device.frequencyPenalties
      presencePenalties := rows device.presencePenalties
      repetitionPenalties := rows device.repetitionPenalties
      noPenalties := self.noPenalties
      allowedTokenIdsMask := mask }
  if self.noAllowedTokenIds then .ok (device, metadata none)
  else
    match self.allowedTokenIdsMask, self.allowedTokenIdsMaskCpuTensor with
    | some mask, some cpu =>
      let mask := copySlice cpu mask n
      .ok ({ device with allowedTokenIdsMask := some mask }, metadata (some (rows mask)))
    | _, _ => .error .assertion

/-- `refresh_metadata`.  The logits processors, which are told of the update too, are vLLM's. -/
def refreshMetadata [BatchUpdateBuilder β] (self : InputBatch β τ) :
    Except BatchFault (InputBatch β τ) := do
  if self.isPoolingModel then
    let (self, samplingMetadata) ← self.makeSamplingMetadata
    return { self with samplingMetadata := samplingMetadata }
  else
    let (batchUpdate, builder) := getAndReset self.numReqs self.batchUpdateBuilder
    let self := { self with batchUpdateBuilder := builder }
    match batchUpdate with
    | none => return self
    | some _ =>
      let (self, samplingMetadata) ← self.makeSamplingMetadata
      return { self with samplingMetadata := samplingMetadata }

end Refresh

/-- A write of the model runner. -/
def write [MultiGroupBlockTable τ] (self : InputBatch β τ) (reqIndex : ℕ) :
    RowWrite → InputBatch β τ
  | .numComputedTokens n =>
    { self with numComputedTokensCpu := Function.update self.numComputedTokensCpu reqIndex n }
  | .blocks newBlockIds =>
    { self with blockTable := appendRow newBlockIds reqIndex self.blockTable }
  | .tokens start values numTokens numTokensNoSpec =>
    { self with
      tokenIdsCpu :=
        Function.update self.tokenIdsCpu reqIndex
          (writeSlice (self.tokenIdsCpu reqIndex) start values)
      numTokens := Function.update self.numTokens reqIndex numTokens
      numTokensNoSpec := Function.update self.numTokensNoSpec reqIndex numTokensNoSpec }
  | .outputTokenIds outputTokenIds =>
    { self with reqOutputTokenIds := self.reqOutputTokenIds.set reqIndex (some outputTokenIds) }

end InputBatch

end VllmAscend
