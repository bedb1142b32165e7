import VllmAscend.Core.Request

/-!
# Worker/ModelRunner — what an `NPUModelRunner` keeps of the requests

    SchedulerOutput ──_update_states──▸ requests, input_batch
    sampled tokens  ──execute_model───▸ requests, input_batch

The scheduler sends a request once in full and then only what changed, so the worker keeps a state
for each request it was ever sent and was not told is finished.  The persistent batch has a row for
each request of the last output.  Of the rows only what the counts and the block tables need is
kept, not the token ids; the model itself is what samples the tokens.
-/

namespace VllmAscend

/-- What `execute_model` raises. -/
inductive WorkerFault where
  /-- `self.requests[req_id]` on an id that is not there -/
  | keyError
  /-- `new_token_ids[-1]` on an empty list -/
  | indexError
  /-- `assert new_block_ids is not None` -/
  | resumedBlocks
  /-- `assert end_idx <= self.model_config.max_model_len` -/
  | maxModelLen
  deriving DecidableEq, Repr

/-- `CachedRequestState`. -/
structure CachedRequestState where
  promptTokenIds : List Token
  outputTokenIds : List Token
  blockIds : List (List BlockId)
  numComputedTokens : ℤ
  loraRequest : Option LoRARequest
  deriving DecidableEq, Repr

/-- `CachedRequestState.num_tokens`. -/
def CachedRequestState.numTokens (st : CachedRequestState) : ℕ :=
  st.promptTokenIds.length + st.outputTokenIds.length

/-- A row of `InputBatch`. -/
structure InputRow where
  blockIds : List (List BlockId)
  numComputedTokens : ℤ
  numTokensNoSpec : ℤ
  /-- with the drafts -/
  numTokens : ℤ
  deriving DecidableEq, Repr

/-- The blocks of a request with new ones at their ends, group by group; the groups that come later
in the longer list stay as they are. -/
def extendBlockIds (blockIds newBlockIds : List (List BlockId)) : List (List BlockId) :=
  List.zipWith (· ++ ·) blockIds newBlockIds ++ blockIds.drop newBlockIds.length

/-- A dictionary without the keys that satisfy a condition. -/
def Dict.without {α : Type} (d : Dict α) (p : ReqId → Prop) [DecidablePred p] : Dict α :=
  ⟨d.entries.filter fun entry => ¬p entry.1, d.nodupKeys.sublist List.filter_sublist⟩

structure NPUModelRunner where
  requests : Dict CachedRequestState
  /-- by request id, for which `req_id_to_index` has the row -/
  inputBatch : Dict InputRow
  /-- `get_pp_group().is_last_rank` -/
  isLastRank : Bool
  /-- the last rank sends its logits to the others, and all of them sample -/
  broadcastPpOutput : Bool
  maxModelLen : ℕ

namespace NPUModelRunner

variable {M : Type}

/-- The finished requests leave the states and the batch, and those the output does not schedule
leave the batch. -/
def removeRequests (self : NPUModelRunner) (out : SchedulerOutput M) : NPUModelRunner :=
  { self with
    requests := self.requests.without (· ∈ out.finishedReqIds)
    inputBatch := self.inputBatch.without fun id =>
      id ∈ out.finishedReqIds ∨ id ∉ out.numScheduledTokens }

/-- The state of a new request. -/
def newState (d : NewRequestData) : CachedRequestState where
  promptTokenIds := d.promptTokenIds
  outputTokenIds := []
  blockIds := d.blockIds
  numComputedTokens := d.numComputedTokens
  loraRequest := d.loraRequest

/-- Add a new request to the cached states. -/
def addNewRequest (self : NPUModelRunner) (d : NewRequestData) : NPUModelRunner :=
  { self with requests := self.requests.insert d.reqId (newState d) }

/-- The tokens that the scheduler sends back to a worker that does not sample. -/
def receiveTokens (isLastRank : Bool) (st : CachedRequestState) (newTokenIds : List Token) :
    Except WorkerFault CachedRequestState :=
  if isLastRank then .ok st
  else
    let numNewTokens : ℤ := st.numComputedTokens + newTokenIds.length - st.numTokens
    if numNewTokens = 1 then
      match newTokenIds.getLast? with
      | none => .error .indexError
      | some token => .ok { st with outputTokenIds := st.outputTokenIds ++ [token] }
    else if 0 < numNewTokens then
      .ok { st with
        outputTokenIds := st.outputTokenIds ++
          newTokenIds.drop (newTokenIds.length - numNewTokens.toNat) }
    else .ok st

/-- Update the block ids: a running request gets more, a resumed one gets all of them anew. -/
def updateBlockIds (st : CachedRequestState) (e : CachedRequestEntry) :
    Except WorkerFault CachedRequestState :=
  if e.resumedFromPreemption then
    match e.newBlockIds with
    | none => .error .resumedBlocks
    | some newBlockIds => .ok { st with blockIds := newBlockIds }
  else
    match e.newBlockIds with
    | none => .ok st
    | some newBlockIds => .ok { st with blockIds := extendBlockIds st.blockIds newBlockIds }

/-- The state of a running or resumed request. -/
def updateState (isLastRank : Bool) (st : CachedRequestState) (e : CachedRequestEntry) :
    Except WorkerFault CachedRequestState := do
  let st := { st with numComputedTokens := e.numComputedTokens }
  let st ← receiveTokens isLastRank st e.newTokenIds
  updateBlockIds st e

/-- The row of a request that was in the last batch, too. -/
def updateRow (isLastRank : Bool) (row : InputRow) (e : CachedRequestEntry) (numSpecTokens : ℕ) :
    InputRow :=
  let endTokenIndex := e.numComputedTokens + e.newTokenIds.length
  { blockIds :=
      match e.newBlockIds with
      | none => row.blockIds
      | some newBlockIds => extendBlockIds row.blockIds newBlockIds
    numComputedTokens := e.numComputedTokens
    numTokensNoSpec := if isLastRank then row.numTokensNoSpec else endTokenIndex
    numTokens := (if isLastRank then row.numTokens else endTokenIndex) + numSpecTokens }

/-- Update the states of a running or resumed request. -/
def updateCachedRequest (out : SchedulerOutput M) (self : NPUModelRunner) (e : CachedRequestEntry) :
    Except WorkerFault NPUModelRunner :=
  match self.requests.lookup e.reqId with
  | none => .error .keyError
  | some st =>
    match updateState self.isLastRank st e with
    | .error fault => .error fault
    | .ok st =>
      .ok { self with
        requests := self.requests.insert e.reqId st
        inputBatch :=
          match self.inputBatch.lookup e.reqId with
          | none => self.inputBatch
          | some row => self.inputBatch.insert e.reqId (updateRow self.isLastRank row e
              (numSpecTokens out.scheduledSpecDecodeTokens e.reqId)) }

/-- `input_batch.add_request`. -/
def newRow (st : CachedRequestState) : InputRow where
  blockIds := st.blockIds
  numComputedTokens := st.numComputedTokens
  numTokensNoSpec := st.numTokens
  numTokens := st.numTokens

/-- Add a new or resumed request to the persistent batch. -/
def addToBatch (self : NPUModelRunner) (id : ReqId) : NPUModelRunner :=
  match self.requests.lookup id with
  | none => self
  | some st => { self with inputBatch := self.inputBatch.insert id (newRow st) }

/-- The ids that are to be added to the batch: the new ones, and the cached ones that are not in
it. -/
def reqIdsToAdd (self : NPUModelRunner) (out : SchedulerOutput M) : List ReqId :=
  out.newIds ++ out.reqIds.filter (· ∉ self.inputBatch)

/-- `_update_states`. -/
def updateStates (self : NPUModelRunner) (out : SchedulerOutput M) :
    Except WorkerFault NPUModelRunner := do
  let kept := self.removeRequests out
  let updated ← out.scheduledCachedReqs.foldlM (updateCachedRequest out)
    (out.scheduledNewReqs.foldl addNewRequest kept)
  return (kept.reqIdsToAdd out).foldl addToBatch updated

/-- The tokens sampled for a request, but for those of a prefill that is not complete. -/
def validSampledTokenIds (self : NPUModelRunner) (out : SchedulerOutput M)
    (sampledTokenIds : ReqId → List Token) (id : ReqId) : List Token :=
  match self.requests.lookup id with
  | none => sampledTokenIds id
  | some st =>
    let seqLen := st.numComputedTokens + (out.numScheduledTokens.lookup id).getD 0
    if seqLen < st.numTokens then [] else sampledTokenIds id

/-- Cache the sampled tokens of a request. -/
def appendSampled (self : NPUModelRunner) (id : ReqId) (sampled : List Token) :
    Except WorkerFault NPUModelRunner :=
  if sampled = [] then .ok self
  else
    match self.inputBatch.lookup id, self.requests.lookup id with
    | some row, some st =>
      let endIdx := row.numTokensNoSpec + sampled.length
      if endIdx ≤ self.maxModelLen then
        .ok { self with
          inputBatch := self.inputBatch.insert id
            { row with numTokensNoSpec := endIdx, numTokens := endIdx }
          requests := self.requests.insert id
            { st with outputTokenIds := st.outputTokenIds ++ sampled } }
      else .error .maxModelLen
    | _, _ => .error .keyError

/-- The rank samples tokens. -/
def Samples (self : NPUModelRunner) : Prop :=
  self.isLastRank = true ∨ self.broadcastPpOutput = true

instance (self : NPUModelRunner) : Decidable self.Samples := inferInstanceAs (Decidable (_ ∨ _))

/-- `execute_model`, when the model samples the tokens of `res`: a rank that samples caches them and
hands them on, and a rank that does not has only brought its states up to date. -/
def executeModel (self : NPUModelRunner) (out : SchedulerOutput M) (res : ModelRunnerOutput) :
    Except WorkerFault (NPUModelRunner × ModelRunnerOutput) := do
  let updated ← self.updateStates out
  if updated.Samples then
    let valid := updated.validSampledTokenIds out res.sampledTokenIds
    let sampled ← updated.inputBatch.keys.foldlM (fun self id => self.appendSampled id (valid id))
      updated
    return (sampled, { res with sampledTokenIds := valid })
  else return (updated, res)

end NPUModelRunner

end VllmAscend
