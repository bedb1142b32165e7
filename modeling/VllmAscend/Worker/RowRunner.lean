import VllmAscend.Attention.ReorderBatch
import VllmAscend.Worker.UpdateStates

/-!
# Worker/RowRunner — an `NPUModelRunner` with the rows of its batch

    ──_update_states──▸ ──reorder_batch──▸ model, sampler ──▸ cache the sampled tokens ──▸

The same runner as before, over the persistent batch itself: where `NPUModelRunner` keeps four
fields of a row by request id, `RowRunner` has the arrays, and the rows the requests are in.
-/

namespace VllmAscend

open Machinery

/-- What `execute_model` raises, by itself or out of the batch. -/
inductive RunnerFault where
  | worker (fault : WorkerFault)
  | batch (fault : BatchFault)
  deriving DecidableEq, Repr

/-- vLLM's `SchedulerOutput`, with the parameters that come with its new requests. -/
structure BatchOutput (M : Type) extends SchedulerOutput M where
  samplingParams : ReqId → Option SamplingParams
  poolingParams : ReqId → Option PoolingParams

/-- `scheduled_spec_decode_tokens.get(id, ())`. -/
def SchedulerOutput.specTokenIds {M : Type} (out : SchedulerOutput M) (id : ReqId) : List Token :=
  (out.scheduledSpecDecodeTokens.lookup id).getD []

/-- An order in which Python walks through a set. -/
structure SetOrder where
  walk : Finset ReqId → List ReqId
  nodup : ∀ s, (walk s).Nodup
  mem_walk : ∀ {s id}, id ∈ walk s ↔ id ∈ s

/-- The order of the ids. -/
def SetOrder.sorted : SetOrder where
  walk s := s.sort (· ≤ ·)
  nodup s := s.sort_nodup (· ≤ ·)
  mem_walk := Finset.mem_sort _

structure RowRunner (β τ : Type) where
  requests : Dict FullRequestState
  inputBatch : InputBatch β τ
  /-- `get_pp_group().is_last_rank` -/
  isLastRank : Bool
  /-- the last rank sends its logits to the others, and all of them sample -/
  broadcastPpOutput : Bool
  maxModelLen : ℕ
  /-- the attention metadata is built for MLA -/
  useMla : Bool
  /-- the drafts come from an `NgramProposer` -/
  usesNgram : Bool

namespace RowRunner

variable {M β τ : Type} [BatchUpdateBuilder β] [MultiGroupBlockTable τ]

/-! ## `_update_states` -/

/-- The finished requests leave the states and the batch, and those the output does not schedule
leave the batch. -/
def removeRequests (self : RowRunner β τ) (out : SchedulerOutput M) (order : SetOrder) :
    Except BatchFault (RowRunner β τ) := do
  let batch ← (order.walk out.finishedReqIds).foldlM InputBatch.removeRequest self.inputBatch
  let unscheduled := batch.reqIdToIndex.keys.toFinset \ out.numScheduledTokens.keys.toFinset
  let batch ← (order.walk unscheduled).foldlM InputBatch.removeRequest batch
  return { self with
    requests := self.requests.without (· ∈ out.finishedReqIds)
    inputBatch := batch }

/-- `torch.Generator`, of a request that has a seed. -/
def generatorOf (params : SamplingParams) : Option Generator :=
  match params.samplingType with
  | .randomSeed seed => some ⟨seed⟩
  | _ => none

/-- The state of a new request. -/
def newState (out : BatchOutput M) (d : NewRequestData) : FullRequestState where
  toCachedRequestState := NPUModelRunner.newState d
  samplingParams := out.samplingParams d.reqId
  poolingParams := out.poolingParams d.reqId
  generator := (out.samplingParams d.reqId).bind generatorOf

/-- Add a new request to the cached states. -/
def addNewRequest (out : BatchOutput M) (self : RowRunner β τ) (d : NewRequestData) :
    RowRunner β τ :=
  { self with requests := self.requests.insert d.reqId (newState out d) }

/-- Add `spec_token_ids` to the row of a request. -/
def storeSpecTokens (self : InputBatch β τ) (specTokenIds : List Token) (reqIndex : ℕ) :
    InputBatch β τ :=
  if specTokenIds = [] then self
  else
    self.write reqIndex (.tokens (self.numTokensNoSpec reqIndex) specTokenIds
      (self.numTokens reqIndex + specTokenIds.length) (self.numTokensNoSpec reqIndex))

/-- Update the persistent batch for a request that has a row.  Its output tokens are the very list
of the state, and a rank that does not sample has just extended it. -/
def updateRow (isLastRank : Bool) (self : InputBatch β τ) (st : FullRequestState)
    (e : CachedRequestEntry) (specTokenIds : List Token) (reqIndex : ℕ) : InputBatch β τ :=
  let self := self.write reqIndex (.outputTokenIds st.outputTokenIds)
  let self := self.write reqIndex (.numComputedTokens e.numComputedTokens)
  let self := e.newBlockIds.elim self fun newBlockIds => self.write reqIndex (.blocks newBlockIds)
  let endTokenIndex := e.numComputedTokens.toNat + e.newTokenIds.length
  let self :=
    if isLastRank then self
    else
      self.write reqIndex
        (.tokens e.numComputedTokens.toNat e.newTokenIds endTokenIndex endTokenIndex)
  storeSpecTokens self specTokenIds reqIndex

/-- Update the states of a running or resumed request. -/
def updateCachedRequest (out : SchedulerOutput M) (self : RowRunner β τ) (e : CachedRequestEntry) :
    Except RunnerFault (RowRunner β τ) :=
  match self.requests.lookup e.reqId with
  | none => .error (.worker .keyError)
  | some st =>
    match NPUModelRunner.updateState self.isLastRank st.toCachedRequestState e with
    | .error fault => .error (.worker fault)
    | .ok cached =>
      let st := { st with toCachedRequestState := cached }
      .ok { self with
        requests := self.requests.insert e.reqId st
        inputBatch :=
          match self.inputBatch.reqIdToIndex.lookup e.reqId with
          | none => self.inputBatch
          | some reqIndex =>
            updateRow self.isLastRank self.inputBatch st e (out.specTokenIds e.reqId) reqIndex }

/-- The ids that are to be added to the batch: the new ones, and the cached ones that are not in
it. -/
def reqIdsToAdd (self : RowRunner β τ) (out : SchedulerOutput M) : List ReqId :=
  out.newIds ++ out.reqIds.filter (· ∉ self.inputBatch.reqIdToIndex)

/-- Add a new or resumed request to the persistent batch. -/
def addToBatch (requests : Dict FullRequestState) (self : InputBatch β τ) (reqId : ReqId) :
    Except RunnerFault (InputBatch β τ) :=
  match requests.lookup reqId with
  | none => .error (.worker .keyError)
  | some st => (self.addRequest reqId st).mapError .batch

/-- `_update_states`. -/
def updateStates (self : RowRunner β τ) (out : BatchOutput M) (order : SetOrder) :
    Except RunnerFault (RowRunner β τ) := do
  let kept ← (self.removeRequests out.toSchedulerOutput order).mapError .batch
  let updated ← out.scheduledCachedReqs.foldlM (updateCachedRequest out.toSchedulerOutput)
    (out.scheduledNewReqs.foldl (addNewRequest out) kept)
  let added ← (kept.reqIdsToAdd out.toSchedulerOutput).foldlM (addToBatch updated.requests)
    updated.inputBatch
  let condensed ← added.condense.mapError .batch
  let refreshed ← condensed.refreshMetadata.mapError .batch
  return { updated with inputBatch := refreshed }

/-! ## `execute_model` -/

/-- The part of `_prepare_inputs` that changes the batch. -/
def prepareInputs (self : RowRunner β τ) (out : SchedulerOutput M) :
    Except RunnerFault (RowRunner β τ) :=
  if self.inputBatch.numReqs = 0 then .error (.batch .assertion)
  else if self.useMla then do
    let (batch, _) ← (self.inputBatch.reorderBatch out.numScheduledTokens).mapError .batch
    return { self with inputBatch := batch }
  else .ok self

/-- The tokens sampled in a row, but for those of a prefill that is not complete. -/
def validSampled (self : RowRunner β τ) (out : SchedulerOutput M)
    (sampledTokenIds : ReqId → List Token) (reqId : Option ReqId) :
    Except RunnerFault (List Token) :=
  match reqId with
  | none => .error (.worker .keyError)
  | some id =>
    match self.requests.lookup id, out.numScheduledTokens.lookup id with
    | some st, some numTokens =>
      .ok (if st.numComputedTokens + numTokens < st.numTokens then [] else sampledTokenIds id)
    | _, _ => .error (.worker .keyError)

/-- Cache the sampled tokens of a row, which are also those of its request. -/
def appendSampled (self : RowRunner β τ) : List Token × ℕ → Except RunnerFault (RowRunner β τ)
  | (sampledIds, reqIdx) =>
    if sampledIds = [] then .ok self
    else
      let startIdx := self.inputBatch.numTokensNoSpec reqIdx
      let endIdx := startIdx + sampledIds.length
      if endIdx ≤ self.maxModelLen then
        match self.inputBatch.reqIds[reqIdx]?.join with
        | none => .error (.worker .keyError)
        | some reqId =>
          match self.requests.lookup reqId with
          | none => .error (.worker .keyError)
          | some st =>
            let outputTokenIds := st.outputTokenIds ++ sampledIds
            let batch := self.inputBatch.write reqIdx (.tokens startIdx sampledIds endIdx endIdx)
            .ok { self with
              requests := self.requests.insert reqId { st with outputTokenIds := outputTokenIds }
              inputBatch := batch.write reqIdx (.outputTokenIds outputTokenIds) }
      else .error (.worker .maxModelLen)

/-- What `_generate_ngram_token_ids` writes into a row: the sampled tokens once more, behind the
end. -/
def writeNgram (self : InputBatch β τ) : List Token × ℕ → InputBatch β τ
  | (sampledIds, reqIdx) =>
    match self.reqIds[reqIdx]?.join with
    | none => self
    | some reqId =>
      if sampledIds = [] ∨ reqId ∈ self.specDecodeUnsupportedReqs then self
      else
        self.write reqIdx (.tokens (self.numTokensNoSpec reqIdx) sampledIds
          (self.numTokens reqIdx) (self.numTokensNoSpec reqIdx))

/-- The rank samples tokens. -/
def Samples (self : RowRunner β τ) : Prop :=
  self.isLastRank = true ∨ self.broadcastPpOutput = true

instance (self : RowRunner β τ) : Decidable self.Samples := inferInstanceAs (Decidable (_ ∨ _))

/-- The end of `execute_model` on a rank that samples: the runner, and the tokens of each row that
it returns. -/
def cacheSampled (self : RowRunner β τ) (out : SchedulerOutput M)
    (sampledTokenIds : ReqId → List Token) :
    Except RunnerFault (RowRunner β τ × List (List Token)) := do
  let valid ← self.inputBatch.reqIds.mapM (self.validSampled out sampledTokenIds)
  let cached ← valid.zipIdx.foldlM appendSampled self
  let batch :=
    if self.usesNgram then valid.zipIdx.foldl writeNgram cached.inputBatch else cached.inputBatch
  return ({ cached with inputBatch := batch }, valid)

/-- `execute_model` of a model that generates, when it samples the tokens `sampledTokenIds`: the
runner, and the tokens it returns for each request. -/
def executeModel (self : RowRunner β τ) (out : BatchOutput M) (order : SetOrder)
    (sampledTokenIds : ReqId → List Token) :
    Except RunnerFault (RowRunner β τ × (ReqId → List Token)) := do
  let updated ← self.updateStates out order
  if out.totalNumScheduledTokens = 0 then return (updated, fun _ => [])
  else
    let prepared ← updated.prepareInputs out.toSchedulerOutput
    if prepared.Samples then
      let (cached, valid) ← prepared.cacheSampled out.toSchedulerOutput sampledTokenIds
      return (cached, fun id =>
        ((cached.inputBatch.reqIdToIndex.lookup id).bind (valid[·]?)).getD [])
    else return (prepared, fun _ => [])

end RowRunner

end VllmAscend
