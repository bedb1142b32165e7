import VllmAscend.Machinery.Tensor
import VllmAscend.Worker.PersistentBatch

/-!
# Worker/PoolingBatch — the rows of a pooling model

    remove_request   a row becomes None, and nothing remembers which
    add_request      row num_reqs, whatever is there
    condense         cut after num_reqs

`Pools` is what the batch of a pooling model holds of requests in slots; the operations keep it as long as a
request that is added comes to a free slot.  Where the requests fill the first slots (`Filled`) it does, and the
pooler is given the metadata of the requests in their order (`poolingMetadata_eq`).
-/

namespace VllmAscend

open Machinery BatchUpdateBuilder

/-- vLLM's `PoolingMetadata`. -/
structure PoolingMetadata where
  promptLens : List ℕ
  promptTokenIds : Option (List (List Token))
  poolingParams : List PoolingParams
  deriving DecidableEq, Repr

/-- A row, but for what only a sampler reads. -/
def RowData.unsampled (d : RowData) : RowData := { d with sampled := ⟨0, 0, 0, 0, 0, 0⟩ }

theorem RowData.write_unsampled (d : RowData) (w : RowWrite) : (d.write w).unsampled = d.unsampled.write w := by
  cases w <;> rfl

/-- A request in the batch of a pooling model, and what was last written for it. -/
structure PooledRequest where
  reqId : ReqId
  request : FullRequestState
  params : PoolingParams
  data : RowData

/-- What `add_request` is to store for a request of a pooling model. -/
def PooledRequest.new (reqId : ReqId) (r : FullRequestState) (params : PoolingParams) : PooledRequest where
  reqId := reqId
  request := r
  params := params
  data :=
    { tokens := r.promptTokenIds ++ r.outputTokenIds
      numTokens := r.numTokens
      numTokensNoSpec := r.numTokens
      numPromptTokens := r.promptTokenIds.length
      numComputedTokens := r.numComputedTokens
      blocks := r.blockIds
      sampled := ⟨0, 0, 0, 0, 0, 0⟩
      generator := none
      badWords := none
      loraId := r.loraRequest.elim 0 LoRARequest.loraIntId
      outputTokenIds := some r.outputTokenIds }

namespace InputBatch

variable {β τ : Type} [BatchUpdateBuilder β] [MultiGroupBlockTable τ]

/-- `pooling_metadata`. -/
def poolingMetadata (self : InputBatch β τ) : Except BatchFault PoolingMetadata :=
  let metadata (poolingParams : List PoolingParams) : PoolingMetadata :=
    { promptLens := (List.range self.numReqs).map self.numPromptTokens
      promptTokenIds := self.samplingMetadata.promptTokenIds
      poolingParams := poolingParams }
  if self.poolingParams.keys.length = 0 then .ok (metadata [])
  else if self.reqIds.length ≠ self.poolingParams.keys.length then .error .assertion
  else
    match self.reqIds.mapM fun reqId => reqId.bind self.poolingParams.lookup with
    | none => .error .keyError
    | some poolingParams => .ok (metadata poolingParams)

end InputBatch

/-- The metadata that the pooler is to be given. -/
def poolingMetadataOf (vocabSize : ℕ) (rows : List PooledRequest) : PoolingMetadata where
  promptLens := rows.map fun e => e.data.numPromptTokens
  promptTokenIds :=
    if rows.any fun e => e.params.requiresTokenIds then
      some (rows.map fun e => padded vocabSize (rows.map fun e => e.data.numPromptTokens) e)
    else none
  poolingParams := rows.map PooledRequest.params
where
  /-- The prompt of a request, filled up to the longest one. -/
  padded (vocabSize : ℕ) (lengths : List ℕ) (e : PooledRequest) : List Token :=
    (List.range (lengths.foldl max 0)).map fun j =>
      if e.data.numPromptTokens ≤ j then vocabSize else e.data.tokens.getD j vocabSize

/-! ## What the batch holds -/

/-- What never changes about the row of a pooling request. -/
structure PooledRequest.Fixed (e : PooledRequest) : Prop where
  loraId : e.data.loraId = e.request.loraRequest.elim 0 LoRARequest.loraIntId
  positive : ∀ lora ∈ e.request.loraRequest, 0 < lora.loraIntId
  prompt : e.data.numPromptTokens ≤ e.data.numTokens

namespace InputBatch

variable {β τ : Type} {b b' : InputBatch β τ} {slots : List (Option PooledRequest)} {e : PooledRequest} {i : ℕ}

/-- The requests that a list of slots holds, by their id. -/
def Lists (slots : List (Option PooledRequest)) (requests : ReqId → Option FullRequestState) : Prop :=
  ∀ id r, requests id = some r ↔ ∃ (i : ℕ) (e : PooledRequest), slots[i]? = some (some e) ∧
    e.reqId = id ∧ e.request = r

/-- **The batch of a pooling model holds requests in slots.** -/
structure Pools [MultiGroupBlockTable τ] (b : InputBatch β τ) (slots : List (Option PooledRequest)) : Prop where
  pooling : b.isPoolingModel = true
  reqIds : b.reqIds = slots.map (Option.map PooledRequest.reqId)
  index : Indexes (fun id => b.reqIdToIndex.lookup id) b.reqIds
  outputs : b.reqOutputTokenIds.length = b.reqIds.length
  data : ∀ (i : ℕ) (e : PooledRequest), slots[i]? = some (some e) → (b.rowData i).unsampled = e.data
  needs : ∀ (i : ℕ) (e : PooledRequest), slots[i]? = some (some e) → b.logitsProcessingNeedsTokenIds i = e.params.requiresTokenIds
  params : ∀ (i : ℕ) (e : PooledRequest), slots[i]? = some (some e) → b.poolingParams.lookup e.reqId = some e.params
  known : ∀ id, id ∈ b.poolingParams ↔ id ∈ b.reqIdToIndex
  fixed : ∀ (i : ℕ) (e : PooledRequest), slots[i]? = some (some e) → PooledRequest.Fixed e
  members : ∀ s, b.members s = ∅
  generators : ∀ i, b.generators i = none
  badWords : ∀ i, b.badWordsTokenIds i = none
  lora : ∃ requests, Lists slots requests ∧ PersistentBatch.LoraIndexed b requests

namespace Pools

variable [MultiGroupBlockTable τ]

theorem lookup_of (h : b.Pools slots) (he : slots[i]? = some (some e)) :
    b.reqIdToIndex.lookup e.reqId = some i := by
  refine (h.index e.reqId i).mpr ?_
  rw [h.reqIds, List.getElem?_map, he]
  rfl

theorem exists_of_lookup (h : b.Pools slots) {id : ReqId} (hid : b.reqIdToIndex.lookup id = some i) :
    ∃ e, slots[i]? = some (some e) ∧ e.reqId = id := by
  have hids := (h.index id i).mp hid
  rw [h.reqIds, List.getElem?_map] at hids
  obtain ⟨x, hx, hmap⟩ := Option.map_eq_some_iff.mp hids
  obtain ⟨e, rfl, he⟩ := Option.map_eq_some_iff.mp hmap
  exact ⟨e, hx, he⟩

theorem length_reqIds (h : b.Pools slots) : b.reqIds.length = slots.length := by
  rw [h.reqIds, List.length_map]

/-- Two slots hold two requests. -/
theorem eq_of_reqId (h : b.Pools slots) {j : ℕ} {e' : PooledRequest} (he : slots[i]? = some (some e))
    (he' : slots[j]? = some (some e')) (hid : e.reqId = e'.reqId) : i = j :=
  Option.some.inj ((h.lookup_of he).symm.trans (hid ▸ h.lookup_of he'))

/-! ## `remove_request` -/

/-- A slot that was emptied lists its request no more. -/
theorem lists_remove (h : b.Pools slots) {requests : ReqId → Option FullRequestState} (hlists : Lists slots requests)
    (he : slots[i]? = some (some e)) :
    Lists (slots.set i none) (Function.update requests e.reqId none) := by
  intro id r
  rw [Function.update_apply]
  split
  · next heq =>
    refine iff_of_false (by simp) ?_
    rintro ⟨j, e', he', hid, -⟩
    rw [List.getElem?_set] at he'
    split at he'
    · split at he' <;> cases he'
    · next hne => exact hne (h.eq_of_reqId he he' (hid.trans heq).symm)
  · next hne =>
    rw [hlists id r]
    refine exists_congr fun j => exists_congr fun e' => ?_
    rw [List.getElem?_set]
    split
    · next heq =>
      subst heq
      refine iff_of_false ?_ ?_
      · rintro ⟨he', hid, -⟩
        obtain rfl := Option.some.inj (Option.some.inj (he.symm.trans he'))
        exact hne hid.symm
      · rintro ⟨he', -⟩
        split at he' <;> cases he'
    · rfl

theorem loraId_eq (h : b.Pools slots) (he : slots[i]? = some (some e)) :
    b.requestLoraMapping i = e.request.loraRequest.elim 0 LoRARequest.loraIntId :=
  (congrArg RowData.loraId (h.data i e he)).trans (h.fixed i e he).loraId

/-- The LoRA of a request of the batch is on file. -/
theorem releaseLora_returns (h : b.Pools slots) (he : slots[i]? = some (some e)) {b₁ : InputBatch β τ}
    (hmapping : b₁.requestLoraMapping = b.requestLoraMapping)
    (hids : b₁.loraIdToRequestIds = b.loraIdToRequestIds)
    (hreqs : b₁.loraIdToLoraRequest = b.loraIdToLoraRequest) : ∃ b₂, b₁.releaseLora e.reqId i = .ok b₂ := by
  obtain ⟨requests, hlists, hlora⟩ := h.lora
  have hloraId := h.loraId_eq he
  unfold releaseLora
  simp only [hmapping, hids, hreqs]
  split
  · exact ⟨_, rfl⟩
  · next hne =>
    cases hr : e.request.loraRequest with
    | none =>
      rw [hr, Option.elim_none] at hloraId
      exact absurd hloraId hne
    | some lora =>
      rw [hr, Option.elim_some] at hloraId
      rw [hloraId]
      have hrequest : requests e.reqId = some e.request := (hlists _ _).mpr ⟨i, e, he, rfl, rfl⟩
      have hmem : e.reqId ∈ (b.loraIdToRequestIds lora.loraIntId).getD ∅ := by
        rw [hlora.members]
        exact ⟨lora, by rw [hrequest, Option.bind_some, hr], rfl⟩
      cases hget : b.loraIdToRequestIds lora.loraIntId with
      | none =>
        rw [hget] at hmem
        exact absurd hmem (by simp)
      | some ids =>
        have hknown := hlora.known lora.loraIntId
        rw [hget, Option.isSome_some] at hknown
        obtain ⟨request, hrequest⟩ := Option.isSome_iff_exists.mp hknown
        simp only [hrequest, reduceCtorEq, and_false, if_false]
        exact ⟨_, rfl⟩

/-- **A request of the batch can be removed**, and leaves its slot empty. -/
theorem removeRequest [BatchUpdateBuilder β] (h : b.Pools slots) (he : slots[i]? = some (some e)) :
    ∃ b', b.removeRequest e.reqId = .ok b' ∧ b'.Pools (slots.set i none) := by
  have hid := h.lookup_of he
  have hlt : i < b.reqIds.length := h.index.lt hid
  obtain ⟨b₂, hrelease⟩ : ∃ b₂, (b.dropRequest e.reqId i).releaseLora e.reqId i = .ok b₂ :=
    h.releaseLora_returns he rfl rfl rfl
  obtain ⟨ids, lora, rfl, hreleased⟩ := releaseLora_eq_ok hrelease
  have hdropped : b.removeRequest e.reqId = .ok (b.dropped e.reqId i b.batchUpdateBuilder ids lora) := by
    unfold InputBatch.removeRequest
    simp only [hid]
    unfold removeRow
    rw [if_pos h.pooling]
    simp only [bind, Except.bind, if_pos hlt, hrelease]
    rfl
  refine ⟨_, hdropped, ?_⟩
  have hother : ∀ (j : ℕ) (e' : PooledRequest), (slots.set i none)[j]? = some (some e') →
      j ≠ i ∧ slots[j]? = some (some e') := by
    intro j e' he'
    rw [List.getElem?_set] at he'
    split at he'
    · split at he' <;> cases he'
    · next hne => exact ⟨Ne.symm hne, he'⟩
  have hne : ∀ (j : ℕ) (e' : PooledRequest), (slots.set i none)[j]? = some (some e') → e'.reqId ≠ e.reqId :=
    fun j e' he' heq => (hother j e' he').1 (h.eq_of_reqId (hother j e' he').2 he heq)
  obtain ⟨requests, hlists, hlora⟩ := h.lora
  constructor
  case pooling => exact h.pooling
  case reqIds =>
    rw [List.map_set, ← h.reqIds]
    rfl
  case index =>
    have hlookup : (fun id => (b.dropped e.reqId i b.batchUpdateBuilder ids lora).reqIdToIndex.lookup id) =
        Function.update (fun id => b.reqIdToIndex.lookup id) e.reqId none := Dict.lookup_erase_eq ..
    rw [hlookup]
    exact h.index.remove hid
  case outputs =>
    have hout := h.outputs
    simpa [InputBatch.dropped, dropMask, dropRequest] using hout
  case data =>
    intro j e' he'
    rw [rowData_dropped_ne (hother j e' he').1]
    exact h.data j e' (hother j e' he').2
  case needs => exact fun j e' he' => h.needs j e' (hother j e' he').2
  case params =>
    exact fun j e' he' => (AList.lookup_erase_ne (hne j e' he')).trans (h.params j e' (hother j e' he').2)
  case known =>
    intro id
    change id ∈ b.poolingParams.erase e.reqId ↔ id ∈ b.reqIdToIndex.erase e.reqId
    rw [AList.mem_erase, AList.mem_erase, h.known]
  case fixed => exact fun j e' he' => h.fixed j e' (hother j e' he').2
  case members =>
    intro s
    rw [members_dropped, h.members s, Finset.erase_empty]
  case generators =>
    intro j
    obtain rfl | hj := eq_or_ne j i
    · exact Function.update_self ..
    · exact (Function.update_of_ne hj ..).trans (h.generators j)
  case badWords =>
    intro j
    obtain rfl | hj := eq_or_ne j i
    · exact Function.update_self ..
    · exact (Function.update_of_ne hj ..).trans (h.badWords j)
  case lora =>
    refine ⟨_, h.lists_remove hlists he, ?_⟩
    exact PersistentBatch.LoraIndexed.released hlora ((hlists _ _).mpr ⟨i, e, he, rfl, rfl⟩)
      (fun l hl => (h.fixed i e he).positive l hl) (h.loraId_eq he) ⟨hreleased.none, hreleased.some⟩

/-! ## Writes -/

/-- **A write of the model runner** goes to the row of its request. -/
theorem write (h : b.Pools slots) (he : slots[i]? = some (some e)) {w : RowWrite} (hfits : w.Fits e.data)
    (hprompt : e.data.numPromptTokens ≤ (e.data.write w).numTokens) :
    (b.write i w).Pools (slots.set i (some { e with data := e.data.write w })) := by
  obtain ⟨hregistry, hconfig, hreqIds, hindex, -⟩ := b.write_eq i w
  have hlt : i < slots.length := (List.getElem?_eq_some_iff.mp he).1
  have hdata := h.data i e he
  have hfits' : w.Fits (b.rowData i) := by
    rw [← hdata] at hfits
    cases w <;> exact hfits
  have hrow := rowData_write hfits' (h.outputs ▸ h.length_reqIds ▸ hlt)
  have hset : ∀ (j : ℕ) (e' : PooledRequest),
      (slots.set i (some { e with data := e.data.write w }))[j]? = some (some e') →
        (j = i ∧ e' = { e with data := e.data.write w }) ∨ (j ≠ i ∧ slots[j]? = some (some e')) := by
    intro j e' he'
    rw [List.getElem?_set] at he'
    split at he'
    · next heq => exact Or.inl ⟨heq.symm, by simpa [hlt, eq_comm] using he'⟩
    · next hne => exact Or.inr ⟨Ne.symm hne, he'⟩
  have hids : (slots.set i (some { e with data := e.data.write w })).map (Option.map PooledRequest.reqId) =
      slots.map (Option.map PooledRequest.reqId) := by
    have hself : (slots.map (Option.map PooledRequest.reqId))[i]? = some (some e.reqId) := by
      rw [List.getElem?_map, he]
      rfl
    obtain ⟨hlt', hget⟩ := List.getElem?_eq_some_iff.mp hself
    rw [List.map_set, Option.map_some, ← hget, List.set_getElem_self]
  obtain ⟨requests, hlists, hlora⟩ := h.lora
  constructor
  case pooling => rw [hconfig]; exact h.pooling
  case reqIds => rw [hreqIds, hids, h.reqIds]
  case index => rw [hreqIds, hindex]; exact h.index
  case outputs =>
    rw [hreqIds, ← h.outputs]
    cases w <;> simp [InputBatch.write]
  case data =>
    intro j e' he'
    rw [hrow]
    rcases hset j e' he' with ⟨rfl, rfl⟩ | ⟨hne, hold⟩
    · rw [if_pos rfl, RowData.write_unsampled, hdata]
    · rw [if_neg hne, h.data j e' hold]
  case needs =>
    have hneeds : (b.write i w).logitsProcessingNeedsTokenIds = b.logitsProcessingNeedsTokenIds := by
      cases w <;> rfl
    intro j e' he'
    rw [hneeds]
    rcases hset j e' he' with ⟨rfl, rfl⟩ | ⟨-, hold⟩
    · exact h.needs j e he
    · exact h.needs j e' hold
  case params =>
    have hparams : (b.write i w).poolingParams = b.poolingParams := congrArg Registry.poolingParams hregistry
    intro j e' he'
    rw [hparams]
    rcases hset j e' he' with ⟨rfl, rfl⟩ | ⟨-, hold⟩
    · exact h.params j e he
    · exact h.params j e' hold
  case known =>
    have hparams : (b.write i w).poolingParams = b.poolingParams := congrArg Registry.poolingParams hregistry
    rw [hparams, hindex]
    exact h.known
  case fixed =>
    intro j e' he'
    rcases hset j e' he' with ⟨rfl, rfl⟩ | ⟨-, hold⟩
    · have hfixed := h.fixed j e he
      have hkept : (e.data.write w).loraId = e.data.loraId ∧
          (e.data.write w).numPromptTokens = e.data.numPromptTokens := by
        cases w <;> exact ⟨rfl, rfl⟩
      exact ⟨hkept.1.trans hfixed.loraId, hfixed.positive, hkept.2 ▸ hprompt⟩
    · exact h.fixed j e' hold
  case members =>
    have hmembers : (b.write i w).members = b.members := congrArg Registry.members hregistry
    rw [hmembers]
    exact h.members
  case generators =>
    have hgenerators : (b.write i w).generators = b.generators := by cases w <;> rfl
    rw [hgenerators]
    exact h.generators
  case badWords =>
    have hbadWords : (b.write i w).badWordsTokenIds = b.badWordsTokenIds := by cases w <;> rfl
    rw [hbadWords]
    exact h.badWords
  case lora =>
    have hids : (b.write i w).loraIdToRequestIds = b.loraIdToRequestIds :=
      congrArg Registry.loraIdToRequestIds hregistry
    have hreqs : (b.write i w).loraIdToLoraRequest = b.loraIdToLoraRequest :=
      congrArg Registry.loraIdToLoraRequest hregistry
    refine ⟨requests, fun id r => ?_, ⟨?_, ?_, ?_⟩⟩
    · rw [hlists id r]
      constructor
      · rintro ⟨j, e', he', hid, hr⟩
        by_cases hji : j = i
        · subst hji
          obtain rfl := Option.some.inj (Option.some.inj (he.symm.trans he'))
          exact ⟨j, { e with data := e.data.write w }, List.getElem?_set_self hlt, hid, hr⟩
        · exact ⟨j, e', by rw [List.getElem?_set_ne (Ne.symm hji), he'], hid, hr⟩
      · rintro ⟨j, e', he', hid, hr⟩
        rcases hset j e' he' with ⟨rfl, rfl⟩ | ⟨-, hold⟩
        · exact ⟨j, e, he, hid, hr⟩
        · exact ⟨j, e', hold, hid, hr⟩
    · rw [hids]
      exact hlora.members
    · rw [hids]
      exact hlora.nonempty
    · rw [hids, hreqs]
      exact hlora.known

/-! ## `add_request` -/

/-- The slots with a request in the given one, or behind the last. -/
def placed (slots : List (Option PooledRequest)) (i : ℕ) (e : PooledRequest) : List (Option PooledRequest) :=
  if i = slots.length then slots ++ [some e] else slots.set i (some e)

omit [MultiGroupBlockTable τ] in
theorem getElem?_placed {j : ℕ} (hi : i ≤ slots.length) :
    (placed slots i e)[j]? = if j = i then some (some e) else slots[j]? := by
  rw [placed]
  split
  · next heq => rw [getElem?_concat, heq]
  · next hne =>
    rw [List.getElem?_set]
    split
    · next heq =>
      subst heq
      rw [if_pos (lt_of_le_of_ne hi hne), if_pos rfl]
    · next hij => rw [if_neg (Ne.symm hij)]

end Pools

/-- What `add_request` makes of the batch of a pooling model. -/
def pooled [MultiGroupBlockTable τ] (b : InputBatch β τ) (id : ReqId) (r : FullRequestState) (params : PoolingParams)
    (i : ℕ) : InputBatch β τ :=
  (((b.placeRequest id r i).storeTokens r i).storePoolingParams id params i).storeLora id r.loraRequest i

section Pooled

variable [MultiGroupBlockTable τ] {id : ReqId} {r : FullRequestState} {params : PoolingParams}

theorem addRequest_pooled [BatchUpdateBuilder β] (hpooling : b.isPoolingModel = true)
    (hle : b.numReqs ≤ b.reqIds.length) (hsampling : r.samplingParams = none)
    (hparams : r.poolingParams = some params) :
    b.addRequest id r = .ok (b.pooled id r params b.numReqs) := by
  unfold addRequest
  rw [if_pos hpooling]
  simp only [bind, Except.bind, if_neg (Nat.not_lt.mpr hle), storeParams, hsampling, hparams]
  rfl

/-- **The row of a pooling request that is added.** -/
theorem rowData_pooled_self (hgenerator : b.generators i = none) (hbadWords : b.badWordsTokenIds i = none)
    (houtputs : b.reqOutputTokenIds.length = b.reqIds.length) (hi : i ≤ b.reqIds.length) :
    ((b.pooled id r params i).rowData i).unsampled = (PooledRequest.new id r params).data := by
  have hout : (b.pooled id r params i).reqOutputTokenIds[i]?.join = some r.outputTokenIds := by
    simp only [pooled, storeLora, storePoolingParams, storeTokens, placeRequest]
    split
    · next h => simp [h, ← houtputs]
    · next h => simp [houtputs, Nat.lt_of_le_of_ne hi h]
  ext1
  case tokens =>
    simp only [RowData.unsampled, rowData, pooled, storeLora, storePoolingParams, storeTokens, placeRequest,
      Function.update_self]
    exact map_storeTokens ..
  case blocks => exact (MultiGroupBlockTable.row_addRow ..).trans (if_pos rfl)
  case sampled => rfl
  case generator => exact hgenerator
  case badWords => exact hbadWords
  case outputTokenIds => exact hout
  all_goals exact Function.update_self ..

/-- The other rows stay. -/
theorem rowData_pooled_ne {j : ℕ} (houtputs : b.reqOutputTokenIds.length = b.reqIds.length) (hne : j ≠ i)
    (hj : j < b.reqIds.length) : (b.pooled id r params i).rowData j = b.rowData j := by
  have hout : (b.pooled id r params i).reqOutputTokenIds[j]? = b.reqOutputTokenIds[j]? := by
    simp only [pooled, storeLora, storePoolingParams, storeTokens, placeRequest]
    split
    · exact List.getElem?_append_left (houtputs ▸ hj)
    · exact List.getElem?_set_ne hne.symm
  have hnumTokens : (b.pooled id r params i).numTokens j = b.numTokens j := Function.update_of_ne hne ..
  have htokens : (b.pooled id r params i).tokenIdsCpu j = b.tokenIdsCpu j := Function.update_of_ne hne ..
  ext1
  case tokens => simp only [rowData, hnumTokens, htokens]
  case blocks => exact (MultiGroupBlockTable.row_addRow ..).trans (if_neg hne)
  case sampled => rfl
  case generator => rfl
  case badWords => rfl
  case outputTokenIds => simp only [rowData, hout]
  all_goals exact Function.update_of_ne hne ..

/-- A pooling request is filed under its LoRA like any other. -/
theorem loraIndexed_pooled {requests : ReqId → Option FullRequestState} (hid : requests id = none)
    (h : PersistentBatch.LoraIndexed b requests) :
    PersistentBatch.LoraIndexed (b.pooled id r params i) (Function.update requests id (some r)) := by
  let sampling : SamplingParams := ⟨.greedy, 0, 1, 0, 0, 0, 1, none, none, none, none⟩
  obtain ⟨hmembers, hnonempty, hknown⟩ : PersistentBatch.LoraIndexed
      (b.added id r sampling i b.batchUpdateBuilder) (Function.update requests id (some r)) := h.added hid
  exact ⟨hmembers, hnonempty, hknown⟩

end Pooled

namespace Pools

variable [MultiGroupBlockTable τ] {id : ReqId} {r : FullRequestState} {params : PoolingParams}

/-- **A request is added** to a slot that is free. -/
theorem pooled (h : b.Pools slots) (hfree : slots[i]? = some none ∨ i = slots.length)
    (hid : id ∉ b.reqIdToIndex) (hlora : ∀ lora ∈ r.loraRequest, 0 < lora.loraIntId) :
    (b.pooled id r params i).Pools (placed slots i (.new id r params)) := by
  have hle : i ≤ slots.length := by
    rcases hfree with hfree | rfl
    · exact (List.getElem?_eq_some_iff.mp hfree).1.le
    · exact le_rfl
  have hnone : b.reqIdToIndex.lookup id = none := AList.lookup_eq_none.mpr hid
  have hlength := h.length_reqIds
  have hplaced : ∀ (j : ℕ) (e' : PooledRequest), (placed slots i (.new id r params))[j]? = some (some e') →
      (j = i ∧ e' = .new id r params) ∨ (j ≠ i ∧ slots[j]? = some (some e')) := by
    intro j e' he'
    rw [getElem?_placed hle] at he'
    split at he'
    · next heq => exact Or.inl ⟨heq, (Option.some.inj (Option.some.inj he')).symm⟩
    · next hne => exact Or.inr ⟨hne, he'⟩
  have hother : ∀ (j : ℕ) (e' : PooledRequest), slots[j]? = some (some e') → j ≠ i ∧ e'.reqId ≠ id := by
    intro j e' he'
    refine ⟨?_, ?_⟩
    · rintro rfl
      rcases hfree with hfree | hfree
      · rw [hfree] at he'
        cases he'
      · exact absurd (List.getElem?_eq_some_iff.mp he').1 (hfree ▸ lt_irrefl _)
    · rintro rfl
      rw [h.lookup_of he'] at hnone
      cases hnone
  have hids : (b.pooled id r params i).reqIds =
      (placed slots i (.new id r params)).map (Option.map PooledRequest.reqId) := by
    change (if i = b.reqIds.length then b.reqIds ++ [some id] else b.reqIds.set i (some id)) = _
    rw [placed, hlength, h.reqIds]
    split
    · rw [List.map_append]
      rfl
    · rw [List.map_set]
      rfl
  have hlookup : (fun id' => (b.pooled id r params i).reqIdToIndex.lookup id') =
      Function.update (fun id' => b.reqIdToIndex.lookup id') id (some i) := Dict.lookup_insert_eq ..
  obtain ⟨requests, hlists, hlora'⟩ := h.lora
  have hrequests : requests id = none := by
    rw [Option.eq_none_iff_forall_ne_some]
    intro r' hr'
    obtain ⟨j, e', he', hid', -⟩ := (hlists id r').mp hr'
    exact (hother j e' he').2 hid'
  constructor
  case pooling => exact h.pooling
  case reqIds => exact hids
  case index =>
    rw [hlookup]
    change Indexes _ (if i = b.reqIds.length then b.reqIds ++ [some id] else b.reqIds.set i (some id))
    split
    · next heq => rw [heq]; exact h.index.append hnone
    · next hne =>
      refine h.index.fill hnone (mem_holes.mpr ?_)
      rcases hfree with hfree | hfree
      · rw [h.reqIds, List.getElem?_map, hfree]
        rfl
      · exact absurd (hfree.trans hlength.symm) hne
  case outputs =>
    have hout := h.outputs
    simp only [InputBatch.pooled, storeLora, storePoolingParams, storeTokens, placeRequest]
    split <;> simpa using hout
  case data =>
    intro j e' he'
    rcases hplaced j e' he' with ⟨rfl, rfl⟩ | ⟨hne, hold⟩
    · exact rowData_pooled_self (h.generators j) (h.badWords j) h.outputs (hlength ▸ hle)
    · have hlt : j < b.reqIds.length := hlength ▸ (List.getElem?_eq_some_iff.mp hold).1
      rw [rowData_pooled_ne h.outputs hne hlt, h.data j e' hold]
  case needs =>
    intro j e' he'
    rcases hplaced j e' he' with ⟨rfl, rfl⟩ | ⟨hne, hold⟩
    · exact Function.update_self ..
    · exact (Function.update_of_ne hne ..).trans (h.needs j e' hold)
  case params =>
    intro j e' he'
    rcases hplaced j e' he' with ⟨rfl, rfl⟩ | ⟨hne, hold⟩
    · exact AList.lookup_insert _
    · exact (AList.lookup_insert_ne (hother j e' hold).2).trans (h.params j e' hold)
  case known =>
    intro id'
    change id' ∈ b.poolingParams.insert id params ↔ id' ∈ b.reqIdToIndex.insert id i
    rw [AList.mem_insert, AList.mem_insert, h.known]
  case fixed =>
    intro j e' he'
    rcases hplaced j e' he' with ⟨rfl, rfl⟩ | ⟨-, hold⟩
    · exact ⟨rfl, hlora, Nat.le_add_right _ _⟩
    · exact h.fixed j e' hold
  case members =>
    intro s
    exact (h.members s ▸ by cases s <;> rfl : (b.pooled id r params i).members s = ∅)
  case generators => exact h.generators
  case badWords => exact h.badWords
  case lora =>
    refine ⟨_, fun id' r' => ?_, loraIndexed_pooled hrequests hlora'⟩
    rw [Function.update_apply]
    split
    · next heq =>
      subst heq
      constructor
      · intro hr'
        exact ⟨i, .new id' r params, by rw [getElem?_placed hle, if_pos rfl], rfl, Option.some.inj hr'⟩
      · rintro ⟨j, e', he', hid', hr'⟩
        rcases hplaced j e' he' with ⟨rfl, rfl⟩ | ⟨-, hold⟩
        · exact congrArg some hr'
        · exact absurd hid' (hother j e' hold).2
    · next hne =>
      rw [hlists id' r']
      constructor
      · rintro ⟨j, e', he', hid', hr'⟩
        exact ⟨j, e', by rw [getElem?_placed hle, if_neg (hother j e' he').1, he'], hid', hr'⟩
      · rintro ⟨j, e', he', hid', hr'⟩
        rcases hplaced j e' he' with ⟨rfl, rfl⟩ | ⟨-, hold⟩
        · exact absurd hid'.symm hne
        · exact ⟨j, e', hold, hid', hr'⟩

/-! ## The requests in the first slots -/

/-- The rows of a list of requests, and free ones behind them. -/
def Filled (b : InputBatch β τ) (rows : List PooledRequest) (free : ℕ) : Prop :=
  b.Pools (rows.map some ++ List.replicate free none)

omit [MultiGroupBlockTable τ] in
theorem getElem?_filled {rows : List PooledRequest} {free : ℕ} :
    (rows.map some ++ List.replicate free none)[i]? = some (some e) ↔ rows[i]? = some e := by
  by_cases hi : i < rows.length
  · rw [List.getElem?_append_left (by rwa [List.length_map]), List.getElem?_map, List.getElem?_eq_getElem hi]
    simp
  · rw [List.getElem?_append_right (by rwa [List.length_map, ← Nat.not_lt]), List.getElem?_replicate,
      List.getElem?_eq_none (Nat.not_lt.mp hi)]
    split <;> simp

namespace Filled

variable {rows : List PooledRequest} {free : ℕ}

theorem nodup (h : Filled b rows free) : (rows.map PooledRequest.reqId).Nodup := by
  rw [List.nodup_iff_getElem?_ne_getElem?]
  intro i j hij hj heq
  rw [List.length_map] at hj
  have hi := hij.trans hj
  simp only [List.getElem?_map, List.getElem?_eq_getElem hj, List.getElem?_eq_getElem hi, Option.map_some,
    Option.some.injEq] at heq
  have hget : ∀ (k : ℕ) (hk : k < rows.length),
      (rows.map some ++ List.replicate free none)[k]? = some (some rows[k]) :=
    fun k hk => getElem?_filled.mpr (List.getElem?_eq_getElem hk)
  exact hij.ne (Pools.eq_of_reqId h (hget i hi) (hget j hj) heq)

/-- The ids of the rows are those that the index knows. -/
theorem mem_iff (h : Filled b rows free) (id : ReqId) : id ∈ b.reqIdToIndex ↔ id ∈ rows.map PooledRequest.reqId := by
  rw [← AList.lookup_isSome, Option.isSome_iff_exists, List.mem_map]
  constructor
  · rintro ⟨i, hi⟩
    obtain ⟨e, he, hid⟩ := Pools.exists_of_lookup h hi
    exact ⟨e, List.mem_of_getElem? (getElem?_filled.mp he), hid⟩
  · rintro ⟨e, he, rfl⟩
    obtain ⟨i, hi⟩ := List.getElem?_of_mem he
    exact ⟨i, Pools.lookup_of h (getElem?_filled.mpr hi)⟩

theorem numReqs_eq (h : Filled b rows free) : b.numReqs = rows.length := by
  have hperm : b.reqIdToIndex.keys.Perm (rows.map PooledRequest.reqId) := by
    exact (List.perm_ext_iff_of_nodup b.reqIdToIndex.nodupKeys h.nodup).mpr h.mem_iff
  rw [numReqs, hperm.length_eq, List.length_map]

/-- **The next request takes the first free row.** -/
theorem addRequest [BatchUpdateBuilder β] {id : ReqId} {r : FullRequestState} {params : PoolingParams}
    (h : Filled b rows free) (hid : id ∉ rows.map PooledRequest.reqId) (hsampling : r.samplingParams = none)
    (hparams : r.poolingParams = some params) (hlora : ∀ lora ∈ r.loraRequest, 0 < lora.loraIntId) :
    ∃ b', b.addRequest id r = .ok b' ∧ Filled b' (rows ++ [.new id r params]) (free - 1) := by
  have hnum := h.numReqs_eq
  have hle : b.numReqs ≤ b.reqIds.length := by
    rw [hnum, Pools.length_reqIds h, List.length_append, List.length_map]
    exact Nat.le_add_right _ _
  refine ⟨_, addRequest_pooled (Pools.pooling h) hle hsampling hparams, ?_⟩
  have hslots : placed (rows.map some ++ List.replicate free none) rows.length (.new id r params) =
      (rows ++ [PooledRequest.new id r params]).map some ++ List.replicate (free - 1) none := by
    rw [placed, List.length_append, List.length_map, List.length_replicate, List.map_append]
    cases free with
    | zero =>
      rw [if_pos (Nat.add_zero _).symm, List.replicate_zero, List.append_nil]
      exact (List.append_nil _).symm
    | succ free =>
      rw [if_neg (by omega), List.set_append_right _ _ (by rw [List.length_map]), List.length_map, Nat.sub_self,
        List.replicate_succ, List.set_cons_zero, Nat.add_sub_cancel, List.append_assoc]
      rfl
  rw [Filled, ← hslots, hnum]
  refine Pools.pooled h ?_ (mt (h.mem_iff id).mp hid) hlora
  cases free with
  | zero => exact Or.inr (by simp)
  | succ free =>
    refine Or.inl ?_
    rw [List.getElem?_append_right (by rw [List.length_map]), List.length_map, Nat.sub_self, List.replicate_succ]
    rfl

/-- **The free rows are cut off.** -/
theorem condense [BatchUpdateBuilder β] (h : Filled b rows free) :
    ∃ b', b.condense = .ok b' ∧ Filled b' rows 0 := by
  have hpools : b.Pools (rows.map some ++ List.replicate free none) := h
  have hcondense : b.condense = .ok (b.trim b.numReqs) := by
    unfold InputBatch.condense
    rw [if_pos hpools.pooling]
  refine ⟨_, hcondense, ?_⟩
  have hslots : (rows.map some ++ List.replicate free none).take rows.length = rows.map some := by
    rw [List.take_left' (List.length_map _)]
  rw [h.numReqs_eq, Filled, List.replicate_zero, List.append_nil, ← hslots]
  have hget : ∀ (i : ℕ) (e : PooledRequest), ((rows.map some ++ List.replicate free none).take rows.length)[i]? =
      some (some e) → i < rows.length ∧ (rows.map some ++ List.replicate free none)[i]? = some (some e) := by
    intro i e he
    rw [List.getElem?_take] at he
    split at he
    · next hlt => exact ⟨hlt, he⟩
    · cases he
  constructor
  case pooling => exact hpools.pooling
  case reqIds =>
    change b.reqIds.take rows.length = _
    rw [hpools.reqIds, List.map_take]
  case index =>
    refine hpools.index.take fun i hle hlt => mem_holes.mpr ?_
    rw [hpools.length_reqIds, List.length_append, List.length_map, List.length_replicate] at hlt
    rw [hpools.reqIds, List.getElem?_map, List.getElem?_append_right (by rwa [List.length_map]),
      List.getElem?_replicate, List.length_map, if_pos (by omega)]
    rfl
  case outputs =>
    change (b.reqOutputTokenIds.take rows.length).length = (b.reqIds.take rows.length).length
    rw [List.length_take, List.length_take, hpools.outputs]
  case data =>
    intro i e he
    obtain ⟨hlt, he⟩ := hget i e he
    rw [← hpools.data i e he]
    have hout : (b.reqOutputTokenIds.take rows.length)[i]? = b.reqOutputTokenIds[i]? := List.getElem?_take_of_lt hlt
    ext1
    case outputTokenIds => exact congrArg Option.join hout
    all_goals rfl
  case needs => exact fun i e he => hpools.needs i e (hget i e he).2
  case params => exact fun i e he => hpools.params i e (hget i e he).2
  case known => exact hpools.known
  case fixed => exact fun i e he => hpools.fixed i e (hget i e he).2
  case members => exact hpools.members
  case generators => exact hpools.generators
  case badWords => exact hpools.badWords
  case lora =>
    obtain ⟨requests, hlists, hlora⟩ := hpools.lora
    refine ⟨requests, fun id r => ?_, ⟨hlora.members, hlora.nonempty, hlora.known⟩⟩
    rw [hlists id r, hslots]
    refine exists_congr fun i => exists_congr fun e => and_congr_left fun _ => ?_
    rw [getElem?_filled, List.getElem?_map]
    simp

/-- The metadata that is made of the batch has the prompts, if any request asks for them. -/
theorem exists_metadata (h : Filled b rows 0) : ∃ b₁ md, b.makeSamplingMetadata = .ok (b₁, md) ∧
    md.promptTokenIds =
      if (List.range b.numReqs).any b.logitsProcessingNeedsTokenIds then some b.makePromptTokenIdsTensor else none := by
  have hpools : b.Pools (rows.map some ++ List.replicate 0 none) := h
  have hallowed : b.noAllowedTokenIds := hpools.members .allowedTokenIds
  have hpenalties : b.noPenalties :=
    ⟨hpools.members .presencePenalties, hpools.members .frequencyPenalties, hpools.members .repetitionPenalties⟩
  unfold makeSamplingMetadata
  simp only [if_pos hallowed]
  refine ⟨_, _, rfl, ?_⟩
  simp [hpenalties]

/-- What `refresh_metadata` leaves of the batch of a pooling model. -/
theorem refreshed [BatchUpdateBuilder β] (h : Filled b rows 0) : ∃ b' t p k f pr rp mask md,
    b.refreshMetadata = .ok b' ∧ b' = b.withDevice b.batchUpdateBuilder t p k f pr rp mask md ∧
      md.promptTokenIds =
        if (List.range b.numReqs).any b.logitsProcessingNeedsTokenIds then some b.makePromptTokenIdsTensor
        else none := by
  obtain ⟨b₁, md, hmake, hprompt⟩ := h.exists_metadata
  obtain ⟨t, p, k, f, pr, rp, mask, rfl⟩ := makeSamplingMetadata_eq_ok hmake
  refine ⟨_, t, p, k, f, pr, rp, mask, md, ?_, rfl, hprompt⟩
  unfold refreshMetadata
  rw [if_pos (Pools.pooling h)]
  simp only [bind, Except.bind, hmake]
  rfl

theorem withDevice {builder : β} {t p f pr rp : ℕ → ℚ} {k : ℕ → ℤ} {mask : Option (ℕ → Token → Bool)}
    {md : SamplingMetadata} (h : Filled b rows free) : Filled (b.withDevice builder t p k f pr rp mask md) rows free := by
  have hpools : b.Pools (rows.map some ++ List.replicate free none) := h
  obtain ⟨requests, hlists, hlora⟩ := hpools.lora
  exact ⟨hpools.pooling, hpools.reqIds, hpools.index, hpools.outputs, hpools.data, hpools.needs, hpools.params,
    hpools.known, hpools.fixed, fun s => by rw [← hpools.members s]; cases s <;> rfl, hpools.generators,
    hpools.badWords, requests, hlists, ⟨hlora.members, hlora.nonempty, hlora.known⟩⟩

/-- The rows of the batch, read one by one. -/
theorem map_range_numReqs {α : Type} {f : ℕ → α} {g : PooledRequest → α} (h : Filled b rows free)
    (hf : ∀ (i : ℕ) (e : PooledRequest), rows[i]? = some e → f i = g e) :
    (List.range b.numReqs).map f = rows.map g := by
  rw [h.numReqs_eq]
  refine List.ext_getElem (by simp) fun i hi hi' => ?_
  rw [List.length_map] at hi'
  rw [List.getElem_map, List.getElem_map, List.getElem_range]
  exact hf i _ (List.getElem?_eq_getElem hi')

theorem data_eq (h : Filled b rows free) (he : rows[i]? = some e) : (b.rowData i).unsampled = e.data :=
  Pools.data h i e (getElem?_filled.mpr he)

/-- The prompts of the rows, padded. -/
theorem makePromptTokenIdsTensor_eq (h : Filled b rows free) : b.makePromptTokenIdsTensor =
    rows.map (poolingMetadataOf.padded b.vocabSize (rows.map fun e => e.data.numPromptTokens)) := by
  have hlengths : (List.range b.numReqs).map b.numPromptTokens = rows.map fun e => e.data.numPromptTokens :=
    h.map_range_numReqs fun i e he => congrArg RowData.numPromptTokens (h.data_eq he)
  rw [makePromptTokenIdsTensor, hlengths]
  refine h.map_range_numReqs fun i e he => ?_
  have hdata := h.data_eq he
  have hprompt : b.numPromptTokens i = e.data.numPromptTokens := congrArg RowData.numPromptTokens hdata
  have hnum : b.numTokens i = e.data.numTokens := congrArg RowData.numTokens hdata
  have htokens : (List.range (b.numTokens i)).map (b.tokenIdsCpu i) = e.data.tokens := congrArg RowData.tokens hdata
  rw [poolingMetadataOf.padded]
  refine List.map_congr_left fun j _ => ?_
  rw [hprompt]
  split
  · rfl
  · next hj =>
    have hlt : j < b.numTokens i := by
      have hfixed := (Pools.fixed h i e (getElem?_filled.mpr he)).prompt
      omega
    rw [← htokens, List.getD_eq_getElem?_getD, List.getElem?_map, List.getElem?_range hlt]
    rfl

/-- **The pooler is given the metadata of the requests**, in their order. -/
theorem poolingMetadata_eq [BatchUpdateBuilder β] (h : Filled b rows 0)
    (hprompt : b.samplingMetadata.promptTokenIds =
      if (List.range b.numReqs).any b.logitsProcessingNeedsTokenIds then some b.makePromptTokenIdsTensor else none) :
    b.poolingMetadata = .ok (poolingMetadataOf b.vocabSize rows) := by
  have hlengths : (List.range b.numReqs).map b.numPromptTokens = rows.map fun e => e.data.numPromptTokens :=
    h.map_range_numReqs fun i e he => congrArg RowData.numPromptTokens (h.data_eq he)
  have hneeds : ((List.range b.numReqs).any b.logitsProcessingNeedsTokenIds) =
      rows.any fun e => e.params.requiresTokenIds := by
    have hmap : (List.range b.numReqs).map b.logitsProcessingNeedsTokenIds =
        rows.map fun e => e.params.requiresTokenIds :=
      h.map_range_numReqs fun i e he => Pools.needs h i e (getElem?_filled.mpr he)
    simpa [List.any_map, Function.comp_def] using congrArg (List.any · id) hmap
  have hkeys : b.poolingParams.keys.length = rows.length := by
    have hperm : b.poolingParams.keys.Perm b.reqIdToIndex.keys :=
      (List.perm_ext_iff_of_nodup b.poolingParams.nodupKeys b.reqIdToIndex.nodupKeys).mpr (Pools.known h)
    rw [hperm.length_eq]
    exact h.numReqs_eq
  have hreqIds : b.reqIds = rows.map fun e => some e.reqId := by
    rw [Pools.reqIds h, List.replicate_zero, List.append_nil, List.map_map]
    rfl
  have hlookup : ∀ e ∈ rows, (some e.reqId).bind b.poolingParams.lookup = some e.params := by
    intro e he
    obtain ⟨i, hi⟩ := List.getElem?_of_mem he
    exact Pools.params h i e (getElem?_filled.mpr hi)
  have hmetadata : poolingMetadataOf b.vocabSize rows =
      ⟨(List.range b.numReqs).map b.numPromptTokens, b.samplingMetadata.promptTokenIds,
        rows.map PooledRequest.params⟩ := by
    rw [poolingMetadataOf, hlengths, hprompt, hneeds, h.makePromptTokenIdsTensor_eq]
  rw [hmetadata]
  unfold poolingMetadata
  simp only [hkeys]
  split
  · next hzero => rw [List.length_eq_zero_iff.mp hzero]; rfl
  · have hlength : ¬ b.reqIds.length ≠ rows.length := by
      rw [hreqIds, List.length_map]
      exact not_not.mpr rfl
    rw [if_neg hlength, hreqIds, mapM_map_eq_some hlookup]

end Filled

end Pools

end InputBatch

end VllmAscend
