import VllmAscend.Machinery.Slots
import VllmAscend.Worker.InputBatch

/-!
# Worker/BatchRows — where a request is in the batch, and what its row holds

    add_request     k ↦ lowest hole, or the end        rowData there := what the request says
    remove_request  k ↦ –                              one more hole
    swap_states     k ↦ the other row                  the rows exchanged
    moved           k ↦ the hole                       the row copied

`Layout` is what the lists and the index agree on, `rowData` all that is stored for a row, and `seen`
the two put together: what the batch holds for an id.  Each operation is one change of `seen`,
whatever rows it takes it through.
-/

namespace VllmAscend

open Machinery BatchUpdateBuilder

/-- What the sampler is given of a row. -/
@[ext] structure SampledRow where
  temperature : ℚ
  topP : ℚ
  topK : ℤ
  frequencyPenalty : ℚ
  presencePenalty : ℚ
  repetitionPenalty : ℚ
  deriving DecidableEq, Repr

/-- A row of the batch. -/
@[ext] structure RowData where
  /-- `token_ids_cpu`, up to `num_tokens` -/
  tokens : List Token
  numTokens : ℕ
  numTokensNoSpec : ℕ
  numPromptTokens : ℕ
  numComputedTokens : ℤ
  blocks : List (List BlockId)
  sampled : SampledRow
  generator : Option Generator
  badWords : Option (List (List Token))
  loraId : ℕ
  outputTokenIds : Option (List Token)
  deriving DecidableEq, Repr

/-- What a write makes of a row. -/
def RowData.write (d : RowData) : RowWrite → RowData
  | .numComputedTokens n => { d with numComputedTokens := n }
  | .blocks newBlockIds => { d with blocks := List.zipWith (· ++ ·) d.blocks newBlockIds }
  | .tokens start values numTokens numTokensNoSpec =>
    { d with
      tokens := (d.tokens.take start ++ values).take numTokens
      numTokens := numTokens
      numTokensNoSpec := numTokensNoSpec }
  | .outputTokenIds outputTokenIds => { d with outputTokenIds := some outputTokenIds }

/-- A write that leaves no gap between the tokens of a row, and gives each group its blocks. -/
def RowWrite.Fits (d : RowData) : RowWrite → Prop
  | .blocks newBlockIds => newBlockIds.length = d.blocks.length
  | .tokens start values numTokens _ => start ≤ d.numTokens ∧ numTokens ≤ start + values.length
  | _ => True

instance (d : RowData) : DecidablePred (RowWrite.Fits d)
  | .numComputedTokens _ | .outputTokenIds _ => isTrue trivial
  | .blocks _ => inferInstanceAs (Decidable (_ = _))
  | .tokens .. => inferInstanceAs (Decidable (_ ∧ _))

/-! ## Slices -/

section Slices

variable {row : ℕ → Token} {start : ℕ} {values : List Token}

theorem writeSlice_lt {j : ℕ} (h : j < start) : writeSlice row start values j = row j := by
  rw [writeSlice, if_neg (Nat.not_le.mpr h)]

theorem writeSlice_add {j : ℕ} (h : j < values.length) :
    writeSlice row start values (start + j) = values[j] := by
  rw [writeSlice, if_pos (Nat.le_add_right _ _), Nat.add_sub_cancel_left,
    List.getElem?_eq_getElem h, Option.getD_some]

/-- **What is read up to the end of a written slice.** -/
theorem map_writeSlice :
    (List.range (start + values.length)).map (writeSlice row start values) =
      (List.range start).map row ++ values := by
  rw [List.range_add, List.map_append, List.map_map]
  congr 1
  · refine List.map_congr_left fun j hj => writeSlice_lt (List.mem_range.mp hj)
  · refine List.ext_getElem (by simp) fun j hj hj' => ?_
    rw [List.getElem_map, List.getElem_range, Function.comp_apply, writeSlice_add hj']

/-- A part of what is read of a row. -/
theorem map_range_eq_take {m n : ℕ} (h : n ≤ m) :
    (List.range n).map row = ((List.range m).map row).take n := by
  rw [← List.map_take, List.take_range, Nat.min_eq_left h]

/-- What is read of a row in which a slice was written. -/
theorem map_writeSlice_take {m n : ℕ} (hstart : start ≤ m) (hn : n ≤ start + values.length) :
    (List.range n).map (writeSlice row start values) =
      (((List.range m).map row).take start ++ values).take n := by
  rw [map_range_eq_take hn, map_writeSlice, map_range_eq_take hstart]

end Slices

/-! ## Exchanges -/

theorem swapRows_apply {α : Type} (a : ℕ → α) (i j k : ℕ) :
    swapRows a i j k = a (Equiv.swap i j k) := by
  rw [swapRows, Function.update_apply, Function.update_apply, Equiv.swap_apply_def]
  split
  · next hj =>
    split
    · next hi => rw [← hi, hj]
    · rfl
  · split <;> rfl

theorem getElem?_swapItems {α : Type} {l : List α} {i j : ℕ} (hi : i < l.length)
    (hj : j < l.length) (k : ℕ) : (swapItems l i j)[k]? = l[Equiv.swap i j k]? := by
  rw [swapItems, List.getElem?_eq_getElem hi, List.getElem?_eq_getElem hj, List.getElem?_set,
    List.getElem?_set, Equiv.swap_apply_def, List.length_set]
  obtain rfl | hkj := eq_or_ne j k
  · rw [if_pos rfl, if_pos hj]
    split
    · next hji => subst hji; rw [List.getElem?_eq_getElem hj]
    · rw [if_pos rfl, List.getElem?_eq_getElem hi]
  · rw [if_neg hkj]
    obtain rfl | hki := eq_or_ne i k
    · rw [if_pos rfl, if_pos hi, if_pos rfl, List.getElem?_eq_getElem hj]
    · rw [if_neg hki, if_neg hki.symm, if_neg hkj.symm]

theorem copyRow_apply {α : Type} (a : ℕ → α) (i j k : ℕ) :
    copyRow a i j k = a (if k = j then i else k) := by
  rw [copyRow, Function.update_apply]
  split <;> rfl

/-- An entry that goes into a free row. -/
theorem moveEntry_apply {α : Type} {d : ℕ → Option α} {i j : ℕ} (hj : d j = none) (k : ℕ) :
    moveEntry d i j k = if k = j then d i else if k = i then none else d k := by
  unfold moveEntry
  cases hi : d i with
  | none =>
    simp only [Function.update_apply]
    obtain rfl | hne := eq_or_ne k j
    · rw [if_pos rfl, hj, ite_self]
    · rw [if_neg hne]
  | some v => simp only [Function.update_apply]

theorem mem_addIf {c : Prop} [Decidable c] {id id' : ReqId} {s : Finset ReqId} :
    id' ∈ addIf c id s ↔ (id' = id ∧ c) ∨ id' ∈ s := by
  rw [addIf]
  split
  · next hc => simp [hc]
  · next hc => simp [hc]

namespace BatchConfig

/-- What the sampler is to be given of a request. -/
def sampledRowOf (c : BatchConfig) (params : SamplingParams) : SampledRow where
  temperature := InputBatch.effectiveTemperature c.float32 params
  topP := c.float32 params.topP
  topK := InputBatch.effectiveTopK c.vocabSize params
  frequencyPenalty := c.float32 params.frequencyPenalty
  presencePenalty := c.float32 params.presencePenalty
  repetitionPenalty := c.float32 params.repetitionPenalty

/-- What `add_request` is to store for a request. -/
def rowOf (c : BatchConfig) (r : FullRequestState) (params : SamplingParams) : RowData where
  tokens := r.promptTokenIds ++ r.outputTokenIds
  numTokens := r.numTokens
  numTokensNoSpec := r.numTokens
  numPromptTokens := r.promptTokenIds.length
  numComputedTokens := r.numComputedTokens
  blocks := r.blockIds
  sampled := c.sampledRowOf params
  generator := r.generator
  badWords := params.badWordsTokenIds.filter (· ≠ [])
  loraId := r.loraRequest.elim 0 LoRARequest.loraIntId
  outputTokenIds := some r.outputTokenIds

end BatchConfig

/-- The sets of ids the batch keeps. -/
inductive ReqSet where
  | greedy
  | random
  | topP
  | topK
  | specDecodeUnsupported
  | frequencyPenalties
  | presencePenalties
  | repetitionPenalties
  | allowedTokenIds
  deriving DecidableEq, Repr

/-- The parameter that puts a request into a set. -/
def ReqSet.Has (c : BatchConfig) (params : SamplingParams) : ReqSet → Prop
  | greedy => params.samplingType = .greedy
  | random => params.samplingType ≠ .greedy
  | topP => params.topP < 1
  | topK => 0 < params.topK ∧ params.topK < c.vocabSize
  | specDecodeUnsupported => c.isSpecDecode ∧ c.isSpecDecodeUnsupported params
  | frequencyPenalties => params.frequencyPenalty ≠ 0
  | presencePenalties => params.presencePenalty ≠ 0
  | repetitionPenalties => params.repetitionPenalty ≠ 1
  | allowedTokenIds => params.allowedTokenIds.getD [] ≠ []

/-- What the batch keeps by request id and by LoRA id, and the metadata: all that moving a row does
not touch. -/
structure Registry where
  members : ReqSet → Finset ReqId
  loraIdToRequestIds : ℕ → Option (Finset ReqId)
  loraIdToLoraRequest : ℕ → Option LoRARequest
  numLogprobs : Dict ℤ
  numPromptLogprobs : Dict ℤ
  inProgressPromptLogprobsCpu : Dict LogprobsTensors
  poolingParams : Dict PoolingParams
  samplingMetadata : SamplingMetadata

theorem Dict.lookup_insert_eq {α : Type} (d : Dict α) (id : ReqId) (x : α) :
    (fun id' => (d.insert id x).lookup id') =
      Function.update (fun id' => d.lookup id') id (some x) := by
  funext id'
  obtain rfl | hne := eq_or_ne id' id
  · rw [AList.lookup_insert, Function.update_self]
  · rw [AList.lookup_insert_ne hne, Function.update_of_ne hne]

theorem Dict.lookup_erase_eq {α : Type} (d : Dict α) (id : ReqId) :
    (fun id' => (d.erase id).lookup id') = Function.update (fun id' => d.lookup id') id none := by
  funext id'
  obtain rfl | hne := eq_or_ne id' id
  · rw [AList.lookup_erase, Function.update_self]
  · rw [AList.lookup_erase_ne hne, Function.update_of_ne hne]

namespace InputBatch

variable {β τ : Type} {self self' : InputBatch β τ} {id id' : ReqId} {i j : ℕ}
  {r : FullRequestState} {params : SamplingParams} {builder : β}

/-! ## What is in a row -/

def members (self : InputBatch β τ) : ReqSet → Finset ReqId
  | .greedy => self.greedyReqs
  | .random => self.randomReqs
  | .topP => self.topPReqs
  | .topK => self.topKReqs
  | .specDecodeUnsupported => self.specDecodeUnsupportedReqs
  | .frequencyPenalties => self.frequencyPenaltiesReqs
  | .presencePenalties => self.presencePenaltiesReqs
  | .repetitionPenalties => self.repetitionPenaltiesReqs
  | .allowedTokenIds => self.hasAllowedTokenIds

def registry (self : InputBatch β τ) : Registry where
  members := self.members
  loraIdToRequestIds := self.loraIdToRequestIds
  loraIdToLoraRequest := self.loraIdToLoraRequest
  numLogprobs := self.numLogprobs
  numPromptLogprobs := self.numPromptLogprobs
  inProgressPromptLogprobsCpu := self.inProgressPromptLogprobsCpu
  poolingParams := self.poolingParams
  samplingMetadata := self.samplingMetadata

def sampledRow (self : InputBatch β τ) (i : ℕ) : SampledRow where
  temperature := self.temperatureCpu i
  topP := self.topPCpu i
  topK := self.topKCpu i
  frequencyPenalty := self.frequencyPenaltiesCpu i
  presencePenalty := self.presencePenaltiesCpu i
  repetitionPenalty := self.repetitionPenaltiesCpu i

/-- What the lists, the index and the dictionaries by row agree on. -/
structure Layout (b : InputBatch β τ) : Prop where
  autoregressive : b.isPoolingModel = false
  index : Indexes (fun id => b.reqIdToIndex.lookup id) b.reqIds
  outputs : b.reqOutputTokenIds.length = b.reqIds.length
  generators : ∀ i, b.generators i ≠ none → ∃ id, b.reqIdToIndex.lookup id = some i
  badWords : ∀ i, b.badWordsTokenIds i ≠ none → ∃ id, b.reqIdToIndex.lookup id = some i

theorem Layout.numReqs_add (h : Layout self) :
    self.numReqs + (holes self.reqIds).card = self.reqIds.length :=
  h.index.length_keys self.reqIdToIndex.nodupKeys fun id => by
    rw [AList.lookup_isSome, AList.mem_keys]

/-- A row without a request has no generator and no bad words. -/
theorem Layout.free (h : Layout self) (hi : ∀ id, self.reqIdToIndex.lookup id ≠ some i) :
    self.generators i = none ∧ self.badWordsTokenIds i = none := by
  constructor
  · by_contra hne
    obtain ⟨id, hid⟩ := h.generators i hne
    exact hi id hid
  · by_contra hne
    obtain ⟨id, hid⟩ := h.badWords i hne
    exact hi id hid

theorem Layout.not_lookup_of_hole (h : Layout self) (hi : i ∈ holes self.reqIds) (id : ReqId) :
    self.reqIdToIndex.lookup id ≠ some i := fun hid => h.index.notMem_holes hid hi

theorem Layout.not_lookup_length (h : Layout self) (id : ReqId) :
    self.reqIdToIndex.lookup id ≠ some self.reqIds.length := fun hid =>
  lt_irrefl _ (h.index.lt hid)

/-- The rows that came free and are not filled yet are the empty ones. -/
def Tracked [BatchUpdateBuilder β] (self : InputBatch β τ) : Prop :=
  pending self.batchUpdateBuilder = holes self.reqIds

section Rows

variable [MultiGroupBlockTable τ]

def rowData (self : InputBatch β τ) (i : ℕ) : RowData where
  tokens := (List.range (self.numTokens i)).map (self.tokenIdsCpu i)
  numTokens := self.numTokens i
  numTokensNoSpec := self.numTokensNoSpec i
  numPromptTokens := self.numPromptTokens i
  numComputedTokens := self.numComputedTokensCpu i
  blocks := MultiGroupBlockTable.row self.blockTable i
  sampled := self.sampledRow i
  generator := self.generators i
  badWords := self.badWordsTokenIds i
  loraId := self.requestLoraMapping i
  outputTokenIds := self.reqOutputTokenIds[i]?.join

/-- **What the batch holds for an id.** -/
def seen (self : InputBatch β τ) (id : ReqId) : Option RowData :=
  (self.reqIdToIndex.lookup id).map self.rowData

/-- The part of it that no write of the runner changes. -/
def kept (self : InputBatch β τ) (id : ReqId) : Option (SampledRow × ℕ) :=
  (self.seen id).map fun d => (d.sampled, d.loraId)

theorem kept_of_lookup (hid : self.reqIdToIndex.lookup id = some i) :
    self.kept id = some (self.sampledRow i, self.requestLoraMapping i) := by
  rw [kept, seen, hid, Option.map_some, Option.map_some]
  rfl

theorem seen_eq_none : self.seen id = none ↔ self.reqIdToIndex.lookup id = none :=
  Option.map_eq_none_iff

theorem seen_of_lookup (hid : self.reqIdToIndex.lookup id = some i) :
    self.seen id = some (self.rowData i) := by
  rw [seen, hid, Option.map_some]

/-! ## `add_request` -/

/-- What `add_request` makes of the batch, once it has its row. -/
def added (self : InputBatch β τ) (id : ReqId) (r : FullRequestState) (params : SamplingParams)
    (i : ℕ) (builder : β) : InputBatch β τ :=
  (((({ self with batchUpdateBuilder := builder } : InputBatch β τ).placeRequest id r i).storeTokens
    r i).storeSamplingParams id params r.generator i).storeLora id r.loraRequest i

omit [MultiGroupBlockTable τ] in
/-- The generator is stored if there is one, in a row that has none. -/
theorem update_generators (generators : ℕ → Option Generator) (g : Option Generator) (i j : ℕ)
    (hfree : generators i = none) :
    (match g with
      | none => generators
      | some g => Function.update generators i (some g)) j = if j = i then g else generators j := by
  cases g with
  | none =>
    obtain rfl | hne := eq_or_ne j i
    · rw [if_pos rfl]
      exact hfree
    · rw [if_neg hne]
  | some g => exact Function.update_apply ..

omit [MultiGroupBlockTable τ] in
/-- …and so are the bad words. -/
theorem update_badWords (badWords : ℕ → Option (List (List Token)))
    (words : Option (List (List Token))) (i j : ℕ) (hfree : badWords i = none) :
    (match words with
      | none | some [] => badWords
      | some words => Function.update badWords i (some words)) j =
        if j = i then words.filter (· ≠ []) else badWords j := by
  match words with
  | none | some [] =>
    obtain rfl | hne := eq_or_ne j i
    · rw [if_pos rfl]
      exact hfree
    · rw [if_neg hne]
  | some (word :: words) => exact Function.update_apply ..

/-- The tokens of a request are its prompt and its output. -/
theorem map_storeTokens (row : ℕ → Token) (prompt output : List Token) :
    (List.range (prompt.length + output.length)).map
      (writeSlice (writeSlice row 0 prompt) prompt.length output) = prompt ++ output := by
  have hprompt : (List.range (0 + prompt.length)).map (writeSlice row 0 prompt) =
      (List.range 0).map row ++ prompt := map_writeSlice
  rw [Nat.zero_add] at hprompt
  rw [map_writeSlice, hprompt]
  rfl

/-- **The row of the request that is added.** -/
theorem rowData_added_self (hgenerator : self.generators i = none)
    (hbadWords : self.badWordsTokenIds i = none)
    (houtputs : self.reqOutputTokenIds.length = self.reqIds.length) (hi : i ≤ self.reqIds.length) :
    (self.added id r params i builder).rowData i = self.rowOf r params := by
  have hout : (self.added id r params i builder).reqOutputTokenIds[i]?.join =
      some r.outputTokenIds := by
    simp only [added, storeLora, storeSamplingParams, storeTokens, placeRequest]
    split
    · next h => simp [h, ← houtputs]
    · next h => simp [houtputs, Nat.lt_of_le_of_ne hi h]
  ext1
  case tokens =>
    simp only [rowData, added, storeLora, storeSamplingParams, storeTokens, placeRequest,
      Function.update_self]
    exact map_storeTokens ..
  case blocks => exact (MultiGroupBlockTable.row_addRow ..).trans (if_pos rfl)
  case sampled => ext1 <;> exact Function.update_self ..
  case generator => exact (update_generators _ _ _ _ hgenerator).trans (if_pos rfl)
  case badWords => exact (update_badWords _ _ _ _ hbadWords).trans (if_pos rfl)
  case outputTokenIds => exact hout
  all_goals exact Function.update_self ..

/-- The other rows stay. -/
theorem rowData_added_ne (hgenerator : self.generators i = none)
    (hbadWords : self.badWordsTokenIds i = none)
    (houtputs : self.reqOutputTokenIds.length = self.reqIds.length) (hne : j ≠ i)
    (hj : j < self.reqIds.length) :
    (self.added id r params i builder).rowData j = self.rowData j := by
  have hout : (self.added id r params i builder).reqOutputTokenIds[j]? =
      self.reqOutputTokenIds[j]? := by
    simp only [added, storeLora, storeSamplingParams, storeTokens, placeRequest]
    split
    · exact List.getElem?_append_left (houtputs ▸ hj)
    · exact List.getElem?_set_ne hne.symm
  have hnumTokens : (self.added id r params i builder).numTokens j = self.numTokens j :=
    Function.update_of_ne hne ..
  have htokens : (self.added id r params i builder).tokenIdsCpu j = self.tokenIdsCpu j :=
    Function.update_of_ne hne ..
  ext1
  case tokens => simp only [rowData, hnumTokens, htokens]
  case blocks => exact (MultiGroupBlockTable.row_addRow ..).trans (if_neg hne)
  case sampled => ext1 <;> exact Function.update_of_ne hne ..
  case generator => exact (update_generators _ _ _ _ hgenerator).trans (if_neg hne)
  case badWords => exact (update_badWords _ _ _ _ hbadWords).trans (if_neg hne)
  case outputTokenIds => simp only [rowData, hout]
  all_goals exact Function.update_of_ne hne ..

/-- A row that a new request can have: one that came free, or the next one. -/
def Open (self : InputBatch β τ) (i : ℕ) : Prop := i ∈ holes self.reqIds ∨ i = self.reqIds.length

omit [MultiGroupBlockTable τ] in
theorem Open.le (hi : self.Open i) : i ≤ self.reqIds.length :=
  hi.elim (fun h => (lt_of_mem_holes h).le) le_of_eq

omit [MultiGroupBlockTable τ] in
theorem Open.not_lookup (hi : self.Open i) (h : Layout self) (id : ReqId) :
    self.reqIdToIndex.lookup id ≠ some i := by
  intro hid
  obtain hhole | rfl := hi
  · exact h.index.notMem_holes hid hhole
  · exact lt_irrefl _ (h.index.lt hid)

theorem reqIds_added (id : ReqId) (r : FullRequestState) (params : SamplingParams) (builder : β)
    (hi : self.Open i) :
    (i ∈ holes self.reqIds ∧
        (self.added id r params i builder).reqIds = self.reqIds.set i (some id)) ∨
      (i = self.reqIds.length ∧
        (self.added id r params i builder).reqIds = self.reqIds ++ [some id]) :=
  hi.imp (fun h => ⟨h, if_neg (lt_of_mem_holes h).ne⟩) fun h => ⟨h, if_pos h⟩

theorem Layout.added (h : Layout self) (hi : self.Open i)
    (hid : self.reqIdToIndex.lookup id = none) :
    Layout (self.added id r params i builder) := by
  have hfree := h.free (hi.not_lookup h)
  have hlookup : (fun id' => (self.added id r params i builder).reqIdToIndex.lookup id') =
      Function.update (fun id' => self.reqIdToIndex.lookup id') id (some i) :=
    Dict.lookup_insert_eq ..
  have hkept : ∀ j, (∃ id', self.reqIdToIndex.lookup id' = some j) →
      ∃ id', (self.added id r params i builder).reqIdToIndex.lookup id' = some j := by
    rintro j ⟨id', hid'⟩
    refine ⟨id', (AList.lookup_insert_ne ?_).trans hid'⟩
    rintro rfl
    simp [hid] at hid'
  constructor
  case autoregressive => exact h.autoregressive
  case index =>
    rw [hlookup]
    obtain ⟨hhole, hreqIds⟩ | ⟨rfl, hreqIds⟩ := reqIds_added id r params builder
      hi
    · rw [hreqIds]
      exact h.index.fill hid hhole
    · rw [hreqIds]
      exact h.index.append hid
  case outputs =>
    have hout := h.outputs
    simp only [InputBatch.added, storeLora, storeSamplingParams, storeTokens, placeRequest]
    split <;> simpa using hout
  case generators =>
    intro j hj
    obtain rfl | hne := eq_or_ne j i
    · exact ⟨id, AList.lookup_insert _⟩
    · have heq := (update_generators self.generators r.generator i j hfree.1).trans (if_neg hne)
      exact hkept j (h.generators j (heq ▸ hj))
  case badWords =>
    intro j hj
    obtain rfl | hne := eq_or_ne j i
    · exact ⟨id, AList.lookup_insert _⟩
    · have heq := (update_badWords self.badWordsTokenIds params.badWordsTokenIds i j
        hfree.2).trans (if_neg hne)
      exact hkept j (h.badWords j (heq ▸ hj))

/-- **A request that is added is seen with its own row**, and the others as before. -/
theorem seen_added (h : Layout self) (hi : self.Open i)
    (hid : self.reqIdToIndex.lookup id = none) :
    (self.added id r params i builder).seen =
      Function.update self.seen id (some (self.rowOf r params)) := by
  have hfree := h.free (hi.not_lookup h)
  funext id'
  obtain rfl | hne := eq_or_ne id' id
  · rw [Function.update_self, seen_of_lookup (AList.lookup_insert _),
      rowData_added_self hfree.1 hfree.2 h.outputs hi.le]
  · rw [Function.update_of_ne hne, seen, seen]
    have hlookup : (self.added id r params i builder).reqIdToIndex.lookup id' =
        self.reqIdToIndex.lookup id' := AList.lookup_insert_ne hne
    rw [hlookup]
    cases hid' : self.reqIdToIndex.lookup id' with
    | none => rfl
    | some j =>
      have hji : j ≠ i := fun heq => hi.not_lookup h id' (heq ▸ hid')
      rw [Option.map_some, Option.map_some,
        rowData_added_ne hfree.1 hfree.2 h.outputs hji (h.index.lt hid')]

theorem mem_members_added {s : ReqSet} :
    id' ∈ (self.added id r params i builder).members s ↔
      (id' = id ∧ s.Has self.toBatchConfig params) ∨ id' ∈ self.members s := by
  cases s <;> exact mem_addIf

/-- The row `add_request` takes. -/
def nextRow [BatchUpdateBuilder β] (self : InputBatch β τ) : ℕ :=
  (popRemoved self.batchUpdateBuilder).1.getD self.numReqs

omit [MultiGroupBlockTable τ] in
/-- The row of a new request. -/
theorem registerAddRequest_eq_ok [BatchUpdateBuilder β] (h : Layout self) (htracked : Tracked self)
    (hok : self.registerAddRequest r = .ok (self', i)) :
    ∃ params builder, r.samplingParams = some params ∧
      self' = { self with batchUpdateBuilder := builder } ∧ i = self.nextRow ∧ self.Open i ∧
      Changed builder ∧ pending builder = (holes self.reqIds).erase i := by
  unfold registerAddRequest at hok
  split at hok
  · contradiction
  · next params hparams =>
    simp only at hok
    split at hok
    · cases hok
      refine ⟨params, _, hparams, rfl, rfl, ?_⟩
      rw [pending_addedAppend]
      obtain hnone | hsome := (holes self.reqIds).eq_empty_or_nonempty
      · -- no row came free
        have hpending : pending self.batchUpdateBuilder = ∅ := htracked.trans hnone
        obtain ⟨hpopped, hpending'⟩ := popRemoved_none hpending
        have hnum := h.numReqs_add
        rw [hnone, Finset.card_empty, Nat.add_zero] at hnum
        rw [hpopped, Option.getD_none, hpending', hnone]
        exact ⟨Or.inr hnum, changed_addedAppend _ _, rfl⟩
      · have hleast : IsLeast (pending self.batchUpdateBuilder : Set ℕ)
            ((holes self.reqIds).min' hsome) := by
          rw [htracked]
          exact Finset.isLeast_min' _ hsome
        obtain ⟨hpopped, hpending'⟩ := popRemoved_some hleast
        rw [hpopped, Option.getD_some, hpending', htracked]
        exact ⟨Or.inl (Finset.min'_mem _ hsome), changed_addedAppend _ _, rfl⟩
    · contradiction

/-- **`add_request` fills a row that came free**, or takes the next one. -/
theorem addRequest_eq_ok [BatchUpdateBuilder β] (h : Layout self) (htracked : Tracked self)
    (hok : self.addRequest id r = .ok self') :
    ∃ params i builder, r.samplingParams = some params ∧ i = self.nextRow ∧ self.Open i ∧
      Changed builder ∧ (∀ t ∈ params.allowedTokenIds.getD [], t < self.vocabSize) ∧
        self' = self.added id r params i builder ∧ Tracked self' := by
  unfold addRequest at hok
  rw [if_neg (by simp [h.autoregressive]), bind_eq_ok] at hok
  obtain ⟨⟨self₁, i⟩, hregister, hok⟩ := hok
  obtain ⟨params, builder, hparams, rfl, hnext, hi, hchanged, hpending⟩ :=
    registerAddRequest_eq_ok h htracked hregister
  simp only [if_neg (Nat.not_lt.mpr hi.le), bind_eq_ok] at hok
  obtain ⟨self₂, hstored, hok⟩ := hok
  simp only [storeParams, hparams] at hstored
  split at hstored
  · contradiction
  · next hvocab =>
    cases hstored
    cases hok
    refine ⟨params, i, builder, hparams, hnext, hi, hchanged,
      fun t ht => Nat.lt_of_not_le fun hle => hvocab ⟨t, ht, hle⟩, rfl, ?_⟩
    refine hpending.trans ?_
    obtain ⟨hhole, hreqIds⟩ | ⟨rfl, hreqIds⟩ := reqIds_added id r params builder
      hi
    · exact (holes_set_some (lt_of_mem_holes hhole)).symm.trans (congrArg holes hreqIds).symm
    · refine (Finset.erase_eq_of_notMem fun hmem => ?_).trans
        ((holes_append_some _ _).symm.trans (congrArg holes hreqIds).symm)
      exact lt_irrefl _ (lt_of_mem_holes hmem)

/-! ## `remove_request` -/

/-- What `remove_request` makes of the dictionaries by LoRA id. -/
structure Released (b b' : InputBatch β τ) (id : ReqId) (i : ℕ) : Prop where
  none : b.requestLoraMapping i = 0 → b'.loraIdToRequestIds = b.loraIdToRequestIds ∧
    b'.loraIdToLoraRequest = b.loraIdToLoraRequest
  some : b.requestLoraMapping i ≠ 0 → ∃ ids,
    b.loraIdToRequestIds (b.requestLoraMapping i) = some ids ∧
    b'.loraIdToRequestIds = Function.update b.loraIdToRequestIds (b.requestLoraMapping i)
      (if ids.erase id = ∅ then Option.none else Option.some (ids.erase id)) ∧
    b'.loraIdToLoraRequest =
      if ids.erase id = ∅ then
        Function.update b.loraIdToLoraRequest (b.requestLoraMapping i) Option.none
      else b.loraIdToLoraRequest

/-- What `remove_request` makes of the batch, up to the dictionaries by LoRA id. -/
def dropped (self : InputBatch β τ) (id : ReqId) (i : ℕ) (builder : β)
    (ids : ℕ → Option (Finset ReqId)) (lora : ℕ → Option LoRARequest) : InputBatch β τ :=
  ({ ({ self with batchUpdateBuilder := builder } : InputBatch β τ).dropRequest id i with
    loraIdToRequestIds := ids
    loraIdToLoraRequest := lora
    requestLoraMapping := Function.update self.requestLoraMapping i 0 } : InputBatch β τ).dropMask
      id i

omit [MultiGroupBlockTable τ] in
theorem releaseLora_eq_ok (hok : self.releaseLora id i = .ok self') :
    ∃ ids lora, self' = { self with
        loraIdToRequestIds := ids
        loraIdToLoraRequest := lora
        requestLoraMapping := Function.update self.requestLoraMapping i 0 } ∧
      Released self self' id i := by
  unfold releaseLora at hok
  simp only at hok
  split at hok
  · next hzero =>
    cases hok
    refine ⟨self.loraIdToRequestIds, self.loraIdToLoraRequest, ?_, fun _ => ⟨rfl, rfl⟩,
      fun hne => absurd hzero hne⟩
    rw [← hzero, Function.update_eq_self]
  · next hne =>
    split at hok
    · contradiction
    · next ids hids =>
      split at hok
      · contradiction
      · cases hok
        exact ⟨_, _, rfl, fun hzero => absurd hzero hne, fun _ => ⟨ids, hids, rfl, rfl⟩⟩

theorem rowData_dropped_ne {ids : ℕ → Option (Finset ReqId)} {lora : ℕ → Option LoRARequest}
    (hne : j ≠ i) : (self.dropped id i builder ids lora).rowData j = self.rowData j := by
  have hout : (self.dropped id i builder ids lora).reqOutputTokenIds[j]? =
      self.reqOutputTokenIds[j]? := List.getElem?_set_ne hne.symm
  ext1
  case generator => exact Function.update_of_ne hne ..
  case badWords => exact Function.update_of_ne hne ..
  case loraId => exact Function.update_of_ne hne ..
  case outputTokenIds => simp only [rowData, hout]
  all_goals rfl

omit [MultiGroupBlockTable τ] in
theorem Layout.dropped {ids : ℕ → Option (Finset ReqId)} {lora : ℕ → Option LoRARequest}
    (h : Layout self) (hid : self.reqIdToIndex.lookup id = some i) :
    Layout (self.dropped id i builder ids lora) := by
  have hkept : ∀ j, j ≠ i → (∃ id', self.reqIdToIndex.lookup id' = some j) →
      ∃ id', (self.dropped id i builder ids lora).reqIdToIndex.lookup id' = some j := by
    rintro j hne ⟨id', hid'⟩
    refine ⟨id', (AList.lookup_erase_ne ?_).trans hid'⟩
    rintro rfl
    exact hne (Option.some.inj (hid'.symm.trans hid))
  constructor
  case autoregressive => exact h.autoregressive
  case index =>
    have hlookup : (fun id' => (self.dropped id i builder ids lora).reqIdToIndex.lookup id') =
        Function.update (fun id' => self.reqIdToIndex.lookup id') id none :=
      Dict.lookup_erase_eq ..
    rw [hlookup]
    exact h.index.remove hid
  case outputs =>
    have hout := h.outputs
    simpa [InputBatch.dropped, dropMask, dropRequest] using hout
  case generators =>
    intro j hj
    obtain rfl | hne := eq_or_ne j i
    · exact absurd (Function.update_self ..) hj
    · exact hkept j hne (h.generators j fun heq => hj ((Function.update_of_ne hne ..).trans heq))
  case badWords =>
    intro j hj
    obtain rfl | hne := eq_or_ne j i
    · exact absurd (Function.update_self ..) hj
    · exact hkept j hne (h.badWords j fun heq => hj ((Function.update_of_ne hne ..).trans heq))

/-- **A request that is removed is not seen any more**, and the others as before. -/
theorem seen_dropped {ids : ℕ → Option (Finset ReqId)} {lora : ℕ → Option LoRARequest}
    (h : Layout self) (hid : self.reqIdToIndex.lookup id = some i) :
    (self.dropped id i builder ids lora).seen = Function.update self.seen id none := by
  funext id'
  obtain rfl | hne := eq_or_ne id' id
  · rw [Function.update_self, seen_eq_none]
    exact AList.lookup_erase id' self.reqIdToIndex
  · rw [Function.update_of_ne hne, seen, seen]
    have hlookup : (self.dropped id i builder ids lora).reqIdToIndex.lookup id' =
        self.reqIdToIndex.lookup id' := AList.lookup_erase_ne hne
    rw [hlookup]
    cases hid' : self.reqIdToIndex.lookup id' with
    | none => rfl
    | some j =>
      have hji : j ≠ i := by
        rintro rfl
        exact hne (h.index.inj hid' hid)
      rw [Option.map_some, Option.map_some, rowData_dropped_ne hji]

omit [MultiGroupBlockTable τ] in
theorem members_dropped {ids : ℕ → Option (Finset ReqId)} {lora : ℕ → Option LoRARequest}
    {s : ReqSet} :
    (self.dropped id i builder ids lora).members s = (self.members s).erase id := by
  cases s <;> rfl

omit [MultiGroupBlockTable τ] in
/-- **`remove_request` leaves a row free.** -/
theorem removeRequest_eq_ok [BatchUpdateBuilder β] (h : Layout self) (htracked : Tracked self)
    (hunread : Unread self.batchUpdateBuilder) (hid : self.reqIdToIndex.lookup id = some i)
    (hok : self.removeRequest id = .ok self') :
    ∃ builder ids lora, self' = self.dropped id i builder ids lora ∧ Released self self' id i ∧
      Tracked self' ∧ Unread builder ∧ Changed builder := by
  unfold removeRequest at hok
  simp only [hid] at hok
  unfold removeRow at hok
  rw [if_neg (by simp [h.autoregressive]), bind_eq_ok] at hok
  obtain ⟨builder, happend, hok⟩ := hok
  have hpending : pending self.batchUpdateBuilder = holes self.reqIds := htracked
  obtain ⟨builder', happend', hpending', hunread', hchanged⟩ :=
    removedAppend_spec hunread (hpending ▸ h.index.notMem_holes hid)
  cases happend.symm.trans happend'
  simp only [if_pos (h.index.lt hid), bind_eq_ok] at hok
  obtain ⟨self₁, hrelease, hok⟩ := hok
  obtain ⟨ids, lora, rfl, hreleased⟩ := releaseLora_eq_ok hrelease
  cases hok
  refine ⟨builder, ids, lora, rfl, ⟨hreleased.none, hreleased.some⟩, ?_, hunread', hchanged⟩
  refine hpending'.trans ?_
  rw [hpending]
  exact (holes_set_none (h.index.lt hid)).symm

/-! ## `swap_states` -/

section Swap

variable [BatchUpdateBuilder β]

/-- **The rows are exchanged**, each with all that is in it. -/
theorem rowData_swapped {id1 id2 : ReqId} (hi : i < self.reqOutputTokenIds.length)
    (hj : j < self.reqOutputTokenIds.length) (k : ℕ) :
    (self.swapped i j id1 id2).rowData k = self.rowData (Equiv.swap i j k) := by
  have hnumTokens : (self.swapped i j id1 id2).numTokens k = self.numTokens (Equiv.swap i j k) :=
    swapRows_apply ..
  have htokens : (self.swapped i j id1 id2).tokenIdsCpu k =
      self.tokenIdsCpu (Equiv.swap i j k) := swapRows_apply ..
  have hout : (self.swapped i j id1 id2).reqOutputTokenIds[k]? =
      self.reqOutputTokenIds[Equiv.swap i j k]? := getElem?_swapItems hi hj k
  ext1
  case tokens => simp only [rowData, hnumTokens, htokens]
  case blocks =>
    refine (MultiGroupBlockTable.row_swapRow ..).trans ?_
    rw [rowData, Equiv.swap_apply_def]
    split
    · rfl
    · split <;> rfl
  case sampled => ext1 <;> exact swapRows_apply ..
  case outputTokenIds => simp only [rowData, hout]
  all_goals exact swapRows_apply ..

theorem lookup_swapped (h : Layout self) (hid : self.reqIdToIndex.lookup id = some i)
    (hid' : self.reqIdToIndex.lookup id' = some j) (k : ReqId) :
    (self.swapped i j id id').reqIdToIndex.lookup k =
      (self.reqIdToIndex.lookup k).map (Equiv.swap i j) := by
  have heq : (fun k => (self.swapped i j id id').reqIdToIndex.lookup k) =
      Function.update (Function.update (fun k => self.reqIdToIndex.lookup k) id (some j)) id'
        (some i) := (Dict.lookup_insert_eq ..).trans (congrArg (Function.update · id' (some i))
          (Dict.lookup_insert_eq ..))
  refine (congrFun heq k).trans ?_
  rw [Function.update_apply, Function.update_apply]
  split
  · next hk => rw [hk, hid', Option.map_some, Equiv.swap_apply_right]
  · next hne' =>
    split
    · next hk => rw [hk, hid, Option.map_some, Equiv.swap_apply_left]
    · next hne =>
      cases hk : self.reqIdToIndex.lookup k with
      | none => rfl
      | some l =>
        have hli : l ≠ i := fun heq => hne (h.index.inj (heq ▸ hk) hid)
        have hlj : l ≠ j := fun heq => hne' (h.index.inj (heq ▸ hk) hid')
        rw [Option.map_some, Equiv.swap_apply_of_ne_of_ne hli hlj]

theorem Layout.swapped (h : Layout self) (hid : self.reqIdToIndex.lookup id = some i)
    (hid' : self.reqIdToIndex.lookup id' = some j) : Layout (self.swapped i j id id') := by
  have hkept : ∀ k, (∃ id, self.reqIdToIndex.lookup id = some (Equiv.swap i j k)) →
      ∃ id'', (self.swapped i j id id').reqIdToIndex.lookup id'' = some k := by
    rintro k ⟨id'', hk⟩
    refine ⟨id'', ?_⟩
    rw [lookup_swapped h hid hid', hk, Option.map_some, Equiv.swap_apply_self]
  constructor
  case autoregressive => exact h.autoregressive
  case index =>
    have hindex := h.index.swap hid hid'
    rw [← Dict.lookup_insert_eq, ← Dict.lookup_insert_eq] at hindex
    have hreqIds : (self.swapped i j id id').reqIds =
        (self.reqIds.set i (some id')).set j (some id) := by
      simp only [InputBatch.swapped, swapItems, (h.index id i).mp hid, (h.index id' j).mp hid']
    rw [hreqIds]
    exact hindex
  case outputs =>
    have hlength : ∀ {α : Type} (l : List α), (swapItems l i j).length = l.length := by
      intro α l
      unfold swapItems
      split
      · rw [List.length_set, List.length_set]
      · rfl
    exact (hlength _).trans (h.outputs.trans (hlength _).symm)
  case generators =>
    intro k hk
    refine hkept k (h.generators _ fun heq => hk ?_)
    exact (swapRows_apply ..).trans heq
  case badWords =>
    intro k hk
    refine hkept k (h.badWords _ fun heq => hk ?_)
    exact (swapRows_apply ..).trans heq

/-- **An exchange is not seen.** -/
theorem seen_swapped (h : Layout self) (hid : self.reqIdToIndex.lookup id = some i)
    (hid' : self.reqIdToIndex.lookup id' = some j) :
    (self.swapped i j id id').seen = self.seen := by
  funext k
  rw [seen, seen, lookup_swapped h hid hid', Option.map_map]
  cases self.reqIdToIndex.lookup k with
  | none => rfl
  | some l =>
    rw [Option.map_some, Option.map_some, Function.comp_apply,
      rowData_swapped (h.outputs ▸ h.index.lt hid) (h.outputs ▸ h.index.lt hid'),
      Equiv.swap_apply_self]

omit [MultiGroupBlockTable τ] [BatchUpdateBuilder β] in
theorem index_of_reqIds (h : Layout self) (hid : self.reqIds[i]? = some (some id)) :
    self.reqIdToIndex.lookup id = some i :=
  (h.index id i).mpr hid

theorem swapStates_eq_ok (h : Layout self) (hok : self.swapStates i j = .ok self') :
    ∃ id id', self.reqIdToIndex.lookup id = some i ∧ self.reqIdToIndex.lookup id' = some j ∧
      self' = self.swapped i j id id' := by
  unfold swapStates at hok
  split at hok
  · next id id' hi hj =>
    cases hok
    exact ⟨id, id', index_of_reqIds h hi, index_of_reqIds h hj, rfl⟩
  · contradiction
  · contradiction

/-- The rows of requests are not free, before and after. -/
theorem holes_swapped (h : Layout self) (hid : self.reqIdToIndex.lookup id = some i)
    (hid' : self.reqIdToIndex.lookup id' = some j) :
    holes (self.swapped i j id id').reqIds = holes self.reqIds := by
  ext k
  have hget : (self.swapped i j id id').reqIds[k]? = self.reqIds[Equiv.swap i j k]? :=
    getElem?_swapItems (h.index.lt hid) (h.index.lt hid') k
  rw [mem_holes, hget, ← mem_holes, Equiv.swap_apply_def]
  have hi := h.index.notMem_holes hid
  have hj := h.index.notMem_holes hid'
  split
  · next hk => simp [hk, hi, hj]
  · split
    · next hk => simp [hk, hi, hj]
    · rfl

end Swap

/-! ## Writes in place -/

theorem layout_write (h : Layout self) (w : RowWrite) : Layout (self.write i w) := by
  cases w with
  | outputTokenIds l =>
    exact ⟨h.autoregressive, h.index, (List.length_set ..).trans h.outputs, h.generators,
      h.badWords⟩
  | _ => exact ⟨h.autoregressive, h.index, h.outputs, h.generators, h.badWords⟩

/-- A write touches nothing but the row. -/
theorem write_eq (self : InputBatch β τ) (i : ℕ) (w : RowWrite) :
    (self.write i w).registry = self.registry ∧
      (self.write i w).toBatchConfig = self.toBatchConfig ∧
      (self.write i w).reqIds = self.reqIds ∧
      (self.write i w).reqIdToIndex = self.reqIdToIndex ∧
      (self.write i w).batchUpdateBuilder = self.batchUpdateBuilder := by
  cases w <;> exact ⟨rfl, rfl, rfl, rfl, rfl⟩

/-- **A write changes the row it is made in**, and no other. -/
theorem rowData_write {w : RowWrite} (hfits : w.Fits (self.rowData i))
    (hi : i < self.reqOutputTokenIds.length) (k : ℕ) :
    (self.write i w).rowData k = if k = i then (self.rowData i).write w else self.rowData k := by
  obtain rfl | hne := eq_or_ne k i
  · rw [if_pos rfl]
    cases w with
    | numComputedTokens n =>
      ext1
      case numComputedTokens => exact Function.update_self ..
      all_goals rfl
    | blocks b =>
      ext1
      case blocks => exact (MultiGroupBlockTable.row_appendRow hfits k).trans (if_pos rfl)
      all_goals rfl
    | tokens start values numTokens numTokensNoSpec =>
      ext1
      case tokens =>
        simp only [rowData, InputBatch.write, RowData.write, Function.update_self]
        exact map_writeSlice_take hfits.1 hfits.2
      case numTokens => exact Function.update_self ..
      case numTokensNoSpec => exact Function.update_self ..
      all_goals rfl
    | outputTokenIds l =>
      ext1
      case outputTokenIds =>
        exact (congrArg Option.join (List.getElem?_set_self hi)).trans (Option.join_some ..)
      all_goals rfl
  · rw [if_neg hne]
    cases w with
    | numComputedTokens n =>
      ext1
      case numComputedTokens => exact Function.update_of_ne hne ..
      all_goals rfl
    | blocks b =>
      ext1
      case blocks => exact (MultiGroupBlockTable.row_appendRow hfits k).trans (if_neg hne)
      all_goals rfl
    | tokens start values numTokens numTokensNoSpec =>
      have hnumTokens : (self.write i (.tokens start values numTokens numTokensNoSpec)).numTokens k =
          self.numTokens k := Function.update_of_ne hne ..
      have htokens : (self.write i (.tokens start values numTokens numTokensNoSpec)).tokenIdsCpu k =
          self.tokenIdsCpu k := Function.update_of_ne hne ..
      ext1
      case tokens => simp only [rowData, hnumTokens, htokens]
      case numTokens => exact hnumTokens
      case numTokensNoSpec => exact Function.update_of_ne hne ..
      all_goals rfl
    | outputTokenIds l =>
      ext1
      case outputTokenIds => exact congrArg Option.join (List.getElem?_set_ne hne.symm)
      all_goals rfl

theorem kept_write (self : InputBatch β τ) (i : ℕ) (w : RowWrite) :
    (self.write i w).kept = self.kept := by
  funext id
  rw [kept, seen, (self.write_eq i w).2.2.2.1, Option.map_map, kept, seen, Option.map_map]
  cases w <;> rfl

/-- **A write is seen by the request it is made for**. -/
theorem seen_write {w : RowWrite} (h : Layout self) (hid : self.reqIdToIndex.lookup id = some i)
    (hfits : w.Fits (self.rowData i)) :
    (self.write i w).seen =
      Function.update self.seen id (some ((self.rowData i).write w)) := by
  have hlt : i < self.reqOutputTokenIds.length := h.outputs ▸ h.index.lt hid
  funext id'
  rw [seen, (self.write_eq i w).2.2.2.1]
  obtain rfl | hne := eq_or_ne id' id
  · rw [Function.update_self, hid, Option.map_some, rowData_write hfits hlt, if_pos rfl]
  · rw [Function.update_of_ne hne, seen]
    cases hid' : self.reqIdToIndex.lookup id' with
    | none => rfl
    | some k =>
      have hki : k ≠ i := fun heq => hne (h.index.inj (heq ▸ hid') hid)
      rw [Option.map_some, Option.map_some, rowData_write hfits hlt, if_neg hki]

end Rows

/-! ## `refresh_metadata` -/

/-- The batch with other tensors on the device and another metadata. -/
def withDevice (self : InputBatch β τ) (builder : β) (temperature topP : ℕ → ℚ) (topK : ℕ → ℤ)
    (frequencyPenalties presencePenalties repetitionPenalties : ℕ → ℚ)
    (mask : Option (ℕ → Token → Bool)) (samplingMetadata : SamplingMetadata) : InputBatch β τ :=
  { self with
    batchUpdateBuilder := builder
    temperature := temperature
    topP := topP
    topK := topK
    frequencyPenalties := frequencyPenalties
    presencePenalties := presencePenalties
    repetitionPenalties := repetitionPenalties
    allowedTokenIdsMask := mask
    samplingMetadata := samplingMetadata }

theorem Layout.withDevice {t p f pr rp : ℕ → ℚ} {k : ℕ → ℤ} {mask : Option (ℕ → Token → Bool)}
    {md : SamplingMetadata} (h : Layout self) :
    Layout (self.withDevice builder t p k f pr rp mask md) :=
  ⟨h.autoregressive, h.index, h.outputs, h.generators, h.badWords⟩

/-- `_make_sampling_metadata` writes the tensors on the device. -/
theorem makeSamplingMetadata_eq_ok {md : SamplingMetadata}
    (hok : self.makeSamplingMetadata = .ok (self', md)) : ∃ t p k f pr rp mask,
      self' = self.withDevice self.batchUpdateBuilder t p k f pr rp mask self.samplingMetadata := by
  unfold makeSamplingMetadata at hok
  simp only at hok
  split at hok
  · cases hok
    exact ⟨_, _, _, _, _, _, _, rfl⟩
  · split at hok
    · cases hok
      exact ⟨_, _, _, _, _, _, _, rfl⟩
    · contradiction

/-- **`refresh_metadata` makes the metadata anew if anything changed**, and begins to collect
changes again. -/
theorem refreshMetadata_eq_ok [BatchUpdateBuilder β] (h : Layout self)
    (hok : self.refreshMetadata = .ok self') : ∃ builder t p k f pr rp mask md,
      self' = self.withDevice builder t p k f pr rp mask md ∧ pending builder = ∅ ∧
      Unread builder ∧ ¬Changed builder ∧
      (¬Changed self.batchUpdateBuilder ∧ md = self.samplingMetadata ∨
        ∃ b b', b.makeSamplingMetadata = .ok (b', md) ∧
          b = { self with batchUpdateBuilder := builder }) := by
  have hpending := pending_getAndReset self.numReqs self.batchUpdateBuilder
  have hunread := unread_getAndReset self.numReqs self.batchUpdateBuilder
  have hchanged := not_changed_getAndReset self.numReqs self.batchUpdateBuilder
  unfold refreshMetadata at hok
  rw [if_neg (by simp [h.autoregressive])] at hok
  simp only at hok
  split at hok
  · next hnone =>
    cases hok
    refine ⟨_, _, _, _, _, _, _, _, _, rfl, hpending, hunread, hchanged, Or.inl ⟨?_, rfl⟩⟩
    rw [← isSome_getAndReset self.numReqs, hnone]
    simp
  · rw [bind_eq_ok] at hok
    obtain ⟨⟨b', md⟩, hmake, hok⟩ := hok
    cases hok
    obtain ⟨t, p, k, f, pr, rp, mask, rfl⟩ := makeSamplingMetadata_eq_ok hmake
    exact ⟨_, t, p, k, f, pr, rp, mask, md, rfl, hpending, hunread, hchanged,
      Or.inr ⟨_, _, hmake, rfl⟩⟩

end InputBatch

end VllmAscend
