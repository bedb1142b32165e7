import VllmAscend.Worker.InputBatch

/-!
# Worker/SmallBatch — a builder and a block table that do what vLLM's are documented to do

A batch is built on two parts of vLLM that are only known by what is said of them.  Here are two that
meet it: the removed rows as a set, and the blocks of each row as they are.
-/

namespace VllmAscend

open BatchUpdateBuilder

structure UpdateBuilder where
  pending : Finset ℕ
  /-- `_is_removed_sorted` -/
  isRead : Bool
  addedRequests : List AddedRequest
  movedRequests : List MovedRequest
  deriving DecidableEq

namespace UpdateBuilder

/-- The lowest removed row. -/
def lowest (b : UpdateBuilder) : Option ℕ := (b.pending.sort (· ≤ ·)).head?

theorem lowest_eq {b : UpdateBuilder} {i : ℕ} (h : IsLeast (b.pending : Set ℕ) i) :
    b.lowest = some i := by
  have hmem : i ∈ b.pending.sort (· ≤ ·) := (Finset.mem_sort _).mpr h.1
  rw [lowest]
  cases hsort : b.pending.sort (· ≤ ·) with
  | nil => simp [hsort] at hmem
  | cons j l =>
    have hj : j ∈ b.pending := (Finset.mem_sort (· ≤ ·)).mp (hsort ▸ List.mem_cons_self)
    have hsorted := Finset.pairwise_sort b.pending (· ≤ ·)
    rw [hsort, List.pairwise_cons] at hsorted
    rw [hsort] at hmem
    have hji : j ≤ i := by
      obtain rfl | hi := List.mem_cons.mp hmem
      · exact le_rfl
      · exact hsorted.1 i hi
    rw [List.head?_cons, le_antisymm hji (h.2 hj)]

instance : BatchUpdateBuilder UpdateBuilder where
  removedAppend i b :=
    if b.isRead then .error .removedRead else .ok { b with pending := insert i b.pending }
  removed b := (b.pending.sort (· ≥ ·), { b with isRead := true })
  peekRemoved b := (b.lowest, { b with isRead := b.isRead || b.pending ≠ ∅ })
  popRemoved b :=
    (b.lowest, { b with
      pending := b.lowest.elim b.pending b.pending.erase
      isRead := b.isRead || b.pending ≠ ∅ })
  addedAppend a b := { b with addedRequests := b.addedRequests ++ [a] }
  movedAppend m b := { b with movedRequests := b.movedRequests ++ [m] }
  getAndReset n b :=
    (if b.pending = ∅ ∧ b.addedRequests = [] ∧ b.movedRequests = [] then none
      else some ⟨n, b.pending.sort (· ≥ ·), b.addedRequests, b.movedRequests⟩,
      ⟨∅, false, [], []⟩)
  pending b := b.pending
  Unread b := b.isRead = false
  Changed b := ¬(b.pending = ∅ ∧ b.addedRequests = [] ∧ b.movedRequests = [])
  removedAppend_spec := by
    intro b i hunread hi
    exact ⟨_, if_neg (by simp [hunread]), rfl, hunread, by simp⟩
  removed_eq _ := rfl
  pending_removed _ := rfl
  changed_removed _ := Iff.rfl
  peekRemoved_eq h := lowest_eq h
  pending_peekRemoved _ := rfl
  changed_peekRemoved _ := Iff.rfl
  popRemoved_none h := by simp [lowest, h]
  popRemoved_some h := by simp [lowest_eq h]
  pending_addedAppend _ _ := rfl
  changed_addedAppend _ _ := by simp
  pending_movedAppend _ _ := rfl
  unread_movedAppend h := h
  changed_movedAppend _ _ := by simp
  isSome_getAndReset _ b := by
    simp only
    split <;> simp_all
  pending_getAndReset _ _ := rfl
  unread_getAndReset _ _ := rfl
  not_changed_getAndReset _ _ := by simp

end UpdateBuilder

/-- The blocks of each row. -/
structure RowBlocks where
  row : ℕ → List (List BlockId)

instance : MultiGroupBlockTable RowBlocks where
  addRow b i t := ⟨Function.update t.row i b⟩
  appendRow b i t := ⟨Function.update t.row i (List.zipWith (· ++ ·) (t.row i) b)⟩
  moveRow i j t := ⟨copyRow t.row i j⟩
  swapRow i j t := ⟨swapRows t.row i j⟩
  row := RowBlocks.row
  row_addRow _ _ _ _ := Function.update_apply ..
  row_appendRow _ _ := Function.update_apply ..
  row_moveRow _ := Function.update_apply ..
  row_swapRow i j t k := by
    simp only [swapRows, Function.update_apply]
    obtain rfl | hi := eq_or_ne k i
    · rw [if_pos rfl, if_pos rfl]
      split
      · next hj => rw [hj]
      · rfl
    · rw [if_neg hi, if_neg hi]

/-- What the metadata of an empty batch is. -/
def SamplingMetadata.empty : SamplingMetadata where
  temperature := none
  allGreedy := true
  allRandom := true
  topP := none
  topK := none
  maxNumLogprobs := none
  promptTokenIds := none
  frequencyPenalties := []
  presencePenalties := []
  repetitionPenalties := []
  noPenalties := true
  allowedTokenIdsMask := none

/-- A batch as `__init__` makes it, in memory that is all zeros. -/
def InputBatch.start (config : BatchConfig) : InputBatch UpdateBuilder RowBlocks where
  toBatchConfig := config
  reqIds := []
  reqIdToIndex := ∅
  tokenIdsCpu _ _ := 0
  numTokens _ := 0
  numTokensNoSpec _ := 0
  numPromptTokens _ := 0
  numComputedTokensCpu _ := 0
  blockTable := ⟨fun _ => []⟩
  temperature _ := 0
  temperatureCpu _ := 0
  greedyReqs := ∅
  randomReqs := ∅
  topP _ := 0
  topPCpu _ := 0
  topPReqs := ∅
  topK _ := 0
  topKCpu _ := 0
  topKReqs := ∅
  specDecodeUnsupportedReqs := ∅
  frequencyPenalties _ := 0
  frequencyPenaltiesCpu _ := 0
  frequencyPenaltiesReqs := ∅
  presencePenalties _ := 0
  presencePenaltiesCpu _ := 0
  presencePenaltiesReqs := ∅
  repetitionPenalties _ := 0
  repetitionPenaltiesCpu _ := 0
  repetitionPenaltiesReqs := ∅
  requestLoraMapping _ := 0
  loraIdToRequestIds _ := none
  loraIdToLoraRequest _ := none
  generators _ := none
  numLogprobs := ∅
  numPromptLogprobs := ∅
  inProgressPromptLogprobsCpu := ∅
  batchUpdateBuilder := ⟨∅, false, [], []⟩
  hasAllowedTokenIds := ∅
  allowedTokenIdsMask := none
  allowedTokenIdsMaskCpuTensor := none
  badWordsTokenIds _ := none
  logitsProcessingNeedsTokenIds _ := false
  reqOutputTokenIds := []
  samplingMetadata := .empty
  poolingParams := ∅

/-- Four rows and eight tokens, for numbers that need no rounding. -/
def BatchConfig.small : BatchConfig where
  isPoolingModel := false
  isSpecDecode := true
  maxNumReqs := 4
  vocabSize := 8
  float32 := id
  isSpecDecodeUnsupported _ := false

/-- A request with its tokens and parameters, and one block. -/
def FullRequestState.of (promptTokenIds outputTokenIds : List Token) (params : SamplingParams)
    (loraRequest : Option LoRARequest) : FullRequestState where
  promptTokenIds := promptTokenIds
  outputTokenIds := outputTokenIds
  blockIds := [[1]]
  numComputedTokens := 0
  loraRequest := loraRequest
  samplingParams := some params
  poolingParams := none
  generator := none

/-- `SamplingParams(temperature=0)`. -/
def SamplingParams.greedy : SamplingParams where
  samplingType := .greedy
  temperature := 0
  topP := 1
  topK := -1
  frequencyPenalty := 0
  presencePenalty := 0
  repetitionPenalty := 1
  logprobs := none
  promptLogprobs := none
  allowedTokenIds := none
  badWordsTokenIds := none

end VllmAscend
