import VllmAscend.Worker.DrafterInputs

/-!
# Worker/DrafterPropose — what the drafters run their model on

    target_token_ids    a₁  b₁ b₂  c₁ c₂ c₃
    shifted             b₁  b₂ c₁  c₂ c₃ ·
    input_ids           a₂  b₂ b₃  c₂ c₃ c₄

`propose` shifts the batch's tokens by one place and puts every request's sampled token at the end of
its row, then describes the rows to the attention backend.  The MTP drafter does both from its own
arguments.  The EAGLE drafter writes the first request's token at the end of every row
(`propose_inputIds_iff`) and takes the places of the rows from the buffers of the target's step, which
count the rejected tokens (`EagleProposer.propose_metadata_iff`).
-/

namespace VllmAscend

open Machinery

/-- The fields of `AscendCommonAttentionMetadata` that `propose` computes. -/
structure AscendCommonAttentionMetadata where
  queryStartLoc : List ℤ
  queryStartLocCpu : List ℤ
  seqLensCpu : List ℤ
  numReqs : ℕ
  numActualTokens : ℕ
  maxQueryLen : ℤ
  slotMappingCpu : List ℤ
  positions : List ℤ

/-- What `propose` has prepared when it builds the attention metadata of the draft model. -/
structure DraftPass where
  inputIds : List ℤ
  commonAttnMetadata : AscendCommonAttentionMetadata

/-- The step buffers of the runner. -/
structure StepBuffers where
  queryStartLoc : List ℤ
  queryStartLocCpu : List ℤ
  seqLensCpu : List ℤ

/-- `get_eagle_atten_dict`, as far as it fills the step buffers. -/
def StepBuffers.getEagleAttenDict (runner : StepBuffers)
    (numComputedTokensCpu numScheduledTokens : List ℤ) : Option StepBuffers := do
  let numReqs := numScheduledTokens.length
  let cuNumTokens := cumsum 0 numScheduledTokens
  let queryStartLocCpu ← setItem runner.queryStartLocCpu 0 0
  let queryStartLocCpu ← setSlice queryStartLocCpu 1 (numReqs + 1) cuNumTokens
  let seqLensCpu ← setSlice runner.seqLensCpu 0 numReqs
    (List.zipWith (· + ·) (numComputedTokensCpu.take numReqs) numScheduledTokens)
  let queryStartLoc ← setSlice runner.queryStartLoc 0 (numReqs + 1)
    (queryStartLocCpu.take (numReqs + 1))
  -- fill unused with -1
  return {
    queryStartLoc := queryStartLoc.take (numReqs + 1) ++
      List.replicate (queryStartLoc.length - (numReqs + 1)) (-1)
    queryStartLocCpu := queryStartLocCpu
    seqLensCpu := seqLensCpu }

def EagleProposer.propose (runner : StepBuffers) (inputIds : List ℤ)
    (targetTokenIds targetPositions targetSlotMapping nextTokenIds cuNumTokens : List ℤ) :
    Option DraftPass := do
  let numTokens := targetTokenIds.length
  let batchSize := nextTokenIds.length
  let lastTokenIndices := cuNumTokens.tail.map (· - 1)
  -- shift the input ids by one token
  let inputIds ← setSlice inputIds 0 (numTokens - 1) targetTokenIds.tail
  -- replace the last token with the next token
  let nextTokenId ← item nextTokenIds 0
  let inputIds ← scatter inputIds lastTokenIndices
    (List.replicate lastTokenIndices.length nextTokenId)
  let queryLens := List.zipWith (· - ·) cuNumTokens.tail cuNumTokens.dropLast
  let maxQueryLen ← queryLens.max?
  return {
    inputIds := inputIds
    commonAttnMetadata := {
      queryStartLoc := runner.queryStartLoc.take (batchSize + 1)
      queryStartLocCpu := runner.queryStartLocCpu.take (batchSize + 1)
      seqLensCpu := runner.seqLensCpu
      numReqs := batchSize
      numActualTokens := numTokens
      maxQueryLen := maxQueryLen
      slotMappingCpu := targetSlotMapping
      positions := targetPositions } }

def MtpProposer.propose (inputIds : List ℤ)
    (targetTokenIds targetPositions targetSlotMapping nextTokenIds cuNumTokens : List ℤ)
    (tokenIndices : Option (List ℤ)) (torchairGraphEnabled : Bool) : Option DraftPass := do
  let numTokens := targetTokenIds.length
  let batchSize := nextTokenIds.length
  let lastTokenIndices := cuNumTokens.tail.map (· - 1)
  let inputIds ← setSlice inputIds 0 (numTokens - 1) targetTokenIds.tail
  let lastTokenIndices := match tokenIndices with
    | some tokenIndices => if torchairGraphEnabled then tokenIndices else lastTokenIndices
    | none => lastTokenIndices
  let inputIds ← scatter inputIds lastTokenIndices nextTokenIds
  let queryLens := List.zipWith (· - ·) cuNumTokens.tail cuNumTokens.dropLast
  let maxQueryLen ← queryLens.max?
  let seqLens := (← gather targetPositions lastTokenIndices).map (· + 1)
  return {
    inputIds := inputIds
    commonAttnMetadata := {
      queryStartLoc := cuNumTokens.take (batchSize + 1)
      queryStartLocCpu := cuNumTokens.take (batchSize + 1)
      seqLensCpu := seqLens
      numReqs := batchSize
      numActualTokens := numTokens
      maxQueryLen := maxQueryLen
      slotMappingCpu := targetSlotMapping
      positions := targetPositions } }

/-! ## The shift -/

/-- A request of the drafter's batch: its target tokens, and the token sampled after them. -/
structure DraftRequest (H : Type) where
  tokens : List (TargetToken H)
  nextTokenId : ℤ
  tokens_ne : tokens ≠ []

section Shift

variable {H : Type}

def DraftRequest.tokenIds (r : DraftRequest H) : List ℤ := r.tokens.map TargetToken.tokenId

def DraftRequest.positions (r : DraftRequest H) : List ℤ := r.tokens.map TargetToken.position

/-- The position of its last target token. -/
def DraftRequest.lastPosition (r : DraftRequest H) : ℤ := (r.tokens.getLast r.tokens_ne).position

/-- The tokens the draft model reads for it. -/
def DraftRequest.inputIds (r : DraftRequest H) : List ℤ := r.tokenIds.tail ++ [r.nextTokenId]

theorem DraftRequest.tokenIds_ne (r : DraftRequest H) : r.tokenIds ≠ [] :=
  mt List.map_eq_nil_iff.mp r.tokens_ne

theorem DraftRequest.length_tail (r : DraftRequest H) :
    r.tokenIds.tail.length + 1 = r.tokenIds.length := by
  have := List.length_pos_iff.mpr r.tokenIds_ne
  rw [List.length_tail]
  omega

variable (reqs : List (DraftRequest H))

def targetTokenIds : List ℤ := reqs.flatMap DraftRequest.tokenIds

def targetPositions : List ℤ := reqs.flatMap DraftRequest.positions

def nextTokenIds : List ℤ := reqs.map DraftRequest.nextTokenId

/-- The query lengths of the batch. -/
def queryLens : List ℤ := (reqs.map fun r => r.tokenIds.length).map Nat.cast

/-- `cu_num_tokens` -/
def cuNumTokens : List ℤ := 0 :: cumsum 0 (queryLens reqs)

/-- A request's row in the shifted batch, when `d.2` has come to its end. -/
def shiftedRow (d : DraftRequest H × ℤ) : List ℤ := d.1.tokenIds.tail ++ [d.2]

variable {reqs}

theorem map_length_shiftedRow {last : List ℤ} (hlast : last.length = reqs.length) :
    ((reqs.zip last).map fun d => (shiftedRow d).length) = reqs.map fun r => r.tokenIds.length := by
  conv_rhs => rw [← List.map_fst_zip hlast.ge, List.map_map]
  refine List.map_congr_left fun d _ => ?_
  rw [shiftedRow, List.length_append, List.length_singleton, DraftRequest.length_tail]
  rfl

/-- `last_token_indices` are the ends of the rows. -/
theorem lastTokenIndices_eq {last : List ℤ} (hlast : last.length = reqs.length) :
    (cuNumTokens reqs).tail.map (· - 1) = (placed shiftedRow 0 (reqs.zip last)).map fun d =>
      (d.start : ℤ) + d.data.1.tokenIds.tail.length := by
  have hends := cumsum_placed shiftedRow 0 (reqs.zip last)
  rw [Nat.cast_zero, map_length_shiftedRow hlast] at hends
  rw [cuNumTokens, List.tail_cons, queryLens, hends, List.map_map]
  refine List.map_congr_left fun d _ => ?_
  simp only [Function.comp_apply, shiftedRow, List.length_append, List.length_singleton,
    Nat.cast_add, Nat.cast_one]
  omega

theorem length_targetTokenIds_pos (hne : reqs ≠ []) : 0 < (targetTokenIds reqs).length := by
  obtain ⟨r, hr⟩ := List.exists_mem_of_ne_nil reqs hne
  obtain ⟨t, ht⟩ := List.exists_mem_of_ne_nil r.tokenIds r.tokenIds_ne
  exact List.length_pos_of_mem (List.mem_flatMap.mpr ⟨r, hr, ht⟩)

/-- **The shift** writes all places of the batch but the last. -/
theorem setSlice_shift (hne : reqs ≠ []) {buffer : List ℤ}
    (hlen : (targetTokenIds reqs).length ≤ buffer.length) :
    ∃ last : List ℤ, last.length = reqs.length ∧
      setSlice buffer 0 ((targetTokenIds reqs).length - 1) (targetTokenIds reqs).tail =
        some ((reqs.zip last).flatMap shiftedRow ++ buffer.drop (targetTokenIds reqs).length) := by
  have hpos := length_targetTokenIds_pos hne
  have htake : buffer.take (targetTokenIds reqs).length ≠ [] := by
    rw [← List.length_pos_iff, List.length_take]
    omega
  obtain ⟨before, x, hbefore⟩ : ∃ before x,
      buffer.take (targetTokenIds reqs).length = before ++ [x] :=
    ⟨_, _, (List.dropLast_append_getLast htake).symm⟩
  have hbuffer : buffer = before ++ ([x] ++ buffer.drop (targetTokenIds reqs).length) := by
    rw [← List.append_assoc, ← hbefore, List.take_append_drop]
  have hcount := congrArg List.length hbefore
  simp only [List.length_take, List.length_append, List.length_singleton] at hcount
  have hslice := setSlice_append [] before (targetTokenIds reqs).tail
    ([x] ++ buffer.drop (targetTokenIds reqs).length) (i := 0)
    (j := (targetTokenIds reqs).length - 1) rfl (by simp; omega) (by simp; omega)
  rw [List.nil_append, List.nil_append, ← hbuffer, ← List.append_assoc] at hslice
  obtain ⟨last, hlast, hshift⟩ := shifted_rows x hne fun r _ => DraftRequest.tokenIds_ne r
  refine ⟨last, hlast, hslice.trans ?_⟩
  rw [targetTokenIds, hshift]
  rfl

/-- **…and the scatter writes the ends of the rows.** -/
theorem scatter_shifted {last : List ℤ} (hlast : last.length = reqs.length) (rest : List ℤ)
    (new : DraftRequest H → ℤ) :
    scatter ((reqs.zip last).flatMap shiftedRow ++ rest) ((cuNumTokens reqs).tail.map (· - 1))
        (reqs.map new) =
      some ((reqs.flatMap fun r => r.tokenIds.tail ++ [new r]) ++ rest) := by
  have hscatter := scatter_last (fun d : DraftRequest H × ℤ => d.1.tokenIds.tail) Prod.snd
    (new ∘ Prod.fst) rest [] (reqs.zip last)
  have hnew : (reqs.zip last).map (new ∘ Prod.fst) = reqs.map new := by
    rw [← List.map_map, List.map_fst_zip hlast.ge]
  have hout : ((reqs.zip last).flatMap fun d => d.1.tokenIds.tail ++ [(new ∘ Prod.fst) d]) =
      reqs.flatMap fun r => r.tokenIds.tail ++ [new r] := by
    conv_rhs => rw [← List.map_fst_zip hlast.ge, List.flatMap_map]
    rfl
  rw [hnew, hout] at hscatter
  rw [lastTokenIndices_eq hlast]
  exact hscatter

theorem zipWith_cuNumTokens :
    List.zipWith (· - ·) (cuNumTokens reqs).tail (cuNumTokens reqs).dropLast = queryLens reqs :=
  cumsum_diff 0 _

theorem length_lastTokenIndices : ((cuNumTokens reqs).tail.map (· - 1)).length = reqs.length := by
  simp [cuNumTokens, queryLens]

theorem exists_maxQueryLen (hne : reqs ≠ []) : ∃ m, (queryLens reqs).max? = some m :=
  Option.isSome_iff_exists.mp (List.isSome_max?_of_ne_nil (by simp [queryLens, hne]))

/-- The positions of the last target tokens. -/
theorem gather_lastPositions : gather (targetPositions reqs)
    ((cuNumTokens reqs).tail.map (· - 1)) = some (reqs.map DraftRequest.lastPosition) := by
  have hlens : queryLens reqs = (reqs.map fun r => r.positions.length).map Nat.cast := by
    simp only [queryLens, DraftRequest.tokenIds, DraftRequest.positions, List.length_map]
  rw [cuNumTokens, List.tail_cons, hlens]
  refine gather_last fun r _ => ?_
  rw [DraftRequest.positions, List.getLast?_map, List.getLast?_eq_some_getLast r.tokens_ne]
  rfl

/-- **What the MTP drafter prepares.** -/
theorem MtpProposer.propose_eq (hne : reqs ≠ []) {buffer : List ℤ}
    (hlen : (targetTokenIds reqs).length ≤ buffer.length) (slotMapping : List ℤ)
    (tokenIndices : Option (List ℤ)) {m : ℤ} (hm : (queryLens reqs).max? = some m) :
    propose buffer (targetTokenIds reqs) (targetPositions reqs) slotMapping (nextTokenIds reqs)
        (cuNumTokens reqs) tokenIndices false =
      some {
        inputIds := reqs.flatMap DraftRequest.inputIds ++
          buffer.drop (targetTokenIds reqs).length
        commonAttnMetadata := {
          queryStartLoc := cuNumTokens reqs
          queryStartLocCpu := cuNumTokens reqs
          seqLensCpu := reqs.map fun r => r.lastPosition + 1
          numReqs := reqs.length
          numActualTokens := (targetTokenIds reqs).length
          maxQueryLen := m
          slotMappingCpu := slotMapping
          positions := targetPositions reqs } } := by
  obtain ⟨last, hlast, hshift⟩ := setSlice_shift hne hlen
  have hscatter := scatter_shifted hlast (buffer.drop (targetTokenIds reqs).length)
    DraftRequest.nextTokenId
  change scatter _ _ (nextTokenIds reqs) = _ at hscatter
  have hnum : (nextTokenIds reqs).length = reqs.length := by simp [nextTokenIds]
  have hall : (cuNumTokens reqs).take (reqs.length + 1) = cuNumTokens reqs :=
    List.take_of_length_le (by simp [cuNumTokens, queryLens])
  unfold propose
  cases tokenIndices <;>
  · simp only [hshift, hscatter, zipWith_cuNumTokens, hm, gather_lastPositions, hnum, hall,
      Option.bind_eq_bind, Option.bind_some, Bool.false_eq_true, if_false, List.map_map]
    rfl

/-- **What the EAGLE drafter prepares**: the first request's sampled token stands at every end. -/
theorem EagleProposer.propose_eq {r : DraftRequest H} {rs : List (DraftRequest H)}
    (runner : StepBuffers) {buffer : List ℤ}
    (hlen : (targetTokenIds (r :: rs)).length ≤ buffer.length) (positions slotMapping : List ℤ) {m : ℤ}
    (hm : (queryLens (r :: rs)).max? = some m) :
    propose runner buffer (targetTokenIds (r :: rs)) positions slotMapping
        (nextTokenIds (r :: rs)) (cuNumTokens (r :: rs)) =
      some {
        inputIds := ((r :: rs).flatMap fun s => s.tokenIds.tail ++ [r.nextTokenId]) ++
          buffer.drop (targetTokenIds (r :: rs)).length
        commonAttnMetadata := {
          queryStartLoc := runner.queryStartLoc.take (rs.length + 2)
          queryStartLocCpu := runner.queryStartLocCpu.take (rs.length + 2)
          seqLensCpu := runner.seqLensCpu
          numReqs := rs.length + 1
          numActualTokens := (targetTokenIds (r :: rs)).length
          maxQueryLen := m
          slotMappingCpu := slotMapping
          positions := positions } } := by
  obtain ⟨last, hlast, hshift⟩ := setSlice_shift (List.cons_ne_nil r rs) hlen
  have hscatter := scatter_shifted hlast (buffer.drop (targetTokenIds (r :: rs)).length)
    fun _ : DraftRequest H => r.nextTokenId
  rw [List.map_const'] at hscatter
  have hfirst : item (nextTokenIds (r :: rs)) 0 = some r.nextTokenId := by
    rw [← Nat.cast_zero, item_natCast]
    rfl
  have hnum : (nextTokenIds (r :: rs)).length = rs.length + 1 := by simp [nextTokenIds]
  unfold propose
  simp only [hshift, hfirst, length_lastTokenIndices, hscatter, zipWith_cuNumTokens, hm, hnum,
    Option.bind_eq_bind, Option.bind_some]
  rfl

theorem length_flatMap_inputIds :
    (reqs.flatMap DraftRequest.inputIds).length = (targetTokenIds reqs).length := by
  rw [targetTokenIds, List.length_flatMap, List.length_flatMap]
  refine congrArg List.sum (List.map_congr_left fun r _ => ?_)
  rw [DraftRequest.inputIds, List.length_append, List.length_singleton, DraftRequest.length_tail]

/-- The EAGLE drafter's inputs are right when the first request's token is everyone's. -/
theorem EagleProposer.inputIds_iff (hne : reqs ≠ []) (runner : StepBuffers) {buffer : List ℤ}
    (hlen : (targetTokenIds reqs).length ≤ buffer.length) (positions slotMapping : List ℤ) :
    (∃ pass, propose runner buffer (targetTokenIds reqs) positions slotMapping (nextTokenIds reqs)
        (cuNumTokens reqs) = some pass ∧
      pass.inputIds.take (targetTokenIds reqs).length = reqs.flatMap DraftRequest.inputIds) ↔
      ∀ r ∈ reqs, ∀ s ∈ reqs, r.nextTokenId = s.nextTokenId := by
  obtain ⟨r, rs, rfl⟩ := List.exists_cons_of_ne_nil hne
  obtain ⟨m, hm⟩ := exists_maxQueryLen hne
  have hrowLen : ∀ s ∈ r :: rs,
      (s.tokenIds.tail ++ [r.nextTokenId]).length = s.inputIds.length := fun s _ => by
    simp [DraftRequest.inputIds]
  have hout : (((r :: rs).flatMap fun s => s.tokenIds.tail ++ [r.nextTokenId]) ++
      buffer.drop (targetTokenIds (r :: rs)).length).take (targetTokenIds (r :: rs)).length =
        (r :: rs).flatMap fun s => s.tokenIds.tail ++ [r.nextTokenId] := by
    refine List.take_left' ?_
    rw [← length_flatMap_inputIds, List.length_flatMap, List.length_flatMap]
    exact congrArg List.sum (List.map_congr_left hrowLen)
  rw [propose_eq runner hlen positions slotMapping hm]
  simp only [Option.some.injEq, exists_eq_left']
  rw [hout]
  constructor
  · intro h
    have hnext : ∀ s ∈ r :: rs, r.nextTokenId = s.nextTokenId := fun s hs => by
      have hrow := flatMap_inj hrowLen h s hs
      rw [DraftRequest.inputIds] at hrow
      exact List.singleton_inj.mp (List.append_cancel_left hrow)
    exact fun s hs t ht => (hnext s hs).symm.trans (hnext t ht)
  · intro h
    refine List.flatMap_congr fun s hs => ?_
    rw [h r (.head _) s hs]
    rfl

/-- The MTP drafter's inputs are right. -/
theorem MtpProposer.inputIds_eq (hne : reqs ≠ []) {buffer : List ℤ}
    (hlen : (targetTokenIds reqs).length ≤ buffer.length) (slotMapping : List ℤ)
    (tokenIndices : Option (List ℤ)) :
    ∃ pass, propose buffer (targetTokenIds reqs) (targetPositions reqs) slotMapping
        (nextTokenIds reqs) (cuNumTokens reqs) tokenIndices false = some pass ∧
      pass.inputIds.take (targetTokenIds reqs).length = reqs.flatMap DraftRequest.inputIds := by
  obtain ⟨m, hm⟩ := exists_maxQueryLen hne
  exact ⟨_, propose_eq hne hlen slotMapping tokenIndices hm,
    List.take_left' length_flatMap_inputIds⟩

/-- **The MTP drafter reads the shifted batch with every request's own token at its end; the EAGLE
drafter does exactly when all requests of the batch sampled the same token.** -/
theorem propose_inputIds_iff (hne : reqs ≠ []) (runner : StepBuffers)
    {mtpBuffer eagleBuffer : List ℤ} (hmtp : (targetTokenIds reqs).length ≤ mtpBuffer.length)
    (heagle : (targetTokenIds reqs).length ≤ eagleBuffer.length) (slotMapping : List ℤ)
    (tokenIndices : Option (List ℤ)) :
    (∃ pass, MtpProposer.propose mtpBuffer (targetTokenIds reqs) (targetPositions reqs) slotMapping
        (nextTokenIds reqs) (cuNumTokens reqs) tokenIndices false = some pass ∧
      pass.inputIds.take (targetTokenIds reqs).length = reqs.flatMap DraftRequest.inputIds) ∧
    ((∃ pass, EagleProposer.propose runner eagleBuffer (targetTokenIds reqs) (targetPositions reqs)
        slotMapping (nextTokenIds reqs) (cuNumTokens reqs) = some pass ∧
      pass.inputIds.take (targetTokenIds reqs).length = reqs.flatMap DraftRequest.inputIds) ↔
      ∀ r ∈ reqs, ∀ s ∈ reqs, r.nextTokenId = s.nextTokenId) :=
  ⟨MtpProposer.inputIds_eq hne hmtp slotMapping tokenIndices,
    EagleProposer.inputIds_iff hne runner heagle _ slotMapping⟩

end Shift

/-- A request with one target token `5`, and the token sampled after it. -/
def DraftRequest.single (nextTokenId : ℤ) : DraftRequest Unit where
  tokens := [⟨5, 0, (), 0⟩]
  nextTokenId := nextTokenId
  tokens_ne := List.cons_ne_nil _ _

/-- Two requests that sampled the same token. -/
theorem propose_inputIds_same :
    (∃ pass, MtpProposer.propose [0, 0] (targetTokenIds [DraftRequest.single 7, .single 7])
        (targetPositions [DraftRequest.single 7, .single 7]) [0, 0]
        (nextTokenIds [DraftRequest.single 7, .single 7])
        (cuNumTokens [DraftRequest.single 7, .single 7]) none false = some pass ∧
      pass.inputIds.take 2 = [7, 7]) ∧
    ∃ pass, EagleProposer.propose ⟨[0, 1, 2], [0, 1, 2], [1, 1]⟩ [0, 0]
        (targetTokenIds [DraftRequest.single 7, .single 7])
        (targetPositions [DraftRequest.single 7, .single 7]) [0, 0]
        (nextTokenIds [DraftRequest.single 7, .single 7])
        (cuNumTokens [DraftRequest.single 7, .single 7]) = some pass ∧
      pass.inputIds.take 2 = [7, 7] := by
  have hroom : (targetTokenIds [DraftRequest.single 7, .single 7]).length ≤ [(0 : ℤ), 0].length := by
    decide
  have h := propose_inputIds_iff (List.cons_ne_nil _ _) ⟨[0, 1, 2], [0, 1, 2], [1, 1]⟩ hroom hroom
    [0, 0] none
  exact ⟨h.1, h.2.mpr (by simp [DraftRequest.single])⟩

/-- **Two requests that sampled different tokens**: both rows end with the first one's. -/
theorem propose_inputIds_mixed :
    ¬ ∃ pass, EagleProposer.propose ⟨[0, 1, 2], [0, 1, 2], [1, 1]⟩ [0, 0]
        (targetTokenIds [DraftRequest.single 7, .single 8])
        (targetPositions [DraftRequest.single 7, .single 8]) [0, 0]
        (nextTokenIds [DraftRequest.single 7, .single 8])
        (cuNumTokens [DraftRequest.single 7, .single 8]) = some pass ∧
      pass.inputIds.take (targetTokenIds [DraftRequest.single 7, .single 8]).length =
        [DraftRequest.single 7, .single 8].flatMap DraftRequest.inputIds := by
  rw [EagleProposer.inputIds_iff (List.cons_ne_nil _ _) _ (by decide)]
  simp [DraftRequest.single]

/-! ## The attention metadata of the EAGLE drafter -/

/-- A request of the target's step, with as many tokens before its query as were computed, and at
least one token of the query kept. -/
structure VerifiedRequest (H : Type) extends TargetRequest H where
  numComputedTokens : ℕ
  position_eq : ∀ (j : ℕ) t, tokens[j]? = some t → t.position = (numComputedTokens : ℤ) + j
  rejected_lt : rejected < tokens.length

section Metadata

variable {H : Type}

theorem VerifiedRequest.kept_pos (r : VerifiedRequest H) : 0 < r.kept :=
  Nat.sub_pos_of_lt r.rejected_lt

theorem VerifiedRequest.kept_le (r : VerifiedRequest H) : r.kept ≤ r.tokens.length := Nat.sub_le _ _

/-- The target position of the last kept token. -/
def VerifiedRequest.lastKeptPosition (r : VerifiedRequest H) : ℤ :=
  (r.tokens.get ⟨r.kept - 1, by have := r.kept_pos; have := r.kept_le; omega⟩).position

theorem VerifiedRequest.lastKeptPosition_eq (r : VerifiedRequest H) :
    r.lastKeptPosition + 1 = r.numComputedTokens + r.kept := by
  have hlt : r.kept - 1 < r.tokens.length := by
    have := r.kept_pos
    have := r.kept_le
    omega
  have hposition := r.position_eq (r.kept - 1) _ (List.getElem?_eq_getElem hlt)
  have := r.kept_pos
  rw [lastKeptPosition, List.get_eq_getElem, hposition]
  omega

variable (reqs : List (VerifiedRequest H))

def targets : List (TargetRequest H) := reqs.map VerifiedRequest.toTargetRequest

/-- The metadata names the kept tokens of each request. -/
structure AscendCommonAttentionMetadata.Describes (md : AscendCommonAttentionMetadata) : Prop where
  queryStartLoc : md.queryStartLoc = cuKept (targets reqs)
  queryStartLocCpu : md.queryStartLocCpu = cuKept (targets reqs)
  numActualTokens : item (cuKept (targets reqs)) (-1) = some (md.numActualTokens : ℤ)
  maxQueryLen : (List.zipWith (· - ·) (cuKept (targets reqs)).tail
    (cuKept (targets reqs)).dropLast).max? = some md.maxQueryLen
  seqLens : ∀ (i : ℕ) r, reqs[i]? = some r → md.seqLensCpu[i]? = some (r.lastKeptPosition + 1)

/-- `_generate_eagle3_token_ids` after a step with draft tokens, up to the draft model.  `gathered` is
what indexing a tensor of the step gives, whatever the index tensor holds. -/
def generateEagle3TokenIds (runner : StepBuffers) (numComputedTokensCpu numScheduledTokens
    numRejectedTokens : List ℤ) (gathered : List (Option ℤ) → List ℤ × List ℤ × List ℤ)
    (inputIds nextTokenIds : List ℤ) : Option DraftPass := do
  let runner ← runner.getEagleAttenDict numComputedTokensCpu numScheduledTokens
  let queryStartLoc := runner.queryStartLocCpu.take (numScheduledTokens.length + 1)
  let numTokens := numScheduledTokens.sum - numRejectedTokens.sum
  guard (0 ≤ numTokens)
  let (cuNumTokens, tokenIndices) ←
    EagleProposer.prepareInputs queryStartLoc numRejectedTokens numTokens.toNat
  let (targetTokenIds, targetPositions, targetSlotMapping) := gathered tokenIndices
  EagleProposer.propose runner inputIds targetTokenIds targetPositions targetSlotMapping nextTokenIds
    cuNumTokens

/-! ### The step buffers -/

def numComputedTokens : List ℤ := reqs.map fun r => (r.numComputedTokens : ℤ)

def numScheduledTokens : List ℤ := reqs.map fun r => (r.tokens.length : ℤ)

/-- The step buffers have room for `n` requests. -/
structure StepBuffers.Fits (runner : StepBuffers) (n : ℕ) : Prop where
  queryStartLoc : n + 1 ≤ runner.queryStartLoc.length
  queryStartLocCpu : n + 1 ≤ runner.queryStartLocCpu.length
  seqLensCpu : n ≤ runner.seqLensCpu.length

theorem numScheduledTokens_eq : numScheduledTokens reqs =
    ((targets reqs).map fun r => r.tokens.length).map Nat.cast := by
  simp [numScheduledTokens, targets, Function.comp_def]

theorem length_cuTargetQueryLens :
    (cuTargetQueryLens (targets reqs)).length = reqs.length + 1 := by
  simp [cuTargetQueryLens, targets]

/-- The sequence lengths of the step: the computed tokens and the scheduled ones. -/
def stepSeqLens : List ℤ := reqs.map fun r => (r.numComputedTokens : ℤ) + r.tokens.length

variable {reqs}

/-- **The step buffers describe the whole target step**, its rejected tokens included. -/
theorem getEagleAttenDict_eq {runner : StepBuffers} (hfits : runner.Fits reqs.length)
    (others : List ℤ) : ∃ filled,
      runner.getEagleAttenDict (numComputedTokens reqs ++ others) (numScheduledTokens reqs) =
        some filled ∧
      filled.queryStartLoc.take (reqs.length + 1) = cuTargetQueryLens (targets reqs) ∧
      filled.queryStartLocCpu.take (reqs.length + 1) = cuTargetQueryLens (targets reqs) ∧
      filled.seqLensCpu.take reqs.length = stepSeqLens reqs := by
  have hcu : 0 :: cumsum 0 (numScheduledTokens reqs) = cuTargetQueryLens (targets reqs) := by
    rw [numScheduledTokens_eq, cuTargetQueryLens]
  have hnum : (numScheduledTokens reqs).length = reqs.length := by simp [numScheduledTokens]
  have hcuLen := length_cuTargetQueryLens reqs
  have hsums : (cumsum 0 (numScheduledTokens reqs)).length = reqs.length := by simp [hnum]
  have hseq : List.zipWith (· + ·) ((numComputedTokens reqs ++ others).take reqs.length)
      (numScheduledTokens reqs) = stepSeqLens reqs := by
    rw [List.take_left' (by simp [numComputedTokens]), numComputedTokens, numScheduledTokens,
      List.zipWith_map, List.zipWith_self]
    rfl
  have hseqLen : (stepSeqLens reqs).length = reqs.length := by simp [stepSeqLens]
  obtain ⟨x, xs, hxs⟩ := List.exists_cons_of_ne_nil (l := runner.queryStartLocCpu) (by
    intro hnil
    have := hfits.queryStartLocCpu
    simp [hnil] at this)
  have hxsLen : reqs.length ≤ xs.length := by
    have := hfits.queryStartLocCpu
    rw [hxs, List.length_cons] at this
    omega
  have hfirst : setItem runner.queryStartLocCpu 0 0 = some (0 :: xs) := by
    rw [hxs]
    exact setItem_append [] xs x 0 rfl
  have hcpu : setSlice (0 :: xs) 1 (reqs.length + 1) (cumsum 0 (numScheduledTokens reqs)) =
      some (cuTargetQueryLens (targets reqs) ++ xs.drop reqs.length) := by
    have hslice := setSlice_append [0] (xs.take reqs.length) (cumsum 0 (numScheduledTokens reqs))
      (xs.drop reqs.length) (i := 1) (j := reqs.length + 1) rfl
      (by rw [hsums, List.length_singleton]; omega) (by rw [hsums, List.length_take]; omega)
    rwa [List.append_assoc, List.take_append_drop, List.singleton_append, List.singleton_append,
      hcu] at hslice
  have hseqs := setSlice_append [] (runner.seqLensCpu.take reqs.length) (stepSeqLens reqs)
    (runner.seqLensCpu.drop reqs.length) (i := 0) (j := reqs.length) rfl
    (by rw [hseqLen, List.length_nil]; omega)
    (by rw [hseqLen, List.length_take, min_eq_left hfits.seqLensCpu])
  rw [List.nil_append, List.take_append_drop, List.nil_append] at hseqs
  have hdevice := setSlice_append [] (runner.queryStartLoc.take (reqs.length + 1))
    (cuTargetQueryLens (targets reqs)) (runner.queryStartLoc.drop (reqs.length + 1)) (i := 0)
    (j := reqs.length + 1) rfl (by rw [hcuLen, List.length_nil]; omega)
    (by rw [hcuLen, List.length_take, min_eq_left hfits.queryStartLoc])
  rw [List.nil_append, List.take_append_drop, List.nil_append] at hdevice
  have hfill : runner.getEagleAttenDict (numComputedTokens reqs ++ others)
      (numScheduledTokens reqs) = some {
        queryStartLoc := cuTargetQueryLens (targets reqs) ++
          List.replicate (runner.queryStartLoc.length - (reqs.length + 1)) (-1)
        queryStartLocCpu := cuTargetQueryLens (targets reqs) ++ xs.drop reqs.length
        seqLensCpu := stepSeqLens reqs ++ runner.seqLensCpu.drop reqs.length } := by
    unfold StepBuffers.getEagleAttenDict
    simp only [hnum, hfirst, hcpu, hseq, hseqs, List.take_left' hcuLen, hdevice,
      Option.bind_eq_bind, Option.bind_some, List.length_append, hcuLen, List.length_drop]
    rw [Nat.add_sub_cancel_left]
    rfl
  exact ⟨_, hfill, List.take_left' hcuLen, List.take_left' hcuLen, List.take_left' hseqLen⟩

/-! ### The metadata of the draft pass -/

/-- The total of the kept tokens. -/
theorem sum_sub_rejected (reqs : List (VerifiedRequest H)) :
    (numScheduledTokens reqs).sum - (numRejectedTokens (targets reqs)).sum =
      (((targets reqs).map TargetRequest.kept).sum : ℕ) := by
  induction reqs with
  | nil => rfl
  | cons r reqs ih =>
    have hle := r.rejected_le
    simp only [numScheduledTokens, numRejectedTokens, targets, List.map_cons, List.sum_cons,
      Nat.cast_add, TargetRequest.kept] at ih ⊢
    omega

/-- Target tensors of the right length are the rows of some batch. -/
theorem exists_draftRequests : ∀ {lens : List ℕ} {tokenIds next : List ℤ}, (∀ n ∈ lens, 0 < n) →
    tokenIds.length = lens.sum → next.length = lens.length →
      ∃ drafts : List (DraftRequest Unit), targetTokenIds drafts = tokenIds ∧
        nextTokenIds drafts = next ∧ queryLens drafts = lens.map Nat.cast
  | [], [], [], _, _, _ => ⟨[], rfl, rfl, rfl⟩
  | n :: lens, tokenIds, t :: next, hpos, hids, hnext => by
    rw [List.sum_cons] at hids
    have hrest : (tokenIds.drop n).length = lens.sum := by
      rw [List.length_drop]
      omega
    have hnextRest : next.length = lens.length := Nat.succ.inj hnext
    obtain ⟨drafts, hdrafts, hdraftsNext, hlens⟩ :=
      exists_draftRequests (fun k hk => hpos k (.tail _ hk)) hrest hnextRest
    have hn := hpos n (.head _)
    have htake : (tokenIds.take n).length = n := by
      rw [List.length_take]
      omega
    let draft : DraftRequest Unit := {
      tokens := (tokenIds.take n).map fun id => ⟨id, 0, (), 0⟩
      nextTokenId := t
      tokens_ne := by
        rw [← List.length_pos_iff, List.length_map, htake]
        exact hn }
    have hdraft : draft.tokenIds = tokenIds.take n := by
      simp [draft, DraftRequest.tokenIds, Function.comp_def]
    refine ⟨draft :: drafts, ?_, ?_, ?_⟩
    · rw [targetTokenIds, List.flatMap_cons, hdraft]
      exact (congrArg _ hdrafts).trans (List.take_append_drop n tokenIds)
    · exact congrArg (t :: ·) hdraftsNext
    · rw [queryLens, List.map_cons, List.map_cons, hdraft, htake]
      exact congrArg ((n : ℤ) :: ·) hlens

theorem zipWith_cuKept (reqs : List (TargetRequest H)) :
    List.zipWith (· - ·) (cuKept reqs).tail (cuKept reqs).dropLast =
      (reqs.map TargetRequest.kept).map Nat.cast :=
  cumsum_diff 0 _

/-- **What the EAGLE drafter tells the attention backend**: the rows of the whole target step, and the
counts of the kept tokens. -/
theorem generateEagle3TokenIds_eq (hne : reqs ≠ []) {runner : StepBuffers}
    (hfits : runner.Fits reqs.length) (others : List ℤ)
    {gathered : List (Option ℤ) → List ℤ × List ℤ × List ℤ}
    (hgathered : ∀ indices, (gathered indices).1.length = indices.length) {buffer next : List ℤ}
    (hbuffer : ((targets reqs).map TargetRequest.kept).sum ≤ buffer.length)
    (hnext : next.length = reqs.length) :
    ∃ pass, generateEagle3TokenIds runner (numComputedTokens reqs ++ others)
        (numScheduledTokens reqs) (numRejectedTokens (targets reqs)) gathered buffer next =
          some pass ∧
      pass.commonAttnMetadata.queryStartLoc = cuTargetQueryLens (targets reqs) ∧
      pass.commonAttnMetadata.queryStartLocCpu = cuTargetQueryLens (targets reqs) ∧
      pass.commonAttnMetadata.seqLensCpu.take reqs.length = stepSeqLens reqs ∧
      pass.commonAttnMetadata.numActualTokens = ((targets reqs).map TargetRequest.kept).sum ∧
      (((targets reqs).map TargetRequest.kept).map Nat.cast).max? =
        some pass.commonAttnMetadata.maxQueryLen := by
  obtain ⟨filled, hfill, hloc, hlocCpu, hseq⟩ := getEagleAttenDict_eq hfits others
  have hnum : (numScheduledTokens reqs).length = reqs.length := by simp [numScheduledTokens]
  have hprepare := EagleProposer.prepareBatch_eq (targets reqs)
  unfold EagleProposer.prepareBatch at hprepare
  let indices := (placed TargetRequest.tokens 0 (targets reqs)).flatMap (eagleRow drafterBlockSize)
  have hindices : indices.length = ((targets reqs).map TargetRequest.kept).sum := by
    rw [List.length_flatMap, ← map_placed TargetRequest.tokens TargetRequest.kept 0 (targets reqs)]
    refine congrArg List.sum (List.map_congr_left fun d _ => ?_)
    rw [eagleRow, length_rowAfter]
  have hpos : ∀ n ∈ (targets reqs).map TargetRequest.kept, 0 < n := by
    intro n hn
    rw [targets, List.map_map] at hn
    obtain ⟨r, -, rfl⟩ := List.mem_map.mp hn
    exact r.kept_pos
  obtain ⟨drafts, hids, hdraftsNext, hlens⟩ := exists_draftRequests hpos
    ((hgathered indices).trans hindices) (hnext.trans (by simp [targets]))
  have hcu : cuNumTokens drafts = cuKept (targets reqs) := by rw [cuNumTokens, hlens, cuKept]
  have hdraftsLen : drafts.length = reqs.length := by
    rw [← hnext, ← hdraftsNext, nextTokenIds, List.length_map]
  obtain ⟨d, ds, rfl⟩ := List.exists_cons_of_ne_nil (l := drafts) (by
    rintro rfl
    exact hne (List.length_eq_zero_iff.mp hdraftsLen.symm))
  have hds : ds.length + 2 = reqs.length + 1 := by
    rw [← hdraftsLen, List.length_cons]
  obtain ⟨m, hm⟩ := exists_maxQueryLen (List.cons_ne_nil d ds)
  have hroom : (targetTokenIds (d :: ds)).length ≤ buffer.length := by
    rw [hids, hgathered, hindices]
    exact hbuffer
  have hpropose := EagleProposer.propose_eq filled hroom (gathered indices).2.1
    (gathered indices).2.2 hm
  rw [hids, hdraftsNext, hcu, hds, hloc, hlocCpu] at hpropose
  have hgenerate : generateEagle3TokenIds runner (numComputedTokens reqs ++ others)
      (numScheduledTokens reqs) (numRejectedTokens (targets reqs)) gathered buffer next =
        EagleProposer.propose filled buffer (gathered indices).1 (gathered indices).2.1
          (gathered indices).2.2 next (cuKept (targets reqs)) := by
    unfold generateEagle3TokenIds
    rw [hfill]
    simp only [Option.bind_eq_bind, Option.bind_some, hnum, hlocCpu, sum_sub_rejected,
      Int.natCast_nonneg, guard_true, Int.toNat_natCast, hprepare]
    rfl
  rw [hlens] at hm
  exact ⟨_, hgenerate.trans hpropose, rfl, rfl, hseq, (hgathered indices).trans hindices, hm⟩

/-- **The EAGLE drafter's metadata names the kept tokens exactly when no token was rejected.** -/
theorem EagleProposer.propose_metadata_iff (hne : reqs ≠ []) {runner : StepBuffers}
    (hfits : runner.Fits reqs.length) (others : List ℤ)
    {gathered : List (Option ℤ) → List ℤ × List ℤ × List ℤ}
    (hgathered : ∀ indices, (gathered indices).1.length = indices.length) {buffer next : List ℤ}
    (hbuffer : ((targets reqs).map TargetRequest.kept).sum ≤ buffer.length)
    (hnext : next.length = reqs.length) :
    (∃ pass, generateEagle3TokenIds runner (numComputedTokens reqs ++ others)
        (numScheduledTokens reqs) (numRejectedTokens (targets reqs)) gathered buffer next =
          some pass ∧ pass.commonAttnMetadata.Describes reqs) ↔
      ∀ r ∈ reqs, r.rejected = 0 := by
  obtain ⟨pass, hpass, hloc, hlocCpu, hseq, hactual, hmax⟩ :=
    generateEagle3TokenIds_eq hne hfits others hgathered hbuffer hnext
  have hseqLen : ∀ (i : ℕ) r, reqs[i]? = some r → pass.commonAttnMetadata.seqLensCpu[i]? =
      some ((r.numComputedTokens : ℤ) + r.tokens.length) := fun i r hr => by
    have hlt := (List.getElem?_eq_some_iff.mp hr).1
    rw [← List.getElem?_take_of_lt hlt, hseq, stepSeqLens, List.getElem?_map, hr]
    rfl
  rw [hpass]
  simp only [Option.some.injEq, exists_eq_left']
  constructor
  · intro h r hr
    obtain ⟨i, hi⟩ := List.mem_iff_getElem?.mp hr
    have hlen := (hseqLen i r hi).symm.trans (h.seqLens i r hi)
    rw [Option.some.injEq, r.lastKeptPosition_eq] at hlen
    have hle := r.rejected_le
    rw [TargetRequest.kept] at hlen
    omega
  · intro h
    have hkept : ∀ r ∈ reqs, r.kept = r.tokens.length := fun r hr => by
      rw [TargetRequest.kept, h r hr, Nat.sub_zero]
    have hlens : ((targets reqs).map fun r => r.tokens.length) =
        (targets reqs).map TargetRequest.kept := by
      rw [targets, List.map_map, List.map_map]
      exact List.map_congr_left fun r hr => (hkept r hr).symm
    have hcu : cuTargetQueryLens (targets reqs) = cuKept (targets reqs) := by
      rw [cuTargetQueryLens, hlens, cuKept]
    exact {
      queryStartLoc := hloc.trans hcu
      queryStartLocCpu := hlocCpu.trans hcu
      numActualTokens := by rw [getLast?_cuKept, hactual]
      maxQueryLen := by rw [zipWith_cuKept, hmax]
      seqLens := fun i r hi => by
        rw [hseqLen i r hi, r.lastKeptPosition_eq, hkept r (List.mem_of_getElem? hi)] }

/-- A verified request in the drafter's batch: its kept tokens, and the token sampled after them. -/
def VerifiedRequest.draft (r : VerifiedRequest H) (nextTokenId : ℤ) : DraftRequest H where
  tokens := r.tokens.take r.kept
  nextTokenId := nextTokenId
  tokens_ne := by
    have := r.kept_pos
    have := r.kept_le
    rw [← List.length_pos_iff, List.length_take]
    omega

theorem VerifiedRequest.lastPosition_draft (r : VerifiedRequest H) (nextTokenId : ℤ) :
    (r.draft nextTokenId).lastPosition = r.lastKeptPosition := by
  have hlen : (r.tokens.take r.kept).length = r.kept := List.length_take_of_le r.kept_le
  simp only [DraftRequest.lastPosition, draft, lastKeptPosition, List.getLast_eq_getElem,
    List.getElem_take, hlen, List.get_eq_getElem]

/-- **The MTP drafter's metadata names the kept tokens**, whatever was rejected. -/
theorem MtpProposer.propose_describes {batch : List (VerifiedRequest H × ℤ)} (hne : batch ≠ [])
    {drafts : List (DraftRequest H)} (hdrafts : drafts = batch.map fun b => b.1.draft b.2)
    {buffer : List ℤ} (hlen : (targetTokenIds drafts).length ≤ buffer.length)
    (slotMapping : List ℤ) (tokenIndices : Option (List ℤ)) :
    ∃ pass, propose buffer (targetTokenIds drafts) (targetPositions drafts) slotMapping
        (nextTokenIds drafts) (cuNumTokens drafts) tokenIndices false = some pass ∧
      pass.commonAttnMetadata.Describes (batch.map Prod.fst) := by
  have hdraftsNe : drafts ≠ [] := by
    rw [hdrafts]
    exact mt List.map_eq_nil_iff.mp hne
  have hlens : (drafts.map fun d => d.tokenIds.length) =
      (targets (batch.map Prod.fst)).map TargetRequest.kept := by
    rw [hdrafts, targets, List.map_map, List.map_map, List.map_map]
    refine List.map_congr_left fun b _ => ?_
    rw [Function.comp_apply, DraftRequest.tokenIds, List.length_map]
    exact List.length_take_of_le b.1.kept_le
  have hcu : cuNumTokens drafts = cuKept (targets (batch.map Prod.fst)) := by
    rw [cuNumTokens, queryLens, hlens, cuKept]
  obtain ⟨m, hm⟩ := exists_maxQueryLen hdraftsNe
  refine ⟨_, propose_eq hdraftsNe hlen slotMapping tokenIndices hm, ?_⟩
  exact {
    queryStartLoc := hcu
    queryStartLocCpu := hcu
    numActualTokens := by
      rw [getLast?_cuKept, targetTokenIds, List.length_flatMap, hlens]
    maxQueryLen := by
      rw [zipWith_cuKept, ← hlens]
      exact hm
    seqLens := fun i r hi => by
      rw [List.getElem?_map, Option.map_eq_some_iff] at hi
      obtain ⟨b, hb, rfl⟩ := hi
      rw [hdrafts, List.map_map, List.getElem?_map, hb, ← b.1.lastPosition_draft b.2]
      rfl }

end Metadata

/-- A request with three computed tokens and a query of two, the last `rejected` of them dropped. -/
def VerifiedRequest.ofTwo (rejected : ℕ) (h : rejected < 2) : VerifiedRequest Unit where
  tokens := [⟨5, 3, (), 3⟩, ⟨6, 4, (), 4⟩]
  rejected := rejected
  rejected_le := Nat.le_of_lt h
  numComputedTokens := 3
  position_eq := by
    rintro (_ | _ | j) t ht
    · cases ht
      rfl
    · cases ht
      rfl
    · cases ht
  rejected_lt := h

/-- Nothing rejected: the metadata describes the draft pass. -/
theorem propose_metadata_accepted :
    ∃ pass, generateEagle3TokenIds ⟨[0, 0], [0, 0], [0]⟩
        (numComputedTokens [.ofTwo 0 (by decide)] ++ [])
        (numScheduledTokens [.ofTwo 0 (by decide)])
        (numRejectedTokens (targets [.ofTwo 0 (by decide)]))
        (fun indices => (indices.map fun _ => 5, [3, 4], [3, 4])) [0, 0] [7] = some pass ∧
      pass.commonAttnMetadata.Describes [.ofTwo 0 (by decide)] :=
  (EagleProposer.propose_metadata_iff (List.cons_ne_nil _ _)
    ⟨by decide, by decide, by decide⟩ [] (fun indices => List.length_map _) (by decide) rfl).mpr
    (List.forall_mem_singleton.mpr rfl)

/-- **One of two tokens rejected**: the metadata still counts it. -/
theorem propose_metadata_rejected :
    ¬ ∃ pass, generateEagle3TokenIds ⟨[0, 0], [0, 0], [0]⟩
        (numComputedTokens [.ofTwo 1 (by decide)] ++ [])
        (numScheduledTokens [.ofTwo 1 (by decide)])
        (numRejectedTokens (targets [.ofTwo 1 (by decide)]))
        (fun indices => (indices.map fun _ => 5, [3], [3])) [0, 0] [7] = some pass ∧
      pass.commonAttnMetadata.Describes [.ofTwo 1 (by decide)] := by
  rintro ⟨pass, hpass, hdescribes⟩
  have hne : [VerifiedRequest.ofTwo 1 (by decide)] ≠ [] := List.cons_ne_nil _ _
  have hfits : StepBuffers.Fits ⟨[0, 0], [0, 0], [0]⟩ [VerifiedRequest.ofTwo 1 (by decide)].length :=
    ⟨by decide, by decide, by decide⟩
  have hgathered : ∀ indices : List (Option ℤ),
      (indices.map fun _ => (5 : ℤ), [(3 : ℤ)], [(3 : ℤ)]).1.length = indices.length :=
    fun indices => List.length_map _
  have hroom : ((targets [VerifiedRequest.ofTwo 1 (by decide)]).map TargetRequest.kept).sum ≤
      [(0 : ℤ), 0].length := by decide
  have hnext : [(7 : ℤ)].length = [VerifiedRequest.ofTwo 1 (by decide)].length := rfl
  obtain ⟨pass', hpass', hloc, -⟩ :=
    generateEagle3TokenIds_eq hne hfits [] hgathered hroom hnext
  obtain rfl := Option.some.inj (hpass.symm.trans hpass')
  have hboth := hloc.symm.trans hdescribes.queryStartLoc
  revert hboth
  decide

end VllmAscend
