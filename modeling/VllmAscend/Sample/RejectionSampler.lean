import VllmAscend.Machinery.Ragged
import VllmAscend.Worker.InputBatch

/-!
# Sample/RejectionSampler — verifying drafted tokens

    draft_token_ids   d₀ d₁ | | d₂        target_probs, uniform_probs   one row a draft
    output_token_ids  row r:  accepted …  recovered | bonus  -1 -1 …

The functions of `rejection_sampler.py`, over the tensors of `Machinery/Tensor`: the greedy pass is
vectorised over the flattened drafts, the random pass loops over requests and positions, and both
write one output buffer.  Probabilities are values of any linearly ordered type with the operations
the code uses, and the random draws (`uniform_probs` and the exponential noise `q`) are arguments.
-/

namespace VllmAscend

open Machinery

/-- `PLACEHOLDER_TOKEN_ID` -/
def placeholderTokenId : ℤ := -1

/-- `GREEDY_TEMPERATURE` -/
def greedyTemperature : ℚ := -1

/-! ## The greedy pass -/

def rejectionGreedySampleSpecLen1Pytorch (outputTokenIds : List (List ℤ))
    (draftTokenIds targetArgmax bonusTokenIds : List ℤ) : Option (List (List ℤ)) := do
  let batchSize := outputTokenIds.length
  let numTokens := draftTokenIds.length
  guard (batchSize = numTokens)
  let acceptReqMask := List.zipWith (fun d a => decide (d = a)) draftTokenIds targetArgmax
  let outputTokenIds ← (outputTokenIds.zip targetArgmax).mapM fun (row, a) => setItem row 0 a
  scatter₂ outputTokenIds (nonzero acceptReqMask) ((nonzero acceptReqMask).map fun _ => 1)
    (select acceptReqMask bonusTokenIds)

/-- The first mismatch of each request, its number of drafts when there is none. -/
def firstMismatchPosPerReq (batchSize : ℕ) (draftTokensPerReq : List ℕ)
    (tokenReqIds tokenPositions : List ℤ) (mismatchGlobal : List Bool) (maxSpecLen : ℕ) :
    Option (List ℤ) := do
  if maxSpecLen = 0 then
    return List.replicate batchSize 0
  let posMatrix ← scatter₂ (List.replicate batchSize (List.replicate maxSpecLen (-1)))
    tokenReqIds tokenPositions tokenPositions
  let mismatchMatrix ← scatter₂ (List.replicate batchSize (List.replicate maxSpecLen false))
    tokenReqIds tokenPositions mismatchGlobal
  let sentinel : ℤ := maxSpecLen * 2
  let mismatchPositions := List.zipWith
    (List.zipWith fun mismatch pos => if mismatch then pos else sentinel) mismatchMatrix posMatrix
  let firstMismatch ← mismatchPositions.mapM List.min?
  let noMismatchMask := firstMismatch.map fun pos => decide (pos = sentinel)
  let drafts ← gather (draftTokensPerReq.map Nat.cast) (nonzero noMismatchMask)
  scatter firstMismatch (nonzero noMismatchMask) drafts

def rejectionGreedySamplePytorch (outputTokenIds : List (List ℤ))
    (cuNumDraftTokens draftTokenIds targetArgmax bonusTokenIds : List ℤ)
    (draftTokensPerReq : List ℕ) (maxSpecLen : ℕ) (isGreedy : Option (List Bool)) :
    Option (List (List ℤ)) := do
  let batchSize := outputTokenIds.length
  let numTokens := draftTokenIds.length
  let isGreedy := isGreedy.getD (List.replicate batchSize true)
  let startIndices := List.zipWith (· - ·) cuNumDraftTokens (draftTokensPerReq.map Nat.cast)
  let reqIds := arange batchSize
  let tokenReqIds := repeatInterleave reqIds draftTokensPerReq
  let tokenStarts ← gather startIndices tokenReqIds
  let tokenPositions := List.zipWith (· - ·) (arange numTokens) tokenStarts
  let mismatchGlobal := List.zipWith (fun d a => decide (d ≠ a)) draftTokenIds targetArgmax
  let firstMismatch ← firstMismatchPosPerReq batchSize draftTokensPerReq tokenReqIds tokenPositions
    mismatchGlobal maxSpecLen
  -- copy matched target tokens into output
  let copyLen := List.zipWith (fun (pos : ℤ) (n : ℕ) => min (pos + 1) n) firstMismatch
    draftTokensPerReq
  let copyIndices := arange (maxSpecLen + 1)
  let finalCopyMask := List.zipWith (fun (len : ℤ) greedy =>
    copyIndices.map fun c => decide (c < len) && greedy) copyLen isGreedy
  let globalIdx := startIndices.map fun s => copyIndices.map fun c => s + c
  let copied ← gather targetArgmax (select₂ finalCopyMask globalIdx)
  let outputTokenIds ← scatter₂ outputTokenIds ((nonzero₂ finalCopyMask).map fun e => (e.1 : ℤ))
    ((nonzero₂ finalCopyMask).map fun e => e.2) copied
  -- fill bonus token
  let needsBonus := List.zipWith (fun greedy (e : ℤ × ℕ) => greedy && decide ((e.2 : ℤ) ≤ e.1))
    isGreedy (firstMismatch.zip draftTokensPerReq)
  if needsBonus.any id then
    let bonusRows := nonzero needsBonus
    let bonusCols ← gather (draftTokensPerReq.map Nat.cast) bonusRows
    let bonus ← gather bonusTokenIds bonusRows
    scatter₂ outputTokenIds bonusRows bonusCols bonus
  else
    return outputTokenIds

/-! ## The random pass -/

section Random

variable {K : Type} [LinearOrder K] [Zero K] [One K] [Sub K] [Div K]

/-- `draft_prob > 0 and target_prob / draft_prob >= uniform_prob` -/
def accepts (draftProb targetProb uniformProb : K) : Bool :=
  decide (0 < draftProb) && decide (uniformProb ≤ targetProb / draftProb)

/-- `draft_prob`, 1.0 in the n-gram case. -/
def draftProbAt (draftProbs : Option (List (List K))) (tokenIdx draftTokenId : ℤ) : Option K :=
  match draftProbs with
  | none => some 1
  | some probs => (item probs tokenIdx).bind (item · draftTokenId)

/-- One round of the loop over the positions of request `reqIdx`. -/
def verifyPosition (draftTokenIds : List ℤ) (draftProbs : Option (List (List K)))
    (targetProbs : List (List K)) (recoveredTokenIds : List ℤ) (uniformProbs : List K)
    (reqIdx : ℕ) (startIdx : ℤ) (s : Bool × List (List ℤ)) (pos : ℕ) :
    Option (Bool × List (List ℤ)) := do
  if s.1 then return s
  let draftTokenId ← item draftTokenIds (startIdx + pos)
  let draftProb ← draftProbAt draftProbs (startIdx + pos) draftTokenId
  let targetProb ← (item targetProbs (startIdx + pos)).bind (item · draftTokenId)
  let uniformProb ← item uniformProbs (startIdx + pos)
  if accepts draftProb targetProb uniformProb then
    let out ← modifyItem (fun row => setItem row pos draftTokenId) s.2 reqIdx
    return (false, out)
  else
    let tokenId ← item recoveredTokenIds (startIdx + pos)
    let out ← modifyItem (fun row => setItem row pos tokenId) s.2 reqIdx
    return (true, out)

/-- `start_idx` of a request. -/
def startIndex (cuNumDraftTokens : List ℤ) (reqIdx : ℕ) : Option ℤ :=
  if reqIdx = 0 then some 0 else item cuNumDraftTokens ((reqIdx : ℤ) - 1)

def rejectionRandomSamplePytorch (outputTokenIds : List (List ℤ))
    (cuNumDraftTokens draftTokenIds : List ℤ) (draftProbs : Option (List (List K)))
    (targetProbs : List (List K)) (bonusTokenIds recoveredTokenIds : List ℤ)
    (uniformProbs : List K) (isGreedy : List Bool) : Option (List (List ℤ)) :=
  (List.range outputTokenIds.length).foldlM (fun out (reqIdx : ℕ) => do
    if ← item isGreedy reqIdx then
      return out
    let startIdx ← startIndex cuNumDraftTokens reqIdx
    let endIdx ← item cuNumDraftTokens reqIdx
    let numDraftTokens := endIdx - startIdx
    let (rejected, out) ← (List.range numDraftTokens.toNat).foldlM
      (verifyPosition draftTokenIds draftProbs targetProbs recoveredTokenIds uniformProbs reqIdx
        startIdx) (false, out)
    if rejected then
      return out
    let bonusTokenId ← item bonusTokenIds reqIdx
    modifyItem (fun row => setItem row numDraftTokens bonusTokenId) out reqIdx) outputTokenIds

/-! ## Recovered tokens -/

/-- The scan of `argmax`: the best place so far and its value, at place `k`. -/
def argmaxFrom (k best : ℕ) (m : K) : List K → ℕ
  | [] => best
  | x :: xs => if m < x then argmaxFrom (k + 1) k x xs else argmaxFrom (k + 1) best m xs

/-- `torch.argmax(xs)`: the first place of the maximum. -/
def argmax : List K → Option ℤ
  | [] => none
  | x :: xs => some (argmaxFrom 1 0 x xs)

/-- `torch.maximum(target_p - draft_p, 0)` -/
def residual (targetP draftP : List K) : List K :=
  List.zipWith (fun t d => max (t - d) 0) targetP draftP

/-- One round of the loop over the positions of request `reqIdx`; the state is the recovered tokens,
uninitialised at first, and the target probabilities, changed in place. -/
def recoverPosition (draftTokenIds : List ℤ) (draftProbs : Option (List (List K)))
    (q : List (List K)) (reqIdx : ℕ) (startIdx : ℤ)
    (s : List (Option ℤ) × List (List K)) (pos : ℕ) :
    Option (List (Option ℤ) × List (List K)) := do
  let tokenIdx := startIdx + pos
  match draftProbs with
  | none =>
    let draftTokenId ← item draftTokenIds tokenIdx
    let origProb ← (item s.2 tokenIdx).bind (item · draftTokenId)
    let targetProbs ← modifyItem (fun row => setItem row draftTokenId 0) s.2 tokenIdx
    let prob ← item targetProbs tokenIdx
    let qValues ← item q reqIdx
    let recoveredId ← argmax (List.zipWith (· / ·) prob qValues)
    let out ← setItem s.1 tokenIdx (some recoveredId)
    let targetProbs ← modifyItem (fun row => setItem row draftTokenId origProb) targetProbs tokenIdx
    return (out, targetProbs)
  | some probs =>
    let draftP ← item probs tokenIdx
    let targetP ← item s.2 tokenIdx
    let qValues ← item q reqIdx
    let recoveredId ← argmax (List.zipWith (· / ·) (residual targetP draftP) qValues)
    let out ← setItem s.1 tokenIdx (some recoveredId)
    return (out, s.2)

def sampleRecoveredTokensPytorch (outputTokenIds : List (Option ℤ))
    (cuNumDraftTokens draftTokenIds : List ℤ) (draftProbs : Option (List (List K)))
    (targetProbs q : List (List K)) : Option (List (Option ℤ) × List (List K)) :=
  (List.range cuNumDraftTokens.length).foldlM (fun s (reqIdx : ℕ) => do
    let startIdx ← startIndex cuNumDraftTokens reqIdx
    let endIdx ← item cuNumDraftTokens reqIdx
    (List.range (endIdx - startIdx).toNat).foldlM
      (recoverPosition draftTokenIds draftProbs q reqIdx startIdx) s) (outputTokenIds, targetProbs)

/-! ## The sampler -/

/-- `uniformProbs` and `q` are what the generators draw. -/
def rejectionSample (draftTokenIds : List ℤ) (numDraftTokens : List ℕ) (maxSpecLen : ℕ)
    (cuNumDraftTokens : List ℤ) (draftProbs : Option (List (List K))) (targetProbs : List (List K))
    (bonusTokenIds : List ℤ) (samplingMetadata : SamplingMetadata) (uniformProbs : List K)
    (q : List (List K)) : Option (List (List ℤ)) := do
  let batchSize := numDraftTokens.length
  let numTokens := draftTokenIds.length
  guard (targetProbs.length = numTokens)
  let outputTokenIds :=
    List.replicate batchSize (List.replicate (maxSpecLen + 1) placeholderTokenId)
  let isGreedy ← if samplingMetadata.allGreedy then some none else
    samplingMetadata.temperature.map fun ts => some (ts.map fun t => decide (t = greedyTemperature))
  let outputTokenIds ← if samplingMetadata.allRandom then some outputTokenIds else do
    let targetArgmax ← targetProbs.mapM argmax
    let fewest ← numDraftTokens.min?
    let most ← numDraftTokens.max?
    if fewest = 1 ∧ most = 1 ∧ samplingMetadata.allGreedy then
      rejectionGreedySampleSpecLen1Pytorch outputTokenIds draftTokenIds targetArgmax bonusTokenIds
    else
      rejectionGreedySamplePytorch outputTokenIds cuNumDraftTokens draftTokenIds targetArgmax
        bonusTokenIds numDraftTokens maxSpecLen isGreedy
  if !samplingMetadata.allRandom && samplingMetadata.allGreedy then
    return outputTokenIds
  let (recovered, targetProbs) ← sampleRecoveredTokensPytorch (List.replicate numTokens none)
    cuNumDraftTokens draftTokenIds draftProbs targetProbs q
  let recoveredTokenIds ← recovered.mapM id
  rejectionRandomSamplePytorch outputTokenIds cuNumDraftTokens draftTokenIds draftProbs targetProbs
    bonusTokenIds recoveredTokenIds uniformProbs (isGreedy.getD [])

end Random

end VllmAscend
