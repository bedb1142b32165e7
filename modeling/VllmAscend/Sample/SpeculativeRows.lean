import VllmAscend.Sample.GreedyVerification

/-!
# Sample/SpeculativeRows — the rows of a mixed batch

    request   drafted positions (draft, target_probs, draft_probs, uniform)   bonus   temperature
    random    accepted drafts, then the recovered token of the first rejected position or the bonus
    greedy    the target's choices, then the bonus

A batch is a list of requests with their drafted positions; its flat tensors are the positions one
request after the other.  `DraftedRequest.emitted` is what one request gets, and the sampler returns
exactly that row by row, padded with the placeholder (`rejectionSample_eq`).
-/

namespace VllmAscend

open Machinery

/-! ## What one request gets -/

/-- One round of random verification: whether a position was rejected and the tokens so far, at a
position with its verdict, its draft and its recovered token. -/
def verdictStep (s : Bool × List ℤ) (v : Bool × ℤ × ℤ) : Bool × List ℤ :=
  if s.1 then s else if v.1 then (false, s.2 ++ [v.2.1]) else (true, s.2 ++ [v.2.2])

/-- **What random verification emits**: the drafts up to the first rejected one and its recovered
token, or all of them and the bonus token. -/
def randomTokens : List (Bool × ℤ × ℤ) → ℤ → List ℤ
  | [], bonus => [bonus]
  | (accepted, draft, recovered) :: rest, bonus =>
    if accepted then draft :: randomTokens rest bonus else [recovered]

theorem length_randomTokens (bonus : ℤ) (vs : List (Bool × ℤ × ℤ)) :
    1 ≤ (randomTokens vs bonus).length ∧ (randomTokens vs bonus).length ≤ vs.length + 1 := by
  induction vs with
  | nil => simp [randomTokens]
  | cons v rest ih =>
    rw [randomTokens]
    split
    · simp only [List.length_cons]
      omega
    · simp

/-- The rounds after a rejection change nothing. -/
theorem foldl_verdictStep_rejected (tokens : List ℤ) (vs : List (Bool × ℤ × ℤ)) :
    vs.foldl verdictStep (true, tokens) = (true, tokens) := by
  induction vs with
  | nil => rfl
  | cons v vs ih => exact ih

/-- **The rounds of the loop, then the bonus token, are the emitted tokens.** -/
theorem randomTokens_eq (bonus : ℤ) : ∀ (vs : List (Bool × ℤ × ℤ)) (tokens : List ℤ),
    tokens ++ randomTokens vs bonus = (vs.foldl verdictStep (false, tokens)).2 ++
      if (vs.foldl verdictStep (false, tokens)).1 then [] else [bonus]
  | [], tokens => rfl
  | (accepted, draft, recovered) :: rest, tokens => by
    cases accepted with
    | true =>
      rw [List.foldl_cons]
      change tokens ++ draft :: randomTokens rest bonus =
        (rest.foldl verdictStep (false, tokens ++ [draft])).2 ++
          if (rest.foldl verdictStep (false, tokens ++ [draft])).1 then [] else [bonus]
      rw [← randomTokens_eq bonus rest, List.append_assoc]
      rfl
    | false =>
      rw [List.foldl_cons]
      change tokens ++ [recovered] = (rest.foldl verdictStep (true, tokens ++ [recovered])).2 ++
          if (rest.foldl verdictStep (true, tokens ++ [recovered])).1 then [] else [bonus]
      rw [foldl_verdictStep_rejected]
      simp

/-- Until a position is rejected every round adds a token. -/
theorem length_foldl_verdictStep (vs : List (Bool × ℤ × ℤ)) (tokens : List ℤ)
    (h : (vs.foldl verdictStep (false, tokens)).1 = false) :
    (vs.foldl verdictStep (false, tokens)).2.length = tokens.length + vs.length := by
  induction vs generalizing tokens with
  | nil => rfl
  | cons v vs ih =>
    rw [List.foldl_cons] at h ⊢
    obtain ⟨accepted, draft, recovered⟩ := v
    cases accepted with
    | true =>
      refine (ih (tokens ++ [draft]) h).trans ?_
      simp only [List.length_append, List.length_cons, List.length_nil]
      omega
    | false =>
      have hrejected := foldl_verdictStep_rejected (tokens ++ [recovered]) vs
      change (vs.foldl verdictStep (true, tokens ++ [recovered])).1 = false at h
      rw [hrejected] at h
      contradiction

/-! ## Batches -/

section Batch

variable {K : Type} {vocabSize : ℕ}

/-- A drafted position, with what the sampler reads there. -/
structure DraftedPosition (K : Type) (vocabSize : ℕ) where
  draft : ℕ
  targetProbs : List K
  draftProbs : List K
  uniformProb : K
  draft_lt : draft < vocabSize
  length_targetProbs : targetProbs.length = vocabSize
  length_draftProbs : draftProbs.length = vocabSize

/-- A request of the batch. -/
structure DraftedRequest (K : Type) (vocabSize : ℕ) where
  positions : List (DraftedPosition K vocabSize)
  bonus : ℕ
  temperature : ℚ
  /-- its row of the exponential noise -/
  noise : List K
  length_noise : noise.length = vocabSize

/-! ## Where a request's positions stand -/

section Reading

variable {rs : List (DraftedRequest K vocabSize)} {r : ℕ} {d : Placed (DraftedRequest K vocabSize)}

/-- The loops find a request's positions between its running sums. -/
theorem startIndex_eq (hd : (placed DraftedRequest.positions 0 rs)[r]? = some d) :
    startIndex (cumsum 0 ((rs.map fun r => r.positions.length).map Nat.cast)) r =
      some (d.start : ℤ) := by
  cases r with
  | zero =>
    have hstart := start_eq hd
    rw [List.take_zero] at hstart
    rw [startIndex, if_pos rfl, hstart]
    rfl
  | succ r =>
    obtain ⟨hlt, -⟩ := List.getElem?_eq_some_iff.mp hd
    have hprev := List.getElem?_eq_getElem (show r < (placed DraftedRequest.positions 0 rs).length by
      omega)
    rw [startIndex, if_neg (Nat.succ_ne_zero r), show ((r + 1 : ℕ) : ℤ) - 1 = (r : ℤ) by omega,
      item_natCast, start_succ hprev hd]
    exact getElem?_cumsum hprev

theorem endIndex_eq (hd : (placed DraftedRequest.positions 0 rs)[r]? = some d) :
    item (cumsum 0 ((rs.map fun r => r.positions.length).map Nat.cast)) r =
      some ((d.start : ℤ) + d.data.positions.length) := by
  rw [item_natCast]
  exact getElem?_cumsum hd

end Reading

/-! ## What a request of a batch gets -/

variable [LinearOrder K] [Zero K] [One K] [Sub K] [Div K]

namespace DraftedPosition

variable (p : DraftedPosition K vocabSize)

def targetProb : K := p.targetProbs.get ⟨p.draft, p.length_targetProbs.symm ▸ p.draft_lt⟩

/-- `draft_prob`, 1 in the n-gram case. -/
def draftProb (ngram : Bool) : K :=
  if ngram then 1 else p.draftProbs.get ⟨p.draft, p.length_draftProbs.symm ▸ p.draft_lt⟩

/-- The vector the recovered token is drawn from. -/
def prob (ngram : Bool) : List K :=
  if ngram then p.targetProbs.set p.draft 0 else residual p.targetProbs p.draftProbs

/-- The target's choice at the position. -/
def choice : ℤ := (argmax p.targetProbs).getD 0

/-- The recovered token of the position. -/
def recovered (ngram : Bool) (noise : List K) : ℤ :=
  (argmax (List.zipWith (· / ·) (p.prob ngram) noise)).getD 0

/-- The verdict on a position, its draft and its recovered token. -/
def verdict (ngram : Bool) (noise : List K) : Bool × ℤ × ℤ :=
  (accepts (p.draftProb ngram) p.targetProb p.uniformProb, (p.draft : ℤ), p.recovered ngram noise)

end DraftedPosition

namespace DraftedRequest

variable (r : DraftedRequest K vocabSize)

def isGreedy : Bool := decide (r.temperature = greedyTemperature)

/-- The verdicts on its positions. -/
def verdicts (ngram : Bool) : List (Bool × ℤ × ℤ) :=
  r.positions.map fun p => p.verdict ngram r.noise

/-- **What a request gets.** -/
def emitted (ngram : Bool) : List ℤ :=
  if r.isGreedy then greedyTokens (r.positions.map fun p => ((p.draft : ℤ), p.choice)) r.bonus
  else randomTokens (r.verdicts ngram) r.bonus

/-- Its row of the output, padded with the placeholder. -/
def outputRow (ngram : Bool) (maxSpecLen : ℕ) : List ℤ :=
  overwritten (r.emitted ngram) (List.replicate (maxSpecLen + 1) placeholderTokenId)

end DraftedRequest

variable (rs : List (DraftedRequest K vocabSize)) (ngram : Bool) (maxSpecLen : ℕ)

/-- `draft_probs` of the batch. -/
def batchDraftProbs : Option (List (List K)) :=
  if ngram then none
  else some ((rs.flatMap DraftedRequest.positions).map DraftedPosition.draftProbs)

/-- The sampler on the flat tensors of a batch. -/
def sampleBatch (metadata : SamplingMetadata) : Option (List (List ℤ)) :=
  rejectionSample ((rs.flatMap DraftedRequest.positions).map fun p => (p.draft : ℤ))
    (rs.map fun r => r.positions.length) maxSpecLen
    (cumsum 0 ((rs.map fun r => r.positions.length).map Nat.cast)) (batchDraftProbs rs ngram)
    ((rs.flatMap DraftedRequest.positions).map DraftedPosition.targetProbs)
    (rs.map fun r => (r.bonus : ℤ)) metadata
    ((rs.flatMap DraftedRequest.positions).map DraftedPosition.uniformProb)
    (rs.map DraftedRequest.noise)

/-- The metadata says of each request whether it is greedy. -/
structure SamplingMetadata.Describes (metadata : SamplingMetadata) : Prop where
  allGreedy : metadata.allGreedy = true ↔ ∀ r ∈ rs, r.isGreedy = true
  allRandom : metadata.allRandom = true ↔ ∀ r ∈ rs, r.isGreedy = false
  temperature : metadata.allGreedy = false →
    metadata.temperature = some (rs.map DraftedRequest.temperature)

/-! ## Recovered tokens -/

omit [Zero K] [One K] [Sub K] [Div K] in
/-- The argmax of a nonempty row. -/
theorem argmax_eq {xs : List K} (h : xs ≠ []) : argmax xs = some ((argmax xs).getD 0) := by
  cases xs with
  | nil => exact absurd rfl h
  | cons x xs => rfl

namespace DraftedPosition

variable {ngram} (p : DraftedPosition K vocabSize)

omit [One K] [Div K] in
theorem length_prob : (p.prob ngram).length = vocabSize := by
  unfold prob
  split
  · rw [List.length_set, p.length_targetProbs]
  · rw [residual, List.length_zipWith, p.length_targetProbs, p.length_draftProbs, min_self]

omit [Zero K] [One K] [Sub K] [Div K] in
theorem argmax_targetProbs : argmax p.targetProbs = some p.choice := by
  refine argmax_eq fun h => ?_
  have hlen := p.length_targetProbs
  rw [h] at hlen
  exact absurd p.draft_lt (by simp [← hlen])

omit [One K] in
theorem argmax_prob (ngram : Bool) {noise : List K} (hnoise : noise.length = vocabSize) :
    argmax (List.zipWith (· / ·) (p.prob ngram) noise) = some (p.recovered ngram noise) := by
  refine argmax_eq fun h => ?_
  have hlen := congrArg List.length h
  rw [List.length_zipWith, p.length_prob, hnoise, min_self] at hlen
  exact absurd p.draft_lt (by simp [hlen])

omit [LinearOrder K] [Zero K] [One K] [Sub K] [Div K] in
theorem item_targetProbs : item p.targetProbs p.draft = some p.targetProb := by
  rw [item_natCast]
  exact List.getElem?_eq_getElem _

end DraftedPosition

omit [One K] in
/-- **One position recovers its token**, and leaves the target probabilities as they were. -/
theorem recoverPosition_eq {r j : ℕ} {d : Placed (DraftedRequest K vocabSize)}
    {p : DraftedPosition K vocabSize} {out : List (Option ℤ)}
    (hd : (placed DraftedRequest.positions 0 rs)[r]? = some d) (hp : d.data.positions[j]? = some p)
    (hout : d.start + j < out.length) :
    recoverPosition ((rs.flatMap DraftedRequest.positions).map fun p => (p.draft : ℤ))
      (batchDraftProbs rs ngram) (rs.map DraftedRequest.noise) r d.start
      (out, (rs.flatMap DraftedRequest.positions).map DraftedPosition.targetProbs) j =
        some (out.set (d.start + j) (some (p.recovered ngram d.data.noise)),
          (rs.flatMap DraftedRequest.positions).map DraftedPosition.targetProbs) := by
  have hmem := List.mem_of_getElem? hd
  have hitem {β : Type} (g : DraftedPosition K vocabSize → β) :
      item ((rs.flatMap DraftedRequest.positions).map g) ((d.start : ℤ) + j) = some (g p) :=
    item_flatMap_placed g hmem hp
  have hset := setItem_natCast (some (p.recovered ngram d.data.noise)) hout
  rw [Nat.cast_add] at hset
  have hnoise : item (rs.map DraftedRequest.noise) r = some d.data.noise := by
    rw [item_natCast, List.getElem?_map, getElem?_of_placed hd]
    rfl
  have hrecovered := p.argmax_prob ngram d.data.length_noise
  unfold recoverPosition batchDraftProbs
  cases ngram with
  | false =>
    simp only [Bool.false_eq_true, if_false, hitem, hnoise, Option.bind_eq_bind, Option.bind_some]
    rw [DraftedPosition.prob, if_neg Bool.false_ne_true] at hrecovered
    rw [hrecovered, Option.bind_some, hset]
    rfl
  | true =>
    have hflat : ((rs.flatMap DraftedRequest.positions).map DraftedPosition.targetProbs)[d.start + j]? =
        some p.targetProbs := by
      rw [← item_natCast, Nat.cast_add]
      exact hitem DraftedPosition.targetProbs
    have hdraft : p.draft < p.targetProbs.length := p.length_targetProbs.symm ▸ p.draft_lt
    -- the draft's entry is zeroed and, after the token is drawn, restored
    have hzero := modifyItem_natCast (fun row => setItem row p.draft 0) hflat
    rw [setItem_natCast 0 hdraft, Nat.cast_add, Option.map_some] at hzero
    have hzeroed : (((rs.flatMap DraftedRequest.positions).map DraftedPosition.targetProbs).set
        (d.start + j) (p.targetProbs.set p.draft 0))[d.start + j]? =
          some (p.targetProbs.set p.draft 0) :=
      List.getElem?_set_self (List.getElem?_eq_some_iff.mp hflat).1
    have hprob := hzeroed
    rw [← item_natCast, Nat.cast_add] at hprob
    have hrestore := modifyItem_natCast (fun row => setItem row p.draft p.targetProb) hzeroed
    rw [setItem_natCast p.targetProb (by simpa using hdraft), Nat.cast_add, Option.map_some] at hrestore
    have hsame : ((((rs.flatMap DraftedRequest.positions).map DraftedPosition.targetProbs).set
        (d.start + j) (p.targetProbs.set p.draft 0)).set (d.start + j)
          ((p.targetProbs.set p.draft 0).set p.draft p.targetProb)) =
            (rs.flatMap DraftedRequest.positions).map DraftedPosition.targetProbs := by
      have hrow : p.targetProbs.set p.draft p.targetProb = p.targetProbs := List.set_getElem_self _
      obtain ⟨hlt, hval⟩ := List.getElem?_eq_some_iff.mp hflat
      rw [List.set_set, List.set_set, hrow, ← hval, List.set_getElem_self]
    rw [DraftedPosition.prob, if_pos rfl] at hrecovered
    simp only [if_true, hitem, hnoise, Option.bind_eq_bind, Option.bind_some, p.item_targetProbs,
      hzero, hprob, hrecovered, hset, hrestore, hsame]
    rfl

/-- The recovered tokens of a request. -/
def DraftedRequest.recovered (r : DraftedRequest K vocabSize) : List ℤ :=
  r.positions.map fun p => p.recovered ngram r.noise

omit [One K] in
@[simp] theorem DraftedRequest.length_recovered (r : DraftedRequest K vocabSize) :
    (r.recovered ngram).length = r.positions.length := by
  simp [recovered]

omit [One K] in
/-- **The loop over a request recovers its tokens.** -/
theorem recoverRequest_eq {r : ℕ} {d : Placed (DraftedRequest K vocabSize)}
    (hd : (placed DraftedRequest.positions 0 rs)[r]? = some d) (before after : List (Option ℤ))
    (hbefore : before.length = d.start) :
    (List.range d.data.positions.length).foldlM
        (recoverPosition ((rs.flatMap DraftedRequest.positions).map fun p => (p.draft : ℤ))
          (batchDraftProbs rs ngram) (rs.map DraftedRequest.noise) r d.start)
        (before ++ List.replicate d.data.positions.length none ++ after,
          (rs.flatMap DraftedRequest.positions).map DraftedPosition.targetProbs) =
      some (before ++ (d.data.recovered ngram).map some ++ after,
        (rs.flatMap DraftedRequest.positions).map DraftedPosition.targetProbs) := by
  refine foldlM_range_rows (fun l => (before ++ l ++ after,
    (rs.flatMap DraftedRequest.positions).map DraftedPosition.targetProbs)) (by simp) (by simp) ?_
  intro j x y done rest hx hy hdone _
  obtain ⟨p, hp, rfl⟩ : ∃ p, d.data.positions[j]? = some p ∧
      some (p.recovered ngram d.data.noise) = y := by
    rw [DraftedRequest.recovered, List.map_map, List.getElem?_map, Option.map_eq_some_iff] at hy
    exact hy
  have hj : j < d.data.positions.length := (List.getElem?_eq_some_iff.mp hp).1
  have hfront : (before ++ done).length = d.start + j := by
    rw [List.length_append, hdone, hbefore]
  rw [recoverPosition_eq rs ngram hd hp (by
    simp only [List.length_append, List.length_cons, hdone, hbefore]
    omega), ← hfront, List.append_assoc, List.append_assoc, List.cons_append, ← List.append_assoc,
    List.set_append_right _ _ le_rfl, Nat.sub_self, List.set_cons_zero]
  simp

omit [One K] in
/-- **Every position recovers its token**, and the target probabilities end as they were. -/
theorem sampleRecoveredTokensPytorch_eq :
    sampleRecoveredTokensPytorch (List.replicate (rs.flatMap DraftedRequest.positions).length none)
      (cumsum 0 ((rs.map fun r => r.positions.length).map Nat.cast))
      ((rs.flatMap DraftedRequest.positions).map fun p => (p.draft : ℤ)) (batchDraftProbs rs ngram)
      ((rs.flatMap DraftedRequest.positions).map DraftedPosition.targetProbs)
      (rs.map DraftedRequest.noise) =
        some ((rs.flatMap fun r => r.recovered ngram).map some,
          (rs.flatMap DraftedRequest.positions).map DraftedPosition.targetProbs) := by
  have hnone : List.replicate (rs.flatMap DraftedRequest.positions).length (none : Option ℤ) =
      (rs.map fun r => List.replicate r.positions.length none).flatten := by
    rw [← List.map_const', List.map_flatMap, List.flatMap_def]
    simp only [List.map_const']
  have hsome : (rs.flatMap fun r => r.recovered ngram).map some =
      (rs.map fun r => (r.recovered ngram).map some).flatten := by
    rw [List.map_flatMap, List.flatMap_def]
  rw [sampleRecoveredTokensPytorch, hnone, hsome, length_cumsum]
  refine foldlM_range_rows (fun l => (l.flatten,
    (rs.flatMap DraftedRequest.positions).map DraftedPosition.targetProbs)) (by simp) (by simp) ?_
  intro r x y before after hx hy _ hbefore
  rw [← map_placed DraftedRequest.positions _ 0, List.getElem?_map, Option.map_eq_some_iff] at hx hy
  obtain ⟨d, hd, rfl⟩ := hx
  obtain ⟨d', hd', rfl⟩ := hy
  cases hd.symm.trans hd'
  have hstart : before.flatten.length = d.start := by
    rw [hbefore, start_eq hd, Nat.zero_add, ← List.map_take, ← List.flatMap_def, List.length_flatMap,
      List.length_flatMap]
    simp
  have hcount : ((d.start : ℤ) + d.data.positions.length - d.start).toNat =
      d.data.positions.length := by omega
  have hloop := recoverRequest_eq rs ngram hd before.flatten after.flatten hstart
  simp only [startIndex_eq hd, endIndex_eq hd, Option.bind_eq_bind, Option.bind_some, hcount,
    List.flatten_append, List.flatten_cons, ← List.append_assoc, hloop]

/-! ## The random pass -/

/-- **One position is verified** in its request's row. -/
theorem verifyPosition_eq {r j : ℕ} {d : Placed (DraftedRequest K vocabSize)}
    {p : DraftedPosition K vocabSize} (hd : (placed DraftedRequest.positions 0 rs)[r]? = some d)
    (hp : d.data.positions[j]? = some p) (before after : List (List ℤ)) (hbefore : before.length = r)
    (row : List ℤ) (st : Bool × List ℤ) (hst : st.1 = false → st.2.length = j)
    (hj : j < row.length) :
    verifyPosition ((rs.flatMap DraftedRequest.positions).map fun p => (p.draft : ℤ))
      (batchDraftProbs rs ngram) ((rs.flatMap DraftedRequest.positions).map DraftedPosition.targetProbs)
      (rs.flatMap fun r => r.recovered ngram)
      ((rs.flatMap DraftedRequest.positions).map DraftedPosition.uniformProb) r d.start
      (st.1, before ++ overwritten st.2 row :: after) j =
        some ((verdictStep st (p.verdict ngram d.data.noise)).1,
          before ++ overwritten (verdictStep st (p.verdict ngram d.data.noise)).2 row :: after) := by
  obtain ⟨rejected, tokens⟩ := st
  cases rejected with
  | true => rfl
  | false =>
    have hlen : tokens.length = j := hst rfl
    have hmem := List.mem_of_getElem? hd
    have hitem {β : Type} (g : DraftedPosition K vocabSize → β) :
        item ((rs.flatMap DraftedRequest.positions).map g) ((d.start : ℤ) + j) = some (g p) :=
      item_flatMap_placed g hmem hp
    have hrecovered : item (rs.flatMap fun r => r.recovered ngram) ((d.start : ℤ) + j) =
        some (p.recovered ngram d.data.noise) := by
      rw [placed_congr DraftedRequest.positions (fun r => r.recovered ngram) (by simp)] at hmem
      have h := item_flatMap_placed id hmem (j := j) (x := p.recovered ngram d.data.noise) (by
        rw [DraftedRequest.recovered, List.getElem?_map, hp]
        rfl)
      rwa [List.map_id] at h
    have hdraftProb : draftProbAt (batchDraftProbs rs ngram) ((d.start : ℤ) + j) p.draft =
        some (p.draftProb ngram) := by
      unfold draftProbAt batchDraftProbs DraftedPosition.draftProb
      cases ngram with
      | true => rfl
      | false =>
        simp only [Bool.false_eq_true, if_false, hitem, Option.bind_some, item_natCast]
        exact List.getElem?_eq_getElem _
    have hwrite (x : ℤ) : modifyItem (fun row => setItem row j x)
        (before ++ overwritten tokens row :: after) r =
          some (before ++ overwritten (tokens ++ [x]) row :: after) := by
      rw [modifyItem_append _ _ _ _ hbefore, ← hlen, setItem_overwritten _ _ x (hlen.symm ▸ hj)]
      rfl
    unfold verifyPosition
    simp only [Bool.false_eq_true, if_false, hitem, Option.bind_eq_bind, Option.bind_some, hdraftProb,
      p.item_targetProbs, hrecovered, hwrite]
    cases hverdict : accepts (p.draftProb ngram) p.targetProb p.uniformProb with
    | true => simp [verdictStep, DraftedPosition.verdict, hverdict]
    | false => simp [verdictStep, DraftedPosition.verdict, hverdict]

/-- **The loop over a request verifies it** in its row. -/
theorem verifyRequest_eq {r : ℕ} {d : Placed (DraftedRequest K vocabSize)}
    (hd : (placed DraftedRequest.positions 0 rs)[r]? = some d) (before after : List (List ℤ))
    (hbefore : before.length = r) (row : List ℤ) (hrow : d.data.positions.length < row.length) :
    (List.range d.data.positions.length).foldlM
        (verifyPosition ((rs.flatMap DraftedRequest.positions).map fun p => (p.draft : ℤ))
          (batchDraftProbs rs ngram)
          ((rs.flatMap DraftedRequest.positions).map DraftedPosition.targetProbs)
          (rs.flatMap fun r => r.recovered ngram)
          ((rs.flatMap DraftedRequest.positions).map DraftedPosition.uniformProb) r d.start)
        (false, before ++ row :: after) =
      some (((d.data.verdicts ngram).foldl verdictStep (false, [])).1,
        before ++ overwritten ((d.data.verdicts ngram).foldl verdictStep (false, [])).2 row ::
          after) := by
  let state (k : ℕ) : Bool × List ℤ :=
    ((d.data.verdicts ngram).take k).foldl verdictStep (false, [])
  have hlen : (d.data.verdicts ngram).length = d.data.positions.length := by
    simp [DraftedRequest.verdicts]
  have hloop : (List.range d.data.positions.length).foldlM
      (verifyPosition ((rs.flatMap DraftedRequest.positions).map fun p => (p.draft : ℤ))
        (batchDraftProbs rs ngram)
        ((rs.flatMap DraftedRequest.positions).map DraftedPosition.targetProbs)
        (rs.flatMap fun r => r.recovered ngram)
        ((rs.flatMap DraftedRequest.positions).map DraftedPosition.uniformProb) r d.start)
      ((state 0).1, before ++ overwritten (state 0).2 row :: after) =
        some ((state d.data.positions.length).1,
          before ++ overwritten (state d.data.positions.length).2 row :: after) := by
    refine foldlM_range_eq (fun k => ((state k).1, before ++ overwritten (state k).2 row :: after))
      fun j hj => ?_
    have hp : d.data.positions[j]? = some d.data.positions[j] := List.getElem?_eq_getElem hj
    have hv : j < (d.data.verdicts ngram).length := hlen.symm ▸ hj
    have hst : (state j).1 = false → (state j).2.length = j := fun h => by
      have hcount := length_foldl_verdictStep ((d.data.verdicts ngram).take j) [] h
      rw [List.length_take] at hcount
      simpa [hv.le] using hcount
    rw [verifyPosition_eq rs ngram hd hp before after hbefore row (state j) hst (hj.trans hrow)]
    have hsucc : state (j + 1) = verdictStep (state j)
        ((d.data.positions[j]).verdict ngram d.data.noise) := by
      simp only [state]
      rw [List.take_succ_eq_append_getElem hv, List.foldl_append]
      simp [DraftedRequest.verdicts]
    rw [hsucc]
  simp only [state, List.take_of_length_le hlen.le] at hloop
  exact hloop

/-- **The random pass verifies each random request in its row**, and leaves the other rows alone. -/
theorem rejectionRandomSamplePytorch_eq (row : DraftedRequest K vocabSize → List ℤ)
    (hrow : ∀ r ∈ rs, r.positions.length < (row r).length) :
    rejectionRandomSamplePytorch (rs.map row)
      (cumsum 0 ((rs.map fun r => r.positions.length).map Nat.cast))
      ((rs.flatMap DraftedRequest.positions).map fun p => (p.draft : ℤ)) (batchDraftProbs rs ngram)
      ((rs.flatMap DraftedRequest.positions).map DraftedPosition.targetProbs)
      (rs.map fun r => (r.bonus : ℤ)) (rs.flatMap fun r => r.recovered ngram)
      ((rs.flatMap DraftedRequest.positions).map DraftedPosition.uniformProb)
      (rs.map DraftedRequest.isGreedy) =
        some (rs.map fun r => if r.isGreedy then row r
          else overwritten (randomTokens (r.verdicts ngram) r.bonus) (row r)) := by
  rw [rejectionRandomSamplePytorch, List.length_map]
  refine foldlM_range_rows id (by simp) (by simp) ?_
  intro r x y before after hx hy hbefore _
  rw [← map_placed DraftedRequest.positions _ 0, List.getElem?_map, Option.map_eq_some_iff] at hx hy
  obtain ⟨d, hd, rfl⟩ := hx
  obtain ⟨d', hd', rfl⟩ := hy
  cases hd.symm.trans hd'
  have hr := getElem?_of_placed hd
  have hlen := hrow d.data (List.mem_of_getElem? hr)
  have hgreedy : item (rs.map DraftedRequest.isGreedy) r = some d.data.isGreedy := by
    rw [item_natCast, List.getElem?_map, hr]
    rfl
  simp only [id_eq, hgreedy, Option.bind_eq_bind, Option.bind_some]
  split
  · rfl
  · have hloop := verifyRequest_eq rs ngram hd before after hbefore (row d.data) hlen
    have hcount : ((d.start : ℤ) + d.data.positions.length - d.start).toNat =
        d.data.positions.length := by omega
    have hbonus : item (rs.map fun r => (r.bonus : ℤ)) r = some (d.data.bonus : ℤ) := by
      rw [item_natCast, List.getElem?_map, hr]
      rfl
    simp only [startIndex_eq hd, endIndex_eq hd, Option.bind_some, hcount, hloop]
    have hemitted := randomTokens_eq (d.data.bonus : ℤ) (d.data.verdicts ngram) []
    rw [List.nil_append] at hemitted
    rw [hemitted]
    cases hrejected : ((d.data.verdicts ngram).foldl verdictStep (false, [])).1 with
    | true => simp
    | false =>
      have hcount := length_foldl_verdictStep (d.data.verdicts ngram) [] hrejected
      have htokens : ((d.data.verdicts ngram).foldl verdictStep (false, [])).2.length =
          d.data.positions.length := by
        simpa [DraftedRequest.verdicts] using hcount
      have hset := setItem_overwritten _ (row d.data) (d.data.bonus : ℤ)
        (htokens.symm ▸ hlen)
      rw [htokens] at hset
      simp only [Bool.false_eq_true, if_false, hbonus, Option.bind_some,
        add_sub_cancel_left, modifyItem_append _ _ _ _ hbefore, hset, Option.map_some]

/-! ## The sampler -/

/-- A request as the greedy pass sees it, in a fresh output buffer. -/
def DraftedRequest.greedyRequest (r : DraftedRequest K vocabSize) : GreedyRequest where
  drafts := r.positions.map fun p => ((p.draft : ℤ), p.choice)
  bonus := r.bonus
  isGreedy := r.isGreedy
  row := List.replicate (maxSpecLen + 1) placeholderTokenId

/-- The row the greedy pass leaves of a request. -/
def DraftedRequest.greedyRow (r : DraftedRequest K vocabSize) : List ℤ :=
  (r.greedyRequest maxSpecLen).verified

omit [Zero K] [One K] [Sub K] [Div K] in
theorem flatMap_greedyRequest :
    (rs.map (DraftedRequest.greedyRequest maxSpecLen)).flatMap GreedyRequest.drafts =
      (rs.flatMap DraftedRequest.positions).map fun p => ((p.draft : ℤ), p.choice) := by
  rw [List.flatMap_map, List.map_flatMap]
  rfl

omit [Zero K] [One K] [Sub K] [Div K] in
/-- **The greedy pass over a batch.** -/
theorem greedyPass_eq (hlen : ∀ r ∈ rs, r.positions.length ≤ maxSpecLen) :
    rejectionGreedySamplePytorch
      (List.replicate rs.length (List.replicate (maxSpecLen + 1) placeholderTokenId))
      (cumsum 0 ((rs.map fun r => r.positions.length).map Nat.cast))
      ((rs.flatMap DraftedRequest.positions).map fun p => (p.draft : ℤ))
      ((rs.flatMap DraftedRequest.positions).map DraftedPosition.choice)
      (rs.map fun r => (r.bonus : ℤ)) (rs.map fun r => r.positions.length) maxSpecLen
      (some (rs.map DraftedRequest.isGreedy)) = some (rs.map (DraftedRequest.greedyRow maxSpecLen)) := by
  have hdrafts : ∀ r ∈ rs, (r.greedyRequest maxSpecLen).drafts.length ≤ maxSpecLen := fun r hr => by
    simpa [DraftedRequest.greedyRequest] using hlen r hr
  have hpass := rejectionGreedySamplePytorch_eq (rs.map (DraftedRequest.greedyRequest maxSpecLen))
    maxSpecLen (List.forall_mem_map.mpr hdrafts)
    (List.forall_mem_map.mpr fun _ _ => List.length_replicate)
  rw [flatMap_greedyRequest] at hpass
  simp only [List.map_map, Function.comp_def, DraftedRequest.greedyRequest, List.length_map,
    List.map_const'] at hpass
  rw [List.map_map]
  exact hpass

/-- **The random phase**: recovered tokens are drawn and the random requests verified. -/
theorem randomPhase_eq (row : DraftedRequest K vocabSize → List ℤ)
    (hrow : ∀ r ∈ rs, r.positions.length < (row r).length) :
    (do
      let (recovered, targetProbs) ← sampleRecoveredTokensPytorch
        (List.replicate (rs.flatMap DraftedRequest.positions).length none)
        (cumsum 0 ((rs.map fun r => r.positions.length).map Nat.cast))
        ((rs.flatMap DraftedRequest.positions).map fun p => (p.draft : ℤ)) (batchDraftProbs rs ngram)
        ((rs.flatMap DraftedRequest.positions).map DraftedPosition.targetProbs)
        (rs.map DraftedRequest.noise)
      let recoveredTokenIds ← recovered.mapM id
      rejectionRandomSamplePytorch (rs.map row)
        (cumsum 0 ((rs.map fun r => r.positions.length).map Nat.cast))
        ((rs.flatMap DraftedRequest.positions).map fun p => (p.draft : ℤ)) (batchDraftProbs rs ngram)
        targetProbs (rs.map fun r => (r.bonus : ℤ)) recoveredTokenIds
        ((rs.flatMap DraftedRequest.positions).map DraftedPosition.uniformProb)
        (rs.map DraftedRequest.isGreedy)) =
      some (rs.map fun r => if r.isGreedy then row r
        else overwritten (randomTokens (r.verdicts ngram) r.bonus) (row r)) := by
  have hinit := mapM_map_eq_some (f := (id : Option ℤ → Option ℤ)) (c := some) (g := id)
    (l := rs.flatMap fun r => r.recovered ngram) fun _ _ => rfl
  rw [List.map_id] at hinit
  simp only [sampleRecoveredTokensPytorch_eq, Option.bind_eq_bind, Option.bind_some, hinit]
  exact rejectionRandomSamplePytorch_eq rs ngram row hrow

/-- The row of a greedy request is what the greedy pass leaves, the row of a random one what the
random pass makes of it. -/
theorem outputRow_eq (r : DraftedRequest K vocabSize) :
    r.outputRow ngram maxSpecLen = if r.isGreedy then r.greedyRow maxSpecLen
      else overwritten (randomTokens (r.verdicts ngram) r.bonus) (r.greedyRow maxSpecLen) := by
  unfold DraftedRequest.outputRow DraftedRequest.emitted DraftedRequest.greedyRow
    GreedyRequest.verified DraftedRequest.greedyRequest
  cases hgreedy : r.isGreedy <;> simp

omit [Zero K] [One K] [Sub K] [Div K] in
theorem length_greedyRow (r : DraftedRequest K vocabSize) (hlen : r.positions.length ≤ maxSpecLen) :
    r.positions.length < (r.greedyRow maxSpecLen).length := by
  have hemitted := length_greedyTokens (r.bonus : ℤ) (r.positions.map fun p => ((p.draft : ℤ), p.choice))
  rw [List.length_map] at hemitted
  unfold DraftedRequest.greedyRow GreedyRequest.verified DraftedRequest.greedyRequest
  split
  · simp only [overwritten, List.length_append, List.length_drop, List.length_replicate]
    omega
  · rw [List.length_replicate]
    omega

/-- **The sampler returns what each request gets**, padded with the placeholder. -/
theorem rejectionSample_eq {metadata : SamplingMetadata}
    (hlen : ∀ r ∈ rs, r.positions.length ≤ maxSpecLen) (hmetadata : metadata.Describes rs) :
    sampleBatch rs ngram maxSpecLen metadata = some (rs.map fun r => r.outputRow ngram maxSpecLen) := by
  cases hgreedy : metadata.allGreedy with
  | true =>
    have hall : ∀ r ∈ rs, r.isGreedy = true := hmetadata.allGreedy.mp hgreedy
    let reqs := rs.map fun r => (r.positions.map fun p => ((p.draft : ℤ), p.choice), (r.bonus : ℤ))
    have hrandom : metadata.allRandom = true ↔ reqs = [] := by
      rw [hmetadata.allRandom, List.map_eq_nil_iff, List.eq_nil_iff_forall_not_mem]
      refine forall_congr' fun r => ⟨fun h hr => ?_, fun h hr => absurd hr h⟩
      rw [hall r hr] at h
      exact absurd (h hr) (by simp)
    have hflat : reqs.flatMap Prod.fst =
        (rs.flatMap DraftedRequest.positions).map fun p => ((p.draft : ℤ), p.choice) := by
      rw [List.flatMap_map, List.map_flatMap]
    have htarget : ((rs.flatMap DraftedRequest.positions).map DraftedPosition.targetProbs).map argmax =
        (reqs.flatMap Prod.fst).map fun p => some p.2 := by
      rw [hflat, List.map_map, List.map_map]
      exact List.map_congr_left fun p _ => p.argmax_targetProbs
    have hreqs : ∀ r ∈ reqs, r.1.length ≤ maxSpecLen :=
      List.forall_mem_map.mpr fun r hr => by simpa using hlen r hr
    have hsample := rejectionSample_allGreedy reqs maxSpecLen hreqs (batchDraftProbs rs ngram)
      ((rs.flatMap DraftedRequest.positions).map DraftedPosition.uniformProb)
      (rs.map DraftedRequest.noise) htarget hgreedy hrandom
    have houtput : greedyRows reqs maxSpecLen = rs.map fun r => r.outputRow ngram maxSpecLen := by
      rw [greedyRows, List.map_map]
      refine List.map_congr_left fun r hr => ?_
      rw [DraftedRequest.outputRow, DraftedRequest.emitted, if_pos (hall r hr)]
      rfl
    simp only [hflat, List.map_map, Function.comp_def, reqs, List.length_map] at hsample
    rw [houtput] at hsample
    unfold sampleBatch
    rw [List.map_map]
    exact hsample
  | false =>
    have hargmax := mapM_map_eq_some (l := rs.flatMap DraftedRequest.positions)
      fun p _ => p.argmax_targetProbs
    have hflags : metadata.temperature.map
        (fun ts => some (ts.map fun t => decide (t = greedyTemperature))) =
          some (some (rs.map DraftedRequest.isGreedy)) := by
      rw [hmetadata.temperature hgreedy, Option.map_some, List.map_map]
      rfl
    have hphase := randomPhase_eq rs ngram (DraftedRequest.greedyRow maxSpecLen)
      fun r hr => length_greedyRow maxSpecLen r (hlen r hr)
    simp only [← outputRow_eq, Option.bind_eq_bind] at hphase
    unfold sampleBatch rejectionSample
    simp only [List.length_map, guard_true, Option.bind_eq_bind, Option.bind_some, hgreedy,
      Bool.false_eq_true, if_false, hflags, hargmax, and_false, Option.getD_some, Bool.and_false]
    cases hrandom : metadata.allRandom with
    | true =>
      have hfresh : rs.map (DraftedRequest.greedyRow maxSpecLen) =
          List.replicate rs.length (List.replicate (maxSpecLen + 1) placeholderTokenId) := by
        rw [← List.map_const']
        refine List.map_congr_left fun r hr => ?_
        simp [DraftedRequest.greedyRow, GreedyRequest.verified, DraftedRequest.greedyRequest,
          hmetadata.allRandom.mp hrandom r hr]
      rw [hfresh] at hphase
      simp only [if_true, hphase]
      rfl
    | false =>
      have hne : rs ≠ [] := fun h => by
        have hall := hmetadata.allRandom.mpr (by simp [h])
        rw [hrandom] at hall
        contradiction
      have hcounts : (rs.map fun r => r.positions.length) ≠ [] := by simpa using hne
      obtain ⟨fewest, hfewest⟩ := Option.isSome_iff_exists.mp (List.isSome_min?_of_ne_nil hcounts)
      obtain ⟨most, hmost⟩ := Option.isSome_iff_exists.mp (List.isSome_max?_of_ne_nil hcounts)
      simp only [Bool.false_eq_true, if_false, hfewest, hmost,
        greedyPass_eq rs maxSpecLen hlen, Option.bind_some, hphase]
      rfl

omit [Zero K] [One K] [Sub K] [Div K] in
theorem argmax_getD_nonneg (xs : List K) : 0 ≤ (argmax xs).getD 0 := by
  cases xs with
  | nil => exact le_rfl
  | cons x xs => exact Int.natCast_nonneg _

/-- Greedy verification emits the target's choices and the bonus token. -/
theorem mem_greedyTokens {t bonus : ℤ} : ∀ {drafts : List (ℤ × ℤ)},
    t ∈ greedyTokens drafts bonus → t = bonus ∨ ∃ p ∈ drafts, t = p.2
  | [], h => .inl (List.mem_singleton.mp h)
  | (draft, choice) :: rest, h => by
    rw [greedyTokens] at h
    split at h
    · obtain rfl | h := List.mem_cons.mp h
      · exact .inr ⟨_, .head _, rfl⟩
      · obtain hbonus | ⟨p, hp, ht⟩ := mem_greedyTokens h
        · exact .inl hbonus
        · exact .inr ⟨p, .tail _ hp, ht⟩
    · exact .inr ⟨_, .head _, List.mem_singleton.mp h⟩

/-- Random verification emits drafts, a recovered token and the bonus token. -/
theorem mem_randomTokens {t bonus : ℤ} : ∀ {vs : List (Bool × ℤ × ℤ)},
    t ∈ randomTokens vs bonus → t = bonus ∨ ∃ v ∈ vs, t = v.2.1 ∨ t = v.2.2
  | [], h => .inl (List.mem_singleton.mp h)
  | (accepted, draft, recovered) :: rest, h => by
    rw [randomTokens] at h
    split at h
    · obtain rfl | h := List.mem_cons.mp h
      · exact .inr ⟨_, .head _, .inl rfl⟩
      · obtain hbonus | ⟨v, hv, ht⟩ := mem_randomTokens h
        · exact .inl hbonus
        · exact .inr ⟨v, .tail _ hv, ht⟩
    · exact .inr ⟨_, .head _, .inr (List.mem_singleton.mp h)⟩

/-- **Emitted tokens are no placeholders.** -/
theorem emitted_ne_placeholder (r : DraftedRequest K vocabSize) {t : ℤ} (ht : t ∈ r.emitted ngram) :
    t ≠ placeholderTokenId := by
  have hnonneg : 0 ≤ t := by
    unfold DraftedRequest.emitted at ht
    split at ht
    · obtain rfl | ⟨p, hp, rfl⟩ := mem_greedyTokens ht
      · exact Int.natCast_nonneg _
      · obtain ⟨p, -, rfl⟩ := List.mem_map.mp hp
        exact argmax_getD_nonneg _
    · obtain rfl | ⟨v, hv, ht⟩ := mem_randomTokens ht
      · exact Int.natCast_nonneg _
      · obtain ⟨p, -, rfl⟩ := List.mem_map.mp hv
        obtain rfl | rfl := ht
        · exact Int.natCast_nonneg _
        · exact argmax_getD_nonneg _
  intro h
  rw [h] at hnonneg
  exact absurd hnonneg (by decide)

theorem length_emitted (r : DraftedRequest K vocabSize) :
    1 ≤ (r.emitted ngram).length ∧ (r.emitted ngram).length ≤ r.positions.length + 1 := by
  unfold DraftedRequest.emitted
  split
  · simpa using length_greedyTokens (r.bonus : ℤ)
      (r.positions.map fun p => ((p.draft : ℤ), p.choice))
  · simpa [DraftedRequest.verdicts] using length_randomTokens (r.bonus : ℤ) (r.verdicts ngram)

/-- **The rows of a speculative batch**: a greedy request gets its greedy scan, a random one the
accepted drafts with the recovered token of the first rejected position or the bonus token, and the
placeholder fills the rest, so that the tokens stand from column 0 on and are between one and one
more than the drafts. -/
theorem speculative_rows {metadata : SamplingMetadata}
    (hlen : ∀ r ∈ rs, r.positions.length ≤ maxSpecLen) (hmetadata : metadata.Describes rs) :
    sampleBatch rs ngram maxSpecLen metadata = some (rs.map fun r => r.outputRow ngram maxSpecLen) ∧
      ∀ r ∈ rs, r.outputRow ngram maxSpecLen = r.emitted ngram ++
          List.replicate (maxSpecLen + 1 - (r.emitted ngram).length) placeholderTokenId ∧
        (∀ t ∈ r.emitted ngram, t ≠ placeholderTokenId) ∧ 1 ≤ (r.emitted ngram).length ∧
        (r.emitted ngram).length ≤ r.positions.length + 1 := by
  refine ⟨rejectionSample_eq rs ngram maxSpecLen hlen hmetadata, fun r _ => ⟨?_, fun t ht =>
    emitted_ne_placeholder ngram r ht, length_emitted ngram r⟩⟩
  rw [DraftedRequest.outputRow, overwritten, List.drop_replicate]

end Batch

/-- A greedy request whose draft is the target's choice, and a random one that accepts its first draft
and rejects its second. -/
def mixedBatch : List (DraftedRequest ℚ 2) :=
  [⟨[⟨0, [3 / 4, 1 / 4], [1 / 2, 1 / 2], 0, Nat.two_pos, rfl, rfl⟩], 7, -1, [1, 1], rfl⟩,
    ⟨[⟨1, [1 / 4, 3 / 4], [1 / 2, 1 / 2], 1 / 2, Nat.one_lt_two, rfl, rfl⟩,
      ⟨1, [3 / 4, 1 / 4], [1 / 4, 3 / 4], 1 / 2, Nat.one_lt_two, rfl, rfl⟩], 8, 1, [1, 1], rfl⟩]

/-- The metadata of `mixedBatch`. -/
def SamplingMetadata.mixed : SamplingMetadata :=
  { SamplingMetadata.greedy with allGreedy := false, temperature := some [-1, 1] }

theorem speculative_rows_small :
    sampleBatch mixedBatch false 2 SamplingMetadata.mixed = some [[0, 7, -1], [1, 0, -1]] := by
  have hmixed : SamplingMetadata.mixed.Describes mixedBatch :=
    ⟨by decide +kernel, by decide +kernel, fun _ => rfl⟩
  have hrows : mixedBatch.map (fun r => r.outputRow false 2) = [[0, 7, -1], [1, 0, -1]] := by
    decide +kernel
  rw [(speculative_rows mixedBatch false 2 (by decide) hmixed).1, hrows]

end VllmAscend
