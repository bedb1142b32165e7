import VllmAscend.Sample.TargetDistribution

/-!
# Sample/PossibleTokens — no token without target probability

    accepted    0 < u ≤ p d / q d                       so  0 < p d
    rejected    p d / q d < u < 1   leaves  q x < p x    so the argmax finds a positive entry

The recovered token is an argmax, which would be 0 if the vector it is taken of were zero.  A position that is
rejected leaves something in it, and what it leaves has target probability (`emitted_possible`).
-/

namespace VllmAscend

open Machinery

/-! ## The argmax -/

section Argmax

variable {K : Type} [LinearOrder K]

theorem argmaxFrom_spec : ∀ (xs front : List K) {best : ℕ} {m : K}, front[best]? = some m →
    (∀ y ∈ front, y ≤ m) →
      ∃ x, (front ++ xs)[argmaxFrom front.length best m xs]? = some x ∧ ∀ y ∈ front ++ xs, y ≤ x
  | [], front, best, m, hbest, hle => by
    rw [List.append_nil]
    exact ⟨m, hbest, hle⟩
  | x :: xs, front, best, m, hbest, hle => by
    have hfront : front ++ x :: xs = (front ++ [x]) ++ xs := by rw [List.append_assoc, List.singleton_append]
    have hlength : (front ++ [x]).length = front.length + 1 := by rw [List.length_append, List.length_singleton]
    rw [argmaxFrom, hfront, ← hlength]
    split
    · next hlt =>
      refine argmaxFrom_spec xs (front ++ [x]) (by simp) fun y hy => ?_
      rcases List.mem_append.mp hy with hy | hy
      · exact (hle y hy).trans hlt.le
      · exact (List.mem_singleton.mp hy).le
    · next hlt =>
      have hkeep : (front ++ [x])[best]? = some m := by
        rw [List.getElem?_append_left (List.getElem?_eq_some_iff.mp hbest).1, hbest]
      refine argmaxFrom_spec xs (front ++ [x]) hkeep fun y hy => ?_
      rcases List.mem_append.mp hy with hy | hy
      · exact hle y hy
      · exact List.mem_singleton.mp hy ▸ not_lt.mp hlt

/-- **The argmax is the place of a largest entry.** -/
theorem argmax_spec {xs : List K} (hne : xs ≠ []) :
    ∃ (i : ℕ) (x : K), (argmax xs).getD 0 = i ∧ xs[i]? = some x ∧ ∀ y ∈ xs, y ≤ x := by
  obtain ⟨x, xs, rfl⟩ := List.exists_cons_of_ne_nil hne
  have hfirst : [x][0]? = some x := rfl
  obtain ⟨y, hy, hle⟩ := argmaxFrom_spec xs [x] hfirst fun y hy => (List.mem_singleton.mp hy).le
  exact ⟨_, y, rfl, hy, hle⟩

end Argmax

/-! ## One position -/

namespace DraftedPosition

variable {K : Type} [Field K] [LinearOrder K] {vocabSize : ℕ} {ngram : Bool}
  {p : DraftedPosition K vocabSize}

/-- A token has target probability at the position. -/
def Possible (p : DraftedPosition K vocabSize) (t : ℤ) : Prop :=
  ∃ x : Fin vocabSize, t = (x : ℕ) ∧ 0 < (probAt p.targetProbs x : K)

/-- What a position holds when its draft was drawn and its rows are distributions. -/
structure IsSampled (p : DraftedPosition K vocabSize) (ngram : Bool) : Prop where
  target : IsDistribution (probAt p.targetProbs : Fin vocabSize → K)
  draft : ngram = false → IsDistribution (probAt p.draftProbs : Fin vocabSize → K)
  draftProb_pos : ngram = false → 0 < p.draftProb ngram
  uniform_pos : 0 < p.uniformProb
  uniform_lt : p.uniformProb < 1

variable [IsStrictOrderedRing K]

/-- The draft, as a token. -/
def draftToken (p : DraftedPosition K vocabSize) : Fin vocabSize := ⟨p.draft, p.draft_lt⟩

omit [LinearOrder K] [IsStrictOrderedRing K] in
theorem targetProb_eq (p : DraftedPosition K vocabSize) : p.targetProb = probAt p.targetProbs p.draftToken :=
  (List.getD_eq_getElem _ _ _).symm

omit [LinearOrder K] [IsStrictOrderedRing K] in
theorem draftProb_false (p : DraftedPosition K vocabSize) :
    p.draftProb false = probAt p.draftProbs p.draftToken := by
  rw [draftProb, if_neg Bool.false_ne_true]
  exact (List.getD_eq_getElem _ _ _).symm

/-- **An accepted draft is possible.** -/
theorem possible_of_accepts (h : p.IsSampled ngram)
    (haccepts : accepts (p.draftProb ngram) p.targetProb p.uniformProb = true) : p.Possible p.draft := by
  obtain ⟨hdraft, huniform⟩ := Bool.and_eq_true_iff.mp haccepts
  have hquotient := h.uniform_pos.trans_le (of_decide_eq_true huniform)
  refine ⟨p.draftToken, rfl, ?_⟩
  rw [← targetProb_eq]
  exact (div_pos_iff_of_pos_right (of_decide_eq_true hdraft)).mp hquotient

/-- **A rejected draft leaves something to recover.** -/
theorem exists_prob_pos (h : p.IsSampled ngram)
    (hrejected : accepts (p.draftProb ngram) p.targetProb p.uniformProb = false) :
    ∃ x : Fin vocabSize, 0 < (probAt (p.prob ngram) x : K) := by
  have hpos : 0 < p.draftProb ngram := by
    cases ngram with
    | false => exact h.draftProb_pos rfl
    | true => exact one_pos
  have hless : p.targetProb < p.draftProb ngram := by
    rw [accepts, decide_eq_true hpos, Bool.true_and] at hrejected
    have hquotient := (not_le.mp (of_decide_eq_false hrejected)).trans h.uniform_lt
    exact (div_lt_one hpos).mp hquotient
  cases ngram with
  | false =>
    rw [targetProb_eq, draftProb_false] at hless
    rw [prob, if_neg Bool.false_ne_true, probAt_residual p.length_targetProbs p.length_draftProbs]
    exact exists_leftover_pos h.target (h.draft rfl) hless
  | true =>
    rw [targetProb_eq] at hless
    have hset : (probAt (p.targetProbs.set p.draft 0) : Fin vocabSize → K) =
        Function.update (probAt p.targetProbs) p.draftToken 0 := probAt_set p.length_targetProbs p.draftToken
    rw [prob, if_pos rfl, hset]
    exact exists_update_pos h.target hless

/-- **The recovered token has weight**, if any token has. -/
theorem recovered_prob_pos {noise : List K} (hlength : noise.length = vocabSize) (hnoise : ∀ q ∈ noise, 0 < q)
    (hprob : ∃ x : Fin vocabSize, 0 < (probAt (p.prob ngram) x : K)) :
    ∃ x : Fin vocabSize, p.recovered ngram noise = (x : ℕ) ∧ 0 < (probAt (p.prob ngram) x : K) := by
  obtain ⟨y, hy⟩ := hprob
  have hweights : (List.zipWith (· / ·) (p.prob ngram) noise).length = vocabSize := by
    rw [List.length_zipWith, p.length_prob, hlength, min_self]
  have hentry : ∀ x : Fin vocabSize, ∃ q, 0 < q ∧
      (List.zipWith (· / ·) (p.prob ngram) noise)[(x : ℕ)]? = some (probAt (p.prob ngram) x / q) := fun x => by
    have hx : (x : ℕ) < (p.prob ngram).length := p.length_prob.symm ▸ x.isLt
    have hx' : (x : ℕ) < noise.length := hlength.symm ▸ x.isLt
    refine ⟨noise[(x : ℕ)], hnoise _ (List.getElem_mem hx'), ?_⟩
    rw [List.getElem?_zipWith, List.getElem?_eq_getElem hx, List.getElem?_eq_getElem hx', probAt,
      List.getD_eq_getElem _ _ hx]
  obtain ⟨i, w, hi, hget, hle⟩ := argmax_spec (List.ne_nil_of_length_pos (hweights.symm ▸ y.pos))
  have hilt := (List.getElem?_eq_some_iff.mp hget).1
  rw [hweights] at hilt
  obtain ⟨q, hq, hqy⟩ := hentry y
  obtain ⟨q', hq', hqi⟩ := hentry ⟨i, hilt⟩
  obtain rfl : w = probAt (p.prob ngram) ⟨i, hilt⟩ / q' := Option.some.inj (hget.symm.trans hqi)
  have hpos := (div_pos hy hq).trans_le (hle _ (List.mem_of_getElem? hqy))
  exact ⟨⟨i, hilt⟩, hi, (div_pos_iff_of_pos_right hq').mp hpos⟩

/-- **The recovered token of a rejected draft is possible**, and another one where drafts are certain. -/
theorem possible_of_rejected (h : p.IsSampled ngram) {noise : List K} (hlength : noise.length = vocabSize)
    (hnoise : ∀ q ∈ noise, 0 < q)
    (hrejected : accepts (p.draftProb ngram) p.targetProb p.uniformProb = false) :
    p.Possible (p.recovered ngram noise) ∧ (ngram = true → p.recovered ngram noise ≠ p.draft) := by
  obtain ⟨x, hx, hpos⟩ := recovered_prob_pos hlength hnoise (exists_prob_pos h hrejected)
  rw [hx]
  cases ngram with
  | false =>
    rw [prob, if_neg Bool.false_ne_true, probAt_residual p.length_targetProbs p.length_draftProbs] at hpos
    exact ⟨⟨x, rfl, pos_of_leftover_pos ((h.draft rfl).nonneg x) hpos⟩, fun hngram => absurd hngram Bool.false_ne_true⟩
  | true =>
    have hset : (probAt (p.targetProbs.set p.draft 0) : Fin vocabSize → K) =
        Function.update (probAt p.targetProbs) p.draftToken 0 := probAt_set p.length_targetProbs p.draftToken
    rw [prob, if_pos rfl, hset] at hpos
    have hne : x ≠ p.draftToken := fun heq => by
      rw [heq, Function.update_self] at hpos
      exact lt_irrefl 0 hpos
    rw [Function.update_of_ne hne] at hpos
    exact ⟨⟨x, rfl, hpos⟩, fun _ heq => hne (Fin.ext (Nat.cast_injective heq))⟩

end DraftedPosition

/-! ## A batch -/

/-- What is emitted at a drafted position: its draft or its recovered token. -/
theorem getElem?_randomTokens {bonus t : ℤ} : ∀ {vs : List (Bool × ℤ × ℤ)} {j : ℕ} {v : Bool × ℤ × ℤ},
    vs[j]? = some v → (randomTokens vs bonus)[j]? = some t → t = if v.1 then v.2.1 else v.2.2
  | (accepted, draft, recovered) :: rest, 0, v, hv, ht => by
    obtain rfl := Option.some.inj hv
    rw [randomTokens] at ht
    cases accepted with
    | true => exact (Option.some.inj ht).symm
    | false => exact (Option.some.inj ht).symm
  | (accepted, draft, recovered) :: rest, j + 1, v, hv, ht => by
    rw [randomTokens] at ht
    cases accepted with
    | true =>
      have hrest : rest[j]? = some v := hv
      exact getElem?_randomTokens hrest ht
    | false => exact absurd ht (by simp)

section Batch

variable {K : Type} [Field K] [LinearOrder K] [IsStrictOrderedRing K] {vocabSize : ℕ}

/-- **No impossible token is emitted.**  The recovered tokens leave the target probabilities as they were, and
what the random pass writes at a drafted position is possible there; a token that replaces a certain draft is
another one. -/
theorem emitted_possible (rs : List (DraftedRequest K vocabSize)) (ngram : Bool)
    (hsampled : ∀ r ∈ rs, ∀ p ∈ r.positions, p.IsSampled ngram) (hnoise : ∀ r ∈ rs, ∀ q ∈ r.noise, 0 < q)
    (row : DraftedRequest K vocabSize → List ℤ) (hrow : ∀ r ∈ rs, r.positions.length < (row r).length) :
    ∃ recovered : List ℤ,
      sampleRecoveredTokensPytorch (List.replicate (rs.flatMap DraftedRequest.positions).length none)
        (cumsum 0 ((rs.map fun r => r.positions.length).map Nat.cast))
        ((rs.flatMap DraftedRequest.positions).map fun p => (p.draft : ℤ)) (batchDraftProbs rs ngram)
        ((rs.flatMap DraftedRequest.positions).map DraftedPosition.targetProbs)
        (rs.map DraftedRequest.noise) =
          some (recovered.map some, (rs.flatMap DraftedRequest.positions).map DraftedPosition.targetProbs) ∧
      rejectionRandomSamplePytorch (rs.map row)
        (cumsum 0 ((rs.map fun r => r.positions.length).map Nat.cast))
        ((rs.flatMap DraftedRequest.positions).map fun p => (p.draft : ℤ)) (batchDraftProbs rs ngram)
        ((rs.flatMap DraftedRequest.positions).map DraftedPosition.targetProbs)
        (rs.map fun r => (r.bonus : ℤ)) recovered
        ((rs.flatMap DraftedRequest.positions).map DraftedPosition.uniformProb)
        (rs.map DraftedRequest.isGreedy) =
          some (rs.map fun r => if r.isGreedy then row r else overwritten (r.emitted ngram) (row r)) ∧
      ∀ r ∈ rs, r.isGreedy = false → ∀ (j : ℕ) (p : DraftedPosition K vocabSize) (t : ℤ),
        r.positions[j]? = some p → (r.emitted ngram)[j]? = some t → p.Possible t ∧
          (ngram = true → accepts (p.draftProb ngram) p.targetProb p.uniformProb = false → t ≠ p.draft) := by
  refine ⟨_, sampleRecoveredTokensPytorch_eq rs ngram, ?_, fun r hr hrandom j p t hp ht => ?_⟩
  · rw [rejectionRandomSamplePytorch_eq rs ngram row hrow]
    refine congrArg some (List.map_congr_left fun r _ => ?_)
    split
    · rfl
    · next hrandom => rw [DraftedRequest.emitted, if_neg hrandom]
  · rw [DraftedRequest.emitted, if_neg (by rw [hrandom]; exact Bool.false_ne_true)] at ht
    have hverdict : (r.verdicts ngram)[j]? = some (p.verdict ngram r.noise) := by
      rw [DraftedRequest.verdicts, List.getElem?_map, hp]
      rfl
    have hposition := hsampled r hr p (List.mem_of_getElem? hp)
    obtain rfl := getElem?_randomTokens hverdict ht
    cases haccepts : accepts (p.draftProb ngram) p.targetProb p.uniformProb with
    | true =>
      rw [DraftedPosition.verdict, haccepts]
      exact ⟨DraftedPosition.possible_of_accepts hposition haccepts,
        fun _ hrejected => absurd hrejected Bool.noConfusion⟩
    | false =>
      rw [DraftedPosition.verdict, haccepts]
      obtain ⟨hpossible, hne⟩ :=
        DraftedPosition.possible_of_rejected hposition r.length_noise (hnoise r hr) haccepts
      exact ⟨hpossible, fun hngram _ => hne hngram⟩

end Batch

/-- A random request whose draft is rejected. -/
def rejectedBatch : List (DraftedRequest ℚ 2) :=
  [⟨[⟨1, [2 / 3, 1 / 3], [1 / 3, 2 / 3], 3 / 4, Nat.one_lt_two, rfl, rfl⟩], 5, 1, [1, 2], rfl⟩]

theorem emitted_possible_rejectedBatch : ∃ recovered : List ℤ,
    rejectionRandomSamplePytorch (rejectedBatch.map fun _ => [-1, -1])
      (cumsum 0 ((rejectedBatch.map fun r => r.positions.length).map Nat.cast))
      ((rejectedBatch.flatMap DraftedRequest.positions).map fun p => (p.draft : ℤ))
      (batchDraftProbs rejectedBatch false)
      ((rejectedBatch.flatMap DraftedRequest.positions).map DraftedPosition.targetProbs)
      (rejectedBatch.map fun r => (r.bonus : ℤ)) recovered
      ((rejectedBatch.flatMap DraftedRequest.positions).map DraftedPosition.uniformProb)
      (rejectedBatch.map DraftedRequest.isGreedy) = some [[0, -1]] := by
  have hsampled : ∀ r ∈ rejectedBatch, ∀ p ∈ r.positions, p.IsSampled false := by
    intro r hr p hp
    obtain rfl := List.mem_singleton.mp hr
    obtain rfl := List.mem_singleton.mp hp
    exact ⟨⟨by decide +kernel, by decide +kernel⟩, fun _ => ⟨by decide +kernel, by decide +kernel⟩,
      fun _ => by decide +kernel, by decide +kernel, by decide +kernel⟩
  obtain ⟨recovered, -, hout, -⟩ := emitted_possible rejectedBatch false hsampled (by decide +kernel)
    (fun _ => [-1, -1]) (by decide)
  have hrows : (rejectedBatch.map fun r => if r.isGreedy then [-1, -1]
      else overwritten (r.emitted false) [-1, -1]) = [[0, -1]] := by decide +kernel
  exact ⟨recovered, hout.trans (congrArg some hrows)⟩

end VllmAscend
