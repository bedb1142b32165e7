import VllmAscend.Machinery.RejectionSampling
import VllmAscend.Sample.SpeculativeRows

/-!
# Sample/TargetDistribution — a verified position emits the target distribution

    draft d ~ q      uniform draw u in [0, 1)      recovered x ~ prob / ∑ prob

The acceptance test and the vector the recovered token is drawn from are the ones of the sampler
(`accepts`, `DraftedPosition.prob`); the argmax over exponential noise is taken to sample in
proportion to that vector.  Both variants of the code instantiate `Machinery/RejectionSampling`: with
draft probabilities the vector is what `q` leaves of `p`, without them it is `p` with the draft's
entry zeroed.
-/

namespace VllmAscend

open Machinery MeasureTheory

section Vector

variable {K : Type} [Field K] {vocabSize : ℕ}

/-- The entry of a token in a row over the vocabulary. -/
def probAt (row : List K) (x : Fin vocabSize) : K := row.getD x 0

theorem sum_eq_sum_probAt {row : List K} (h : row.length = vocabSize) :
    row.sum = ∑ x : Fin vocabSize, probAt row x := by
  subst h
  conv_lhs => rw [← List.ofFn_get row, List.sum_ofFn]
  exact Finset.sum_congr rfl fun x _ => by simp [probAt]

theorem probAt_set {row : List K} (h : row.length = vocabSize) (d : Fin vocabSize) :
    (probAt (row.set d 0) : Fin vocabSize → K) = Function.update (probAt row) d 0 := by
  funext x
  obtain rfl | hne := eq_or_ne x d
  · simp [probAt, h]
  · have hval : (d : ℕ) ≠ x := fun heq => hne (Fin.ext heq.symm)
    simp [probAt, hne, hval]

theorem probAt_residual [LinearOrder K] {targetP draftP : List K}
    (ht : targetP.length = vocabSize) (hd : draftP.length = vocabSize) :
    (probAt (residual targetP draftP) : Fin vocabSize → K) =
      leftover (probAt targetP) (probAt draftP) := by
  funext x
  have hx : (x : ℕ) < targetP.length := ht ▸ x.2
  have hx' : (x : ℕ) < draftP.length := hd ▸ x.2
  simp [probAt, residual, leftover, hx, hx']

end Vector

/-! ## One verified position -/

variable {vocabSize : ℕ}

/-- **The probability that a verified position emits `x`**: over the uniform draw, its draft where
the test passes and a token in proportion to `prob` where it fails. -/
noncomputable def DraftedPosition.emittedMass (p : DraftedPosition ℝ vocabSize) (ngram : Bool)
    (x : Fin vocabSize) : ℝ :=
  ∫ u in Set.Ico (0 : ℝ) 1, if accepts (p.draftProb ngram) p.targetProb u
    then (if (x : ℕ) = p.draft then 1 else 0)
    else probAt (p.prob ngram) x / (p.prob ngram).sum

/-- The position that drafts `d`. -/
def DraftedPosition.drafting (targetP draftP : List ℝ) (ht : targetP.length = vocabSize)
    (hd : draftP.length = vocabSize) (d : Fin vocabSize) : DraftedPosition ℝ vocabSize where
  draft := d
  targetProbs := targetP
  draftProbs := draftP
  uniformProb := 0
  draft_lt := d.2
  length_targetProbs := ht
  length_draftProbs := hd

section Emission

variable {targetP draftP : List ℝ} (ht : targetP.length = vocabSize)
  (hd : draftP.length = vocabSize)

theorem targetProb_drafting (d : Fin vocabSize) :
    (DraftedPosition.drafting targetP draftP ht hd d).targetProb = probAt targetP d := by
  simp [DraftedPosition.targetProb, DraftedPosition.drafting, probAt, ht]

theorem draftProb_drafting (d : Fin vocabSize) :
    (DraftedPosition.drafting targetP draftP ht hd d).draftProb false = probAt draftP d := by
  simp [DraftedPosition.draftProb, DraftedPosition.drafting, probAt, hd]

/-- **The test passes with probability `min 1 (p / q)`.** -/
theorem DraftedPosition.emittedMass_eq (p : DraftedPosition ℝ vocabSize) (ngram : Bool)
    (hdraft : 0 < p.draftProb ngram) (htarget : 0 ≤ p.targetProb) (x : Fin vocabSize) :
    p.emittedMass ngram x =
      min 1 (p.targetProb / p.draftProb ngram) * (if (x : ℕ) = p.draft then 1 else 0) +
        (1 - min 1 (p.targetProb / p.draftProb ngram)) *
          (probAt (p.prob ngram) x / (p.prob ngram).sum) := by
  rw [emittedMass, ← integral_threshold (div_nonneg htarget hdraft.le)]
  simp [accepts, hdraft]

/-- **With draft probabilities**: over drafts drawn from `q`, the emitted token is distributed as
`p`. -/
theorem sum_emittedMass (hp : IsDistribution (probAt targetP : Fin vocabSize → ℝ))
    (hq : IsDistribution (probAt draftP : Fin vocabSize → ℝ)) (x : Fin vocabSize) :
    ∑ d, probAt draftP d * (DraftedPosition.drafting targetP draftP ht hd d).emittedMass false x =
      probAt targetP x := by
  rw [← sum_drafts hp hq x]
  refine Finset.sum_congr rfl fun d _ => ?_
  obtain hzero | hpos := (hq.nonneg d).eq_or_lt
  · rw [← hzero, zero_mul, zero_mul]
  · have hsum : (residual targetP draftP).sum =
        ∑ y, leftover (probAt targetP) (probAt draftP : Fin vocabSize → ℝ) y := by
      rw [← probAt_residual ht hd]
      exact sum_eq_sum_probAt (by simp [residual, ht, hd])
    rw [DraftedPosition.emittedMass_eq _ _ (by rwa [draftProb_drafting])
      (by rw [targetProb_drafting]; exact hp.nonneg d), targetProb_drafting, draftProb_drafting,
      ← hsum, ← probAt_residual ht hd]
    simp only [DraftedPosition.drafting, DraftedPosition.prob, Bool.false_eq_true, if_false,
      Fin.val_inj]

/-- **Without draft probabilities**: whatever the draft, the emitted token is distributed as `p`. -/
theorem emittedMass_ngram (hp : IsDistribution (probAt targetP : Fin vocabSize → ℝ))
    (d x : Fin vocabSize) :
    (DraftedPosition.drafting targetP draftP ht hd d).emittedMass true x = probAt targetP x := by
  have hle : probAt targetP d ≤ 1 := hp.sum_eq_one ▸
    Finset.single_le_sum (fun y _ => hp.nonneg y) (Finset.mem_univ d)
  have hone : (DraftedPosition.drafting targetP draftP ht hd d).draftProb true = 1 := rfl
  have hsum : (targetP.set d 0).sum = ∑ y, Function.update (probAt targetP) d 0 y := by
    rw [← probAt_set ht d]
    exact sum_eq_sum_probAt (by simp [ht])
  rw [DraftedPosition.emittedMass_eq _ _ (by rw [hone]; exact zero_lt_one)
    (by rw [targetProb_drafting]; exact hp.nonneg d), targetProb_drafting, hone, div_one,
    min_eq_right hle, ← certain_add_recovered hp d x, ← hsum, ← probAt_set ht d]
  simp only [DraftedPosition.drafting, DraftedPosition.prob, if_true, Fin.val_inj]

end Emission

/-! ## Exact rationals -/

theorem probAt_cast (row : List ℚ) (x : Fin vocabSize) :
    probAt (row.map Rat.cast : List ℝ) x = ((probAt row x : ℚ) : ℝ) := by
  simp only [probAt, List.getD_eq_getElem?_getD, List.getElem?_map]
  cases row[(x : ℕ)]? <;> simp

theorem isDistribution_cast {row : List ℚ}
    (h : IsDistribution (probAt row : Fin vocabSize → ℚ)) :
    IsDistribution (probAt (row.map Rat.cast : List ℝ) : Fin vocabSize → ℝ) where
  nonneg x := by
    rw [probAt_cast]
    exact_mod_cast h.nonneg x
  sum_eq_one := by
    simp only [probAt_cast]
    exact_mod_cast h.sum_eq_one

end VllmAscend
