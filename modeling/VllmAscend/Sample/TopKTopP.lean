import Mathlib.Analysis.SpecialFunctions.Exp
import VllmAscend.Machinery.MatrixView
import VllmAscend.Machinery.Nucleus
import VllmAscend.Machinery.Tensor

/-!
# Sample/TopKTopP — the tokens a sampler may draw

    probs          0.5   0.1   0.3   0.1
    k = 2          kept        kept                   at least the second largest
    p = 0.85       kept  kept  kept  kept             0.5 + 0.3 misses 0.85, and ties stay together

`AscendTopKTopPSampler` of `sample/sampler.py`.  The cut-offs are read from the probabilities in ascending
order; what is kept is defined by the descending one (`Kept`).  The sampler draws from the distribution
conditioned on what is kept (`forwardNative_eq`).
-/

namespace VllmAscend

open Machinery

variable {K : Type}

/-! ## The sampler -/

/-- `LogprobsMode` -/
inductive LogprobsMode where
  | rawLogits
  | rawLogprobs
  | processedLogits
  | processedLogprobs
  deriving DecidableEq

/-- What the sampler finds outside: the configuration, and the operators that others provide. -/
structure SamplerEnv (K Generators Tokens : Type) where
  is310p : Bool
  isVersion0101 : Bool
  logprobsMode : LogprobsMode
  softmax : List (WithBot K) → List K
  logSoftmax : List (WithBot K) → List (WithBot K)
  npuTopKTopP : List (List (WithBot K)) → List K → List ℤ → Option (List (List (WithBot K)))
  randomSample : List (List K) → Generators → Tokens

/-- What `forward_native` returns: the tokens alone in the older version. -/
inductive SamplerOutput (K Tokens : Type) where
  | tokens (tokens : Tokens)
  | withLogits (tokens : Tokens) (logitsToReturn : Option (List (List (WithBot K))))

section Sampler

variable {Generators Tokens : Type} [Field K] [LinearOrder K]

/-- `rows.gather(-1, idx.unsqueeze(1))` -/
def gatherLast (rows : List (List K)) (idx : List ℤ) : Option (List K) :=
  (rows.zip idx).mapM fun entry => if 0 ≤ entry.2 then entry.1[entry.2.toNat]? else none

/-- `torch.cumsum(row, dim=-1)` -/
def cumsumLast (row : List K) : List K := (List.range row.length).map fun j => (row.take (j + 1)).sum

/-- `top_k_cutoff`; a row that keeps all tokens has none. -/
def topKCutoff (vocabSize : ℕ) (probsSort : List (List K)) (k : List ℤ) : Option (List (WithBot K)) := do
  let topKCount := k.map fun k => (vocabSize : ℤ) - k
  let cutoff ← gatherLast probsSort topKCount
  return List.zipWith (fun (k : ℤ) (c : K) => if k = vocabSize then ⊥ else (c : WithBot K)) k cutoff

/-- `top_p_cutoff` -/
def topPCutoff (probsSort : List (List K)) (p : List K) : Option (List K) := do
  let cumprob := probsSort.map cumsumLast
  let topPMask := List.zipWith (fun row p => row.map fun c => decide (c ≤ 1 - p)) cumprob p
  let topPMask := topPMask.map fun row => row.set (row.length - 1) false
  let topPCount := topPMask.map fun row => (row.count true : ℤ)
  gatherLast probsSort topPCount

/-- `probs < cutoff` -/
def elementsToDiscard (probs : List (List K)) (cutoff : List (WithBot K)) : List (List Bool) :=
  List.zipWith (fun row (c : WithBot K) => row.map fun (q : K) => decide ((q : WithBot K) < c)) probs cutoff

/-- `if k is not None: …` -/
def filterTopK (vocabSize : ℕ) (logits : List (List (WithBot K))) (probs : List (List K)) :
    Option (List ℤ) → Option (List (List (WithBot K)))
  | none => some logits
  | some k => do
    let cutoff ← topKCutoff vocabSize (probs.map ascending) k
    return fillWhere logits (elementsToDiscard probs cutoff) ⊥

/-- `if p is not None: …` -/
def filterTopP (logits : List (List (WithBot K))) (probs : List (List K)) :
    Option (List K) → Option (List (List (WithBot K)))
  | none => some logits
  | some p => do
    let cutoff ← topPCutoff (probs.map ascending) p
    return fillWhere logits (elementsToDiscard probs (cutoff.map WithBot.some)) ⊥

/-- The native path of `_apply_top_k_top_p`, with `logits.shape[1]`. -/
def applyNative (softmax : List (WithBot K) → List K) (vocabSize : ℕ) (logits : List (List (WithBot K)))
    (k : Option (List ℤ)) (p : Option (List K)) : Option (List (List (WithBot K))) := do
  let probs := logits.map softmax
  let logits ← filterTopK vocabSize logits probs k
  filterTopP logits probs p

namespace SamplerEnv

variable (env : SamplerEnv K Generators Tokens)

/-- `_apply_top_k_top_p` -/
def applyTopKTopP (vocabSize : ℕ) (logits : List (List (WithBot K))) (k : Option (List ℤ))
    (p : Option (List K)) : Option (List (List (WithBot K))) :=
  match env.is310p, p, k with
  | false, some p, some k => env.npuTopKTopP logits p k
  | _, none, none => some logits
  | _, p, k => applyNative env.softmax vocabSize logits k p

/-- `logits_to_return` -/
def logitsToReturn (logits : List (List (WithBot K))) : Option (List (List (WithBot K))) :=
  match env.logprobsMode with
  | .processedLogits => some logits
  | .processedLogprobs => some (logits.map env.logSoftmax)
  | _ => none

/-- `forward_native` -/
def forwardNative (vocabSize : ℕ) (logits : List (List (WithBot K))) (generators : Generators)
    (k : Option (List ℤ)) (p : Option (List K)) : Option (SamplerOutput K Tokens) := do
  let logits ← env.applyTopKTopP vocabSize logits k p
  let probs := logits.map env.softmax
  return if env.isVersion0101 then .tokens (env.randomSample probs generators)
    else .withLogits (env.randomSample probs generators) (env.logitsToReturn logits)

end SamplerEnv

end Sampler

/-! ## What is to be kept -/

section Kept

variable [Field K] [LinearOrder K]

/-- **What is kept of a row**: at least its `k`-th largest probability, and at least the least one in the
shortest prefix of the descending order that reaches the mass `p`. -/
def Kept (probs : List K) (k : Option ℤ) (p : Option K) (q : K) : Prop :=
  (∀ n ∈ k, ∀ y ∈ (descending probs)[n.toNat - 1]?, y ≤ q) ∧ ∀ r ∈ p, ∀ y ∈ (nucleus probs r).min?, y ≤ q

instance (probs : List K) (k : Option ℤ) (p : Option K) (q : K) : Decidable (Kept probs k p q) :=
  inferInstanceAs (Decidable (_ ∧ _))

/-- A row with everything else masked. -/
def filterRow (probs : List K) (k : Option ℤ) (p : Option K) (row : List (WithBot K)) : List (WithBot K) :=
  List.zipWith (fun l q => if Kept probs k p q then l else ⊥) row probs

/-- The mass that is kept. -/
def keptMass (probs : List K) (k : Option ℤ) (p : Option K) : K :=
  (probs.map fun q => if Kept probs k p q then q else 0).sum

/-- A distribution conditioned on what is kept. -/
def conditioned (probs : List K) (k : Option ℤ) (p : Option K) : List K :=
  probs.map fun q => if Kept probs k p q then q / keptMass probs k p else 0

/-- **What is known of the softmax** of a row with an entry that is not masked: a distribution in the order
of the entries, zero exactly where they are masked, with odds that depend on the two entries only. -/
structure SoftmaxLaws (softmax : List (WithBot K) → List K) : Prop where
  length : ∀ row, (softmax row).length = row.length
  sum : ∀ row, (∃ l ∈ row, l ≠ ⊥) → (softmax row).sum = 1
  mono : ∀ row, (∃ l ∈ row, l ≠ ⊥) → ∀ (i j : ℕ) (li lj : WithBot K) (qi qj : K), row[i]? = some li →
    row[j]? = some lj → (softmax row)[i]? = some qi → (softmax row)[j]? = some qj → li ≤ lj → qi ≤ qj
  nonneg : ∀ row, (∃ l ∈ row, l ≠ ⊥) → ∀ q ∈ softmax row, 0 ≤ q
  eq_zero_iff : ∀ row, (∃ l ∈ row, l ≠ ⊥) → ∀ (i : ℕ) (l : WithBot K) (q : K), row[i]? = some l →
    (softmax row)[i]? = some q → (q = 0 ↔ l = ⊥)
  odds : ∀ row row', (∃ l ∈ row, l ≠ ⊥) → (∃ l ∈ row', l ≠ ⊥) → ∀ (i j : ℕ) (qi qj qi' qj' : K),
    row[i]? = row'[i]? → row[j]? = row'[j]? → (softmax row)[i]? = some qi → (softmax row)[j]? = some qj →
      (softmax row')[i]? = some qi' → (softmax row')[j]? = some qj' → qi * qj' = qj * qi'

end Kept

/-! ## Cut-offs -/

section Cutoffs

variable [Field K] [LinearOrder K] {δ : Type} {ds : List δ} {probs : δ → List K} {vocabSize : ℕ}

omit [LinearOrder K] [Field K] in
theorem gatherLast_map {f : δ → List K} {idx : δ → ℤ} {g : δ → K}
    (h : ∀ d ∈ ds, 0 ≤ idx d ∧ (f d)[(idx d).toNat]? = some (g d)) :
    gatherLast (ds.map f) (ds.map idx) = some (ds.map g) := by
  rw [gatherLast, List.zip_map']
  exact mapM_map_eq_some fun d hd => by rw [if_pos (h d hd).1, (h d hd).2]

/-- The `k`-th largest probability. -/
def kthLargest (probs : List K) (k : ℤ) : K := (descending probs).getD (k.toNat - 1) 0

/-- The least probability in the nucleus. -/
def nucleusLeast (probs : List K) (p : K) : K := (descending probs).getD (nucleusSize probs p - 1) 0

theorem getElem?_kthLargest {row : List K} {k : ℤ} (hpos : 1 ≤ k) (hk : k ≤ row.length) :
    (descending row)[k.toNat - 1]? = some (kthLargest row k) := by
  have hlt : k.toNat - 1 < (descending row).length := by
    rw [length_descending]
    omega
  rw [kthLargest, List.getD_eq_getElem _ _ hlt, List.getElem?_eq_getElem hlt]

/-- **The cut-off of the largest `k`**, except for rows that keep all tokens. -/
theorem topKCutoff_map (hlength : ∀ d ∈ ds, (probs d).length = vocabSize) {k : δ → ℤ}
    (hk : ∀ d ∈ ds, 1 ≤ k d ∧ k d ≤ vocabSize) :
    topKCutoff vocabSize (ds.map fun d => ascending (probs d)) (ds.map k) =
      some (ds.map fun d => if k d = vocabSize then ⊥ else ((kthLargest (probs d) (k d) : K) : WithBot K)) := by
  have hgather : gatherLast (ds.map fun d => ascending (probs d)) (ds.map fun d => (vocabSize : ℤ) - k d) =
      some (ds.map fun d => kthLargest (probs d) (k d)) := by
    refine gatherLast_map fun d hd => ?_
    obtain ⟨hpos, hle⟩ := hk d hd
    have hlen := hlength d hd
    refine ⟨by omega, ?_⟩
    rw [← getElem?_kthLargest hpos (by omega), ← getElem?_ascending (by omega) (by omega)]
    congr 1
    omega
  rw [topKCutoff, List.map_map]
  simp only [Function.comp_def, hgather, Option.bind_eq_bind, Option.bind_some, List.zipWith_map,
    List.zipWith_self]
  rfl

/-- The flags of a row, the last one cleared, are counted without the last. -/
theorem count_set_last (flag : ℕ → Bool) {n : ℕ} (hn : 0 < n) :
    (((List.range n).map flag).set (n - 1) false).count true = (List.range (n - 1)).countP flag := by
  obtain ⟨m, rfl⟩ := Nat.exists_eq_succ_of_ne_zero hn.ne'
  rw [Nat.succ_sub_one, List.range_succ, List.map_append, List.set_append_right _ _ (by simp),
    List.length_map, List.length_range, Nat.sub_self, List.count_append]
  simp [List.count_eq_countP, List.countP_map, Function.comp_def]

variable [IsStrictOrderedRing K]

/-- A distribution, as a row. -/
def IsRowDistribution (row : List K) : Prop := (∀ q ∈ row, 0 ≤ q) ∧ row.sum = 1

theorem IsRowDistribution.nucleusSize_bounds {row : List K} (h : IsRowDistribution row) {p : K}
    (hpos : 0 < p) (hle : p ≤ 1) : 1 ≤ nucleusSize row p ∧ nucleusSize row p ≤ row.length := by
  obtain ⟨hlt, hsize⟩ := nucleusSize_eq h.1 hpos (hle.trans_eq h.2.symm)
  omega

theorem IsRowDistribution.getElem?_nucleusLeast {row : List K} (h : IsRowDistribution row) {p : K}
    (hpos : 0 < p) (hle : p ≤ 1) :
    (descending row)[nucleusSize row p - 1]? = some (nucleusLeast row p) := by
  obtain ⟨hone, hsize⟩ := h.nucleusSize_bounds hpos hle
  have hlt : nucleusSize row p - 1 < (descending row).length := by
    rw [length_descending]
    omega
  rw [nucleusLeast, List.getD_eq_getElem _ _ hlt, List.getElem?_eq_getElem hlt]

/-- **The cut-off of the mass `p`.** -/
theorem topPCutoff_map (hprobs : ∀ d ∈ ds, IsRowDistribution (probs d)) {p : δ → K}
    (hp : ∀ d ∈ ds, 0 < p d ∧ p d ≤ 1) :
    topPCutoff (ds.map fun d => ascending (probs d)) (ds.map p) =
      some (ds.map fun d => nucleusLeast (probs d) (p d)) := by
  rw [topPCutoff]
  simp only [List.map_map, List.zipWith_map, List.zipWith_self, Function.comp_def]
  refine gatherLast_map fun d hd => ⟨Int.natCast_nonneg _, ?_⟩
  obtain ⟨hpos, hle⟩ := hp d hd
  obtain ⟨hlt, hsize⟩ := nucleusSize_eq (hprobs d hd).1 hpos (hle.trans_eq (hprobs d hd).2.symm)
  rw [(hprobs d hd).2] at hlt hsize
  obtain ⟨hone, -⟩ := (hprobs d hd).nucleusSize_bounds hpos hle
  rw [← (hprobs d hd).getElem?_nucleusLeast hpos hle, ← getElem?_ascending hone (by omega), Int.toNat_natCast,
    cumsumLast, List.map_map, List.length_map, List.length_range, length_ascending,
    count_set_last _ (by omega : 0 < (probs d).length)]
  congr 1
  rw [hsize, Nat.sub_sub_self hlt.le]
  rfl

end Cutoffs

/-! ## Rows -/

section Rows

variable [Field K] [LinearOrder K] [IsStrictOrderedRing K] {δ : Type} {ds : List δ} {probs : δ → List K}
  {row : δ → List (WithBot K)} {vocabSize : ℕ}

omit [Field K] [IsStrictOrderedRing K] [LinearOrder K] in
theorem zipWith_congr_mem {f g : WithBot K → K → WithBot K} : ∀ {as : List (WithBot K)} {bs : List K},
    (∀ a, ∀ b ∈ bs, f a b = g a b) → List.zipWith f as bs = List.zipWith g as bs
  | [], _, _ => rfl
  | _ :: _, [], _ => rfl
  | a :: as, b :: bs, h => by
    rw [List.zipWith_cons_cons, List.zipWith_cons_cons, h a b (.head _),
      zipWith_congr_mem fun a b hb => h a b (.tail _ hb)]

omit [Field K] [IsStrictOrderedRing K] [LinearOrder K] in
theorem zipWith_zipWith_self (f g : WithBot K → K → WithBot K) : ∀ (as : List (WithBot K)) (bs : List K),
    List.zipWith f (List.zipWith g as bs) bs = List.zipWith (fun a b => f (g a b) b) as bs
  | [], _ => rfl
  | _ :: _, [] => rfl
  | _ :: as, _ :: bs => congrArg (_ :: ·) (zipWith_zipWith_self f g as bs)

/-- A row without what is below a cut-off. -/
def discardBelow (cutoff : WithBot K) (row : List (WithBot K)) (probs : List K) : List (WithBot K) :=
  List.zipWith (fun l (q : K) => if (q : WithBot K) < cutoff then ⊥ else l) row probs

omit [Field K] [IsStrictOrderedRing K] in
theorem discardBelow_bot : ∀ {row : List (WithBot K)} {probs : List K}, probs.length = row.length →
    discardBelow ⊥ row probs = row
  | [], _, _ => rfl
  | _ :: _, _ :: _, h =>
    congrArg₂ List.cons (if_neg not_lt_bot) (discardBelow_bot (Nat.succ.inj h))

omit [Field K] [IsStrictOrderedRing K] in
/-- The batch is filtered row by row. -/
theorem fillWhere_discard (cutoff : δ → WithBot K) :
    fillWhere (ds.map row) (elementsToDiscard (ds.map probs) (ds.map cutoff)) ⊥ =
      ds.map fun d => discardBelow (cutoff d) (row d) (probs d) := by
  rw [fillWhere, elementsToDiscard, List.zipWith_map, List.zipWith_self, List.zipWith_map, List.zipWith_self]
  refine List.map_congr_left fun d _ => ?_
  rw [List.zipWith_map_right]
  simp only [decide_eq_true_eq, discardBelow]

/-- The cut-off of the largest `k`, if there is a `k`. -/
def cutK (probs : List K) : Option ℤ → WithBot K
  | none => ⊥
  | some k => if k = probs.length then ⊥ else ((kthLargest probs k : K) : WithBot K)

/-- The cut-off of the mass `p`, if there is a `p`. -/
def cutP (probs : List K) : Option K → WithBot K
  | none => ⊥
  | some p => ((nucleusLeast probs p : K) : WithBot K)

/-- **What is kept is what neither cut-off discards.** -/
theorem kept_iff {probs : List K} (hprobs : IsRowDistribution probs) {k : Option ℤ}
    (hk : ∀ n ∈ k, 1 ≤ n ∧ n ≤ probs.length) {p : Option K} (hp : ∀ r ∈ p, 0 < r ∧ r ≤ 1) {q : K}
    (hq : q ∈ probs) :
    Kept probs k p q ↔ ¬ (q : WithBot K) < cutK probs k ∧ ¬ (q : WithBot K) < cutP probs p := by
  refine and_congr ?_ ?_
  · cases k with
    | none => exact iff_of_true (fun n hn => by cases hn) not_lt_bot
    | some n =>
      obtain ⟨hpos, hle⟩ := hk n rfl
      have hkth := getElem?_kthLargest hpos hle
      simp only [Option.mem_some_iff, forall_eq', hkth, cutK]
      split
      · next hall =>
        -- the least of all is below everything
        refine iff_of_true ?_ not_lt_bot
        have hmin : ((descending probs).take n.toNat).min? = (descending probs)[n.toNat - 1]? :=
          min?_take_descending (by omega) (by omega)
        rw [hkth, List.take_of_length_le (by rw [length_descending]; omega), List.min?_eq_some_iff] at hmin
        exact hmin.2 q ((descending_perm probs).mem_iff.mpr hq)
      · rw [WithBot.coe_lt_coe, not_lt]
  · cases p with
    | none => exact iff_of_true (fun r hr => by cases hr) not_lt_bot
    | some r =>
      obtain ⟨hpos, hle⟩ := hp r rfl
      obtain ⟨hone, hsize⟩ := hprobs.nucleusSize_bounds hpos hle
      simp only [Option.mem_some_iff, forall_eq', nucleus, min?_take_descending hone hsize,
        hprobs.getElem?_nucleusLeast hpos hle, cutP, WithBot.coe_lt_coe, not_lt]

/-- **The native path, row by row.** -/
theorem applyNative_map (softmax : List (WithBot K) → List K) (vocabSize : ℕ) (ds : List δ)
    (row : δ → List (WithBot K)) (hprobs : ∀ d ∈ ds, IsRowDistribution (softmax (row d)))
    (hlength : ∀ d ∈ ds, (row d).length = vocabSize ∧ (softmax (row d)).length = vocabSize)
    {k : Option (δ → ℤ)} (hk : ∀ f ∈ k, ∀ d ∈ ds, 1 ≤ f d ∧ f d ≤ vocabSize) {p : Option (δ → K)}
    (hp : ∀ f ∈ p, ∀ d ∈ ds, 0 < f d ∧ f d ≤ 1) :
    applyNative softmax vocabSize (ds.map row) (k.map fun f => ds.map f) (p.map fun f => ds.map f) =
      some (ds.map fun d => filterRow (softmax (row d)) (k.map (· d)) (p.map (· d)) (row d)) := by
  have hcutK : ∀ f : δ → ℤ, some f = k → topKCutoff vocabSize (ds.map fun d => ascending (softmax (row d)))
      (ds.map f) = some (ds.map fun d => cutK (softmax (row d)) (some (f d))) := fun f hf => by
    rw [topKCutoff_map (fun d hd => (hlength d hd).2) (hk f hf.symm)]
    exact congrArg some (List.map_congr_left fun d hd => by rw [cutK, (hlength d hd).2])
  have hcutP : ∀ f : δ → K, some f = p → topPCutoff (ds.map fun d => ascending (softmax (row d)))
      (ds.map f) = some (ds.map fun d => nucleusLeast (softmax (row d)) (f d)) := fun f hf =>
    topPCutoff_map hprobs (hp f hf.symm)
  have hresult : ∀ d ∈ ds, filterRow (softmax (row d)) (k.map (· d)) (p.map (· d)) (row d) =
      discardBelow (cutP (softmax (row d)) (p.map (· d)))
        (discardBelow (cutK (softmax (row d)) (k.map (· d))) (row d) (softmax (row d))) (softmax (row d)) := by
    intro d hd
    rw [discardBelow, discardBelow, zipWith_zipWith_self, filterRow]
    refine zipWith_congr_mem fun l q hq => ?_
    have hkept := kept_iff (hprobs d hd) (k := k.map (· d)) (p := p.map (· d)) (fun n hn => by
      obtain ⟨f, hf, rfl⟩ := Option.map_eq_some_iff.mp hn
      rw [(hlength d hd).2]
      exact hk f hf d hd) (fun r hr => by
      obtain ⟨f, hf, rfl⟩ := Option.map_eq_some_iff.mp hr
      exact hp f hf d hd) hq
    by_cases hcutP : (q : WithBot K) < cutP (softmax (row d)) (p.map (· d))
    · rw [if_pos hcutP, if_neg fun h => (hkept.mp h).2 hcutP]
    · rw [if_neg hcutP]
      by_cases hcutK : (q : WithBot K) < cutK (softmax (row d)) (k.map (· d))
      · rw [if_pos hcutK, if_neg fun h => (hkept.mp h).1 hcutK]
      · rw [if_neg hcutK, if_pos (hkept.mpr ⟨hcutK, hcutP⟩)]
  rw [List.map_congr_left hresult]
  have hwhole : ∀ d ∈ ds, discardBelow ⊥ (row d) (softmax (row d)) = row d := fun d hd =>
    discardBelow_bot ((hlength d hd).2.trans (hlength d hd).1.symm)
  have hafterK : filterTopK vocabSize (ds.map row) ((ds.map row).map softmax) (k.map fun f => ds.map f) =
      some (ds.map fun d => discardBelow (cutK (softmax (row d)) (k.map (· d))) (row d) (softmax (row d))) := by
    cases k with
    | none => exact congrArg some (List.map_congr_left fun d hd => (hwhole d hd).symm)
    | some f =>
      simp only [filterTopK, Option.map_some, List.map_map, Function.comp_def, hcutK f rfl,
        Option.bind_eq_bind, Option.bind_some]
      exact congrArg some (fillWhere_discard _)
  rw [applyNative, hafterK]
  cases p with
  | none =>
    refine congrArg some (List.map_congr_left fun d hd => (discardBelow_bot ?_).symm)
    rw [discardBelow, List.length_zipWith, (hlength d hd).1, (hlength d hd).2, min_self]
  | some f =>
    simp only [filterTopP, Option.map_some, List.map_map, Function.comp_def, hcutP f rfl,
      Option.bind_eq_bind, Option.bind_some]
    exact congrArg some (fillWhere_discard _)

end Rows

/-! ## Conditioning -/

section Conditioning

variable [Field K] [LinearOrder K] {softmax : List (WithBot K) → List K} {row : List (WithBot K)}

/-- **A most probable token is kept.** -/
theorem kept_of_max {probs : List K} (k : Option ℤ) (p : Option K) {q : K} (hmax : ∀ q' ∈ probs, q' ≤ q) :
    Kept probs k p q := by
  refine ⟨fun n _ y hy => hmax y ?_, fun r _ y hy => hmax y ?_⟩
  · exact (descending_perm probs).mem_iff.mp (List.mem_of_getElem? hy)
  · exact (descending_perm probs).mem_iff.mp (List.mem_of_mem_take (List.min?_mem hy))

theorem getElem?_filterRow {probs : List K} (k : Option ℤ) (p : Option K) {j : ℕ} {l : WithBot K} {q : K}
    (hl : row[j]? = some l) (hq : probs[j]? = some q) :
    (filterRow probs k p row)[j]? = some (if Kept probs k p q then l else ⊥) := by
  rw [filterRow, List.getElem?_zipWith, hl, hq]

theorem SoftmaxLaws.isRowDistribution (h : SoftmaxLaws softmax) (hrow : ∃ l ∈ row, l ≠ ⊥) :
    IsRowDistribution (softmax row) := ⟨h.nonneg row hrow, h.sum row hrow⟩

/-- **A largest entry has a largest probability**, and is not masked. -/
theorem SoftmaxLaws.exists_max (h : SoftmaxLaws softmax) (hrow : ∃ l ∈ row, l ≠ ⊥) :
    ∃ (j : ℕ) (l : WithBot K) (q : K), row[j]? = some l ∧ (softmax row)[j]? = some q ∧
      (∀ l' ∈ row, l' ≤ l) ∧ (∀ q' ∈ softmax row, q' ≤ q) ∧ l ≠ ⊥ ∧ q ≠ 0 := by
  obtain ⟨l₀, hl₀, hfinite⟩ := hrow
  obtain ⟨l, hl⟩ := Option.isSome_iff_exists.mp (List.isSome_max?_of_mem hl₀)
  obtain ⟨hmem, hmax⟩ := List.max?_eq_some_iff.mp hl
  obtain ⟨j, hj⟩ := List.mem_iff_getElem?.mp hmem
  have hlt : j < (softmax row).length := h.length row ▸ (List.getElem?_eq_some_iff.mp hj).1
  have hq := List.getElem?_eq_getElem hlt
  have hne : l ≠ ⊥ := fun hbot => hfinite (le_bot_iff.mp (hbot ▸ hmax l₀ hl₀))
  refine ⟨j, l, _, hj, hq, hmax, fun q' hq' => ?_, hne, fun hzero => hne ?_⟩
  · obtain ⟨i, hi⟩ := List.mem_iff_getElem?.mp hq'
    have hi' : i < row.length := h.length row ▸ (List.getElem?_eq_some_iff.mp hi).1
    have hli := List.getElem?_eq_getElem hi'
    exact h.mono row ⟨l₀, hl₀, hfinite⟩ i j _ _ _ _ hli hj hi hq (hmax _ (List.getElem_mem hi'))
  · exact (h.eq_zero_iff row ⟨l₀, hl₀, hfinite⟩ j l _ hj hq).mp hzero

/-- **The softmax of a filtered row is the conditioned distribution.** -/
theorem SoftmaxLaws.filterRow (h : SoftmaxLaws softmax) (hrow : ∃ l ∈ row, l ≠ ⊥) (k : Option ℤ)
    (p : Option K) : softmax (filterRow (softmax row) k p row) = conditioned (softmax row) k p := by
  obtain ⟨j₀, l₀, q₀, hl₀, hq₀, -, hmax, hfinite, hpos⟩ := h.exists_max hrow
  generalize hfiltered : VllmAscend.filterRow (softmax row) k p row = filtered
  have hget := fun (j : ℕ) (l : WithBot K) (q : K) (hl : row[j]? = some l) (hq : (softmax row)[j]? = some q) =>
    hfiltered ▸ getElem?_filterRow k p hl hq
  have hl₀' : filtered[j₀]? = some l₀ := by
    rw [hget j₀ l₀ q₀ hl₀ hq₀, if_pos (kept_of_max k p hmax)]
  have hrow' : ∃ l ∈ filtered, l ≠ ⊥ := ⟨l₀, List.mem_of_getElem? hl₀', hfinite⟩
  have hlength : filtered.length = row.length := by
    rw [← hfiltered, VllmAscend.filterRow, List.length_zipWith, h.length, min_self]
  obtain ⟨q₀', hq₀'⟩ : ∃ q', (softmax filtered)[j₀]? = some q' :=
    ⟨_, List.getElem?_eq_getElem (by
      rw [h.length, hlength]
      exact (List.getElem?_eq_some_iff.mp hl₀).1)⟩
  -- every entry is compared with the one at `j₀`
  have hodds : (softmax filtered).map (q₀ * ·) =
      (softmax row).map fun q => (if Kept (softmax row) k p q then q else 0) * q₀' := by
    refine List.ext_getElem (by rw [List.length_map, List.length_map, h.length, h.length, hlength])
      fun j hj hj' => ?_
    rw [List.length_map] at hj hj'
    have hlt : j < row.length := h.length row ▸ hj'
    have hl := List.getElem?_eq_getElem hlt
    have hq := List.getElem?_eq_getElem hj'
    have hq' := List.getElem?_eq_getElem hj
    have hl' := hget j _ _ hl hq
    rw [List.getElem_map, List.getElem_map]
    split
    · next hkept =>
      rw [if_pos hkept] at hl'
      exact h.odds row filtered hrow hrow' j₀ j _ _ _ _ (hl₀.trans hl₀'.symm) (hl.trans hl'.symm) hq₀ hq hq₀' hq'
    · next hkept =>
      rw [if_neg hkept] at hl'
      rw [(h.eq_zero_iff filtered hrow' j ⊥ _ hl' hq').mpr rfl, mul_zero, zero_mul]
  have hmass : q₀ = keptMass (softmax row) k p * q₀' := by
    have hsum := congrArg List.sum hodds
    rw [List.sum_map_mul_left, List.map_id', h.sum filtered hrow', mul_one, List.sum_map_mul_right] at hsum
    exact hsum
  have hmass_ne : keptMass (softmax row) k p ≠ 0 := fun hzero => hpos (by rw [hmass, hzero, zero_mul])
  refine List.ext_getElem (by rw [conditioned, List.length_map, h.length, h.length, hlength]) fun j hj hj' => ?_
  have hentry := congrArg (·[j]?) hodds
  rw [conditioned, List.length_map] at hj'
  simp only [List.getElem?_map, List.getElem?_eq_getElem hj, List.getElem?_eq_getElem hj', Option.map_some,
    Option.some.injEq] at hentry
  simp only [conditioned, List.getElem_map]
  have hscaled : (softmax filtered)[j] * keptMass (softmax row) k p =
      if Kept (softmax row) k p (softmax row)[j] then (softmax row)[j] else 0 := by
    refine mul_right_cancel₀ (fun hzero => hpos (by rw [hmass, hzero, mul_zero]) : q₀' ≠ 0) ?_
    rw [mul_assoc, ← hmass, mul_comm, hentry]
  rw [eq_div_of_mul_eq hmass_ne hscaled, ite_div, zero_div]

end Conditioning

/-! ## The sampler, on a batch -/

/-- What the sampler is called with: rows over the vocabulary, none of them masked as a whole, and for each
row its `k` and its `p`, if there are any. -/
structure IsSamplerInput [Field K] [LinearOrder K] (vocabSize : ℕ) (logits : List (List (WithBot K)))
    (k : Option (List ℤ)) (p : Option (List K)) : Prop where
  rows : ∀ row ∈ logits, row.length = vocabSize ∧ ∃ l ∈ row, l ≠ ⊥
  k_length : ∀ ks ∈ k, ks.length = logits.length
  k_bounds : ∀ ks ∈ k, ∀ n ∈ ks, 1 ≤ n ∧ n ≤ (vocabSize : ℤ)
  p_length : ∀ ps ∈ p, ps.length = logits.length
  p_bounds : ∀ ps ∈ p, ∀ r ∈ ps, 0 < r ∧ r ≤ 1

section Batch

variable {Generators Tokens : Type} [Field K] [LinearOrder K] {softmax : List (WithBot K) → List K}
  {vocabSize : ℕ} {logits : List (List (WithBot K))} {k : Option (List ℤ)} {p : Option (List K)}

/-- The entry of a row in a tensor that may be missing. -/
def entryAt {α : Type} (values : Option (List α)) (i : ℕ) : Option α := values.bind (·[i]?)

omit [Field K] [LinearOrder K] in
theorem map_getD_range {α : Type} (xs : List α) (z : α) :
    (List.range xs.length).map (fun i => xs.getD i z) = xs :=
  List.ext_getElem (by rw [List.length_map, List.length_range]) fun i hi hi' => by
    rw [List.getElem_map, List.getElem_range, List.getD_eq_getElem _ _ hi']

/-- The entries of a tensor that may be missing, by the rows. -/
theorem entryAt_eq {α : Type} {values : Option (List α)} {n : ℕ} (hlength : ∀ xs ∈ values, xs.length = n)
    (z : α) : (values.map fun xs i => xs.getD i z).map (fun f => (List.range n).map f) = values ∧
      ∀ i < n, (values.map fun xs i => xs.getD i z).map (· i) = entryAt values i := by
  cases values with
  | none => exact ⟨rfl, fun _ _ => rfl⟩
  | some xs =>
    have hlen := hlength xs rfl
    refine ⟨?_, fun i hi => ?_⟩
    · rw [Option.map_some, Option.map_some, ← hlen, map_getD_range]
    · rw [← hlen] at hi
      simp only [Option.map_some, entryAt, Option.bind_some, List.getD_eq_getElem _ _ hi,
        List.getElem?_eq_getElem hi]

variable [IsStrictOrderedRing K]

/-- **The native path filters each row by itself.** -/
theorem applyNative_eq (hsoftmax : SoftmaxLaws softmax) (h : IsSamplerInput vocabSize logits k p) :
    applyNative softmax vocabSize logits k p = some (logits.mapIdx fun i row =>
      filterRow (softmax row) (entryAt k i) (entryAt p i) row) := by
  obtain ⟨hkEq, hkAt⟩ := entryAt_eq h.k_length 0
  obtain ⟨hpEq, hpAt⟩ := entryAt_eq h.p_length 0
  have hmem : ∀ i ∈ List.range logits.length, logits.getD i [] ∈ logits := fun i hi => by
    rw [List.getD_eq_getElem _ _ (List.mem_range.mp hi)]
    exact List.getElem_mem _
  have hnative := applyNative_map softmax vocabSize (List.range logits.length) (fun i => logits.getD i [])
    (fun i hi => hsoftmax.isRowDistribution (h.rows _ (hmem i hi)).2)
    (fun i hi => ⟨(h.rows _ (hmem i hi)).1, (hsoftmax.length _).trans (h.rows _ (hmem i hi)).1⟩)
    (k := k.map fun ks i => ks.getD i 0) (fun f hf i hi => by
      obtain ⟨ks, hks, rfl⟩ := Option.map_eq_some_iff.mp hf
      have hlt : i < ks.length := (h.k_length ks hks).symm ▸ List.mem_range.mp hi
      simp only [List.getD_eq_getElem _ _ hlt]
      exact h.k_bounds ks hks _ (List.getElem_mem hlt))
    (p := p.map fun ps i => ps.getD i 0) (fun f hf i hi => by
      obtain ⟨ps, hps, rfl⟩ := Option.map_eq_some_iff.mp hf
      have hlt : i < ps.length := (h.p_length ps hps).symm ▸ List.mem_range.mp hi
      simp only [List.getD_eq_getElem _ _ hlt]
      exact h.p_bounds ps hps _ (List.getElem_mem hlt))
  rw [hkEq, hpEq, map_getD_range] at hnative
  rw [hnative]
  refine congrArg some (List.ext_getElem (by
    rw [List.length_map, List.length_range, List.length_mapIdx]) fun i hi hi' => ?_)
  rw [List.length_map, List.length_range] at hi
  rw [List.getElem_map, List.getElem_range, List.getElem_mapIdx, hkAt i hi, hpAt i hi,
    List.getD_eq_getElem _ _ hi]

namespace SamplerEnv

omit [IsStrictOrderedRing K] in
/-- Without the operator, or with one criterion only, the native path is taken. -/
theorem applyTopKTopP_eq (env : SamplerEnv K Generators Tokens)
    (hnative : env.is310p = true ∨ k = none ∨ p = none) :
    env.applyTopKTopP vocabSize logits k p = applyNative env.softmax vocabSize logits k p := by
  unfold applyTopKTopP
  cases h310 : env.is310p with
  | true => cases k <;> cases p <;> rfl
  | false =>
    obtain h | rfl | rfl := hnative
    · exact absurd (h310.symm.trans h) Bool.false_ne_true
    · cases p <;> rfl
    · cases k <;> rfl

/-- **Filtering keeps the defined set.**  On the native path each row is filtered by itself: the logits of
the tokens that are to be kept stay, the others are masked, and a most probable token is kept.  What
`forward_native` draws from is the distribution of the row conditioned on what is kept. -/
theorem forwardNative_eq (env : SamplerEnv K Generators Tokens) (hsoftmax : SoftmaxLaws env.softmax)
    (h : IsSamplerInput vocabSize logits k p) (hnative : env.is310p = true ∨ k = none ∨ p = none)
    (generators : Generators) :
    ∃ out, env.applyTopKTopP vocabSize logits k p = some out ∧ out.length = logits.length ∧
      (∀ (i : ℕ) (row : List (WithBot K)), logits[i]? = some row → ∃ filtered, out[i]? = some filtered ∧
        filtered.length = vocabSize ∧
        (∀ (j : ℕ) (l : WithBot K) (q : K), row[j]? = some l → (env.softmax row)[j]? = some q →
          filtered[j]? = some (if Kept (env.softmax row) (entryAt k i) (entryAt p i) q then l else ⊥)) ∧
        (∃ (j : ℕ) (l : WithBot K) (q : K), row[j]? = some l ∧ (env.softmax row)[j]? = some q ∧
          (∀ l' ∈ row, l' ≤ l) ∧ (∀ q' ∈ env.softmax row, q' ≤ q) ∧ l ≠ ⊥ ∧ filtered[j]? = some l) ∧
        env.softmax filtered = conditioned (env.softmax row) (entryAt k i) (entryAt p i)) ∧
      env.forwardNative vocabSize logits generators k p =
        let tokens := env.randomSample (logits.mapIdx fun i row =>
          conditioned (env.softmax row) (entryAt k i) (entryAt p i)) generators
        some (if env.isVersion0101 then .tokens tokens else .withLogits tokens (env.logitsToReturn out)) := by
  have happly := (env.applyTopKTopP_eq hnative).trans (applyNative_eq hsoftmax h)
  refine ⟨_, happly, List.length_mapIdx, fun i row hrow => ?_, ?_⟩
  · obtain ⟨hlength, hfinite⟩ := h.rows row (List.mem_of_getElem? hrow)
    refine ⟨_, by rw [List.getElem?_mapIdx, hrow]; rfl, ?_, fun j l q hl hq => getElem?_filterRow _ _ hl hq,
      ?_, hsoftmax.filterRow hfinite _ _⟩
    · rw [filterRow, List.length_zipWith, hsoftmax.length, min_self, hlength]
    · obtain ⟨j, l, q, hl, hq, hlmax, hqmax, hne, -⟩ := hsoftmax.exists_max hfinite
      refine ⟨j, l, q, hl, hq, hlmax, hqmax, hne, ?_⟩
      rw [getElem?_filterRow _ _ hl hq, if_pos (kept_of_max _ _ hqmax)]
  · have hprobs : (logits.mapIdx fun i row =>
        filterRow (env.softmax row) (entryAt k i) (entryAt p i) row).map env.softmax =
        logits.mapIdx fun i row => conditioned (env.softmax row) (entryAt k i) (entryAt p i) := by
      refine List.ext_getElem (by simp only [List.length_map, List.length_mapIdx]) fun i hi hi' => ?_
      rw [List.length_mapIdx] at hi'
      rw [List.getElem_map, List.getElem_mapIdx, List.getElem_mapIdx]
      exact hsoftmax.filterRow (h.rows _ (List.getElem_mem hi')).2 _ _
    rw [forwardNative, happly]
    simp only [Option.bind_eq_bind, Option.bind_some, hprobs]
    rfl

end SamplerEnv

end Batch

/-! ## A softmax -/

section SoftmaxBy

variable [Field K]

/-- The weight of an entry; what is masked has none. -/
def weightOr (weight : K → K) : WithBot K → K := WithBot.recBotCoe (C := fun _ => K) 0 weight

/-- The weights of the entries, divided by their sum. -/
def softmaxBy (weight : K → K) (row : List (WithBot K)) : List K :=
  row.map fun l => weightOr weight l / (row.map (weightOr weight)).sum

variable [LinearOrder K] {weight : K → K}

theorem weightOr_nonneg (hpos : ∀ x, 0 < weight x) : ∀ l, 0 ≤ weightOr weight l
  | ⊥ => le_rfl
  | (x : K) => (hpos x).le

theorem weightOr_eq_zero_iff (hpos : ∀ x, 0 < weight x) : ∀ l, weightOr weight l = 0 ↔ l = ⊥
  | ⊥ => iff_of_true rfl rfl
  | (x : K) => iff_of_false (hpos x).ne' (WithBot.coe_ne_bot)

theorem weightOr_mono (hpos : ∀ x, 0 < weight x) (hmono : Monotone weight) : Monotone (weightOr weight)
  | ⊥, l', _ => weightOr_nonneg hpos l'
  | (x : K), ⊥, h => absurd (le_bot_iff.mp h) WithBot.coe_ne_bot
  | (x : K), (y : K), h => hmono (WithBot.coe_le_coe.mp h)

variable [IsStrictOrderedRing K]

theorem sum_weightOr_pos (hpos : ∀ x, 0 < weight x) {row : List (WithBot K)} (hrow : ∃ l ∈ row, l ≠ ⊥) :
    0 < (row.map (weightOr weight)).sum := by
  obtain ⟨l, hl, hne⟩ := hrow
  have hnonneg : ∀ x ∈ row.map (weightOr weight), 0 ≤ x := fun x hx => by
    obtain ⟨l', -, rfl⟩ := List.mem_map.mp hx
    exact weightOr_nonneg hpos l'
  have hlt : 0 < weightOr weight l :=
    (weightOr_nonneg hpos l).lt_of_ne' fun hzero => hne ((weightOr_eq_zero_iff hpos l).mp hzero)
  exact hlt.trans_le (List.single_le_sum hnonneg _ (List.mem_map_of_mem hl))

/-- **Weights that are positive and monotone** make a softmax; so do exponentials. -/
theorem softmaxLaws_softmaxBy (hpos : ∀ x, 0 < weight x) (hmono : Monotone weight) :
    SoftmaxLaws (softmaxBy weight) where
  length row := List.length_map _
  sum row hrow := by
    have hsum := (sum_weightOr_pos hpos hrow).ne'
    rw [softmaxBy]
    simp only [div_eq_mul_inv]
    rw [List.sum_map_mul_right, mul_inv_cancel₀ hsum]
  mono row hrow i j li lj qi qj hli hlj hqi hqj hle := by
    rw [softmaxBy, List.getElem?_map, hli] at hqi
    rw [softmaxBy, List.getElem?_map, hlj] at hqj
    obtain rfl := Option.some.inj hqi
    obtain rfl := Option.some.inj hqj
    exact div_le_div_of_nonneg_right (weightOr_mono hpos hmono hle) (sum_weightOr_pos hpos hrow).le
  nonneg row hrow q hq := by
    obtain ⟨l, -, rfl⟩ := List.mem_map.mp hq
    exact div_nonneg (weightOr_nonneg hpos l) (sum_weightOr_pos hpos hrow).le
  eq_zero_iff row hrow i l q hl hq := by
    rw [softmaxBy, List.getElem?_map, hl] at hq
    obtain rfl := Option.some.inj hq
    rw [div_eq_zero_iff, or_iff_left (sum_weightOr_pos hpos hrow).ne', weightOr_eq_zero_iff hpos]
  odds row row' _ _ i j qi qj qi' qj' hi hj hqi hqj hqi' hqj' := by
    rw [softmaxBy, List.getElem?_map] at hqi hqj hqi' hqj'
    rw [hi] at hqi
    rw [hj] at hqj
    obtain ⟨li, hli, rfl⟩ := Option.map_eq_some_iff.mp hqi
    obtain ⟨lj, hlj, rfl⟩ := Option.map_eq_some_iff.mp hqj
    rw [hli] at hqi'
    rw [hlj] at hqj'
    obtain rfl := Option.some.inj hqi'
    obtain rfl := Option.some.inj hqj'
    ring

end SoftmaxBy

/-- A sampler with exponentials, whose draw is what it draws from. -/
noncomputable def expEnv : SamplerEnv ℝ Unit (List (List ℝ)) where
  is310p := true
  isVersion0101 := true
  logprobsMode := .rawLogprobs
  softmax := softmaxBy Real.exp
  logSoftmax := id
  npuTopKTopP := fun _ _ _ => none
  randomSample := fun probs _ => probs

/-- A row of three tokens, one of them masked, with both criteria. -/
theorem forwardNative_eq_oneRow :
    ∃ out, expEnv.applyTopKTopP 3 [[0, 1, ⊥]] (some [1]) (some [1 / 2]) = some out ∧ out.length = 1 := by
  have hinput : IsSamplerInput (K := ℝ) 3 [[0, 1, ⊥]] (some [1]) (some [1 / 2]) :=
    { rows := fun row hrow => by
        obtain rfl := List.mem_singleton.mp hrow
        exact ⟨rfl, 0, List.mem_cons_self, WithBot.coe_ne_bot⟩
      k_length := fun ks hks => by cases hks; rfl
      k_bounds := fun ks hks n hn => by
        cases hks
        obtain rfl := List.mem_singleton.mp hn
        decide
      p_length := fun ps hps => by cases hps; rfl
      p_bounds := fun ps hps r hr => by
        cases hps
        obtain rfl := List.mem_singleton.mp hr
        norm_num }
  obtain ⟨out, happly, hlength, -, -⟩ := expEnv.forwardNative_eq
    (softmaxLaws_softmaxBy Real.exp_pos Real.exp_monotone) hinput (.inl rfl) ()
  exact ⟨out, happly, hlength⟩

end VllmAscend
