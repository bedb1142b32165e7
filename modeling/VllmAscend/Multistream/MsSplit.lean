import VllmAscend.Torchair.MLAMetadata

/-!
# Multistream/MsSplit — where a batch is cut into two micro-batches

    query lengths    3   4   9   2   2        20 tokens, half of them 10
    boundaries         3   7  16  18  20
    looked at              7  16              the last below the half, and the first that reaches it

A batch is cut between two requests, near the half of its tokens.  The sums of the first lengths increase, so no
boundary is nearer to the half than the two that are looked at: when neither is near enough, none is
(`computeSplitSeqIndex_spec`).
-/

namespace VllmAscend

open Torchair

/-- The loop of `compute_split_seq_index`, from the tokens and the requests before it. -/
def splitSeqLoop (half : ℤ) (bound : ℚ) : List ℤ → ℤ → ℕ → ℤ × ℕ
  | [], _, _ => (0, 0)
  | value :: queryLens, tokens, splitIndex =>
    if half ≤ tokens + value then
      if |(tokens + value - half : ℚ)| < bound then (tokens + value, splitIndex + 1)
      else if |(tokens + value - half - value : ℚ)| < bound then (tokens + value - value, splitIndex + 1 - 1)
      else (0, 0)
    else splitSeqLoop half bound queryLens (tokens + value) (splitIndex + 1)

/-- `compute_split_seq_index`; without query lengths the assertion fails. -/
def computeSplitSeqIndex (queryLens : Option (List ℤ)) (attnState : AscendAttentionState) (numTokens : ℤ)
    (imbalanceRatio : ℚ) : Option (ℤ × ℤ) :=
  if attnState ≠ .decodeOnly then do
    let queryLens ← queryLens
    let totalTokens := queryLens.sum
    let split := splitSeqLoop (totalTokens / 2) (totalTokens * imbalanceRatio) queryLens 0 0
    return (split.1, split.2)
  else return (numTokens / 2, numTokens / 2)

/-- `NPUModelRunner._check_dbo_is_valid`; the last two arguments are the settings it reads. -/
def checkDboIsValid (queryLens : List ℤ) (attnState : AscendAttentionState) (numTokens : ℤ) (useMla enableDbo : Bool) :
    Option Bool :=
  if attnState ∈ [.decodeOnly, .specDecoding] then return false
  else if !useMla || !enableDbo then return false
  else do
    let (tokenIndex, seqIndex) ← computeSplitSeqIndex (some queryLens) attnState numTokens (1 / 10)
    return ¬ (tokenIndex = 0 ∨ seqIndex = 0 ∨ seqIndex = queryLens.length ∨ numTokens < 256)

/-! ## The boundaries -/

section Boundaries

variable {queryLens : List ℤ}

theorem sum_take_le_sum_take (hnonneg : ∀ q ∈ queryLens, 0 ≤ q) {m n : ℕ} (h : m ≤ n) :
    (queryLens.take m).sum ≤ (queryLens.take n).sum := by
  obtain ⟨k, rfl⟩ := Nat.exists_eq_add_of_le h
  rw [List.take_add, List.sum_append]
  refine le_add_of_nonneg_right (List.sum_nonneg fun q hq => hnonneg q ?_)
  exact List.mem_of_mem_drop (List.mem_of_mem_take hq)

/-- **Near the half**: `t` tokens stand before the boundary behind `s` requests. -/
structure IsBoundary (queryLens : List ℤ) (half : ℤ) (bound : ℚ) (t : ℤ) (s : ℕ) : Prop where
  le : s ≤ queryLens.length
  sum : t = (queryLens.take s).sum
  near : |(t - half : ℚ)| < bound

/-- **What is to be returned**: a boundary near the half, or none when there is none. -/
structure SplitsAt (queryLens : List ℤ) (half : ℤ) (bound : ℚ) (split : ℤ × ℕ) : Prop where
  sound : split = (0, 0) ∨ IsBoundary queryLens half bound split.1 split.2
  complete : split = (0, 0) → ∀ t s, 1 ≤ s → ¬ IsBoundary queryLens half bound t s

/-- A boundary behind one that has reached the half, and is not near it, is not near either. -/
theorem not_near_of_ge {half t t' : ℤ} {bound : ℚ} (hhalf : half ≤ t) (hle : t ≤ t')
    (hnot : ¬ |(t - half : ℚ)| < bound) : ¬ |(t' - half : ℚ)| < bound := by
  have hhalf : (half : ℚ) ≤ t := by exact_mod_cast hhalf
  have hle : (t : ℚ) ≤ t' := by exact_mod_cast hle
  rw [abs_of_nonneg (by linarith)] at hnot ⊢
  linarith

/-- Nor is one before a boundary below the half. -/
theorem not_near_of_le {half t t' : ℤ} {bound : ℚ} (hhalf : t ≤ half) (hle : t' ≤ t)
    (hnot : ¬ |(t - half : ℚ)| < bound) : ¬ |(t' - half : ℚ)| < bound := by
  have hhalf : (t : ℚ) ≤ half := by exact_mod_cast hhalf
  have hle : (t' : ℚ) ≤ t := by exact_mod_cast hle
  rw [abs_of_nonpos (by linarith)] at hnot ⊢
  linarith

/-- **The loop finds a boundary near the half**, from the first `n` requests on, all of whose boundaries are
below it. -/
theorem splitSeqLoop_splitsAt (hnonneg : ∀ q ∈ queryLens, 0 ≤ q) {half : ℤ} (hhalf : half ≤ queryLens.sum)
    (bound : ℚ) : ∀ {rest : List ℤ} {n : ℕ}, queryLens.drop n = rest → n ≤ queryLens.length →
      (n = 0 ∨ (queryLens.take n).sum < half) →
        SplitsAt queryLens half bound (splitSeqLoop half bound rest (queryLens.take n).sum n)
  | [], n, hrest, hn, hbelow => by
    have hall : queryLens.take n = queryLens := List.take_of_length_le (List.drop_eq_nil_iff.mp hrest)
    refine ⟨Or.inl rfl, fun _ t s hs hboundary => ?_⟩
    obtain rfl | hlt := hbelow
    · rw [List.take_zero] at hall
      have hle := hboundary.le
      rw [← hall, List.length_nil] at hle
      omega
    · rw [hall] at hlt
      omega
  | value :: rest, n, hrest, hn, hbelow => by
    have hlt : n < queryLens.length := by
      rw [← Nat.not_le, ← List.drop_eq_nil_iff, hrest]
      exact List.cons_ne_nil _ _
    have hvalue : queryLens[n] = value := by
      rw [List.drop_eq_getElem_cons hlt] at hrest
      exact (List.cons.inj hrest).1
    have hsum : (queryLens.take n).sum + value = (queryLens.take (n + 1)).sum := by
      rw [List.take_succ_eq_append_getElem hlt, List.sum_append, List.sum_singleton, hvalue]
    have hcast : ((queryLens.take n).sum + value - half : ℚ) = (queryLens.take (n + 1)).sum - half := by
      rw [← hsum]
      push_cast
      ring
    have hbehind : half ≤ (queryLens.take n).sum + value →
        ¬ |((queryLens.take n).sum + value - half : ℚ)| < bound →
          ∀ t s, n < s → ¬ IsBoundary queryLens half bound t s := by
      intro hreached hfar t s hs hboundary
      rw [hcast] at hfar
      have hle := hboundary.sum ▸ sum_take_le_sum_take hnonneg hs
      exact not_near_of_ge (hsum ▸ hreached) hle hfar hboundary.near
    rw [splitSeqLoop]
    split_ifs with hreached hnear hprevious
    · refine ⟨Or.inr ⟨hlt, hsum, by rwa [Int.cast_add]⟩, fun heq => ?_⟩
      cases congrArg Prod.snd heq
    · have hsame : (queryLens.take n).sum + value - value = (queryLens.take n).sum := add_sub_cancel_right _ _
      refine ⟨Or.inr ⟨hn, hsame, ?_⟩, fun heq t s hs => ?_⟩
      · rw [hsame]
        rwa [add_sub_right_comm, add_sub_cancel_right] at hprevious
      · -- only the empty front is returned as `(0, 0)`
        have hzero : n = 0 := congrArg Prod.snd heq
        exact hbehind hreached hnear t s (hzero ▸ hs)
    · refine ⟨Or.inl rfl, fun _ t s hs hboundary => ?_⟩
      obtain hgt | hle := Nat.lt_or_ge n s
      · exact hbehind hreached hnear t s hgt hboundary
      · have hbelow := hbelow.resolve_left (by omega)
        have hsum := hboundary.sum ▸ sum_take_le_sum_take hnonneg hle
        rw [add_sub_right_comm, add_sub_cancel_right] at hprevious
        exact not_near_of_le hbelow.le hsum hprevious hboundary.near
    · rw [hsum] at hreached ⊢
      rw [List.drop_eq_getElem_cons hlt] at hrest
      exact splitSeqLoop_splitsAt hnonneg hhalf bound (List.cons.inj hrest).2 hlt
        (Or.inr (Int.not_le.mp hreached))

end Boundaries

/-- What is returned outside of a decode. -/
theorem exists_splitsAt {queryLens : List ℤ} (hnonneg : ∀ q ∈ queryLens, 0 ≤ q)
    {attnState : AscendAttentionState} (hstate : attnState ≠ .decodeOnly) (numTokens : ℤ) :
    ∃ (t : ℤ) (s : ℕ), computeSplitSeqIndex (some queryLens) attnState numTokens (1 / 10) = some (t, (s : ℤ)) ∧
      SplitsAt queryLens (queryLens.sum / 2) (queryLens.sum / 10) (t, s) := by
  have hsum : 0 ≤ queryLens.sum := List.sum_nonneg hnonneg
  have hhalf : queryLens.sum / 2 ≤ queryLens.sum := by omega
  have hsplits := splitSeqLoop_splitsAt hnonneg hhalf (queryLens.sum * (1 / 10)) rfl (Nat.zero_le _) (Or.inl rfl)
  rw [List.take_zero, List.drop_zero, List.sum_nil] at hsplits
  refine ⟨_, _, if_pos hstate, ?_⟩
  rwa [← mul_one_div]

/-- **The split point is sound and complete.**  For every list of query lengths, a pair other than `(0, 0)` is a
boundary near the half of the tokens, and `(0, 0)` is returned only when there is no such boundary behind a
request. -/
theorem computeSplitSeqIndex_spec {queryLens : List ℤ} (hnonneg : ∀ q ∈ queryLens, 0 ≤ q)
    {attnState : AscendAttentionState} (hstate : attnState ≠ .decodeOnly) (numTokens : ℤ) :
    ∃ (t : ℤ) (s : ℕ), computeSplitSeqIndex (some queryLens) attnState numTokens (1 / 10) = some (t, (s : ℤ)) ∧
      ((t, s) = (0, 0) ∨ IsBoundary queryLens (queryLens.sum / 2) (queryLens.sum / 10) t s) ∧
      ((t, s) = (0, 0) → ∀ t' s', 1 ≤ s' → t' ≠ 0 →
        ¬ IsBoundary queryLens (queryLens.sum / 2) (queryLens.sum / 10) t' s') := by
  obtain ⟨t, s, hsplit, hsplits⟩ := exists_splitsAt hnonneg hstate numTokens
  exact ⟨t, s, hsplit, hsplits.sound, fun heq t' s' hs' _ => hsplits.complete heq t' s' hs'⟩

/-- Three requests, cut behind the second; the boundary behind the first is too far from the half. -/
theorem computeSplitSeqIndex_spec_threeRequests :
    ∃ (t : ℤ) (s : ℕ), computeSplitSeqIndex (some [2, 3, 5]) .chunkedPrefill 10 (1 / 10) = some (t, (s : ℤ)) ∧
      ((t, s) = (0, 0) ∨ IsBoundary [2, 3, 5] 5 (([2, 3, 5].sum : ℤ) / 10) t s) := by
  have hnonneg : ∀ q ∈ [2, 3, (5 : ℤ)], 0 ≤ q := by decide
  obtain ⟨t, s, hsplit, hsound, -⟩ := computeSplitSeqIndex_spec hnonneg
    (by decide : AscendAttentionState.chunkedPrefill ≠ .decodeOnly) 10
  exact ⟨t, s, hsplit, hsound⟩

/-- **A valid split leaves requests on both sides**, with nearly the same number of tokens. -/
theorem checkDboIsValid_sides {queryLens : List ℤ} (hnonneg : ∀ q ∈ queryLens, 0 ≤ q)
    {attnState : AscendAttentionState} {numTokens : ℤ} {useMla enableDbo : Bool}
    (h : checkDboIsValid queryLens attnState numTokens useMla enableDbo = some true) :
    256 ≤ numTokens ∧ ∃ (t : ℤ) (s : ℕ), 0 < s ∧ s < queryLens.length ∧
      IsBoundary queryLens (queryLens.sum / 2) (queryLens.sum / 10) t s := by
  rw [checkDboIsValid] at h
  split_ifs at h with hstate hoff
  · cases h
  · cases h
  have hdecode : attnState ≠ .decodeOnly := fun heq => hstate (by simp [heq])
  obtain ⟨t, s, hsplit, hsplits⟩ := exists_splitsAt hnonneg hdecode numTokens
  rw [hsplit] at h
  have hvalid := of_decide_eq_true (Option.some.inj h)
  push Not at hvalid
  obtain ⟨ht, hs, hlast, hmany⟩ := hvalid
  have hboundary : IsBoundary queryLens (queryLens.sum / 2) (queryLens.sum / 10) t s :=
    hsplits.sound.resolve_left fun heq => ht (congrArg Prod.fst heq)
  have hle := hboundary.le
  exact ⟨hmany, t, s, by omega, by omega, hboundary⟩

end VllmAscend
