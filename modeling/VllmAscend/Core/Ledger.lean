import VllmAscend.Core.Schedule

/-!
# Core/Ledger — the token budget and the adapters of one call

    token_budget + Σ num_scheduled_tokens = max_num_scheduled_tokens

Both loops enter a request the same way: its tokens leave the budget, its adapter joins
`scheduled_loras`.  `Ledger` is what the entries have in common and `Ledger.enter` the one step.
-/

namespace VllmAscend

variable {σ κ M : Type}

/-- Entering a new key adds its value to the sum. -/
theorem Dict.sum_values_insert {d : Dict ℤ} {id : ReqId} (h : id ∉ d) (n : ℤ) :
    (Dict.values (d.insert id n)).sum = n + d.values.sum := by
  rw [Dict.values, AList.entries_insert_of_notMem h, List.map_cons, List.sum_cons, Dict.values]

/-- Entering a new key adds it to the keys. -/
theorem Dict.keys_insert_perm {d : Dict ℤ} {id : ReqId} {ids : List ReqId} (h : d.keys.Perm ids)
    (hid : id ∉ ids) (n : ℤ) : (AList.insert id n d).keys.Perm (ids ++ [id]) := by
  have hkey : id ∉ d.keys := fun hmem => hid (h.mem_iff.mp hmem)
  rw [AList.keys_insert, List.erase_of_not_mem hkey]
  exact (h.cons id).trans (List.perm_append_singleton id ids).symm

/-- The ids of the adapters of some requests. -/
def loraIds (obj : ReqId → Request) (ids : List ReqId) : Finset ℕ :=
  (ids.filterMap fun id => (obj id).loraRequest.map LoRARequest.loraIntId).toFinset

namespace AscendScheduler

/-- The adapters a call may still use: either there is room, or the request's own is in use. -/
theorem card_recordLora_le {self : AscendScheduler σ κ M} {loras : Finset ℕ} {r : Request} {m : ℕ}
    (hconfig : self.loraConfig = some m) (hcard : loras.card ≤ m)
    (hfits : self.exceedsMaxLoras loras r = false) : (self.recordLora loras r).card ≤ m := by
  unfold recordLora
  unfold exceedsMaxLoras at hfits
  rw [hconfig] at hfits ⊢
  cases hlora : r.loraRequest with
  | none => simpa [hlora] using hcard
  | some lora =>
    simp only [hlora, decide_eq_false_iff_not, not_and, not_not] at hfits ⊢
    by_cases hfull : loras.card = m
    · rw [Finset.insert_eq_of_mem (hfits hfull)]
      exact hcard
    · exact (Finset.card_insert_le _ _).trans (by omega)

theorem subset_recordLora (self : AscendScheduler σ κ M) (loras : Finset ℕ) (r : Request) :
    loras ⊆ self.recordLora loras r := by
  unfold recordLora
  split
  · exact Finset.subset_insert _ _
  · exact Finset.Subset.refl _

/-- The entries of a call: `scheduled` are the requests entered so far, `obj` the requests as the
call found them. -/
structure Ledger (A : AscendScheduler σ κ M) (obj : ReqId → Request) (scheduled : List ReqId)
    (numScheduledTokens : Dict ℤ) (tokenBudget : ℤ) (scheduledLoras : Finset ℕ) : Prop where
  keys : numScheduledTokens.keys.Perm scheduled
  budget : tokenBudget + numScheduledTokens.values.sum = A.maxNumScheduledTokens
  nonneg : 0 ≤ tokenBudget
  nonzero : ∀ id n, numScheduledTokens.lookup id = some n → n ≠ 0
  loras : ∀ m, A.loraConfig = some m →
    loraIds obj scheduled ⊆ scheduledLoras ∧ scheduledLoras.card ≤ m

variable {self : AscendScheduler σ κ M} {obj : ReqId → Request} {scheduled : List ReqId}
  {num : Dict ℤ} {budget : ℤ} {loras : Finset ℕ} {id : ReqId} {n : ℤ} {r : Request}

theorem Ledger.empty : Ledger self obj [] ∅ self.maxNumScheduledTokens ∅ where
  keys := by simp
  budget := by simp [Dict.values]
  nonneg := by simp
  nonzero := by simp
  loras := by simp [loraIds]

/-- **Entering a request.** -/
theorem Ledger.enter (h : Ledger self obj scheduled num budget loras) (hid : id ∉ scheduled)
    (hn : n ≠ 0) (hbudget : n ≤ budget) (hlora : r.loraRequest = (obj id).loraRequest)
    (hfits : self.exceedsMaxLoras loras r = false) :
    Ledger self obj (scheduled ++ [id]) (num.insert id n) (budget - n)
      (self.recordLora loras r) where
  keys := Dict.keys_insert_perm h.keys hid n
  budget := by
    have hnum : id ∉ num := fun hmem => hid (h.keys.mem_iff.mp hmem)
    rw [Dict.sum_values_insert hnum, ← h.budget]
    omega
  nonneg := by omega
  nonzero := by
    intro id' n' hlookup
    by_cases hid' : id' = id
    · subst hid'
      rw [AList.lookup_insert] at hlookup
      cases hlookup
      exact hn
    · rw [AList.lookup_insert_ne hid'] at hlookup
      exact h.nonzero id' n' hlookup
  loras := by
    intro m hm
    obtain ⟨hsub, hcard⟩ := h.loras m hm
    refine ⟨?_, card_recordLora_le hm hcard hfits⟩
    intro l hl
    simp only [loraIds, List.filterMap_append, List.toFinset_append, Finset.mem_union] at hl
    obtain hl | hl := hl
    · exact subset_recordLora self loras r (hsub hl)
    · cases hr : (obj id).loraRequest with
      | none => simp [hr] at hl
      | some lora =>
        have : l = lora.loraIntId := by simpa [hr] using hl
        subst this
        rw [recordLora, hm, hlora, hr]
        exact Finset.mem_insert_self _ _

/-- The sum that the terminal assertion bounds. -/
theorem Ledger.sum_le (h : Ledger self obj scheduled num budget loras) :
    num.values.sum ≤ self.maxNumScheduledTokens := by
  have := h.budget
  have := h.nonneg
  omega

end AscendScheduler

end VllmAscend
