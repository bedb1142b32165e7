import VllmAscend.Worker.PersistentBatch

/-!
# Worker/AllowedTokenMask — the mask row of a request is its own

    add, restricted    row := not allowed          add, unrestricted    row as it is
    remove             row := all False            condense             row copied, the old one left

A mask row is written for restricted requests only, so an unrestricted one has whatever mask its row
was left with.  A removal clears the row and a move does not; and an exchange of two rows reads
through views, so that both end up with the same mask.  Where no request gets a row that a move left
behind, and no two rows with different masks are exchanged, every request has its own mask
(`mask_isolated`).
-/

namespace VllmAscend

open Machinery BatchUpdateBuilder

/-- The tokens that are masked for a request. -/
def SamplingParams.masked (params : SamplingParams) (t : Token) : Bool :=
  decide (params.allowedTokenIds.getD [] ≠ [] ∧ t ∉ params.allowedTokenIds.getD [])

/-- Rows that are exchanged through views are both the second one. -/
theorem swapViews_apply {α : Type} (t : ℕ → α) (i j k : ℕ) :
    swapViews t i j k = if k = i ∨ k = j then t j else t k := by
  simp only [swapViews, Function.update_apply]
  obtain rfl | hkj := eq_or_ne k j
  · simp
  · simp [hkj]

namespace InputBatch

variable {β τ : Type} [BatchUpdateBuilder β] [MultiGroupBlockTable τ] {b : InputBatch β τ}
  {id : ReqId} {i j : ℕ} {mask : ℕ → Token → Bool}

/-- Two mask rows are the same over the vocabulary. -/
def SameMask (b : InputBatch β τ) (x y : Token → Bool) : Prop := ∀ t < b.vocabSize, x t = y t

instance (b : InputBatch β τ) (x y : Token → Bool) : Decidable (b.SameMask x y) :=
  inferInstanceAs (Decidable (∀ t < b.vocabSize, x t = y t))

/-- Every request has its own mask; with no tensor, no request is restricted. -/
structure Masked (requests : ReqId → Option FullRequestState) (b : InputBatch β τ) : Prop where
  rows : ∀ mask, b.allowedTokenIdsMaskCpuTensor = some mask → ∀ id i r params,
    b.reqIdToIndex.lookup id = some i → requests id = some r → r.samplingParams = some params →
      b.SameMask (mask i) params.masked
  unallocated : b.allowedTokenIdsMaskCpuTensor = none → ∀ id i r params,
    b.reqIdToIndex.lookup id = some i → requests id = some r → r.samplingParams = some params →
      params.allowedTokenIds.getD [] = []

/-- **A move takes the mask row along.** -/
theorem moves_masked (requests : ReqId → Option FullRequestState) :
    Moves fun b : InputBatch β τ => b.Masked requests where
  builder := fun _ h => ⟨h.rows, h.unallocated⟩
  trim := fun _ _ h => ⟨h.rows, h.unallocated⟩
  move := by
    intro b id i j hlayout hid hj h
    -- where a request is now, and where it was
    have hback : ∀ id' k, (b.moveRequest id i j).reqIdToIndex.lookup id' = some k →
        b.reqIdToIndex.lookup id' = some (if k = j then i else k) := by
      intro id' k hk
      have hlookup := congrFun (lookup_moveRequest b id i j) id'
      simp only [hk] at hlookup
      obtain rfl | hne := eq_or_ne id' id
      · rw [Function.update_self] at hlookup
        cases hlookup
        rw [if_pos rfl, hid]
      · rw [Function.update_of_ne hne] at hlookup
        have hkj : k ≠ j := fun heq => hlayout.not_lookup_of_hole hj id' (heq ▸ hlookup.symm)
        rw [if_neg hkj, hlookup]
    have hmask : (b.moveRequest id i j).allowedTokenIdsMaskCpuTensor =
        b.allowedTokenIdsMaskCpuTensor.map fun mask => copyRow mask i j := rfl
    refine ⟨fun mask hsome id' k r params hk => ?_, fun hnone id' k r params hk => ?_⟩
    · rw [hmask, Option.map_eq_some_iff] at hsome
      obtain ⟨old, hold, rfl⟩ := hsome
      rw [copyRow_apply]
      exact h.rows old hold id' _ r params (hback id' k hk)
    · rw [hmask, Option.map_eq_none_iff] at hnone
      exact h.unallocated hnone id' _ r params (hback id' k hk)

omit [BatchUpdateBuilder β] in
/-- A mask row is written for a restricted request, and found as it should be by another. -/
theorem Masked.added {requests : ReqId → Option FullRequestState} {r : FullRequestState}
    {params : SamplingParams} {builder : β} (h : b.Masked requests) (hlayout : Layout b)
    (hopen : b.Open i) (hid : b.reqIdToIndex.lookup id = none)
    (hparams : r.samplingParams = some params)
    (hfree : params.allowedTokenIds.getD [] = [] → ∀ mask ∈ b.allowedTokenIdsMaskCpuTensor,
      b.SameMask (mask i) fun _ => false) :
    (b.added id r params i builder).Masked (Function.update requests id (some r)) := by
  have hmask : (b.added id r params i builder).allowedTokenIdsMaskCpuTensor =
      maskWith b.allowedTokenIdsMaskCpuTensor (params.allowedTokenIds.getD []) i := rfl
  have hlookup : ∀ id', (b.added id r params i builder).reqIdToIndex.lookup id' =
      if id' = id then some i else b.reqIdToIndex.lookup id' := fun id' =>
    (congrFun (Dict.lookup_insert_eq b.reqIdToIndex id i) id').trans (Function.update_apply ..)
  constructor
  case rows =>
    intro mask hsome id' k r' params' hk hr' hparams' t ht
    rw [hlookup] at hk
    rw [hmask, maskWith] at hsome
    obtain rfl | hne := eq_or_ne id' id
    · -- the request that is added
      rw [if_pos rfl] at hk
      cases hk
      rw [Function.update_self] at hr'
      cases hr'
      cases hparams.symm.trans hparams'
      split at hsome
      · next hnil =>
        rw [hfree hnil mask hsome t ht]
        simp [SamplingParams.masked, hnil]
      · next hcons =>
        cases hsome
        rw [Function.update_self]
        simp [SamplingParams.masked, hcons]
    · rw [if_neg hne] at hk
      rw [Function.update_of_ne hne] at hr'
      have hki : k ≠ i := fun heq => hopen.not_lookup hlayout id' (heq ▸ hk)
      split at hsome
      · exact h.rows mask hsome id' k r' params' hk hr' hparams' t ht
      · cases hsome
        rw [Function.update_of_ne hki]
        cases hold : b.allowedTokenIdsMaskCpuTensor with
        | none =>
          have hnil := h.unallocated hold id' k r' params' hk hr' hparams'
          simp [SamplingParams.masked, hnil]
        | some mask => exact h.rows mask hold id' k r' params' hk hr' hparams' t ht
  case unallocated =>
    intro hnone id' k r' params' hk hr' hparams'
    rw [hlookup] at hk
    rw [hmask, maskWith] at hnone
    split at hnone
    · next hnil =>
      obtain rfl | hne := eq_or_ne id' id
      · rw [Function.update_self] at hr'
        cases hr'
        cases hparams.symm.trans hparams'
        exact hnil
      · rw [if_neg hne] at hk
        rw [Function.update_of_ne hne] at hr'
        exact h.unallocated hnone id' k r' params' hk hr' hparams'
    · contradiction

omit [BatchUpdateBuilder β] [MultiGroupBlockTable τ] in
/-- A removal clears the row it leaves. -/
theorem Masked.dropped {requests : ReqId → Option FullRequestState} {builder : β}
    {ids : ℕ → Option (Finset ReqId)} {lora : ℕ → Option LoRARequest} (h : b.Masked requests)
    (hlayout : Layout b) (hid : b.reqIdToIndex.lookup id = some i) :
    (b.dropped id i builder ids lora).Masked (Function.update requests id none) := by
  have hmask : (b.dropped id i builder ids lora).allowedTokenIdsMaskCpuTensor =
      b.allowedTokenIdsMaskCpuTensor.map fun mask => Function.update mask i fun _ => false := rfl
  have hlookup : ∀ id' k, (b.dropped id i builder ids lora).reqIdToIndex.lookup id' = some k →
      id' ≠ id ∧ k ≠ i ∧ b.reqIdToIndex.lookup id' = some k := by
    intro id' k hk
    have heq := congrFun (Dict.lookup_erase_eq b.reqIdToIndex id) id'
    have hk' : (b.reqIdToIndex.erase id).lookup id' = some k := hk
    simp only [hk'] at heq
    obtain rfl | hne := eq_or_ne id' id
    · rw [Function.update_self] at heq
      contradiction
    · rw [Function.update_of_ne hne] at heq
      exact ⟨hne, fun hki => hne (hlayout.index.inj (heq ▸ hki ▸ rfl) hid), heq.symm⟩
  refine ⟨fun mask hsome id' k r params hk hr => ?_, fun hnone id' k r params hk hr => ?_⟩
  · obtain ⟨hne, hki, hk⟩ := hlookup id' k hk
    rw [Function.update_of_ne hne] at hr
    rw [hmask, Option.map_eq_some_iff] at hsome
    obtain ⟨old, hold, rfl⟩ := hsome
    rw [Function.update_of_ne hki]
    exact h.rows old hold id' k r params hk hr
  · obtain ⟨hne, hki, hk⟩ := hlookup id' k hk
    rw [Function.update_of_ne hne] at hr
    rw [hmask, Option.map_eq_none_iff] at hnone
    exact h.unallocated hnone id' k r params hk hr

/-- An exchange leaves both rows with the second one's mask. -/
theorem Masked.swapped {requests : ReqId → Option FullRequestState} {id' : ReqId}
    (h : b.Masked requests) (hlayout : Layout b) (hid : b.reqIdToIndex.lookup id = some i)
    (hid' : b.reqIdToIndex.lookup id' = some j)
    (hsame : ∀ mask ∈ b.allowedTokenIdsMaskCpuTensor, b.SameMask (mask i) (mask j)) :
    (b.swapped i j id id').Masked requests := by
  have hmask : (b.swapped i j id id').allowedTokenIdsMaskCpuTensor =
      b.allowedTokenIdsMaskCpuTensor.map fun mask => swapViews mask i j := rfl
  have hback : ∀ id'' k, (b.swapped i j id id').reqIdToIndex.lookup id'' = some k →
      b.reqIdToIndex.lookup id'' = some (Equiv.swap i j k) := by
    intro id'' k hk
    rw [lookup_swapped hlayout hid hid', Option.map_eq_some_iff] at hk
    obtain ⟨k', hk', rfl⟩ := hk
    rw [hk', Equiv.swap_apply_self]
  have hviews : ∀ mask ∈ b.allowedTokenIdsMaskCpuTensor, ∀ k,
      b.SameMask (swapViews mask i j k) (mask (Equiv.swap i j k)) := by
    intro mask hsome k t ht
    rw [swapViews_apply]
    obtain rfl | hki := eq_or_ne k i
    · rw [if_pos (Or.inl rfl), Equiv.swap_apply_left]
    · obtain rfl | hkj := eq_or_ne k j
      · rw [if_pos (Or.inr rfl), Equiv.swap_apply_right]
        exact (hsame mask hsome t ht).symm
      · rw [if_neg (by tauto), Equiv.swap_apply_of_ne_of_ne hki hkj]
  refine ⟨fun mask hsome id'' k r params hk hr hparams t ht => ?_,
    fun hnone id'' k r params hk hr => ?_⟩
  · rw [hmask, Option.map_eq_some_iff] at hsome
    obtain ⟨old, hold, rfl⟩ := hsome
    rw [hviews old hold k t ht]
    exact h.rows old hold id'' _ r params (hback id'' k hk) hr hparams t ht
  · rw [hmask, Option.map_eq_none_iff] at hnone
    exact h.unallocated hnone id'' _ r params (hback id'' k hk) hr

end InputBatch

namespace PersistentBatch

variable {β τ : Type} [BatchUpdateBuilder β] [MultiGroupBlockTable τ] {s s' : PersistentBatch β τ}
  {id : ReqId} {r : FullRequestState} {i j : ℕ}

/-- **Whose mask rows are its own**: all `False` for a request without allowed tokens, and otherwise
`True` exactly outside of them. -/
def MaskIsolated (s : PersistentBatch β τ) : Prop :=
  ∀ mask, s.batch.allowedTokenIdsMaskCpuTensor = some mask → ∀ id i r params,
    s.batch.reqIdToIndex.lookup id = some i → s.requests id = some r →
      r.samplingParams = some params → ∀ t < s.batch.vocabSize, mask i t = params.masked t

/-- **No mask row goes astray**: a request without allowed tokens gets a row that masks none, and
rows are exchanged only if they mask the same. -/
def KeepsMask (s : PersistentBatch β τ) : BatchOp → Prop
  | .addRequest _ r => ∀ params ∈ r.samplingParams, params.allowedTokenIds.getD [] = [] →
      ∀ mask ∈ s.batch.allowedTokenIdsMaskCpuTensor,
        s.batch.SameMask (mask s.batch.nextRow) fun _ => false
  | .swapStates i1 i2 => ∀ mask ∈ s.batch.allowedTokenIdsMaskCpuTensor,
      s.batch.SameMask (mask i1) (mask i2)
  | _ => True

instance (s : PersistentBatch β τ) : DecidablePred s.KeepsMask
  | .addRequest _ r => inferInstanceAs (Decidable (∀ params ∈ r.samplingParams, _ → ∀ mask ∈ _, _))
  | .swapStates _ _ => inferInstanceAs (Decidable (∀ mask ∈ s.batch.allowedTokenIdsMaskCpuTensor, _))
  | .removeRequest _ | .condense | .refreshMetadata | .write _ _ => isTrue trivial

/-- **One operation that keeps the masks.** -/
theorem masked_step {op : BatchOp} (h : s.Holds) (hmasked : s.batch.Masked s.requests)
    (hallowed : s.Allowed op) (hkeeps : s.KeepsMask op) (hstep : s.step op = .ok s') :
    s'.batch.Masked s'.requests := by
  cases op with
  | removeRequest id =>
    obtain ⟨hphase, hmem⟩ := hallowed
    simp only [step, bind_eq_ok] at hstep
    obtain ⟨batch, hremove, hstep⟩ := hstep
    cases hstep
    obtain ⟨i, hid⟩ := Option.isSome_iff_exists.mp (AList.lookup_isSome.mpr hmem)
    have hne : s.phase ≠ .condensed := by
      obtain hp | hp := hphase <;> rw [hp] <;> decide
    obtain ⟨builder, ids, lora, rfl, _⟩ :=
      InputBatch.removeRequest_eq_ok h.layout (h.tracked hne) (h.unread hphase) hid hremove
    exact hmasked.dropped h.layout hid
  | addRequest id r =>
    obtain ⟨hphase, hnot, _⟩ := hallowed
    simp only [step, bind_eq_ok] at hstep
    obtain ⟨batch, hadd, hstep⟩ := hstep
    cases hstep
    obtain ⟨params, i, builder, hparams, rfl, hopen, _, _, rfl, _⟩ :=
      InputBatch.addRequest_eq_ok h.layout (h.tracked hphase) hadd
    exact hmasked.added h.layout hopen (AList.lookup_eq_none.mpr hnot) hparams
      (hkeeps params hparams)
  | condense =>
    simp only [step, bind_eq_ok] at hstep
    obtain ⟨batch, hcondense, hstep⟩ := hstep
    cases hstep
    obtain ⟨batch', hcondense', hcondensed⟩ := InputBatch.condense_returns h.layout
      (h.tracked hallowed) (InputBatch.moves_masked s.requests) hmasked
    cases hcondense.symm.trans hcondense'
    exact hcondensed.keeps
  | refreshMetadata =>
    simp only [step, bind_eq_ok] at hstep
    obtain ⟨batch, hrefresh, hstep⟩ := hstep
    cases hstep
    obtain ⟨builder, t, p, k, f, pr, rp, mask, md, rfl, _⟩ :=
      InputBatch.refreshMetadata_eq_ok h.layout hrefresh
    exact ⟨hmasked.rows, hmasked.unallocated⟩
  | swapStates i j =>
    simp only [step, bind_eq_ok] at hstep
    obtain ⟨batch, hswap, hstep⟩ := hstep
    cases hstep
    obtain ⟨id, id', hid, hid', rfl⟩ := InputBatch.swapStates_eq_ok h.layout hswap
    exact hmasked.swapped h.layout hid hid' hkeeps
  | write id w =>
    simp only [step] at hstep
    split at hstep
    · contradiction
    · cases hstep
      cases w <;> exact ⟨hmasked.rows, hmasked.unallocated⟩

/-- **Where no mask row goes astray, every request has its own mask.** -/
theorem mask_isolated {s₀ : PersistentBatch β τ} (hinit : s₀.Initial)
    (run : Run PersistentBatch.step (fun s op => s.Allowed op ∧ s.KeepsMask op) s₀ s) :
    s.MaskIsolated := by
  have h : s.Holds ∧ s.batch.Masked s.requests := by
    refine run.invariant (I := fun s => s.Holds ∧ s.batch.Masked s.requests) ?_
      ⟨.initial hinit, ?_, ?_⟩
    · rintro s op s' ⟨hholds, hmasked⟩ ⟨hallowed, hkeeps⟩ hstep
      exact ⟨hholds.step hallowed hstep, masked_step hholds hmasked hallowed hkeeps hstep⟩
    · intro mask hsome
      simp [hinit.batch.mask] at hsome
    · intro _ id i r params _ hr
      simp [hinit.requests id] at hr
  exact h.2.rows

/-- `SamplingParams(temperature=0, allowed_token_ids=…)`. -/
def restricted (allowedTokenIds : List Token) : SamplingParams :=
  { SamplingParams.greedy with allowedTokenIds := some allowedTokenIds }

/-- A restricted request leaves, and another one comes into its row. -/
theorem mask_isolated_small : ∃ s,
    feed PersistentBatch.step (start .small)
      [.addRequest "a" (.of [1, 2] [] .greedy none),
        .addRequest "b" (.of [3] [4] (restricted [1]) none), .condense, .refreshMetadata,
        .removeRequest "b", .addRequest "c" (.of [5] [] .greedy none), .condense] = .ok s ∧
    s.MaskIsolated := by
  obtain ⟨s, hs⟩ := exists_of_isOk (x := feed PersistentBatch.step (start .small)
    [.addRequest "a" (.of [1, 2] [] .greedy none),
      .addRequest "b" (.of [3] [4] (restricted [1]) none), .condense, .refreshMetadata,
      .removeRequest "b", .addRequest "c" (.of [5] [] .greedy none), .condense])
    (by decide +kernel)
  exact ⟨s, hs, mask_isolated (start_initial rfl) (Run.of_feed hs (by decide +kernel))⟩

/-- **A request without restrictions is left with the mask of another one**: the restricted request
moves down a row, and the next one comes into the row it has left. -/
theorem mask_left_behind : ∃ s,
    Run PersistentBatch.step PersistentBatch.Allowed (start .small) s ∧ s.phase = .condensed ∧
      ¬s.MaskIsolated := by
  obtain ⟨s, hs, hphase, hvocab, hlookup, hrequest, hmask⟩ : Returns (feed PersistentBatch.step
      (start .small)
      [.addRequest "a" (.of [1, 2] [] .greedy none),
        .addRequest "b" (.of [3] [4] (restricted [1]) none), .condense, .refreshMetadata,
        .removeRequest "a", .condense, .refreshMetadata,
        .addRequest "c" (.of [5] [] .greedy none), .condense])
      fun s => s.phase = .condensed ∧ s.batch.vocabSize = 8 ∧
        s.batch.reqIdToIndex.lookup "c" = some 1 ∧
        s.requests "c" = some (.of [5] [] .greedy none) ∧
        s.batch.allowedTokenIdsMaskCpuTensor.map (fun mask => mask 1 2) = some true := by
    decide +kernel
  refine ⟨s, Run.of_feed hs (by decide +kernel), hphase, fun h => ?_⟩
  obtain ⟨mask, hsome, htrue⟩ := Option.map_eq_some_iff.mp hmask
  have hfalse := h mask hsome "c" 1 _ .greedy hlookup hrequest rfl 2 (by rw [hvocab]; decide)
  rw [htrue] at hfalse
  exact absurd hfalse (by decide)

end PersistentBatch

end VllmAscend
