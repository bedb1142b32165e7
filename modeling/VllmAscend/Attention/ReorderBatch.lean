import VllmAscend.Worker.BatchSteps

/-!
# Attention/ReorderBatch — the MLA builder brings the decodes to the front

    P D P D D   ──▸   D D P D P ⋯   ──▸   D D D P P
    decodes = [1, 3, 4], prefills = [0, 2]:   0 ↔ 4,  2 ↔ 3

A row with one scheduled token is a decode, any other a prefill.  Decodes behind the last place a
decode is to have are exchanged with the prefills closest to the front, the last decode first.
-/

namespace VllmAscend

open Machinery

/-- The rows with one scheduled token. -/
def decodes (numTokens : List ℤ) : List ℕ :=
  (List.range numTokens.length).filter fun i => numTokens[i]? = some 1

/-- The rows with any other number of them. -/
def prefills (numTokens : List ℤ) : List ℕ :=
  (List.range numTokens.length).filter fun i => numTokens[i]? ≠ some 1

/-- The rows that are exchanged, in this order: the prefills in ascending and the decodes in
descending order, up to the first decode that is where it should be. -/
def exchanges (numTokens : List ℤ) : List (ℕ × ℕ) :=
  ((prefills numTokens).zip (decodes numTokens).reverse).takeWhile fun p =>
    (decodes numTokens).length ≤ p.2

/-! ## Exchanging pairs of rows -/

section Exchange

variable {ps : List (ℕ × ℕ)} {p : ℕ × ℕ} {k : ℕ}

/-- Where a row goes when pairs of rows are exchanged, one after the other. -/
def exchange : List (ℕ × ℕ) → Equiv.Perm ℕ
  | [] => 1
  | p :: ps => exchange ps * Equiv.swap p.1 p.2

/-- A row that is in no pair stays. -/
theorem exchange_of_notMem : ∀ {ps : List (ℕ × ℕ)}, k ∉ ps.map Prod.fst → k ∉ ps.map Prod.snd →
    exchange ps k = k
  | [], _, _ => rfl
  | p :: ps, hfst, hsnd => by
    rw [List.map_cons, List.mem_cons, not_or] at hfst hsnd
    rw [exchange, Equiv.Perm.mul_apply, Equiv.swap_apply_of_ne_of_ne hfst.1 hsnd.1]
    exact exchange_of_notMem hfst.2 hsnd.2

/-- **Disjoint pairs are exchanged each as if there were no other.** -/
theorem exchange_of_mem : ∀ {ps : List (ℕ × ℕ)}, (ps.map Prod.fst ++ ps.map Prod.snd).Nodup →
    p ∈ ps → exchange ps p.1 = p.2 ∧ exchange ps p.2 = p.1
  | q :: ps, hnodup, hp => by
    simp only [List.map_cons, List.cons_append, List.nodup_cons, List.mem_append, List.mem_cons,
      not_or, List.nodup_append] at hnodup
    obtain ⟨⟨hq₁, hne, hq₁'⟩, ⟨hfst, ⟨hq₂', hsnd⟩, hdisjoint⟩⟩ := hnodup
    have hq₂ : q.2 ∉ ps.map Prod.fst := fun hmem => hdisjoint q.2 hmem q.2 (Or.inl rfl) rfl
    obtain rfl | hp := List.mem_cons.mp hp
    · simp only [exchange, Equiv.Perm.mul_apply, Equiv.swap_apply_left, Equiv.swap_apply_right]
      exact ⟨exchange_of_notMem hq₂ hq₂', exchange_of_notMem hq₁ hq₁'⟩
    · have hrest : (ps.map Prod.fst ++ ps.map Prod.snd).Nodup :=
        List.nodup_append.mpr ⟨hfst, hsnd, fun a ha b hb => hdisjoint a ha b (Or.inr hb)⟩
      obtain ⟨h₁, h₂⟩ := exchange_of_mem hrest hp
      have hp₁ := List.mem_map_of_mem (f := Prod.fst) hp
      have hp₂ := List.mem_map_of_mem (f := Prod.snd) hp
      rw [exchange, Equiv.Perm.mul_apply, Equiv.Perm.mul_apply,
        Equiv.swap_apply_of_ne_of_ne (ne_of_mem_of_not_mem hp₁ hq₁) (ne_of_mem_of_not_mem hp₁ hq₂),
        Equiv.swap_apply_of_ne_of_ne (ne_of_mem_of_not_mem hp₂ hq₁') (ne_of_mem_of_not_mem hp₂ hq₂')]
      exact ⟨h₁, h₂⟩

end Exchange

section Pairs

variable {numTokens : List ℤ} {p : ℕ × ℕ}

theorem mem_decodes {i : ℕ} : i ∈ decodes numTokens ↔ numTokens[i]? = some 1 := by
  rw [decodes, List.mem_filter, List.mem_range, decide_eq_true_eq, and_iff_right_iff_imp]
  exact fun h => (List.getElem?_eq_some_iff.mp h).1

theorem mem_prefills {i : ℕ} :
    i ∈ prefills numTokens ↔ i < numTokens.length ∧ numTokens[i]? ≠ some 1 := by
  rw [prefills, List.mem_filter, List.mem_range, decide_eq_true_eq]

/-- A prefill is exchanged with a decode. -/
theorem mem_of_mem_exchanges (hp : p ∈ exchanges numTokens) :
    p.1 ∈ prefills numTokens ∧ p.2 ∈ decodes numTokens := by
  have hzip : p ∈ (prefills numTokens).zip (decodes numTokens).reverse :=
    (List.takeWhile_prefix _).sublist.subset hp
  obtain ⟨h₁, h₂⟩ := List.of_mem_zip hzip
  exact ⟨h₁, List.mem_reverse.mp h₂⟩

/-- The components of what is zipped. -/
theorem zip_map_fst_sublist (l l' : List ℕ) : ((l.zip l').map Prod.fst).Sublist l := by
  rw [List.zip_eq_zip_take_min, List.map_fst_zip (by simp)]
  exact List.take_sublist _ _

theorem zip_map_snd_sublist (l l' : List ℕ) : ((l.zip l').map Prod.snd).Sublist l' := by
  rw [List.zip_eq_zip_take_min, List.map_snd_zip (by simp)]
  exact List.take_sublist _ _

/-- **No row is in two pairs.** -/
theorem nodup_exchanges (numTokens : List ℤ) :
    ((exchanges numTokens).map Prod.fst ++ (exchanges numTokens).map Prod.snd).Nodup := by
  have hfst : ((exchanges numTokens).map Prod.fst).Nodup := by
    refine List.Nodup.sublist ?_ (List.nodup_range.filter _ : (prefills numTokens).Nodup)
    exact ((List.takeWhile_prefix _).sublist.map _).trans (zip_map_fst_sublist _ _)
  have hsnd : ((exchanges numTokens).map Prod.snd).Nodup := by
    refine List.Nodup.sublist ?_
      (List.nodup_reverse.mpr (List.nodup_range.filter _ : (decodes numTokens).Nodup))
    exact ((List.takeWhile_prefix _).sublist.map _).trans (zip_map_snd_sublist _ _)
  refine List.nodup_append.mpr ⟨hfst, hsnd, ?_⟩
  rintro i hi j hj rfl
  obtain ⟨p, hp, rfl⟩ := List.mem_map.mp hi
  obtain ⟨q, hq, heq⟩ := List.mem_map.mp hj
  have hprefill := (mem_prefills.mp (mem_of_mem_exchanges hp).1).2
  have hdecode := mem_decodes.mp (mem_of_mem_exchanges hq).2
  exact hprefill (heq ▸ hdecode)

end Pairs

namespace InputBatch

variable {β τ : Type}

/-- `num_scheduled_tokens[req_id]`, for each row. -/
def scheduledTokens (self : InputBatch β τ) (numScheduledTokens : Dict ℤ) :
    Except BatchFault (List ℤ) :=
  self.reqIds.mapM fun reqId =>
    match reqId.bind numScheduledTokens.lookup with
    | none => .error .keyError
    | some numTokens => .ok numTokens

/-- `AscendMLAMetadataBuilder.reorder_batch`: the batch afterwards, and `modified_batch`. -/
def reorderBatch [BatchUpdateBuilder β] [MultiGroupBlockTable τ] (self : InputBatch β τ)
    (numScheduledTokens : Dict ℤ) : Except BatchFault (InputBatch β τ × Bool) := do
  let numTokens ← self.scheduledTokens numScheduledTokens
  let self ← (exchanges numTokens).foldlM (fun self p => self.swapStates p.1 p.2) self
  return (self, exchanges numTokens ≠ [])

/-! ## What becomes of the rows -/

section Reorder

variable [BatchUpdateBuilder β] [MultiGroupBlockTable τ] {b b' : InputBatch β τ}
  {requests : ReqId → Option FullRequestState} {i j : ℕ}

/-- A batch whose rows are exchanged. -/
structure Exchanged (b b' : InputBatch β τ) (requests : ReqId → Option FullRequestState)
    (σ : Equiv.Perm ℕ) : Prop where
  sound : b'.Sound .between requests
  seen : b'.seen = b.seen
  lookup : ∀ id, b'.reqIdToIndex.lookup id = (b.reqIdToIndex.lookup id).map σ
  samplingMetadata : b'.samplingMetadata = b.samplingMetadata
  config : b'.toBatchConfig = b.toBatchConfig

/-- Between two steps every row is taken. -/
theorem Sound.exists_reqId (h : b.Sound .between requests) (hi : i < b.reqIds.length) :
    ∃ id, b.reqIds[i]? = some (some id) := by
  refine Indexes.exists_of_notMem_holes hi ?_
  have hnone : holes b.reqIds = ∅ := h.holds.noHoles (Or.inr rfl)
  rw [hnone]
  exact Finset.notMem_empty i

theorem Sound.length_reqIds (h : b.Sound .between requests) : b.reqIds.length = b.numReqs := by
  have hnone : holes b.reqIds = ∅ := h.holds.noHoles (Or.inr rfl)
  rw [← h.layout.numReqs_add, hnone, Finset.card_empty, add_zero]

/-- **Any two rows can be exchanged.** -/
theorem Sound.swapStates_returns (h : b.Sound .between requests) (hi : i < b.reqIds.length)
    (hj : j < b.reqIds.length) : ∃ b', b.swapStates i j = .ok b' ∧
      b'.reqIds.length = b.reqIds.length ∧ b.Exchanged b' requests (Equiv.swap i j) := by
  obtain ⟨id, hid⟩ := h.exists_reqId hi
  obtain ⟨id', hid'⟩ := h.exists_reqId hj
  have hok : b.swapStates i j = .ok (b.swapped i j id id') := by
    simp only [InputBatch.swapStates, hid, hid']
  obtain ⟨hsound, hseen⟩ := h.swapStates hok
  refine ⟨_, hok, ?_, hsound, hseen, lookup_swapped h.layout (index_of_reqIds h.layout hid)
    (index_of_reqIds h.layout hid'), rfl, rfl⟩
  have hreqIds : (b.swapped i j id id').reqIds = (b.reqIds.set i (some id')).set j (some id) := by
    simp only [InputBatch.swapped, swapItems, hid, hid']
  rw [hreqIds, List.length_set, List.length_set]

/-- **…and so can any number of pairs.** -/
theorem Sound.exchangeAll : ∀ {ps : List (ℕ × ℕ)} {b : InputBatch β τ}, b.Sound .between requests →
    (∀ p ∈ ps, p.1 < b.reqIds.length ∧ p.2 < b.reqIds.length) →
      ∃ b', ps.foldlM (fun b p => b.swapStates p.1 p.2) b = .ok b' ∧
        b.Exchanged b' requests (exchange ps)
  | [], b, h, _ => ⟨b, rfl, h, rfl, fun id => by simp [exchange], rfl, rfl⟩
  | p :: ps, b, h, hlt => by
    obtain ⟨b₁, hok, hlength, hswapped⟩ :=
      h.swapStates_returns (hlt p (.head _)).1 (hlt p (.head _)).2
    obtain ⟨b', hrest, hexchanged⟩ := hswapped.sound.exchangeAll fun q hq => by
      rw [hlength]
      exact hlt q (.tail _ hq)
    refine ⟨b', ?_, hexchanged.sound, hexchanged.seen.trans hswapped.seen, fun id => ?_,
      hexchanged.samplingMetadata.trans hswapped.samplingMetadata,
      hexchanged.config.trans hswapped.config⟩
    · rw [List.foldlM_cons, hok]
      exact hrest
    · rw [hexchanged.lookup, hswapped.lookup, Option.map_map]
      rfl

/-- **A reordered batch holds what it held.** -/
theorem Sound.reorderBatch {numScheduledTokens : Dict ℤ} {modified : Bool}
    (h : b.Sound .between requests) (hok : b.reorderBatch numScheduledTokens = .ok (b', modified)) :
    b'.Sound .between requests ∧ b'.seen = b.seen := by
  have hfold : ∀ {ps : List (ℕ × ℕ)} {b : InputBatch β τ}, b.Sound .between requests →
      ps.foldlM (fun b p => b.swapStates p.1 p.2) b = .ok b' →
        b'.Sound .between requests ∧ b'.seen = b.seen := by
    intro ps
    induction ps with
    | nil =>
      intro b h hok
      cases hok
      exact ⟨h, rfl⟩
    | cons p ps ih =>
      intro b h hok
      rw [List.foldlM_cons, bind_eq_ok] at hok
      obtain ⟨b₁, hswap, hok⟩ := hok
      obtain ⟨h₁, hseen₁⟩ := h.swapStates hswap
      obtain ⟨h', hseen'⟩ := ih h₁ hok
      exact ⟨h', hseen'.trans hseen₁⟩
  unfold InputBatch.reorderBatch at hok
  simp only [bind_eq_ok] at hok
  obtain ⟨numTokens, _, b₁, hswaps, hok⟩ := hok
  cases hok
  exact hfold h hswaps

/-- **The batch can be reordered when every request in it is scheduled.** -/
theorem Sound.reorderBatch_returns {numScheduledTokens : Dict ℤ} (h : b.Sound .between requests)
    (hscheduled : ∀ id ∈ b.reqIdToIndex, id ∈ numScheduledTokens) :
    ∃ numTokens b' modified, b.scheduledTokens numScheduledTokens = .ok numTokens ∧
      numTokens.length = b.reqIds.length ∧
      b.reorderBatch numScheduledTokens = .ok (b', modified) ∧
      b.Exchanged b' requests (exchange (exchanges numTokens)) := by
  have hrows : ∀ l : List (Option ReqId), (∀ x ∈ l, ∃ id, x = some id ∧ id ∈ numScheduledTokens) →
      ∃ numTokens, l.mapM (fun reqId => match reqId.bind numScheduledTokens.lookup with
        | none => (.error .keyError : Except BatchFault ℤ)
        | some numTokens => .ok numTokens) = .ok numTokens ∧ numTokens.length = l.length := by
    intro l
    induction l with
    | nil => exact fun _ => ⟨[], rfl, rfl⟩
    | cons x l ih =>
      intro hl
      obtain ⟨id, rfl, hid⟩ := hl x (.head _)
      obtain ⟨n, hn⟩ := Option.isSome_iff_exists.mp (AList.lookup_isSome.mpr hid)
      obtain ⟨ns, hns, hlength⟩ := ih fun y hy => hl y (.tail _ hy)
      refine ⟨n :: ns, ?_, congrArg (· + 1) hlength⟩
      rw [List.mapM_cons, hns, Option.bind_some, hn]
      rfl
  obtain ⟨numTokens, hnum, hlength⟩ := hrows b.reqIds fun x hx => by
    obtain ⟨i, hi⟩ := List.mem_iff_getElem?.mp hx
    obtain ⟨id, hid⟩ := h.exists_reqId (List.getElem?_eq_some_iff.mp hi).1
    have hlookup := index_of_reqIds h.layout hid
    exact ⟨id, Option.some.inj (hi.symm.trans hid),
      hscheduled id (AList.lookup_isSome.mp (by rw [hlookup]; rfl))⟩
  have hrows : ∀ p ∈ exchanges numTokens, p.1 < b.reqIds.length ∧ p.2 < b.reqIds.length := by
    intro p hp
    obtain ⟨h₁, h₂⟩ := mem_of_mem_exchanges hp
    rw [← hlength]
    exact ⟨(mem_prefills.mp h₁).1, (List.getElem?_eq_some_iff.mp (mem_decodes.mp h₂)).1⟩
  obtain ⟨b', hfold, hexchanged⟩ := h.exchangeAll hrows
  have hscheduledTokens : b.scheduledTokens numScheduledTokens = .ok numTokens := hnum
  refine ⟨numTokens, b', exchanges numTokens ≠ [], hscheduledTokens, hlength, ?_, hexchanged⟩
  simp only [InputBatch.reorderBatch, hscheduledTokens, bind, Except.bind, hfold]
  rfl

end Reorder

end InputBatch

end VllmAscend
