import VllmAscend.Worker.PoolingBatch

/-!
# Worker/PoolingRuns — the batch of a pooling model keeps its rows only if it loses its last ones

    remove_request*   rows become None      a a – a –
    add_request*      row num_reqs on       a a – b –      and the a there was, is gone
    condense          cut after num_reqs

For an autoregressive model the free rows are collected and filled; for a pooling model the rows "will be
contiguous".  `pooling_run_iff`: they are in every step of a run exactly when each step removes the last rows.
-/

namespace VllmAscend

open Machinery BatchUpdateBuilder

/-- What the model runner does to the batch in a step. -/
structure PoolingStep where
  removed : List ReqId
  writes : List (ReqId × RowWrite)
  added : List (ReqId × FullRequestState × PoolingParams)

namespace InputBatch

variable {β τ : Type} [BatchUpdateBuilder β] [MultiGroupBlockTable τ]

/-- A write for a request that is in the batch. -/
def writeFor (self : InputBatch β τ) (write : ReqId × RowWrite) : Except BatchFault (InputBatch β τ) :=
  match self.reqIdToIndex.lookup write.1 with
  | none => .error .keyError
  | some i => .ok (self.write i write.2)

/-- A step of the model runner on the batch, as `_update_states` takes it. -/
def poolingStep (self : InputBatch β τ) (step : PoolingStep) : Except BatchFault (InputBatch β τ) := do
  let self ← step.removed.foldlM removeRequest self
  let self ← step.writes.foldlM writeFor self
  let self ← step.added.foldlM (fun (self : InputBatch β τ) (entry : ReqId × FullRequestState × PoolingParams) =>
    self.addRequest entry.1 entry.2.1) self
  let self ← self.condense
  self.refreshMetadata

end InputBatch

/-! ## What a step is to do -/

/-- A write, in the row of its request. -/
def writeRow (rows : List PooledRequest) (write : ReqId × RowWrite) : List PooledRequest :=
  rows.map fun e => if e.reqId = write.1 then { e with data := e.data.write write.2 } else e

/-- **The requests after a step**: those that were not removed, as they were written, and the new ones. -/
def PoolingStep.apply (step : PoolingStep) (rows : List PooledRequest) : List PooledRequest :=
  step.writes.foldl writeRow (rows.filter fun e => e.reqId ∉ step.removed) ++
    step.added.map fun entry => .new entry.1 entry.2.1 entry.2.2

/-- Writes leave the requests where they are. -/
theorem map_reqId_foldl : ∀ (writes : List (ReqId × RowWrite)) (rows : List PooledRequest),
    (writes.foldl writeRow rows).map PooledRequest.reqId = rows.map PooledRequest.reqId
  | [], _ => rfl
  | write :: writes, rows => by
    rw [List.foldl_cons, map_reqId_foldl writes, writeRow, List.map_map]
    refine List.map_congr_left fun e _ => ?_
    rw [Function.comp_apply]
    split <;> rfl

/-- Each write is for a request of the batch, fits its row, and leaves the prompt in it. -/
def WritesFit : List PooledRequest → List (ReqId × RowWrite) → Prop
  | _, [] => True
  | rows, write :: writes =>
    (∃ e ∈ rows, e.reqId = write.1 ∧ write.2.Fits e.data ∧
      e.data.numPromptTokens ≤ (e.data.write write.2).numTokens) ∧ WritesFit (writeRow rows write) writes

/-- What the model runner may do in a step: it removes requests of the batch, writes for others, and adds
pooling requests that are not in it. -/
structure PoolingStep.Allowed (step : PoolingStep) (rows : List PooledRequest) : Prop where
  removed : ∀ id ∈ step.removed, id ∈ rows.map PooledRequest.reqId
  removed_nodup : step.removed.Nodup
  writes : WritesFit (rows.filter fun e => e.reqId ∉ step.removed) step.writes
  added : ∀ entry ∈ step.added, entry.1 ∉ (rows.filter fun e => e.reqId ∉ step.removed).map PooledRequest.reqId
  added_nodup : (step.added.map (·.1)).Nodup
  pooled : ∀ entry ∈ step.added, entry.2.1.samplingParams = none ∧ entry.2.1.poolingParams = some entry.2.2
  lora : ∀ entry ∈ step.added, ∀ lora ∈ entry.2.1.loraRequest, 0 < lora.loraIntId

/-- A step removes the last rows: behind a row that goes, all go. -/
def PoolingStep.RemovesLast (step : PoolingStep) (rows : List PooledRequest) : Prop :=
  rows.Pairwise fun e e' => e.reqId ∈ step.removed → e'.reqId ∈ step.removed

namespace InputBatch

variable {β τ : Type} {b b' : InputBatch β τ} {slots : List (Option PooledRequest)} {e : PooledRequest} {i : ℕ}

namespace Pools

variable [MultiGroupBlockTable τ]

/-! ## Steps that remove the last rows -/

/-- The slots without the requests of a list. -/
def blank (ids : List ReqId) (slots : List (Option PooledRequest)) : List (Option PooledRequest) :=
  slots.map (Option.filter fun e => e.reqId ∉ ids)

omit [MultiGroupBlockTable τ] in
theorem blank_cons (id : ReqId) (ids : List ReqId) : blank (id :: ids) slots = blank ids (blank [id] slots) := by
  rw [blank, blank, blank, List.map_map]
  refine List.map_congr_left fun x _ => ?_
  cases x with
  | none => rfl
  | some e => by_cases h : e.reqId = id <;> simp [Option.filter, h]

theorem set_none_eq_blank (h : b.Pools slots) (he : slots[i]? = some (some e)) :
    slots.set i none = blank [e.reqId] slots := by
  refine List.ext_getElem? fun j => ?_
  rw [blank, List.getElem?_map, List.getElem?_set]
  split
  · next heq =>
    subst heq
    rw [if_pos (List.getElem?_eq_some_iff.mp he).1, he]
    simp [Option.filter]
  · next hne =>
    rcases hj : slots[j]? with _ | _ | e'
    · rfl
    · rfl
    · have hid : e'.reqId ≠ e.reqId := fun heq => hne (h.eq_of_reqId he hj heq.symm)
      simp [Option.filter, hid]

/-- **Requests of the batch can be removed**, each leaving its slot. -/
theorem removeAll [BatchUpdateBuilder β] : ∀ {ids : List ReqId} {b : InputBatch β τ} {slots : List (Option PooledRequest)},
    b.Pools slots → ids.Nodup → (∀ id ∈ ids, id ∈ b.reqIdToIndex) →
      ∃ b', ids.foldlM InputBatch.removeRequest b = .ok b' ∧ b'.Pools (blank ids slots)
  | [], b, slots, h, _, _ => by
    refine ⟨b, rfl, ?_⟩
    have hblank : blank [] slots = slots := by
      rw [blank]
      refine (List.map_congr_left fun x _ => ?_).trans (List.map_id slots)
      cases x <;> rfl
    rwa [hblank]
  | id :: ids, b, slots, h, hnodup, hmem => by
    obtain ⟨hid, hnodup'⟩ := List.nodup_cons.mp hnodup
    obtain ⟨i, hi⟩ := Option.isSome_iff_exists.mp (AList.lookup_isSome.mpr (hmem id List.mem_cons_self))
    obtain ⟨e, he, rfl⟩ := h.exists_of_lookup hi
    obtain ⟨b₁, hremove, hpools⟩ := h.removeRequest he
    rw [h.set_none_eq_blank he] at hpools
    have hmem₁ : ∀ id' ∈ ids, id' ∈ b₁.reqIdToIndex := by
      intro id' hid'
      obtain ⟨j, hj⟩ := Option.isSome_iff_exists.mp (AList.lookup_isSome.mpr (hmem id' (List.mem_cons_of_mem _ hid')))
      obtain ⟨e', he', rfl⟩ := h.exists_of_lookup hj
      have hne : e'.reqId ≠ e.reqId := fun heq => hid (heq ▸ hid')
      refine AList.lookup_isSome.mp (Option.isSome_iff_exists.mpr ⟨j, hpools.lookup_of ?_⟩)
      rw [blank, List.getElem?_map, he']
      simp [Option.filter, hne]
    obtain ⟨b', hrest, hpools'⟩ := removeAll hpools hnodup' hmem₁
    refine ⟨b', ?_, blank_cons e.reqId ids ▸ hpools'⟩
    rw [List.foldlM_cons, hremove]
    exact hrest

omit [MultiGroupBlockTable τ] in
/-- **What is left when the last rows go.** -/
theorem blank_eq {removed : List ReqId} : ∀ {rows : List PooledRequest},
    (rows.Pairwise fun e e' => e.reqId ∈ removed → e'.reqId ∈ removed) →
      ∃ free, blank removed (rows.map some) =
        (rows.filter fun e => e.reqId ∉ removed).map some ++ List.replicate free none
  | [], _ => ⟨0, rfl⟩
  | e :: rows, h => by
    obtain ⟨hbehind, hrest⟩ := List.pairwise_cons.mp h
    obtain ⟨free, hfree⟩ := blank_eq hrest
    by_cases he : e.reqId ∈ removed
    · refine ⟨(e :: rows).length, ?_⟩
      have hall : ∀ e' ∈ e :: rows, e'.reqId ∈ removed := by
        intro e' he'
        rcases List.mem_cons.mp he' with rfl | he'
        · exact he
        · exact hbehind e' he' he
      have hnil : ((e :: rows).filter fun e => e.reqId ∉ removed) = [] :=
        List.filter_eq_nil_iff.mpr fun e' he' => by simpa using hall e' he'
      rw [hnil, List.map_nil, List.nil_append, blank, List.map_map, List.eq_replicate_iff]
      refine ⟨List.length_map _, fun x hx => ?_⟩
      obtain ⟨e', he', rfl⟩ := List.mem_map.mp hx
      simp [Option.filter, hall e' he']
    · refine ⟨free, ?_⟩
      rw [List.filter_cons_of_pos (by simpa using he), List.map_cons, List.map_cons, List.cons_append, ← hfree]
      simp [blank, Option.filter, he]

namespace Filled

variable {rows : List PooledRequest} {free : ℕ}

/-- **Writes of the model runner.** -/
theorem writeAll : ∀ {writes : List (ReqId × RowWrite)} {b : InputBatch β τ} {rows : List PooledRequest},
    Filled b rows free → WritesFit rows writes →
      ∃ b', writes.foldlM writeFor b = .ok b' ∧ Filled b' (writes.foldl writeRow rows) free
  | [], b, _, h, _ => ⟨b, rfl, h⟩
  | (id, w) :: writes, b, rows, h, hfit => by
    obtain ⟨⟨e, he, hid, hfits, hprompt⟩, hrest⟩ := hfit
    obtain ⟨i, hi⟩ := List.getElem?_of_mem he
    obtain rfl : e.reqId = id := hid
    have hslot : (rows.map some ++ List.replicate free none)[i]? = some (some e) := getElem?_filled.mpr hi
    have hwritten := Pools.write h hslot hfits hprompt
    have hlt : i < rows.length := (List.getElem?_eq_some_iff.mp hi).1
    have hrows : writeRow rows (e.reqId, w) = rows.set i { e with data := e.data.write w } := by
      refine List.ext_getElem? fun j => ?_
      rw [writeRow, List.getElem?_map, List.getElem?_set]
      split
      · next heq =>
        subst heq
        rw [hi, Option.map_some, if_pos rfl]
      · next hne =>
        cases hj : rows[j]? with
        | none => rfl
        | some e' =>
          have hid : e'.reqId ≠ e.reqId := fun heq =>
            hne (Pools.eq_of_reqId h hslot (getElem?_filled.mpr hj) heq.symm)
          rw [Option.map_some, if_neg hid]
    have hfilled : Filled (b.write i w) (writeRow rows (e.reqId, w)) free := by
      rw [Filled, hrows, List.map_set, ← List.set_append_left _ _ (by rwa [List.length_map])]
      exact hwritten
    obtain ⟨b', hfold, hfilled'⟩ := writeAll hfilled hrest
    refine ⟨b', ?_, hfilled'⟩
    have hwrite : b.writeFor (e.reqId, w) = .ok (b.write i w) := by
      rw [writeFor, Pools.lookup_of h hslot]
    rw [List.foldlM_cons, hwrite]
    exact hfold

/-- **New requests**, one behind the other. -/
theorem addAll [BatchUpdateBuilder β] : ∀ {added : List (ReqId × FullRequestState × PoolingParams)}
    {b : InputBatch β τ} {rows : List PooledRequest} {free : ℕ}, Filled b rows free →
      (∀ entry ∈ added, entry.1 ∉ rows.map PooledRequest.reqId) → (added.map (·.1)).Nodup →
      (∀ entry ∈ added, entry.2.1.samplingParams = none ∧ entry.2.1.poolingParams = some entry.2.2) →
      (∀ entry ∈ added, ∀ lora ∈ entry.2.1.loraRequest, 0 < lora.loraIntId) →
      ∃ b' free', added.foldlM (fun (b : InputBatch β τ) (entry : ReqId × FullRequestState × PoolingParams) =>
          b.addRequest entry.1 entry.2.1) b = .ok b' ∧
        Filled b' (rows ++ added.map fun entry => .new entry.1 entry.2.1 entry.2.2) free'
  | [], b, rows, free, h, _, _, _, _ => ⟨b, free, rfl, by rwa [List.map_nil, List.append_nil]⟩
  | (id, r, params) :: added, b, rows, free, h, hnew, hnodup, hpooled, hlora => by
    rw [List.map_cons, List.nodup_cons] at hnodup
    rw [List.forall_mem_cons] at hnew hpooled hlora
    obtain ⟨b₁, hadd, hfilled⟩ := h.addRequest hnew.1 hpooled.1.1 hpooled.1.2 hlora.1
    have hnew₁ : ∀ entry ∈ added, entry.1 ∉ (rows ++ [PooledRequest.new id r params]).map PooledRequest.reqId := by
      intro entry hentry hmem
      rw [List.map_append, List.mem_append] at hmem
      rcases hmem with hmem | hmem
      · exact hnew.2 entry hentry hmem
      · obtain heq := List.mem_singleton.mp hmem
        exact hnodup.1 (List.mem_map.mpr ⟨entry, hentry, heq⟩)
    obtain ⟨b', free', hfold, hfilled'⟩ := addAll hfilled hnew₁ hnodup.2 hpooled.2 hlora.2
    refine ⟨b', free', ?_, ?_⟩
    · rw [List.foldlM_cons, hadd]
      exact hfold
    · rwa [List.append_assoc] at hfilled'

end Filled

end Pools

end InputBatch

/-! ## Runs -/

namespace InputBatch

variable {β τ : Type} [BatchUpdateBuilder β] [MultiGroupBlockTable τ] {b b' : InputBatch β τ}
  {rows : List PooledRequest} {step : PoolingStep}

/-- **The batch represents a list of requests**: they are its rows in their order, the index is the inverse of it,
each row holds the request's own data, and the pooler is given the metadata of the requests. -/
structure RepresentsPooled (b : InputBatch β τ) (rows : List PooledRequest) : Prop where
  reqIds : b.reqIds = rows.map fun e => some e.reqId
  numReqs : b.numReqs = rows.length
  index : ∀ (id : ReqId) (i : ℕ), b.reqIdToIndex.lookup id = some i ↔ (rows[i]?).map PooledRequest.reqId = some id
  data : ∀ (i : ℕ) (e : PooledRequest), rows[i]? = some e → (b.rowData i).unsampled = e.data
  metadata : b.poolingMetadata = .ok (poolingMetadataOf b.vocabSize rows)

theorem Pools.Filled.represents (h : Pools.Filled b rows 0)
    (hprompt : b.samplingMetadata.promptTokenIds =
      if (List.range b.numReqs).any b.logitsProcessingNeedsTokenIds then some b.makePromptTokenIdsTensor else none) :
    b.RepresentsPooled rows := by
  have hreqIds : b.reqIds = rows.map fun e => some e.reqId := by
    rw [Pools.reqIds h, List.replicate_zero, List.append_nil, List.map_map]
    rfl
  refine ⟨hreqIds, h.numReqs_eq, fun id i => ?_, fun i e he => h.data_eq he, h.poolingMetadata_eq hprompt⟩
  rw [Pools.index h id i, hreqIds, List.getElem?_map]
  cases rows[i]? <;> simp

/-- **A step that removes the last rows** leaves the batch with the requests that it is to hold. -/
theorem poolingStep_filled (h : Pools.Filled b rows 0) (hstep : step.Allowed rows) (hlast : step.RemovesLast rows) :
    ∃ b', b.poolingStep step = .ok b' ∧ Pools.Filled b' (step.apply rows) 0 ∧ b'.RepresentsPooled (step.apply rows) := by
  have hpools : b.Pools (rows.map some ++ List.replicate 0 none) := h
  rw [List.replicate_zero, List.append_nil] at hpools
  obtain ⟨b₁, hremove, hremoved⟩ := hpools.removeAll hstep.removed_nodup fun id hid =>
    (h.mem_iff id).mpr (hstep.removed id hid)
  obtain ⟨free, hblank⟩ := Pools.blank_eq hlast
  rw [hblank] at hremoved
  obtain ⟨b₂, hwrite, hwritten⟩ := Pools.Filled.writeAll hremoved hstep.writes
  obtain ⟨b₃, free', hadd, hadded⟩ := hwritten.addAll
    (fun entry hentry => by rw [map_reqId_foldl]; exact hstep.added entry hentry) hstep.added_nodup
    hstep.pooled hstep.lora
  obtain ⟨b₄, hcondense, hcondensed⟩ := hadded.condense
  obtain ⟨b₅, t, p, k, f, pr, rp, mask, md, hrefresh, hb₅, hprompt⟩ := hcondensed.refreshed
  have hfilled : Pools.Filled b₅ (step.apply rows) 0 := by
    rw [hb₅]
    exact hcondensed.withDevice
  refine ⟨b₅, ?_, hfilled, hfilled.represents (by rw [hb₅]; exact hprompt)⟩
  unfold poolingStep
  simp only [bind, Except.bind, hremove, hwrite, hadd, hcondense, hrefresh]

/-! ## Steps that do not -/

section Hole

variable {id : ReqId} {r : FullRequestState} {i : ℕ}

/-- What `add_request` does to the ids. -/
theorem ids_of_addRequest (hpooling : b.isPoolingModel = true) (hok : b.addRequest id r = .ok b') :
    b'.reqIds = (if b.numReqs = b.reqIds.length then b.reqIds ++ [some id] else b.reqIds.set b.numReqs (some id)) ∧
      b'.reqIdToIndex = b.reqIdToIndex.insert id b.numReqs ∧ b'.isPoolingModel = b.isPoolingModel := by
  unfold addRequest at hok
  rw [if_pos hpooling] at hok
  simp only [bind, Except.bind] at hok
  split at hok
  · contradiction
  · unfold storeParams at hok
    cases hs : r.samplingParams with
    | some params =>
      simp only [hs] at hok
      split at hok
      · contradiction
      · next hstore =>
        split at hstore
        · contradiction
        · cases hstore
          cases hok
          exact ⟨rfl, rfl, rfl⟩
    | none =>
      cases hp : r.poolingParams with
      | some params =>
        simp only [hs, hp] at hok
        cases hok
        exact ⟨rfl, rfl, rfl⟩
      | none =>
        simp only [hs, hp] at hok
        contradiction

/-- **A row below the number of requests that is empty.** -/
structure Holed (b : InputBatch β τ) (i : ℕ) : Prop where
  pooling : b.isPoolingModel = true
  hole : b.reqIds[i]? = some none
  lt : i < b.numReqs

omit [BatchUpdateBuilder β] in
theorem Holed.writes : ∀ {writes : List (ReqId × RowWrite)} {b : InputBatch β τ}, b.Holed i →
    writes.foldlM writeFor b = .ok b' → b'.Holed i
  | [], b, h, hok => by
    cases hok
    exact h
  | write :: writes, b, h, hok => by
    rw [List.foldlM_cons, bind_eq_ok] at hok
    obtain ⟨b₁, hwrite, hok⟩ := hok
    refine Holed.writes ?_ hok
    unfold writeFor at hwrite
    split at hwrite
    · contradiction
    · next j _ =>
      cases hwrite
      obtain ⟨-, hconfig, hreqIds, hindex, -⟩ := b.write_eq j write.2
      refine ⟨?_, hreqIds ▸ h.hole, ?_⟩
      · rw [hconfig]
        exact h.pooling
      · rw [numReqs, hindex]
        exact h.lt

theorem Holed.adds : ∀ {added : List (ReqId × FullRequestState × PoolingParams)} {b : InputBatch β τ}, b.Holed i →
    added.foldlM (fun (b : InputBatch β τ) (entry : ReqId × FullRequestState × PoolingParams) =>
      b.addRequest entry.1 entry.2.1) b = .ok b' → b'.Holed i
  | [], b, h, hok => by
    cases hok
    exact h
  | entry :: added, b, h, hok => by
    rw [List.foldlM_cons, bind_eq_ok] at hok
    obtain ⟨b₁, hadd, hok⟩ := hok
    refine Holed.adds ?_ hok
    obtain ⟨hreqIds, hindex, hpooling⟩ := ids_of_addRequest h.pooling hadd
    refine ⟨hpooling.trans h.pooling, ?_, ?_⟩
    · -- the new request comes at the number of requests, above the hole
      rw [hreqIds]
      split
      · rw [List.getElem?_append_left (List.getElem?_eq_some_iff.mp h.hole).1]
        exact h.hole
      · rw [List.getElem?_set_ne h.lt.ne']
        exact h.hole
    · refine h.lt.trans_le (List.Subperm.length_le (List.subperm_of_subset b.reqIdToIndex.nodupKeys ?_))
      intro id hid
      rw [hindex]
      exact AList.mem_insert _ |>.mpr (Or.inr hid)

theorem Holed.condense (h : b.Holed i) (hok : b.condense = .ok b') : b'.Holed i := by
  unfold InputBatch.condense at hok
  rw [if_pos h.pooling] at hok
  cases hok
  exact ⟨h.pooling, (List.getElem?_take_of_lt h.lt).trans h.hole, h.lt⟩

omit [MultiGroupBlockTable τ] in
theorem Holed.refreshMetadata (h : b.Holed i) (hok : b.refreshMetadata = .ok b') : b'.Holed i := by
  unfold InputBatch.refreshMetadata at hok
  rw [if_pos h.pooling, bind_eq_ok] at hok
  obtain ⟨⟨b₁, md⟩, hmake, hok⟩ := hok
  cases hok
  obtain ⟨t, p, k, f, pr, rp, mask, rfl⟩ := makeSamplingMetadata_eq_ok hmake
  exact ⟨h.pooling, h.hole, h.lt⟩

omit [BatchUpdateBuilder β] in
/-- A batch with a hole does not represent any requests. -/
theorem Holed.not_represents (h : b.Holed i) : ¬ b.RepresentsPooled rows := by
  intro hrepresents
  have hhole := h.hole
  rw [hrepresents.reqIds, List.getElem?_map] at hhole
  cases hrow : rows[i]? with
  | none => rw [hrow] at hhole; cases hhole
  | some e => rw [hrow] at hhole; cases hhole

omit [BatchUpdateBuilder β] [MultiGroupBlockTable τ] in
/-- A step that removes other rows removes one before one that it keeps. -/
theorem exists_of_not_removesLast : ∀ {rows : List PooledRequest}, ¬ step.RemovesLast rows →
    ∃ before e behind, rows = before ++ e :: behind ∧ (∀ e' ∈ before, e'.reqId ∉ step.removed) ∧
      e.reqId ∈ step.removed ∧ ∃ e' ∈ behind, e'.reqId ∉ step.removed
  | [], h => absurd List.Pairwise.nil h
  | e :: rows, h => by
    by_cases he : e.reqId ∈ step.removed
    · by_cases hkept : ∃ e' ∈ rows, e'.reqId ∉ step.removed
      · exact ⟨[], e, rows, rfl, fun _ hmem => absurd hmem List.not_mem_nil, he, hkept⟩
      · have hall : ∀ e' ∈ rows, e'.reqId ∈ step.removed := fun e' he' => by
          by_contra hnot
          exact hkept ⟨e', he', hnot⟩
        refine absurd (List.pairwise_cons.mpr ⟨fun e' he' _ => hall e' he', ?_⟩) h
        exact List.pairwise_of_forall_mem_list fun _ _ e' he' _ => hall e' he'
    · have hrest : ¬ step.RemovesLast rows := fun hrest =>
        h (List.pairwise_cons.mpr ⟨fun _ _ hmem => absurd hmem he, hrest⟩)
      obtain ⟨before, e₀, behind, rfl, hbefore, hrest⟩ := exists_of_not_removesLast hrest
      refine ⟨e :: before, e₀, behind, rfl, ?_, hrest⟩
      rintro e' (_ | ⟨_, he'⟩)
      · exact he
      · exact hbefore e' he'

/-- **A step that removes other rows leaves a hole**, if it returns. -/
theorem poolingStep_holed (h : Pools.Filled b rows 0) (hstep : step.Allowed rows) (hlast : ¬ step.RemovesLast rows)
    (hok : b.poolingStep step = .ok b') : ∃ i, b'.Holed i := by
  have hpools : b.Pools (rows.map some ++ List.replicate 0 none) := h
  rw [List.replicate_zero, List.append_nil] at hpools
  obtain ⟨b₁, hremove, hremoved⟩ := hpools.removeAll hstep.removed_nodup fun id hid =>
    (h.mem_iff id).mpr (hstep.removed id hid)
  obtain ⟨before, e, behind, hrows, hbefore, he, e', he', hkept⟩ := exists_of_not_removesLast hlast
  have hhole : b₁.Holed before.length := by
    refine ⟨hremoved.pooling, ?_, ?_⟩
    · rw [hremoved.reqIds, Pools.blank, List.map_map, List.getElem?_map, List.getElem?_map, hrows,
        List.getElem?_append_right le_rfl, Nat.sub_self]
      simp [Option.filter, he]
    · -- the rows before the hole are still there, and one behind it
      have hsub : ((before ++ [e']).map PooledRequest.reqId).Nodup := by
        have hnodup := h.nodup
        rw [hrows] at hnodup
        refine hnodup.sublist (List.Sublist.map _ ?_)
        exact List.Sublist.append (List.Sublist.refl _) (List.singleton_sublist.mpr (List.mem_cons_of_mem _ he'))
      have hlength : ((before ++ [e']).map PooledRequest.reqId).length ≤ b₁.numReqs := by
        refine List.Subperm.length_le (List.subperm_of_subset hsub ?_)
        intro id hid
        obtain ⟨e₁, he₁, rfl⟩ := List.mem_map.mp hid
        have hmem : e₁ ∈ rows ∧ e₁.reqId ∉ step.removed := by
          rw [hrows]
          rcases List.mem_append.mp he₁ with he₁ | he₁
          · exact ⟨List.mem_append_left _ he₁, hbefore e₁ he₁⟩
          · rw [List.mem_singleton.mp he₁]
            exact ⟨List.mem_append_right _ (List.mem_cons_of_mem _ he'), hkept⟩
        obtain ⟨i, hi⟩ := List.getElem?_of_mem hmem.1
        refine AList.lookup_isSome.mp (Option.isSome_iff_exists.mpr ⟨i, hremoved.lookup_of ?_⟩)
        rw [Pools.blank, List.map_map, List.getElem?_map, hi]
        simp [Option.filter, hmem.2]
      rw [List.length_map, List.length_append, List.length_singleton] at hlength
      exact hlength
  refine ⟨before.length, ?_⟩
  unfold poolingStep at hok
  rw [bind_eq_ok] at hok
  obtain ⟨b₁', hremove', hok⟩ := hok
  obtain rfl := Except.ok.inj (hremove.symm.trans hremove')
  rw [bind_eq_ok] at hok
  obtain ⟨b₂, hwrite, hok⟩ := hok
  rw [bind_eq_ok] at hok
  obtain ⟨b₃, hadd, hok⟩ := hok
  rw [bind_eq_ok] at hok
  obtain ⟨b₄, hcondense, hrefresh⟩ := hok
  exact (((hhole.writes hwrite).adds hadd).condense hcondense).refreshMetadata hrefresh

end Hole

/-- A new batch holds nothing. -/
theorem Initial.filled (h : b.Initial) (hpooling : b.isPoolingModel = true) (hparams : b.poolingParams = ∅) :
    Pools.Filled b [] 0 := by
  have hnone : ∀ (i : ℕ) (e : PooledRequest), ([] : List (Option PooledRequest))[i]? ≠ some (some e) := by simp
  refine ⟨hpooling, by rw [h.reqIds]; rfl, ?_, by rw [h.reqIds, h.reqOutputTokenIds]; rfl, ?_, ?_, ?_, ?_, ?_, h.members,
    h.generators, h.badWords, fun _ => none, ?_, ?_⟩
  · rw [h.reqIdToIndex, h.reqIds]
    exact Indexes.nil
  · exact fun i e he => absurd he (hnone i e)
  · exact fun i e he => absurd he (hnone i e)
  · exact fun i e he => absurd he (hnone i e)
  · intro id
    rw [hparams, h.reqIdToIndex]
    exact iff_of_false (AList.notMem_empty id) (AList.notMem_empty id)
  · exact fun i e he => absurd he (hnone i e)
  · intro id r
    refine iff_of_false (by simp) ?_
    rintro ⟨i, e, he, -⟩
    exact hnone i e he
  · refine ⟨fun n id => ?_, fun n => ?_, fun n => ?_⟩
    · rw [h.loraIdToRequestIds]
      simp
    · rw [h.loraIdToRequestIds]
      simp
    · rw [h.loraIdToRequestIds, h.loraIdToLoraRequest]
      rfl

theorem Initial.represents (h : b.Initial) (hpooling : b.isPoolingModel = true) (hparams : b.poolingParams = ∅) :
    b.RepresentsPooled [] := by
  have hfilled := h.filled hpooling hparams
  obtain ⟨b₁, md, hmake, hprompt⟩ := hfilled.exists_metadata
  obtain ⟨b₂, hinitial⟩ := h.samplingMetadata
  obtain rfl : md = b.samplingMetadata := congrArg Prod.snd (Except.ok.inj (hmake.symm.trans hinitial))
  exact hfilled.represents hprompt

end InputBatch

/-- Each step of a run is one the model runner may take, on the requests that it is to be at. -/
def AllowedRun : List PooledRequest → List PoolingStep → Prop
  | _, [] => True
  | rows, step :: steps => step.Allowed rows ∧ AllowedRun (step.apply rows) steps

/-- The requests that the batch is to hold after some steps. -/
def rowsAfter (rows : List PooledRequest) (steps : List PoolingStep) : List PooledRequest :=
  steps.foldl (fun rows step => step.apply rows) rows

namespace InputBatch

variable {β τ : Type} [BatchUpdateBuilder β] [MultiGroupBlockTable τ] {b : InputBatch β τ}

/-- A run from a batch that holds its requests. -/
theorem poolingRun_iff : ∀ {steps : List PoolingStep} {b : InputBatch β τ} {rows : List PooledRequest},
    Pools.Filled b rows 0 → b.RepresentsPooled rows → AllowedRun rows steps →
      ((∀ n ≤ steps.length, ∃ b', (steps.take n).foldlM poolingStep b = .ok b' ∧
          b'.RepresentsPooled (rowsAfter rows (steps.take n))) ↔
        ∀ (n : ℕ) (h : n < steps.length), steps[n].RemovesLast (rowsAfter rows (steps.take n)))
  | [], b, rows, _, hrepresents, _ => by
    refine iff_of_true (fun n hn => ⟨b, ?_, ?_⟩) fun n hn => absurd hn (Nat.not_lt_zero n)
    · rw [List.take_nil]
      rfl
    · rw [List.take_nil]
      exact hrepresents
  | step :: steps, b, rows, hfilled, hrepresents, hallowed => by
    obtain ⟨hstep, hrest⟩ := hallowed
    by_cases hlast : step.RemovesLast rows
    · obtain ⟨b₁, hok, hfilled₁, hrepresents₁⟩ := poolingStep_filled hfilled hstep hlast
      have ih := poolingRun_iff hfilled₁ hrepresents₁ hrest
      constructor
      · intro h n hn
        cases n with
        | zero => exact hlast
        | succ n =>
          refine ih.mp (fun m hm => ?_) n (Nat.lt_of_succ_lt_succ hn)
          obtain ⟨b', hrun, hb'⟩ := h (m + 1) (Nat.succ_le_succ hm)
          rw [List.take_succ_cons, List.foldlM_cons, hok] at hrun
          exact ⟨b', hrun, hb'⟩
      · intro h n hn
        cases n with
        | zero => exact ⟨b, rfl, hrepresents⟩
        | succ n =>
          obtain ⟨b', hrun, hb'⟩ := ih.mpr (fun m hm => h (m + 1) (Nat.succ_lt_succ hm)) n (Nat.le_of_succ_le_succ hn)
          refine ⟨b', ?_, hb'⟩
          rw [List.take_succ_cons, List.foldlM_cons, hok]
          exact hrun
    · refine iff_of_false (fun h => ?_) fun h => hlast (h 0 (Nat.succ_pos _))
      obtain ⟨b', hrun, hb'⟩ := h 1 (Nat.succ_le_succ (Nat.zero_le _))
      rw [List.take_succ_cons, List.take_zero, List.foldlM_cons, bind_eq_ok] at hrun
      obtain ⟨b₁, hok, hrun⟩ := hrun
      cases hrun
      obtain ⟨i, hhole⟩ := poolingStep_holed hfilled hstep hlast hok
      exact hhole.not_represents hb'

/-- A request to be pooled. -/
def pooledRequestOf (promptTokenIds : List Token) (requiresTokenIds : Bool) : FullRequestState where
  promptTokenIds := promptTokenIds
  outputTokenIds := []
  blockIds := [[1]]
  numComputedTokens := 0
  loraRequest := none
  samplingParams := none
  poolingParams := some ⟨requiresTokenIds⟩
  generator := none

/-- Two requests come; then the second leaves, the first is written, and a third comes. -/
def threeRequests : List PoolingStep :=
  [⟨[], [], [("a", pooledRequestOf [1, 2] true, ⟨true⟩), ("b", pooledRequestOf [3] false, ⟨false⟩)]⟩,
    ⟨["b"], [("a", .numComputedTokens 2)], [("c", pooledRequestOf [4, 5, 6] false, ⟨false⟩)]⟩]

end InputBatch

end VllmAscend
