import VllmAscend.Worker.RowUpdates

/-!
# Worker/RowExecute — the sampled tokens go into the rows

    tokens │ drafts          ──append──▸   tokens │ sampled
           num_tokens_no_spec              ⋯      num_tokens_no_spec = num_tokens

A step of the runner brings the batch up to date, reorders it, and writes what was sampled over the
drafts.  `executeModel_eq_ok` says what becomes of each request, `Coupled` what every run keeps.
-/

namespace VllmAscend

open Machinery

namespace RowRunner

variable {M β τ : Type} [BatchUpdateBuilder β] [MultiGroupBlockTable τ] {w w' : RowRunner β τ}
  {out : BatchOutput M} {order : SetOrder} {id : ReqId} {i : ℕ}
  {sampledTokenIds : ReqId → List Token}

/-! ## The reordering -/

/-- **`_prepare_inputs` moves rows about**, and no more. -/
theorem prepareInputs_eq_ok (h : w.Coupled .between)
    (hok : w.prepareInputs out.toSchedulerOutput = .ok w') :
    SameRank w w' ∧ w'.Coupled .between ∧ w'.view = w.view := by
  unfold prepareInputs at hok
  split at hok
  · contradiction
  · split at hok
    · rw [bind_eq_ok] at hok
      obtain ⟨⟨b, modified⟩, hreorder, hok⟩ := hok
      rw [mapError_eq_ok] at hreorder
      cases hok
      obtain ⟨requests, hsound, hknown⟩ := h.sound
      obtain ⟨hsound', hseen⟩ := hsound.reorderBatch hreorder
      refine ⟨⟨rfl, rfl, rfl, rfl, rfl⟩, ⟨⟨requests, hsound', hknown⟩, h.positive⟩, ?_⟩
      funext id
      exact Prod.ext rfl (InputBatch.tokenRow_congr (congrFun hseen id))
    · cases hok
      exact ⟨.refl w, h, rfl⟩

/-! ## The sampled tokens -/

/-- What caching sampled tokens makes of a state and a row. -/
def AppendedRow (maxModelLen : ℕ) (sampled : List Token)
    (v v' : Option FullRequestState × Option TokenRow) : Prop :=
  (sampled = [] ∧ v' = v) ∨ (sampled ≠ [] ∧ ∃ st t, v = (some st, some t) ∧
    t.numTokensNoSpec + sampled.length ≤ maxModelLen ∧
    v'.1 = some { st with outputTokenIds := st.outputTokenIds ++ sampled } ∧ v'.2.isSome ∧
    (t.numTokensNoSpec ≤ t.numTokens → v'.2 = some { t with
      tokens := t.tokens.take t.numTokensNoSpec ++ sampled
      numTokens := t.numTokensNoSpec + sampled.length
      numTokensNoSpec := t.numTokensNoSpec + sampled.length }))

/-- The request of a row. -/
def reqIdAt (b : InputBatch β τ) (i : ℕ) : ReqId := b.reqIds[i]?.join.getD ""

/-- Two writes into the row of a request. -/
theorem appendSampled_eq_ok {item : List Token × ℕ} (h : w.Coupled .between)
    (hok : w.appendSampled item = .ok w') :
    (SameRank w w' ∧ w'.Coupled .between ∧ w'.inputBatch.reqIds = w.inputBatch.reqIds ∧
      w'.inputBatch.reqIdToIndex = w.inputBatch.reqIdToIndex) ∧
      AppendedRow w.maxModelLen item.1 (w.view (reqIdAt w.inputBatch item.2))
        (w'.view (reqIdAt w.inputBatch item.2)) ∧
      ∀ id, id ≠ reqIdAt w.inputBatch item.2 → w'.view id = w.view id := by
  obtain ⟨sampled, i⟩ := item
  obtain ⟨known, hsound, hknown⟩ := h.sound
  simp only [appendSampled] at hok
  split at hok
  · next hnil =>
    cases hok
    exact ⟨⟨.refl w, h, rfl, rfl⟩, Or.inl ⟨hnil, rfl⟩, fun _ _ => rfl⟩
  next hne =>
    split at hok
    · next hle =>
      split at hok
      · contradiction
      next id hid =>
        split at hok
        · contradiction
        next st hst =>
          cases hok
          have hat : reqIdAt w.inputBatch i = id := by rw [reqIdAt, hid, Option.getD_some]
          have hindex := InputBatch.index_of_reqIds hsound.layout (Option.join_eq_some_iff.mp hid)
          rw [hat]
          set b₁ := w.inputBatch.write i (.tokens (w.inputBatch.numTokensNoSpec i) sampled
            (w.inputBatch.numTokensNoSpec i + sampled.length)
            (w.inputBatch.numTokensNoSpec i + sampled.length))
          have hsound₁ : b₁.Sound .between known := hsound.write hindex _
          have hindex₁ : b₁.reqIdToIndex.lookup id = some i := hindex
          have hsound₂ := hsound₁.write hindex₁
            (.outputTokenIds (st.outputTokenIds ++ sampled))
          have hother : ∀ id', id' ≠ id → (w.requests.insert id
              { st with outputTokenIds := st.outputTokenIds ++ sampled }).lookup id' =
                w.requests.lookup id' := fun id' hne => AList.lookup_insert_ne hne
          refine ⟨⟨⟨rfl, rfl, rfl, rfl, rfl⟩, ⟨⟨known, hsound₂, fun id' r hr => ?_⟩,
            fun id' st' hst' => ?_⟩, rfl, rfl⟩, Or.inr ⟨hne, st, _,
              Prod.ext hst (InputBatch.tokenRow_of_lookup hindex), hle, AList.lookup_insert _,
              ?_, fun hfits => ?_⟩, fun id' hne' => Prod.ext (hother id' hne') ?_⟩
          · obtain ⟨st', hst', hsame⟩ := hknown id' r hr
            obtain rfl | hne' := eq_or_ne id' id
            · cases hst.symm.trans hst'
              exact ⟨_, AList.lookup_insert _, hsame⟩
            · exact ⟨st', (hother id' hne').trans hst', hsame⟩
          · obtain rfl | hne' := eq_or_ne id' id
            · cases (AList.lookup_insert w.requests).symm.trans hst'
              exact h.positive id' st hst
            · exact h.positive id' st' ((hother id' hne').symm.trans hst')
          · rw [view, InputBatch.tokenRow_of_lookup (b := b₁.write i _) (i := i) hindex]
            rfl
          · refine (InputBatch.tokenRow_of_lookup (b := b₁.write i _) (i := i) hindex).trans ?_
            have hrow := InputBatch.tokenRowAt_write_self (b := w.inputBatch) (i := i)
              (w := .tokens (w.inputBatch.numTokensNoSpec i) sampled
                (w.inputBatch.numTokensNoSpec i + sampled.length)
                (w.inputBatch.numTokensNoSpec i + sampled.length)) ⟨hfits, le_rfl⟩
            have hrow₂ : (b₁.write i (.outputTokenIds (st.outputTokenIds ++ sampled))).tokenRowAt i =
                b₁.tokenRowAt i := InputBatch.tokenRowAt_write_self (b := b₁)
                  (w := .outputTokenIds (st.outputTokenIds ++ sampled)) trivial
            rw [hrow₂, hrow]
            congr 1
            ext1
            case tokens =>
              simp only [TokenRow.write]
              refine List.take_of_length_le ?_
              rw [List.length_append]
              exact Nat.add_le_add_right (List.length_take_le _ _) _
            all_goals rfl
          · exact (InputBatch.tokenRow_write_ne hsound₁.layout hindex₁ _ hne').trans
              (InputBatch.tokenRow_write_ne hsound.layout hindex _ hne')
    · contradiction

/-- The rows have different requests. -/
theorem nodup_reqIdAt {b : InputBatch β τ} {known : ReqId → Option FullRequestState} {α : Type}
    {l : List α} (h : b.Sound .between known) (hl : l.length = b.reqIds.length) :
    (l.zipIdx.map fun item => reqIdAt b item.2).Nodup := by
  have hmap : (l.zipIdx.map fun item => reqIdAt b item.2) =
      (List.range' 0 l.length).map (reqIdAt b) := by
    rw [← List.zipIdx_map_snd 0 l, List.map_map]
    rfl
  rw [hmap, ← List.range_eq_range', hl]
  refine List.Nodup.map_on (fun i hi j hj heq => ?_) List.nodup_range
  obtain ⟨id, hid⟩ := h.exists_reqId (List.mem_range.mp hi)
  obtain ⟨id', hid'⟩ := h.exists_reqId (List.mem_range.mp hj)
  simp only [reqIdAt, hid, hid', Option.join_some, Option.getD_some] at heq
  have hlookup := InputBatch.index_of_reqIds h.layout hid
  rw [heq, InputBatch.index_of_reqIds h.layout hid'] at hlookup
  exact (Option.some.inj hlookup).symm

/-- The row of a request is where the request is. -/
theorem reqIdAt_of_lookup {b : InputBatch β τ} {known : ReqId → Option FullRequestState}
    {phase : BatchPhase} (h : b.Sound phase known) (hid : b.reqIdToIndex.lookup id = some i) :
    i < b.reqIds.length ∧ b.reqIds[i]? = some (some id) ∧ reqIdAt b i = id := by
  have hget := (h.layout.index id i).mp hid
  exact ⟨h.layout.index.lt hid, hget, by rw [reqIdAt, hget, Option.join_some, Option.getD_some]⟩

/-- **What an n-gram drafter writes is behind the tokens of the row.** -/
theorem writeNgrams_eq {b : InputBatch β τ} {known : ReqId → Option FullRequestState}
    {valid : List (List Token)} (h : b.Sound .between known)
    (hvalid : valid.length = b.reqIds.length) :
    (valid.zipIdx.foldl writeNgram b).Sound .between known ∧
      (valid.zipIdx.foldl writeNgram b).reqIdToIndex = b.reqIdToIndex ∧
      ∀ id i, b.reqIdToIndex.lookup id = some i →
        ((valid.zipIdx.foldl writeNgram b).tokenRow id).isSome ∧
        ∀ t, b.tokenRow id = some t → (valid[i]? = some [] ∨ t.numTokensNoSpec = t.numTokens) →
          (valid.zipIdx.foldl writeNgram b).tokenRow id = some t := by
  have hfold : valid.zipIdx.foldlM (fun b item => (.ok (writeNgram b item) : Except Unit _)) b =
      .ok (valid.zipIdx.foldl writeNgram b) := List.foldlM_pure
  have hkeyed := foldlM_keyed
    (fun item : List Token × ℕ => reqIdAt b item.2)
    (fun (b : InputBatch β τ) id => b.tokenRow id)
    (I := fun b' => b'.Sound .between known ∧ b'.reqIds = b.reqIds ∧
      b'.reqIdToIndex = b.reqIdToIndex)
    (R := fun item v v' => v'.isSome = v.isSome ∧
      ∀ t, v = some t → (item.1 = [] ∨ t.numTokensNoSpec = t.numTokens) → v' = some t)
    (fun b₁ item b₂ hI hstep => ?_) (nodup_reqIdAt h hvalid)
    ⟨h, rfl, rfl⟩ hfold
  · obtain ⟨⟨hsound, _, hindex⟩, hown, _⟩ := hkeyed
    refine ⟨hsound, hindex, fun id i hid => ?_⟩
    obtain ⟨hi, _, hat⟩ := reqIdAt_of_lookup h hid
    have hget : valid[i]? = some (valid.get ⟨i, hvalid ▸ hi⟩) := List.getElem?_eq_getElem _
    have hmem := List.mk_mem_zipIdx_iff_getElem?.mpr hget
    obtain ⟨hsome, hsame⟩ := hown _ hmem
    rw [hat, InputBatch.tokenRow_of_lookup hid] at hsome hsame
    rw [hget, Option.some.injEq, InputBatch.tokenRow_of_lookup hid]
    exact ⟨hsome, hsame⟩
  · obtain ⟨sampled, i⟩ := item
    obtain ⟨hsound, hreqIds, hindex⟩ := hI
    cases hstep
    simp only [writeNgram]
    split
    · exact ⟨⟨hsound, hreqIds, hindex⟩, ⟨rfl, fun t ht _ => ht⟩, fun _ _ => rfl⟩
    next id hid =>
      split
      · exact ⟨⟨hsound, hreqIds, hindex⟩, ⟨rfl, fun t ht _ => ht⟩, fun _ _ => rfl⟩
      · next hwrites =>
        have hat : reqIdAt b i = id := by rw [reqIdAt, ← hreqIds, hid, Option.getD_some]
        have hget : b₁.reqIds[i]? = some (some id) := Option.join_eq_some_iff.mp hid
        have hlookup := InputBatch.index_of_reqIds hsound.layout hget
        refine ⟨⟨hsound.write hlookup _, hreqIds, hindex⟩, ?_, fun id' hne =>
          InputBatch.tokenRow_write_ne hsound.layout hlookup _ (hat ▸ hne)⟩
        have hrow := InputBatch.tokenRow_of_lookup hlookup
        have hrow' := InputBatch.tokenRow_of_lookup (b := b₁.write i (.tokens
          (b₁.numTokensNoSpec i) sampled (b₁.numTokens i) (b₁.numTokensNoSpec i))) (i := i) hlookup
        rw [hat, hrow, hrow']
        refine ⟨rfl, fun t ht hsettled => ?_⟩
        cases ht
        have hsame : b₁.numTokensNoSpec i = b₁.numTokens i :=
          hsettled.resolve_left fun hnil => hwrites (Or.inl hnil)
        have hfits : (b₁.tokenRowAt i).Fits (.tokens (b₁.numTokensNoSpec i) sampled
            (b₁.numTokens i) (b₁.numTokensNoSpec i)) :=
          ⟨hsame.le, hsame ▸ Nat.le_add_right _ _⟩
        rw [InputBatch.tokenRowAt_write_self hfits]
        congr 1
        have hlength : (b₁.tokenRowAt i).tokens.length = b₁.numTokens i := by
          simp [InputBatch.tokenRowAt]
        ext1
        case tokens =>
          simp only [TokenRow.write]
          rw [hsame, List.take_of_length_le hlength.le, ← hlength, List.take_left]
        all_goals rfl

/-- The tokens of a request that are cached and returned. -/
def validTokens (w : RowRunner β τ) (out : SchedulerOutput M) (sampledTokenIds : ReqId → List Token)
    (id : ReqId) : List Token :=
  match w.requests.lookup id, out.numScheduledTokens.lookup id with
  | some st, some numTokens =>
    if st.numComputedTokens + numTokens < st.numTokens then [] else sampledTokenIds id
  | _, _ => []

/-- **What caching the sampled tokens leaves of each request.** -/
structure Cached (w w' : RowRunner β τ) (sampled : ReqId → List Token)
    (returned : ReqId → List Token) : Prop where
  rank : SameRank w w'
  coupled : w'.Coupled .between
  batch : ∀ id, (w.inputBatch.tokenRow id).isSome → returned id = sampled id ∧
    AppendedRow w.maxModelLen (sampled id) (w.view id) (w'.view id)
  other : ∀ id, w.inputBatch.tokenRow id = none → returned id = [] ∧ w'.view id = w.view id

theorem cacheSampled_eq_ok {valid : List (List Token)} (h : w.Coupled .between)
    (hok : w.cacheSampled out.toSchedulerOutput sampledTokenIds = .ok (w', valid)) :
    Cached w w' (w.validTokens out.toSchedulerOutput sampledTokenIds)
      fun id => ((w'.inputBatch.reqIdToIndex.lookup id).bind (valid[·]?)).getD [] := by
  obtain ⟨known, hsound, _⟩ := h.sound
  unfold cacheSampled at hok
  simp only [bind_eq_ok] at hok
  obtain ⟨valid', hmap, cached, hfold, hok⟩ := hok
  -- the tokens of each row
  have hvalid : valid' = w.inputBatch.reqIds.map fun reqId =>
      reqId.elim [] (w.validTokens out.toSchedulerOutput sampledTokenIds) := by
    refine eq_map_of_mapM_ok (fun reqId tokens hrow => ?_) hmap
    unfold validSampled at hrow
    split at hrow
    · contradiction
    · split at hrow
      · next st numTokens hst hnum =>
        cases hrow
        simp only [Option.elim_some, validTokens, hst, hnum]
      · contradiction
  have hlength : valid'.length = w.inputBatch.reqIds.length := by rw [hvalid, List.length_map]
  have hget : ∀ {id : ReqId} {i : ℕ}, w.inputBatch.reqIdToIndex.lookup id = some i →
      valid'[i]? = some (w.validTokens out.toSchedulerOutput sampledTokenIds id) := by
    intro id i hid
    rw [hvalid, List.getElem?_map, (reqIdAt_of_lookup hsound hid).2.1, Option.map_some,
      Option.elim_some]
  have hkeyed := foldlM_keyed (fun item : List Token × ℕ => reqIdAt w.inputBatch item.2)
    (view : RowRunner β τ → _)
    (I := fun v => SameRank w v ∧ v.Coupled .between ∧
      v.inputBatch.reqIds = w.inputBatch.reqIds ∧
      v.inputBatch.reqIdToIndex = w.inputBatch.reqIdToIndex)
    (R := fun item v v' => AppendedRow w.maxModelLen item.1 v v')
    (fun v item v' hI hstep => ?_) (nodup_reqIdAt hsound hlength) ⟨.refl w, h, rfl, rfl⟩ hfold
  · obtain ⟨⟨hrank, hcoupled, hreqIds, hindex⟩, hown, hother⟩ := hkeyed
    -- the rows, one by one
    have happended : ∀ {id : ReqId} {i : ℕ}, w.inputBatch.reqIdToIndex.lookup id = some i →
        AppendedRow w.maxModelLen (w.validTokens out.toSchedulerOutput sampledTokenIds id)
          (w.view id) (cached.view id) := by
      intro id i hid
      obtain ⟨_, _, hat⟩ := reqIdAt_of_lookup hsound hid
      have hmem := List.mk_mem_zipIdx_iff_getElem?.mpr (hget hid)
      exact hat ▸ hown _ hmem
    have hsame : ∀ {id : ReqId}, w.inputBatch.reqIdToIndex.lookup id = none →
        cached.view id = w.view id := by
      intro id hid
      refine hother id fun hmem => ?_
      obtain ⟨⟨tokens, i⟩, hitem, rfl⟩ := List.mem_map.mp hmem
      have hi := (List.getElem?_eq_some_iff.mp (List.mk_mem_zipIdx_iff_getElem?.mp hitem)).1
      obtain ⟨id, hid'⟩ := hsound.exists_reqId (hlength ▸ hi)
      have hlookup := InputBatch.index_of_reqIds hsound.layout hid'
      rw [← (reqIdAt_of_lookup hsound hlookup).2.2, hid] at hlookup
      contradiction
    obtain ⟨known', hsound', hknown'⟩ := hcoupled.sound
    obtain ⟨hngram, hngramIndex, hngramRow⟩ := writeNgrams_eq hsound' (hlength.trans
      (congrArg List.length hreqIds).symm)
    cases hok
    set batch := if w.usesNgram then valid.zipIdx.foldl writeNgram cached.inputBatch
      else cached.inputBatch
    have hbatch : batch.Sound .between known' ∧ batch.reqIdToIndex = w.inputBatch.reqIdToIndex ∧
        ∀ id i, w.inputBatch.reqIdToIndex.lookup id = some i → (batch.tokenRow id).isSome ∧
          ∀ t, cached.inputBatch.tokenRow id = some t →
            (valid[i]? = some [] ∨ t.numTokensNoSpec = t.numTokens) →
              batch.tokenRow id = some t := by
      simp only [batch]
      split
      · exact ⟨hngram, hngramIndex.trans hindex, hindex ▸ hngramRow⟩
      · refine ⟨hsound', hindex, fun id i hid => ⟨?_, fun t ht _ => ht⟩⟩
        rw [InputBatch.tokenRow_of_lookup (hindex ▸ hid)]
        rfl
    obtain ⟨hbatchSound, hbatchIndex, hbatchRow⟩ := hbatch
    refine ⟨?_, ⟨⟨known', hbatchSound, hknown'⟩, hcoupled.positive⟩, fun id hid => ?_,
      fun id hid => ?_⟩
    · exact ⟨hrank.1, hrank.2, hrank.3, hrank.4, hrank.5⟩
    · obtain ⟨i, hi⟩ := Option.isSome_iff_exists.mp ((Option.isSome_map ..).symm.trans hid)
      obtain ⟨hsome, hrow⟩ := hbatchRow id i hi
      refine ⟨?_, ?_⟩
      · simp only [hbatchIndex, hi, Option.bind_some, hget hi, Option.getD_some]
      · obtain ⟨hnil, hview⟩ | ⟨hne, st, t, hview, hle, hst, hsome', hrow'⟩ := happended hi
        · have hstates : cached.requests.lookup id = w.requests.lookup id := congrArg Prod.fst hview
          refine Or.inl ⟨hnil, Prod.ext hstates ?_⟩
          have hold := InputBatch.tokenRow_of_lookup hi
          exact (hrow _ ((congrArg Prod.snd hview).trans hold)
            (Or.inl (hnil ▸ hget hi))).trans hold.symm
        · exact Or.inr ⟨hne, st, t, hview, hle, hst, hsome, fun hfits =>
            hrow _ (hrow' hfits) (Or.inr rfl)⟩
    · have hnone := InputBatch.tokenRow_eq_none.mp hid
      have hrow : batch.tokenRow id = none :=
        InputBatch.tokenRow_eq_none.mpr (hbatchIndex ▸ hnone)
      have hstates : cached.requests.lookup id = w.requests.lookup id :=
        congrArg Prod.fst (hsame hnone)
      refine ⟨?_, Prod.ext hstates (hrow.trans hid.symm)⟩
      simp only [hbatchIndex, hnone, Option.bind_none, Option.getD_none]
  · obtain ⟨hrank, hcoupled, hreqIds, hindex⟩ := hI
    obtain ⟨⟨hrank', hcoupled', hreqIds', hindex'⟩, hown, hother⟩ :=
      appendSampled_eq_ok hcoupled hstep
    have hat : reqIdAt v.inputBatch item.2 = reqIdAt w.inputBatch item.2 := by
      rw [reqIdAt, hreqIds, reqIdAt]
    rw [hat, hrank.maxModelLen] at hown
    exact ⟨⟨hrank.trans hrank', hcoupled', hreqIds'.trans hreqIds, hindex'.trans hindex⟩, hown,
      fun id hne => hother id (hat ▸ hne)⟩

/-! ## `execute_model` -/

/-- **What a step leaves of each request**, from how `_update_states` left it; a rank that does not
sample, or has nothing to do, leaves it so. -/
structure Executed (u w' : RowRunner β τ) (out : SchedulerOutput M)
    (sampledTokenIds returned : ReqId → List Token) : Prop where
  rank : SameRank u w'
  coupled : w'.Coupled .between
  batch : ∀ id, (u.inputBatch.tokenRow id).isSome →
    (u.Samples ∧ out.totalNumScheduledTokens ≠ 0 ∧
      returned id = u.validTokens out sampledTokenIds id ∧
      AppendedRow u.maxModelLen (u.validTokens out sampledTokenIds id) (u.view id) (w'.view id)) ∨
    ((¬u.Samples ∨ out.totalNumScheduledTokens = 0) ∧ returned id = [] ∧ w'.view id = u.view id)
  other : ∀ id, u.inputBatch.tokenRow id = none → returned id = [] ∧ w'.view id = u.view id

theorem executeModel_eq_ok {returned : ReqId → List Token} (h : w.Coupled .between)
    (hpromised : w.Promised out)
    (hok : w.executeModel out order sampledTokenIds = .ok (w', returned)) :
    ∃ u, w.updateStates out order = .ok u ∧ Updated w u out ∧
      Executed u w' out.toSchedulerOutput sampledTokenIds returned := by
  unfold executeModel at hok
  rw [bind_eq_ok] at hok
  obtain ⟨u, hupdate, hok⟩ := hok
  have hupdated := updateStates_eq_ok h hpromised hupdate
  refine ⟨u, hupdate, hupdated, ?_⟩
  split at hok
  · next htotal =>
    cases hok
    exact ⟨.refl _, hupdated.coupled, fun id _ => Or.inr ⟨Or.inr htotal, rfl, rfl⟩,
      fun id _ => ⟨rfl, rfl⟩⟩
  next htotal =>
    rw [bind_eq_ok] at hok
    obtain ⟨p, hprepare, hok⟩ := hok
    obtain ⟨hrank, hcoupled, hview⟩ := prepareInputs_eq_ok hupdated.coupled hprepare
    have hsamples : p.Samples ↔ u.Samples := by
      rw [Samples, hrank.isLastRank, hrank.broadcastPpOutput, Samples]
    have hrow : ∀ id, p.inputBatch.tokenRow id = u.inputBatch.tokenRow id := fun id =>
      congrArg Prod.snd (congrFun hview id)
    have hvalid : p.validTokens out.toSchedulerOutput sampledTokenIds =
        u.validTokens out.toSchedulerOutput sampledTokenIds := by
      funext id
      have hlookup : p.requests.lookup id = u.requests.lookup id :=
        congrArg Prod.fst (congrFun hview id)
      rw [validTokens, hlookup, validTokens]
    split at hok
    · next hsample =>
      rw [bind_eq_ok] at hok
      obtain ⟨⟨cached, valid⟩, hcache, hok⟩ := hok
      cases hok
      obtain ⟨hrank', hcoupled', hbatch, hother⟩ := cacheSampled_eq_ok hcoupled hcache
      refine ⟨hrank.trans hrank', hcoupled', fun id hid => ?_, fun id hid => ?_⟩
      · obtain ⟨hreturned, happended⟩ := hbatch id (hrow id ▸ hid)
        rw [hvalid, hrank.maxModelLen, hview] at happended
        exact Or.inl ⟨hsamples.mp hsample, htotal, hvalid ▸ hreturned, happended⟩
      · obtain ⟨hreturned, hsame⟩ := hother id ((hrow id).trans hid)
        exact ⟨hreturned, hsame.trans (congrFun hview id)⟩
    · next hsample =>
      cases hok
      exact ⟨hrank, hcoupled, fun id _ => Or.inr ⟨Or.inl fun hs => hsample (hsamples.mpr hs), rfl,
        congrFun hview id⟩, fun id _ => ⟨rfl, congrFun hview id⟩⟩

end RowRunner

/-! ## Runs -/

/-- What the runner is called with. -/
structure RunnerInput (M : Type) where
  out : BatchOutput M
  order : SetOrder
  sampledTokenIds : ReqId → List Token

/-- A runner, and what the scheduler knows of its requests. -/
structure ServedRunner (β τ : Type) where
  runner : RowRunner β τ
  /-- the prompt of each request, and what was returned for it since -/
  tokens : ReqId → List Token

namespace ServedRunner

variable {M β τ : Type} [BatchUpdateBuilder β] [MultiGroupBlockTable τ]

/-- The tokens of a request before a step: those of a new one are its prompt. -/
def tokensBefore (s : ServedRunner β τ) (out : SchedulerOutput M) (id : ReqId) : List Token :=
  ((out.scheduledNewReqs.find? (·.reqId = id)).map NewRequestData.promptTokenIds).getD (s.tokens id)

def step (s : ServedRunner β τ) (a : RunnerInput M) : Except RunnerFault (ServedRunner β τ) := do
  let (runner, returned) ← s.runner.executeModel a.out a.order a.sampledTokenIds
  return ⟨runner, fun id => s.tokensBefore a.out.toSchedulerOutput id ++ returned id⟩

def Promised (s : ServedRunner β τ) (a : RunnerInput M) : Prop := s.runner.Promised a.out

instance (s : ServedRunner β τ) : DecidablePred (s.Promised (M := M)) := fun a =>
  inferInstanceAs (Decidable (s.runner.Promised a.out))

/-- At `__init__`. -/
structure Initial (s : ServedRunner β τ) : Prop where
  requests : s.runner.requests = ∅
  batch : s.runner.inputBatch.Initial
  autoregressive : s.runner.inputBatch.isPoolingModel = false

variable {s s' s₀ : ServedRunner β τ} {a : RunnerInput M}

theorem Initial.coupled (h : s.Initial) : s.runner.Coupled .between where
  sound := ⟨_, .initial h.batch h.autoregressive, fun _ _ hr => by simp at hr⟩
  positive := fun id st hst => by simp [h.requests] at hst

theorem step_eq_ok (hok : s.step a = .ok s') : ∃ returned,
    s.runner.executeModel a.out a.order a.sampledTokenIds = .ok (s'.runner, returned) ∧
      s'.tokens = fun id => s.tokensBefore a.out.toSchedulerOutput id ++ returned id := by
  unfold step at hok
  rw [bind_eq_ok] at hok
  obtain ⟨⟨runner, returned⟩, hexecute, hok⟩ := hok
  cases hok
  exact ⟨returned, hexecute, rfl⟩

/-- **Between any two steps** the batch is sound and knows its requests. -/
theorem coupled_of_run (hinit : s₀.Initial) (run : Run (ServedRunner.step (M := M)) Promised s₀ s) :
    s.runner.Coupled .between := by
  refine run.invariant (I := fun s => s.runner.Coupled .between) ?_ hinit.coupled
  intro s a s' h hpromised hok
  obtain ⟨returned, hexecute, _⟩ := step_eq_ok hok
  obtain ⟨_, _, _, hexecuted⟩ := RowRunner.executeModel_eq_ok h hpromised hexecute
  exact hexecuted.coupled

end ServedRunner

end VllmAscend
