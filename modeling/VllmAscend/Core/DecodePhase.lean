import VllmAscend.Core.Ledger

/-!
# Core/DecodePhase — what the decode loop leaves behind

    fr₀.running = fr.running ++ victims        scheduled ⊆ fr.running.take req_index

The requests decoded so far are a sublist of the part of `running` behind the index, the preempted
ones a suffix of the list the loop began with.  So a request that is decoded stays running, and one
that is preempted was not decoded in the same call.
-/

namespace VllmAscend

open Machinery

variable {σ κ M : Type}

namespace AscendScheduler

variable {self : AscendScheduler σ κ M} {fr₀ fr fr' : Frame σ κ} {id : ReqId} {n : ℤ}
  {victims : List ReqId}

/-- **The number of tokens of a decode**: within the drafts, the budget and the model length, and
positive while the context window is not full. -/
theorem Decoded.bounds (h : Decoded self fr id n) :
    self.exceedsMaxLoras fr.scheduledLoras (fr.obj id) = false ∧
      n ≤ (fr.obj id).specTokenIds.length + 1 ∧ n ≤ fr.tokenBudget ∧
      (fr.obj id).numComputedTokens + n ≤ self.maxModelLen ∧
      ((fr.obj id).numComputedTokens < self.maxModelLen → 0 < n) := by
  have hn := h.tokens
  have hready := h.ready
  have hbudget := h.budget
  have hnonzero := h.nonzero
  simp only [decodeNumNewTokens, Request.numTokensWithSpec] at hn
  split at hn
  · exact absurd hn hnonzero
  · next hlora =>
    refine ⟨by simpa using hlora, ?_, ?_, ?_, fun hlen => ?_⟩ <;> omega

/-- What a decoded request is given: `n` tokens, the next one and `n - 1` drafts. -/
structure DecodeEntry (A : AscendScheduler σ κ M) (r r' : Request) (n : ℤ) (numSpec : ℕ) :
    Prop where
  drafts : r' = { r with specTokenIds := r'.specTokenIds }
  ready : r.numTokens - r.numComputedTokens = 1
  bound : r.numComputedTokens + n ≤ A.maxModelLen
  pos : r.numComputedTokens < A.maxModelLen → 0 < n
  spec : 0 < n → (numSpec : ℤ) = n - 1

/-- The decode loop, begun at `fr₀`, after some rounds. -/
structure DecodePhase (A : AscendScheduler σ κ M) (fr₀ : Frame σ κ) (victims : List ReqId)
    (fr : Frame σ κ) : Prop where
  running : fr₀.running = fr.running ++ victims
  waiting : fr.waiting = victims ++ fr₀.waiting
  index : fr.reqIndex ≤ fr.running.length
  scheduled : fr.scheduledRunningReqs.Sublist (fr.running.take fr.reqIndex)
  scheduledReqIds : fr.scheduledReqIds = fr.scheduledRunningReqs.toFinset
  finishedReqIds : fr.finishedReqIds = fr₀.finishedReqIds
  requests : fr.requests = fr₀.requests
  conn : fr.conn = fr₀.conn
  new : fr.scheduledNewReqs = fr₀.scheduledNewReqs
  resumed : fr.scheduledResumedReqs = fr₀.scheduledResumedReqs
  ledger : Ledger A fr₀.obj fr.scheduledRunningReqs fr.numScheduledTokens fr.tokenBudget
    fr.scheduledLoras
  victim : ∀ v ∈ victims, fr.obj v =
    { fr₀.obj v with status := .preempted, numComputedTokens := 0 }
  other : ∀ id, id ∉ victims → id ∉ fr.scheduledRunningReqs → fr.obj id = fr₀.obj id
  decoded : ∀ id ∈ fr.scheduledRunningReqs, ∃ n, fr.numScheduledTokens.lookup id = some n ∧
    DecodeEntry A (fr₀.obj id) (fr.obj id) n (numSpecTokens fr.scheduledSpecDecodeTokens id)
  noSpec : ∀ id, id ∉ fr.scheduledRunningReqs → id ∉ fr.scheduledSpecDecodeTokens

/-- A decoded request is running. -/
theorem DecodePhase.mem_running (h : DecodePhase self fr₀ victims fr)
    (hid : id ∈ fr.scheduledRunningReqs) : id ∈ fr.running :=
  List.mem_of_mem_take (h.scheduled.subset hid)

/-- A running request was not preempted. -/
theorem DecodePhase.not_mem_victims (hnodup : fr₀.running.Nodup)
    (h : DecodePhase self fr₀ victims fr) (hid : id ∈ fr.running) : id ∉ victims := by
  rw [h.running, List.nodup_append] at hnodup
  exact fun hmem => hnodup.2.2 id hid id hmem rfl

/-- Passing over a request. -/
theorem DecodePhase.pass (h : DecodePhase self fr₀ victims fr)
    (hindex : fr.running[fr.reqIndex]? = some id) :
    DecodePhase self fr₀ victims { fr with reqIndex := fr.reqIndex + 1 } := by
  have hlt : fr.reqIndex < fr.running.length := (List.getElem?_eq_some_iff.mp hindex).1
  exact ⟨h.running, h.waiting, hlt, h.scheduled.trans (List.take_sublist_take_left (by simp)),
    h.scheduledReqIds, h.finishedReqIds, h.requests, h.conn, h.new, h.resumed, h.ledger, h.victim,
    h.other, h.decoded, h.noSpec⟩

/-- The victims of one request's allocation come off the end of `running`, behind the index. -/
theorem DecodePhase.evict {fr₁ : Frame σ κ} {vs : List ReqId} (hnodup : fr₀.running.Nodup)
    (h : DecodePhase self fr₀ victims fr) (hev : Evicted fr fr₁ vs)
    (hindex : fr.reqIndex ≤ fr₁.running.length) :
    DecodePhase self fr₀ (vs ++ victims) fr₁ := by
  have htake : fr.running.take fr.reqIndex = fr₁.running.take fr.reqIndex := by
    rw [hev.running, List.take_append_of_le_length hindex]
  have hvs : ∀ {v}, v ∈ vs → v ∈ fr.running := fun hv =>
    hev.running ▸ List.mem_append_right _ hv
  have hdisjoint : ∀ {id}, id ∈ fr.scheduledRunningReqs → id ∉ vs := by
    intro id hid hv
    have hrun : fr.running.Nodup := by
      rw [h.running, List.nodup_append] at hnodup
      exact hnodup.1
    rw [hev.running, List.nodup_append] at hrun
    have hmem := h.scheduled.subset hid
    rw [htake] at hmem
    exact hrun.2.2 id (List.mem_of_mem_take hmem) id hv rfl
  have hframe := hev.frame
  rw [hframe]
  refine ⟨?_, ?_, hindex, ?_, h.scheduledReqIds, h.finishedReqIds, h.requests, h.conn, h.new,
    h.resumed, h.ledger, ?_, ?_, ?_, h.noSpec⟩
  · rw [h.running, hev.running, List.append_assoc]
  · rw [List.append_assoc, ← h.waiting]
    exact hev.waiting
  · simpa only [htake] using h.scheduled
  · intro v hv
    obtain hv | hv := List.mem_append.mp hv
    · have hv₀ := h.not_mem_victims hnodup (hvs hv)
      have hscheduled : v ∉ fr.scheduledRunningReqs := fun hs => hdisjoint hs hv
      rw [← h.other v hv₀ hscheduled]
      exact hev.victim v hv
    · have hvs' : v ∉ vs := fun hmem => h.not_mem_victims hnodup (hvs hmem) hv
      exact (hev.other v hvs').trans (h.victim v hv)
  · intro id hid hscheduled
    rw [List.mem_append, not_or] at hid
    exact (hev.other id hid.1).trans (h.other id hid.2 hscheduled)
  · intro id hid
    obtain ⟨n, hlookup, hentry⟩ := h.decoded id hid
    refine ⟨n, hlookup, ?_⟩
    have hobj : fr₁.obj id = fr.obj id := hev.other id (hdisjoint hid)
    simp only [hobj]
    exact hentry

/-- The request at the index, when none of the victims is it, is before them. -/
theorem index_lt_of_evicted {fr₁ : Frame σ κ} {vs : List ReqId} (hev : Evicted fr fr₁ vs)
    (hindex : fr.running[fr.reqIndex]? = some id) (hid : id ∉ vs) :
    fr₁.running[fr.reqIndex]? = some id := by
  rw [hev.running] at hindex
  by_cases hlt : fr.reqIndex < fr₁.running.length
  · rwa [List.getElem?_append_left hlt] at hindex
  · rw [List.getElem?_append_right (by omega)] at hindex
    exact absurd (List.mem_of_getElem? hindex) hid

/-- Scheduling the request at the index, once its victims are off the list. -/
theorem DecodePhase.schedule {newBlocks : KVCacheBlocks} (hnodup : fr₀.running.Nodup)
    (h : DecodePhase self fr₀ victims fr) (hindex : fr.running[fr.reqIndex]? = some id)
    (hdecoded : Decoded self fr id n) :
    DecodePhase self fr₀ victims (self.scheduleRunning fr id n newBlocks) := by
  obtain ⟨hlora, hle, hbudget, hbound, hpos⟩ := hdecoded.bounds
  have hlt : fr.reqIndex < fr.running.length := (List.getElem?_eq_some_iff.mp hindex).1
  have hvictim : id ∉ victims := h.not_mem_victims hnodup (List.mem_of_getElem? hindex)
  have hscheduled : id ∉ fr.scheduledRunningReqs := by
    have := hdecoded.unscheduled
    rw [h.scheduledReqIds] at this
    simpa using this
  have hobj : fr.obj id = fr₀.obj id := h.other id hvictim hscheduled
  obtain ⟨drafts, spec, hframe, hspec, hnumSpec⟩ :=
    scheduleRunning_frame self fr id n newBlocks
  have hentry : DecodeEntry self (fr.obj id) { fr.obj id with specTokenIds := drafts } n
      (numSpecTokens spec id) :=
    ⟨rfl, hdecoded.ready, hbound, hpos, fun hn =>
      hnumSpec (h.noSpec id hscheduled) hn hdecoded.ready hle⟩
  rw [hframe]
  refine ⟨h.running, h.waiting, hlt, ?_, ?_, h.finishedReqIds, h.requests, h.conn, h.new,
    h.resumed, ?_, ?_, ?_, ?_, ?_⟩
  · have htake : fr.running.take (fr.reqIndex + 1) = fr.running.take fr.reqIndex ++ [id] := by
      rw [List.take_add_one, hindex]
      rfl
    simp only [htake]
    exact h.scheduled.append (List.Sublist.refl _)
  · simp [h.scheduledReqIds]
  · exact h.ledger.enter hscheduled hdecoded.nonzero hbudget (by rw [hobj]) hlora
  · intro v hv
    have hne : v ≠ id := by
      rintro rfl
      exact hvictim hv
    simp only [updateObj_of_ne hne]
    exact h.victim v hv
  · intro id' hid' hnot
    simp only [List.mem_append, List.mem_singleton, not_or] at hnot
    simp only [updateObj_of_ne hnot.2]
    exact h.other id' hid' hnot.1
  · intro id' hmem
    simp only [List.mem_append, List.mem_singleton] at hmem
    by_cases hne : id' = id
    · subst hne
      refine ⟨n, AList.lookup_insert _, ?_⟩
      rw [hobj] at hentry
      simpa only [updateObj_self, hobj] using hentry
    · obtain ⟨m, hlookup, hm⟩ := h.decoded id' (hmem.resolve_right hne)
      refine ⟨m, (AList.lookup_insert_ne hne).trans hlookup, ?_⟩
      simp only [updateObj_of_ne hne, numSpecTokens, hspec id' hne]
      exact hm
  · intro id' hnot
    simp only [List.mem_append, List.mem_singleton, not_or] at hnot
    have hlookup := hspec id' hnot.2
    rw [AList.lookup_eq_none.mpr (h.noSpec id' hnot.1)] at hlookup
    exact AList.lookup_eq_none.mp hlookup

/-! ## The rounds -/

/-- What is decoded depends on the index, the budget, the adapters and the request only, and none of
them is touched by the preemptions. -/
theorem Decoded.of_evicted {fr₁ : Frame σ κ} {vs : List ReqId} (h : Decoded self fr id n)
    (hev : Evicted fr fr₁ vs) (hid : id ∉ vs) : Decoded self fr₁ id n := by
  have hindex : fr₁.reqIndex = fr.reqIndex := by rw [hev.frame]
  have hbudget : fr₁.tokenBudget = fr.tokenBudget := by rw [hev.frame]
  have hscheduled : fr₁.scheduledReqIds = fr.scheduledReqIds := by rw [hev.frame]
  have hloras : fr₁.scheduledLoras = fr.scheduledLoras := by rw [hev.frame]
  have hobj : fr₁.obj id = fr.obj id := hev.other id hid
  refine ⟨?_, by rw [hbudget]; exact h.budget, by rw [hscheduled]; exact h.unscheduled,
    by rw [hobj]; exact h.ready, ?_, h.nonzero⟩
  · rw [hindex]
    exact index_lt_of_evicted hev h.at_index hid
  · rw [h.tokens]
    simp only [decodeNumNewTokens, hobj, hbudget, hloras]

/-- **One round of the decode loop.** -/
theorem DecodePhase.again (hnodup : fr₀.running.Nodup) (h : DecodePhase self fr₀ victims fr)
    (hround : DecodeRound self fr fr') : ∃ vs, DecodePhase self fr₀ (vs ++ victims) fr' := by
  cases hround with
  | pass at_index => exact ⟨[], h.pass at_index⟩
  | @scheduled id n fr₁ newBlocks decoded loop =>
    obtain ⟨vs, hev, hid, _⟩ := preemptLoop_eq_ok loop
    have hid : id ∉ vs := hid rfl
    have decoded₁ := decoded.of_evicted hev hid
    have hindex : fr.reqIndex ≤ fr₁.running.length := by
      have := index_lt_of_evicted hev decoded.at_index hid
      exact (List.getElem?_eq_some_iff.mp this).1.le
    exact ⟨vs, (h.evict hnodup hev hindex).schedule hnodup decoded₁.at_index decoded₁⟩

/-- The round that leaves the loop. -/
theorem DecodePhase.leave (hnodup : fr₀.running.Nodup) (h : DecodePhase self fr₀ victims fr)
    (hexit : DecodeExit self fr fr') : ∃ vs, DecodePhase self fr₀ (vs ++ victims) fr' := by
  cases hexit with
  | done => exact ⟨[], h⟩
  | @preempted id n _ decoded loop =>
    obtain ⟨vs, hev, _, hself⟩ := preemptLoop_eq_ok loop
    obtain ⟨later, rfl⟩ := hself rfl
    refine ⟨id :: later, h.evict hnodup hev ?_⟩
    -- the request itself is the first of its victims, so the list now ends where the index is
    have hrun : fr.running.Nodup := by
      rw [h.running, List.nodup_append] at hnodup
      exact hnodup.1
    have hat : fr.running[fr'.running.length]? = some id := by
      rw [hev.running, List.getElem?_append_right le_rfl]
      simp
    exact ((List.getElem?_inj (List.getElem?_eq_some_iff.mp decoded.at_index).1 hrun).mp
      (decoded.at_index.trans hat.symm)).le

/-- The decode loop before its first round. -/
theorem DecodePhase.start (hindex : fr₀.reqIndex = 0) (hscheduled : fr₀.scheduledReqIds = ∅)
    (hrunning : fr₀.scheduledRunningReqs = []) (hspec : fr₀.scheduledSpecDecodeTokens = ∅)
    (hledger : Ledger self fr₀.obj [] fr₀.numScheduledTokens fr₀.tokenBudget fr₀.scheduledLoras) :
    DecodePhase self fr₀ [] fr₀ where
  running := (List.append_nil _).symm
  waiting := rfl
  index := by simp [hindex]
  scheduled := by simp [hrunning]
  scheduledReqIds := by simp [hscheduled, hrunning]
  finishedReqIds := rfl
  requests := rfl
  conn := rfl
  new := rfl
  resumed := rfl
  ledger := hrunning ▸ hledger
  victim := by simp
  other := fun _ _ _ => rfl
  decoded := by simp [hrunning]
  noSpec := by simp [hspec]

/-- **The decode loop** decodes a sublist of the running requests it leaves running, and preempts
the others off the end of the list. -/
theorem decodeLoop_eq_ok {fuel : ℕ} (hnodup : fr₀.running.Nodup)
    (hstart : DecodePhase self fr₀ [] fr₀)
    (h : whileLoop .outOfRounds self.decodeBody fuel fr₀ = .ok fr') :
    ∃ victims, DecodePhase self fr₀ victims fr' := by
  refine whileLoop_invariant (I := fun fr => ∃ victims, DecodePhase self fr₀ victims fr)
    (J := fun fr => ∃ victims, DecodePhase self fr₀ victims fr) ?_ ?_ h ⟨[], hstart⟩
  · rintro fr fr' ⟨victims, hphase⟩ hround
    obtain ⟨vs, hphase'⟩ := hphase.again hnodup (decodeBody_again hround)
    exact ⟨_, hphase'⟩
  · rintro fr fr' ⟨victims, hphase⟩ hround
    obtain ⟨vs, hphase'⟩ := hphase.leave hnodup (decodeBody_leave hround)
    exact ⟨_, hphase'⟩

/-- Every round that goes on brings the index closer to the end of the list. -/
theorem DecodeRound.measure_lt (hround : DecodeRound self fr fr') :
    fr'.running.length - fr'.reqIndex < fr.running.length - fr.reqIndex := by
  cases hround with
  | pass at_index =>
    have := (List.getElem?_eq_some_iff.mp at_index).1
    simp only
    omega
  | @scheduled id n fr₁ newBlocks decoded loop =>
    obtain ⟨vs, hev, _, _⟩ := preemptLoop_eq_ok loop
    have hlt := (List.getElem?_eq_some_iff.mp decoded.at_index).1
    have hlen : fr₁.running.length ≤ fr.running.length := by
      rw [hev.running, List.length_append]
      omega
    have hindex : fr₁.reqIndex = fr.reqIndex := by rw [hev.frame]
    obtain ⟨_, _, hframe, _⟩ := scheduleRunning_frame self fr₁ id n newBlocks
    rw [hframe]
    simp only
    omega

/-- **The decode loop ends**, and raises only over a running request that is in no unprocessed
output and is not one token ahead of its computed tokens. -/
theorem decodeLoop_error {e : Fault} (hnodup : fr₀.running.Nodup)
    (hstart : DecodePhase self fr₀ [] fr₀)
    (h : whileLoop .outOfRounds self.decodeBody (fr₀.running.length + 1) fr₀ = .error e) :
    e = .decodeReady ∧
      ∃ id ∈ fr₀.running, (fr₀.obj id).numTokens - (fr₀.obj id).numComputedTokens ≠ 1 := by
  obtain rfl | ⟨fr, hrounds, herr⟩ := whileLoop_eq_error h
  · refine absurd h (whileLoop_ne_exhausted (fun fr : Frame σ κ => fr.running.length - fr.reqIndex)
      (fun fr fr' hround => (decodeBody_again hround).measure_lt)
      (fun fr herr => ?_) (by omega))
    exact nomatch (decodeBody_error herr).1
  · obtain ⟨rfl, id, hindex, hunscheduled, hready⟩ := decodeBody_error herr
    obtain ⟨victims, hphase⟩ := hrounds.invariant
      (I := fun fr => ∃ victims, DecodePhase self fr₀ victims fr)
      (fun fr fr' ⟨victims, hphase⟩ hround =>
        (hphase.again hnodup (decodeBody_again hround)).imp' _ fun _ h => h) ⟨[], hstart⟩
    have hrunning := List.mem_of_getElem? hindex
    rw [hphase.scheduledReqIds, List.mem_toFinset] at hunscheduled
    rw [hphase.other id (hphase.not_mem_victims hnodup hrunning) hunscheduled] at hready
    refine ⟨rfl, id, ?_, hready⟩
    rw [hphase.running]
    exact List.mem_append_left _ hrunning

end AscendScheduler

end VllmAscend
