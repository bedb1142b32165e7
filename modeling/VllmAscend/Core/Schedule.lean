import VllmAscend.Core.Decode

/-!
# Core/Schedule — `AscendScheduler.schedule`

    prefill loop ──▸ skipped requests back in front ──▸ decode loop, if nothing is in flight
                 ──▸ terminal assertions ──▸ SchedulerOutput ──▸ num_computed_tokens advanced

`schedule_eq_ok` is the call taken apart; the two loops are the subject of `PrefillPhase` and
`DecodePhase`.
-/

namespace VllmAscend

open Machinery

variable {σ κ M : Type}

/-- `self.waiting.extendleft(skipped_waiting_requests)`. -/
def Frame.putBackSkipped (fr : Frame σ κ) : Frame σ κ :=
  { fr with waiting := fr.skippedWaitingRequests.reverse ++ fr.waiting }

/-- The request with `n` more computed tokens. -/
def Request.advance (r : Request) (n : ℤ) : Request :=
  { r with numComputedTokens := r.numComputedTokens + n }

/-- `self.requests[req_id].num_computed_tokens += num_scheduled_token`. -/
def advanceOne (requests : Finset ReqId) (obj : ReqId → Request)
    (entry : Sigma fun _ : ReqId => ℤ) : Except Fault (ReqId → Request) :=
  if entry.1 ∈ requests then .ok (updateObj obj entry.1 fun r => r.advance entry.2)
  else .error .keyError

/-- …for each item of `num_scheduled_tokens`. -/
def advanceComputed (requests : Finset ReqId) (obj : ReqId → Request)
    (numScheduledTokens : Dict ℤ) : Except Fault (ReqId → Request) :=
  numScheduledTokens.entries.foldlM (advanceOne requests) obj

namespace AscendScheduler

variable (self : AscendScheduler σ κ M)

/-- `self` and the local variables before the loops. -/
def start (s : SchedulerState σ κ) : Frame σ κ :=
  { s with
    scheduledNewReqs := []
    scheduledResumedReqs := []
    scheduledRunningReqs := []
    preemptedReqs := []
    reqToNewBlockIds := ∅
    numScheduledTokens := ∅
    tokenBudget := self.maxNumScheduledTokens
    scheduledSpecDecodeTokens := ∅
    scheduledLoras := ∅
    skippedWaitingRequests := []
    reqIndex := 0 }

/-- Schedule prefill requests first. -/
def prefillPhase (s : SchedulerState σ κ) : Except Fault (Frame σ κ) :=
  whileLoop .outOfRounds self.prefillBody (s.waiting.length + 1) (self.start s)

/-- If no prefill requests are scheduled, schedule decode requests next. -/
def decodePhase (fr : Frame σ κ) : Except Fault (Frame σ κ) :=
  if fr.scheduledReqIds.card = 0 then
    whileLoop .outOfRounds self.decodeBody (fr.running.length + 1) fr
  else .ok fr

/-- The scheduling constraints that are asserted before the output is built. -/
def checkConstraints (fr : Frame σ κ) : Except Fault Unit :=
  if fr.numScheduledTokens.values.sum > self.maxNumScheduledTokens then .error .totalScheduled
  else if fr.tokenBudget < 0 then .error .tokenBudget
  else if fr.running.length > self.maxNumRunningReqs then .error .runningLimit
  else if fr.scheduledNewReqs.length + fr.scheduledResumedReqs.length +
      fr.scheduledRunningReqs.length > fr.running.length then .error .scheduledCount
  else .ok ()

/-- The scheduler output, before the connector adds its metadata. -/
def buildOutput (fr : Frame σ κ) : SchedulerOutput M where
  scheduledNewReqs := fr.scheduledNewReqs.map fun id =>
    NewRequestData.fromRequest id (fr.obj id) ((fr.reqToNewBlockIds.lookup id).getD [])
  scheduledCachedReqs := self.super.makeCachedRequestData fr.obj fr.scheduledRunningReqs
    fr.scheduledResumedReqs fr.numScheduledTokens fr.scheduledSpecDecodeTokens fr.reqToNewBlockIds
  numScheduledTokens := fr.numScheduledTokens
  totalNumScheduledTokens := fr.numScheduledTokens.values.sum
  scheduledSpecDecodeTokens := fr.scheduledSpecDecodeTokens
  finishedReqIds := fr.finishedReqIds
  kvConnectorMetadata := none

/-- `scheduler_output.kv_connector_metadata = self.connector.build_connector_meta(...)`, if there
is a connector. -/
def buildMeta (conn : κ) (out : SchedulerOutput M) : Except Fault (κ × SchedulerOutput M) :=
  match self.connector with
  | none => .ok (conn, out)
  | some connector =>
    match connector.buildConnectorMeta conn out with
    | none => .error .connector
    | some (conn, metadata) => .ok (conn, { out with kvConnectorMetadata := some metadata })

/-- The two loops. -/
def planRequests (s : SchedulerState σ κ) : Except Fault (Frame σ κ) := do
  let fr ← self.prefillPhase s
  self.decodePhase fr.putBackSkipped

/-- `schedule()`. -/
def schedule (s : SchedulerState σ κ) : Except Fault (SchedulerState σ κ × SchedulerOutput M) :=
  if self.schedulerConfig.chunkedPrefillEnabled then self.super.schedule s
  else do
    let fr ← self.planRequests s
    self.checkConstraints fr
    let (conn, out) ← self.buildMeta fr.conn (self.buildOutput fr)
    let obj ← advanceComputed fr.requests fr.obj fr.numScheduledTokens
    return ({ fr.toSchedulerState with conn := conn, obj := obj, finishedReqIds := ∅ }, out)

end AscendScheduler

/-! ## Advancing the computed tokens -/

@[simp] theorem Request.advance_zero (r : Request) : r.advance 0 = r := by
  simp [Request.advance]

/-- The fold over entries with distinct keys. -/
theorem foldlM_advanceOne {requests : Finset ReqId} : ∀ {l : List (Sigma fun _ : ReqId => ℤ)}
    {obj obj' : ReqId → Request}, l.NodupKeys → l.foldlM (advanceOne requests) obj = .ok obj' →
      (∀ id ∈ l.keys, id ∈ requests) ∧ ∀ id, obj' id = (obj id).advance ((l.dlookup id).getD 0)
  | [], obj, obj', _, h => by
    cases h
    exact ⟨by simp, fun id => by simp⟩
  | ⟨key, n⟩ :: l, obj, obj', hnodup, h => by
    rw [List.foldlM_cons, bind_eq_ok] at h
    obtain ⟨obj₁, hhead, htail⟩ := h
    unfold advanceOne at hhead
    split at hhead
    · next hmem =>
      cases hhead
      rw [List.nodupKeys_cons] at hnodup
      obtain ⟨hrest, hobj⟩ := foldlM_advanceOne hnodup.2 htail
      refine ⟨?_, fun id => ?_⟩
      · intro id hid
        rw [List.keys_cons, List.mem_cons] at hid
        obtain rfl | hid := hid
        · exact hmem
        · exact hrest id hid
      · rw [hobj id]
        by_cases hkey : id = key
        · subst hkey
          rw [List.dlookup_cons_eq, List.dlookup_eq_none.mpr hnodup.1, updateObj_self]
          simp
        · rw [List.dlookup_cons_ne _ _ hkey, updateObj_of_ne hkey]
    · contradiction

/-- **Advancing adds to each scheduled request the tokens it is scheduled**, and every one of them
is in the request table. -/
theorem advanceComputed_eq_ok {requests : Finset ReqId} {obj obj' : ReqId → Request} {d : Dict ℤ}
    (h : advanceComputed requests obj d = .ok obj') :
    (∀ id ∈ d, id ∈ requests) ∧ ∀ id, obj' id = (obj id).advance ((d.lookup id).getD 0) :=
  foldlM_advanceOne d.nodupKeys h

theorem foldlM_advanceOne_ne_error {requests : Finset ReqId} (e : Fault) :
    ∀ (l : List (Sigma fun _ : ReqId => ℤ)) (obj : ReqId → Request),
      (∀ id ∈ l.keys, id ∈ requests) → l.foldlM (advanceOne requests) obj ≠ .error e
  | [], _, _, h => nomatch h
  | entry :: l, obj, hkeys, h => by
    have hhead : advanceOne requests obj entry =
        .ok (updateObj obj entry.1 fun r => r.advance entry.2) :=
      if_pos (hkeys entry.1 (by simp))
    rw [List.foldlM_cons, hhead] at h
    exact foldlM_advanceOne_ne_error e l _ (fun id hid => hkeys id (by simp [hid])) h

/-- Only an id outside the table makes it raise. -/
theorem advanceComputed_ne_error {requests : Finset ReqId} {d : Dict ℤ}
    (h : ∀ id ∈ d, id ∈ requests) (obj : ReqId → Request) (e : Fault) :
    advanceComputed requests obj d ≠ .error e :=
  foldlM_advanceOne_ne_error e d.entries obj h

/-! ## The call, taken apart -/

namespace AscendScheduler

variable {self : AscendScheduler σ κ M} {s s' : SchedulerState σ κ} {out : SchedulerOutput M}

/-- **What a call that returns went through.** -/
theorem schedule_eq_ok (hoff : self.schedulerConfig.chunkedPrefillEnabled = false)
    (h : self.schedule s = .ok (s', out)) :
    ∃ fr conn, self.planRequests s = .ok fr ∧ self.checkConstraints fr = .ok () ∧
      self.buildMeta fr.conn (self.buildOutput fr) = .ok (conn, out) ∧
      advanceComputed fr.requests fr.obj fr.numScheduledTokens = .ok s'.obj ∧
      s' = { fr.toSchedulerState with conn := conn, obj := s'.obj, finishedReqIds := ∅ } := by
  simp only [schedule, hoff, Bool.false_eq_true, if_false] at h
  rw [bind_eq_ok] at h
  obtain ⟨fr, hplan, h⟩ := h
  rw [bind_eq_ok] at h
  obtain ⟨_, hcheck, h⟩ := h
  rw [bind_eq_ok] at h
  obtain ⟨⟨conn, out'⟩, hmeta, h⟩ := h
  rw [bind_eq_ok] at h
  obtain ⟨obj, hadvance, h⟩ := h
  cases h
  exact ⟨fr, conn, hplan, hcheck, hmeta, hadvance, rfl⟩

/-- The loops one after the other. -/
theorem planRequests_eq_ok {fr : Frame σ κ} (h : self.planRequests s = .ok fr) :
    ∃ fr₀, self.prefillPhase s = .ok fr₀ ∧ self.decodePhase fr₀.putBackSkipped = .ok fr :=
  bind_eq_ok.mp h

/-- The connector's metadata is all that it adds to the output. -/
theorem buildMeta_eq_ok {conn conn' : κ} {out₀ : SchedulerOutput M}
    (h : self.buildMeta conn out₀ = .ok (conn', out)) :
    out = { out₀ with kvConnectorMetadata := out.kvConnectorMetadata } := by
  unfold buildMeta at h
  split at h
  · cases h
    rfl
  · split at h
    · contradiction
    · cases h
      rfl

end AscendScheduler

end VllmAscend
