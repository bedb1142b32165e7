import VllmAscend.Core.Prefill

/-!
# Core/PrefillMoves — a round of the prefill loop, without the calls

    kept       waiting[0] goes to the skipped requests
    ignored    waiting[0] leaves the queues
    admitted   waiting[0] joins the running requests with `n` tokens

Whatever the KV cache manager and the connector answer, a round moves the head of the queue in one
of three ways and touches no other request.  `PrefillMove` says which frame each way leads to, up
to the outside state and the head's own object.
-/

namespace VllmAscend

open Machinery

variable {σ κ M : Type}

/-- The tokens and the adapter of a request, which `schedule()` only reads (it may trim the drafts
of a request it decodes, `Decode`). -/
structure Request.SameTokens (r r' : Request) : Prop where
  promptTokenIds : r'.promptTokenIds = r.promptTokenIds
  outputTokenIds : r'.outputTokenIds = r.outputTokenIds
  specTokenIds : r'.specTokenIds = r.specTokenIds
  loraRequest : r'.loraRequest = r.loraRequest

namespace Request.SameTokens

theorem refl (r : Request) : SameTokens r r := ⟨rfl, rfl, rfl, rfl⟩

theorem trans {r r' r'' : Request} (h : SameTokens r r') (h' : SameTokens r' r'') :
    SameTokens r r'' :=
  ⟨h'.1.trans h.1, h'.2.trans h.2, h'.3.trans h.3, h'.4.trans h.4⟩

theorem numTokens {r r' : Request} (h : SameTokens r r') : r'.numTokens = r.numTokens := by
  rw [Request.numTokens, Request.numTokens, h.promptTokenIds, h.outputTokenIds]

end Request.SameTokens

/-- What can become of a request that stays in the waiting queue. -/
structure Request.Kept (r r' : Request) : Prop where
  tokens : r.SameTokens r'
  status : r'.status = r.status ∨ r'.status = .waitingForRemoteKvs ∨
    (r.status = .waitingForRemoteKvs ∧ r'.status = .waiting)

theorem Request.Kept.refl (r : Request) : r.Kept r := ⟨.refl r, Or.inl rfl⟩

/-- What became of a request the prefill loop looked at. -/
inductive Fate where
  | kept
  | ignored
  | admitted
  deriving DecidableEq, Repr

namespace AscendScheduler

variable {self : AscendScheduler σ κ M} {fr fr₁ fr₂ fr' : Frame σ κ} {id : ReqId}

/-- A round of the prefill loop, up to what the calls return. -/
inductive PrefillMove (self : AscendScheduler σ κ M) (fr : Frame σ κ) (id : ReqId) :
    Fate → Frame σ κ → Prop where
  | kept {kv : σ} {conn : κ} {r : Request} (request : (fr.obj id).Kept r) :
    PrefillMove self fr id .kept
      { fr with
        waiting := fr.waiting.tail
        skippedWaitingRequests := id :: fr.skippedWaitingRequests
        kv := kv, conn := conn, obj := Function.update fr.obj id r }
  | ignored {kv : σ} {conn : κ} {r : Request} (tokens : (fr.obj id).SameTokens r)
    (status : r.status = .finishedIgnored) :
    PrefillMove self fr id .ignored
      { fr with
        waiting := fr.waiting.tail
        finishedReqIds := insert id fr.finishedReqIds
        kv := kv, conn := conn, obj := Function.update fr.obj id r }
  | admitted {kv : σ} {conn : κ} {r : Request} {n : ℤ} {blocks : List (List BlockId)}
    {isNew : Bool} (tokens : (fr.obj id).SameTokens r) (status : r.status = .running)
    (computed : r.numComputedTokens + n = r.numTokens) (pos : 0 < n) (budget : n ≤ fr.tokenBudget)
    (lora : self.exceedsMaxLoras fr.scheduledLoras r = false)
    (resumed : isNew = false ↔ (fr.obj id).status = .preempted) :
    PrefillMove self fr id .admitted
      { fr with
        waiting := fr.waiting.tail
        running := fr.running ++ [id]
        scheduledReqIds := insert id fr.scheduledReqIds
        scheduledLoras := self.recordLora fr.scheduledLoras r
        reqToNewBlockIds := fr.reqToNewBlockIds.insert id blocks
        numScheduledTokens := fr.numScheduledTokens.insert id n
        tokenBudget := fr.tokenBudget - n
        scheduledNewReqs := fr.scheduledNewReqs ++ (if isNew then [id] else [])
        scheduledResumedReqs := fr.scheduledResumedReqs ++ (if isNew then [] else [id])
        kv := kv, conn := conn, obj := Function.update fr.obj id r }

/-! ## Each call, up to what it returns -/

/-- Two writes to one object are the second write. -/
theorem updateObj_update (obj : ReqId → Request) (id : ReqId) (r : Request)
    (f : Request → Request) :
    updateObj (Function.update obj id r) id f = Function.update obj id (f r) := by
  simp [updateObj]

/-- Awaiting the remote KVs changes the request only when they have arrived. -/
theorem awaitRemoteKv_frame (self : AscendScheduler σ κ M) (fr : Frame σ κ) (id : ReqId) :
    ∃ kv r,
      (self.awaitRemoteKv fr id).1 = { fr with kv := kv, obj := Function.update fr.obj id r } ∧
      (fr.obj id).SameTokens r ∧
      (r = fr.obj id ∨ ((fr.obj id).status = .waitingForRemoteKvs ∧ r.status = .waiting)) := by
  unfold awaitRemoteKv
  split
  · next hstatus =>
    split
    · next kv _ =>
      exact ⟨kv, fr.obj id, by simp, .refl _, Or.inl rfl⟩
    · next kv n _ =>
      exact ⟨kv, _, rfl, ⟨rfl, rfl, rfl, rfl⟩, Or.inr ⟨hstatus, rfl⟩⟩
  · exact ⟨fr.kv, fr.obj id, by simp, .refl _, Or.inl rfl⟩

/-- A request that was looked at has its own tokens and, unless its KVs arrived, its own status. -/
theorem Looked.frame_eq {c : ComputedTokens} (h : Looked self fr id fr₁ c) :
    ∃ r, fr₁ = { fr with kv := fr₁.kv, conn := fr₁.conn, obj := Function.update fr.obj id r } ∧
      (fr.obj id).SameTokens r ∧
      (r = fr.obj id ∨ ((fr.obj id).status = .waitingForRemoteKvs ∧ r.status = .waiting)) := by
  obtain ⟨kv, r, hframe, htokens, hstatus⟩ := awaitRemoteKv_frame self fr id
  refine ⟨r, ?_, htokens, hstatus⟩
  conv_lhs => rw [h.frame, hframe]

/-- The connector changes its own state and the request's transfer parameters. -/
theorem notifyConnector_frame {c : ComputedTokens} {newBlocks : KVCacheBlocks}
    (h : self.notifyConnector fr id c newBlocks = .ok fr') :
    ∃ conn params, fr' = { fr with
      conn := conn
      obj := updateObj fr.obj id fun r => { r with kvTransferParams := params } } := by
  unfold notifyConnector at h
  split at h
  · cases h
    refine ⟨fr.conn, (fr.obj id).kvTransferParams, ?_⟩
    simp [updateObj]
  · split at h
    · contradiction
    · cases h
      exact ⟨_, _, rfl⟩

/-- **What the token checks let through**: a positive number of tokens within the budget, and with
the computed ones exactly the request's. -/
theorem decideTokens_schedule {budget : ℤ} {r : Request} {c : ComputedTokens} {n : ℤ}
    {blocks : List KVCacheBlock} (sync : c.loadKvAsync = false)
    (h : self.decideTokens budget r c = .ok (.schedule n blocks)) :
    c.numComputedTokens + n = r.numTokens ∧ 0 < n ∧ n ≤ budget := by
  simp only [decideTokens, sync, Bool.false_eq_true, if_false] at h
  split at h
  · contradiction
  · split at h
    · cases h
    · split at h
      · cases h
      · split at h
        · cases h
          omega
        · contradiction

/-- **An admitted request was waiting or preempted**, and is new or resumed accordingly. -/
theorem admitRequest_frame {c : ComputedTokens} {n : ℤ} {newBlocks : KVCacheBlocks}
    (h : self.admitRequest fr id c n newBlocks = .ok fr') :
    ∃ isNew : Bool, (isNew = true → (fr.obj id).status = .waiting) ∧
      (isNew = false → (fr.obj id).status = .preempted) ∧
      fr' = { self.recordAdmitted fr id c n newBlocks with
        scheduledNewReqs := fr.scheduledNewReqs ++ (if isNew then [id] else [])
        scheduledResumedReqs := fr.scheduledResumedReqs ++ (if isNew then [] else [id]) } := by
  unfold admitRequest at h
  simp only at h
  split at h
  · next hs =>
    cases h
    refine ⟨true, fun _ => hs, by simp, ?_⟩
    simp [recordAdmitted]
  · next hs =>
    cases h
    refine ⟨false, by simp, fun _ => hs, ?_⟩
    simp [recordAdmitted]
  · contradiction

/-! ## The round -/

/-- A request whose remote KVs may have arrived is kept. -/
theorem Request.kept_of_awaited {r r' : Request} (htokens : r.SameTokens r')
    (hstatus : r' = r ∨ (r.status = .waitingForRemoteKvs ∧ r'.status = .waiting)) : r.Kept r' := by
  obtain rfl | h := hstatus
  · exact .refl _
  · exact ⟨htokens, Or.inr (Or.inr h)⟩

/-- A request that was looked at and is skipped is kept. -/
theorem Looked.kept {c : ComputedTokens} (h : Looked self fr id fr₁ c) :
    PrefillMove self fr id .kept (fr₁.skipCurRequest id) := by
  obtain ⟨r, hframe, htokens, hstatus⟩ := h.frame_eq
  rw [hframe]
  exact .kept (Request.kept_of_awaited htokens hstatus)

/-- The token checks find the request too long. -/
def TooLongAt (A : AscendScheduler σ κ M) (fr : Frame σ κ) (id : ReqId) : Prop :=
  ∃ fr₁ c, Looked A fr id fr₁ c ∧ A.decideTokens fr.tokenBudget (fr₁.obj id) c = .ok .tooLong

/-- **Every round moves the head of the queue and nothing else**, and ignores it only when it is
too long. -/
theorem PrefillRound.move (h : PrefillRound self fr id fr') :
    ∃ f, PrefillMove self fr id f fr' ∧ (f = .ignored → TooLongAt self fr id) := by
  cases h with
  | held =>
    obtain ⟨kv, r, hframe, htokens, hstatus⟩ := awaitRemoteKv_frame self fr id
    rw [hframe]
    exact ⟨_, @PrefillMove.kept _ _ _ self fr id kv fr.conn r
      (Request.kept_of_awaited htokens hstatus), fun hf => nomatch hf⟩
  | skip looked => exact ⟨_, looked.kept, fun hf => nomatch hf⟩
  | ignore looked verdict =>
    obtain ⟨r, hframe, htokens, hstatus⟩ := looked.frame_eq
    rw [hframe]
    simp only [Frame.finishIgnored, updateObj_update]
    exact ⟨_, .ignored ⟨htokens.1, htokens.2, htokens.3, htokens.4⟩ rfl,
      fun _ => ⟨_, _, looked, verdict⟩⟩
  | park looked alloc notify async =>
    obtain ⟨r, hframe, htokens, hstatus⟩ := looked.frame_eq
    obtain ⟨conn, params, hnotify⟩ := notifyConnector_frame notify
    rw [hnotify, hframe]
    simp only [Frame.park, updateObj_update]
    exact ⟨_, .kept ⟨⟨htokens.1, htokens.2, htokens.3, htokens.4⟩, Or.inr (Or.inl rfl)⟩,
      fun hf => nomatch hf⟩
  | @admitted fr₁ fr₂ fr₃ c n _ kv newBlocks looked verdict watermark alloc notify sync admitted =>
    obtain ⟨r, hframe, htokens, hstatus⟩ := looked.frame_eq
    obtain ⟨conn, params, hnotify⟩ := notifyConnector_frame notify
    obtain ⟨isNew, hnew, hresumed, hadm⟩ := admitRequest_frame admitted
    obtain ⟨hcomputed, hpos, hbudget⟩ := decideTokens_schedule sync verdict
    have hlora := looked.lora
    rw [hframe] at hlora hcomputed hnotify
    simp only [Function.update_self, updateObj_update] at hlora hcomputed hnotify
    subst hnotify
    simp only [Function.update_self] at hnew hresumed
    have hstat : isNew = false ↔ (fr.obj id).status = .preempted := by
      refine ⟨fun hf => ?_, fun hp => ?_⟩
      · obtain rfl | ⟨_, hw⟩ := hstatus
        · exact hresumed hf
        · exact absurd (hw.symm.trans (hresumed hf)) (by decide)
      · obtain rfl | ⟨hw, _⟩ := hstatus
        · cases isNew with
          | false => rfl
          | true => exact absurd (hp.symm.trans (hnew rfl)) (by decide)
        · exact absurd (hp.symm.trans hw) (by decide)
    rw [hadm]
    simp only [recordAdmitted, updateObj_update, Function.update_self]
    exact ⟨_, .admitted ⟨htokens.1, htokens.2, htokens.3, htokens.4⟩ rfl hcomputed hpos hbudget
      hlora hstat, fun hf => nomatch hf⟩

end AscendScheduler

end VllmAscend
