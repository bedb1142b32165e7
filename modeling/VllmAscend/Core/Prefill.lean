import VllmAscend.Core.Scheduler

/-!
# Core/Prefill — the prefill loop of `schedule()`

    waiting[0] ─┬─ remote KVs not there, LoRA, budget, watermark ──▸ skipped
                ├─ longer than the limit ──▸ FINISHED_IGNORED
                ├─ loads its KVs asynchronously ──▸ parked (skipped, WAITING_FOR_REMOTE_KVS)
                ├─ gets its blocks ──▸ running
                └─ gets none ──▸ the loop ends

`prefillBody` is one round.  `prefillBody_again` says everything a round that goes on can have done
(`PrefillRound`), `prefillBody_leave` everything the last one can; what holds of the loop is
derived from these two and never from the body again.
-/

namespace VllmAscend

open Machinery

variable {σ κ M : Type}

/-- What the prefix cache and the connector already have of the request's tokens. -/
structure ComputedTokens where
  newComputedBlocks : KVCacheBlocks
  numNewLocalComputedTokens : ℕ
  numExternalComputedTokens : ℕ
  loadKvAsync : Bool
  numComputedTokens : ℤ

/-- How many tokens to schedule, or why none are. -/
inductive TokenVerdict where
  | tooLong
  | overBudget
  | schedule (numNewTokens : ℤ) (blocks : List KVCacheBlock)

namespace Frame

/-- `skip_cur_request()`. -/
def skipCurRequest (fr : Frame σ κ) (id : ReqId) : Frame σ κ :=
  { fr with
    waiting := fr.waiting.tail
    skippedWaitingRequests := id :: fr.skippedWaitingRequests }

/-- The request is longer than any prompt may be. -/
def finishIgnored (fr : Frame σ κ) (id : ReqId) : Frame σ κ :=
  { fr with
    waiting := fr.waiting.tail
    finishedReqIds := insert id fr.finishedReqIds
    obj := updateObj fr.obj id fun r => { r with status := .finishedIgnored } }

/-- The request waits for its remote KVs. -/
def park (fr : Frame σ κ) (id : ReqId) : Frame σ κ :=
  { fr with
    waiting := fr.waiting.tail
    skippedWaitingRequests := id :: fr.skippedWaitingRequests
    obj := updateObj fr.obj id fun r => { r with status := .waitingForRemoteKvs } }

end Frame

namespace AscendScheduler

variable (self : AscendScheduler σ κ M)

/-- The blocks of a request that waits for remote KVs may have arrived. -/
def awaitRemoteKv (fr : Frame σ κ) (id : ReqId) : Frame σ κ × Bool :=
  if (fr.obj id).status = .waitingForRemoteKvs then
    match self.super.updateWaitingForRemoteKv fr.kv id (fr.obj id) with
    | (kv, none) => ({ fr with kv := kv }, false)
    | (kv, some numComputedTokens) =>
      ({ fr with
          kv := kv
          obj := updateObj fr.obj id fun r =>
            { r with status := .waiting, numComputedTokens := numComputedTokens } }, true)
  else (fr, true)

/-- The already-cached tokens of the request, local and external. -/
def getComputed (fr : Frame σ κ) (id : ReqId) : Except Fault (σ × κ × ComputedTokens) :=
  let r := fr.obj id
  if r.numComputedTokens = 0 then
    match self.kvCacheManager.getComputedBlocks fr.kv id r with
    | (kv, blocks, numLocal) =>
      match self.connector with
      | none => .ok (kv, fr.conn, ⟨blocks, numLocal, 0, false, numLocal⟩)
      | some connector =>
        match connector.getNumNewMatchedTokens fr.conn id r numLocal with
        | none => .error .connector
        | some (conn, numExternal, loadKvAsync) =>
          .ok (kv, conn, ⟨blocks, numLocal, numExternal, loadKvAsync, numLocal + numExternal⟩)
  else
    .ok (fr.kv, fr.conn,
      ⟨self.kvCacheManager.createEmptyBlockList, 0, 0, false, r.numComputedTokens⟩)

/-- Number of tokens to be scheduled. -/
def decideTokens (tokenBudget : ℤ) (r : Request) (c : ComputedTokens) : Except Fault TokenVerdict :=
  if c.loadKvAsync then
    if 0 < c.numExternalComputedTokens then .ok (.schedule 0 []) else .error .externalTokens
  else
    match self.getPromptLimit r with
    | .error e => .error e
    | .ok promptLimit =>
      let numNewTokens : ℤ := r.numTokens - c.numComputedTokens
      let maxTokensInKvcache := self.numBlocks * self.blockSize
      if numNewTokens > (min promptLimit maxTokensInKvcache : ℕ) then .ok .tooLong
      else if numNewTokens > tokenBudget then .ok .overBudget
      else if 0 < numNewTokens then .ok (.schedule numNewTokens c.newComputedBlocks.firstGroup)
      else .error .newTokens

/-- The blocks `allocate_slots` is asked for in the prefill loop. -/
def prefillAllocArgs (c : ComputedTokens) (numNewTokens : ℤ) : AllocArgs where
  numNewTokens := numNewTokens + c.numExternalComputedTokens
  numNewComputedTokens := c.numNewLocalComputedTokens
  newComputedBlocks := some c.newComputedBlocks
  numLookaheadTokens := self.numLookaheadTokens
  delayCacheBlocks := c.loadKvAsync

/-- `connector.update_state_after_alloc(...)`, if there is a connector. -/
def notifyConnector (fr : Frame σ κ) (id : ReqId) (c : ComputedTokens) (newBlocks : KVCacheBlocks) :
    Except Fault (Frame σ κ) :=
  match self.connector with
  | none => .ok fr
  | some connector =>
    match connector.updateStateAfterAlloc fr.conn id (fr.obj id)
        (c.newComputedBlocks.add newBlocks) c.numExternalComputedTokens with
    | none => .error .connector
    | some (conn, params) =>
      .ok { fr with
        conn := conn
        obj := updateObj fr.obj id fun r => { r with kvTransferParams := params } }

/-- What is recorded of an admitted request whatever its status was. -/
def recordAdmitted (fr : Frame σ κ) (id : ReqId) (c : ComputedTokens) (numNewTokens : ℤ)
    (newBlocks : KVCacheBlocks) : Frame σ κ :=
  { fr with
    waiting := fr.waiting.tail
    running := fr.running ++ [id]
    scheduledReqIds := insert id fr.scheduledReqIds
    scheduledLoras := self.recordLora fr.scheduledLoras (fr.obj id)
    reqToNewBlockIds := fr.reqToNewBlockIds.insert id
      (if self.vllmVersionIs01011 then self.kvCacheManager.getBlockIds fr.kv id
        else newBlocks.getBlockIds)
    numScheduledTokens := fr.numScheduledTokens.insert id numNewTokens
    tokenBudget := fr.tokenBudget - numNewTokens
    obj := updateObj fr.obj id fun r =>
      { r with
        status := .running
        numComputedTokens := c.numComputedTokens
        numCachedTokens :=
          if r.numCachedTokens < 0 then c.numComputedTokens else r.numCachedTokens } }

/-- The request joins the running requests. -/
def admitRequest (fr : Frame σ κ) (id : ReqId) (c : ComputedTokens) (numNewTokens : ℤ)
    (newBlocks : KVCacheBlocks) : Except Fault (Frame σ κ) :=
  let fr' := self.recordAdmitted fr id c numNewTokens newBlocks
  match (fr.obj id).status with
  | .waiting => .ok { fr' with scheduledNewReqs := fr.scheduledNewReqs ++ [id] }
  | .preempted => .ok { fr' with scheduledResumedReqs := fr.scheduledResumedReqs ++ [id] }
  | _ => .error .invalidStatus

/-- The request has its blocks. -/
def placeRequest (fr : Frame σ κ) (id : ReqId) (c : ComputedTokens) (numNewTokens : ℤ)
    (newBlocks : KVCacheBlocks) : Except Fault (Pass (Frame σ κ)) :=
  match self.notifyConnector fr id c newBlocks with
  | .error e => .error e
  | .ok fr =>
    if c.loadKvAsync then .ok (.again (fr.park id))
    else
      match self.admitRequest fr id c numNewTokens newBlocks with
      | .error e => .error e
      | .ok fr => .ok (.again fr)

/-- The request passed the token checks: the watermark and the allocation decide. -/
def allocateRequest (fr : Frame σ κ) (id : ReqId) (c : ComputedTokens) (numNewTokens : ℤ)
    (blocks : List KVCacheBlock) : Except Fault (Pass (Frame σ κ)) :=
  if self.checkWatermarkForPrefill fr.kv id (fr.obj id) numNewTokens blocks then
    match self.kvCacheManager.allocateSlots fr.kv id (fr.obj id)
        (self.prefillAllocArgs c numNewTokens) with
    | (kv, none) => .ok (.leave { fr with kv := kv })
    | (kv, some newBlocks) => self.placeRequest { fr with kv := kv } id c numNewTokens newBlocks
  else .ok (.again (fr.skipCurRequest id))

/-- The request is not held back by its remote KVs or its LoRA adapter. -/
def considerRequest (fr : Frame σ κ) (id : ReqId) : Except Fault (Pass (Frame σ κ)) :=
  match self.getComputed fr id with
  | .error e => .error e
  | .ok (kv, conn, c) =>
    let fr := { fr with kv := kv, conn := conn }
    match self.decideTokens fr.tokenBudget (fr.obj id) c with
    | .error e => .error e
    | .ok .tooLong => .ok (.again (fr.finishIgnored id))
    | .ok .overBudget => .ok (.again (fr.skipCurRequest id))
    | .ok (.schedule numNewTokens blocks) => self.allocateRequest fr id c numNewTokens blocks

/-- One round of `while self.waiting and token_budget > 0`. -/
def prefillBody (fr : Frame σ κ) : Except Fault (Pass (Frame σ κ)) :=
  match fr.waiting with
  | [] => .ok (.leave fr)
  | id :: _ =>
    if fr.tokenBudget ≤ 0 then .ok (.leave fr)
    else if fr.running.length = self.maxNumRunningReqs then .ok (.leave fr)
    else
      match self.awaitRemoteKv fr id with
      | (fr, false) => .ok (.again (fr.skipCurRequest id))
      | (fr, true) =>
        if self.exceedsMaxLoras fr.scheduledLoras (fr.obj id) then
          .ok (.again (fr.skipCurRequest id))
        else self.considerRequest fr id

/-! ## What one round does, call by call

`Looked` is the way to the token checks; a round that goes on ends in one of the five constructors
of `PrefillRound`, a round that leaves the loop in one of the two of `PrefillExit`. -/

variable {self} {fr : Frame σ κ} {id : ReqId}

/-- The head of the queue got past its remote KVs and its LoRA adapter, and `c` is what is computed
of it. -/
structure Looked (A : AscendScheduler σ κ M) (fr : Frame σ κ) (id : ReqId)
    (fr₁ : Frame σ κ) (c : ComputedTokens) : Prop where
  ready : (A.awaitRemoteKv fr id).2 = true
  lora : A.exceedsMaxLoras fr.scheduledLoras (fr₁.obj id) = false
  computed : A.getComputed (A.awaitRemoteKv fr id).1 id = .ok (fr₁.kv, fr₁.conn, c)
  frame : fr₁ = { (A.awaitRemoteKv fr id).1 with kv := fr₁.kv, conn := fr₁.conn }

/-- A round of the prefill loop that goes on to the next request. -/
inductive PrefillRound (self : AscendScheduler σ κ M) (fr : Frame σ κ) (id : ReqId) :
    Frame σ κ → Prop where
  /-- skipped before the prefix cache was asked -/
  | held : PrefillRound self fr id ((self.awaitRemoteKv fr id).1.skipCurRequest id)
  /-- over the token budget, or below the watermark -/
  | skip {fr₁ : Frame σ κ} {c : ComputedTokens} (looked : Looked self fr id fr₁ c) :
    PrefillRound self fr id (fr₁.skipCurRequest id)
  | ignore {fr₁ : Frame σ κ} {c : ComputedTokens} (looked : Looked self fr id fr₁ c)
    (verdict : self.decideTokens fr.tokenBudget (fr₁.obj id) c = .ok .tooLong) :
    PrefillRound self fr id (fr₁.finishIgnored id)
  | park {fr₁ fr₂ : Frame σ κ} {c : ComputedTokens} {n : ℤ} {kv : σ} {newBlocks : KVCacheBlocks}
    (looked : Looked self fr id fr₁ c)
    (alloc : self.kvCacheManager.allocateSlots fr₁.kv id (fr₁.obj id) (self.prefillAllocArgs c n)
      = (kv, some newBlocks))
    (notify : self.notifyConnector { fr₁ with kv := kv } id c newBlocks = .ok fr₂)
    (async : c.loadKvAsync = true) :
    PrefillRound self fr id (fr₂.park id)
  | admitted {fr₁ fr₂ fr₃ : Frame σ κ} {c : ComputedTokens} {n : ℤ} {blocks : List KVCacheBlock}
    {kv : σ} {newBlocks : KVCacheBlocks}
    (looked : Looked self fr id fr₁ c)
    (verdict : self.decideTokens fr.tokenBudget (fr₁.obj id) c = .ok (.schedule n blocks))
    (watermark : self.checkWatermarkForPrefill fr₁.kv id (fr₁.obj id) n blocks = true)
    (alloc : self.kvCacheManager.allocateSlots fr₁.kv id (fr₁.obj id) (self.prefillAllocArgs c n)
      = (kv, some newBlocks))
    (notify : self.notifyConnector { fr₁ with kv := kv } id c newBlocks = .ok fr₂)
    (sync : c.loadKvAsync = false)
    (admission : self.admitRequest fr₂ id c n newBlocks = .ok fr₃) :
    PrefillRound self fr id fr₃

/-- The round that ends the prefill loop. -/
inductive PrefillExit (self : AscendScheduler σ κ M) (fr : Frame σ κ) : Frame σ κ → Prop where
  /-- nothing waits, or there is no budget or no room for one more -/
  | done : PrefillExit self fr fr
  /-- the blocks are not free -/
  | refused {id : ReqId} {rest : List ReqId} {fr₁ : Frame σ κ} {c : ComputedTokens} {n : ℤ} {kv : σ}
    (head : fr.waiting = id :: rest) (looked : Looked self fr id fr₁ c)
    (alloc : self.kvCacheManager.allocateSlots fr₁.kv id (fr₁.obj id) (self.prefillAllocArgs c n)
      = (kv, none)) :
    PrefillExit self fr { fr₁ with kv := kv }

@[simp] theorem awaitRemoteKv_tokenBudget (fr : Frame σ κ) (id : ReqId) :
    (self.awaitRemoteKv fr id).1.tokenBudget = fr.tokenBudget := by
  unfold awaitRemoteKv
  split
  · split <;> rfl
  · rfl

@[simp] theorem awaitRemoteKv_scheduledLoras (fr : Frame σ κ) (id : ReqId) :
    (self.awaitRemoteKv fr id).1.scheduledLoras = fr.scheduledLoras := by
  unfold awaitRemoteKv
  split
  · split <;> rfl
  · rfl

/-- A request with its blocks is parked or admitted. -/
theorem placeRequest_eq_ok {fr₁ : Frame σ κ} {c : ComputedTokens} {n : ℤ} {kv : σ}
    {blocks : List KVCacheBlock} {newBlocks : KVCacheBlocks} {p : Pass (Frame σ κ)}
    (looked : Looked self fr id fr₁ c)
    (verdict : self.decideTokens fr.tokenBudget (fr₁.obj id) c = .ok (.schedule n blocks))
    (watermark : self.checkWatermarkForPrefill fr₁.kv id (fr₁.obj id) n blocks = true)
    (alloc : self.kvCacheManager.allocateSlots fr₁.kv id (fr₁.obj id) (self.prefillAllocArgs c n)
      = (kv, some newBlocks))
    (h : self.placeRequest { fr₁ with kv := kv } id c n newBlocks = .ok p) :
    ∃ fr', p = .again fr' ∧ PrefillRound self fr id fr' := by
  unfold placeRequest at h
  split at h
  · contradiction
  next fr₂ hnotify =>
    split at h
    · next hasync =>
      cases h
      exact ⟨_, rfl, .park looked alloc hnotify hasync⟩
    · next hsync =>
      split at h
      · contradiction
      next fr₃ hadm =>
        cases h
        exact ⟨_, rfl, .admitted looked verdict watermark alloc hnotify (by simpa using hsync) hadm⟩

/-- A request that passed the token checks is skipped, placed, or ends the loop. -/
theorem allocateRequest_eq_ok {fr₁ : Frame σ κ} {c : ComputedTokens} {n : ℤ}
    {blocks : List KVCacheBlock} {rest : List ReqId} {p : Pass (Frame σ κ)}
    (head : fr.waiting = id :: rest) (looked : Looked self fr id fr₁ c)
    (verdict : self.decideTokens fr.tokenBudget (fr₁.obj id) c = .ok (.schedule n blocks))
    (h : self.allocateRequest fr₁ id c n blocks = .ok p) :
    (∃ fr', p = .leave fr' ∧ PrefillExit self fr fr') ∨
      ∃ fr', p = .again fr' ∧ PrefillRound self fr id fr' := by
  unfold allocateRequest at h
  split at h
  · next hwatermark =>
    split at h
    · next kv halloc =>
      cases h
      exact Or.inl ⟨_, rfl, .refused head looked halloc⟩
    · next kv newBlocks halloc =>
      exact Or.inr (placeRequest_eq_ok looked verdict hwatermark halloc h)
  · cases h
    exact Or.inr ⟨_, rfl, .skip looked⟩

/-- A request that is not held back is ignored, skipped, placed, or ends the loop. -/
theorem considerRequest_eq_ok {rest : List ReqId} {p : Pass (Frame σ κ)}
    (head : fr.waiting = id :: rest) (ready : (self.awaitRemoteKv fr id).2 = true)
    (lora : self.exceedsMaxLoras fr.scheduledLoras ((self.awaitRemoteKv fr id).1.obj id) = false)
    (h : self.considerRequest (self.awaitRemoteKv fr id).1 id = .ok p) :
    (∃ fr', p = .leave fr' ∧ PrefillExit self fr fr') ∨
      ∃ fr', p = .again fr' ∧ PrefillRound self fr id fr' := by
  unfold considerRequest at h
  split at h
  · contradiction
  next kv conn c hcomputed =>
    have looked : Looked self fr id
        { (self.awaitRemoteKv fr id).1 with kv := kv, conn := conn } c :=
      ⟨ready, lora, hcomputed, rfl⟩
    simp only [awaitRemoteKv_tokenBudget] at h
    split at h
    · contradiction
    · next hverdict =>
      cases h
      exact Or.inr ⟨_, rfl, .ignore looked hverdict⟩
    · cases h
      exact Or.inr ⟨_, rfl, .skip looked⟩
    · next n blocks hverdict =>
      exact allocateRequest_eq_ok head looked hverdict h

/-- **The prefill loop, one round at a time**: it ends, or it deals with the head of the queue. -/
theorem prefillBody_eq_ok {p : Pass (Frame σ κ)} (h : self.prefillBody fr = .ok p) :
    (∃ fr', p = .leave fr' ∧ PrefillExit self fr fr') ∨
      ∃ id rest fr', p = .again fr' ∧ fr.waiting = id :: rest ∧ 0 < fr.tokenBudget ∧
        fr.running.length ≠ self.maxNumRunningReqs ∧ PrefillRound self fr id fr' := by
  unfold prefillBody at h
  split at h
  · cases h
    exact Or.inl ⟨_, rfl, .done⟩
  next id rest head =>
    split at h
    · cases h
      exact Or.inl ⟨_, rfl, .done⟩
    next hbudget =>
      split at h
      · cases h
        exact Or.inl ⟨_, rfl, .done⟩
      next hroom =>
        have goesOn : ∀ {fr'}, p = .again fr' → PrefillRound self fr id fr' →
            ∃ id rest fr', p = .again fr' ∧ fr.waiting = id :: rest ∧ 0 < fr.tokenBudget ∧
              fr.running.length ≠ self.maxNumRunningReqs ∧ PrefillRound self fr id fr' :=
          fun hp hround => ⟨id, rest, _, hp, head, by omega, hroom, hround⟩
        split at h
        · next fr₁ hawait =>
          cases h
          have hfr₁ : fr₁ = (self.awaitRemoteKv fr id).1 := by rw [hawait]
          subst hfr₁
          exact Or.inr (goesOn rfl .held)
        · next fr₁ hawait =>
          have hfr₁ : fr₁ = (self.awaitRemoteKv fr id).1 := by rw [hawait]
          have hready : (self.awaitRemoteKv fr id).2 = true := by rw [hawait]
          subst hfr₁
          split at h
          · cases h
            exact Or.inr (goesOn rfl .held)
          next hlora =>
            rw [awaitRemoteKv_scheduledLoras] at hlora
            refine (considerRequest_eq_ok head hready (by simpa using hlora) h).imp_right ?_
            rintro ⟨fr', hp, hround⟩
            exact goesOn hp hround

theorem prefillBody_leave {fr' : Frame σ κ} (h : self.prefillBody fr = .ok (.leave fr')) :
    PrefillExit self fr fr' := by
  obtain ⟨_, hp, hexit⟩ | ⟨_, _, _, hp, _⟩ := prefillBody_eq_ok h
  · cases hp
    exact hexit
  · contradiction

theorem prefillBody_again {fr' : Frame σ κ} (h : self.prefillBody fr = .ok (.again fr')) :
    ∃ id rest, fr.waiting = id :: rest ∧ 0 < fr.tokenBudget ∧
      fr.running.length ≠ self.maxNumRunningReqs ∧ PrefillRound self fr id fr' := by
  obtain ⟨_, hp, _⟩ | ⟨id, rest, _, hp, h⟩ := prefillBody_eq_ok h
  · contradiction
  · cases hp
    exact ⟨id, rest, h⟩

/-! ## What a round can raise -/

theorem getComputed_error {e : Fault} (h : self.getComputed fr id = .error e) :
    e.isEntry = true := by
  simp only [getComputed] at h
  split at h
  · split at h
    · contradiction
    · split at h
      · cases h
        rfl
      · contradiction
  · contradiction

theorem getPromptLimit_error {r : Request} {e : Fault} (h : self.getPromptLimit r = .error e) :
    e.isEntry = true := by
  simp only [getPromptLimit] at h
  -- whatever the limit of the configuration is
  generalize (if self.schedulerConfig.chunkedPrefillEnabled ∧ ¬self.schedulerConfig.isMultiStep
    then self.schedulerConfig.maxModelLen
    else min self.schedulerConfig.maxModelLen self.schedulerConfig.maxNumBatchedTokens) = limit at h
  split at h
  · contradiction
  · contradiction
  · split at h
    · contradiction
    · cases h
      rfl

theorem decideTokens_error {budget : ℤ} {r : Request} {c : ComputedTokens} {e : Fault}
    (h : self.decideTokens budget r c = .error e) : e.isEntry = true := by
  simp only [decideTokens] at h
  split at h
  · split at h
    · contradiction
    · cases h
      rfl
  · split at h
    · next hlimit =>
      cases h
      exact getPromptLimit_error hlimit
    · split at h
      · contradiction
      · split at h
        · contradiction
        · split at h
          · contradiction
          · cases h
            rfl

theorem notifyConnector_error {c : ComputedTokens} {newBlocks : KVCacheBlocks} {e : Fault}
    (h : self.notifyConnector fr id c newBlocks = .error e) : e.isEntry = true := by
  unfold notifyConnector at h
  split at h
  · contradiction
  · split at h
    · cases h
      rfl
    · contradiction

/-- The connector does not touch the status. -/
theorem notifyConnector_status {c : ComputedTokens} {newBlocks : KVCacheBlocks} {fr' : Frame σ κ}
    (h : self.notifyConnector fr id c newBlocks = .ok fr') :
    (fr'.obj id).status = (fr.obj id).status := by
  unfold notifyConnector at h
  split at h
  · cases h
    rfl
  · split at h
    · contradiction
    · cases h
      simp

theorem admitRequest_error {c : ComputedTokens} {n : ℤ} {newBlocks : KVCacheBlocks} {e : Fault}
    (h : self.admitRequest fr id c n newBlocks = .error e) :
    e = .invalidStatus ∧ (fr.obj id).status ≠ .waiting ∧ (fr.obj id).status ≠ .preempted := by
  simp only [admitRequest] at h
  split at h
  · contradiction
  · contradiction
  · next hwaiting hpreempted =>
    cases h
    exact ⟨rfl, hwaiting, hpreempted⟩

theorem placeRequest_error {c : ComputedTokens} {n : ℤ} {newBlocks : KVCacheBlocks} {e : Fault}
    (h : self.placeRequest fr id c n newBlocks = .error e) :
    e.isEntry = true ∨ (e = .invalidStatus ∧ (fr.obj id).status ≠ .waiting ∧
      (fr.obj id).status ≠ .preempted) := by
  unfold placeRequest at h
  split at h
  · next hnotify =>
    cases h
    exact Or.inl (notifyConnector_error hnotify)
  · next hnotify =>
    split at h
    · contradiction
    · split at h
      · next hadm =>
        cases h
        have := admitRequest_error hadm
        rw [notifyConnector_status hnotify] at this
        exact Or.inr this
      · contradiction

/-- A request that is not held back by its remote KVs and is then neither waiting nor preempted had
a status the prefill loop has no branch for. -/
theorem awaitRemoteKv_unschedulable (ready : (self.awaitRemoteKv fr id).2 = true)
    (hwaiting : ((self.awaitRemoteKv fr id).1.obj id).status ≠ .waiting)
    (hpreempted : ((self.awaitRemoteKv fr id).1.obj id).status ≠ .preempted) :
    (fr.obj id).status.isSchedulable = false := by
  unfold awaitRemoteKv at ready hwaiting hpreempted
  split at ready
  · next hremote =>
    rw [if_pos hremote] at hwaiting
    split at ready
    · contradiction
    · next hsome =>
      rw [hsome] at hwaiting
      simp at hwaiting
  · next hremote =>
    rw [if_neg hremote] at hwaiting hpreempted
    cases hstatus : (fr.obj id).status <;> simp_all [RequestStatus.isSchedulable]

/-- **A round raises on what the calls hand it**, or on the status of a request the loop has no
branch for. -/
theorem prefillBody_error {e : Fault} (h : self.prefillBody fr = .error e) :
    e.isEntry = true ∨ (e = .invalidStatus ∧
      ∃ id rest, fr.waiting = id :: rest ∧ (fr.obj id).status.isSchedulable = false) := by
  unfold prefillBody at h
  split at h
  · contradiction
  next id rest head =>
    split at h
    · contradiction
    split at h
    · contradiction
    split at h
    · contradiction
    next fr₁ hawait =>
      have hfr₁ : fr₁ = (self.awaitRemoteKv fr id).1 := by rw [hawait]
      have hready : (self.awaitRemoteKv fr id).2 = true := by rw [hawait]
      split at h
      · contradiction
      simp only [considerRequest] at h
      split at h
      · next hcomputed =>
        cases h
        exact Or.inl (getComputed_error hcomputed)
      split at h
      · next hdecide =>
        cases h
        exact Or.inl (decideTokens_error hdecide)
      · contradiction
      · contradiction
      · simp only [allocateRequest] at h
        split at h
        · split at h
          · contradiction
          · obtain hentry | ⟨he, hwaiting, hpreempted⟩ := placeRequest_error h
            · exact Or.inl hentry
            · rw [hfr₁] at hwaiting hpreempted
              exact Or.inr ⟨he, id, rest, head,
                awaitRemoteKv_unschedulable hready hwaiting hpreempted⟩
        · contradiction

end AscendScheduler

end VllmAscend
