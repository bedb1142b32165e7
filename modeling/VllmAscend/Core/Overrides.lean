import VllmAscend.Core.Schedule

/-!
# Core/Overrides — `finish_requests`, `update_from_output`, and what they inherit

    finish_requests      scheduled_req_ids − {running ids it iterates over}      ──▸  super()
    update_from_output   scheduled_req_ids − {running ids in the output}         ──▸  super()

Both overrides take ids out of the in-flight gate and leave the rest to vLLM's `Scheduler`.  That
class is not in this repository; `BaseLaws` is what its methods are documented to do, and
`vllmBase` a scheduler that does it.

The two halves of `finish_requests` do not read their argument alike: a plain string is one id to
the base class and a sequence of characters to the loop before it.
-/

namespace VllmAscend

variable {σ κ M : Type}

namespace RequestIds

/-- What `for req_id in request_ids` goes through: a string yields its characters. -/
def iterated : RequestIds → List ReqId
  | .str id => id.toList.map String.singleton
  | .iterable ids => ids
  | .iterator ids => ids

/-- What is left after one such loop. -/
def consumed : RequestIds → RequestIds
  | .str id => .str id
  | .iterable ids => .iterable ids
  | .iterator _ => .iterator []

/-- The ids the base class reads: `(request_ids, )` for a string, else its elements. -/
def named : RequestIds → List ReqId
  | .str id => [id]
  | .iterable ids => ids
  | .iterator ids => ids

end RequestIds

namespace AscendScheduler

variable (self : AscendScheduler σ κ M)

/-- `self.scheduled_req_ids.discard(req_id)` for the running requests among `ids`. -/
def discardRunning (s : SchedulerState σ κ) (ids : List ReqId) : Finset ReqId :=
  ids.foldl (fun scheduledReqIds id =>
    if id ∈ s.requests then
      if (s.obj id).status = .running then scheduledReqIds.erase id else scheduledReqIds
    else scheduledReqIds) s.scheduledReqIds

/-- `finish_requests`. -/
def finishRequests (s : SchedulerState σ κ) (requestIds : RequestIds)
    (finishedStatus : RequestStatus) : SchedulerState σ κ :=
  self.super.finishRequests
    { s with scheduledReqIds := discardRunning s requestIds.iterated }
    requestIds.consumed finishedStatus

/-- `self.scheduled_req_ids.remove(req_id)` for the running requests the output schedules. -/
def removeProcessed (s : SchedulerState σ κ) (out : SchedulerOutput M) : Finset ReqId :=
  s.running.foldl (fun scheduledReqIds id =>
    let numTokensScheduled := (out.numScheduledTokens.lookup id).getD 0
    if numTokensScheduled = 0 then scheduledReqIds
    else if id ∈ scheduledReqIds then scheduledReqIds.erase id else scheduledReqIds)
    s.scheduledReqIds

/-- `update_from_output`. -/
def updateFromOutput (s : SchedulerState σ κ) (out : SchedulerOutput M) (res : ModelRunnerOutput) :
    SchedulerState σ κ :=
  self.super.updateFromOutput { s with scheduledReqIds := removeProcessed s out } out res

end AscendScheduler

/-! ## The gate, after each -/

/-- Erasing the elements of a list that satisfy a condition. -/
theorem mem_foldl_erase {α : Type} [DecidableEq α] (p : α → Prop) [DecidablePred p] {x : α} :
    ∀ (l : List α) (t : Finset α),
      x ∈ l.foldl (fun t a => if p a then t.erase a else t) t ↔ x ∈ t ∧ ¬(x ∈ l ∧ p x)
  | [], t => by simp
  | a :: l, t => by
    rw [List.foldl_cons, mem_foldl_erase p l]
    by_cases hp : p a
    · rw [if_pos hp, Finset.mem_erase]
      by_cases hx : x = a
      · subst hx
        simp [hp]
      · simp [hx]
    · rw [if_neg hp]
      by_cases hx : x = a
      · subst hx
        simp [hp]
      · simp [hx]

namespace AscendScheduler

variable {s : SchedulerState σ κ} {out : SchedulerOutput M} {id : ReqId}

theorem mem_discardRunning {ids : List ReqId} :
    id ∈ discardRunning s ids ↔ id ∈ s.scheduledReqIds ∧
      ¬(id ∈ ids ∧ id ∈ s.requests ∧ (s.obj id).status = .running) := by
  rw [← mem_foldl_erase (fun id => id ∈ s.requests ∧ (s.obj id).status = .running)]
  unfold discardRunning
  congr! 3 with t
  funext a
  split_ifs <;> simp_all

theorem mem_removeProcessed :
    id ∈ removeProcessed s out ↔ id ∈ s.scheduledReqIds ∧
      ¬(id ∈ s.running ∧ (out.numScheduledTokens.lookup id).getD 0 ≠ 0) := by
  rw [← mem_foldl_erase (fun id => (out.numScheduledTokens.lookup id).getD 0 ≠ 0)]
  unfold removeProcessed
  congr! 3 with t
  funext a
  simp only
  split_ifs <;> simp_all

end AscendScheduler

/-! ## The base class -/

/-- `Scheduler.finish_requests`, from `s` to `s'`, on the known requests `ids`. -/
structure Finished (s s' : SchedulerState σ κ) (ids : Finset ReqId) (status : RequestStatus) :
    Prop where
  running : s'.running = s.running.filter fun id => ¬(id ∈ ids ∧ (s.obj id).status = .running)
  waiting : s'.waiting = s.waiting.filter fun id => ¬(id ∈ ids ∧ (s.obj id).status ≠ .running)
  scheduledReqIds : s'.scheduledReqIds = s.scheduledReqIds
  requests_subset : s'.requests ⊆ s.requests
  requests_kept : ∀ id ∈ s.requests, id ∉ ids → id ∈ s'.requests
  status : ∀ id ∈ ids, (s'.obj id).status = status
  other : ∀ id, id ∉ ids → s'.obj id = s.obj id

/-- A request of a processed output that goes on: the `sampled` tokens are appended, and of the
`k` drafts those that were rejected are taken back. -/
structure Accepted (maxModelLen : ℕ) (r r' : Request) (sampled : List Token) (k : ℕ) : Prop where
  prompt : r'.promptTokenIds = r.promptTokenIds
  tokens : r'.outputTokenIds = r.outputTokenIds ++ sampled
  computed : r'.numComputedTokens = r.numComputedTokens - (k + 1 - sampled.length)
  unstopped : r'.numTokens < maxModelLen

/-- `Scheduler.update_from_output`, from `s` to `s'`; the requests `stopped` reached a stop. -/
structure Updated (maxModelLen : ℕ) (s s' : SchedulerState σ κ) (out : SchedulerOutput M)
    (res : ModelRunnerOutput) (stopped : Finset ReqId) : Prop where
  stopped_scheduled : ∀ id ∈ stopped, id ∈ out.numScheduledTokens ∧ id ∈ s.requests
  running : s'.running = s.running.filter fun id => id ∉ stopped
  waiting : s'.waiting = s.waiting.filter fun id => id ∉ stopped
  scheduledReqIds : s'.scheduledReqIds = s.scheduledReqIds
  requests_subset : s'.requests ⊆ s.requests
  requests_kept : ∀ id ∈ s.waiting ++ s.running, id ∈ s.requests → id ∉ stopped →
    id ∈ s'.requests
  accepted : ∀ id ∈ out.numScheduledTokens, id ∈ s.requests → id ∉ stopped →
    0 < (res.sampledTokenIds id).length →
    (res.sampledTokenIds id).length ≤ numSpecTokens out.scheduledSpecDecodeTokens id + 1 →
    Accepted maxModelLen (s.obj id) (s'.obj id) (res.sampledTokenIds id)
      (numSpecTokens out.scheduledSpecDecodeTokens id)
  status : ∀ id, id ∉ stopped → (s'.obj id).status = (s.obj id).status
  other : ∀ id, id ∉ out.numScheduledTokens → s'.obj id = s.obj id

/-- What the inherited methods are documented to do. -/
structure AscendScheduler.BaseLaws (A : AscendScheduler σ κ M) : Prop where
  add : ∀ s id r, A.super.addRequest s id r =
    { s with
      waiting := s.waiting ++ [id]
      requests := insert id s.requests
      obj := Function.update s.obj id r }
  finish : ∀ s (ids : RequestIds) status,
    Finished s (A.super.finishRequests s ids status) (ids.named.toFinset ∩ s.requests) status
  /-- a freed request leaves the table, at once where no connector can delay it -/
  finish_frees : A.connector = none → ∀ s (ids : RequestIds) status,
    (A.super.finishRequests s ids status).requests = s.requests \ ids.named.toFinset
  update : ∀ s out res, ∃ stopped,
    Updated A.maxModelLen s (A.super.updateFromOutput s out res) out res stopped ∧
      (A.connector = none → (A.super.updateFromOutput s out res).requests = s.requests \ stopped)
  /-- one entry for each running and then for each resumed request -/
  cached_ids : ∀ obj running resumed num spec blocks,
    ((A.super.makeCachedRequestData obj running resumed num spec blocks).map
        fun e => (e.reqId, e.resumedFromPreemption)) =
      running.map (fun id => (id, false)) ++ resumed.map (fun id => (id, true))
  /-- …with the blocks recorded for it; to a running request that gets none, `None` may be passed
  on -/
  cached_blocks : ∀ obj running resumed num spec blocks,
    ∀ e ∈ A.super.makeCachedRequestData obj running resumed num spec blocks,
      ∀ b, blocks.lookup e.reqId = some b →
        e.newBlockIds = some b ∨
          (e.resumedFromPreemption = false ∧ e.newBlockIds = none ∧ ∀ group ∈ b, group = [])
  /-- …and the tokens that were computed before the call -/
  cached_computed : ∀ obj running resumed num spec blocks,
    ∀ e ∈ A.super.makeCachedRequestData obj running resumed num spec blocks,
      e.numComputedTokens = (obj e.reqId).numComputedTokens
  /-- …and, if any, the tokens from there on -/
  cached_tokens : ∀ obj running resumed num spec blocks,
    ∀ e ∈ A.super.makeCachedRequestData obj running resumed num spec blocks,
      e.numComputedTokens + e.newTokenIds.length ≤
        max e.numComputedTokens (obj e.reqId).numTokens

/-! ## A scheduler that does it -/

/-- The request after its sampled tokens were appended and its rejected drafts taken back. -/
def acceptTokens (r : Request) (sampled : List Token) (drafts : Option (List Token)) (k : ℕ) :
    Request :=
  { r with
    outputTokenIds := r.outputTokenIds ++ sampled
    numComputedTokens :=
      if k = 0 then r.numComputedTokens else r.numComputedTokens - (k + 1 - sampled.length)
    specTokenIds := drafts.getD r.specTokenIds }

/-- vLLM's `Scheduler`, where a request stops at the model length only and no connector delays the
freeing of blocks. -/
def vllmBase (maxModelLen : ℕ) (free : σ → ReqId → σ)
    (updateWaitingForRemoteKv : σ → ReqId → Request → σ × Option ℤ) : BaseScheduler σ κ M where
  schedule s := .ok (s, ⟨[], [], ∅, 0, ∅, s.finishedReqIds, none⟩)
  addRequest s id r :=
    { s with
      waiting := s.waiting ++ [id]
      requests := insert id s.requests
      obj := Function.update s.obj id r }
  finishRequests s requestIds finishedStatus :=
    let valid := requestIds.named.toFinset ∩ s.requests
    { s with
      running := s.running.filter fun id => ¬(id ∈ valid ∧ (s.obj id).status = .running)
      waiting := s.waiting.filter fun id => ¬(id ∈ valid ∧ (s.obj id).status ≠ .running)
      requests := s.requests \ valid
      finishedReqIds := s.finishedReqIds ∪ valid
      obj := fun id =>
        if id ∈ valid then { s.obj id with status := finishedStatus } else s.obj id
      kv := (requestIds.named.filter (· ∈ s.requests)).foldl free s.kv }
  updateFromOutput s out res :=
    let scheduled := out.numScheduledTokens.keys.filter (· ∈ s.requests)
    let after := fun id => acceptTokens (s.obj id) (res.sampledTokenIds id) (res.specTokenIds id)
      (numSpecTokens out.scheduledSpecDecodeTokens id)
    let stopped := scheduled.filter fun id => maxModelLen ≤ (after id).numTokens
    { s with
      running := s.running.filter (· ∉ stopped.toFinset)
      waiting := s.waiting.filter (· ∉ stopped.toFinset)
      requests := s.requests \ stopped.toFinset
      finishedReqIds := s.finishedReqIds ∪ stopped.toFinset
      obj := fun id =>
        if id ∈ stopped then { after id with status := .finishedLengthCapped }
        else if id ∈ scheduled then after id else s.obj id
      kv := stopped.foldl free s.kv }
  updateWaitingForRemoteKv := updateWaitingForRemoteKv
  makeCachedRequestData obj runningReqs resumedReqs _ _ blocks :=
    let entry := fun resumed id =>
      { reqId := id
        resumedFromPreemption := resumed
        newTokenIds := []
        newBlockIds := some ((blocks.lookup id).getD [])
        numComputedTokens := (obj id).numComputedTokens : CachedRequestEntry }
    runningReqs.map (entry false) ++ resumedReqs.map (entry true)

/-- **The laws hold of it.** -/
theorem vllmBase_laws {A : AscendScheduler σ κ M} {free : σ → ReqId → σ}
    {remoteKv : σ → ReqId → Request → σ × Option ℤ}
    (h : A.super = vllmBase A.maxModelLen free remoteKv) : A.BaseLaws where
  add s id r := by rw [h]; rfl
  finish s ids status := by
    rw [h]
    refine ⟨rfl, rfl, rfl, Finset.sdiff_subset, ?_, ?_, ?_⟩
    · intro id hid hnot
      exact Finset.mem_sdiff.mpr ⟨hid, hnot⟩
    · intro id hid
      simp only [vllmBase, if_pos hid]
    · intro id hid
      simp only [vllmBase, if_neg hid]
  finish_frees _ s ids status := by
    rw [h]
    simp [vllmBase, Finset.sdiff_inter_self_right]
  update s out res := by
    rw [h]
    refine ⟨_, ⟨?_, rfl, rfl, rfl, Finset.sdiff_subset, ?_, ?_, ?_, ?_⟩, fun _ => rfl⟩
    · intro id hid
      simp only [List.mem_toFinset, List.mem_filter, decide_eq_true_eq] at hid
      exact hid.1
    · intro id _ hid hnot
      exact Finset.mem_sdiff.mpr ⟨hid, hnot⟩
    · intro id hout hid hstopped hpos hle
      rw [List.mem_toFinset] at hstopped
      have hscheduled : id ∈ out.numScheduledTokens.keys.filter (· ∈ s.requests) :=
        List.mem_filter.mpr ⟨hout, by simpa using hid⟩
      simp only [vllmBase, if_neg hstopped, if_pos hscheduled]
      refine ⟨rfl, rfl, ?_, ?_⟩
      · simp only [acceptTokens]
        split_ifs with hk
        · rw [hk] at hle ⊢
          omega
        · rfl
      · by_contra hlt
        exact hstopped (List.mem_filter.mpr ⟨hscheduled, by simpa using hlt⟩)
    · intro id hstopped
      rw [List.mem_toFinset] at hstopped
      simp only [vllmBase, if_neg hstopped]
      split_ifs <;> rfl
    · intro id hout
      have hscheduled : id ∉ out.numScheduledTokens.keys.filter (· ∈ s.requests) := fun hmem =>
        hout (List.mem_filter.mp hmem).1
      have hstopped : ∀ p, id ∉ (out.numScheduledTokens.keys.filter (· ∈ s.requests)).filter p :=
        fun p hmem => hscheduled (List.mem_filter.mp hmem).1
      simp only [vllmBase, if_neg (hstopped _), if_neg hscheduled]
  cached_ids obj running resumed num spec blocks := by
    rw [h]
    simp only [vllmBase, List.map_append, List.map_map]
    rfl
  cached_blocks obj running resumed num spec blocks := by
    rw [h]
    intro e he b hb
    left
    simp only [vllmBase, List.mem_append, List.mem_map] at he
    obtain ⟨id, _, rfl⟩ | ⟨id, _, rfl⟩ := he <;> simp_all
  cached_computed obj running resumed num spec blocks := by
    rw [h]
    intro e he
    simp only [vllmBase, List.mem_append, List.mem_map] at he
    obtain ⟨id, _, rfl⟩ | ⟨id, _, rfl⟩ := he <;> rfl
  cached_tokens obj running resumed num spec blocks := by
    rw [h]
    intro e he
    simp only [vllmBase, List.mem_append, List.mem_map] at he
    obtain ⟨id, _, rfl⟩ | ⟨id, _, rfl⟩ := he <;> simp

end VllmAscend
