import VllmAscend.Core.Blocks
import VllmAscend.Worker.Serving

/-!
# Worker/BlockTables — the worker's block ids are the ones the KV cache manager holds

    held(id)  =  block_ids(id)            for every running request

The worker rebuilds the blocks of a request from increments.  It may, as long as the first entry it
is sent after an admission has all the blocks there are, and every later one has what is new since.
On one version branch an admission records the new blocks only, so a request that held some before,
or got some from the prefix cache, is short of them for as long as it runs.
-/

namespace VllmAscend

open Machinery

variable {σ κ M : Type}

namespace NPUModelRunner

/-! ## One entry -/

variable {st st' : CachedRequestState} {e : CachedRequestEntry} {isLastRank : Bool}

/-- Where there are as many groups, the blocks are extended group by group. -/
theorem extendBlockIds_eq {b c : List (List BlockId)} (h : b.length = c.length) :
    extendBlockIds b c = appendBlockIds b c := by
  rw [extendBlockIds, ← h, List.drop_length, List.append_nil, appendBlockIds]

theorem receiveTokens_blockIds {tokens : List Token}
    (h : receiveTokens isLastRank st tokens = .ok st') : st'.blockIds = st.blockIds := by
  unfold receiveTokens at h
  simp only at h
  split_ifs at h
  · cases h
    rfl
  · split at h
    · contradiction
    · cases h
      rfl
  · cases h
    rfl
  · cases h
    rfl

/-- The blocks of a resumed request are replaced, and those of a running one extended. -/
theorem updateState_blockIds (h : updateState isLastRank st e = .ok st') :
    (e.resumedFromPreemption = true ∧ e.newBlockIds = some st'.blockIds) ∨
      (e.resumedFromPreemption = false ∧
        (e.newBlockIds = none ∧ st'.blockIds = st.blockIds ∨
          ∃ b, e.newBlockIds = some b ∧ st'.blockIds = extendBlockIds st.blockIds b)) := by
  unfold updateState at h
  rw [bind_eq_ok] at h
  obtain ⟨st₁, hreceive, h⟩ := h
  have hsame : st₁.blockIds = st.blockIds := (receiveTokens_blockIds hreceive).trans rfl
  unfold updateBlockIds at h
  split at h
  · next hresumed =>
    left
    split at h
    · contradiction
    · next hblocks =>
      cases h
      exact ⟨hresumed, hblocks⟩
  · next hresumed =>
    right
    refine ⟨by simpa using hresumed, ?_⟩
    split at h
    · next hblocks =>
      cases h
      exact Or.inl ⟨hblocks, hsame⟩
    · next b hblocks =>
      cases h
      exact Or.inr ⟨b, hblocks, by rw [hsame]⟩

end NPUModelRunner

/-! ## The invariant -/

/-- The worker knows the requests it was sent, and has the blocks of the running ones. -/
structure Mirrors (A : AscendScheduler σ κ M) (s : SchedulerState σ κ) (w : NPUModelRunner) :
    Prop where
  known : ∀ id, s.Sent id → id ∉ s.finishedReqIds ∧ id ∈ w.requests
  blocks : ∀ id ∈ s.running, ∀ st, w.requests.lookup id = some st → st.blockIds = A.held s.kv id

namespace Mirrors

variable {A : AscendScheduler σ κ M} {groups : ℕ} {s s' : SchedulerState σ κ}
  {w w' : NPUModelRunner} {out : SchedulerOutput M} {p : Plan} {id : ReqId}

/-- A request that was sent before and is not ignored is not among the finished. -/
theorem not_finished (hp : p.Describes A s s' out) (h : Mirrors A s w) (hsent : s.Sent id)
    (hignored : id ∉ p.ignored) : id ∉ out.finishedReqIds := by
  rw [hp.output.finished, Finset.mem_union, not_or]
  exact ⟨(h.known id hsent).1, by simpa using hignored⟩

/-- A request that is in a queue after the call was not ignored. -/
theorem not_ignored (hnodup : (s.waiting ++ s.running).Nodup) (hp : p.Describes A s s' out)
    (hid : id ∈ s'.waiting ++ s'.running) : id ∉ p.ignored := by
  have hnodup' := hp.queues.perm.nodup_iff.mpr hnodup
  exact fun hmem => (List.nodup_append.mp hnodup').2.2 id hid id hmem rfl

/-- **The worker's states after it is sent an output**: the blocks of every request it schedules are
the ones the KV cache manager holds. -/
theorem scheduled_blocks (laws : A.BaseLaws) (blockLaws : A.BlockLaws groups)
    (hp : p.Describes A s s' out) (hb : BlockHandover A groups s s' out) (h : Mirrors A s w)
    (hw : NPUModelRunner.StatesUpdated w w' out) (hid : id ∈ out.numScheduledTokens) :
    ∃ st, w'.requests.lookup id = some st ∧ st.blockIds = A.held s'.kv id := by
  obtain hnew | hreq := (NPUModelRunner.mem_numScheduledTokens (hp.entries laws)).mp hid
  · obtain ⟨d, hd, rfl⟩ := List.mem_map.mp hnew
    exact ⟨_, hw.new d hd, hb.new d hd⟩
  · obtain ⟨e, he, rfl⟩ := List.mem_map.mp hreq
    obtain ⟨_, st, st', hst, hupdate, hst'⟩ := hw.cached e he
    refine ⟨st', hst', ?_⟩
    obtain ⟨hresumed, hblocks⟩ | ⟨hrunning, hblocks⟩ :=
      NPUModelRunner.updateState_blockIds hupdate
    · rw [hb.resumed e he hresumed] at hblocks
      exact (Option.some.inj hblocks).symm
    · -- a running request has the blocks it was sent so far
      have hmem := SchedulerOutput.mem_cachedIds he hrunning
      rw [(hp.output.ids laws).2.2] at hmem
      have hold := h.blocks _ (hp.queues.mem_running_of_decoded hmem) st hst
      obtain ⟨hnone, hsame⟩ | ⟨b, hsome, hlen, hheld⟩ := hb.running e he hrunning
      · obtain ⟨_, heq⟩ | ⟨b, hsome, _⟩ := hblocks
        · rw [heq, hold, hsame]
        · rw [hnone] at hsome
          contradiction
      · obtain ⟨hnone, _⟩ | ⟨b', hsome', heq⟩ := hblocks
        · rw [hsome] at hnone
          contradiction
        · rw [hsome] at hsome'
          cases hsome'
          rw [heq, hold, hheld]
          exact NPUModelRunner.extendBlockIds_eq (by rw [blockLaws.held_length, hlen])

/-- **One output** keeps the worker and the scheduler together. -/
theorem schedule (laws : A.BaseLaws) (blockLaws : A.BlockLaws groups)
    (hnodup : (s.waiting ++ s.running).Nodup) (hp : p.Describes A s s' out)
    (hb : BlockHandover A groups s s' out) (h : Mirrors A s w)
    (hw : NPUModelRunner.StatesUpdated w w' out) : Mirrors A s' w' := by
  -- an unscheduled request is left as it was
  have hsame : ∀ {id}, s'.Sent id → id ∉ out.numScheduledTokens →
      w'.requests.lookup id = w.requests.lookup id := by
    intro id hsent hnot
    rw [hw.unscheduled id hnot, if_neg]
    exact not_finished hp h (sent_schedule hnodup hp hsent hnot)
      (not_ignored hnodup hp hsent.mem)
  refine ⟨fun id hsent => ⟨by simp [hp.finishedReqIds'], ?_⟩, fun id hid st hst => ?_⟩
  · by_cases hnum : id ∈ out.numScheduledTokens
    · obtain ⟨st, hst, _⟩ := scheduled_blocks laws blockLaws hp hb h hw hnum
      exact AList.lookup_isSome.mp (by rw [hst]; rfl)
    · rw [← AList.lookup_isSome, hsame hsent hnum, AList.lookup_isSome]
      exact (h.known id (sent_schedule hnodup hp hsent hnum)).2
  · by_cases hnum : id ∈ out.numScheduledTokens
    · obtain ⟨st', hst', hblocks⟩ := scheduled_blocks laws blockLaws hp hb h hw hnum
      rw [hst] at hst'
      cases hst'
      exact hblocks
    · rw [hsame (Or.inl hid) hnum] at hst
      rw [hb.unscheduled id hid hnum]
      have hold : id ∈ s.running := by
        have hunscheduled : id ∉ p.scheduled := fun hmem => hnum (hp.output.keys.mem_iff.mpr hmem)
        rw [Plan.scheduled, List.mem_append, not_or] at hunscheduled
        rw [hp.queues.running]
        exact List.mem_append_left _ ((hp.queues.mem_running' hid).resolve_right hunscheduled.1)
      exact h.blocks id hold st hst

/-- On the last rank `_update_states` returns. -/
theorem updateStates_ok (laws : A.BaseLaws) (hnodup : (s.waiting ++ s.running).Nodup)
    (hp : p.Describes A s s' out) (hb : BlockHandover A groups s s' out) (h : Mirrors A s w)
    (hlast : w.isLastRank = true) : ∃ w', w.updateStates out = .ok w' := by
  cases hupdate : w.updateStates out with
  | ok w' => exact ⟨w', rfl⟩
  | error fault =>
    obtain ⟨e, he, ⟨_, hunknown⟩ | ⟨_, hrank⟩ | ⟨_, hresumed, hnone⟩⟩ :=
      NPUModelRunner.updateStates_error (hp.entries laws) hupdate
    · have hsent := sent_of_cached laws hp he
      have hscheduled : e.reqId ∈ out.numScheduledTokens :=
        (NPUModelRunner.mem_numScheduledTokens (hp.entries laws)).mpr
          (Or.inr (List.mem_map_of_mem he))
      have hrun : e.reqId ∈ s'.running := by
        rw [hp.queues.running', List.mem_append]
        exact (List.mem_append.mp (hp.output.keys.mem_iff.mp hscheduled)).elim Or.inr
          fun hd => Or.inl (hp.queues.decoded.subset hd)
      have hignored := not_ignored hnodup hp (List.mem_append_right _ hrun)
      exact absurd hunknown (not_or.mpr ⟨not_finished hp h hsent hignored,
        not_not.mpr (h.known _ hsent).2⟩)
    · rw [hlast] at hrank
      contradiction
    · rw [hb.resumed e he hresumed] at hnone
      contradiction

/-! ## The other events -/

/-- Requests that leave the queues, or change only their tokens. -/
theorem filter (h : Mirrors A s w)
    (hsent : ∀ id, s'.Sent id → s.Sent id ∧ (id ∈ s'.finishedReqIds → id ∈ s.finishedReqIds))
    (hrunning : ∀ id ∈ s'.running, id ∈ s.running ∧ A.held s'.kv id = A.held s.kv id) :
    Mirrors A s' w where
  known := by
    intro id hid
    obtain ⟨hid, hfinished⟩ := hsent id hid
    obtain ⟨hnot, hknown⟩ := h.known id hid
    exact ⟨fun hmem => hnot (hfinished hmem), hknown⟩
  blocks := by
    intro id hid st hst
    obtain ⟨hid, hheld⟩ := hrunning id hid
    rw [hheld]
    exact h.blocks id hid st hst

variable {e e' : Engine σ κ M}

/-- A new request was not sent before. -/
theorem addRequest {r : Request} (laws : A.BaseLaws) (h : Mirrors A e.sched w)
    (hallowed : (Event.addRequest id r).Allowed e) :
    Mirrors A (A.super.addRequest e.sched id r) w := by
  refine h.filter (fun id' hsent => ⟨(sent_addRequest laws hallowed hsent).1, ?_⟩) ?_
  · rw [laws.add]
    exact fun hmem => hmem
  · rw [laws.add]
    exact fun _ hid => ⟨hid, rfl⟩

/-- `finish_requests` frees the blocks of requests that leave the queues. -/
theorem finishRequests {requestIds : RequestIds} {finishedStatus : RequestStatus}
    (laws : A.BaseLaws) (blockLaws : A.BlockLaws groups) (hcoherent : Coherent e)
    (h : Mirrors A e.sched w) :
    Mirrors A (A.finishRequests e.sched requestIds finishedStatus) w := by
  have hfinished := laws.finish { e.sched with
    scheduledReqIds := AscendScheduler.discardRunning e.sched requestIds.iterated }
    requestIds.consumed finishedStatus
  obtain ⟨hheld, hids⟩ := blockLaws.finish { e.sched with
    scheduledReqIds := AscendScheduler.discardRunning e.sched requestIds.iterated }
    requestIds.consumed finishedStatus
  refine h.filter (fun id hsent => ?_) fun id hid => ?_
  · obtain ⟨hsent, hnot⟩ := sent_finishRequests hcoherent hfinished hsent
    exact ⟨hsent, fun hmem => (Finset.mem_union.mp (hids hmem)).resolve_right hnot⟩
  · obtain ⟨_, hnot⟩ := sent_finishRequests hcoherent hfinished (Or.inl hid)
    refine ⟨?_, hheld id hnot⟩
    rw [AscendScheduler.finishRequests, hfinished.running] at hid
    exact (List.mem_filter.mp hid).1

/-- `update_from_output` frees the blocks of requests that leave the queues. -/
theorem updateFromOutput {res : ModelRunnerOutput} (laws : A.BaseLaws)
    (blockLaws : A.BlockLaws groups) (h : Mirrors A e.sched w) :
    Mirrors A (A.updateFromOutput e.sched out res) w := by
  obtain ⟨stopped, hupdated, _⟩ := laws.update { e.sched with
    scheduledReqIds := AscendScheduler.removeProcessed e.sched out } out res
  have hblocks := blockLaws.update { e.sched with
    scheduledReqIds := AscendScheduler.removeProcessed e.sched out } out res
  refine h.filter (fun id hsent => ?_) fun id hid => ⟨?_, ?_⟩
  · exact ⟨(sent_updateFromOutput hupdated hsent).1, (hblocks id hsent.mem).2⟩
  · rw [AscendScheduler.updateFromOutput, hupdated.running] at hid
    exact (List.mem_filter.mp hid).1
  · exact (hblocks id (List.mem_append_right _ hid)).1

/-- Caching the sampled tokens. -/
theorem sampled {tokens : ReqId → List Token} (h : Mirrors A s w)
    (hw : NPUModelRunner.Sampled w w' tokens) : Mirrors A s w' where
  known := by
    intro id hsent
    obtain ⟨hnot, hknown⟩ := h.known id hsent
    refine ⟨hnot, ?_⟩
    rw [← AList.lookup_isSome] at hknown ⊢
    have hblocks := congrArg Option.isSome (hw.blockIds id)
    rw [Option.isSome_map, Option.isSome_map] at hblocks
    rwa [hblocks]
  blocks := by
    intro id hid st' hst'
    have hblocks := hw.blockIds id
    rw [hst', Option.map_some, eq_comm, Option.map_eq_some_iff] at hblocks
    obtain ⟨st, hst, heq⟩ := hblocks
    rw [← heq]
    exact h.blocks id hid st hst

end Mirrors

/-- The calls of `schedule()` record all the blocks of the requests they admit. -/
def ServingEvent.RecordsAll (A : AscendScheduler σ κ M) (s : Serving σ κ M) : ServingEvent → Prop
  | .schedule _ => A.RecordsAll s.engine.sched
  | _ => True

/-- **Every event keeps the worker's block tables.** -/
theorem Mirrors.served {A : AscendScheduler σ κ M} {groups : ℕ} {s s' : Serving σ κ M}
    {ev : ServingEvent} (laws : A.BaseLaws) (blockLaws : A.BlockLaws groups)
    (hoff : A.schedulerConfig.chunkedPrefillEnabled = false) (hsound : Sound A s.engine)
    (h : Mirrors A s.engine.sched s.worker) (hallowed : ev.Allowed s) (hall : ev.RecordsAll A s)
    (hserved : Served A s ev s') : Mirrors A s'.engine.sched s'.worker := by
  cases hserved with
  | call calls step stepped =>
    cases calls with
    | addRequest =>
      cases step
      exact h.addRequest laws hallowed
    | finishRequests =>
      cases step
      exact h.finishRequests laws blockLaws hsound.toCoherent
    | updateFromOutput returned =>
      simp only [AscendScheduler.step] at step
      split at step
      · cases step
        exact h.updateFromOutput laws blockLaws
      · contradiction
  | @schedule res res' p sched out worker call plan execute =>
    have hb := AscendScheduler.schedule_blockHandover laws blockLaws hoff hsound.nodup hall call
      plan
    obtain ⟨w, hupdate, hsampled⟩ := NPUModelRunner.executeModel_eq_ok execute
    have hw := NPUModelRunner.updateStates_eq_ok (plan.entries laws) hupdate
    have hmirrors := h.schedule laws blockLaws hsound.nodup plan hb hw
    obtain ⟨_, hsampled, _⟩ | ⟨_, rfl, _⟩ := hsampled
    · exact hmirrors.sampled hsampled
    · exact hmirrors

/-- A deployment in which the prefix cache has the first block of a request. -/
def Deployment.cached : Deployment :=
  { Deployment.small with prefixCache := fun id => if id = "a" then [9] else [] }

namespace AscendScheduler

variable {A : AscendScheduler σ κ M} {groups : ℕ} {s₀ s : Serving σ κ M}

/-- **The worker's block tables are the KV cache manager's**: in every run whose calls of
`schedule()` record all the blocks of the requests they admit, `_update_states` gives every
scheduled request the blocks the manager holds for it, in their order; and on the last rank it
returns. -/
theorem block_tables_mirror (laws : A.BaseLaws) (blockLaws : A.BlockLaws groups)
    (hoff : A.schedulerConfig.chunkedPrefillEnabled = false) (hinit : s₀.Initial)
    (run : Run A.serve (fun s ev => ev.Allowed s ∧ ev.RecordsAll A s) s₀ s)
    (hall : A.RecordsAll s.engine.sched) {sched : SchedulerState σ κ} {out : SchedulerOutput M}
    (h : A.schedule s.engine.sched = .ok (sched, out)) :
    (∀ w, s.worker.updateStates out = .ok w → ∀ id ∈ out.numScheduledTokens,
      ∃ st, w.requests.lookup id = some st ∧
        st.blockIds = A.kvCacheManager.getBlockIds sched.kv id) ∧
      (s.worker.isLastRank = true → ∃ w, s.worker.updateStates out = .ok w) := by
  obtain ⟨hsound, hmirrors⟩ : Sound A s.engine ∧ Mirrors A s.engine.sched s.worker := by
    refine run.invariant (I := fun s => Sound A s.engine ∧ Mirrors A s.engine.sched s.worker) ?_
      ⟨.initial hinit.engine, ?_, ?_⟩
    · rintro s ev s' ⟨hsound, hmirrors⟩ ⟨hallowed, hall⟩ hstep
      have hserved := serve_eq_ok laws hoff hsound.nodup hstep
      exact ⟨hsound.served hallowed hserved,
        Mirrors.served laws blockLaws hoff hsound hmirrors hallowed hall hserved⟩
    · rintro id (hid | ⟨hid, _⟩)
      · simp [hinit.engine.running] at hid
      · simp [hinit.engine.waiting] at hid
    · intro id hid
      simp [hinit.engine.running] at hid
  obtain ⟨p, hp⟩ := schedule_plan hoff hsound.nodup h
  have hb := schedule_blockHandover laws blockLaws hoff hsound.nodup hall h hp
  refine ⟨fun w hw id hid => ?_, hmirrors.updateStates_ok laws hsound.nodup hp hb⟩
  exact Mirrors.scheduled_blocks laws blockLaws hp hb hmirrors
    (NPUModelRunner.updateStates_eq_ok (hp.entries laws) hw) hid

/-- A prompt that is prefilled, its first block from the prefix cache, and decoded once. -/
def prefillServed : List ServingEvent :=
  [.addRequest "a" (.ofPrompt [1, 2, 3, 4, 5, 6]), .schedule ⟨fun _ => [7], fun _ => none⟩,
    .updateFromOutput 0]

theorem block_tables_mirror_cached : ∃ s sched out,
    feed Deployment.cached.scheduler.serve Deployment.cached.serving prefillServed = .ok s ∧
    Deployment.cached.scheduler.schedule s.engine.sched = .ok (sched, out) ∧
    "a" ∈ out.numScheduledTokens ∧
    (∀ w, s.worker.updateStates out = .ok w → ∀ id ∈ out.numScheduledTokens,
      ∃ st, w.requests.lookup id = some st ∧
        st.blockIds = Deployment.cached.scheduler.kvCacheManager.getBlockIds sched.kv id) ∧
      (s.worker.isLastRank = true → ∃ w, s.worker.updateStates out = .ok w) := by
  obtain ⟨s, hs, hschedule⟩ : Returns (feed Deployment.cached.scheduler.serve
      Deployment.cached.serving prefillServed)
      fun s => (match Deployment.cached.scheduler.schedule s.engine.sched with
        | .ok (_, out) => decide ("a" ∈ out.numScheduledTokens)
        | .error _ => false) = true := by
    decide +kernel
  split at hschedule
  · next sched out hout =>
    refine ⟨s, sched, out, hs, hout, of_decide_eq_true hschedule,
      block_tables_mirror (Deployment.cached.laws none) (Deployment.cached.blockLaws none) rfl
        Deployment.cached.serving_initial (Run.of_feed hs ?_) (Or.inl rfl) hout⟩
    exact ⟨⟨⟨Request.ofPrompt_fresh _, by decide, by decide⟩, trivial⟩, fun _ _ =>
      ⟨⟨trivial, Or.inl rfl⟩, fun _ _ => ⟨⟨trivial, trivial⟩, fun _ _ => trivial⟩⟩⟩
  · contradiction

/-- **On the other version branch the worker misses the blocks of the prefix cache.** -/
theorem block_tables_miss : ∃ (d : Deployment) (s : Serving BlockPool Unit Unit)
    (sched : SchedulerState BlockPool Unit) (out : SchedulerOutput Unit) (w : NPUModelRunner)
    (st : CachedRequestState), d.vllmVersionIs01011 = false ∧
    Run d.scheduler.serve (fun s ev => ev.Allowed s) d.serving s ∧
    d.scheduler.schedule s.engine.sched = .ok (sched, out) ∧
    s.worker.updateStates out = .ok w ∧ "a" ∈ out.numScheduledTokens ∧
    w.requests.lookup "a" = some st ∧ st.blockIds = [[1]] ∧
    d.scheduler.kvCacheManager.getBlockIds sched.kv "a" = [[9, 1]] := by
  obtain ⟨s, hs, hmiss⟩ : Returns (feed
      { Deployment.cached with vllmVersionIs01011 := false }.scheduler.serve
      { Deployment.cached with vllmVersionIs01011 := false }.serving
      [.addRequest "a" (.ofPrompt [1, 2, 3, 4, 5, 6])])
      fun s => (match { Deployment.cached with vllmVersionIs01011 := false }.scheduler.schedule
          s.engine.sched with
        | .ok (sched, out) =>
          match s.worker.updateStates out with
          | .ok w =>
            match w.requests.lookup "a" with
            | some st => decide ("a" ∈ out.numScheduledTokens ∧ st.blockIds = [[1]] ∧
                sched.kv.heldBy "a" = [9, 1])
            | none => false
          | .error _ => false
        | .error _ => false) = true := by
    decide +kernel
  split at hmiss
  · next sched out hout =>
    split at hmiss
    · next w hw =>
      split at hmiss
      · next st hst =>
        obtain ⟨hscheduled, hblocks, hheld⟩ := of_decide_eq_true hmiss
        refine ⟨{ Deployment.cached with vllmVersionIs01011 := false }, s, sched, out, w, st, rfl,
          Run.of_feed hs ?_, hout, hw, hscheduled, hst, hblocks, congrArg (fun ids => [ids]) hheld⟩
        exact ⟨⟨Request.ofPrompt_fresh _, by decide, by decide⟩, fun _ _ => trivial⟩
      · contradiction
    · contradiction
  · contradiction

end AscendScheduler

end VllmAscend
