import VllmAscend.Core.Engine

/-!
# Core/Readiness — a running request that is not in flight is one token ahead

    in flight    num_computed_tokens = num_tokens + k        one unprocessed output, k drafts
    idle         num_computed_tokens = num_tokens - 1        none

The decode loop asserts the second line of whatever it considers.  It may, since it is entered only
when `scheduled_req_ids` is empty, and a request leaves that set with its output.  Between the two
lines lie several schedules, preemptions, trimmed drafts and rejected ones; `Ready` is what holds
all the time.

A plain string breaks it from the other side than it breaks the gate: `finish_requests("ab")` takes
a request `a` that is in flight out of the set.
-/

namespace VllmAscend

open Machinery

variable {σ κ M : Type}

/-- A request that is not in flight: it is in no unprocessed output, and one token ahead. -/
structure Idle (A : AscendScheduler σ κ M) (e : Engine σ κ M) (id : ReqId) : Prop where
  landed : ∀ i out, ¬e.Pending id i out
  ahead : (e.sched.obj id).numComputedTokens = (e.sched.obj id).numTokens - 1
  short : (e.sched.obj id).numTokens < A.maxModelLen

/-- A request in flight: it is in one unprocessed output, and computed as if all its drafts were
accepted. -/
structure InFlight (e : Engine σ κ M) (id : ReqId) (i : ℕ) (out : SchedulerOutput M) : Prop where
  pending : e.Pending id i out
  once : ∀ j o, e.Pending id j o → j = i
  computed : (e.sched.obj id).numComputedTokens =
    (e.sched.obj id).numTokens + numSpecTokens out.scheduledSpecDecodeTokens id

/-- The waiting requests are in no unprocessed output, and the gate tells the running ones that are
in flight. -/
structure Ready (A : AscendScheduler σ κ M) (e : Engine σ κ M) : Prop where
  waiting : ∀ id ∈ e.sched.waiting, ∀ i out, ¬e.Pending id i out
  idle : ∀ id ∈ e.sched.running, id ∉ e.sched.scheduledReqIds → Idle A e id
  inFlight : ∀ id ∈ e.sched.running, id ∈ e.sched.scheduledReqIds → ∃ i out, InFlight e id i out

/-- Requests in flight are left alone: an id is not added again while an output that schedules it
is unprocessed, and a request in flight that `finish_requests` iterates over is one it finishes. -/
def Event.SparesInFlight (e : Engine σ κ M) : Event → Prop
  | .addRequest id _ => ∀ i out, ¬e.Pending id i out
  | .finishRequests requestIds _ => ∀ id ∈ requestIds.iterated, id ∈ e.sched.scheduledReqIds →
    id ∈ requestIds.consumed.named
  | _ => True

variable {A : AscendScheduler σ κ M} {e e' : Engine σ κ M} {ev : Event} {id : ReqId}

/-- A request whose object and outputs are the same is as idle. -/
theorem Idle.congr (h : Idle A e id) (hobj : e'.sched.obj id = e.sched.obj id)
    (hpending : ∀ i out, e'.Pending id i out → e.Pending id i out) : Idle A e' id := by
  refine ⟨fun i out hp => h.landed i out (hpending i out hp), ?_, ?_⟩
  · rw [hobj]
    exact h.ahead
  · rw [hobj]
    exact h.short

/-- A request whose object and outputs are the same is as much in flight. -/
theorem InFlight.congr {i : ℕ} {out : SchedulerOutput M} (h : InFlight e id i out)
    (hobj : e'.sched.obj id = e.sched.obj id)
    (hpending : ∀ i out, e'.Pending id i out ↔ e.Pending id i out) : InFlight e' id i out := by
  refine ⟨(hpending i out).mpr h.pending, fun j o hp => h.once j o ((hpending j o).mp hp), ?_⟩
  rw [hobj]
  exact h.computed

/-- **A decoded request goes as far as the window**: one token and the drafts that are scheduled
with it. -/
theorem Idle.decode {r : Request} {n : ℤ} {k : ℕ} (h : Idle A e id)
    (hentry : AscendScheduler.DecodeEntry A (e.sched.obj id) r n k) :
    n = 1 + k ∧ (e.sched.obj id).numComputedTokens + n ≤ A.maxModelLen ∧
      (r.advance n).numComputedTokens = (r.advance n).numTokens + k := by
  have hahead := h.ahead
  have hshort := h.short
  have hpos : 0 < n := hentry.pos (by omega)
  have hspec := hentry.spec hpos
  refine ⟨by omega, hentry.bound, ?_⟩
  rw [hentry.drafts]
  simp only [Request.advance, Request.numTokens] at hahead ⊢
  omega

namespace Ready

theorem initial (h : e.Initial) : Ready A e := by
  constructor <;> simp [h.waiting, h.running]

/-- A new request is in no output. -/
theorem addRequest {r : Request} (h : Ready A e)
    (hallowed : (Event.addRequest id r).Allowed e)
    (hspares : (Event.addRequest id r).SparesInFlight e) :
    Ready A { e with
      sched := { e.sched with
        waiting := e.sched.waiting ++ [id]
        requests := insert id e.sched.requests
        obj := Function.update e.sched.obj id r }
      added := insert id e.added } := by
  have hobj : ∀ id' ∈ e.sched.running, Function.update e.sched.obj id r id' = e.sched.obj id' := by
    intro id' hid'
    refine Function.update_of_ne ?_ _ _
    rintro rfl
    exact hallowed.2.2 hid'
  refine ⟨?_, ?_, ?_⟩
  · intro id' hid'
    obtain hid' | hid' := List.mem_append.mp hid'
    · exact h.waiting id' hid'
    · obtain rfl := List.mem_singleton.mp hid'
      exact hspares
  · intro id' hid' hgate
    exact (h.idle id' hid' hgate).congr (hobj id' hid') fun _ _ hp => hp
  · intro id' hid' hgate
    obtain ⟨i, out, hin⟩ := h.inFlight id' hid' hgate
    exact ⟨i, out, hin.congr (hobj id' hid') fun _ _ => Iff.rfl⟩

/-- `schedule()` brings the requests of its output in flight, and preempts only idle ones. -/
theorem schedule {p : Plan} {s' : SchedulerState σ κ} {out : SchedulerOutput M}
    (hsound : Sound A e) (h : Ready A e) (hp : p.Describes A e.sched s' out) :
    Ready A { e with sched := s', history := e.history ++ [⟨out, false⟩] } := by
  have hnodup := hsound.nodup
  have hkeys : ∀ {id}, id ∈ out.numScheduledTokens ↔ id ∈ p.scheduled := hp.output.keys.mem_iff
  have hissue : ∀ {id i o},
      ({ e with sched := s', history := e.history ++ [⟨out, false⟩] } : Engine σ κ M).Pending id i o
        ↔ e.Pending id i o ∨ (i = e.history.length ∧ o = out ∧ id ∈ out.numScheduledTokens) :=
    Engine.pending_issue rfl
  have hunscheduled : ∀ {id}, id ∉ p.scheduled → ∀ i o,
      ({ e with sched := s', history := e.history ++ [⟨out, false⟩] } : Engine σ κ M).Pending id i o
        ↔ e.Pending id i o := by
    intro id hid i o
    rw [hissue]
    exact or_iff_left fun ⟨_, _, hout⟩ => hid (hkeys.mp hout)
  have hstay : ∀ {id}, id ∈ p.stay → id ∈ e.sched.running := by
    intro id hid
    rw [hp.queues.running]
    exact List.mem_append_left _ hid
  -- a request that comes in flight was in no output before
  have hlaunch : ∀ {id}, id ∈ p.scheduled → (∀ i o, ¬e.Pending id i o) →
      (s'.obj id).numComputedTokens =
        (s'.obj id).numTokens + numSpecTokens out.scheduledSpecDecodeTokens id →
      ∃ i o, InFlight { e with sched := s', history := e.history ++ [⟨out, false⟩] } id i o := by
    intro id hid hlanded hcomputed
    refine ⟨e.history.length, out, hissue.mpr (Or.inr ⟨rfl, rfl, hkeys.mpr hid⟩), ?_, hcomputed⟩
    intro j o hpending
    exact (hissue.mp hpending).elim (fun hold => absurd hold (hlanded j o)) fun hnew => hnew.1
  refine ⟨?_, ?_, ?_⟩
  · intro id hid i o hpending
    obtain hid | hid := hp.queues.mem_waiting' hid
    · obtain ⟨hadmitted, hempty⟩ | ⟨_, hnone⟩ := hp.queues.phases
      · have hidle := h.idle id (hp.queues.mem_running_of_preempted hid) (by simp [hempty])
        have hnot : id ∉ p.scheduled := by
          rw [Plan.scheduled, hadmitted, List.nil_append]
          exact fun hd => hp.queues.not_preempted hnodup (hp.queues.decoded.subset hd) hid
        exact hidle.landed i o ((hunscheduled hnot i o).mp hpending)
      · rw [hnone] at hid
        exact List.not_mem_nil hid
    · have hwaiting := hp.queues.mem_waiting_of_kept hid
      have hnot : id ∉ p.scheduled := by
        rw [Plan.scheduled, List.mem_append, not_or]
        exact ⟨hp.queues.not_admitted hnodup hid, fun hd => Plan.Queues.not_mem_running hnodup
          hwaiting (hp.queues.mem_running_of_decoded hd)⟩
      exact h.waiting id hwaiting i o ((hunscheduled hnot i o).mp hpending)
  · intro id hid hgate
    have hgate' : id ∉ e.sched.scheduledReqIds ∧ id ∉ p.scheduled := by
      simpa only [hp.queues.scheduledReqIds', Finset.mem_union, List.mem_toFinset, not_or]
        using hgate
    obtain ⟨hgate, hnot⟩ := hgate'
    obtain hid | hid := hp.queues.mem_running' hid
    · have hdecoded : id ∉ p.decoded := fun hd => hnot (List.mem_append_right _ hd)
      exact (h.idle id (hstay hid) hgate).congr (hp.obj_passed hnodup hid hdecoded)
        fun i o => (hunscheduled hnot i o).mp
    · exact absurd (List.mem_append_left _ hid) hnot
  · intro id hid hgate
    by_cases hs : id ∈ p.scheduled
    · obtain ha | hd := List.mem_append.mp hs
      · obtain ⟨n, _, _, _, _, hcomputed, hspec⟩ := hp.obj_admitted ha
        refine hlaunch hs (h.waiting id (hp.queues.mem_waiting_of_fate ha)) ?_
        rw [hcomputed, hspec]
        simp
      · obtain ⟨_, hempty⟩ | ⟨hnone, _⟩ := hp.queues.phases
        · have hidle := h.idle id (hp.queues.mem_running_of_decoded hd) (by simp [hempty])
          obtain ⟨n, r, _, hentry, hobj⟩ := hp.obj_decoded hd
          refine hlaunch hs hidle.landed ?_
          rw [hobj]
          exact (hidle.decode hentry).2.2
        · rw [hnone] at hd
          exact absurd hd List.not_mem_nil
    · have hgate' : id ∈ e.sched.scheduledReqIds := by
        have : id ∈ s'.scheduledReqIds := hgate
        rw [hp.queues.scheduledReqIds', Finset.mem_union, List.mem_toFinset] at this
        exact this.resolve_right hs
      obtain hid | hid := hp.queues.mem_running' hid
      · have hdecoded : id ∉ p.decoded := fun hd => hs (List.mem_append_right _ hd)
        obtain ⟨i, o, hin⟩ := h.inFlight id (hstay hid) hgate'
        exact ⟨i, o, hin.congr (hp.obj_passed hnodup hid hdecoded) (hunscheduled hs)⟩
      · exact absurd (List.mem_append_left _ hid) hs

/-- `update_from_output` lands the requests of its output. -/
theorem updateFromOutput {i : ℕ} {res : ModelRunnerOutput} {s' : SchedulerState σ κ}
    {out : SchedulerOutput M} {stopped : Finset ReqId} (hsound : Sound A e) (h : Ready A e)
    (haccepts : (Event.updateFromOutput i res).Accepts e)
    (issued : e.history[i]? = some ⟨out, false⟩)
    (updated : Updated A.maxModelLen
      { e.sched with scheduledReqIds := AscendScheduler.removeProcessed e.sched out } s' out res
      stopped) :
    Ready A { e with sched := s', history := e.history.set i ⟨out, true⟩ } := by
  have hprocess : ∀ {id j o},
      ({ e with sched := s', history := e.history.set i ⟨out, true⟩ } : Engine σ κ M).Pending id j o
        ↔ e.Pending id j o ∧ j ≠ i := Engine.pending_process rfl rfl
  have hrunning : ∀ {id}, id ∈ s'.running → id ∈ e.sched.running ∧ id ∉ stopped := by
    intro id hid
    rw [updated.running, List.mem_filter] at hid
    exact ⟨hid.1, by simpa using hid.2⟩
  have hgate : ∀ {id}, id ∈ e.sched.running →
      (id ∈ s'.scheduledReqIds ↔ id ∈ e.sched.scheduledReqIds ∧ id ∉ out.numScheduledTokens) := by
    intro id hid
    rw [updated.scheduledReqIds, AscendScheduler.mem_removeProcessed,
      hsound.getD_ne_zero issued]
    simp [hid]
  refine ⟨?_, ?_, ?_⟩
  · intro id hid j o hpending
    rw [updated.waiting, List.mem_filter] at hid
    exact h.waiting id hid.1 j o (hprocess.mp hpending).1
  · intro id hid' hnot
    obtain ⟨hid, hstopped⟩ := hrunning hid'
    rw [hgate hid, not_and_not_right] at hnot
    by_cases hout : id ∈ out.numScheduledTokens
    · by_cases hin : id ∈ e.sched.scheduledReqIds
      · -- this was the request's one output
        obtain ⟨j, o, hflight⟩ := h.inFlight id hid hin
        have hj := hflight.once i out ⟨issued, hout⟩
        subst hj
        have ho : o = out := by
          have := hflight.pending.1
          rw [issued] at this
          cases this
          rfl
        subst ho
        obtain ⟨hpos, hle⟩ := haccepts id o ⟨issued, hout⟩
        have hknown := hsound.known id (List.mem_append_right _ hid)
        have haccepted := updated.accepted id hout hknown hstopped hpos hle
        refine ⟨fun j' o' hpending => ?_, ?_, haccepted.unstopped⟩
        · obtain ⟨hpending, hne⟩ := hprocess.mp hpending
          exact hne (hflight.once j' o' hpending)
        · have hcomputed := haccepted.computed
          have hflown := hflight.computed
          simp only [Request.numTokens, haccepted.prompt, haccepted.tokens,
            List.length_append] at hflown ⊢
          simp only at hcomputed
          omega
      · exact absurd ⟨issued, hout⟩ ((h.idle id hid hin).landed i out)
    · have hin : id ∉ e.sched.scheduledReqIds := fun hin => hout (hnot hin)
      exact (h.idle id hid hin).congr (updated.other id hout) fun j o hp => (hprocess.mp hp).1
  · intro id hid hin
    obtain ⟨hid, _⟩ := hrunning hid
    obtain ⟨hin, hout⟩ := (hgate hid).mp hin
    obtain ⟨j, o, hflight⟩ := h.inFlight id hid hin
    refine ⟨j, o, hflight.congr (updated.other id hout) fun j' o' => ?_⟩
    rw [hprocess]
    refine and_iff_left_of_imp ?_
    rintro ⟨hissued, hmem⟩ rfl
    rw [issued] at hissued
    cases hissued
    exact hout hmem

/-- `finish_requests` takes requests out of the running list and out of the gate alike. -/
theorem finishRequests {requestIds : RequestIds} {finishedStatus : RequestStatus}
    {s' : SchedulerState σ κ} (hsound : Sound A e) (h : Ready A e)
    (hspares : (Event.finishRequests requestIds finishedStatus).SparesInFlight e)
    (finished : Finished
      { e.sched with
        scheduledReqIds := AscendScheduler.discardRunning e.sched requestIds.iterated } s'
      (requestIds.consumed.named.toFinset ∩ e.sched.requests) finishedStatus) :
    Ready A { e with sched := s' } := by
  have hrunning : ∀ {id}, id ∈ s'.running → id ∈ e.sched.running ∧
      id ∉ requestIds.consumed.named ∧ s'.obj id = e.sched.obj id := by
    intro id hid
    rw [finished.running, List.mem_filter] at hid
    obtain ⟨hid, hnot⟩ := hid
    have hnamed : id ∉ requestIds.consumed.named.toFinset ∩ e.sched.requests := by
      simpa [hsound.running id hid, imp_iff_not_or] using hnot
    refine ⟨hid, fun hmem => hnamed ?_, finished.other id hnamed⟩
    exact Finset.mem_inter.mpr
      ⟨List.mem_toFinset.mpr hmem, hsound.known id (List.mem_append_right _ hid)⟩
  refine ⟨?_, ?_, ?_⟩
  · intro id hid
    rw [finished.waiting, List.mem_filter] at hid
    exact h.waiting id hid.1
  · intro id hid hnot
    obtain ⟨hid, hnamed, hobj⟩ := hrunning hid
    have hin : id ∉ e.sched.scheduledReqIds := by
      intro hin
      refine hnot ?_
      rw [finished.scheduledReqIds, AscendScheduler.mem_discardRunning]
      exact ⟨hin, fun hiterated => hnamed (hspares id hiterated.1 hin)⟩
    exact (h.idle id hid hin).congr hobj fun _ _ hp => hp
  · intro id hid hin
    obtain ⟨hid, _, hobj⟩ := hrunning hid
    have hin' : id ∈ e.sched.scheduledReqIds := by
      have : id ∈ s'.scheduledReqIds := hin
      rw [finished.scheduledReqIds, AscendScheduler.mem_discardRunning] at this
      exact this.1
    obtain ⟨i, out, hflight⟩ := h.inFlight id hid hin'
    exact ⟨i, out, hflight.congr hobj fun _ _ => Iff.rfl⟩

/-- **Every call keeps the running requests ready.** -/
theorem stepped (hsound : Sound A e) (h : Ready A e) (hallowed : ev.Allowed e)
    (haccepts : ev.Accepts e) (hspares : ev.SparesInFlight e) (hstep : Stepped A e ev e') :
    Ready A e' := by
  cases hstep with
  | addRequest => exact h.addRequest hallowed hspares
  | schedule call plan => exact h.schedule hsound plan
  | updateFromOutput issued updated frees => exact h.updateFromOutput hsound haccepts issued updated
  | finishRequests finished frees => exact h.finishRequests hsound hspares finished

end Ready

namespace AscendScheduler

variable {e₀ : Engine σ κ M}

/-- What is known of an engine along a run. -/
theorem run_ready (laws : A.BaseLaws) (hoff : A.schedulerConfig.chunkedPrefillEnabled = false)
    (hinit : e₀.Initial)
    (run : Run A.step (fun e ev => ev.Allowed e ∧ ev.Accepts e ∧ ev.SparesInFlight e) e₀ e) :
    Sound A e ∧ Ready A e := by
  refine run.invariant (I := fun e => Sound A e ∧ Ready A e) ?_ ⟨.initial hinit, .initial hinit⟩
  rintro e ev e' ⟨hsound, hready⟩ ⟨hallowed, haccepts, hspares⟩ hstep
  have hstepped := step_eq_ok laws hoff hsound.nodup hstep
  exact ⟨hsound.stepped hallowed hstepped,
    hready.stepped hsound hallowed haccepts hspares hstepped⟩

/-- **The decode loop finds its requests ready**: in every run that leaves requests in flight
alone, the readiness assertion does not fail, and a running request that an output schedules has
its next token, its drafts and no more, within the model length. -/
theorem decode_ready (laws : A.BaseLaws) (hoff : A.schedulerConfig.chunkedPrefillEnabled = false)
    (hinit : e₀.Initial)
    (run : Run A.step (fun e ev => ev.Allowed e ∧ ev.Accepts e ∧ ev.SparesInFlight e) e₀ e) :
    A.schedule e.sched ≠ .error .decodeReady ∧
      ∀ s' out, A.schedule e.sched = .ok (s', out) →
        ∀ id ∈ e.sched.running, ∀ n, out.numScheduledTokens.lookup id = some n →
          n = 1 + numSpecTokens out.scheduledSpecDecodeTokens id ∧
            (e.sched.obj id).numComputedTokens + n ≤ A.maxModelLen := by
  obtain ⟨hsound, hready⟩ := run_ready laws hoff hinit run
  refine ⟨fun h => ?_, fun s' out h id hid n hlookup => ?_⟩
  · obtain ⟨he, _⟩ | ⟨he, _⟩ | ⟨_, hempty, id, hid, hnot⟩ :=
      schedule_error hoff hsound.nodup hsound.running_le hsound.known h
    · contradiction
    · contradiction
    · have hidle := hready.idle id hid (by simp [hempty])
      have hahead := hidle.ahead
      omega
  · obtain ⟨p, hp⟩ := schedule_plan hoff hsound.nodup h
    have hdecoded : id ∈ p.decoded := by
      have hmem := hp.output.keys.mem_iff.mp (AList.lookup_isSome.mp (by rw [hlookup]; rfl))
      exact (List.mem_append.mp hmem).resolve_left fun ha =>
        Plan.Queues.not_mem_running hsound.nodup (hp.queues.mem_waiting_of_fate ha) hid
    have hempty : e.sched.scheduledReqIds = ∅ := by
      obtain ⟨_, hempty⟩ | ⟨hnone, _⟩ := hp.queues.phases
      · exact hempty
      · rw [hnone] at hdecoded
        exact absurd hdecoded List.not_mem_nil
    have hidle := hready.idle id hid (by simp [hempty])
    obtain ⟨m, r, hm, hentry, _⟩ := hp.obj_decoded hdecoded
    rw [hlookup] at hm
    cases hm
    exact ⟨(hidle.decode hentry).1, (hidle.decode hentry).2.1⟩

/-- A prompt that is prefilled and then decoded once. -/
def prefillThenDecode : List Event :=
  [.addRequest "a" (.ofPrompt [1, 2, 3]), .schedule,
    .updateFromOutput 0 ⟨fun _ => [4], fun _ => none⟩]

theorem decode_ready_small : ∃ e,
    feed Deployment.small.scheduler.step Deployment.small.engine prefillThenDecode = .ok e ∧
    Deployment.small.scheduler.schedule e.sched ≠ .error .decodeReady ∧
      ∀ s' out, Deployment.small.scheduler.schedule e.sched = .ok (s', out) →
        ∀ id ∈ e.sched.running, ∀ n, out.numScheduledTokens.lookup id = some n →
          n = 1 + numSpecTokens out.scheduledSpecDecodeTokens id ∧
            (e.sched.obj id).numComputedTokens + n ≤ Deployment.small.scheduler.maxModelLen := by
  obtain ⟨e, he⟩ := exists_of_isOk (x := feed Deployment.small.scheduler.step
    Deployment.small.engine prefillThenDecode) (by decide +kernel)
  refine ⟨e, he, decode_ready (Deployment.small.laws none) rfl Deployment.small.engine_initial
    (Run.of_feed he ?_)⟩
  refine ⟨⟨⟨Request.ofPrompt_fresh _, by decide, by decide⟩, trivial, ?_⟩, fun _ _ =>
    ⟨⟨trivial, trivial, trivial⟩, fun _ _ => ⟨⟨trivial, ?_, trivial⟩, fun _ _ => trivial⟩⟩⟩
  · rintro i out ⟨hissued, _⟩
    contradiction
  · intro id out _
    exact ⟨Nat.one_pos, Nat.succ_le_succ (Nat.zero_le _)⟩

/-- **A plain string brings a request in flight back into the decode loop**: `ab` is not there, and
its first character is the id of a request whose prefill has not come back. -/
theorem decode_not_ready : ∃ e,
    Run Deployment.small.scheduler.step (fun e ev => ev.Allowed e ∧ ev.Accepts e)
      Deployment.small.engine e ∧
    Deployment.small.scheduler.schedule e.sched = .error .decodeReady := by
  obtain ⟨e, he, hraises⟩ : Returns (feed Deployment.small.scheduler.step Deployment.small.engine
      [.addRequest "a" (.ofPrompt [1, 2, 3]), .schedule,
        .finishRequests (.str "ab") .finishedAborted])
      fun e => (match Deployment.small.scheduler.schedule e.sched with
        | .error .decodeReady => true
        | _ => false) = true := by
    decide +kernel
  refine ⟨e, Run.of_feed he ?_, ?_⟩
  · exact ⟨⟨⟨Request.ofPrompt_fresh _, by decide, by decide⟩, trivial⟩, fun _ _ =>
      ⟨⟨trivial, trivial⟩, fun _ _ => ⟨⟨rfl, trivial⟩, fun _ _ => trivial⟩⟩⟩
  · split at hraises
    · assumption
    · contradiction

end AscendScheduler

end VllmAscend
