import VllmAscend.Core.Engine
import VllmAscend.Core.Handover
import VllmAscend.Worker.ExecuteModel

/-!
# Worker/Serving — the scheduler and a worker

    schedule() ──output──▸ execute_model ──sampled tokens──▸ update_from_output

The worker executes the outputs in the order they are issued, and its state depends on nothing else,
so `schedule` is one event with the execution of its output.  What the worker returns may be
processed any time later and in any order.
-/

namespace VllmAscend

open Machinery

variable {σ κ M : Type}

structure Serving (σ κ M : Type) where
  engine : Engine σ κ M
  worker : NPUModelRunner
  /-- what the worker returned for each output -/
  results : List ModelRunnerOutput

inductive ServingEvent where
  | addRequest (id : ReqId) (r : Request)
  | finishRequests (requestIds : RequestIds) (finishedStatus : RequestStatus)
  /-- a call of `schedule()` whose output is executed; the model samples the tokens of `res` -/
  | schedule (res : ModelRunnerOutput)
  /-- on the `i`-th output and what the worker returned for it -/
  | updateFromOutput (i : ℕ)

inductive ServingFault where
  | scheduler (fault : Fault)
  | worker (fault : WorkerFault)
  deriving DecidableEq, Repr

namespace Serving

/-- A call to the scheduler that the worker has no part in. -/
def call (A : AscendScheduler σ κ M) (s : Serving σ κ M) (ev : Event) :
    Except ServingFault (Serving σ κ M) :=
  match A.step s.engine ev with
  | .error fault => .error (.scheduler fault)
  | .ok engine => .ok { s with engine := engine }

/-- At `__init__`. -/
structure Initial (s : Serving σ κ M) : Prop where
  engine : s.engine.Initial
  requests : s.worker.requests = ∅
  inputBatch : s.worker.inputBatch = ∅
  results : s.results = []

end Serving

/-- One event. -/
def AscendScheduler.serve (A : AscendScheduler σ κ M) (s : Serving σ κ M) :
    ServingEvent → Except ServingFault (Serving σ κ M)
  | .addRequest id r => s.call A (.addRequest id r)
  | .finishRequests requestIds finishedStatus =>
    s.call A (.finishRequests requestIds finishedStatus)
  | .schedule res =>
    match A.schedule s.engine.sched with
    | .error fault => .error (.scheduler fault)
    | .ok (sched, out) =>
      match s.worker.executeModel out res with
      | .error fault => .error (.worker fault)
      | .ok (worker, res) =>
        .ok { engine := { s.engine with
                sched := sched
                history := s.engine.history ++ [⟨out, false⟩] }
              worker := worker
              results := s.results ++ [res] }
  | .updateFromOutput i =>
    match s.results[i]? with
    | none => .error (.scheduler .noSuchOutput)
    | some res => s.call A (.updateFromOutput i res)

/-- What the callers of the scheduler see to. -/
def ServingEvent.Allowed (s : Serving σ κ M) : ServingEvent → Prop
  | .addRequest id r => (Event.addRequest id r).Allowed s.engine
  | .finishRequests requestIds finishedStatus =>
    (Event.finishRequests requestIds finishedStatus).Allowed s.engine
  | _ => True

/-- The call to the scheduler that an event is. -/
inductive ServingEvent.Calls (s : Serving σ κ M) : ServingEvent → Event → Prop where
  | addRequest {id : ReqId} {r : Request} : Calls s (.addRequest id r) (.addRequest id r)
  | finishRequests {requestIds : RequestIds} {finishedStatus : RequestStatus} :
    Calls s (.finishRequests requestIds finishedStatus) (.finishRequests requestIds finishedStatus)
  | updateFromOutput {i : ℕ} {res : ModelRunnerOutput} (returned : s.results[i]? = some res) :
    Calls s (.updateFromOutput i) (.updateFromOutput i res)

theorem ServingEvent.Calls.allowed {s : Serving σ κ M} {ev : ServingEvent} {call : Event}
    (h : ev.Calls s call) (hallowed : ev.Allowed s) : call.Allowed s.engine := by
  cases h with
  | addRequest => exact hallowed
  | finishRequests => exact hallowed
  | updateFromOutput returned => trivial

/-- An event that goes through: a call the worker has no part in, or one whose output it
executes. -/
inductive Served (A : AscendScheduler σ κ M) (s : Serving σ κ M) :
    ServingEvent → Serving σ κ M → Prop where
  | call {ev : ServingEvent} {call : Event} {engine : Engine σ κ M} (calls : ev.Calls s call)
    (step : A.step s.engine call = .ok engine) (stepped : Stepped A s.engine call engine) :
    Served A s ev { s with engine := engine }
  | schedule {res res' : ModelRunnerOutput} {p : Plan} {sched : SchedulerState σ κ}
    {out : SchedulerOutput M} {worker : NPUModelRunner}
    (call : A.schedule s.engine.sched = .ok (sched, out))
    (plan : p.Describes A s.engine.sched sched out)
    (execute : s.worker.executeModel out res = .ok (worker, res')) :
    Served A s (.schedule res)
      { engine := { s.engine with
          sched := sched
          history := s.engine.history ++ [⟨out, false⟩] }
        worker := worker
        results := s.results ++ [res'] }

namespace AscendScheduler

variable {A : AscendScheduler σ κ M} {s s' : Serving σ κ M} {ev : ServingEvent}

theorem call_eq_ok {call : Event} (laws : A.BaseLaws)
    (hoff : A.schedulerConfig.chunkedPrefillEnabled = false)
    (hnodup : (s.engine.sched.waiting ++ s.engine.sched.running).Nodup) (calls : ev.Calls s call)
    (h : s.call A call = .ok s') : Served A s ev s' := by
  unfold Serving.call at h
  split at h
  · contradiction
  · next hstep =>
    cases h
    exact .call calls hstep (step_eq_ok laws hoff hnodup hstep)

/-- **Every event is one of the two.** -/
theorem serve_eq_ok (laws : A.BaseLaws) (hoff : A.schedulerConfig.chunkedPrefillEnabled = false)
    (hnodup : (s.engine.sched.waiting ++ s.engine.sched.running).Nodup)
    (h : A.serve s ev = .ok s') : Served A s ev s' := by
  cases ev with
  | addRequest id r => exact call_eq_ok laws hoff hnodup .addRequest h
  | finishRequests requestIds finishedStatus =>
    exact call_eq_ok laws hoff hnodup .finishRequests h
  | schedule res =>
    simp only [serve] at h
    split at h
    · contradiction
    · next sched out hschedule =>
      split at h
      · contradiction
      · next hexecute =>
        cases h
        obtain ⟨p, hp⟩ := schedule_plan hoff hnodup hschedule
        exact .schedule hschedule hp hexecute
  | updateFromOutput i =>
    simp only [serve] at h
    split at h
    · contradiction
    · next hreturned => exact call_eq_ok laws hoff hnodup (.updateFromOutput hreturned) h

end AscendScheduler

/-- **Every event keeps the engine sound.** -/
theorem Sound.served {A : AscendScheduler σ κ M} {s s' : Serving σ κ M} {ev : ServingEvent}
    (h : Sound A s.engine) (hallowed : ev.Allowed s) (hserved : Served A s ev s') :
    Sound A s'.engine := by
  cases hserved with
  | call calls step stepped => exact h.stepped (calls.allowed hallowed) stepped
  | schedule call plan execute =>
    refine h.stepped ?_ (Stepped.schedule call plan)
    trivial

/-! ## The requests the worker was sent -/

/-- A request that the worker was sent before: it runs, or it was preempted. -/
def SchedulerState.Sent (s : SchedulerState σ κ) (id : ReqId) : Prop :=
  id ∈ s.running ∨ (id ∈ s.waiting ∧ (s.obj id).status = .preempted)

section Sent

variable {A : AscendScheduler σ κ M} {e : Engine σ κ M} {s s' : SchedulerState σ κ}
  {out : SchedulerOutput M} {p : Plan} {gate : Finset ReqId} {id id' : ReqId}

theorem SchedulerState.Sent.mem (h : s.Sent id) : id ∈ s.waiting ++ s.running :=
  h.elim (List.mem_append_right _) fun hw => List.mem_append_left _ hw.1

/-- A new request was not sent before. -/
theorem sent_addRequest {r : Request} (laws : A.BaseLaws)
    (hallowed : (Event.addRequest id r).Allowed e)
    (h : (A.super.addRequest e.sched id r).Sent id') : e.sched.Sent id' ∧ id' ≠ id := by
  rw [laws.add] at h
  obtain hid | ⟨hid, hstatus⟩ := h
  · refine ⟨Or.inl hid, ?_⟩
    rintro rfl
    exact hallowed.2.2 hid
  · by_cases hne : id' = id
    · subst hne
      simp only [Function.update_self] at hstatus
      obtain hs | hs := hallowed.1.status
      · exact absurd (hs.symm.trans hstatus) (by decide)
      · exact absurd (hs.symm.trans hstatus) (by decide)
    · simp only [Function.update_of_ne hne] at hstatus
      simp only [List.mem_append, List.mem_singleton, hne, or_false] at hid
      exact ⟨Or.inr ⟨hid, hstatus⟩, hne⟩

/-- A request that is still in a queue was not finished. -/
theorem sent_finishRequests {ids : Finset ReqId} {status : RequestStatus}
    (hcoherent : Coherent e)
    (hfinished : Finished { e.sched with scheduledReqIds := gate } s' ids status)
    (h : s'.Sent id) : e.sched.Sent id ∧ id ∉ ids := by
  obtain hid | ⟨hid, hstatus⟩ := h
  · simp only [hfinished.running, List.mem_filter, decide_eq_true_eq] at hid
    exact ⟨Or.inl hid.1, fun hmem => hid.2 ⟨hmem, hcoherent.running id hid.1⟩⟩
  · simp only [hfinished.waiting, List.mem_filter, decide_eq_true_eq] at hid
    have hnot : id ∉ ids := fun hmem => hid.2 ⟨hmem, hcoherent.waiting id hid.1⟩
    rw [hfinished.other id hnot] at hstatus
    exact ⟨Or.inr ⟨hid.1, hstatus⟩, hnot⟩

/-- A request that is still in a queue was not stopped. -/
theorem sent_updateFromOutput {n : ℕ} {res : ModelRunnerOutput} {stopped : Finset ReqId}
    (hupdated : Updated n { e.sched with scheduledReqIds := gate } s' out res stopped)
    (h : s'.Sent id) : e.sched.Sent id ∧ id ∉ stopped := by
  obtain hid | ⟨hid, hstatus⟩ := h
  · rw [hupdated.running, List.mem_filter, decide_eq_true_eq] at hid
    exact ⟨Or.inl hid.1, hid.2⟩
  · rw [hupdated.waiting, List.mem_filter, decide_eq_true_eq] at hid
    rw [hupdated.status id hid.2] at hstatus
    exact ⟨Or.inr ⟨hid.1, hstatus⟩, hid.2⟩

/-- A request that an output does not schedule was sent before it, if it was sent at all. -/
theorem sent_schedule (hnodup : (s.waiting ++ s.running).Nodup) (hp : p.Describes A s s' out)
    (hsent : s'.Sent id) (hnot : id ∉ out.numScheduledTokens) : s.Sent id := by
  have hunscheduled : id ∉ p.scheduled := fun hmem => hnot (hp.output.keys.mem_iff.mpr hmem)
  rw [Plan.scheduled, List.mem_append, not_or] at hunscheduled
  obtain hid | ⟨hid, hstatus⟩ := hsent
  · have hstay := (hp.queues.mem_running' hid).resolve_right hunscheduled.1
    rw [SchedulerState.Sent, hp.queues.running]
    exact Or.inl (List.mem_append_left _ hstay)
  · obtain hid | hid := hp.queues.mem_waiting' hid
    · exact Or.inl (hp.queues.mem_running_of_preempted hid)
    · refine Or.inr ⟨hp.queues.mem_waiting_of_kept hid, ?_⟩
      obtain hs | hs | ⟨_, hs⟩ := (hp.obj_kept hnodup hid).status
      · exact hs ▸ hstatus
      · exact absurd (hs.symm.trans hstatus) (by decide)
      · exact absurd (hs.symm.trans hstatus) (by decide)

/-- A running or resumed request of an output was sent before. -/
theorem sent_of_cached (laws : A.BaseLaws) (hp : p.Describes A s s' out) {e : CachedRequestEntry}
    (he : e ∈ out.scheduledCachedReqs) : s.Sent e.reqId := by
  obtain ⟨_, hresumed, hdecoded⟩ := hp.output.ids laws
  cases heq : e.resumedFromPreemption with
  | true =>
    have hmem := SchedulerOutput.mem_cachedIds he heq
    rw [hresumed, List.mem_filter] at hmem
    exact Or.inr ⟨hp.queues.mem_waiting_of_fate hmem.1, by simpa using hmem.2⟩
  | false =>
    have hmem := SchedulerOutput.mem_cachedIds he heq
    rw [hdecoded] at hmem
    exact Or.inl (hp.queues.mem_running_of_decoded hmem)

/-- The entries of an output are for its scheduled requests. -/
theorem Plan.Describes.entries (laws : A.BaseLaws) (hp : p.Describes A s s' out) :
    out.numScheduledTokens.keys.Perm (out.newIds ++ out.reqIds) := by
  refine (hp.output.entries laws).trans ?_
  rw [List.append_assoc]
  exact List.Perm.append_left _ out.reqIds_perm.symm

end Sent

/-- The scheduler of a deployment and a worker of the last rank, at start. -/
def Deployment.serving (d : Deployment) : Serving BlockPool Unit Unit where
  engine := d.engine
  worker := ⟨∅, ∅, true, false, d.maxModelLen⟩
  results := []

theorem Deployment.serving_initial (d : Deployment) : d.serving.Initial :=
  ⟨d.engine_initial, rfl, rfl, rfl⟩

end VllmAscend
