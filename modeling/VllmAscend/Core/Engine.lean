import VllmAscend.Machinery.Run
import VllmAscend.Core.Conservation

/-!
# Core/Engine — runs of the scheduler

    add_request │ schedule ──▸ output │ update_from_output(output, …) │ finish_requests

The engine calls the scheduler in any order.  An output may come back any time after it was issued
and in any order with the others, so the engine keeps every output it was given, and whether it has
been processed.  `Stepped` is what each call does, once and for all; `Coherent` is what all of them
keep.
-/

namespace VllmAscend

open Machinery

variable {σ κ M : Type}

/-- An output of `schedule()`, and whether `update_from_output` was called on it. -/
structure Issued (M : Type) where
  output : SchedulerOutput M
  processed : Bool

structure Engine (σ κ M : Type) where
  sched : SchedulerState σ κ
  /-- the outputs, in the order they were issued -/
  history : List (Issued M)
  /-- the ids that were ever added -/
  added : Finset ReqId

/-- A call to the scheduler. -/
inductive Event where
  | addRequest (id : ReqId) (r : Request)
  | schedule
  /-- on the `i`-th output -/
  | updateFromOutput (i : ℕ) (res : ModelRunnerOutput)
  | finishRequests (requestIds : RequestIds) (finishedStatus : RequestStatus)

/-- One call. -/
def AscendScheduler.step (A : AscendScheduler σ κ M) (e : Engine σ κ M) :
    Event → Except Fault (Engine σ κ M)
  | .addRequest id r =>
    .ok { e with sched := A.super.addRequest e.sched id r, added := insert id e.added }
  | .schedule =>
    match A.schedule e.sched with
    | .error fault => .error fault
    | .ok (s', out) => .ok { e with sched := s', history := e.history ++ [⟨out, false⟩] }
  | .updateFromOutput i res =>
    match e.history[i]? with
    | some ⟨out, false⟩ =>
      .ok { e with
        sched := A.updateFromOutput e.sched out res
        history := e.history.set i ⟨out, true⟩ }
    | _ => .error .noSuchOutput
  | .finishRequests requestIds finishedStatus =>
    .ok { e with sched := A.finishRequests e.sched requestIds finishedStatus }

namespace Engine

/-- The `i`-th output, `out`, schedules the request and is not processed. -/
def Pending (e : Engine σ κ M) (id : ReqId) (i : ℕ) (out : SchedulerOutput M) : Prop :=
  e.history[i]? = some ⟨out, false⟩ ∧ id ∈ out.numScheduledTokens

/-- At `__init__`. -/
structure Initial (e : Engine σ κ M) : Prop where
  waiting : e.sched.waiting = []
  running : e.sched.running = []
  requests : e.sched.requests = ∅
  scheduledReqIds : e.sched.scheduledReqIds = ∅
  history : e.history = []
  added : e.added = ∅

variable {e e' : Engine σ κ M} {id : ReqId} {i j : ℕ} {out o : SchedulerOutput M}

/-- Issuing an output. -/
theorem pending_issue (h : e'.history = e.history ++ [⟨out, false⟩]) :
    e'.Pending id i o ↔
      e.Pending id i o ∨ (i = e.history.length ∧ o = out ∧ id ∈ out.numScheduledTokens) := by
  unfold Pending
  rw [h, List.getElem?_append]
  split
  · next hlt =>
    refine ⟨Or.inl, fun h => h.resolve_right ?_⟩
    rintro ⟨rfl, _⟩
    exact absurd hlt (lt_irrefl _)
  · next hge =>
    have hnone : e.history[i]? = none := List.getElem?_eq_none (by omega)
    rw [hnone, List.getElem?_singleton]
    constructor
    · rintro ⟨heq, hid⟩
      split at heq
      · next hi =>
        cases heq
        exact Or.inr ⟨by omega, rfl, hid⟩
      · contradiction
    · rintro (⟨heq, _⟩ | ⟨rfl, rfl, hid⟩)
      · contradiction
      · simpa using hid

/-- Processing an output. -/
theorem pending_process {done : Issued M} (h : e'.history = e.history.set i done)
    (hdone : done.processed = true) : e'.Pending id j o ↔ e.Pending id j o ∧ j ≠ i := by
  unfold Pending
  rw [h, List.getElem?_set]
  by_cases hij : i = j
  · subst hij
    refine ⟨fun ⟨heq, _⟩ => ?_, fun ⟨_, hne⟩ => absurd rfl hne⟩
    rw [if_pos rfl] at heq
    split at heq
    · cases heq
      contradiction
    · contradiction
  · rw [if_neg hij]
    exact ⟨fun h => ⟨h, Ne.symm hij⟩, fun h => h.1⟩

end Engine

/-- A request as its constructor makes it. -/
structure Request.Fresh (r : Request) : Prop where
  status : r.status = .waiting ∨ r.status = .waitingForFsm
  outputTokenIds : r.outputTokenIds = []
  specTokenIds : r.specTokenIds = []
  numComputedTokens : r.numComputedTokens = 0

theorem Request.ofPrompt_fresh (promptTokenIds : List Token) :
    (Request.ofPrompt promptTokenIds).Fresh := ⟨Or.inl rfl, rfl, rfl, rfl⟩

/-- The engine of a deployment at start. -/
def Deployment.engineWith (d : Deployment) (conn : κ) : Engine BlockPool κ M :=
  ⟨d.init conn, [], ∅⟩

/-- …without a connector. -/
def Deployment.engine (d : Deployment) : Engine BlockPool Unit Unit := d.engineWith ()

theorem Deployment.engineWith_initial (d : Deployment) (conn : κ) :
    (d.engineWith conn : Engine BlockPool κ M).Initial := ⟨rfl, rfl, rfl, rfl, rfl, rfl⟩

theorem Deployment.engine_initial (d : Deployment) : d.engine.Initial := d.engineWith_initial ()

/-- What the callers see to: a request is added as it was constructed and not while it is in a
queue, and a request is finished with a status that says so. -/
def Event.Allowed (e : Engine σ κ M) : Event → Prop
  | .addRequest id r => r.Fresh ∧ id ∉ e.sched.waiting ∧ id ∉ e.sched.running
  | .finishRequests _ finishedStatus => finishedStatus.isFinished = true
  | _ => True

/-- What the model runner sees to: one to `k + 1` tokens for a request scheduled with `k` drafts. -/
def Event.Accepts (e : Engine σ κ M) : Event → Prop
  | .updateFromOutput i res => ∀ id out, e.Pending id i out →
    0 < (res.sampledTokenIds id).length ∧
      (res.sampledTokenIds id).length ≤ numSpecTokens out.scheduledSpecDecodeTokens id + 1
  | _ => True

/-! ## What each call does -/

/-- A call that returns. -/
inductive Stepped (A : AscendScheduler σ κ M) (e : Engine σ κ M) : Event → Engine σ κ M → Prop where
  | addRequest {id : ReqId} {r : Request} :
    Stepped A e (.addRequest id r)
      { e with
        sched := { e.sched with
          waiting := e.sched.waiting ++ [id]
          requests := insert id e.sched.requests
          obj := Function.update e.sched.obj id r }
        added := insert id e.added }
  | schedule {p : Plan} {s' : SchedulerState σ κ} {out : SchedulerOutput M}
    (call : A.schedule e.sched = .ok (s', out)) (plan : p.Describes A e.sched s' out) :
    Stepped A e .schedule { e with sched := s', history := e.history ++ [⟨out, false⟩] }
  | updateFromOutput {i : ℕ} {res : ModelRunnerOutput} {s' : SchedulerState σ κ}
    {out : SchedulerOutput M} {stopped : Finset ReqId}
    (issued : e.history[i]? = some ⟨out, false⟩)
    (updated : Updated A.maxModelLen
      { e.sched with scheduledReqIds := AscendScheduler.removeProcessed e.sched out } s' out res
      stopped)
    (frees : A.connector = none → s'.requests = e.sched.requests \ stopped) :
    Stepped A e (.updateFromOutput i res)
      { e with sched := s', history := e.history.set i ⟨out, true⟩ }
  | finishRequests {requestIds : RequestIds} {finishedStatus : RequestStatus}
    {s' : SchedulerState σ κ}
    (finished : Finished
      { e.sched with
        scheduledReqIds := AscendScheduler.discardRunning e.sched requestIds.iterated } s'
      (requestIds.consumed.named.toFinset ∩ e.sched.requests) finishedStatus)
    (frees : A.connector = none →
      s'.requests = e.sched.requests \ requestIds.consumed.named.toFinset) :
    Stepped A e (.finishRequests requestIds finishedStatus) { e with sched := s' }

namespace AscendScheduler

variable {A : AscendScheduler σ κ M} {e e' : Engine σ κ M} {ev : Event}

/-- **Every call is one of the four.** -/
theorem step_eq_ok (laws : A.BaseLaws) (hoff : A.schedulerConfig.chunkedPrefillEnabled = false)
    (hnodup : (e.sched.waiting ++ e.sched.running).Nodup) (h : A.step e ev = .ok e') :
    Stepped A e ev e' := by
  cases ev with
  | addRequest id r =>
    cases h
    rw [laws.add]
    exact .addRequest
  | schedule =>
    simp only [step] at h
    split at h
    · contradiction
    · next s' out hschedule =>
      cases h
      obtain ⟨p, hp⟩ := schedule_plan hoff hnodup hschedule
      exact .schedule hschedule hp
  | updateFromOutput i res =>
    simp only [step] at h
    split at h
    · next out hissued =>
      cases h
      obtain ⟨stopped, hupdated, hfrees⟩ := laws.update
        { e.sched with scheduledReqIds := removeProcessed e.sched out } out res
      exact .updateFromOutput hissued hupdated hfrees
    · contradiction
  | finishRequests requestIds finishedStatus =>
    cases h
    exact .finishRequests (laws.finish _ _ _) fun hconn => laws.finish_frees hconn _ _ _

end AscendScheduler

/-! ## What every call keeps -/

/-- The queues hold distinct requests that were added and are in the table, and the status of a
request says which of the two queues it is in. -/
structure Coherent (e : Engine σ κ M) : Prop where
  nodup : (e.sched.waiting ++ e.sched.running).Nodup
  added : ∀ id ∈ e.sched.waiting ++ e.sched.running, id ∈ e.added
  known : ∀ id ∈ e.sched.waiting ++ e.sched.running, id ∈ e.sched.requests
  waiting : ∀ id ∈ e.sched.waiting, (e.sched.obj id).status ≠ .running
  running : ∀ id ∈ e.sched.running, (e.sched.obj id).status = .running

namespace Coherent

variable {A : AscendScheduler σ κ M} {e e' : Engine σ κ M} {ev : Event}

theorem initial (h : e.Initial) : Coherent e := by
  refine ⟨?_, ?_, ?_, ?_, ?_⟩ <;> simp [h.waiting, h.running]

/-- A new request joins the waiting queue. -/
theorem addRequest {id : ReqId} {r : Request} (h : Coherent e)
    (hallowed : (Event.addRequest id r).Allowed e) :
    Coherent { e with
      sched := { e.sched with
        waiting := e.sched.waiting ++ [id]
        requests := insert id e.sched.requests
        obj := Function.update e.sched.obj id r }
      added := insert id e.added } := by
  obtain ⟨hfresh, hwaiting, hrunning⟩ := hallowed
  have hperm : (e.sched.waiting ++ [id] ++ e.sched.running).Perm
      (id :: (e.sched.waiting ++ e.sched.running)) := by
    rw [List.append_assoc, List.singleton_append]
    exact List.perm_middle
  have hmem : ∀ id', id' ∈ e.sched.waiting ++ [id] ++ e.sched.running →
      id' = id ∨ id' ∈ e.sched.waiting ++ e.sched.running := fun id' hid' =>
    List.mem_cons.mp (hperm.mem_iff.mp hid')
  refine ⟨hperm.nodup_iff.mpr (List.nodup_cons.mpr ⟨by simp [hwaiting, hrunning], h.nodup⟩),
    ?_, ?_, ?_, ?_⟩
  · intro id' hid'
    exact (hmem id' hid').elim (fun heq => heq ▸ Finset.mem_insert_self _ _)
      fun hid' => Finset.mem_insert_of_mem (h.added id' hid')
  · intro id' hid'
    exact (hmem id' hid').elim (fun heq => heq ▸ Finset.mem_insert_self _ _)
      fun hid' => Finset.mem_insert_of_mem (h.known id' hid')
  · intro id' hid'
    by_cases hne : id' = id
    · subst hne
      simp only [Function.update_self]
      obtain hs | hs := hfresh.status <;> simp [hs]
    · simp only [Function.update_of_ne hne]
      simp only [List.mem_append, List.mem_singleton, hne, or_false] at hid'
      exact h.waiting id' hid'
  · intro id' hid'
    have hne : id' ≠ id := by
      rintro rfl
      exact hrunning hid'
    simp only [Function.update_of_ne hne]
    exact h.running id' hid'

/-- A call of `schedule()` moves requests between the queues, and says so in their status. -/
theorem schedule {p : Plan} {s' : SchedulerState σ κ} {out : SchedulerOutput M}
    {history : List (Issued M)} (h : Coherent e) (hp : p.Describes A e.sched s' out) :
    Coherent { e with sched := s', history := history } := by
  have hmem : ∀ id ∈ s'.waiting ++ s'.running, id ∈ e.sched.waiting ++ e.sched.running :=
    fun id hid => hp.queues.perm.mem_iff.mp (List.mem_append_left _ hid)
  refine ⟨hp.queues.nodup h.nodup, fun id hid => h.added id (hmem id hid), ?_, ?_, ?_⟩
  · intro id hid
    have hrequests : s'.requests = e.sched.requests := hp.queues.requests'
    simp only [hrequests]
    exact h.known id (hmem id hid)
  · intro id hid
    obtain hid | hid := hp.queues.mem_waiting' hid
    · simp [hp.obj_preempted h.nodup hid]
    · have hwaiting := h.waiting id (hp.queues.mem_waiting_of_kept hid)
      obtain hs | hs | ⟨_, hs⟩ := (hp.obj_kept h.nodup hid).status <;> simp [hs, hwaiting]
  · intro id hid
    obtain hid | hid := hp.queues.mem_running' hid
    · have hrunning : id ∈ e.sched.running := by
        rw [hp.queues.running]
        exact List.mem_append_left _ hid
      by_cases hdecoded : id ∈ p.decoded
      · obtain ⟨n, r, _, hentry, hobj⟩ := hp.obj_decoded hdecoded
        simp only [hobj, Request.advance]
        rw [hentry.drafts]
        exact h.running id hrunning
      · simp only [hp.obj_passed h.nodup hid hdecoded]
        exact h.running id hrunning
    · obtain ⟨n, _, _, _, hstatus, _⟩ := hp.obj_admitted hid
      exact hstatus

/-- Requests that leave the queues, and requests that change only their tokens. -/
theorem filter {s' : SchedulerState σ κ} {history : List (Issued M)} (h : Coherent e)
    (hwaiting : s'.waiting.Sublist e.sched.waiting)
    (hrunning : s'.running.Sublist e.sched.running)
    (hknown : ∀ id ∈ s'.waiting ++ s'.running, id ∈ s'.requests)
    (hstatus : ∀ id ∈ s'.waiting ++ s'.running,
      (s'.obj id).status = (e.sched.obj id).status) :
    Coherent { e with sched := s', history := history } := by
  have hsub := hwaiting.append hrunning
  refine ⟨hsub.nodup h.nodup, fun id hid => h.added id (hsub.subset hid), hknown, ?_, ?_⟩
  · intro id hid
    simp only [hstatus id (List.mem_append_left _ hid)]
    exact h.waiting id (hwaiting.subset hid)
  · intro id hid
    simp only [hstatus id (List.mem_append_right _ hid)]
    exact h.running id (hrunning.subset hid)

/-- **Every call keeps the queues coherent.** -/
theorem stepped (h : Coherent e) (hallowed : ev.Allowed e) (hstep : Stepped A e ev e') :
    Coherent e' := by
  cases hstep with
  | addRequest => exact h.addRequest hallowed
  | schedule call plan => exact h.schedule plan
  | @updateFromOutput i res s' out stopped issued updated frees =>
    have hsub : ∀ id ∈ s'.waiting ++ s'.running,
        id ∈ e.sched.waiting ++ e.sched.running ∧ id ∉ stopped := by
      intro id hid
      rw [updated.waiting, updated.running, ← List.filter_append, List.mem_filter] at hid
      exact ⟨hid.1, by simpa using hid.2⟩
    refine h.filter (updated.waiting ▸ List.filter_sublist) (updated.running ▸ List.filter_sublist)
      ?_ ?_
    · intro id hid
      obtain ⟨hid, hstopped⟩ := hsub id hid
      exact updated.requests_kept id hid (h.known id hid) hstopped
    · intro id hid
      exact updated.status id (hsub id hid).2
  | @finishRequests requestIds finishedStatus s' finished frees =>
    have hsub : ∀ id ∈ s'.waiting ++ s'.running, id ∈ e.sched.waiting ++ e.sched.running ∧
        id ∉ requestIds.consumed.named.toFinset ∩ e.sched.requests := by
      intro id hid
      rw [finished.waiting, finished.running, List.mem_append, List.mem_filter,
        List.mem_filter] at hid
      obtain ⟨hw, hnot⟩ | ⟨hr, hnot⟩ := hid
      · exact ⟨List.mem_append_left _ hw, fun hmem => by simp_all [h.waiting id hw]⟩
      · exact ⟨List.mem_append_right _ hr, fun hmem => by simp_all [h.running id hr]⟩
    refine h.filter (finished.waiting ▸ List.filter_sublist)
      (finished.running ▸ List.filter_sublist) ?_ ?_
    · intro id hid
      obtain ⟨hid, hnot⟩ := hsub id hid
      exact finished.requests_kept id (h.known id hid) hnot
    · intro id hid
      rw [finished.other id (hsub id hid).2]

end Coherent

/-- Beside the queues: an output schedules no zero tokens, and the running list is within its
bound. -/
structure Sound (A : AscendScheduler σ κ M) (e : Engine σ κ M) : Prop extends Coherent e where
  nonzero : ∀ o ∈ e.history, ∀ id n, o.output.numScheduledTokens.lookup id = some n → n ≠ 0
  running_le : e.sched.running.length ≤ A.maxNumRunningReqs

namespace Sound

variable {A : AscendScheduler σ κ M} {e e' : Engine σ κ M} {ev : Event}

theorem initial (h : e.Initial) : Sound A e where
  toCoherent := .initial h
  nonzero := by simp [h.history]
  running_le := by simp [h.running]

/-- The entry of a request that an output schedules is not zero. -/
theorem getD_ne_zero (h : Sound A e) {i : ℕ} {o : Issued M} (hissued : e.history[i]? = some o)
    {id : ReqId} : id ∈ o.output.numScheduledTokens ↔
      (o.output.numScheduledTokens.lookup id).getD 0 ≠ 0 := by
  rw [← AList.lookup_isSome]
  cases hlookup : o.output.numScheduledTokens.lookup id with
  | none => simp
  | some n => simpa using h.nonzero o (List.mem_of_getElem? hissued) id n hlookup

/-- **Every call keeps an engine sound.** -/
theorem stepped (h : Sound A e) (hallowed : ev.Allowed e) (hstep : Stepped A e ev e') :
    Sound A e' := by
  refine ⟨h.toCoherent.stepped hallowed hstep, ?_, ?_⟩
  · cases hstep with
    | addRequest => exact h.nonzero
    | schedule call plan =>
      intro o ho
      obtain ho | ho := List.mem_append.mp ho
      · exact h.nonzero o ho
      · obtain rfl := List.mem_singleton.mp ho
        exact plan.output.nonzero
    | updateFromOutput issued updated frees =>
      intro o ho
      obtain ho | rfl := List.mem_or_eq_of_mem_set ho
      · exact h.nonzero o ho
      · exact h.nonzero ⟨_, false⟩ (List.mem_of_getElem? issued)
    | finishRequests finished frees => exact h.nonzero
  · cases hstep with
    | addRequest => exact h.running_le
    | schedule call plan => exact plan.running_le
    | updateFromOutput issued updated frees =>
      simp only [updated.running]
      exact (List.length_filter_le _ _).trans h.running_le
    | finishRequests finished frees =>
      simp only [finished.running]
      exact (List.length_filter_le _ _).trans h.running_le

end Sound

end VllmAscend
