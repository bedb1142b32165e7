import VllmAscend.Core.Engine

/-!
# Core/Gate — `scheduled_req_ids`

    id ∈ scheduled_req_ids  ⟹  id ∈ running, and its latest output is not processed

`schedule()` decodes only when `scheduled_req_ids` is empty, so an id that is left behind in it
stops all decoding.  The set is filled in `schedule()` and emptied in `finish_requests` and
`update_from_output`, whose two halves must agree on who leaves.  They do, but for a plain string:
`finish_requests("ab")` finishes `ab` and takes `a` and `b` out of the set.
-/

namespace VllmAscend

open Machinery

variable {σ κ M : Type}

/-- The latest output that schedules the request is not processed. -/
def Engine.LatestPending (e : Engine σ κ M) (id : ReqId) : Prop :=
  ∃ i out, e.Pending id i out ∧
    ∀ j o, i < j → e.history[j]? = some o → id ∉ o.output.numScheduledTokens

/-- The ids in the gate are those of running requests whose latest output is not processed. -/
structure GateHolds (e : Engine σ κ M) : Prop where
  running : ∀ id ∈ e.sched.scheduledReqIds, id ∈ e.sched.running
  latest : ∀ id ∈ e.sched.scheduledReqIds, e.LatestPending id

/-- Request ids are never reused. -/
def Event.NeverReused (e : Engine σ κ M) : Event → Prop
  | .addRequest id _ => id ∉ e.added
  | _ => True

/-- A plain string that names a request in flight is a single character. -/
def Event.NamesByCharacter (e : Engine σ κ M) : Event → Prop
  | .finishRequests (.str id) _ => id ∈ e.sched.scheduledReqIds → id.length = 1
  | _ => True

/-- **A string is one of its own characters** exactly when it is a single one. -/
theorem RequestIds.mem_iterated_str {id : ReqId} :
    id ∈ (RequestIds.str id).iterated ↔ id.length = 1 := by
  rw [iterated, List.mem_map]
  constructor
  · rintro ⟨c, _, rfl⟩
    rw [← String.length_toList, String.toList_singleton, List.length_singleton]
  · intro hlen
    rw [← String.length_toList, List.length_eq_one_iff] at hlen
    obtain ⟨c, hc⟩ := hlen
    refine ⟨c, by simp [hc], ?_⟩
    rw [← String.ofList_toList (s := id), hc, String.singleton_eq_ofList]

/-- Then every request in flight that the base class finishes was iterated over. -/
theorem Event.NamesByCharacter.iterated {e : Engine σ κ M} {requestIds : RequestIds}
    {finishedStatus : RequestStatus}
    (h : (Event.finishRequests requestIds finishedStatus).NamesByCharacter e) {id : ReqId}
    (hid : id ∈ e.sched.scheduledReqIds) (hnamed : id ∈ requestIds.consumed.named) :
    id ∈ requestIds.iterated := by
  cases requestIds with
  | str id' =>
    obtain rfl := List.mem_singleton.mp hnamed
    exact RequestIds.mem_iterated_str.mpr (h hid)
  | iterable ids => exact hnamed
  | iterator ids => exact absurd hnamed List.not_mem_nil

namespace GateHolds

variable {A : AscendScheduler σ κ M} {e e' : Engine σ κ M} {ev : Event}

theorem initial (h : e.Initial) : GateHolds e := by
  constructor <;> simp [h.scheduledReqIds]

/-- `schedule()` adds to the gate the requests of its output, and preempts only when the gate is
empty. -/
theorem schedule {p : Plan} {s' : SchedulerState σ κ} {out : SchedulerOutput M} (h : GateHolds e)
    (hp : p.Describes A e.sched s' out) :
    GateHolds { e with sched := s', history := e.history ++ [⟨out, false⟩] } := by
  have hgate : ∀ id ∈ s'.scheduledReqIds, id ∈ p.scheduled ∨
      id ∈ e.sched.scheduledReqIds ∧ id ∉ out.numScheduledTokens := by
    intro id hid
    by_cases hs : id ∈ p.scheduled
    · exact Or.inl hs
    · rw [hp.queues.scheduledReqIds', Finset.mem_union, List.mem_toFinset] at hid
      exact Or.inr ⟨hid.resolve_right hs, fun hmem => hs (hp.output.keys.mem_iff.mp hmem)⟩
  constructor
  · intro id hid
    rw [hp.queues.running', List.mem_append]
    obtain hs | ⟨hid, _⟩ := hgate id hid
    · obtain ha | hd := List.mem_append.mp hs
      · exact Or.inr ha
      · exact Or.inl (hp.queues.decoded.subset hd)
    · -- requests are in flight, so none is preempted
      have hrunning := h.running id hid
      have hne : e.sched.scheduledReqIds ≠ ∅ := Finset.ne_empty_of_mem hid
      obtain ⟨_, hempty⟩ | ⟨_, hpreempted⟩ := hp.queues.phases
      · exact absurd hempty hne
      · rw [hp.queues.running, hpreempted, List.append_nil] at hrunning
        exact Or.inl hrunning
  · intro id hid
    obtain hs | ⟨hid, hout⟩ := hgate id hid
    · refine ⟨e.history.length, out, (Engine.pending_issue rfl).mpr
        (Or.inr ⟨rfl, rfl, hp.output.keys.mem_iff.mpr hs⟩), ?_⟩
      intro j o hj ho
      rw [List.getElem?_eq_none (by simp; omega)] at ho
      contradiction
    · obtain ⟨i, o, hpending, hlater⟩ := h.latest id hid
      refine ⟨i, o, (Engine.pending_issue rfl).mpr (Or.inl hpending), ?_⟩
      intro j o' hj ho'
      rw [List.getElem?_append] at ho'
      split at ho'
      · exact hlater j o' hj ho'
      · obtain rfl := List.mem_singleton.mp (List.mem_of_getElem? ho')
        exact hout

/-- `update_from_output` takes the requests of its output out of the gate. -/
theorem updateFromOutput {i : ℕ} {res : ModelRunnerOutput} {s' : SchedulerState σ κ}
    {out : SchedulerOutput M} {stopped : Finset ReqId} (hsound : Sound A e) (h : GateHolds e)
    (issued : e.history[i]? = some ⟨out, false⟩)
    (updated : Updated A.maxModelLen
      { e.sched with scheduledReqIds := AscendScheduler.removeProcessed e.sched out } s' out res
      stopped) :
    GateHolds { e with sched := s', history := e.history.set i ⟨out, true⟩ } := by
  have hgate : ∀ id ∈ s'.scheduledReqIds, id ∈ e.sched.scheduledReqIds ∧
      id ∉ out.numScheduledTokens := by
    intro id hid
    rw [updated.scheduledReqIds, AscendScheduler.mem_removeProcessed] at hid
    exact ⟨hid.1, fun hout =>
      hid.2 ⟨h.running id hid.1, (hsound.getD_ne_zero issued).mp hout⟩⟩
  constructor
  · intro id hid
    obtain ⟨hid, hout⟩ := hgate id hid
    rw [updated.running, List.mem_filter]
    exact ⟨h.running id hid, by simpa using fun hs => hout (updated.stopped_scheduled id hs).1⟩
  · intro id hid
    obtain ⟨hid, hout⟩ := hgate id hid
    obtain ⟨j, o, hpending, hlater⟩ := h.latest id hid
    refine ⟨j, o, (Engine.pending_process rfl rfl).mpr ⟨hpending, ?_⟩, ?_⟩
    · rintro rfl
      have ho := hpending.1
      rw [issued] at ho
      cases ho
      exact hout hpending.2
    · intro k o' hk ho'
      rw [List.getElem?_set] at ho'
      split at ho'
      · split at ho'
        · cases ho'
          exact hout
        · contradiction
      · exact hlater k o' hk ho'

/-- `finish_requests` takes the running requests it is given out of the gate. -/
theorem finishRequests {requestIds : RequestIds} {finishedStatus : RequestStatus}
    {s' : SchedulerState σ κ} (h : GateHolds e)
    (hnames : (Event.finishRequests requestIds finishedStatus).NamesByCharacter e)
    (finished : Finished
      { e.sched with
        scheduledReqIds := AscendScheduler.discardRunning e.sched requestIds.iterated } s'
      (requestIds.consumed.named.toFinset ∩ e.sched.requests) finishedStatus) :
    GateHolds { e with sched := s' } := by
  have hgate : ∀ id ∈ s'.scheduledReqIds, id ∈ e.sched.scheduledReqIds ∧
      ¬(id ∈ requestIds.iterated ∧ id ∈ e.sched.requests ∧
        (e.sched.obj id).status = .running) := by
    intro id hid
    rwa [finished.scheduledReqIds, AscendScheduler.mem_discardRunning] at hid
  constructor
  · intro id hid
    obtain ⟨hid, hnot⟩ := hgate id hid
    rw [finished.running, List.mem_filter]
    refine ⟨h.running id hid, ?_⟩
    simp only [Finset.mem_inter, List.mem_toFinset, decide_eq_true_eq]
    rintro ⟨⟨hnamed, hknown⟩, hstatus⟩
    exact hnot ⟨hnames.iterated hid hnamed, hknown, hstatus⟩
  · intro id hid
    exact h.latest id (hgate id hid).1

/-- **Every call keeps the gate.** -/
theorem stepped (hsound : Sound A e) (h : GateHolds e) (hnames : ev.NamesByCharacter e)
    (hstep : Stepped A e ev e') : GateHolds e' := by
  cases hstep with
  | addRequest => exact ⟨h.running, h.latest⟩
  | schedule call plan => exact h.schedule plan
  | updateFromOutput issued updated frees => exact h.updateFromOutput hsound issued updated
  | finishRequests finished frees => exact h.finishRequests hnames finished

end GateHolds

namespace AscendScheduler

variable {A : AscendScheduler σ κ M} {e₀ e : Engine σ κ M}

/-- **The gate holds in every run** in which no plain string of more than one character, or of
none, finishes a request in flight; and when no output is outstanding the gate is open. -/
theorem gate_holds (laws : A.BaseLaws) (hoff : A.schedulerConfig.chunkedPrefillEnabled = false)
    (hinit : e₀.Initial)
    (run : Run A.step (fun e ev => ev.Allowed e ∧ ev.NamesByCharacter e) e₀ e) :
    GateHolds e ∧ ((∀ o ∈ e.history, o.processed = true) → e.sched.scheduledReqIds = ∅) := by
  have h : Sound A e ∧ GateHolds e := by
    refine run.invariant (I := fun e => Sound A e ∧ GateHolds e) ?_
      ⟨.initial hinit, .initial hinit⟩
    rintro e ev e' ⟨hsound, hgate⟩ ⟨hallowed, hnames⟩ hstep
    have hstepped := step_eq_ok laws hoff hsound.nodup hstep
    exact ⟨hsound.stepped hallowed hstepped, hgate.stepped hsound hnames hstepped⟩
  refine ⟨h.2, fun hdone => Finset.eq_empty_of_forall_notMem fun id hid => ?_⟩
  obtain ⟨i, out, hpending, _⟩ := h.2.latest id hid
  exact nomatch hdone _ (List.mem_of_getElem? hpending.1)

/-- A request that is scheduled and then finished, under some spelling of its id. -/
def abortInFlight (requestIds : RequestIds) : List Event :=
  [.addRequest "ab" (.ofPrompt [1, 2, 3]), .schedule,
    .finishRequests requestIds .finishedAborted]

/-- A list of ids does not trouble the gate. -/
theorem gate_holds_small : ∃ e,
    feed Deployment.small.scheduler.step Deployment.small.engine
      (abortInFlight (.iterable ["ab"])) = .ok e ∧
    GateHolds e ∧ ((∀ o ∈ e.history, o.processed = true) → e.sched.scheduledReqIds = ∅) := by
  obtain ⟨e, he⟩ := exists_of_isOk (x := feed Deployment.small.scheduler.step
    Deployment.small.engine (abortInFlight (.iterable ["ab"]))) (by decide +kernel)
  refine ⟨e, he, gate_holds (Deployment.small.laws none) rfl Deployment.small.engine_initial
    (Run.of_feed he ?_)⟩
  exact ⟨⟨⟨Request.ofPrompt_fresh _, by decide, by decide⟩, trivial⟩, fun _ _ =>
    ⟨⟨trivial, trivial⟩, fun _ _ => ⟨⟨rfl, trivial⟩, fun _ _ => trivial⟩⟩⟩

/-- **A plain string leaves the id behind**: once the aborted request's id is all that is in the
gate, nothing runs and nothing is ever decoded again. -/
theorem gate_leaks : ∃ e,
    Run Deployment.small.scheduler.step (fun e ev => ev.Allowed e ∧ ev.NeverReused e)
      Deployment.small.engine e ∧
    e.sched.running = [] ∧ e.sched.scheduledReqIds = {"ab"} ∧ ¬GateHolds e := by
  obtain ⟨e, he, hrunning, hgate⟩ : Returns (feed Deployment.small.scheduler.step
      Deployment.small.engine (abortInFlight (.str "ab")))
      fun e => e.sched.running = [] ∧ e.sched.scheduledReqIds = {"ab"} := by decide +kernel
  refine ⟨e, Run.of_feed he ?_, hrunning, hgate, fun h => ?_⟩
  · exact ⟨⟨⟨Request.ofPrompt_fresh _, by decide, by decide⟩, Finset.notMem_empty _⟩, fun _ _ =>
      ⟨⟨trivial, trivial⟩, fun _ _ => ⟨⟨rfl, trivial⟩, fun _ _ => trivial⟩⟩⟩
  · have hmem := h.running "ab" (by simp [hgate])
    rw [hrunning] at hmem
    exact List.not_mem_nil hmem

end AscendScheduler

end VllmAscend
