import VllmAscend.Core.Engine

/-!
# Core/Table — `self.requests`

    self.requests  =  waiting ++ running

A request enters the table in `add_request` and leaves it when the base class frees it.  The prefill
loop finishes a request that is too long on its own, and does not free it: the request is in no
queue and in the table for ever.  Where the loop finds no such request, the table is exactly the two
queues.
-/

namespace VllmAscend

open Machinery

variable {σ κ M : Type}

/-- The table holds the requests of the two queues and no other. -/
def TableConsistent (e : Engine σ κ M) : Prop :=
  ∀ id, id ∈ e.sched.requests ↔ id ∈ e.sched.waiting ++ e.sched.running

/-- No call of `schedule()` finds a request too long. -/
def Event.NoneTooLong (A : AscendScheduler σ κ M) (e : Engine σ κ M) : Event → Prop
  | .schedule => ¬A.FindsTooLong e.sched
  | _ => True

namespace TableConsistent

variable {A : AscendScheduler σ κ M} {e e' : Engine σ κ M} {ev : Event}

theorem initial (h : e.Initial) : TableConsistent e := by
  intro id
  simp [h.requests, h.waiting, h.running]

/-- `schedule()` does not touch the table, and keeps the requests it does not ignore. -/
theorem schedule {p : Plan} {s' : SchedulerState σ κ} {out : SchedulerOutput M}
    (h : TableConsistent e) (hp : p.Describes A e.sched s' out)
    (hnone : ¬A.FindsTooLong e.sched) (id : ReqId) :
    id ∈ s'.requests ↔ id ∈ s'.waiting ++ s'.running := by
  have hignored : p.ignored = [] := by
    by_contra hne
    exact hnone (hp.tooLong hne)
  have hperm := hp.queues.perm
  rw [hignored, List.append_nil] at hperm
  rw [hp.queues.requests', hperm.mem_iff]
  exact h id

/-- **A request that is ignored leaks**: it leaves the queues and stays in the table. -/
theorem schedule_leaks {p : Plan} {s' : SchedulerState σ κ} {out : SchedulerOutput M}
    (hcoherent : Coherent e) (hp : p.Describes A e.sched s' out) {id : ReqId}
    (hid : id ∈ p.ignored) : id ∈ s'.requests ∧ id ∉ s'.waiting ++ s'.running := by
  have hnodup := hp.queues.perm.nodup_iff.mpr hcoherent.nodup
  refine ⟨?_, fun hmem => (List.nodup_append.mp hnodup).2.2 id hmem id hid rfl⟩
  rw [hp.queues.requests']
  exact hcoherent.known id (List.mem_append_left _ (hp.queues.mem_waiting_of_fate hid))

/-- **Every call keeps the table consistent**, where no connector delays the freeing of a request
and none is ignored. -/
theorem stepped (hconn : A.connector = none) (hcoherent : Coherent e) (h : TableConsistent e)
    (hnone : ev.NoneTooLong A e) (hstep : Stepped A e ev e') : TableConsistent e' := by
  intro id
  cases hstep with
  | @addRequest id' r =>
    have hid := h id
    simp only [List.mem_append] at hid
    simp only [Finset.mem_insert, List.mem_append, List.mem_singleton, hid]
    tauto
  | schedule call plan => exact h.schedule plan hnone id
  | updateFromOutput issued updated frees =>
    simp only [frees hconn, updated.waiting, updated.running, ← List.filter_append,
      List.mem_filter, Finset.mem_sdiff, h id, decide_eq_true_eq]
  | @finishRequests requestIds finishedStatus s' finished frees =>
    have hwaiting := hcoherent.waiting id
    have hrunning := hcoherent.running id
    have hid := h id
    simp only [frees hconn, finished.waiting, finished.running, List.mem_append, List.mem_filter,
      Finset.mem_sdiff, Finset.mem_inter, decide_eq_true_eq] at hid ⊢
    tauto

end TableConsistent

namespace AscendScheduler

variable {A : AscendScheduler σ κ M} {e₀ e : Engine σ κ M}

/-- **The table is the two queues in every run** without a connector in which no prompt is found
too long; so an idle scheduler has an empty table. -/
theorem table_consistent (laws : A.BaseLaws)
    (hoff : A.schedulerConfig.chunkedPrefillEnabled = false) (hconn : A.connector = none)
    (hinit : e₀.Initial)
    (run : Run A.step (fun e ev => ev.Allowed e ∧ ev.NoneTooLong A e) e₀ e) :
    TableConsistent e ∧
      (e.sched.waiting = [] → e.sched.running = [] → e.sched.requests = ∅) := by
  have h : Coherent e ∧ TableConsistent e := by
    refine run.invariant (I := fun e => Coherent e ∧ TableConsistent e) ?_
      ⟨.initial hinit, .initial hinit⟩
    rintro e ev e' ⟨hcoherent, htable⟩ ⟨hallowed, hnone⟩ hstep
    have hstepped := step_eq_ok laws hoff hcoherent.nodup hstep
    exact ⟨hcoherent.stepped hallowed hstepped, htable.stepped hconn hcoherent hnone hstepped⟩
  refine ⟨h.2, fun hwaiting hrunning => Finset.eq_empty_of_forall_notMem fun id hid => ?_⟩
  have hmem := (h.2 id).mp hid
  rw [hwaiting, hrunning] at hmem
  exact List.not_mem_nil hmem

/-- A prompt that is added and aborted. -/
theorem table_consistent_small : ∃ e,
    feed Deployment.small.scheduler.step Deployment.small.engine
      [.addRequest "a" (.ofPrompt [1, 2, 3]), .finishRequests (.str "a") .finishedAborted]
        = .ok e ∧
    TableConsistent e ∧
      (e.sched.waiting = [] → e.sched.running = [] → e.sched.requests = ∅) := by
  obtain ⟨e, he⟩ := exists_of_isOk (x := feed Deployment.small.scheduler.step
    Deployment.small.engine
    [.addRequest "a" (.ofPrompt [1, 2, 3]), .finishRequests (.str "a") .finishedAborted])
    (by decide +kernel)
  refine ⟨e, he, table_consistent (Deployment.small.laws none) rfl rfl
    Deployment.small.engine_initial (Run.of_feed he ?_)⟩
  exact ⟨⟨⟨Request.ofPrompt_fresh _, by decide, by decide⟩, trivial⟩, fun _ _ =>
    ⟨⟨rfl, trivial⟩, fun _ _ => trivial⟩⟩

/-- **A prompt of nine tokens, where eight is the limit, stays in the table** of a scheduler whose
queues are empty. -/
theorem table_leaks : ∃ e,
    Run Deployment.small.scheduler.step Event.Allowed Deployment.small.engine e ∧
    e.sched.waiting = [] ∧ e.sched.running = [] ∧ e.sched.requests = {"a"} ∧
    ¬TableConsistent e := by
  obtain ⟨e, he, hwaiting, hrunning, hrequests⟩ : Returns (feed Deployment.small.scheduler.step
      Deployment.small.engine
      [.addRequest "a" (.ofPrompt [1, 2, 3, 4, 5, 6, 7, 8, 9]), .schedule])
      fun e => e.sched.waiting = [] ∧ e.sched.running = [] ∧ e.sched.requests = {"a"} := by
    decide +kernel
  refine ⟨e, Run.of_feed he ?_, hwaiting, hrunning, hrequests, fun h => ?_⟩
  · exact ⟨⟨Request.ofPrompt_fresh _, by decide, by decide⟩, fun _ _ =>
      ⟨trivial, fun _ _ => trivial⟩⟩
  · have hmem := (h "a").mp (by simp [hrequests])
    rw [hwaiting, hrunning] at hmem
    exact List.not_mem_nil hmem

end AscendScheduler

end VllmAscend
