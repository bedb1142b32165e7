import VllmAscend.Core.Engine
import VllmAscend.Core.Handover

/-!
# Core/Constraints — what an output of `schedule()` satisfies

    num_scheduled_tokens  ~  new ++ resumed ++ running      each positive, Σ ≤ budget

Most of it is in the plan of the call.  That every decode is given a positive number of tokens is
not: it needs that a running request is within the model length or not one token ahead (`Windowed`),
which holds because the base class stops a request at the model length.
-/

namespace VllmAscend

open Machinery

variable {σ κ M : Type}

/-- The constraints on a call of `schedule()` from `s` to `s'` with the output `out`. -/
structure OutputConstraints (A : AscendScheduler σ κ M) (s s' : SchedulerState σ κ)
    (out : SchedulerOutput M) : Prop where
  positive : ∀ id n, out.numScheduledTokens.lookup id = some n → 0 < n
  total : out.totalNumScheduledTokens = out.numScheduledTokens.values.sum
  sum_le : out.numScheduledTokens.values.sum ≤ A.maxNumScheduledTokens
  union : out.numScheduledTokens.keys.Perm
    (out.newIds ++ out.cachedIds true ++ out.cachedIds false)
  disjoint : (out.newIds ++ out.cachedIds true ++ out.cachedIds false).Nodup
  /-- in the running list, and not among the preempted requests -/
  running : ∀ id ∈ out.numScheduledTokens, id ∈ s'.running ∧ id ∉ s'.waiting
  loras : ∀ m, A.loraConfig = some m → (loraIds s.obj out.numScheduledTokens.keys).card ≤ m
  phases : out.newIds ++ out.cachedIds true ≠ [] → out.cachedIds false = []
  running_le : s'.running.length ≤ A.maxNumRunningReqs

/-- A running request is within the model length, unless it is computed to its last token. -/
def Windowed (A : AscendScheduler σ κ M) (e : Engine σ κ M) : Prop :=
  ∀ id ∈ e.sched.running, (e.sched.obj id).numTokens < A.maxModelLen ∨
    (e.sched.obj id).numTokens ≤ (e.sched.obj id).numComputedTokens

variable {A : AscendScheduler σ κ M} {e e' : Engine σ κ M} {ev : Event} {s s' : SchedulerState σ κ}
  {out : SchedulerOutput M} {p : Plan} {id : ReqId}

/-- The tokens of a decode. -/
theorem Windowed.decode_pos {r : Request} {n : ℤ} {k : ℕ} (h : Windowed A e)
    (hid : id ∈ e.sched.running)
    (hentry : AscendScheduler.DecodeEntry A (e.sched.obj id) r n k) : 0 < n := by
  have hready := hentry.ready
  refine hentry.pos ?_
  obtain hshort | hcomputed := h id hid <;> omega

theorem Windowed.schedule (hsound : Sound A e) (h : Windowed A e)
    (hp : p.Describes A e.sched s' out) {history : List (Issued M)} :
    Windowed A { e with sched := s', history := history } := by
  intro id hid
  obtain hid | hid := hp.queues.mem_running' hid
  · have hrunning : id ∈ e.sched.running := by
      rw [hp.queues.running]
      exact List.mem_append_left _ hid
    by_cases hdecoded : id ∈ p.decoded
    · obtain ⟨n, r, _, hentry, hobj⟩ := hp.obj_decoded hdecoded
      have hpos := h.decode_pos hrunning hentry
      have hready := hentry.ready
      simp only [hobj]
      rw [hentry.drafts]
      simp only [Request.advance, Request.numTokens] at hready ⊢
      omega
    · simp only [hp.obj_passed hsound.nodup hid hdecoded]
      exact h id hrunning
  · obtain ⟨n, _, _, _, _, hcomputed, _⟩ := hp.obj_admitted hid
    exact Or.inr hcomputed.ge

/-- **Every call keeps the running requests within their window.** -/
theorem Windowed.stepped (hsound : Sound A e) (h : Windowed A e) (hallowed : ev.Allowed e)
    (haccepts : ev.Accepts e) (hstep : Stepped A e ev e') : Windowed A e' := by
  cases hstep with
  | @addRequest id' r =>
    intro id hid
    have hne : id ≠ id' := by
      rintro rfl
      exact hallowed.2.2 hid
    simp only [Function.update_of_ne hne]
    exact h id hid
  | schedule call plan => exact h.schedule hsound plan
  | @updateFromOutput i res s' out stopped issued updated frees =>
    intro id hid
    simp only [updated.running, List.mem_filter, decide_eq_true_eq] at hid
    obtain ⟨hid, hstopped⟩ := hid
    by_cases hout : id ∈ out.numScheduledTokens
    · obtain ⟨hpos, hle⟩ := haccepts id out ⟨issued, hout⟩
      have hknown := hsound.known id (List.mem_append_right _ hid)
      exact Or.inl (updated.accepted id hout hknown hstopped hpos hle).unstopped
    · simp only [updated.other id hout]
      exact h id hid
  | @finishRequests requestIds finishedStatus s' finished frees =>
    intro id hid
    simp only [finished.running, List.mem_filter, decide_eq_true_eq] at hid
    have hnamed : id ∉ requestIds.consumed.named.toFinset ∩ e.sched.requests := fun hmem =>
      hid.2 ⟨hmem, hsound.running id hid.1⟩
    simp only [finished.other id hnamed]
    exact h id hid.1

/-- **The constraints, read off the plan.** -/
theorem Plan.Describes.constraints (laws : A.BaseLaws)
    (hnodup : (s.waiting ++ s.running).Nodup) (h : p.Describes A s s' out)
    (hpos : ∀ id ∈ p.decoded, ∀ n, out.numScheduledTokens.lookup id = some n → 0 < n) :
    OutputConstraints A s s' out := by
  obtain ⟨hnew, hresumed, hrunning⟩ := h.output.ids laws
  have hkeys := h.output.keys
  have hperm := h.output.entries laws
  refine ⟨?_, h.output.total, h.output.sum_le, hperm,
    hperm.nodup_iff.mp out.numScheduledTokens.keys_nodup, ?_, ?_, ?_, h.running_le⟩
  · intro id n hlookup
    have hmem := hkeys.mem_iff.mp (AList.lookup_isSome.mp (by rw [hlookup]; rfl))
    obtain ha | hd := List.mem_append.mp hmem
    · obtain ⟨m, hm, hmpos, _⟩ := h.obj_admitted ha
      rw [hlookup] at hm
      cases hm
      exact hmpos
    · exact hpos id hd n hlookup
  · intro id hid
    have hrun : id ∈ s'.running := by
      rw [h.queues.running', List.mem_append]
      exact (List.mem_append.mp (hkeys.mem_iff.mp hid)).elim Or.inr
        fun hd => Or.inl (h.queues.decoded.subset hd)
    exact ⟨hrun, fun hw => Queues.not_mem_running (h.queues.nodup hnodup) hw hrun⟩
  · intro m hm
    have hids : loraIds s.obj out.numScheduledTokens.keys = loraIds s.obj p.scheduled :=
      List.toFinset_eq_of_perm _ _ (hkeys.filterMap _)
    rw [hids]
    exact h.output.loras m hm
  · intro hne
    rw [hrunning]
    obtain ⟨hnone, _⟩ | ⟨hnone, _⟩ := h.queues.phases
    · rw [hnew, hresumed, hnone] at hne
      exact absurd rfl hne
    · exact hnone

namespace AscendScheduler

variable {e₀ : Engine σ κ M}

/-- **An output meets its constraints in every reachable state**, whatever the KV cache manager
and the connector do; and a call that raises raises in an assertion on what it was handed: not in
one of the last four, nor for want of a key, nor in a loop that does not end. -/
theorem schedule_constraints (laws : A.BaseLaws)
    (hoff : A.schedulerConfig.chunkedPrefillEnabled = false) (hinit : e₀.Initial)
    (run : Run A.step (fun e ev => ev.Allowed e ∧ ev.Accepts e) e₀ e) :
    (∀ fault, A.schedule e.sched = .error fault →
      fault.isEntry = true ∨
        (fault = .invalidStatus ∧
          ∃ id ∈ e.sched.waiting, (e.sched.obj id).status.isSchedulable = false) ∨
        (fault = .decodeReady ∧ e.sched.scheduledReqIds = ∅ ∧ ∃ id ∈ e.sched.running,
          (e.sched.obj id).numTokens - (e.sched.obj id).numComputedTokens ≠ 1)) ∧
      ∀ s' out, A.schedule e.sched = .ok (s', out) → OutputConstraints A e.sched s' out := by
  have h : Sound A e ∧ Windowed A e := by
    refine run.invariant (I := fun e => Sound A e ∧ Windowed A e) ?_
      ⟨.initial hinit, fun id hid => by simp [hinit.running] at hid⟩
    rintro e ev e' ⟨hsound, hwindowed⟩ ⟨hallowed, haccepts⟩ hstep
    have hstepped := step_eq_ok laws hoff hsound.nodup hstep
    exact ⟨hsound.stepped hallowed hstepped,
      hwindowed.stepped hsound hallowed haccepts hstepped⟩
  obtain ⟨hsound, hwindowed⟩ := h
  refine ⟨fun fault hfault => (schedule_error hoff hsound.nodup hsound.running_le hsound.known
    hfault).imp_left And.left, ?_⟩
  intro s' out hschedule
  obtain ⟨p, hp⟩ := schedule_plan hoff hsound.nodup hschedule
  refine hp.constraints laws hsound.nodup fun id hd n hlookup => ?_
  obtain ⟨m, r, hm, hentry, _⟩ := hp.obj_decoded hd
  rw [hlookup] at hm
  cases hm
  exact hwindowed.decode_pos (hp.queues.mem_running_of_decoded hd) hentry

/-- Two prompts, of which the budget admits one. -/
theorem schedule_constraints_small : ∃ e s' out,
    feed Deployment.small.scheduler.step Deployment.small.engine
      [.addRequest "a" (.ofPrompt [1, 2, 3]), .addRequest "b" (.ofPrompt [1, 2, 3, 4, 5, 6])]
        = .ok e ∧
    Deployment.small.scheduler.schedule e.sched = .ok (s', out) ∧
      OutputConstraints Deployment.small.scheduler e.sched s' out := by
  obtain ⟨e, he, hschedule⟩ : Returns (feed Deployment.small.scheduler.step
      Deployment.small.engine
      [.addRequest "a" (.ofPrompt [1, 2, 3]), .addRequest "b" (.ofPrompt [1, 2, 3, 4, 5, 6])])
      fun e => (Deployment.small.scheduler.schedule e.sched).isOk = true := by decide +kernel
  obtain ⟨⟨s', out⟩, hout⟩ := exists_of_isOk hschedule
  refine ⟨e, s', out, he, hout, (schedule_constraints (Deployment.small.laws none) rfl
    Deployment.small.engine_initial (Run.of_feed he ?_)).2 s' out hout⟩
  refine ⟨⟨⟨Request.ofPrompt_fresh _, by decide, by decide⟩, trivial⟩, fun t ht => ?_⟩
  cases ht
  exact ⟨⟨⟨Request.ofPrompt_fresh _, by decide, by decide⟩, trivial⟩, fun _ _ => trivial⟩

end AscendScheduler

end VllmAscend
