import VllmAscend.Core.Plan
import VllmAscend.Core.BlockPool

/-!
# Core/Conservation — `schedule()` neither loses nor duplicates a request

    waiting ++ running  ~  waiting' ++ running' ++ ignored

Requests move between three deques and a list through seven exits of the prefill loop and the
preemptions of the decode loop.  Read off the plan, they are the same requests afterwards, each
once, but for those the call ignores; and the waiting queue keeps its order.
-/

namespace VllmAscend

open Machinery

variable {σ κ M : Type}

/-- The kept requests are the requests looked at that were neither admitted nor ignored, in their
order. -/
theorem withFate_kept_eq_filter {fates : List (ReqId × Fate)}
    (hnodup : (fates.map Prod.fst).Nodup) :
    withFate .kept fates = (fates.map Prod.fst).filter fun id =>
      id ∉ withFate .admitted fates ∧ id ∉ withFate .ignored fates := by
  rw [withFate, List.filter_map]
  congr 1
  refine List.filter_congr fun p hp => ?_
  -- a request has one fate
  have hinj : ∀ f, (p.1, f) ∈ fates → f = p.2 := fun f hf =>
    congrArg Prod.snd (List.inj_on_of_nodup_map hnodup hf hp rfl)
  simp only [Function.comp_apply, mem_withFate, decide_eq_decide]
  obtain ⟨id, f⟩ := p
  cases f with
  | kept =>
    have hnot : ∀ f, f ≠ .kept → (id, f) ∉ fates := fun f hf hmem => hf (hinj f hmem)
    simpa using ⟨hnot .admitted (by decide), hnot .ignored (by decide)⟩
  | ignored => simpa using fun _ => hp
  | admitted => simpa using fun h => absurd hp h

/-- What a call does to the queues: `preempted`, `admitted` and `ignored` are the requests it
preempts, admits and finishes as `FINISHED_IGNORED`. -/
structure Conserved (s s' : SchedulerState σ κ) (preempted admitted ignored : List ReqId) :
    Prop where
  /-- every request is still there or ignored, and no other is -/
  perm : (s'.waiting ++ s'.running ++ ignored).Perm (s.waiting ++ s.running)
  /-- …each exactly once -/
  nodup : (s'.waiting ++ s'.running ++ ignored).Nodup
  disjoint : ∀ id ∈ s'.waiting, id ∉ s'.running
  waiting' : s'.waiting = preempted ++ s.waiting.filter fun id => id ∉ admitted ∧ id ∉ ignored
  running' : ∃ stay, s.running = stay ++ preempted ∧ s'.running = stay ++ admitted
  admitted_waiting : admitted.Sublist s.waiting
  ignored_waiting : ignored.Sublist s.waiting
  preempted_status : ∀ id ∈ preempted, (s'.obj id).status = .preempted
  /-- the call marks the ignored requests and no other -/
  ignored_status : ∀ id ∈ ignored, (s'.obj id).status = .finishedIgnored
  not_marked : ∀ id, id ∉ ignored → (s'.obj id).status = .finishedIgnored →
    (s.obj id).status = .finishedIgnored

namespace Plan

variable {p : Plan} {s s' : SchedulerState σ κ}

theorem Queues.perm (h : p.Queues s s') :
    (s'.waiting ++ s'.running ++ p.ignored).Perm (s.waiting ++ s.running) := by
  have hfates : (p.fates.map Prod.fst).Perm (p.kept ++ p.admitted ++ p.ignored) :=
    perm_withFate p.fates
  rw [h.waiting, h.running, h.waiting', h.running']
  refine List.perm_iff_count.mpr fun id => ?_
  have hcount := hfates.count_eq id
  simp only [List.count_append] at hcount ⊢
  omega

/-- **Distinct requests stay distinct.** -/
theorem Queues.nodup (hnodup : (s.waiting ++ s.running).Nodup) (h : p.Queues s s') :
    (s'.waiting ++ s'.running).Nodup :=
  (List.nodup_append.mp (h.perm.nodup_iff.mpr hnodup)).1

/-- The waiting queue keeps its order. -/
theorem Queues.waiting_eq (hnodup : s.waiting.Nodup) (h : p.Queues s s') :
    s'.waiting = p.preempted ++ s.waiting.filter fun id => id ∉ p.admitted ∧ id ∉ p.ignored := by
  rw [h.waiting, List.nodup_append] at hnodup
  have hrest : p.rest.filter (fun id => id ∉ p.admitted ∧ id ∉ p.ignored) = p.rest := by
    refine List.filter_eq_self.mpr fun id hid => ?_
    have hnot : ∀ f, id ∉ withFate f p.fates := fun f hmem =>
      hnodup.2.2 id ((withFate_sublist _ _).subset hmem) id hid rfl
    simpa using ⟨hnot .admitted, hnot .ignored⟩
  rw [h.waiting', h.waiting, List.filter_append, hrest, kept, withFate_kept_eq_filter hnodup.1]
  rfl

end Plan

namespace AscendScheduler

variable {self : AscendScheduler σ κ M} {s s' : SchedulerState σ κ} {out : SchedulerOutput M}

/-- The status a call leaves a request it does not ignore with. -/
theorem status_of_not_ignored {p : Plan} (h : p.Describes self s s' out) {id : ReqId}
    (hid : id ∉ p.ignored) (hstatus : (s'.obj id).status = .finishedIgnored) :
    (s.obj id).status = .finishedIgnored := by
  obtain ⟨obj, hobj, hadvance⟩ := h.objects
  rw [hadvance id, Request.advance] at hstatus
  by_cases hw : id ∈ s.waiting
  · rw [h.queues.waiting, List.mem_append] at hw
    by_cases hadmitted : id ∈ p.admitted
    · obtain ⟨n, _, hr, _⟩ := hobj.admitted id hadmitted
      rw [hr.status] at hstatus
      contradiction
    · have hkept : id ∈ p.kept ++ p.rest := by
        have hmem := (perm_withFate p.fates).mem_iff (a := id)
        rw [List.mem_append, List.mem_append] at hmem
        exact List.mem_append.mpr (hw.imp_left fun hw =>
          ((hmem.mp hw).resolve_right hid).resolve_right hadmitted)
      obtain hr | hr | ⟨_, hr⟩ := (hobj.kept id hkept).status
      · rwa [hr] at hstatus
      · rw [hr] at hstatus
        contradiction
      · rw [hr] at hstatus
        contradiction
  · by_cases hpreempted : id ∈ p.preempted
    · rw [hobj.preempted id hpreempted] at hstatus
      contradiction
    · by_cases hdecoded : id ∈ p.decoded
      · obtain ⟨n, _, hentry⟩ := hobj.decoded id hdecoded
        rwa [hentry.drafts] at hstatus
      · rwa [hobj.other id hw hpreempted hdecoded] at hstatus

/-- **`schedule()` conserves the requests**: in any state with distinct requests, whatever the
KV cache manager, the connector and the limits let it do. -/
theorem schedule_conserves (hoff : self.schedulerConfig.chunkedPrefillEnabled = false)
    (hnodup : (s.waiting ++ s.running).Nodup) (h : self.schedule s = .ok (s', out)) :
    ∃ preempted admitted ignored, Conserved s s' preempted admitted ignored := by
  obtain ⟨p, hp⟩ := schedule_plan hoff hnodup h
  have hnodup' := hp.queues.perm.nodup_iff.mpr hnodup
  have hfates : (p.fates.map Prod.fst).Sublist s.waiting :=
    hp.queues.waiting ▸ List.sublist_append_left _ _
  obtain ⟨obj, hobj, hadvance⟩ := hp.objects
  refine ⟨p.preempted, p.admitted, p.ignored, hp.queues.perm, hnodup', ?_,
    hp.queues.waiting_eq (List.nodup_append.mp hnodup).1,
    ⟨p.stay, hp.queues.running, hp.queues.running'⟩, (withFate_sublist _ _).trans hfates,
    (withFate_sublist _ _).trans hfates, ?_, ?_, fun id hid => status_of_not_ignored hp hid⟩
  · intro id hw hr
    exact (List.nodup_append.mp (List.nodup_append.mp hnodup').1).2.2 id hw id hr rfl
  · intro id hid
    rw [hadvance id, hobj.preempted id hid]
    rfl
  · intro id hid
    rw [hadvance id]
    exact (hobj.ignored id hid).2

/-- One prompt is admitted, one is longer than the limit. -/
theorem schedule_conserves_small : ∃ s' out,
    Deployment.small.scheduler.schedule
      (Deployment.small.waitingFor [("a", [1, 2, 3]), ("b", [1, 2, 3, 4, 5, 6, 7, 8, 9])]) =
        .ok (s', out) ∧
      ∃ preempted admitted ignored, Conserved
        (Deployment.small.waitingFor [("a", [1, 2, 3]), ("b", [1, 2, 3, 4, 5, 6, 7, 8, 9])]) s'
        preempted admitted ignored := by
  obtain ⟨⟨s', out⟩, h⟩ := exists_of_isOk (x := Deployment.small.scheduler.schedule
    (Deployment.small.waitingFor [("a", [1, 2, 3]), ("b", [1, 2, 3, 4, 5, 6, 7, 8, 9])]))
    (by decide +kernel)
  exact ⟨s', out, h, schedule_conserves rfl (by decide) h⟩

end AscendScheduler

end VllmAscend
