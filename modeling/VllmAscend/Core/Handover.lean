import VllmAscend.Core.Plan
import VllmAscend.Core.Overrides

/-!
# Core/Handover — what an output tells the worker of the requests

    schedule() ──▸ scheduled_new_reqs        in full
               └─▸ scheduled_cached_reqs     what changed

The entries of an output are made of the requests as the two loops left them, before their computed
tokens are advanced.  `schedule_call` keeps the frame the loops end in at hand; what the entries say
of the requests after the call is `schedule_handover`.
-/

namespace VllmAscend

variable {σ κ M : Type}

variable {A : AscendScheduler σ κ M} {s s' : SchedulerState σ κ} {out : SchedulerOutput M}
  {p : Plan} {fr : Frame σ κ}

/-- The ids of the cached requests are the ones the entries are made for. -/
theorem SchedulerOutput.cachedIds_eq (laws : A.BaseLaws) {obj : ReqId → Request}
    {running resumed : List ReqId} {num : Dict ℤ} {spec : Dict (List Token)}
    {blocks : Dict (List (List BlockId))}
    (h : out.scheduledCachedReqs =
      A.super.makeCachedRequestData obj running resumed num spec blocks) :
    out.cachedIds true = resumed ∧ out.cachedIds false = running := by
  have hids := laws.cached_ids obj running resumed num spec blocks
  rw [← h] at hids
  have hselect : ∀ resumed, out.cachedIds resumed = ((out.scheduledCachedReqs.map fun entry =>
      (entry.reqId, entry.resumedFromPreemption)).filter fun q => q.2 = resumed).map Prod.fst := by
    intro resumed
    rw [List.filter_map, List.map_map]
    rfl
  rw [hselect, hselect, hids]
  simp [List.filter_map, Function.comp_def]

/-- The lists of an output, by what the plan says. -/
theorem Plan.Output.ids (laws : A.BaseLaws) (h : p.Output A s out) :
    out.newIds = (p.admitted.filter fun id => (s.obj id).status ≠ .preempted) ∧
      out.cachedIds true = (p.admitted.filter fun id => (s.obj id).status = .preempted) ∧
      out.cachedIds false = p.decoded := by
  obtain ⟨obj, blocks, hcached⟩ := h.cached
  exact ⟨h.new, SchedulerOutput.cachedIds_eq laws hcached⟩

/-- **Every scheduled request has one entry**, new, resumed or running. -/
theorem Plan.Output.entries (laws : A.BaseLaws) (h : p.Output A s out) :
    out.numScheduledTokens.keys.Perm (out.newIds ++ out.cachedIds true ++ out.cachedIds false) := by
  obtain ⟨hnew, hresumed, hrunning⟩ := h.ids laws
  refine h.keys.trans ?_
  rw [hnew, hresumed, hrunning, scheduled]
  refine List.Perm.append_right _ (List.perm_append_comm.trans ?_).symm
  simpa using List.filter_append_perm (fun id => (s.obj id).status = .preempted) p.admitted

/-- A call of `schedule()` and the frame its two loops end in. -/
structure Call (A : AscendScheduler σ κ M) (s s' : SchedulerState σ κ) (out : SchedulerOutput M)
    (fr : Frame σ κ) : Prop where
  plan : A.planRequests s = .ok fr
  output : out = { A.buildOutput fr with kvConnectorMetadata := out.kvConnectorMetadata }
  kv : s'.kv = fr.kv
  running : s'.running = fr.running
  obj : ∀ id, s'.obj id = (fr.obj id).advance ((out.numScheduledTokens.lookup id).getD 0)

namespace AscendScheduler

theorem schedule_call (hoff : A.schedulerConfig.chunkedPrefillEnabled = false)
    (h : A.schedule s = .ok (s', out)) : ∃ fr, Call A s s' out fr := by
  obtain ⟨fr, conn, hplan, _, hmeta, hadvance, hs'⟩ := schedule_eq_ok hoff h
  have hout := buildMeta_eq_ok hmeta
  refine ⟨fr, hplan, hout, by rw [hs'], by rw [hs'], fun id => ?_⟩
  rw [hout]
  exact (advanceComputed_eq_ok hadvance).2 id

end AscendScheduler

/-- What the entries of an output say of the tokens of the requests, which are those of `s'`. -/
structure Handover (s' : SchedulerState σ κ) (out : SchedulerOutput M) : Prop where
  new : ∀ d ∈ out.scheduledNewReqs, d.promptTokenIds = (s'.obj d.reqId).promptTokenIds ∧
    (s'.obj d.reqId).numComputedTokens =
      d.numComputedTokens + (out.numScheduledTokens.lookup d.reqId).getD 0
  cached : ∀ e ∈ out.scheduledCachedReqs, (s'.obj e.reqId).numComputedTokens =
      e.numComputedTokens + (out.numScheduledTokens.lookup e.reqId).getD 0 ∧
    e.numComputedTokens + e.newTokenIds.length ≤
      max e.numComputedTokens (s'.obj e.reqId).numTokens

/-- **The entries of an output are the requests of the call.** -/
theorem Call.handover (laws : A.BaseLaws) (h : Call A s s' out fr) : Handover s' out := by
  have hobj := h.obj
  refine ⟨fun d hd => ?_, fun e he => ?_⟩
  · rw [h.output] at hd
    obtain ⟨id, _, rfl⟩ := List.mem_map.mp hd
    exact ⟨by rw [hobj]; rfl, by rw [hobj]; rfl⟩
  · rw [h.output] at he
    have hcomputed := laws.cached_computed _ _ _ _ _ _ e he
    have htokens := laws.cached_tokens _ _ _ _ _ _ e he
    rw [hobj, hcomputed]
    rw [hcomputed] at htokens
    exact ⟨rfl, htokens⟩

end VllmAscend
