import VllmAscend.Core.PrefillPhase
import VllmAscend.Core.DecodePhase

/-!
# Core/Plan — what one call of `schedule()` does

    waiting  = fates ++ rest        ──▸  preempted ++ kept ++ rest
    running  = stay ++ preempted    ──▸  stay ++ admitted

A `Plan` names the parts the two loops cut the queues into; `schedule_plan` says that every call
that returns follows one.  What holds of the queues, of the output and of the requests after a call
is read off the plan, in the modules that follow.
-/

namespace VllmAscend

open Machinery

variable {σ κ M : Type}

/-- The requests of one call: those the prefill loop looked at with what became of them, those it
did not reach, the running requests that stay, those preempted and those decoded. -/
structure Plan where
  fates : List (ReqId × Fate)
  rest : List ReqId
  stay : List ReqId
  preempted : List ReqId
  decoded : List ReqId

namespace Plan

variable (p : Plan)

/-- Skipped, or parked. -/
def kept : List ReqId := withFate .kept p.fates

def admitted : List ReqId := withFate .admitted p.fates

def ignored : List ReqId := withFate .ignored p.fates

/-- What the output schedules. -/
def scheduled : List ReqId := p.admitted ++ p.decoded

/-- The queues and the in-flight gate, before and after. -/
structure Queues (s s' : SchedulerState σ κ) : Prop where
  waiting : s.waiting = p.fates.map Prod.fst ++ p.rest
  running : s.running = p.stay ++ p.preempted
  waiting' : s'.waiting = p.preempted ++ (p.kept ++ p.rest)
  running' : s'.running = p.stay ++ p.admitted
  decoded : p.decoded.Sublist p.stay
  phases : p.admitted = [] ∧ s.scheduledReqIds = ∅ ∨ p.decoded = [] ∧ p.preempted = []
  scheduledReqIds' : s'.scheduledReqIds = s.scheduledReqIds ∪ p.scheduled.toFinset
  requests' : s'.requests = s.requests

/-- The requests before and after the two loops; `num` and `spec` are what the output says. -/
structure Objects (A : AscendScheduler σ κ M) (s : SchedulerState σ κ) (num : Dict ℤ)
    (spec : Dict (List Token)) (obj : ReqId → Request) : Prop where
  kept : ∀ id ∈ p.kept ++ p.rest, (s.obj id).Kept (obj id)
  ignored : ∀ id ∈ p.ignored,
    (s.obj id).SameTokens (obj id) ∧ (obj id).status = .finishedIgnored
  admitted : ∀ id ∈ p.admitted, ∃ n, num.lookup id = some n ∧
    AscendScheduler.Admitted (s.obj id) (obj id) n ∧ numSpecTokens spec id = 0
  decoded : ∀ id ∈ p.decoded, ∃ n, num.lookup id = some n ∧
    AscendScheduler.DecodeEntry A (s.obj id) (obj id) n (numSpecTokens spec id)
  preempted : ∀ id ∈ p.preempted,
    obj id = { s.obj id with status := .preempted, numComputedTokens := 0 }
  other : ∀ id, id ∉ s.waiting → id ∉ p.preempted → id ∉ p.decoded → obj id = s.obj id

/-- The local variables of the call when the two loops are done. -/
structure Records (A : AscendScheduler σ κ M) (s : SchedulerState σ κ) (fr : Frame σ κ) : Prop where
  ledger : AscendScheduler.Ledger A s.obj p.scheduled fr.numScheduledTokens fr.tokenBudget
    fr.scheduledLoras
  new : fr.scheduledNewReqs = p.admitted.filter fun id => (s.obj id).status ≠ .preempted
  resumed : fr.scheduledResumedReqs = p.admitted.filter fun id => (s.obj id).status = .preempted
  running : fr.scheduledRunningReqs = p.decoded
  finished : fr.finishedReqIds = s.finishedReqIds ∪ p.ignored.toFinset

/-- The two loops, done. -/
structure Frames (A : AscendScheduler σ κ M) (s : SchedulerState σ κ) (fr : Frame σ κ) : Prop where
  queues : p.Queues s fr.toSchedulerState
  records : p.Records A s fr
  objects : p.Objects A s fr.numScheduledTokens fr.scheduledSpecDecodeTokens fr.obj
  tooLong : p.ignored ≠ [] → A.FindsTooLong s

end Plan

namespace Plan

variable (p : Plan)

/-- The output of the call. -/
structure Output (A : AscendScheduler σ κ M) (s : SchedulerState σ κ) (out : SchedulerOutput M) :
    Prop where
  keys : out.numScheduledTokens.keys.Perm p.scheduled
  total : out.totalNumScheduledTokens = out.numScheduledTokens.values.sum
  sum_le : out.numScheduledTokens.values.sum ≤ A.maxNumScheduledTokens
  nonzero : ∀ id n, out.numScheduledTokens.lookup id = some n → n ≠ 0
  loras : ∀ m, A.loraConfig = some m → (loraIds s.obj p.scheduled).card ≤ m
  finished : out.finishedReqIds = s.finishedReqIds ∪ p.ignored.toFinset
  known : ∀ id ∈ p.scheduled, id ∈ s.requests
  new : out.scheduledNewReqs.map NewRequestData.reqId =
    p.admitted.filter fun id => (s.obj id).status ≠ .preempted
  cached : ∃ obj blocks, out.scheduledCachedReqs = A.super.makeCachedRequestData obj p.decoded
    (p.admitted.filter fun id => (s.obj id).status = .preempted) out.numScheduledTokens
    out.scheduledSpecDecodeTokens blocks

/-- **A call of `schedule()`**, from `s` to `s'` with the output `out`, follows the plan. -/
structure Describes (A : AscendScheduler σ κ M) (s s' : SchedulerState σ κ)
    (out : SchedulerOutput M) : Prop where
  queues : p.Queues s s'
  output : p.Output A s out
  finishedReqIds' : s'.finishedReqIds = ∅
  /-- the third of the terminal assertions -/
  running_le : s'.running.length ≤ A.maxNumRunningReqs
  tooLong : p.ignored ≠ [] → A.FindsTooLong s
  objects : ∃ obj, p.Objects A s out.numScheduledTokens out.scheduledSpecDecodeTokens obj ∧
    ∀ id, s'.obj id = (obj id).advance ((out.numScheduledTokens.lookup id).getD 0)

end Plan

namespace AscendScheduler

variable {self : AscendScheduler σ κ M} {s s' : SchedulerState σ κ} {fr fr₀ : Frame σ κ}
  {fates : List (ReqId × Fate)} {victims : List ReqId} {out : SchedulerOutput M} {id : ReqId}

/-! ## The two loops -/

/-- The ledger reads the adapters of the requests it has entered. -/
theorem Ledger.congr_obj {obj obj' : ReqId → Request} {scheduled : List ReqId} {num : Dict ℤ}
    {budget : ℤ} {loras : Finset ℕ} (h : Ledger self obj scheduled num budget loras)
    (hobj : ∀ id ∈ scheduled, obj' id = obj id) :
    Ledger self obj' scheduled num budget loras := by
  refine ⟨h.keys, h.budget, h.nonneg, h.nonzero, fun m hm => ?_⟩
  have hids : loraIds obj' scheduled = loraIds obj scheduled := by
    unfold loraIds
    rw [List.filterMap_congr fun id hid => by rw [hobj id hid]]
  rw [hids]
  exact h.loras m hm

/-- When requests are in flight, the decode loop is not entered. -/
theorem PrefillDone.frames (h : PrefillDone self s fates fr) :
    Plan.Frames ⟨fates, fr.waiting, s.running, [], []⟩ self s fr.putBackSkipped where
  queues :=
    { waiting := h.queues.waiting
      running := (List.append_nil _).symm
      waiting' := by
        rw [List.nil_append, Frame.putBackSkipped, h.queues.skipped]
        rfl
      running' := h.queues.running
      decoded := List.nil_sublist _
      phases := Or.inr ⟨rfl, rfl⟩
      scheduledReqIds' := by
        rw [Plan.scheduled, List.append_nil]
        exact h.queues.scheduledReqIds
      requests' := h.queues.requests }
  records :=
    { ledger := by
        rw [Plan.scheduled, List.append_nil]
        exact h.records.ledger
      new := h.records.new
      resumed := h.records.resumed
      running := h.records.running
      finished := h.queues.finishedReqIds }
  objects :=
    { kept := fun id hid => (List.mem_append.mp hid).elim (h.kept id) (h.rest id)
      ignored := h.ignored
      admitted := by
        intro id hid
        obtain ⟨n, hlookup, hadmitted⟩ := h.admitted id hid
        refine ⟨n, hlookup, hadmitted, ?_⟩
        rw [Frame.putBackSkipped, numSpecTokens, h.records.spec, AList.lookup_empty]
        rfl
      decoded := fun _ hid => absurd hid List.not_mem_nil
      preempted := fun _ hid => absurd hid List.not_mem_nil
      other := fun id hid _ _ => h.unseen id hid }
  tooLong := h.tooLong

/-- When nothing is in flight, nothing was admitted and the decode loop goes through the running
requests as the call found them. -/
theorem DecodePhase.frames (hnodup : (s.waiting ++ s.running).Nodup)
    (hprefill : PrefillDone self s fates fr₀) (hgate : fr₀.scheduledReqIds = ∅)
    (h : DecodePhase self fr₀.putBackSkipped victims fr) :
    Plan.Frames ⟨fates, fr₀.waiting, fr.running, victims, fr.scheduledRunningReqs⟩ self s fr := by
  have hunion := hprefill.queues.scheduledReqIds
  rw [hgate, eq_comm, Finset.union_eq_empty, List.toFinset_eq_empty_iff] at hunion
  obtain ⟨hset, hadmitted⟩ := hunion
  have hrunning : s.running = fr.running ++ victims := by
    have := hprefill.queues.running
    rw [hadmitted, List.append_nil] at this
    rw [← this]
    exact h.running
  have hobj : ∀ {id}, id ∈ s.running → fr₀.obj id = s.obj id := by
    intro id hid
    rw [List.nodup_append] at hnodup
    exact hprefill.unseen id fun hw => hnodup.2.2 id hw id hid rfl
  have hmem : ∀ {id}, id ∈ fr.scheduledRunningReqs → id ∈ s.running := fun hid =>
    hrunning ▸ List.mem_append_left _ (h.mem_running hid)
  have hvictim : ∀ {id}, id ∈ victims → id ∈ s.running := fun hid =>
    hrunning ▸ List.mem_append_right _ hid
  -- the decode loop touches no waiting request
  have hwaiting : ∀ {id}, id ∈ s.waiting → fr.obj id = fr₀.obj id := by
    intro id hid
    rw [List.nodup_append] at hnodup
    exact h.other id (fun hv => hnodup.2.2 id hid id (hvictim hv) rfl)
      (fun hd => hnodup.2.2 id hid id (hmem hd) rfl)
  have hfate : ∀ {f : Fate} {id}, id ∈ withFate f fates → id ∈ s.waiting := fun hid =>
    hprefill.queues.waiting ▸ List.mem_append_left _ ((withFate_sublist _ _).subset hid)
  refine ⟨⟨hprefill.queues.waiting, hrunning, ?_, ?_, ?_, Or.inl ⟨hadmitted, hset⟩, ?_, ?_⟩,
    ⟨?_, ?_, ?_, rfl, ?_⟩, ⟨?_, ?_, ?_, ?_, ?_, ?_⟩, hprefill.tooLong⟩
  · rw [h.waiting, Frame.putBackSkipped, hprefill.queues.skipped]
    rfl
  · rw [Plan.admitted, hadmitted, List.append_nil]
  · exact h.scheduled.trans (List.take_sublist _ _)
  · rw [hset, Plan.scheduled, Plan.admitted, hadmitted, List.nil_append, Finset.empty_union]
    exact h.scheduledReqIds
  · exact h.requests.trans hprefill.queues.requests
  · rw [Plan.scheduled, Plan.admitted, hadmitted, List.nil_append]
    exact h.ledger.congr_obj fun id hid => (hobj (hmem hid)).symm
  · exact h.new.trans hprefill.records.new
  · exact h.resumed.trans hprefill.records.resumed
  · exact h.finishedReqIds.trans hprefill.queues.finishedReqIds
  · intro id hid
    obtain hid | hid := List.mem_append.mp hid
    · rw [hwaiting (hfate hid)]
      exact hprefill.kept id hid
    · rw [hwaiting (hprefill.queues.waiting ▸ List.mem_append_right _ hid)]
      exact hprefill.rest id hid
  · intro id hid
    rw [hwaiting (hfate hid)]
    exact hprefill.ignored id hid
  · intro id hid
    rw [Plan.admitted, hadmitted] at hid
    exact absurd hid List.not_mem_nil
  · intro id hid
    obtain ⟨n, hlookup, hentry⟩ := h.decoded id hid
    refine ⟨n, hlookup, ?_⟩
    rw [← hobj (hmem hid)]
    exact hentry
  · intro id hid
    rw [← hobj (hvictim hid)]
    exact h.victim id hid
  · intro id hid hv hd
    exact (h.other id hv hd).trans (hprefill.unseen id hid)

/-- The decode loop begins with nothing scheduled. -/
theorem PrefillDone.decode_start (h : PrefillDone self s fates fr)
    (hgate : fr.scheduledReqIds = ∅) :
    DecodePhase self fr.putBackSkipped [] fr.putBackSkipped := by
  have hadmitted : withFate .admitted fates = [] := by
    have hunion := h.queues.scheduledReqIds
    rw [hgate, eq_comm, Finset.union_eq_empty, List.toFinset_eq_empty_iff] at hunion
    exact hunion.2
  have hledger := h.records.ledger
  rw [hadmitted] at hledger
  exact .start h.records.reqIndex hgate h.records.running h.records.spec
    (hledger.congr_obj fun _ hid => absurd hid List.not_mem_nil)

/-- The running requests are distinct when the decode loop begins. -/
theorem PrefillDone.nodup_running (hnodup : (s.waiting ++ s.running).Nodup)
    (h : PrefillDone self s fates fr) : fr.putBackSkipped.running.Nodup := by
  rw [List.nodup_append] at hnodup
  rw [Frame.putBackSkipped, h.queues.running, List.nodup_append]
  refine ⟨hnodup.2.1, (withFate_sublist _ _).nodup ?_, ?_⟩
  · rw [h.queues.waiting, List.nodup_append] at hnodup
    exact hnodup.1.1
  · rintro id hrunning id' hid rfl
    refine hnodup.2.2 id ?_ id hrunning rfl
    rw [h.queues.waiting]
    exact List.mem_append_left _ ((withFate_sublist _ _).subset hid)

/-- **The two loops, one after the other**: the second is entered when nothing is in flight. -/
theorem planRequests_phases (hnodup : (s.waiting ++ s.running).Nodup)
    (h : self.planRequests s = .ok fr) :
    ∃ fr₀ fates, self.prefillPhase s = .ok fr₀ ∧ PrefillDone self s fates fr₀ ∧
      ((fr₀.scheduledReqIds = ∅ ∧ ∃ victims, DecodePhase self fr₀.putBackSkipped victims fr) ∨
        fr = fr₀.putBackSkipped) := by
  obtain ⟨fr₀, hprefill, hdecode⟩ := planRequests_eq_ok h
  obtain ⟨fates, hdone⟩ := prefillPhase_eq_ok (List.nodup_append.mp hnodup).1 hprefill
  refine ⟨fr₀, fates, hprefill, hdone, ?_⟩
  simp only [decodePhase, Finset.card_eq_zero] at hdecode
  split at hdecode
  · next hgate =>
    have hrunning := hdone.nodup_running hnodup
    exact Or.inl ⟨hgate, decodeLoop_eq_ok hrunning (hdone.decode_start hgate) hdecode⟩
  · cases hdecode
    exact Or.inr rfl

/-- **The two loops follow a plan.** -/
theorem planRequests_frames (hnodup : (s.waiting ++ s.running).Nodup)
    (h : self.planRequests s = .ok fr) : ∃ p : Plan, p.Frames self s fr := by
  obtain ⟨fr₀, fates, _, hdone, ⟨hgate, victims, hphase⟩ | rfl⟩ := planRequests_phases hnodup h
  · exact ⟨_, hphase.frames hnodup hdone hgate⟩
  · exact ⟨_, hdone.frames⟩

/-- The output is built from the records of the loops. -/
theorem records_output {p : Plan} {conn conn' : κ} (h : p.Records self s fr)
    (hmeta : self.buildMeta conn (self.buildOutput fr) = .ok (conn', out))
    (hknown : ∀ id ∈ fr.numScheduledTokens, id ∈ s.requests) :
    p.Output self s out ∧ out.numScheduledTokens = fr.numScheduledTokens ∧
      out.scheduledSpecDecodeTokens = fr.scheduledSpecDecodeTokens := by
  rw [buildMeta_eq_ok hmeta]
  refine ⟨⟨h.ledger.keys, rfl, h.ledger.sum_le, h.ledger.nonzero, ?_, h.finished, ?_, ?_, ?_⟩,
    rfl, rfl⟩
  · intro m hm
    obtain ⟨hsub, hcard⟩ := h.ledger.loras m hm
    exact (Finset.card_le_card hsub).trans hcard
  · intro id hid
    exact hknown id (h.ledger.keys.mem_iff.mpr hid)
  · rw [← h.new]
    exact List.map_map.trans (List.map_id _)
  · refine ⟨fr.obj, fr.reqToNewBlockIds, ?_⟩
    rw [← h.resumed, ← h.running]
    rfl

theorem checkConstraints_running_le (h : self.checkConstraints fr = .ok ()) :
    fr.running.length ≤ self.maxNumRunningReqs := by
  unfold checkConstraints at h
  split_ifs at h
  omega

/-- **Every call that returns follows a plan.** -/
theorem schedule_plan (hoff : self.schedulerConfig.chunkedPrefillEnabled = false)
    (hnodup : (s.waiting ++ s.running).Nodup) (h : self.schedule s = .ok (s', out)) :
    ∃ p : Plan, p.Describes self s s' out := by
  obtain ⟨fr, conn, hplan, hcheck, hmeta, hadvance, hs'⟩ := schedule_eq_ok hoff h
  obtain ⟨p, hqueues, hrecords, hobjects, htooLong⟩ := planRequests_frames hnodup hplan
  obtain ⟨hknown, hobj⟩ := advanceComputed_eq_ok hadvance
  rw [hqueues.requests'] at hknown
  obtain ⟨houtput, hnum, hspec⟩ := records_output hrecords hmeta hknown
  refine ⟨p, ?_, houtput, by rw [hs'], by rw [hs']; exact checkConstraints_running_le hcheck,
    htooLong, fr.obj, ?_, ?_⟩
  · rw [hs']
    exact ⟨hqueues.1, hqueues.2, hqueues.3, hqueues.4, hqueues.5, hqueues.6, hqueues.7, hqueues.8⟩
  · rw [hnum, hspec]
    exact hobjects
  · rw [hnum]
    exact hobj

end AscendScheduler

/-! ## The requests after the call -/

namespace Plan

variable {p : Plan} {self : AscendScheduler σ κ M} {s s' : SchedulerState σ κ}
  {out : SchedulerOutput M} {id : ReqId}

namespace Queues

theorem mem_waiting_of_fate (h : p.Queues s s') {f : Fate} (hid : id ∈ withFate f p.fates) :
    id ∈ s.waiting := by
  rw [h.waiting]
  exact List.mem_append_left _ ((withFate_sublist _ _).subset hid)

theorem mem_waiting_of_kept (h : p.Queues s s') (hid : id ∈ p.kept ++ p.rest) :
    id ∈ s.waiting := by
  obtain hid | hid := List.mem_append.mp hid
  · exact h.mem_waiting_of_fate hid
  · rw [h.waiting]
    exact List.mem_append_right _ hid

theorem mem_running_of_decoded (h : p.Queues s s') (hid : id ∈ p.decoded) : id ∈ s.running := by
  rw [h.running]
  exact List.mem_append_left _ (h.decoded.subset hid)

theorem mem_running_of_preempted (h : p.Queues s s') (hid : id ∈ p.preempted) :
    id ∈ s.running := by
  rw [h.running]
  exact List.mem_append_right _ hid

/-- No request is in both queues. -/
theorem not_mem_running (hnodup : (s.waiting ++ s.running).Nodup) (hid : id ∈ s.waiting) :
    id ∉ s.running := fun hr => (List.nodup_append.mp hnodup).2.2 id hid id hr rfl

/-- A decoded request was not preempted. -/
theorem not_preempted (hnodup : (s.waiting ++ s.running).Nodup) (h : p.Queues s s')
    (hid : id ∈ p.stay) : id ∉ p.preempted := by
  have hrunning := (List.nodup_append.mp hnodup).2.1
  rw [h.running, List.nodup_append] at hrunning
  exact fun hp => hrunning.2.2 id hid id hp rfl

/-- A request that stays in the waiting queue was not admitted. -/
theorem not_admitted (hnodup : (s.waiting ++ s.running).Nodup) (h : p.Queues s s')
    (hid : id ∈ p.kept ++ p.rest) : id ∉ p.admitted := by
  have hwaiting := (List.nodup_append.mp hnodup).1
  rw [h.waiting, List.nodup_append] at hwaiting
  obtain hid | hid := List.mem_append.mp hid
  · intro ha
    have hfates : (p.kept ++ p.admitted ++ p.ignored).Nodup :=
      (perm_withFate p.fates).nodup_iff.mp hwaiting.1
    exact (List.nodup_append.mp (List.nodup_append.mp hfates).1).2.2 id hid id ha rfl
  · exact fun ha => hwaiting.2.2 id ((withFate_sublist _ _).subset ha) id hid rfl

/-- Where a request that waits after the call was before. -/
theorem mem_waiting' (h : p.Queues s s') (hid : id ∈ s'.waiting) :
    id ∈ p.preempted ∨ id ∈ p.kept ++ p.rest := by
  rw [h.waiting'] at hid
  exact List.mem_append.mp hid

/-- Where a request that runs after the call was before. -/
theorem mem_running' (h : p.Queues s s') (hid : id ∈ s'.running) :
    id ∈ p.stay ∨ id ∈ p.admitted := by
  rw [h.running'] at hid
  exact List.mem_append.mp hid

end Queues

namespace Describes

variable (hnodup : (s.waiting ++ s.running).Nodup) (h : p.Describes self s s' out)

include h in
theorem lookup_eq_none (hid : id ∉ p.scheduled) : out.numScheduledTokens.lookup id = none :=
  AList.lookup_eq_none.mpr fun hmem => hid (h.output.keys.mem_iff.mp hmem)

include h in
/-- A request that is not in the output is as the loops left it. -/
theorem obj_eq {obj : ReqId → Request}
    (hadvance : ∀ id, s'.obj id = (obj id).advance ((out.numScheduledTokens.lookup id).getD 0))
    (hid : id ∉ p.scheduled) : s'.obj id = obj id := by
  rw [hadvance id, h.lookup_eq_none hid]
  exact Request.advance_zero _

include hnodup h in
/-- **A request that stays in the waiting queue** keeps its tokens. -/
theorem obj_kept (hid : id ∈ p.kept ++ p.rest) : (s.obj id).Kept (s'.obj id) := by
  obtain ⟨obj, hobj, hadvance⟩ := h.objects
  rw [h.obj_eq hadvance]
  · exact hobj.kept id hid
  rw [scheduled, List.mem_append, not_or]
  exact ⟨h.queues.not_admitted hnodup hid, fun hd => Queues.not_mem_running hnodup
    (h.queues.mem_waiting_of_kept hid) (h.queues.mem_running_of_decoded hd)⟩

include hnodup h in
/-- **A preempted request** is computed anew. -/
theorem obj_preempted (hid : id ∈ p.preempted) :
    s'.obj id = { s.obj id with status := .preempted, numComputedTokens := 0 } := by
  obtain ⟨obj, hobj, hadvance⟩ := h.objects
  rw [h.obj_eq hadvance]
  · exact hobj.preempted id hid
  rw [scheduled, List.mem_append, not_or]
  exact ⟨fun ha => Queues.not_mem_running hnodup (h.queues.mem_waiting_of_fate ha)
    (h.queues.mem_running_of_preempted hid),
    fun hd => h.queues.not_preempted hnodup (h.queues.decoded.subset hd) hid⟩

include hnodup h in
/-- A running request that is neither decoded nor preempted is not touched. -/
theorem obj_passed (hid : id ∈ p.stay) (hdecoded : id ∉ p.decoded) : s'.obj id = s.obj id := by
  obtain ⟨obj, hobj, hadvance⟩ := h.objects
  have hrunning : id ∈ s.running := by
    rw [h.queues.running]
    exact List.mem_append_left _ hid
  have hwaiting : id ∉ s.waiting := fun hw => Queues.not_mem_running hnodup hw hrunning
  rw [h.obj_eq hadvance]
  · exact hobj.other id hwaiting (h.queues.not_preempted hnodup hid) hdecoded
  rw [scheduled, List.mem_append, not_or]
  exact ⟨fun ha => hwaiting (h.queues.mem_waiting_of_fate ha), hdecoded⟩

include h in
/-- **A decoded request** advances by its tokens. -/
theorem obj_decoded (hid : id ∈ p.decoded) :
    ∃ n r, out.numScheduledTokens.lookup id = some n ∧
      AscendScheduler.DecodeEntry self (s.obj id) r n
        (numSpecTokens out.scheduledSpecDecodeTokens id) ∧ s'.obj id = r.advance n := by
  obtain ⟨obj, hobj, hadvance⟩ := h.objects
  obtain ⟨n, hlookup, hentry⟩ := hobj.decoded id hid
  refine ⟨n, obj id, hlookup, hentry, ?_⟩
  rw [hadvance id, hlookup]
  rfl

include h in
/-- **An admitted request** is computed to its last token, and no drafts are scheduled with it. -/
theorem obj_admitted (hid : id ∈ p.admitted) :
    ∃ n, out.numScheduledTokens.lookup id = some n ∧ 0 < n ∧ (s.obj id).SameTokens (s'.obj id) ∧
      (s'.obj id).status = .running ∧ (s'.obj id).numComputedTokens = (s'.obj id).numTokens ∧
      numSpecTokens out.scheduledSpecDecodeTokens id = 0 := by
  obtain ⟨obj, hobj, hadvance⟩ := h.objects
  obtain ⟨n, hlookup, hr, hspec⟩ := hobj.admitted id hid
  have hs' : s'.obj id = (obj id).advance n := by
    rw [hadvance id, hlookup]
    rfl
  rw [hs']
  exact ⟨n, hlookup, hr.pos, ⟨hr.tokens.1, hr.tokens.2, hr.tokens.3, hr.tokens.4⟩, hr.status,
    hr.computed, hspec⟩

end Describes

end Plan

namespace AscendScheduler

variable {self : AscendScheduler σ κ M} {s s' : SchedulerState σ κ} {fr fr₀ : Frame σ κ}
  {out : SchedulerOutput M}

/-! ## What a call raises -/

/-- The running list is within its bound when the two loops are done. -/
theorem planRequests_running_le (hnodup : (s.waiting ++ s.running).Nodup)
    (hlen : s.running.length ≤ self.maxNumRunningReqs) (h : self.planRequests s = .ok fr) :
    fr.running.length ≤ self.maxNumRunningReqs := by
  obtain ⟨fr₀, fates, hprefill, _, hdecode⟩ := planRequests_phases hnodup h
  have hlen₀ := prefillPhase_running_le hlen hprefill
  obtain ⟨_, victims, hphase⟩ | rfl := hdecode
  · have hle : fr.running.length + victims.length = fr₀.running.length := by
      rw [← List.length_append, ← hphase.running]
      rfl
    omega
  · exact hlen₀

/-- **The terminal assertions hold.** -/
theorem checkConstraints_ok {p : Plan} (h : p.Frames self s fr)
    (hlen : fr.running.length ≤ self.maxNumRunningReqs) : self.checkConstraints fr = .ok () := by
  have hsum := h.records.ledger.sum_le
  have hbudget := h.records.ledger.nonneg
  have hsplit : fr.scheduledNewReqs.length + fr.scheduledResumedReqs.length =
      p.admitted.length := by
    have hsplit := List.length_eq_length_filter_add (l := p.admitted)
      fun id => decide ((s.obj id).status = .preempted)
    rw [h.records.new, h.records.resumed, Nat.add_comm]
    simpa using hsplit.symm
  have hcount : p.admitted.length + p.decoded.length ≤ fr.running.length := by
    have hdecoded := h.queues.decoded.length_le
    rw [h.queues.running', List.length_append]
    omega
  rw [checkConstraints, h.records.running, if_neg (by omega), if_neg (by omega), if_neg (by omega),
    if_neg (by omega)]

/-- What the two loops raise over. -/
theorem planRequests_error (hnodup : (s.waiting ++ s.running).Nodup) {e : Fault}
    (h : self.planRequests s = .error e) :
    (e.isEntry = true ∧ self.prefillPhase s = .error e) ∨
      (e = .invalidStatus ∧ ∃ id ∈ s.waiting, (s.obj id).status.isSchedulable = false) ∨
      (e = .decodeReady ∧ s.scheduledReqIds = ∅ ∧
        ∃ id ∈ s.running, (s.obj id).numTokens - (s.obj id).numComputedTokens ≠ 1) := by
  obtain hprefill | ⟨fr₀, hprefill, hdecode⟩ := bind_eq_error.mp h
  · exact (prefillPhase_error (List.nodup_append.mp hnodup).1 hprefill).imp
      (fun hentry => ⟨hentry, hprefill⟩) Or.inl
  obtain ⟨fates, hdone⟩ := prefillPhase_eq_ok (List.nodup_append.mp hnodup).1 hprefill
  simp only [decodePhase, Finset.card_eq_zero] at hdecode
  split at hdecode
  · next hgate =>
    have hrunning := hdone.nodup_running hnodup
    obtain ⟨rfl, id, hid, hready⟩ := decodeLoop_error hrunning (hdone.decode_start hgate) hdecode
    have hunion := hdone.queues.scheduledReqIds
    have hgate' : fr₀.scheduledReqIds = ∅ := hgate
    rw [hgate', eq_comm, Finset.union_eq_empty, List.toFinset_eq_empty_iff] at hunion
    have hid' : id ∈ fr₀.running := hid
    rw [hdone.queues.running, hunion.2, List.append_nil] at hid'
    have hobj : fr₀.putBackSkipped.obj id = s.obj id := hdone.unseen id fun hw =>
      (List.nodup_append.mp hnodup).2.2 id hw id hid' rfl
    rw [hobj] at hready
    exact Or.inr (Or.inr ⟨rfl, hunion.1, id, hid', hready⟩)
  · contradiction

/-- **What makes a call raise**: an assertion on what the calls it makes hand it, the status of a
waiting request, or a running request that is not one token ahead; never one of its last four
assertions, a missing key, or the bound on the rounds. -/
theorem schedule_error (hoff : self.schedulerConfig.chunkedPrefillEnabled = false)
    (hnodup : (s.waiting ++ s.running).Nodup)
    (hlen : s.running.length ≤ self.maxNumRunningReqs)
    (hknown : ∀ id ∈ s.waiting ++ s.running, id ∈ s.requests) {e : Fault}
    (h : self.schedule s = .error e) :
    (e.isEntry = true ∧ (self.prefillPhase s = .error e ∨ self.connector.isSome = true)) ∨
      (e = .invalidStatus ∧ ∃ id ∈ s.waiting, (s.obj id).status.isSchedulable = false) ∨
      (e = .decodeReady ∧ s.scheduledReqIds = ∅ ∧
        ∃ id ∈ s.running, (s.obj id).numTokens - (s.obj id).numComputedTokens ≠ 1) := by
  simp only [schedule, hoff, Bool.false_eq_true, if_false] at h
  obtain h | ⟨fr, hplan, h⟩ := bind_eq_error.mp h
  · exact (planRequests_error hnodup h).imp_left (And.imp_right Or.inl)
  obtain ⟨p, hp⟩ := planRequests_frames hnodup hplan
  obtain h | ⟨_, _, h⟩ := bind_eq_error.mp h
  · rw [checkConstraints_ok hp (planRequests_running_le hnodup hlen hplan)] at h
    contradiction
  obtain h | ⟨⟨conn, out'⟩, _, h⟩ := bind_eq_error.mp h
  · unfold buildMeta at h
    split at h
    · contradiction
    · next hconn =>
      split at h
      · cases h
        exact Or.inl ⟨rfl, Or.inr (by rw [hconn]; rfl)⟩
      · contradiction
  obtain h | ⟨obj, _, h⟩ := bind_eq_error.mp h
  · refine absurd h (advanceComputed_ne_error ?_ _ _)
    intro id hid
    rw [hp.queues.requests']
    refine hknown id ?_
    obtain hid | hid := List.mem_append.mp (hp.records.ledger.keys.mem_iff.mp hid)
    · rw [hp.queues.waiting]
      exact List.mem_append_left _ (List.mem_append_left _ ((withFate_sublist _ _).subset hid))
    · rw [hp.queues.running]
      exact List.mem_append_right _ (List.mem_append_left _ (hp.queues.decoded.subset hid))
  · contradiction

end AscendScheduler

end VllmAscend
