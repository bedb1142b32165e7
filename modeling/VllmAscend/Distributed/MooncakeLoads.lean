import VllmAscend.Core.Consultations
import VllmAscend.Core.Gate
import VllmAscend.Distributed.MooncakeConnector

/-!
# Distributed/MooncakeLoads — a parked request, and the load it waits for

    do_remote_prefill ──▸ WAITING_FOR_REMOTE_KVS
           └─ remote_engine_id, remote_host, remote_port ──▸ an entry of the metadata

With the Mooncake connector, a request that a call of `schedule()` parks has an entry in the
metadata of that call exactly when its parameters name the remote engine; when they do not, the
connector warns that the request will not use the transfer, and the scheduler waits for it all the
same.  No request has a second entry.
-/

namespace VllmAscend

open Machinery

variable {σ : Type}

/-- The transfer parameters name the remote engine, its host and its port. -/
def Request.NamesRemote (r : Request) : Prop :=
  ∃ p, r.kvTransferParams = some p ∧ p.namesRemote = true

/-- The output has the worker load the blocks of the request. -/
def SchedulerOutput.Loads (out : SchedulerOutput MooncakeConnectorMetadata) (id : ReqId) : Prop :=
  ∃ m, out.kvConnectorMetadata = some m ∧ id ∈ m.requests

/-! ## One call -/

/-- The consultations of a call that began with no loads registered, after those about `ids`. -/
structure Registered (obj₀ : ReqId → Request) (ids : List ReqId)
    (conn : MooncakeConnectorScheduler) (obj : ReqId → Request) : Prop where
  loaded : ∀ id ∈ conn.reqsNeedRecv, id ∈ ids ∧ doRemotePrefill (obj₀ id).kvTransferParams = true ∧
    doRemotePrefill (obj id).kvTransferParams = false
  once : ∀ id, doRemotePrefill (obj id).kvTransferParams = true →
    doRemotePrefill (obj₀ id).kvTransferParams = true
  parked : ∀ id, (obj₀ id).status ≠ .waitingForRemoteKvs →
    (obj id).status = .waitingForRemoteKvs → (id ∈ conn.reqsNeedRecv ↔ (obj₀ id).NamesRemote)

/-- Being asked changes nothing in the connector, and tokens to be loaded asynchronously belong to a
remote prefill. -/
theorem Asked.mooncake {conn conn₁ : MooncakeConnectorScheduler} {id : ReqId} {r r₁ : Request}
    {n : ℕ} {async : Bool} (h : Asked mooncakeConnector id conn r conn₁ r₁ n async) :
    conn₁ = conn ∧ (async = true → doRemotePrefill r₁.kvTransferParams = true ∧ 0 < n) := by
  obtain ⟨rfl, _, rfl⟩ | ⟨numLocal, hmatched⟩ := h.answer
  · exact ⟨rfl, fun hasync => nomatch hasync⟩
  · exact MooncakeConnectorScheduler.getNumNewMatchedTokens_eq_some hmatched

namespace Registered

variable {obj₀ obj : ReqId → Request} {ids : List ReqId}
  {conn conn' conn₁ : MooncakeConnectorScheduler} {id : ReqId} {r₁ r' : Request} {n : ℕ}
  {async : Bool} {blocks : KVCacheBlocks}

/-- Before the first consultation. -/
theorem none (hempty : conn.reqsNeedRecv = ∅) : Registered obj₀ [] conn obj₀ where
  loaded id hid := by simp [hempty] at hid
  once _ h := h
  parked _ hnot hparked := absurd hparked hnot

/-- A request that gets no blocks. -/
theorem passed (h : Registered obj₀ ids conn obj) (hid : id ∉ ids) (hobj : obj id = obj₀ id)
    (hrequest : (obj₀ id).Untransferred r') :
    Registered obj₀ (ids ++ [id]) conn (Function.update obj id r') := by
  have hne : ∀ id' ∈ conn.reqsNeedRecv, id' ≠ id := by
    rintro id' hmem rfl
    exact hid (h.loaded id' hmem).1
  refine ⟨fun id' hmem => ?_, fun id' hremote => ?_, fun id' hnot hparked => ?_⟩
  · rw [Function.update_of_ne (hne id' hmem)]
    exact ⟨List.mem_append_left _ (h.loaded id' hmem).1, (h.loaded id' hmem).2⟩
  · by_cases heq : id' = id
    · subst heq
      rwa [Function.update_self, hrequest.params] at hremote
    · rw [Function.update_of_ne heq] at hremote
      exact h.once id' hremote
  · by_cases heq : id' = id
    · subst heq
      rw [Function.update_self] at hparked
      exact absurd (hrequest.parked hparked) hnot
    · rw [Function.update_of_ne heq] at hparked
      exact h.parked id' hnot hparked

/-- **A request that gets its blocks**: it is parked for a remote prefill, and then its load is
registered if its parameters name the remote engine. -/
theorem placed (h : Registered obj₀ ids conn obj) (hid : id ∉ ids)
    (hasked : Asked mooncakeConnector id conn (obj₀ id) conn₁ r₁ n async)
    (hnotified : conn₁.updateStateAfterAlloc id r₁ blocks n = some (conn', r'.kvTransferParams))
    (hstatus : r'.status = if async then .waitingForRemoteKvs else .running) :
    Registered obj₀ (ids ++ [id]) conn' (Function.update obj id r') := by
  obtain ⟨rfl, hremote⟩ := hasked.mooncake
  have hparams := hasked.request.params
  obtain ⟨hmem, hoff⟩ := PendingLoads.register_eq_some hnotified
  have hnew : id ∉ conn₁.reqsNeedRecv := fun hmem => hid (h.loaded id hmem).1
  refine ⟨fun id' hid' => ?_, fun id' hon => ?_, fun id' hnot hparked => ?_⟩
  · obtain hid' | ⟨rfl, p, hp, hon, _⟩ := (hmem id').mp hid'
    · have hne : id' ≠ id := by
        rintro rfl
        exact hnew hid'
      rw [Function.update_of_ne hne]
      exact ⟨List.mem_append_left _ (h.loaded id' hid').1, (h.loaded id' hid').2⟩
    · rw [Function.update_self, ← hparams, hp]
      exact ⟨by simp, hon, hoff⟩
  · by_cases heq : id' = id
    · subst heq
      rw [Function.update_self, hoff] at hon
      contradiction
    · rw [Function.update_of_ne heq] at hon
      exact h.once id' hon
  · rw [hmem id']
    by_cases heq : id' = id
    · subst heq
      rw [Function.update_self, hstatus] at hparked
      have hasync : async = true := by
        by_contra hsync
        rw [if_neg hsync] at hparked
        contradiction
      obtain ⟨hon, hn⟩ := hremote hasync
      simp only [hnew, false_or, true_and]
      constructor
      · rintro ⟨p, hp, _, _, hnames⟩
        exact ⟨p, hparams ▸ hp, hnames⟩
      · rintro ⟨p, hp, hnames⟩
        rw [← hparams] at hp
        rw [hp] at hon
        exact ⟨p, hp, hon, PendingLoads.register_hasRemoteBlocks hnotified hp hon hn, hnames⟩
    · rw [Function.update_of_ne heq] at hparked
      simp only [heq, false_and, or_false]
      exact h.parked id' hnot hparked

/-- **All the consultations of a call.** -/
theorem of_consultations {conn₀ : MooncakeConnectorScheduler} (hempty : conn₀.reqsNeedRecv = ∅)
    (h : Consultations mooncakeConnector conn₀ obj₀ ids conn obj) :
    Registered obj₀ ids conn obj := by
  induction h with
  | none => exact .none hempty
  | one before fresh consulted ih =>
    rw [before.other _ fresh] at consulted
    cases consulted with
    | passed asked request =>
      obtain ⟨rfl, _⟩ := asked.mooncake
      exact ih.passed fresh (before.other _ fresh) (asked.request.trans request)
    | placed asked notified status => exact ih.placed fresh asked notified status

end Registered

namespace AscendScheduler

variable {A : AscendScheduler σ MooncakeConnectorScheduler MooncakeConnectorMetadata}
  {s s' : SchedulerState σ MooncakeConnectorScheduler}
  {out : SchedulerOutput MooncakeConnectorMetadata}

/-- **One call with the Mooncake connector.** -/
structure LoadsOf (s s' : SchedulerState σ MooncakeConnectorScheduler)
    (out : SchedulerOutput MooncakeConnectorMetadata) : Prop where
  empty : s'.conn.reqsNeedRecv = ∅
  loaded : ∀ id, out.Loads id → id ∈ s.waiting ∧
    doRemotePrefill (s.obj id).kvTransferParams = true ∧
    doRemotePrefill (s'.obj id).kvTransferParams = false
  once : ∀ id, doRemotePrefill (s'.obj id).kvTransferParams = true →
    doRemotePrefill (s.obj id).kvTransferParams = true
  parked : ∀ id, (s.obj id).status ≠ .waitingForRemoteKvs →
    (s'.obj id).status = .waitingForRemoteKvs → (out.Loads id ↔ (s.obj id).NamesRemote)

theorem schedule_loads (hconn : A.connector = some mooncakeConnector)
    (hoff : A.schedulerConfig.chunkedPrefillEnabled = false)
    (hnodup : (s.waiting ++ s.running).Nodup) (hempty : s.conn.reqsNeedRecv = ∅)
    (h : A.schedule s = .ok (s', out)) : LoadsOf s s' out := by
  obtain ⟨ids, conn, obj, hwaiting, hconsulted, ⟨out₀, m, hbuilt, hm⟩, hafter⟩ :=
    schedule_consults hconn hoff hnodup h
  have hregistered := Registered.of_consultations hempty hconsulted
  obtain ⟨hempty', hkeys⟩ := MooncakeConnectorScheduler.buildConnectorMeta_eq_some hbuilt
  have hloads : ∀ id, out.Loads id ↔ id ∈ conn.reqsNeedRecv := by
    intro id
    rw [← hkeys id, SchedulerOutput.Loads, hm]
    simp
  refine ⟨hempty', fun id hid => ?_, fun id hon => ?_, fun id hnot hparked => ?_⟩
  · obtain ⟨hids, hon, hoff'⟩ := hregistered.loaded id ((hloads id).mp hid)
    rw [(hafter id).params]
    exact ⟨hwaiting id hids, hon, hoff'⟩
  · rw [(hafter id).params] at hon
    exact hregistered.once id hon
  · rw [hloads id]
    exact hregistered.parked id hnot ((hafter id).parked hparked)

/-- What the base class does with a connector that answers `request_finished` from the request
alone: its state and the transfer parameters are left as they are. -/
structure LeavesTransfers {κ M : Type} (A : AscendScheduler σ κ M) : Prop where
  finish : ∀ s ids status, (A.super.finishRequests s ids status).conn = s.conn ∧
    ∀ id, ((A.super.finishRequests s ids status).obj id).kvTransferParams =
      (s.obj id).kvTransferParams
  update : ∀ s out res, (A.super.updateFromOutput s out res).conn = s.conn ∧
    ∀ id, ((A.super.updateFromOutput s out res).obj id).kvTransferParams =
      (s.obj id).kvTransferParams

end AscendScheduler

/-- A deployment's scheduler does. -/
theorem Deployment.leavesTransfers {κ M : Type} (d : Deployment)
    (connector : Option (KVConnector κ M)) :
    (d.schedulerWith connector).LeavesTransfers := by
  refine ⟨fun s ids status => ⟨rfl, fun id => ?_⟩, fun s out res => ⟨rfl, fun id => ?_⟩⟩
  · simp only [schedulerWith, vllmBase]
    split <;> rfl
  · simp only [schedulerWith, vllmBase]
    split
    · rfl
    · split <;> rfl

/-! ## Every run -/

namespace Engine

variable {κ M : Type}

/-- The outputs, in the order they were issued. -/
def outputs (e : Engine σ κ M) : List (SchedulerOutput M) := e.history.map Issued.output

/-- Processing an output does not change it. -/
theorem outputs_process {e : Engine σ κ M} {i : ℕ} {out : SchedulerOutput M} {processed : Bool}
    (h : e.history[i]? = some ⟨out, processed⟩) :
    (e.history.set i ⟨out, true⟩).map Issued.output = e.outputs := by
  have hout : e.outputs[i]? = some out := by
    rw [outputs, List.getElem?_map, h]
    rfl
  obtain ⟨hlt, hget⟩ := List.getElem?_eq_some_iff.mp hout
  rw [List.map_set, ← outputs]
  conv_rhs => rw [← List.set_getElem_self hlt]
  rw [hget]

end Engine

/-- The `i`-th output loads the request. -/
def Engine.LoadsAt (e : Engine σ MooncakeConnectorScheduler MooncakeConnectorMetadata) (id : ReqId)
    (i : ℕ) : Prop := ∃ out, e.outputs[i]? = some out ∧ out.Loads id

/-- Between the calls no load is registered, and a request that was loaded is not loaded again. -/
structure LoadsOnce (e : Engine σ MooncakeConnectorScheduler MooncakeConnectorMetadata) : Prop where
  empty : e.sched.conn.reqsNeedRecv = ∅
  loaded : ∀ out ∈ e.outputs, ∀ id, out.Loads id →
    id ∈ e.added ∧ doRemotePrefill (e.sched.obj id).kvTransferParams = false
  once : ∀ id i j, e.LoadsAt id i → e.LoadsAt id j → i = j

namespace LoadsOnce

variable {A : AscendScheduler σ MooncakeConnectorScheduler MooncakeConnectorMetadata}
  {e : Engine σ MooncakeConnectorScheduler MooncakeConnectorMetadata}
  {s' : SchedulerState σ MooncakeConnectorScheduler}

theorem initial (hinit : e.Initial) (hempty : e.sched.conn.reqsNeedRecv = ∅) : LoadsOnce e := by
  refine ⟨hempty, ?_, ?_⟩ <;> simp [Engine.LoadsAt, Engine.outputs, hinit.history]

/-- A call that leaves the transfers alone. -/
theorem untouched {history : List (Issued MooncakeConnectorMetadata)} (h : LoadsOnce e)
    (houtputs : history.map Issued.output = e.outputs) (hconn : s'.conn = e.sched.conn)
    (hparams : ∀ id, (s'.obj id).kvTransferParams = (e.sched.obj id).kvTransferParams) :
    LoadsOnce { e with sched := s', history := history } := by
  refine ⟨by simp only [hconn, h.empty], fun out hout id hid => ?_, ?_⟩
  · rw [Engine.outputs, houtputs] at hout
    simp only [hparams]
    exact h.loaded out hout id hid
  · simp only [Engine.LoadsAt, Engine.outputs, houtputs]
    exact h.once

/-- `schedule()` loads requests that were not loaded before. -/
theorem schedule {out : SchedulerOutput MooncakeConnectorMetadata} (hcoherent : Coherent e)
    (h : LoadsOnce e) (hloads : AscendScheduler.LoadsOf e.sched s' out) :
    LoadsOnce { e with sched := s', history := e.history ++ [⟨out, false⟩] } := by
  have houtputs : (e.history ++ [(⟨out, false⟩ : Issued _)]).map Issued.output =
      e.outputs ++ [out] := List.map_append
  have hbefore : ∀ o ∈ e.outputs, ∀ id, o.Loads id → ¬out.Loads id := by
    intro o ho id hid hnow
    have hoff := (h.loaded o ho id hid).2
    rw [(hloads.loaded id hnow).2.1] at hoff
    contradiction
  refine ⟨hloads.empty, fun o ho id hid => ?_, ?_⟩
  · simp only [Engine.outputs, houtputs, List.mem_append, List.mem_singleton] at ho
    obtain ho | rfl := ho
    · obtain ⟨hadded, hoff⟩ := h.loaded o ho id hid
      refine ⟨hadded, Bool.eq_false_iff.mpr fun hon => ?_⟩
      rw [hloads.once id hon] at hoff
      contradiction
    · obtain ⟨hwaiting, _, hoff⟩ := hloads.loaded id hid
      exact ⟨hcoherent.added id (List.mem_append_left _ hwaiting), hoff⟩
  · rintro id i j ⟨o, hi, hid⟩ ⟨o', hj, hid'⟩
    simp only [Engine.outputs, houtputs, List.getElem?_append] at hi hj
    split at hi
    · split at hj
      · exact h.once id i j ⟨o, hi, hid⟩ ⟨o', hj, hid'⟩
      · obtain rfl := List.mem_singleton.mp (List.mem_of_getElem? hj)
        exact absurd hid' (hbefore o (List.mem_of_getElem? hi) id hid)
    · obtain rfl := List.mem_singleton.mp (List.mem_of_getElem? hi)
      split at hj
      · exact absurd hid (hbefore o' (List.mem_of_getElem? hj) id hid')
      · have hi' := (List.getElem?_eq_some_iff.mp hi).1
        have hj' := (List.getElem?_eq_some_iff.mp hj).1
        simp only [List.length_singleton] at hi' hj'
        omega

/-- **Every call keeps the loads apart.** -/
theorem step {e' : Engine σ MooncakeConnectorScheduler MooncakeConnectorMetadata} {ev : Event}
    (hconn : A.connector = some mooncakeConnector)
    (hoff : A.schedulerConfig.chunkedPrefillEnabled = false) (laws : A.BaseLaws)
    (hleaves : A.LeavesTransfers) (hcoherent : Coherent e) (h : LoadsOnce e)
    (hnew : ev.NeverReused e) (hstep : A.step e ev = .ok e') : LoadsOnce e' := by
  cases ev with
  | addRequest id r =>
    cases hstep
    rw [laws.add]
    refine ⟨h.empty, fun out hout id' hid' => ?_, h.once⟩
    obtain ⟨hadded, hoff'⟩ := h.loaded out hout id' hid'
    have hne : id' ≠ id := by
      rintro rfl
      exact hnew hadded
    simp only [Function.update_of_ne hne]
    exact ⟨Finset.mem_insert_of_mem hadded, hoff'⟩
  | schedule =>
    simp only [AscendScheduler.step] at hstep
    split at hstep
    · contradiction
    · next hschedule =>
      cases hstep
      exact h.schedule hcoherent
        (AscendScheduler.schedule_loads hconn hoff hcoherent.nodup h.empty hschedule)
  | updateFromOutput i res =>
    simp only [AscendScheduler.step] at hstep
    split at hstep
    · next hissued =>
      cases hstep
      obtain ⟨hsame, hparams⟩ := hleaves.update
        { e.sched with scheduledReqIds := AscendScheduler.removeProcessed e.sched _ } _ res
      exact h.untouched (Engine.outputs_process hissued) hsame hparams
    · contradiction
  | finishRequests requestIds finishedStatus =>
    cases hstep
    obtain ⟨hsame, hparams⟩ := hleaves.finish
      { e.sched with
        scheduledReqIds := AscendScheduler.discardRunning e.sched requestIds.iterated }
      requestIds.consumed finishedStatus
    exact h.untouched rfl hsame hparams

end LoadsOnce

namespace AscendScheduler

variable {A : AscendScheduler σ MooncakeConnectorScheduler MooncakeConnectorMetadata}
  {e₀ e : Engine σ MooncakeConnectorScheduler MooncakeConnectorMetadata}

/-- **A request that a call parks is loaded exactly when its parameters name the remote engine, its
host and its port**, and over a whole run no request is loaded twice. -/
theorem parked_loads_iff (hconn : A.connector = some mooncakeConnector)
    (hoff : A.schedulerConfig.chunkedPrefillEnabled = false) (laws : A.BaseLaws)
    (hleaves : A.LeavesTransfers) (hinit : e₀.Initial) (hempty : e₀.sched.conn.reqsNeedRecv = ∅)
    (run : Run A.step (fun e ev => ev.Allowed e ∧ ev.NeverReused e) e₀ e) :
    (∀ s' out, A.schedule e.sched = .ok (s', out) →
      ∀ id, (e.sched.obj id).status ≠ .waitingForRemoteKvs →
        (s'.obj id).status = .waitingForRemoteKvs →
          (out.Loads id ↔ (e.sched.obj id).NamesRemote)) ∧
      ∀ id i j, e.LoadsAt id i → e.LoadsAt id j → i = j := by
  have h : Coherent e ∧ LoadsOnce e := by
    refine run.invariant (I := fun e => Coherent e ∧ LoadsOnce e) ?_
      ⟨.initial hinit, .initial hinit hempty⟩
    rintro e ev e' ⟨hcoherent, honce⟩ ⟨hallowed, hnew⟩ hstep
    exact ⟨hcoherent.stepped hallowed (step_eq_ok laws hoff hcoherent.nodup hstep),
      honce.step hconn hoff laws hleaves hcoherent hnew hstep⟩
  refine ⟨fun s' out hschedule => ?_, h.2.once⟩
  exact (schedule_loads hconn hoff h.1.nodup h.2.empty hschedule).parked

/-- A request that is prefilled on another engine. -/
def remotePrefill (remoteEngineId : Option String) : Request :=
  { Request.ofPrompt [1, 2, 3] with
    kvTransferParams := some
      { doRemotePrefill := some true
        doRemoteDecode := some false
        remoteBlockIds := some [7]
        remoteEngineId := remoteEngineId
        remoteHost := some "127.0.0.1"
        remotePort := some 5000
        remoteTpSize := none } }

/-- The deployment with the Mooncake connector. -/
def smallMooncake :
    AscendScheduler BlockPool MooncakeConnectorScheduler MooncakeConnectorMetadata :=
  Deployment.small.schedulerWith (some mooncakeConnector)

/-- One such request was added. -/
def addedRemote (remoteEngineId : Option String) : List Event :=
  [.addRequest "a" (remotePrefill remoteEngineId)]

theorem addedRemote_allowed (remoteEngineId : Option String) :
    AllowedAlong smallMooncake.step (fun e ev => ev.Allowed e ∧ ev.NeverReused e)
      (Deployment.small.engineWith ⟨∅⟩) (addedRemote remoteEngineId) :=
  ⟨⟨⟨⟨Or.inl rfl, rfl, rfl, rfl⟩, by decide, by decide⟩, Finset.notMem_empty _⟩,
    fun _ _ => trivial⟩

/-- A request whose parameters are complete. -/
theorem parked_loads_iff_small : ∃ e,
    feed smallMooncake.step (Deployment.small.engineWith ⟨∅⟩) (addedRemote (some "prefiller"))
      = .ok e ∧
    (∀ s' out, smallMooncake.schedule e.sched = .ok (s', out) →
      ∀ id, (e.sched.obj id).status ≠ .waitingForRemoteKvs →
        (s'.obj id).status = .waitingForRemoteKvs →
          (out.Loads id ↔ (e.sched.obj id).NamesRemote)) ∧
      ∀ id i j, e.LoadsAt id i → e.LoadsAt id j → i = j := by
  obtain ⟨e, he⟩ := exists_of_isOk (x := feed smallMooncake.step
    (Deployment.small.engineWith ⟨∅⟩) (addedRemote (some "prefiller"))) (by decide +kernel)
  exact ⟨e, he, parked_loads_iff rfl rfl (Deployment.small.laws _)
    (Deployment.small.leavesTransfers _) (Deployment.small.engineWith_initial _) rfl
    (Run.of_feed he (addedRemote_allowed _))⟩

/-- **A request without `remote_engine_id` is parked and never loaded.** -/
theorem parked_not_loaded : ∃ e s' out,
    Run smallMooncake.step (fun e ev => ev.Allowed e ∧ ev.NeverReused e)
      (Deployment.small.engineWith ⟨∅⟩) e ∧
    smallMooncake.schedule e.sched = .ok (s', out) ∧
    (e.sched.obj "a").status = .waiting ∧ (s'.obj "a").status = .waitingForRemoteKvs ∧
    ¬out.Loads "a" := by
  obtain ⟨e, he, hstatus, hschedule⟩ : Returns (feed smallMooncake.step
      (Deployment.small.engineWith ⟨∅⟩) (addedRemote none))
      fun e => (e.sched.obj "a").status = .waiting ∧
        Returns (smallMooncake.schedule e.sched) fun p =>
          (p.1.obj "a").status = .waitingForRemoteKvs ∧
            p.2.kvConnectorMetadata.map (fun m => decide ("a" ∈ m.requests)) = some false := by
    decide +kernel
  obtain ⟨⟨s', out⟩, hout, hparked, hloads⟩ := hschedule
  refine ⟨e, s', out, Run.of_feed he (addedRemote_allowed _), hout, hstatus, hparked, ?_⟩
  rintro ⟨m, hm, hmem⟩
  rw [hm] at hloads
  simp [hmem] at hloads

end AscendScheduler

end VllmAscend
