import VllmAscend.Core.Plan

/-!
# Core/Consultations — one call of `schedule()`, as the KV connector sees it

    (conn, obj) ──id₁──▸ ⋯ ──idₖ──▸ (conn', obj') ──build_connector_meta──▸ metadata

The connector is asked about the waiting requests one after the other, each at most once: first how
many tokens it has (`Asked`), then, once there are blocks for the request, to take note of them.
`Consulted` is what can come of it, `Consultations` the whole call, and `schedule_consults` says
that every call is one.  What a particular connector guarantees is derived from this and never from
the loops again.
-/

namespace VllmAscend

open Machinery

variable {σ κ M : Type}

/-- What a connector reads of a request is untouched, and the request is not parked anew. -/
structure Request.Untransferred (r r' : Request) : Prop where
  promptTokenIds : r'.promptTokenIds = r.promptTokenIds
  params : r'.kvTransferParams = r.kvTransferParams
  parked : r'.status = .waitingForRemoteKvs → r.status = .waitingForRemoteKvs

namespace Request.Untransferred

theorem refl (r : Request) : Untransferred r r := ⟨rfl, rfl, id⟩

theorem trans {r r' r'' : Request} (h : Untransferred r r') (h' : Untransferred r' r'') :
    Untransferred r r'' :=
  ⟨h'.1.trans h.1, h'.2.trans h.2, fun hparked => h.3 (h'.3 hparked)⟩

end Request.Untransferred

/-- The connector has `n` tokens of the request, to be loaded asynchronously or not; nor is it asked
when tokens of the request are computed already. -/
structure Asked (connector : KVConnector κ M) (id : ReqId) (conn : κ) (r : Request) (conn₁ : κ)
    (r₁ : Request) (n : ℕ) (async : Bool) : Prop where
  request : r.Untransferred r₁
  answer : (conn₁ = conn ∧ n = 0 ∧ async = false) ∨
    ∃ numLocal, connector.getNumNewMatchedTokens conn id r₁ numLocal = some (conn₁, n, async)

/-- What one round of the prefill loop makes of the connector's state and of the request. -/
inductive Consulted (connector : KVConnector κ M) (id : ReqId) (conn : κ) (r : Request) :
    κ → Request → Prop where
  /-- there are no blocks for the request, or it is too long -/
  | passed {conn₁ : κ} {r₁ r' : Request} {n : ℕ} {async : Bool}
    (asked : Asked connector id conn r conn₁ r₁ n async) (request : r₁.Untransferred r') :
    Consulted connector id conn r conn₁ r'
  /-- the request has its blocks: it is parked when its tokens are loaded asynchronously -/
  | placed {conn₁ conn' : κ} {r₁ r' : Request} {n : ℕ} {async : Bool} {blocks : KVCacheBlocks}
    (asked : Asked connector id conn r conn₁ r₁ n async)
    (notified : connector.updateStateAfterAlloc conn₁ id r₁ blocks n
      = some (conn', r'.kvTransferParams))
    (status : r'.status = if async then .waitingForRemoteKvs else .running) :
    Consulted connector id conn r conn' r'

/-- The connector is consulted about some requests, one after the other. -/
inductive Consultations (connector : KVConnector κ M) (conn₀ : κ) (obj₀ : ReqId → Request) :
    List ReqId → κ → (ReqId → Request) → Prop where
  | none : Consultations connector conn₀ obj₀ [] conn₀ obj₀
  | one {ids : List ReqId} {conn conn' : κ} {obj : ReqId → Request} {id : ReqId} {r' : Request}
    (before : Consultations connector conn₀ obj₀ ids conn obj) (fresh : id ∉ ids)
    (consulted : Consulted connector id conn (obj id) conn' r') :
    Consultations connector conn₀ obj₀ (ids ++ [id]) conn' (Function.update obj id r')

/-- A request that the connector was not consulted about is as it was. -/
theorem Consultations.other {connector : KVConnector κ M} {conn₀ conn : κ}
    {obj₀ obj : ReqId → Request} {ids : List ReqId}
    (h : Consultations connector conn₀ obj₀ ids conn obj) : ∀ id, id ∉ ids → obj id = obj₀ id := by
  induction h with
  | none => exact fun _ _ => rfl
  | one _ _ _ ih =>
    intro id hid
    rw [List.mem_append, not_or, List.mem_singleton] at hid
    rw [Function.update_of_ne hid.2]
    exact ih id hid.1

namespace AscendScheduler

variable {self : AscendScheduler σ κ M} {connector : KVConnector κ M} {fr fr₁ fr₂ fr' : Frame σ κ}
  {id : ReqId} {c : ComputedTokens}

/-! ## One round -/

/-- Awaiting the remote KVs of a request does not concern the connector. -/
theorem awaitRemoteKv_untransferred (self : AscendScheduler σ κ M) (fr : Frame σ κ) (id : ReqId) :
    (self.awaitRemoteKv fr id).1.conn = fr.conn ∧
      (fr.obj id).Untransferred ((self.awaitRemoteKv fr id).1.obj id) := by
  unfold awaitRemoteKv
  split
  · split
    · exact ⟨rfl, .refl _⟩
    · refine ⟨rfl, ?_⟩
      simp only [updateObj_self]
      refine ⟨rfl, rfl, fun h => ?_⟩
      cases h
  · exact ⟨rfl, .refl _⟩

/-- The connector was asked about a request that was looked at. -/
theorem Looked.asked (hconn : self.connector = some connector) (h : Looked self fr id fr₁ c) :
    Asked connector id fr.conn (fr.obj id) fr₁.conn (fr₁.obj id) c.numExternalComputedTokens
      c.loadKvAsync := by
  obtain ⟨hsame, hrequest⟩ := awaitRemoteKv_untransferred self fr id
  have hobj : fr₁.obj = (self.awaitRemoteKv fr id).1.obj := by
    rw [h.frame]
  have hcomputed := h.computed
  simp only [getComputed, hconn, hsame] at hcomputed
  refine ⟨hobj ▸ hrequest, ?_⟩
  split at hcomputed
  · split at hcomputed
    · contradiction
    · next hmatched =>
      simp only [Except.ok.injEq, Prod.mk.injEq] at hcomputed
      obtain ⟨_, rfl, rfl⟩ := hcomputed
      rw [hobj]
      exact Or.inr ⟨_, hmatched⟩
  · simp only [Except.ok.injEq, Prod.mk.injEq] at hcomputed
    obtain ⟨_, hconn₁, rfl⟩ := hcomputed
    exact Or.inl ⟨hconn₁.symm, rfl, rfl⟩

/-- The connector takes note of the blocks, and may change the request's transfer parameters. -/
theorem notifyConnector_notified (hconn : self.connector = some connector)
    {newBlocks : KVCacheBlocks} (h : self.notifyConnector fr id c newBlocks = .ok fr') :
    connector.updateStateAfterAlloc fr.conn id (fr.obj id) (c.newComputedBlocks.add newBlocks)
      c.numExternalComputedTokens = some (fr'.conn, (fr'.obj id).kvTransferParams) := by
  simp only [notifyConnector, hconn] at h
  split at h
  · contradiction
  · next hnotified =>
    cases h
    simpa using hnotified

/-- An admitted request is running, with the connector's word about it. -/
theorem admitRequest_notified {n : ℤ} {newBlocks : KVCacheBlocks}
    (h : self.admitRequest fr id c n newBlocks = .ok fr') :
    fr'.conn = fr.conn ∧ (fr'.obj id).kvTransferParams = (fr.obj id).kvTransferParams ∧
      (fr'.obj id).status = .running := by
  obtain ⟨isNew, _, _, rfl⟩ := admitRequest_frame h
  simp [recordAdmitted]

/-- **A round of the prefill loop consults the connector about the head of the queue.** -/
theorem PrefillRound.consulted (hconn : self.connector = some connector)
    (h : PrefillRound self fr id fr') :
    Consulted connector id fr.conn (fr.obj id) fr'.conn (fr'.obj id) := by
  cases h with
  | held =>
    obtain ⟨hsame, hrequest⟩ := awaitRemoteKv_untransferred self fr id
    exact .passed ⟨.refl _, Or.inl ⟨hsame, rfl, rfl⟩⟩ hrequest
  | skip looked =>
    have hasked := looked.asked hconn
    exact .passed hasked (.refl _)
  | ignore looked verdict =>
    have hasked := looked.asked hconn
    refine .passed hasked ?_
    simp only [Frame.finishIgnored, updateObj_self]
    refine ⟨rfl, rfl, fun h => ?_⟩
    cases h
  | @park _ fr₂ c _ _ _ looked alloc notify async =>
    have hasked := looked.asked hconn
    have hnotified := notifyConnector_notified hconn notify
    refine .placed hasked (hnotified.trans ?_) ?_
    · simp [Frame.park]
    · simp [Frame.park, async]
  | @admitted _ fr₂ _ c _ _ _ _ looked verdict watermark alloc notify sync admission =>
    obtain ⟨hsame, hparams, hstatus⟩ := admitRequest_notified admission
    have hasked := looked.asked hconn
    have hnotified := notifyConnector_notified hconn notify
    rw [← hsame, ← hparams] at hnotified
    refine .placed hasked hnotified ?_
    rw [hstatus, sync]
    rfl

/-- A round that leaves the loop has consulted the connector about the head of the queue, or about
nothing. -/
theorem PrefillExit.consulted (hconn : self.connector = some connector)
    (h : PrefillExit self fr fr') :
    (fr'.waiting = fr.waiting ∧ fr'.conn = fr.conn ∧ fr'.obj = fr.obj) ∨
      ∃ id rest, fr.waiting = id :: rest ∧ fr'.obj = Function.update fr.obj id (fr'.obj id) ∧
        Consulted connector id fr.conn (fr.obj id) fr'.conn (fr'.obj id) := by
  cases h with
  | done => exact Or.inl ⟨rfl, rfl, rfl⟩
  | @refused id rest fr₁ c n kv head looked alloc =>
    obtain ⟨r, hframe, _, _⟩ := looked.frame_eq
    have hobj : fr₁.obj = Function.update fr.obj id r := by rw [hframe]
    have hasked := looked.asked hconn
    refine Or.inr ⟨id, rest, head, ?_, .passed hasked (.refl _)⟩
    simp only [hobj, Function.update_self]

/-- A round touches no object but the head's. -/
theorem PrefillRound.obj_eq (h : PrefillRound self fr id fr') :
    fr'.waiting = fr.waiting.tail ∧ fr'.obj = Function.update fr.obj id (fr'.obj id) := by
  obtain ⟨f, hmove, _⟩ := h.move
  cases hmove <;> simp

/-! ## The loops -/

variable {s s' : SchedulerState σ κ} {out : SchedulerOutput M}

/-- **The prefill loop consults the connector about a prefix of the waiting queue.** -/
theorem prefillPhase_consults (hconn : self.connector = some connector) (hnodup : s.waiting.Nodup)
    (h : self.prefillPhase s = .ok fr') :
    ∃ ids rest, s.waiting = ids ++ rest ∧
      Consultations connector s.conn s.obj ids fr'.conn fr'.obj := by
  refine whileLoop_invariant
    (I := fun fr => ∃ ids, s.waiting = ids ++ fr.waiting ∧
      Consultations connector s.conn s.obj ids fr.conn fr.obj)
    (J := fun fr => ∃ ids rest, s.waiting = ids ++ rest ∧
      Consultations connector s.conn s.obj ids fr.conn fr.obj) ?_ ?_ h ⟨[], rfl, .none⟩
  · rintro fr fr' ⟨ids, hwaiting, hbefore⟩ hround
    obtain ⟨id, rest, head, _, _, hround⟩ := prefillBody_again hround
    obtain ⟨htail, hobj⟩ := hround.obj_eq
    have hfresh : id ∉ ids := by
      rw [hwaiting, head, List.nodup_append] at hnodup
      exact fun hmem => hnodup.2.2 id hmem id (by simp) rfl
    refine ⟨ids ++ [id], by rw [hwaiting, htail, head]; simp, ?_⟩
    rw [hobj]
    exact .one hbefore hfresh (hround.consulted hconn)
  · rintro fr fr' ⟨ids, hwaiting, hbefore⟩ hround
    obtain ⟨_, hsame, hobj⟩ | ⟨id, rest, head, hobj, hconsulted⟩ :=
      (prefillBody_leave hround).consulted hconn
    · rw [hsame, hobj]
      exact ⟨ids, _, hwaiting, hbefore⟩
    · have hfresh : id ∉ ids := by
        rw [hwaiting, head, List.nodup_append] at hnodup
        exact fun hmem => hnodup.2.2 id hmem id (by simp) rfl
      refine ⟨ids ++ [id], rest, by rw [hwaiting, head]; simp, ?_⟩
      rw [hobj]
      exact .one hbefore hfresh hconsulted

/-- The decode loop does not consult the connector. -/
theorem DecodePhase.untransferred {fr₀ : Frame σ κ} {victims : List ReqId}
    (h : DecodePhase self fr₀ victims fr) :
    fr.conn = fr₀.conn ∧ ∀ id, (fr₀.obj id).Untransferred (fr.obj id) := by
  refine ⟨h.conn, fun id => ?_⟩
  by_cases hv : id ∈ victims
  · rw [h.victim id hv]
    refine ⟨rfl, rfl, fun h => ?_⟩
    cases h
  by_cases hd : id ∈ fr.scheduledRunningReqs
  · obtain ⟨n, _, hentry⟩ := h.decoded id hd
    rw [hentry.drafts]
    exact ⟨rfl, rfl, fun hparked => hparked⟩
  · rw [h.other id hv hd]
    exact .refl _

/-! ## The call -/

/-- The connector's metadata is built from what the consultations left. -/
theorem buildMeta_built {conn conn' : κ} {out₀ : SchedulerOutput M}
    (hconn : self.connector = some connector)
    (h : self.buildMeta conn out₀ = .ok (conn', out)) :
    ∃ m, connector.buildConnectorMeta conn out₀ = some (conn', m) ∧
      out.kvConnectorMetadata = some m := by
  simp only [buildMeta, hconn] at h
  split at h
  · contradiction
  · next m hbuilt =>
    cases h
    exact ⟨m, hbuilt, rfl⟩

/-- **A call of `schedule()`, as the connector sees it.** -/
structure Consults (connector : KVConnector κ M) (s s' : SchedulerState σ κ)
    (out : SchedulerOutput M) (ids : List ReqId) (conn : κ) (obj : ReqId → Request) : Prop where
  waiting : ∀ id ∈ ids, id ∈ s.waiting
  consultations : Consultations connector s.conn s.obj ids conn obj
  built : ∃ out₀ m, connector.buildConnectorMeta conn out₀ = some (s'.conn, m) ∧
    out.kvConnectorMetadata = some m
  after : ∀ id, (obj id).Untransferred (s'.obj id)

/-- **Every call consults the connector** and then has it build the metadata. -/
theorem schedule_consults (hconn : self.connector = some connector)
    (hoff : self.schedulerConfig.chunkedPrefillEnabled = false)
    (hnodup : (s.waiting ++ s.running).Nodup) (h : self.schedule s = .ok (s', out)) :
    ∃ ids conn obj, Consults connector s s' out ids conn obj := by
  obtain ⟨fr, conn', hplan, _, hmeta, hadvance, hs'⟩ := schedule_eq_ok hoff h
  obtain ⟨fr₀, fates, hprefill, hdone, hdecode⟩ := planRequests_phases hnodup hplan
  obtain ⟨ids, rest, hids, hconsulted⟩ :=
    prefillPhase_consults hconn (List.nodup_append.mp hnodup).1 hprefill
  obtain ⟨m, hbuilt, hm⟩ := buildMeta_built hconn hmeta
  obtain ⟨_, hobj⟩ := advanceComputed_eq_ok hadvance
  have hloop : fr.conn = fr₀.conn ∧ ∀ id, (fr₀.obj id).Untransferred (fr.obj id) := by
    obtain ⟨_, victims, hphase⟩ | rfl := hdecode
    · exact hphase.untransferred
    · exact ⟨rfl, fun id => .refl _⟩
  have hconn' : s'.conn = conn' := by rw [hs']
  rw [hloop.1, ← hconn'] at hbuilt
  refine ⟨ids, fr₀.conn, fr₀.obj, ?_, hconsulted, ⟨_, m, hbuilt, hm⟩, fun id => ?_⟩
  · intro id hid
    rw [hids]
    exact List.mem_append_left _ hid
  · rw [hobj id]
    exact (hloop.2 id).trans ⟨rfl, rfl, fun hparked => hparked⟩
end AscendScheduler

end VllmAscend
