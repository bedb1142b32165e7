import VllmAscend.Worker.SamplingMetadata

/-!
# Worker/BatchSteps — the operations as the model runner calls them

    .between ⟹ .removing ──remove*──▸ .removing ⟹ .adding ──add*──▸ ⋯ ──condense, refresh──▸ .between

`Sound` is what a batch is in each phase of a step: the invariant of the persistent batch, and a
metadata that is up to date unless something changed.  There is one lemma per operation, which says
what becomes of the requests in the batch and of what it holds for them.
-/

namespace VllmAscend

open Machinery BatchUpdateBuilder

namespace InputBatch

variable {β τ : Type} [BatchUpdateBuilder β] [MultiGroupBlockTable τ] {b b' : InputBatch β τ}
  {phase : BatchPhase} {requests : ReqId → Option FullRequestState} {id : ReqId} {i j : ℕ}
  {r : FullRequestState}

/-- The batch with the requests that are in it, and what it holds for them. -/
def inPhase (b : InputBatch β τ) (phase : BatchPhase) (requests : ReqId → Option FullRequestState) :
    PersistentBatch β τ :=
  ⟨b, phase, requests, b.seen⟩

/-- **A batch in a phase of the step, with the requests that are in it.** -/
structure Sound (b : InputBatch β τ) (phase : BatchPhase)
    (requests : ReqId → Option FullRequestState) : Prop where
  holds : (b.inPhase phase requests).Holds
  synced : b.Synced

/-- What a step of the persistent batch leaves. -/
theorem Sound.of_step {s : PersistentBatch β τ} (hholds : s.Holds) (hfaithful : s.Faithful)
    (hsynced : s.batch.Synced) : s.batch.Sound s.phase s.requests ∧ s.batch.seen = s.written := by
  refine ⟨⟨?_, hsynced⟩, hfaithful⟩
  have hsame : s.batch.inPhase s.phase s.requests = s := by
    rw [inPhase, hfaithful]
  rw [hsame]
  exact hholds

theorem Sound.initial (h : b.Initial) (hmodel : b.isPoolingModel = false) :
    b.Sound .between fun _ => none where
  holds := .initial ⟨h, hmodel, rfl, fun _ => rfl, fun id => by
    refine seen_eq_none.mpr ?_
    rw [h.reqIdToIndex]
    rfl⟩
  synced := h.synced

theorem Sound.layout (h : b.Sound phase requests) : Layout b := h.holds.layout

theorem Sound.tracked (h : b.Sound phase requests) (hphase : phase ≠ .condensed) : Tracked b :=
  h.holds.tracked hphase

/-- A step begins with the removals. -/
theorem Sound.removing (h : b.Sound .between requests) : b.Sound .removing requests where
  holds :=
    { layout := h.holds.layout
      tracked := fun _ => h.tracked (by decide)
      unread := fun _ => h.holds.unread (Or.inl rfl)
      noHoles := by simp [inPhase]
      requests := h.holds.requests
      kept := h.holds.kept
      members := h.holds.members
      lora := h.holds.lora
      positive := h.holds.positive }
  synced := h.synced

/-- …and goes on with the additions. -/
theorem Sound.adding (h : b.Sound .removing requests) : b.Sound .adding requests where
  holds :=
    { layout := h.holds.layout
      tracked := fun _ => h.tracked (by decide)
      unread := by simp [inPhase]
      noHoles := by simp [inPhase]
      requests := h.holds.requests
      kept := h.holds.kept
      members := h.holds.members
      lora := h.holds.lora
      positive := h.holds.positive }
  synced := h.synced

/-- What is known of a request is known where it has a row. -/
theorem Sound.requests_eq_none (h : b.Sound phase requests) :
    requests id = none ↔ b.reqIdToIndex.lookup id = none :=
  h.holds.known id

theorem Sound.removeRequest (h : b.Sound .removing requests) (hok : b.removeRequest id = .ok b') :
    b'.Sound .removing (Function.update requests id none) ∧
      b'.seen = Function.update b.seen id none := by
  cases hid : b.reqIdToIndex.lookup id with
  | none =>
    have hrequests : requests id = none := h.requests_eq_none.mpr hid
    have hseen : b.seen id = none := seen_eq_none.mpr hid
    simp only [InputBatch.removeRequest, hid] at hok
    cases hok
    rw [Function.update_eq_self_iff.mpr hrequests.symm, Function.update_eq_self_iff.mpr hseen.symm]
    exact ⟨h, rfl⟩
  | some i =>
    have hmem : id ∈ b.reqIdToIndex := AList.lookup_isSome.mp (by rw [hid]; rfl)
    have hstep : (b.inPhase .removing requests).step (.removeRequest id) =
        .ok ⟨b', .removing, Function.update requests id none,
          Function.update b.seen id none⟩ := by
      simp only [PersistentBatch.step, inPhase, hok]
      rfl
    obtain ⟨hholds, hfaithful⟩ := h.holds.removeRequest ⟨Or.inr rfl, hmem⟩ hstep
    exact Sound.of_step hholds (hfaithful rfl) (h.synced.removeRequest h.layout
      (h.tracked (by decide)) (h.holds.unread (Or.inr rfl)) hok)

theorem Sound.addRequest (h : b.Sound .adding requests) (hid : id ∉ b.reqIdToIndex)
    (hlora : ∀ lora ∈ r.loraRequest, 0 < lora.loraIntId) (hok : b.addRequest id r = .ok b') :
    ∃ params, r.samplingParams = some params ∧
      b'.Sound .adding (Function.update requests id (some r)) ∧
      b'.seen = Function.update b.seen id (some (b.rowOf r params)) := by
  have hstep : (b.inPhase .adding requests).step (.addRequest id r) =
      .ok ⟨b', .adding, Function.update requests id (some r),
        Function.update b.seen id (r.samplingParams.map (b.rowOf r))⟩ := by
    simp only [PersistentBatch.step, inPhase, hok]
    rfl
  have hne : BatchPhase.adding ≠ .condensed := by decide
  obtain ⟨hholds, hfaithful⟩ := h.holds.addRequest ⟨hne, hid, hlora⟩ hstep
  obtain ⟨params, _, _, hparams, _, _, hchanged, _, rfl, _⟩ :=
    addRequest_eq_ok h.layout (h.tracked hne) hok
  obtain ⟨hsound, hseen⟩ := Sound.of_step hholds (hfaithful rfl) (Or.inl hchanged)
  refine ⟨params, hparams, hsound, hseen.trans ?_⟩
  rw [hparams, Option.map_some]

theorem Sound.condense (h : b.Sound .adding requests) (hok : b.condense = .ok b') :
    b'.Sound .condensed requests ∧ b'.seen = b.seen := by
  have hstep : (b.inPhase .adding requests).step .condense =
      .ok ⟨b', .condensed, requests, b.seen⟩ := by
    simp only [PersistentBatch.step, inPhase, hok]
    rfl
  have hne : BatchPhase.adding ≠ .condensed := by decide
  obtain ⟨hholds, hfaithful⟩ := h.holds.condense hne hstep
  exact Sound.of_step hholds (hfaithful rfl) (h.synced.condense h.layout (h.tracked hne) hok)

theorem Sound.refreshMetadata (h : b.Sound .condensed requests)
    (hok : b.refreshMetadata = .ok b') :
    b'.Sound .between requests ∧ b'.seen = b.seen ∧ Matches b'.samplingMetadata b' := by
  have hstep : (b.inPhase .condensed requests).step .refreshMetadata =
      .ok ⟨b', .between, requests, b.seen⟩ := by
    simp only [PersistentBatch.step, inPhase, hok]
    rfl
  have hmatches := h.synced.refreshMetadata h.layout hok
  obtain ⟨hholds, hfaithful⟩ := h.holds.refreshMetadata rfl hstep
  have hholes : holes b'.reqIds = ∅ := hholds.noHoles (Or.inr rfl)
  obtain ⟨hsound, hseen⟩ :=
    Sound.of_step hholds (hfaithful rfl) (Or.inr ⟨hholes, hmatches⟩)
  exact ⟨hsound, hseen, hmatches⟩

theorem Sound.swapStates (h : b.Sound .between requests) (hok : b.swapStates i j = .ok b') :
    b'.Sound .between requests ∧ b'.seen = b.seen := by
  have hstep : (b.inPhase .between requests).step (.swapStates i j) =
      .ok ⟨b', .between, requests, b.seen⟩ := by
    simp only [PersistentBatch.step, inPhase, hok]
    rfl
  obtain ⟨hholds, hfaithful⟩ := h.holds.swapStates hstep
  obtain ⟨_, _, _, _, rfl⟩ := swapStates_eq_ok h.layout hok
  exact Sound.of_step hholds (hfaithful rfl) (Or.inl (changed_movedAppend _ _))

theorem Sound.write (h : b.Sound phase requests) (hid : b.reqIdToIndex.lookup id = some i)
    (w : RowWrite) : (b.write i w).Sound phase requests := by
  have hstep : (b.inPhase phase requests).step (.write id w) =
      .ok ⟨b.write i w, phase, requests,
        Function.update b.seen id ((b.seen id).map (·.write w))⟩ := by
    simp only [PersistentBatch.step, inPhase, hid]
  have hholds := (h.holds.write hstep).1
  exact ⟨⟨hholds.layout, hholds.tracked, hholds.unread, hholds.noHoles, hholds.requests,
    hholds.kept, hholds.members, hholds.lora, hholds.positive⟩, h.synced.write i w⟩

/-- **One removal after the other.** -/
theorem Sound.removeAll : ∀ {ids : List ReqId} {b : InputBatch β τ}
    {requests : ReqId → Option FullRequestState}, b.Sound .removing requests →
    ids.foldlM InputBatch.removeRequest b = .ok b' →
      b'.Sound .removing (fun id => if id ∈ ids then none else requests id) ∧
        ∀ id, b'.seen id = if id ∈ ids then none else b.seen id
  | [], b, requests, h, hok => by
    cases hok
    exact ⟨by simpa using h, by simp⟩
  | id :: ids, b, requests, h, hok => by
    rw [List.foldlM_cons, bind_eq_ok] at hok
    obtain ⟨b₁, hremove, hok⟩ := hok
    obtain ⟨h₁, hseen₁⟩ := h.removeRequest hremove
    obtain ⟨h', hseen'⟩ := h₁.removeAll hok
    have hupdate : ∀ {α : Type} (f : ReqId → Option α) (id' : ReqId),
        (if id' ∈ ids then none else Function.update f id none id') =
          if id' ∈ id :: ids then none else f id' := by
      intro α f id'
      rw [Function.update_apply]
      by_cases heq : id' = id <;> simp [heq]
    refine ⟨?_, fun id' => ?_⟩
    · simpa only [hupdate] using h'
    · rw [hseen' id', hseen₁, hupdate]

end InputBatch

end VllmAscend
