import VllmAscend.Machinery.Run
import VllmAscend.Worker.Condense
import VllmAscend.Worker.SmallBatch

/-!
# Worker/PersistentBatch — every request keeps its data, whatever rows it moves through

    remove* ─▸ add* ─▸ condense ─▸ refresh_metadata ─▸ (swap)* ─▸ remove* ─▸ ⋯

The operations of a step come in this order, and the model runner writes into the rows of requests
that are in the batch at any time.  Beside the batch stand the requests that were added and what was
last written for each; `Holds` is what an operation keeps of the two, and `Represents` is what it
comes to once the batch is condensed.
-/

namespace VllmAscend

open Machinery BatchUpdateBuilder

/-- Where a step is. -/
inductive BatchPhase where
  | between
  | removing
  | adding
  | condensed
  deriving DecidableEq, Repr

inductive BatchOp where
  | removeRequest (reqId : ReqId)
  | addRequest (reqId : ReqId) (request : FullRequestState)
  | condense
  | refreshMetadata
  | swapStates (i1 i2 : ℕ)
  | write (reqId : ReqId) (w : RowWrite)

structure PersistentBatch (β τ : Type) where
  batch : InputBatch β τ
  phase : BatchPhase
  /-- the requests that were added and not removed since -/
  requests : ReqId → Option FullRequestState
  /-- what was last written for each of them -/
  written : ReqId → Option RowData

namespace InputBatch

/-- At `__init__`. -/
structure Initial {β τ : Type} [BatchUpdateBuilder β] (b : InputBatch β τ) : Prop where
  reqIds : b.reqIds = []
  reqIdToIndex : b.reqIdToIndex = ∅
  reqOutputTokenIds : b.reqOutputTokenIds = []
  members : ∀ s, b.members s = ∅
  generators : ∀ i, b.generators i = none
  badWords : ∀ i, b.badWordsTokenIds i = none
  loraIdToRequestIds : ∀ n, b.loraIdToRequestIds n = none
  loraIdToLoraRequest : ∀ n, b.loraIdToLoraRequest n = none
  mask : b.allowedTokenIdsMaskCpuTensor = none
  pending : pending b.batchUpdateBuilder = ∅
  unread : Unread b.batchUpdateBuilder
  samplingMetadata : ∃ b', b.makeSamplingMetadata = .ok (b', b.samplingMetadata)

end InputBatch

namespace PersistentBatch

variable {β τ : Type} [BatchUpdateBuilder β] [MultiGroupBlockTable τ]

/-- One operation. -/
def step (s : PersistentBatch β τ) : BatchOp → Except BatchFault (PersistentBatch β τ)
  | .removeRequest id => do
    let batch ← s.batch.removeRequest id
    return ⟨batch, .removing, Function.update s.requests id none,
      Function.update s.written id none⟩
  | .addRequest id r => do
    let batch ← s.batch.addRequest id r
    return ⟨batch, .adding, Function.update s.requests id (some r),
      Function.update s.written id (r.samplingParams.map (s.batch.rowOf r))⟩
  | .condense => do
    let batch ← s.batch.condense
    return { s with batch := batch, phase := .condensed }
  | .refreshMetadata => do
    let batch ← s.batch.refreshMetadata
    return { s with batch := batch, phase := .between }
  | .swapStates i1 i2 => do
    let batch ← s.batch.swapStates i1 i2
    return { s with batch := batch }
  | .write id w =>
    match s.batch.reqIdToIndex.lookup id with
    | none => .error .keyError
    | some i => .ok { s with
        batch := s.batch.write i w
        written := Function.update s.written id ((s.written id).map (·.write w)) }

/-- **The step discipline**: the ids that are removed are in the batch and those that are added are
not, rows are swapped between steps, and a request that has a LoRA has one with a positive id. -/
def Allowed (s : PersistentBatch β τ) : BatchOp → Prop
  | .removeRequest id =>
    (s.phase = .between ∨ s.phase = .removing) ∧ id ∈ s.batch.reqIdToIndex
  | .addRequest id r => s.phase ≠ .condensed ∧ id ∉ s.batch.reqIdToIndex ∧
    ∀ lora ∈ r.loraRequest, 0 < lora.loraIntId
  | .condense => s.phase ≠ .condensed
  | .refreshMetadata => s.phase = .condensed
  | .swapStates i1 i2 => s.phase = .between ∧ i1 < s.batch.numReqs ∧ i2 < s.batch.numReqs
  | .write _ _ => True

/-- …and what is written fits the row. -/
def Fitting (s : PersistentBatch β τ) (op : BatchOp) : Prop :=
  s.Allowed op ∧ match op with
    | .write id w => ∀ d ∈ s.batch.seen id, w.Fits d
    | _ => True

instance (s : PersistentBatch β τ) : DecidablePred s.Allowed
  | .removeRequest _ => inferInstanceAs (Decidable (_ ∧ _))
  | .addRequest _ _ => inferInstanceAs (Decidable (_ ∧ _ ∧ _))
  | .condense => inferInstanceAs (Decidable (_ ≠ _))
  | .refreshMetadata => inferInstanceAs (Decidable (_ = _))
  | .swapStates _ _ => inferInstanceAs (Decidable (_ ∧ _))
  | .write _ _ => isTrue trivial

instance (s : PersistentBatch β τ) : DecidablePred s.Fitting
  | .write id w => inferInstanceAs (Decidable (_ ∧ ∀ d ∈ s.batch.seen id, w.Fits d))
  | .removeRequest _ | .addRequest _ _ | .condense | .refreshMetadata | .swapStates _ _ =>
    inferInstanceAs (Decidable (_ ∧ True))

/-- At the beginning. -/
structure Initial (s : PersistentBatch β τ) : Prop where
  batch : s.batch.Initial
  autoregressive : s.batch.isPoolingModel = false
  phase : s.phase = .between
  requests : ∀ id, s.requests id = none
  written : ∀ id, s.written id = none

/-! ## The invariant -/

/-- The dictionaries by LoRA id have the requests of each LoRA, and no LoRA without one. -/
structure LoraIndexed (b : InputBatch β τ) (requests : ReqId → Option FullRequestState) :
    Prop where
  members : ∀ n id, id ∈ (b.loraIdToRequestIds n).getD ∅ ↔
    ∃ lora, (requests id).bind (·.loraRequest) = some lora ∧ lora.loraIntId = n
  nonempty : ∀ n, b.loraIdToRequestIds n ≠ some ∅
  known : ∀ n, (b.loraIdToLoraRequest n).isSome = (b.loraIdToRequestIds n).isSome

/-- What the row of a request keeps of it, whatever is written. -/
def keptOf (c : BatchConfig) (r : FullRequestState) : Option (SampledRow × ℕ) :=
  r.samplingParams.map fun params =>
    (c.sampledRowOf params, r.loraRequest.elim 0 LoRARequest.loraIntId)

/-- What every operation keeps. -/
structure Holds (s : PersistentBatch β τ) : Prop where
  layout : s.batch.Layout
  tracked : s.phase ≠ .condensed → s.batch.Tracked
  unread : s.phase = .between ∨ s.phase = .removing → Unread s.batch.batchUpdateBuilder
  noHoles : s.phase = .condensed ∨ s.phase = .between → holes s.batch.reqIds = ∅
  requests : ∀ id, (s.requests id).isSome = (s.batch.reqIdToIndex.lookup id).isSome
  kept : ∀ id, s.batch.kept id = (s.requests id).bind (keptOf s.batch.toBatchConfig)
  members : ∀ set id, id ∈ s.batch.members set ↔ ∃ r params, s.requests id = some r ∧
    r.samplingParams = some params ∧ set.Has s.batch.toBatchConfig params
  lora : LoraIndexed s.batch s.requests
  positive : ∀ id r, s.requests id = some r → ∀ lora ∈ r.loraRequest, 0 < lora.loraIntId

/-- What was last written is what is there. -/
def Faithful (s : PersistentBatch β τ) : Prop := s.batch.seen = s.written

variable {s s' : PersistentBatch β τ} {id : ReqId} {r : FullRequestState} {i j : ℕ}

theorem Holds.initial (h : s.Initial) : s.Holds where
  layout := by
    refine ⟨h.autoregressive, ?_, ?_, ?_, ?_⟩
    · rw [h.batch.reqIds, h.batch.reqIdToIndex]
      exact Indexes.nil
    · rw [h.batch.reqIds, h.batch.reqOutputTokenIds]
      rfl
    · exact fun i hi => absurd (h.batch.generators i) hi
    · exact fun i hi => absurd (h.batch.badWords i) hi
  tracked := fun _ => by
    rw [InputBatch.Tracked, h.batch.pending, h.batch.reqIds, holes_nil]
  unread := fun _ => h.batch.unread
  noHoles := fun _ => by rw [h.batch.reqIds, holes_nil]
  requests := fun id => by rw [h.requests id, h.batch.reqIdToIndex]; rfl
  kept := fun id => by
    rw [h.requests id, InputBatch.kept, InputBatch.seen, h.batch.reqIdToIndex]
    rfl
  members := fun set id => by
    rw [h.batch.members set]
    simp [h.requests id]
  lora := ⟨fun n id => by simp [h.batch.loraIdToRequestIds n, h.requests id],
    fun n => by simp [h.batch.loraIdToRequestIds n],
    fun n => by simp [h.batch.loraIdToRequestIds n, h.batch.loraIdToLoraRequest n]⟩
  positive := fun id r hr => by simp [h.requests id] at hr

theorem Faithful.initial (h : s.Initial) : s.Faithful := by
  funext id
  rw [h.written id, InputBatch.seen, h.batch.reqIdToIndex]
  rfl

/-! ## The dictionaries by LoRA id -/

section Lora

variable {b b' : InputBatch β τ} {requests : ReqId → Option FullRequestState}
  {params : SamplingParams} {builder : β}

omit [BatchUpdateBuilder β] in
/-- A request that is added is filed under its LoRA. -/
theorem LoraIndexed.added (h : LoraIndexed b requests) (hid : requests id = none) :
    LoraIndexed (b.added id r params i builder) (Function.update requests id (some r)) := by
  cases hr : r.loraRequest with
  | none =>
    have hids : (b.added id r params i builder).loraIdToRequestIds = b.loraIdToRequestIds := by
      simp only [InputBatch.added, InputBatch.storeLora, hr]
      rfl
    have hreqs : (b.added id r params i builder).loraIdToLoraRequest = b.loraIdToLoraRequest := by
      simp only [InputBatch.added, InputBatch.storeLora, hr]
      rfl
    refine ⟨fun n id' => ?_, fun n => by rw [hids]; exact h.nonempty n,
      fun n => by rw [hids, hreqs]; exact h.known n⟩
    rw [hids, h.members n id']
    obtain rfl | hne := eq_or_ne id' id
    · simp [hid, hr]
    · rw [Function.update_of_ne hne]
  | some lora =>
    have hids : (b.added id r params i builder).loraIdToRequestIds =
        Function.update b.loraIdToRequestIds lora.loraIntId
          (some (insert id ((b.loraIdToRequestIds lora.loraIntId).getD ∅))) := by
      simp only [InputBatch.added, InputBatch.storeLora, hr]
      rfl
    have hreqs : (b.added id r params i builder).loraIdToLoraRequest =
        Function.update b.loraIdToLoraRequest lora.loraIntId (some lora) := by
      simp only [InputBatch.added, InputBatch.storeLora, hr]
      rfl
    refine ⟨fun n id' => ?_, fun n => ?_, fun n => ?_⟩
    · rw [hids]
      obtain rfl | hn := eq_or_ne n lora.loraIntId
      · rw [Function.update_self, Option.getD_some, Finset.mem_insert, h.members]
        obtain rfl | hne := eq_or_ne id' id
        · simp [hr]
        · rw [Function.update_of_ne hne]
          simp [hne]
      · rw [Function.update_of_ne hn, h.members]
        obtain rfl | hne := eq_or_ne id' id
        · simp [hid, hr, Ne.symm hn]
        · rw [Function.update_of_ne hne]
    · rw [hids]
      obtain rfl | hn := eq_or_ne n lora.loraIntId
      · simp
      · rw [Function.update_of_ne hn]
        exact h.nonempty n
    · rw [hids, hreqs]
      obtain rfl | hn := eq_or_ne n lora.loraIntId
      · simp
      · rw [Function.update_of_ne hn, Function.update_of_ne hn]
        exact h.known n

omit [BatchUpdateBuilder β] [MultiGroupBlockTable τ] in
/-- A request that is removed is taken out of the file of its LoRA. -/
theorem LoraIndexed.released (h : LoraIndexed b requests) (hid : requests id = some r)
    (hpos : ∀ lora, r.loraRequest = some lora → 0 < lora.loraIntId)
    (hmapping : b.requestLoraMapping i = r.loraRequest.elim 0 LoRARequest.loraIntId)
    (hreleased : InputBatch.Released b b' id i) :
    LoraIndexed b' (Function.update requests id none) := by
  cases hr : r.loraRequest with
  | none =>
    rw [hr, Option.elim_none] at hmapping
    obtain ⟨hids, hreqs⟩ := hreleased.none hmapping
    refine ⟨fun n id' => ?_, fun n => by rw [hids]; exact h.nonempty n,
      fun n => by rw [hids, hreqs]; exact h.known n⟩
    rw [hids, h.members n id']
    obtain rfl | hne := eq_or_ne id' id
    · simp [hid, hr]
    · rw [Function.update_of_ne hne]
  | some lora =>
    rw [hr, Option.elim_some] at hmapping
    obtain ⟨ids, hget, hids, hreqs⟩ :=
      hreleased.some (by rw [hmapping]; exact (hpos lora hr).ne')
    rw [hmapping] at hget hids hreqs
    have hmem : ∀ id', id' ∈ ids ↔ ∃ lora', (requests id').bind (·.loraRequest) = some lora' ∧
        lora'.loraIntId = lora.loraIntId := by
      intro id'
      rw [← h.members, hget, Option.getD_some]
    have herase : ∀ id', id' ∈ ids.erase id ↔
        ∃ lora', (Function.update requests id none id').bind (·.loraRequest) = some lora' ∧
          lora'.loraIntId = lora.loraIntId := by
      intro id'
      rw [Finset.mem_erase, hmem]
      obtain rfl | hne := eq_or_ne id' id
      · simp
      · rw [Function.update_of_ne hne]
        simp [hne]
    refine ⟨fun n id' => ?_, fun n => ?_, fun n => ?_⟩
    · rw [hids]
      obtain rfl | hn := eq_or_ne n lora.loraIntId
      · rw [Function.update_self, ← herase id']
        split
        · next hempty => rw [hempty, Option.getD_none]
        · rw [Option.getD_some]
      · rw [Function.update_of_ne hn, h.members]
        obtain rfl | hne := eq_or_ne id' id
        · simp [hid, hr, Ne.symm hn]
        · rw [Function.update_of_ne hne]
    · rw [hids]
      obtain rfl | hn := eq_or_ne n lora.loraIntId
      · rw [Function.update_self]
        split
        · simp
        · next hne => simpa using hne
      · rw [Function.update_of_ne hn]
        exact h.nonempty n
    · rw [hids, hreqs]
      obtain rfl | hn := eq_or_ne n lora.loraIntId
      · rw [Function.update_self]
        split
        · simp
        · rw [h.known, hget]
          rfl
      · rw [Function.update_of_ne hn]
        split
        · rw [Function.update_of_ne hn]
          exact h.known n
        · exact h.known n

end Lora

/-! ## The operations, one by one -/

section Steps

/-- Ids are known where rows are. -/
theorem Holds.known (h : s.Holds) (id : ReqId) :
    s.requests id = none ↔ s.batch.reqIdToIndex.lookup id = none := by
  rw [← Option.not_isSome_iff_eq_none, h.requests, Option.not_isSome_iff_eq_none]

theorem Holds.addRequest (h : s.Holds) (hallowed : s.Allowed (.addRequest id r))
    (hstep : s.step (.addRequest id r) = .ok s') :
    s'.Holds ∧ (s.Faithful → s'.Faithful) := by
  obtain ⟨hphase, hnot, hpos⟩ := hallowed
  simp only [step, bind_eq_ok] at hstep
  obtain ⟨batch, hadd, hstep⟩ := hstep
  cases hstep
  have hlookup : s.batch.reqIdToIndex.lookup id = none := AList.lookup_eq_none.mpr hnot
  have hnone := (h.known id).mpr hlookup
  obtain ⟨params, i, builder, hparams, rfl, hopen, _, _, rfl, htracked⟩ :=
    InputBatch.addRequest_eq_ok h.layout (h.tracked hphase) hadd
  have hseen : (s.batch.added id r params s.batch.nextRow builder).seen =
      Function.update s.batch.seen id (some (s.batch.rowOf r params)) :=
    InputBatch.seen_added h.layout hopen hlookup
  refine ⟨?_, fun hfaithful => by
    rw [Faithful, hseen, hfaithful, hparams, Option.map_some]⟩
  constructor
  case layout => exact h.layout.added hopen hlookup
  case tracked => exact fun _ => htracked
  case unread => simp
  case noHoles => simp
  case requests =>
    intro id'
    have hindex := congrFun (Dict.lookup_insert_eq s.batch.reqIdToIndex id s.batch.nextRow) id'
    refine Eq.trans ?_ (congrArg Option.isSome hindex).symm
    obtain rfl | hne := eq_or_ne id' id
    · simp
    · simp only [Function.update_of_ne hne]
      exact h.requests id'
  case kept =>
    intro id'
    rw [InputBatch.kept, hseen]
    obtain rfl | hne := eq_or_ne id' id
    · simp [keptOf, hparams]
      exact ⟨rfl, rfl⟩
    · simp only [Function.update_of_ne hne]
      exact h.kept id'
  case members =>
    intro set id'
    rw [InputBatch.mem_members_added, h.members]
    obtain rfl | hne := eq_or_ne id' id
    · simp [hnone, hparams]
      rfl
    · simp only [hne, false_and, false_or, Function.update_of_ne hne]
      rfl
  case lora => exact h.lora.added hnone
  case positive =>
    intro id' r' hr'
    obtain rfl | hne := eq_or_ne id' id
    · simp only [Function.update_self] at hr'
      cases hr'
      exact hpos
    · simp only [Function.update_of_ne hne] at hr'
      exact h.positive id' r' hr'

/-- The request of a row, and the LoRA id that is stored for it. -/
theorem Holds.exists_request (h : s.Holds) (hid : s.batch.reqIdToIndex.lookup id = some i) :
    ∃ r params, s.requests id = some r ∧ r.samplingParams = some params ∧
      s.batch.sampledRow i = s.batch.sampledRowOf params ∧
      s.batch.requestLoraMapping i = r.loraRequest.elim 0 LoRARequest.loraIntId := by
  have hkept := h.kept id
  rw [InputBatch.kept_of_lookup hid] at hkept
  obtain ⟨r, hr, hkept⟩ := Option.bind_eq_some_iff.mp hkept.symm
  obtain ⟨params, hparams, hkept⟩ := Option.map_eq_some_iff.mp hkept
  obtain ⟨hsampled, hlora⟩ := Prod.mk.inj hkept
  exact ⟨r, params, hr, hparams, hsampled.symm, hlora.symm⟩

theorem Holds.removeRequest (h : s.Holds) (hallowed : s.Allowed (.removeRequest id))
    (hstep : s.step (.removeRequest id) = .ok s') :
    s'.Holds ∧ (s.Faithful → s'.Faithful) := by
  obtain ⟨hphase, hmem⟩ := hallowed
  simp only [step, bind_eq_ok] at hstep
  obtain ⟨batch, hremove, hstep⟩ := hstep
  cases hstep
  obtain ⟨i, hid⟩ := Option.isSome_iff_exists.mp (AList.lookup_isSome.mpr hmem)
  have hne : s.phase ≠ .condensed := by
    obtain hp | hp := hphase <;> rw [hp] <;> decide
  obtain ⟨builder, ids, lora, rfl, hreleased, htracked, hunread, _⟩ :=
    InputBatch.removeRequest_eq_ok h.layout (h.tracked hne) (h.unread hphase) hid hremove
  obtain ⟨r, params, hr, _, _, hlora⟩ := h.exists_request hid
  have hseen : (s.batch.dropped id i builder ids lora).seen =
      Function.update s.batch.seen id none := InputBatch.seen_dropped h.layout hid
  refine ⟨?_, fun hfaithful => by rw [Faithful, hseen, hfaithful]⟩
  constructor
  case layout => exact h.layout.dropped hid
  case tracked => exact fun _ => htracked
  case unread => exact fun _ => hunread
  case noHoles => simp
  case requests =>
    intro id'
    have hindex := congrFun (Dict.lookup_erase_eq s.batch.reqIdToIndex id) id'
    refine Eq.trans ?_ (congrArg Option.isSome hindex).symm
    obtain rfl | hne := eq_or_ne id' id
    · simp
    · simp only [Function.update_of_ne hne]
      exact h.requests id'
  case kept =>
    intro id'
    rw [InputBatch.kept, hseen]
    obtain rfl | hne := eq_or_ne id' id
    · simp
    · simp only [Function.update_of_ne hne]
      exact h.kept id'
  case members =>
    intro set id'
    rw [InputBatch.members_dropped, Finset.mem_erase, h.members]
    obtain rfl | hne := eq_or_ne id' id
    · simp
    · simp only [Function.update_of_ne hne, ne_eq, hne, not_false_eq_true, true_and]
      rfl
  case lora => exact h.lora.released hr (h.positive id r hr) hlora hreleased
  case positive =>
    intro id' r' hr'
    obtain rfl | hne := eq_or_ne id' id
    · simp at hr'
    · simp only [Function.update_of_ne hne] at hr'
      exact h.positive id' r' hr'

/-- What moves rows about, or changes what is not in them, keeps the invariant. -/
theorem Holds.unseen (h : s.Holds) {b' : InputBatch β τ} {phase' : BatchPhase}
    (layout : b'.Layout) (tracked : phase' ≠ .condensed → b'.Tracked)
    (unread : phase' = .between ∨ phase' = .removing → Unread b'.batchUpdateBuilder)
    (noHoles : phase' = .condensed ∨ phase' = .between → holes b'.reqIds = ∅)
    (seen : b'.seen = s.batch.seen) (members : b'.members = s.batch.members)
    (ids : b'.loraIdToRequestIds = s.batch.loraIdToRequestIds)
    (reqs : b'.loraIdToLoraRequest = s.batch.loraIdToLoraRequest)
    (config : b'.toBatchConfig = s.batch.toBatchConfig) :
    Holds { s with batch := b', phase := phase' } ∧
      (s.Faithful → Faithful { s with batch := b', phase := phase' }) where
  left :=
    { layout := layout
      tracked := tracked
      unread := unread
      noHoles := noHoles
      requests := fun id => by
        have hid := congrArg Option.isSome (congrFun seen id)
        rw [InputBatch.seen, InputBatch.seen, Option.isSome_map, Option.isSome_map] at hid
        exact (h.requests id).trans hid.symm
      kept := fun id => by
        rw [InputBatch.kept, seen, config]
        exact h.kept id
      members := fun set id => by
        rw [members, config]
        exact h.members set id
      lora := ⟨ids ▸ h.lora.members, ids ▸ h.lora.nonempty, ids ▸ reqs ▸ h.lora.known⟩
      positive := h.positive }
  right := fun hfaithful => seen.trans hfaithful

theorem Holds.condense (h : s.Holds) (hallowed : s.Allowed .condense)
    (hstep : s.step .condense = .ok s') : s'.Holds ∧ (s.Faithful → s'.Faithful) := by
  simp only [step, bind_eq_ok] at hstep
  obtain ⟨batch, hcondense, hstep⟩ := hstep
  cases hstep
  obtain ⟨batch', hcondense', hcondensed⟩ := InputBatch.condense_returns h.layout
    (h.tracked hallowed) (InputBatch.moves_seen s.batch) ⟨rfl, rfl, rfl⟩
  cases hcondense.symm.trans hcondense'
  obtain ⟨hseen, hregistry, hconfig⟩ := hcondensed.keeps
  exact h.unseen hcondensed.layout (fun hne => absurd rfl hne) (by simp)
    (fun _ => hcondensed.noHoles) hseen (congrArg Registry.members hregistry)
    (congrArg Registry.loraIdToRequestIds hregistry)
    (congrArg Registry.loraIdToLoraRequest hregistry) hconfig

theorem Holds.refreshMetadata (h : s.Holds) (hallowed : s.Allowed .refreshMetadata)
    (hstep : s.step .refreshMetadata = .ok s') : s'.Holds ∧ (s.Faithful → s'.Faithful) := by
  simp only [step, bind_eq_ok] at hstep
  obtain ⟨batch, hrefresh, hstep⟩ := hstep
  cases hstep
  obtain ⟨builder, t, p, k, f, pr, rp, mask, md, rfl, hpending, hunread, _⟩ :=
    InputBatch.refreshMetadata_eq_ok h.layout hrefresh
  have hnone : holes s.batch.reqIds = ∅ := h.noHoles (Or.inl hallowed)
  exact h.unseen h.layout.withDevice (fun _ => hpending.trans hnone.symm) (fun _ => hunread)
    (fun _ => hnone) rfl rfl rfl rfl rfl

theorem Holds.swapStates (h : s.Holds) (hstep : s.step (.swapStates i j) = .ok s') :
    s'.Holds ∧ (s.Faithful → s'.Faithful) := by
  simp only [step, bind_eq_ok] at hstep
  obtain ⟨batch, hswap, hstep⟩ := hstep
  cases hstep
  obtain ⟨id, id', hid, hid', rfl⟩ := InputBatch.swapStates_eq_ok h.layout hswap
  have hholes := InputBatch.holes_swapped h.layout hid hid'
  refine h.unseen (h.layout.swapped hid hid') (fun hne => ?_) (fun hunread => ?_)
    (fun hnone => hholes.trans (h.noHoles hnone)) (InputBatch.seen_swapped h.layout hid hid')
    ?_ rfl rfl rfl
  · exact (pending_movedAppend _ _).trans ((h.tracked hne).trans hholes.symm)
  · exact unread_movedAppend (h.unread hunread)
  · funext set
    cases set <;> rfl

theorem Holds.write (h : s.Holds) {w : RowWrite} (hstep : s.step (.write id w) = .ok s') :
    s'.Holds ∧ (s.Fitting (.write id w) → s.Faithful → s'.Faithful) := by
  simp only [step] at hstep
  split at hstep
  · contradiction
  · next i hid =>
    cases hstep
    obtain ⟨hregistry, hconfig, hreqIds, hindex, hbuilder⟩ := s.batch.write_eq i w
    refine ⟨?_, fun hfits hfaithful => ?_⟩
    · constructor
      case layout => exact InputBatch.layout_write h.layout w
      case tracked =>
        intro hne
        rw [InputBatch.Tracked, hreqIds, hbuilder]
        exact h.tracked hne
      case unread =>
        rw [hbuilder]
        exact h.unread
      case noHoles =>
        rw [hreqIds]
        exact h.noHoles
      case requests =>
        rw [hindex]
        exact h.requests
      case kept =>
        rw [InputBatch.kept_write, hconfig]
        exact h.kept
      case members =>
        intro set id'
        have hmembers : (s.batch.write i w).members = s.batch.members :=
          congrArg Registry.members hregistry
        simp only [hmembers, hconfig]
        exact h.members set id'
      case lora =>
        have hids : (s.batch.write i w).loraIdToRequestIds = s.batch.loraIdToRequestIds :=
          congrArg Registry.loraIdToRequestIds hregistry
        have hreqs : (s.batch.write i w).loraIdToLoraRequest = s.batch.loraIdToLoraRequest :=
          congrArg Registry.loraIdToLoraRequest hregistry
        exact ⟨hids ▸ h.lora.members, hids ▸ h.lora.nonempty, hids ▸ hreqs ▸ h.lora.known⟩
      case positive => exact h.positive
    · have hseen := InputBatch.seen_of_lookup hid
      have hwritten : s.written id = some (s.batch.rowData i) := hfaithful ▸ hseen
      rw [Faithful, InputBatch.seen_write h.layout hid (hfits.2 _ hseen), hfaithful, hwritten,
        Option.map_some]

/-- **Every operation keeps the invariant.** -/
theorem Holds.step {op : BatchOp} (h : s.Holds) (hallowed : s.Allowed op)
    (hstep : s.step op = .ok s') : s'.Holds := by
  cases op with
  | removeRequest id => exact (h.removeRequest hallowed hstep).1
  | addRequest id r => exact (h.addRequest hallowed hstep).1
  | condense => exact (h.condense hallowed hstep).1
  | refreshMetadata => exact (h.refreshMetadata hallowed hstep).1
  | swapStates i j => exact (h.swapStates hstep).1
  | write id w => exact (h.write hstep).1

/-- **…and whatever was written is still there**, as long as writes fit. -/
theorem Faithful.step {op : BatchOp} (h : s.Faithful) (hholds : s.Holds) (hfits : s.Fitting op)
    (hstep : s.step op = .ok s') : s'.Faithful := by
  cases op with
  | removeRequest id => exact (hholds.removeRequest hfits.1 hstep).2 h
  | addRequest id r => exact (hholds.addRequest hfits.1 hstep).2 h
  | condense => exact (hholds.condense hfits.1 hstep).2 h
  | refreshMetadata => exact (hholds.refreshMetadata hfits.1 hstep).2 h
  | swapStates i j => exact (hholds.swapStates hstep).2 h
  | write id w => exact (hholds.write hstep).2 hfits h

end Steps

/-! ## What it comes to -/

/-- **The batch represents the requests that are in it.** -/
structure Represents (s : PersistentBatch β τ) : Prop where
  length : s.batch.reqIds.length = s.batch.numReqs
  noNone : none ∉ s.batch.reqIds
  inverse : ∀ id i, s.batch.reqIdToIndex.lookup id = some i ↔ s.batch.reqIds[i]? = some (some id)
  live : ∀ id, (s.requests id).isSome ↔ id ∈ s.batch.reqIdToIndex
  rows : ∀ id i, s.batch.reqIdToIndex.lookup id = some i →
    s.written id = some (s.batch.rowData i)
  generators : ∀ i, s.batch.generators i ≠ none → i < s.batch.numReqs
  badWords : ∀ i, s.batch.badWordsTokenIds i ≠ none → i < s.batch.numReqs
  members : ∀ set id, id ∈ s.batch.members set ↔ ∃ r params, s.requests id = some r ∧
    r.samplingParams = some params ∧ set.Has s.batch.toBatchConfig params
  lora : LoraIndexed s.batch s.requests

theorem Holds.represents (h : s.Holds) (hfaithful : s.Faithful)
    (hphase : s.phase = .condensed ∨ s.phase = .between) : s.Represents := by
  have hnone := h.noHoles hphase
  have hlength : s.batch.reqIds.length = s.batch.numReqs := by
    have hadd := h.layout.numReqs_add
    rw [hnone, Finset.card_empty] at hadd
    exact hadd.symm
  have hlt : ∀ id i, s.batch.reqIdToIndex.lookup id = some i → i < s.batch.numReqs :=
    fun id i hid => hlength ▸ h.layout.index.lt hid
  constructor
  case length => exact hlength
  case noNone =>
    intro hmem
    obtain ⟨i, hi⟩ := List.mem_iff_getElem?.mp hmem
    have hhole := mem_holes.mpr hi
    rw [hnone] at hhole
    exact Finset.notMem_empty i hhole
  case inverse => exact h.layout.index
  case live =>
    intro id
    rw [Option.isSome_iff_ne_none, Ne, h.known id, AList.lookup_eq_none, not_not]
  case rows =>
    intro id i hid
    rw [← hfaithful, InputBatch.seen_of_lookup hid]
  case generators =>
    intro i hi
    obtain ⟨id, hid⟩ := h.layout.generators i hi
    exact hlt id i hid
  case badWords =>
    intro i hi
    obtain ⟨id, hid⟩ := h.layout.badWords i hi
    exact hlt id i hid
  case members => exact h.members
  case lora => exact h.lora

theorem Holds.run {s₀ : PersistentBatch β τ} (h : s₀.Holds)
    (run : Run PersistentBatch.step PersistentBatch.Allowed s₀ s) : s.Holds :=
  run.invariant (fun _ _ _ h hallowed hstep => h.step hallowed hstep) h

theorem Holds.condense_returns (h : s.Holds) (hphase : s.phase ≠ .condensed) :
    ∃ s', s.step .condense = .ok s' ∧ s'.phase = .condensed := by
  obtain ⟨batch, hcondense, _⟩ := InputBatch.condense_returns h.layout (h.tracked hphase)
    (InputBatch.moves_seen s.batch) ⟨rfl, rfl, rfl⟩
  refine ⟨{ s with batch := batch, phase := .condensed }, ?_, rfl⟩
  rw [PersistentBatch.step, hcondense]
  rfl

/-- The batch of a worker at start. -/
def start (config : BatchConfig) : PersistentBatch UpdateBuilder RowBlocks :=
  ⟨.start config, .between, fun _ => none, fun _ => none⟩

theorem start_initial {config : BatchConfig} (h : config.isPoolingModel = false) :
    (start config).Initial where
  batch :=
    { reqIds := rfl
      reqIdToIndex := rfl
      reqOutputTokenIds := rfl
      members := fun s => by cases s <;> rfl
      generators := fun _ => rfl
      badWords := fun _ => rfl
      loraIdToRequestIds := fun _ => rfl
      loraIdToLoraRequest := fun _ => rfl
      mask := rfl
      pending := rfl
      unread := rfl
      samplingMetadata := ⟨_, rfl⟩ }
  autoregressive := h
  phase := rfl
  requests := fun _ => rfl
  written := fun _ => rfl

end PersistentBatch

end VllmAscend
