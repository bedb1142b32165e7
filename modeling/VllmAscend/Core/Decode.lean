import VllmAscend.Core.PrefillMoves

/-!
# Core/Decode — the decode loop of `schedule()` and its preemptions

    running = done ++ [request] ++ later
                                 └──── allocation refused: running.pop() ──▸ waiting[0], PREEMPTED

The loop walks `running` by index and gives each request its next token and drafts.  While the
blocks are refused, the last running request is preempted, down to the request itself.
`preemptLoop_eq_ok` says what the inner loop can do, `decodeBody_eq_ok` what a round can.
-/

namespace VllmAscend

open Machinery

variable {σ κ M : Type}

/-- The drafts that are scheduled with the request's next token. -/
def Frame.scheduleSpecTokens (fr : Frame σ κ) (id : ReqId) (numNewTokens : ℤ) : Frame σ κ :=
  let r := fr.obj id
  if r.specTokenIds = [] then fr
  else
    let numScheduledSpecTokens := numNewTokens + r.numComputedTokens - r.numTokens
    if 0 < numScheduledSpecTokens then
      let specTokenIds := r.specTokenIds.take numScheduledSpecTokens.toNat
      { fr with
        obj := updateObj fr.obj id fun r => { r with specTokenIds := specTokenIds }
        scheduledSpecDecodeTokens := fr.scheduledSpecDecodeTokens.insert id specTokenIds }
    else fr

namespace AscendScheduler

variable (self : AscendScheduler σ κ M)

/-- The tokens to give the request: the next one and its drafts, within the budget, the model
length and the number of adapters. -/
def decodeNumNewTokens (fr : Frame σ κ) (r : Request) : ℤ :=
  let numNewTokens : ℤ := r.numTokensWithSpec - r.numComputedTokens
  let numNewTokens := min numNewTokens fr.tokenBudget
  let numNewTokens := min numNewTokens (self.maxModelLen - r.numComputedTokens)
  if self.exceedsMaxLoras fr.scheduledLoras r then 0 else numNewTokens

/-- The blocks `allocate_slots` is asked for in the decode loop. -/
def decodeAllocArgs (numNewTokens : ℤ) : AllocArgs where
  numNewTokens := numNewTokens
  numNewComputedTokens := 0
  newComputedBlocks := none
  numLookaheadTokens := self.numLookaheadTokens
  delayCacheBlocks := false

/-- The preemption of the last running request, popped off the list. -/
def preempt (fr : Frame σ κ) (id : ReqId) : Frame σ κ :=
  { fr with
    running := fr.running.dropLast
    kv := self.kvCacheManager.free fr.kv id
    obj := updateObj fr.obj id fun r => { r with status := .preempted, numComputedTokens := 0 }
    waiting := id :: fr.waiting
    preemptedReqs := fr.preemptedReqs ++ [id] }

/-- One round of the inner `while True`, on the frame and `new_blocks`; `none` is
`can_schedule = False`. -/
def preemptBody (id : ReqId) (numNewTokens : ℤ) (st : Frame σ κ × Option KVCacheBlocks) :
    Except Fault (Pass (Frame σ κ × Option KVCacheBlocks)) :=
  let fr := st.1
  match self.kvCacheManager.allocateSlots fr.kv id (fr.obj id)
      (self.decodeAllocArgs numNewTokens) with
  | (kv, some newBlocks) => .ok (.leave ({ fr with kv := kv }, some newBlocks))
  | (kv, none) =>
    match fr.running.getLast? with
    | none => .error .popFromEmpty
    | some preemptedReq =>
      let fr := self.preempt { fr with kv := kv } preemptedReq
      if preemptedReq = id then .ok (.leave (fr, none)) else .ok (.again (fr, none))

/-- Schedule the request. -/
def scheduleRunning (fr : Frame σ κ) (id : ReqId) (numNewTokens : ℤ) (newBlocks : KVCacheBlocks) :
    Frame σ κ :=
  let fr := { fr with
    scheduledRunningReqs := fr.scheduledRunningReqs ++ [id]
    scheduledReqIds := insert id fr.scheduledReqIds
    reqToNewBlockIds := fr.reqToNewBlockIds.insert id newBlocks.getBlockIds
    numScheduledTokens := fr.numScheduledTokens.insert id numNewTokens
    tokenBudget := fr.tokenBudget - numNewTokens
    reqIndex := fr.reqIndex + 1 }
  let fr := fr.scheduleSpecTokens id numNewTokens
  { fr with scheduledLoras := self.recordLora fr.scheduledLoras (fr.obj id) }

/-- One round of `while req_index < len(self.running) and token_budget > 0`. -/
def decodeBody (fr : Frame σ κ) : Except Fault (Pass (Frame σ κ)) :=
  match fr.running[fr.reqIndex]? with
  | none => .ok (.leave fr)
  | some id =>
    if fr.tokenBudget ≤ 0 then .ok (.leave fr)
    else if id ∈ fr.scheduledReqIds then .ok (.again { fr with reqIndex := fr.reqIndex + 1 })
    else
      let r := fr.obj id
      if r.numTokens - r.numComputedTokens ≠ 1 then .error .decodeReady
      else
        let numNewTokens := self.decodeNumNewTokens fr r
        if numNewTokens = 0 then .ok (.again { fr with reqIndex := fr.reqIndex + 1 })
        else
          match whileLoop .outOfRounds (self.preemptBody id numNewTokens) (fr.running.length + 1)
              (fr, none) with
          | .error e => .error e
          | .ok (fr, none) => .ok (.leave fr)
          | .ok (fr, some newBlocks) =>
            .ok (.again (self.scheduleRunning fr id numNewTokens newBlocks))

/-! ## The preemption loop -/

variable {self} {fr fr' : Frame σ κ} {id : ReqId} {n : ℤ}

/-- `victims`, in their order in `running`, went from its end to the front of `waiting`. -/
structure Evicted (fr fr' : Frame σ κ) (victims : List ReqId) : Prop where
  running : fr.running = fr'.running ++ victims
  waiting : fr'.waiting = victims ++ fr.waiting
  preemptedReqs : fr'.preemptedReqs = fr.preemptedReqs ++ victims.reverse
  victim : ∀ v ∈ victims, fr'.obj v =
    { fr.obj v with status := .preempted, numComputedTokens := 0 }
  other : ∀ v, v ∉ victims → fr'.obj v = fr.obj v
  frame : fr' = { fr with
    running := fr'.running, waiting := fr'.waiting, preemptedReqs := fr'.preemptedReqs
    obj := fr'.obj, kv := fr'.kv }

theorem Evicted.refl (fr : Frame σ κ) : Evicted fr fr [] :=
  ⟨by simp, rfl, by simp, by simp, fun _ _ => rfl, rfl⟩

/-- One more victim. -/
theorem Evicted.preempt {fr₁ : Frame σ κ} {victims : List ReqId} {v : ReqId} {kv : σ}
    (h : Evicted fr fr₁ victims) (hlast : fr₁.running.getLast? = some v) :
    Evicted fr (self.preempt { fr₁ with kv := kv } v) (v :: victims) := by
  have hrunning : fr₁.running = fr₁.running.dropLast ++ [v] :=
    (List.dropLast_append_getLast? v (by rw [hlast]; rfl)).symm
  refine ⟨?_, ?_, ?_, ?_, ?_, ?_⟩
  · rw [h.running, hrunning]
    simp [AscendScheduler.preempt]
  · simp [AscendScheduler.preempt, h.waiting]
  · simp [AscendScheduler.preempt, h.preemptedReqs]
  · intro w hw
    by_cases hwv : w = v
    · subst hwv
      simp only [AscendScheduler.preempt, updateObj_self]
      by_cases hmem : w ∈ victims
      · rw [h.victim w hmem]
      · rw [h.other w hmem]
    · simp only [AscendScheduler.preempt]
      rw [updateObj_of_ne hwv]
      exact h.victim w ((List.mem_cons.mp hw).resolve_left hwv)
  · intro w hw
    simp only [List.mem_cons, not_or] at hw
    simp only [AscendScheduler.preempt]
    rw [updateObj_of_ne hw.1]
    exact h.other w hw.2
  · rw [h.frame]
    rfl

/-- A refused allocation that goes on preempted a request other than the one being scheduled. -/
theorem preemptBody_again {st st' : Frame σ κ × Option KVCacheBlocks}
    (h : self.preemptBody id n st = .ok (.again st')) :
    ∃ kv v, self.kvCacheManager.allocateSlots st.1.kv id (st.1.obj id) (self.decodeAllocArgs n)
        = (kv, none) ∧ st.1.running.getLast? = some v ∧ v ≠ id ∧
      st' = (self.preempt { st.1 with kv := kv } v, none) := by
  unfold preemptBody at h
  simp only at h
  split at h
  · cases h
  next kv halloc =>
    split at h
    · contradiction
    next v hlast =>
      split at h
      · cases h
      next hv =>
        cases h
        exact ⟨kv, v, halloc, hlast, hv, rfl⟩

/-- The inner loop ends with the blocks, or with the preemption of the request itself. -/
theorem preemptBody_leave {st st' : Frame σ κ × Option KVCacheBlocks}
    (h : self.preemptBody id n st = .ok (.leave st')) :
    (∃ kv newBlocks, self.kvCacheManager.allocateSlots st.1.kv id (st.1.obj id)
        (self.decodeAllocArgs n) = (kv, some newBlocks) ∧
      st' = ({ st.1 with kv := kv }, some newBlocks)) ∨
    (∃ kv, self.kvCacheManager.allocateSlots st.1.kv id (st.1.obj id)
        (self.decodeAllocArgs n) = (kv, none) ∧ st.1.running.getLast? = some id ∧
      st' = (self.preempt { st.1 with kv := kv } id, none)) := by
  unfold preemptBody at h
  simp only at h
  split at h
  · next kv newBlocks halloc =>
    cases h
    exact Or.inl ⟨kv, newBlocks, halloc, rfl⟩
  next kv halloc =>
    split at h
    · contradiction
    next v hlast =>
      split at h
      · next hv =>
        cases h
        subst hv
        exact Or.inr ⟨kv, halloc, hlast, rfl⟩
      · cases h

/-- Nothing but an empty running list makes a round of the inner loop raise. -/
theorem preemptBody_error {st : Frame σ κ × Option KVCacheBlocks} {e : Fault}
    (h : self.preemptBody id n st = .error e) : e = .popFromEmpty ∧ st.1.running = [] := by
  unfold preemptBody at h
  simp only at h
  split at h
  · contradiction
  · split at h
    · next hlast =>
      cases h
      exact ⟨rfl, List.getLast?_eq_none_iff.mp hlast⟩
    · split at h <;> contradiction

/-- The rounds of the inner loop evict requests other than the one being scheduled. -/
theorem preempt_rounds {st : Frame σ κ × Option KVCacheBlocks}
    (h : Rounds (self.preemptBody id n) (fr, none) st) :
    ∃ victims, id ∉ victims ∧ Evicted fr st.1 victims := by
  refine h.invariant (I := fun st => ∃ victims, id ∉ victims ∧ Evicted fr st.1 victims) ?_
    ⟨[], by simp, .refl fr⟩
  rintro st st' ⟨victims, hid, hev⟩ hround
  obtain ⟨kv, v, _, hlast, hv, rfl⟩ := preemptBody_again hround
  exact ⟨v :: victims, by simp [hid, Ne.symm hv], hev.preempt hlast⟩

/-- **The inner loop**: some of the last running requests are preempted; when it hands out blocks
the request is not one of them, else it is the last. -/
theorem preemptLoop_eq_ok {fuel : ℕ} {newBlocks : Option KVCacheBlocks}
    (h : whileLoop .outOfRounds (self.preemptBody id n) fuel (fr, none) = .ok (fr', newBlocks)) :
    ∃ victims, Evicted fr fr' victims ∧ (newBlocks.isSome → id ∉ victims) ∧
      (newBlocks = none → ∃ later, victims = id :: later) := by
  obtain ⟨⟨fr₁, _⟩, hrounds, hleave⟩ := whileLoop_eq_ok h
  obtain ⟨victims, hid, hev⟩ := preempt_rounds hrounds
  obtain ⟨kv, nb, _, heq⟩ | ⟨kv, _, hlast, heq⟩ := preemptBody_leave hleave
  · cases heq
    exact ⟨victims, ⟨hev.1, hev.2, hev.3, hev.4, hev.5, by rw [hev.frame]⟩, fun _ => hid,
      fun hnone => nomatch hnone⟩
  · cases heq
    exact ⟨id :: victims, hev.preempt hlast, by simp, fun _ => ⟨victims, rfl⟩⟩

/-- A request that is running can always be preempted, so the inner loop does not raise. -/
theorem preemptLoop_ne_error (hid : id ∈ fr.running) {e : Fault} :
    whileLoop .outOfRounds (self.preemptBody id n) (fr.running.length + 1) (fr, none)
      ≠ .error e := by
  intro h
  obtain rfl | ⟨st, hrounds, herr⟩ := whileLoop_eq_error h
  · refine whileLoop_ne_exhausted (fun st : Frame σ κ × Option KVCacheBlocks => st.1.running.length)
      ?_ ?_ (Nat.lt_succ_self _) h
    · intro st st' hround
      obtain ⟨kv, v, _, hlast, _, rfl⟩ := preemptBody_again hround
      have hne : st.1.running ≠ [] := fun h => by simp [h] at hlast
      have hpos := List.length_pos_iff.mpr hne
      simp only [AscendScheduler.preempt, List.length_dropLast]
      omega
    · intro st hst
      exact absurd (preemptBody_error hst).1 (by decide)
  · obtain ⟨victims, hvictim, hev⟩ := preempt_rounds hrounds
    have hmem : id ∈ st.1.running ++ victims := hev.running ▸ hid
    rw [(preemptBody_error herr).2, List.nil_append] at hmem
    exact hvictim hmem

/-! ## Scheduling a running request -/

/-- Trimming the drafts touches the request's drafts and their record, and nothing else. -/
theorem scheduleSpecTokens_frame (fr : Frame σ κ) (id : ReqId) (n : ℤ) :
    ∃ drafts spec, fr.scheduleSpecTokens id n =
        { fr with
          obj := updateObj fr.obj id fun r => { r with specTokenIds := drafts }
          scheduledSpecDecodeTokens := spec } ∧
      (∀ id' ≠ id, spec.lookup id' = fr.scheduledSpecDecodeTokens.lookup id') ∧
      (id ∉ fr.scheduledSpecDecodeTokens → 0 < n →
        (fr.obj id).numTokens - (fr.obj id).numComputedTokens = 1 →
        n ≤ (fr.obj id).specTokenIds.length + 1 → (numSpecTokens spec id : ℤ) = n - 1) := by
  have unchanged : ({ fr with
      obj := updateObj fr.obj id fun r => { r with specTokenIds := (fr.obj id).specTokenIds } } :
      Frame σ κ) = fr := by simp [updateObj]
  unfold Frame.scheduleSpecTokens
  simp only
  split
  · next hnil =>
    refine ⟨(fr.obj id).specTokenIds, fr.scheduledSpecDecodeTokens, unchanged.symm,
      fun _ _ => rfl, ?_⟩
    intro hnew hpos hready hle
    rw [hnil] at hle
    rw [numSpecTokens, AList.lookup_eq_none.mpr hnew]
    simp only [Option.getD_none, List.length_nil] at hle ⊢
    omega
  · split
    · next hk =>
      refine ⟨_, _, rfl, fun id' hid => AList.lookup_insert_ne hid, ?_⟩
      intro hnew hpos hready hle
      rw [numSpecTokens, AList.lookup_insert, Option.getD_some, List.length_take]
      omega
    · next hk =>
      refine ⟨(fr.obj id).specTokenIds, fr.scheduledSpecDecodeTokens, unchanged.symm,
        fun _ _ => rfl, ?_⟩
      intro hnew hpos hready hle
      rw [numSpecTokens, AList.lookup_eq_none.mpr hnew]
      simp only [Option.getD_none, List.length_nil]
      omega

/-- **Scheduling a running request** records it with its tokens, its blocks and its drafts. -/
theorem scheduleRunning_frame (self : AscendScheduler σ κ M) (fr : Frame σ κ) (id : ReqId) (n : ℤ)
    (newBlocks : KVCacheBlocks) :
    ∃ drafts spec, self.scheduleRunning fr id n newBlocks =
        { fr with
          scheduledRunningReqs := fr.scheduledRunningReqs ++ [id]
          scheduledReqIds := insert id fr.scheduledReqIds
          reqToNewBlockIds := fr.reqToNewBlockIds.insert id newBlocks.getBlockIds
          numScheduledTokens := fr.numScheduledTokens.insert id n
          tokenBudget := fr.tokenBudget - n
          reqIndex := fr.reqIndex + 1
          obj := updateObj fr.obj id fun r => { r with specTokenIds := drafts }
          scheduledSpecDecodeTokens := spec
          scheduledLoras := self.recordLora fr.scheduledLoras (fr.obj id) } ∧
      (∀ id' ≠ id, spec.lookup id' = fr.scheduledSpecDecodeTokens.lookup id') ∧
      (id ∉ fr.scheduledSpecDecodeTokens → 0 < n →
        (fr.obj id).numTokens - (fr.obj id).numComputedTokens = 1 →
        n ≤ (fr.obj id).specTokenIds.length + 1 → (numSpecTokens spec id : ℤ) = n - 1) := by
  obtain ⟨drafts, spec, hframe, hspec⟩ := scheduleSpecTokens_frame { fr with
    scheduledRunningReqs := fr.scheduledRunningReqs ++ [id]
    scheduledReqIds := insert id fr.scheduledReqIds
    reqToNewBlockIds := fr.reqToNewBlockIds.insert id newBlocks.getBlockIds
    numScheduledTokens := fr.numScheduledTokens.insert id n
    tokenBudget := fr.tokenBudget - n
    reqIndex := fr.reqIndex + 1 } id n
  refine ⟨drafts, spec, ?_, hspec⟩
  simp only [scheduleRunning, hframe, updateObj_self]
  rfl

/-! ## A round of the decode loop -/

/-- What a scheduled request is given, beside its blocks: `k` drafts and one more token. -/
structure Decoded (A : AscendScheduler σ κ M) (fr : Frame σ κ) (id : ReqId) (n : ℤ) : Prop where
  at_index : fr.running[fr.reqIndex]? = some id
  budget : 0 < fr.tokenBudget
  unscheduled : id ∉ fr.scheduledReqIds
  ready : (fr.obj id).numTokens - (fr.obj id).numComputedTokens = 1
  tokens : n = A.decodeNumNewTokens fr (fr.obj id)
  nonzero : n ≠ 0

/-- A round of the decode loop that goes on to the next request. -/
inductive DecodeRound (self : AscendScheduler σ κ M) (fr : Frame σ κ) : Frame σ κ → Prop where
  /-- already scheduled, or no tokens for it -/
  | pass {id : ReqId} (at_index : fr.running[fr.reqIndex]? = some id) :
    DecodeRound self fr { fr with reqIndex := fr.reqIndex + 1 }
  | scheduled {id : ReqId} {n : ℤ} {fr₁ : Frame σ κ} {newBlocks : KVCacheBlocks}
    (decoded : Decoded self fr id n)
    (loop : whileLoop .outOfRounds (self.preemptBody id n) (fr.running.length + 1) (fr, none)
      = .ok (fr₁, some newBlocks)) :
    DecodeRound self fr (self.scheduleRunning fr₁ id n newBlocks)

/-- The round that ends the decode loop. -/
inductive DecodeExit (self : AscendScheduler σ κ M) (fr : Frame σ κ) : Frame σ κ → Prop where
  | done : DecodeExit self fr fr
  /-- the request was preempted itself -/
  | preempted {id : ReqId} {n : ℤ} {fr₁ : Frame σ κ} (decoded : Decoded self fr id n)
    (loop : whileLoop .outOfRounds (self.preemptBody id n) (fr.running.length + 1) (fr, none)
      = .ok (fr₁, none)) :
    DecodeExit self fr fr₁

/-- **The decode loop, one round at a time.** -/
theorem decodeBody_eq_ok {p : Pass (Frame σ κ)} (h : self.decodeBody fr = .ok p) :
    (∃ fr', p = .leave fr' ∧ DecodeExit self fr fr') ∨
      ∃ fr', p = .again fr' ∧ DecodeRound self fr fr' := by
  unfold decodeBody at h
  split at h
  · cases h
    exact Or.inl ⟨_, rfl, .done⟩
  next id hindex =>
    split at h
    · cases h
      exact Or.inl ⟨_, rfl, .done⟩
    next hbudget =>
      split at h
      · cases h
        exact Or.inr ⟨_, rfl, .pass hindex⟩
      next hunscheduled =>
        simp only at h
        split at h
        · contradiction
        next hready =>
          split at h
          · cases h
            exact Or.inr ⟨_, rfl, .pass hindex⟩
          next hnonzero =>
            have decoded : Decoded self fr id (self.decodeNumNewTokens fr (fr.obj id)) :=
              ⟨hindex, by omega, hunscheduled, by omega, rfl, hnonzero⟩
            split at h
            · contradiction
            · next hloop =>
              cases h
              exact Or.inl ⟨_, rfl, .preempted decoded hloop⟩
            · next hloop =>
              cases h
              exact Or.inr ⟨_, rfl, .scheduled decoded hloop⟩

theorem decodeBody_leave {fr' : Frame σ κ} (h : self.decodeBody fr = .ok (.leave fr')) :
    DecodeExit self fr fr' := by
  obtain ⟨_, hp, hexit⟩ | ⟨_, hp, _⟩ := decodeBody_eq_ok h
  · cases hp
    exact hexit
  · contradiction

theorem decodeBody_again {fr' : Frame σ κ} (h : self.decodeBody fr = .ok (.again fr')) :
    DecodeRound self fr fr' := by
  obtain ⟨_, hp, _⟩ | ⟨_, hp, hround⟩ := decodeBody_eq_ok h
  · contradiction
  · cases hp
    exact hround

/-- **Only the readiness assertion makes a round of the decode loop raise.** -/
theorem decodeBody_error {e : Fault} (h : self.decodeBody fr = .error e) :
    e = .decodeReady ∧ ∃ id, fr.running[fr.reqIndex]? = some id ∧ id ∉ fr.scheduledReqIds ∧
      (fr.obj id).numTokens - (fr.obj id).numComputedTokens ≠ 1 := by
  unfold decodeBody at h
  split at h
  · contradiction
  next id hindex =>
    split at h
    · contradiction
    split at h
    · contradiction
    next hunscheduled =>
      simp only at h
      split at h
      · next hready =>
        cases h
        exact ⟨rfl, id, hindex, hunscheduled, hready⟩
      split at h
      · contradiction
      split at h
      · next hloop =>
        exact absurd hloop (preemptLoop_ne_error (List.mem_of_getElem? hindex))
      · contradiction
      · contradiction

end AscendScheduler

end VllmAscend
