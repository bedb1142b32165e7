import VllmAscend.Core.Handover
import VllmAscend.Core.BlockPool

/-!
# Core/Blocks — the KV blocks of the requests over one call

    held(id) ──get_computed_blocks, allocate_slots──▸ held(id) ++ computed ++ new
                                                                              └──▸ recorded

`allocate_slots` returns the new blocks only.  On one version branch the prefill loop records them
as they are, so what it records are all the blocks of the request exactly when there is nothing in
front of them: `HasBlocks` is the other case.  The decode loop records what is new on both branches.
-/

namespace VllmAscend

open Machinery

variable {σ κ M : Type}

/-! ## Lists of blocks, group by group -/

/-- The blocks of a request with new ones at their ends. -/
def appendBlockIds (b c : List (List BlockId)) : List (List BlockId) := List.zipWith (· ++ ·) b c

/-- No group has a block. -/
def NoBlocks (b : List (List BlockId)) : Prop := ∀ group ∈ b, group = []

theorem appendBlockIds_noBlocks : ∀ {b c : List (List BlockId)}, b.length = c.length →
    NoBlocks c → appendBlockIds b c = b
  | [], [], _, _ => rfl
  | g :: b, h :: c, hlen, hc => by
    have htail := appendBlockIds_noBlocks (Nat.succ.inj hlen) fun x hx => hc x (.tail _ hx)
    rw [appendBlockIds] at htail ⊢
    rw [List.zipWith_cons_cons, htail, hc h (.head _), List.append_nil]

theorem noBlocks_appendBlockIds : ∀ {b c : List (List BlockId)}, b.length = c.length →
    NoBlocks b → appendBlockIds b c = c
  | [], [], _, _ => rfl
  | g :: b, h :: c, hlen, hb => by
    have htail := noBlocks_appendBlockIds (Nat.succ.inj hlen) fun x hx => hb x (.tail _ hx)
    rw [appendBlockIds] at htail ⊢
    rw [List.zipWith_cons_cons, htail, hb g (.head _), List.nil_append]

@[simp] theorem KVCacheBlocks.length_getBlockIds (b : KVCacheBlocks) :
    b.getBlockIds.length = b.length := List.length_map _

namespace AscendScheduler

/-- The blocks the KV cache manager holds for a request. -/
abbrev held (A : AscendScheduler σ κ M) (kv : σ) (id : ReqId) : List (List BlockId) :=
  A.kvCacheManager.getBlockIds kv id

/-- What the KV cache manager, with some number of KV cache groups, and the inherited methods are
documented to do to the blocks of the requests. -/
structure BlockLaws (A : AscendScheduler σ κ M) (groups : ℕ) : Prop where
  held_length : ∀ kv id, (A.held kv id).length = groups
  empty : NoBlocks A.kvCacheManager.createEmptyBlockList.getBlockIds ∧
    A.kvCacheManager.createEmptyBlockList.length = groups
  computed : ∀ kv id r, (A.kvCacheManager.getComputedBlocks kv id r).2.1.length = groups ∧
    ∀ id', A.held (A.kvCacheManager.getComputedBlocks kv id r).1 id' = A.held kv id'
  remote : ∀ kv id r id', A.held (A.super.updateWaitingForRemoteKv kv id r).1 id' = A.held kv id'
  refused : ∀ kv id r args kv', A.kvCacheManager.allocateSlots kv id r args = (kv', none) →
    ∀ id', A.held kv' id' = A.held kv id'
  /-- the request gets the blocks it is given of the prefix cache, then the new ones, and these are
  returned -/
  allocated : ∀ kv id r args kv' new,
    A.kvCacheManager.allocateSlots kv id r args = (kv', some new) →
      (∀ b, args.newComputedBlocks = some b → b.length = groups) →
      new.length = groups ∧ A.held kv' id = appendBlockIds
        (match args.newComputedBlocks with
          | none => A.held kv id
          | some b => appendBlockIds (A.held kv id) b.getBlockIds) new.getBlockIds
  others : ∀ kv id r args kv' new,
    A.kvCacheManager.allocateSlots kv id r args = (kv', new) →
      ∀ id', id' ≠ id → A.held kv' id' = A.held kv id'
  free : ∀ kv id id', id' ≠ id → A.held (A.kvCacheManager.free kv id) id' = A.held kv id'
  /-- only the blocks of a finished request are freed, and its id is then among the finished -/
  finish : ∀ s (ids : RequestIds) status,
    (∀ id, id ∉ ids.named.toFinset ∩ s.requests →
      A.held (A.super.finishRequests s ids status).kv id = A.held s.kv id) ∧
    (A.super.finishRequests s ids status).finishedReqIds ⊆
      s.finishedReqIds ∪ (ids.named.toFinset ∩ s.requests)
  update : ∀ s out res, ∀ id ∈ (A.super.updateFromOutput s out res).waiting ++
      (A.super.updateFromOutput s out res).running,
    A.held (A.super.updateFromOutput s out res).kv id = A.held s.kv id ∧
      (id ∈ (A.super.updateFromOutput s out res).finishedReqIds → id ∈ s.finishedReqIds)

variable {A : AscendScheduler σ κ M} {groups : ℕ} {s : SchedulerState σ κ}
  {fr₀ fr fr₁ fr' : Frame σ κ} {id : ReqId}

/-! ## The prefill loop -/

/-- The request has blocks before `allocate_slots` is called: its own, or some of the prefix
cache. -/
def HasBlocks (A : AscendScheduler σ κ M) (kv : σ) (id : ReqId) (c : ComputedTokens) : Prop :=
  ¬NoBlocks (A.held kv id) ∨ ¬NoBlocks c.newComputedBlocks.getBlockIds

/-- Some round of the prefill loop admits a request that has blocks before. -/
def AdmitsWithBlocks (A : AscendScheduler σ κ M) (s : SchedulerState σ κ) : Prop :=
  ∃ fr id rest fr₁ c fr', Rounds A.prefillBody (A.start s) fr ∧ fr.waiting = id :: rest ∧
    Looked A fr id fr₁ c ∧ A.prefillBody fr = .ok (.again fr') ∧
    fr'.running = fr.running ++ [id] ∧ HasBlocks A fr₁.kv id c

/-- The blocks recorded for an admitted request are all it has. -/
def RecordsAll (A : AscendScheduler σ κ M) (s : SchedulerState σ κ) : Prop :=
  A.vllmVersionIs01011 = true ∨ ¬A.AdmitsWithBlocks s

/-- Awaiting the remote KVs touches no blocks. -/
theorem awaitRemoteKv_held (laws : A.BlockLaws groups) (fr : Frame σ κ) (id id' : ReqId) :
    A.held (A.awaitRemoteKv fr id).1.kv id' = A.held fr.kv id' := by
  have hremote := laws.remote fr.kv id (fr.obj id) id'
  unfold awaitRemoteKv
  split
  · split
    · next heq =>
      rw [heq] at hremote
      exact hremote
    · next heq =>
      rw [heq] at hremote
      exact hremote
  · rfl

/-- Looking at a request touches no blocks. -/
theorem Looked.held {c : ComputedTokens} (laws : A.BlockLaws groups)
    (h : Looked A fr id fr₁ c) :
    c.newComputedBlocks.length = groups ∧ ∀ id', A.held fr₁.kv id' = A.held fr.kv id' := by
  have hawait := awaitRemoteKv_held laws fr id
  have hcomputed := h.computed
  generalize (A.awaitRemoteKv fr id).1 = fr₂ at hawait hcomputed
  generalize fr₁.kv = kv₁, fr₁.conn = conn₁ at hcomputed ⊢
  obtain ⟨hlen, hsame⟩ := laws.computed fr₂.kv id (fr₂.obj id)
  simp only [getComputed] at hcomputed
  split at hcomputed
  · split at hcomputed
    · cases hcomputed
      exact ⟨hlen, fun id' => (hsame id').trans (hawait id')⟩
    · split at hcomputed
      · contradiction
      · cases hcomputed
        exact ⟨hlen, fun id' => (hsame id').trans (hawait id')⟩
  · cases hcomputed
    exact ⟨laws.empty.2, hawait⟩

/-- A request that was looked at and gets its blocks: the others keep theirs, and it has its own,
then those of the prefix cache, then the new ones. -/
theorem Looked.allocated {c : ComputedTokens} {n : ℤ} {kv : σ} {newBlocks : KVCacheBlocks}
    (laws : A.BlockLaws groups) (h : Looked A fr id fr₁ c)
    (alloc : A.kvCacheManager.allocateSlots fr₁.kv id (fr₁.obj id) (A.prefillAllocArgs c n)
      = (kv, some newBlocks)) :
    (∀ id', id' ≠ id → A.held kv id' = A.held fr.kv id') ∧ newBlocks.length = groups ∧
      A.held kv id = appendBlockIds
        (appendBlockIds (A.held fr₁.kv id) c.newComputedBlocks.getBlockIds)
        newBlocks.getBlockIds := by
  obtain ⟨hlen, hsame⟩ := h.held laws
  obtain ⟨hnew, hheld⟩ := laws.allocated _ _ _ _ _ _ alloc fun b hb => by
    cases hb
    exact hlen
  exact ⟨fun id' hne => (laws.others _ _ _ _ _ _ alloc id' hne).trans (hsame id'), hnew, hheld⟩

/-- The connector is told of the blocks, and does not change them. -/
theorem notifyConnector_kv {c : ComputedTokens} {newBlocks : KVCacheBlocks}
    (h : A.notifyConnector fr id c newBlocks = .ok fr') :
    fr'.kv = fr.kv ∧ fr'.running = fr.running ∧ fr'.reqToNewBlockIds = fr.reqToNewBlockIds := by
  obtain ⟨_, _, rfl⟩ := notifyConnector_frame h
  exact ⟨rfl, rfl, rfl⟩

/-- **One round of the prefill loop** changes the blocks of the request it looks at only, and when
it admits the request it records all of them, unless it had some before. -/
theorem PrefillRound.blocks (laws : A.BlockLaws groups) (h : PrefillRound A fr id fr')
    (hfresh : A.vllmVersionIs01011 = true ∨ (fr'.running = fr.running ++ [id] →
      ∀ fr₁ c, Looked A fr id fr₁ c → ¬HasBlocks A fr₁.kv id c)) :
    (∀ id', id' ≠ id → A.held fr'.kv id' = A.held fr.kv id') ∧
      (fr'.running = fr.running ∧ fr'.reqToNewBlockIds = fr.reqToNewBlockIds ∨
        fr'.running = fr.running ++ [id] ∧
          fr'.reqToNewBlockIds = fr.reqToNewBlockIds.insert id (A.held fr'.kv id)) := by
  cases h with
  | held =>
    obtain ⟨kv, r, hframe, _⟩ := awaitRemoteKv_frame A fr id
    refine ⟨fun id' _ => awaitRemoteKv_held laws fr id id', Or.inl ?_⟩
    rw [hframe]
    exact ⟨rfl, rfl⟩
  | skip looked =>
    obtain ⟨r, hframe, _⟩ := looked.frame_eq
    exact ⟨fun id' _ => (looked.held laws).2 id', Or.inl (by rw [hframe]; exact ⟨rfl, rfl⟩)⟩
  | ignore looked verdict =>
    obtain ⟨r, hframe, _⟩ := looked.frame_eq
    exact ⟨fun id' _ => (looked.held laws).2 id', Or.inl (by rw [hframe]; exact ⟨rfl, rfl⟩)⟩
  | park looked alloc notify async =>
    obtain ⟨r, hframe, _⟩ := looked.frame_eq
    obtain ⟨hothers, _, _⟩ := looked.allocated laws alloc
    obtain ⟨hkv, hrunning, hrecorded⟩ := notifyConnector_kv notify
    refine ⟨fun id' hne => ?_, Or.inl ⟨hrunning.trans ?_, hrecorded.trans ?_⟩⟩
    · rw [Frame.park, hkv]
      exact hothers id' hne
    · rw [hframe]
    · rw [hframe]
  | @admitted fr₁ fr₂ fr₃ c n _ kv newBlocks looked verdict watermark alloc notify sync admitted =>
    obtain ⟨r, hframe, _⟩ := looked.frame_eq
    obtain ⟨hothers, hnew, hheld⟩ := looked.allocated laws alloc
    obtain ⟨hkv, hrunning, hrecorded⟩ := notifyConnector_kv notify
    obtain ⟨_, _, _, hadm⟩ := admitRequest_frame admitted
    have hrunning₁ : fr₁.running = fr.running := by rw [hframe]
    have hrecorded₁ : fr₁.reqToNewBlockIds = fr.reqToNewBlockIds := by rw [hframe]
    have hrunning' : fr'.running = fr.running ++ [id] := by
      rw [hadm]
      simp [recordAdmitted, hrunning, hrunning₁]
    have hkv' : fr'.kv = kv := by
      rw [hadm]
      exact hkv
    rw [hkv']
    refine ⟨hothers, Or.inr ⟨hrunning', ?_⟩⟩
    rw [hadm]
    simp only [recordAdmitted, hkv, hrecorded, hrecorded₁]
    congr 1
    obtain hversion | hfresh := hfresh
    · rw [if_pos hversion]
    · split
      · rfl
      · -- nothing is in front of the new blocks
        have hnone := hfresh hrunning' fr₁ c looked
        simp only [HasBlocks, not_or, not_not] at hnone
        obtain ⟨hlen, _⟩ := looked.held laws
        have hlen₁ := laws.held_length fr₁.kv id
        rw [hheld, noBlocks_appendBlockIds (b := A.held fr₁.kv id) (by simp [hlen, hlen₁]) hnone.1,
          noBlocks_appendBlockIds (by simp [hlen, hnew]) hnone.2]

/-- The blocks after some rounds of the prefill loop. -/
structure PrefillBlocks (A : AscendScheduler σ κ M) (s : SchedulerState σ κ) (fr : Frame σ κ) :
    Prop where
  running : ∀ id ∈ s.running, A.held fr.kv id = A.held s.kv id
  admitted : ∀ id ∈ fr.running, id ∉ s.running →
    fr.reqToNewBlockIds.lookup id = some (A.held fr.kv id)

/-- The request at the head of the queue is in neither running list. -/
theorem PrefillQueues.head_not_running {rest : List ReqId} {fates : List (ReqId × Fate)}
    (hnodup : (s.waiting ++ s.running).Nodup) (h : PrefillQueues s fates fr)
    (head : fr.waiting = id :: rest) : id ∉ s.running ∧ id ∉ fr.running := by
  obtain ⟨hwaiting, _, hdisjoint⟩ := List.nodup_append.mp hnodup
  have hid : id ∈ s.waiting := by
    rw [h.waiting, head]
    simp
  have hnot : id ∉ s.running := fun hr => hdisjoint id hid id hr rfl
  refine ⟨hnot, ?_⟩
  rw [h.running, List.mem_append, not_or]
  refine ⟨hnot, fun ha => ?_⟩
  rw [h.waiting, head, List.nodup_append] at hwaiting
  exact hwaiting.2.2 id ((withFate_sublist _ _).subset ha) id (.head _) rfl

/-- One more round. -/
theorem PrefillBlocks.again {fates : List (ReqId × Fate)} (laws : A.BlockLaws groups)
    (hnodup : (s.waiting ++ s.running).Nodup) (hall : A.RecordsAll s)
    (hphase : PrefillPhase A s fates fr) (h : PrefillBlocks A s fr)
    (hround : A.prefillBody fr = .ok (.again fr')) : PrefillBlocks A s fr' := by
  obtain ⟨id, rest, head, _, _, hr⟩ := prefillBody_again hround
  obtain ⟨hnot, hnot'⟩ := hphase.queues.head_not_running hnodup head
  obtain ⟨hothers, hrecords⟩ := hr.blocks laws <| hall.imp_right fun hadmits hrunning fr₁ c looked
    hhas => hadmits ⟨fr, id, rest, fr₁, c, fr', hphase.rounds, head, looked, hround, hrunning, hhas⟩
  have hne : ∀ {id'}, id' ∈ fr.running → id' ≠ id := fun hid' heq => hnot' (heq ▸ hid')
  refine ⟨fun id' hid' => ?_, fun id' hid' hnew => ?_⟩
  · have hne' : id' ≠ id := fun heq => hnot (heq ▸ hid')
    exact (hothers id' hne').trans (h.running id' hid')
  · obtain ⟨hrunning, hrecorded⟩ | ⟨hrunning, hrecorded⟩ := hrecords
    · rw [hrunning] at hid'
      rw [hrecorded, hothers id' (hne hid')]
      exact h.admitted id' hid' hnew
    · rw [hrunning, List.mem_append, List.mem_singleton] at hid'
      rw [hrecorded]
      obtain hid' | rfl := hid'
      · rw [AList.lookup_insert_ne (hne hid'), hothers id' (hne hid')]
        exact h.admitted id' hid' hnew
      · exact AList.lookup_insert _

/-- **The prefill loop** leaves the running requests their blocks, and records those of the requests
it admits. -/
theorem prefillPhase_blocks (laws : A.BlockLaws groups)
    (hnodup : (s.waiting ++ s.running).Nodup) (hall : A.RecordsAll s)
    (h : A.prefillPhase s = .ok fr') : PrefillBlocks A s fr' := by
  have hwaiting := (List.nodup_append.mp hnodup).1
  obtain ⟨fr, hrounds, hleave⟩ := whileLoop_eq_ok h
  obtain ⟨fates, _, hblocks⟩ := hrounds.invariant
    (I := fun fr => ∃ fates, PrefillPhase A s fates fr ∧ PrefillBlocks A s fr)
    (by
      rintro fr fr' ⟨fates, hphase, hblocks⟩ hround
      obtain ⟨id, f, hphase'⟩ := hphase.again hwaiting hround
      exact ⟨_, hphase', hblocks.again laws hnodup hall hphase hround⟩)
    ⟨[], ⟨.refl, .start s, .start s, .start s, fun hne => absurd rfl hne⟩,
      fun _ _ => rfl, fun id hid hnew => absurd hid hnew⟩
  cases prefillBody_leave hleave with
  | done => exact hblocks
  | @refused id rest fr₁ c n kv head looked alloc =>
    have hsame : ∀ id', A.held kv id' = A.held fr.kv id' := fun id' =>
      (laws.refused _ _ _ _ _ alloc id').trans ((looked.held laws).2 id')
    obtain ⟨r, hframe, _⟩ := looked.frame_eq
    have hrunning : fr₁.running = fr.running := by rw [hframe]
    have hrecorded : fr₁.reqToNewBlockIds = fr.reqToNewBlockIds := by rw [hframe]
    refine ⟨fun id' hid' => (hsame id').trans (hblocks.running id' hid'), fun id' hid' hnew => ?_⟩
    simp only [hrunning, hrecorded, hsame] at hid' ⊢
    exact hblocks.admitted id' hid' hnew

/-! ## The decode loop -/

/-- The blocks of one request's allocation: the others that stay running keep theirs, and the
request gets the new ones at the ends of its own. -/
theorem preemptLoop_held {fuel : ℕ} {n : ℤ} {newBlocks : Option KVCacheBlocks}
    (laws : A.BlockLaws groups) (hnodup : fr.running.Nodup)
    (h : whileLoop .outOfRounds (A.preemptBody id n) fuel (fr, none) = .ok (fr', newBlocks)) :
    (∀ id' ∈ fr'.running, id' ≠ id → A.held fr'.kv id' = A.held fr.kv id') ∧
      ∀ b, newBlocks = some b → b.length = groups ∧
        A.held fr'.kv id = appendBlockIds (A.held fr.kv id) b.getBlockIds := by
  obtain ⟨st, hrounds, hleave⟩ := whileLoop_eq_ok h
  -- no round touches the request, or one that is still running
  obtain ⟨_, hheld⟩ := hrounds.invariant
    (I := fun st => st.1.running.Nodup ∧
      ∀ id', id' ∈ st.1.running ∨ id' = id → A.held st.1.kv id' = A.held fr.kv id')
    (by
      rintro st st' ⟨hnodup, hheld⟩ hround
      obtain ⟨kv, v, halloc, hlast, hv, rfl⟩ := preemptBody_again hround
      have hrunning : st.1.running = st.1.running.dropLast ++ [v] :=
        (List.dropLast_append_getLast? v (by rw [hlast]; rfl)).symm
      have hsplit := hnodup
      rw [hrunning, List.nodup_append] at hsplit
      refine ⟨hsplit.1, fun id' hid' => ?_⟩
      have hne : id' ≠ v := by
        rintro rfl
        exact hid'.elim (fun hmem => hsplit.2.2 id' hmem id' (.head _) rfl) fun heq => hv heq
      have hmem : id' ∈ st.1.running ∨ id' = id := hid'.imp_left List.mem_of_mem_dropLast
      exact (laws.free _ _ id' hne).trans
        ((laws.refused _ _ _ _ _ halloc id').trans (hheld id' hmem)))
    ⟨hnodup, fun _ _ => rfl⟩
  obtain ⟨kv, b, halloc, heq⟩ | ⟨kv, halloc, _, heq⟩ := preemptBody_leave hleave
  · cases heq
    refine ⟨fun id' hid' hne => ?_, fun b' hb => ?_⟩
    · exact (laws.others _ _ _ _ _ _ halloc id' hne).trans (hheld id' (Or.inl hid'))
    · cases hb
      obtain ⟨hlen, hown⟩ := laws.allocated _ _ _ _ _ _ halloc fun _ hnone => nomatch hnone
      rw [← hheld id (Or.inr rfl)]
      exact ⟨hlen, hown⟩
  · cases heq
    refine ⟨fun id' hid' hne => ?_, fun _ hb => nomatch hb⟩
    exact (laws.free _ _ id' hne).trans ((laws.refused _ _ _ _ _ halloc id').trans
      (hheld id' (Or.inl (List.mem_of_mem_dropLast hid'))))

/-- The blocks after some rounds of the decode loop, begun at `fr₀`. -/
structure DecodeBlocks (A : AscendScheduler σ κ M) (groups : ℕ) (fr₀ fr : Frame σ κ) : Prop where
  passed : ∀ id ∈ fr.running, id ∉ fr.scheduledRunningReqs →
    A.held fr.kv id = A.held fr₀.kv id
  decoded : ∀ id ∈ fr.scheduledRunningReqs, ∃ b, fr.reqToNewBlockIds.lookup id = some b ∧
    b.length = groups ∧ A.held fr.kv id = appendBlockIds (A.held fr₀.kv id) b

/-- The victims of one request's allocation go, the others keep their blocks. -/
theorem DecodeBlocks.evict {vs : List ReqId} (h : DecodeBlocks A groups fr₀ fr)
    (hev : Evicted fr fr₁ vs) (hid : id ∉ fr.scheduledRunningReqs)
    (hstay : ∀ id' ∈ fr.scheduledRunningReqs, id' ∈ fr₁.running)
    (hheld : ∀ id' ∈ fr₁.running, id' ≠ id → A.held fr₁.kv id' = A.held fr.kv id') :
    (∀ id' ∈ fr₁.running, id' ≠ id → id' ∉ fr.scheduledRunningReqs →
      A.held fr₁.kv id' = A.held fr₀.kv id') ∧
    ∀ id' ∈ fr.scheduledRunningReqs, ∃ b, fr.reqToNewBlockIds.lookup id' = some b ∧
      b.length = groups ∧ A.held fr₁.kv id' = appendBlockIds (A.held fr₀.kv id') b := by
  refine ⟨fun id' hid' hne hnot => ?_, fun id' hid' => ?_⟩
  · rw [hheld id' hid' hne]
    refine h.passed id' ?_ hnot
    rw [hev.running]
    exact List.mem_append_left _ hid'
  · have hne : id' ≠ id := fun heq => hid (heq ▸ hid')
    rw [hheld id' (hstay id' hid') hne]
    exact h.decoded id' hid'

/-- One more round. -/
theorem DecodeBlocks.again {victims : List ReqId} (laws : A.BlockLaws groups)
    (hnodup : fr₀.running.Nodup) (hphase : DecodePhase A fr₀ victims fr)
    (h : DecodeBlocks A groups fr₀ fr) (hround : DecodeRound A fr fr') :
    DecodeBlocks A groups fr₀ fr' := by
  obtain ⟨vs, hphase'⟩ := hphase.again hnodup hround
  have hrun : fr.running.Nodup := by
    rw [hphase.running, List.nodup_append] at hnodup
    exact hnodup.1
  cases hround with
  | pass at_index => exact ⟨h.passed, h.decoded⟩
  | @scheduled id n fr₁ newBlocks decoded loop =>
    obtain ⟨vs, hev, _, _⟩ := preemptLoop_eq_ok loop
    obtain ⟨hothers, hnew⟩ := preemptLoop_held laws hrun loop
    obtain ⟨hlen, hown⟩ := hnew newBlocks rfl
    have hid : id ∉ fr.scheduledRunningReqs := by
      simpa [hphase.scheduledReqIds] using decoded.unscheduled
    have hscheduled : fr₁.scheduledRunningReqs = fr.scheduledRunningReqs := by rw [hev.frame]
    have hrecorded : fr₁.reqToNewBlockIds = fr.reqToNewBlockIds := by rw [hev.frame]
    obtain ⟨drafts, spec, hframe, _⟩ := scheduleRunning_frame A fr₁ id n newBlocks
    rw [hframe] at hphase' ⊢
    have hstay : ∀ id' ∈ fr.scheduledRunningReqs, id' ∈ fr₁.running := fun id' hid' =>
      hphase'.mem_running (List.mem_append_left _ (hscheduled ▸ hid'))
    obtain ⟨hpassed, hdecoded⟩ := h.evict hev hid hstay hothers
    have hold : A.held fr.kv id = A.held fr₀.kv id :=
      h.passed id (List.mem_of_getElem? decoded.at_index) hid
    refine ⟨fun id' hid' hnot => ?_, fun id' hid' => ?_⟩
    · simp only [List.mem_append, List.mem_singleton, not_or, hscheduled] at hnot
      exact hpassed id' hid' hnot.2 hnot.1
    · simp only [List.mem_append, List.mem_singleton, hscheduled] at hid'
      simp only [hrecorded]
      obtain hid' | rfl := hid'
      · have hne : id' ≠ id := fun heq => hid (heq ▸ hid')
        rw [AList.lookup_insert_ne hne]
        exact hdecoded id' hid'
      · exact ⟨_, AList.lookup_insert _, by simp [hlen], by rw [hown, hold]⟩

/-- The round that leaves the loop. -/
theorem DecodeBlocks.leave {victims : List ReqId} (laws : A.BlockLaws groups)
    (hnodup : fr₀.running.Nodup) (hphase : DecodePhase A fr₀ victims fr)
    (h : DecodeBlocks A groups fr₀ fr) (hexit : DecodeExit A fr fr') :
    DecodeBlocks A groups fr₀ fr' := by
  obtain ⟨vs, hphase'⟩ := hphase.leave hnodup hexit
  have hrun : fr.running.Nodup := by
    rw [hphase.running, List.nodup_append] at hnodup
    exact hnodup.1
  cases hexit with
  | done => exact h
  | @preempted id n _ decoded loop =>
    obtain ⟨vs, hev, _, hself⟩ := preemptLoop_eq_ok loop
    obtain ⟨later, rfl⟩ := hself rfl
    obtain ⟨hothers, _⟩ := preemptLoop_held laws hrun loop
    have hid : id ∉ fr.scheduledRunningReqs := by
      simpa [hphase.scheduledReqIds] using decoded.unscheduled
    have hscheduled : fr'.scheduledRunningReqs = fr.scheduledRunningReqs := by rw [hev.frame]
    have hrecorded : fr'.reqToNewBlockIds = fr.reqToNewBlockIds := by rw [hev.frame]
    obtain ⟨hpassed, hdecoded⟩ := h.evict hev hid
      (fun id' hid' => hphase'.mem_running (hscheduled ▸ hid')) hothers
    refine ⟨fun id' hid' hnot => hpassed id' hid' ?_ (hscheduled ▸ hnot), ?_⟩
    · -- the request itself is not running any more
      rintro rfl
      rw [hev.running, List.nodup_append] at hrun
      exact hrun.2.2 id' hid' id' (.head _) rfl
    · rw [hscheduled, hrecorded]
      exact hdecoded

/-- **The decode loop** records the new blocks of the requests it decodes. -/
theorem decodeLoop_blocks {fuel : ℕ} (laws : A.BlockLaws groups) (hnodup : fr₀.running.Nodup)
    (hstart : DecodePhase A fr₀ [] fr₀) (hnone : fr₀.scheduledRunningReqs = [])
    (h : whileLoop .outOfRounds A.decodeBody fuel fr₀ = .ok fr') :
    DecodeBlocks A groups fr₀ fr' := by
  obtain ⟨fr, hrounds, hleave⟩ := whileLoop_eq_ok h
  obtain ⟨victims, hphase, hblocks⟩ := hrounds.invariant
    (I := fun fr => ∃ victims, DecodePhase A fr₀ victims fr ∧ DecodeBlocks A groups fr₀ fr)
    (by
      rintro fr fr' ⟨victims, hphase, hblocks⟩ hround
      obtain ⟨vs, hphase'⟩ := hphase.again hnodup (decodeBody_again hround)
      exact ⟨_, hphase', hblocks.again laws hnodup hphase (decodeBody_again hround)⟩)
    ⟨[], hstart, fun _ _ _ => rfl, by simp [hnone]⟩
  exact hblocks.leave laws hnodup hphase (decodeBody_leave hleave)

/-! ## Both loops -/

/-- The blocks of the running requests when the two loops are done, and what is recorded of them. -/
structure FrameBlocks (A : AscendScheduler σ κ M) (groups : ℕ) (s : SchedulerState σ κ)
    (fr : Frame σ κ) : Prop where
  admitted : ∀ id ∈ fr.running, id ∉ s.running →
    fr.reqToNewBlockIds.lookup id = some (A.held fr.kv id)
  decoded : ∀ id ∈ fr.scheduledRunningReqs, ∃ b, fr.reqToNewBlockIds.lookup id = some b ∧
    b.length = groups ∧ A.held fr.kv id = appendBlockIds (A.held s.kv id) b
  passed : ∀ id ∈ fr.running, id ∈ s.running → id ∉ fr.scheduledRunningReqs →
    A.held fr.kv id = A.held s.kv id

/-- **The two loops record the blocks of the requests they schedule**: all of them for a request
that is admitted, the new ones for a request that is decoded. -/
theorem planRequests_blocks (laws : A.BlockLaws groups) (hnodup : (s.waiting ++ s.running).Nodup)
    (hall : A.RecordsAll s) (h : A.planRequests s = .ok fr) : FrameBlocks A groups s fr := by
  obtain ⟨fr₀, hprefill, hdecode⟩ := planRequests_eq_ok h
  obtain ⟨fates, hdone⟩ := prefillPhase_eq_ok (List.nodup_append.mp hnodup).1 hprefill
  have hblocks := prefillPhase_blocks laws hnodup hall hprefill
  simp only [decodePhase, Finset.card_eq_zero] at hdecode
  split at hdecode
  · next hgate =>
    have hrun := hdone.nodup_running hnodup
    obtain ⟨victims, hphase⟩ := decodeLoop_eq_ok hrun (hdone.decode_start hgate) hdecode
    have hdecoded := decodeLoop_blocks laws hrun (hdone.decode_start hgate) hdone.records.running
      hdecode
    -- nothing was admitted, so the running requests are the ones of the start
    have hunion := hdone.queues.scheduledReqIds
    have hgate' : fr₀.scheduledReqIds = ∅ := hgate
    rw [hgate', eq_comm, Finset.union_eq_empty, List.toFinset_eq_empty_iff] at hunion
    have hrunning : s.running = fr.running ++ victims := by
      have := hdone.queues.running
      rw [hunion.2, List.append_nil] at this
      rw [← this]
      exact hphase.running
    have hmem : ∀ {id}, id ∈ fr.running → id ∈ s.running := fun hid => by
      rw [hrunning]
      exact List.mem_append_left _ hid
    refine ⟨fun id hid hnew => absurd (hmem hid) hnew, fun id hid => ?_, fun id hid hold hnot => ?_⟩
    · obtain ⟨b, hb, hlen, hheld⟩ := hdecoded.decoded id hid
      refine ⟨b, hb, hlen, hheld.trans ?_⟩
      exact congrArg (appendBlockIds · b) (hblocks.running id (hmem (hphase.mem_running hid)))
    · exact (hdecoded.passed id hid hnot).trans (hblocks.running id hold)
  · cases hdecode
    refine ⟨hblocks.admitted, fun id hid => ?_, fun id _ hold _ => hblocks.running id hold⟩
    have hnil : fr₀.putBackSkipped.scheduledRunningReqs = [] := hdone.records.running
    rw [hnil] at hid
    exact absurd hid List.not_mem_nil

end AscendScheduler

/-! ## The output -/

/-- What an output says of the blocks of the requests: `s` is the state before the call and `s'`
the state after it. -/
structure BlockHandover (A : AscendScheduler σ κ M) (groups : ℕ) (s s' : SchedulerState σ κ)
    (out : SchedulerOutput M) : Prop where
  new : ∀ d ∈ out.scheduledNewReqs, d.blockIds = A.held s'.kv d.reqId
  resumed : ∀ e ∈ out.scheduledCachedReqs, e.resumedFromPreemption = true →
    e.newBlockIds = some (A.held s'.kv e.reqId)
  running : ∀ e ∈ out.scheduledCachedReqs, e.resumedFromPreemption = false →
    e.newBlockIds = none ∧ A.held s'.kv e.reqId = A.held s.kv e.reqId ∨
      ∃ b, e.newBlockIds = some b ∧ b.length = groups ∧
        A.held s'.kv e.reqId = appendBlockIds (A.held s.kv e.reqId) b
  unscheduled : ∀ id ∈ s'.running, id ∉ out.numScheduledTokens →
    A.held s'.kv id = A.held s.kv id

variable {A : AscendScheduler σ κ M} {groups : ℕ} {s s' : SchedulerState σ κ}
  {out : SchedulerOutput M} {p : Plan} {fr : Frame σ κ} {id : ReqId}

/-- An admitted request is running after the call and was not before. -/
theorem Plan.Queues.admitted_new (hnodup : (s.waiting ++ s.running).Nodup) (h : p.Queues s s')
    (hid : id ∈ p.admitted) : id ∈ s'.running ∧ id ∉ s.running := by
  refine ⟨?_, Queues.not_mem_running hnodup (h.mem_waiting_of_fate hid)⟩
  rw [h.running']
  exact List.mem_append_right _ hid

/-- **The output says of every request it schedules which blocks it has**, or which it has got. -/
theorem Call.blockHandover (laws : A.BaseLaws) (blockLaws : A.BlockLaws groups)
    (hnodup : (s.waiting ++ s.running).Nodup) (hall : A.RecordsAll s)
    (hp : p.Describes A s s' out) (h : Call A s s' out fr) : BlockHandover A groups s s' out := by
  have hblocks := AscendScheduler.planRequests_blocks blockLaws hnodup hall h.plan
  obtain ⟨hnew, hresumed, hdecoded⟩ := hp.output.ids laws
  have hcached : out.scheduledCachedReqs = A.super.makeCachedRequestData fr.obj
      fr.scheduledRunningReqs fr.scheduledResumedReqs fr.numScheduledTokens
      fr.scheduledSpecDecodeTokens fr.reqToNewBlockIds := by
    rw [h.output]
    rfl
  have hscheduled := (SchedulerOutput.cachedIds_eq laws hcached).2
  -- the blocks recorded for an admitted request are all it has
  have hadmitted : ∀ {id}, id ∈ p.admitted →
      fr.reqToNewBlockIds.lookup id = some (A.held s'.kv id) := by
    intro id hid
    obtain ⟨hrunning, hold⟩ := hp.queues.admitted_new hnodup hid
    rw [h.kv]
    exact hblocks.admitted id (h.running ▸ hrunning) hold
  refine ⟨fun d hd => ?_, fun e he heq => ?_, fun e he heq => ?_, fun id hid hnot => ?_⟩
  · have hid : d.reqId ∈ p.admitted := by
      have hmem : d.reqId ∈ out.newIds := List.mem_map_of_mem hd
      rw [hnew] at hmem
      exact (List.mem_filter.mp hmem).1
    rw [h.output] at hd
    obtain ⟨id, _, rfl⟩ := List.mem_map.mp hd
    exact congrArg (Option.getD · []) (hadmitted hid)
  · have hid : e.reqId ∈ p.admitted := by
      have hmem := SchedulerOutput.mem_cachedIds he heq
      rw [hresumed] at hmem
      exact (List.mem_filter.mp hmem).1
    rw [hcached] at he
    obtain hsome | ⟨hfalse, _⟩ := laws.cached_blocks _ _ _ _ _ _ e he _ (hadmitted hid)
    · exact hsome
    · rw [heq] at hfalse
      contradiction
  · have hmem := SchedulerOutput.mem_cachedIds he heq
    rw [hscheduled] at hmem
    obtain ⟨b, hb, hlen, hheld⟩ := hblocks.decoded _ hmem
    rw [hcached] at he
    rw [h.kv]
    obtain hsome | ⟨_, hnone, hempty⟩ := laws.cached_blocks _ _ _ _ _ _ e he _ hb
    · exact Or.inr ⟨b, hsome, hlen, hheld⟩
    · refine Or.inl ⟨hnone, hheld.trans (appendBlockIds_noBlocks ?_ hempty)⟩
      rw [blockLaws.held_length, hlen]
  · have hnot' : id ∉ p.scheduled := fun hmem => hnot (hp.output.keys.mem_iff.mpr hmem)
    rw [Plan.scheduled, List.mem_append, not_or, ← hdecoded, hscheduled] at hnot'
    have hstay : id ∈ p.stay :=
      (hp.queues.mem_running' hid).resolve_right hnot'.1
    have hold : id ∈ s.running := by
      rw [hp.queues.running]
      exact List.mem_append_left _ hstay
    rw [h.kv]
    exact hblocks.passed id (h.running ▸ hid) hold hnot'.2

/-- What one call of `schedule()` hands the worker. -/
theorem AscendScheduler.schedule_blockHandover (laws : A.BaseLaws) (blockLaws : A.BlockLaws groups)
    (hoff : A.schedulerConfig.chunkedPrefillEnabled = false)
    (hnodup : (s.waiting ++ s.running).Nodup)
    (hall : A.RecordsAll s) (h : A.schedule s = .ok (s', out)) (hp : p.Describes A s s' out) :
    BlockHandover A groups s s' out := by
  obtain ⟨fr, hcall⟩ := schedule_call hoff h
  exact hcall.blockHandover laws blockLaws hnodup hall hp

/-! ## A manager that does it -/

namespace BlockPool

theorem heldBy_release (pool : BlockPool) {id id' : ReqId} (hne : id' ≠ id) :
    (pool.release id).heldBy id' = pool.heldBy id' := by
  rw [heldBy, release, AList.lookup_erase_ne hne, heldBy]

theorem heldBy_foldl_release {id : ReqId} : ∀ {ids : List ReqId} (pool : BlockPool), id ∉ ids →
    (ids.foldl release pool).heldBy id = pool.heldBy id
  | [], _, _ => rfl
  | id' :: ids, pool, hid => by
    rw [List.mem_cons, not_or] at hid
    rw [List.foldl_cons, heldBy_foldl_release _ hid.2, heldBy_release _ hid.1]

/-- What an allocation does to the blocks. -/
theorem allocate_eq {pool pool' : BlockPool} {blockSize maxModelLen : ℕ} {id : ReqId} {r : Request}
    {args : AllocArgs} {blocks : Option KVCacheBlocks}
    (h : pool.allocate blockSize maxModelLen id r args = (pool', blocks)) :
    (blocks = none ∧ pool' = pool) ∨ ∃ new : List BlockId, blocks = some [toBlocks new] ∧
      pool'.held = pool.held.insert id (pool.heldBy id ++
        ((args.newComputedBlocks.getD []).firstGroup).map KVCacheBlock.blockId ++ new) := by
  simp only [allocate] at h
  split at h
  · cases h
    exact Or.inl ⟨rfl, rfl⟩
  · cases h
    exact Or.inr ⟨_, rfl, rfl⟩

theorem getBlockIds_toBlocks (ids : List BlockId) :
    KVCacheBlocks.getBlockIds [toBlocks ids] = [ids] := by
  simp [KVCacheBlocks.getBlockIds, toBlocks, Function.comp_def]

end BlockPool

/-- **The laws hold of it**, with one KV cache group. -/
theorem Deployment.blockLaws {κ M : Type} (d : Deployment) (connector : Option (KVConnector κ M)) :
    (d.schedulerWith connector).BlockLaws 1 where
  held_length _ _ := rfl
  empty := ⟨by simp [schedulerWith, BlockPool.manager, KVCacheBlocks.getBlockIds, NoBlocks], rfl⟩
  computed _ _ _ := ⟨rfl, fun _ => rfl⟩
  remote _ _ _ _ := rfl
  refused kv id r args kv' halloc id' := by
    obtain ⟨_, rfl⟩ | ⟨new, hnew, _⟩ := BlockPool.allocate_eq halloc
    · rfl
    · contradiction
  allocated kv id r args kv' new halloc hlen := by
    obtain ⟨hnone, _⟩ | ⟨ids, hnew, hheld⟩ := BlockPool.allocate_eq halloc
    · contradiction
    cases hnew
    have hown : kv'.heldBy id = kv.heldBy id ++
        ((args.newComputedBlocks.getD []).firstGroup).map KVCacheBlock.blockId ++ ids := by
      rw [BlockPool.heldBy, hheld, AList.lookup_insert]
      rfl
    refine ⟨rfl, ?_⟩
    rw [BlockPool.getBlockIds_toBlocks]
    change [kv'.heldBy id] = _
    rw [hown]
    cases hargs : args.newComputedBlocks with
    | none =>
      change _ = appendBlockIds [kv.heldBy id] [ids]
      simp [appendBlockIds, KVCacheBlocks.firstGroup]
    | some b =>
      obtain ⟨g, rfl⟩ := List.length_eq_one_iff.mp (hlen b hargs)
      change _ = appendBlockIds (appendBlockIds [kv.heldBy id] _) [ids]
      simp [appendBlockIds, KVCacheBlocks.firstGroup, KVCacheBlocks.getBlockIds]
  others kv id r args kv' new halloc id' hne := by
    obtain ⟨_, rfl⟩ | ⟨ids, _, hheld⟩ := BlockPool.allocate_eq halloc
    · rfl
    · change [kv'.heldBy id'] = [kv.heldBy id']
      rw [BlockPool.heldBy, hheld, AList.lookup_insert_ne hne, BlockPool.heldBy]
  free kv id id' hne := congrArg (fun ids => [ids]) (BlockPool.heldBy_release kv hne)
  finish s ids status := by
    refine ⟨fun id hid => ?_, Finset.Subset.refl _⟩
    refine congrArg (fun ids => [ids]) (BlockPool.heldBy_foldl_release s.kv fun hmem => hid ?_)
    simpa using hmem
  update s out res id hid := by
    have hnot := (List.mem_append.mp hid).elim (fun h => of_decide_eq_true (List.mem_filter.mp h).2)
      fun h => of_decide_eq_true (List.mem_filter.mp h).2
    refine ⟨?_, fun hmem => (Finset.mem_union.mp hmem).resolve_right hnot⟩
    exact congrArg (fun ids => [ids]) (BlockPool.heldBy_foldl_release s.kv fun hmem =>
      hnot (List.mem_toFinset.mpr hmem))

end VllmAscend
