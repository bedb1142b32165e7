import VllmAscend.Machinery.Run
import VllmAscend.Core.Conservation

/-!
# Core/Stall — which prompts an idle scheduler gets on with

    L tokens   ─┬─ L > min(limit, num_blocks · b)            ──▸ FINISHED_IGNORED
                ├─ L > budget, or above the watermark        ──▸ skipped
                ├─ ⌈min(L + lookahead, max_len) / b⌉ ≤ N - 1 ──▸ admitted
                └─ else                                      ──▸ the loop ends

With nothing running and an empty cache, the prefill loop skips to the first waiting request that is
too long or passes the budget and the watermark, and stands or falls with it.  The length limit
counts `num_blocks` blocks where the pool has one less and the watermark holds back some, so between
the bounds there are prompts that are neither too long nor ever admitted.
-/

namespace VllmAscend

open Machinery

variable {σ κ M : Type}

namespace AscendScheduler

variable (A : AscendScheduler σ κ M)

/-- The request is longer than any prompt may be. -/
def OverLimit (r : Request) : Prop :=
  min (min A.schedulerConfig.maxModelLen A.schedulerConfig.maxNumBatchedTokens)
    (A.numBlocks * A.blockSize) < r.numTokens

/-- The request is within the budget and, in an empty cache, the watermark. -/
def WithinReach (r : Request) : Prop :=
  r.numTokens ≤ A.maxNumScheduledTokens ∧
    A.numBlocks * A.schedulerConfig.watermark ≤
      ((A.numBlocks - cdiv r.numTokens A.blockSize : ℤ) : ℚ)

/-- The blocks of the request are in an empty cache, which is one block short. -/
def Fits (r : Request) : Prop :=
  cdiv (min (r.numTokens + A.numLookaheadTokens) A.maxModelLen) A.blockSize ≤ A.numBlocks - 1

instance (r : Request) : Decidable (A.OverLimit r) := inferInstanceAs (Decidable (_ < _))
instance (r : Request) : Decidable (A.WithinReach r) := inferInstanceAs (Decidable (_ ∧ _))
instance (r : Request) : Decidable (A.Fits r) := inferInstanceAs (Decidable (_ ≤ _))

/-- The first waiting request that is not skipped. -/
def firstInLine (s : SchedulerState σ κ) : Option ReqId :=
  s.waiting.find? fun id => A.OverLimit (s.obj id) ∨ A.WithinReach (s.obj id)

/-- The first request that is not skipped is too long, or fits. -/
def GetsOn (s : SchedulerState σ κ) : Prop :=
  ∃ id, A.firstInLine s = some id ∧ (A.OverLimit (s.obj id) ∨ A.Fits (s.obj id))

/-- What the KV cache manager is documented to do with an empty cache: no request has a prefix in
it, all blocks but the null block are free, and a request gets its blocks when they are free.  There
is one KV cache group; and a prefix hit is never a whole prompt. -/
structure EmptyCacheLaws (Empty : σ → Prop) : Prop where
  computed : ∀ kv id r, Empty kv →
    ∃ kv', A.kvCacheManager.getComputedBlocks kv id r = (kv', [[]], 0) ∧ Empty kv'
  hits_lt : ∀ kv id r, 0 < r.numTokens →
    (A.kvCacheManager.getComputedBlocks kv id r).2.2 < r.numTokens
  free : ∀ kv, Empty kv → A.kvCacheManager.getNumFreeBlocks kv + 1 = A.numBlocks
  groups : ∀ kv id, (A.kvCacheManager.coordinatorGetBlocks kv id).length = 1
  allocate : ∀ kv id r (args : AllocArgs), Empty kv → r.numComputedTokens = 0 →
    args.newComputedBlocks = some [[]] → args.numNewComputedTokens = 0 →
    ((A.kvCacheManager.allocateSlots kv id r args).2 = none ↔
      (A.numBlocks : ℤ) - 1 < cdiv (min (args.numNewTokens + args.numLookaheadTokens) A.maxModelLen)
        A.blockSize)

/-- A scheduler without connector, LoRA and chunked prefill, that may run something. -/
structure Plain : Prop where
  chunkedPrefill : A.schedulerConfig.chunkedPrefillEnabled = false
  connector : A.connector = none
  loraConfig : A.loraConfig = none
  maxNumRunningReqs : 0 < A.maxNumRunningReqs
  maxNumScheduledTokens : 0 < A.maxNumScheduledTokens

/-- Nothing runs, nothing is in flight, and the cache is empty; the waiting requests are new or
preempted. -/
structure Quiescent (Empty : σ → Prop) (s : SchedulerState σ κ) : Prop where
  running : s.running = []
  scheduledReqIds : s.scheduledReqIds = ∅
  nodup : s.waiting.Nodup
  known : ∀ id ∈ s.waiting, id ∈ s.requests
  cache : Empty s.kv
  status : ∀ id ∈ s.waiting, (s.obj id).status = .waiting ∨ (s.obj id).status = .preempted
  computed : ∀ id ∈ s.waiting, (s.obj id).numComputedTokens = 0
  lora : ∀ id ∈ s.waiting, (s.obj id).loraRequest = none
  tokens : ∀ id ∈ s.waiting, 0 < (s.obj id).numTokens

/-! ## One round -/

variable {A} {Empty : σ → Prop} {s s' : SchedulerState σ κ} {fr fr' : Frame σ κ} {id : ReqId}
  {rest : List ReqId} {out : SchedulerOutput M}

/-- A request as it is in the waiting queue. -/
structure Queued (r : Request) : Prop where
  status : r.status = .waiting ∨ r.status = .preempted
  computed : r.numComputedTokens = 0
  lora : r.loraRequest = none
  tokens : 0 < r.numTokens

/-- What the prefix cache has of a queued request. -/
def localOnly (blocks : KVCacheBlocks) (numLocal : ℕ) : ComputedTokens :=
  ⟨blocks, numLocal, 0, false, numLocal⟩

/-- A round on a queued request comes to the token checks. -/
theorem prefillBody_queued (plain : A.Plain) (head : fr.waiting = id :: rest)
    (hbudget : 0 < fr.tokenBudget) (hroom : fr.running.length ≠ A.maxNumRunningReqs)
    (hqueued : Queued (fr.obj id)) :
    ∃ kv blocks numLocal,
      A.kvCacheManager.getComputedBlocks fr.kv id (fr.obj id) = (kv, blocks, numLocal) ∧
      A.prefillBody fr =
        (match A.decideTokens fr.tokenBudget (fr.obj id) (localOnly blocks numLocal) with
        | .error e => .error e
        | .ok .tooLong => .ok (.again ({ fr with kv := kv }.finishIgnored id))
        | .ok .overBudget => .ok (.again ({ fr with kv := kv }.skipCurRequest id))
        | .ok (.schedule n bs) =>
          A.allocateRequest { fr with kv := kv } id (localOnly blocks numLocal) n bs) := by
  have hstatus : (fr.obj id).status ≠ .waitingForRemoteKvs := by
    obtain h | h := hqueued.status <;> simp [h]
  refine ⟨_, _, _, rfl, ?_⟩
  simp only [prefillBody, head, if_neg hbudget.not_ge, if_neg hroom, awaitRemoteKv, if_neg hstatus,
    exceedsMaxLoras, plain.loraConfig, considerRequest, getComputed, hqueued.computed,
    plain.connector]
  rfl

/-- The token checks on a request without adapter. -/
theorem decideTokens_queued (plain : A.Plain) {budget : ℤ} {r : Request} {blocks : KVCacheBlocks}
    {numLocal : ℕ} (hlora : r.loraRequest = none) (hlt : numLocal < r.numTokens) :
    A.decideTokens budget r (localOnly blocks numLocal) =
      if min (min A.schedulerConfig.maxModelLen A.schedulerConfig.maxNumBatchedTokens)
          (A.numBlocks * A.blockSize) < r.numTokens - numLocal then .ok .tooLong
      else if budget < ((r.numTokens - numLocal : ℕ) : ℤ) then .ok .overBudget
      else .ok (.schedule ((r.numTokens - numLocal : ℕ) : ℤ) blocks.firstGroup) := by
  have hcast : (r.numTokens : ℤ) - numLocal = ((r.numTokens - numLocal : ℕ) : ℤ) := by omega
  have hpos : (0 : ℤ) < ((r.numTokens - numLocal : ℕ) : ℤ) := by omega
  simp only [decideTokens, localOnly, getPromptLimit, plain.chunkedPrefill, hlora, hcast, gt_iff_lt,
    Int.ofNat_lt, if_pos hpos, Bool.false_eq_true, false_and, if_false, Option.bind_none]

/-- Placing a queued request admits it. -/
theorem placeRequest_queued (plain : A.Plain) (hqueued : Queued (fr.obj id)) {n : ℤ}
    {blocks newBlocks : KVCacheBlocks} {numLocal : ℕ} :
    ∃ fr', A.placeRequest fr id (localOnly blocks numLocal) n newBlocks = .ok (.again fr') ∧
      fr'.running = fr.running ++ [id] := by
  simp only [placeRequest, notifyConnector, plain.connector, localOnly, admitRequest,
    Bool.false_eq_true, if_false]
  obtain h | h := hqueued.status <;> rw [h] <;> exact ⟨_, rfl, rfl⟩

/-- **A round on a queued request does not raise.** -/
theorem prefillBody_ok (laws : A.EmptyCacheLaws Empty) (plain : A.Plain)
    (head : fr.waiting = id :: rest) (hqueued : Queued (fr.obj id)) :
    ∃ p, A.prefillBody fr = .ok p := by
  by_cases hbudget : fr.tokenBudget ≤ 0
  · exact ⟨.leave fr, by simp only [prefillBody, head, if_pos hbudget]⟩
  by_cases hroom : fr.running.length = A.maxNumRunningReqs
  · exact ⟨.leave fr, by simp only [prefillBody, head, if_neg hbudget, if_pos hroom]⟩
  obtain ⟨kv, blocks, numLocal, hcomputed, hbody⟩ :=
    prefillBody_queued plain head (by omega) hroom hqueued
  have hlt : numLocal < (fr.obj id).numTokens := by
    have := laws.hits_lt fr.kv id (fr.obj id) hqueued.tokens
    rwa [hcomputed] at this
  rw [hbody, decideTokens_queued plain hqueued.lora hlt]
  split_ifs
  · exact ⟨_, rfl⟩
  · exact ⟨_, rfl⟩
  · simp only [allocateRequest]
    split
    · split
      · exact ⟨_, rfl⟩
      · next kv' newBlocks _ =>
        have hqueued' : Queued (({ fr with kv := kv' } : Frame σ κ).obj id) := hqueued
        obtain ⟨fr', hplace, _⟩ := placeRequest_queued plain hqueued'
        exact ⟨_, hplace⟩
    · exact ⟨_, rfl⟩

/-! ## A round on an empty cache -/

/-- The watermark, where nothing is cached: `len(req_blocks)` counts the one KV cache group. -/
theorem checkWatermark_empty (laws : A.EmptyCacheLaws Empty) {kv : σ} (hempty : Empty kv)
    {r : Request} (hcomputed : r.numComputedTokens = 0) :
    A.checkWatermarkForPrefill kv id r r.numTokens [] = true ↔
      A.numBlocks * A.schedulerConfig.watermark ≤
        ((A.numBlocks - cdiv r.numTokens A.blockSize : ℤ) : ℚ) := by
  have hfree := laws.free kv hempty
  have hblocks : ((A.kvCacheManager.getNumFreeBlocks kv : ℤ) - ((0 : ℕ) : ℤ) -
      (cdiv (r.numTokens + (0 + ((0 : ℕ) : ℤ) * A.blockSize)) A.blockSize - ((1 : ℕ) : ℤ) -
        ((0 : ℕ) : ℤ))) = A.numBlocks - cdiv r.numTokens A.blockSize := by
    rw [Int.natCast_zero, Int.zero_mul, Int.add_zero, Int.add_zero]
    omega
  simp only [checkWatermarkForPrefill, hcomputed, laws.groups, List.length_nil, List.countP_nil,
    hblocks, decide_eq_true_eq, Rat.not_lt]

/-- **What a round on an empty cache does**, by the length of the request. -/
theorem prefillBody_empty (laws : A.EmptyCacheLaws Empty) (plain : A.Plain)
    (head : fr.waiting = id :: rest) (hbudget : fr.tokenBudget = A.maxNumScheduledTokens)
    (hrunning : fr.running = []) (hempty : Empty fr.kv) (hqueued : Queued (fr.obj id)) :
    ∃ kv, Empty kv ∧
      (A.OverLimit (fr.obj id) →
        A.prefillBody fr = .ok (.again ({ fr with kv := kv }.finishIgnored id))) ∧
      (¬A.OverLimit (fr.obj id) → ¬A.WithinReach (fr.obj id) →
        A.prefillBody fr = .ok (.again ({ fr with kv := kv }.skipCurRequest id))) ∧
      (¬A.OverLimit (fr.obj id) → A.WithinReach (fr.obj id) → A.Fits (fr.obj id) →
        ∃ fr', A.prefillBody fr = .ok (.again fr') ∧ fr'.running = [id]) ∧
      (¬A.OverLimit (fr.obj id) → A.WithinReach (fr.obj id) → ¬A.Fits (fr.obj id) →
        ∃ kv', A.prefillBody fr = .ok (.leave { fr with kv := kv' })) := by
  have hpos : 0 < fr.tokenBudget := by
    have := plain.maxNumScheduledTokens
    omega
  have hroom : fr.running.length ≠ A.maxNumRunningReqs := by
    rw [hrunning]
    exact plain.maxNumRunningReqs.ne
  obtain ⟨kv, hcomputed, hkv⟩ := laws.computed fr.kv id (fr.obj id) hempty
  obtain ⟨_, _, _, hcomputed', hbody⟩ := prefillBody_queued plain head hpos hroom hqueued
  rw [hcomputed] at hcomputed'
  cases hcomputed'
  rw [decideTokens_queued plain hqueued.lora hqueued.tokens] at hbody
  simp only [Nat.sub_zero, hbudget, Int.ofNat_lt] at hbody
  refine ⟨kv, hkv, fun hover => ?_, fun hover hreach => ?_, fun hover hreach hfits => ?_,
    fun hover hreach hfits => ?_⟩
  · rw [OverLimit] at hover
    rw [hbody, if_pos hover]
  · rw [OverLimit] at hover
    rw [hbody, if_neg hover]
    by_cases hlong : A.maxNumScheduledTokens < (fr.obj id).numTokens
    · rw [if_pos hlong]
    · rw [if_neg hlong]
      simp only [allocateRequest, KVCacheBlocks.firstGroup, List.headD_cons]
      refine if_neg fun hmark => hreach ⟨by omega, ?_⟩
      exact (checkWatermark_empty laws hkv hqueued.computed).mp hmark
  all_goals
    rw [OverLimit] at hover
    rw [hbody, if_neg hover, if_neg (by have := hreach.1; omega)]
    simp only [allocateRequest, KVCacheBlocks.firstGroup, List.headD_cons,
      (checkWatermark_empty laws hkv hqueued.computed).mpr hreach.2, if_true]
    have hallocate := laws.allocate kv id (fr.obj id)
      (A.prefillAllocArgs (localOnly [[]] 0) (fr.obj id).numTokens) hkv hqueued.computed rfl rfl
    simp only [prefillAllocArgs, localOnly, Int.natCast_zero, Int.add_zero] at hallocate ⊢
  · split
    · next hnone =>
      rw [hnone] at hallocate
      have := hallocate.mp rfl
      exact absurd hfits (not_le.mpr this)
    · next kv' newBlocks _ =>
      have hqueued' : Queued (({ fr with kv := kv' } : Frame σ κ).obj id) := hqueued
      obtain ⟨fr', hplace, hrun⟩ := placeRequest_queued plain hqueued'
      refine ⟨fr', hplace, ?_⟩
      rw [hrun]
      simp [hrunning]
  · have hnone := hallocate.mpr (not_le.mp hfits)
    split
    · exact ⟨_, rfl⟩
    · next hsome =>
      rw [hsome] at hnone
      contradiction

/-! ## The loop -/

theorem Quiescent.queued (h : Quiescent Empty s) (hid : id ∈ s.waiting) : Queued (s.obj id) :=
  ⟨h.status id hid, h.computed id hid, h.lora id hid, h.tokens id hid⟩

/-- The prefill loop while it has only skipped. -/
structure Untouched (A : AscendScheduler σ κ M) (Empty : σ → Prop) (s : SchedulerState σ κ)
    (fr : Frame σ κ) : Prop where
  waiting : ∃ seen, s.waiting = seen ++ fr.waiting ∧
    ∀ id ∈ seen, ¬(A.OverLimit (s.obj id) ∨ A.WithinReach (s.obj id))
  running : fr.running = []
  obj : fr.obj = s.obj
  budget : fr.tokenBudget = A.maxNumScheduledTokens
  cache : Empty fr.kv

/-- A request was admitted, or left the queue as ignored. -/
def Moved (s : SchedulerState σ κ) (fr : Frame σ κ) : Prop :=
  fr.running ≠ [] ∨
    ∃ id ∈ s.waiting, id ∉ fr.waiting ∧ (fr.obj id).status = .finishedIgnored

/-- The first in line is the first that was not skipped. -/
theorem Untouched.firstInLine (h : Untouched A Empty s fr) (head : fr.waiting = id :: rest)
    (hid : A.OverLimit (s.obj id) ∨ A.WithinReach (s.obj id)) : A.firstInLine s = some id := by
  obtain ⟨seen, hseen, hskipped⟩ := h.waiting
  rw [AscendScheduler.firstInLine, hseen, head, List.find?_append,
    List.find?_eq_none.mpr (by simpa using hskipped)]
  simp [hid]

/-- A round that goes on skips one more, or gets on with the first in line. -/
theorem Untouched.again (laws : A.EmptyCacheLaws Empty) (plain : A.Plain)
    (hquiet : Quiescent Empty s) (h : Untouched A Empty s fr)
    (hround : A.prefillBody fr = .ok (.again fr')) :
    Untouched A Empty s fr' ∨ (A.GetsOn s ∧ Moved s fr') := by
  obtain ⟨id, rest, head, _⟩ := prefillBody_again hround
  obtain ⟨seen, hseen, hskipped⟩ := h.waiting
  have hmem : id ∈ s.waiting := by simp [hseen, head]
  have hobj : fr.obj id = s.obj id := by rw [h.obj]
  have hqueued : Queued (fr.obj id) := hobj ▸ hquiet.queued hmem
  obtain ⟨kv, hkv, hover, hskip, hadmits, hrefuses⟩ :=
    prefillBody_empty laws plain head h.budget h.running h.cache hqueued
  rw [hobj] at hover hskip hadmits hrefuses
  by_cases hlong : A.OverLimit (s.obj id)
  · rw [hover hlong] at hround
    cases hround
    refine Or.inr ⟨⟨id, h.firstInLine head (Or.inl hlong), Or.inl hlong⟩,
      Or.inr ⟨id, hmem, ?_, ?_⟩⟩
    · have hnodup := hquiet.nodup
      rw [hseen, head, List.nodup_append, List.nodup_cons] at hnodup
      simpa [Frame.finishIgnored, head] using hnodup.2.1.1
    · simp [Frame.finishIgnored]
  by_cases hreach : A.WithinReach (s.obj id)
  · by_cases hfits : A.Fits (s.obj id)
    · obtain ⟨fr'', hround', hrunning⟩ := hadmits hlong hreach hfits
      rw [hround'] at hround
      cases hround
      refine Or.inr ⟨⟨id, h.firstInLine head (Or.inr hreach), Or.inr hfits⟩, Or.inl ?_⟩
      simp [hrunning]
    · obtain ⟨kv', hround'⟩ := hrefuses hlong hreach hfits
      rw [hround'] at hround
      cases hround
  · rw [hskip hlong hreach] at hround
    cases hround
    refine Or.inl ⟨⟨seen ++ [id], ?_, ?_⟩, h.running, h.obj, h.budget, hkv⟩
    · simp [hseen, head, Frame.skipCurRequest]
    · intro id' hid'
      obtain hid' | hid' := List.mem_append.mp hid'
      · exact hskipped id' hid'
      · obtain rfl := List.mem_singleton.mp hid'
        exact not_or.mpr ⟨hlong, hreach⟩

/-- Leaving the loop with nothing but skips. -/
theorem Untouched.leave (laws : A.EmptyCacheLaws Empty) (plain : A.Plain)
    (hquiet : Quiescent Empty s) (h : Untouched A Empty s fr)
    (hround : A.prefillBody fr = .ok (.leave fr')) :
    ¬A.GetsOn s ∧ fr'.running = [] ∧ fr'.obj = s.obj := by
  obtain ⟨seen, hseen, hskipped⟩ := h.waiting
  cases hwaiting : fr.waiting with
  | nil =>
    simp only [prefillBody, hwaiting] at hround
    cases hround
    refine ⟨?_, h.running, h.obj⟩
    rintro ⟨id, hfirst, _⟩
    rw [hwaiting, List.append_nil] at hseen
    rw [AscendScheduler.firstInLine, hseen,
      List.find?_eq_none.mpr (by simpa using hskipped)] at hfirst
    contradiction
  | cons id rest =>
    have hmem : id ∈ s.waiting := by simp [hseen, hwaiting]
    have hobj : fr.obj id = s.obj id := by rw [h.obj]
    have hqueued : Queued (fr.obj id) := hobj ▸ hquiet.queued hmem
    obtain ⟨kv, hkv, hover, hskip, hadmits, hrefuses⟩ :=
      prefillBody_empty laws plain hwaiting h.budget h.running h.cache hqueued
    rw [hobj] at hover hskip hadmits hrefuses
    by_cases hlong : A.OverLimit (s.obj id)
    · rw [hover hlong] at hround
      cases hround
    by_cases hreach : A.WithinReach (s.obj id)
    · by_cases hfits : A.Fits (s.obj id)
      · obtain ⟨fr'', hround', _⟩ := hadmits hlong hreach hfits
        rw [hround'] at hround
        cases hround
      · obtain ⟨kv', hround'⟩ := hrefuses hlong hreach hfits
        rw [hround'] at hround
        cases hround
        refine ⟨?_, h.running, h.obj⟩
        rintro ⟨id', hfirst, hget⟩
        rw [h.firstInLine hwaiting (Or.inr hreach)] at hfirst
        cases hfirst
        exact hget.elim hlong hfits
    · rw [hskip hlong hreach] at hround
      cases hround

/-- What was moved stays moved. -/
theorem Moved.again (h : Moved s fr) (hround : A.prefillBody fr = .ok (.again fr')) :
    Moved s fr' := by
  obtain ⟨id, rest, head, _, _, hround⟩ := prefillBody_again hround
  obtain ⟨f, hmove, _⟩ := hround.move
  have hignored : ∀ r : Request, (∃ id' ∈ s.waiting, id' ∉ fr.waiting ∧
      (fr.obj id').status = .finishedIgnored) → ∃ id' ∈ s.waiting, id' ∉ fr.waiting.tail ∧
        (Function.update fr.obj id r id').status = .finishedIgnored := by
    rintro r ⟨id', hs, hid', hstatus⟩
    refine ⟨id', hs, fun hmem => hid' (List.mem_of_mem_tail hmem), ?_⟩
    rw [Function.update_of_ne]
    · exact hstatus
    · rintro rfl
      exact hid' (by simp [head])
  cases hmove with
  | kept => exact h.imp_right (hignored _)
  | ignored => exact h.imp_right (hignored _)
  | admitted => exact Or.inl (by simp)

/-- Leaving the loop keeps what was moved. -/
theorem Moved.leave (h : Moved s fr) (hround : A.prefillBody fr = .ok (.leave fr')) :
    Moved s fr' := by
  cases prefillBody_leave hround with
  | done => exact h
  | @refused id rest fr₁ c n kv head looked alloc =>
    obtain ⟨r, hframe, _, _⟩ := looked.frame_eq
    rw [hframe]
    refine h.imp_right ?_
    rintro ⟨id', hs, hid', hstatus⟩
    refine ⟨id', hs, hid', ?_⟩
    simp only
    rw [Function.update_of_ne]
    · exact hstatus
    · rintro rfl
      exact hid' (by simp [head])

/-- **The prefill loop on an empty cache** gets on with the first in line, or with none. -/
theorem prefillPhase_quiescent (laws : A.EmptyCacheLaws Empty) (plain : A.Plain)
    (hquiet : Quiescent Empty s) (h : A.prefillPhase s = .ok fr') :
    (A.GetsOn s ∧ Moved s fr') ∨ (¬A.GetsOn s ∧ fr'.running = [] ∧ fr'.obj = s.obj) := by
  refine whileLoop_invariant (I := fun fr => Untouched A Empty s fr ∨ (A.GetsOn s ∧ Moved s fr))
    (J := fun fr => (A.GetsOn s ∧ Moved s fr) ∨ (¬A.GetsOn s ∧ fr.running = [] ∧ fr.obj = s.obj))
    ?_ ?_ h (Or.inl ⟨⟨[], rfl, by simp⟩, hquiet.running, rfl, rfl, hquiet.cache⟩)
  · rintro fr fr' (huntouched | ⟨hget, hmoved⟩) hround
    · exact huntouched.again laws plain hquiet hround
    · exact Or.inr ⟨hget, hmoved.again hround⟩
  · rintro fr fr' (huntouched | ⟨hget, hmoved⟩) hround
    · exact Or.inr (huntouched.leave laws plain hquiet hround)
    · exact Or.inl ⟨hget, hmoved.leave hround⟩

/-- **The prefill loop does not raise** there. -/
theorem prefillPhase_ok (laws : A.EmptyCacheLaws Empty) (plain : A.Plain)
    (hquiet : Quiescent Empty s) (e : Fault) : A.prefillPhase s ≠ .error e := by
  intro h
  obtain rfl | ⟨fr, hrounds, herr⟩ := whileLoop_eq_error h
  · obtain hentry | ⟨hentry, _⟩ := prefillPhase_error hquiet.nodup h <;> contradiction
  · obtain ⟨fates, hphase⟩ := prefill_rounds hquiet.nodup hrounds
    cases hwaiting : fr.waiting with
    | nil =>
      simp only [prefillBody, hwaiting] at herr
      contradiction
    | cons id rest =>
      have hseen := hphase.queues.waiting
      rw [hwaiting] at hseen
      have hmem : id ∈ s.waiting := by simp [hseen]
      have hnew : id ∉ fates.map Prod.fst := by
        have hnodup := hquiet.nodup
        rw [hseen, List.nodup_append] at hnodup
        exact fun hid => hnodup.2.2 id hid id (by simp) rfl
      have hqueued : Queued (fr.obj id) := (hphase.objects.unseen id hnew) ▸ hquiet.queued hmem
      obtain ⟨p, hp⟩ := prefillBody_ok laws plain hwaiting hqueued
      rw [hp] at herr
      contradiction

/-! ## The call -/

/-- The call admitted a request, or finished one as `FINISHED_IGNORED`. -/
def Progress (s s' : SchedulerState σ κ) : Prop :=
  s'.running ≠ [] ∨ ∃ id ∈ s.waiting, (s'.obj id).status = .finishedIgnored

theorem Quiescent.nodup_append (h : Quiescent Empty s) : (s.waiting ++ s.running).Nodup := by
  rw [h.running, List.append_nil]
  exact h.nodup

/-- With nothing running, the decode loop does nothing. -/
theorem decodePhase_quiescent {fates : List (ReqId × Fate)} (hquiet : Quiescent Empty s)
    (hdone : PrefillDone A s fates fr) (h : A.decodePhase fr.putBackSkipped = .ok fr') :
    fr' = fr.putBackSkipped := by
  simp only [decodePhase, Finset.card_eq_zero] at h
  split at h
  · next hgate =>
    have hgate' : fr.scheduledReqIds = ∅ := hgate
    have hrunning : fr.running = [] := by
      have hunion := hdone.queues.scheduledReqIds
      rw [hgate', eq_comm, Finset.union_eq_empty, List.toFinset_eq_empty_iff] at hunion
      rw [hdone.queues.running, hquiet.running, hunion.2]
      rfl
    simp only [Frame.putBackSkipped, hrunning, whileLoop, decodeBody, List.getElem?_nil] at h
    cases h
    simp only [Frame.putBackSkipped, hrunning]
  · cases h
    rfl

/-- **A call on an empty cache returns.** -/
theorem schedule_quiescent_ok (laws : A.EmptyCacheLaws Empty) (plain : A.Plain)
    (hquiet : Quiescent Empty s) : ∃ s' out, A.schedule s = .ok (s', out) := by
  cases hschedule : A.schedule s with
  | ok result => exact ⟨result.1, result.2, rfl⟩
  | error e =>
    have hlen : s.running.length ≤ A.maxNumRunningReqs := by simp [hquiet.running]
    have hknown : ∀ id ∈ s.waiting ++ s.running, id ∈ s.requests := by
      simpa [hquiet.running] using hquiet.known
    obtain ⟨_, hprefill | hconn⟩ | ⟨_, id, hid, hstatus⟩ | ⟨_, _, id, hid, _⟩ :=
      schedule_error plain.chunkedPrefill hquiet.nodup_append hlen hknown hschedule
    · exact absurd hprefill (prefillPhase_ok laws plain hquiet e)
    · rw [plain.connector] at hconn
      contradiction
    · obtain h | h := hquiet.status id hid <;> rw [h] at hstatus <;> contradiction
    · rw [hquiet.running] at hid
      exact absurd hid List.not_mem_nil

end AscendScheduler

/-! ## The block pool -/

/-- No request holds a block of the pool. -/
def BlockPool.Idle (numBlocks : ℕ) (p : BlockPool) : Prop :=
  p.freeBlocks.length + 1 = numBlocks ∧ p.held = ∅

/-- **The block pool is such a KV cache manager**, where there is no prefix cache. -/
theorem Deployment.emptyCacheLaws {d : Deployment} (h : ∀ id, d.prefixCache id = []) :
    d.scheduler.EmptyCacheLaws (BlockPool.Idle d.numBlocks) where
  computed p id r hp := by
    refine ⟨p, ?_, hp⟩
    simp [Deployment.scheduler, Deployment.schedulerWith, BlockPool.manager, h, BlockPool.toBlocks]
  hits_lt p id r hr := by
    simpa [Deployment.scheduler, Deployment.schedulerWith, BlockPool.manager, h] using hr
  free p hp := hp.1
  groups p id := rfl
  allocate p id r args hp hr hblocks hcomputed := by
    obtain ⟨hfree, hheld⟩ := hp
    have hheldBy : p.heldBy id = [] := by simp [BlockPool.heldBy, hheld]
    simp only [Deployment.scheduler, Deployment.schedulerWith, BlockPool.manager,
      BlockPool.allocate, hblocks, hr, hcomputed, BlockPool.numBlocksToAllocate, hheldBy,
      KVCacheBlocks.firstGroup, Option.getD_some, List.headD_cons, List.map_nil, List.length_nil,
      Int.natCast_zero, Int.zero_add, Int.sub_zero]
    split_ifs with hlt
    · exact iff_of_true rfl (by omega)
    · exact iff_of_false (by simp) (by omega)

/-- Ten blocks of four tokens, nine of them usable, and a longer context. -/
def Deployment.tenBlocks : Deployment :=
  { Deployment.small with maxModelLen := 100, maxNumBatchedTokens := 100 }

namespace AscendScheduler

theorem tenBlocks_plain : Deployment.tenBlocks.scheduler.Plain :=
  ⟨rfl, rfl, rfl, by decide, by decide⟩

/-- A prompt is added to an idle scheduler. -/
theorem quiescent_one {n : ℕ} (hn : 0 < n) :
    Quiescent (BlockPool.Idle Deployment.tenBlocks.numBlocks)
      (Deployment.tenBlocks.waitingFor [("a", List.replicate n 0)]) := by
  have hwaiting : (Deployment.tenBlocks.waitingFor [("a", List.replicate n 0)]).waiting = ["a"] :=
    rfl
  have hobj : (Deployment.tenBlocks.waitingFor [("a", List.replicate n 0)]).obj "a" =
      .ofPrompt (List.replicate n 0) := by
    simp [Deployment.waitingFor, Deployment.scheduler, Deployment.schedulerWith, vllmBase]
  refine ⟨rfl, rfl, by simp [hwaiting], ?_, ⟨rfl, rfl⟩, ?_, ?_, ?_, ?_⟩ <;>
    simp only [hwaiting, List.forall_mem_singleton, hobj]
  · exact Finset.mem_insert_self _ _
  · exact Or.inl rfl
  · rfl
  · rfl
  · simpa [Request.numTokens, Request.ofPrompt] using hn

end AscendScheduler

end VllmAscend
