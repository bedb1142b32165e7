import VllmAscend.Core.Engine

/-!
# Core/Watermark — what the watermark check foresees, and what an admission takes

    free   ├───────────────────────────┤
    check  ├──────────────┤ predicted ├┤          left: at least the watermark
    taken  ├────────┤ missed │ predicted ├        left: what was missed less

`_check_watermark_for_prefill` foresees the blocks of a request from its new tokens.  The allocation takes
blocks for the external and the lookahead tokens too, and for everything when the KVs are loaded
asynchronously; and `len(req_blocks)` counts the KV cache groups, where the blocks of the request are meant.
So the watermark is kept exactly when what the check misses is there on top of it (`watermark_kept_iff`).
-/

namespace VllmAscend

open Machinery

variable {σ κ M : Type}

/-- The cached blocks that are in the free pool. -/
def numEvictable (blocks : List KVCacheBlock) : ℕ := blocks.countP fun blk => blk.refCnt = 0

namespace AscendScheduler

variable (A : AscendScheduler σ κ M)

/-- The free blocks that the check expects to go. -/
def predictedBlocks (kv : σ) (id : ReqId) (r : Request) (numNewTokens : ℤ) (blocks : List KVCacheBlock) : ℤ :=
  numEvictable blocks +
    (cdiv (numNewTokens + (r.numComputedTokens + blocks.length * A.blockSize)) A.blockSize -
      (A.kvCacheManager.coordinatorGetBlocks kv id).length - blocks.length)

/-- The blocks that the request holds, in its KV cache group. -/
def heldBlocks (kv : σ) (id : ReqId) : ℕ :=
  ((A.kvCacheManager.coordinatorGetBlocks kv id).headD []).length

/-- The free blocks that `allocate_slots` is documented to take: the blocks of all tokens less those that are
there, and the cached ones that it takes out of the free pool. -/
def takenBlocks (kv : σ) (id : ReqId) (r : Request) (args : AllocArgs) : ℤ :=
  let cached := (args.newComputedBlocks.getD []).firstGroup
  let numTokens := r.numComputedTokens + args.numNewComputedTokens + args.numNewTokens + args.numLookaheadTokens
  numEvictable cached + max (cdiv numTokens A.blockSize - A.heldBlocks kv id - cached.length) 0

/-- `allocate_slots` took what it is documented to take. -/
def TakesBlocks (kv : σ) (id : ReqId) (r : Request) (args : AllocArgs) (kv' : σ) : Prop :=
  (A.kvCacheManager.getNumFreeBlocks kv' : ℤ) =
    A.kvCacheManager.getNumFreeBlocks kv - A.takenBlocks kv id r args

/-- **An admission in the prefill loop**: the request at the head of the queue passes the checks, the watermark
last, and gets its blocks.  It may start to run, or wait for its KVs. -/
structure Admission (fr : Frame σ κ) (id : ReqId) (fr₁ : Frame σ κ) (c : ComputedTokens) (n : ℤ)
    (blocks : List KVCacheBlock) (kv : σ) (newBlocks : KVCacheBlocks) : Prop where
  head : fr.waiting.head? = some id
  budget : 0 < fr.tokenBudget
  room : fr.running.length ≠ A.maxNumRunningReqs
  looked : Looked A fr id fr₁ c
  verdict : A.decideTokens fr.tokenBudget (fr₁.obj id) c = .ok (.schedule n blocks)
  watermark : A.checkWatermarkForPrefill fr₁.kv id (fr₁.obj id) n blocks = true
  alloc : A.kvCacheManager.allocateSlots fr₁.kv id (fr₁.obj id) (A.prefillAllocArgs c n) =
    (kv, some newBlocks)

/-- The prefix cache gives whole blocks, and an empty list of blocks is empty. -/
structure HitsWholeBlocks : Prop where
  computed : ∀ kv id r, (A.kvCacheManager.getComputedBlocks kv id r).2.2 =
    (A.kvCacheManager.getComputedBlocks kv id r).2.1.firstGroup.length * A.blockSize
  empty : A.kvCacheManager.createEmptyBlockList.firstGroup = []

/-- The new blocks that the allocation takes for all tokens of the request. -/
def newBlocksTaken (kv : σ) (id : ReqId) (r : Request) (c : ComputedTokens) (n : ℤ) : ℤ :=
  max (cdiv (r.numComputedTokens + c.numNewLocalComputedTokens + (n + c.numExternalComputedTokens) +
    A.numLookaheadTokens) A.blockSize - A.heldBlocks kv id - c.newComputedBlocks.firstGroup.length) 0

/-- The blocks that the allocation takes and the check does not expect.  Of a request that loads its KVs
asynchronously it expects none, cached or new, and believes that each KV cache group holds one already.  Of any
other it expects those of the local and the new tokens, less one for each KV cache group. -/
def missedBlocks (kv : σ) (id : ReqId) (r : Request) (c : ComputedTokens) (n : ℤ) : ℤ :=
  let numGroups := (A.kvCacheManager.coordinatorGetBlocks kv id).length
  if c.loadKvAsync then
    numEvictable c.newComputedBlocks.firstGroup + A.newBlocksTaken kv id r c n + numGroups
  else
    A.newBlocksTaken kv id r c n -
      (cdiv (r.numComputedTokens + c.numNewLocalComputedTokens + n) A.blockSize - numGroups -
        c.newComputedBlocks.firstGroup.length)

variable {A}

/-- **What the check says**: the watermark is there without the expected blocks. -/
theorem checkWatermarkForPrefill_iff {kv : σ} {id : ReqId} {r : Request} {n : ℤ}
    {blocks : List KVCacheBlock} :
    A.checkWatermarkForPrefill kv id r n blocks = true ↔
      A.numBlocks * A.schedulerConfig.watermark ≤
        ((A.kvCacheManager.getNumFreeBlocks kv - A.predictedBlocks kv id r n blocks : ℤ) : ℚ) := by
  rw [checkWatermarkForPrefill, decide_eq_true_eq, not_lt, predictedBlocks, numEvictable, sub_sub]

/-- What is computed of a request: whole blocks, and loads only when nothing is computed yet. -/
theorem Looked.computed_eq {fr fr₁ : Frame σ κ} {id : ReqId} {c : ComputedTokens} (hlaw : A.HitsWholeBlocks)
    (h : Looked A fr id fr₁ c) :
    c.numNewLocalComputedTokens = c.newComputedBlocks.firstGroup.length * A.blockSize ∧
      (c.loadKvAsync = true → (fr₁.obj id).numComputedTokens = 0) := by
  have hobj : fr₁.obj = (A.awaitRemoteKv fr id).1.obj := by rw [h.frame]
  have hcomputed := h.computed
  rw [hobj]
  simp only [getComputed] at hcomputed
  split at hcomputed
  · next hzero =>
    have hhits := hlaw.computed (A.awaitRemoteKv fr id).1.kv id ((A.awaitRemoteKv fr id).1.obj id)
    split at hcomputed
    · obtain ⟨-, -, rfl⟩ := by simpa only [Except.ok.injEq, Prod.mk.injEq] using hcomputed
      exact ⟨hhits, fun _ => hzero⟩
    · split at hcomputed
      · cases hcomputed
      · obtain ⟨-, -, rfl⟩ := by simpa only [Except.ok.injEq, Prod.mk.injEq] using hcomputed
        exact ⟨hhits, fun _ => hzero⟩
  · obtain ⟨-, -, rfl⟩ := by simpa only [Except.ok.injEq, Prod.mk.injEq] using hcomputed
    refine ⟨?_, fun h => by cases h⟩
    rw [hlaw.empty, List.length_nil, Nat.zero_mul]

/-- The tokens that are to be scheduled, and the blocks that the check looks at. -/
theorem decideTokens_blocks {budget n : ℤ} {r : Request} {c : ComputedTokens} {blocks : List KVCacheBlock}
    (h : A.decideTokens budget r c = .ok (.schedule n blocks)) :
    if c.loadKvAsync then n = 0 ∧ blocks = [] else blocks = c.newComputedBlocks.firstGroup := by
  rw [decideTokens] at h
  split at h
  · next hasync =>
    rw [if_pos hasync]
    split at h
    · cases h
      exact ⟨rfl, rfl⟩
    · cases h
  · next hsync =>
    rw [if_neg hsync]
    split at h
    · cases h
    · simp only at h
      split at h
      · cases h
      · split at h
        · cases h
        · split at h
          · cases h
            rfl
          · cases h

/-- **An admission takes what the check expects and what it misses.** -/
theorem Admission.takenBlocks_eq {fr fr₁ : Frame σ κ} {id : ReqId} {c : ComputedTokens} {n : ℤ}
    {blocks : List KVCacheBlock} {kv : σ} {newBlocks : KVCacheBlocks} (hlaw : A.HitsWholeBlocks)
    (h : A.Admission fr id fr₁ c n blocks kv newBlocks) :
    A.takenBlocks fr₁.kv id (fr₁.obj id) (A.prefillAllocArgs c n) =
      A.predictedBlocks fr₁.kv id (fr₁.obj id) n blocks + A.missedBlocks fr₁.kv id (fr₁.obj id) c n := by
  obtain ⟨hhits, hfresh⟩ := h.looked.computed_eq hlaw
  have hverdict := decideTokens_blocks h.verdict
  have htaken : A.takenBlocks fr₁.kv id (fr₁.obj id) (A.prefillAllocArgs c n) =
      numEvictable c.newComputedBlocks.firstGroup + A.newBlocksTaken fr₁.kv id (fr₁.obj id) c n := rfl
  cases hasync : c.loadKvAsync with
  | true =>
    rw [hasync] at hverdict
    obtain ⟨rfl, rfl⟩ := hverdict
    have hnone : A.predictedBlocks fr₁.kv id (fr₁.obj id) 0 [] =
        -(A.kvCacheManager.coordinatorGetBlocks fr₁.kv id).length := by
      rw [predictedBlocks, hfresh hasync]
      simp [numEvictable, cdiv]
    rw [htaken, hnone, missedBlocks, if_pos hasync]
    omega
  | false =>
    rw [hasync] at hverdict
    obtain rfl := hverdict
    have hcounted : n + ((fr₁.obj id).numComputedTokens +
        (c.newComputedBlocks.firstGroup.length : ℤ) * A.blockSize) =
          (fr₁.obj id).numComputedTokens + c.numNewLocalComputedTokens + n := by
      rw [hhits, Nat.cast_mul]
      ring
    rw [htaken, predictedBlocks, hcounted, missedBlocks, if_neg (by simp [hasync])]
    omega

/-- **The watermark is kept exactly when the free blocks that the check leaves are above it by what the check
misses**, at every admission that any run of the scheduler comes to. -/
theorem watermark_kept_iff (hlaw : A.HitsWholeBlocks) {e₀ e : Engine σ κ M} (_ : e₀.Initial)
    (_ : Run A.step Event.Allowed e₀ e) {fr fr₁ : Frame σ κ} (_ : Rounds A.prefillBody (A.start e.sched) fr)
    {id : ReqId} {c : ComputedTokens} {n : ℤ} {blocks : List KVCacheBlock} {kv : σ}
    {newBlocks : KVCacheBlocks} (hadmission : A.Admission fr id fr₁ c n blocks kv newBlocks)
    (htaken : A.TakesBlocks fr₁.kv id (fr₁.obj id) (A.prefillAllocArgs c n) kv) :
    A.numBlocks * A.schedulerConfig.watermark ≤ A.kvCacheManager.getNumFreeBlocks kv ↔
      A.numBlocks * A.schedulerConfig.watermark + A.missedBlocks fr₁.kv id (fr₁.obj id) c n ≤
        ((A.kvCacheManager.getNumFreeBlocks fr₁.kv -
          A.predictedBlocks fr₁.kv id (fr₁.obj id) n blocks : ℤ) : ℚ) := by
  have hfree : ((A.kvCacheManager.getNumFreeBlocks kv : ℤ) : ℚ) =
      ((A.kvCacheManager.getNumFreeBlocks fr₁.kv - (A.predictedBlocks fr₁.kv id (fr₁.obj id) n blocks +
        A.missedBlocks fr₁.kv id (fr₁.obj id) c n) : ℤ) : ℚ) := by
    rw [← hadmission.takenBlocks_eq hlaw]
    exact congrArg _ htaken
  rw [Int.cast_natCast] at hfree
  rw [hfree]
  push_cast
  constructor <;> intro h <;> linarith

/-- `cdiv` rounds up. -/
theorem cdiv_le_cdiv {a a' : ℤ} {b : ℕ} (h : a ≤ a') : cdiv a b ≤ cdiv a' b := by
  have hneg : ∀ x : ℤ, cdiv x b = -(-x / b) := fun x => by
    rw [cdiv, ← Int.neg_fdiv_neg, neg_neg, Int.fdiv_eq_ediv_of_nonneg _ (Int.natCast_nonneg b)]
  rw [hneg, hneg]
  obtain rfl | hpos := Nat.eq_zero_or_pos b
  · simp
  · exact neg_le_neg (Int.ediv_le_ediv (by exact_mod_cast hpos) (neg_le_neg h))

/-- **Of a request that holds no blocks the check always misses some**: at least one for each KV cache group. -/
theorem numGroups_le_missedBlocks {kv : σ} {id : ReqId} {r : Request} {c : ComputedTokens} {n : ℤ}
    (hheld : A.heldBlocks kv id = 0) :
    (A.kvCacheManager.coordinatorGetBlocks kv id).length ≤ A.missedBlocks kv id r c n := by
  have hmore : cdiv (r.numComputedTokens + c.numNewLocalComputedTokens + n) A.blockSize ≤
      cdiv (r.numComputedTokens + c.numNewLocalComputedTokens + (n + c.numExternalComputedTokens) +
        A.numLookaheadTokens) A.blockSize := cdiv_le_cdiv (by omega)
  rw [missedBlocks, newBlocksTaken, hheld]
  split <;> omega

end AscendScheduler

/-- A deployment that keeps two of its three usable blocks free. -/
def Deployment.halfReserved : Deployment := { Deployment.small with numBlocks := 4, watermark := 1 / 2 }

theorem Deployment.hitsWholeBlocks (d : Deployment) : d.scheduler.HitsWholeBlocks where
  computed kv id r := by
    simp [Deployment.scheduler, Deployment.schedulerWith, BlockPool.manager, KVCacheBlocks.firstGroup,
      BlockPool.toBlocks]
  empty := rfl

/-- The deployment with a request of two blocks in its queue. -/
def Deployment.withPrompt (d : Deployment) : Engine BlockPool Unit Unit :=
  { d.engine with
    sched := d.scheduler.super.addRequest d.engine.sched "a" (.ofPrompt [1, 2, 3, 4, 5])
    added := {"a"} }

theorem Deployment.withPrompt_run (d : Deployment) :
    Run d.scheduler.step Event.Allowed d.engine d.withPrompt := by
  have hallowed : Event.Allowed d.engine (.addRequest "a" (.ofPrompt [1, 2, 3, 4, 5])) :=
    ⟨Request.ofPrompt_fresh _, List.not_mem_nil, List.not_mem_nil⟩
  exact Run.refl.snoc hallowed rfl

/-- What is computed of the request: nothing. -/
def noneComputed : ComputedTokens := ⟨[[]], 0, 0, false, 0⟩

theorem Deployment.halfReserved_admission :
    halfReserved.scheduler.Admission (halfReserved.scheduler.start halfReserved.withPrompt.sched) "a"
      (halfReserved.scheduler.start halfReserved.withPrompt.sched) noneComputed 5 []
      ⟨[3], (∅ : Dict (List BlockId)).insert "a" [1, 2]⟩ [BlockPool.toBlocks [1, 2]] where
  head := rfl
  budget := by decide
  room := by decide
  looked := ⟨rfl, rfl, rfl, rfl⟩
  verdict := by rfl
  watermark := by decide +kernel
  alloc := by rfl

theorem Deployment.halfReserved_takesBlocks :
    halfReserved.scheduler.TakesBlocks (halfReserved.scheduler.start halfReserved.withPrompt.sched).kv "a"
      ((halfReserved.scheduler.start halfReserved.withPrompt.sched).obj "a")
      (halfReserved.scheduler.prefillAllocArgs noneComputed 5)
      ⟨[3], (∅ : Dict (List BlockId)).insert "a" [1, 2]⟩ := by
  rfl

/-- Of that admission the check misses one block. -/
theorem AscendScheduler.watermark_kept_iff_halfReserved :
    Deployment.halfReserved.scheduler.numBlocks * Deployment.halfReserved.scheduler.schedulerConfig.watermark ≤
        Deployment.halfReserved.scheduler.kvCacheManager.getNumFreeBlocks
          ⟨[3], (∅ : Dict (List BlockId)).insert "a" [1, 2]⟩ ↔
      Deployment.halfReserved.scheduler.numBlocks * Deployment.halfReserved.scheduler.schedulerConfig.watermark +
          Deployment.halfReserved.scheduler.missedBlocks
            (Deployment.halfReserved.scheduler.start Deployment.halfReserved.withPrompt.sched).kv "a"
            ((Deployment.halfReserved.scheduler.start Deployment.halfReserved.withPrompt.sched).obj "a")
            noneComputed 5 ≤
        ((Deployment.halfReserved.scheduler.kvCacheManager.getNumFreeBlocks
            (Deployment.halfReserved.scheduler.start Deployment.halfReserved.withPrompt.sched).kv -
          Deployment.halfReserved.scheduler.predictedBlocks
            (Deployment.halfReserved.scheduler.start Deployment.halfReserved.withPrompt.sched).kv "a"
            ((Deployment.halfReserved.scheduler.start Deployment.halfReserved.withPrompt.sched).obj "a") 5 [] : ℤ) :
              ℚ) :=
  AscendScheduler.watermark_kept_iff Deployment.halfReserved.hitsWholeBlocks Deployment.halfReserved.engine_initial
    Deployment.halfReserved.withPrompt_run Relation.ReflTransGen.refl Deployment.halfReserved_admission
    Deployment.halfReserved_takesBlocks

/-- **The watermark is not always kept**: the check expects one block where two are taken, and one of the two
free blocks that were to be left is left. -/
theorem AscendScheduler.watermark_not_kept : ∃ e fr fr₁ id c n blocks kv newBlocks,
    Run Deployment.halfReserved.scheduler.step Event.Allowed Deployment.halfReserved.engine e ∧
      Rounds Deployment.halfReserved.scheduler.prefillBody (Deployment.halfReserved.scheduler.start e.sched) fr ∧
      Deployment.halfReserved.scheduler.Admission fr id fr₁ c n blocks kv newBlocks ∧
      Deployment.halfReserved.scheduler.TakesBlocks fr₁.kv id (fr₁.obj id)
        (Deployment.halfReserved.scheduler.prefillAllocArgs c n) kv ∧
      ¬Deployment.halfReserved.scheduler.numBlocks *
          Deployment.halfReserved.scheduler.schedulerConfig.watermark ≤
        Deployment.halfReserved.scheduler.kvCacheManager.getNumFreeBlocks kv :=
  ⟨_, _, _, _, _, _, _, _, _, Deployment.halfReserved.withPrompt_run, Relation.ReflTransGen.refl,
    Deployment.halfReserved_admission, Deployment.halfReserved_takesBlocks, by decide +kernel⟩

end VllmAscend
