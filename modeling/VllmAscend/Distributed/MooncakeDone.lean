import VllmAscend.Distributed.MooncakeSystem

/-!
# Distributed/MooncakeDone — what the two engines are told

    every rank tried to read ⇒ decode rank 0 returns the request
    every rank told a prefill rank ⇒ prefill rank 0 returns the request, once

The decode engine resumes a request that rank 0 returned.  Whether its blocks are there is another
question: the `finally` block signals after a transfer that raised, too, so they are there exactly
where no transfer of the request failed.  The prefill engine frees the blocks of a request that its
rank 0 returned, and by then no rank reads them any more.
-/

namespace VllmAscend

open Machinery

namespace MooncakeSystem

variable {s s' : MooncakeSystem} {d : ℕ} {id : ReqId} {topology : TpTopology} {port : ℕ}
  {threads : ℕ → KVCacheRecvingThread}

/-- Every decode rank's part of the request is there. -/
def FilledOnAll (s : MooncakeSystem) (id : ReqId) : Prop :=
  ∀ d < s.topology.decodeTpSize, ∃ t, (s.loads d id).transfer = some t ∧
    t.request.requestId = id ∧ t.Filled

/-- No transfer of the request failed. -/
def ReadableOnAll (s : MooncakeSystem) (id : ReqId) : Prop :=
  ∀ d < s.topology.decodeTpSize, ∀ t, (s.loads d id).transfer = some t → t.Readable

/-- A decode rank is done reading the request. -/
structure ReadsOver (s : MooncakeSystem) (d : ℕ) (id : ReqId) : Prop where
  transferred : (s.loads d id).transfer.isSome
  not_reading : ∀ req, s.handling d = some (.transferring req) → req.requestId ≠ id
  not_queued : ∀ req ∈ (s.threads d).requestQueue, req.requestId ≠ id

/-- Every decode rank sent the DONE message of the request. -/
def NotifiedByAll (s : MooncakeSystem) (id : ReqId) : Prop :=
  ∀ d < s.topology.decodeTpSize, (s.loads d id).isNotified

/-- What is on its way can arrive. -/
def Deliverable (s : MooncakeSystem) : Prop :=
  (∀ m ∈ s.doneRecving, ∃ s', s.step (.recvDone m) = .ok s') ∧
    ∀ signal ∈ s.prefill.pushed, ∃ s', s.step (.listenPrefill signal) = .ok s'

namespace Orderly

theorem readsOver (h : s.Orderly) (hload : (s.loads d id).transfer.isSome) : s.ReadsOver d id := by
  refine ⟨hload, fun req hreq heq => ?_, fun req hreq heq => ?_⟩
  · subst heq
    rw [(h.transferring d req hreq).2.1] at hload
    contradiction
  · subst heq
    rw [(h.queued d req hreq).2.1] at hload
    contradiction

theorem deliverable (h : s.Orderly) : s.Deliverable := by
  refine ⟨fun m hm => ?_, fun signal hsignal => ⟨_, if_pos hsignal⟩⟩
  obtain ⟨_, _, p, hp, hport⟩ := h.messages m hm
  have hrank : s.prefillRank m = some p := by
    rw [prefillRank, hport, if_pos ⟨Nat.le_add_right _ _, by rwa [Nat.add_sub_cancel_left]⟩,
      Nat.add_sub_cancel_left]
  simp only [MooncakeSystem.step, if_pos hm, hrank]
  exact ⟨_, rfl⟩

/-- When no message is on its way, what was sent was delivered. -/
theorem delivered (h : s.Orderly) (hmessages : s.doneRecving = 0)
    (hload : (s.loads d id).isNotified = true) : (s.loads d id).isDelivered = true := by
  cases hstate : s.loads d id with
  | notified t =>
    obtain ⟨m, hm, _⟩ := h.notified d id t hstate
    rw [hmessages] at hm
    exact absurd hm (Multiset.notMem_zero m)
  | delivered t => rfl
  | absent | queued | reading | read t =>
    rw [hstate] at hload
    contradiction

end Orderly

/-! ## A small system -/

/-- Two prefill ranks and as many decode ranks. -/
def pair : TpTopology where
  prefillTpSize := 2
  decodeTpSize := 2
  decodeTpSize_pos := by decide
  decodeTpSize_le := le_rfl
  sample _ := [0, 1]
  sample_length _ := rfl
  sample_nodup _ := by simp
  sample_lt _ p hp := by
    simp only [List.mem_cons, List.not_mem_nil, or_false] at hp
    omega

/-- The two engines, with one layer. -/
def small : MooncakeSystem := init pair 50 fun rank =>
  .init "decode" (60 + rank) [1000] [16] (Or.inl rfl)

def smallMeta : Mooncake.ReqMeta := ⟨[3], [7], "host", 50, "prefill"⟩

/-- The events of one request, where the read of rank 1 returns `ret`. -/
def smallEvents (ret : ℤ) : List MooncakeEvent :=
  [.startLoadKv 0 "a" smallMeta, .startLoadKv 1 "a" smallMeta, .get 1, .get 0,
    .transfer 1 (some ⟨"prefill", 9, [2000]⟩) ret, .transfer 0 (some ⟨"prefill", 8, [4000]⟩) 0,
    .sendDone 1, .sendDone 0, .recvDone ⟨51, "a", 1⟩, .listenDecode ("a", 1),
    .recvDone ⟨50, "a", 0⟩, .getFinishedDecode 0, .listenPrefill ("a", 1), .getFinishedPrefill 0]

/-! ## The two engines -/

/-- **A request that the decode engine is told to be received is filled on all ranks exactly where
no transfer of it failed.** -/
theorem received_iff_readable (run : Run step Once (init topology port threads) s) (id : ReqId)
    (hreceived : 0 < s.decode.returned id) : s.FilledOnAll id ↔ s.ReadableOnAll id := by
  have h := Orderly.of_run run
  have hall := h.decode.all_of_returned hreceived
  constructor
  · intro hfilled d hd t ht
    obtain ⟨t', ht', _, hfill⟩ := hfilled d hd
    cases ht.symm.trans ht'
    exact t.filled_iff_readable.mp hfill
  · intro hreadable d hd
    have hmem := Finset.mem_range.mpr hd
    rw [← hall, mem_ranks, Option.isSome_iff_exists] at hmem
    obtain ⟨_, t, ht⟩ := hmem
    exact ⟨t, ht, h.request d id t ht, t.filled_iff_readable.mpr (hreadable d hd t ht)⟩

theorem received_iff_readable_small : ∃ s, feed step small (smallEvents 0) = .ok s ∧
    0 < s.decode.returned "a" ∧ (s.FilledOnAll "a" ↔ s.ReadableOnAll "a") := by
  obtain ⟨s, hs, hreceived⟩ : Returns (feed step small (smallEvents 0))
      fun s => 0 < s.decode.returned "a" := by
    decide +kernel
  exact ⟨s, hs, hreceived, received_iff_readable (Run.of_feed hs (by decide +kernel)) "a" hreceived⟩

/-- **A read that fails at one rank** does not keep the request from being received. -/
theorem received_unread :
    ∃ s, Run step Once small s ∧ 0 < s.decode.returned "a" ∧ ¬s.FilledOnAll "a" := by
  obtain ⟨s, hs, hreceived, htopology, hread⟩ : Returns (feed step small (smallEvents (-1)))
      fun s => 0 < s.decode.returned "a" ∧ 1 < s.topology.decodeTpSize ∧
        ((s.loads 1 "a").transfer.map fun t => (t.request.localBlockIds, t.ret)) =
          some ([3], -1) := by
    decide +kernel
  refine ⟨s, Run.of_feed hs (by decide +kernel), hreceived, fun hfilled => ?_⟩
  obtain ⟨t, ht, _, hfill⟩ := hfilled 1 htopology
  rw [ht, Option.map_some, Option.some.injEq, Prod.mk.injEq] at hread
  obtain ⟨hblocks, hret⟩ := hread
  obtain hempty | ⟨_, hret'⟩ := hfill
  · rw [hblocks] at hempty
    contradiction
  · omega

/-- **The prefill engine frees the blocks of a request when no decode rank reads them any more**,
once, and no message is lost on the way. -/
theorem frees_after_reads (run : Run step Once (init topology port threads) s) (id : ReqId) :
    (0 < s.prefill.returned id → ∀ d < s.topology.decodeTpSize, s.ReadsOver d id) ∧
      s.prefill.returned id ≤ 1 ∧ s.Deliverable ∧
      (s.doneRecving = 0 → s.prefill.pushed = 0 → s.NotifiedByAll id →
        ∀ s', s.step (.getFinishedPrefill 0) = .ok s' → s'.prefill.returned id = 1) := by
  have h := Orderly.of_run run
  refine ⟨fun hreturned d hd => h.readsOver ?_, h.prefill.returned_le_one, h.deliverable,
    fun hmessages hpushed hnotified s' hstep => ?_⟩
  · have hmem := Finset.mem_range.mpr hd
    rw [← h.prefill.all_of_returned hreturned, mem_ranks] at hmem
    exact LoadState.transfer_of_isDelivered hmem.2
  · cases hstep
    refine h.prefill.returned_getFinished ?_ fun r hr => ?_
    · refine (h.prefill.range id).antisymm fun d hd => mem_ranks.mpr ?_
      have hlt := Finset.mem_range.mp hd
      exact ⟨hlt, h.delivered hmessages (hnotified d hlt)⟩
    · rw [hpushed] at hr
      exact Multiset.notMem_zero _ hr

theorem frees_after_reads_small : ∃ s, feed step small (smallEvents 0) = .ok s ∧
    (0 < s.prefill.returned "a" → ∀ d < s.topology.decodeTpSize, s.ReadsOver d "a") ∧
      s.prefill.returned "a" ≤ 1 ∧ s.Deliverable ∧
      (s.doneRecving = 0 → s.prefill.pushed = 0 → s.NotifiedByAll "a" →
        ∀ s', s.step (.getFinishedPrefill 0) = .ok s' → s'.prefill.returned "a" = 1) := by
  obtain ⟨s, hs⟩ := exists_of_isOk (x := feed step small (smallEvents 0)) (by decide +kernel)
  exact ⟨s, hs, frees_after_reads (Run.of_feed hs (by decide +kernel)) "a"⟩

end MooncakeSystem

end VllmAscend
