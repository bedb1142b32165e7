import VllmAscend.Distributed.TaskTracker

/-!
# Distributed/DoneSignals — the trackers of one engine, and the signals between them

    update_done_task_count at rank 0 ────────────────▸ counted
    update_done_task_count at rank p ──pushed──▸ ⋯ ──▸ counted, at rank 0, in any order

Every rank of an engine has a tracker and rank 0 counts for all.  `Gathers` says of every signal
given to some rank that it is counted or on its way, so what rank 0 returns was signalled by all
(`Gathers.all_of_returned`), it is returned once (`Gathers.returned_le_one`), and when nothing is on
its way the next call returns it (`Gathers.returned_getFinished`).
-/

namespace VllmAscend

open Machinery

/-- The trackers, the signals on their way to rank 0, and how often each request was returned. -/
structure DoneSignals where
  trackers : ℕ → KVCacheTaskTracker
  pushed : Multiset (ReqId × ℕ)
  returned : ReqId → ℕ

namespace DoneSignals

/-- At `__init__`, with `n` signals to count for each request. -/
def init (n : ℕ) : DoneSignals := ⟨fun rank => .init rank n, 0, fun _ => 0⟩

/-- `update_done_task_count` of the tracker of `rank`. -/
def updateDoneTaskCount (self : DoneSignals) (rank : ℕ) (requestId : ReqId) (tpRank : ℕ) :
    DoneSignals :=
  let updated := (self.trackers rank).updateDoneTaskCount requestId tpRank
  { self with
    trackers := Function.update self.trackers rank updated.1
    pushed := match updated.2 with
      | some signal => signal ::ₘ self.pushed
      | none => self.pushed }

/-- A turn of `_listen_for_completion_signals`, at rank 0. -/
def listen (self : DoneSignals) (signal : ReqId × ℕ) : DoneSignals :=
  { self with
    trackers := Function.update self.trackers 0
      ((self.trackers 0).incrementTaskCount signal.1 signal.2)
    pushed := self.pushed.erase signal }

/-- `get_finished` of `rank`. -/
def getFinished (self : DoneSignals) (rank : ℕ) : DoneSignals :=
  let finished := (self.trackers rank).getAndClearFinishedRequests
  { self with
    trackers := Function.update self.trackers rank finished.2
    returned := fun id => self.returned id + if id ∈ finished.1 then 1 else 0 }

/-- What arrived at rank 0 of what was sent. -/
def arrived (self : DoneSignals) (sent : ReqId → Finset ℕ) (id : ReqId) : Finset ℕ :=
  (sent id).filter fun r => (id, r) ∉ self.pushed

/-- Each signal given to some rank is counted by rank 0 or on its way there. -/
structure Gathers (n : ℕ) (sent : ReqId → Finset ℕ) (s : DoneSignals) : Prop where
  tpRank : ∀ p, (s.trackers p).tpRank = p
  targetCount : (s.trackers 0).targetCount = n
  idle : ∀ p, p ≠ 0 → (s.trackers p).finishedRequests = ∅
  nodup : s.pushed.Nodup
  pushed : ∀ x ∈ s.pushed, x.2 ∈ sent x.1
  range : ∀ id, sent id ⊆ Finset.range n
  tracks : (s.trackers 0).barrier.Tracks n (s.arrived sent) s.returned

namespace Gathers

variable {n p r : ℕ} {id : ReqId} {sent : ReqId → Finset ℕ} {s : DoneSignals}

theorem initial (hn : 0 < n) : Gathers n (fun _ => ∅) (init n) where
  tpRank _ := rfl
  targetCount := rfl
  idle _ _ := rfl
  nodup := Multiset.nodup_zero
  pushed x hx := absurd hx (Multiset.notMem_zero x)
  range _ := Finset.empty_subset _
  tracks := .initial hn

theorem arrived_subset (h : Gathers n sent s) (id : ReqId) :
    s.arrived sent id ⊆ Finset.range n :=
  (Finset.filter_subset _ _).trans (h.range id)

/-- A signal that did not arrive leaves room for itself. -/
theorem card_lt (h : Gathers n sent s) (hr : r < n) (hnot : r ∉ s.arrived sent id) :
    (s.arrived sent id).card < n := by
  have hsub : insert r (s.arrived sent id) ⊆ Finset.range n :=
    Finset.insert_subset (Finset.mem_range.mpr hr) (h.arrived_subset id)
  have hcard := Finset.card_le_card hsub
  rw [Finset.card_insert_of_notMem hnot, Finset.card_range] at hcard
  exact hcard

/-- A signal that rank 0 gets itself. -/
theorem arrived_insert (hnot : (id, r) ∉ s.pushed) :
    s.arrived (Function.update sent id (insert r (sent id))) =
      Function.update (s.arrived sent) id (insert r (s.arrived sent id)) := by
  funext id'
  by_cases hne : id' = id
  · subst hne
    simp [arrived, Finset.filter_insert, hnot]
  · simp [arrived, hne]

/-- A signal that is pushed did not arrive. -/
theorem arrived_push (trackers : ℕ → KVCacheTaskTracker) (returned : ReqId → ℕ)
    (hnot : r ∉ sent id) :
    arrived ⟨trackers, (id, r) ::ₘ s.pushed, returned⟩
      (Function.update sent id (insert r (sent id))) = s.arrived sent := by
  funext id'
  by_cases hne : id' = id
  · subst hne
    ext r'
    by_cases hr : r' = r
    · subst hr
      simp [arrived, hnot]
    · simp [arrived, hr]
  · simp [arrived, hne]

/-- A signal that is received arrived. -/
theorem arrived_erase (trackers : ℕ → KVCacheTaskTracker) (returned : ReqId → ℕ)
    (hnodup : s.pushed.Nodup) (hmem : r ∈ sent id) :
    arrived ⟨trackers, s.pushed.erase (id, r), returned⟩ sent =
      Function.update (s.arrived sent) id (insert r (s.arrived sent id)) := by
  funext id'
  by_cases hne : id' = id
  · subst hne
    ext r'
    by_cases hr : r' = r
    · subst hr
      simp [arrived, hnodup.mem_erase_iff, hmem]
    · simp [arrived, hnodup.mem_erase_iff, hr]
  · ext r'
    simp [arrived, hnodup.mem_erase_iff, hne]

/-- **A rank is given a signal** that none was given before. -/
theorem updateDoneTaskCount (h : Gathers n sent s) (hr : r < n) (hnot : r ∉ sent id) :
    Gathers n (Function.update sent id (insert r (sent id))) (s.updateDoneTaskCount p id r) := by
  have hpushed : (id, r) ∉ s.pushed := fun hmem => hnot (h.pushed _ hmem)
  have hrange : ∀ id', Function.update sent id (insert r (sent id)) id' ⊆ Finset.range n := by
    intro id'
    by_cases hne : id' = id
    · subst hne
      rw [Function.update_self]
      exact Finset.insert_subset (Finset.mem_range.mpr hr) (h.range id')
    · rw [Function.update_of_ne hne]
      exact h.range id'
  have hsent : ∀ x : ReqId × ℕ, x.2 ∈ sent x.1 →
      x.2 ∈ Function.update sent id (insert r (sent id)) x.1 := by
    intro x hx
    by_cases hne : x.1 = id
    · rw [hne, Function.update_self]
      exact Finset.mem_insert_of_mem (hne ▸ hx)
    · rwa [Function.update_of_ne hne]
  by_cases hp : p = 0
  · -- rank 0 counts it
    subst hp
    have hupdate : s.updateDoneTaskCount 0 id r = { s with
        trackers := Function.update s.trackers 0 ((s.trackers 0).incrementTaskCount id r) } := by
      simp only [DoneSignals.updateDoneTaskCount, KVCacheTaskTracker.updateDoneTaskCount,
        h.tpRank 0, if_true]
    rw [hupdate]
    refine ⟨fun p => ?_, ?_, fun p hp => ?_, h.nodup, fun x hx => hsent x (h.pushed x hx), hrange,
      ?_⟩
    · by_cases hp : p = 0
      · subst hp
        simp [h.tpRank]
      · simp [hp, h.tpRank]
    · simp [h.targetCount]
    · simp only [Function.update_of_ne hp]
      exact h.idle p hp
    · simp only [Function.update_self, KVCacheTaskTracker.barrier_incrementTaskCount,
        h.targetCount]
      have harrived : s.arrived (Function.update sent id (insert r (sent id))) =
          Function.update (s.arrived sent) id (insert r (s.arrived sent id)) :=
        arrived_insert hpushed
      have hfree : r ∉ s.arrived sent id := fun hmem => hnot (Finset.mem_filter.mp hmem).1
      exact harrived ▸ h.tracks.signal (h.card_lt hr hfree)
  · -- another rank pushes it
    have hupdate : s.updateDoneTaskCount p id r = { s with pushed := (id, r) ::ₘ s.pushed } := by
      simp only [DoneSignals.updateDoneTaskCount, KVCacheTaskTracker.updateDoneTaskCount,
        h.tpRank p, if_neg hp, Function.update_eq_self]
    rw [hupdate]
    refine ⟨h.tpRank, h.targetCount, h.idle, Multiset.nodup_cons.mpr ⟨hpushed, h.nodup⟩, ?_, hrange,
      ?_⟩
    · intro x hx
      obtain rfl | hx := Multiset.mem_cons.mp hx
      · simp
      · exact hsent x (h.pushed x hx)
    · have harrived := arrived_push (s := s) s.trackers s.returned hnot
      exact harrived ▸ h.tracks

/-- **Rank 0 receives a signal** that another rank pushed. -/
theorem listen {x : ReqId × ℕ} (h : Gathers n sent s) (hx : x ∈ s.pushed) :
    Gathers n sent (s.listen x) := by
  obtain ⟨id, r⟩ := x
  have hmem : r ∈ sent id := h.pushed _ hx
  refine ⟨fun p => ?_, ?_, fun p hp => ?_, h.nodup.erase _,
    fun x hx => h.pushed x (Multiset.mem_of_mem_erase hx), h.range, ?_⟩
  · by_cases hp : p = 0
    · subst hp
      simp [DoneSignals.listen, h.tpRank]
    · simp [DoneSignals.listen, hp, h.tpRank]
  · simp [DoneSignals.listen, h.targetCount]
  · simp only [DoneSignals.listen, Function.update_of_ne hp]
    exact h.idle p hp
  · simp only [DoneSignals.listen, Function.update_self,
      KVCacheTaskTracker.barrier_incrementTaskCount, h.targetCount]
    have hfree : r ∉ s.arrived sent id := fun hin => (Finset.mem_filter.mp hin).2 hx
    have harrived := arrived_erase (s := s)
      (Function.update s.trackers 0 ((s.trackers 0).incrementTaskCount id r)) s.returned
      h.nodup hmem
    exact harrived ▸ h.tracks.signal
      (h.card_lt (Finset.mem_range.mp (h.range id hmem)) hfree)

/-- **A rank returns what it finished**; that is nothing but for rank 0. -/
theorem getFinished (h : Gathers n sent s) : Gathers n sent (s.getFinished p) := by
  by_cases hp : p = 0
  · subst hp
    refine ⟨fun p => ?_, ?_, fun p hp => ?_, h.nodup, h.pushed, h.range, ?_⟩
    · by_cases hp : p = 0
      · subst hp
        simp [DoneSignals.getFinished, KVCacheTaskTracker.getAndClearFinishedRequests, h.tpRank]
      · simp [DoneSignals.getFinished, hp, h.tpRank]
    · exact h.targetCount
    · simp only [DoneSignals.getFinished, Function.update_of_ne hp]
      exact h.idle p hp
    · simp only [DoneSignals.getFinished, Function.update_self]
      exact h.tracks.take
  · have hsame : s.getFinished p = s := by
      obtain ⟨trackers, pushed, returned⟩ := s
      have hclear : (trackers p).getAndClearFinishedRequests = (∅, trackers p) := by
        have hidle := h.idle p hp
        simp only at hidle
        simp only [KVCacheTaskTracker.getAndClearFinishedRequests, hidle, Prod.mk.injEq, true_and]
        rw [← hidle]
      simp [DoneSignals.getFinished, hclear]
    rw [hsame]
    exact h

/-! ## What rank 0 returns -/

/-- **What was returned, all ranks signalled.** -/
theorem all_of_returned (h : Gathers n sent s) (hreturned : 0 < s.returned id) :
    sent id = Finset.range n := by
  have hcard : n ≤ (s.arrived sent id).card := by
    by_contra hlt
    have hzero := (h.tracks.counting id (not_le.mp hlt)).2
    omega
  refine (h.range id).antisymm ?_
  rw [← Finset.eq_of_subset_of_card_le (h.arrived_subset id) (by simpa using hcard)]
  exact Finset.filter_subset _ _

theorem returned_le_one (h : Gathers n sent s) : s.returned id ≤ 1 := by
  by_cases hcard : n ≤ (s.arrived sent id).card
  · have hone := (h.tracks.complete id hcard).2
    omega
  · have hzero := (h.tracks.counting id (not_le.mp hcard)).2
    omega

/-- **What all ranks signalled**, and is not on its way any more, the next call returns, if it was
not returned before. -/
theorem returned_getFinished (h : Gathers n sent s) (hall : sent id = Finset.range n)
    (hpushed : ∀ r, (id, r) ∉ s.pushed) : (s.getFinished 0).returned id = 1 := by
  have harrived : s.arrived sent id = Finset.range n := by
    rw [arrived, Finset.filter_true_of_mem fun r _ => hpushed r, hall]
  exact (h.tracks.complete id (by rw [harrived, Finset.card_range])).2

end Gathers

end DoneSignals

end VllmAscend
