import VllmAscend.Core.Request
import VllmAscend.Machinery.Barrier
import VllmAscend.Machinery.Run

/-!
# Distributed/TaskTracker — `KVCacheTaskTracker`, and what it returns in total

    done(request_id, tp_rank) ──▸ done_task_counts[request_id] ∪ {tp_rank}
                                  target_count of them ──▸ finished_requests ──▸ the caller

Rank 0 counts the ranks that are done with a request, and the other ranks send it their signals.  A
duplicate is ignored as long as the set it is in is there.  The set is dropped when it is full, so a
duplicate that comes later starts a new one: that leaves an entry behind, or returns the request
again.
-/

namespace VllmAscend

open Machinery

/-- The fields that change; `tp_rank` says whether it counts or sends. -/
structure KVCacheTaskTracker where
  tpRank : ℕ
  targetCount : ℕ
  doneTaskCounts : Dict (Finset ℕ)
  finishedRequests : Finset ReqId

namespace KVCacheTaskTracker

/-- At `__init__`. -/
def init (tpRank targetCount : ℕ) : KVCacheTaskTracker := ⟨tpRank, targetCount, ∅, ∅⟩

/-- `self.done_task_counts[request_id]`, a `defaultdict(set)`. -/
def doneRanks (self : KVCacheTaskTracker) (requestId : ReqId) : Finset ℕ :=
  (self.doneTaskCounts.lookup requestId).getD ∅

/-- `_increment_task_count`. -/
def incrementTaskCount (self : KVCacheTaskTracker) (requestId : ReqId) (tpRank : ℕ) :
    KVCacheTaskTracker :=
  -- a rank that is in the set had its entry made before
  if tpRank ∈ self.doneRanks requestId then self
  else
    let ranks := insert tpRank (self.doneRanks requestId)
    if ranks.card = self.targetCount then
      { self with
        finishedRequests := insert requestId self.finishedRequests
        doneTaskCounts := self.doneTaskCounts.erase requestId }
    else { self with doneTaskCounts := self.doneTaskCounts.insert requestId ranks }

/-- `update_done_task_count`; a rank other than 0 sends the pair to rank 0. -/
def updateDoneTaskCount (self : KVCacheTaskTracker) (requestId : ReqId) (tpRank : ℕ) :
    KVCacheTaskTracker × Option (ReqId × ℕ) :=
  if self.tpRank = 0 then (self.incrementTaskCount requestId tpRank, none)
  else (self, some (requestId, tpRank))

/-- `get_and_clear_finished_requests`. -/
def getAndClearFinishedRequests (self : KVCacheTaskTracker) : Finset ReqId × KVCacheTaskTracker :=
  (self.finishedRequests, { self with finishedRequests := ∅ })

/-! ## The tracker is a barrier -/

/-- The counts of a tracker, key by key. -/
def barrier (self : KVCacheTaskTracker) : Barrier ReqId ℕ := ⟨self.doneRanks, self.finishedRequests⟩

/-- Every entry counts something. -/
def EntriesNonempty (self : KVCacheTaskTracker) : Prop :=
  ∀ id ranks, self.doneTaskCounts.lookup id = some ranks → ranks.Nonempty

variable {self : KVCacheTaskTracker} {id : ReqId} {rank : ℕ}

/-- Where entries are not empty, there is one exactly for what is counted. -/
theorem EntriesNonempty.mem_iff (h : self.EntriesNonempty) :
    id ∈ self.doneTaskCounts ↔ self.doneRanks id ≠ ∅ := by
  rw [← AList.lookup_isSome, doneRanks]
  cases hentry : self.doneTaskCounts.lookup id with
  | none => simp
  | some ranks => simpa using (h id ranks hentry).ne_empty

@[simp] theorem incrementTaskCount_tpRank :
    (self.incrementTaskCount id rank).tpRank = self.tpRank := by
  simp only [incrementTaskCount]
  split_ifs <;> rfl

@[simp] theorem incrementTaskCount_targetCount :
    (self.incrementTaskCount id rank).targetCount = self.targetCount := by
  simp only [incrementTaskCount]
  split_ifs <;> rfl

/-- **Counting a signal** is signalling the barrier. -/
theorem barrier_incrementTaskCount :
    (self.incrementTaskCount id rank).barrier = self.barrier.signal self.targetCount id rank := by
  unfold incrementTaskCount Barrier.signal
  have hcounts : self.barrier.counts id = self.doneRanks id := rfl
  rw [hcounts]
  by_cases hmem : rank ∈ self.doneRanks id
  · rw [if_pos hmem, if_pos hmem]
  rw [if_neg hmem, if_neg hmem]
  by_cases hfull : (insert rank (self.doneRanks id)).card = self.targetCount
  · rw [if_pos hfull]
    simp only [if_pos hfull, barrier]
    congr 1
    funext id'
    by_cases hne : id' = id
    · subst hne
      simp [doneRanks]
    · simp [doneRanks, AList.lookup_erase_ne hne, hne]
  · rw [if_neg hfull]
    simp only [if_neg hfull, barrier]
    congr 1
    funext id'
    by_cases hne : id' = id
    · subst hne
      simp [doneRanks]
    · simp [doneRanks, AList.lookup_insert_ne hne, hne]

theorem EntriesNonempty.incrementTaskCount (h : self.EntriesNonempty) :
    (self.incrementTaskCount id rank).EntriesNonempty := by
  simp only [KVCacheTaskTracker.incrementTaskCount]
  split_ifs
  · exact h
  · intro id' ranks hentry
    by_cases hne : id' = id
    · subst hne
      simp at hentry
    · exact h id' ranks (by rwa [AList.lookup_erase_ne hne] at hentry)
  · intro id' ranks hentry
    by_cases hne : id' = id
    · subst hne
      rw [AList.lookup_insert, Option.some_inj] at hentry
      exact hentry ▸ Finset.insert_nonempty _ _
    · exact h id' ranks (by rwa [AList.lookup_insert_ne hne] at hentry)

end KVCacheTaskTracker

/-! ## Signals and calls in any order -/

/-- A counting tracker with its history: what was signalled, and how often each request was
returned. -/
structure TrackedSignals where
  tracker : KVCacheTaskTracker
  signalled : ReqId → Finset ℕ
  returned : ReqId → ℕ

inductive TrackerEvent where
  /-- a done signal, directly or from another rank -/
  | done (requestId : ReqId) (tpRank : ℕ)
  | getAndClear
  deriving DecidableEq, Repr

namespace TrackedSignals

/-- At `__init__`, of a tracker that counts `n` ranks. -/
def init (n : ℕ) : TrackedSignals := ⟨.init 0 n, fun _ => ∅, fun _ => 0⟩

/-- How often a request is in what the next call returns. -/
def pending (s : TrackedSignals) (id : ReqId) : ℕ := s.tracker.barrier.pending id

def step (s : TrackedSignals) : TrackerEvent → Except Unit TrackedSignals
  | .done requestId tpRank =>
    .ok { s with
      tracker := s.tracker.incrementTaskCount requestId tpRank
      signalled := Function.update s.signalled requestId (insert tpRank (s.signalled requestId)) }
  | .getAndClear =>
    let finished := s.tracker.getAndClearFinishedRequests
    .ok { s with
      tracker := finished.2
      returned := fun id => s.returned id + if id ∈ finished.1 then 1 else 0 }

/-- All ranks have signalled the request. -/
def AllSignalled (s : TrackedSignals) (id : ReqId) : Prop :=
  ∀ r < s.tracker.targetCount, r ∈ s.signalled id

instance (s : TrackedSignals) (id : ReqId) : Decidable (s.AllSignalled id) :=
  inferInstanceAs (Decidable (∀ r < _, r ∈ s.signalled id))

/-- Each request that all ranks signalled is returned once, by the calls so far and the next one
together, and has no entry; the others are not returned. -/
def ExactlyOnce (s : TrackedSignals) : Prop :=
  ∀ id, (s.AllSignalled id →
      s.returned id + s.pending id = 1 ∧ id ∉ s.tracker.doneTaskCounts) ∧
    (¬s.AllSignalled id → s.returned id + s.pending id = 0)

end TrackedSignals

namespace TrackerEvent

/-- The signal is from a rank that is counted. -/
def InRange (s : TrackedSignals) : TrackerEvent → Prop
  | .done _ tpRank => tpRank < s.tracker.targetCount
  | .getAndClear => True

instance (s : TrackedSignals) : (ev : TrackerEvent) → Decidable (ev.InRange s)
  | .done _ tpRank => inferInstanceAs (Decidable (tpRank < _))
  | .getAndClear => isTrue trivial

/-- The signal is not for a request that all ranks have signalled; or there is one rank only, and
the request was not returned yet. -/
def OnTime (s : TrackedSignals) : TrackerEvent → Prop
  | .done requestId _ => s.AllSignalled requestId →
    s.tracker.targetCount = 1 ∧ requestId ∈ s.tracker.finishedRequests
  | .getAndClear => True

instance (s : TrackedSignals) : (ev : TrackerEvent) → Decidable (ev.OnTime s)
  | .done requestId _ => inferInstanceAs (Decidable (s.AllSignalled requestId → _ = 1 ∧ _ ∈ _))
  | .getAndClear => isTrue trivial

end TrackerEvent

namespace TrackedSignals

variable {s s' : TrackedSignals} {ev : TrackerEvent} {id : ReqId} {n : ℕ}

/-- The tracker agrees with its history. -/
structure Counted (n : ℕ) (s : TrackedSignals) : Prop where
  targetCount : s.tracker.targetCount = n
  tracks : s.tracker.barrier.Tracks n s.signalled s.returned
  entries : s.tracker.EntriesNonempty
  range : ∀ id, s.signalled id ⊆ Finset.range n

namespace Counted

theorem initial (hn : 0 < n) : Counted n (init n) :=
  ⟨rfl, .initial hn, fun _ _ h => by simp [init, KVCacheTaskTracker.init] at h,
    fun _ => Finset.empty_subset _⟩

theorem allSignalled_iff (h : Counted n s) : s.AllSignalled id ↔ n ≤ (s.signalled id).card := by
  have hrange : s.AllSignalled id ↔ Finset.range n ⊆ s.signalled id := by
    simp [AllSignalled, h.targetCount, Finset.subset_iff]
  rw [hrange]
  constructor
  · intro hsub
    simpa using Finset.card_le_card hsub
  · intro hcard
    rw [Finset.eq_of_subset_of_card_le (h.range id) (by simpa using hcard)]

theorem exactlyOnce (h : Counted n s) : s.ExactlyOnce := by
  intro id
  rw [h.allSignalled_iff]
  refine ⟨fun hall => ?_, fun hnot => (h.tracks.counting id (not_le.mp hnot)).2⟩
  obtain ⟨hcounts, htaken⟩ := h.tracks.complete id hall
  exact ⟨htaken, fun hmem => h.entries.mem_iff.mp hmem hcounts⟩

/-- **A signal on time** keeps the tracker and its history together. -/
theorem step (h : Counted n s) (hrange : ev.InRange s) (htime : ev.OnTime s)
    (hstep : s.step ev = .ok s') : Counted n s' := by
  cases ev with
  | done id r =>
    cases hstep
    refine ⟨by simp [h.targetCount], ?_, h.entries.incrementTaskCount, fun id' => ?_⟩
    · simp only [KVCacheTaskTracker.barrier_incrementTaskCount, h.targetCount]
      by_cases hall : s.AllSignalled id
      · obtain ⟨hone, hfinished⟩ := htime hall
        exact h.tracks.signal_late (h.allSignalled_iff.mp hall) (h.targetCount ▸ hone) hfinished
      · exact h.tracks.signal (not_le.mp (h.allSignalled_iff.not.mp hall))
    · by_cases hne : id' = id
      · subst hne
        simp only [Function.update_self, Finset.insert_subset_iff, Finset.mem_range]
        exact ⟨h.targetCount ▸ hrange, h.range id'⟩
      · simp only [Function.update_of_ne hne]
        exact h.range id'
  | getAndClear =>
    cases hstep
    exact ⟨h.targetCount, h.tracks.take, h.entries, h.range⟩

/-- A signal that is not on time is not counted right. -/
theorem onTime (h : Counted n s) (hstep : s.step ev = .ok s') (honce : s'.ExactlyOnce) :
    ev.OnTime s := by
  cases ev with
  | done id r =>
    intro hall
    cases hstep
    have hall' : TrackedSignals.AllSignalled { s with
        tracker := s.tracker.incrementTaskCount id r
        signalled := Function.update s.signalled id (insert r (s.signalled id)) } id := by
      intro r' hr'
      simp only [KVCacheTaskTracker.incrementTaskCount_targetCount, Function.update_self] at hr' ⊢
      exact Finset.mem_insert_of_mem (hall r' hr')
    obtain ⟨htaken, hentry⟩ := (honce id).1 hall'
    rw [(h.entries.incrementTaskCount).mem_iff, not_not] at hentry
    have hlate := (Barrier.tracks_late_iff h.tracks (h.allSignalled_iff.mp hall) (r := r)).mp
      ⟨?_, ?_⟩
    · exact ⟨h.targetCount.trans hlate.1, hlate.2⟩
    · rw [← h.targetCount, ← KVCacheTaskTracker.barrier_incrementTaskCount]
      exact hentry
    · rw [← h.targetCount, ← KVCacheTaskTracker.barrier_incrementTaskCount]
      exact htaken
  | getAndClear => trivial

end Counted

/-- **Each request is returned exactly once**, and leaves no entry, in every run without a signal
for a request that all ranks have signalled; and such a signal breaks it at once. -/
theorem exactly_once (hn : 0 < n)
    (run : Run step (fun s ev => ev.InRange s ∧ ev.OnTime s) (init n) s) :
    s.ExactlyOnce ∧ ∀ ev s', ev.InRange s → s.step ev = .ok s' → (s'.ExactlyOnce ↔ ev.OnTime s) := by
  have hcounted : Counted n s := run.invariant
    (fun _ _ _ h hallowed hstep => h.step hallowed.1 hallowed.2 hstep) (.initial hn)
  refine ⟨hcounted.exactlyOnce, fun ev s' hrange hstep => ⟨hcounted.onTime hstep, fun htime => ?_⟩⟩
  exact (hcounted.step hrange htime hstep).exactlyOnce

theorem exactly_once_two : ∃ s,
    feed step (init 2) [.done "a" 0, .done "a" 0, .done "a" 1, .getAndClear] = .ok s ∧
    s.ExactlyOnce ∧ ∀ ev s', ev.InRange s → s.step ev = .ok s' → (s'.ExactlyOnce ↔ ev.OnTime s) := by
  obtain ⟨s, hs⟩ := exists_of_isOk (x := feed step (init 2)
    [.done "a" 0, .done "a" 0, .done "a" 1, .getAndClear]) (by decide +kernel)
  exact ⟨s, hs, exactly_once (by decide) (Run.of_feed hs (by decide +kernel))⟩

/-- **Duplicates after the request was returned return it again.** -/
theorem returned_twice : ∃ s,
    Run step (fun s ev => ev.InRange s) (init 2) s ∧ s.AllSignalled "a" ∧ s.returned "a" = 2 := by
  obtain ⟨s, hs, hall, htwice⟩ : Returns (feed step (init 2)
      [.done "a" 0, .done "a" 1, .getAndClear, .done "a" 1, .done "a" 0, .getAndClear])
      fun s => s.AllSignalled "a" ∧ s.returned "a" = 2 := by
    decide +kernel
  exact ⟨s, Run.of_feed hs (by decide +kernel), hall, htwice⟩

end TrackedSignals

end VllmAscend
