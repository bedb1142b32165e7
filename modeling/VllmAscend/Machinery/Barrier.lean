import Mathlib

/-!
# Machinery/Barrier — counting signals up to a target, key by key

    counts k ──signal r──▸ counts k ∪ {r} ──n of them──▸ k is done ──take──▸

A barrier collects, for each key, the distinct signals that arrived, and forgets them when there are
`n`: the key is then done until someone takes the done keys.  `Tracks` compares it with the history,
which forgets nothing.  As long as no signal comes for a key that was complete, each key is done
once (`Tracks.signal`, `Tracks.take`); one that does come starts the count again
(`tracks_late_iff`).
-/

namespace Machinery

variable {K R : Type*} [DecidableEq K] [DecidableEq R]

structure Barrier (K R : Type*) where
  counts : K → Finset R
  done : Finset K

namespace Barrier

/-- A signal for a key, up to `n` of them. -/
def signal (b : Barrier K R) (n : ℕ) (k : K) (r : R) : Barrier K R :=
  if r ∈ b.counts k then b
  else if (insert r (b.counts k)).card = n then
    { counts := Function.update b.counts k ∅, done := insert k b.done }
  else { b with counts := Function.update b.counts k (insert r (b.counts k)) }

/-- Taking the done keys. -/
def take (b : Barrier K R) : Barrier K R := { b with done := ∅ }

/-- How often a key is among the done ones. -/
def pending (b : Barrier K R) (k : K) : ℕ := if k ∈ b.done then 1 else 0

/-- The barrier against the history: what was ever signalled for a key, and how often it was
taken. -/
structure Tracks (b : Barrier K R) (n : ℕ) (signalled : K → Finset R) (taken : K → ℕ) : Prop where
  counting : ∀ k, (signalled k).card < n →
    b.counts k = signalled k ∧ taken k + b.pending k = 0
  complete : ∀ k, n ≤ (signalled k).card → b.counts k = ∅ ∧ taken k + b.pending k = 1

variable {b : Barrier K R} {n : ℕ} {signalled : K → Finset R} {taken : K → ℕ} {k : K} {r : R}

/-- Nothing was signalled yet. -/
theorem Tracks.initial (hn : 0 < n) :
    Tracks (⟨fun _ => ∅, ∅⟩ : Barrier K R) n (fun _ => ∅) (fun _ => 0) where
  counting k _ := ⟨rfl, rfl⟩
  complete k h := by
    rw [Finset.card_empty] at h
    omega

/-- The keys a signal is not for. -/
theorem signal_of_ne {k' : K} (hne : k' ≠ k) :
    (b.signal n k r).counts k' = b.counts k' ∧ (b.signal n k r).pending k' = b.pending k' := by
  unfold signal
  split_ifs
  · exact ⟨rfl, rfl⟩
  · exact ⟨Function.update_of_ne hne _ _, by simp [pending, hne]⟩
  · exact ⟨Function.update_of_ne hne _ _, rfl⟩

/-- A signal that is not yet counted. -/
theorem signal_of_notMem (h : r ∉ b.counts k) :
    ((b.counts k).card + 1 = n ∧ (b.signal n k r).counts k = ∅ ∧ k ∈ (b.signal n k r).done) ∨
      ((b.counts k).card + 1 ≠ n ∧ (b.signal n k r).counts k = insert r (b.counts k) ∧
        (b.signal n k r).done = b.done) := by
  unfold signal
  rw [if_neg h, Finset.card_insert_of_notMem h]
  split_ifs with hn
  · exact Or.inl ⟨hn, Function.update_self _ _ _, Finset.mem_insert_self _ _⟩
  · exact Or.inr ⟨hn, Function.update_self _ _ _, rfl⟩

/-- **A signal in time** is counted once, however often it comes. -/
theorem Tracks.signal (h : b.Tracks n signalled taken) (hlt : (signalled k).card < n) :
    (b.signal n k r).Tracks n (Function.update signalled k (insert r (signalled k))) taken := by
  obtain ⟨hcounts, htaken⟩ := h.counting k hlt
  by_cases hmem : r ∈ signalled k
  · -- it was counted before
    have hsame : b.signal n k r = b := if_pos (hcounts ▸ hmem)
    rw [hsame, Finset.insert_eq_of_mem hmem, Function.update_eq_self]
    exact h
  have hcard := Finset.card_insert_of_notMem hmem
  obtain ⟨hn, hempty, hdone⟩ | ⟨hn, hinsert, hdone⟩ :=
    signal_of_notMem (n := n) (hcounts.symm ▸ hmem : r ∉ b.counts k)
  · -- the last one there was to come
    rw [hcounts] at hn
    refine ⟨fun k' hk' => ?_, fun k' hk' => ?_⟩
    · by_cases hne : k' = k
      · subst hne
        rw [Function.update_self] at hk'
        omega
      · rw [Function.update_of_ne hne] at hk' ⊢
        rw [(signal_of_ne hne).1, (signal_of_ne hne).2]
        exact h.counting k' hk'
    · by_cases hne : k' = k
      · subst hne
        have htaken : taken k' = 0 := by omega
        exact ⟨hempty, by rw [htaken, pending, if_pos hdone]⟩
      · rw [Function.update_of_ne hne] at hk'
        rw [(signal_of_ne hne).1, (signal_of_ne hne).2]
        exact h.complete k' hk'
  · rw [hcounts] at hn
    refine ⟨fun k' hk' => ?_, fun k' hk' => ?_⟩
    · by_cases hne : k' = k
      · subst hne
        rw [Function.update_self, hinsert, hcounts]
        refine ⟨rfl, ?_⟩
        rw [pending, hdone]
        exact htaken
      · rw [Function.update_of_ne hne] at hk' ⊢
        rw [(signal_of_ne hne).1, (signal_of_ne hne).2]
        exact h.counting k' hk'
    · by_cases hne : k' = k
      · subst hne
        rw [Function.update_self] at hk'
        omega
      · rw [Function.update_of_ne hne] at hk'
        rw [(signal_of_ne hne).1, (signal_of_ne hne).2]
        exact h.complete k' hk'

omit [DecidableEq R] in
/-- **Taking the done keys** moves them to the history. -/
theorem Tracks.take (h : b.Tracks n signalled taken) :
    b.take.Tracks n signalled fun k => taken k + b.pending k :=
  ⟨fun k hk => h.counting k hk, fun k hk => h.complete k hk⟩

/-- **A signal for a key that is complete** starts the count again: it does no harm only when it
completes it at once and the key was not yet taken. -/
theorem tracks_late_iff (h : b.Tracks n signalled taken) (hlate : n ≤ (signalled k).card) :
    ((b.signal n k r).counts k = ∅ ∧ taken k + (b.signal n k r).pending k = 1) ↔
      n = 1 ∧ k ∈ b.done := by
  obtain ⟨hcounts, htaken⟩ := h.complete k hlate
  have hnot : r ∉ b.counts k := by
    rw [hcounts]
    exact Finset.notMem_empty r
  obtain ⟨hone, hempty, hdone⟩ | ⟨hone, hinsert, hdone⟩ := signal_of_notMem (n := n) hnot
  · rw [hcounts, Finset.card_empty, Nat.zero_add] at hone
    rw [pending, if_pos hdone]
    rw [pending] at htaken
    constructor
    · rintro ⟨_, hzero⟩
      refine ⟨hone.symm, ?_⟩
      by_contra hk
      rw [if_neg hk] at htaken
      omega
    · rintro ⟨_, hk⟩
      rw [if_pos hk] at htaken
      exact ⟨hempty, htaken⟩
  · rw [hcounts, Finset.card_empty, Nat.zero_add] at hone
    rw [hinsert]
    constructor
    · rintro ⟨hempty, _⟩
      exact absurd hempty (Finset.insert_ne_empty _ _)
    · rintro ⟨hn, _⟩
      exact absurd hn.symm hone

theorem Tracks.signal_late (h : b.Tracks n signalled taken) (hlate : n ≤ (signalled k).card)
    (hn : n = 1) (hdone : k ∈ b.done) :
    (b.signal n k r).Tracks n (Function.update signalled k (insert r (signalled k))) taken := by
  refine ⟨fun k' hk' => ?_, fun k' hk' => ?_⟩
  · by_cases hne : k' = k
    · subst hne
      rw [Function.update_self] at hk'
      exact absurd (hlate.trans (Finset.card_le_card (Finset.subset_insert r _))) (by omega)
    · rw [Function.update_of_ne hne] at hk' ⊢
      rw [(signal_of_ne hne).1, (signal_of_ne hne).2]
      exact h.counting k' hk'
  · by_cases hne : k' = k
    · subst hne
      exact (tracks_late_iff h hlate).mpr ⟨hn, hdone⟩
    · rw [Function.update_of_ne hne] at hk'
      rw [(signal_of_ne hne).1, (signal_of_ne hne).2]
      exact h.complete k' hk'

end Barrier

end Machinery
