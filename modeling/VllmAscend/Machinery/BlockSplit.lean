import Mathlib

/-!
# Machinery/BlockSplit — a range split into blocks of a rounded length

    starts     0 ········ size/n ········ 2*size/n ········ … (n-1)*size/n
    block i    [i*size/n, i*size/n + roundUp w (size/n))

The `n` blocks of a range of `size` places start at the rounded-down multiples of `size / n`, and each
is `size / n` places long, rounded up to a multiple of `w`.  The rounding hides the remainder, except
where there is nothing to round: `blocks_cover_iff`.
-/

namespace Machinery

variable {w n size : ℕ}

/-- The next multiple of `w`. -/
def roundUp (w k : ℕ) : ℕ := (k + (w - 1)) / w * w

theorem roundUp_of_dvd (hw : 0 < w) {k : ℕ} (h : w ∣ k) : roundUp w k = k := by
  obtain ⟨m, rfl⟩ := h
  have hlt : w - 1 < w := Nat.sub_lt hw Nat.one_pos
  rw [roundUp, Nat.mul_add_div hw, Nat.div_eq_of_lt hlt, Nat.add_zero, Nat.mul_comm]

theorem le_roundUp (hw : 0 < w) (k : ℕ) : k ≤ roundUp w k := by
  have h := Nat.lt_div_mul_add hw (a := k + (w - 1))
  rw [roundUp]
  omega

theorem lt_roundUp (hw : 0 < w) {k : ℕ} (h : ¬ w ∣ k) : k < roundUp w k :=
  (le_roundUp hw k).lt_of_ne fun heq => h (heq ▸ Nat.dvd_mul_left w _)

/-- Where block `i` starts. -/
def blockStart (size n i : ℕ) : ℕ := i * size / n

theorem blockStart_mono {i j : ℕ} (h : i ≤ j) : blockStart size n i ≤ blockStart size n j :=
  Nat.div_le_div_right (Nat.mul_le_mul_right size h)

/-- **A block starts at most one place behind the plain length of the one before.** -/
theorem blockStart_succ_le (hn : 0 < n) (i : ℕ) :
    blockStart size n (i + 1) ≤ blockStart size n i + size / n + 1 := by
  rw [blockStart, blockStart, Nat.succ_mul, Nat.add_div hn]
  split <;> omega

/-- Without a remainder, right behind it. -/
theorem blockStart_succ (hdvd : n ∣ size) (i : ℕ) :
    blockStart size n (i + 1) = blockStart size n i + size / n := by
  rw [blockStart, blockStart, Nat.succ_mul, Nat.add_div_of_dvd_left hdvd]

/-- A place of the range lies between two starts. -/
theorem exists_block (hn : 0 < n) {e : ℕ} (he : e < size) :
    ∃ i < n, blockStart size n i ≤ e ∧ e < blockStart size n (i + 1) := by
  have hlast : e < blockStart size n n := by rwa [blockStart, Nat.mul_div_cancel_left size hn]
  have hexists : ∃ j, e < blockStart size n j := ⟨n, hlast⟩
  have hfirst : Nat.find hexists ≠ 0 := fun hzero => by
    have h := Nat.find_spec hexists
    rw [hzero, blockStart, Nat.zero_mul, Nat.zero_div] at h
    exact Nat.not_lt_zero e h
  obtain ⟨i, hi⟩ := Nat.exists_eq_succ_of_ne_zero hfirst
  have hmin : ¬ e < blockStart size n i := Nat.find_min hexists (by omega)
  have hle := Nat.find_min' hexists hlast
  have hspec := Nat.find_spec hexists
  rw [hi] at hspec
  exact ⟨i, by omega, Nat.le_of_not_lt hmin, hspec⟩

/-- With a remainder the plain length of no block reaches the last place. -/
theorem blockStart_add_lt (hdvd : ¬ n ∣ size) {i : ℕ} (hi : i < n) :
    blockStart size n i + size / n < size := by
  have hrem : n * (size / n) < size :=
    (Nat.mul_div_le size n).lt_of_ne fun heq => hdvd ⟨_, heq.symm⟩
  have hstart : n * blockStart size n i ≤ i * size := Nat.mul_div_le _ _
  have hmul : i * size + size ≤ n * size := by
    rw [← Nat.succ_mul]
    exact Nat.mul_le_mul_right size hi
  refine Nat.lt_of_mul_lt_mul_left (a := n) ?_
  rw [Nat.mul_add]
  omega

/-- **The blocks cover the range exactly when it is split without a remainder, or the length of a
block is rounded up.** -/
theorem blocks_cover_iff (hn : 0 < n) (hw : 0 < w) :
    (∀ e < size, ∃ i < n, blockStart size n i ≤ e ∧
      e < blockStart size n i + roundUp w (size / n)) ↔ n ∣ size ∨ ¬ w ∣ size / n := by
  constructor
  · intro hcover
    by_contra hnot
    obtain ⟨hdvd, hround⟩ := not_or.mp hnot
    have hround := not_not.mp hround
    have hpos : 0 < size := Nat.pos_of_ne_zero fun hzero => hdvd (hzero ▸ Nat.dvd_zero n)
    obtain ⟨i, hi, hstart, hend⟩ := hcover (size - 1) (by omega)
    rw [roundUp_of_dvd hw hround] at hend
    have := blockStart_add_lt hdvd hi
    omega
  · intro h e he
    obtain ⟨i, hi, hstart, hend⟩ := exists_block hn he
    refine ⟨i, hi, hstart, hend.trans_le ?_⟩
    obtain hdvd | hround := h
    · rw [blockStart_succ hdvd]
      exact Nat.add_le_add_left (le_roundUp hw _) _
    · have hnext : blockStart size n (i + 1) ≤ blockStart size n i + size / n + 1 :=
        blockStart_succ_le hn i
      have := lt_roundUp hw hround
      omega

end Machinery
