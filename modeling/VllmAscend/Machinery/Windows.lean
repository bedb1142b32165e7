import Mathlib

/-!
# Machinery/Windows — ranges read through consecutive windows

    windows   ├────┤├──┤├───────┤├──┤
    range         ├──────────┤
    cuts          ├┤├──┤├────┤

A range of places is read window by window, each window taking what lies in it.  How many places of the range
lie before a place (`before`) grows with it, and a window takes those between its two borders; so the cuts of
consecutive windows, put one behind the other, are the range (`flatMap_cut`).
-/

namespace Machinery

/-! ## Consecutive windows -/

/-- **Windows, one behind the other**: each is given by where it starts and its length. -/
inductive Consecutive : ℕ → List (ℕ × ℕ) → ℕ → Prop
  | nil (stop : ℕ) : Consecutive stop [] stop
  | cons {start n stop : ℕ} {windows : List (ℕ × ℕ)} :
      Consecutive (start + n) windows stop → Consecutive start ((start, n) :: windows) stop

theorem Consecutive.le {start stop : ℕ} {windows : List (ℕ × ℕ)} (h : Consecutive start windows stop) :
    start ≤ stop := by
  induction h with
  | nil => exact Nat.le_refl _
  | cons _ ih => exact Nat.le_trans (Nat.le_add_right _ _) ih

/-- Windows of one length. -/
theorem consecutive_multiples (n : ℕ) : ∀ (k i : ℕ),
    Consecutive (i * n) ((List.range' i k).map fun j => (j * n, n)) ((i + k) * n)
  | 0, i => .nil _
  | k + 1, i => by
    have htail := consecutive_multiples n k (i + 1)
    rw [Nat.succ_mul, Nat.add_right_comm, Nat.add_assoc] at htail
    exact .cons htail

/-! ## The cuts of a range -/

section Cut

variable (offset length : ℕ)

/-- How many places of a range lie before a place. -/
def before (t : ℕ) : ℕ := min (t - offset) length

theorem before_mono {t t' : ℕ} (h : t ≤ t') : before offset length t ≤ before offset length t' :=
  min_le_min (Nat.sub_le_sub_right h _) le_rfl

theorem before_of_le {t : ℕ} (h : t ≤ offset) : before offset length t = 0 := by
  rw [before, Nat.sub_eq_zero_of_le h, Nat.zero_min]

theorem before_of_ge {t : ℕ} (h : offset + length ≤ t) : before offset length t = length :=
  Nat.min_eq_right (Nat.le_sub_of_add_le' h)

/-- What a window takes of a range, in places of the range. -/
def cut (c n : ℕ) : List ℕ := List.range' (c - offset) (min (c + n - offset) length - (c - offset))

variable {offset length}

theorem mem_cut {c n i : ℕ} :
    i ∈ cut offset length c n ↔ i < length ∧ c ≤ offset + i ∧ offset + i < c + n := by
  rw [cut, List.mem_range'_1]
  omega

theorem cut_pairwise (c n : ℕ) : (cut offset length c n).Pairwise (· < ·) := List.pairwise_lt_range' 1

/-- A window takes the places between its two borders. -/
theorem cut_eq_before (c n : ℕ) :
    cut offset length c n = List.range' (before offset length c)
      (before offset length (c + n) - before offset length c) := by
  obtain hlt | hle := Nat.lt_or_ge length (c - offset)
  · have hnone : min (c + n - offset) length - (c - offset) = 0 := by omega
    have hnone' : before offset length (c + n) - before offset length c = 0 := by
      rw [before, before]
      omega
    rw [cut, hnone, hnone', List.range'_zero, List.range'_zero]
  · rw [cut, before, before, Nat.min_eq_left hle]

variable (offset length) in
/-- **Consecutive windows take consecutive pieces.** -/
theorem flatMap_cut_before {start stop : ℕ} {windows : List (ℕ × ℕ)} (h : Consecutive start windows stop) :
    windows.flatMap (fun w => cut offset length w.1 w.2) =
      List.range' (before offset length start) (before offset length stop - before offset length start) := by
  induction h with
  | nil => rw [List.flatMap_nil, Nat.sub_self, List.range'_zero]
  | @cons start n stop windows h ih =>
    have hstart : before offset length start ≤ before offset length (start + n) :=
      before_mono _ _ (Nat.le_add_right _ _)
    have hstop : before offset length (start + n) ≤ before offset length stop := before_mono _ _ h.le
    have hnext : before offset length start +
        (before offset length (start + n) - before offset length start) = before offset length (start + n) :=
      Nat.add_sub_cancel' hstart
    have hlength : before offset length stop - before offset length start =
        before offset length (start + n) - before offset length start +
          (before offset length stop - before offset length (start + n)) := by
      rw [Nat.add_comm, Nat.sub_add_sub_cancel hstop hstart]
    rw [List.flatMap_cons, ih, cut_eq_before, hlength, ← List.range'_append_1, hnext]

/-- **The cuts of consecutive windows around a range are the range**, each place once and in order. -/
theorem flatMap_cut {start stop : ℕ} {windows : List (ℕ × ℕ)} (h : Consecutive start windows stop)
    (hstart : start ≤ offset) (hstop : offset + length ≤ stop) :
    windows.flatMap (fun w => cut offset length w.1 w.2) = List.range length := by
  rw [flatMap_cut_before offset length h, before_of_le _ _ hstart, before_of_ge _ _ hstop,
    Nat.sub_zero, List.range_eq_range']

/-- **Windows of one length, as many as the range needs.** -/
theorem flatMap_cut_multiples {n k : ℕ} (h : length ≤ k * n) :
    (List.range k).flatMap (fun j => cut 0 length (j * n) n) = List.range length := by
  have hwindows := consecutive_multiples n k 0
  rw [Nat.zero_mul, Nat.zero_add] at hwindows
  have hcut : ((List.range' 0 k).map fun j => (j * n, n)).flatMap (fun w => cut 0 length w.1 w.2) =
      List.range length := flatMap_cut hwindows le_rfl (by rwa [Nat.zero_add])
  rw [List.flatMap_map] at hcut
  rw [List.range_eq_range', hcut, List.range_eq_range']

end Cut

/-- Increasing lists with the same entries are equal. -/
theorem eq_of_increasing {xs ys : List ℕ} (hxs : xs.Pairwise (· < ·)) (hys : ys.Pairwise (· < ·))
    (h : ∀ x, x ∈ xs ↔ x ∈ ys) : xs = ys := by
  have hperm := (List.perm_ext_iff_of_nodup (hxs.imp fun hlt => hlt.ne) (hys.imp fun hlt => hlt.ne)).mpr h
  exact hperm.eq_of_pairwise (fun a b _ _ hab hba => absurd hab (Nat.lt_asymm hba)) hxs hys

end Machinery
