import Mathlib.Algebra.BigOperators.Group.List.Basic
import Mathlib.Data.List.Sort
import Mathlib.Data.Nat.Cast.Defs
import Mathlib.Algebra.CharZero.Defs

/-!
# Machinery/Strided — a tensor in memory, with and without its strides

    place      i j k ↦ i * stride0 + j * stride1 + k * stride2       where the tensor has an entry
    rowMajor   i j k ↦ (i * size1 + j) * size2 + k                   where a reader of the pointer finds it

The two agree on a contiguous tensor.  What a reader sums up tells where it reads: two monotone readers with
the same sums over every memory read the same places (`reads_eq_of_sum_eq`).
-/

namespace Machinery

variable {R : Type}

/-- A tensor of three axes: its sizes and its strides. -/
structure Strided where
  size0 : ℕ
  size1 : ℕ
  size2 : ℕ
  stride0 : ℕ
  stride1 : ℕ
  stride2 : ℕ

namespace Strided

/-- The place of an entry. -/
def place (s : Strided) (i j k : ℕ) : ℕ := i * s.stride0 + j * s.stride1 + k * s.stride2

/-- The place of an entry in row-major order, whatever the strides. -/
def rowMajor (s : Strided) (i j k : ℕ) : ℕ := i * (s.size1 * s.size2) + j * s.size2 + k

/-- The view with the last two axes exchanged. -/
def transposed (s : Strided) : Strided :=
  ⟨s.size0, s.size2, s.size1, s.stride0, s.stride2, s.stride1⟩

/-- A tensor as it is allocated. -/
def contiguous (size0 size1 size2 : ℕ) : Strided := ⟨size0, size1, size2, size1 * size2, size2, 1⟩

/-- The matrix `i` lies in memory row after row. -/
def IsRowMajorAt (s : Strided) (i : ℕ) : Prop :=
  ∀ j < s.size1, ∀ k < s.size2, s.place i j k = s.rowMajor i j k

@[simp] theorem place_transposed (s : Strided) (i j k : ℕ) : s.transposed.place i k j = s.place i j k := by
  simp only [place, transposed]
  omega

/-- **The transposed view of a tensor as it is allocated** is row-major for vectors only. -/
theorem isRowMajorAt_transposed_contiguous {size0 size1 size2 i : ℕ} :
    (contiguous size0 size1 size2).transposed.IsRowMajorAt i ↔ size1 ≤ 1 ∨ size2 ≤ 1 := by
  simp only [IsRowMajorAt, place, rowMajor, transposed, contiguous, Nat.mul_comm size2 size1]
  refine ⟨fun h => ?_, ?_⟩
  · by_contra! hlarge
    have hsecond := h 0 (by omega) 1 hlarge.1
    omega
  · rintro (h | h) j hj k hk
    · obtain ⟨rfl, rfl⟩ : size1 = 1 ∧ k = 0 := by omega
      omega
    · obtain ⟨rfl, rfl⟩ : size2 = 1 ∧ j = 0 := by omega
      omega

theorem monotone_place_mid (s : Strided) (i k : ℕ) : Monotone fun j => s.place i j k := fun _ _ hj =>
  Nat.add_le_add_right (Nat.add_le_add_left (Nat.mul_le_mul_right _ hj) _) _

theorem monotone_place_last (s : Strided) (i j : ℕ) : Monotone fun k => s.place i j k := fun _ _ hk =>
  Nat.add_le_add_left (Nat.mul_le_mul_right _ hk) _

theorem monotone_rowMajor_mid (s : Strided) (i k : ℕ) : Monotone fun j => s.rowMajor i j k :=
  fun _ _ hj => Nat.add_le_add_right (Nat.add_le_add_left (Nat.mul_le_mul_right _ hj) _) _

theorem monotone_rowMajor_last (s : Strided) (i j : ℕ) : Monotone fun k => s.rowMajor i j k :=
  fun _ _ hk => Nat.add_le_add_left hk _

end Strided

/-! ## Readers -/

/-- Over the memory that holds one place, a sum counts its reads. -/
theorem sum_indicator [AddMonoidWithOne R] (a : ℕ) (places : List ℕ) :
    (places.map fun b => if b = a then (1 : R) else 0).sum = (places.count a : R) := by
  induction places with
  | nil => rw [List.map_nil, List.sum_nil, List.count_nil, Nat.cast_zero]
  | cons b places ih =>
    rw [List.map_cons, List.sum_cons, ih]
    by_cases hb : b = a
    · rw [if_pos hb, hb, List.count_cons_self, Nat.add_comm, Nat.cast_add, Nat.cast_one]
    · rw [if_neg hb, zero_add, List.count_cons_of_ne hb]

/-- **Monotone readers with the same sums read the same places.** -/
theorem reads_eq_of_sum_eq [AddMonoidWithOne R] [CharZero R] {f g : ℕ → ℕ} (hf : Monotone f)
    (hg : Monotone g) {n : ℕ}
    (h : ∀ data : ℕ → R, ((List.range n).map fun k => data (f k)).sum =
      ((List.range n).map fun k => data (g k)).sum) : ∀ k < n, f k = g k := by
  have hperm : ((List.range n).map f).Perm ((List.range n).map g) := by
    refine List.perm_iff_count.mpr fun a => Nat.cast_injective (R := R) ?_
    rw [← sum_indicator, ← sum_indicator, List.map_map, List.map_map]
    exact h fun b => if b = a then 1 else 0
  have hsorted : ∀ {f : ℕ → ℕ}, Monotone f → ((List.range n).map f).SortedLE := fun hf =>
    (List.pairwise_map.mpr ((List.pairwise_lt_range (n := n)).imp fun hlt => hf (Nat.le_of_lt hlt))).sortedLE
  have heq := hperm.eq_of_sortedLE (hsorted hf) (hsorted hg)
  exact fun k hk => List.map_inj_left.mp heq k (List.mem_range.mpr hk)

end Machinery
