import Mathlib.Algebra.Order.BigOperators.Group.List
import Mathlib.Algebra.Order.Group.Defs
import Mathlib.Data.List.Sort

/-!
# Machinery/Nucleus — the largest entries, by rank and by mass

    ascending     x₀ ≤ x₁ ≤ … ≤ x_{n-1}         sums  0 = S₀ ≤ S₁ ≤ … ≤ S_n
    descending    x_{n-1} ≥ … ≥ x₀              the first n - c have the mass  S_n - S_c

The nucleus of a mass `p` is the shortest prefix of the descending order that reaches it.  Seen from the
other end it leaves out `c` entries, where `c` counts the sums `S_j` with `1 ≤ j < n` that still leave `p`
(`nucleusSize_eq`).
-/

namespace Machinery

variable {K : Type}

/-! ## Both orders -/

section Order

variable [LinearOrder K] (xs : List K)

/-- The entries, the smallest first. -/
def ascending : List K := xs.insertionSort (· ≤ ·)

/-- The entries, the largest first. -/
def descending : List K := xs.insertionSort (· ≥ ·)

theorem ascending_perm : (ascending xs).Perm xs := List.perm_insertionSort _ _

@[simp] theorem length_ascending : (ascending xs).length = xs.length := (ascending_perm xs).length_eq

theorem descending_perm : (descending xs).Perm xs := List.perm_insertionSort _ _

@[simp] theorem length_descending : (descending xs).length = xs.length := (descending_perm xs).length_eq

theorem reverse_ascending : (ascending xs).reverse = descending xs :=
  List.Perm.eq_of_sortedGE List.sortedLE_insertionSort.reverse List.sortedGE_insertionSort
    ((List.reverse_perm _).trans ((ascending_perm xs).trans (descending_perm xs).symm))

variable {xs}

/-- **The `k`-th largest entry**, in both orders. -/
theorem getElem?_ascending {k : ℕ} (hpos : 1 ≤ k) (hk : k ≤ xs.length) :
    (ascending xs)[xs.length - k]? = (descending xs)[k - 1]? := by
  rw [← reverse_ascending]
  refine (List.getElem?_reverse' ?_).symm
  rw [length_ascending]
  omega

/-- The least of the first entries is the last of them. -/
theorem min?_take_descending {k : ℕ} (hpos : 1 ≤ k) (hk : k ≤ xs.length) :
    ((descending xs).take k).min? = (descending xs)[k - 1]? := by
  have hlt : k - 1 < (descending xs).length := by
    rw [length_descending]
    omega
  rw [List.getElem?_eq_getElem hlt, List.min?_eq_some_iff]
  refine ⟨List.mem_take_iff_getElem.mpr ⟨k - 1, by rw [length_descending]; omega, rfl⟩, fun b hb => ?_⟩
  obtain ⟨j, hj, rfl⟩ := List.mem_take_iff_getElem.mp hb
  have hsorted : (descending xs).SortedGE := List.sortedGE_insertionSort
  exact hsorted.getElem_ge_getElem_of_le (by omega)

end Order

/-! ## Counting -/

/-- **What a count tells**: a flag that only ever falls is up in as many places as are counted. -/
theorem lt_countP_iff (flag : ℕ → Bool) (hflag : ∀ i j, i ≤ j → flag j = true → flag i = true) :
    ∀ n, ∀ j < n, flag j = true ↔ j < (List.range n).countP flag
  | 0, j, hj => absurd hj (Nat.not_lt_zero j)
  | n + 1, j, hj => by
    have ih := lt_countP_iff flag hflag n
    have hle : (List.range n).countP flag ≤ n := List.countP_le_length.trans_eq List.length_range
    rw [List.range_succ, List.countP_append, List.countP_singleton]
    by_cases hlast : flag n = true
    · -- then it is up everywhere
      have hall : (List.range n).countP flag = n := by
        rw [List.countP_eq_length.mpr fun i hi => hflag i n (List.mem_range.mp hi).le hlast,
          List.length_range]
      rw [if_pos hlast, hall]
      exact iff_of_true (hflag j n (by omega) hlast) hj
    · rw [if_neg hlast, Nat.add_zero]
      obtain hlt | rfl := (Nat.lt_succ_iff.mp hj).lt_or_eq
      · exact ih j hlt
      · exact iff_of_false hlast (by omega)

/-! ## The nucleus -/

section Nucleus

variable [AddCommGroup K] [LinearOrder K] (xs : List K)

/-- The size of the shortest prefix of the descending order that reaches the mass `p`. -/
def nucleusSize (p : K) : ℕ :=
  ((List.range (xs.length + 1)).find? fun n => p ≤ ((descending xs).take n).sum).getD xs.length

/-- The shortest prefix of the descending order that reaches the mass `p`. -/
def nucleus (p : K) : List K := (descending xs).take (nucleusSize xs p)

variable {xs}

/-- The first entries of one order and the first ones of the other make up all. -/
theorem sum_take_descending {c : ℕ} (hc : c ≤ xs.length) :
    ((descending xs).take (xs.length - c)).sum + ((ascending xs).take c).sum = xs.sum := by
  have hrest : ((descending xs).take (xs.length - c)).sum = ((ascending xs).drop c).sum := by
    rw [← reverse_ascending, List.take_reverse, List.sum_reverse, length_ascending]
    congr 2
    omega
  rw [hrest, add_comm, ← (ascending_perm xs).sum_eq, List.sum_take_add_sum_drop]

variable [IsOrderedAddMonoid K]

/-- The sums of the ascending order grow. -/
theorem sum_take_ascending_mono (hnonneg : ∀ x ∈ xs, 0 ≤ x) {i j : ℕ} (hij : i ≤ j) :
    ((ascending xs).take i).sum ≤ ((ascending xs).take j).sum := by
  obtain ⟨m, rfl⟩ := Nat.exists_eq_add_of_le hij
  rw [List.take_add, List.sum_append]
  refine le_add_of_nonneg_right (List.sum_nonneg fun x hx => hnonneg x ?_)
  exact (ascending_perm xs).mem_iff.mp (List.mem_of_mem_drop (List.mem_of_mem_take hx))

/-- **How many entries the nucleus leaves out**: as many as there are sums that leave the mass. -/
theorem nucleusSize_eq (hnonneg : ∀ x ∈ xs, 0 ≤ x) {p : K} (hpos : 0 < p) (hsum : p ≤ xs.sum) :
    let count := (List.range (xs.length - 1)).countP fun j => ((ascending xs).take (j + 1)).sum ≤ xs.sum - p
    count < xs.length ∧ nucleusSize xs p = xs.length - count := by
  intro count
  have hflag := lt_countP_iff (fun j => decide (((ascending xs).take (j + 1)).sum ≤ xs.sum - p))
    (fun i j hij hj => by
      rw [decide_eq_true_iff] at hj ⊢
      exact (sum_take_ascending_mono hnonneg (Nat.add_le_add_right hij 1)).trans hj) (xs.length - 1)
  simp only [decide_eq_true_iff] at hflag
  have hle : count ≤ xs.length - 1 := List.countP_le_length.trans_eq List.length_range
  have hne : 0 < xs.length := by
    refine List.length_pos_iff.mpr fun hnil => ?_
    rw [hnil, List.sum_nil] at hsum
    exact absurd (hpos.trans_le hsum) (lt_irrefl 0)
  have hlt : count < xs.length := by omega
  -- the sum of `count` entries leaves the mass, one more does not
  have hbelow : ((ascending xs).take count).sum ≤ xs.sum - p := by
    obtain hzero | hcount := Nat.eq_zero_or_pos count
    · rw [hzero, List.take_zero, List.sum_nil]
      exact sub_nonneg.mpr hsum
    · obtain ⟨c, hc⟩ := Nat.exists_eq_succ_of_ne_zero hcount.ne'
      rw [hc]
      exact (hflag c (by omega)).mpr (by omega)
  have habove : ∀ j, count < j → j ≤ xs.length → xs.sum - p < ((ascending xs).take j).sum := by
    intro j hj hjle
    refine lt_of_lt_of_le ?_ (sum_take_ascending_mono hnonneg hj)
    obtain hinside | hlast := lt_or_ge count (xs.length - 1)
    · exact not_le.mp ((hflag count hinside).not.mpr (lt_irrefl count))
    · have hall : (ascending xs).take (count + 1) = ascending xs :=
        List.take_of_length_le (by rw [length_ascending]; omega)
      rw [hall, (ascending_perm xs).sum_eq]
      exact sub_lt_self _ hpos
  have hreach : ∀ j ≤ xs.length, p ≤ ((descending xs).take (xs.length - j)).sum ↔
      ((ascending xs).take j).sum ≤ xs.sum - p := fun j hj => by
    rw [← sum_take_descending hj, le_sub_iff_add_le, add_comm (((ascending xs).take j).sum) p,
      add_le_add_iff_right]
  refine ⟨hlt, ?_⟩
  have hfind : (List.range (xs.length + 1)).find?
      (fun n => decide (p ≤ ((descending xs).take n).sum)) = some (xs.length - count) := by
    refine List.find?_range_eq_some.mpr ⟨?_, List.mem_range.mpr (by omega), fun m hm => ?_⟩
    · exact decide_eq_true ((hreach count hlt.le).mpr hbelow)
    · have hm' : m = xs.length - (xs.length - m) := by omega
      have hmore := habove (xs.length - m) (by omega) (by omega)
      rw [hm', Bool.not_eq_true', decide_eq_false_iff_not, hreach (xs.length - m) (by omega), not_le]
      exact hmore
  rw [nucleusSize, hfind, Option.getD_some]

end Nucleus

end Machinery
