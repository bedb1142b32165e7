import Mathlib.Algebra.BigOperators.Group.List.Basic
import Mathlib.Algebra.Ring.Defs

/-!
# Machinery/Rows — flat lists and rows of one length

    l           a b c d e f
    rows 2 l    [a b] [c d] [e f]

A reshape does not move an entry: cutting a flat list into rows and joining rows of one length undo each
other (`rows_flatten`, `flatten_rows`).  What works entry by entry works row by row, and so does what
inserts the same number of zeros after each half of every row (`padHalves`): products do not see them
(`rowProduct_flatMap_padHalves`).
-/

namespace Machinery

variable {α β γ : Type}

/-! ## Rows -/

/-- `l.reshape(-1, n)` -/
def rows (n : ℕ) (l : List α) : List (List α) :=
  (List.range (l.length / n)).map fun i => (l.drop (i * n)).take n

theorem rows_append {n : ℕ} (hn : 0 < n) {r : List α} (hr : r.length = n) (l : List α) :
    rows n (r ++ l) = r :: rows n l := by
  rw [rows, rows, List.length_append, hr, Nat.add_comm, Nat.add_div_right _ hn, List.range_succ_eq_map,
    List.map_cons, Nat.zero_mul, List.drop_zero, List.map_map]
  congr 1
  · rw [← hr, List.take_left]
  · refine List.map_congr_left fun i _ => ?_
    rw [Function.comp_apply, Nat.succ_mul, Nat.add_comm, ← List.drop_drop, ← hr, List.drop_left]

/-- **Joined rows are cut apart again.** -/
theorem rows_flatten {n : ℕ} (hn : 0 < n) : ∀ {ls : List (List α)}, (∀ l ∈ ls, l.length = n) →
    rows n ls.flatten = ls
  | [], _ => by
    rw [rows, List.flatten_nil, List.length_nil, Nat.zero_div]
    rfl
  | l :: ls, h => by
    rw [List.flatten_cons, rows_append hn (h l (.head _)), rows_flatten hn fun l hl => h l (.tail _ hl)]

/-- **Rows are joined again.** -/
theorem flatten_rows {n : ℕ} (hn : 0 < n) : ∀ {k : ℕ} {l : List α}, l.length = k * n →
    (rows n l).flatten = l
  | 0, l, h => by
    rw [Nat.zero_mul] at h
    rw [List.eq_nil_of_length_eq_zero h, rows, List.length_nil, Nat.zero_div]
    rfl
  | k + 1, l, h => by
    rw [Nat.succ_mul] at h
    have hhead : (l.take n).length = n := List.length_take_of_le (by omega)
    have htail : (l.drop n).length = k * n := by rw [List.length_drop, h, Nat.add_sub_cancel]
    have hrows := rows_append hn hhead (l.drop n)
    rw [List.take_append_drop] at hrows
    rw [hrows, List.flatten_cons, flatten_rows hn htail, List.take_append_drop]

@[simp] theorem length_rows (n : ℕ) (l : List α) : (rows n l).length = l.length / n := by
  rw [rows, List.length_map, List.length_range]

theorem length_of_mem_rows {n : ℕ} {l r : List α} (h : r ∈ rows n l) : r.length = n := by
  obtain ⟨i, hi, rfl⟩ := List.mem_map.mp h
  have hlt := Nat.succ_le_of_lt (List.mem_range.mp hi)
  have hle : (i + 1) * n ≤ l.length := Nat.le_trans (Nat.mul_le_mul_right n hlt) (Nat.div_mul_le_self _ _)
  rw [Nat.succ_mul] at hle
  exact List.length_take_of_le (by rw [List.length_drop]; omega)

theorem rows_map (f : α → β) (n : ℕ) (l : List α) : rows n (l.map f) = (rows n l).map (List.map f) := by
  rw [rows, rows, List.length_map, List.map_map]
  refine List.map_congr_left fun i _ => ?_
  rw [Function.comp_apply, List.map_take, List.map_drop]

theorem length_flatten_rows {n : ℕ} {ls : List (List α)} (h : ∀ l ∈ ls, l.length = n) :
    ls.flatten.length = ls.length * n := by
  rw [List.length_flatten, List.map_congr_left h, List.map_const', List.sum_replicate_nat]

/-- Whole rows are dropped. -/
theorem drop_flatten_rows {n : ℕ} : ∀ {ls : List (List α)} (k : ℕ), (∀ l ∈ ls, l.length = n) →
    ls.flatten.drop (k * n) = (ls.drop k).flatten
  | ls, 0, _ => by rw [Nat.zero_mul, List.drop_zero, List.drop_zero]
  | [], _ + 1, _ => by rw [List.flatten_nil, List.drop_nil, List.drop_nil, List.flatten_nil]
  | l :: ls, k + 1, h => by
    rw [Nat.succ_mul, Nat.add_comm, List.flatten_cons, ← List.drop_drop, ← h l (.head _), List.drop_left,
      h l (.head _), List.drop_succ_cons, drop_flatten_rows k fun l hl => h l (.tail _ hl)]

/-- Whole rows are taken. -/
theorem take_flatten_rows {n : ℕ} : ∀ {ls : List (List α)} (k : ℕ), (∀ l ∈ ls, l.length = n) →
    ls.flatten.take (k * n) = (ls.take k).flatten
  | ls, 0, _ => by rw [Nat.zero_mul, List.take_zero, List.take_zero, List.flatten_nil]
  | [], _ + 1, _ => by rw [List.flatten_nil, List.take_nil, List.take_nil, List.flatten_nil]
  | l :: ls, k + 1, h => by
    have hl := h l (.head _)
    rw [Nat.succ_mul, Nat.add_comm, List.flatten_cons, List.take_append, List.take_of_length_le (by omega),
      hl, Nat.add_sub_cancel_left, List.take_succ_cons, List.flatten_cons,
      take_flatten_rows k fun l hl => h l (.tail _ hl)]

/-- Two lists of one length have the same rows. -/
theorem forall₂_rows {n k : ℕ} (hn : 0 < n) {a : List α} {b : List β} (ha : a.length = k * n)
    (hb : b.length = k * n) :
    List.Forall₂ (fun (r : List α) (r' : List β) => r.length = n ∧ r'.length = n) (rows n a) (rows n b) := by
  refine List.forall₂_iff_zip.mpr ⟨?_, fun hmem =>
    ⟨length_of_mem_rows (List.of_mem_zip hmem).1, length_of_mem_rows (List.of_mem_zip hmem).2⟩⟩
  rw [length_rows, length_rows, ha, hb]

/-- **What works entry by entry works row by row.** -/
theorem zipWith_flatten (f : α → β → γ) : ∀ {as : List (List α)} {bs : List (List β)},
    List.Forall₂ (fun a b => a.length = b.length) as bs →
      List.zipWith f as.flatten bs.flatten = (List.zipWith (List.zipWith f) as bs).flatten
  | [], [], .nil => rfl
  | a :: as, b :: bs, .cons hab hrest => by
    rw [List.flatten_cons, List.flatten_cons, List.zipWith_append hab, zipWith_flatten f hrest,
      List.zipWith_cons_cons, List.flatten_cons]

/-! ## Zeros after each half -/

/-- A row with zeros after its first `half` entries and after the others. -/
def padHalves (z : α) (half pad : ℕ) (v : List α) : List α :=
  (v.take half ++ List.replicate pad z) ++ (v.drop half ++ List.replicate pad z)

/-- Half rows of joined rows. -/
theorem rows_half_flatten {half : ℕ} (hhalf : 0 < half) : ∀ {ls : List (List α)},
    (∀ l ∈ ls, l.length = half + half) →
      rows half ls.flatten = ls.flatMap fun l => [l.take half, l.drop half]
  | [], _ => by
    rw [rows, List.flatten_nil, List.length_nil, Nat.zero_div]
    rfl
  | l :: ls, h => by
    have hl := h l (.head _)
    have htake : (l.take half).length = half := List.length_take_of_le (by omega)
    have hdrop : (l.drop half).length = half := by rw [List.length_drop, hl, Nat.add_sub_cancel]
    have hsplit : (l :: ls).flatten = l.take half ++ (l.drop half ++ ls.flatten) := by
      rw [List.flatten_cons, ← List.append_assoc, List.take_append_drop]
    rw [hsplit, rows_append hhalf htake, rows_append hhalf hdrop,
      rows_half_flatten hhalf fun l hl => h l (.tail _ hl), List.flatMap_cons]
    rfl

/-- **Zeros after each half row** are zeros after each half of every row. -/
theorem flatMap_rows_half (z : α) {half : ℕ} (pad : ℕ) (hhalf : 0 < half) {k : ℕ} {row : List α}
    (hlength : row.length = k * (half + half)) :
    (rows half row).flatMap (fun part => part ++ List.replicate pad z) =
      (rows (half + half) row).flatMap (padHalves z half pad) := by
  have hrow := flatten_rows (Nat.add_pos_left hhalf half) hlength
  have hhalves := rows_half_flatten hhalf fun l (hl : l ∈ rows (half + half) row) => length_of_mem_rows hl
  rw [hrow] at hhalves
  rw [hhalves, List.flatMap_assoc]
  refine List.flatMap_congr fun head _ => ?_
  rw [List.flatMap_cons, List.flatMap_singleton, padHalves]

theorem length_padHalves (z : α) {half : ℕ} (pad : ℕ) {v : List α} (hv : v.length = half + half) :
    (padHalves z half pad v).length = (half + pad) + (half + pad) := by
  rw [padHalves, List.length_append, List.length_append, List.length_append, List.length_replicate,
    List.length_drop, List.length_take_of_le (by omega), hv, Nat.add_sub_cancel]

theorem map_padHalves (f : α → β) (z : α) (half pad : ℕ) (v : List α) :
    (padHalves z half pad v).map f = padHalves (f z) half pad (v.map f) := by
  rw [padHalves, padHalves, List.map_append, List.map_append, List.map_append, List.map_replicate,
    List.map_take, List.map_drop]

theorem zipWith_padHalves (f : α → β → γ) (z : α) (w : β) {half : ℕ} (pad : ℕ) {a : List α} {b : List β}
    (ha : a.length = half + half) (hb : b.length = half + half) :
    List.zipWith f (padHalves z half pad a) (padHalves w half pad b) =
      padHalves (f z w) half pad (List.zipWith f a b) := by
  have htake : (a.take half).length = (b.take half).length := by
    rw [List.length_take_of_le (by omega), List.length_take_of_le (by omega)]
  have hdrop : (a.drop half).length = (b.drop half).length := by
    rw [List.length_drop, List.length_drop, ha, hb]
  rw [padHalves, padHalves, padHalves, List.zipWith_append (by simpa using htake),
    List.zipWith_append htake, List.zipWith_append hdrop, List.zipWith_replicate, Nat.min_self,
    List.take_zipWith, List.drop_zipWith]

theorem zipWith_flatMap (f : α → β → γ) (z : α) (w : β) {half : ℕ} (pad : ℕ) :
    ∀ {as : List (List α)} {bs : List (List β)},
      List.Forall₂ (fun a b => a.length = half + half ∧ b.length = half + half) as bs →
        List.zipWith f (as.flatMap (padHalves z half pad)) (bs.flatMap (padHalves w half pad)) =
          (List.zipWith (List.zipWith f) as bs).flatMap (padHalves (f z w) half pad)
  | [], [], .nil => rfl
  | a :: as, b :: bs, .cons ⟨ha, hb⟩ hrest => by
    rw [List.flatMap_cons, List.flatMap_cons, List.zipWith_append (by
      rw [length_padHalves z pad ha, length_padHalves w pad hb]), zipWith_padHalves f z w pad ha hb,
      zipWith_flatMap f z w pad hrest, List.zipWith_cons_cons, List.flatMap_cons]

/-- **What works entry by entry keeps the zeros**, over all rows. -/
theorem zipWith_flatMap_padHalves (f : α → β → γ) (z : α) (w : β) {half size : ℕ} (pad : ℕ)
    (hsize : size = half + half) (hpos : 0 < size) {k : ℕ} {a : List α} {b : List β}
    (ha : a.length = k * size) (hb : b.length = k * size) :
    List.zipWith f ((rows size a).flatMap (padHalves z half pad))
        ((rows size b).flatMap (padHalves w half pad)) =
      (rows size (List.zipWith f a b)).flatMap (padHalves (f z w) half pad) := by
  have hrows := forall₂_rows hpos ha hb
  have hzip : List.zipWith f a b = (List.zipWith (List.zipWith f) (rows size a) (rows size b)).flatten := by
    rw [← zipWith_flatten f (hrows.imp fun _ _ h => h.1.trans h.2.symm), flatten_rows hpos ha,
      flatten_rows hpos hb]
  rw [hzip, rows_flatten hpos, zipWith_flatMap f z w pad (hrows.imp fun _ _ h =>
    ⟨h.1.trans hsize, h.2.trans hsize⟩)]
  intro l hl
  obtain ⟨i, hi, rfl⟩ := List.getElem_of_mem hl
  rw [List.getElem_zipWith, List.length_zipWith, length_of_mem_rows (List.getElem_mem _),
    length_of_mem_rows (List.getElem_mem _), Nat.min_self]

theorem padHalves_replicate (z : α) (half pad : ℕ) :
    padHalves z half pad (List.replicate (half + half) z) =
      List.replicate ((half + pad) + (half + pad)) z := by
  rw [padHalves, List.take_replicate, List.drop_replicate, Nat.min_eq_left (Nat.le_add_left _ _),
    Nat.add_sub_cancel, List.replicate_append_replicate, List.replicate_append_replicate]

/-! ## Products -/

section Products

variable {R : Type} [CommRing R]

def rowProduct (x w : List R) : R := (List.zipWith (· * ·) x w).sum

@[simp] theorem rowProduct_replicate_zero (x : List R) (n : ℕ) :
    rowProduct x (List.replicate n 0) = 0 := by
  refine List.sum_eq_zero fun v hv => ?_
  obtain ⟨i, hi, rfl⟩ := List.getElem_of_mem hv
  rw [List.getElem_zipWith, List.getElem_replicate, mul_zero]

theorem rowProduct_append {a c : List R} {b d : List R} (h : a.length = c.length) :
    rowProduct (a ++ b) (c ++ d) = rowProduct a c + rowProduct b d := by
  rw [rowProduct, List.zipWith_append h, List.sum_append]
  rfl

/-- **Products do not see the zeros.** -/
theorem rowProduct_padHalves {half : ℕ} (pad : ℕ) {a b : List R} (ha : a.length = half + half)
    (hb : b.length = half + half) :
    rowProduct (padHalves 0 half pad a) (padHalves 0 half pad b) = rowProduct a b := by
  have htake : (a.take half).length = (b.take half).length := by
    rw [List.length_take_of_le (by omega), List.length_take_of_le (by omega)]
  have hdrop : (a.drop half).length = (b.drop half).length := by
    rw [List.length_drop, List.length_drop, ha, hb]
  rw [padHalves, padHalves, rowProduct_append (by simpa using htake), rowProduct_append htake,
    rowProduct_append hdrop, rowProduct_replicate_zero, add_zero, add_zero, ← rowProduct_append htake,
    List.take_append_drop, List.take_append_drop]

theorem rowProduct_flatMap_padHalves {half : ℕ} (pad : ℕ) : ∀ {as bs : List (List R)},
    List.Forall₂ (fun a b => a.length = half + half ∧ b.length = half + half) as bs →
      rowProduct (as.flatMap (padHalves 0 half pad)) (bs.flatMap (padHalves 0 half pad)) =
        rowProduct as.flatten bs.flatten
  | [], [], .nil => rfl
  | a :: as, b :: bs, .cons ⟨ha, hb⟩ hrest => by
    rw [List.flatMap_cons, List.flatMap_cons, rowProduct_append (by
      rw [length_padHalves 0 pad ha, length_padHalves 0 pad hb]), rowProduct_padHalves pad ha hb,
      rowProduct_flatMap_padHalves pad hrest, List.flatten_cons, List.flatten_cons,
      rowProduct_append (ha.trans hb.symm)]

end Products

end Machinery
