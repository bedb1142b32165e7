import Mathlib

/-!
# Machinery/MatrixView — rectangles of a matrix given by its rows

    before          block m i j a b      the entries of rows i … j-1 and columns a … b-1
    mid      ──▸    setBlock … new       …replaced by `new`
    after

A view of rows `i` to `j` sees and changes only the rows in between (`block_append`,
`setBlock_append`).  `causalRow n p v z` is the row of a triangular mask for the position `p`: the
triangle, taken row by row, is what a square of one value becomes when its lower half is cleared
(`causalRow_eq_append`).
-/

namespace Machinery

variable {α β : Type}

/-- `m[i:j, a:b]` -/
def block (m : List (List α)) (i j a b : ℕ) : List (List α) :=
  ((m.take j).drop i).map fun row => (row.take b).drop a

/-- `m[i:j, a:b] = new` -/
def setBlock (m : List (List α)) (i j a b : ℕ) (new : List (List α)) : List (List α) :=
  m.take i ++ List.zipWith (fun row entries => row.take a ++ entries ++ row.drop b)
    ((m.take j).drop i) new ++ m.drop j

/-- The lower triangle. -/
def tril (zero : α) (m : List (List α)) : List (List α) :=
  m.mapIdx fun t row => row.mapIdx fun c x => if c ≤ t then x else zero

/-- `m.masked_fill_(flags, value)` -/
def fillWhere (m : List (List α)) (flags : List (List Bool)) (value : α) : List (List α) :=
  List.zipWith (List.zipWith fun x flag => if flag then value else x) m flags

/-! ## Rows in the middle -/

section Middle

variable (before mid after : List (List α)) {i j : ℕ} (hi : i = before.length)
  (hj : j = before.length + mid.length)

include hi hj

theorem middle_eq : ((before ++ mid ++ after).take j).drop i = mid := by
  subst hi hj
  rw [List.take_left' (by simp), List.drop_left' rfl]

theorem block_append (a b : ℕ) :
    block (before ++ mid ++ after) i j a b = mid.map fun row => (row.take b).drop a := by
  rw [block, middle_eq before mid after hi hj]

theorem setBlock_append (a b : ℕ) (new : List (List α)) :
    setBlock (before ++ mid ++ after) i j a b new =
      before ++ List.zipWith (fun row entries => row.take a ++ entries ++ row.drop b) mid new ++
        after := by
  rw [setBlock, middle_eq before mid after hi hj]
  subst hi hj
  rw [List.append_assoc before, List.take_left' rfl, ← List.append_assoc, List.drop_left' (by simp)]

end Middle

/-! ## Triangles -/

/-- The row of a mask for the position `p`: the columns behind it are masked. -/
def causalRow (n p : ℕ) (value zero : α) : List α :=
  (List.range n).map fun c => if p < c then value else zero

@[simp] theorem length_causalRow (n p : ℕ) (value zero : α) : (causalRow n p value zero).length = n := by
  simp [causalRow]

theorem causalRow_map (f : α → β) (n p : ℕ) (value zero : α) :
    (causalRow n p value zero).map f = causalRow n p (f value) (f zero) := by
  simp only [causalRow, List.map_map, Function.comp_def, apply_ite f]

theorem causalRow_take {m n : ℕ} (h : m ≤ n) (p : ℕ) (value zero : α) :
    (causalRow n p value zero).take m = causalRow m p value zero := by
  rw [causalRow, ← List.map_take, List.take_range, min_eq_left h, causalRow]

/-- The last position masks nothing. -/
theorem causalRow_of_le {n p : ℕ} (h : n ≤ p + 1) (value value' zero : α) :
    causalRow n p value zero = causalRow n p value' zero := by
  refine List.map_congr_left fun c hc => ?_
  have hlt := List.mem_range.mp hc
  rw [if_neg (by omega), if_neg (by omega)]

/-- **The part in front of a request, its row of the triangle and the part behind it.** -/
theorem causalRow_eq_append {context q n t : ℕ} (ht : t < q) (hn : context + q ≤ n) (value zero : α) :
    List.replicate context zero ++ (List.range q).map (fun c => if c ≤ t then zero else value) ++
      List.replicate (n - (context + q)) value = causalRow n (context + t) value zero := by
  refine List.ext_getElem (by simp; omega) fun c hc hc' => ?_
  rw [length_causalRow] at hc'
  simp only [List.getElem_append, List.length_append, List.length_replicate, List.length_map,
    List.length_range, List.getElem_replicate, List.getElem_map, List.getElem_range, causalRow]
  split
  · split
    · rw [if_neg (by omega)]
    · split
      · rw [if_neg (by omega)]
      · rw [if_pos (by omega)]
  · rw [if_pos (by omega)]

/-- The lower triangle of a square of one value. -/
theorem tril_replicate (zero value : α) (q n : ℕ) :
    tril zero (List.replicate q (List.replicate n value)) =
      (List.range q).map fun t => (List.range n).map fun c => if c ≤ t then value else zero := by
  refine List.ext_getElem (by simp [tril]) fun t ht _ => ?_
  refine List.ext_getElem (by simp [tril]) fun c hc _ => ?_
  simp [tril]

/-- Filling with flags that depend on the place. -/
theorem fillWhere_replicate (x value : α) (q n : ℕ) (flag : ℕ → ℕ → Bool) :
    fillWhere (List.replicate q (List.replicate n x))
        ((List.range q).map fun t => (List.range n).map fun c => flag t c) value =
      (List.range q).map fun t => (List.range n).map fun c => if flag t c then value else x := by
  refine List.ext_getElem (by simp [fillWhere]) fun t ht _ => ?_
  refine List.ext_getElem (by simp [fillWhere]) fun c hc _ => ?_
  simp [fillWhere]

end Machinery
