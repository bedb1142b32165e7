import VllmAscend.Machinery.Exchange
import VllmAscend.Machinery.FixedBlocks

/-!
# Machinery/PaddedRows — rows of different lengths in a rectangle

    lengths      2 0 3
    rectangle    a b ·        mask   1 1 0
                 · · ·               0 0 0
                 c d e               1 1 1
    selected     a b c d e

A batch of rows is computed with as a rectangle, each row padded to the longest.  The mask of the cells that
are not padding takes the rectangle to the flattened rows (`maskedSelect_grid`) and the flattened rows into a
rectangle (`maskedFill_grid`); what works cell by cell works on rectangles (`map_map_grid`).
-/

namespace Machinery

variable {α β γ δ : Type}

/-! ## Tensors under a mask -/

/-- `arange(m) < lens.view(-1, 1)` -/
def lenMask (lens : List ℤ) (m : ℕ) : List (List Bool) :=
  lens.map fun l => (arange m).map fun j => decide (j < l)

/-- `xs[mask]` of a matrix. -/
def maskedSelect (mask : List (List Bool)) (xs : List (List α)) : Option (List α) :=
  if mask.map List.length = xs.map List.length then some (select mask.flatten xs.flatten) else none

/-- `xs[mask] = vals` of a matrix, with a value for each place. -/
def maskedFill (mask : List (List Bool)) (xs : List (List α)) (vals : List α) : Option (List (List α)) :=
  if mask.map List.length = xs.map List.length then
    (setMasked mask.flatten xs.flatten vals).map (splitSizes (mask.map List.length))
  else none

/-- `full([n, m], x)` -/
def fullRows (n m : ℕ) (x : α) : List (List α) := List.replicate n (List.replicate m x)

/-- `xs.view(n, m)` -/
def viewRows (n m : ℕ) (xs : List α) : Option (List (List α)) :=
  if xs.length = n * m then some (splitSizes (List.replicate n m) xs) else none

/-! ## Rectangles -/

section Grid

variable (ds : List δ) (m : ℕ)

/-- A row of `m` cells for each `d`. -/
def grid (f : δ → ℕ → α) : List (List α) := ds.map fun d => (List.range m).map (f d)

/-- The cells of the rectangle, in row-major order. -/
def cells : List (δ × ℕ) := ds.flatMap fun d => (List.range m).map (Prod.mk d)

/-- Rows of their own lengths, flattened. -/
def ragged (len : δ → ℕ) (f : δ → ℕ → α) : List α := ds.flatMap fun d => (List.range (len d)).map (f d)

theorem flatten_rectangle (f : δ → ℕ → α) : (grid ds m f).flatten = (cells ds m).map fun c => f c.1 c.2 := by
  rw [grid, cells, List.map_flatMap, ← List.flatMap_def]
  exact List.flatMap_congr fun d _ => by rw [List.map_map]; rfl

theorem map_length_grid (f : δ → ℕ → α) : (grid ds m f).map List.length = List.replicate ds.length m := by
  rw [grid, List.map_map, ← List.map_const']
  exact List.map_congr_left fun d _ => by simp

theorem map_grid (g : List α → β) (f : δ → ℕ → α) :
    (grid ds m f).map g = ds.map fun d => g ((List.range m).map (f d)) := by
  rw [grid, List.map_map]
  rfl

theorem zipWith_grid {k : ℕ} (g : List α → List β → γ) (a : δ → ℕ → α) (b : δ → ℕ → β) :
    List.zipWith g (grid ds m a) (grid ds k b) =
      ds.map fun d => g ((List.range m).map (a d)) ((List.range k).map (b d)) := by
  rw [grid, grid, List.zipWith_map, List.zipWith_self]

/-- **What works cell by cell** works on rectangles. -/
theorem map_map_grid (g : α → β) (f : δ → ℕ → α) :
    (grid ds m f).map (List.map g) = grid ds m fun d j => g (f d j) := by
  rw [map_grid, grid]
  exact List.map_congr_left fun d _ => List.map_map

theorem zipWith_zipWith_grid (g : α → β → γ) (a : δ → ℕ → α) (b : δ → ℕ → β) :
    List.zipWith (List.zipWith g) (grid ds m a) (grid ds m b) = grid ds m fun d j => g (a d j) (b d j) := by
  rw [zipWith_grid, grid]
  exact List.map_congr_left fun d _ => by rw [List.zipWith_map, List.zipWith_self]

theorem zipWith_zip_grid (a : δ → ℕ → α) (b : δ → ℕ → β) :
    List.zipWith List.zip (grid ds m a) (grid ds m b) = grid ds m fun d j => (a d j, b d j) := by
  rw [zipWith_grid, grid]
  exact List.map_congr_left fun d _ => List.zip_map' ..

theorem ragged_congr {len : δ → ℕ} {f g : δ → ℕ → α} (h : ∀ d ∈ ds, ∀ j < len d, f d j = g d j) :
    ragged ds len f = ragged ds len g :=
  List.flatMap_congr fun d hd => List.map_congr_left fun j hj => h d hd j (List.mem_range.mp hj)

theorem fullRows_eq_grid (x : α) : fullRows ds.length m x = grid ds m fun _ _ => x := by
  rw [fullRows, grid, List.map_const', List.map_const', List.length_range]

/-- **A row is cut out of the flattened rectangle again.** -/
theorem splitSizes_grid (f : δ → ℕ → α) :
    splitSizes (List.replicate ds.length m) ((cells ds m).map fun c => f c.1 c.2) = grid ds m f := by
  have hsplit := splitSizes_flatMap (fun d => (List.range m).map (f d)) ds
  simp only [List.length_map, List.length_range, List.map_const'] at hsplit
  rw [← flatten_rectangle, grid, ← List.flatMap_def, hsplit]

theorem viewRows_flatMap {g : δ → List α} (h : ∀ d ∈ ds, (g d).length = m) :
    viewRows ds.length m (ds.flatMap g) = some (ds.map g) := by
  have hsplit := splitSizes_flatMap g ds
  rw [List.map_congr_left h, List.map_const'] at hsplit
  rw [viewRows, if_pos (length_flatMap_const h), hsplit]

theorem viewRows_flatten (f : δ → ℕ → α) : viewRows ds.length m (grid ds m f).flatten = some (grid ds m f) :=
  viewRows_flatMap ds m fun d _ => by simp

theorem map_flatten_cells (g : α → β) (f : δ → ℕ → α) :
    (grid ds m f).flatten.map g = (grid ds m fun d j => g (f d j)).flatten := by
  rw [flatten_rectangle, flatten_rectangle, List.map_map]
  rfl

variable {ds m} {len : δ → ℕ}

variable (ds m len) in
theorem lenMask_eq_grid :
    lenMask (ds.map fun d => (len d : ℤ)) m = grid ds m fun d j => decide (j < len d) := by
  rw [lenMask, List.map_map]
  refine List.map_congr_left fun d _ => ?_
  simp [arange, segment]

theorem filter_lt_range {n : ℕ} (h : n ≤ m) :
    (List.range m).filter (fun j => decide (j < n)) = List.range n := by
  obtain ⟨k, rfl⟩ := Nat.exists_eq_add_of_le h
  rw [List.range_add, List.filter_append, List.filter_eq_self.mpr fun j hj => by simpa using hj,
    List.filter_eq_nil_iff.mpr, List.append_nil]
  intro j hj
  obtain ⟨i, -, rfl⟩ := List.mem_map.mp hj
  simp

/-- The cells that are not padding. -/
theorem filter_cells (hlen : ∀ d ∈ ds, len d ≤ m) :
    (cells ds m).filter (fun c => decide (c.2 < len c.1)) =
      ds.flatMap fun d => (List.range (len d)).map (Prod.mk d) := by
  rw [cells, List.filter_flatMap]
  refine List.flatMap_congr fun d hd => ?_
  rw [List.filter_map, ← filter_lt_range (hlen d hd)]
  rfl

theorem map_filter_cells (hlen : ∀ d ∈ ds, len d ≤ m) (f : δ → ℕ → α) :
    ((cells ds m).filter fun c => decide (c.2 < len c.1)).map (fun c => f c.1 c.2) = ragged ds len f := by
  rw [filter_cells hlen, List.map_flatMap]
  exact List.flatMap_congr fun d _ => by rw [List.map_map]; rfl

/-- The mask has as many cells as there are flattened rows. -/
theorem count_lenMask (hlen : ∀ d ∈ ds, len d ≤ m) (f : δ → ℕ → α) :
    (grid ds m fun d j => decide (j < len d)).flatten.count true = (ragged ds len f).length := by
  rw [← map_filter_cells hlen, flatten_rectangle, List.length_map, List.count, List.countP_map,
    List.countP_eq_length_filter]
  exact congrArg List.length (List.filter_congr fun c _ => by simp)

/-- **Under the mask of the lengths are the flattened rows.** -/
theorem maskedSelect_grid (hlen : ∀ d ∈ ds, len d ≤ m) (f : δ → ℕ → α) :
    maskedSelect (grid ds m fun d j => decide (j < len d)) (grid ds m f) = some (ragged ds len f) := by
  rw [maskedSelect, if_pos (by rw [map_length_grid, map_length_grid]), flatten_rectangle, flatten_rectangle, select_map,
    map_filter_cells hlen]

/-- **Flattened rows fill the cells under the mask.** -/
theorem maskedFill_grid (hlen : ∀ d ∈ ds, len d ≤ m) (z v : δ → ℕ → α) :
    maskedFill (grid ds m fun d j => decide (j < len d)) (grid ds m z) (ragged ds len v) =
      some (grid ds m fun d j => if j < len d then v d j else z d j) := by
  have hfill := setMasked_map (fun c : δ × ℕ => decide (c.2 < len c.1)) (fun c => z c.1 c.2)
    (fun c => v c.1 c.2) (cells ds m)
  rw [map_filter_cells hlen] at hfill
  rw [maskedFill, if_pos (by rw [map_length_grid, map_length_grid]), flatten_rectangle, flatten_rectangle, hfill,
    Option.map_some, map_length_grid, ← splitSizes_grid]
  simp only [decide_eq_true_eq]

end Grid

end Machinery
