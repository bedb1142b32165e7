import Mathlib.Data.List.Destutter
import VllmAscend.Machinery.Exchange
import VllmAscend.Machinery.SortBack

/-!
# Machinery/Raster — a rectangle of cells, row by row and window by window

    raster      0 1 2 3 4 │ 5 6 7 8 9 │ …
    windows     0 1 5 6 │ 2 3 7 8 │ 4 9 │ …           of 2 × 2 cells, cut at the border

Both orders list the same cells (`windows_perm`).  Windows that are cut at the border are full windows of a
padded rectangle, of which only the cells inside are taken (`filter_raster`).  Of the running sums of their
sizes each is kept once, and so are the windows that are not empty (`differences_uniqueConsecutive`).
-/

namespace Machinery

variable {α β : Type}

/-! ## Cells -/

/-- The cells of a rectangle, row by row. -/
def raster (h w : ℕ) (g : ℕ → ℕ → α) : List α :=
  (List.range h).flatMap fun y => (List.range w).map (g y)

/-- The cells of the window in row `a` and column `b` of windows. -/
def windowCells (ws : ℕ) (g : ℕ → ℕ → α) (a b : ℕ) : List α :=
  raster ws ws fun i j => g (a * ws + i) (b * ws + j)

/-- The windows of `n` rows and `m` columns of windows. -/
def windows (ws n m : ℕ) (g : ℕ → ℕ → α) : List (List α) := raster n m (windowCells ws g)

theorem map_raster (F : α → β) (h w : ℕ) (g : ℕ → ℕ → α) :
    (raster h w g).map F = raster h w fun y x => F (g y x) := by
  rw [raster, raster, List.map_flatMap]
  simp only [List.map_map, Function.comp_def]

theorem flatten_windows (ws n m : ℕ) (g : ℕ → ℕ → α) :
    (windows ws n m g).flatten =
      (List.range n).flatMap fun a => (List.range m).flatMap (windowCells ws g a) := by
  rw [windows, raster, ← List.flatMap_id, List.flatMap_assoc]
  simp only [List.flatMap_map, id]

theorem map_flatten_windows (F : α → β) (ws n m : ℕ) (g : ℕ → ℕ → α) :
    (windows ws n m g).flatten.map F = (windows ws n m fun y x => F (g y x)).flatten := by
  rw [flatten_windows, flatten_windows, List.map_flatMap]
  refine List.flatMap_congr fun a _ => ?_
  rw [List.map_flatMap]
  exact List.flatMap_congr fun b _ => map_raster F ws ws _

/-- An entry of a raster. -/
theorem getElem?_raster {h w y x : ℕ} (hy : y < h) (hx : x < w) (g : ℕ → ℕ → α) :
    (raster h w g)[y * w + x]? = some (g y x) :=
  getElem?_rows g hx (List.getElem?_range hy)

/-- **Window by window** the same cells are listed as row by row. -/
theorem windows_perm (ws n m : ℕ) (g : ℕ → ℕ → α) :
    (windows ws n m g).flatten.Perm (raster (n * ws) (m * ws) g) := by
  rw [flatten_windows, raster, range_mul n ws, List.flatMap_assoc]
  refine List.Perm.flatMap_left _ fun a _ => ?_
  refine (flatMap_swap_perm _ _ fun b i => (List.range ws).map fun j => g (a * ws + i) (b * ws + j)).trans
    (List.Perm.of_eq ?_)
  rw [List.flatMap_map]
  refine List.flatMap_congr fun i _ => ?_
  rw [range_mul, List.map_flatMap]
  simp only [List.map_map, Function.comp_def]

/-- **The cells inside** of a padded rectangle. -/
theorem filter_raster {h w : ℕ} (padH padW : ℕ) {g : ℕ → ℕ → α} {p : α → Bool}
    (hin : ∀ y < h, ∀ x < w, p (g y x) = true)
    (hout : ∀ y x, h ≤ y ∨ w ≤ x → p (g y x) = false) :
    (raster (h + padH) (w + padW) g).filter p = raster h w g := by
  have hrow : ∀ y < h, ((List.range (w + padW)).map (g y)).filter p = (List.range w).map (g y) := by
    intro y hy
    rw [List.range_add, List.map_append, List.filter_append, List.map_map]
    have hinside : ((List.range w).map (g y)).filter p = (List.range w).map (g y) :=
      List.filter_eq_self.mpr fun c hc => by
        obtain ⟨x, hx, rfl⟩ := List.mem_map.mp hc
        exact hin y hy x (List.mem_range.mp hx)
    have houtside : ((List.range padW).map (g y ∘ (w + ·))).filter p = [] :=
      List.filter_eq_nil_iff.mpr fun c hc => by
        obtain ⟨x, _, rfl⟩ := List.mem_map.mp hc
        rw [Function.comp_apply, hout y (w + x) (.inr (Nat.le_add_right _ _))]
        exact Bool.false_ne_true
    rw [hinside, houtside, List.append_nil]
  have hpad : ((List.range padH).map (h + ·)).flatMap
      (fun y => ((List.range (w + padW)).map (g y)).filter p) = [] := by
    refine List.flatMap_eq_nil_iff.mpr fun y hy => List.filter_eq_nil_iff.mpr fun c hc => ?_
    obtain ⟨k, _, rfl⟩ := List.mem_map.mp hy
    obtain ⟨x, _, rfl⟩ := List.mem_map.mp hc
    rw [hout (h + k) x (.inl (Nat.le_add_right _ _))]
    exact Bool.false_ne_true
  have hrows : List.range (h + padH) = List.range h ++ (List.range padH).map (h + ·) := List.range_add
  rw [raster, List.filter_flatMap, hrows, List.flatMap_append, hpad, List.append_nil]
  exact List.flatMap_congr fun y hy => hrow y (List.mem_range.mp hy)

/-- **The cells of a window that are inside.** -/
theorem mem_filter_windowCells {h w ws : ℕ} {g : ℕ → ℕ → α} {p : α → Bool}
    (hin : ∀ y < h, ∀ x < w, p (g y x) = true)
    (hout : ∀ y x, h ≤ y ∨ w ≤ x → p (g y x) = false) {a b : ℕ} {c : α} :
    c ∈ (windowCells ws g a b).filter p ↔
      ∃ y < h, ∃ x < w, y / ws = a ∧ x / ws = b ∧ 0 < ws ∧ c = g y x := by
  simp only [windowCells, raster, List.mem_filter, List.mem_flatMap, List.mem_map, List.mem_range]
  constructor
  · rintro ⟨⟨i, hi, j, hj, rfl⟩, hp⟩
    have hpos := Nat.zero_lt_of_lt hi
    have hinside : a * ws + i < h ∧ b * ws + j < w := by
      by_contra hnot
      rw [hout _ _ (by omega)] at hp
      exact Bool.false_ne_true hp
    refine ⟨_, hinside.1, _, hinside.2, ?_, ?_, hpos, rfl⟩
    · rw [Nat.mul_comm, Nat.mul_add_div hpos, Nat.div_eq_of_lt hi, Nat.add_zero]
    · rw [Nat.mul_comm, Nat.mul_add_div hpos, Nat.div_eq_of_lt hj, Nat.add_zero]
  · rintro ⟨y, hy, x, hx, rfl, rfl, hpos, rfl⟩
    refine ⟨⟨y % ws, Nat.mod_lt _ hpos, x % ws, Nat.mod_lt _ hpos, ?_⟩, hin y hy x hx⟩
    rw [Nat.div_add_mod', Nat.div_add_mod']

/-! ## Running sums without repetitions -/

/-- `torch.unique_consecutive(xs)` -/
def uniqueConsecutive (xs : List ℤ) : List ℤ := xs.destutter (· ≠ ·)

/-- `torch.diff(xs)` -/
def differences (xs : List ℤ) : List ℤ := List.zipWith (· - ·) xs.tail xs

theorem differences_destutter' : ∀ (s : ℤ) (ns : List ℤ), ∃ rest,
    (cumsum s ns).destutter' (· ≠ ·) s = s :: rest ∧ differences (s :: rest) = ns.filter (· ≠ 0)
  | s, [] => ⟨[], rfl, rfl⟩
  | s, n :: ns => by
    obtain ⟨rest, hrest, hdiff⟩ := differences_destutter' (s + n) ns
    rw [cumsum]
    by_cases hzero : n = 0
    · subst hzero
      rw [add_zero] at hrest hdiff ⊢
      refine ⟨rest, ?_, ?_⟩
      · rw [List.destutter'_cons_neg _ (not_not.mpr rfl), hrest]
      · rw [hdiff, List.filter_cons_of_neg (by decide)]
    · refine ⟨(s + n) :: rest, ?_, ?_⟩
      · rw [List.destutter'_cons_pos _ (by omega), hrest]
      · rw [List.filter_cons_of_pos (by simpa using hzero), ← hdiff]
        exact congrArg (· :: _) (add_sub_cancel_left s n)

/-- **Running sums without repetitions** are those of the entries that are not zero. -/
theorem differences_uniqueConsecutive (s : ℤ) (ns : List ℤ) :
    differences (uniqueConsecutive (s :: cumsum s ns)) = ns.filter (· ≠ 0) := by
  obtain ⟨rest, hrest, hdiff⟩ := differences_destutter' s ns
  rw [uniqueConsecutive, List.destutter_cons', hrest, hdiff]

/-- Running sums of multiples. -/
theorem cumsum_mul (c : ℤ) : ∀ (s t : ℤ) (ns : List ℤ),
    (cumsum s ns).map (fun x => x * c + t) = cumsum (s * c + t) (ns.map (· * c))
  | _, _, [] => rfl
  | s, t, n :: ns => by
    rw [cumsum, List.map_cons, cumsum_mul c (s + n) t ns, List.map_cons, cumsum]
    congr 1
    · ring
    · congr 1
      ring

/-- Running sums go on. -/
theorem cumsum_append : ∀ (s : ℤ) (ns ms : List ℤ),
    cumsum s (ns ++ ms) = cumsum s ns ++ cumsum (s + ns.sum) ms
  | s, [], ms => by rw [List.nil_append, cumsum, List.nil_append, List.sum_nil, add_zero]
  | s, n :: ns, ms => by
    rw [List.cons_append, cumsum, cumsum, cumsum_append (s + n) ns ms, List.sum_cons, add_assoc]
    rfl

end Machinery
