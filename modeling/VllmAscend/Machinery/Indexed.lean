import VllmAscend.Machinery.Shaped

/-!
# Machinery/Indexed — entries of a tensor by their indices

    shape (2, 3, 4)      entry [i, j, k] stands at (i·3 + j)·4 + k

Indices are listed in the order in which entries stand (`map_flatIndex`), so that a tensor is known from its
entries (`eq_of_entry`).  A reshape keeps the places; a transposition renames indices; padding adds zeros
around, its amounts given from the last dimension on.
-/

namespace Machinery

namespace Shaped

variable {α : Type}

/-! ## Places -/

/-- The place of an index. -/
def flatIndex : List ℕ → List ℕ → ℕ
  | _ :: ns, i :: is => i * ns.prod + flatIndex ns is
  | _, _ => 0

/-- All indices of a shape, in the order of their places. -/
def indices : List ℕ → List (List ℕ)
  | [] => [[]]
  | n :: ns => (List.range n).flatMap fun i => (indices ns).map (i :: ·)

/-- An index is within a shape. -/
abbrev InBounds (shape idx : List ℕ) : Prop := List.Forall₂ (· < ·) idx shape

theorem length_indices : ∀ shape : List ℕ, (indices shape).length = shape.prod
  | [] => rfl
  | n :: ns => by
    rw [indices, length_flatMap_const fun i _ => List.length_map _, List.length_range, length_indices ns,
      List.prod_cons]

theorem inBounds_of_mem : ∀ {shape idx : List ℕ}, idx ∈ indices shape → InBounds shape idx
  | [], _, h => by
    rw [indices, List.mem_singleton] at h
    rw [h]
    exact .nil
  | n :: ns, _, h => by
    obtain ⟨i, hi, h⟩ := List.mem_flatMap.mp h
    obtain ⟨is, his, rfl⟩ := List.mem_map.mp h
    exact .cons (List.mem_range.mp hi) (inBounds_of_mem his)

/-- **Indices are listed in the order of their places.** -/
theorem map_flatIndex : ∀ shape : List ℕ, (indices shape).map (flatIndex shape) = List.range shape.prod
  | [] => rfl
  | n :: ns => by
    rw [indices, List.map_flatMap, List.prod_cons, range_mul, ← map_flatIndex ns]
    refine List.flatMap_congr fun i _ => ?_
    rw [List.map_map, List.map_map]
    rfl

theorem flatIndex_lt : ∀ {shape idx : List ℕ}, InBounds shape idx → flatIndex shape idx < shape.prod
  | _, _, .nil => Nat.one_pos
  | n :: ns, i :: is, .cons hi his => by
    have hrest := flatIndex_lt his
    calc flatIndex (n :: ns) (i :: is) = i * ns.prod + flatIndex ns is := rfl
      _ < (i + 1) * ns.prod := by rw [Nat.succ_mul]; omega
      _ ≤ n * ns.prod := Nat.mul_le_mul_right _ hi
      _ = (n :: ns).prod := List.prod_cons.symm

theorem getElem?_indices : ∀ {shape idx : List ℕ}, InBounds shape idx →
    (indices shape)[flatIndex shape idx]? = some idx
  | _, _, .nil => rfl
  | n :: ns, i :: is, .cons hi his => by
    have hrow : ((indices (n :: ns)).drop (i * ns.prod)).take ns.prod = (indices ns).map (i :: ·) :=
      chunk_flatMap (fun j _ => by rw [List.length_map, length_indices]) (List.getElem?_range hi)
    have hget := congrArg (fun row : List (List ℕ) => row[flatIndex ns is]?) hrow
    simp only [List.getElem?_take, flatIndex_lt his, if_true, List.getElem?_drop, List.getElem?_map,
      getElem?_indices his, Option.map_some] at hget
    exact hget

/-! ## Entries -/

section Entries

variable [Zero α]

/-- The entry at an index. -/
def entry (x : Shaped α) (idx : List ℕ) : α := x.data.getD (flatIndex x.shape idx) 0

/-- The tensor of a shape with the given entries. -/
def tabulate (shape : List ℕ) (f : List ℕ → α) : Shaped α :=
  ⟨shape, (indices shape).map f, by rw [List.length_map, length_indices]⟩

omit [Zero α] in
@[simp] theorem tabulate_shape (shape : List ℕ) (f : List ℕ → α) : (tabulate shape f).shape = shape := rfl

theorem entry_tabulate {shape idx : List ℕ} (h : InBounds shape idx) (f : List ℕ → α) :
    (tabulate shape f).entry idx = f idx := by
  have hget : (tabulate shape f).data[flatIndex shape idx]? = some (f idx) :=
    List.getElem?_map.trans (congrArg (Option.map f) (getElem?_indices h))
  rw [entry, List.getD_eq_getElem?_getD, tabulate_shape, hget, Option.getD_some]

theorem eq_tabulate (x : Shaped α) : x = tabulate x.shape x.entry := by
  refine Shaped.ext rfl ?_
  have hdata : (List.range x.shape.prod).map (x.data.getD · 0) = x.data :=
    (congrArg Shaped.data (x.eq_map_iota 0)).symm
  rw [tabulate, ← hdata, ← map_flatIndex, List.map_map]
  exact List.map_congr_left fun idx _ => rfl

/-- **A tensor is known from its entries.** -/
theorem eq_of_entry {x y : Shaped α} (hshape : x.shape = y.shape)
    (h : ∀ idx, InBounds x.shape idx → x.entry idx = y.entry idx) : x = y := by
  rw [x.eq_tabulate, y.eq_tabulate, ← hshape]
  exact Shaped.ext rfl (List.map_congr_left fun idx hidx => h idx (inBounds_of_mem hidx))

/-! ## Renaming and padding -/

/-- `x.transpose(d, e)` -/
def transpose (x : Shaped α) (d e : ℕ) : Shaped α :=
  let swap (l : List ℕ) := (l.set d (l.getD e 0)).set e (l.getD d 0)
  tabulate (swap x.shape) fun idx => x.entry (swap idx)

/-- `x.permute(dims)` -/
def permute (x : Shaped α) (dims : List ℕ) : Shaped α :=
  tabulate (dims.map (x.shape.getD · 0)) fun idx =>
    x.entry ((List.range dims.length).map fun j => idx.getD (dims.idxOf j) 0)

/-- `F.pad(x, pads)`: what is added before and after the last dimension, then the one before it, and so on. -/
def pad (x : Shaped α) (pads : List ℕ) : Shaped α :=
  let before := (List.range x.shape.length).map fun j => pads.getD (2 * (x.shape.length - 1 - j)) 0
  let after := (List.range x.shape.length).map fun j => pads.getD (2 * (x.shape.length - 1 - j) + 1) 0
  tabulate (List.zipWith (· + ·) (List.zipWith (· + ·) before x.shape) after) fun idx =>
    if (∀ p ∈ idx.zip before, p.2 ≤ p.1) ∧
        ∀ p ∈ (List.zipWith (· - ·) idx before).zip x.shape, p.1 < p.2 then
      x.entry (List.zipWith (· - ·) idx before)
    else 0

section Matrix

variable {x : Shaped α} {R C : ℕ}

theorem pad_shape (hx : x.shape = [R, C]) (right below : ℕ) :
    (x.pad [0, right, 0, below]).shape = [R + below, C + right] := by
  rw [pad, tabulate_shape, hx]
  simp [List.range_succ]

/-- **A padded matrix**: its entries, and zeros right of them and below. -/
theorem entry_pad (hx : x.shape = [R, C]) {right below r c : ℕ} (hr : r < R + below) (hc : c < C + right) :
    (x.pad [0, right, 0, below]).entry [r, c] = if r < R ∧ c < C then x.entry [r, c] else 0 := by
  have hin : InBounds (x.pad [0, right, 0, below]).shape [r, c] := by
    rw [pad_shape hx]
    exact .cons hr (.cons hc .nil)
  refine (entry_tabulate hin _).trans ?_
  rw [hx]
  simp [List.range_succ]

end Matrix

/-- `torch.zeros(shape)` -/
def zeros (shape : List ℕ) : Shaped α := tabulate shape fun _ => 0

/-- `x[i][:a, :b] = y`, for `y` of shape `(a, b)`. -/
def setFront (x : Shaped α) (i : ℕ) (y : Shaped α) : Shaped α :=
  tabulate x.shape fun idx =>
    if idx.getD 0 0 = i ∧ idx.getD 1 0 < y.size 0 ∧ idx.getD 2 0 < y.size 1 then
      y.entry [idx.getD 1 0, idx.getD 2 0]
    else x.entry idx

theorem entry_of_reshape {x y : Shaped α} {shape : List ℕ} (h : x.reshape shape = some y) {idx idx' : List ℕ}
    (hplace : flatIndex shape idx = flatIndex x.shape idx') : y.entry idx = x.entry idx' := by
  obtain ⟨hshape, hdata⟩ := of_ofData_eq_some h
  rw [entry, entry, hshape, hdata, hplace]

end Entries

end Shaped

end Machinery
