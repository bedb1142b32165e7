import VllmAscend.Machinery.Exchange

/-!
# Machinery/Shaped — tensors of any shape, cut and joined along a dimension

    shape (2, 3)       a b c          along 0     a b c │ d e f
    data a b c d e f   d e f          along 1     a d │ b c e f

A tensor has as many entries as its shape says, in row-major order.  Along a dimension it is a number of
blocks, one for each index of the dimensions before; a cut goes through every block, and pieces are joined
block by block.  Cutting and joining undo each other (`split_of_cat`, `cat_of_split`).
-/

namespace Machinery

/-- A contiguous tensor. -/
@[ext] structure Shaped (α : Type) where
  shape : List ℕ
  data : List α
  length_data : data.length = shape.prod
  deriving DecidableEq

/-! ## Sizes of cuts -/

/-- The sizes that `torch.tensor_split` into `n` pieces gives. -/
def tensorSplitSizes (len n : ℕ) : List ℕ :=
  (List.range n).map fun i => len / n + if i < len % n then 1 else 0

/-- The sizes that `torch.split` into pieces of a size gives. -/
def evenSizes (len size : ℕ) : List ℕ :=
  List.replicate ((len - 1) / size) size ++ [len - (len - 1) / size * size]

/-- The sizes that `torch.chunk` into `n` pieces gives. -/
def chunkSizes (len n : ℕ) : List ℕ :=
  if len = 0 then List.replicate n 0 else evenSizes len ((len + n - 1) / n)

@[simp] theorem length_tensorSplitSizes (len n : ℕ) : (tensorSplitSizes len n).length = n := by
  rw [tensorSplitSizes, List.length_map, List.length_range]

theorem getD_tensorSplitSizes {n i : ℕ} (hi : i < n) (len : ℕ) :
    (tensorSplitSizes len n).getD i 0 = len / n + if i < len % n then 1 else 0 := by
  rw [tensorSplitSizes, List.getD_eq_getElem?_getD, List.getElem?_map, List.getElem?_range hi]
  rfl

theorem sum_tensorSplitSizes {n : ℕ} (hn : 0 < n) (len : ℕ) : (tensorSplitSizes len n).sum = len := by
  have hones : ∀ m k : ℕ, k ≤ m → ((List.range m).map fun i => if i < k then 1 else 0).sum = k := by
    intro m k hk
    obtain ⟨d, rfl⟩ := Nat.exists_eq_add_of_le hk
    rw [List.range_add, List.map_append, List.sum_append, List.map_map]
    have hfirst : (List.range k).map (fun i => if i < k then 1 else 0) = (List.range k).map fun _ => 1 :=
      List.map_congr_left fun i hi => if_pos (List.mem_range.mp hi)
    have hrest : (List.range d).map ((fun i => if i < k then 1 else 0) ∘ (k + ·)) =
        (List.range d).map fun _ => 0 :=
      List.map_congr_left fun i _ => if_neg (Nat.not_lt.mpr (Nat.le_add_right k i))
    rw [hfirst, hrest, List.map_const', List.map_const', List.sum_replicate, List.sum_replicate,
      List.length_range, smul_eq_mul, mul_one, smul_zero, add_zero]
  rw [tensorSplitSizes, List.sum_map_add, List.map_const', List.sum_replicate, List.length_range,
    hones n _ (Nat.mod_lt _ hn).le, smul_eq_mul, Nat.div_add_mod]

/-- **Equal pieces** of a dimension that they divide. -/
theorem tensorSplitSizes_of_dvd {len n : ℕ} (h : n ∣ len) :
    tensorSplitSizes len n = List.replicate n (len / n) := by
  rw [tensorSplitSizes, Nat.mod_eq_zero_of_dvd h]
  simp only [Nat.not_lt_zero, if_false, Nat.add_zero, List.map_const', List.length_range]

theorem evenSizes_mul {size n : ℕ} (hsize : 0 < size) (hn : 0 < n) :
    evenSizes (n * size) size = List.replicate n size := by
  obtain ⟨m, rfl⟩ := Nat.exists_eq_succ_of_ne_zero hn.ne'
  have hdiv : ((m + 1) * size - 1) / size = m := by
    rw [Nat.succ_mul, Nat.add_sub_assoc hsize, Nat.mul_comm, Nat.mul_add_div hsize,
      Nat.div_eq_of_lt (Nat.sub_lt hsize Nat.one_pos), Nat.add_zero]
  rw [Nat.succ_eq_add_one, evenSizes, hdiv, Nat.succ_mul, Nat.add_sub_cancel_left, List.replicate_succ']

theorem chunkSizes_mul {n : ℕ} (hn : 0 < n) (size : ℕ) : chunkSizes (n * size) n = List.replicate n size := by
  rcases Nat.eq_zero_or_pos size with rfl | hsize
  · rw [chunkSizes, if_pos (Nat.mul_zero n)]
  · have hdiv : (n * size + n - 1) / n = size := by
      rw [Nat.add_sub_assoc hn, Nat.mul_add_div hn, Nat.div_eq_of_lt (Nat.sub_lt hn Nat.one_pos), Nat.add_zero]
    rw [chunkSizes, if_neg (Nat.mul_pos hn hsize).ne', hdiv, evenSizes_mul hsize hn]

namespace Shaped

variable {α β : Type}

/-! ## Blocks -/

/-- A tensor of a shape, if the entries are as many. -/
def ofData (shape : List ℕ) (data : List α) : Option (Shaped α) :=
  if h : data.length = shape.prod then some ⟨shape, data, h⟩ else none

/-- `x.reshape(shape)` -/
def reshape (x : Shaped α) (shape : List ℕ) : Option (Shaped α) := ofData shape x.data

/-- How many blocks there are along dimension `d`. -/
def outer (shape : List ℕ) (d : ℕ) : ℕ := (shape.take d).prod

/-- How many entries stand at an index of dimension `d`. -/
def inner (shape : List ℕ) (d : ℕ) : ℕ := (shape.drop (d + 1)).prod

/-- `x.size(d)` -/
def size (x : Shaped α) (d : ℕ) : ℕ := x.shape.getD d 0

/-- Block `o` along dimension `d`. -/
def block (x : Shaped α) (d o : ℕ) : List α :=
  (x.data.drop (o * (x.size d * inner x.shape d))).take (x.size d * inner x.shape d)

/-- `torch.split(x, sizes, d)` -/
def split (x : Shaped α) (sizes : List ℕ) (d : ℕ) : Option (List (Shaped α)) :=
  if d < x.shape.length ∧ sizes.sum = x.size d then
    (List.range sizes.length).mapM fun i => ofData (x.shape.set d (sizes.getD i 0))
      ((List.range (outer x.shape d)).flatMap fun o =>
        (splitSizes (sizes.map (· * inner x.shape d)) (x.block d o)).getD i [])
  else none

/-- `torch.cat(xs, d)` -/
def cat (xs : List (Shaped α)) (d : ℕ) : Option (Shaped α) :=
  let shape := (xs.map Shaped.shape).headD []
  if d < shape.length ∧ ∀ y ∈ xs, y.shape = shape.set d (y.size d) then
    ofData (shape.set d (xs.map (size · d)).sum)
      ((List.range (outer shape d)).flatMap fun o => xs.flatMap fun y => y.block d o)
  else none

/-- `torch.split(x, size, d)`; pieces of size zero are not cut of a dimension that is not empty. -/
def splitEven (x : Shaped α) (size d : ℕ) : Option (List (Shaped α)) :=
  if 0 < size ∨ x.size d = 0 then x.split (evenSizes (x.size d) size) d else none

/-- `x.chunk(n, d)` -/
def chunk (x : Shaped α) (n d : ℕ) : Option (List (Shaped α)) := x.split (chunkSizes (x.size d) n) d

/-- A tensor with every entry replaced. -/
def map (f : α → β) (x : Shaped α) : Shaped β :=
  ⟨x.shape, x.data.map f, by rw [List.length_map, x.length_data]⟩

/-- `torch.arange(...)`, of a shape. -/
def iota (shape : List ℕ) : Shaped ℕ := ⟨shape, List.range shape.prod, List.length_range⟩

/-- `x.squeeze()` -/
def squeeze (x : Shaped α) : Shaped α :=
  ⟨x.shape.filter (· != 1), x.data, x.length_data.trans (List.prod_filter_bne_one x.shape).symm⟩

theorem ofData_eq_some {shape : List ℕ} {data : List α} (h : data.length = shape.prod) :
    ofData shape data = some ⟨shape, data, h⟩ := dif_pos h

theorem of_ofData_eq_some {shape : List ℕ} {data : List α} {x : Shaped α} (h : ofData shape data = some x) :
    x.shape = shape ∧ x.data = data := by
  rw [ofData] at h
  split at h
  · obtain rfl := Option.some.inj h
    exact ⟨rfl, rfl⟩
  · exact absurd h (Option.some_ne_none x).symm

theorem prod_eq {shape : List ℕ} {d : ℕ} (hd : d < shape.length) :
    shape.prod = outer shape d * (shape.getD d 0 * inner shape d) := by
  rw [outer, inner, List.getD_eq_getElem _ _ hd, ← List.prod_cons, ← List.drop_eq_getElem_cons hd,
    List.prod_take_mul_prod_drop]

@[simp] theorem outer_set (shape : List ℕ) (d n : ℕ) : outer (shape.set d n) d = outer shape d := by
  rw [outer, outer, List.take_set_of_le le_rfl]

@[simp] theorem inner_set (shape : List ℕ) (d n : ℕ) : inner (shape.set d n) d = inner shape d := by
  rw [inner, inner, List.drop_set_of_lt (Nat.lt_succ_self d)]

theorem getD_set {shape : List ℕ} {d : ℕ} (hd : d < shape.length) (n : ℕ) : (shape.set d n).getD d 0 = n := by
  rw [List.getD_eq_getElem?_getD, List.getElem?_set_self hd, Option.getD_some]

variable {x : Shaped α} {d : ℕ}

theorem length_data_eq (x : Shaped α) (hd : d < x.shape.length) :
    x.data.length = outer x.shape d * (x.size d * inner x.shape d) := x.length_data.trans (prod_eq hd)

theorem length_block (hd : d < x.shape.length) {o : ℕ} (ho : o < outer x.shape d) :
    (x.block d o).length = x.size d * inner x.shape d := by
  have hle : (o + 1) * (x.size d * inner x.shape d) ≤ x.data.length :=
    x.length_data_eq hd ▸ Nat.mul_le_mul_right _ ho
  rw [Nat.succ_mul] at hle
  exact List.length_take_of_le (by rw [List.length_drop]; omega)

/-- Blocks of a length, as many as there are. -/
theorem flatMap_drop_take (k : ℕ) : ∀ (n : ℕ) (data : List α), data.length = n * k →
    ((List.range n).flatMap fun o => (data.drop (o * k)).take k) = data
  | 0, data, h => by
    rw [Nat.zero_mul] at h
    exact (List.eq_nil_of_length_eq_zero h).symm
  | n + 1, data, h => by
    rw [Nat.succ_mul] at h
    have hrest := flatMap_drop_take k n (data.drop k) (by rw [List.length_drop]; omega)
    rw [List.range_succ_eq_map, List.flatMap_cons, Nat.zero_mul, List.drop_zero, List.flatMap_map]
    simp only [Nat.succ_eq_add_one, Nat.succ_mul, Nat.add_comm _ k, ← List.drop_drop]
    rw [hrest, List.take_append_drop]

/-- **Pieces of one size** are these blocks. -/
theorem splitSizes_replicate {n k : ℕ} {data : List α} (h : data.length = n * k) :
    splitSizes (List.replicate n k) data = (List.range n).map fun o => (data.drop (o * k)).take k := by
  have hlength : (List.range n).map (fun o => ((data.drop (o * k)).take k).length) = List.replicate n k := by
    refine List.eq_replicate_iff.mpr ⟨by rw [List.length_map, List.length_range], fun j hj => ?_⟩
    obtain ⟨o, ho, rfl⟩ := List.mem_map.mp hj
    have hle : o * k + k ≤ data.length := by
      rw [h, ← Nat.succ_mul]
      exact Nat.mul_le_mul_right k (List.mem_range.mp ho)
    exact List.length_take_of_le (by rw [List.length_drop]; omega)
  have hsplit := splitSizes_flatMap (fun o => (data.drop (o * k)).take k) (List.range n)
  rwa [hlength, flatMap_drop_take k n data h] at hsplit

/-- **The blocks make up the tensor.** -/
theorem flatMap_block (x : Shaped α) (hd : d < x.shape.length) :
    (List.range (outer x.shape d)).flatMap (x.block d) = x.data :=
  flatMap_drop_take _ _ _ (x.length_data_eq hd)

/-- **The blocks of a tensor that is made of blocks.** -/
theorem block_of_data {n : ℕ} {g : ℕ → List α} (hdata : x.data = (List.range n).flatMap g)
    (hg : ∀ o < n, (g o).length = x.size d * inner x.shape d) {o : ℕ} (ho : o < n) : x.block d o = g o := by
  rw [block, hdata]
  exact chunk_flatMap (fun o ho => hg o (List.mem_range.mp ho)) (List.getElem?_range ho)

/-- A tensor is its shape and its blocks. -/
theorem eq_of_block {y : Shaped α} (hd : d < x.shape.length) (hshape : x.shape = y.shape)
    (h : ∀ o < outer x.shape d, x.block d o = y.block d o) : x = y := by
  refine Shaped.ext hshape ?_
  rw [← x.flatMap_block hd, ← y.flatMap_block (d := d) (hshape ▸ hd), ← hshape]
  exact List.flatMap_congr fun o ho => h o (List.mem_range.mp ho)

/-! ## Cuts -/

theorem length_getD_splitSizes : ∀ {sizes : List ℕ} {xs : List α} {i : ℕ}, sizes.sum ≤ xs.length →
    i < sizes.length → ((splitSizes sizes xs).getD i []).length = sizes.getD i 0
  | n :: sizes, xs, 0, h, _ => List.length_take_of_le ((Nat.le_add_right n sizes.sum).trans h)
  | n :: sizes, xs, i + 1, h, hi => by
    rw [List.sum_cons] at h
    have hrest : sizes.sum ≤ (xs.drop n).length := by
      rw [List.length_drop]
      omega
    have hget := length_getD_splitSizes (i := i) hrest (Nat.lt_of_succ_lt_succ hi)
    exact hget

theorem flatMap_getD_range {ls : List (List α)} :
    (List.range ls.length).flatMap (fun i => ls.getD i []) = ls.flatten := by
  rw [List.flatMap_def]
  refine congrArg List.flatten (List.ext_getElem (by simp) fun i hi hi' => ?_)
  rw [List.getElem_map, List.getElem_range, List.getD_eq_getElem _ _ hi']

/-- **What a cut consists of**: pieces of every block. -/
structure IsSplit (x : Shaped α) (sizes : List ℕ) (d : ℕ) (ys : List (Shaped α)) : Prop where
  length_eq : ys.length = sizes.length
  shape_eq : ∀ i y, ys[i]? = some y → y.shape = x.shape.set d (sizes.getD i 0)
  block_eq : ∀ i y, ys[i]? = some y → ∀ o < outer x.shape d,
    y.block d o = (splitSizes (sizes.map (· * inner x.shape d)) (x.block d o)).getD i []

theorem sum_map_mul (sizes : List ℕ) (k : ℕ) : (sizes.map (· * k)).sum = sizes.sum * k :=
  List.sum_map_mul_right sizes id k |>.trans (by rw [List.map_id])

/-- A cut whose sizes make up the dimension. -/
theorem exists_split {sizes : List ℕ} (hd : d < x.shape.length) (hsum : sizes.sum = x.size d) :
    ∃ ys, x.split sizes d = some ys ∧ IsSplit x sizes d ys := by
  have hpiece : ∀ i < sizes.length, ∀ o < outer x.shape d,
      ((splitSizes (sizes.map (· * inner x.shape d)) (x.block d o)).getD i []).length =
        sizes.getD i 0 * inner x.shape d := by
    intro i hi o ho
    rw [length_getD_splitSizes (by rw [sum_map_mul, hsum, length_block hd ho]) (by rwa [List.length_map]),
      List.getD_eq_getElem _ _ (by rwa [List.length_map]), List.getElem_map, List.getD_eq_getElem _ _ hi]
  have hdata : ∀ i < sizes.length, ((List.range (outer x.shape d)).flatMap fun o =>
      (splitSizes (sizes.map (· * inner x.shape d)) (x.block d o)).getD i []).length =
        (x.shape.set d (sizes.getD i 0)).prod := by
    intro i hi
    rw [length_flatMap_const fun o ho => hpiece i hi o (List.mem_range.mp ho), List.length_range,
      prod_eq (d := d) (by rwa [List.length_set]), outer_set, inner_set, getD_set hd]
  set piece : Fin sizes.length → Shaped α := fun i => ⟨_, _, hdata i i.isLt⟩ with hpieceEq
  have hget : ∀ (i : ℕ) (y : Shaped α), ((List.finRange sizes.length).map piece)[i]? = some y →
      ∃ hi : i < sizes.length, piece ⟨i, hi⟩ = y := fun i y hy => by
    obtain ⟨hi, hy⟩ := List.getElem?_eq_some_iff.mp hy
    rw [List.getElem_map, List.getElem_finRange] at hy
    exact ⟨by rwa [List.length_map, List.length_finRange] at hi, hy⟩
  refine ⟨(List.finRange sizes.length).map piece, ?_, ?_, fun i y hy => ?_, fun i y hy o ho => ?_⟩
  · rw [split, if_pos ⟨hd, hsum⟩, ← List.map_coe_finRange_eq_range (n := sizes.length)]
    refine mapM_map_eq_some (c := fun i : Fin sizes.length => (i : ℕ)) (g := piece) fun i _ => ?_
    exact ofData_eq_some (hdata i i.isLt)
  · rw [List.length_map, List.length_finRange]
  · obtain ⟨hi, rfl⟩ := hget i y hy
    rfl
  · obtain ⟨hi, rfl⟩ := hget i y hy
    refine block_of_data (x := piece ⟨i, hi⟩) (g := fun o =>
      (splitSizes (sizes.map (· * inner x.shape d)) (x.block d o)).getD i []) rfl (fun o ho => ?_) ho
    rw [hpiece i hi o ho, hpieceEq, size, getD_set hd, inner_set]

/-- What is joined: tensors of one shape except along the dimension. -/
theorem exists_cat {xs : List (Shaped α)} {shape : List ℕ} (hne : xs ≠ []) (hd : d < shape.length)
    (hshape : ∀ y ∈ xs, y.shape = shape.set d (y.size d)) :
    ∃ z, cat xs d = some z ∧ z.shape = shape.set d (xs.map (size · d)).sum ∧
      ∀ o < outer shape d, z.block d o = xs.flatMap fun y => y.block d o := by
  obtain ⟨x₀, rest, rfl⟩ := List.exists_cons_of_ne_nil hne
  have hhead : (((x₀ :: rest).map Shaped.shape).headD []) = shape.set d (x₀.size d) := hshape x₀ (.head _)
  have hlength : ∀ o < outer shape d, ((x₀ :: rest).flatMap fun y => y.block d o).length =
      ((x₀ :: rest).map (size · d)).sum * inner shape d := by
    intro o ho
    rw [List.length_flatMap, ← sum_map_mul, List.map_map]
    refine congrArg List.sum (List.map_congr_left fun y hy => ?_)
    have hy' := hshape y hy
    rw [length_block (by rw [hy', List.length_set]; exact hd) (by rw [hy', outer_set]; exact ho),
      hy', inner_set]
    rfl
  have hdata : ((List.range (outer shape d)).flatMap fun o =>
      (x₀ :: rest).flatMap fun y => y.block d o).length =
        (shape.set d ((x₀ :: rest).map (size · d)).sum).prod := by
    rw [length_flatMap_const fun o ho => hlength o (List.mem_range.mp ho), List.length_range,
      prod_eq (d := d) (by rwa [List.length_set]), outer_set, inner_set, getD_set hd]
  refine ⟨⟨_, _, hdata⟩, ?_, rfl, fun o ho => ?_⟩
  · have hcond : d < (shape.set d (x₀.size d)).length ∧
        ∀ y ∈ x₀ :: rest, y.shape = (shape.set d (x₀.size d)).set d (y.size d) :=
      ⟨by rwa [List.length_set], fun y hy => by rw [List.set_set]; exact hshape y hy⟩
    simp only [cat, hhead]
    rw [if_pos hcond]
    simp only [List.set_set, outer_set]
    exact ofData_eq_some hdata
  · refine block_of_data (x := ⟨_, _, hdata⟩) (g := fun o => (x₀ :: rest).flatMap fun y => y.block d o) rfl
      (fun o ho => ?_) ho
    rw [hlength o ho, size, getD_set hd, inner_set]

/-- The entries of a piece. -/
theorem IsSplit.data_eq {sizes : List ℕ} {ys : List (Shaped α)} (h : IsSplit x sizes d ys)
    (hd : d < x.shape.length) {i : ℕ} {y : Shaped α} (hy : ys[i]? = some y) :
    y.data = (List.range (outer x.shape d)).flatMap fun o =>
      (splitSizes (sizes.map (· * inner x.shape d)) (x.block d o)).getD i [] := by
  have hshape := h.shape_eq i y hy
  rw [← y.flatMap_block (d := d) (by rwa [hshape, List.length_set]), hshape, outer_set]
  exact List.flatMap_congr fun o ho => h.block_eq i y hy o (List.mem_range.mp ho)

/-- A tensor whose entries are the same, cut along a dimension with the same blocks. -/
theorem IsSplit.data_congr {x' : Shaped α} {d' : ℕ} {sizes : List ℕ} {ys ys' : List (Shaped α)}
    (h : IsSplit x sizes d ys) (h' : IsSplit x' sizes d' ys') (hd : d < x.shape.length)
    (hd' : d' < x'.shape.length) (hdata : x.data = x'.data) (houter : outer x.shape d = outer x'.shape d')
    (hsize : x.size d = x'.size d') (hinner : inner x.shape d = inner x'.shape d') {i : ℕ} {y y' : Shaped α}
    (hy : ys[i]? = some y) (hy' : ys'[i]? = some y') : y.data = y'.data := by
  rw [h.data_eq hd hy, h'.data_eq hd' hy', houter, hinner]
  refine List.flatMap_congr fun o _ => ?_
  rw [block, block, hdata, hsize, hinner]

/-- The first dimension has one block. -/
theorem block_zero (hd : 0 < x.shape.length) : x.block 0 0 = x.data := by
  have hlength := x.length_data_eq hd
  rw [outer, List.take_zero, List.prod_nil, Nat.one_mul] at hlength
  rw [block, Nat.zero_mul, List.drop_zero, ← hlength, List.take_length]

/-- **Tensors joined along the first dimension** stand one after the other. -/
theorem cat_zero_data {xs : List (Shaped α)} {z : Shaped α} (h : cat xs 0 = some z) :
    z.data = xs.flatMap Shaped.data := by
  rw [cat] at h
  split at h
  · rename_i hcond
    rw [(of_ofData_eq_some h).2, outer, List.take_zero, List.prod_nil, List.range_one, List.flatMap_singleton]
    refine List.flatMap_congr fun y hy => block_zero ?_
    rw [hcond.2 y hy, List.length_set]
    exact hcond.1
  · exact absurd h (Option.some_ne_none z).symm

theorem set_size (x : Shaped α) (hd : d < x.shape.length) : x.shape.set d (x.size d) = x.shape := by
  rw [size, List.getD_eq_getElem _ _ hd, List.set_getElem_self]

/-- One tensor is joined to itself. -/
theorem cat_singleton (x : Shaped α) (hd : d < x.shape.length) : cat [x] d = some x := by
  obtain ⟨z, hz, hshape, hblock⟩ := exists_cat (List.cons_ne_nil x []) hd fun y hy => by
    rw [List.mem_singleton.mp hy, x.set_size hd]
  have hself : z.shape = x.shape := by rw [hshape, List.map_singleton, List.sum_singleton, x.set_size hd]
  rw [hz, Option.some.injEq]
  refine eq_of_block (d := d) (hself ▸ hd) hself fun o ho => ?_
  rw [hblock o (hself ▸ ho), List.flatMap_singleton]

/-! ## Entries replaced -/

@[simp] theorem map_shape (f : α → β) (x : Shaped α) : (x.map f).shape = x.shape := rfl

@[simp] theorem map_data (f : α → β) (x : Shaped α) : (x.map f).data = x.data.map f := rfl

theorem ofData_map (f : α → β) (shape : List ℕ) (data : List α) :
    ofData shape (data.map f) = (ofData shape data).map (map f) := by
  by_cases h : data.length = shape.prod
  · rw [ofData_eq_some h, ofData_eq_some (by rwa [List.length_map])]
    rfl
  · rw [ofData, ofData, dif_neg h, dif_neg (by rwa [List.length_map]), Option.map_none]

theorem block_map (f : α → β) (x : Shaped α) (d o : ℕ) : (x.map f).block d o = (x.block d o).map f := by
  rw [block, block, map_data, map_shape, List.map_take, List.map_drop]
  rfl

theorem mapM_map {γ δ : Type} (f : β → γ) (g : δ → Option β) : ∀ ds : List δ,
    ds.mapM (fun d => (g d).map f) = (ds.mapM g).map (List.map f)
  | [] => rfl
  | d :: ds => by
    rw [List.mapM_cons, List.mapM_cons, mapM_map f g ds]
    cases g d with
    | none => rfl
    | some y => cases ds.mapM g <;> rfl

/-- **What is done entry by entry is done piece by piece.** -/
theorem split_map (f : α → β) (x : Shaped α) (sizes : List ℕ) (d : ℕ) :
    (x.map f).split sizes d = (x.split sizes d).map (List.map (map f)) := by
  have hpiece : ∀ i, ofData ((x.map f).shape.set d (sizes.getD i 0))
      ((List.range (outer (x.map f).shape d)).flatMap fun o =>
        (splitSizes (sizes.map (· * inner (x.map f).shape d)) ((x.map f).block d o)).getD i []) =
      (ofData (x.shape.set d (sizes.getD i 0)) ((List.range (outer x.shape d)).flatMap fun o =>
        (splitSizes (sizes.map (· * inner x.shape d)) (x.block d o)).getD i [])).map (map f) := fun i => by
    rw [← ofData_map, map_shape, List.map_flatMap]
    refine congrArg _ (List.flatMap_congr fun o _ => ?_)
    rw [block_map, splitSizes_map, List.getD_eq_getElem?_getD, List.getD_eq_getElem?_getD, List.getElem?_map]
    cases (splitSizes (sizes.map (· * inner x.shape d)) (x.block d o))[i]? <;> rfl
  by_cases hcond : d < x.shape.length ∧ sizes.sum = x.size d
  · have hcond' : d < (x.map f).shape.length ∧ sizes.sum = (x.map f).size d := hcond
    rw [split, if_pos hcond', split, if_pos hcond, ← mapM_map]
    simp only [hpiece]
  · have hcond' : ¬(d < (x.map f).shape.length ∧ sizes.sum = (x.map f).size d) := hcond
    rw [split, if_neg hcond', split, if_neg hcond, Option.map_none]

/-- Every tensor is its indices, replaced by the entries. -/
theorem eq_map_iota (x : Shaped α) (z : α) : x = (iota x.shape).map (x.data.getD · z) := by
  refine Shaped.ext rfl (List.ext_getElem ?_ fun k hk _ => ?_)
  · rw [map_data, List.length_map, iota, List.length_range, x.length_data]
  · have hget : ((iota x.shape).data.map (x.data.getD · z))[k]? = some x.data[k] := by
      rw [List.getElem?_map, iota, List.getElem?_range (by rwa [← x.length_data]), Option.map_some,
        List.getD_eq_getElem _ _ hk]
    exact (Option.some.inj ((List.getElem?_eq_getElem _).symm.trans hget)).symm

/-! ## Cutting and joining -/

theorem IsSplit.size_eq {sizes : List ℕ} {ys : List (Shaped α)} (h : IsSplit x sizes d ys)
    (hd : d < x.shape.length) {i : ℕ} {y : Shaped α} (hy : ys[i]? = some y) : y.size d = sizes.getD i 0 := by
  rw [size, h.shape_eq i y hy, getD_set hd]

theorem IsSplit.map_size {sizes : List ℕ} {ys : List (Shaped α)} (h : IsSplit x sizes d ys)
    (hd : d < x.shape.length) : ys.map (size · d) = sizes := by
  refine List.ext_getElem (by rw [List.length_map, h.length_eq]) fun i hi hi' => ?_
  rw [List.length_map] at hi
  rw [List.getElem_map, h.size_eq hd (List.getElem?_eq_getElem hi), List.getD_eq_getElem _ _ hi']

/-- **What is cut is joined again.** -/
theorem IsSplit.cat_eq {sizes : List ℕ} {ys : List (Shaped α)} (h : IsSplit x sizes d ys)
    (hd : d < x.shape.length) (hne : sizes ≠ []) (hsum : sizes.sum = x.size d) : cat ys d = some x := by
  have hys : ys ≠ [] := fun hnil => hne (List.eq_nil_of_length_eq_zero (by rw [← h.length_eq, hnil]; rfl))
  obtain ⟨z, hz, hshape, hblock⟩ := exists_cat hys hd fun y hy => by
    obtain ⟨i, hi⟩ := List.mem_iff_getElem?.mp hy
    rw [h.size_eq hd hi, ← h.shape_eq i y hi]
  have hself : z.shape = x.shape := by
    rw [hshape, h.map_size hd, hsum, size, List.getD_eq_getElem _ _ hd, List.set_getElem_self]
  rw [hz, Option.some.injEq]
  refine eq_of_block (d := d) (hself ▸ hd) hself fun o ho => ?_
  rw [hself] at ho
  have hparts : (ys.flatMap fun y => y.block d o) =
      (splitSizes (sizes.map (· * inner x.shape d)) (x.block d o)).flatten := by
    rw [← flatMap_getD_range, length_splitSizes, List.length_map, ← h.length_eq, List.flatMap_def,
      List.flatMap_def]
    refine congrArg List.flatten (List.ext_getElem (by simp) fun i hi hi' => ?_)
    rw [List.length_map] at hi
    rw [List.getElem_map, List.getElem_map, List.getElem_range,
      h.block_eq i _ (List.getElem?_eq_getElem hi) o ho]
  rw [hblock o ho, hparts, flatten_splitSizes (by rw [sum_map_mul, hsum, length_block hd ho])]

theorem cat_of_split {sizes : List ℕ} {ys : List (Shaped α)} (hne : sizes ≠ [])
    (h : x.split sizes d = some ys) : cat ys d = some x := by
  by_cases hcond : d < x.shape.length ∧ sizes.sum = x.size d
  · obtain ⟨zs, hzs, hsplit⟩ := exists_split hcond.1 hcond.2
    obtain rfl := Option.some.inj (hzs.symm.trans h)
    exact hsplit.cat_eq hcond.1 hne hcond.2
  · rw [split, if_neg hcond] at h
    exact absurd h (Option.some_ne_none ys).symm

/-- **What is joined is cut again.** -/
theorem split_of_cat {xs : List (Shaped α)} {shape : List ℕ} (hne : xs ≠ []) (hd : d < shape.length)
    (hshape : ∀ y ∈ xs, y.shape = shape.set d (y.size d)) {z : Shaped α} (hz : cat xs d = some z) :
    z.split (xs.map (size · d)) d = some xs := by
  obtain ⟨z', hz', hzshape, hblock⟩ := exists_cat hne hd hshape
  obtain rfl := Option.some.inj (hz'.symm.trans hz)
  have hzd : d < z'.shape.length := by rwa [hzshape, List.length_set]
  have hsize : z'.size d = (xs.map (size · d)).sum := by rw [size, hzshape, getD_set hd]
  obtain ⟨ys, hys, hsplit⟩ := exists_split hzd hsize.symm
  rw [hys, Option.some.injEq]
  have hlength : ys.length = xs.length := by rw [hsplit.length_eq, List.length_map]
  refine List.ext_getElem hlength fun i hi hi' => ?_
  have hy := List.getElem?_eq_getElem hi
  have hget : (xs.map (size · d)).getD i 0 = xs[i].size d := by
    rw [List.getD_eq_getElem _ _ (by rwa [List.length_map]), List.getElem_map]
  have hyshape : ys[i].shape = xs[i].shape := by
    rw [hsplit.shape_eq i _ hy, hzshape, List.set_set, hget, ← hshape _ (List.getElem_mem hi')]
  refine eq_of_block (d := d) ?_ hyshape fun o ho => ?_
  · rw [hsplit.shape_eq i _ hy, List.length_set]
    exact hzd
  · rw [hsplit.shape_eq i _ hy, outer_set, hzshape, outer_set] at ho
    have hsizes : (xs.map (size · d)).map (· * inner z'.shape d) = xs.map fun y => (y.block d o).length := by
      rw [List.map_map]
      refine List.map_congr_left fun y hyx => ?_
      have hy' := hshape y hyx
      rw [length_block (by rw [hy', List.length_set]; exact hd) (by rw [hy', outer_set]; exact ho), hzshape,
        inner_set, hy', inner_set]
      rfl
    rw [hsplit.block_eq i _ hy o (by rwa [hzshape, outer_set]), hblock o ho, hsizes,
      splitSizes_flatMap fun y : Shaped α => y.block d o, List.getD_eq_getElem _ _ (by rwa [List.length_map]),
      List.getElem_map]

end Shaped

end Machinery
