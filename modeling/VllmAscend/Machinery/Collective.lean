import Mathlib
import VllmAscend.Machinery.Shaped

/-!
# Machinery/Collective — tensors exchanged by the ranks of a group

    rank s sends   s→0 │ s→1 │ … │ s→n-1
    rank r gets    0→r │ 1→r │ … │ n-1→r       joined along a dimension

What every rank of a group holds is a family over the ranks.  A collective fails for everyone if it fails
for one, and `allToAll` fails if a buffer has not the shape of what is sent to it.
-/

namespace Machinery

variable {α β : Type} {n : ℕ}

/-! ## Ranks -/

/-- The results of all ranks, if none of them fails. -/
def collect (f : Fin n → Option β) : Option (Fin n → β) :=
  if h : ∀ r, (f r).isSome then some fun r => (f r).get (h r) else none

theorem collect_eq_some {f : Fin n → Option β} {g : Fin n → β} : collect f = some g ↔ ∀ r, f r = some (g r) := by
  constructor
  · intro h r
    rw [collect] at h
    split at h
    · obtain rfl := Option.some.inj h
      exact (Option.some_get _).symm
    · exact absurd h (Option.some_ne_none g).symm
  · intro h
    have hsome : ∀ r, (f r).isSome := fun r => by rw [h r]; rfl
    rw [collect, dif_pos hsome, Option.some.injEq]
    funext r
    exact Option.some.inj ((Option.some_get _).trans (h r))

theorem collect_eq_none {f : Fin n → Option β} {r : Fin n} (h : f r = none) : collect f = none := by
  refine dif_neg fun hall => ?_
  have hr := hall r
  rw [h] at hr
  exact Bool.false_ne_true hr

/-- A list with an entry for each rank. -/
def byRank (n : ℕ) (xs : List β) : Option (Fin n → β) :=
  if h : xs.length = n then some fun r => xs.get (r.cast h.symm) else none

@[simp] theorem byRank_ofFn (f : Fin n → β) : byRank n (List.ofFn f) = some f := by
  rw [byRank, dif_pos (List.length_ofFn), Option.some.injEq]
  funext r
  exact List.get_ofFn f _

theorem exists_byRank {xs : List β} (h : xs.length = n) : ∃ f : Fin n → β, xs = List.ofFn f :=
  ⟨fun r => xs.get (r.cast h.symm), by subst h; exact (List.ofFn_get xs).symm⟩

/-! ## Exchanges -/

/-- `dist.all_to_all(buffers, inputs)`, whose buffers have to be of the shapes that are sent. -/
def allToAll (buffers : Fin n → Fin n → List ℕ) (inputs : Fin n → Fin n → Shaped α) :
    Option (Fin n → Fin n → Shaped α) :=
  if ∀ r s, buffers r s = (inputs s r).shape then some fun r s => inputs s r else none

/-- `dist.all_gather_into_tensor`, of tensors of one shape. -/
def allGatherIntoTensor (outputs : Fin n → List ℕ) (xs : Fin n → Shaped α) : Option (Fin n → Shaped α) :=
  if ∀ r s, (xs r).shape = (xs s).shape then
    collect fun r => Shaped.ofData (outputs r) ((List.ofFn xs).flatMap Shaped.data)
  else none

/-- `dist.all_to_all_single` with equal splits of the first dimension, into tensors like the inputs. -/
def allToAllEqual (xs : Fin n → Shaped α) : Option (Fin n → Shaped α) :=
  if (∀ r s, (xs r).shape = (xs s).shape) ∧ ∀ r, 0 < (xs r).shape.length ∧ (xs r).size 0 % n = 0 then
    collect fun r => Shaped.ofData (xs r).shape (allToAllSingle (List.ofFn fun s => (xs s).data) r)
  else none

/-- The sum of the ranks' tensors, entry by entry. -/
def sumOf {R : Type} [AddCommMonoid R] (shape : List ℕ) (xs : Fin n → Shaped R) : Shaped R :=
  ⟨shape, (List.range shape.prod).map fun k => ∑ r, (xs r).data.getD k 0, by
    rw [List.length_map, List.length_range]⟩

/-- `dist.reduce_scatter_tensor`, of tensors of one shape. -/
def reduceScatterTensor {R : Type} [AddCommMonoid R] (outputs : Fin n → List ℕ) (xs : Fin n → Shaped R) :
    Option (Fin n → Shaped R) :=
  if (∀ r s, (xs r).shape = (xs s).shape) ∧ ∀ r, (xs r).data.length = n * (outputs r).prod then
    collect fun r => Shaped.ofData (outputs r)
      (((sumOf (xs r).shape xs).data.drop (r * (outputs r).prod)).take (outputs r).prod)
  else none

namespace Shaped

/-- A cut into a piece for each rank. -/
structure IsCut (x : Shaped α) (sizes : Fin n → ℕ) (d : ℕ) (pieces : Fin n → Shaped α) : Prop where
  split_eq : x.split (List.ofFn sizes) d = some (List.ofFn pieces)
  shape_eq : ∀ r, (pieces r).shape = x.shape.set d (sizes r)

theorem exists_isCut (x : Shaped α) (sizes : Fin n → ℕ) {d : ℕ} (hd : d < x.shape.length)
    (hsum : (List.ofFn sizes).sum = x.size d) : ∃ pieces, IsCut x sizes d pieces := by
  obtain ⟨ys, hys, hsplit⟩ := exists_split hd hsum
  obtain ⟨pieces, rfl⟩ := exists_byRank (hsplit.length_eq.trans List.length_ofFn)
  refine ⟨pieces, hys, fun r => ?_⟩
  have hget : (List.ofFn pieces)[(r : ℕ)]? = some (pieces r) := by simp
  have hsize : (List.ofFn sizes).getD r 0 = sizes r := by simp
  rw [hsplit.shape_eq r _ hget, hsize]

/-- **The pieces for the ranks are joined again.** -/
theorem IsCut.cat_eq {x : Shaped α} {sizes : Fin n → ℕ} {d : ℕ} {pieces : Fin n → Shaped α}
    (h : IsCut x sizes d pieces) (hn : 0 < n) : cat (List.ofFn pieces) d = some x :=
  cat_of_split (fun hnil => hn.ne' (List.length_ofFn.symm.trans (congrArg List.length hnil))) h.split_eq

/-- Pieces of one shape except along the dimension are joined, and cut again. -/
theorem exists_cat_isCut (pieces : Fin n → Shaped α) (shape : List ℕ) {d : ℕ} (hn : 0 < n)
    (hd : d < shape.length) (hshape : ∀ r, (pieces r).shape = shape.set d ((pieces r).size d)) :
    ∃ x, cat (List.ofFn pieces) d = some x ∧
      x.shape = shape.set d (List.ofFn fun r => (pieces r).size d).sum ∧
      IsCut x (fun r => (pieces r).size d) d pieces := by
  have hne : List.ofFn pieces ≠ [] := fun hnil =>
    hn.ne' (List.length_ofFn.symm.trans (congrArg List.length hnil))
  have hall : ∀ y ∈ List.ofFn pieces, y.shape = shape.set d (y.size d) := fun y hy => by
    obtain ⟨r, rfl⟩ := (List.mem_ofFn' _ _).mp hy
    exact hshape r
  have hsizes : (List.ofFn pieces).map (size · d) = List.ofFn fun r => (pieces r).size d := List.map_ofFn ..
  obtain ⟨x, hx, hxshape, _⟩ := exists_cat hne hd hall
  have hsplit := split_of_cat hne hd hall hx
  rw [hsizes] at hxshape hsplit
  refine ⟨x, hx, hxshape, hsplit, fun r => ?_⟩
  rw [hxshape, List.set_set]
  exact hshape r

/-! ## Collectives along the first dimension -/

variable {x : Shaped α} {pieces : Fin n → Shaped α} {d : ℕ}

theorem IsCut.isSplit {sizes : Fin n → ℕ} (h : IsCut x sizes d pieces) :
    d < x.shape.length ∧ IsSplit x (List.ofFn sizes) d (List.ofFn pieces) := by
  have hsplit := h.split_eq
  by_cases hcond : d < x.shape.length ∧ (List.ofFn sizes).sum = x.size d
  · obtain ⟨ys, hys, hys'⟩ := exists_split hcond.1 hcond.2
    obtain rfl := Option.some.inj (hys.symm.trans hsplit)
    exact ⟨hcond.1, hys'⟩
  · rw [split, if_neg hcond] at hsplit
    exact absurd hsplit (Option.some_ne_none _).symm

theorem IsCut.sum_eq {sizes : Fin n → ℕ} (h : IsCut x sizes d pieces) :
    (List.ofFn sizes).sum = x.size d := by
  have hsplit := h.split_eq
  by_contra hne
  rw [split, if_neg fun hcond => hne hcond.2] at hsplit
  exact absurd hsplit (Option.some_ne_none _).symm

/-- A tensor is cut in one way. -/
theorem IsCut.unique {sizes : Fin n → ℕ} {pieces' : Fin n → Shaped α} (h : IsCut x sizes d pieces)
    (h' : IsCut x sizes d pieces') : pieces = pieces' :=
  List.ofFn_injective (Option.some.inj (h.split_eq.symm.trans h'.split_eq))

theorem IsCut.map {sizes : Fin n → ℕ} (h : IsCut x sizes d pieces) (f : α → β) :
    IsCut (x.map f) sizes d fun r => (pieces r).map f := by
  refine ⟨?_, h.shape_eq⟩
  rw [split_map, h.split_eq, Option.map_some, List.map_ofFn]
  rfl

theorem IsCut.data_eq {sizes : Fin n → ℕ} (h : IsCut x sizes 0 pieces) (hn : 0 < n) :
    x.data = (List.ofFn pieces).flatMap data := cat_zero_data (h.cat_eq hn)

/-- **Everyone's block for the rank**, joined along the first dimension. -/
theorem allToAllEqual_eq {xs : Fin n → Shaped α} {pieces : Fin n → Fin n → Shaped α} {shape : List ℕ} {m : ℕ}
    (hn : 0 < n) (hd : 0 < shape.length) (hxs : ∀ s, (xs s).shape = shape)
    (hcut : ∀ s, (xs s).IsCut (fun _ => m) 0 (pieces s)) :
    ∃ ys, allToAllEqual xs = some ys ∧ (∀ r, cat (List.ofFn fun s => pieces s r) 0 = some (ys r)) ∧
      (∀ r, (ys r).shape = shape) ∧ ∀ r, (ys r).IsCut (fun _ => m) 0 fun s => pieces s r := by
  have hpiece : ∀ s r, (pieces s r).shape = shape.set 0 m := fun s r => by rw [(hcut s).shape_eq, hxs]
  have hsize : ∀ s r, (pieces s r).size 0 = m := fun s r => by rw [size, hpiece, getD_set hd]
  have hlength : shape.getD 0 0 = n * m := by
    have hsum := (hcut ⟨0, hn⟩).sum_eq
    rw [size, hxs, List.ofFn_const, List.sum_replicate_nat] at hsum
    exact hsum.symm
  have hset : shape.set 0 (n * m) = shape := by
    rw [← hlength, List.getD_eq_getElem _ _ hd, List.set_getElem_self]
  choose ys hys hysShape hysCut using fun r => exists_cat_isCut (fun s => pieces s r) shape hn hd
    fun s => by rw [hsize, hpiece]
  simp only [hsize, List.ofFn_const, List.sum_replicate_nat, hset] at hysShape hysCut
  refine ⟨ys, ?_, hys, hysShape, hysCut⟩
  have hcond : (∀ r s, (xs r).shape = (xs s).shape) ∧
      ∀ r, 0 < (xs r).shape.length ∧ (xs r).size 0 % n = 0 :=
    ⟨fun r s => (hxs r).trans (hxs s).symm, fun r => ⟨(hxs r).symm ▸ hd, by
      rw [size, hxs, hlength, Nat.mul_mod_right]⟩⟩
  rw [allToAllEqual, if_pos hcond]
  refine collect_eq_some.mpr fun r => ?_
  have hdata : allToAllSingle (List.ofFn fun s => (xs s).data) r = (ys r).data := by
    have hblocks : allToAllSingle ((List.finRange n).map fun s => (List.finRange n).flatMap fun t =>
        (pieces s t).data) r = (List.finRange n).flatMap fun s => (pieces s r).data :=
      allToAllSingle_eq (m := (shape.set 0 m).prod) rfl
        (fun s _ t _ => by rw [(pieces s t).length_data, hpiece]) (by simp)
    rw [(hysCut r).data_eq hn, List.ofFn_eq_map (f := fun s => pieces s r), List.flatMap_map, ← hblocks,
      List.ofFn_eq_map]
    refine congrArg (allToAllSingle · _) (List.map_congr_left fun s _ => ?_)
    rw [(hcut s).data_eq hn, List.ofFn_eq_map, List.flatMap_map]
  rw [hdata, hxs, ← hysShape r]
  exact ofData_eq_some (ys r).length_data

/-- **What every rank gathers**: all tensors, joined along the first dimension. -/
theorem allGatherIntoTensor_eq {xs : Fin n → Shaped α} {shape : List ℕ} (hn : 0 < n) (hd : 0 < shape.length)
    (hxs : ∀ s, (xs s).shape = shape) :
    ∃ y : Shaped α, allGatherIntoTensor (fun _ => shape.set 0 (shape.getD 0 0 * n)) xs = some (fun _ => y) ∧
      y.shape = shape.set 0 (shape.getD 0 0 * n) ∧ y.IsCut (fun _ => shape.getD 0 0) 0 xs := by
  have hsize : ∀ s, (xs s).size 0 = shape.getD 0 0 := fun s => by rw [size, hxs]
  obtain ⟨y, hy, hyshape, hycut⟩ := exists_cat_isCut xs shape hn hd fun s => by
    rw [hsize, hxs, List.getD_eq_getElem _ _ hd, List.set_getElem_self]
  simp only [hsize, List.ofFn_const, List.sum_replicate_nat] at hyshape hycut
  rw [Nat.mul_comm] at hyshape
  refine ⟨y, ?_, hyshape, hycut⟩
  rw [allGatherIntoTensor, if_pos fun r s => (hxs r).trans (hxs s).symm]
  refine collect_eq_some.mpr fun _ => ?_
  rw [← hyshape, ← hycut.data_eq hn]
  exact ofData_eq_some y.length_data

/-! ## Sums -/

section Sums

variable {R : Type} [AddCommMonoid R] {xs : Fin n → Shaped R} {shape : List ℕ}

@[simp] theorem sumOf_shape (shape : List ℕ) (xs : Fin n → Shaped R) : (sumOf shape xs).shape = shape := rfl

theorem sumOf_data (shape : List ℕ) (xs : Fin n → Shaped R) :
    (sumOf shape xs).data = (List.range shape.prod).map fun k => ∑ r, (xs r).data.getD k 0 := rfl

omit [AddCommMonoid R] in
theorem map_range_length {γ : Type} {f : γ → R} {g : ℕ → R} {ks : List γ} (h : ∀ i k, ks[i]? = some k → g i = f k) :
    (List.range ks.length).map g = ks.map f := by
  refine List.ext_getElem (by simp) fun i hi hi' => ?_
  rw [List.length_map] at hi'
  rw [List.getElem_map, List.getElem_map, List.getElem_range, h i _ (List.getElem?_eq_getElem hi')]

/-- The sum of one tensor. -/
theorem sumOf_one (xs : Fin 1 → Shaped R) (r : Fin 1) (h : (xs r).shape = shape) : sumOf shape xs = xs r := by
  refine Shaped.ext h.symm ?_
  have hlength : (xs r).data.length = shape.prod := by rw [(xs r).length_data, h]
  rw [sumOf_data, ← hlength]
  refine (map_range_length (f := id) fun i k hk => ?_).trans (List.map_id _)
  rw [Fin.sum_univ_one, Subsingleton.elim 0 r, List.getD_eq_getElem?_getD, hk]
  rfl

/-- **A piece of the sum is the sum of the pieces.** -/
theorem IsCut.sumOf_eq {sizes : Fin n → ℕ} {pieces : Fin n → Fin n → Shaped R} {sums : Fin n → Shaped R}
    (hxs : ∀ s, (xs s).shape = shape) (hcut : ∀ s, (xs s).IsCut sizes d (pieces s))
    (hsum : IsCut (sumOf shape xs) sizes d sums) (r : Fin n) :
    sums r = sumOf (shape.set d (sizes r)) fun s => pieces s r := by
  obtain ⟨indices, hindices⟩ := exists_isCut (iota shape) sizes hsum.isSplit.1 hsum.sum_eq
  have hpieces : ∀ s, pieces s = fun r => (indices r).map ((xs s).data.getD · 0) := fun s => by
    have hmap := hindices.map ((xs s).data.getD · 0)
    rw [← hxs s, ← eq_map_iota] at hmap
    exact (hcut s).unique hmap
  have hsums : sums = fun r => (indices r).map fun k => ∑ s, (xs s).data.getD k 0 :=
    hsum.unique (hindices.map fun k => ∑ s, (xs s).data.getD k 0)
  have hlength : (indices r).data.length = (shape.set d (sizes r)).prod := by
    rw [(indices r).length_data, hindices.shape_eq]
    rfl
  rw [hsums]
  refine Shaped.ext (hindices.shape_eq r) ?_
  rw [sumOf_data, ← hlength]
  refine (map_range_length fun i k hk => Finset.sum_congr rfl fun s _ => ?_).symm
  rw [hpieces s, map_data, List.getD_eq_getElem?_getD, List.getElem?_map, hk]
  rfl

/-- **The rank's block of the sum.** -/
theorem reduceScatterTensor_eq {pieces : Fin n → Fin n → Shaped R} {m : ℕ} (hn : 0 < n) (hd : 0 < shape.length)
    (hxs : ∀ s, (xs s).shape = shape) (hcut : ∀ s, (xs s).IsCut (fun _ => m) 0 (pieces s)) :
    reduceScatterTensor (fun _ => shape.set 0 m) xs =
      some fun r => sumOf (shape.set 0 m) fun s => pieces s r := by
  have hsumSize : (List.ofFn fun _ : Fin n => m).sum = (sumOf shape xs).size 0 := by
    rw [(hcut ⟨0, hn⟩).sum_eq, size, hxs]
    rfl
  obtain ⟨sums, hsums⟩ := exists_isCut (sumOf shape xs) (fun _ => m) hd hsumSize
  have hsumsEq := IsCut.sumOf_eq hxs hcut hsums
  have hlength : ∀ r, (sums r).data.length = (shape.set 0 m).prod := fun r => by
    rw [(sums r).length_data, hsums.shape_eq]
    rfl
  have htotal : (sumOf shape xs).data.length = n * (shape.set 0 m).prod := by
    rw [hsums.data_eq hn, List.ofFn_eq_map, List.flatMap_map, length_flatMap_const fun r _ => hlength r,
      List.length_finRange]
  have hcond : (∀ r s, (xs r).shape = (xs s).shape) ∧ ∀ r, (xs r).data.length = n * (shape.set 0 m).prod :=
    ⟨fun r s => (hxs r).trans (hxs s).symm, fun r => by
      rw [(xs r).length_data, hxs, ← htotal, (sumOf shape xs).length_data]
      rfl⟩
  rw [reduceScatterTensor, if_pos hcond]
  refine collect_eq_some.mpr fun r => ?_
  have hblock : ((sumOf shape xs).data.drop (r * (shape.set 0 m).prod)).take (shape.set 0 m).prod =
      (sums r).data := by
    rw [hsums.data_eq hn, List.ofFn_eq_map, List.flatMap_map]
    exact chunk_flatMap (g := fun r => (sums r).data) (fun r _ => hlength r) (by simp)
  rw [hxs, hblock, ← hsumsEq r, ofData_eq_some (hlength r)]
  exact congrArg some (Shaped.ext (hsums.shape_eq r).symm rfl)

end Sums

end Shaped

end Machinery
