import VllmAscend.Distributed.AllToAll

/-!
# Distributed/TensorParallel — exchanges of the last dimension through the first

    sp    rank s holds     n tokens, all of the hidden dimension
    hp    rank r holds     the tokens of all ranks, block r of the hidden dimension

Collectives cut the first dimension.  A tensor whose last dimension is to be cut is cut by hand and its pieces
are put below each other (`concatBlocks`), so that what each rank gets is the block for it.  Each way back
undoes this, except that a dimension of no tokens is not cut into a piece for each rank
(`allToAllHp2sp_empty`).
-/

namespace VllmAscend

namespace TensorParallel

open Machinery

variable {α R : Type} {n : ℕ}

/-- `x.reshape(-1, x.shape[-1])`; `-1` cannot be told for rows of no entries. -/
def reshapeRows (x : Shaped α) : Option (Shaped α) :=
  match x.shape.getLast? with
  | none => none
  | some h => if h = 0 then none else x.reshape [x.data.length / h, h]

/-- `torch.cat(torch.split(input_, input_.shape[-1] // world_size, dim=1), dim=0)` of the reshaped tensor. -/
def concatBlocks (worldSize : ℕ) (input_ : Shaped α) : Option (Shaped α) := do
  let input_ ← reshapeRows input_
  let splitTensors ← input_.splitEven (input_.size 1 / worldSize) 1
  Shaped.cat splitTensors 0

/-- `all_to_all(group, input)`, without sizes. -/
def allToAll (inputs : Fin n → Shaped α) : Option (Fin n → Shaped α) :=
  if n = 1 then some inputs else allToAllEqual inputs

/-- `all_to_all_sp2hp` -/
def allToAllSp2hp (inputs : Fin n → Shaped α) : Option (Fin n → Shaped α) := do
  let concatTensors ← collect fun r => concatBlocks n (inputs r)
  allToAll concatTensors

/-- `all_to_all_hp2sp` -/
def allToAllHp2sp (inputs : Fin n → Shaped α) : Option (Fin n → Shaped α) := do
  let inputs ← collect fun r => reshapeRows (inputs r)
  let inputsExchanged ← allToAll inputs
  collect fun r => do
    let inputReshaped ← reshapeRows (inputsExchanged r)
    let splitTensors ← inputReshaped.splitEven (inputReshaped.size 0 / n) 0
    Shaped.cat splitTensors 1

/-- `_gather_along_last_dim` -/
def gatherAlongLastDim (inputs : Fin n → Shaped α) : Option (Fin n → Shaped α) :=
  if n = 1 then some inputs
  else do
    let outputs ← allGatherIntoTensor
      (fun r => (inputs r).shape.set 0 ((inputs r).size 0 * n)) inputs
    collect fun r => do
      let tensorList ← (outputs r).chunk n 0
      Shaped.cat tensorList ((outputs r).shape.length - 1)

/-- `_reduce_scatter_along_first_dim`, without `input_split_sizes`. -/
def reduceScatterAlongFirstDim [AddCommMonoid R] (inputs : Fin n → Shaped R) : Option (Fin n → Shaped R) :=
  if n = 1 then some inputs
  else if ∀ r, (inputs r).size 0 % n = 0 then
    reduceScatterTensor (fun r => (inputs r).shape.set 0 ((inputs r).size 0 / n)) inputs
  else none

/-- `_reduce_scatter_along_last_dim` -/
def reduceScatterAlongLastDim [AddCommMonoid R] (inputs : Fin n → Shaped R) : Option (Fin n → Shaped R) := do
  let concatTensors ← collect fun r => concatBlocks n (inputs r)
  let outputs ← reduceScatterAlongFirstDim concatTensors
  collect fun r =>
    let last := (inputs r).shape.length - 1
    (outputs r).reshape ((inputs r).shape.set last ((inputs r).size last / n))

/-! ## Blocks below each other -/

theorem reshapeRows_eq {x : Shaped α} (lead : List ℕ) {h : ℕ} (hx : x.shape = lead ++ [h]) (hh : 0 < h) :
    ∃ y : Shaped α, reshapeRows x = some y ∧ y.shape = [lead.prod, h] ∧ y.data = x.data := by
  have hlength : x.data.length = lead.prod * h := by
    rw [x.length_data, hx, List.prod_append, List.prod_singleton]
  have hrows : x.data.length / h = lead.prod := by rw [hlength, Nat.mul_div_cancel _ hh]
  have hprod : x.data.length = [lead.prod, h].prod := by
    rw [hlength, List.prod_cons, List.prod_singleton]
  refine ⟨⟨[lead.prod, h], x.data, hprod⟩, ?_, rfl, rfl⟩
  rw [reshapeRows, hx, List.getLast?_append_cons, List.getLast?_singleton]
  simp only [if_neg hh.ne', hrows]
  exact Shaped.ofData_eq_some hprod

theorem reshapeRows_self {x : Shaped α} {m h : ℕ} (hx : x.shape = [m, h]) (hh : 0 < h) :
    reshapeRows x = some x := by
  obtain ⟨y, hy, hshape, hdata⟩ := reshapeRows_eq [m] hx hh
  rw [List.prod_singleton] at hshape
  rw [hy, Option.some.injEq]
  exact Shaped.ext (hshape.trans hx.symm) hdata

theorem reshapeRows_zero {x : Shaped α} (lead : List ℕ) (hx : x.shape = lead ++ [0]) : reshapeRows x = none := by
  rw [reshapeRows, hx, List.getLast?_append_cons, List.getLast?_singleton]
  rfl

/-- Equal pieces, for each rank one, if they are not empty or there is one rank. -/
theorem splitEven_eq {x : Shaped α} {m d : ℕ} (hn : 0 < n) (hm : 0 < m ∨ n = 1) (hd : d < x.shape.length)
    (hsize : x.size d = n * m) :
    ∃ pieces : Fin n → Shaped α, x.splitEven m d = some (List.ofFn pieces) ∧ x.IsCut (fun _ => m) d pieces := by
  obtain ⟨pieces, hpieces⟩ := Shaped.exists_isCut x (fun _ : Fin n => m) hd (by
    rw [List.ofFn_const, List.sum_replicate_nat, hsize])
  have hcond : 0 < m ∨ x.size d = 0 := by
    rcases Nat.eq_zero_or_pos m with rfl | hpos
    · exact .inr (hsize.trans (Nat.mul_zero n))
    · exact .inl hpos
  have heven : evenSizes (n * m) m = List.replicate n m := by
    rcases hm with hm | rfl
    · exact evenSizes_mul hm hn
    · rcases Nat.eq_zero_or_pos m with rfl | hpos
      · rfl
      · exact evenSizes_mul hpos hn
  refine ⟨pieces, ?_, hpieces⟩
  rw [Shaped.splitEven, if_pos hcond, hsize, heven, ← hpieces.split_eq, List.ofFn_const]

/-- **The pieces of the last dimension**, below each other. -/
theorem concatBlocks_eq {x : Shaped α} (lead : List ℕ) {h : ℕ} (hn : 0 < n) (hx : x.shape = lead ++ [n * h])
    (hh : 0 < h) : ∃ (y : Shaped α) (pieces : Fin n → Shaped α) (z : Shaped α),
      reshapeRows x = some y ∧ y.shape = [lead.prod, n * h] ∧ y.data = x.data ∧
      y.IsCut (fun _ => h) 1 pieces ∧ (∀ r, (pieces r).shape = [lead.prod, h]) ∧
      concatBlocks n x = some z ∧ z.shape = [n * lead.prod, h] ∧ z.IsCut (fun _ => lead.prod) 0 pieces := by
  obtain ⟨y, hy, hshape, hdata⟩ := reshapeRows_eq lead hx (Nat.mul_pos hn hh)
  have hsize : y.size 1 = n * h := by rw [Shaped.size, hshape]; rfl
  obtain ⟨pieces, hpieces, hcut⟩ := splitEven_eq hn (.inl hh) (x := y) (d := 1) (by rw [hshape]; exact Nat.one_lt_two)
    hsize
  have hpieceShape : ∀ r, (pieces r).shape = [lead.prod, h] := fun r => by
    rw [hcut.shape_eq, hshape]
    rfl
  obtain ⟨z, hz, hzshape, hzcut⟩ := Shaped.exists_cat_isCut pieces [lead.prod, h] (d := 0) hn
    Nat.two_pos fun r => by
      rw [Shaped.size, hpieceShape]
      rfl
  have hpieceSize : ∀ r, (pieces r).size 0 = lead.prod := fun r => by
    rw [Shaped.size, hpieceShape]
    rfl
  simp only [hpieceSize, List.ofFn_const, List.sum_replicate_nat] at hzshape hzcut
  refine ⟨y, pieces, z, hy, hshape, hdata, hcut, hpieceShape, ?_, hzshape, hzcut⟩
  rw [concatBlocks, hy, Option.bind_eq_bind, Option.bind_some, hsize, Nat.mul_div_cancel_left h hn, hpieces]
  exact hz

theorem concatBlocks_zero {x : Shaped α} (lead : List ℕ) (hx : x.shape = lead ++ [0]) :
    concatBlocks n x = none := by
  rw [concatBlocks, reshapeRows_zero lead hx]
  rfl

/-- `all_to_all` of pieces below each other gives every rank the pieces for it, below each other. -/
theorem allToAll_eq {xs : Fin n → Shaped α} {pieces : Fin n → Fin n → Shaped α} (shape : List ℕ) {m : ℕ}
    (hn : 0 < n) (hd : 0 < shape.length) (hxs : ∀ s, (xs s).shape = shape)
    (hcut : ∀ s, (xs s).IsCut (fun _ => m) 0 (pieces s)) :
    ∃ ys, allToAll xs = some ys ∧ (∀ r, Shaped.cat (List.ofFn fun s => pieces s r) 0 = some (ys r)) ∧
      (∀ r, (ys r).shape = shape) ∧ ∀ r, (ys r).IsCut (fun _ => m) 0 fun s => pieces s r := by
  by_cases hone : n = 1
  · subst hone
    have hself : ∀ r, (fun s => pieces s r) = pieces r := fun r => funext fun s => by
      rw [Subsingleton.elim r s]
    refine ⟨xs, if_pos rfl, fun r => ?_, hxs, fun r => ?_⟩
    · rw [hself]
      exact (hcut r).cat_eq hn
    · rw [hself]
      exact hcut r
  · obtain ⟨ys, hys, hrest⟩ := Shaped.allToAllEqual_eq hn hd hxs hcut
    exact ⟨ys, (if_neg hone).trans hys, hrest⟩

/-! ## There and back -/

/-- **`all_to_all_sp2hp`**: every rank gets its block of the hidden dimension, of all tokens. -/
theorem allToAllSp2hp_eq {xs : Fin n → Shaped α} {m h : ℕ} (hn : 0 < n) (hxs : ∀ s, (xs s).shape = [m, n * h])
    (hh : 0 < h) : ∃ (blocks : Fin n → Fin n → Shaped α) (ys : Fin n → Shaped α),
      (∀ s, (xs s).IsCut (fun _ => h) 1 (blocks s)) ∧ allToAllSp2hp xs = some ys ∧
      (∀ r, Shaped.cat (List.ofFn fun s => blocks s r) 0 = some (ys r)) ∧
      (∀ r, (ys r).shape = [n * m, h]) ∧ ∀ r, (ys r).IsCut (fun _ => m) 0 fun s => blocks s r := by
  choose y blocks z hy _ _ hcut _ hz hzshape hzcut using fun s => concatBlocks_eq [m] hn (hxs s) hh
  have hself : ∀ s, y s = xs s := fun s =>
    Option.some.inj ((hy s).symm.trans (reshapeRows_self (hxs s) (Nat.mul_pos hn hh)))
  simp only [List.prod_singleton] at hzshape hzcut
  obtain ⟨ys, hys, hcat, hshape, hycut⟩ := allToAll_eq [n * m, h] hn Nat.two_pos hzshape hzcut
  refine ⟨blocks, ys, fun s => hself s ▸ hcut s, ?_, hcat, hshape, hycut⟩
  rw [allToAllSp2hp, collect_eq_some.mpr hz]
  exact hys

/-- **`all_to_all_hp2sp`**: every rank gets its block of the tokens, all of their hidden dimension. -/
theorem allToAllHp2sp_eq {ys : Fin n → Shaped α} {m h : ℕ} (hn : 0 < n) (hys : ∀ s, (ys s).shape = [n * m, h])
    (hh : 0 < h) (hm : 0 < m ∨ n = 1) : ∃ (blocks : Fin n → Fin n → Shaped α) (xs : Fin n → Shaped α),
      (∀ s, (ys s).IsCut (fun _ => m) 0 (blocks s)) ∧ allToAllHp2sp ys = some xs ∧
      (∀ r, Shaped.cat (List.ofFn fun s => blocks s r) 1 = some (xs r)) ∧
      (∀ r, (xs r).shape = [m, n * h]) ∧ ∀ r, (xs r).IsCut (fun _ => h) 1 fun s => blocks s r := by
  have hsize : ∀ {x : Shaped α}, x.shape = [n * m, h] → x.size 0 = n * m := fun hx => by
    rw [Shaped.size, hx]
    rfl
  choose blocks hblocks using fun s => Shaped.exists_isCut (ys s) (fun _ : Fin n => m) (d := 0)
    (by rw [hys]; exact Nat.two_pos) (by rw [List.ofFn_const, List.sum_replicate_nat, hsize (hys s)])
  obtain ⟨zs, hzs, _, hzshape, hzcut⟩ := allToAll_eq [n * m, h] hn Nat.two_pos hys hblocks
  have hblockShape : ∀ s r, (blocks s r).shape = [m, h] := fun s r => by
    rw [(hblocks s).shape_eq, hys]
    rfl
  have hblockSize : ∀ s r, (blocks s r).size 1 = h := fun s r => by
    rw [Shaped.size, hblockShape]
    rfl
  choose xs hcat hshape hcut using fun r => Shaped.exists_cat_isCut (fun s => blocks s r) [m, h] (d := 1) hn
    Nat.one_lt_two fun s => by
      rw [hblockSize, hblockShape]
      rfl
  simp only [hblockSize, List.ofFn_const, List.sum_replicate_nat] at hshape hcut
  refine ⟨blocks, xs, hblocks, ?_, hcat, hshape, hcut⟩
  have hrows : ∀ r, reshapeRows (zs r) = some (zs r) := fun r => reshapeRows_self (hzshape r) hh
  rw [allToAllHp2sp, collect_eq_some.mpr fun r => reshapeRows_self (hys r) hh]
  simp only [Option.bind_eq_bind, Option.bind_some, hzs]
  refine collect_eq_some.mpr fun r => ?_
  obtain ⟨pieces, hpieces, hpcut⟩ := splitEven_eq hn hm (x := zs r) (d := 0)
    (by rw [hzshape]; exact Nat.two_pos) (hsize (hzshape r))
  rw [hrows, Option.bind_some, hsize (hzshape r), Nat.mul_div_cancel_left m hn, hpieces,
    hpcut.unique (hzcut r)]
  exact hcat r

/-- Of **no tokens**, several ranks get as much of the hidden dimension as one of them has. -/
theorem allToAllHp2sp_empty {ys xs : Fin n → Shaped α} {h : ℕ} (hn : 0 < n) (hys : ∀ s, (ys s).shape = [0, h])
    (hh : 0 < h) (hxs : allToAllHp2sp ys = some xs) (r : Fin n) : (xs r).shape = [0, h] := by
  have hzero : [n * 0, h] = [0, h] := by rw [Nat.mul_zero]
  have hsize : ∀ {x : Shaped α}, x.shape = [0, h] → x.size 0 = 0 := fun hx => by
    rw [Shaped.size, hx]
    rfl
  choose blocks hblocks using fun s => Shaped.exists_isCut (ys s) (fun _ : Fin n => 0) (d := 0)
    (by rw [hys]; exact Nat.two_pos)
    (by rw [List.ofFn_const, List.sum_replicate_nat, hsize (hys s), Nat.mul_zero])
  obtain ⟨zs, hzs, _, hzshape, _⟩ := allToAll_eq [0, h] hn Nat.two_pos hys hblocks
  rw [allToAllHp2sp, collect_eq_some.mpr fun r => reshapeRows_self (hys r) hh] at hxs
  simp only [Option.bind_eq_bind, Option.bind_some, hzs] at hxs
  have hr := collect_eq_some.mp hxs r
  rw [reshapeRows_self (hzshape r) hh, Option.bind_some, hsize (hzshape r), Nat.zero_div, Shaped.splitEven,
    if_pos (.inr (hsize (hzshape r))), hsize (hzshape r)] at hr
  have hnone : (evenSizes 0 0).sum = (zs r).size 0 := (hsize (hzshape r)).symm
  obtain ⟨pieces, hpieces, hsplit⟩ := Shaped.exists_split (by rw [hzshape]; exact Nat.two_pos) hnone
  obtain ⟨p, rfl⟩ := List.length_eq_one_iff.mp hsplit.length_eq
  have hpshape : p.shape = [0, h] := by
    rw [hsplit.shape_eq 0 p rfl, hzshape]
    rfl
  have halike : ∀ y ∈ [p], y.shape = [0, h].set 1 (y.size 1) := fun y hy => by
    rw [List.mem_singleton.mp hy, Shaped.size, hpshape]
    rfl
  obtain ⟨z, hz, hzs', _⟩ := Shaped.exists_cat (List.cons_ne_nil p []) (Nat.lt_add_one 1) halike
  rw [hpieces, Option.bind_some, hz, Option.some.injEq] at hr
  rw [← hr, hzs', List.map_singleton, List.sum_singleton, Shaped.size, hpshape]
  rfl

/-- **There and back**: `all_to_all_hp2sp` undoes `all_to_all_sp2hp`. -/
theorem allToAllHp2sp_sp2hp {xs : Fin n → Shaped α} {m h : ℕ} (hn : 0 < n) (hxs : ∀ s, (xs s).shape = [m, n * h])
    (hh : 0 < h) (hm : 0 < m ∨ n = 1) :
    ∃ ys, IsExchange xs (fun _ => List.replicate n h) 1 0 ys ∧ allToAllSp2hp xs = some ys ∧
      allToAllHp2sp ys = some xs := by
  obtain ⟨blocks, ys, hcut, hys, hcat, hshape, hycut⟩ := allToAllSp2hp_eq hn hxs hh
  obtain ⟨blocks', zs, hcut', hzs, hcat', _, _⟩ := allToAllHp2sp_eq hn hshape hh hm
  refine ⟨ys, ⟨blocks, fun s => ?_, hcat⟩, hys, ?_⟩
  · rw [← (hcut s).split_eq, List.ofFn_const]
  · have hback : zs = xs := funext fun r => by
      have hr := hcat' r
      have hblocks : (fun s => blocks' s r) = blocks r := funext fun s => by
        rw [(hcut' s).unique (hycut s)]
      rw [hblocks, (hcut r).cat_eq hn] at hr
      exact (Option.some.inj hr).symm
    rw [hzs, hback]

/-- **Back and there.** -/
theorem allToAllSp2hp_hp2sp {ys : Fin n → Shaped α} {m h : ℕ} (hn : 0 < n) (hys : ∀ s, (ys s).shape = [n * m, h])
    (hh : 0 < h) (hm : 0 < m ∨ n = 1) :
    ∃ xs, IsExchange ys (fun _ => List.replicate n m) 0 1 xs ∧ allToAllHp2sp ys = some xs ∧
      allToAllSp2hp xs = some ys := by
  obtain ⟨blocks, xs, hcut, hxs, hcat, hshape, hxcut⟩ := allToAllHp2sp_eq hn hys hh hm
  obtain ⟨blocks', zs, hcut', hzs, hcat', _, _⟩ := allToAllSp2hp_eq hn hshape hh
  refine ⟨xs, ⟨blocks, fun s => ?_, hcat⟩, hxs, ?_⟩
  · rw [← (hcut s).split_eq, List.ofFn_const]
  · have hback : zs = ys := funext fun r => by
      have hr := hcat' r
      have hblocks : (fun s => blocks' s r) = blocks r := funext fun s => by
        rw [(hcut' s).unique (hxcut s)]
      rw [hblocks, (hcut r).cat_eq hn] at hr
      exact (Option.some.inj hr).symm
    rw [hzs, hback]

/-! ## Gathering and reducing the last dimension -/

/-- **`_gather_along_last_dim`**: all tensors, joined along the last dimension in rank order. -/
theorem gatherAlongLastDim_eq {xs : Fin n → Shaped α} {shape : List ℕ} (hn : 0 < n) (hne : shape ≠ [])
    (hxs : ∀ s, (xs s).shape = shape) : ∃ z, Shaped.cat (List.ofFn xs) (shape.length - 1) = some z ∧
      gatherAlongLastDim xs = some fun _ => z := by
  have hpos : 0 < shape.length := List.length_pos_iff.mpr hne
  have hlast : shape.length - 1 < shape.length := Nat.sub_lt hpos Nat.one_pos
  obtain ⟨z, hz, _, hcut⟩ := Shaped.exists_cat_isCut xs shape hn hlast fun s => by
    rw [Shaped.size, hxs, List.getD_eq_getElem _ _ hlast, List.set_getElem_self]
  refine ⟨z, hz, ?_⟩
  by_cases hone : n = 1
  · subst hone
    have hself : ∀ r, xs r = z := fun r => by
      have hr : List.ofFn xs = [xs r] := by
        rw [List.ofFn_succ, List.ofFn_zero, Subsingleton.elim 0 r]
      rw [hr, Shaped.cat_singleton _ (by rwa [hxs])] at hz
      exact Option.some.inj hz
    exact (if_pos rfl).trans (congrArg some (funext hself))
  · obtain ⟨y, hy, hyshape, hycut⟩ := Shaped.allGatherIntoTensor_eq hn hpos hxs
    rw [gatherAlongLastDim, if_neg hone]
    simp only [Shaped.size, hxs]
    rw [hy, Option.bind_eq_bind, Option.bind_some]
    refine collect_eq_some.mpr fun _ => ?_
    have hchunk : y.chunk n 0 = some (List.ofFn xs) := by
      rw [Shaped.chunk, Shaped.size, hyshape, Shaped.getD_set hpos, Nat.mul_comm, chunkSizes_mul hn,
        ← hycut.split_eq, List.ofFn_const]
    rw [hchunk, Option.bind_eq_bind, Option.bind_some, hyshape, List.length_set, hz]

/-- **`_reduce_scatter_along_last_dim`**: every rank gets its block of the sum. -/
theorem reduceScatterAlongLastDim_eq [AddCommMonoid R] {xs : Fin n → Shaped R} {lead : List ℕ} {h : ℕ}
    (hn : 0 < n) (hxs : ∀ s, (xs s).shape = lead ++ [n * h]) (hh : 0 < h) :
    ∃ blocks, (sumOf (lead ++ [n * h]) xs).IsCut (fun _ => h) lead.length blocks ∧
      reduceScatterAlongLastDim xs = some blocks := by
  have hlast : lead.length < (lead ++ [n * h]).length := by
    rw [List.length_append]
    exact Nat.lt_succ_self _
  have hlastSize : (lead ++ [n * h]).getD lead.length 0 = n * h := by
    rw [List.getD_eq_getElem?_getD, List.getElem?_concat_length]
    rfl
  have hset : (lead ++ [n * h]).set lead.length h = lead ++ [h] := by
    rw [List.set_append_right _ _ le_rfl, Nat.sub_self]
    rfl
  obtain ⟨blocks, hblocks⟩ := Shaped.exists_isCut (sumOf (lead ++ [n * h]) xs) (fun _ : Fin n => h) hlast (by
    rw [List.ofFn_const, List.sum_replicate_nat]
    exact hlastSize.symm)
  choose y pieces z hy hyshape hydata hcut hpiece hz hzshape hzcut using fun s =>
    concatBlocks_eq lead hn (hxs s) hh
  choose parts hparts using fun s => Shaped.exists_isCut (xs s) (fun _ : Fin n => h) (d := lead.length)
    (by rw [hxs]; exact hlast) (by rw [List.ofFn_const, List.sum_replicate_nat, Shaped.size, hxs, hlastSize])
  have hsums := Shaped.IsCut.sumOf_eq hxs hparts hblocks
  rw [hset] at hsums
  -- the same entries, whether the dimensions before the last are flattened or not
  have hsame : ∀ s r, (parts s r).data = (pieces s r).data := fun s r => by
    refine (hparts s).isSplit.2.data_congr (hcut s).isSplit.2 (hparts s).isSplit.1 (hcut s).isSplit.1
      (hydata s).symm ?_ ?_ ?_ (i := r) (by simp) (by simp)
    · rw [hxs, hyshape, Shaped.outer, Shaped.outer, List.take_left]
      exact (List.prod_singleton).symm
    · rw [Shaped.size, Shaped.size, hxs, hyshape, hlastSize]
      rfl
    · rw [hxs, hyshape, Shaped.inner, Shaped.inner, List.drop_of_length_le (by simp)]
      rfl
  have hscattered : reduceScatterAlongFirstDim z = some fun r => sumOf [lead.prod, h] fun s => pieces s r := by
    by_cases hone : n = 1
    · subst hone
      refine (if_pos rfl).trans (congrArg some (funext fun r => ?_))
      have hwhole := (hzcut r).cat_eq hn
      have hr : List.ofFn (pieces r) = [pieces r r] := by
        rw [List.ofFn_succ, List.ofFn_zero, Subsingleton.elim 0 r]
      rw [hr, Shaped.cat_singleton _ (by rw [hpiece]; exact Nat.two_pos), Option.some.injEq] at hwhole
      rw [← hwhole]
      exact (Shaped.sumOf_one (fun s => pieces s r) r (hpiece r r)).symm
    · have hsize : ∀ r, (z r).size 0 = n * lead.prod := fun r => by
        rw [Shaped.size, hzshape]
        rfl
      rw [reduceScatterAlongFirstDim, if_neg hone, if_pos fun r => by rw [hsize, Nat.mul_mod_right]]
      have hscatter := Shaped.reduceScatterTensor_eq hn (show 0 < [n * lead.prod, h].length from Nat.succ_pos 1)
        hzshape hzcut
      simp only [hsize, hzshape, Nat.mul_div_cancel_left _ hn]
      exact hscatter
  refine ⟨blocks, hblocks, ?_⟩
  rw [reduceScatterAlongLastDim, collect_eq_some.mpr hz]
  simp only [Option.bind_eq_bind, Option.bind_some, hscattered]
  refine collect_eq_some.mpr fun r => ?_
  have hshape : (xs r).shape.set ((xs r).shape.length - 1)
      ((xs r).size ((xs r).shape.length - 1) / n) = lead ++ [h] := by
    rw [Shaped.size, hxs, List.length_append, List.length_singleton, Nat.add_sub_cancel, hlastSize,
      Nat.mul_div_cancel_left h hn, hset]
  have hdata : (sumOf [lead.prod, h] fun s => pieces s r).data = (blocks r).data := by
    rw [hsums r, Shaped.sumOf_data, Shaped.sumOf_data, List.prod_append, List.prod_singleton, List.prod_cons,
      List.prod_singleton]
    refine List.map_congr_left fun k _ => Finset.sum_congr rfl fun s _ => ?_
    rw [hsame]
  have hblockShape : (blocks r).shape = lead ++ [h] := by rw [hsums r]; rfl
  rw [hshape, Shaped.reshape, hdata, ← hblockShape]
  exact Shaped.ofData_eq_some (blocks r).length_data

/-! ## When the exchanges match -/

/-- Several ranks do not get **no tokens** back. -/
theorem not_hp2sp_empty {ys xs : Fin n → Shaped α} {h : ℕ} (hn : 0 < n) (hone : n ≠ 1)
    (hys : ∀ s, (ys s).shape = [0, h]) (hh : 0 < h) (hxs : ∀ s, (xs s).shape = [0, n * h]) :
    allToAllHp2sp ys ≠ some xs := fun hreturned => by
  have hshape := (allToAllHp2sp_empty hn hys hh hreturned ⟨0, hn⟩).symm.trans (hxs ⟨0, hn⟩)
  have hsize : h = n * h := by simpa using hshape
  exact hone (Nat.eq_of_mul_eq_mul_right hh (by rw [Nat.one_mul]; exact hsize.symm))

/-- What is exchanged from rows to columns has its shape. -/
theorem IsExchange.shape_eq {ys xs : Fin n → Shaped α} {m h : ℕ} (hn : 0 < n)
    (hys : ∀ s, (ys s).shape = [n * m, h]) (hxs : IsExchange ys (fun _ => List.replicate n m) 0 1 xs)
    (r : Fin n) : (xs r).shape = [m, n * h] := by
  obtain ⟨chunks, hsplit, hcat⟩ := hxs
  have hchunk : ∀ s, (chunks s r).shape = [m, h] := fun s => by
    have hsplits := hsplit s
    rw [← List.ofFn_const] at hsplits
    obtain ⟨pieces, hpieces⟩ := Shaped.exists_isCut (ys s) (fun _ : Fin n => m) (d := 0)
      (by rw [hys]; exact Nat.two_pos) (by rw [List.ofFn_const, List.sum_replicate_nat, Shaped.size, hys]; rfl)
    rw [← List.ofFn_injective (Option.some.inj (hpieces.split_eq.symm.trans hsplits)), hpieces.shape_eq, hys]
    rfl
  have hsize : ∀ s, (chunks s r).size 1 = h := fun s => by
    rw [Shaped.size, hchunk]
    rfl
  obtain ⟨z, hz, hshape, _⟩ := Shaped.exists_cat_isCut (fun s => chunks s r) [m, h] (d := 1) hn
    Nat.one_lt_two fun s => by
      rw [hsize, hchunk]
      rfl
  obtain rfl := Option.some.inj (hz.symm.trans (hcat r))
  simp only [hsize, List.ofFn_const, List.sum_replicate_nat] at hshape
  exact hshape

variable (n) in
/-- The hidden dimension has entries, and several ranks have tokens. -/
def CanExchange (numTokens hiddenSize : ℕ) : Prop := 0 < hiddenSize ∧ (0 < numTokens ∨ n = 1)

/-- **Exchanges match their definitions and undo each other** where the hidden dimension has entries and
several ranks have tokens; the last dimension is gathered always, and its sum scattered if it has entries. -/
theorem tensorParallel_iff [AddCommMonoid R] (hn : 0 < n) (numTokens h : ℕ) :
    (∀ xs : Fin n → Shaped α, (∀ s, (xs s).shape = [numTokens, n * h]) →
      ((∃ ys, IsExchange xs (fun _ => List.replicate n h) 1 0 ys ∧ allToAllSp2hp xs = some ys ∧
        allToAllHp2sp ys = some xs) ↔ CanExchange n numTokens (n * h))) ∧
    (∀ ys : Fin n → Shaped α, (∀ s, (ys s).shape = [n * numTokens, h]) →
      ((∃ xs, IsExchange ys (fun _ => List.replicate n numTokens) 0 1 xs ∧ allToAllHp2sp ys = some xs ∧
        allToAllSp2hp xs = some ys) ↔ CanExchange n numTokens (n * h))) ∧
    (∀ (shape : List ℕ) (xs : Fin n → Shaped α), shape ≠ [] → (∀ s, (xs s).shape = shape) →
      ∃ z, Shaped.cat (List.ofFn xs) (shape.length - 1) = some z ∧ gatherAlongLastDim xs = some fun _ => z) ∧
    (∀ (lead : List ℕ) (xs : Fin n → Shaped R), (∀ s, (xs s).shape = lead ++ [n * h]) →
      ((∃ blocks, (sumOf (lead ++ [n * h]) xs).split (List.replicate n h) lead.length =
          some (List.ofFn blocks) ∧ reduceScatterAlongLastDim xs = some blocks ∧
          gatherAlongLastDim blocks = some fun _ => sumOf (lead ++ [n * h]) xs) ↔ 0 < n * h)) := by
  refine ⟨fun xs hxs => ⟨?_, ?_⟩, fun ys hys => ⟨?_, ?_⟩, fun shape xs hne hxs => ?_, fun lead xs hxs => ⟨?_, ?_⟩⟩
  · rintro ⟨ys, _, hys, hback⟩
    rcases Nat.eq_zero_or_pos h with rfl | hh
    · have hnone : concatBlocks n (xs ⟨0, hn⟩) = none := concatBlocks_zero [numTokens] (hxs _)
      rw [allToAllSp2hp, collect_eq_none hnone] at hys
      exact absurd hys (Option.some_ne_none ys).symm
    · refine ⟨Nat.mul_pos hn hh, ?_⟩
      by_contra hempty
      obtain ⟨rfl, hone⟩ : numTokens = 0 ∧ n ≠ 1 := by omega
      obtain ⟨_, zs, _, hzs, _, hshape, _⟩ := allToAllSp2hp_eq hn hxs hh
      obtain rfl := Option.some.inj (hzs.symm.trans hys)
      exact not_hp2sp_empty hn hone (fun s => by rw [hshape, Nat.mul_zero]) hh hxs hback
  · rintro ⟨hh, hm⟩
    exact allToAllHp2sp_sp2hp hn hxs (Nat.pos_of_mul_pos_left hh) hm
  · rintro ⟨xs, hexchange, hxs, _⟩
    rcases Nat.eq_zero_or_pos h with rfl | hh
    · have hnone : reshapeRows (ys ⟨0, hn⟩) = none := reshapeRows_zero [n * numTokens] (hys _)
      rw [allToAllHp2sp, collect_eq_none hnone] at hxs
      exact absurd hxs (Option.some_ne_none xs).symm
    · refine ⟨Nat.mul_pos hn hh, ?_⟩
      by_contra hempty
      obtain ⟨rfl, hone⟩ : numTokens = 0 ∧ n ≠ 1 := by omega
      exact not_hp2sp_empty hn hone (fun s => by rw [hys, Nat.mul_zero]) hh
        (IsExchange.shape_eq hn hys hexchange) hxs
  · rintro ⟨hh, hm⟩
    exact allToAllSp2hp_hp2sp hn hys (Nat.pos_of_mul_pos_left hh) hm
  · exact gatherAlongLastDim_eq hn hne hxs
  · rintro ⟨blocks, _, hblocks, _⟩
    refine Nat.pos_of_ne_zero fun hzero => ?_
    have hnone : concatBlocks n (xs ⟨0, hn⟩) = none := concatBlocks_zero lead ((hxs _).trans (by rw [hzero]))
    rw [reduceScatterAlongLastDim, collect_eq_none hnone] at hblocks
    exact absurd hblocks (Option.some_ne_none blocks).symm
  · intro hh
    obtain ⟨blocks, hcut, hblocks⟩ := reduceScatterAlongLastDim_eq hn hxs (Nat.pos_of_mul_pos_left hh)
    have hshape : ∀ r, (blocks r).shape = lead ++ [h] := fun r => by
      rw [hcut.shape_eq, Shaped.sumOf_shape, List.set_append_right _ _ le_rfl, Nat.sub_self]
      rfl
    have hne : lead ++ [h] ≠ [] := List.append_ne_nil_of_right_ne_nil _ (List.cons_ne_nil _ _)
    obtain ⟨z, hz, hgather⟩ := gatherAlongLastDim_eq hn hne hshape
    rw [List.length_append, List.length_singleton, Nat.add_sub_cancel, hcut.cat_eq hn, Option.some.injEq] at hz
    refine ⟨blocks, ?_, hblocks, by rw [hz, hgather]⟩
    rw [← hcut.split_eq, List.ofFn_const]

/-- Two ranks with a token of four entries each. -/
theorem tensorParallel_iff_oneToken : ∃ ys : Fin 2 → Shaped ℕ,
    allToAllSp2hp ![⟨[1, 4], [0, 1, 2, 3], rfl⟩, ⟨[1, 4], [4, 5, 6, 7], rfl⟩] = some ys ∧
      allToAllHp2sp ys = some ![⟨[1, 4], [0, 1, 2, 3], rfl⟩, ⟨[1, 4], [4, 5, 6, 7], rfl⟩] := by
  obtain ⟨ys, _, hys, hback⟩ := ((tensorParallel_iff (n := 2) (R := ℤ) Nat.two_pos 1 2).1
    ![(⟨[1, 4], [0, 1, 2, 3], rfl⟩ : Shaped ℕ), ⟨[1, 4], [4, 5, 6, 7], rfl⟩] (by decide)).mpr
      ⟨Nat.succ_pos 3, .inl Nat.one_pos⟩
  exact ⟨ys, hys, hback⟩

/-- **No tokens** on two ranks: the hidden dimension of two entries comes back with one. -/
theorem not_allToAllHp2sp_sp2hp_noTokens :
    allToAllSp2hp (fun _ : Fin 2 => (⟨[0, 2], [], rfl⟩ : Shaped ℕ)) = some (fun _ => ⟨[0, 1], [], rfl⟩) ∧
      allToAllHp2sp (fun _ : Fin 2 => (⟨[0, 1], [], rfl⟩ : Shaped ℕ)) = some (fun _ => ⟨[0, 1], [], rfl⟩) := by
  decide

end TensorParallel

end VllmAscend
