import VllmAscend.Machinery.Launch
import VllmAscend.Ops.SequenceParallel

/-!
# Distributed/RankGrid — collectives on a grid of ranks

                tp 0     tp 1    …
    dp 0        (0,0)    (0,1)          a data-parallel rank is a row, its ranks hold the same tokens
    dp 1        (1,0)    (1,1)          a data-parallel group is a column

A collective of one side runs in every group of that side, and fails for everyone if it fails in one.  Reducing
rows that are functions of the same tokens adds the functions up (`allReduceRows_map`,
`reduceScatter_map`); a multicast of tensors of unequal length leaves all of them, one after another, on
every rank (`naiveMulticast_eq`).
-/

namespace VllmAscend

open Machinery

variable {D T n : ℕ} {α β V W : Type}

/-! ## Groups -/

/-- What every rank does alone. -/
def onRanks (f : Fin D → Fin T → α → Option β) (xs : Fin D → Fin T → α) : Option (Fin D → Fin T → β) :=
  collect fun d => collect fun t => f d t (xs d t)

/-- A collective of the data-parallel groups. -/
def acrossDp (f : (Fin D → α) → Option (Fin D → β)) (xs : Fin D → Fin T → α) : Option (Fin D → Fin T → β) :=
  (collect fun t => f fun d => xs d t).map fun ys d t => ys t d

/-- A collective of the tensor-parallel groups. -/
def acrossTp (f : (Fin T → α) → Option (Fin T → β)) (xs : Fin D → Fin T → α) : Option (Fin D → Fin T → β) :=
  collect fun d => f (xs d)

theorem onRanks_eq {f : Fin D → Fin T → α → Option β} {xs : Fin D → Fin T → α} {ys : Fin D → Fin T → β}
    (h : ∀ d t, f d t (xs d t) = some (ys d t)) : onRanks f xs = some ys :=
  collect_eq_some.mpr fun d => collect_eq_some.mpr (h d)

theorem acrossDp_eq {f : (Fin D → α) → Option (Fin D → β)} {xs : Fin D → Fin T → α} {ys : Fin D → Fin T → β}
    (h : ∀ t, f (fun d => xs d t) = some fun d => ys d t) : acrossDp f xs = some ys := by
  have hall : (collect fun t => f fun d => xs d t) = some fun t d => ys d t := collect_eq_some.mpr h
  rw [acrossDp, hall, Option.map_some]

theorem acrossTp_eq {f : (Fin T → α) → Option (Fin T → β)} {xs : Fin D → Fin T → α} {ys : Fin D → Fin T → β}
    (h : ∀ d, f (xs d) = some (ys d)) : acrossTp f xs = some ys :=
  collect_eq_some.mpr h

/-! ## Sums -/

section Sums

variable [AddCommMonoid V]

/-- `all_reduce`, of tensors of one length. -/
def allReduceRows (xs : Fin n → List V) : Option (Fin n → List V) :=
  if n = 1 then some xs
  else if ∀ r s, (xs r).length = (xs s).length then some fun r => sumRows (xs r).length xs else none

theorem sumRows_map (g : Fin n → α → V) (rows : List α) :
    sumRows rows.length (fun r => rows.map (g r)) = rows.map fun p => ∑ r, g r p := by
  refine List.ext_getElem (by rw [length_sumRows, List.length_map]) fun k hk hk' => ?_
  rw [length_sumRows] at hk
  simp only [sumRows, List.getElem_map, List.getElem_range]
  refine Finset.sum_congr rfl fun r _ => ?_
  rw [List.getD_eq_getElem _ _ (by rwa [List.length_map]), List.getElem_map]

/-- **Functions of the same rows are added up.** -/
theorem allReduceRows_map (g : Fin n → α → V) (rows : List α) :
    allReduceRows (fun r => rows.map (g r)) = some fun _ => rows.map fun p => ∑ r, g r p := by
  rw [allReduceRows]
  split
  · next hone =>
    subst hone
    refine congrArg some (funext fun r => List.map_congr_left fun p _ => ?_)
    rw [Fin.sum_univ_one, Subsingleton.elim r 0]
  · rw [if_pos fun r s => by rw [List.length_map, List.length_map]]
    refine congrArg some (funext fun r => ?_)
    rw [List.length_map, sumRows_map]

/-- **Functions of the same rows are added up and scattered.** -/
theorem reduceScatter_map {m : ℕ} (hn : 0 < n) (g : Fin n → α → V) {rows : List α} (h : rows.length = n * m) :
    tensorModelParallelReduceScatter (fun r => rows.map (g r)) =
      some fun r => (slicesOf m rows r).map fun p => ∑ s, g s p := by
  rw [tensorModelParallelReduceScatter_eq hn fun r => by rw [List.length_map, h], ← h, sumRows_map]
  exact congrArg some (funext fun r => slicesOf_map _ m rows r)

end Sums

/-! ## Blocks -/

/-- The blocks of one length that rows consist of. -/
theorem slicesOf_flatten {m : ℕ} {xs : Fin n → List V} (h : ∀ r, (xs r).length = m) :
    slicesOf m (List.ofFn xs).flatten = xs := by
  funext r
  rw [slicesOf, List.ofFn_eq_map, ← List.flatMap_def]
  exact chunk_flatMap (fun r _ => h r) (List.getElem?_eq_some_iff.mpr ⟨by simp, by simp⟩)

theorem length_flatten_ofFn {m : ℕ} {xs : Fin n → List V} (h : ∀ r, (xs r).length = m) :
    (List.ofFn xs).flatten.length = n * m := by
  rw [List.ofFn_eq_map, ← List.flatMap_def, length_flatMap_const fun r _ => h r, List.length_finRange]

/-- **Blocks of one length are gathered.** -/
theorem allGather_blocks {m : ℕ} {xs : Fin n → List V} (h : ∀ r, (xs r).length = m) :
    tensorModelParallelAllGather xs = some fun _ => (List.ofFn xs).flatten := by
  have hgather := tensorModelParallelAllGather_slicesOf (length_flatten_ofFn h)
  rwa [slicesOf_flatten h] at hgather

theorem flatten_ofFn_map (f : α → β) (xs : Fin n → List α) :
    (List.ofFn fun r => (xs r).map f).flatten = (List.ofFn xs).flatten.map f := by
  rw [List.map_flatten, List.map_ofFn]
  rfl

/-- `torch.tensor_split` -/
def tensorSplit (n : ℕ) (xs : List V) : List (List V) := splitSizes (tensorSplitSizes xs.length n) xs

/-- `dist.all_gather(tensor_list, x)`, whose tensors have to be of the lengths that are sent. -/
def allGatherList (tensorList : Fin n → List (List V)) (xs : Fin n → List V) : Option (Fin n → List (List V)) :=
  if ∀ r, (tensorList r).map List.length = List.ofFn fun s => (xs s).length then some fun _ => List.ofFn xs else none

/-- The rows of a rank after `torch.tensor_split`. -/
theorem exists_tensorSplit (hn : 0 < n) (rows : List α) : ∃ chunks : Fin n → List α,
    tensorSplit n rows = List.ofFn chunks ∧ (List.ofFn chunks).flatten = rows ∧
      ∀ r : Fin n, (chunks r).length = (tensorSplitSizes rows.length n).getD r 0 := by
  have hlength : (tensorSplit n rows).length = n := by rw [tensorSplit, length_splitSizes, length_tensorSplitSizes]
  have hsum := sum_tensorSplitSizes hn rows.length
  obtain ⟨chunks, hchunks⟩ := exists_byRank hlength
  refine ⟨chunks, hchunks, ?_, fun r => ?_⟩
  · rw [← hchunks, tensorSplit, flatten_splitSizes hsum]
  · have hget : ((splitSizes (tensorSplitSizes rows.length n) rows).getD r []).length =
        (tensorSplitSizes rows.length n).getD r 0 :=
      Shaped.length_getD_splitSizes hsum.le (by rw [length_tensorSplitSizes]; exact r.isLt)
    rw [← hget]
    have hchunk : (splitSizes (tensorSplitSizes rows.length n) rows).getD r [] = (List.ofFn chunks).getD r [] :=
      congrArg (fun l => List.getD l (r : ℕ) []) hchunks
    rw [hchunk, List.getD_eq_getElem _ _ (by rw [List.length_ofFn]; exact r.isLt), List.getElem_ofFn]

theorem tensorSplit_map (f : α → β) (rows : List α) :
    tensorSplit n (rows.map f) = (tensorSplit n rows).map (List.map f) := by
  rw [tensorSplit, List.length_map, splitSizes_map]
  rfl

/-! ## Multicast -/

/-- Rows replaced, from `start` to `stop`. -/
def splice (buffer : List V) (start stop : ℕ) (x : List V) : List V := buffer.take start ++ x ++ buffer.drop stop

theorem length_splice {buffer x : List V} {start stop : ℕ} (hx : start + x.length = stop) (hstop : stop ≤ buffer.length) :
    (splice buffer start stop x).length = buffer.length := by
  rw [splice, List.length_append, List.length_append, List.length_take_of_le (by omega), List.length_drop]
  omega

theorem getElem?_splice {buffer x : List V} {start stop e : ℕ} (hx : start + x.length = stop)
    (hstop : stop ≤ buffer.length) :
    (splice buffer start stop x)[e]? = if start ≤ e ∧ e < stop then x[e - start]? else buffer[e]? := by
  have htake : (buffer.take start).length = start := List.length_take_of_le (by omega)
  have hbefore : (buffer.take start ++ x).length = stop := by rw [List.length_append, htake, hx]
  rw [splice]
  rcases Nat.lt_or_ge e stop with hlt | hge
  · rw [List.getElem?_append_left (by rwa [hbefore])]
    rcases Nat.lt_or_ge e start with hlow | hhigh
    · rw [List.getElem?_append_left (by rwa [htake]), List.getElem?_take_of_lt hlow, if_neg (by omega)]
    · rw [List.getElem?_append_right (by rwa [htake]), htake, if_pos ⟨hhigh, hlt⟩]
  · rw [List.getElem?_append_right (by rwa [hbefore]), hbefore, List.getElem?_drop, if_neg (by omega)]
    congr 1
    omega

/-- `broadcast(buffer[start:stop], root)`, of slices of one length. -/
def broadcastSlice (start stop : Fin n → ℕ) (root : Fin n) (buffers : Fin n → List V) : Option (Fin n → List V) :=
  let slice r := ((buffers r).take (stop r)).drop (start r)
  if ∀ r, (slice r).length = (slice root).length then
    some fun r => splice (buffers r) (start r) (stop r) (slice root)
  else none

/-- `buffer[start:stop].copy_(x)` -/
def copySlice (buffer : List V) (start stop : ℕ) (x : List V) : Option (List V) :=
  if start + x.length = stop ∧ stop ≤ buffer.length then some (splice buffer start stop x) else none

/-- Where the rows of a rank begin and end, by the cumulated sizes. -/
def cuStart (cu : List ℕ) (idx : ℕ) : ℕ := if idx = 0 then 0 else cu.getD (idx - 1) 0

def cuEnd (cu : List ℕ) (idx : ℕ) : ℕ := cu.getD idx 0

/-- A tensor whose entries nobody has written, of each length. -/
structure Uninitialized (V : Type) where
  empty : ℕ → List V
  length_empty : ∀ n, (empty n).length = n

/-- `naive_multicast` of a group. -/
def naiveMulticast (memory : Fin n → Uninitialized V) (cu : Fin n → List ℕ) (xs : Fin n → List V) :
    Option (Fin n → List V) := do
  let buffers ← collect fun r =>
    copySlice ((memory r).empty ((cu r).getLastD 0)) (cuStart (cu r) r) (cuEnd (cu r) r) (xs r)
  (List.finRange n).foldlM (fun buffers (idx : Fin n) =>
    broadcastSlice (fun r => cuStart (cu r) idx) (fun r => cuEnd (cu r) idx) idx buffers) buffers

/-- The number of rows of the first ranks. -/
def rowsBefore (xs : Fin n → List V) (d : ℕ) : ℕ := (((List.ofFn xs).take d).map List.length).sum

theorem foldlM_finRange {S : Type} {f : S → Fin n → Option S} {P : ℕ → S → Prop} {s : S} (hstart : P 0 s)
    (hstep : ∀ (i : Fin n) s, P i s → ∃ s', f s i = some s' ∧ P (i + 1) s') :
    ∃ s', (List.finRange n).foldlM f s = some s' ∧ P n s' := by
  have hprefix : ∀ k ≤ n, ∃ s', ((List.finRange n).take k).foldlM f s = some s' ∧ P k s' := by
    intro k
    induction k with
    | zero => exact fun _ => ⟨s, rfl, hstart⟩
    | succ k ih =>
      intro hk
      obtain ⟨s₁, hloop, hs₁⟩ := ih (Nat.le_of_succ_le hk)
      obtain ⟨s₂, hlast, hs₂⟩ := hstep ⟨k, hk⟩ s₁ hs₁
      refine ⟨s₂, ?_, hs₂⟩
      have htake : (List.finRange n).take (k + 1) = (List.finRange n).take k ++ [⟨k, hk⟩] := by
        rw [List.take_add_one, List.getElem?_eq_getElem (by rwa [List.length_finRange]), List.getElem_finRange]
        rfl
      rw [htake, List.foldlM_append, hloop]
      exact (congrArg (fun o : Option S => o.bind pure) hlast).trans rfl
  obtain ⟨s', hs', hP⟩ := hprefix n le_rfl
  refine ⟨s', ?_, hP⟩
  rwa [List.take_of_length_le (List.length_finRange.le)] at hs'

/-- The sizes of the ranks' rows, cumulated. -/
def cumulated (xs : Fin n → List V) : List ℕ := (List.range n).map fun d => rowsBefore xs (d + 1)

section Multicast

variable {xs : Fin n → List V}

theorem rowsBefore_zero : rowsBefore xs 0 = 0 := by
  rw [rowsBefore, List.take_zero]
  rfl

theorem rowsBefore_succ (d : Fin n) : rowsBefore xs (d + 1) = rowsBefore xs d + (xs d).length := by
  have hget : (List.ofFn xs)[(d : ℕ)]? = some (xs d) := by simp
  rw [rowsBefore, List.take_add_one, hget, List.map_append, List.sum_append]
  exact congrArg (rowsBefore xs d + ·) (Nat.add_zero _)

theorem rowsBefore_all : rowsBefore xs n = (List.ofFn xs).flatten.length := by
  rw [rowsBefore, List.take_of_length_le (by rw [List.length_ofFn]), List.length_flatten]

theorem rowsBefore_mono {a b : ℕ} (h : a ≤ b) : rowsBefore xs a ≤ rowsBefore xs b := by
  obtain ⟨c, rfl⟩ := Nat.exists_eq_add_of_le h
  rw [rowsBefore, rowsBefore, List.take_add, List.map_append, List.sum_append]
  exact Nat.le_add_right _ _

theorem cuStart_cumulated (d : Fin n) : cuStart (cumulated xs) d = rowsBefore xs d := by
  rw [cuStart]
  split
  · next hzero => rw [hzero, rowsBefore_zero]
  · next hne =>
    obtain ⟨k, hk⟩ := Nat.exists_eq_succ_of_ne_zero hne
    have hlt : k < n := by omega
    rw [hk, Nat.succ_sub_one, cumulated, List.getD_eq_getElem _ _ (by simpa using hlt), List.getElem_map,
      List.getElem_range]

theorem cuEnd_cumulated (d : Fin n) : cuEnd (cumulated xs) d = rowsBefore xs (d + 1) := by
  rw [cuEnd, cumulated, List.getD_eq_getElem _ _ (by simp), List.getElem_map, List.getElem_range]

/-- The rows of a rank among those of all. -/
theorem getElem?_flatten (d : Fin n) {i : ℕ} (hi : i < (xs d).length) :
    (List.ofFn xs).flatten[rowsBefore xs d + i]? = (xs d)[i]? := by
  have hsplit : List.ofFn xs = (List.ofFn xs).take d ++ xs d :: (List.ofFn xs).drop (d + 1) := by
    have hlt : (d : ℕ) < (List.ofFn xs).length := by rw [List.length_ofFn]; exact d.isLt
    have hget : (List.ofFn xs)[(d : ℕ)] = xs d := List.getElem_ofFn hlt
    rw [← hget, List.getElem_cons_drop, List.take_append_drop]
  have hlength : ((List.ofFn xs).take d).flatten.length = rowsBefore xs d := List.length_flatten
  rw [hsplit, List.flatten_append, List.flatten_cons, List.getElem?_append_right (by rw [hlength]; omega), hlength,
    Nat.add_sub_cancel_left, List.getElem?_append_left hi]

/-- The slice of a rank, cut out of the rows of all. -/
theorem slice_flatten (d : Fin n) :
    ((List.ofFn xs).flatten.take (rowsBefore xs (d + 1))).drop (rowsBefore xs d) = xs d := by
  have hle : rowsBefore xs (d + 1) ≤ (List.ofFn xs).flatten.length :=
    (rowsBefore_mono (Nat.succ_le_of_lt d.isLt)).trans_eq rowsBefore_all
  refine List.ext_getElem? fun i => ?_
  rw [List.getElem?_drop]
  rcases Nat.lt_or_ge i (xs d).length with hlt | hge
  · rw [List.getElem?_take_of_lt (by rw [rowsBefore_succ]; omega), getElem?_flatten d hlt]
  · rw [List.getElem?_eq_none hge, List.getElem?_eq_none]
    rw [List.length_take_of_le hle, rowsBefore_succ]
    omega

theorem getLastD_cumulated (hn : 0 < n) : (cumulated xs).getLastD 0 = (List.ofFn xs).flatten.length := by
  obtain ⟨k, rfl⟩ := Nat.exists_eq_succ_of_ne_zero hn.ne'
  rw [cumulated, List.range_succ, List.map_append, List.map_singleton, List.getLastD_concat, rowsBefore_all]

/-- A buffer agrees with the rows of all on the slices of the first `k` ranks, and on its own. -/
def Agrees (xs : Fin n → List V) (k : ℕ) (buffers : Fin n → List V) : Prop :=
  ∀ r, (buffers r).length = (List.ofFn xs).flatten.length ∧
    ∀ e, e < rowsBefore xs k ∨ (rowsBefore xs r ≤ e ∧ e < rowsBefore xs (r + 1)) →
      (buffers r)[e]? = (List.ofFn xs).flatten[e]?

theorem rowsBefore_le (r : Fin n) : rowsBefore xs (r + 1) ≤ (List.ofFn xs).flatten.length :=
  (rowsBefore_mono (Nat.succ_le_of_lt r.isLt)).trans_eq rowsBefore_all

/-- Every rank copies its own rows. -/
theorem agrees_copySlice {buffers : Fin n → List V}
    (hbuffers : ∀ r, (buffers r).length = (List.ofFn xs).flatten.length) :
    Agrees xs 0 fun r => splice (buffers r) (rowsBefore xs r) (rowsBefore xs (r + 1)) (xs r) := by
  intro r
  have hle : rowsBefore xs (r + 1) ≤ (buffers r).length := (rowsBefore_le r).trans_eq (hbuffers r).symm
  refine ⟨(length_splice (rowsBefore_succ r).symm hle).trans (hbuffers r), fun e he => ?_⟩
  rw [getElem?_splice (rowsBefore_succ r).symm hle]
  rcases he with he | he
  · rw [rowsBefore_zero] at he
    exact absurd he (Nat.not_lt_zero e)
  · rw [if_pos he]
    obtain ⟨i, rfl⟩ := Nat.exists_eq_add_of_le he.1
    have hi : i < (xs r).length := by
      have hlt := he.2
      rw [rowsBefore_succ] at hlt
      omega
    rw [Nat.add_sub_cancel_left, getElem?_flatten r hi]

/-- **A broadcast spreads the slice of its root.** -/
theorem Agrees.broadcastSlice {idx : Fin n} {buffers : Fin n → List V} (h : Agrees xs idx buffers) :
    ∃ buffers', VllmAscend.broadcastSlice (fun _ => rowsBefore xs idx) (fun _ => rowsBefore xs (idx + 1)) idx buffers =
      some buffers' ∧ Agrees xs (idx + 1) buffers' := by
  have hle : ∀ r, rowsBefore xs (idx + 1) ≤ (buffers r).length := fun r => (rowsBefore_le idx).trans_eq (h r).1.symm
  have hslice : ∀ r, rowsBefore xs idx +
      (((buffers r).take (rowsBefore xs (idx + 1))).drop (rowsBefore xs idx)).length = rowsBefore xs (idx + 1) := by
    intro r
    rw [List.length_drop, List.length_take_of_le (hle r)]
    exact Nat.add_sub_cancel' (rowsBefore_mono (Nat.le_succ _))
  rw [VllmAscend.broadcastSlice, if_pos fun r => Nat.add_left_cancel ((hslice r).trans (hslice idx).symm)]
  refine ⟨_, rfl, fun r => ⟨(length_splice (hslice idx) (hle r)).trans (h r).1, fun e he => ?_⟩⟩
  rw [getElem?_splice (hslice idx) (hle r)]
  split
  · next hin =>
    rw [List.getElem?_drop, Nat.add_sub_cancel' hin.1, List.getElem?_take_of_lt hin.2]
    exact (h idx).2 e (Or.inr hin)
  · next hout => exact (h r).2 e (he.imp_left fun hlt => by omega)

/-- **A multicast of tensors of any lengths**: on every rank all of them, one after another. -/
theorem naiveMulticast_eq (hn : 0 < n) (memory : Fin n → Uninitialized V) :
    naiveMulticast memory (fun _ => cumulated xs) xs = some fun _ => (List.ofFn xs).flatten := by
  have hbuffers : ∀ r, ((memory r).empty (List.ofFn xs).flatten.length).length = (List.ofFn xs).flatten.length :=
    fun r => (memory r).length_empty _
  have hcopy : (collect fun r => copySlice ((memory r).empty ((cumulated xs).getLastD 0)) (cuStart (cumulated xs) r)
      (cuEnd (cumulated xs) r) (xs r)) = some fun r =>
        splice ((memory r).empty (List.ofFn xs).flatten.length) (rowsBefore xs r) (rowsBefore xs (r + 1)) (xs r) := by
    refine collect_eq_some.mpr fun r => ?_
    rw [cuStart_cumulated, cuEnd_cumulated, getLastD_cumulated hn]
    exact if_pos ⟨(rowsBefore_succ r).symm, (rowsBefore_le r).trans_eq (hbuffers r).symm⟩
  obtain ⟨bs, hloop, hagrees⟩ := foldlM_finRange (f := fun buffers (idx : Fin n) => VllmAscend.broadcastSlice
    (fun _ => cuStart (cumulated xs) idx) (fun _ => cuEnd (cumulated xs) idx) idx buffers)
    (agrees_copySlice hbuffers) fun idx bs h => by
      rw [cuStart_cumulated, cuEnd_cumulated]
      exact h.broadcastSlice
  rw [naiveMulticast, hcopy, Option.bind_eq_bind, Option.bind_some, hloop]
  refine congrArg some (funext fun r => List.ext_getElem? fun e => ?_)
  obtain ⟨hlength, hall⟩ := hagrees r
  rcases Nat.lt_or_ge e (List.ofFn xs).flatten.length with hlt | hge
  · exact hall e (Or.inl (hlt.trans_eq rowsBefore_all.symm))
  · rw [List.getElem?_eq_none hge, List.getElem?_eq_none (hlength.trans_le hge)]

end Multicast

end VllmAscend
