import VllmAscend.Machinery.FixedBlocks

/-!
# Machinery/Exchange — an exchange of blocks of different lengths

    party r   sorted by destination   │ for 0 │ for 1 │ … │
    party s   receives                │ 0's block │ 1's block │ … │
    and back  party r                 │ for 0 │ for 1 │ … │  again

Every party cuts what it has into one block for each party, by sizes, and joins the blocks it is sent.  The
sizes a party expects have to be those the others send.  Rows that are sorted by destination reach it
(`exchange_groups`), and what is made of them row by row comes back to where the rows were
(`exchange_back`).
-/

namespace Machinery

variable {α β δ : Type}

/-- Consecutive blocks of the given sizes. -/
def splitSizes : List ℕ → List α → List (List α)
  | [], _ => []
  | n :: sizes, xs => xs.take n :: splitSizes sizes (xs.drop n)

/-- **Blocks of the sizes they have.** -/
theorem splitSizes_flatMap (g : δ → List α) : ∀ ds : List δ,
    splitSizes (ds.map fun d => (g d).length) (ds.flatMap g) = ds.map g
  | [] => rfl
  | d :: ds => by
    rw [List.map_cons, List.flatMap_cons, splitSizes, List.take_left, List.drop_left,
      splitSizes_flatMap g ds, List.map_cons]

/-- `all_to_all` with sizes: `none` is an exception, of a party whose sizes are not one for each party, do
not make up its input, or are not those it is sent. -/
def allToAllSizes (inputs : List (List α)) (sendSizes receiveSizes : List (List ℕ)) :
    Option (List (List α)) :=
  let n := inputs.length
  if sendSizes.length = n ∧
      (∀ p ∈ sendSizes.zip inputs, p.1.length = n ∧ p.1.sum = p.2.length) ∧
      receiveSizes = (List.range n).map fun s => sendSizes.map fun sizes => sizes.getD s 0 then
    let blocks := List.zipWith splitSizes sendSizes inputs
    some ((List.range n).map fun s => blocks.flatMap fun row => row.getD s [])
  else none

section Groups

variable (key : δ → ℕ) (its : List (List δ))

/-- How many rows of `row` go to each party. -/
def groupSizes (n : ℕ) (row : List δ) : List ℕ :=
  (List.range n).map fun s => (row.filter (key · = s)).length

/-- The rows of everyone for party `s`. -/
def destined (s : ℕ) : List δ := its.flatMap fun row => row.filter (key · = s)

/-- How many of them each party has. -/
def destinedSizes (s : ℕ) : List ℕ := its.map fun row => (row.filter (key · = s)).length

variable {key its}

theorem getD_groupSizes {n s : ℕ} (hs : s < n) (row : List δ) :
    (groupSizes key n row).getD s 0 = (row.filter (key · = s)).length := by
  rw [groupSizes, List.getD_eq_getElem?_getD, List.getElem?_map, List.getElem?_range hs]
  rfl

/-- A sorted row is cut into its groups. -/
theorem splitSizes_groupSizes (x : δ → α) {n : ℕ} {row : List δ}
    (hsorted : row.Pairwise fun a b => key a ≤ key b) (hlt : ∀ d ∈ row, key d < n) :
    splitSizes (groupSizes key n row) (row.map x) =
      (List.range n).map fun s => (row.filter (key · = s)).map x := by
  have hsplit := splitSizes_flatMap (fun s => (row.filter (key · = s)).map x) (List.range n)
  rw [← List.map_flatMap, ← eq_groups_of_sorted key hsorted hlt] at hsplit
  simp only [List.length_map] at hsplit
  exact hsplit

theorem sum_groupSizes {n : ℕ} {row : List δ} (hsorted : row.Pairwise fun a b => key a ≤ key b)
    (hlt : ∀ d ∈ row, key d < n) : (groupSizes key n row).sum = row.length := by
  have hlength := congrArg List.length (eq_groups_of_sorted key hsorted hlt)
  rw [List.length_flatMap] at hlength
  exact hlength.symm

/-- **The sizes that a party receives** are those the others send it. -/
theorem allToAllSingle_groupSizes {s : ℕ} (hs : s < its.length) :
    allToAllSingle (its.map (groupSizes key its.length)) s = destinedSizes key its s := by
  have hsizes : groupSizes key its.length = fun row => (List.range its.length).flatMap fun s =>
      [(row.filter (key · = s)).length] := by
    funext row
    rw [groupSizes, List.map_eq_flatMap]
  rw [hsizes, allToAllSingle_eq (m := 1) (List.length_range (n := its.length)).symm
    (fun _ _ _ _ => rfl) (List.getElem?_range hs), destinedSizes, List.map_eq_flatMap]

/-- **Rows that are sorted by their destination reach it.** -/
theorem exchange_groups (x : δ → α) (hsorted : ∀ row ∈ its, row.Pairwise fun a b => key a ≤ key b)
    (hlt : ∀ row ∈ its, ∀ d ∈ row, key d < its.length) :
    allToAllSizes (its.map (List.map x)) (its.map (groupSizes key its.length))
        ((List.range its.length).map (destinedSizes key its)) =
      some ((List.range its.length).map fun s => (destined key its s).map x) := by
  have hsizes : ∀ p ∈ (its.map (groupSizes key its.length)).zip (its.map (List.map x)),
      p.1.length = its.length ∧ p.1.sum = p.2.length := by
    intro p hp
    rw [List.zip_map'] at hp
    obtain ⟨row, hrow, rfl⟩ := List.mem_map.mp hp
    exact ⟨by simp [groupSizes],
      by rw [sum_groupSizes (hsorted row hrow) (hlt row hrow), List.length_map]⟩
  have hreceive : (List.range its.length).map (destinedSizes key its) =
      (List.range its.length).map fun s =>
        (its.map (groupSizes key its.length)).map fun sizes => sizes.getD s 0 := by
    refine List.map_congr_left fun s hs => ?_
    rw [destinedSizes, List.map_map]
    exact List.map_congr_left fun row _ => (getD_groupSizes (List.mem_range.mp hs) row).symm
  have hblocks : List.zipWith splitSizes (its.map (groupSizes key its.length))
      (its.map (List.map x)) =
        its.map fun row => (List.range its.length).map fun s => (row.filter (key · = s)).map x := by
    rw [List.zipWith_map, List.zipWith_self]
    exact List.map_congr_left fun row hrow =>
      splitSizes_groupSizes x (hsorted row hrow) (hlt row hrow)
  rw [allToAllSizes]
  simp only [List.length_map]
  rw [if_pos ⟨trivial, hsizes, hreceive⟩, hblocks]
  refine congrArg some (List.map_congr_left fun s hs => ?_)
  rw [List.flatMap_map, destined, List.map_flatMap]
  refine List.flatMap_congr fun row _ => ?_
  rw [List.getD_eq_getElem?_getD, List.getElem?_map, List.getElem?_range (List.mem_range.mp hs)]
  rfl

/-- **What is made of the rows comes back to where they were.** -/
theorem exchange_back (y : δ → β) (hsorted : ∀ row ∈ its, row.Pairwise fun a b => key a ≤ key b)
    (hlt : ∀ row ∈ its, ∀ d ∈ row, key d < its.length) :
    allToAllSizes ((List.range its.length).map fun s => (destined key its s).map y)
        ((List.range its.length).map (destinedSizes key its))
        (its.map (groupSizes key its.length)) =
      some (its.map (List.map y)) := by
  have hsplit : ∀ s, splitSizes (destinedSizes key its s) ((destined key its s).map y) =
      its.map fun row => (row.filter (key · = s)).map y := by
    intro s
    have h := splitSizes_flatMap (fun row => (row.filter (key · = s)).map y) its
    rw [← List.map_flatMap] at h
    simp only [List.length_map] at h
    exact h
  have hsizes : ∀ p ∈ ((List.range its.length).map (destinedSizes key its)).zip
      ((List.range its.length).map fun s => (destined key its s).map y),
      p.1.length = its.length ∧ p.1.sum = p.2.length := by
    intro p hp
    rw [List.zip_map'] at hp
    obtain ⟨s, -, rfl⟩ := List.mem_map.mp hp
    refine ⟨List.length_map _, ?_⟩
    rw [List.length_map, destined, List.length_flatMap]
    rfl
  have hreceive : its.map (groupSizes key its.length) = (List.range its.length).map fun r =>
      ((List.range its.length).map (destinedSizes key its)).map fun sizes => sizes.getD r 0 := by
    refine List.ext_getElem (by simp) fun r hr _ => ?_
    rw [List.length_map] at hr
    rw [List.getElem_map, List.getElem_map, List.getElem_range, List.map_map, groupSizes]
    refine List.map_congr_left fun s _ => ?_
    rw [Function.comp_apply, destinedSizes, List.getD_eq_getElem?_getD, List.getElem?_map,
      List.getElem?_eq_getElem hr]
    rfl
  have hblocks : List.zipWith splitSizes ((List.range its.length).map (destinedSizes key its))
      ((List.range its.length).map fun s => (destined key its s).map y) =
        (List.range its.length).map fun s => its.map fun row => (row.filter (key · = s)).map y := by
    rw [List.zipWith_map, List.zipWith_self]
    exact List.map_congr_left fun s _ => hsplit s
  rw [allToAllSizes]
  simp only [List.length_map, List.length_range]
  rw [if_pos ⟨trivial, hsizes, hreceive⟩, hblocks]
  refine congrArg some (List.ext_getElem (by simp) fun r hr hr' => ?_)
  rw [List.length_map] at hr'
  have hrow := List.getElem_mem hr'
  rw [List.getElem_map, List.getElem_map, List.getElem_range, List.flatMap_map]
  conv_rhs => rw [eq_groups_of_sorted key (hsorted _ hrow) (hlt _ hrow), List.map_flatMap]
  refine List.flatMap_congr fun s _ => ?_
  rw [List.getD_eq_getElem?_getD, List.getElem?_map, List.getElem?_eq_getElem hr']
  rfl

end Groups

/-! ## Blocks column by column -/

theorem splitSizes_map (f : α → β) : ∀ (sizes : List ℕ) (xs : List α),
    splitSizes sizes (xs.map f) = (splitSizes sizes xs).map (List.map f)
  | [], _ => rfl
  | n :: sizes, xs => by
    rw [splitSizes, splitSizes, List.map_cons, ← List.map_take, ← List.map_drop, splitSizes_map f sizes]

theorem flatten_splitSizes : ∀ {sizes : List ℕ} {xs : List α}, sizes.sum = xs.length →
    (splitSizes sizes xs).flatten = xs
  | [], xs, h => (List.eq_nil_of_length_eq_zero h.symm).symm
  | n :: sizes, xs, h => by
    rw [List.sum_cons] at h
    have hrest : sizes.sum = (xs.drop n).length := by
      rw [List.length_drop]
      omega
    rw [splitSizes, List.flatten_cons, flatten_splitSizes hrest, List.take_append_drop]

/-- Blocks of a grid of sizes with `m` columns, that stand row by row: column by column. -/
def byColumn (sizes : List (List ℕ)) (m : ℕ) (xs : List α) : List α :=
  let blocks := splitSizes sizes.flatten xs
  (List.range m).flatMap fun e => (List.range sizes.length).flatMap fun r => blocks.getD (r * m + e) []

theorem byColumn_map (f : α → β) (sizes : List (List ℕ)) (m : ℕ) (xs : List α) :
    byColumn sizes m (xs.map f) = (byColumn sizes m xs).map f := by
  rw [byColumn, byColumn, splitSizes_map, List.map_flatMap]
  refine List.flatMap_congr fun e _ => ?_
  rw [List.map_flatMap]
  refine List.flatMap_congr fun r _ => ?_
  rw [List.getD_eq_getElem?_getD, List.getD_eq_getElem?_getD, List.getElem?_map]
  cases (splitSizes sizes.flatten xs)[r * m + e]? <;> rfl

/-- **Gathering by the indices column by column.** -/
theorem gather_byColumn (sizes : List (List ℕ)) (m : ℕ) (xs : List α) :
    gather xs (byColumn sizes m (arange xs.length)) = some (byColumn sizes m xs) := by
  have hall : (arange xs.length).map (item xs) = xs.map some := by
    refine List.ext_getElem? fun i => ?_
    rw [List.getElem?_map, List.getElem?_map]
    by_cases hi : i < xs.length
    · rw [arange, getElem?_segment 0 hi, List.getElem?_eq_getElem hi, Option.map_some, Option.map_some,
        Int.zero_add, item_natCast, List.getElem?_eq_getElem hi]
    · rw [List.getElem?_eq_none (by simpa using hi), List.getElem?_eq_none (by simpa using hi)]
      rfl
  have hitems : (byColumn sizes m (arange xs.length)).map (item xs) =
      (byColumn sizes m xs).map some := by
    rw [← byColumn_map, hall, byColumn_map]
  calc gather xs (byColumn sizes m (arange xs.length))
      = ((byColumn sizes m (arange xs.length)).map (item xs)).mapM id := by
        rw [gather, List.mapM_map]
        rfl
    _ = ((byColumn sizes m xs).map some).mapM id := by rw [hitems]
    _ = some ((byColumn sizes m xs).map id) := mapM_map_eq_some fun _ _ => rfl
    _ = some (byColumn sizes m xs) := by rw [List.map_id]

/-- Two nested lists one in the other, and the other way round. -/
theorem flatMap_swap_perm {γ : Type} (as : List β) (bs : List γ) (f : β → γ → List α) :
    (as.flatMap fun a => bs.flatMap (f a)).Perm (bs.flatMap fun b => as.flatMap fun a => f a b) := by
  have hswap := Multiset.bind_bind (as : Multiset β) (bs : Multiset γ) (f := fun a b => (f a b : Multiset α))
  simp only [Multiset.coe_bind] at hswap
  exact Multiset.coe_eq_coe.mp hswap

/-- An entry of rows of one length that stand one after the other. -/
theorem getElem?_rows (g : δ → ℕ → α) {m e r : ℕ} {ds : List δ} {d : δ} (he : e < m)
    (hd : ds[r]? = some d) : (ds.flatMap fun d => (List.range m).map (g d))[r * m + e]? = some (g d e) := by
  have hrow := chunk_flatMap (g := fun d => (List.range m).map (g d)) (m := m)
    (fun d _ => by rw [List.length_map, List.length_range]) hd
  have hget := congrArg (fun row => row[e]?) hrow
  simp only [List.getElem?_take, he, if_true, List.getElem?_drop, List.getElem?_map,
    List.getElem?_range, Option.map_some] at hget
  exact hget

theorem range_mul (n m : ℕ) :
    List.range (n * m) = (List.range n).flatMap fun s => (List.range m).map (s * m + ·) := by
  induction n with
  | zero => simp
  | succ n ih =>
    rw [List.range_succ, List.flatMap_append, ← ih, List.flatMap_singleton, Nat.succ_mul, List.range_add]

/-- **Blocks made row by row**, column by column. -/
theorem byColumn_flatMap (g : δ → ℕ → List α) (m : ℕ) (ds : List δ) :
    byColumn (ds.map fun d => (List.range m).map fun e => (g d e).length) m
        (ds.flatMap fun d => (List.range m).flatMap (g d)) =
      (List.range m).flatMap fun e => ds.flatMap fun d => g d e := by
  have hblocks : splitSizes (ds.map fun d => (List.range m).map fun e => (g d e).length).flatten
      (ds.flatMap fun d => (List.range m).flatMap (g d)) =
        ds.flatMap fun d => (List.range m).map (g d) := by
    have h := splitSizes_flatMap (fun p : δ × ℕ => g p.1 p.2)
      (ds.flatMap fun d => (List.range m).map (Prod.mk d))
    simp only [List.map_flatMap, List.map_map, List.flatMap_assoc, List.flatMap_map] at h
    rw [← List.flatMap_def]
    exact h
  rw [byColumn, hblocks, List.length_map]
  refine List.flatMap_congr fun e he => ?_
  rw [List.flatMap_def, List.flatMap_def]
  refine congrArg List.flatten (List.ext_getElem (by simp) fun r hr hr' => ?_)
  rw [List.length_map] at hr'
  have hget := getElem?_rows g (List.mem_range.mp he) (List.getElem?_eq_getElem hr')
  rw [List.getElem_map, List.getElem_map, List.getElem_range, List.getD_eq_getElem?_getD,
    ← List.flatMap_def, hget]
  rfl

theorem flatten_grid {m : ℕ} : ∀ {n : ℕ} {blocks : List (List α)}, blocks.length = n * m →
    ((List.range n).flatMap fun r => (List.range m).flatMap fun e => blocks.getD (r * m + e) []) =
      blocks.flatten
  | 0, blocks, h => by
    rw [Nat.zero_mul] at h
    rw [List.eq_nil_of_length_eq_zero h]
    rfl
  | n + 1, blocks, h => by
    rw [Nat.succ_mul] at h
    have hfirst : ((List.range m).flatMap fun e => blocks.getD (0 * m + e) []) =
        (blocks.take m).flatten := by
      rw [List.flatMap_def]
      refine congrArg List.flatten (List.ext_getElem (by simp; omega) fun e he he' => ?_)
      rw [List.length_map, List.length_range] at he
      rw [List.getElem_map, List.getElem_range, List.getElem_take, Nat.zero_mul, Nat.zero_add,
        List.getD_eq_getElem]
    have hrest : ((List.range n).flatMap fun r => (List.range m).flatMap fun e =>
        blocks.getD ((r + 1) * m + e) []) = (blocks.drop m).flatten := by
      rw [← flatten_grid (n := n) (m := m) (by rw [List.length_drop]; omega)]
      refine List.flatMap_congr fun r _ => List.flatMap_congr fun e _ => ?_
      rw [List.getD_eq_getElem?_getD, List.getD_eq_getElem?_getD, List.getElem?_drop, Nat.succ_mul]
      congr 2
      omega
    rw [List.range_succ_eq_map, List.flatMap_cons, hfirst, List.flatMap_map, hrest, ← List.flatten_append,
      List.take_append_drop]

theorem length_splitSizes : ∀ (sizes : List ℕ) (xs : List α),
    (splitSizes sizes xs).length = sizes.length
  | [], _ => rfl
  | n :: sizes, xs => congrArg (· + 1) (length_splitSizes sizes (xs.drop n))

/-- **Column by column the same entries stand**, in another order. -/
theorem byColumn_perm {sizes : List (List ℕ)} {m : ℕ} {xs : List α}
    (hrows : ∀ row ∈ sizes, row.length = m) (hxs : sizes.flatten.sum = xs.length) :
    (byColumn sizes m xs).Perm xs := by
  have hlength : (splitSizes sizes.flatten xs).length = sizes.length * m := by
    rw [length_splitSizes, List.length_flatten, List.map_congr_left hrows, List.map_const',
      List.sum_replicate, smul_eq_mul]
  have hgrid := flatten_grid hlength
  rw [flatten_splitSizes hxs] at hgrid
  conv_rhs => rw [← hgrid]
  exact flatMap_swap_perm _ _ _

end Machinery
