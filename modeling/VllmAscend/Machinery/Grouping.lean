import VllmAscend.Machinery.Ragged

/-!
# Machinery/Grouping — sorting rows into groups, and adding them back

    keys    2 0 1 0 2         argsort   1 3 2 0 4
    sorted  0 0 | 1 | 2 2     counts    2 1 2

A list sorted by a key is its groups, one after the other (`eq_groups_of_sorted`).  A function for each
group is applied to consecutive rows, as many as the counts say (`groupedMap`), and rows are added up
under an index (`indexAdd`), in whatever order they come.
-/

namespace Machinery

variable {α β : Type}

/-! ## Gathering by a permutation -/

/-- A permutation of the indices that leaves no key after a greater one. -/
structure IsArgsort (lt : α → α → Bool) (keys : List α) (sortIndices : List ℤ) : Prop where
  perm : sortIndices.Perm (arange keys.length)
  sorted : ∀ out, gather keys sortIndices = some out → out.Pairwise fun a b => lt b a = false

theorem mapM_perm {f : α → Option β} {xs ys : List α} (h : xs.Perm ys) :
    ∀ {out : List β}, ys.mapM f = some out → ∃ out', xs.mapM f = some out' ∧ out'.Perm out := by
  induction h with
  | nil => exact fun hout => ⟨_, hout, .refl _⟩
  | cons x _ ih =>
    intro out hout
    rw [List.mapM_cons, Option.bind_eq_bind, Option.bind_eq_some_iff] at hout
    obtain ⟨y, hy, hout⟩ := hout
    rw [Option.bind_eq_bind, Option.bind_eq_some_iff] at hout
    obtain ⟨tail, htail, hout⟩ := hout
    cases hout
    obtain ⟨tail', htail', hperm⟩ := ih htail
    exact ⟨y :: tail', by rw [List.mapM_cons, hy, htail']; rfl, hperm.cons y⟩
  | swap x x' l =>
    intro out hout
    rw [List.mapM_cons, List.mapM_cons] at hout
    cases hx : f x with
    | none => simp [hx] at hout
    | some y =>
      cases hx' : f x' with
      | none => simp [hx, hx'] at hout
      | some y' =>
        cases htail : l.mapM f with
        | none => simp [hx, hx', htail] at hout
        | some tail =>
          obtain rfl : y :: y' :: tail = out := by simpa [hx, hx', htail] using hout
          refine ⟨y' :: y :: tail, ?_, .swap y y' tail⟩
          rw [List.mapM_cons, List.mapM_cons, hx, hx', htail]
          rfl
  | trans _ _ ih₁ ih₂ =>
    intro out hout
    obtain ⟨out', hout', hperm'⟩ := ih₂ hout
    obtain ⟨out'', hout'', hperm''⟩ := ih₁ hout'
    exact ⟨out'', hout'', hperm''.trans hperm'⟩

theorem gather_arange (xs : List α) : gather xs (arange xs.length) = some xs := by
  have hall := gather_segment [] xs [] le_rfl
  rwa [List.nil_append, List.append_nil, List.take_length, List.length_nil] at hall

/-- **Gathering by a permutation permutes**, every tensor of the length in the same way. -/
theorem gather_perm {xs : List α} {sortIndices : List ℤ}
    (h : sortIndices.Perm (arange xs.length)) :
    ∃ out, gather xs sortIndices = some out ∧ out.Perm xs :=
  mapM_perm h (gather_arange xs)

theorem getElem?_of_mapM {f : α → Option β} : ∀ {xs : List α} {ys : List β}, xs.mapM f = some ys →
    ys.length = xs.length ∧ ∀ i : ℕ, ys[i]? = xs[i]?.bind f
  | [], ys, h => by
    cases h
    exact ⟨rfl, fun _ => rfl⟩
  | x :: xs, ys, h => by
    rw [List.mapM_cons, Option.bind_eq_bind, Option.bind_eq_some_iff] at h
    obtain ⟨y, hy, h⟩ := h
    rw [Option.bind_eq_bind, Option.bind_eq_some_iff] at h
    obtain ⟨tail, htail, h⟩ := h
    cases h
    obtain ⟨hlen, hget⟩ := getElem?_of_mapM htail
    refine ⟨congrArg (· + 1) hlen, fun i => ?_⟩
    cases i with
    | zero => exact hy.symm
    | succ i => exact hget i

theorem mapM_bind {γ : Type} {f : α → Option β} {g : β → Option γ} : ∀ {xs : List α} {ys : List β},
    xs.mapM f = some ys → xs.mapM (fun x => (f x).bind g) = ys.mapM g
  | [], ys, h => by
    cases h
    rfl
  | x :: xs, ys, h => by
    rw [List.mapM_cons, Option.bind_eq_bind, Option.bind_eq_some_iff] at h
    obtain ⟨y, hy, h⟩ := h
    rw [Option.bind_eq_bind, Option.bind_eq_some_iff] at h
    obtain ⟨tail, htail, h⟩ := h
    cases h
    rw [List.mapM_cons, List.mapM_cons, hy, mapM_bind htail]
    rfl

/-- **Gathering twice is gathering once**, by the gathered indices. -/
theorem gather_gather {xs ys : List α} {p q out : List ℤ} (hys : gather xs p = some ys)
    (hout : gather p q = some out) : gather ys q = gather xs out := by
  obtain ⟨hlen, hget⟩ := getElem?_of_mapM hys
  have hitem : item ys = fun i => (item p i).bind (item xs) := by
    funext i
    rw [item, item, hlen]
    cases place p.length i with
    | none => rfl
    | some j => exact hget j
  rw [gather, hitem]
  exact mapM_bind hout

theorem pairwise_arange (n : ℕ) : (arange n).Pairwise (· ≤ ·) := by
  rw [arange, segment, List.pairwise_map]
  exact List.pairwise_lt_range.imp fun h => by omega

/-- **The sort of a sort undoes it.** -/
theorem gather_argsort_argsort {κ : Type} {lt : κ → κ → Bool} {key : ℤ → κ} {xs ys : List α} {p q : List ℤ}
    (hp : p.Perm (arange xs.length)) (hys : gather xs p = some ys)
    (hlt : ∀ i ∈ p, ∀ j ∈ p, lt (key i) (key j) = decide (i < j))
    (hq : IsArgsort lt (p.map key) q) : gather ys q = some xs := by
  have hindices : q.Perm (arange p.length) := by
    have hperm := hq.perm
    rwa [List.length_map] at hperm
  obtain ⟨out, hout, hperm⟩ := gather_perm hindices
  have hsorted : out.Pairwise (· ≤ ·) := by
    have hkeys := hq.sorted (out.map key) (by rw [gather_map, hout]; rfl)
    rw [List.pairwise_map] at hkeys
    refine hkeys.imp_of_mem fun ha hb hfalse => ?_
    rw [hlt _ (hperm.mem_iff.mp hb) _ (hperm.mem_iff.mp ha), decide_eq_false_iff_not] at hfalse
    exact not_lt.mp hfalse
  have heq : out = arange xs.length :=
    (hperm.trans hp).eq_of_pairwise (fun a b _ _ => le_antisymm) hsorted (pairwise_arange _)
  rw [gather_gather hys hout, heq, gather_arange]

/-- An index in the range stands at itself. -/
theorem mem_arange {n : ℕ} {i : ℤ} : i ∈ arange n ↔ 0 ≤ i ∧ i < n := by
  rw [arange, segment, List.mem_map]
  constructor
  · rintro ⟨j, hj, rfl⟩
    have hlt := List.mem_range.mp hj
    omega
  · rintro ⟨hlow, hhigh⟩
    exact ⟨i.toNat, List.mem_range.mpr (by omega), by omega⟩

/-- Indices in the range name what stands there. -/
theorem gather_of_mem {xs : List α} {p : List ℤ} {g : ℤ → α} (hp : ∀ i ∈ p, i ∈ arange xs.length)
    (hg : ∀ j : ℕ, ∀ x, xs[j]? = some x → g j = x) : gather xs p = some (p.map g) := by
  have hitems := mapM_map_eq_some (f := item xs) (c := id) (g := g) (l := p) fun i hi => by
    obtain ⟨hlow, hhigh⟩ := mem_arange.mp (hp i hi)
    lift i to ℕ using hlow
    have hget := List.getElem?_eq_getElem (Int.ofNat_lt.mp hhigh)
    rw [id, item_natCast, hg i _ hget, hget]
  rwa [List.map_id] at hitems

/-- Gathering from the range returns the indices. -/
theorem gather_range {n : ℕ} {p : List ℤ} (hp : p.Perm (arange n)) : gather (arange n) p = some p := by
  have hgather := gather_of_mem (g := id)
    (fun i hi => by rw [length_arange]; exact hp.mem_iff.mp hi) fun j x hx => by
      have hlt := (List.getElem?_eq_some_iff.mp hx).1
      rw [length_arange] at hlt
      rw [arange, getElem?_segment 0 hlt, Option.some.injEq] at hx
      rw [id, ← hx, Int.zero_add]
  rwa [List.map_id] at hgather

/-- **There is a sort** of any keys. -/
theorem exists_isArgsort (keys : List ℤ) : ∃ p, IsArgsort (fun a b : ℤ => decide (a < b)) keys p := by
  set key : ℤ → ℤ := fun i => keys.getD i.toNat 0 with hkey
  set p := (arange keys.length).mergeSort (fun i j => decide (key i ≤ key j)) with hp
  have hperm : p.Perm (arange keys.length) := List.mergeSort_perm _ _
  have hgather : gather keys p = some (p.map key) :=
    gather_of_mem (fun i hi => hperm.mem_iff.mp hi) fun j x hx => by
      rw [hkey]
      simp only [Int.toNat_natCast, List.getD_eq_getElem?_getD, hx, Option.getD_some]
  refine ⟨p, hperm, fun out hout => ?_⟩
  have hsorted := @List.pairwise_mergeSort _ (fun i j => decide (key i ≤ key j))
    (fun a b c hab hbc => decide_eq_true ((of_decide_eq_true hab).trans (of_decide_eq_true hbc)))
    (fun a b => by
      obtain hab | hba := le_total (key a) (key b)
      · rw [decide_eq_true hab, Bool.true_or]
      · rw [decide_eq_true hba, Bool.or_true]) (arange keys.length)
  rw [hgather] at hout
  cases hout
  rw [List.pairwise_map]
  exact hsorted.imp fun hle => decide_eq_false (not_lt.mpr (of_decide_eq_true hle))

/-- Writing keeps the length. -/
theorem length_scatter {idx : List ℤ} {vals xs ys : List α} (h : scatter xs idx vals = some ys) :
    ys.length = xs.length := by
  have hfold : ∀ {es : List (ℤ × α)} {xs : List α}, es.foldlM (fun xs e => setItem xs e.1 e.2) xs = some ys →
      ys.length = xs.length := by
    intro es
    induction es with
    | nil =>
      rintro xs ⟨⟩
      rfl
    | cons e es ih =>
      intro xs hes
      rw [List.foldlM_cons, Option.bind_eq_bind, Option.bind_eq_some_iff] at hes
      obtain ⟨xs', hset, hes⟩ := hes
      rw [setItem, modifyItem] at hset
      simp only [Option.bind_eq_bind, Option.bind_eq_some_iff, Option.bind_some, Option.pure_def] at hset
      obtain ⟨j, -, x, -, heq⟩ := hset
      cases heq
      rw [ih hes, List.length_set]
  rw [scatter] at h
  split at h
  · exact hfold h
  · cases h

/-! ## Groups -/

theorem eq_filter_append_of_sorted (key : α → ℕ) (n : ℕ) : ∀ {xs : List α},
    xs.Pairwise (fun a b => key a ≤ key b) →
      xs = xs.filter (key · < n) ++ xs.filter (n ≤ key ·)
  | [], _ => rfl
  | x :: xs, h => by
    obtain ⟨hhead, htail⟩ := List.pairwise_cons.mp h
    by_cases hx : key x < n
    · have ih := eq_filter_append_of_sorted key n htail
      rw [List.filter_cons_of_pos (by simpa using hx),
        List.filter_cons_of_neg (by simpa using hx), List.cons_append, ← ih]
    · have hlow : (x :: xs).filter (key · < n) = [] := List.filter_eq_nil_iff.mpr fun y hy => by
        obtain rfl | hy := List.mem_cons.mp hy
        · simpa using hx
        · have := hhead y hy
          simp only [decide_eq_true_eq]
          omega
      have hhigh : (x :: xs).filter (n ≤ key ·) = x :: xs := List.filter_eq_self.mpr fun y hy => by
        obtain rfl | hy := List.mem_cons.mp hy
        · simpa using hx
        · have := hhead y hy
          simp only [decide_eq_true_eq]
          omega
      rw [hlow, hhigh, List.nil_append]

/-- **A sorted list is its groups one after the other.** -/
theorem eq_groups_of_sorted (key : α → ℕ) : ∀ {n : ℕ} {xs : List α},
    xs.Pairwise (fun a b => key a ≤ key b) → (∀ x ∈ xs, key x < n) →
      xs = (List.range n).flatMap fun e => xs.filter (key · = e)
  | 0, xs, _, hlt => by
    rw [List.eq_nil_iff_forall_not_mem.mpr fun x hx => absurd (hlt x hx) (Nat.not_lt_zero _)]
    rfl
  | n + 1, xs, hsorted, hlt => by
    have hlow := eq_groups_of_sorted key (n := n) (hsorted.filter fun x => decide (key x < n))
      fun x hx => of_decide_eq_true (List.mem_filter.mp hx).2
    have hgroups : ∀ e ∈ List.range n,
        (xs.filter (key · < n)).filter (key · = e) = xs.filter (key · = e) := by
      intro e he
      rw [List.filter_filter]
      refine List.filter_congr fun x _ => ?_
      have hen := List.mem_range.mp he
      rw [← Bool.decide_and, decide_eq_decide]
      omega
    have hlast : xs.filter (n ≤ key ·) = xs.filter (key · = n) := by
      refine List.filter_congr fun x hx => ?_
      have := hlt x hx
      rw [decide_eq_decide]
      omega
    rw [List.range_succ, List.flatMap_append, ← List.flatMap_congr hgroups, ← hlow,
      List.flatMap_singleton, ← hlast]
    exact eq_filter_append_of_sorted key n hsorted

/-- `f e` on the rows of group `e`: the first `counts[0]` rows are group `s`, and so on. -/
def groupedMap (f : ℕ → α → β) : ℕ → List ℕ → List α → List β
  | _, [], _ => []
  | s, c :: counts, rows => (rows.take c).map (f s) ++ groupedMap f (s + 1) counts (rows.drop c)

/-- **Groups laid out one after the other** are mapped group by group. -/
theorem groupedMap_groups (f : ℕ → α → β) (group : ℕ → List α) (rest : List α) : ∀ n s : ℕ,
    groupedMap f s ((List.range' s n).map fun e => (group e).length)
        ((List.range' s n).flatMap group ++ rest) =
      (List.range' s n).flatMap fun e => (group e).map (f e)
  | 0, s => rfl
  | n + 1, s => by
    have htail := groupedMap_groups f group rest n (s + 1)
    rw [List.range'_succ, List.map_cons, List.flatMap_cons, List.flatMap_cons, groupedMap,
      List.append_assoc, List.take_left, List.drop_left, htail]

theorem groupedMap_zeros (f : ℕ → α → β) (counts : List ℕ) (rows : List α) : ∀ n s : ℕ,
    groupedMap f s (List.replicate n 0 ++ counts) rows = groupedMap f (s + n) counts rows
  | 0, s => rfl
  | n + 1, s => by
    rw [List.replicate_succ, List.cons_append, groupedMap, List.take_zero, List.map_nil,
      List.nil_append, List.drop_zero, groupedMap_zeros f counts rows n (s + 1), Nat.add_assoc,
      Nat.add_comm 1 n]

/-- An output of the grouped matrix products: right on the rows of the groups, anything behind them. -/
def IsGroupedOutput (f : ℕ → α → β) (counts : List ℕ) (rows : List α) (out : List β) : Prop :=
  out.length = rows.length ∧ groupedMap f 0 counts rows <+: out

theorem length_groupedMap_le (f : ℕ → α → β) : ∀ (s : ℕ) (counts : List ℕ) (rows : List α),
    (groupedMap f s counts rows).length ≤ rows.length
  | _, [], _ => Nat.zero_le _
  | s, c :: counts, rows => by
    have htail := length_groupedMap_le f (s + 1) counts (rows.drop c)
    rw [List.length_drop] at htail
    rw [groupedMap, List.length_append, List.length_map, List.length_take]
    omega

theorem exists_isGroupedOutput [Inhabited β] (f : ℕ → α → β) (counts : List ℕ) (rows : List α) :
    ∃ out, IsGroupedOutput f counts rows out := by
  have hle := length_groupedMap_le f 0 counts rows
  refine ⟨groupedMap f 0 counts rows ++
    List.replicate (rows.length - (groupedMap f 0 counts rows).length) default, ?_, _, rfl⟩
  rw [List.length_append, List.length_replicate]
  omega

/-- **What the grouped products return for sorted rows**: each row of a group goes through the function
of its group, and the rows behind the groups may become anything. -/
theorem IsGroupedOutput.eq_append {δ : Type} {key : δ → ℕ} {x : δ → α} {f : ℕ → α → β} {n : ℕ}
    {ps : List δ} {out : List β} (hsorted : ps.Pairwise fun a b => key a ≤ key b)
    (hout : IsGroupedOutput f ((List.range n).map fun e => (ps.filter (key · = e)).length) (ps.map x)
      out) :
    ∃ rest, out = (ps.filter (key · < n)).map (fun p => f (key p) (x p)) ++ rest ∧
      rest.length = (ps.filter (n ≤ key ·)).length := by
  obtain ⟨hlen, rest, rfl⟩ := hout
  have hsplit := eq_filter_append_of_sorted key n hsorted
  -- the rows in front are the groups
  have hgroups : ps.filter (key · < n) =
      (List.range n).flatMap fun e => ps.filter (key · = e) := by
    rw [eq_groups_of_sorted key (n := n) (hsorted.filter fun p => decide (key p < n))
      fun p hp => of_decide_eq_true (List.mem_filter.mp hp).2]
    refine List.flatMap_congr fun e he => ?_
    rw [List.filter_filter]
    refine List.filter_congr fun p _ => ?_
    have hen := List.mem_range.mp he
    rw [← Bool.decide_and, decide_eq_decide]
    omega
  have hrows : ps.map x = (List.range' 0 n).flatMap (fun e => (ps.filter (key · = e)).map x) ++
      (ps.filter (n ≤ key ·)).map x := by
    conv_lhs => rw [hsplit, List.map_append, hgroups, List.map_flatMap]
    rw [List.range_eq_range']
  have hmapped : groupedMap f 0 ((List.range n).map fun e => (ps.filter (key · = e)).length)
      (ps.map x) = (ps.filter (key · < n)).map fun p => f (key p) (x p) := by
    have hmap := groupedMap_groups f (fun e => (ps.filter (key · = e)).map x)
      ((ps.filter (n ≤ key ·)).map x) n 0
    rw [← hrows, ← List.range_eq_range'] at hmap
    simp only [List.length_map] at hmap
    rw [hmap, hgroups, List.map_flatMap]
    refine List.flatMap_congr fun e _ => ?_
    rw [List.map_map]
    refine List.map_congr_left fun p hp => ?_
    have hkey : key p = e := of_decide_eq_true (List.mem_filter.mp hp).2
    rw [Function.comp_apply, hkey]
  refine ⟨rest, by rw [hmapped], ?_⟩
  have htotal := congrArg List.length hsplit
  rw [hmapped, List.length_append, List.length_map, List.length_map] at hlen
  rw [List.length_append] at htotal
  omega

/-- When every row is in a group, nothing is behind them. -/
theorem IsGroupedOutput.eq_map {δ : Type} {key : δ → ℕ} {x : δ → α} {f : ℕ → α → β} {n : ℕ}
    {ps : List δ} {out : List β} (hsorted : ps.Pairwise fun a b => key a ≤ key b)
    (hlt : ∀ p ∈ ps, key p < n)
    (hout : IsGroupedOutput f ((List.range n).map fun e => (ps.filter (key · = e)).length) (ps.map x)
      out) : out = ps.map fun p => f (key p) (x p) := by
  obtain ⟨rest, rfl, hrest⟩ := hout.eq_append hsorted
  have hall : ps.filter (key · < n) = ps :=
    List.filter_eq_self.mpr fun p hp => decide_eq_true (hlt p hp)
  have hnone : ps.filter (n ≤ key ·) = [] := List.filter_eq_nil_iff.mpr fun p hp => by
    have := hlt p hp
    rw [decide_eq_true_eq]
    omega
  rw [hnone] at hrest
  rw [hall, List.eq_nil_of_length_eq_zero hrest, List.append_nil]

/-- **Weighted, the rows behind the groups disappear** when their weights are zero. -/
theorem IsGroupedOutput.weighted {δ R : Type} [MonoidWithZero R] [AddMonoid β] [MulActionWithZero R β]
    {key : δ → ℕ} {x : δ → α} {w : δ → R} {f : ℕ → α → β} {n : ℕ} {ps : List δ} {out : List β}
    (hsorted : ps.Pairwise fun a b => key a ≤ key b) (hzero : ∀ p ∈ ps, n ≤ key p → w p = 0)
    (hout : IsGroupedOutput f ((List.range n).map fun e => (ps.filter (key · = e)).length) (ps.map x)
      out) :
    List.zipWith (fun row w => w • row) out (ps.map w) =
      ps.map fun p => if key p < n then w p • f (key p) (x p) else 0 := by
  obtain ⟨rest, rfl, hrest⟩ := hout.eq_append hsorted
  have hsplit := eq_filter_append_of_sorted key n hsorted
  have hlow : ∀ p ∈ ps.filter (key · < n), key p < n := fun p hp =>
    of_decide_eq_true (List.mem_filter.mp hp).2
  have hhigh : ∀ p ∈ ps.filter (n ≤ key ·), n ≤ key p ∧ w p = 0 := fun p hp =>
    have hkey := of_decide_eq_true (List.mem_filter.mp hp).2
    ⟨hkey, hzero p (List.mem_filter.mp hp).1 hkey⟩
  generalize ps.filter (key · < n) = low at *
  generalize ps.filter (n ≤ key ·) = high at *
  rw [hsplit, List.map_append, List.map_append, List.zipWith_append (by simp)]
  refine congrArg₂ (· ++ ·) ?_ ?_
  · rw [List.zipWith_map_left, List.zipWith_map_right, List.zipWith_self]
    exact List.map_congr_left fun p hp => (if_pos (hlow p hp)).symm
  · refine List.ext_getElem (by simp [hrest]) fun j hj hj' => ?_
    have hmem := List.getElem_mem (l := high) (n := j) (by simpa using hj')
    simp [(hhigh _ hmem).2, not_lt.mpr (hhigh _ hmem).1]

/-- The entries of one row of a batch. -/
theorem filter_tagged {γ : Type} : ∀ {rows : List (List γ)} {k t : ℕ} {row : List γ},
    rows[t]? = some row → (tagged k rows).filter (·.1 = k + t) = row.map (k + t, ·)
  | row :: rows, k, 0, row', h => by
    cases h
    have hother : (tagged (k + 1) rows).filter (·.1 = k + 0) = [] :=
      List.filter_eq_nil_iff.mpr fun e he => by
        obtain ⟨j, -, hj, -, -⟩ := mem_tagged (r := e.1) (x := e.2) he
        rw [decide_eq_true_eq]
        omega
    rw [tagged, List.filter_append, hother, List.append_nil]
    refine List.filter_eq_self.mpr fun e he => ?_
    obtain ⟨x, -, rfl⟩ := List.mem_map.mp he
    exact decide_eq_true rfl
  | row :: rows, k, t + 1, row', h => by
    have hrest : rows[t]? = some row' := h
    have ih := filter_tagged (k := k + 1) hrest
    have hown : (row.map (k, ·)).filter (·.1 = k + (t + 1)) = [] :=
      List.filter_eq_nil_iff.mpr fun e he => by
        obtain ⟨x, -, rfl⟩ := List.mem_map.mp he
        simp
    rw [Nat.add_right_comm, Nat.add_assoc] at ih
    rw [tagged, List.filter_append, hown, List.nil_append, ih]

/-! ## Adding rows under an index -/

section IndexAdd

variable [AddCommMonoid β]

/-- `xs.index_add_(0, idx, rows)` -/
def indexAdd (xs : List β) (idx : List ℤ) (rows : List β) : Option (List β) :=
  if idx.length = rows.length then
    (idx.zip rows).foldlM (fun xs e => modifyItem (fun x => some (x + e.2)) xs e.1) xs
  else none

/-- The sum of the rows with index `t`. -/
def sumAt (es : List (ℕ × β)) (t : ℕ) : β := ((es.filter (·.1 = t)).map Prod.snd).sum

theorem sumAt_cons (e : ℕ × β) (es : List (ℕ × β)) (t : ℕ) :
    sumAt (e :: es) t = if e.1 = t then e.2 + sumAt es t else sumAt es t := by
  unfold sumAt
  by_cases h : e.1 = t <;> simp [h]

/-- **The order of the rows does not matter.** -/
theorem sumAt_perm {es es' : List (ℕ × β)} (h : es.Perm es') : sumAt es = sumAt es' :=
  funext fun _ => ((h.filter _).map _).sum_eq

/-- **Each entry gets the rows of its index.** -/
theorem indexAdd_eq : ∀ {es : List (ℕ × β)} {xs : List β}, (∀ e ∈ es, e.1 < xs.length) →
    indexAdd xs (es.map fun e => (e.1 : ℤ)) (es.map Prod.snd) =
      some (xs.mapIdx fun t x => x + sumAt es t)
  | [], xs, _ => by
    have hsame : (xs.mapIdx fun _ x => x) = xs := List.ext_getElem? fun t => by simp
    simp [indexAdd, sumAt, hsame]
  | e :: es, xs, h => by
    obtain ⟨x, hx⟩ : ∃ x, xs[e.1]? = some x := ⟨_, List.getElem?_eq_getElem (h e (.head _))⟩
    have htail := @indexAdd_eq es (xs.set e.1 (x + e.2)) fun e' he' => by
      rw [List.length_set]
      exact h e' (.tail _ he')
    rw [indexAdd, if_pos (by simp)] at htail ⊢
    rw [List.map_cons, List.map_cons, List.zip_cons_cons, List.foldlM_cons,
      modifyItem_natCast _ hx, Option.map_some, Option.bind_eq_bind, Option.bind_some, htail,
      Option.some.injEq]
    refine List.ext_getElem? fun t => ?_
    simp only [List.getElem?_mapIdx, List.getElem?_set, sumAt_cons]
    split
    · next ht =>
      subst ht
      rw [if_pos (h e (.head _)), hx, Option.map_some, Option.map_some, add_assoc]
    · rfl

/-- The rows of a ragged batch, added up row by row. -/
theorem sumAt_tagged {γ : Type} (g : ℕ × γ → β) {rows : List (List γ)} {k t : ℕ} {row : List γ}
    (h : rows[t]? = some row) :
    sumAt ((tagged k rows).map fun e => (e.1, g e)) (k + t) = (row.map fun x => g (k + t, x)).sum := by
  rw [sumAt, List.filter_map]
  simp only [Function.comp_def]
  rw [filter_tagged h, List.map_map, List.map_map]
  rfl

end IndexAdd

end Machinery
