import VllmAscend.Distributed.MooncakeTransfer

/-!
# Distributed/ContiguousGroups — the groups of `group_concurrent_contiguous` read the blocks in order

    remote   4 5 6 │ 9 10          local   1 2 3 │ 7 8
    group           (4, 1) and the two after it, (9, 7) and the one after it

A group is read from its first two blocks on.  As long as no group is empty, and there are no more
local blocks than remote ones, that reads the `j`-th remote block into the `j`-th local one: where
one of the lists goes on with another number than the next, a new group starts.
-/

namespace VllmAscend

/-- The blocks read for a group: the remote ones and where they go, from the first two on. -/
def blocksRead (group : List BlockId × List BlockId) : List (BlockId × BlockId) :=
  (List.range group.2.length).map fun i => (group.1.headD 0 + i, group.2.headD 0 + i)

/-- The element after place `q` is the next number. -/
def Follows (xs : List ℕ) (q : ℕ) : Prop := ∀ x y, xs[q]? = some x → xs[q + 1]? = some y → y = x + 1

variable {xs ys remote dest : List ℕ} {n q start : ℕ}

theorem Follows.take (h : Follows xs q) : Follows (xs.take n) q := by
  intro x y hx hy
  rw [List.getElem?_take] at hx hy
  split_ifs at hx hy
  exact h x y hx hy

theorem Follows.drop (h : Follows xs (n + q)) : Follows (xs.drop n) q := by
  intro x y hx hy
  rw [List.getElem?_drop] at hx hy
  exact h x y hx hy

theorem getElem?_of_follows (hfollows : ∀ q, q + 1 < n → Follows xs q) (hn : n ≤ xs.length) :
    ∀ i < n, xs[i]? = some (xs.headD 0 + i) := by
  intro i hi
  induction i with
  | zero =>
    obtain _ | ⟨x, xs⟩ := xs
    · simp only [List.length_nil] at hn
      omega
    · rfl
  | succ i ih =>
    have hnext : xs[i + 1]? = some xs[i + 1] := List.getElem?_eq_getElem (by omega)
    have heq := hfollows i hi _ _ (ih (by omega)) hnext
    rw [hnext, heq, Nat.add_assoc]

/-- **A group without a break** is read pair by pair. -/
theorem blocksRead_eq_zip (hle : dest.length ≤ remote.length)
    (hfollows : ∀ q, q + 1 < dest.length → Follows remote q ∧ Follows dest q) :
    blocksRead (remote, dest) = remote.zip dest := by
  have hremote := getElem?_of_follows (fun q hq => (hfollows q hq).1) hle
  have hdest := getElem?_of_follows (fun q hq => (hfollows q hq).2) le_rfl
  refine List.ext_getElem? fun i => ?_
  by_cases hi : i < dest.length
  · have hrange : (List.range dest.length)[i]? = some i := List.getElem?_range hi
    have hzip : (remote.zip dest)[i]? = some (remote.headD 0 + i, dest.headD 0 + i) :=
      List.getElem?_zip_eq_some.mpr ⟨hremote i hi, hdest i hi⟩
    rw [blocksRead, List.getElem?_map, hrange, hzip]
    rfl
  · rw [List.getElem?_eq_none (by simp only [blocksRead, List.length_map, List.length_range]; omega),
      List.getElem?_eq_none (by rw [List.length_zip]; omega)]

/-- There is a first group, and it is empty for an empty list. -/
theorem exists_split_cons (xs brk : List ℕ) (start : ℕ) :
    ∃ group groups, split xs brk start = group :: groups ∧ (xs = [] → group = []) := by
  cases brk with
  | nil => exact ⟨xs, [], rfl, id⟩
  | cons b brk => exact ⟨_, _, rfl, fun h => by rw [h, List.take_nil]⟩

/-- **The groups of two lists split at the same places** are read pair by pair, if a group starts
wherever a list does not go on with the next number. -/
theorem flatMap_blocksRead_split (brk : List ℕ) (start : ℕ) (remote dest : List ℕ)
    (hsorted : (start :: brk).Pairwise (· < ·)) (hle : dest.length ≤ remote.length)
    (hfollows : ∀ q, q + 1 < dest.length → start + q + 1 ∉ brk → Follows remote q ∧ Follows dest q)
    (hne : ∀ group ∈ (split remote brk start).zip (split dest brk start),
      group.1 ≠ [] ∧ group.2 ≠ []) :
    ((split remote brk start).zip (split dest brk start)).flatMap blocksRead = remote.zip dest := by
  induction brk generalizing start remote dest with
  | nil =>
    simp only [split, List.zip_cons_cons, List.zip_nil_right, List.flatMap_cons, List.flatMap_nil,
      List.append_nil]
    exact blocksRead_eq_zip hle fun q hq => hfollows q hq List.not_mem_nil
  | cons b brk ih =>
    rw [List.pairwise_cons] at hsorted
    obtain ⟨hstart, hsorted⟩ := hsorted
    have hb : start < b := hstart b List.mem_cons_self
    have hlater : ∀ b' ∈ brk, b < b' := (List.pairwise_cons.mp hsorted).1
    simp only [split, List.zip_cons_cons, List.flatMap_cons, List.forall_mem_cons] at hne ⊢
    -- the next group is not empty, so the lists go on
    have hlt : b - start < dest.length := by
      by_contra hge
      obtain ⟨g, gs, hg, _⟩ := exists_split_cons (remote.drop (b - start)) brk b
      obtain ⟨g', gs', hg', hempty⟩ := exists_split_cons (dest.drop (b - start)) brk b
      have hnone : g' = [] := hempty (List.drop_eq_nil_of_le (not_lt.mp hge))
      rw [hg, hg', List.zip_cons_cons] at hne
      exact (hne.2 (g, g') List.mem_cons_self).2 hnone
    have hgroup : blocksRead (remote.take (b - start), dest.take (b - start)) =
        (remote.take (b - start)).zip (dest.take (b - start)) := by
      refine blocksRead_eq_zip (by simp only [List.length_take]; omega) fun q hq => ?_
      rw [List.length_take] at hq
      have hnot : start + q + 1 ∉ b :: brk := by
        rw [List.mem_cons, not_or]
        refine ⟨by omega, fun hmem => ?_⟩
        have := hlater _ hmem
        omega
      obtain ⟨hr, hd⟩ := hfollows q (by omega) hnot
      exact ⟨hr.take, hd.take⟩
    have hrest := ih b (remote.drop (b - start)) (dest.drop (b - start)) hsorted
      (by simp only [List.length_drop]; omega) (fun q hq hnot => ?_) hne.2
    · rw [hgroup, hrest, ← List.zip_append (by simp only [List.length_take]; omega),
        List.take_append_drop, List.take_append_drop]
    · rw [List.length_drop] at hq
      have hnot' : start + (b - start + q) + 1 ∉ b :: brk := by
        rw [List.mem_cons, not_or]
        refine ⟨by omega, fun hmem => hnot ?_⟩
        rwa [show start + (b - start + q) + 1 = b + q + 1 by omega] at hmem
      obtain ⟨hr, hd⟩ := hfollows (b - start + q) (by omega) hnot'
      exact ⟨hr.drop, hd.drop⟩

/-! ## Where a group starts -/

theorem length_diff (xs : List ℕ) : (diff xs).length = xs.length - 1 := by
  rw [diff, List.length_zipWith, List.length_tail]
  omega

theorem getElem?_diff {x y : ℕ} (hx : xs[q]? = some x) (hy : xs[q + 1]? = some y) :
    (diff xs)[q]? = some ((y : ℤ) - x) := by
  rw [diff, List.getElem?_zipWith, List.getElem?_tail, hy, hx]

/-- Two arrays broadcast where the second is not longer: place by place. -/
theorem getElem?_broadcast {f : ℤ → ℤ → Bool} {as bs : List ℤ} {cs : List Bool}
    (h : broadcast f as bs = some cs) (hle : bs.length ≤ as.length) {a b : ℤ}
    (ha : as[q]? = some a) (hb : bs[q]? = some b) : cs[q]? = some (f a b) := by
  unfold broadcast at h
  split_ifs at h with hlen
  · cases h
    rw [List.getElem?_zipWith, ha, hb]
  · obtain _ | ⟨b', _ | ⟨b'', bs⟩⟩ := bs
    · simp at hb
    · -- one repeated
      obtain _ | ⟨a', _ | ⟨a'', as⟩⟩ := as
      · simp at ha
      · simp at hlen
      · cases h
        have hq : q = 0 := by
          by_contra hne
          obtain ⟨k, rfl⟩ := Nat.exists_eq_succ_of_ne_zero hne
          simp at hb
        subst hq
        simp only [List.getElem?_cons_zero, Option.some.injEq] at ha hb
        rw [List.map_cons, List.getElem?_cons_zero, ha, hb]
    · obtain _ | ⟨a', _ | ⟨a'', as⟩⟩ := as
      · simp at ha
      · simp at hle
      · contradiction

theorem breaks_spec {brk : List ℕ} (h : breaks remote dest = some brk)
    (hle : dest.length ≤ remote.length) :
    (0 :: brk).Pairwise (· < ·) ∧
      ∀ q, q + 1 < dest.length → q + 1 ∉ brk → Follows remote q ∧ Follows dest q := by
  obtain ⟨bs, hbs, rfl⟩ := Option.map_eq_some_iff.mp h
  refine ⟨List.pairwise_cons.mpr ⟨fun b hb => ?_, ?_⟩, fun q hq hnot => ?_⟩
  · obtain ⟨x, _, rfl⟩ := List.mem_map.mp hb
    exact Nat.succ_pos _
  · -- the places are taken in order
    have hzip : bs.zipIdx.Pairwise fun x y => x.2 < y.2 := by
      rw [← List.pairwise_map, List.zipIdx_map_snd]
      exact List.pairwise_lt_range'
    refine (hzip.filter _).map _ fun x y hxy => Nat.succ_lt_succ hxy
  · have hplace : ∀ {x y x' y' : ℕ}, remote[q]? = some x → remote[q + 1]? = some y →
        dest[q]? = some x' → dest[q + 1]? = some y' → y = x + 1 ∧ y' = x' + 1 := by
      intro x y x' y' hx hy hx' hy'
      have hq := getElem?_broadcast hbs (by rw [length_diff, length_diff]; omega)
        (getElem?_diff hx hy) (getElem?_diff hx' hy')
      by_contra hbreak
      refine hnot (List.mem_map.mpr ⟨(true, q), List.mem_filter.mpr ⟨?_, rfl⟩, rfl⟩)
      rw [List.mem_zipIdx_iff_getElem?, hq]
      simp only [Option.some.injEq, Bool.or_eq_true, bne_iff_ne, ne_eq]
      by_contra hnone
      simp only [not_or, not_not] at hnone
      exact hbreak ⟨by omega, by omega⟩
    have hx : remote[q]? = some remote[q] := List.getElem?_eq_getElem (by omega)
    have hy : remote[q + 1]? = some remote[q + 1] := List.getElem?_eq_getElem (by omega)
    have hx' : dest[q]? = some dest[q] := List.getElem?_eq_getElem (by omega)
    have hy' : dest[q + 1]? = some dest[q + 1] := List.getElem?_eq_getElem (by omega)
    exact ⟨fun x y h h' => (hplace h h' hx' hy').1, fun x' y' h h' => (hplace hx hy h h').2⟩

/-- **The groups read the `j`-th remote block into the `j`-th local one**, if none is empty and there
are no more local blocks than remote ones. -/
theorem flatMap_blocksRead {groups : List (List ℕ) × List (List ℕ)}
    (h : groupConcurrentContiguous remote dest = some groups) (hle : dest.length ≤ remote.length)
    (hne : ∀ group ∈ groups.1.zip groups.2, group.1 ≠ [] ∧ group.2 ≠ []) :
    (groups.1.zip groups.2).flatMap blocksRead = remote.zip dest := by
  rw [groupConcurrentContiguous] at h
  split_ifs at h with hempty
  · cases h
    rw [List.length_eq_zero_iff.mp hempty]
    rfl
  · obtain ⟨brk, hbrk, rfl⟩ := Option.map_eq_some_iff.mp h
    obtain ⟨hsorted, hfollows⟩ := breaks_spec hbrk hle
    exact flatMap_blocksRead_split brk 0 remote dest hsorted hle
      (fun q hq hnot => hfollows q hq (by rwa [Nat.zero_add] at hnot)) hne

end VllmAscend
