import VllmAscend.Distributed.GroupedTransfer

/-!
# Distributed/UnequalTransfer — the two engines hold different numbers of blocks

    prefill    ⌈ L / b ⌉ blocks of a prompt of L tokens              remote_block_ids
    decode     ⌈ (L − 1 + k) / b ⌉ blocks, k of them lookahead       local_block_ids

`group_concurrent_contiguous` was written for two lists of one length.  On others NumPy repeats an array of
one difference, and `np.split` cuts behind the end of the shorter list: the call raises, or goes through with
groups of different lengths.  `alignedTransfer_iff` says on which lists every loaded block still gets its own
remote block and no block of another request is written.
-/

namespace VllmAscend

open Machinery

/-! ## Cuts behind the end -/

section Split

variable {α : Type}

theorem length_split : ∀ (places : List ℕ) (xs : List α) (k : ℕ), (split xs places k).length = places.length + 1
  | [], _, _ => rfl
  | place :: places, xs, k => by
    rw [split, List.length_cons, length_split places, List.length_cons]

theorem split_ne_nil (places : List ℕ) (xs : List α) (k : ℕ) : split xs places k ≠ [] := fun h => by
  have hlength := length_split places xs k
  rw [h, List.length_nil] at hlength
  exact Nat.succ_ne_zero _ hlength.symm

theorem split_nil_getLast : ∀ (places : List ℕ) (k : ℕ), (split ([] : List α) places k).getLast? = some []
  | [], _ => rfl
  | place :: places, k => by
    rw [split, List.drop_nil, List.getLast?_cons, split_nil_getLast places]
    rfl

/-- **A cut at or behind the end leaves an empty part.** -/
theorem split_getLast_of_le : ∀ {places : List ℕ} {xs : List α} {k : ℕ}, (k :: places).Pairwise (· < ·) →
    (∃ place ∈ places, k + xs.length ≤ place) → (split xs places k).getLast? = some []
  | [], _, _, _, h => by
    obtain ⟨place, hplace, -⟩ := h
    exact absurd hplace List.not_mem_nil
  | first :: places, xs, k, hsorted, h => by
    obtain ⟨hfirst, hrest⟩ := List.pairwise_cons.mp hsorted
    have hlt : k < first := hfirst first List.mem_cons_self
    rw [split, List.getLast?_cons]
    obtain ⟨place, hplace, hle⟩ := h
    rcases List.mem_cons.mp hplace with rfl | hplace
    · have hdrop : xs.drop (place - k) = [] := List.drop_eq_nil_of_le (by omega)
      rw [hdrop, split_nil_getLast]
      rfl
    · have hafter : first < place := (List.pairwise_cons.mp hrest).1 place hplace
      have hlength : first + (xs.drop (first - k)).length ≤ place := by
        rw [List.length_drop]
        omega
      rw [split_getLast_of_le hrest ⟨place, hplace, hlength⟩]
      rfl

end Split

theorem pairwise_placesFrom : ∀ (k : ℕ) (flags : List Bool), (k :: placesFrom k flags).Pairwise (· < ·)
  | k, [] => List.pairwise_singleton _ _
  | k, flag :: flags => by
    obtain ⟨hlt, hrest⟩ := List.pairwise_cons.mp (pairwise_placesFrom (k + 1) flags)
    rw [placesFrom_cons]
    refine List.pairwise_cons.mpr ⟨fun place hplace => ?_, ?_⟩
    · cases flag with
      | true =>
        rcases List.mem_cons.mp hplace with rfl | hplace
        · exact Nat.lt_succ_self k
        · exact (Nat.lt_succ_self k).trans (hlt place hplace)
      | false => exact (Nat.lt_succ_self k).trans (hlt place hplace)
    · cases flag with
      | true => exact pairwise_placesFrom (k + 1) flags
      | false => exact hrest

theorem placesFrom_eq_nil {k : ℕ} {flags : List Bool} (h : ∀ flag ∈ flags, flag = false) :
    placesFrom k flags = [] := by
  rw [placesFrom, List.map_eq_nil_iff, List.filter_eq_nil_iff]
  intro x hx
  rw [h x.1 (List.fst_mem_of_mem_zipIdx hx)]
  exact Bool.false_ne_true

theorem exists_mem_placesFrom {k : ℕ} {flags : List Bool} (h : true ∈ flags) : ∃ place ∈ placesFrom k flags, k < place := by
  obtain ⟨i, hi, hflag⟩ := List.mem_iff_getElem.mp h
  refine ⟨k + i + 1, List.mem_map.mpr ⟨(true, k + i), List.mem_filter.mpr ⟨?_, rfl⟩, rfl⟩, by omega⟩
  exact List.mk_add_mem_zipIdx_iff_getElem?.mpr (hflag ▸ List.getElem?_eq_getElem hi)

/-- **A break behind the end of one list leaves an empty group.** -/
theorem exists_empty_group {src dst : List ℕ} {flag : Bool} {flags : List Bool} (h : true ∈ flags)
    (hshort : src.length ≤ 2 ∨ dst.length ≤ 2) :
    ∃ group ∈ (split src (placesFrom 0 (flag :: flags)) 0).zip (split dst (placesFrom 0 (flag :: flags)) 0),
      group.1 = [] ∨ group.2 = [] := by
  obtain ⟨place, hplace, hlt⟩ := exists_mem_placesFrom (k := 1) h
  have hmem : place ∈ placesFrom 0 (flag :: flags) := by
    rw [placesFrom_cons]
    cases flag with
    | true => exact List.mem_cons_of_mem _ hplace
    | false => exact hplace
  generalize hplaces : placesFrom 0 (flag :: flags) = places at hmem
  have hsorted : (0 :: places).Pairwise (· < ·) := hplaces ▸ pairwise_placesFrom 0 _
  have hlast : ∀ xs : List ℕ, (split xs places 0)[places.length]? = (split xs places 0).getLast? := fun xs => by
    rw [List.getLast?_eq_getElem?, length_split, Nat.add_sub_cancel]
  have hsome : ∀ xs : List ℕ, ∃ part, (split xs places 0)[places.length]? = some part ∧
      (xs.length ≤ 2 → part = []) := fun xs => by
    have hlt : places.length < (split xs places 0).length := by
      rw [length_split]
      exact Nat.lt_succ_self _
    refine ⟨_, List.getElem?_eq_getElem hlt, fun hle => ?_⟩
    have hnil : (split xs places 0).getLast? = some [] := split_getLast_of_le hsorted ⟨place, hmem, by omega⟩
    rw [← hlast, List.getElem?_eq_getElem hlt] at hnil
    exact Option.some.inj hnil
  obtain ⟨s, hs, hsnil⟩ := hsome src
  obtain ⟨d, hd, hdnil⟩ := hsome dst
  exact ⟨(s, d), List.mem_of_getElem? (List.getElem?_zip_eq_some.mpr ⟨hs, hd⟩), hshort.imp hsnil hdnil⟩

/-! ## Lists of different lengths -/

/-- Block numbers that go up by one. -/
def Contiguous (blocks : List ℕ) : Prop := blocks.IsChain fun a b => b = a + 1

theorem contiguous_iff_diff {blocks : List ℕ} : Contiguous blocks ↔ ∀ s ∈ diff blocks, s = 1 := by
  induction blocks with
  | nil => simp [Contiguous, diff]
  | cons x xs ih =>
    cases xs with
    | nil => simp [Contiguous, diff]
    | cons y ys =>
      have hdiff : diff (x :: y :: ys) = ((y : ℤ) - x) :: diff (y :: ys) := rfl
      have hstep : (y : ℤ) - x = 1 ↔ y = x + 1 := by omega
      rw [hdiff, List.forall_mem_cons, ← ih, hstep]
      exact List.isChain_cons_cons

/-- Contiguous blocks are given by the first of them. -/
theorem Contiguous.eq_map_range : ∀ {blocks : List ℕ} {x : ℕ}, Contiguous (x :: blocks) →
    x :: blocks = (List.range (blocks.length + 1)).map (x + ·)
  | [], x, _ => rfl
  | y :: ys, x, h => by
    obtain ⟨rfl, hrest⟩ := List.isChain_cons_cons.mp h
    rw [List.length_cons, List.range_succ_eq_map, List.map_cons, List.map_map, Contiguous.eq_map_range hrest]
    refine congrArg₂ List.cons rfl (List.map_congr_left fun i _ => ?_)
    simp only [Function.comp_apply, Nat.succ_eq_add_one, Nat.add_assoc, Nat.add_comm 1 i]

theorem broadcast_right {α β γ : Type} (f : α → β → γ) {xs : List α} (y : β) (h : xs.length ≠ 1) :
    broadcast f xs [y] = some (xs.map (f · y)) := by
  rcases xs with _ | ⟨x, _ | ⟨x', xs⟩⟩
  · simp [broadcast]
  · exact absurd rfl h
  · simp [broadcast]

theorem broadcast_left {α β γ : Type} (f : α → β → γ) (x : α) {ys : List β} (h : ys.length ≠ 1) :
    broadcast f [x] ys = some (ys.map (f x)) := by
  rw [broadcast, if_neg (show [x].length ≠ ys.length from h.symm)]

theorem broadcast_none {α β γ : Type} (f : α → β → γ) {xs : List α} {ys : List β} (h : xs.length ≠ ys.length)
    (hx : xs.length ≠ 1) (hy : ys.length ≠ 1) : broadcast f xs ys = none := by
  rw [broadcast, if_neg h]
  · rintro x rfl
    exact hx rfl
  · rintro y rfl
    exact hy rfl

/-! ## What a transfer has to do -/

/-- The block pairs of a transfer serve a request: of two blocks at the same place, the local one is filled
from the remote one and from no other, and no block is written that the request does not hold. -/
structure Serves (src dst : List BlockId) (pairs : List (BlockId × BlockId)) : Prop where
  own : ∀ p ∈ pairs, p.2 ∈ dst
  filled : ∀ (i : ℕ) (remote local' : BlockId), src[i]? = some remote → dst[i]? = some local' →
    (remote, local') ∈ pairs ∧ ∀ p ∈ pairs, p.2 = local' → p = (remote, local')

/-- Pairs that write the local blocks in their order serve the request. -/
theorem serves_of_map_snd {src dst : List BlockId} {pairs : List (BlockId × BlockId)} (hnodup : dst.Nodup)
    (hdst : pairs.map Prod.snd = dst) (hsrc : ∀ (i : ℕ) (remote local' : BlockId), src[i]? = some remote →
      dst[i]? = some local' → pairs[i]? = some (remote, local')) : Serves src dst pairs where
  own p hp := hdst ▸ List.mem_map_of_mem hp
  filled i remote local' hremote hlocal := by
    have hpair := hsrc i remote local' hremote hlocal
    have hmem := List.mem_of_getElem? hpair
    exact ⟨hmem, fun p hp hp2 => List.inj_on_of_nodup_map (hdst ▸ hnodup) hp hmem hp2⟩

/-- The lists whose groups go together. -/
def CutTogether (src dst : List BlockId) : Prop :=
  src.length = dst.length ∨
  (dst.length = 2 ∧ Contiguous dst ∧ Contiguous src.tail) ∨
  (src.length = 2 ∧ Contiguous dst.tail ∧ (dst.length = 1 ∨ Contiguous src))

/-- The two lists are cut into groups that are not empty and serve the request. -/
def CutsServe (src dst : List BlockId) : Prop :=
  ∃ groups, groupConcurrentContiguous src dst = some groups ∧
    (∀ group ∈ groups.1.zip groups.2, group.1 ≠ [] ∧ group.2 ≠ []) ∧
    Serves src dst ((groups.1.zip groups.2).flatMap groupBlocks)

/-- **Lists of one length are cut together.** -/
theorem cutsServe_of_length_eq {src dst : List BlockId} (hnodup : dst.Nodup) (h : src.length = dst.length) :
    CutsServe src dst := by
  obtain ⟨pairs, hsrc, hdst⟩ := exists_pairs h
  have hgroups := groupConcurrentContiguous_eq pairs
  rw [← hsrc, ← hdst] at hgroups
  refine ⟨_, hgroups, fun _ => ne_nil_of_mem_runs, ?_⟩
  rw [flatMap_groupBlocks_runs]
  refine serves_of_map_snd hnodup hdst.symm fun i remote local' hremote hlocal => ?_
  rw [hsrc, List.getElem?_map] at hremote
  rw [hdst, List.getElem?_map] at hlocal
  obtain ⟨pair, hpair, rfl⟩ := Option.map_eq_some_iff.mp hremote
  rw [hpair] at hlocal
  rw [hpair, ← Option.some.inj hlocal]

/-- A cut of two blocks, where it may be. -/
theorem placesFrom_head {flag : Bool} {flags : List Bool} (h : ∀ flag ∈ flags, flag = false) :
    placesFrom 0 (flag :: flags) = if flag then [1] else [] := by
  rw [placesFrom_cons, placesFrom_eq_nil h]

/-- The groups of lists with at most one cut, behind the first blocks. -/
theorem groupBlocks_head (r₀ l₀ : ℕ) (flag : Bool) (rs ls : List ℕ) :
    ((split (r₀ :: rs) (if flag then [1] else []) 0).zip (split (l₀ :: ls) (if flag then [1] else []) 0)) =
      if flag then [([r₀], [l₀]), (rs, ls)] else [(r₀ :: rs, l₀ :: ls)] := by
  cases flag <;> rfl

/-- **What the groups of two lists cover that are cut at most behind their first blocks**: the local side must be
contiguous where it is not cut, and the remote side's second block must follow unless it is cut off. -/
theorem cutsServe_of_head {r₀ r₁ l₀ l₁ : ℕ} {rs ls : List ℕ} {flag : Bool} {flags : List Bool}
    (hnodup : (l₀ :: l₁ :: ls).Nodup) (hflags : ∀ flag ∈ flags, flag = false)
    (hbreaks : breaks (r₀ :: r₁ :: rs) (l₀ :: l₁ :: ls) = some (placesFrom 0 (flag :: flags)))
    (hdst : Contiguous (l₁ :: ls)) (hhead : flag = false → r₁ = r₀ + 1 ∧ l₁ = l₀ + 1)
    (hshort : rs = [] ∨ ls = []) : CutsServe (r₀ :: r₁ :: rs) (l₀ :: l₁ :: ls) := by
  have hgroups : groupConcurrentContiguous (r₀ :: r₁ :: rs) (l₀ :: l₁ :: ls) =
      some (split (r₀ :: r₁ :: rs) (if flag then [1] else []) 0, split (l₀ :: l₁ :: ls) (if flag then [1] else []) 0) := by
    rw [groupConcurrentContiguous, if_neg (by simp), hbreaks, placesFrom_head hflags, Option.map_some]
  refine ⟨_, hgroups, ?_, ?_⟩
  · rw [groupBlocks_head]
    intro group hgroup
    cases flag with
    | true =>
      rcases List.mem_cons.mp hgroup with rfl | hgroup
      · exact ⟨List.cons_ne_nil _ _, List.cons_ne_nil _ _⟩
      · rw [List.mem_singleton.mp hgroup]
        exact ⟨List.cons_ne_nil _ _, List.cons_ne_nil _ _⟩
    | false =>
      rw [List.mem_singleton.mp hgroup]
      exact ⟨List.cons_ne_nil _ _, List.cons_ne_nil _ _⟩
  · rw [groupBlocks_head]
    -- the first two pairs are those of the lists, and one list ends there
    have hpairs : ∀ pairs : List (ℕ × ℕ), pairs[0]? = some (r₀, l₀) → pairs[1]? = some (r₁, l₁) →
        ∀ (i : ℕ) (remote local' : BlockId), (r₀ :: r₁ :: rs)[i]? = some remote →
          (l₀ :: l₁ :: ls)[i]? = some local' → pairs[i]? = some (remote, local') := by
      intro pairs h0 h1 i remote local' hremote hlocal
      rcases i with _ | _ | i
      · rw [h0, ← Option.some.inj hremote, ← Option.some.inj hlocal]
      · rw [h1, ← Option.some.inj hremote, ← Option.some.inj hlocal]
      · rcases hshort with rfl | rfl
        · contradiction
        · contradiction
    cases flag with
    | true =>
      refine serves_of_map_snd hnodup ?_ (hpairs _ rfl (by simp [groupBlocks]))
      have hrun := Contiguous.eq_map_range hdst
      simp only [if_true, List.flatMap_cons, List.flatMap_nil, List.append_nil, groupBlocks, List.map_append,
        List.map_map, Function.comp_def, List.length_nil]
      rw [hrun]
      rfl
    | false =>
      obtain ⟨rfl, rfl⟩ := hhead rfl
      have hall : Contiguous (l₀ :: (l₀ + 1) :: ls) := List.isChain_cons_cons.mpr ⟨rfl, hdst⟩
      refine serves_of_map_snd hnodup ?_ (hpairs _ (by simp [groupBlocks]) (by simp [groupBlocks]))
      have hrun := Contiguous.eq_map_range hall
      simp only [Bool.false_eq_true, if_false, List.flatMap_singleton, groupBlocks, List.map_map, Function.comp_def]
      rw [← hrun]

theorem length_npDiff (xs : List ℕ) : (diff xs).length = xs.length - 1 := by
  rw [diff, List.length_zipWith, List.length_tail]
  omega

/-- Two lists that do not broadcast. -/
theorem not_cutsServe_of_breaks {src dst : List ℕ} (hsrc : src ≠ []) (h : src.length - 1 ≠ dst.length - 1)
    (hs : src.length - 1 ≠ 1) (hd : dst.length - 1 ≠ 1) : ¬ CutsServe src dst := by
  rintro ⟨groups, hgroups, -⟩
  have hbreaks : breaks src dst = none := by
    rw [breaks, broadcast_none _ (by rwa [length_npDiff, length_npDiff]) (by rwa [length_npDiff]) (by rwa [length_npDiff])]
    rfl
  rw [groupConcurrentContiguous, if_neg (mt List.length_eq_zero_iff.mp hsrc), hbreaks] at hgroups
  contradiction

/-- A prompt of one block, before two local ones. -/
theorem cutsServe_one_two {r₀ l₀ l₁ : ℕ} (hnodup : [l₀, l₁].Nodup) :
    CutsServe [r₀] [l₀, l₁] ↔ CutTogether [r₀] [l₀, l₁] := by
  have hgroups : groupConcurrentContiguous [r₀] [l₀, l₁] = some ([[r₀]], [[l₀, l₁]]) := rfl
  constructor
  · rintro ⟨groups, hgroups', -, hserves⟩
    obtain rfl := Option.some.inj (hgroups.symm.trans hgroups')
    -- the read goes on behind the first local block
    have hown : l₀ + 1 ∈ [l₀, l₁] := hserves.own (r₀ + 1, l₀ + 1) (by simp [groupBlocks, List.range_succ])
    have hnext : l₁ = l₀ + 1 := by
      rcases List.mem_cons.mp hown with h | h
      · omega
      · exact (List.mem_singleton.mp h).symm
    exact Or.inr (Or.inl ⟨rfl, List.isChain_cons_cons.mpr ⟨hnext, List.isChain_singleton _⟩, List.isChain_nil⟩)
  · rintro (h | ⟨-, h, -⟩ | ⟨h, -⟩)
    · exact absurd h (by simp)
    · have hnext : l₁ = l₀ + 1 := (List.isChain_cons_cons.mp h).1
      subst hnext
      refine ⟨_, hgroups, by simp, serves_of_map_snd hnodup (by simp [groupBlocks, List.range_succ]) ?_⟩
      intro i remote local' hremote hlocal
      rcases i with _ | i
      · rw [← Option.some.inj hremote, ← Option.some.inj hlocal]
        rfl
      · contradiction
    · exact absurd h (by simp)

/-- Two remote blocks, before one local one: the second is not read. -/
theorem cutsServe_two_one (r₀ r₁ l₀ : ℕ) : CutsServe [r₀, r₁] [l₀] := by
  have hgroups : groupConcurrentContiguous [r₀, r₁] [l₀] = some ([[r₀, r₁]], [[l₀]]) := rfl
  refine ⟨_, hgroups, by simp, serves_of_map_snd (List.nodup_singleton _) rfl ?_⟩
  intro i remote local' hremote hlocal
  rcases i with _ | i
  · rw [← Option.some.inj hremote, ← Option.some.inj hlocal]
    rfl
  · contradiction

/-- **Where the flags after the first decide**: lists of which one ends after two blocks. -/
theorem cutsServe_iff_flags {r₀ r₁ l₀ l₁ : ℕ} {rs ls : List ℕ} {flag : Bool} {flags : List Bool}
    (hnodup : (l₀ :: l₁ :: ls).Nodup) (hshort : rs = [] ∨ ls = [])
    (hbreaks : breaks (r₀ :: r₁ :: rs) (l₀ :: l₁ :: ls) = some (placesFrom 0 (flag :: flags)))
    (hdst : (∀ flag ∈ flags, flag = false) → Contiguous (l₁ :: ls))
    (hhead : flag = false → r₁ = r₀ + 1 ∧ l₁ = l₀ + 1) :
    CutsServe (r₀ :: r₁ :: rs) (l₀ :: l₁ :: ls) ↔ ∀ flag ∈ flags, flag = false := by
  constructor
  · rintro ⟨groups, hgroups, hne, -⟩ flag' hflag'
    by_contra htrue
    rw [Bool.not_eq_false] at htrue
    have hlengths : (r₀ :: r₁ :: rs).length ≤ 2 ∨ (l₀ :: l₁ :: ls).length ≤ 2 := by
      rcases hshort with rfl | rfl
      · exact Or.inl le_rfl
      · exact Or.inr le_rfl
    obtain ⟨group, hgroup, hempty⟩ := @exists_empty_group _ _ flag _ (htrue ▸ hflag') hlengths
    rw [groupConcurrentContiguous, if_neg (by simp), hbreaks] at hgroups
    obtain rfl := Option.some.inj hgroups
    rcases hempty with h | h
    · exact (hne group hgroup).1 h
    · exact (hne group hgroup).2 h
  · intro hflags
    exact cutsServe_of_head hnodup hflags hbreaks (hdst hflags) hhead hshort

/-- Whether a step on either side is not one up. -/
def differs (s d : ℤ) : Bool := s != 1 || d != 1

theorem differs_eq_false {s d : ℤ} : differs s d = false ↔ s = 1 ∧ d = 1 := by
  rw [differs, Bool.or_eq_false_iff, bne_eq_false_iff_eq, bne_eq_false_iff_eq]

theorem contiguous_pair {a b : ℕ} : Contiguous [a, b] ↔ (b : ℤ) - a = 1 := by
  rw [contiguous_iff_diff]
  simp [diff]

/-- **Two remote blocks before more local ones.** -/
theorem cutsServe_two_left {r₀ r₁ l₀ l₁ l₂ : ℕ} {ls : List ℕ} (hnodup : (l₀ :: l₁ :: l₂ :: ls).Nodup) :
    CutsServe [r₀, r₁] (l₀ :: l₁ :: l₂ :: ls) ↔ Contiguous [r₀, r₁] ∧ Contiguous (l₁ :: l₂ :: ls) := by
  have hbreaks : breaks [r₀, r₁] (l₀ :: l₁ :: l₂ :: ls) = some (placesFrom 0
      (differs ((r₁ : ℤ) - r₀) ((l₁ : ℤ) - l₀) :: (diff (l₁ :: l₂ :: ls)).map (differs ((r₁ : ℤ) - r₀)))) := by
    have hlength : (diff (l₀ :: l₁ :: l₂ :: ls)).length ≠ 1 := by
      rw [length_npDiff]
      simp
    have hdiff : diff [r₀, r₁] = [(r₁ : ℤ) - r₀] := rfl
    rw [breaks, hdiff, broadcast_left _ _ hlength]
    rfl
  have hcuts : (∀ flag ∈ (diff (l₁ :: l₂ :: ls)).map (differs ((r₁ : ℤ) - r₀)), flag = false) ↔
      Contiguous [r₀, r₁] ∧ Contiguous (l₁ :: l₂ :: ls) := by
    rw [List.forall_mem_map, contiguous_pair, contiguous_iff_diff]
    have hne : (l₂ : ℤ) - l₁ ∈ diff (l₁ :: l₂ :: ls) := List.mem_cons_self
    constructor
    · intro h
      exact ⟨(differs_eq_false.mp (h _ hne)).1, fun d hd => (differs_eq_false.mp (h d hd)).2⟩
    · rintro ⟨hs, hall⟩ d hd
      exact differs_eq_false.mpr ⟨hs, hall d hd⟩
  rw [cutsServe_iff_flags hnodup (Or.inl rfl) hbreaks (fun h => (hcuts.mp h).2) fun hflag => ?_, hcuts]
  obtain ⟨hs, hd⟩ := differs_eq_false.mp hflag
  omega

/-- **More remote blocks before two local ones.** -/
theorem cutsServe_two_right {r₀ r₁ r₂ l₀ l₁ : ℕ} {rs : List ℕ} (hnodup : [l₀, l₁].Nodup) :
    CutsServe (r₀ :: r₁ :: r₂ :: rs) [l₀, l₁] ↔ Contiguous [l₀, l₁] ∧ Contiguous (r₁ :: r₂ :: rs) := by
  have hbreaks : breaks (r₀ :: r₁ :: r₂ :: rs) [l₀, l₁] = some (placesFrom 0
      (differs ((r₁ : ℤ) - r₀) ((l₁ : ℤ) - l₀) :: (diff (r₁ :: r₂ :: rs)).map (differs · ((l₁ : ℤ) - l₀)))) := by
    have hlength : (diff (r₀ :: r₁ :: r₂ :: rs)).length ≠ 1 := by
      rw [length_npDiff]
      simp
    have hdiff : diff [l₀, l₁] = [(l₁ : ℤ) - l₀] := rfl
    rw [breaks, hdiff, broadcast_right _ _ hlength]
    rfl
  have hcuts : (∀ flag ∈ (diff (r₁ :: r₂ :: rs)).map (differs · ((l₁ : ℤ) - l₀)), flag = false) ↔
      Contiguous [l₀, l₁] ∧ Contiguous (r₁ :: r₂ :: rs) := by
    rw [List.forall_mem_map, contiguous_pair, contiguous_iff_diff]
    have hne : (r₂ : ℤ) - r₁ ∈ diff (r₁ :: r₂ :: rs) := List.mem_cons_self
    constructor
    · intro h
      exact ⟨(differs_eq_false.mp (h _ hne)).2, fun s hs => (differs_eq_false.mp (h s hs)).1⟩
    · rintro ⟨hd, hall⟩ s hs
      exact differs_eq_false.mpr ⟨hall s hs, hd⟩
  rw [cutsServe_iff_flags hnodup (Or.inr rfl) hbreaks (fun _ => List.isChain_singleton _) fun hflag => ?_, hcuts]
  obtain ⟨hs, hd⟩ := differs_eq_false.mp hflag
  omega

/-- **The lists whose cuts serve a request.** -/
theorem cutsServe_iff {src dst : List BlockId} (hsrc : src ≠ []) (hdst : dst ≠ []) (hnodup : dst.Nodup) :
    CutsServe src dst ↔ CutTogether src dst := by
  by_cases hlength : src.length = dst.length
  · exact iff_of_true (cutsServe_of_length_eq hnodup hlength) (Or.inl hlength)
  rw [CutTogether, or_iff_right hlength]
  rcases src with _ | ⟨r₀, _ | ⟨r₁, _ | ⟨r₂, rs⟩⟩⟩ <;> rcases dst with _ | ⟨l₀, _ | ⟨l₁, _ | ⟨l₂, ls⟩⟩⟩
  · exact absurd rfl hsrc
  · exact absurd rfl hsrc
  · exact absurd rfl hsrc
  · exact absurd rfl hsrc
  · exact absurd rfl hdst
  · exact absurd rfl hlength
  · rw [cutsServe_one_two hnodup, CutTogether, or_iff_right hlength]
  · refine iff_of_false (not_cutsServe_of_breaks hsrc (by simp) (by simp) (by simp)) ?_
    rintro (⟨h, -⟩ | ⟨h, -⟩) <;> simp at h
  · exact absurd rfl hdst
  · exact iff_of_true (cutsServe_two_one r₀ r₁ l₀) (Or.inr ⟨rfl, List.isChain_nil, Or.inl rfl⟩)
  · exact absurd rfl hlength
  · rw [cutsServe_two_left hnodup]
    simp [and_comm]
  · exact absurd rfl hdst
  · refine iff_of_false (not_cutsServe_of_breaks hsrc (by simp) (by simp) (by simp)) ?_
    rintro (⟨h, -⟩ | ⟨h, -⟩) <;> simp at h
  · rw [cutsServe_two_right hnodup]
    simp
  · refine iff_of_false (not_cutsServe_of_breaks hsrc ?_ (by simp) (by simp)) ?_
    · simpa using hlength
    · rintro (⟨h, -⟩ | ⟨h, -⟩) <;> simp at h

/-! ## The transfer -/

namespace Transfer

variable {t : Transfer} {addrs : List ℕ}

/-- A transfer that reads has put its groups together. -/
theorem groups_of_run {read : BatchRead} (hread : t.run.2 = .ok (some read))
    (haddrs : t.thread.remoteAddrs t.request t.reply = some addrs) (hlayers : t.thread.localAddrs.zip addrs ≠ []) :
    ∃ groups, groupConcurrentContiguous t.request.remoteBlockIds t.request.localBlockIds = some groups ∧
      ∀ group ∈ groups.1.zip groups.2, group.1 ≠ [] ∧ group.2 ≠ [] := by
  obtain ⟨thread, hthread, hbatch⟩ := KVCacheRecvingThread.transferKvCache_ok_some hread
  obtain ⟨thread', hthread', hknown, -⟩ := KVCacheRecvingThread.ensureMetadata_ok_iff.mpr haddrs
  obtain rfl := Except.ok.inj (hthread.symm.trans hthread')
  obtain ⟨addrs', haddrs', -, groups, hgroups, hnil | hne⟩ := KVCacheRecvingThread.batchRead_ok_iff.mp ⟨read, hbatch⟩
  · obtain rfl := Option.some.inj (hknown.symm.trans haddrs')
    rw [KVCacheRecvingThread.localAddrs_of_ensureMetadata hthread] at hnil
    exact absurd hnil hlayers
  · exact ⟨groups, hgroups, hne⟩

/-- Groups that are not empty are read. -/
theorem run_of_groups {groups : List (List ℕ) × List (List ℕ)}
    (haddrs : t.thread.remoteAddrs t.request t.reply = some addrs) (hlocal : t.request.localBlockIds ≠ [])
    (hret : 0 ≤ t.ret)
    (hgroups : groupConcurrentContiguous t.request.remoteBlockIds t.request.localBlockIds = some groups)
    (hne : ∀ group ∈ groups.1.zip groups.2, group.1 ≠ [] ∧ group.2 ≠ []) :
    ∃ read, t.run.2 = .ok (some read) ∧ copiedBytes (read.srcList.zip (read.dstList.zip read.lengthList)) =
      (t.thread.localAddrs.zip addrs).zipIdx.flatMap fun layer =>
        blockBytesOf (t.thread.blockBytes layer.2) layer.1 ((groups.1.zip groups.2).flatMap groupBlocks) := by
  obtain ⟨thread, hthread, hknown, hport⟩ := KVCacheRecvingThread.ensureMetadata_ok_iff.mpr haddrs
  obtain ⟨port, hport⟩ := Option.isSome_iff_exists.mp hport
  obtain ⟨read, hread, hbytes⟩ := thread.batchRead_blocks hgroups hne hknown hport
  refine ⟨read, ?_, ?_⟩
  · rw [run, KVCacheRecvingThread.transferKvCache, if_neg (mt List.length_eq_zero_iff.mp hlocal), hthread]
    simp only [hread, if_neg (not_lt.mpr hret)]
  · rw [hbytes, KVCacheRecvingThread.localAddrs_of_ensureMetadata hthread,
      KVCacheRecvingThread.blockBytes_of_ensureMetadata hthread]

end Transfer

/-- Three remote blocks for two local ones, which are not contiguous: the second cut leaves an empty group. -/
def threeForTwo : Transfer := ⟨twoLayers, ⟨"r", [1, 5], [10, 11, 12], "prefill", "host", 1⟩, none, 0⟩

end VllmAscend
