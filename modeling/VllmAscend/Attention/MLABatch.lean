import VllmAscend.Torchair.MLAMetadata
import VllmAscend.Worker.MetadataOrder

/-!
# Attention/MLABatch — the border between the decodes and the prefills

    before     D P P D D │ P D        decodes = [0, 3, 4, 6], so the border is at 4
    exchanged    1 ↔ 6,  2 ↔ 4
    after      D D D D │ P P P

As many decodes stand behind the border as prefills before it, and those are exchanged.  No fewer exchanges do:
each brings at most one row across.  Behind the exchange `split_decodes_and_prefills` finds the border, and all
its assertions hold (`reorderBatch_split`).
-/

namespace VllmAscend

open Machinery

/-! ## Both sides of the border -/

section Border

variable (numTokens : List ℤ)

/-- Where the border is to be. -/
def numDecodes : ℕ := (decodes numTokens).length

/-- The rows from `s` on, `n` of them, that are decodes, or that are not. -/
def decodesIn (s n : ℕ) : List ℕ := (List.range' s n).filter fun i => numTokens[i]? = some 1

def prefillsIn (s n : ℕ) : List ℕ := (List.range' s n).filter fun i => numTokens[i]? ≠ some 1

theorem length_decodesIn_add (s n : ℕ) :
    (decodesIn numTokens s n).length + (prefillsIn numTokens s n).length = n := by
  have hparts := List.length_eq_length_filter_add (l := List.range' s n)
    fun i => decide (numTokens[i]? = some 1)
  rw [List.length_range'] at hparts
  rw [decodesIn, prefillsIn]
  simp only [decide_not]
  exact hparts.symm

theorem numDecodes_le : numDecodes numTokens ≤ numTokens.length := by
  rw [numDecodes, decodes]
  exact (List.length_filter_le _ _).trans_eq List.length_range

/-- The rows, cut at the border. -/
theorem range_border : List.range numTokens.length =
    List.range' 0 (numDecodes numTokens) ++
      List.range' (numDecodes numTokens) (numTokens.length - numDecodes numTokens) := by
  have happend : List.range' 0 (numDecodes numTokens) ++
      List.range' (0 + numDecodes numTokens) (numTokens.length - numDecodes numTokens) =
        List.range' 0 (numDecodes numTokens + (numTokens.length - numDecodes numTokens)) :=
    List.range'_append_1
  rw [Nat.zero_add, Nat.add_sub_cancel' (numDecodes_le numTokens)] at happend
  rw [happend, List.range_eq_range']

/-- The prefills before the border, in ascending order. -/
def earlyPrefills : List ℕ := prefillsIn numTokens 0 (numDecodes numTokens)

/-- The decodes behind it. -/
def lateDecodes : List ℕ :=
  decodesIn numTokens (numDecodes numTokens) (numTokens.length - numDecodes numTokens)

theorem decodes_border :
    decodes numTokens = decodesIn numTokens 0 (numDecodes numTokens) ++ lateDecodes numTokens := by
  conv_lhs => rw [decodes, range_border]
  rw [List.filter_append]
  rfl

theorem prefills_border : prefills numTokens = earlyPrefills numTokens ++
    prefillsIn numTokens (numDecodes numTokens) (numTokens.length - numDecodes numTokens) := by
  conv_lhs => rw [prefills, range_border]
  rw [List.filter_append]
  rfl

/-- **As many prefills stand before the border as decodes behind it.** -/
theorem length_earlyPrefills : (earlyPrefills numTokens).length = (lateDecodes numTokens).length := by
  have hbefore := length_decodesIn_add numTokens 0 (numDecodes numTokens)
  have hall : numDecodes numTokens =
      (decodesIn numTokens 0 (numDecodes numTokens)).length + (lateDecodes numTokens).length := by
    conv_lhs => rw [numDecodes, decodes_border]
    exact List.length_append
  rw [earlyPrefills]
  omega

variable {numTokens}

theorem mem_earlyPrefills {i : ℕ} :
    i ∈ earlyPrefills numTokens ↔ i < numDecodes numTokens ∧ numTokens[i]? ≠ some 1 := by
  rw [earlyPrefills, prefillsIn, List.mem_filter, List.mem_range'_1, decide_eq_true_eq]
  simp

theorem mem_lateDecodes {i : ℕ} :
    i ∈ lateDecodes numTokens ↔ numDecodes numTokens ≤ i ∧ numTokens[i]? = some 1 := by
  rw [lateDecodes, decodesIn, List.mem_filter, List.mem_range'_1, decide_eq_true_eq]
  constructor
  · exact fun h => ⟨h.1.1, h.2⟩
  · intro h
    have hlt := (List.getElem?_eq_some_iff.mp h.2).1
    exact ⟨⟨h.1, by omega⟩, h.2⟩

variable (numTokens) in
/-- **What is exchanged**: the prefills before the border with the decodes behind it. -/
theorem exchanges_eq : exchanges numTokens = (earlyPrefills numTokens).zip (lateDecodes numTokens).reverse := by
  have hlength : (earlyPrefills numTokens).length = (lateDecodes numTokens).reverse.length := by
    rw [List.length_reverse, length_earlyPrefills]
  have hlate : ∀ p ∈ (earlyPrefills numTokens).zip (lateDecodes numTokens).reverse,
      decide ((decodes numTokens).length ≤ p.2) = true := by
    intro p hp
    have hmem := List.mem_reverse.mp (List.of_mem_zip hp).2
    exact decide_eq_true (mem_lateDecodes.mp hmem).1
  have hrest : ∀ p ∈ (prefillsIn numTokens (numDecodes numTokens)
        (numTokens.length - numDecodes numTokens)).zip (decodesIn numTokens 0 (numDecodes numTokens)).reverse,
      ¬ decide ((decodes numTokens).length ≤ p.2) = true := by
    intro p hp
    have hmem := List.mem_reverse.mp (List.of_mem_zip hp).2
    rw [decodesIn, List.mem_filter, List.mem_range'_1, Nat.zero_add] at hmem
    rw [decide_eq_true_eq]
    exact Nat.not_le.mpr hmem.1.2
  have hnone : ((prefillsIn numTokens (numDecodes numTokens)
      (numTokens.length - numDecodes numTokens)).zip
        (decodesIn numTokens 0 (numDecodes numTokens)).reverse).takeWhile
          (fun p => decide ((decodes numTokens).length ≤ p.2)) = [] := by
    revert hrest
    generalize (prefillsIn numTokens _ _).zip _ = l
    intro hrest
    cases l with
    | nil => rfl
    | cons p l => exact List.takeWhile_cons_of_neg (hrest p (.head _))
  have hzip : (prefills numTokens).zip (decodes numTokens).reverse =
      (earlyPrefills numTokens).zip (lateDecodes numTokens).reverse ++
        (prefillsIn numTokens (numDecodes numTokens) (numTokens.length - numDecodes numTokens)).zip
          (decodesIn numTokens 0 (numDecodes numTokens)).reverse := by
    rw [prefills_border, decodes_border, List.reverse_append, List.zip_append hlength]
  rw [exchanges, hzip, List.takeWhile_append_of_pos hlate, hnone, List.append_nil]

variable (numTokens) in
theorem length_exchanges : (exchanges numTokens).length = (lateDecodes numTokens).length := by
  rw [exchanges_eq, List.length_zip, List.length_reverse, length_earlyPrefills, Nat.min_self]

/-- **The exchange brings the decodes before the border**, and the prefills behind it. -/
theorem exchange_border {i : ℕ} {n : ℤ} (hn : numTokens[i]? = some n) :
    n = 1 ↔ exchange (exchanges numTokens) i < numDecodes numTokens := by
  have hnodup := nodup_exchanges numTokens
  have hfst : (exchanges numTokens).map Prod.fst = earlyPrefills numTokens := by
    rw [exchanges_eq, List.map_fst_zip]
    rw [List.length_reverse, length_earlyPrefills]
  have hsnd : (exchanges numTokens).map Prod.snd = (lateDecodes numTokens).reverse := by
    rw [exchanges_eq, List.map_snd_zip]
    rw [List.length_reverse, length_earlyPrefills]
  by_cases hearly : i ∈ earlyPrefills numTokens
  · obtain ⟨p, hp, rfl⟩ := List.mem_map.mp (hfst ▸ hearly)
    have hlate : p.2 ∈ lateDecodes numTokens :=
      List.mem_reverse.mp (hsnd ▸ List.mem_map_of_mem hp)
    rw [(exchange_of_mem hnodup hp).1]
    have hne : n ≠ 1 := fun h => (mem_earlyPrefills.mp hearly).2 (h ▸ hn)
    exact iff_of_false hne (Nat.not_lt.mpr (mem_lateDecodes.mp hlate).1)
  · by_cases hlate : i ∈ lateDecodes numTokens
    · obtain ⟨p, hp, rfl⟩ := List.mem_map.mp (hsnd ▸ List.mem_reverse.mpr hlate)
      have hpair : p.1 ∈ earlyPrefills numTokens := hfst ▸ List.mem_map_of_mem hp
      rw [(exchange_of_mem hnodup hp).2]
      have hone : n = 1 := Option.some.inj (hn.symm.trans (mem_lateDecodes.mp hlate).2)
      exact iff_of_true hone (mem_earlyPrefills.mp hpair).1
    · rw [exchange_of_notMem (hfst ▸ hearly) (hsnd ▸ fun h => hlate (List.mem_reverse.mp h))]
      rw [mem_earlyPrefills, hn] at hearly
      rw [mem_lateDecodes, hn] at hlate
      simp only [ne_eq, Option.some.injEq] at hearly hlate
      omega

end Border

/-! ## No fewer exchanges do -/

/-- An exchange brings at most one row across a border. -/
theorem card_crossing_le {d : ℕ} : ∀ {ps : List (ℕ × ℕ)} {s : Finset ℕ},
    (∀ i ∈ s, d ≤ i ∧ exchange ps i < d) → s.card ≤ ps.length
  | [], rows, h => by
    have hnone : rows = ∅ := Finset.eq_empty_of_forall_notMem fun i hi =>
      Nat.not_lt.mpr (h i hi).1 (h i hi).2
    rw [hnone]
    rfl
  | p :: ps, rows, h => by
    -- where the rows are after the first exchange, behind the border or across it already
    have hbehind := card_crossing_le (d := d)
      (s := (rows.image (Equiv.swap p.1 p.2)).filter (d ≤ ·)) fun i hi => by
        obtain ⟨hi, hle⟩ := Finset.mem_filter.mp hi
        obtain ⟨j, hj, rfl⟩ := Finset.mem_image.mp hi
        exact ⟨hle, (h j hj).2⟩
    have hacross : ((rows.image (Equiv.swap p.1 p.2)).filter (¬ d ≤ ·)).card ≤ 1 := by
      have hside : ∀ i ∈ (rows.image (Equiv.swap p.1 p.2)).filter (¬ d ≤ ·),
          i < d ∧ (i = p.1 ∧ d ≤ p.2 ∨ i = p.2 ∧ d ≤ p.1) := by
        intro i hi
        obtain ⟨hi, hlt⟩ := Finset.mem_filter.mp hi
        obtain ⟨j, hj, rfl⟩ := Finset.mem_image.mp hi
        have hj := (h j hj).1
        refine ⟨Nat.not_le.mp hlt, ?_⟩
        by_cases h₁ : j = p.1
        · subst h₁
          exact Or.inr ⟨Equiv.swap_apply_left _ _, hj⟩
        · by_cases h₂ : j = p.2
          · subst h₂
            exact Or.inl ⟨Equiv.swap_apply_right _ _, hj⟩
          · rw [Equiv.swap_apply_of_ne_of_ne h₁ h₂] at hlt
            exact absurd hj hlt
      refine Finset.card_le_one.mpr fun i hi j hj => ?_
      have hi := hside i hi
      have hj := hside j hj
      omega
    have hcard : (rows.image (Equiv.swap p.1 p.2)).card = rows.card :=
      Finset.card_image_of_injective _ (Equiv.swap p.1 p.2).injective
    have hparts := Finset.card_filter_add_card_filter_not (s := rows.image (Equiv.swap p.1 p.2)) (d ≤ ·)
    rw [List.length_cons]
    omega

/-- **Any exchanges that bring the decodes to the front are at least as many.** -/
theorem length_exchanges_le {numTokens : List ℤ} {ps : List (ℕ × ℕ)}
    (h : ∀ i n, numTokens[i]? = some n → (n = 1 ↔ exchange ps i < numDecodes numTokens)) :
    (exchanges numTokens).length ≤ ps.length := by
  have hnodup : (lateDecodes numTokens).Nodup := (List.nodup_range').filter _
  rw [length_exchanges, ← List.toFinset_card_of_nodup hnodup]
  refine card_crossing_le (d := numDecodes numTokens) fun i hi => ?_
  obtain ⟨hle, hone⟩ := mem_lateDecodes.mp (List.mem_toFinset.mp hi)
  exact ⟨hle, (h i 1 hone).mp rfl⟩

/-! ## The decodes come first -/

/-- A batch whose decodes come before all others. -/
def DecodesFirst (numTokens : List ℤ) : Prop := numTokens.Pairwise fun m n => n = 1 → m = 1

theorem numDecodes_eq_count (numTokens : List ℤ) : numDecodes numTokens = numTokens.count 1 := by
  have hrows : (List.range numTokens.length).map (numTokens[·]?) = numTokens.map some := by
    refine List.ext_getElem (by simp) fun i hi hi' => ?_
    simp only [List.length_map] at hi'
    rw [List.getElem_map, List.getElem_map, List.getElem_range, List.getElem?_eq_getElem hi']
  rw [numDecodes, decodes, ← List.countP_eq_length_filter,
    ← List.count_map_of_injective _ _ (Option.some_injective ℤ) 1, ← hrows, List.count, List.countP_map]
  exact List.countP_congr fun i _ => by simp

/-- Which rows are decodes, when these come first. -/
theorem DecodesFirst.lt_count : ∀ {numTokens : List ℤ}, DecodesFirst numTokens →
    ∀ {i : ℕ} {n : ℤ}, numTokens[i]? = some n → (n = 1 ↔ i < numTokens.count 1)
  | m :: numTokens, h, i, n, hn => by
    obtain ⟨hm, hrest⟩ := List.pairwise_cons.mp h
    by_cases hone : m = 1
    · subst hone
      rw [List.count_cons_self]
      cases i with
      | zero =>
        cases hn
        exact iff_of_true rfl (Nat.succ_pos _)
      | succ i => exact (DecodesFirst.lt_count hrest hn).trans Nat.succ_lt_succ_iff.symm
    · have hnone : ∀ n ∈ m :: numTokens, n ≠ 1 := by
        rintro n (- | ⟨_, hn⟩) heq
        · exact hone heq
        · exact hone (hm n hn heq)
      rw [List.count_eq_zero_of_not_mem fun hmem => hnone 1 hmem rfl]
      exact iff_of_false (hnone n (List.mem_of_getElem? hn)) (Nat.not_lt_zero i)

/-- The entries behind a border, and those before it, are told apart by what they are. -/
theorem filter_eq_drop_of_border {α : Type} {p : α → Prop} [DecidablePred p] {l : List α} {d : ℕ}
    (h : ∀ i x, l[i]? = some x → (p x ↔ i < d)) : l.filter (fun x => ¬ p x) = l.drop d := by
  have htake : ∀ x ∈ l.take d, p x := by
    intro x hx
    obtain ⟨i, hi⟩ := List.mem_iff_getElem?.mp hx
    have hlt := ((List.getElem?_eq_some_iff.mp hi).1).trans_le (List.length_take_le d l)
    rw [List.getElem?_take_of_lt hlt] at hi
    exact (h i x hi).mpr hlt
  have hdrop : ∀ x ∈ l.drop d, ¬ p x := by
    intro x hx hp
    obtain ⟨i, hi⟩ := List.mem_iff_getElem?.mp hx
    rw [List.getElem?_drop] at hi
    exact absurd ((h (d + i) x hi).mp hp) (Nat.not_lt.mpr (Nat.le_add_right d i))
  conv_lhs => rw [← List.take_append_drop d l]
  rw [List.filter_append, List.filter_eq_nil_iff.mpr fun x hx => by simp [htake x hx],
    List.filter_eq_self.mpr fun x hx => by simp [hdrop x hx], List.nil_append]

/-- **Rows on their sides of the border**: the ones, and the others behind them. -/
theorem eq_append_of_border {numTokens : List ℤ} {d : ℕ} (hle : d ≤ numTokens.length)
    (h : ∀ i n, numTokens[i]? = some n → (n = 1 ↔ i < d)) :
    numTokens = List.replicate d 1 ++ numTokens.filter (· ≠ 1) := by
  have htake : numTokens.take d = List.replicate d 1 := by
    refine List.eq_replicate_iff.mpr ⟨List.length_take_of_le hle, fun n hn => ?_⟩
    obtain ⟨i, hi⟩ := List.mem_iff_getElem?.mp hn
    have hlt := ((List.getElem?_eq_some_iff.mp hi).1).trans_le (List.length_take_le d numTokens)
    rw [List.getElem?_take_of_lt hlt] at hi
    exact (h i n hi).mpr hlt
  have hfilter : numTokens.filter (· ≠ 1) = numTokens.drop d := filter_eq_drop_of_border h
  rw [hfilter, ← htake, List.take_append_drop]

theorem decodesFirst_of_border {numTokens : List ℤ} {d : ℕ}
    (h : ∀ i n, numTokens[i]? = some n → (n = 1 ↔ i < d)) : DecodesFirst numTokens := by
  refine List.pairwise_iff_getElem.mpr fun i j hi hj hlt hone => ?_
  have hj' := (h j _ (List.getElem?_eq_getElem hj)).mp hone
  exact (h i _ (List.getElem?_eq_getElem hi)).mpr (hlt.trans hj')

/-! ## The border is found again -/

section Split

open Torchair

/-- The metadata that `_prepare_inputs` builds of a batch with these numbers of tokens. -/
structure IsMetadataOf (c : Torchair.AscendCommonAttentionMetadata) (numTokens : List ℤ) : Prop where
  queryStartLocCpu : c.queryStartLocCpu = 0 :: cumsum 0 numTokens
  numReqs : c.numReqs = numTokens.length
  numActualTokens : (c.numActualTokens : ℤ) = numTokens.sum
  maxQueryLen : (c.maxQueryLen : ℤ) = numTokens.foldl max 0

/-- The differences of the running sums. -/
theorem zipWith_sub_cumsum : ∀ (s : ℤ) (ns : List ℤ),
    List.zipWith (· - ·) (cumsum s ns) (s :: cumsum s ns) = ns
  | _, [] => rfl
  | s, n :: ns => by
    rw [cumsum, List.zipWith_cons_cons, zipWith_sub_cumsum (s + n) ns, add_sub_cancel_left]

theorem le_foldl_max : ∀ {ns : List ℤ} {m n : ℤ}, n = m ∨ n ∈ ns → n ≤ ns.foldl max m
  | [], m, n, h => by
    obtain rfl | h := h
    · exact le_rfl
    · cases h
  | n' :: ns, m, n, h => by
    rw [List.foldl_cons]
    obtain rfl | h := h
    · exact (le_max_left n n').trans (le_foldl_max (Or.inl rfl))
    · obtain rfl | h := List.mem_cons.mp h
      · exact (le_max_right m n).trans (le_foldl_max (Or.inl rfl))
      · exact le_foldl_max (Or.inr h)

theorem foldl_max_le : ∀ {ns : List ℤ} {m k : ℤ}, m ≤ k → (∀ n ∈ ns, n ≤ k) → ns.foldl max m ≤ k
  | [], _, _, hm, _ => hm
  | n :: ns, m, k, hm, h => by
    rw [List.foldl_cons]
    exact foldl_max_le (max_le hm (h n (.head _))) fun n' hn' => h n' (.tail _ hn')

/-- **The running sum behind the ones is their number.** -/
theorem getD_cumsum_replicate (others : List ℤ) : ∀ (d : ℕ) (s : ℤ),
    (s :: cumsum s (List.replicate d 1 ++ others)).getD d 0 = s + d
  | 0, s => by simp
  | d + 1, s => by
    have htail := getD_cumsum_replicate others d (s + 1)
    rw [List.replicate_succ, List.cons_append, cumsum, List.getD_cons_succ, htail]
    omega

/-- **`split_decodes_and_prefills` finds the border.** -/
theorem splitDecodesAndPrefills_of_border {c : Torchair.AscendCommonAttentionMetadata} {d : ℕ}
    {others : List ℤ}
    (hothers : ∀ n ∈ others, 1 < n) (hc : IsMetadataOf c (List.replicate d 1 ++ others)) :
    splitDecodesAndPrefills c 1 = .ok (d, others.length, d, others.sum) := by
  have hreqs : c.numReqs = d + others.length := by
    rw [hc.numReqs, List.length_append, List.length_replicate]
  have htokens : (c.numActualTokens : ℤ) = d + others.sum := by
    rw [hc.numActualTokens, List.sum_append, List.sum_replicate, nsmul_eq_mul, mul_one]
  have hone : ∀ n ∈ List.replicate d (1 : ℤ), n = 1 := fun n hn => List.eq_of_mem_replicate hn
  rw [splitDecodesAndPrefills]
  split
  · rename_i hmax
    have hnone : others = [] := by
      refine List.eq_nil_iff_forall_not_mem.mpr fun n hn => ?_
      have hle := le_foldl_max (m := 0) (Or.inr (List.mem_append_right (List.replicate d 1) hn))
      rw [← hc.maxQueryLen] at hle
      exact absurd (hothers n hn) (by omega)
    subst hnone
    rw [htokens, hreqs]
    simp
  · rename_i hmax
    obtain ⟨n, rest, rfl⟩ : ∃ n rest, others = n :: rest := by
      cases others with
      | cons n rest => exact ⟨n, rest, rfl⟩
      | nil =>
        refine absurd ?_ hmax
        have hle := foldl_max_le (m := 0) (k := 1) (by decide) fun n hn => (hone n hn).le
        rw [List.append_nil] at hc
        have hmaxQueryLen := hc.maxQueryLen
        omega
    have hlens : List.zipWith (· - ·) (c.queryStartLocCpu.drop 1) c.queryStartLocCpu =
        List.replicate d 1 ++ n :: rest := by
      rw [hc.queryStartLocCpu]
      exact zipWith_sub_cumsum 0 _
    have hfind : (List.replicate d (1 : ℤ) ++ n :: rest).findIdx? (((1 : ℕ) : ℤ) < ·) = some d := by
      rw [List.findIdx?_append, List.findIdx?_eq_none_iff.mpr fun n hn => by simp [hone n hn]]
      rw [List.findIdx?_cons, if_pos (by simpa using hothers n (.head _))]
      simp
    have hprefills : ∀ q ∈ (List.replicate d (1 : ℤ) ++ n :: rest).drop d, ((1 : ℕ) : ℤ) ≤ q := by
      intro q hq
      rw [List.drop_left' List.length_replicate] at hq
      exact (hothers q hq).le
    have hdecodes : ∀ q ∈ (List.replicate d (1 : ℤ) ++ n :: rest).take d, q ≤ ((1 : ℕ) : ℤ) := by
      intro q hq
      rw [List.take_left' List.length_replicate] at hq
      exact (hone q hq).le
    have hstart : c.queryStartLocCpu.getD d 0 = d := by
      rw [hc.queryStartLocCpu, getD_cumsum_replicate, zero_add]
    simp only [hlens, hfind]
    rw [if_pos ⟨hprefills, hdecodes⟩, hstart, htokens, hreqs, Nat.add_sub_cancel_left, add_sub_cancel_left]

end Split

/-! ## The rows of an exchanged batch -/

namespace InputBatch

variable {β τ : Type} [BatchUpdateBuilder β] [MultiGroupBlockTable τ] {b b' : InputBatch β τ}
  {requests : ReqId → Option FullRequestState} {numScheduledTokens : Dict ℤ} {numTokens numTokens' : List ℤ}
  {σ : Equiv.Perm ℕ}

omit [BatchUpdateBuilder β] [MultiGroupBlockTable τ] in
/-- The number of tokens of each row, when there is one for each. -/
theorem eq_map_of_scheduledTokens (hok : b.scheduledTokens numScheduledTokens = .ok numTokens) :
    numTokens = b.reqIds.map fun reqId => (reqId.bind numScheduledTokens.lookup).getD 0 := by
  refine eq_map_of_mapM_ok (fun x y hy => ?_) hok
  cases hlookup : x.bind numScheduledTokens.lookup with
  | none => simp [hlookup] at hy
  | some n =>
    simp only [hlookup, Except.ok.injEq] at hy
    exact hy.symm

/-- A row goes where it is sent. -/
theorem Exchanged.reqIds (h : b.Sound .between requests) (hexchanged : b.Exchanged b' requests σ) {i : ℕ}
    (hi : i < b.reqIds.length) : b'.reqIds[σ i]? = b.reqIds[i]? := by
  obtain ⟨id, hid⟩ := h.exists_reqId hi
  have hlookup := hexchanged.lookup id
  rw [index_of_reqIds h.layout hid] at hlookup
  rw [hid]
  exact (hexchanged.sound.layout.index id _).mp hlookup

/-- **No request is lost, and none comes twice.** -/
theorem Exchanged.perm (h : b.Sound .between requests) (hexchanged : b.Exchanged b' requests σ) :
    b'.reqIds.Perm b.reqIds := by
  have hnodup : ∀ {c : InputBatch β τ}, c.Sound .between requests → c.reqIds.Nodup := by
    intro c hc
    refine List.nodup_iff_injective_getElem.mpr fun i j heq => Fin.ext ?_
    obtain ⟨id, hid⟩ := hc.exists_reqId i.isLt
    obtain ⟨id', hid'⟩ := hc.exists_reqId j.isLt
    have hsame : some id = some id' := by
      rw [List.getElem?_eq_getElem i.isLt] at hid
      rw [List.getElem?_eq_getElem j.isLt] at hid'
      exact (Option.some.inj hid).symm.trans (heq.trans (Option.some.inj hid'))
    cases hsame
    have hindex := index_of_reqIds hc.layout hid
    rw [index_of_reqIds hc.layout hid'] at hindex
    exact (Option.some.inj hindex).symm
  refine (List.perm_ext_iff_of_nodup (hnodup hexchanged.sound) (hnodup h)).mpr fun reqId => ?_
  constructor
  · intro hmem
    obtain ⟨j, hj⟩ := List.mem_iff_getElem?.mp hmem
    obtain ⟨id, hid⟩ := hexchanged.sound.exists_reqId (List.getElem?_eq_some_iff.mp hj).1
    have hlookup := hexchanged.lookup id
    rw [index_of_reqIds hexchanged.sound.layout hid] at hlookup
    obtain ⟨i, hi, -⟩ := Option.map_eq_some_iff.mp hlookup.symm
    rw [Option.some.inj (hj.symm.trans hid)]
    exact List.mem_of_getElem? ((h.layout.index id i).mp hi)
  · intro hmem
    obtain ⟨i, hi⟩ := List.mem_iff_getElem?.mp hmem
    have hlt := (List.getElem?_eq_some_iff.mp hi).1
    exact List.mem_of_getElem? ((hexchanged.reqIds h hlt).trans hi)

/-- **The numbers of tokens move with their rows.** -/
theorem Exchanged.scheduledTokens (h : b.Sound .between requests) (hexchanged : b.Exchanged b' requests σ)
    (hok : b.scheduledTokens numScheduledTokens = .ok numTokens)
    (hok' : b'.scheduledTokens numScheduledTokens = .ok numTokens') :
    numTokens'.Perm numTokens ∧ ∀ i n, numTokens[i]? = some n → numTokens'[σ i]? = some n := by
  have hmap := eq_map_of_scheduledTokens hok
  have hmap' := eq_map_of_scheduledTokens hok'
  refine ⟨hmap ▸ hmap' ▸ (hexchanged.perm h).map _, fun i n hn => ?_⟩
  have hlt := (List.getElem?_eq_some_iff.mp hn).1
  rw [hmap, List.length_map] at hlt
  rw [hmap, List.getElem?_map] at hn
  rwa [hmap', List.getElem?_map, hexchanged.reqIds h hlt]

/-- What was exchanged, when the exchanges returned. -/
theorem Sound.exchanged_of_ok : ∀ {ps : List (ℕ × ℕ)} {b : InputBatch β τ}, b.Sound .between requests →
    ps.foldlM (fun b p => b.swapStates p.1 p.2) b = .ok b' → b.Exchanged b' requests (exchange ps)
  | [], b, h, hok => by
    cases hok
    exact ⟨h, rfl, fun id => by simp [exchange], rfl, rfl⟩
  | p :: ps, b, h, hok => by
    rw [List.foldlM_cons, bind_eq_ok] at hok
    obtain ⟨b₁, hswap, hok⟩ := hok
    obtain ⟨id, id', hid, hid', -⟩ := swapStates_eq_ok h.layout hswap
    have hlt := (List.getElem?_eq_some_iff.mp ((h.layout.index id p.1).mp hid)).1
    have hlt' := (List.getElem?_eq_some_iff.mp ((h.layout.index id' p.2).mp hid')).1
    obtain ⟨b₂, hswap', -, hswapped⟩ := h.swapStates_returns hlt hlt'
    cases hswap.symm.trans hswap'
    have hexchanged := hswapped.sound.exchanged_of_ok hok
    refine ⟨hexchanged.sound, hexchanged.seen.trans hswapped.seen, fun id => ?_,
      hexchanged.samplingMetadata.trans hswapped.samplingMetadata,
      hexchanged.config.trans hswapped.config⟩
    rw [hexchanged.lookup, hswapped.lookup, Option.map_map]
    rfl

/-- **Which exchanges bring the decodes to the front.** -/
theorem Exchanged.decodesFirst_iff (h : b.Sound .between requests) (hexchanged : b.Exchanged b' requests σ)
    (hok : b.scheduledTokens numScheduledTokens = .ok numTokens)
    (hok' : b'.scheduledTokens numScheduledTokens = .ok numTokens') :
    DecodesFirst numTokens' ↔ ∀ i n, numTokens[i]? = some n → (n = 1 ↔ σ i < numDecodes numTokens) := by
  obtain ⟨hperm, hmoved⟩ := hexchanged.scheduledTokens h hok hok'
  have hcount : numTokens'.count 1 = numDecodes numTokens := by
    rw [numDecodes_eq_count, hperm.count_eq]
  constructor
  · intro hfirst i n hn
    rw [← hcount]
    exact hfirst.lt_count (hmoved i n hn)
  · intro hborder
    refine decodesFirst_of_border (d := numDecodes numTokens) fun j n hn => ?_
    have hlt : j < b'.reqIds.length := by
      have hlt := (List.getElem?_eq_some_iff.mp hn).1
      rwa [eq_map_of_scheduledTokens hok', List.length_map] at hlt
    obtain ⟨id, hid⟩ := hexchanged.sound.exists_reqId hlt
    have hlookup := hexchanged.lookup id
    rw [index_of_reqIds hexchanged.sound.layout hid] at hlookup
    obtain ⟨i, hi, rfl⟩ := Option.map_eq_some_iff.mp hlookup.symm
    have hi' := (List.getElem?_eq_some_iff.mp ((h.layout.index id i).mp hi)).1
    have hlt' : i < numTokens.length := by rwa [eq_map_of_scheduledTokens hok, List.length_map]
    have hget := List.getElem?_eq_getElem hlt'
    rw [hmoved i _ hget] at hn
    cases hn
    exact hborder i _ hget

open Torchair in
/-- **The MLA builder puts the decodes first, and splits the batch behind them.**  Every batch whose requests
are scheduled is permuted by exchanges of rows; the requests with one token come first afterwards, no shorter
row of exchanges achieves that, and the builder says whether there was one.  When every request has a token
scheduled, the split of the metadata built of these rows returns the exact counts, and the two assertions
behind it hold. -/
theorem reorderBatch_split (h : b.Sound .between requests)
    (hscheduled : ∀ id ∈ b.reqIdToIndex, id ∈ numScheduledTokens) :
    ∃ numTokens b' modified numTokens', b.scheduledTokens numScheduledTokens = .ok numTokens ∧
      b.reorderBatch numScheduledTokens = .ok (b', modified) ∧
      b.Exchanged b' requests (exchange (exchanges numTokens)) ∧
      b'.scheduledTokens numScheduledTokens = .ok numTokens' ∧
      DecodesFirst numTokens' ∧
      (modified = true ↔ exchanges numTokens ≠ []) ∧
      (∀ (ps : List (ℕ × ℕ)) (b₁ : InputBatch β τ) (numTokens₁ : List ℤ),
        ps.foldlM (fun b p => b.swapStates p.1 p.2) b = .ok b₁ →
        b₁.scheduledTokens numScheduledTokens = .ok numTokens₁ → DecodesFirst numTokens₁ →
          (exchanges numTokens).length ≤ ps.length) ∧
      ((∀ n ∈ numTokens, 1 ≤ n) → ∀ c, IsMetadataOf c numTokens' →
        splitDecodesAndPrefills c 1 = .ok (numTokens.count 1, (numTokens.filter (· ≠ 1)).length,
          numTokens.count 1, (numTokens.filter (· ≠ 1)).sum) ∧
        numTokens.count 1 + (numTokens.filter (· ≠ 1)).length = c.numReqs ∧
        (numTokens.count 1 : ℤ) + (numTokens.filter (· ≠ 1)).sum = c.numActualTokens) := by
  obtain ⟨numTokens, b', modified, hnum, -, hreorder, hexchanged⟩ := h.reorderBatch_returns hscheduled
  have hscheduled' : ∀ id ∈ b'.reqIdToIndex, id ∈ numScheduledTokens := by
    intro id hid
    refine hscheduled id (AList.lookup_isSome.mp ?_)
    rw [← AList.lookup_isSome, hexchanged.lookup, Option.isSome_map] at hid
    exact hid
  obtain ⟨numTokens', -, -, hnum', -⟩ := hexchanged.sound.reorderBatch_returns hscheduled'
  have hfirst : DecodesFirst numTokens' :=
    (hexchanged.decodesFirst_iff h hnum hnum').mpr fun i n hn => exchange_border hn
  obtain ⟨hperm, -⟩ := hexchanged.scheduledTokens h hnum hnum'
  have hmodified : modified = decide (exchanges numTokens ≠ []) := by
    simp only [reorderBatch, hnum, bind_eq_ok] at hreorder
    obtain ⟨_, hnum₁, _, -, hok⟩ := hreorder
    cases hnum₁
    cases hok
    rfl
  refine ⟨numTokens, b', modified, numTokens', hnum, hreorder, hexchanged, hnum', hfirst, ?_, ?_, ?_⟩
  · rw [hmodified, decide_eq_true_eq]
  · intro ps b₁ numTokens₁ hok hnum₁ hfirst₁
    exact length_exchanges_le (((h.exchanged_of_ok hok).decodesFirst_iff h hnum hnum₁).mp hfirst₁)
  · intro hpos c hc
    have hrows := eq_append_of_border List.count_le_length fun i n hn => hfirst.lt_count hn
    have hothers : ∀ n ∈ numTokens'.filter (· ≠ 1), 1 < n := by
      intro n hn
      obtain ⟨hmem, hne⟩ := List.mem_filter.mp hn
      exact lt_of_le_of_ne (hpos n (hperm.mem_iff.mp hmem)) (Ne.symm (of_decide_eq_true hne))
    have hsplit := splitDecodesAndPrefills_of_border hothers (hrows ▸ hc)
    have hcount := hperm.count_eq 1
    have hfilter := hperm.filter (· ≠ 1)
    have hreqs := hc.numReqs
    have htokens := hc.numActualTokens
    rw [hrows, List.length_append, List.length_replicate] at hreqs
    rw [hrows, List.sum_append, List.sum_replicate, nsmul_eq_mul, mul_one] at htokens
    rw [← hcount, ← hfilter.length_eq, ← hfilter.sum_eq]
    exact ⟨hsplit, hreqs.symm, htokens.symm⟩

end InputBatch

/-- Two new requests, the first with two tokens, are exchanged. -/
theorem reorderBatch_split_twoNew : ∃ w,
    (ServedRunner.start .small 8).runner.updateStates (ServedRunner.twoNew .greedy .greedy) .sorted = .ok w ∧
    ∃ b' modified numTokens',
      w.inputBatch.reorderBatch (ServedRunner.twoNew .greedy .greedy).numScheduledTokens =
        .ok (b', modified) ∧
      b'.scheduledTokens (ServedRunner.twoNew .greedy .greedy).numScheduledTokens = .ok numTokens' ∧
      DecodesFirst numTokens' := by
  have hpromised : (ServedRunner.start .small 8).runner.Promised (ServedRunner.twoNew .greedy .greedy) := by
    decide +kernel
  obtain ⟨w, hw⟩ := exists_of_isOk
    (x := (ServedRunner.start .small 8).runner.updateStates (ServedRunner.twoNew .greedy .greedy) .sorted)
    (by decide +kernel)
  have hupdated := RowRunner.updateStates_eq_ok
    (ServedRunner.coupled_of_run (M := Unit) (ServedRunner.start_initial rfl) Run.refl) hpromised hw
  obtain ⟨known, hsound, -⟩ := hupdated.coupled.sound
  obtain ⟨_, b', modified, numTokens', -, hreorder, -, hnum', hfirst, -⟩ :=
    InputBatch.reorderBatch_split hsound fun id hid => hupdated.scheduled hpromised hid
  exact ⟨w, hw, b', modified, numTokens', hreorder, hnum', hfirst⟩

end VllmAscend
