import VllmAscend.Machinery.Tensor

/-!
# Machinery/TopK — the places of the largest entries

    xs          3 7 1 7 5
    top 2       1 3
    top 3       1 3 4
    top 1       1  or  3

What selects the `k` largest entries returns `k` places, none of whose entries is below an entry that was not
selected (`IsTopk`).  Which of equal entries it takes is left open: any entry that fewer than `k` exceed may be
among them (`mem_topkPreferring`).
-/

namespace Machinery

variable {K : Type} [LinearOrder K]

/-- **The places of `k` largest entries.** -/
structure IsTopk (xs : List K) (k : ℕ) (idx : List ℕ) : Prop where
  length : idx.length = k
  nodup : idx.Nodup
  lt : ∀ i ∈ idx, i < xs.length
  le : ∀ i ∈ idx, ∀ j, j ∉ idx → ∀ x ∈ xs[i]?, ∀ y ∈ xs[j]?, y ≤ x

/-- A function that selects from any entries. -/
def Topks (topk : List K → ℕ → List ℕ) : Prop := ∀ xs k, k ≤ xs.length → IsTopk xs k (topk xs k)

/-- The places of the entries that satisfy `p`. -/
def placesWith (p : K → Prop) [DecidablePred p] (xs : List K) : Finset ℕ :=
  (Finset.range xs.length).filter fun i => ∀ x ∈ xs[i]?, p x

omit [LinearOrder K] in
theorem mem_placesWith {p : K → Prop} [DecidablePred p] {xs : List K} {i : ℕ} :
    i ∈ placesWith p xs ↔ ∃ x, xs[i]? = some x ∧ p x := by
  rw [placesWith, Finset.mem_filter, Finset.mem_range]
  constructor
  · rintro ⟨hlt, hp⟩
    exact ⟨_, List.getElem?_eq_getElem hlt, hp _ (List.getElem?_eq_getElem hlt)⟩
  · rintro ⟨x, hx, hp⟩
    refine ⟨(List.getElem?_eq_some_iff.mp hx).1, fun y hy => ?_⟩
    obtain rfl := Option.some.inj (hx.symm.trans hy)
    exact hp

/-- **What is selected satisfies `p`**, when enough entries do, and all others are below these. -/
theorem IsTopk.forall_of_card {xs : List K} {k : ℕ} {idx : List ℕ} (h : IsTopk xs k idx) {p : K → Prop}
    [DecidablePred p] (hk : k ≤ (placesWith p xs).card) (hlt : ∀ x y, p x → ¬ p y → y < x) :
    ∀ i ∈ idx, ∀ x ∈ xs[i]?, p x := by
  intro i hi x hx
  by_contra hnot
  -- a place that satisfies `p` is left out, as `i` takes its room
  have hcard : (idx.toFinset.erase i).card < (placesWith p xs).card := by
    rw [Finset.card_erase_of_mem (List.mem_toFinset.mpr hi), List.toFinset_card_of_nodup h.nodup, h.length]
    have hpos : 0 < k := h.length ▸ List.length_pos_of_mem hi
    omega
  obtain ⟨j, hj, hnotMem⟩ := Finset.exists_mem_notMem_of_card_lt_card hcard
  obtain ⟨y, hy, hp⟩ := mem_placesWith.mp hj
  have hne : j ≠ i := by
    rintro rfl
    exact hnot (Option.some.inj (hx.symm.trans hy) ▸ hp)
  have hout : j ∉ idx := fun hmem => hnotMem (Finset.mem_erase.mpr ⟨hne, List.mem_toFinset.mpr hmem⟩)
  exact absurd (h.le i hi j hout x hx y hy) (not_le.mpr (hlt y x hp hnot))

/-- **The first places of a descending order** are places of largest entries. -/
theorem isTopk_take [Inhabited K] {xs : List K} {p : List ℕ} (hperm : p.Perm (List.range xs.length))
    (hsorted : p.Pairwise fun i j => xs.getD j default ≤ xs.getD i default) {k : ℕ} (hk : k ≤ xs.length) :
    IsTopk xs k (p.take k) := by
  have hnodup : p.Nodup := hperm.nodup_iff.mpr List.nodup_range
  refine ⟨?_, hnodup.sublist (List.take_sublist k p), fun i hi => ?_, fun i hi j hj x hx y hy => ?_⟩
  · exact List.length_take_of_le (hk.trans_eq (hperm.length_eq.trans List.length_range).symm)
  · exact List.mem_range.mp (hperm.mem_iff.mp (List.mem_of_mem_take hi))
  · have hmem : j ∈ p := hperm.mem_iff.mpr (List.mem_range.mpr (List.getElem?_eq_some_iff.mp hy).1)
    rw [← List.take_append_drop k p] at hmem hsorted
    have hdrop : j ∈ p.drop k := (List.mem_append.mp hmem).resolve_left hj
    have hle := (List.pairwise_append.mp hsorted).2.2 i hi j hdrop
    rwa [List.getD_eq_getElem?_getD, List.getD_eq_getElem?_getD, hx, hy] at hle

section Selection

variable (xs : List K)

/-- What the places are sorted by: the larger entry first, and `j` first among equal ones. -/
def topkKey [Inhabited K] (j i : ℕ) : Lex (Kᵒᵈ × ℕ) :=
  toLex (OrderDual.toDual (xs.getD i default), if i = j then 0 else 1)

/-- The places of `k` largest entries, `j` preferred to equal ones. -/
def topkPreferring [Inhabited K] (j k : ℕ) : List ℕ :=
  ((List.range xs.length).insertionSort fun a b => topkKey xs j a ≤ topkKey xs j b).take k

variable {xs} [Inhabited K]

/-- A smaller key is that of an entry that is not smaller. -/
theorem le_of_topkKey_le {j a b : ℕ} (h : topkKey xs j a ≤ topkKey xs j b) :
    xs.getD b default ≤ xs.getD a default := by
  obtain hlt | ⟨heq, -⟩ := Prod.Lex.le_iff.mp h
  · exact (OrderDual.toDual_lt_toDual.mp hlt).le
  · exact (OrderDual.toDual.injective heq).ge

/-- No other entry is preferred to an equal one at `j`. -/
theorem lt_of_topkKey_le {j a : ℕ} (hne : a ≠ j) (h : topkKey xs j a ≤ topkKey xs j j) :
    xs.getD j default < xs.getD a default := by
  obtain hlt | ⟨-, hle⟩ := Prod.Lex.le_iff.mp h
  · exact OrderDual.toDual_lt_toDual.mp hlt
  · simp [topkKey, hne] at hle

variable (xs) in
/-- The places, sorted. -/
theorem exists_sorted (j k : ℕ) : ∃ rest,
    (topkPreferring xs j k ++ rest).Perm (List.range xs.length) ∧
      ∀ a ∈ topkPreferring xs j k, ∀ b ∈ rest, topkKey xs j a ≤ topkKey xs j b := by
  have : IsTrans ℕ fun a b => topkKey xs j a ≤ topkKey xs j b := ⟨fun _ _ _ => le_trans⟩
  have : Std.Total fun a b : ℕ => topkKey xs j a ≤ topkKey xs j b := ⟨fun _ _ => le_total _ _⟩
  have hsorted := List.pairwise_insertionSort (fun a b => topkKey xs j a ≤ topkKey xs j b) (List.range xs.length)
  refine ⟨((List.range xs.length).insertionSort fun a b => topkKey xs j a ≤ topkKey xs j b).drop k, ?_, ?_⟩
  · rw [topkPreferring, List.take_append_drop]
    exact List.perm_insertionSort _ _
  · rw [← List.take_append_drop k ((List.range xs.length).insertionSort _)] at hsorted
    exact (List.pairwise_append.mp hsorted).2.2

theorem isTopk_topkPreferring (j : ℕ) {k : ℕ} (hk : k ≤ xs.length) : IsTopk xs k (topkPreferring xs j k) := by
  have : IsTrans ℕ fun a b => topkKey xs j a ≤ topkKey xs j b := ⟨fun _ _ _ => le_trans⟩
  have : Std.Total fun a b : ℕ => topkKey xs j a ≤ topkKey xs j b := ⟨fun _ _ => le_total _ _⟩
  have hsorted := List.pairwise_insertionSort (fun a b => topkKey xs j a ≤ topkKey xs j b) (List.range xs.length)
  exact isTopk_take (List.perm_insertionSort _ _) (hsorted.imp le_of_topkKey_le) hk

/-- **An entry that fewer than `k` exceed may be selected.** -/
theorem mem_topkPreferring {j k : ℕ} {x : K} (hx : xs[j]? = some x) (hk : k ≤ xs.length)
    (hcard : (placesWith (x < ·) xs).card < k) : j ∈ topkPreferring xs j k := by
  by_contra hnot
  obtain ⟨rest, hperm, hle⟩ := exists_sorted xs j k
  have htopk := isTopk_topkPreferring j hk
  have hlt := (List.getElem?_eq_some_iff.mp hx).1
  have hrest : j ∈ rest := (List.mem_append.mp (hperm.mem_iff.mpr (List.mem_range.mpr hlt))).resolve_left hnot
  -- else all that is selected exceeds it
  have hsub : (topkPreferring xs j k).toFinset ⊆ placesWith (x < ·) xs := by
    intro i hi
    have hi := List.mem_toFinset.mp hi
    have hne : i ≠ j := fun heq => hnot (heq ▸ hi)
    have hexceeds := lt_of_topkKey_le hne (hle i hi j hrest)
    have hi := htopk.lt i hi
    rw [List.getD_eq_getElem?_getD, List.getD_eq_getElem?_getD, hx, List.getElem?_eq_getElem hi] at hexceeds
    exact mem_placesWith.mpr ⟨_, List.getElem?_eq_getElem hi, hexceeds⟩
  have hle := Finset.card_le_card hsub
  rw [List.toFinset_card_of_nodup htopk.nodup, htopk.length] at hle
  omega

/-- The places of the `k` largest entries, the first place preferred. -/
theorem topks_topkPreferring : Topks fun (xs : List K) k => topkPreferring xs 0 k := fun _ _ hk =>
  isTopk_topkPreferring 0 hk

end Selection

end Machinery
