import VllmAscend.Machinery.Ragged

/-!
# Machinery/Launch — tasks shared out among cores

    core 0   0 … m-1 │ core 1   m … 2m-1 │ … │ last core   … n-1

Every core takes `m` consecutive tasks, the last one what is left (`flatMap_coreTasks`).  The tasks of
different cores may run in any order: it does not matter when each adds to what is there (`foldl_gain`),
or writes into a place of its own (`foldl_own`).  The second part finds the segment of a task by
subtracting the lengths of the segments before it (`getElem?_repeatInterleave`).  A loop over a list with
its indices is known when each round is (`mapM_zipIdx_exists`, `foldlM_zipIdx_eq`).
-/

namespace Machinery

variable {α β R : Type}

/-! ## Cores -/

/-- Division, rounded up. -/
def ceilDiv (n m : ℕ) : ℕ := (n + m - 1) / m

theorem ceilDiv_pos {n m : ℕ} (hn : 0 < n) (hm : 0 < m) : 0 < ceilDiv n m :=
  Nat.div_pos (by omega) hm

theorem le_ceilDiv_mul {m : ℕ} (n : ℕ) (hm : 0 < m) : n ≤ ceilDiv n m * m := by
  have h := Nat.lt_div_mul_add hm (a := n + m - 1)
  rw [ceilDiv]
  omega

/-- The tasks of a core, of `n` tasks with `m` for each core. -/
def coreTasks (n m blockIdx : ℕ) : List ℕ :=
  List.range' (blockIdx * m) (min (blockIdx * m + m) n - blockIdx * m)

theorem flatMap_coreTasks_range (n m : ℕ) : ∀ k : ℕ,
    (List.range k).flatMap (coreTasks n m) = List.range (min (k * m) n)
  | 0 => by simp
  | k + 1 => by
    rw [List.range_succ, List.flatMap_append, flatMap_coreTasks_range n m k, List.flatMap_singleton,
      coreTasks, Nat.succ_mul]
    obtain hle | hlt := le_or_gt (k * m) n
    · rw [min_eq_left hle, List.range_eq_range', List.range_eq_range']
      have happend := @List.range'_append 0 (k * m) (min (k * m + m) n - k * m) 1
      rw [Nat.zero_add, Nat.one_mul] at happend
      rw [happend]
      congr 1
      omega
    · have hempty : min (k * m + m) n - k * m = 0 := by omega
      rw [hempty, List.range'_zero, List.append_nil]
      congr 1
      omega

/-- **Every task runs once, on one core.** -/
theorem flatMap_coreTasks {m : ℕ} (n : ℕ) (hm : 0 < m) :
    (List.range (ceilDiv n m)).flatMap (coreTasks n m) = List.range n := by
  rw [flatMap_coreTasks_range, min_eq_right (le_ceilDiv_mul n hm)]

/-- The tasks of a core that takes every `c`-th task, from its own number on. -/
def stridedTasks (n c blockIdx : ℕ) : List ℕ :=
  List.range' blockIdx ((n - blockIdx + c - 1) / c) c

theorem mem_stridedTasks {n c b i : ℕ} (hb : b < c) : i ∈ stridedTasks n c b ↔ i < n ∧ i % c = b := by
  have hc : 0 < c := Nat.zero_lt_of_lt hb
  rw [stridedTasks, List.mem_range']
  constructor
  · rintro ⟨k, hk, rfl⟩
    have hround : k + 1 ≤ (n - b + c - 1) / c := hk
    rw [Nat.le_div_iff_mul_le hc, Nat.add_mul, Nat.one_mul, Nat.mul_comm k] at hround
    refine ⟨by omega, ?_⟩
    rw [Nat.add_mul_mod_self_left, Nat.mod_eq_of_lt hb]
  · rintro ⟨hi, rfl⟩
    have hdiv := Nat.mod_add_div i c
    refine ⟨i / c, ?_, hdiv.symm⟩
    rw [← Nat.succ_le_iff, Nat.le_div_iff_mul_le hc, Nat.succ_mul, Nat.mul_comm (i / c)]
    omega

/-- **Every task runs once, on one core**, when the cores take turns. -/
theorem flatMap_stridedTasks {c : ℕ} (n : ℕ) (hc : 0 < c) :
    ((List.range c).flatMap (stridedTasks n c)).Perm (List.range n) := by
  refine (List.perm_ext_iff_of_nodup ?_ List.nodup_range).mpr fun i => ?_
  · refine List.nodup_flatMap.mpr ⟨fun b _ => List.nodup_range' c hc, ?_⟩
    refine List.nodup_range.imp_of_mem fun {b b'} hb hb' hne => ?_
    intro i hi hi'
    have hmod := ((mem_stridedTasks (List.mem_range.mp hb)).mp hi).2
    have hmod' := ((mem_stridedTasks (List.mem_range.mp hb')).mp hi').2
    exact hne (hmod.symm.trans hmod')
  · rw [List.mem_flatMap, List.mem_range]
    constructor
    · rintro ⟨b, hb, hi⟩
      exact ((mem_stridedTasks (List.mem_range.mp hb)).mp hi).1
    · intro hi
      have hlt := Nat.mod_lt i hc
      exact ⟨i % c, List.mem_range.mpr hlt, (mem_stridedTasks hlt).mpr ⟨hi, rfl⟩⟩

/-! ## Any order -/

/-- **Tasks that add**: in any order all amounts are there in the end. -/
theorem foldl_gain [AddCommMonoid R] {step : ℕ → (α → R) → α → R} {gain : ℕ → α → R}
    (hstep : ∀ i y a, step i y a = y a + gain i a) {order tasks : List ℕ} (h : order.Perm tasks)
    (y : α → R) (a : α) :
    order.foldl (fun y i => step i y) y a = y a + (tasks.map fun i => gain i a).sum := by
  have hfold : ∀ (l : List ℕ) (y : α → R),
      l.foldl (fun y i => step i y) y a = y a + (l.map fun i => gain i a).sum := by
    intro l
    induction l with
    | nil => simp
    | cons i l ih =>
      intro y
      rw [List.foldl_cons, ih, hstep, List.map_cons, List.sum_cons, add_assoc]
  rw [hfold, (h.map _).sum_eq]

/-- The only task that adds. -/
theorem sum_range_single [AddCommMonoid R] {f : ℕ → R} {n i : ℕ} (hi : i < n)
    (h : ∀ j < n, j ≠ i → f j = 0) : ((List.range n).map f).sum = f i := by
  rw [List.sum_map_eq_nsmul_single i f fun j hne hj => h j (List.mem_range.mp hj) hne,
    List.count_eq_one_of_mem List.nodup_range (List.mem_range.mpr hi), one_nsmul]

/-- **Tasks that write**, each into its own place: in the end its value is there. -/
theorem foldl_own {step : ℕ → (α → R) → α → R} {t : ℕ} {a : α} {v : R}
    (hown : ∀ y, step t y a = v) (hother : ∀ i y, i ≠ t → step i y a = y a) {order : List ℕ}
    (h : t ∈ order) (y : α → R) : order.foldl (fun y i => step i y) y a = v := by
  have hkeep : ∀ (l : List ℕ) (y : α → R), y a = v → l.foldl (fun y i => step i y) y a = v := by
    intro l
    induction l with
    | nil => exact fun y hy => hy
    | cons i l ih =>
      intro y hy
      refine ih _ ?_
      obtain rfl | hne := eq_or_ne i t
      · exact hown y
      · exact (hother i y hne).trans hy
  obtain ⟨before, after, rfl⟩ := List.append_of_mem h
  rw [List.foldl_append, List.foldl_cons]
  exact hkeep after _ (hown _)

/-! ## Segments -/

/-- How many segments end at or before `idx`. -/
def segmentIdx : List ℤ → ℤ → ℕ
  | [], _ => 0
  | n :: lens, idx => if n ≤ idx then segmentIdx lens (idx - n) + 1 else 0

/-- **The segment of a task is that of its entry among the repeated values**, also when there are empty
segments. -/
theorem getElem?_repeatInterleave : ∀ {xs : List α} {lens : List ℕ} {i : ℕ},
    xs.length = lens.length → i < lens.sum →
      segmentIdx (lens.map Nat.cast) i < lens.length ∧
        (repeatInterleave xs lens)[i]? = xs[segmentIdx (lens.map Nat.cast) i]?
  | [], lens, idx, hlength, hidx => by
    rw [List.eq_nil_of_length_eq_zero hlength.symm] at hidx
    exact absurd hidx (Nat.not_lt_zero idx)
  | x :: xs, [], _, hlength, _ => by cases hlength
  | x :: xs, n :: lens, idx, hlength, hidx => by
    rw [List.sum_cons] at hidx
    rw [repeatInterleave, List.zipWith_cons_cons, List.flatten_cons, List.map_cons, segmentIdx]
    obtain hle | hlt := le_or_gt n idx
    · have hcast : ((idx : ℤ) - (n : ℤ)) = ((idx - n : ℕ) : ℤ) := (Int.ofNat_sub hle).symm
      obtain ⟨ihlt, ih⟩ := getElem?_repeatInterleave (i := idx - n)
        (Nat.succ.inj hlength) (by omega)
      rw [if_pos (Int.ofNat_le.mpr hle), hcast, List.getElem?_append_right (by simpa using hle),
        List.length_replicate]
      exact ⟨Nat.succ_lt_succ ihlt, ih⟩
    · rw [if_neg (by omega), List.getElem?_append_left (by simpa using hlt),
        List.getElem?_replicate_of_lt hlt]
      exact ⟨Nat.succ_pos _, rfl⟩

theorem length_repeatInterleave : ∀ {xs : List α} {lens : List ℕ}, xs.length = lens.length →
    (repeatInterleave xs lens).length = lens.sum
  | [], lens, h => by
    rw [List.eq_nil_of_length_eq_zero h.symm]
    rfl
  | x :: xs, [], h => by cases h
  | x :: xs, n :: lens, h => by
    rw [List.sum_cons, ← length_repeatInterleave (Nat.succ.inj h), repeatInterleave,
      List.zipWith_cons_cons, List.flatten_cons, List.length_append, List.length_replicate]
    rfl

theorem mem_of_mem_repeatInterleave : ∀ {xs : List α} {lens : List ℕ} {x : α},
    x ∈ repeatInterleave xs lens → x ∈ xs
  | [], _, _, h => by simp [repeatInterleave] at h
  | _ :: _, [], _, h => by simp [repeatInterleave] at h
  | x' :: xs, n :: lens, x, h => by
    rw [repeatInterleave, List.zipWith_cons_cons, List.flatten_cons, List.mem_append] at h
    obtain hhead | htail := h
    · exact List.mem_cons.mpr (Or.inl (List.eq_of_mem_replicate hhead))
    · exact List.mem_cons_of_mem _ (mem_of_mem_repeatInterleave htail)

/-! ## Loops with an index -/

theorem mapM_zipIdx_from {f : α × ℕ → Option β} {P : ℕ → β → Prop} : ∀ {l : List α} {k : ℕ},
    (∀ i x, l[i]? = some x → ∃ b, f (x, k + i) = some b ∧ P (k + i) b) →
      ∃ bs, (l.zipIdx k).mapM f = some bs ∧ bs.length = l.length ∧ ∀ i b, bs[i]? = some b → P (k + i) b
  | [], _, _ => ⟨[], rfl, rfl, fun _ _ h => by cases h⟩
  | x :: l, k, h => by
    obtain ⟨b, hb, hP⟩ := h 0 x rfl
    obtain ⟨bs, hbs, hlength, hall⟩ := mapM_zipIdx_from (f := f) (P := P) (l := l) (k := k + 1)
      fun i y hy => by
        rw [Nat.add_right_comm]
        exact h (i + 1) y hy
    refine ⟨b :: bs, ?_, congrArg (· + 1) hlength, fun i b' hb' => ?_⟩
    · rw [Nat.add_zero] at hb
      rw [List.zipIdx_cons, List.mapM_cons, hb, hbs]
      rfl
    · cases i with
      | zero =>
        cases hb'
        exact hP
      | succ i =>
        have hrest := hall i b' hb'
        rwa [Nat.add_right_comm] at hrest

/-- **A map over a list with its indices** returns when each entry does. -/
theorem mapM_zipIdx_exists {f : α × ℕ → Option β} {P : ℕ → β → Prop} {l : List α}
    (h : ∀ i x, l[i]? = some x → ∃ b, f (x, i) = some b ∧ P i b) :
    ∃ bs, l.zipIdx.mapM f = some bs ∧ bs.length = l.length ∧ ∀ i b, bs[i]? = some b → P i b := by
  have hfrom := mapM_zipIdx_from (f := f) (P := P) (l := l) (k := 0)
  simp only [Nat.zero_add] at hfrom
  exact hfrom h

theorem foldlM_zipIdx_from {S : Type} {f : S → α × ℕ → Option S} (state : ℕ → S) :
    ∀ {l : List α} {k : ℕ},
      (∀ i x, l[i]? = some x → f (state (k + i)) (x, k + i) = some (state (k + i + 1))) →
        (l.zipIdx k).foldlM f (state k) = some (state (k + l.length))
  | [], _, _ => rfl
  | x :: l, k, h => by
    have hhead := h 0 x rfl
    have htail := foldlM_zipIdx_from (f := f) state (l := l) (k := k + 1) fun i y hy => by
      rw [Nat.add_right_comm]
      exact h (i + 1) y hy
    rw [Nat.add_zero] at hhead
    rw [List.zipIdx_cons, List.foldlM_cons, hhead, List.length_cons, ← Nat.add_assoc,
      Nat.add_right_comm]
    exact htail

/-- **A loop over a list with its indices** whose states are known. -/
theorem foldlM_zipIdx_eq {S : Type} {f : S → α × ℕ → Option S} (state : ℕ → S) {l : List α}
    (h : ∀ i x, l[i]? = some x → f (state i) (x, i) = some (state (i + 1))) :
    l.zipIdx.foldlM f (state 0) = some (state l.length) := by
  have hfrom := foldlM_zipIdx_from (f := f) state (l := l) (k := 0)
  simp only [Nat.zero_add] at hfrom
  exact hfrom h

end Machinery
