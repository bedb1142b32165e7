import VllmAscend.Machinery.WhileLoop

/-!
# Torchair/GraphBatchSizes — the batch sizes a decode graph is compiled for

    configured ──init──▸ ──sorted──▸ ──pop > max──▸ ──append max──▸ ──* d──▸ ──align, drop──▸ sizes

`NPUTorchairModelRunner` compiles one graph for each entry of `torchair_graph_batch_sizes` and pads
every decode step to the first entry that holds it.  The list is made in several passes, and up to
the last of them its largest entry holds the largest decode step (`Tops`).  The last pass, under
expert parallelism, rounds the entries up to `tp_size` and drops those above
`max_num_batched_tokens`; the largest step has an entry exactly when its own rounding is not
dropped (`graphSizesFit_iff`).
-/

namespace VllmAscend.Torchair

open Machinery

/-- What the runner reads of the engine's configuration. -/
structure RunnerConfig where
  maxNumReqs : ℤ
  decodeTokenPerReq : ℤ
  tpSize : ℤ
  maxNumBatchedTokens : ℤ
  enableExpertParallel : Bool
  maxNumReqs_pos : 0 < maxNumReqs
  decodeTokenPerReq_pos : 0 < decodeTokenPerReq
  tpSize_pos : 0 < tpSize

inductive RunnerError where
  | valueError (message : String)
  /-- `IndexError` of `[][-1]` -/
  | indexError
  /-- the maximum of no entries -/
  | emptyMax
  | outOfRounds
deriving DecidableEq

/-! ## The passes -/

section Passes

variable (c : RunnerConfig)

def initBody : List ℤ × ℤ → Except RunnerError (Pass (List ℤ × ℤ))
  | (sizes, start) =>
    if start ≤ c.maxNumReqs then .ok (.again (sizes ++ [start], start * 2))
    else .ok (.leave (sizes, start))

/-- `init_torchair_graph_batch_sizes`. -/
def initTorchairGraphBatchSizes (sizes : List ℤ) : Except RunnerError (List ℤ) :=
  (whileLoop .outOfRounds (initBody c) (c.maxNumReqs.toNat + 1) (sizes, max 4 c.tpSize)).map
    Prod.fst

/-- `while sizes[-1] > max_num_reqs: sizes.pop()`, with the list reset once nothing is left. -/
def popBody (sizes : List ℤ) : Except RunnerError (Pass (List ℤ)) :=
  match sizes.getLast? with
  | none => .error .indexError
  | some last =>
    if c.maxNumReqs < last then
      .ok (.again (if sizes.dropLast = [] then [1, c.maxNumReqs] else sizes.dropLast))
    else .ok (.leave sizes)

/-- The first half of the check, in requests. -/
def padRequests (sizes : List ℤ) : Except RunnerError (List ℤ) :=
  if sizes = [] then .ok [1, c.maxNumReqs]
  else do
    let sizes ← whileLoop .outOfRounds (popBody c) (sizes.length + 1)
      (sizes.insertionSort (· ≤ ·))
    match sizes.getLast? with
    | none => .error .indexError
    | some last => .ok (if last < c.maxNumReqs then sizes ++ [c.maxNumReqs] else sizes)

/-- `(graph_batch_size + tp_size - 1) // tp_size * tp_size`. -/
def alignToTp (graphBatchSize : ℤ) : ℤ := (graphBatchSize + c.tpSize - 1) / c.tpSize * c.tpSize

/-- A round of the loop under expert parallelism: the entry is rounded up, and kept unless it is
there already or is larger than a step may be. -/
def alignStep (new : List ℤ) (graphBatchSize : ℤ) : List ℤ :=
  if alignToTp c graphBatchSize ∉ new ∧ alignToTp c graphBatchSize ≤ c.maxNumBatchedTokens then
    new ++ [alignToTp c graphBatchSize]
  else new

def alignSizes (sizes : List ℤ) : List ℤ := sizes.foldl (alignStep c) []

/-- `check_torchair_graph_batch_sizes`. -/
def checkTorchairGraphBatchSizes (sizes : List ℤ) : Except RunnerError (List ℤ) := do
  let sizes ← padRequests c sizes
  let sizes := sizes.map (· * c.decodeTokenPerReq)
  return if c.enableExpertParallel then alignSizes c sizes else sizes

/-- The part of `__init__` that makes the list. -/
def torchairGraphBatchSizes (graphBatchSizes : List ℤ) (graphBatchSizesInit : Bool) :
    Except RunnerError (List ℤ) :=
  (if graphBatchSizesInit then initTorchairGraphBatchSizes c graphBatchSizes
    else .ok graphBatchSizes) >>= checkTorchairGraphBatchSizes c

end Passes

def invalidBatchSizeMessage (sizes : List ℤ) (batchSize : ℤ) : String :=
  s!"cur batch_size is invalid, torchair_graph_batch_sizes is " ++
    s!"{sizes}, but cur batch_size is {batchSize}."

/-- `select_torchair_padded_batch_size`. -/
def selectTorchairPaddedBatchSize (sizes : List ℤ) (batchSize : ℤ) : Except RunnerError ℤ :=
  match sizes.find? (fun padded => decide (batchSize ≤ padded)) with
  | some padded => .ok padded
  | none => .error (.valueError (invalidBatchSizeMessage sizes batchSize))

/-! ## The sizes of the data parallel ranks -/

/-- What a rank brings to a step. -/
structure RankStep where
  numTokens : ℤ
  withPrefill : Bool
  enableDbo : Bool
deriving DecidableEq

/-- What the step of a rank is run with. -/
structure ForwardMetadata where
  maybePaddedNumTokens : ℤ
  numTokensAcrossDp : Option (List ℤ)
  withPrefill : Bool
  enableDbo : Bool
deriving DecidableEq

/-- The vector a rank puts into the reduction: its own count at its own place, and two flags. -/
def contribution (dpSize dpRank : ℕ) (step : RankStep) : List ℤ :=
  (((List.replicate (dpSize + 2) 0).set dpRank step.numTokens).set dpSize
    step.withPrefill.toInt).set (dpSize + 1) (!step.enableDbo).toInt

/-- `dist.all_reduce` with its default, the sum. -/
def allReduce (vectors : List (List ℤ)) (length : ℕ) : List ℤ :=
  (List.range length).map fun j => (vectors.map fun v => v.getD j 0).sum

/-- `_get_forward_metadata_across_dp`, the same on every rank. -/
def getForwardMetadataAcrossDp (ranks : List RankStep) : List ℤ × Bool × Bool :=
  let reduced := allReduce (ranks.mapIdx (contribution ranks.length)) (ranks.length + 2)
  (reduced.take ranks.length, reduced.getD ranks.length 0 != 0,
    !(reduced.getD (ranks.length + 1) 0 != 0))

/-- `_get_forward_metadata_across_dp_and_pad` on the rank whose own step is `own`. -/
def getForwardMetadataAcrossDpAndPad (sizes : List ℤ) (ranks : List RankStep) (own : RankStep) :
    Except RunnerError ForwardMetadata :=
  if ranks.length = 1 then
    if own.withPrefill then .ok ⟨own.numTokens, none, own.withPrefill, own.enableDbo⟩
    else do
      let padded ← selectTorchairPaddedBatchSize sizes own.numTokens
      return ⟨padded, none, own.withPrefill, own.enableDbo⟩
  else
    let (numTokensAcrossDp, withPrefill, enableDbo) := getForwardMetadataAcrossDp ranks
    if withPrefill then .ok ⟨own.numTokens, some numTokensAcrossDp, withPrefill, enableDbo⟩
    else do
      let maxNumToken ← match numTokensAcrossDp.max? with
        | none => .error .emptyMax
        | some m => .ok m
      let padded ← selectTorchairPaddedBatchSize sizes maxNumToken
      return ⟨padded, some (List.replicate ranks.length padded), withPrefill, enableDbo⟩

/-! ## Rounding up -/

section Rounding

variable {c : RunnerConfig}

theorem dvd_alignToTp (g : ℤ) : c.tpSize ∣ alignToTp c g := Dvd.intro_left _ rfl

theorem le_alignToTp (g : ℤ) : g ≤ alignToTp c g := by
  have h := Int.lt_ediv_add_one_mul_self (g + c.tpSize - 1) c.tpSize_pos
  rw [add_mul, one_mul] at h
  rw [alignToTp]
  omega

theorem alignToTp_le {g m : ℤ} (hdvd : c.tpSize ∣ m) (h : g ≤ m) : alignToTp c g ≤ m := by
  obtain ⟨q, rfl⟩ := hdvd
  have hpos := c.tpSize_pos
  have hlt : (g + c.tpSize - 1) / c.tpSize < q + 1 := by
    refine Int.ediv_lt_of_lt_mul hpos ?_
    rw [add_mul, one_mul, mul_comm q]
    omega
  rw [alignToTp, mul_comm]
  exact mul_le_mul_of_nonneg_left (by omega) hpos.le

theorem alignToTp_mono {g m : ℤ} (h : g ≤ m) : alignToTp c g ≤ alignToTp c m :=
  alignToTp_le (dvd_alignToTp m) (h.trans (le_alignToTp m))

end Rounding

/-! ## The largest entry -/

/-- **A list of sizes tops at `top`**: it is sorted, and `top` is its largest entry. -/
structure Tops (top : ℤ) (sizes : List ℤ) : Prop where
  sorted : sizes.Pairwise (· ≤ ·)
  mem : top ∈ sizes
  le : ∀ s ∈ sizes, s ≤ top

namespace Tops

variable {top : ℤ} {sizes : List ℤ}

theorem ne_nil (h : Tops top sizes) : sizes ≠ [] := List.ne_nil_of_mem h.mem

/-- Multiplying the entries multiplies the top. -/
theorem map_mul (h : Tops top sizes) {d : ℤ} (hd : 0 ≤ d) :
    Tops (top * d) (sizes.map (· * d)) where
  sorted := List.pairwise_map.mpr (h.sorted.imp fun hle => mul_le_mul_of_nonneg_right hle hd)
  mem := List.mem_map_of_mem h.mem
  le := by
    intro s hs
    obtain ⟨g, hg, rfl⟩ := List.mem_map.mp hs
    exact mul_le_mul_of_nonneg_right (h.le g hg) hd

/-- `[1, max_num_reqs]`. -/
theorem pair (h : 1 ≤ top) : Tops top [1, top] where
  sorted := List.pairwise_pair.mpr h
  mem := by simp
  le := by simp [h]

end Tops

/-- The last entry of a sorted list is its largest. -/
theorem le_last {sizes : List ℤ} (hsorted : sizes.Pairwise (· ≤ ·)) {last : ℤ}
    (hlast : sizes.getLast? = some last) : ∀ s ∈ sizes, s ≤ last := by
  obtain ⟨front, rfl⟩ := List.getLast?_eq_some_iff.mp hlast
  intro s hs
  obtain hs | hs := List.mem_append.mp hs
  · exact (List.pairwise_append.mp hsorted).2.2 s hs last (List.mem_singleton_self last)
  · exact (List.mem_singleton.mp hs).le

section Returns

variable {c : RunnerConfig}

/-- **Doubling a start of at least four ends.** -/
theorem initTorchairGraphBatchSizes_returns (sizes : List ℤ) :
    ∃ out, initTorchairGraphBatchSizes c sizes = .ok out := by
  have hround : ∀ s : List ℤ × ℤ, 4 ≤ s.2 →
      (∃ t, initBody c s = .ok (.leave t) ∧ True) ∨
      ∃ t, initBody c s = .ok (.again t) ∧ 4 ≤ t.2 ∧
        (c.maxNumReqs + 1 - t.2).toNat < (c.maxNumReqs + 1 - s.2).toNat := by
    rintro ⟨sizes, start⟩ hstart
    by_cases hle : start ≤ c.maxNumReqs
    · refine Or.inr ⟨(sizes ++ [start], start * 2), if_pos hle, ?_⟩
      simp only at hstart ⊢
      omega
    · exact Or.inl ⟨(sizes, start), if_neg hle, trivial⟩
  have hpos := c.maxNumReqs_pos
  have hfirst : 4 ≤ max 4 c.tpSize := le_max_left _ _
  obtain ⟨t, ht, -⟩ : ∃ t, whileLoop RunnerError.outOfRounds (initBody c)
      (c.maxNumReqs.toNat + 1) (sizes, max 4 c.tpSize) = .ok t ∧ True :=
    whileLoop_returns _ hround (by simp only; omega) hfirst
  exact ⟨t.1, by rw [initTorchairGraphBatchSizes, ht]; rfl⟩

/-- **Popping ends**, with a sorted list of entries that are not too large. -/
theorem popLoop_returns {sizes : List ℤ} (hsorted : sizes.Pairwise (· ≤ ·)) (hne : sizes ≠ []) :
    ∃ out, whileLoop .outOfRounds (popBody c) (sizes.length + 1) sizes = .ok out ∧
      out.Pairwise (· ≤ ·) ∧ out ≠ [] ∧ ∀ s ∈ out, s ≤ c.maxNumReqs := by
  refine whileLoop_returns (I := fun s => s.Pairwise (· ≤ ·) ∧ s ≠ [])
    (fun s => s.countP (c.maxNumReqs < ·)) ?_ (Nat.lt_succ_of_le List.countP_le_length)
    ⟨hsorted, hne⟩
  rintro s ⟨hsorted, hne⟩
  obtain ⟨front, last, rfl⟩ := (List.eq_nil_or_concat s).resolve_left hne
  rw [List.concat_eq_append] at *
  have hlast := le_last hsorted (List.getLast?_concat ..)
  by_cases hlt : c.maxNumReqs < last
  · refine Or.inr ⟨_, by rw [popBody, List.getLast?_concat]; exact if_pos hlt, ?_⟩
    rw [List.dropLast_concat]
    have hcount : (front ++ [last]).countP (c.maxNumReqs < ·) =
        front.countP (c.maxNumReqs < ·) + 1 := by
      rw [List.countP_append, List.countP_singleton, if_pos (decide_eq_true hlt)]
    rw [hcount]
    split
    · have hpair := Tops.pair (Int.add_one_le_of_lt c.maxNumReqs_pos)
      have hzero : [1, c.maxNumReqs].countP (c.maxNumReqs < ·) = 0 :=
        List.countP_eq_zero.mpr fun s hs => by simpa using hpair.le s hs
      exact ⟨⟨hpair.sorted, hpair.ne_nil⟩, by omega⟩
    · next hfront => exact ⟨⟨(List.pairwise_append.mp hsorted).1, hfront⟩, Nat.lt_succ_self _⟩
  · refine Or.inl ⟨_, by rw [popBody, List.getLast?_concat]; exact if_neg hlt, hsorted, hne, ?_⟩
    exact fun s hs => (hlast s hs).trans (not_lt.mp hlt)

/-- **In requests the list tops at `max_num_reqs`.** -/
theorem padRequests_tops (sizes : List ℤ) :
    ∃ out, padRequests c sizes = .ok out ∧ Tops c.maxNumReqs out := by
  rw [padRequests]
  split
  · exact ⟨_, rfl, Tops.pair (Int.add_one_le_of_lt c.maxNumReqs_pos)⟩
  · next hne =>
    have hperm := List.perm_insertionSort (· ≤ ·) sizes
    have hsort : sizes.insertionSort (· ≤ ·) ≠ [] := fun hnil => hne (hnil ▸ hperm).nil_eq.symm
    obtain ⟨popped, hpop, hsorted, hpne, hle⟩ :=
      popLoop_returns (c := c) (List.pairwise_insertionSort (· ≤ ·) sizes) hsort
    rw [hperm.length_eq] at hpop
    obtain ⟨front, last, rfl⟩ := (List.eq_nil_or_concat popped).resolve_left hpne
    rw [List.concat_eq_append] at *
    refine ⟨if last < c.maxNumReqs then front ++ [last] ++ [c.maxNumReqs] else front ++ [last],
      ?_, ?_⟩
    · rw [hpop]
      change (match (front ++ [last]).getLast? with
        | none => Except.error RunnerError.indexError
        | some last => _) = _
      rw [List.getLast?_concat]
    · split
      · refine ⟨List.pairwise_append.mpr ⟨hsorted, List.pairwise_singleton _ _, ?_⟩, by simp, ?_⟩
        · intro a ha b hb
          exact List.mem_singleton.mp hb ▸ hle a ha
        · intro s hs
          obtain hs | hs := List.mem_append.mp hs
          · exact hle s hs
          · exact (List.mem_singleton.mp hs).le
      · next hlt =>
        have hlast : last = c.maxNumReqs :=
          le_antisymm (hle last (by simp)) (not_lt.mp hlt)
        exact ⟨hsorted, by simp [hlast], hle⟩

end Returns

/-! ## The entries that are kept -/

section Kept

variable {c : RunnerConfig}

theorem mem_alignStep {new : List ℤ} {g x : ℤ} :
    x ∈ alignStep c new g ↔ x ∈ new ∨ x = alignToTp c g ∧ x ≤ c.maxNumBatchedTokens := by
  rw [alignStep]
  split
  · next h =>
    rw [List.mem_append, List.mem_singleton]
    exact or_congr_right ⟨fun hx => ⟨hx, hx ▸ h.2⟩, And.left⟩
  · next h =>
    refine ⟨Or.inl, fun hx => hx.elim id ?_⟩
    rintro ⟨rfl, hle⟩
    exact not_not.mp fun hnot => h ⟨hnot, hle⟩

/-- **What is kept**: the roundings that a step may have. -/
theorem mem_alignSizes {x : ℤ} {sizes : List ℤ} :
    x ∈ alignSizes c sizes ↔ (∃ g ∈ sizes, x = alignToTp c g) ∧ x ≤ c.maxNumBatchedTokens := by
  have hfold : ∀ (sizes new : List ℤ), x ∈ sizes.foldl (alignStep c) new ↔
      x ∈ new ∨ (∃ g ∈ sizes, x = alignToTp c g) ∧ x ≤ c.maxNumBatchedTokens := by
    intro sizes
    induction sizes with
    | nil => simp
    | cons g sizes ih =>
      intro new
      rw [List.foldl_cons, ih, mem_alignStep, or_assoc]
      simp only [List.exists_mem_cons_iff, or_and_right]
  rw [alignSizes, hfold]
  simp

/-- Rounding up keeps the list sorted, also without the repeated entries. -/
theorem pairwise_alignSizes {sizes : List ℤ} (hsorted : sizes.Pairwise (· ≤ ·)) :
    (alignSizes c sizes).Pairwise (· ≤ ·) := by
  have hfold : ∀ sizes new : List ℤ, sizes.Pairwise (· ≤ ·) → new.Pairwise (· ≤ ·) →
      (∀ a ∈ new, ∀ g ∈ sizes, a ≤ alignToTp c g) →
      (sizes.foldl (alignStep c) new).Pairwise (· ≤ ·) := by
    intro sizes
    induction sizes with
    | nil => exact fun new _ hnew _ => hnew
    | cons g sizes ih =>
      intro new hsorted hnew hle
      obtain ⟨hhead, htail⟩ := List.pairwise_cons.mp hsorted
      refine ih _ htail ?_ ?_
      · rw [alignStep]
        split
        · refine List.pairwise_append.mpr ⟨hnew, List.pairwise_singleton _ _, ?_⟩
          intro a ha b hb
          exact List.mem_singleton.mp hb ▸ hle a ha g List.mem_cons_self
        · exact hnew
      · intro a ha g' hg'
        obtain ha | ⟨rfl, -⟩ := mem_alignStep.mp ha
        · exact hle a ha g' (List.mem_cons_of_mem _ hg')
        · exact alignToTp_mono (hhead g' hg')
  exact hfold sizes [] hsorted List.Pairwise.nil (by simp)

/-- **When the rounding of the top is kept, the kept entries top at it.** -/
theorem alignSizes_tops {top : ℤ} {sizes : List ℤ} (h : Tops top sizes)
    (hroom : alignToTp c top ≤ c.maxNumBatchedTokens) :
    Tops (alignToTp c top) (alignSizes c sizes) where
  sorted := pairwise_alignSizes h.sorted
  mem := mem_alignSizes.mpr ⟨⟨top, h.mem, rfl⟩, hroom⟩
  le := by
    intro s hs
    obtain ⟨⟨g, hg, rfl⟩, -⟩ := mem_alignSizes.mp hs
    exact alignToTp_mono (h.le g hg)

/-- **When it is not, no entry holds the top.** -/
theorem lt_of_mem_alignSizes {top : ℤ} {sizes : List ℤ}
    (hroom : ¬ alignToTp c top ≤ c.maxNumBatchedTokens) : ∀ s ∈ alignSizes c sizes, s < top := by
  intro s hs
  obtain ⟨⟨g, -, rfl⟩, hle⟩ := mem_alignSizes.mp hs
  refine lt_of_not_ge fun htop => hroom ?_
  exact (alignToTp_le (dvd_alignToTp g) htop).trans hle

end Kept

/-! ## The first entry that holds a step -/

section Selection

variable {sizes : List ℤ} {n p : ℤ}

/-- **In a sorted list the first entry that holds a step is the smallest one.** -/
theorem isLeast_of_find? : ∀ {sizes : List ℤ}, sizes.Pairwise (· ≤ ·) →
    sizes.find? (fun padded => decide (n ≤ padded)) = some p →
      IsLeast {s | s ∈ sizes ∧ n ≤ s} p
  | [], _, h => nomatch h
  | g :: sizes, hsorted, h => by
    obtain ⟨hhead, htail⟩ := List.pairwise_cons.mp hsorted
    rw [List.find?_cons] at h
    split at h
    · next hle =>
      cases h
      refine ⟨⟨List.mem_cons_self, of_decide_eq_true hle⟩, ?_⟩
      rintro s ⟨hs, -⟩
      exact (List.mem_cons.mp hs).elim (fun heq => heq.ge) (hhead s)
    · next hle =>
      obtain ⟨⟨hmem, hn⟩, hleast⟩ := isLeast_of_find? htail h
      refine ⟨⟨List.mem_cons_of_mem _ hmem, hn⟩, ?_⟩
      rintro s ⟨hs, hns⟩
      obtain rfl | hs := List.mem_cons.mp hs
      · exact absurd hns (of_decide_eq_false hle)
      · exact hleast ⟨hs, hns⟩

theorem select_eq_ok (h : selectTorchairPaddedBatchSize sizes n = .ok p) :
    sizes.find? (fun padded => decide (n ≤ padded)) = some p := by
  rw [selectTorchairPaddedBatchSize] at h
  split at h
  · next heq => exact Except.ok.inj h ▸ heq
  · contradiction

/-- **The selection returns when some entry holds the step**, and only then. -/
theorem select_returns_iff :
    (∃ p, selectTorchairPaddedBatchSize sizes n = .ok p) ↔ ∃ s ∈ sizes, n ≤ s := by
  constructor
  · rintro ⟨p, hp⟩
    have hfind := select_eq_ok hp
    have hle : decide (n ≤ p) = true :=
      List.find?_some (p := fun padded => decide (n ≤ padded)) hfind
    exact ⟨p, List.mem_of_find?_eq_some hfind, of_decide_eq_true hle⟩
  · rintro ⟨s, hs, hn⟩
    have hsome : (sizes.find? fun padded => decide (n ≤ padded)).isSome :=
      List.find?_isSome.mpr ⟨s, hs, decide_eq_true hn⟩
    obtain ⟨p, hp⟩ := Option.isSome_iff_exists.mp hsome
    exact ⟨p, by rw [selectTorchairPaddedBatchSize, hp]⟩

theorem select_isLeast (hsorted : sizes.Pairwise (· ≤ ·))
    (h : selectTorchairPaddedBatchSize sizes n = .ok p) : IsLeast {s | s ∈ sizes ∧ n ≤ s} p :=
  isLeast_of_find? hsorted (select_eq_ok h)

/-- A size that was selected is selected for itself. -/
theorem select_idem (hsorted : sizes.Pairwise (· ≤ ·))
    (h : selectTorchairPaddedBatchSize sizes n = .ok p) :
    selectTorchairPaddedBatchSize sizes p = .ok p := by
  have hmem := (select_isLeast hsorted h).1.1
  obtain ⟨q, hq⟩ := select_returns_iff.mpr ⟨p, hmem, le_refl p⟩
  have hleast := select_isLeast hsorted hq
  rw [hq, le_antisymm (hleast.2 ⟨hmem, le_refl p⟩) hleast.1.2]

end Selection

/-! ## Across the ranks -/

section Ranks

variable {ranks : List RankStep}

theorem getD_contribution {dpSize dpRank : ℕ} (step : RankStep) {j : ℕ} (hj : j < dpSize) :
    (contribution dpSize dpRank step).getD j 0 = if dpRank = j then step.numTokens else 0 := by
  rw [contribution, List.getD_eq_getElem?_getD, List.getElem?_set_ne (by omega),
    List.getElem?_set_ne (by omega), List.getElem?_set]
  simp only [List.length_replicate, List.getElem?_replicate]
  split
  · simp only [show dpRank < dpSize + 2 by omega, if_true, Option.getD_some]
  · simp only [show j < dpSize + 2 by omega, if_true, Option.getD_some]

theorem getD_contribution_withPrefill {dpSize dpRank : ℕ} (step : RankStep) :
    (contribution dpSize dpRank step).getD dpSize 0 = step.withPrefill.toInt := by
  rw [contribution, List.getD_eq_getElem?_getD, List.getElem?_set_ne (by omega),
    List.getElem?_set_self (by simp), Option.getD_some]

theorem getD_allReduce {vectors : List (List ℤ)} {length j : ℕ} (hj : j < length) :
    (allReduce vectors length).getD j 0 = (vectors.map fun v => v.getD j 0).sum := by
  rw [allReduce, List.getD_eq_getElem?_getD, List.getElem?_map, List.getElem?_range hj]
  rfl

/-- At the place of a rank only that rank's count is not zero. -/
theorem sum_contribution {i : ℕ} (hi : i < ranks.length) :
    ((ranks.mapIdx (contribution ranks.length)).map fun v => v.getD i 0).sum =
      ranks[i].numTokens := by
  rw [List.mapIdx_eq_ofFn, List.map_ofFn, List.sum_ofFn, Finset.sum_eq_single ⟨i, hi⟩]
  · exact (getD_contribution _ hi).trans (if_pos rfl)
  · intro r _ hne
    exact (getD_contribution _ hi).trans (if_neg fun heq => hne (Fin.ext heq))
  · exact fun hnot => absurd (Finset.mem_univ _) hnot

/-- **The reduction gathers the counts of the ranks.** -/
theorem getForwardMetadataAcrossDp_counts :
    (getForwardMetadataAcrossDp ranks).1 = ranks.map RankStep.numTokens := by
  rw [getForwardMetadataAcrossDp]
  refine List.ext_getElem (by simp [allReduce]) fun i hi _ => ?_
  have hi : i < ranks.length := by simpa [allReduce] using hi
  simp only [allReduce, List.getElem_take, List.getElem_map, List.getElem_range]
  exact sum_contribution hi

/-- A step is decode-only on every rank as soon as it is on each. -/
theorem getForwardMetadataAcrossDp_withPrefill (h : ∀ step ∈ ranks, step.withPrefill = false) :
    (getForwardMetadataAcrossDp ranks).2.1 = false := by
  have hzero : ((ranks.mapIdx (contribution ranks.length)).map
      fun v => v.getD ranks.length 0).sum = 0 := by
    refine List.sum_eq_zero fun x hx => ?_
    obtain ⟨v, hv, rfl⟩ := List.mem_map.mp hx
    obtain ⟨r, hr, rfl⟩ := List.mem_mapIdx.mp hv
    rw [getD_contribution_withPrefill, h _ (List.getElem_mem hr)]
    rfl
  change (_ != 0) = false
  rw [getD_allReduce (by omega), hzero]
  rfl

/-- **A decode-only step is padded alike on all ranks**, to what is selected for the largest of
their counts. -/
theorem getForwardMetadataAcrossDpAndPad_eq {sizes : List ℤ}
    (h : ∀ step ∈ ranks, step.withPrefill = false) {top : ℤ}
    (htop : (ranks.map RankStep.numTokens).max? = some top) {padded : ℤ}
    (hselect : selectTorchairPaddedBatchSize sizes top = .ok padded) {own : RankStep}
    (hown : own ∈ ranks) :
    ∃ metadata, getForwardMetadataAcrossDpAndPad sizes ranks own = .ok metadata ∧
      metadata.maybePaddedNumTokens = padded := by
  rw [getForwardMetadataAcrossDpAndPad]
  split
  · next hone =>
    obtain ⟨step, rfl⟩ := List.length_eq_one_iff.mp hone
    obtain rfl := List.mem_singleton.mp hown
    obtain rfl : own.numTokens = top := by simpa using htop
    rw [h own hown, hselect]
    exact ⟨_, rfl, rfl⟩
  · have hcounts : (getForwardMetadataAcrossDp ranks).1 = _ := getForwardMetadataAcrossDp_counts
    have hflag := getForwardMetadataAcrossDp_withPrefill h
    obtain ⟨⟨counts, withPrefill, enableDbo⟩, hmeta⟩ :
        ∃ m, getForwardMetadataAcrossDp ranks = m := ⟨_, rfl⟩
    rw [hmeta] at hcounts hflag ⊢
    obtain rfl : counts = ranks.map RankStep.numTokens := hcounts
    obtain rfl : withPrefill = false := hflag
    simp only [htop]
    change ∃ metadata, (selectTorchairPaddedBatchSize sizes top >>= _) = _ ∧ _
    rw [hselect]
    exact ⟨_, rfl, rfl⟩

end Ranks

/-! ## When the sizes fit -/

/-- **The sizes fit**: every decode-only step a runner may be given is padded, to the smallest
entry that holds it, and with data parallelism to the same one on every rank. -/
structure GraphSizesFit (c : RunnerConfig) (sizes : List ℤ) : Prop where
  ne_nil : sizes ≠ []
  sorted : sizes.Pairwise (· ≤ ·)
  dvd : ∀ s ∈ sizes, (if c.enableExpertParallel then c.tpSize else c.decodeTokenPerReq) ∣ s
  le : ∀ s ∈ sizes, s ≤ c.maxNumBatchedTokens
  select : ∀ n ≤ c.maxNumReqs * c.decodeTokenPerReq,
    ∃ padded, selectTorchairPaddedBatchSize sizes n = .ok padded ∧
      IsLeast {s | s ∈ sizes ∧ n ≤ s} padded ∧
      selectTorchairPaddedBatchSize sizes padded = .ok padded
  across : ∀ ranks : List RankStep, ranks ≠ [] → (∀ step ∈ ranks, step.withPrefill = false) →
    (∀ step ∈ ranks, step.numTokens ≤ c.maxNumReqs * c.decodeTokenPerReq) →
    ∃ padded, (∀ own ∈ ranks, ∃ metadata,
        getForwardMetadataAcrossDpAndPad sizes ranks own = .ok metadata ∧
          metadata.maybePaddedNumTokens = padded) ∧
      ∀ step ∈ ranks, step.numTokens ≤ padded

section Fit

variable {c : RunnerConfig}

/-- **A list that tops at the largest step, or above it, fits.** -/
theorem Tops.fit {top : ℤ} {sizes : List ℤ} (h : Tops top sizes)
    (hstep : c.maxNumReqs * c.decodeTokenPerReq ≤ top) (hroom : top ≤ c.maxNumBatchedTokens)
    (hdvd : ∀ s ∈ sizes, (if c.enableExpertParallel then c.tpSize else c.decodeTokenPerReq) ∣ s) :
    GraphSizesFit c sizes := by
  have hselect : ∀ n ≤ c.maxNumReqs * c.decodeTokenPerReq,
      ∃ padded, selectTorchairPaddedBatchSize sizes n = .ok padded :=
    fun n hn => select_returns_iff.mpr ⟨top, h.mem, hn.trans hstep⟩
  refine ⟨h.ne_nil, h.sorted, hdvd, fun s hs => (h.le s hs).trans hroom, ?_, ?_⟩
  · intro n hn
    obtain ⟨padded, hpadded⟩ := hselect n hn
    exact ⟨padded, hpadded, select_isLeast h.sorted hpadded, select_idem h.sorted hpadded⟩
  · intro ranks hne hdecode hcounts
    have hmax : ∃ largest, (ranks.map RankStep.numTokens).max? = some largest :=
      Option.isSome_iff_exists.mp (by rw [List.isSome_max?_iff]; simpa using hne)
    obtain ⟨largest, hlargest⟩ := hmax
    obtain ⟨hmem, hle⟩ := List.max?_eq_some_iff.mp hlargest
    obtain ⟨step, hstepmem, rfl⟩ := List.mem_map.mp hmem
    obtain ⟨padded, hpadded⟩ := hselect _ (hcounts step hstepmem)
    refine ⟨padded, fun own hown =>
      getForwardMetadataAcrossDpAndPad_eq hdecode hlargest hpadded hown, fun s hs => ?_⟩
    exact (hle _ (List.mem_map_of_mem hs)).trans (select_isLeast h.sorted hpadded).1.2

/-- The list before the last pass tops at the largest step. -/
theorem torchairGraphBatchSizes_eq (graphBatchSizes : List ℤ) (graphBatchSizesInit : Bool) :
    ∃ sizes, Tops (c.maxNumReqs * c.decodeTokenPerReq) sizes ∧
      (∀ s ∈ sizes, c.decodeTokenPerReq ∣ s) ∧
      torchairGraphBatchSizes c graphBatchSizes graphBatchSizesInit =
        .ok (if c.enableExpertParallel then alignSizes c sizes else sizes) := by
  obtain ⟨start, hstart⟩ : ∃ start, (if graphBatchSizesInit then
      initTorchairGraphBatchSizes c graphBatchSizes else .ok graphBatchSizes) = .ok start := by
    split
    · exact initTorchairGraphBatchSizes_returns graphBatchSizes
    · exact ⟨_, rfl⟩
  obtain ⟨requests, hrequests, htops⟩ := padRequests_tops (c := c) start
  refine ⟨requests.map (· * c.decodeTokenPerReq), htops.map_mul c.decodeTokenPerReq_pos.le, ?_, ?_⟩
  · intro s hs
    obtain ⟨g, -, rfl⟩ := List.mem_map.mp hs
    exact Dvd.intro_left g rfl
  · rw [torchairGraphBatchSizes, hstart]
    change checkTorchairGraphBatchSizes c start = _
    rw [checkTorchairGraphBatchSizes, hrequests]
    rfl

/-- **The sizes fit exactly without expert parallelism, or when the largest decode step, rounded up
to `tp_size`, is not above `max_num_batched_tokens`.** -/
theorem graphSizesFit_iff (graphBatchSizes : List ℤ) (graphBatchSizesInit : Bool)
    (hroom : c.maxNumReqs * c.decodeTokenPerReq ≤ c.maxNumBatchedTokens) :
    (∃ sizes, torchairGraphBatchSizes c graphBatchSizes graphBatchSizesInit = .ok sizes ∧
      GraphSizesFit c sizes) ↔
    (c.enableExpertParallel = true →
      alignToTp c (c.maxNumReqs * c.decodeTokenPerReq) ≤ c.maxNumBatchedTokens) := by
  obtain ⟨sizes, htops, hdvd, heq⟩ :=
    torchairGraphBatchSizes_eq (c := c) graphBatchSizes graphBatchSizesInit
  rw [heq]
  by_cases hep : c.enableExpertParallel = true
  · rw [if_pos hep]
    constructor
    · rintro ⟨_, hsizes, hfit⟩ -
      cases hsizes
      by_contra hnot
      obtain ⟨padded, hpadded, -⟩ := hfit.select _ le_rfl
      obtain ⟨s, hs, hle⟩ := select_returns_iff.mp ⟨padded, hpadded⟩
      exact (lt_of_mem_alignSizes hnot s hs).not_ge hle
    · intro hlast
      refine ⟨_, rfl, (alignSizes_tops htops (hlast hep)).fit (le_alignToTp _) (hlast hep) ?_⟩
      intro s hs
      obtain ⟨⟨g, -, rfl⟩, -⟩ := mem_alignSizes.mp hs
      rw [if_pos hep]
      exact dvd_alignToTp g
  · rw [if_neg hep]
    refine ⟨fun _ hpos => absurd hpos hep, fun _ => ⟨_, rfl, htops.fit le_rfl hroom ?_⟩⟩
    rw [if_neg hep]
    exact hdvd

end Fit

/-- Ten requests of up to three tokens each, with thirty tokens in a step, over eight ranks. -/
def thirtyTokens : RunnerConfig where
  maxNumReqs := 10
  decodeTokenPerReq := 3
  tpSize := 8
  maxNumBatchedTokens := 30
  enableExpertParallel := true
  maxNumReqs_pos := by decide
  decodeTokenPerReq_pos := by decide
  tpSize_pos := by decide

theorem graphSizesFit_thirtyTokens :
    thirtyTokens.maxNumReqs * thirtyTokens.decodeTokenPerReq ≤ thirtyTokens.maxNumBatchedTokens ∧
    ((∃ sizes, torchairGraphBatchSizes thirtyTokens [] false = .ok sizes ∧
      GraphSizesFit thirtyTokens sizes) ↔
    (thirtyTokens.enableExpertParallel = true →
      alignToTp thirtyTokens (thirtyTokens.maxNumReqs * thirtyTokens.decodeTokenPerReq) ≤
        thirtyTokens.maxNumBatchedTokens)) :=
  ⟨by decide, graphSizesFit_iff [] false (by decide)⟩

/-- Of `[3, 30]`, rounded up to `[8, 32]`, only the eight is kept; a full step has no entry. -/
theorem not_graphSizesFit_thirtyTokens :
    thirtyTokens.maxNumReqs * thirtyTokens.decodeTokenPerReq ≤ thirtyTokens.maxNumBatchedTokens ∧
    torchairGraphBatchSizes thirtyTokens [] false = .ok [8] ∧
    selectTorchairPaddedBatchSize [8] 30 = .error (.valueError (invalidBatchSizeMessage [8] 30)) ∧
    ¬ ∃ sizes, torchairGraphBatchSizes thirtyTokens [] false = .ok sizes ∧
      GraphSizesFit thirtyTokens sizes := by
  refine ⟨by decide, rfl, rfl, ?_⟩
  rintro ⟨sizes, hsizes, hfit⟩
  obtain rfl : [8] = sizes := Except.ok.inj hsizes
  obtain ⟨padded, hpadded, -⟩ := hfit.select 30 le_rfl
  cases hpadded

end VllmAscend.Torchair
