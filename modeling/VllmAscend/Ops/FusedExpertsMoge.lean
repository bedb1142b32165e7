import VllmAscend.Ops.TokenDispatcherWithAll2AllV

/-!
# Ops/FusedExpertsMoge — the experts of one rank, and the class that was to replace them

    ids        2 0 │ 1 0 │ …              one row for each token, a local expert for each choice
    sorted     rows of expert 0 │ 1 │ …   gate, up, scaled by the weight, down
    unsorted   by the sort of the sort    and added up token by token

`fused_experts_moge` of `ops/fused_moe`, and `UnquantizedTokenDispatcherWithFusedExpertsMoge`, which splits its
steps over two calls.  The function returns the mixture while `float32` tells the rows apart
(`fusedExpertsMoge_eq`).  The class cannot be constructed: its `__init__` calls that of `object` with its
keywords, in place of that of `MoETokenDispatcher` (`init_ne_ok`); and it returns the rows that it was given,
not the sorted ones.
-/

namespace VllmAscend

open Machinery
open TokenDispatcherWithAllGather (choices weighted)

variable {R V G H : Type}

/-! ## The function -/

/-- The rows of a batch, sorted by local expert. -/
structure MogeRows (R V : Type) where
  sortedTopkIds : List ℤ
  sortedHiddenStates : List V
  topkScales : List R
  groupList : List ℤ

/-- `npu_grouped_matmul` on rows in groups, as `group_list` says. -/
def IsGroupedMatmul {α β : Type} (f : ℕ → α → β) (mm : List ℤ → List α → List β) : Prop :=
  ∀ groupList rows, IsGroupedOutput f (groupCounts 0 groupList) rows (mm groupList rows)

/-- One that leaves zeros behind the last group. -/
def npuGroupedMatmul {α β : Type} [Zero β] (f : ℕ → α → β) (groupList : List ℤ) (rows : List α) : List β :=
  let out := groupedMap f 0 (groupCounts 0 groupList) rows
  out ++ List.replicate (rows.length - out.length) 0

theorem isGroupedMatmul_npuGroupedMatmul {α β : Type} [Zero β] (f : ℕ → α → β) :
    IsGroupedMatmul f (npuGroupedMatmul f) := fun groupList rows => by
  have hle := length_groupedMap_le f 0 (groupCounts 0 groupList) rows
  refine ⟨?_, _, rfl⟩
  rw [npuGroupedMatmul, List.length_append, List.length_replicate]
  omega

section Function

variable [CommRing R] [AddCommGroup V] [Module R V]

/-- The weights on the input, asserting one expert for each token. -/
def mogeInput (applyRouterWeightOnInput : Bool) (hiddenStates : List V) (topkWeights : List (List R)) :
    Option (List V) :=
  if applyRouterWeightOnInput then
    if topkWeights.all fun row => row.length = 1 then some (weighted hiddenStates topkWeights) else none
  else some hiddenStates

/-- The rows sorted by local expert; `sort` is `torch.argsort` of floats. -/
def mogeRoute (sort : List ℚ → List ℤ) (localNumExperts localNumGroup : ℕ) (hiddenStates : List V)
    (topkWeights : List (List R)) (topkIds : List (List ℤ)) : Option (MogeRows R V) := do
  let flattenTopkIds := topkIds.flatten
  let sortedTopkIds := sort (flattenTopkIds.map fun e : ℤ => toFloat32 e)
  let sortedHiddenStates ← gather hiddenStates (sortedTopkIds.map (· / (localNumGroup : ℤ)))
  let numTokensPerExpert := (List.range localNumExperts).map fun e : ℕ =>
    floatSum (flattenTopkIds.map fun x : ℤ => if x = e then 1 else 0)
  let topkScales ← gather topkWeights.flatten sortedTopkIds
  let groupList := (floatCumsum 0 numTokensPerExpert).map truncate
  return ⟨sortedTopkIds, sortedHiddenStates, topkScales, groupList⟩

/-- `xs.reshape(bsz, n, -1).sum(1)`; the size left out is ambiguous when there are no rows. -/
def reshapeSum (bsz n : ℕ) (xs : List V) : Option (List V) :=
  if xs.length = bsz * n ∧ 0 < bsz * n then
    some ((List.range bsz).map fun t => ((xs.drop (t * n)).take n).sum)
  else none

/-- The rows back in the order of the tokens, and added up. -/
def mogeUnsort (sort : List ℚ → List ℤ) (bsz localNumGroup : ℕ) (sortedTopkIds : List ℤ)
    (rows : List V) : Option (List V) := do
  let unsortedTopkIds := sort (sortedTopkIds.map fun i : ℤ => toFloat32 i)
  let unsortedHiddenStates ← gather rows unsortedTopkIds
  reshapeSum bsz localNumGroup unsortedHiddenStates

variable [AddCommGroup H] [Module R H]

/-- The expert layers on sorted rows, the output of the gate scaled. -/
def mogeMlp (gateUp : List ℤ → List V → List G) (swiglu : G → H) (down : List ℤ → List H → List V)
    (groupList : List ℤ) (rows : List V) (topkScales : List R) : List V :=
  down groupList (List.zipWith (· • ·) topkScales ((gateUp groupList rows).map swiglu))

/-- `fused_experts_moge`: `none` is an exception. -/
def fusedExpertsMoge (sort : List ℚ → List ℤ) (gateUp : List ℤ → List V → List G) (swiglu : G → H)
    (down : List ℤ → List H → List V) (epSize globalNumExperts topK : ℕ) (applyRouterWeightOnInput : Bool)
    (hiddenStates : List V) (topkWeights : List (List R)) (topkIds : List (List ℤ)) :
    Option (List V) := do
  let localNumExperts := globalNumExperts / epSize
  let localNumGroup := topK / epSize
  let hiddenStates ← mogeInput applyRouterWeightOnInput hiddenStates topkWeights
  let rows ← mogeRoute sort localNumExperts localNumGroup hiddenStates topkWeights topkIds
  let downOutList :=
    mogeMlp gateUp swiglu down rows.groupList rows.sortedHiddenStates rows.topkScales
  mogeUnsort sort hiddenStates.length localNumGroup rows.sortedTopkIds downOutList

end Function

/-! ## The class -/

/-- Keyword arguments; a flag is an integer. -/
abbrev Kwargs := List (String × ℕ)

inductive InitError where
  | typeError
  | assertionError
  | attributeError
  | zeroDivisionError

/-- What the `__init__` of a base class has set. -/
structure BaseAttributes where
  topK : Option ℕ
  numExperts : Option ℕ

/-- `object.__init__(self, **kwargs)`, of a class with an `__init__` of its own: it takes no keywords. -/
def objectInit (kwargs : Kwargs) : Except InitError BaseAttributes :=
  if kwargs = [] then .ok ⟨none, none⟩ else .error .typeError

/-- `MoETokenDispatcher.__init__(self, **kwargs)` -/
def moeTokenDispatcherInit (kwargs : Kwargs) : Except InitError BaseAttributes :=
  .ok ⟨some ((kwargs.lookup "top_k").getD 0), some ((kwargs.lookup "num_experts").getD 0)⟩

/-- The class with what a dispatch leaves in it. -/
structure UnquantizedTokenDispatcherWithFusedExpertsMoge (R V : Type) where
  applyRouterWeightOnInput : Bool
  topK : ℕ
  localEp : ℕ
  localNumExperts : ℕ
  localNumGroup : ℕ
  bsz : Option ℕ
  sortedTopkIds : Option (List ℤ)
  sortedHiddenStates : Option (List V)
  topkScales : Option (List R)

namespace UnquantizedTokenDispatcherWithFusedExpertsMoge

/-- What a constructor reads, or raises. -/
def read {α : Type} (err : InitError) : Option α → Except InitError α
  | some x => .ok x
  | none => .error err

/-- `__init__` with the `__init__` that it calls first. -/
def initWith (superInit : Kwargs → Except InitError BaseAttributes) (kwargs : Kwargs) :
    Except InitError (UnquantizedTokenDispatcherWithFusedExpertsMoge R V) := do
  let base ← superInit kwargs
  let localEp ← read .assertionError (kwargs.lookup "ep_size")
  let numExperts ← read .attributeError base.numExperts
  let localNumExperts ← if localEp = 0 then .error .zeroDivisionError else .ok (numExperts / localEp)
  let topK ← read .attributeError base.topK
  return {
    applyRouterWeightOnInput := (kwargs.lookup "apply_router_weight_on_input").getD 0 ≠ 0
    topK
    localEp
    localNumExperts
    localNumGroup := topK / localEp
    bsz := none
    sortedTopkIds := none
    sortedHiddenStates := none
    topkScales := none }

/-- `__init__`: `super(MoETokenDispatcher, self)` is what comes after `MoETokenDispatcher`. -/
def init : Kwargs → Except InitError (UnquantizedTokenDispatcherWithFusedExpertsMoge R V) :=
  initWith objectInit

variable [CommRing R] [AddCommGroup V] [Module R V]

/-- `token_dispatch` returns the rows as they are, and their running counts. -/
def tokenDispatch (sort : List ℚ → List ℤ) (d : UnquantizedTokenDispatcherWithFusedExpertsMoge R V)
    (hiddenStates : List V) (topkWeights : List (List R)) (topkIds : List (List ℤ)) :
    Option ((List V × List ℤ) × UnquantizedTokenDispatcherWithFusedExpertsMoge R V) := do
  let hiddenStates ← mogeInput d.applyRouterWeightOnInput hiddenStates topkWeights
  let rows ← mogeRoute sort d.localNumExperts d.localNumGroup hiddenStates topkWeights topkIds
  return ((hiddenStates, rows.groupList), { d with
    bsz := some hiddenStates.length
    sortedTopkIds := some rows.sortedTopkIds
    sortedHiddenStates := some rows.sortedHiddenStates
    topkScales := some rows.topkScales })

/-- `token_combine` -/
def tokenCombine (sort : List ℚ → List ℤ) (d : UnquantizedTokenDispatcherWithFusedExpertsMoge R V)
    (hiddenStates : List V) : Option (List V) := do
  let sortedTopkIds ← d.sortedTopkIds
  let bsz ← d.bsz
  mogeUnsort sort bsz (d.topK / d.localEp) sortedTopkIds hiddenStates

end UnquantizedTokenDispatcherWithFusedExpertsMoge

/-! ## What both are to return -/

section Correct

variable [CommRing R] [AddCommGroup V] [Module R V] [AddCommGroup H] [Module R H]

/-- The layers of the experts, linear behind the activation. -/
structure ExpertLayers (R V G H : Type) [CommRing R] [AddCommGroup V] [Module R V] [AddCommGroup H]
    [Module R H] where
  gate : ℕ → V → G
  swiglu : G → H
  down : ℕ → H →ₗ[R] V

namespace ExpertLayers

variable (layers : ExpertLayers R V G H)

/-- What an expert makes of a row. -/
def expert (e : ℕ) (x : V) : V := layers.down e (layers.swiglu (layers.gate e x))

/-- The grouped multiplications by the weights of the layers. -/
structure Multiplies (gateUp : List ℤ → List V → List G) (down : List ℤ → List H → List V) : Prop where
  gateUp : IsGroupedMatmul layers.gate gateUp
  down : IsGroupedMatmul (fun e => layers.down e) down

end ExpertLayers

variable (sort : List ℚ → List ℤ) (layers : ExpertLayers R V G H) (gateUp : List ℤ → List V → List G)
  (down : List ℤ → List H → List V)

/-- **The function returns the mixture.** -/
def FusedMogeCorrect (epSize globalNumExperts topK : ℕ) (hiddenStates : List V)
    (routing : List (List (ℤ × R))) : Prop :=
  fusedExpertsMoge sort gateUp layers.swiglu down epSize globalNumExperts topK false hiddenStates
      (routing.map (List.map Prod.snd)) (routing.map (List.map Prod.fst)) =
    some (mixtures layers.expert hiddenStates routing)

/-- **The class can be constructed, and its two calls return the mixture.** -/
def RefactoredMogeCorrect (hiddenStates : List V) (routing : List (List (ℤ × R))) (kwargs : Kwargs) : Prop :=
  ∃ d : UnquantizedTokenDispatcherWithFusedExpertsMoge R V,
    UnquantizedTokenDispatcherWithFusedExpertsMoge.init kwargs = .ok d ∧
    ∃ rows groupList d' topkScales, d.tokenDispatch sort hiddenStates (routing.map (List.map Prod.snd))
        (routing.map (List.map Prod.fst)) = some ((rows, groupList), d') ∧
      d'.topkScales = some topkScales ∧
      d'.tokenCombine sort (mogeMlp gateUp layers.swiglu down groupList rows topkScales) =
        some (mixtures layers.expert hiddenStates routing)

/-- **Both implementations return the mixture.** -/
def MogeCorrect (epSize globalNumExperts topK : ℕ) (hiddenStates : List V)
    (routing : List (List (ℤ × R))) : Prop :=
  FusedMogeCorrect sort layers gateUp down epSize globalNumExperts topK hiddenStates routing ∧
    ∃ kwargs, RefactoredMogeCorrect sort layers gateUp down hiddenStates routing kwargs

end Correct

/-! ## The class cannot be constructed -/

/-- **`__init__` raises, whatever it is called with**: with keywords in `object`, and without them there is no
`ep_size`. -/
theorem UnquantizedTokenDispatcherWithFusedExpertsMoge.init_ne_ok (kwargs : Kwargs)
    (d : UnquantizedTokenDispatcherWithFusedExpertsMoge R V) : init kwargs ≠ .ok d := by
  intro h
  cases kwargs with
  | nil => cases h
  | cons arg kwargs => cases h

/-- With the `__init__` of `MoETokenDispatcher`, which the other dispatchers call, it would return. -/
theorem UnquantizedTokenDispatcherWithFusedExpertsMoge.initWith_moeTokenDispatcher {kwargs : Kwargs}
    {epSize : ℕ} (h : kwargs.lookup "ep_size" = some epSize) (hpos : 0 < epSize) :
    ∃ d : UnquantizedTokenDispatcherWithFusedExpertsMoge R V,
      initWith moeTokenDispatcherInit kwargs = .ok d ∧ d.localEp = epSize ∧
        d.localNumGroup = (kwargs.lookup "top_k").getD 0 / epSize := by
  rw [initWith, h]
  simp only [moeTokenDispatcherInit, read, bind, Except.bind, if_neg hpos.ne', pure, Except.pure,
    Except.ok.injEq, exists_eq_left', and_self]

/-! ## The rows of a batch -/

section Rows

variable {localNumExperts n : ℕ} {routing : List (List (ℤ × R))}

/-- The choices of a batch, row by row. -/
theorem choices_map (y : ℕ → ℤ × R → V) :
    (choices routing).map (fun p => y p.1 p.2.1) = routing.zipIdx.flatMap fun q => q.1.map (y q.2) := by
  have key : ∀ (rows : List (List (ℤ × R))) (k : ℕ),
      (tagged k (rows.map fun row => row.zipIdx)).map (fun p => y p.1 p.2.1) =
        (rows.zipIdx k).flatMap fun q => q.1.map (y q.2) := by
    intro rows
    induction rows with
    | nil => intro k; rfl
    | cons row rows ih =>
      intro k
      have hrow : (row.zipIdx.map (k, ·)).map (fun p => y p.1 p.2.1) = row.map (y k) := by
        conv_rhs => rw [← List.zipIdx_map_fst 0 row]
        rw [List.map_map, List.map_map]
        rfl
      rw [List.map_cons, tagged, List.map_append, ih, hrow, List.zipIdx_cons, List.flatMap_cons]
  exact key routing 0

/-- **Adding up what was made of the choices**, token by token. -/
theorem reshapeSum_choices [AddCommGroup V] (h : ∀ row ∈ routing, row.length = n)
    (hpos : 0 < routing.length * n) (y : ℕ → ℤ × R → V) :
    reshapeSum routing.length n ((choices routing).map fun p => y p.1 p.2.1) =
      some (routing.mapIdx fun t row => (row.map (y t)).sum) := by
  have hblock : ∀ q ∈ routing.zipIdx, (q.1.map (y q.2)).length = n := fun q hq => by
    rw [List.length_map, h q.1 (List.mem_of_getElem? (List.mk_mem_zipIdx_iff_getElem?.mp hq))]
  have hlength : (routing.zipIdx.flatMap fun q => q.1.map (y q.2)).length = routing.length * n := by
    rw [length_flatMap_const hblock, List.length_zipIdx]
  rw [choices_map, reshapeSum, if_pos ⟨hlength, hpos⟩]
  refine congrArg some (List.ext_getElem (by simp) fun t ht _ => ?_)
  rw [List.length_map, List.length_range] at ht
  have hget : routing.zipIdx[t]? = some (routing[t], t) := by
    rw [List.getElem?_zipIdx, List.getElem?_eq_getElem ht]
    simp
  rw [List.getElem_map, List.getElem_range, chunk_flatMap hblock hget, List.getElem_mapIdx]

/-- The weights in the order of the choices. -/
theorem flatten_weights : (routing.map (List.map Prod.snd)).flatten =
    (choices routing).map fun p => p.2.1.2 := by
  rw [choices_map fun _ choice => choice.2, ← List.flatMap_def]
  conv_lhs => rw [← List.zipIdx_map_fst 0 routing]
  rw [List.flatMap_map]

end Rows

/-! ## The function returns the mixture -/

section Counts

variable {localNumExperts n : ℕ} {hiddenStates : List V} {routing : List (List (ℤ × R))}
  {out : List (ℕ × (ℤ × R) × ℕ)}

/-- The ids of sorted choices lie below the number of experts. -/
theorem toNat_lt_of_mem (h : IsMoeRank localNumExperts n hiddenStates routing)
    (hout : IsSortedChoices routing out) : ∀ p ∈ out, p.2.1.1.toNat < localNumExperts := fun p hp => by
  obtain ⟨hlow, hhigh⟩ := h.bounds_of_mem (hout.perm.mem_iff.mp hp)
  omega

/-- A sum of ones is a count. -/
theorem sum_ones {δ : Type} (b : δ → Prop) [DecidablePred b] : ∀ ds : List δ,
    (ds.map fun d => if b d then (1 : ℤ) else 0).sum = (ds.filter b).length
  | [] => rfl
  | d :: ds => by
    rw [List.map_cons, List.sum_cons, sum_ones b ds, List.filter_cons]
    by_cases hd : b d
    · simp [hd, add_comm]
    · simp [hd]

/-- A count, in `float32`. -/
theorem floatCount_eq (h : IsMoeRank localNumExperts n hiddenStates routing)
    (hout : IsSortedChoices routing out) (hrows : out.length ≤ 2 ^ 24) (e : ℕ) :
    floatSum ((routing.map (List.map Prod.fst)).flatten.map fun x : ℤ => if x = e then 1 else 0) =
      (((out.filter fun p => p.2.1.1.toNat = e).length : ℤ) : ℚ) := by
  have hcount : ((choices routing).map fun p => if p.2.1.1 = (e : ℤ) then (1 : ℤ) else 0).sum =
      (out.filter fun p => p.2.1.1.toNat = e).length := by
    rw [sum_ones, ((hout.perm.filter _).length_eq)]
    refine congrArg (fun l => ((List.length l : ℕ) : ℤ)) (List.filter_congr fun p hp => ?_)
    have hlow := (h.bounds_of_mem hp).1
    rw [decide_eq_decide]
    omega
  have hones : (routing.map (List.map Prod.fst)).flatten.map (fun x : ℤ => if x = e then (1 : ℚ) else 0) =
      ((choices routing).map fun p => if p.2.1.1 = (e : ℤ) then (1 : ℤ) else 0).map Int.cast := by
    rw [TokenDispatcherWithAllGather.choices_map_id, List.map_map, List.map_map]
    exact List.map_congr_left fun p _ => by
      rw [Function.comp_apply, Function.comp_apply]
      split <;> simp
  have hle := List.length_filter_le (fun p : ℕ × (ℤ × R) × ℕ => decide (p.2.1.1.toNat = e)) out
  rw [hones, floatSum_eq, hcount]
  · intro x hx
    obtain ⟨p, -, rfl⟩ := List.mem_map.mp hx
    split <;> decide
  · rw [hcount]
    exact_mod_cast hle.trans hrows

/-- **The running counts of the experts are exact**, in `float32`. -/
theorem floatCounts_eq (h : IsMoeRank localNumExperts n hiddenStates routing)
    (hout : IsSortedChoices routing out) (hrows : out.length ≤ 2 ^ 24) :
    (floatCumsum 0 ((List.range localNumExperts).map fun e : ℕ =>
        floatSum ((routing.map (List.map Prod.fst)).flatten.map fun x : ℤ => if x = e then 1 else 0))).map
        truncate =
      cumsum 0 (((List.range localNumExperts).map fun e =>
        (out.filter fun p => p.2.1.1.toNat = e).length).map Nat.cast) := by
  have hcounts : (List.range localNumExperts).map (fun e : ℕ =>
      floatSum ((routing.map (List.map Prod.fst)).flatten.map fun x : ℤ => if x = e then 1 else 0)) =
        (((List.range localNumExperts).map fun e =>
          (out.filter fun p => p.2.1.1.toNat = e).length).map (Nat.cast : ℕ → ℤ)).map Int.cast := by
    rw [List.map_map, List.map_map]
    exact List.map_congr_left fun e _ => floatCount_eq h hout hrows e
  have hsum := sum_groupSizes hout.sorted (toNat_lt_of_mem h hout)
  rw [groupSizes] at hsum
  have hnonneg : ∀ x ∈ ((List.range localNumExperts).map fun e =>
      (out.filter fun p => p.2.1.1.toNat = e).length).map (Nat.cast : ℕ → ℤ), 0 ≤ x := fun x hx => by
    obtain ⟨c, -, rfl⟩ := List.mem_map.mp hx
    exact Int.natCast_nonneg c
  have hexact := floatCumsum_eq hnonneg le_rfl (by
    rw [zero_add, ← Nat.cast_list_sum, hsum]
    exact_mod_cast hrows)
  rw [Int.cast_zero] at hexact
  rw [hcounts, hexact, List.map_map]
  exact (List.map_congr_left fun c _ => truncate_intCast c).trans (List.map_id _)

end Counts

section Fused

variable [CommRing R] [AddCommGroup V] [Module R V] [AddCommGroup H] [Module R H]
  {layers : ExpertLayers R V G H} {gateUp : List ℤ → List V → List G} {down : List ℤ → List H → List V}
  {sort : List ℚ → List ℤ} {localNumExperts n : ℕ} {hiddenStates : List V} {routing : List (List (ℤ × R))}

/-- **The layers on the sorted choices.** -/
theorem mogeMlp_eq (hlayers : layers.Multiplies gateUp down)
    (h : IsMoeRank localNumExperts n hiddenStates routing) {out : List (ℕ × (ℤ × R) × ℕ)}
    (hout : IsSortedChoices routing out) :
    mogeMlp gateUp layers.swiglu down
        (cumsum 0 (((List.range localNumExperts).map fun e =>
          (out.filter fun p => p.2.1.1.toNat = e).length).map Nat.cast))
        (out.map fun p => hiddenStates.getD p.1 0) (out.map fun p => p.2.1.2) =
      out.map fun p => p.2.1.2 • layers.expert p.2.1.1.toNat (hiddenStates.getD p.1 0) := by
  have hgate := hlayers.gateUp (cumsum 0 (((List.range localNumExperts).map fun e =>
    (out.filter fun p => p.2.1.1.toNat = e).length).map Nat.cast))
      (out.map fun p => hiddenStates.getD p.1 0)
  rw [groupCounts_cumsum] at hgate
  have hscaled : List.zipWith (· • ·) (out.map fun p => p.2.1.2)
      ((gateUp (cumsum 0 (((List.range localNumExperts).map fun e =>
        (out.filter fun p => p.2.1.1.toNat = e).length).map Nat.cast))
          (out.map fun p => hiddenStates.getD p.1 0)).map layers.swiglu) =
        out.map fun p => p.2.1.2 • layers.swiglu (layers.gate p.2.1.1.toNat (hiddenStates.getD p.1 0)) := by
    rw [hgate.eq_map hout.sorted (toNat_lt_of_mem h hout), List.map_map, List.zipWith_map, List.zipWith_self]
    rfl
  have hdown := hlayers.down (cumsum 0 (((List.range localNumExperts).map fun e =>
    (out.filter fun p => p.2.1.1.toNat = e).length).map Nat.cast))
      (out.map fun p => p.2.1.2 • layers.swiglu (layers.gate p.2.1.1.toNat (hiddenStates.getD p.1 0)))
  rw [groupCounts_cumsum] at hdown
  rw [mogeMlp, hscaled, hdown.eq_map hout.sorted (toNat_lt_of_mem h hout)]
  exact List.map_congr_left fun p _ => (layers.down p.2.1.1.toNat).map_smul _ _

/-- **The function returns the mixture**, of every batch that has rows, while `float32` tells them apart. -/
theorem fusedExpertsMoge_eq (hsort : Argsorts sort) (hlayers : layers.Multiplies gateUp down)
    {epSize globalNumExperts topK : ℕ}
    (h : IsMoeRank (globalNumExperts / epSize) (topK / epSize) hiddenStates routing)
    (hexperts : globalNumExperts / epSize ≤ 2 ^ 24 + 1)
    (hpos : 0 < hiddenStates.length * (topK / epSize))
    (hrows : hiddenStates.length * (topK / epSize) ≤ 2 ^ 24) :
    FusedMogeCorrect sort layers gateUp down epSize globalNumExperts topK hiddenStates routing := by
  have hids : IsArgsort (fun a b : ℤ => decide (a < b)) (routing.map (List.map Prod.fst)).flatten
      (sort ((routing.map (List.map Prod.fst)).flatten.map fun e : ℤ => toFloat32 e)) := by
    refine (hsort _).of_map fun a ha b hb => ?_
    have hexact : ∀ e ∈ (routing.map (List.map Prod.fst)).flatten, toFloat32 e = e := by
      intro e he
      rw [TokenDispatcherWithAllGather.choices_map_id] at he
      obtain ⟨p, hp, rfl⟩ := List.mem_map.mp he
      obtain ⟨hlow, hhigh⟩ := h.bounds_of_mem hp
      exact toFloat32_intCast (abs_le.mpr ⟨by omega, by omega⟩)
    rw [hexact a ha, hexact b hb, decide_eq_decide, Int.cast_lt]
  obtain ⟨out, dst, houtOf, hnumbers, -, hout, -⟩ := h.exists_sortedChoices hids
  have hlength : (choices routing).length = hiddenStates.length * (topK / epSize) := by
    rw [length_choices h.length_row, h.length_eq]
  have htokens := h.gather_tokens hout
  rw [← hnumbers] at htokens
  have hscales : gather (routing.map (List.map Prod.snd)).flatten
      (sort ((routing.map (List.map Prod.fst)).flatten.map fun e : ℤ => toFloat32 e)) =
        some (out.map fun p => p.2.1.2) := by
    rw [flatten_weights]
    exact houtOf _
  have hcounts := floatCounts_eq h hout (by rw [hout.perm.length_eq, hlength]; exact hrows)
  have hunsort : ∀ y : ℕ × (ℤ × R) × ℕ → V, gather (out.map y)
      (sort ((sort ((routing.map (List.map Prod.fst)).flatten.map fun e : ℤ => toFloat32 e)).map fun i : ℤ =>
        toFloat32 i)) = some ((choices routing).map y) := by
    intro y
    have hperm := hids.perm
    rw [TokenDispatcherWithAllGather.choices_map_id, List.length_map] at hperm
    rw [← TokenDispatcherWithAllGather.choices_map_id] at hperm
    refine gather_argsort_argsort (by rwa [List.length_map]) (houtOf y) (fun i hi j hj => ?_) (hsort _)
    have hexact : ∀ k ∈ sort ((routing.map (List.map Prod.fst)).flatten.map fun e : ℤ => toFloat32 e),
        toFloat32 k = k := by
      intro k hk
      obtain ⟨hlow, hhigh⟩ := mem_arange.mp (hperm.mem_iff.mp hk)
      exact toFloat32_intCast (abs_le.mpr ⟨by omega, by omega⟩)
    rw [hexact i hi, hexact j hj, decide_eq_decide, Int.cast_lt]
  have hsum := reshapeSum_choices h.length_row (by rwa [h.length_eq]) fun t choice =>
    choice.2 • layers.expert choice.1.toNat (hiddenStates.getD t 0)
  rw [h.length_eq] at hsum
  simp only [FusedMogeCorrect, fusedExpertsMoge, mogeInput, Bool.false_eq_true, if_false, mogeRoute, htokens,
    hscales, hcounts, Option.bind_eq_bind, Option.bind_some, Option.pure_def, mogeMlp_eq hlayers h hout,
    mogeUnsort, hunsort]
  exact hsum

/-- **The function is right and the class never is**: of every batch the function returns the mixture, while
`float32` tells its rows apart, and of no batch both implementations do. -/
theorem mogeCorrect_never (hsort : Argsorts sort) (hlayers : layers.Multiplies gateUp down)
    (epSize globalNumExperts topK : ℕ)
    (h : IsMoeRank (globalNumExperts / epSize) (topK / epSize) hiddenStates routing) :
    (globalNumExperts / epSize ≤ 2 ^ 24 + 1 → 0 < hiddenStates.length * (topK / epSize) →
      hiddenStates.length * (topK / epSize) ≤ 2 ^ 24 →
        FusedMogeCorrect sort layers gateUp down epSize globalNumExperts topK hiddenStates routing) ∧
      ¬ MogeCorrect sort layers gateUp down epSize globalNumExperts topK hiddenStates routing := by
  refine ⟨fusedExpertsMoge_eq hsort hlayers h, ?_⟩
  rintro ⟨-, kwargs, d, hinit, -⟩
  exact d.init_ne_ok kwargs hinit

end Fused

/-- Layers whose expert `e` multiplies by `e + 1`. -/
def scalingLayers : ExpertLayers ℤ ℤ ℤ ℤ where
  gate e x := (e + 1) * x
  swiglu := id
  down _ := LinearMap.id

theorem scalingLayers_multiplies : scalingLayers.Multiplies (npuGroupedMatmul scalingLayers.gate)
    (npuGroupedMatmul fun e => scalingLayers.down e) :=
  ⟨isGroupedMatmul_npuGroupedMatmul _, isGroupedMatmul_npuGroupedMatmul _⟩

theorem mogeCorrect_never_twoTokens :
    FusedMogeCorrect argsort scalingLayers (npuGroupedMatmul scalingLayers.gate)
        (npuGroupedMatmul fun e => scalingLayers.down e) 2 4 4 [5, 7]
        [[(1, 2), (0, 3)], [(0, 1), (1, 1)]] ∧
      ¬ MogeCorrect argsort scalingLayers (npuGroupedMatmul scalingLayers.gate)
        (npuGroupedMatmul fun e => scalingLayers.down e) 2 4 4 [5, 7]
        [[(1, 2), (0, 3)], [(0, 1), (1, 1)]] := by
  have h : IsMoeRank (4 / 2) (4 / 2) ([5, 7] : List ℤ) [[((1 : ℤ), (2 : ℤ)), (0, 3)], [(0, 1), (1, 1)]] :=
    ⟨rfl, by decide, by decide⟩
  obtain ⟨hfused, hnever⟩ := mogeCorrect_never argsort_argsorts scalingLayers_multiplies 2 4 4 h
  exact ⟨hfused (by decide) (by decide) (by decide), hnever⟩

/-- One token with one expert: the class raises on the keywords that it is made for. -/
theorem moge_refactored_raises :
    (∃ err, (UnquantizedTokenDispatcherWithFusedExpertsMoge.init
        [("top_k", 1), ("num_experts", 1), ("ep_size", 1)] :
          Except InitError (UnquantizedTokenDispatcherWithFusedExpertsMoge ℤ ℤ)) = .error err) ∧
      ¬ MogeCorrect argsort scalingLayers (npuGroupedMatmul scalingLayers.gate)
        (npuGroupedMatmul fun e => scalingLayers.down e) 1 1 1 [5] [[(0, 2)]] := by
  refine ⟨⟨.typeError, rfl⟩, ?_⟩
  rintro ⟨-, kwargs, d, hinit, -⟩
  exact d.init_ne_ok kwargs hinit

end VllmAscend
