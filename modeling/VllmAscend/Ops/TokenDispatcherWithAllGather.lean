import VllmAscend.Distributed.MoeCommMethod
import VllmAscend.Machinery.LastIndex
import VllmAscend.Ops.MoeOperators

/-!
# Ops/TokenDispatcherWithAllGather — what a dispatch leaves for the combination

    with an expert map      mask, sorted_weights, sorted_token_indices     set by the dispatch
    without                 expanded_row_idx                               set by the dispatch
    in both                 mask, sorted_weights, sorted_token_indices     asserted by the combination

The weight of an expert is applied to the input or to the output.  With an expert map the output is
weighted in any case, and without one it is weighted in any case when the rows are quantised.
-/

namespace VllmAscend

open Machinery

variable {R V : Type}

/-- The settings of a dispatcher, and what a dispatch leaves in it. -/
structure TokenDispatcherWithAllGather (R : Type) where
  applyRouterWeightOnInput : Bool
  topK : ℕ
  maxNumTokens : Option ℕ
  withQuant : Bool
  numExpertsLocal : ℕ
  sortedWeights : Option (List R)
  expandedRowIdx : Option (List ℤ)
  sortedTokenIndices : Option (List ℤ)
  originalShape : Option ℕ
  mask : Option (List Bool)
  expertMap : Option (List ℤ)
  topkWeights : Option (List (List R))
  topkIds : Option (List (List ℤ))
  deriving DecidableEq

/-- `arange(0, num_tokens * top_k).view(top_k, -1).permute(1, 0)` -/
def rowIdx (numTokens topK : ℕ) : List (List ℤ) :=
  (List.range numTokens).map fun t => (List.range topK).map fun k => ((k * numTokens + t : ℕ) : ℤ)

namespace TokenDispatcherWithAllGather

/-- `__init__` -/
def init (applyRouterWeightOnInput : Bool) (topK : ℕ) (maxNumTokens : Option ℕ) (withQuant : Bool)
    (numExperts epSize : ℕ) : TokenDispatcherWithAllGather R where
  applyRouterWeightOnInput
  topK
  maxNumTokens
  withQuant
  numExpertsLocal := numExperts / epSize
  sortedWeights := none
  expandedRowIdx := none
  sortedTokenIndices := none
  originalShape := none
  mask := none
  expertMap := none
  topkWeights := none
  topkIds := none

variable [CommRing R] [AddCommGroup V] [Module R V]

/-- `hidden_states * topk_weights` -/
def weighted (hiddenStates : List V) (topkWeights : List (List R)) : List V :=
  List.zipWith (fun x w => w • x) hiddenStates topkWeights.flatten

/-- The weights on the input, asserting one expert for each token. -/
def weightInput (d : TokenDispatcherWithAllGather R) (hiddenStates : List V)
    (topkWeights : List (List R)) : Option (List V) :=
  if d.applyRouterWeightOnInput then
    if topkWeights.all fun row => row.length = 1 then some (weighted hiddenStates topkWeights)
    else none
  else some hiddenStates

/-- `token_dispatch`, given what the sort returns: `none` is an exception.  The casts are exact. -/
def tokenDispatch (d : TokenDispatcherWithAllGather R) (hiddenStates : List V)
    (topkWeights : List (List R)) (topkIds : List (List ℤ)) (expertMap : Option (List ℤ))
    (sortIndices : List ℤ) :
    Option ((ℕ × List V × List ℤ) × TokenDispatcherWithAllGather R) := do
  let numTokens := hiddenStates.length
  let d := { d with
    originalShape := some numTokens
    expertMap := expertMap
    topkWeights := some topkWeights
    topkIds := some topkIds }
  let hiddenStates ← d.weightInput hiddenStates topkWeights
  match expertMap with
  | some expertMap =>
    let tokenIndices := (arange numTokens).flatMap (List.replicate d.topK)
    let weightsFlat := topkWeights.flatten
    let expertsFlat := topkIds.flatten
    let localExperts ← gather expertMap expertsFlat
    let mask := localExperts.map fun e => decide (e ≠ -1)
    let filteredWeights := List.zipWith (fun m w => if m then w else 0) mask weightsFlat
    let filtered := filteredExperts d.numExpertsLocal localExperts
    let sortedTokenIndices ← gather tokenIndices sortIndices
    let sortedWeights ← gather filteredWeights sortIndices
    let tokenCounts ← expertTokens d.numExpertsLocal filtered
    let sortedHiddenStates ← gather hiddenStates sortedTokenIndices
    let d := { d with
      mask := some mask
      sortedTokenIndices := some sortedTokenIndices
      sortedWeights := some sortedWeights }
    if d.withQuant then
      -- `expert_tokens` has no value here, and the return reads it
      none
    else
      let expertTokens := cumsum 0 (tokenCounts.map Nat.cast)
      return ((0, sortedHiddenStates, expertTokens), d)
  | none =>
    let activeNum := d.maxNumTokens.getD numTokens
    let (sortedHiddenStates, expandedRowIdx, expandedExpertIdx) ←
      npuMoeInitRouting hiddenStates (rowIdx numTokens d.topK) topkIds activeNum d.topK sortIndices
    let d := { d with expandedRowIdx := some expandedRowIdx }
    let expertTokens := npuMoeComputeExpertTokens expandedExpertIdx d.numExpertsLocal
    return ((0, sortedHiddenStates, expertTokens), d)

/-- `token_combine` -/
def tokenCombine (d : TokenDispatcherWithAllGather R) (hiddenStates : List V) : Option (List V) := do
  let mask ← d.mask
  let sortedTokenIndices ← d.sortedTokenIndices
  let sortedWeights ← d.sortedWeights
  let originalShape ← d.originalShape
  match d.expertMap with
  | some _ =>
    let weightedDownOut := List.zipWith (fun row w => w • row) hiddenStates sortedWeights
    let finalHiddenStates := List.replicate originalShape 0
    let numValidTokens := (mask.filter id).length
    let validOutput := weightedDownOut.mapIdx fun i row => if i < numValidTokens then row else 0
    indexAdd finalHiddenStates sortedTokenIndices validOutput
  | none =>
    let topkWeights ← d.topkWeights
    let expandedRowIdx ← d.expandedRowIdx
    if d.withQuant then
      npuMoeFinalizeRouting hiddenStates topkWeights expandedRowIdx
    else
      let scales := if d.applyRouterWeightOnInput then topkWeights.map (List.map fun _ => 1)
        else topkWeights
      npuMoeFinalizeRouting hiddenStates scales expandedRowIdx

/-! ## The mixture, with each weight once -/

/-- The rows that the experts get. -/
def routerInput (d : TokenDispatcherWithAllGather R) (hiddenStates : List V)
    (routing : List (List (ℤ × R))) : List V :=
  if d.applyRouterWeightOnInput then weighted hiddenStates (routing.map (List.map Prod.snd))
  else hiddenStates

/-- Every weight replaced by one. -/
def unweighted (routing : List (List (ℤ × R))) : List (List (ℤ × R)) :=
  routing.map (List.map fun choice => (choice.1, 1))

/-- The weighted sum over the experts, the weight on the input or on the output. -/
def expected (d : TokenDispatcherWithAllGather R) (f : ℕ → V → V) (expertMap : Option (List ℤ))
    (hiddenStates : List V) (routing : List (List (ℤ × R))) : List V :=
  mixture f expertMap (d.routerInput hiddenStates routing)
    (if d.applyRouterWeightOnInput then unweighted routing else routing)

/-- A batch for the dispatcher: the ids are those of experts, and there are no more tokens than its
largest batch has. -/
structure IsBatch (d : TokenDispatcherWithAllGather R) (expertMap : Option (List ℤ))
    (hiddenStates : List V) (routing : List (List (ℤ × R))) : Prop where
  isRouting : IsRouting d.topK hiddenStates.length d.numExpertsLocal expertMap routing
  id_nonneg : ∀ row ∈ routing, ∀ choice ∈ row, 0 ≤ choice.1
  topK_eq : d.applyRouterWeightOnInput → d.topK = 1
  length_le : ∀ m, d.maxNumTokens = some m → hiddenStates.length ≤ m

/-- What the sort of a dispatch returns: local ids read as floats, or ids. -/
def IsSort (d : TokenDispatcherWithAllGather R) (expertMap : Option (List ℤ))
    (topkIds : List (List ℤ)) (sortIndices : List ℤ) : Prop :=
  match expertMap with
  | some expertMap => ∀ localExperts, gather expertMap topkIds.flatten = some localExperts →
      IsArgsort sortLt (viewFloat32 (filteredExperts d.numExpertsLocal localExperts)) sortIndices
  | none => IsArgsort (fun a b => decide (a < b)) topkIds.flatten sortIndices

/-- Whatever the experts are, dispatch and combination return, and make the mixture from any output that
is right on the groups. -/
def CombinesMixture (d : TokenDispatcherWithAllGather R) (expertMap : Option (List ℤ))
    (hiddenStates : List V) (routing : List (List (ℤ × R))) (sortIndices : List ℤ) : Prop :=
  ∀ f : ℕ → V → V, ∃ groupListType sortedHiddenStates groupList d',
    d.tokenDispatch hiddenStates (routing.map (List.map Prod.snd)) (routing.map (List.map Prod.fst))
      expertMap sortIndices = some ((groupListType, sortedHiddenStates, groupList), d') ∧
    ∀ mlpOutput, IsGroupedOutput f (groupCounts groupListType groupList) sortedHiddenStates mlpOutput →
      d'.tokenCombine mlpOutput = some (d.expected f expertMap hiddenStates routing)

/-- With an expert map the rows are not quantised, and a weight on the input is one; without, an earlier
dispatch had an expert map, and a weight on the input of quantised rows is one. -/
def AppliesOnce (d : TokenDispatcherWithAllGather R) (expertMap : Option (List ℤ))
    (routing : List (List (ℤ × R))) : Prop :=
  match expertMap with
  | some _ => d.withQuant = false ∧ (d.applyRouterWeightOnInput → ∀ row ∈ routing, ∀ choice ∈ row,
      localExpert expertMap choice.1 ≠ some (-1) → choice.2 = 1)
  | none => (d.mask.isSome ∧ d.sortedTokenIndices.isSome ∧ d.sortedWeights.isSome) ∧
      (d.withQuant ∧ d.applyRouterWeightOnInput → ∀ row ∈ routing, ∀ choice ∈ row, choice.2 = 1)

variable {d : TokenDispatcherWithAllGather R} {expertMap : Option (List ℤ)} {hiddenStates : List V}
  {routing : List (List (ℤ × R))} {sortIndices : List ℤ}

/-! ## The input -/

omit [CommRing R] [AddCommGroup V] [Module R V] in
theorem IsBatch.length_weights (h : d.IsBatch expertMap hiddenStates routing)
    (hinput : d.applyRouterWeightOnInput) :
    (routing.map (List.map Prod.snd)).flatten.length = hiddenStates.length := by
  have hrows : ∀ row ∈ routing, row.length = 1 := fun row hrow =>
    (h.isRouting.length_row row hrow).trans (h.topK_eq hinput)
  have hones : ((routing.map (List.map Prod.snd)).map List.length) = routing.map fun _ => 1 := by
    rw [List.map_map]
    refine List.map_congr_left fun row hrow => ?_
    rw [Function.comp_apply, List.length_map, hrows row hrow]
  rw [List.length_flatten, hones, ← h.isRouting.length_eq]
  simp

theorem IsBatch.length_routerInput (h : d.IsBatch expertMap hiddenStates routing) :
    (d.routerInput hiddenStates routing).length = hiddenStates.length := by
  unfold routerInput
  split
  · next hinput => rw [weighted, List.length_zipWith, h.length_weights hinput, min_self]
  · rfl

/-- The assertions hold. -/
theorem IsBatch.weightInput_eq (h : d.IsBatch expertMap hiddenStates routing) :
    d.weightInput hiddenStates (routing.map (List.map Prod.snd)) =
      some (d.routerInput hiddenStates routing) := by
  unfold routerInput weightInput
  split
  · next hinput =>
    refine if_pos (List.all_eq_true.mpr fun row hrow => ?_)
    obtain ⟨choices, hchoices, rfl⟩ := List.mem_map.mp hrow
    rw [List.length_map, h.isRouting.length_row choices hchoices, h.topK_eq hinput]
    exact decide_eq_true rfl
  · rfl

/-- The routing of the rows that the experts get. -/
theorem IsBatch.isRouting_routerInput (h : d.IsBatch expertMap hiddenStates routing) :
    IsRouting d.topK (d.routerInput hiddenStates routing).length d.numExpertsLocal expertMap routing := by
  rw [h.length_routerInput]
  exact h.isRouting

/-! ## With an expert map -/

omit [CommRing R] [Module R V] in
/-- **The mask hides only rows behind the groups**, which are zero by then. -/
theorem mapIdx_valid {δ : Type} {key : δ → ℕ} {n : ℕ} {ps : List δ}
    (hsorted : ps.Pairwise fun a b => key a ≤ key b) (g : δ → V) :
    ((ps.map fun p => if key p < n then g p else 0).mapIdx fun i row =>
        if i < (ps.filter (key · < n)).length then row else 0) =
      ps.map fun p => if key p < n then g p else 0 := by
  refine List.ext_getElem? fun i => ?_
  rw [List.getElem?_mapIdx, List.getElem?_map]
  cases hp : ps[i]? with
  | none => rfl
  | some p =>
    rw [Option.map_some, Option.map_some, Option.some.injEq, ite_eq_left_iff]
    intro hbehind
    rw [eq_filter_append_of_sorted key n hsorted, List.getElem?_append_right (not_lt.mp hbehind)] at hp
    have hkey := of_decide_eq_true (List.mem_filter.mp (List.mem_of_getElem? hp)).2
    rw [if_neg (not_lt.mpr hkey)]

omit [CommRing R] [AddCommGroup V] [Module R V] in
/-- The valid rows are as many as the rows of the groups. -/
theorem IsBatch.length_valid {map : List ℤ} (h : d.IsBatch (some map) hiddenStates routing)
    {localExperts : List ℤ}
    (hlocal : localExpertsFlat (some map) (routing.map (List.map Prod.fst)).flatten =
      some localExperts) {out : List (ℕ × ℤ × R)} (hperm : out.Perm (tagged 0 routing)) :
    ((localExperts.map fun e => decide (e ≠ -1)).filter id).length =
      (out.filter (routeKey d.numExpertsLocal (some map) ·.2 < d.numExpertsLocal)).length := by
  rw [(hperm.filter _).length_eq, h.isRouting.localExperts_eq hlocal, List.map_map, List.filter_map,
    List.length_map]
  refine congrArg List.length (List.filter_congr fun p hp => ?_)
  obtain ⟨e, he, hlow, hhigh⟩ := (h.isRouting.local_tagged hp).2
  simp only [Function.comp_apply, routeKey, he, Option.getD_some, id, decide_eq_decide]
  split
  · next hnone => simp [hnone]
  · next hsome =>
    simp only [ne_eq, hsome, not_false_eq_true, true_iff]
    omega

/-- **Dispatch and combination with an expert map**: the weights are on the output. -/
theorem IsBatch.mixture_of_expertMap {map : List ℤ} (h : d.IsBatch (some map) hiddenStates routing)
    (hbound : d.numExpertsLocal ≤ 0x7F800001) (hquant : d.withQuant = false)
    (hsort : d.IsSort (some map) (routing.map (List.map Prod.fst)) sortIndices) (f : ℕ → V → V) :
    ∃ groupListType sortedHiddenStates groupList d',
      d.tokenDispatch hiddenStates (routing.map (List.map Prod.snd)) (routing.map (List.map Prod.fst))
        (some map) sortIndices = some ((groupListType, sortedHiddenStates, groupList), d') ∧
      ∀ mlpOutput, IsGroupedOutput f (groupCounts groupListType groupList) sortedHiddenStates mlpOutput →
        d'.tokenCombine mlpOutput =
          some (mixture f (some map) (d.routerInput hiddenStates routing) routing) := by
  obtain ⟨localExperts, hlocal⟩ := h.isRouting.exists_localExperts
  obtain ⟨hfiltered, out, hout, hperm, hsorted, htokens, hweights, hcounts, hrows⟩ :=
    h.isRouting.sorted_pairs hbound hlocal (hsort _ hlocal)
  have hgather : gather map (routing.map (List.map Prod.fst)).flatten = some localExperts := hlocal
  have hdispatch : d.tokenDispatch hiddenStates (routing.map (List.map Prod.snd))
      (routing.map (List.map Prod.fst)) (some map) sortIndices =
        some ((0, out.map fun p => (d.routerInput hiddenStates routing).getD p.1 0,
          cumsum 0 (((List.range d.numExpertsLocal).map fun e =>
            (out.filter (routeKey d.numExpertsLocal (some map) ·.2 = e)).length).map Nat.cast)),
          { d with
            originalShape := some hiddenStates.length
            expertMap := some map
            topkWeights := some (routing.map (List.map Prod.snd))
            topkIds := some (routing.map (List.map Prod.fst))
            mask := some (localExperts.map fun e => decide (e ≠ -1))
            sortedTokenIndices := some (out.map fun p => (p.1 : ℤ))
            sortedWeights := some (out.map fun p => routeWeight (some map) p.2) }) := by
    have hinput := h.weightInput_eq
    unfold weightInput at hinput
    simp only [tokenDispatch, weightInput, hinput, hgather, htokens, hweights, hcounts,
      hrows h.length_routerInput, hquant, Option.bind_eq_bind, Option.bind_some, Option.pure_def,
      Bool.false_eq_true, if_false]
  refine ⟨_, _, _, _, hdispatch, fun mlpOutput hmlp => ?_⟩
  rw [groupCounts_cumsum] at hmlp
  have hroute := fun p hp => (h.isRouting.local_tagged (p := p) (hperm.mem_iff.mp hp)).2
  have hweighted := hmlp.weighted hsorted (w := fun p : ℕ × ℤ × R => routeWeight (some map) p.2)
    fun p hp => routeWeight_eq_zero (hroute p hp)
  have hpost := NativeAllGatherCommImpl.postProcess_eq h.isRouting_routerInput hperm hsorted hmlp
  have hzeros : List.replicate hiddenStates.length (0 : V) =
      (d.routerInput hiddenStates routing).map fun _ => 0 := by
    rw [List.map_const', h.length_routerInput]
  rw [NativeAllGatherCommImpl.postProcess, hweighted] at hpost
  rw [← hpost, ← hzeros]
  simp only [tokenCombine, Option.bind_eq_bind, Option.bind_some, hweighted, h.length_valid hlocal hperm,
    mapIdx_valid hsorted]

/-! ## Without an expert map -/

/-- **Where each row went**: at its own number stands its place in the sorted list. -/
theorem scatter_places {δ : Type} {row : δ → ℕ} {out : List δ} (hnodup : (out.map row).Nodup)
    (hlt : ∀ p ∈ out, row p < out.length) :
    ∃ dst, scatter (List.replicate out.length 0) (out.map fun p => (row p : ℤ))
        (arange out.length) = some dst ∧
      ∀ p ∈ out, ∃ j : ℕ, dst[row p]? = some (j : ℤ) ∧ out[j]? = some p := by
  have hnodupInt : (out.map fun p => (row p : ℤ)).Nodup := by
    have hcast := hnodup.map (Nat.cast_injective (R := ℤ))
    rwa [List.map_map] at hcast
  have hbounds : ∀ i ∈ out.map fun p => (row p : ℤ),
      0 ≤ i ∧ i < (List.replicate out.length (0 : ℤ)).length := fun i hi => by
    obtain ⟨p, hp, rfl⟩ := List.mem_map.mp hi
    rw [List.length_replicate]
    exact ⟨Int.natCast_nonneg _, by exact_mod_cast hlt p hp⟩
  obtain ⟨dst, hdst, -, hget⟩ := scatter_arange hbounds
  rw [List.length_map] at hdst
  refine ⟨dst, hdst, fun p hp => ?_⟩
  obtain ⟨j, hj⟩ := List.mem_iff_getElem?.mp hp
  refine ⟨j, ?_, hj⟩
  rw [hget (row p) (by rw [List.length_replicate]; exact hlt p hp),
    lastIdx_of_nodup hnodupInt (j := j) (by rw [List.getElem?_map, hj]; rfl)]
  rfl

/-- The choices of the tokens, each with its place among those of the token. -/
def choices (routing : List (List (ℤ × R))) : List (ℕ × (ℤ × R) × ℕ) :=
  tagged 0 (routing.map fun row => row.zipIdx)

/-- The number of a choice, all first choices before all second ones. -/
def rowOf (numTokens : ℕ) (p : ℕ × (ℤ × R) × ℕ) : ℕ := p.2.2 * numTokens + p.1

omit [CommRing R] in
theorem mem_choices {p : ℕ × (ℤ × R) × ℕ} :
    p ∈ choices routing ↔ ∃ row, routing[p.1]? = some row ∧ row[p.2.2]? = some p.2.1 := by
  constructor
  · intro hp
    obtain ⟨t, row, ht, hrow, hmem⟩ := mem_tagged (r := p.1) (x := p.2) hp
    rw [Nat.zero_add] at ht
    subst ht
    rw [List.getElem?_map] at hrow
    obtain ⟨row, hget, rfl⟩ := Option.map_eq_some_iff.mp hrow
    exact ⟨row, hget, List.mk_mem_zipIdx_iff_getElem?.mp hmem⟩
  · rintro ⟨row, hrow, hchoice⟩
    have hfilter := filter_tagged (k := 0) (t := p.1)
      (show (routing.map fun row => row.zipIdx)[p.1]? = some row.zipIdx by
        rw [List.getElem?_map, hrow]; rfl)
    have hmem : p ∈ row.zipIdx.map (0 + p.1, ·) := List.mem_map.mpr
      ⟨p.2, List.mk_mem_zipIdx_iff_getElem?.mpr hchoice, by rw [Nat.zero_add]⟩
    rw [← hfilter] at hmem
    exact (List.mem_filter.mp hmem).1

omit [CommRing R] in
theorem choices_map_id : (routing.map (List.map Prod.fst)).flatten =
    (choices routing).map fun p => p.2.1.1 := by
  have hrows : routing.map (List.map Prod.fst) =
      (routing.map fun row => row.zipIdx).map (List.map fun c => c.1.1) := by
    rw [List.map_map]
    refine List.map_congr_left fun row _ => ?_
    conv_lhs => rw [← List.zipIdx_map_fst 0 row, List.map_map]
    rfl
  rw [hrows, ← List.map_flatten, ← tagged_map_snd 0, List.map_map]
  rfl

omit [CommRing R] in
/-- **What is made of the tokens and the places of their choices** stands in the order of the choices. -/
theorem flatMap_rows {β : Type} {topK : ℕ} (φ : ℕ → ℕ → β) : ∀ {rows : List (List (ℤ × R))} {s : ℕ},
    (∀ row ∈ rows, row.length = topK) →
      (((List.range' s rows.length).map fun t => (List.range topK).map fun k => φ t k).flatten =
        (tagged s (rows.map fun row => row.zipIdx)).map fun p => φ p.1 p.2.2)
  | [], _, _ => rfl
  | row :: rows, s, h => by
    have ih := flatMap_rows φ (s := s + 1) fun r hr => h r (.tail _ hr)
    rw [List.length_cons, List.range'_succ, List.map_cons, List.flatten_cons, ih, List.map_cons, tagged,
      List.map_append, List.map_map]
    refine congrArg (· ++ _) ?_
    rw [← h row (.head _)]
    refine List.ext_getElem (by simp) fun k hk hk' => ?_
    simp

omit [CommRing R] in
theorem choices_map_rowOf {topK : ℕ} (h : ∀ row ∈ routing, row.length = topK) :
    (rowIdx routing.length topK).flatten =
      (choices routing).map fun p => (rowOf routing.length p : ℤ) := by
  have hrows := flatMap_rows (fun t k => ((k * routing.length + t : ℕ) : ℤ)) (s := 0) h
  rwa [← List.range_eq_range'] at hrows

omit [CommRing R] in
/-- No two choices have the same number. -/
theorem nodup_rowOf {topK : ℕ} (h : ∀ row ∈ routing, row.length = topK) :
    ((choices routing).map (rowOf routing.length)).Nodup := by
  refine List.Nodup.of_map (fun n : ℕ => (n : ℤ)) ?_
  have hrows := choices_map_rowOf h
  rw [List.map_map, Function.comp_def, ← hrows, List.nodup_flatten]
  refine ⟨fun row hrow => ?_, ?_⟩
  · obtain ⟨t, ht, rfl⟩ := List.mem_map.mp hrow
    have hpos := Nat.zero_lt_of_lt (List.mem_range.mp ht)
    refine List.nodup_range.map fun k k' hk => ?_
    have hrow : k * routing.length + t = k' * routing.length + t := by exact_mod_cast hk
    exact Nat.eq_of_mul_eq_mul_right hpos (Nat.add_right_cancel hrow)
  · rw [rowIdx, List.pairwise_map]
    refine List.pairwise_lt_range.imp_of_mem fun {t t'} ht ht' hlt => ?_
    rintro x hx hx'
    obtain ⟨k, -, rfl⟩ := List.mem_map.mp hx
    obtain ⟨k', -, hk'⟩ := List.mem_map.mp hx'
    have hrow : k' * routing.length + t' = k * routing.length + t := by exact_mod_cast hk'
    have hmod := congrArg (· % routing.length) hrow
    simp only [Nat.mul_add_mod', Nat.mod_eq_of_lt (List.mem_range.mp ht),
      Nat.mod_eq_of_lt (List.mem_range.mp ht')] at hmod
    omega

/-- Adding the scaled outputs of each token up, the rows being numbered by `number`. -/
theorem finalizeRows_eq (number : ℕ → ℕ → ℕ) (g : ℤ × R → R) (y : ℕ → ℤ × R → V) {expandedX : List V}
    {dst : List ℤ} (hrows : ∀ p ∈ choices routing, ∃ j : ℕ,
      dst[number p.1 p.2.2]? = some (j : ℤ) ∧ expandedX[j]? = some (y p.1 p.2.1)) :
    (((routing.map (List.map g)).zipIdx).mapM fun row => do
        let outs ← row.1.zipIdx.mapM fun scale => do
          let dst ← item dst ((number row.2 scale.2 : ℕ) : ℤ)
          let x ← item expandedX dst
          return scale.1 • x
        return outs.sum) =
      some (routing.mapIdx fun t row => (row.map fun choice => g choice • y t choice).sum) := by
  rw [List.zipIdx_map, List.mapIdx_eq_zipIdx_map]
  refine mapM_map_eq_some (c := Prod.map (List.map g) id) fun row hrow => ?_
  have hget : routing[row.2]? = some row.1 := List.mk_mem_zipIdx_iff_getElem?.mp hrow
  have houts : ((row.1.zipIdx).map (Prod.map g id)).mapM (fun scale => do
      let dst ← item dst ((number row.2 scale.2 : ℕ) : ℤ)
      let x ← item expandedX dst
      return scale.1 • x) = some (row.1.zipIdx.map fun c => g c.1 • y row.2 c.1) := by
    refine mapM_map_eq_some fun c hc => ?_
    obtain ⟨j, hj, hy⟩ := hrows (row.2, c)
      (mem_choices.mpr ⟨row.1, hget, List.mk_mem_zipIdx_iff_getElem?.mp hc⟩)
    simp only [Prod.map_snd, Prod.map_fst, id, item_natCast, hj, hy, Option.bind_eq_bind,
      Option.bind_some, Option.pure_def]
  have hshares : (row.1.zipIdx.map fun c => g c.1 • y row.2 c.1) =
      row.1.map fun choice => g choice • y row.2 choice := by
    conv_rhs => rw [← List.zipIdx_map_fst 0 row.1, List.map_map]
    rfl
  rw [hshares] at houts
  rw [Prod.map_fst, Prod.map_snd, List.zipIdx_map]
  exact congrArg (· >>= fun outs => some outs.sum) houts

/-- **Finalizing adds the scaled outputs of each token up.** -/
theorem npuMoeFinalizeRouting_eq (g : ℤ × R → R) (y : ℕ → ℤ × R → V) {expandedX : List V}
    {dst : List ℤ} (hrows : ∀ p ∈ choices routing, ∃ j : ℕ,
      dst[rowOf routing.length p]? = some (j : ℤ) ∧ expandedX[j]? = some (y p.1 p.2.1)) :
    npuMoeFinalizeRouting expandedX (routing.map (List.map g)) dst =
      some (routing.mapIdx fun t row => (row.map fun choice => g choice • y t choice).sum) := by
  rw [npuMoeFinalizeRouting, List.length_map]
  exact finalizeRows_eq (fun t k => k * routing.length + t) g y hrows

/-- Without an expert map every expert is here. -/
theorem IsBatch.mixture_eq (h : d.IsBatch none hiddenStates routing) (g : ℤ × R → R) (f : ℕ → V → V)
    {xs : List V} (hxs : xs.length = hiddenStates.length) :
    mixture f none xs (routing.map (List.map fun choice => (choice.1, g choice))) =
      routing.mapIdx fun t row =>
        (row.map fun choice => g choice • f choice.1.toNat (xs.getD t 0)).sum := by
  refine List.ext_getElem (by simp [mixture, h.isRouting.length_eq, hxs]) fun t ht ht' => ?_
  have hlt : t < routing.length := by simpa using ht'
  have hltX : t < xs.length := by rwa [hxs, ← h.isRouting.length_eq]
  simp only [mixture, List.getElem_zipWith, List.getElem_map, List.getElem_mapIdx, List.map_map,
    List.getD_eq_getElem _ _ hltX]
  refine congrArg List.sum (List.map_congr_left fun choice hchoice => ?_)
  have hid := h.id_nonneg _ (List.getElem_mem hlt) choice hchoice
  have hne : choice.1 ≠ -1 := by omega
  simp only [Function.comp_apply, expertShare, localExpert, hne, if_false]

omit [CommRing R] [Module R V] in
/-- **What the initial routing returns**: the sorted rows, their running counts, and where each went. -/
theorem IsBatch.npuMoeInitRouting_eq (h : d.IsBatch none hiddenStates routing)
    (hsort : d.IsSort none (routing.map (List.map Prod.fst)) sortIndices) {xs : List V}
    (hxs : xs.length = hiddenStates.length) :
    ∃ (out : List (ℕ × (ℤ × R) × ℕ)) (expandedRowIdx : List ℤ),
      npuMoeInitRouting xs (rowIdx hiddenStates.length d.topK) (routing.map (List.map Prod.fst))
          (d.maxNumTokens.getD hiddenStates.length) d.topK sortIndices =
        some (out.map (fun p => xs.getD p.1 0), expandedRowIdx, out.map fun p => p.2.1.1) ∧
      npuMoeComputeExpertTokens (out.map fun p => p.2.1.1) d.numExpertsLocal =
        cumsum 0 (((List.range d.numExpertsLocal).map fun e =>
          (out.filter (·.2.1.1.toNat = e)).length).map Nat.cast) ∧
      out.Perm (choices routing) ∧ out.Pairwise (fun a b => a.2.1.1.toNat ≤ b.2.1.1.toNat) ∧
      ∀ p ∈ choices routing, ∃ j : ℕ,
        expandedRowIdx[rowOf hiddenStates.length p]? = some (j : ℤ) ∧ out[j]? = some p := by
  have hids : (routing.map (List.map Prod.fst)).flatten = (choices routing).map fun p => p.2.1.1 :=
    choices_map_id
  have hnums := choices_map_rowOf h.isRouting.length_row
  have hnodup := nodup_rowOf h.isRouting.length_row
  rw [h.isRouting.length_eq] at hnums hnodup
  have hmem : ∀ p ∈ choices routing, p.1 < hiddenStates.length ∧ p.2.2 < d.topK ∧ 0 ≤ p.2.1.1 := by
    intro p hp
    obtain ⟨row, hrow, hchoice⟩ := mem_choices.mp hp
    have hrowMem := List.mem_of_getElem? hrow
    have hlt := (List.getElem?_eq_some_iff.mp hrow).1
    have hltK := (List.getElem?_eq_some_iff.mp hchoice).1
    rw [h.isRouting.length_eq] at hlt
    rw [h.isRouting.length_row row hrowMem] at hltK
    exact ⟨hlt, hltK, h.id_nonneg row hrowMem _ (List.mem_of_getElem? hchoice)⟩
  have hlen : (choices routing).length = hiddenStates.length * d.topK := by
    have hnum := congrArg List.length hnums
    rw [List.length_map] at hnum
    rw [← hnum, rowIdx, List.length_flatten, List.map_map]
    simp [Function.comp_def]
  -- the sort, of the choices
  have hargsort : IsArgsort (fun a b => decide (a < b)) ((choices routing).map fun p => p.2.1.1)
      sortIndices := by
    rw [← hids]
    exact hsort
  obtain ⟨out, hout, hperm⟩ := gather_perm
    (show sortIndices.Perm (arange (choices routing).length) by
    have hindices := hargsort.perm
    rwa [List.length_map] at hindices)
  have hrows : gather ((choices routing).map fun p => (rowOf hiddenStates.length p : ℤ)) sortIndices =
      some (out.map fun p => (rowOf hiddenStates.length p : ℤ)) := by
    rw [gather_map, hout]
    rfl
  have houtIds : gather ((choices routing).map fun p => p.2.1.1) sortIndices =
      some (out.map fun p => p.2.1.1) := by
    rw [gather_map, hout]
    rfl
  have hmemOut : ∀ p ∈ out, p.1 < hiddenStates.length ∧ p.2.2 < d.topK ∧ 0 ≤ p.2.1.1 := fun p hp =>
    hmem p (hperm.mem_iff.mp hp)
  have hsorted : out.Pairwise fun a b => a.2.1.1.toNat ≤ b.2.1.1.toNat := by
    have hpairs := hargsort.sorted _ houtIds
    rw [List.pairwise_map] at hpairs
    refine hpairs.imp_of_mem fun ha hb hlt => ?_
    have hle := decide_eq_false_iff_not.mp hlt
    omega
  have hgather : gather xs ((out.map fun p => (rowOf hiddenStates.length p : ℤ)).map (· % xs.length)) =
      some (out.map fun p => xs.getD p.1 0) := by
    rw [List.map_map]
    refine gather_eq_some fun p hp => ?_
    have hlt := (hmemOut p hp).1
    have hmod : ((rowOf hiddenStates.length p : ℤ) % xs.length) = (p.1 : ℤ) := by
      rw [hxs, rowOf, ← Int.natCast_mod, Nat.mul_add_mod', Nat.mod_eq_of_lt hlt]
    rw [← hxs] at hlt
    rw [Function.comp_apply, hmod, item_natCast, List.getElem?_eq_getElem hlt,
      List.getD_eq_getElem _ _ hlt]
  obtain ⟨dst, hdst, hplace⟩ := scatter_places
    ((hperm.map _).nodup_iff.mpr hnodup) fun p hp => by
      obtain ⟨hlt, hltK, -⟩ := hmemOut p hp
      rw [hperm.length_eq, hlen, rowOf]
      calc p.2.2 * hiddenStates.length + p.1 < p.2.2 * hiddenStates.length + hiddenStates.length :=
            Nat.add_lt_add_left hlt _
        _ = (p.2.2 + 1) * hiddenStates.length := (Nat.succ_mul _ _).symm
        _ ≤ d.topK * hiddenStates.length := Nat.mul_le_mul_right _ hltK
        _ = hiddenStates.length * d.topK := Nat.mul_comm _ _
  have hactive : hiddenStates.length ≤ d.maxNumTokens.getD hiddenStates.length := by
    cases hm : d.maxNumTokens with
    | none => exact le_rfl
    | some m => exact h.length_le m hm
  refine ⟨out, dst, ?_, ?_, hperm, hsorted, fun p hp =>
    hplace p (hperm.mem_iff.mpr hp)⟩
  · rw [npuMoeInitRouting, hids, houtIds, hnums, hrows]
    simp only [hgather, List.length_map, hdst, Option.bind_eq_bind, Option.bind_some, Option.pure_def]
    rw [hxs, min_eq_left hactive, List.take_of_length_le (by rw [List.length_map, hperm.length_eq, hlen])]
  · exact npuMoeComputeExpertTokens_eq fun p hp => (hmemOut p hp).2.2

/-- What a dispatch without an expert map returns and leaves: the places of the rows, and nothing about
the mask. -/
theorem IsBatch.tokenDispatch_none (h : d.IsBatch none hiddenStates routing)
    (hsort : d.IsSort none (routing.map (List.map Prod.fst)) sortIndices) :
    ∃ (out : List (ℕ × (ℤ × R) × ℕ)) (dst : List ℤ),
      d.tokenDispatch hiddenStates (routing.map (List.map Prod.snd)) (routing.map (List.map Prod.fst))
          none sortIndices =
        some ((0, out.map fun p => (d.routerInput hiddenStates routing).getD p.1 0,
          cumsum 0 (((List.range d.numExpertsLocal).map fun e =>
            (out.filter (·.2.1.1.toNat = e)).length).map Nat.cast)),
          { d with
            originalShape := some hiddenStates.length
            expertMap := none
            topkWeights := some (routing.map (List.map Prod.snd))
            topkIds := some (routing.map (List.map Prod.fst))
            expandedRowIdx := some dst }) ∧
      out.Perm (choices routing) ∧ out.Pairwise (fun a b => a.2.1.1.toNat ≤ b.2.1.1.toNat) ∧
      ∀ p ∈ choices routing, ∃ j : ℕ,
        dst[rowOf hiddenStates.length p]? = some (j : ℤ) ∧ out[j]? = some p := by
  obtain ⟨out, dst, hinit, htokens, hrest⟩ := h.npuMoeInitRouting_eq hsort h.length_routerInput
  refine ⟨out, dst, ?_, hrest⟩
  have hinput := h.weightInput_eq
  unfold weightInput at hinput
  simp only [tokenDispatch, weightInput, hinput, hinit, htokens, Option.bind_eq_bind, Option.bind_some,
    Option.pure_def]

/-- **Dispatch and combination without an expert map**: the weights are on the output, unless they are on
the input and nothing is quantised. -/
theorem IsBatch.mixture_of_none (h : d.IsBatch none hiddenStates routing)
    (hset : d.mask.isSome ∧ d.sortedTokenIndices.isSome ∧ d.sortedWeights.isSome)
    (hsort : d.IsSort none (routing.map (List.map Prod.fst)) sortIndices) (f : ℕ → V → V) :
    ∃ groupListType sortedHiddenStates groupList d',
      d.tokenDispatch hiddenStates (routing.map (List.map Prod.snd)) (routing.map (List.map Prod.fst))
        none sortIndices = some ((groupListType, sortedHiddenStates, groupList), d') ∧
      ∀ mlpOutput, IsGroupedOutput f (groupCounts groupListType groupList) sortedHiddenStates mlpOutput →
        d'.tokenCombine mlpOutput =
          some (mixture f none (d.routerInput hiddenStates routing)
            (if !d.withQuant && d.applyRouterWeightOnInput then unweighted routing else routing)) := by
  obtain ⟨out, dst, hdispatch, hperm, hsorted, hplace⟩ := h.tokenDispatch_none hsort
  obtain ⟨⟨mask, hmask⟩, ⟨indices, hindices⟩, ⟨weights, hweights⟩⟩ :=
    And.imp Option.isSome_iff_exists.mp
      (And.imp Option.isSome_iff_exists.mp Option.isSome_iff_exists.mp) hset
  refine ⟨_, _, _, _, hdispatch, fun mlpOutput hmlp => ?_⟩
  rw [groupCounts_cumsum] at hmlp
  have hlt : ∀ p ∈ out, p.2.1.1.toNat < d.numExpertsLocal := fun p hp => by
    obtain ⟨row, hrow, hchoice⟩ := mem_choices.mp (hperm.mem_iff.mp hp)
    obtain ⟨e, he, hlow, hhigh⟩ := h.isRouting.local_lt row (List.mem_of_getElem? hrow) _
      (List.mem_of_getElem? hchoice)
    cases he
    have hid := h.id_nonneg row (List.mem_of_getElem? hrow) _ (List.mem_of_getElem? hchoice)
    omega
  have hrows : ∀ p ∈ choices routing, ∃ j : ℕ, dst[rowOf routing.length p]? = some (j : ℤ) ∧
      mlpOutput[j]? =
        some (f p.2.1.1.toNat ((d.routerInput hiddenStates routing).getD p.1 0)) := fun p hp => by
    obtain ⟨j, hj, hjOut⟩ := hplace p hp
    refine ⟨j, h.isRouting.length_eq.symm ▸ hj, ?_⟩
    rw [hmlp.eq_map hsorted hlt, List.getElem?_map, hjOut]
    rfl
  have hfinal := fun g : ℤ × R → R => (npuMoeFinalizeRouting_eq g
    (fun t choice => f choice.1.toNat ((d.routerInput hiddenStates routing).getD t 0)) hrows).trans
      (congrArg some (h.mixture_eq g f h.length_routerInput).symm)
  have hsame : routing.map (List.map fun choice : ℤ × R => (choice.1, choice.2)) = routing := by
    simp
  have hones : (routing.map (List.map Prod.snd)).map (List.map fun _ => (1 : R)) =
      routing.map (List.map fun _ => 1) := by
    simp [Function.comp_def]
  have hscaled := hfinal Prod.snd
  rw [hsame] at hscaled
  simp only [tokenCombine, hmask, hindices, hweights, Option.bind_eq_bind, Option.bind_some]
  cases hquant : d.withQuant with
  | true => exact hscaled
  | false =>
    cases hin : d.applyRouterWeightOnInput with
    | true =>
      simp only [Bool.false_eq_true, if_false, if_true, hones]
      exact hfinal fun _ => 1
    | false => exact hscaled

/-! ## Every setting -/

/-- When the outcome is known, it has to be the mixture. -/
theorem combinesMixture_iff_of {outcome : (ℕ → V → V) → List V}
    (houtcome : ∀ f : ℕ → V → V, ∃ groupListType sortedHiddenStates groupList d',
      d.tokenDispatch hiddenStates (routing.map (List.map Prod.snd)) (routing.map (List.map Prod.fst))
        expertMap sortIndices = some ((groupListType, sortedHiddenStates, groupList), d') ∧
      ∀ mlpOutput, IsGroupedOutput f (groupCounts groupListType groupList) sortedHiddenStates mlpOutput →
        d'.tokenCombine mlpOutput = some (outcome f)) :
    d.CombinesMixture expertMap hiddenStates routing sortIndices ↔
      ∀ f, outcome f = d.expected f expertMap hiddenStates routing := by
  constructor
  · intro hcombines f
    obtain ⟨groupListType, rows, groupList, d', hdispatch, hcombine⟩ := houtcome f
    obtain ⟨groupListType', rows', groupList', d'', hdispatch', hcombine'⟩ := hcombines f
    rw [hdispatch] at hdispatch'
    cases hdispatch'
    have : Inhabited V := ⟨0⟩
    obtain ⟨mlpOutput, hmlp⟩ := exists_isGroupedOutput f (groupCounts groupListType groupList) rows
    exact Option.some.inj ((hcombine mlpOutput hmlp).symm.trans (hcombine' mlpOutput hmlp))
  · intro hsame f
    obtain ⟨groupListType, rows, groupList, d', hdispatch, hcombine⟩ := houtcome f
    exact ⟨groupListType, rows, groupList, d', hdispatch, fun mlpOutput hmlp =>
      (hcombine mlpOutput hmlp).trans (congrArg some (hsame f))⟩

/-- **Weighting again changes nothing only where the weights are one.** -/
theorem mixture_eq_unweighted_iff [FaithfulSMul R V] {numExperts : ℕ} {xs : List V}
    (h : IsRouting 1 xs.length numExperts expertMap routing) :
    (∀ f : ℕ → V → V, mixture f expertMap xs routing = mixture f expertMap xs (unweighted routing)) ↔
      ∀ row ∈ routing, ∀ choice ∈ row, localExpert expertMap choice.1 ≠ some (-1) → choice.2 = 1 := by
  constructor
  · intro hmixture row hrow choice hchoice hlocal
    obtain ⟨e, he, hlow, hhigh⟩ := h.local_lt row hrow choice hchoice
    have hne : e ≠ -1 := fun hnone => hlocal (hnone ▸ he)
    obtain ⟨single, rfl⟩ := List.length_eq_one_iff.mp (h.length_row row hrow)
    obtain rfl := List.mem_singleton.mp hchoice
    obtain ⟨t, ht, hget⟩ := List.getElem_of_mem hrow
    -- a constant expert shows the weight
    refine FaithfulSMul.eq_of_smul_eq_smul (α := V) fun v => ?_
    have hrow := congrArg (·[t]?) (hmixture fun _ _ => v)
    have htX : t < xs.length := h.length_eq ▸ ht
    simpa [mixture, unweighted, List.getElem?_zipWith, ht, htX, hget, expertShare, he, hne] using hrow
  · intro hone f
    rw [mixture, mixture, unweighted, List.zipWith_map_right]
    refine List.ext_getElem (by simp) fun t ht ht' => ?_
    have htRouting : t < routing.length := by
      rw [List.length_zipWith] at ht
      omega
    rw [List.getElem_zipWith, List.getElem_zipWith, List.map_map]
    refine congrArg List.sum (List.map_congr_left fun choice hchoice => ?_)
    have hrow := List.getElem_mem htRouting
    obtain ⟨e, he, -, -⟩ := h.local_lt _ hrow choice hchoice
    simp only [Function.comp_apply, expertShare, he]
    split
    · rfl
    · next hne => rw [hone _ hrow choice hchoice (by rw [he]; exact fun hs => hne (Option.some.inj hs))]

/-- Quantised rows with an expert map are not returned. -/
theorem tokenDispatch_withQuant {map : List ℤ} {weights : List (List R)} {ids : List (List ℤ)}
    (hquant : d.withQuant = true) :
    d.tokenDispatch hiddenStates weights ids (some map) sortIndices = none := by
  simp [tokenDispatch, hquant]

/-- The combination asserts what only a dispatch with an expert map sets. -/
theorem asserted_of_tokenCombine {rows out : List V} (h : d.tokenCombine rows = some out) :
    d.mask.isSome ∧ d.sortedTokenIndices.isSome ∧ d.sortedWeights.isSome := by
  unfold tokenCombine at h
  obtain ⟨mask, hmask, h⟩ := Option.bind_eq_some_iff.mp h
  obtain ⟨indices, hindices, h⟩ := Option.bind_eq_some_iff.mp h
  obtain ⟨weights, hweights, -⟩ := Option.bind_eq_some_iff.mp h
  rw [hmask, hindices, hweights]
  exact ⟨rfl, rfl, rfl⟩

/-- **Dispatch and combination make the mixture** exactly where each weight is applied once and nothing
is read that was not written. -/
theorem combinesMixture_iff [FaithfulSMul R V] (h : d.IsBatch expertMap hiddenStates routing)
    (hbound : expertMap.isSome → d.numExpertsLocal ≤ 0x7F800001)
    (hsort : d.IsSort expertMap (routing.map (List.map Prod.fst)) sortIndices) :
    d.CombinesMixture expertMap hiddenStates routing sortIndices ↔ d.AppliesOnce expertMap routing := by
  have hrouting := h.isRouting_routerInput
  cases expertMap with
  | some map =>
    cases hquant : d.withQuant with
    | true =>
      refine iff_of_false (fun hcombines => ?_) fun honce => ?_
      · obtain ⟨_, _, _, _, hdispatch, -⟩ := hcombines fun _ _ => 0
        rw [tokenDispatch_withQuant hquant] at hdispatch
        cases hdispatch
      · exact Bool.noConfusion (hquant.symm.trans honce.1)
    | false =>
      rw [combinesMixture_iff_of fun f => h.mixture_of_expertMap (hbound rfl) hquant hsort f]
      simp only [expected, AppliesOnce, hquant, true_and]
      cases hin : d.applyRouterWeightOnInput with
      | true =>
        rw [h.topK_eq hin] at hrouting
        simpa using mixture_eq_unweighted_iff hrouting
      | false => simp
  | none =>
    by_cases hset : d.mask.isSome ∧ d.sortedTokenIndices.isSome ∧ d.sortedWeights.isSome
    · rw [combinesMixture_iff_of fun f => h.mixture_of_none hset hsort f]
      simp only [expected, AppliesOnce, hset, true_and]
      cases hquant : d.withQuant with
      | true =>
        cases hin : d.applyRouterWeightOnInput with
        | true =>
          rw [h.topK_eq hin] at hrouting
          have hlocal : ∀ row ∈ routing, ∀ choice ∈ row,
              localExpert none choice.1 ≠ some (-1) := fun row hrow choice hchoice hnone => by
            have hid := h.id_nonneg row hrow choice hchoice
            have hneg := Option.some.inj hnone
            omega
          have hiff := mixture_eq_unweighted_iff hrouting
          simp only [Bool.not_true, Bool.false_and, Bool.false_eq_true, if_false, if_true, hiff,
            and_self, true_imp_iff]
          exact forall₄_congr fun row hrow choice hchoice =>
            ⟨fun hone => hone (hlocal row hrow choice hchoice), fun hone _ => hone⟩
        | false => simp
      | false => simp
    · refine iff_of_false (fun hcombines => hset ?_) fun honce => hset honce.1
      obtain ⟨out, dst, hdispatch, -⟩ := h.tokenDispatch_none hsort
      obtain ⟨groupListType, rows, groupList, d', hdispatch', hcombine⟩ := hcombines fun _ _ => 0
      rw [hdispatch] at hdispatch'
      cases hdispatch'
      have : Inhabited V := ⟨0⟩
      obtain ⟨mlpOutput, hmlp⟩ := exists_isGroupedOutput (fun _ (_ : V) => (0 : V)) _ _
      have hasserted := asserted_of_tokenCombine (hcombine mlpOutput hmlp)
      exact hasserted

/-- Two tokens with two experts each, one of them here, on a new dispatcher. -/
theorem combinesMixture_iff_twoTokens :
    (init (R := ℤ) false 2 none false 2 2).CombinesMixture (V := ℤ) (some [-1, 0]) [10, 20] twoTokens
        [3, 0, 1, 2] ↔
      (init (R := ℤ) false 2 none false 2 2).AppliesOnce (some [-1, 0]) twoTokens :=
  combinesMixture_iff ⟨twoTokens_isRouting, by decide, by decide, fun _ hm => nomatch hm⟩ (by decide)
    fun localExperts hlocal => by
      obtain rfl : [0, -1, -1, 0] = localExperts := by
        rw [← Option.some.injEq, ← hlocal]
        decide
      exact twoTokens_isArgsort

theorem oneToken_isBatch (onInput withQuant : Bool) {expertMap : Option (List ℤ)}
    (hmap : expertMap = none ∨ expertMap = some [0]) :
    (init (R := ℤ) onInput 1 none withQuant 1 1).IsBatch expertMap [(5 : ℤ)] [[(0, 2)]] where
  isRouting := by
    have hrouting : IsRouting 1 1 1 expertMap [[((0 : ℤ), (2 : ℤ))]] := by
      obtain rfl | rfl := hmap <;> exact ⟨rfl, by decide, by decide⟩
    exact hrouting
  id_nonneg := by decide
  topK_eq _ := rfl
  length_le _ hm := nomatch hm

theorem oneToken_isSort (onInput withQuant : Bool) {expertMap : Option (List ℤ)}
    (hmap : expertMap = none ∨ expertMap = some [0]) :
    (init (R := ℤ) onInput 1 none withQuant 1 1).IsSort expertMap [[0]] [0] := by
  obtain rfl | rfl := hmap
  · refine ⟨.refl _, fun out hout => ?_⟩
    obtain rfl := Option.some.inj hout
    exact List.pairwise_singleton _ _
  · intro localExperts hlocal
    obtain rfl := Option.some.inj hlocal
    refine ⟨.refl _, fun out hout => ?_⟩
    obtain rfl := Option.some.inj hout
    exact List.pairwise_singleton _ _

/-- **A new dispatcher without an expert map** dispatches one token, and its combination asserts a mask;
with an expert map and the weight on the input, the weight 2 counts twice; and quantised rows with an
expert map are not even returned. -/
theorem not_combinesMixture :
    ((init (R := ℤ) false 1 none false 1 1).IsBatch none [(5 : ℤ)] [[(0, 2)]] ∧
      (init (R := ℤ) false 1 none false 1 1).IsSort none [[0]] [0] ∧
      ¬ (init (R := ℤ) false 1 none false 1 1).CombinesMixture none [(5 : ℤ)] [[(0, 2)]] [0]) ∧
    ((init (R := ℤ) true 1 none false 1 1).IsBatch (some [0]) [(5 : ℤ)] [[(0, 2)]] ∧
      (init (R := ℤ) true 1 none false 1 1).IsSort (some [0]) [[0]] [0] ∧
      ¬ (init (R := ℤ) true 1 none false 1 1).CombinesMixture (some [0]) [(5 : ℤ)] [[(0, 2)]] [0]) ∧
    ((init (R := ℤ) false 1 none true 1 1).IsBatch (some [0]) [(5 : ℤ)] [[(0, 2)]] ∧
      (init (R := ℤ) false 1 none true 1 1).IsSort (some [0]) [[0]] [0] ∧
      ¬ (init (R := ℤ) false 1 none true 1 1).CombinesMixture (some [0]) [(5 : ℤ)] [[(0, 2)]] [0]) := by
  refine ⟨⟨oneToken_isBatch _ _ (.inl rfl), oneToken_isSort _ _ (.inl rfl), fun h => ?_⟩,
    ⟨oneToken_isBatch _ _ (.inr rfl), oneToken_isSort _ _ (.inr rfl), fun h => ?_⟩,
    ⟨oneToken_isBatch _ _ (.inr rfl), oneToken_isSort _ _ (.inr rfl), fun h => ?_⟩⟩
  · obtain ⟨_, _, _, _, hdispatch, hcombine⟩ := h fun _ x => x
    cases hdispatch
    cases hcombine [5] ⟨rfl, [], rfl⟩
  · obtain ⟨_, _, _, _, hdispatch, hcombine⟩ := h fun _ x => x
    cases hdispatch
    cases hcombine [10] ⟨rfl, [], rfl⟩
  · obtain ⟨_, _, _, _, hdispatch, -⟩ := h fun _ x => x
    rw [tokenDispatch_withQuant rfl] at hdispatch
    cases hdispatch

end TokenDispatcherWithAllGather

end VllmAscend
