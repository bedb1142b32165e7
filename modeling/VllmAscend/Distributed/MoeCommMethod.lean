import VllmAscend.Machinery.FloatBits
import VllmAscend.Machinery.Grouping

/-!
# Distributed/MoeCommMethod — the native dispatch of tokens to experts

    (token, k)      local expert, or num_experts        argsort by the bits, read as floats
    rows            x_t for every pair, expert by expert, the pairs without an expert last
    weights         0 for a pair without an expert

Every token appears once for each of its experts.  The outputs are weighted and added up under the
token, so what comes out is the weighted sum over the local experts (`unifiedFusedExperts_eq`), whatever
the sort does among equal keys and whatever stands in the rows behind the last group.  The sort puts the
ids in order up to the first pattern that is not a number.
-/

namespace VllmAscend

open Machinery

variable {R V : Type}

/-- What `_pre_process` leaves for `_post_process`. -/
structure NativeAllGatherCommImpl (R : Type) where
  sortedTokenIndices : List ℤ
  sortedWeights : List R

/-- `expert_map[experts_flat] if expert_map is not None else experts_flat` -/
def localExpertsFlat (expertMap : Option (List ℤ)) (expertsFlat : List ℤ) : Option (List ℤ) :=
  match expertMap with
  | some expertMap => gather expertMap expertsFlat
  | none => some expertsFlat

def filteredExperts (numExperts : ℕ) (localExperts : List ℤ) : List ℤ :=
  localExperts.map fun e => if e ≠ -1 then e else numExperts

/-- `filtered_experts.view(torch.float32)` -/
def viewFloat32 (ids : List ℤ) : List (BitVec 32) := ids.map (BitVec.ofInt 32)

/-- `token_counts[:num_experts]` -/
def expertTokens (numExperts : ℕ) (filtered : List ℤ) : Option (List ℕ) := do
  let tokenCounts ← indexAdd (List.replicate (numExperts + 1) 0) filtered (filtered.map fun _ => 1)
  return tokenCounts.take numExperts

namespace NativeAllGatherCommImpl

section Methods

variable [CommRing R] [AddCommGroup V] [Module R V]

/-- `_pre_process`, given what `argsort` returns.  The casts are exact. -/
def preProcess (topKNum : ℕ) (hiddenStates : List V) (topkIds : List (List ℤ))
    (topkWeights : List (List R)) (expertMap : Option (List ℤ)) (numExperts : ℕ)
    (sortIndices : List ℤ) : Option ((List V × List ℕ × ℕ) × NativeAllGatherCommImpl R) := do
  let numTokens := hiddenStates.length
  let tokenIndices := (arange numTokens).flatMap (List.replicate topKNum)
  let weightsFlat := topkWeights.flatten
  let expertsFlat := topkIds.flatten
  let localExperts ← localExpertsFlat expertMap expertsFlat
  let mask := localExperts.map fun e => decide (e ≠ -1)
  let filteredWeights := List.zipWith (fun m w => if m then w else 0) mask weightsFlat
  let filtered := filteredExperts numExperts localExperts
  let sortedTokenIndices ← gather tokenIndices sortIndices
  let sortedWeights ← gather filteredWeights sortIndices
  let counts ← expertTokens numExperts filtered
  let permutedHiddenStates ← gather hiddenStates sortedTokenIndices
  let groupListType := 1
  return ((permutedHiddenStates, counts, groupListType), ⟨sortedTokenIndices, sortedWeights⟩)

/-- `_post_process`; the result overwrites the hidden states. -/
def postProcess (impl : NativeAllGatherCommImpl R) (mlpOutput hiddenStates : List V) :
    Option (List V) :=
  let mlpOutput := List.zipWith (fun row w => w • row) mlpOutput impl.sortedWeights
  let finalHiddenStates := hiddenStates.map fun _ => 0
  indexAdd finalHiddenStates impl.sortedTokenIndices mlpOutput

end Methods

end NativeAllGatherCommImpl

/-- The local id of an expert. -/
def localExpert (expertMap : Option (List ℤ)) (id : ℤ) : Option ℤ :=
  match expertMap with
  | some expertMap => item expertMap id
  | none => some id

/-- What a token gets of one of its experts. -/
def expertShare [Zero V] [SMul R V] (f : ℕ → V → V) (expertMap : Option (List ℤ)) (x : V)
    (choice : ℤ × R) : V :=
  match localExpert expertMap choice.1 with
  | some e => if e = -1 then 0 else choice.2 • f e.toNat x
  | none => 0

/-- The weighted sum over the local experts of each token. -/
def mixture [AddCommMonoid V] [SMul R V] (f : ℕ → V → V) (expertMap : Option (List ℤ))
    (hiddenStates : List V) (routing : List (List (ℤ × R))) : List V :=
  List.zipWith (fun x row => (row.map (expertShare f expertMap x)).sum) hiddenStates routing

/-- Every token has `topKNum` experts, whose local ids are below `numExperts`. -/
structure IsRouting (topKNum numTokens numExperts : ℕ) (expertMap : Option (List ℤ))
    (routing : List (List (ℤ × R))) : Prop where
  length_eq : routing.length = numTokens
  length_row : ∀ row ∈ routing, row.length = topKNum
  local_lt : ∀ row ∈ routing, ∀ choice ∈ row,
    ∃ e, localExpert expertMap choice.1 = some e ∧ -1 ≤ e ∧ e < numExperts

/-! ## The keys -/

/-- The key of a pair: its local expert, or the number of experts. -/
def routeKey (numExperts : ℕ) (expertMap : Option (List ℤ)) (choice : ℤ × R) : ℕ :=
  match localExpert expertMap choice.1 with
  | some e => if e = -1 then numExperts else e.toNat
  | none => numExperts

/-- The weight of a pair, zero without an expert. -/
def routeWeight [Zero R] (expertMap : Option (List ℤ)) (choice : ℤ × R) : R :=
  match localExpert expertMap choice.1 with
  | some e => if e = -1 then 0 else choice.2
  | none => 0

theorem localExpertsFlat_eq (expertMap : Option (List ℤ)) (ids : List ℤ) :
    localExpertsFlat expertMap ids = ids.mapM (localExpert expertMap) := by
  cases expertMap with
  | some m => rfl
  | none =>
    have hids := mapM_map_eq_some (f := localExpert none) (c := id) (g := id) (l := ids) fun _ _ => rfl
    rw [List.map_id] at hids
    exact hids.symm

theorem viewFloat32_natCast (keys : List ℕ) :
    viewFloat32 (keys.map fun k : ℕ => (k : ℤ)) = keys.map (BitVec.ofNat 32) := by
  rw [viewFloat32, List.map_map]
  exact List.map_congr_left fun k _ => BitVec.ofInt_natCast 32 k

/-- **Sorting the patterns sorts the keys.** -/
theorem sorted_of_isArgsort {δ : Type} {key : δ → ℕ} {ps out : List δ} {sortIndices : List ℤ}
    (hle : ∀ p ∈ ps, key p ≤ 0x7F800001)
    (hsort : IsArgsort sortLt (viewFloat32 (ps.map fun p => (key p : ℤ))) sortIndices)
    (hout : gather ps sortIndices = some out) (hperm : out.Perm ps) :
    out.Pairwise fun a b => key a ≤ key b := by
  have hview : viewFloat32 (ps.map fun p => (key p : ℤ)) =
      ps.map fun p => BitVec.ofNat 32 (key p) := by
    have hcast := viewFloat32_natCast (ps.map key)
    rwa [List.map_map, List.map_map] at hcast
  have hsorted := hsort.sorted (out.map fun p => BitVec.ofNat 32 (key p))
    (by rw [hview, gather_map, hout]; rfl)
  rw [List.pairwise_map] at hsorted
  refine hsorted.imp_of_mem fun ha hb hlt => ?_
  rw [sortLt_natCast (hle _ (hperm.mem_iff.mp hb)) (hle _ (hperm.mem_iff.mp ha)),
    decide_eq_false_iff_not] at hlt
  exact not_lt.mp hlt

/-- **The counts are the lengths of the groups.** -/
theorem expertTokens_eq {δ : Type} {key : δ → ℕ} {ps out : List δ} {numExperts : ℕ}
    (hle : ∀ p ∈ ps, key p ≤ numExperts) (hperm : out.Perm ps) :
    expertTokens numExperts (ps.map fun p => (key p : ℤ)) =
      some ((List.range numExperts).map fun e => (out.filter (key · = e)).length) := by
  have hadd := @indexAdd_eq _ _ (ps.map fun p => (key p, 1)) (List.replicate (numExperts + 1) 0)
    fun e he => by
      obtain ⟨p, hp, rfl⟩ := List.mem_map.mp he
      rw [List.length_replicate]
      exact Nat.lt_succ_of_le (hle p hp)
  rw [List.map_map, List.map_map] at hadd
  have hsum : ∀ e, sumAt (ps.map fun p => (key p, 1)) e = (out.filter (key · = e)).length := fun e => by
    rw [sumAt, List.filter_map, List.map_map]
    simp only [Function.comp_def, List.map_const', List.sum_replicate, smul_eq_mul, mul_one]
    exact ((hperm.filter _).length_eq).symm
  rw [expertTokens, List.map_map]
  simp only [Function.comp_def] at hadd ⊢
  rw [hadd, Option.bind_eq_bind, Option.bind_some, Option.pure_def, Option.some.injEq]
  refine List.ext_getElem? fun e => ?_
  by_cases he : e < numExperts
  · simp [he, hsum]
  · simp [he]

/-! ## The pairs -/

section Pairs

variable {hiddenStates : List V} {routing : List (List (ℤ × R))} {topKNum numExperts : ℕ}
  {expertMap : Option (List ℤ)}

/-- **The token indices**, with every token as often as it has experts. -/
theorem tokenIndices_eq {γ : Type} {topKNum : ℕ} : ∀ {rows : List (List γ)} {k : ℕ},
    (∀ row ∈ rows, row.length = topKNum) →
      (segment k rows.length).flatMap (List.replicate topKNum) =
        (tagged k rows).map fun e => (e.1 : ℤ)
  | [], _, _ => rfl
  | row :: rows, k, h => by
    have ih := tokenIndices_eq (k := k + 1) fun r hr => h r (.tail _ hr)
    rw [Nat.cast_add, Nat.cast_one] at ih
    rw [List.length_cons, segment_succ, List.flatMap_cons, ih, tagged, List.map_append, List.map_map,
      ← h row (.head _)]
    simp [Function.comp_def]

theorem IsRouting.local_tagged (h : IsRouting topKNum hiddenStates.length numExperts expertMap routing)
    {p : ℕ × ℤ × R} (hp : p ∈ tagged 0 routing) :
    p.1 < hiddenStates.length ∧
      ∃ e, localExpert expertMap p.2.1 = some e ∧ -1 ≤ e ∧ e < numExperts := by
  obtain ⟨t, row, ht, hrow, hmem⟩ := mem_tagged (r := p.1) (x := p.2) hp
  have hlt := (List.getElem?_eq_some_iff.mp hrow).1
  rw [h.length_eq] at hlt
  exact ⟨by omega, h.local_lt row (List.mem_of_getElem? hrow) p.2 hmem⟩

/-- The local id of each pair. -/
theorem IsRouting.localExperts_eq
    (h : IsRouting topKNum hiddenStates.length numExperts expertMap routing) {localExperts : List ℤ}
    (hlocal : localExpertsFlat expertMap (routing.map (List.map Prod.fst)).flatten =
      some localExperts) :
    localExperts = (tagged 0 routing).map fun p => (localExpert expertMap p.2.1).getD (-1) := by
  have hids : (routing.map (List.map Prod.fst)).flatten = (tagged 0 routing).map fun p => p.2.1 := by
    rw [← List.map_flatten, ← tagged_map_snd 0 routing, List.map_map]
    rfl
  rw [hids, localExpertsFlat_eq, mapM_map_eq_some (g := fun p : ℕ × ℤ × R =>
    (localExpert expertMap p.2.1).getD (-1)) fun p hp => ?_, Option.some.injEq] at hlocal
  · exact hlocal.symm
  · obtain ⟨e, he, -⟩ := (h.local_tagged hp).2
    rw [he]
    rfl

/-- An expert is found for every pair. -/
theorem IsRouting.exists_localExperts
    (h : IsRouting topKNum hiddenStates.length numExperts expertMap routing) :
    ∃ localExperts, localExpertsFlat expertMap (routing.map (List.map Prod.fst)).flatten =
      some localExperts := by
  refine ⟨(tagged 0 routing).map fun p => (localExpert expertMap p.2.1).getD (-1), ?_⟩
  rw [← List.map_flatten, ← tagged_map_snd 0 routing, List.map_map, localExpertsFlat_eq]
  refine mapM_map_eq_some fun p hp => ?_
  obtain ⟨e, he, -⟩ := (h.local_tagged hp).2
  rw [Function.comp_apply, he]
  rfl

theorem routeKey_le {p : ℤ × R} (h : ∃ e, localExpert expertMap p.1 = some e ∧ -1 ≤ e ∧ e < numExperts) :
    routeKey numExperts expertMap p ≤ numExperts := by
  obtain ⟨e, he, hlow, hhigh⟩ := h
  rw [routeKey, he]
  dsimp only
  split <;> omega

variable [CommRing R] [AddCommGroup V] [Module R V]

/-- The weighted output of a pair. -/
theorem expertShare_eq (f : ℕ → V → V) (x : V) {p : ℤ × R}
    (h : ∃ e, localExpert expertMap p.1 = some e ∧ -1 ≤ e ∧ e < numExperts) :
    expertShare f expertMap x p = if routeKey numExperts expertMap p < numExperts then
      routeWeight expertMap p • f (routeKey numExperts expertMap p) x else 0 := by
  obtain ⟨e, he, hlow, hhigh⟩ := h
  rw [expertShare, routeKey, routeWeight, he]
  dsimp only
  by_cases hnone : e = -1
  · simp [hnone]
  · have hlt : e.toNat < numExperts := by omega
    simp [hnone, hlt]

omit [AddCommGroup V] [Module R V] in
/-- A pair without an expert has no weight. -/
theorem routeWeight_eq_zero {p : ℤ × R}
    (h : ∃ e, localExpert expertMap p.1 = some e ∧ -1 ≤ e ∧ e < numExperts)
    (hkey : numExperts ≤ routeKey numExperts expertMap p) : routeWeight expertMap p = 0 := by
  obtain ⟨e, he, hlow, hhigh⟩ := h
  rw [routeKey, he] at hkey
  rw [routeWeight, he]
  dsimp only at hkey ⊢
  split
  · rfl
  · next hne =>
    rw [if_neg hne] at hkey
    omega

omit [Module R V] in
/-- **The pairs, sorted**: the tokens, weights, rows and counts of a dispatch are what one sorted list of
the pairs says. -/
theorem IsRouting.sorted_pairs (h : IsRouting topKNum hiddenStates.length numExperts expertMap routing)
    (hbound : numExperts ≤ 0x7F800001) {localExperts sortIndices : List ℤ}
    (hlocal : localExpertsFlat expertMap (routing.map (List.map Prod.fst)).flatten =
      some localExperts)
    (hsort : IsArgsort sortLt (viewFloat32 (filteredExperts numExperts localExperts)) sortIndices) :
    filteredExperts numExperts localExperts =
        (tagged 0 routing).map (fun p => (routeKey numExperts expertMap p.2 : ℤ)) ∧
      ∃ out : List (ℕ × ℤ × R), gather (tagged 0 routing) sortIndices = some out ∧
        out.Perm (tagged 0 routing) ∧
        out.Pairwise (fun a b => routeKey numExperts expertMap a.2 ≤ routeKey numExperts expertMap b.2) ∧
        gather ((arange hiddenStates.length).flatMap (List.replicate topKNum)) sortIndices =
          some (out.map fun p => (p.1 : ℤ)) ∧
        gather (List.zipWith (fun m w => if m then w else 0)
            (localExperts.map fun e => decide (e ≠ -1)) (routing.map (List.map Prod.snd)).flatten)
          sortIndices = some (out.map fun p => routeWeight expertMap p.2) ∧
        expertTokens numExperts (filteredExperts numExperts localExperts) =
          some ((List.range numExperts).map fun e =>
            (out.filter (routeKey numExperts expertMap ·.2 = e)).length) ∧
        ∀ {xs : List V}, xs.length = hiddenStates.length →
          gather xs (out.map fun p => (p.1 : ℤ)) = some (out.map fun p => xs.getD p.1 0) := by
  set ps := tagged 0 routing with hps
  have hweights : (routing.map (List.map Prod.snd)).flatten = ps.map fun p => p.2.2 := by
    rw [← List.map_flatten, ← tagged_map_snd 0 routing, List.map_map]
    rfl
  have htokens : (arange hiddenStates.length).flatMap (List.replicate topKNum) =
      ps.map fun p => (p.1 : ℤ) := by
    rw [← h.length_eq]
    exact tokenIndices_eq (k := 0) h.length_row
  have hroute := fun p hp => (h.local_tagged (p := p) hp).2
  have hlocalMap := h.localExperts_eq hlocal
  have hfiltered : filteredExperts numExperts localExperts =
      ps.map fun p => (routeKey numExperts expertMap p.2 : ℤ) := by
    rw [filteredExperts, hlocalMap, List.map_map]
    refine List.map_congr_left fun p hp => ?_
    obtain ⟨e, he, hlow, -⟩ := hroute p hp
    simp only [Function.comp_apply, routeKey, he, Option.getD_some]
    by_cases hnone : e = -1
    · simp [hnone]
    · simp only [hnone, ne_eq, not_false_eq_true, if_true, if_false]
      omega
  have hmasked : List.zipWith (fun m w => if m then w else 0)
      (localExperts.map fun e => decide (e ≠ -1)) (ps.map fun p => p.2.2) =
        ps.map fun p => routeWeight expertMap p.2 := by
    rw [hlocalMap, List.map_map, List.zipWith_map_left, List.zipWith_map_right, List.zipWith_self]
    refine List.map_congr_left fun p hp => ?_
    obtain ⟨e, he, -, -⟩ := hroute p hp
    simp only [Function.comp_apply, routeWeight, he, Option.getD_some]
    by_cases hnone : e = -1 <;> simp [hnone]
  refine ⟨hfiltered, ?_⟩
  rw [hfiltered] at hsort ⊢
  have hindices : sortIndices.Perm (arange ps.length) := by
    have hperm := hsort.perm
    rwa [viewFloat32, List.length_map, List.length_map] at hperm
  obtain ⟨out, hout, hperm⟩ := gather_perm hindices
  have hkeys : ∀ p ∈ ps, routeKey numExperts expertMap p.2 ≤ numExperts := fun p hp =>
    routeKey_le (hroute p hp)
  refine ⟨out, hout, hperm, sorted_of_isArgsort (fun p hp => (hkeys p hp).trans hbound) hsort hout hperm,
    ?_, ?_, expertTokens_eq hkeys hperm, fun {xs} hxs => gather_eq_some fun p hp => ?_⟩
  · rw [htokens, gather_map, hout]
    rfl
  · rw [hweights, hmasked, gather_map, hout]
    rfl
  · have hlt := (h.local_tagged (hperm.mem_iff.mp hp)).1
    rw [← hxs] at hlt
    rw [item_natCast, List.getElem?_eq_getElem hlt, List.getD_eq_getElem _ _ hlt]

namespace NativeAllGatherCommImpl

omit [Module R V] in
/-- **What the dispatch makes of the pairs.** -/
theorem preProcess_eq (h : IsRouting topKNum hiddenStates.length numExperts expertMap routing)
    (hbound : numExperts ≤ 0x7F800001) {localExperts sortIndices : List ℤ}
    (hlocal : localExpertsFlat expertMap (routing.map (List.map Prod.fst)).flatten =
      some localExperts)
    (hsort : IsArgsort sortLt (viewFloat32 (filteredExperts numExperts localExperts)) sortIndices) :
    filteredExperts numExperts localExperts =
        (tagged 0 routing).map (fun p => (routeKey numExperts expertMap p.2 : ℤ)) ∧
      ∃ out : List (ℕ × ℤ × R), gather (tagged 0 routing) sortIndices = some out ∧
        out.Perm (tagged 0 routing) ∧
        out.Pairwise (fun a b => routeKey numExperts expertMap a.2 ≤ routeKey numExperts expertMap b.2) ∧
        preProcess topKNum hiddenStates (routing.map (List.map Prod.fst))
            (routing.map (List.map Prod.snd)) expertMap numExperts sortIndices =
          some ((out.map (fun p => hiddenStates.getD p.1 0),
            (List.range numExperts).map (fun e =>
              (out.filter (routeKey numExperts expertMap ·.2 = e)).length), 1),
            ⟨out.map fun p => (p.1 : ℤ), out.map fun p => routeWeight expertMap p.2⟩) := by
  obtain ⟨hfiltered, out, hout, hperm, hsorted, htokens, hweights, hcounts, hrows⟩ :=
    h.sorted_pairs hbound hlocal hsort
  refine ⟨hfiltered, out, hout, hperm, hsorted, ?_⟩
  simp only [preProcess, hlocal, htokens, hweights, hcounts, hrows rfl, Option.bind_eq_bind,
    Option.bind_some, Option.pure_def]

/-- **The combination adds the shares of the sorted pairs up.** -/
theorem postProcess_eq (h : IsRouting topKNum hiddenStates.length numExperts expertMap routing)
    {out : List (ℕ × ℤ × R)} (hperm : out.Perm (tagged 0 routing))
    (hsorted : out.Pairwise fun a b =>
      routeKey numExperts expertMap a.2 ≤ routeKey numExperts expertMap b.2)
    {f : ℕ → V → V} {mlpOutput : List V}
    (hmlp : IsGroupedOutput f ((List.range numExperts).map fun e =>
      (out.filter (routeKey numExperts expertMap ·.2 = e)).length)
      (out.map fun p => hiddenStates.getD p.1 0) mlpOutput) :
    postProcess ⟨out.map fun p => (p.1 : ℤ), out.map fun p => routeWeight expertMap p.2⟩ mlpOutput
      hiddenStates = some (mixture f expertMap hiddenStates routing) := by
  have hroute := fun p hp => (h.local_tagged (p := p) (hperm.mem_iff.mp hp)).2
  have hweighted := hmlp.weighted hsorted (w := fun p : ℕ × ℤ × R => routeWeight expertMap p.2)
    fun p hp => routeWeight_eq_zero (hroute p hp)
  have hshares : (out.map fun p => if routeKey numExperts expertMap p.2 < numExperts then
      routeWeight expertMap p.2 • f (routeKey numExperts expertMap p.2) (hiddenStates.getD p.1 0)
      else 0) = out.map fun p => expertShare f expertMap (hiddenStates.getD p.1 0) p.2 :=
    List.map_congr_left fun p hp => (expertShare_eq f _ (hroute p hp)).symm
  have hadd := @indexAdd_eq _ _
    (out.map fun p => (p.1, expertShare f expertMap (hiddenStates.getD p.1 0) p.2))
    (hiddenStates.map fun _ => (0 : V))
    fun e he => by
      obtain ⟨p, hp, rfl⟩ := List.mem_map.mp he
      rw [List.length_map]
      exact (h.local_tagged (hperm.mem_iff.mp hp)).1
  rw [List.map_map, List.map_map] at hadd
  rw [postProcess, hweighted, hshares]
  refine hadd.trans (congrArg some (List.ext_getElem? fun t => ?_))
  rw [mixture, List.getElem?_mapIdx, List.getElem?_map, List.getElem?_zipWith]
  by_cases ht : t < hiddenStates.length
  · have ht' : t < routing.length := h.length_eq ▸ ht
    have hsum := sumAt_tagged (k := 0) (fun p : ℕ × ℤ × R =>
      expertShare f expertMap (hiddenStates.getD p.1 0) p.2) (List.getElem?_eq_getElem ht')
    rw [← sumAt_perm (hperm.map _), Nat.zero_add] at hsum
    rw [List.getElem?_eq_getElem ht, List.getElem?_eq_getElem ht', Option.map_some, Option.map_some,
      hsum, zero_add]
    simp only [List.getD_eq_getElem _ _ ht]
  · rw [List.getElem?_eq_none (by omega)]
    rfl

end NativeAllGatherCommImpl

/-- **Native dispatch is the weighted sum over the local experts.**  Whatever the sort does among equal
keys, the sorted ids are in order, the dispatch returns, and from any output that is right on the groups
the combination makes the mixture. -/
theorem unifiedFusedExperts_eq
    (h : IsRouting topKNum hiddenStates.length numExperts expertMap routing)
    (hbound : numExperts ≤ 0x7F800001) {localExperts sortIndices : List ℤ}
    (hlocal : localExpertsFlat expertMap (routing.map (List.map Prod.fst)).flatten =
      some localExperts)
    (hsort : IsArgsort sortLt (viewFloat32 (filteredExperts numExperts localExperts)) sortIndices)
    (f : ℕ → V → V) :
    (∃ sorted, gather (filteredExperts numExperts localExperts) sortIndices = some sorted ∧
      sorted.Pairwise (· ≤ ·)) ∧
    ∃ permuted counts groupListType impl,
      NativeAllGatherCommImpl.preProcess topKNum hiddenStates (routing.map (List.map Prod.fst))
          (routing.map (List.map Prod.snd)) expertMap numExperts sortIndices =
        some ((permuted, counts, groupListType), impl) ∧
      ∀ mlpOutput, IsGroupedOutput f counts permuted mlpOutput →
        impl.postProcess mlpOutput hiddenStates =
          some (mixture f expertMap hiddenStates routing) := by
  obtain ⟨hfiltered, out, hout, hperm, hsorted, hpre⟩ :=
    NativeAllGatherCommImpl.preProcess_eq h hbound hlocal hsort
  refine ⟨⟨out.map fun p => (routeKey numExperts expertMap p.2 : ℤ), ?_, ?_⟩, _, _, _, _, hpre,
    fun mlpOutput hmlp => NativeAllGatherCommImpl.postProcess_eq h hperm hsorted hmlp⟩
  · rw [hfiltered, gather_map, hout]
    rfl
  · rw [List.pairwise_map]
    exact hsorted.imp fun hle => by exact_mod_cast hle

end Pairs

/-! ## One token -/

/-- Two tokens, two experts, one of them here. -/
def twoTokens : List (List (ℤ × ℤ)) := [[(1, 2), (0, 3)], [(0, 5), (1, 4)]]

theorem twoTokens_isRouting : IsRouting 2 2 1 (some [-1, 0]) twoTokens :=
  ⟨rfl, by decide, by decide⟩

theorem twoTokens_isArgsort :
    IsArgsort sortLt (viewFloat32 (filteredExperts 1 [0, -1, -1, 0])) [3, 0, 1, 2] where
  perm := by decide
  sorted out hout := by
    obtain rfl : [0, 0, 1, 1] = out := by
      rw [← Option.some.injEq, ← hout]
      decide
    decide +kernel

theorem unifiedFusedExperts_twoTokens :
    (∃ sorted, gather (filteredExperts 1 [0, -1, -1, 0]) [3, 0, 1, 2] = some sorted ∧
      sorted.Pairwise (· ≤ ·)) ∧
    ∃ permuted counts groupListType impl,
      NativeAllGatherCommImpl.preProcess 2 [10, 20] (twoTokens.map (List.map Prod.fst))
          (twoTokens.map (List.map Prod.snd)) (some [-1, 0]) 1 [3, 0, 1, 2] =
        some ((permuted, counts, groupListType), impl) ∧
      ∀ mlpOutput, IsGroupedOutput (fun _ (x : ℤ) => x + 1) counts permuted mlpOutput →
        impl.postProcess mlpOutput [10, 20] =
          some (mixture (fun _ (x : ℤ) => x + 1) (some [-1, 0]) [10, 20] twoTokens) :=
  unifiedFusedExperts_eq twoTokens_isRouting (by decide) (by decide) twoTokens_isArgsort _

/-- **Two ids behind infinity** may be left in the wrong order. -/
theorem unordered_patterns {e numExperts : ℕ} (hnan : 0x7F800000 < e) (hn : numExperts = e + 1)
    (hfits : numExperts < 2 ^ 31) :
    IsRouting 2 1 numExperts (some [-1, (e : ℤ)]) [[((0 : ℤ), (1 : ℤ)), (1, 1)]] ∧
    localExpertsFlat (some [-1, (e : ℤ)]) [0, 1] = some [-1, (e : ℤ)] ∧
    IsArgsort sortLt (viewFloat32 (filteredExperts numExperts [-1, e])) [0, 1] ∧
    ∃ permuted counts groupListType impl,
      NativeAllGatherCommImpl.preProcess 2 [(0 : ℤ)] [[0, 1]] [[(1 : ℤ), 1]] (some [-1, (e : ℤ)]) numExperts
          [0, 1] = some ((permuted, counts, groupListType), impl) ∧
      ∃ mlpOutput, IsGroupedOutput (fun _ (_ : ℤ) => (0 : ℤ)) counts permuted mlpOutput ∧
        impl.postProcess mlpOutput [0] ≠ some (mixture (fun _ (_ : ℤ) => (0 : ℤ)) (some [-1, (e : ℤ)]) [0]
          [[((0 : ℤ), (1 : ℤ)), (1, 1)]]) := by
  subst hn
  have hne : ((e : ℤ) ≠ -1) := by omega
  have hfiltered : filteredExperts (e + 1) [-1, (e : ℤ)] = [e + 1, e].map fun k : ℕ => (k : ℤ) := by
    simp [filteredExperts, hne]
  have hview : viewFloat32 (filteredExperts (e + 1) [-1, (e : ℤ)]) =
      [BitVec.ofNat 32 (e + 1), BitVec.ofNat 32 e] := by
    rw [hfiltered, viewFloat32_natCast]
    rfl
  have hcounts : expertTokens (e + 1) (filteredExperts (e + 1) [-1, (e : ℤ)]) =
      some (List.replicate e 0 ++ [1]) := by
    have htokens := @expertTokens_eq _ id [e + 1, e] _ (e + 1) (by simp) (.refl _)
    simp only [id] at htokens
    rw [hfiltered, htokens, List.range_succ, List.map_append, Option.some.injEq]
    refine congrArg₂ (· ++ ·) (List.eq_replicate_iff.mpr ⟨by simp, fun c hc => ?_⟩) (by simp)
    obtain ⟨k, hk, rfl⟩ := List.mem_map.mp hc
    have hlt := List.mem_range.mp hk
    simp [hlt.ne', (hlt.trans (Nat.lt_succ_self e)).ne']
  refine ⟨⟨rfl, by simp, ?_⟩, by simp [localExpertsFlat, gather, item, place], ?_, ?_⟩
  · intro row hrow choice hchoice
    obtain rfl := List.mem_singleton.mp hrow
    obtain rfl | rfl := by simpa using hchoice
    · exact ⟨-1, rfl, le_rfl, by omega⟩
    · exact ⟨e, rfl, by omega, by omega⟩
  · rw [hview]
    refine ⟨.refl _, fun out hout => ?_⟩
    obtain rfl : [BitVec.ofNat 32 (e + 1), BitVec.ofNat 32 e] = out := by
      simpa [gather, item, place] using hout
    simp [sortLt_nan hnan (by omega)]
  · refine ⟨[0, 0], List.replicate e 0 ++ [1], 1, ⟨[0, 0], [0, 1]⟩, ?_, [0, 1], ⟨rfl, ?_⟩, ?_⟩
    · have hlocal : localExpertsFlat (some [-1, (e : ℤ)]) [0, 1] = some [-1, (e : ℤ)] := by
        simp [localExpertsFlat, gather, item, place]
      have hmasked : List.zipWith (fun m w => if m then w else 0)
          ([-1, (e : ℤ)].map fun k => decide (k ≠ -1)) [(1 : ℤ), 1] = [0, 1] := by
        simp [hne]
      have htokens : (arange 1).flatMap (List.replicate 2) = [0, 0] := rfl
      have hrows : ∀ xs : List ℤ, xs.length = 2 → gather xs [0, 1] = some xs := fun xs hxs => by
        have hall := gather_arange xs
        rwa [hxs] at hall
      have hhidden : gather [(0 : ℤ)] [0, 0] = some [0, 0] := rfl
      simp only [NativeAllGatherCommImpl.preProcess, List.flatten_cons, List.flatten_nil,
        List.append_nil, hlocal, hmasked, hcounts, List.length_singleton, htokens,
        hrows [0, 0] rfl, hrows [0, 1] rfl, hhidden, Option.bind_eq_bind, Option.bind_some,
        Option.pure_def]
    · rw [groupedMap_zeros]
      exact ⟨[1], rfl⟩
    · have hpost : (NativeAllGatherCommImpl.postProcess ⟨[0, 0], [(0 : ℤ), 1]⟩ [0, 1] [(0 : ℤ)]) =
          some [1] := rfl
      have hmixture : mixture (fun _ (_ : ℤ) => (0 : ℤ)) (some [-1, (e : ℤ)]) [0]
          [[((0 : ℤ), (1 : ℤ)), (1, 1)]] = [0] := by
        simp [mixture, expertShare, localExpert, item, place, hne]
      rw [hpost, hmixture]
      decide

/-- **An expert map into ids behind infinity**: the pair with an expert is sorted behind the one without,
and gets the row behind the groups. -/
theorem unifiedFusedExperts_nan :
    IsRouting 2 1 2139095042 (some [-1, 2139095041]) [[((0 : ℤ), (1 : ℤ)), (1, 1)]] ∧
    localExpertsFlat (some [-1, 2139095041]) [0, 1] = some [-1, 2139095041] ∧
    IsArgsort sortLt (viewFloat32 (filteredExperts 2139095042 [-1, 2139095041])) [0, 1] ∧
    ∃ permuted counts groupListType impl,
      NativeAllGatherCommImpl.preProcess 2 [(0 : ℤ)] [[0, 1]] [[(1 : ℤ), 1]]
          (some [-1, 2139095041]) 2139095042 [0, 1] =
        some ((permuted, counts, groupListType), impl) ∧
      ∃ mlpOutput, IsGroupedOutput (fun _ (_ : ℤ) => (0 : ℤ)) counts permuted mlpOutput ∧
        impl.postProcess mlpOutput [0] ≠ some (mixture (fun _ (_ : ℤ) => (0 : ℤ))
          (some [-1, 2139095041]) [0] [[((0 : ℤ), (1 : ℤ)), (1, 1)]]) :=
  unordered_patterns (e := 2139095041) (by norm_num) rfl (by norm_num)

end VllmAscend
