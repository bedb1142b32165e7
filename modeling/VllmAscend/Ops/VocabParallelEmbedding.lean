import VllmAscend.Machinery.Ragged

/-!
# Ops/VocabParallelEmbedding — the embedding table cut over the ranks

    token ids      0 ……………………… org ………… org+added
    rank 0         [0, a)        [org, org+c)
    rank 1         [a, b)        [org+c, org+d)
    local table    original rows | padding | added rows

Each rank looks up the ids of its two ranges in its own table, every other id at index 0 with a masked
result, and the ranks add their results up.  With two ranks or more this is the lookup in the whole
table (`vocabParallelEmbeddingForward_eq`).  A single rank looks its ids up as they are, past the
padding too.
-/

namespace VllmAscend

open Machinery

/-- What the embedding layer of a rank knows of its shard. -/
structure ShardIndices where
  orgVocabStartIndex : ℤ
  orgVocabEndIndex : ℤ
  numOrgVocabPadding : ℤ
  addedVocabStartIndex : ℤ
  addedVocabEndIndex : ℤ

def getMaskedInputAndMask (input : List ℤ) (orgVocabStartIndex orgVocabEndIndex numOrgVocabPadding
    addedVocabStartIndex addedVocabEndIndex : ℤ) : List ℤ × List Bool :=
  let orgVocabMask := input.map fun x => decide (orgVocabStartIndex ≤ x) && decide (x < orgVocabEndIndex)
  if addedVocabStartIndex = addedVocabEndIndex then
    let validOffset := orgVocabMask.map fun m => orgVocabStartIndex * m.toInt
    let vocabMask := orgVocabMask
    (List.zipWith (fun m x => m.toInt * x) vocabMask (List.zipWith (· - ·) input validOffset),
      vocabMask.map (!·))
  else
    let addedVocabMask :=
      input.map fun x => decide (addedVocabStartIndex ≤ x) && decide (x < addedVocabEndIndex)
    let addedOffset :=
      addedVocabStartIndex - (orgVocabEndIndex - orgVocabStartIndex) - numOrgVocabPadding
    let validOffset := List.zipWith (· + ·) (orgVocabMask.map fun m => orgVocabStartIndex * m.toInt)
      (addedVocabMask.map fun m => addedOffset * m.toInt)
    let vocabMask := List.zipWith (· || ·) orgVocabMask addedVocabMask
    (List.zipWith (fun m x => m.toInt * x) vocabMask (List.zipWith (· - ·) input validOffset),
      vocabMask.map (!·))

variable {V : Type} [AddCommMonoid V]

/-- The lookup of `quant_method.embedding`. -/
def embedding (weight : List V) (ids : List ℤ) : Option (List V) :=
  ids.mapM fun i => if 0 ≤ i then weight[i.toNat]? else none

/-- `masked_fill_(input_mask, 0)` -/
def maskedFill (rows : List V) (mask : List Bool) : List V :=
  List.zipWith (fun row m => if m then 0 else row) rows mask

/-- The sum of the ranks' tensors. -/
def tensorModelParallelAllReduce : List (List V) → List V
  | [] => []
  | [out] => out
  | out :: outs => List.zipWith (· + ·) out (tensorModelParallelAllReduce outs)

/-- `vocab_parallel_embedding_forward` up to the reduction. -/
def embedLocal (tpSize : ℕ) (indices : ShardIndices) (weight : List V) (input : List ℤ) :
    Option (List V) :=
  if 1 < tpSize then do
    let (maskedInput, inputMask) := getMaskedInputAndMask input indices.orgVocabStartIndex
      indices.orgVocabEndIndex indices.numOrgVocabPadding indices.addedVocabStartIndex
      indices.addedVocabEndIndex
    let outputParallel ← embedding weight maskedInput
    return maskedFill outputParallel inputMask
  else embedding weight input

/-- `vocab_parallel_embedding_forward` on all ranks. -/
def vocabParallelEmbeddingForward (ranks : List (ShardIndices × List V)) (input : List ℤ) :
    Option (List V) := do
  let outs ← ranks.mapM fun rank => embedLocal ranks.length rank.1 rank.2 input
  return tensorModelParallelAllReduce outs

/-! ## The vocabulary -/

/-- A rank's part of the vocabulary, in the order of its table. -/
structure VocabShard (V : Type) where
  orgRows : List V
  padding : List V
  addedRows : List V
  weight_ne : orgRows ++ padding ++ addedRows ≠ []

/-- The table of a rank. -/
def VocabShard.weight {V : Type} (s : VocabShard V) : List V := s.orgRows ++ s.padding ++ s.addedRows

/-- The ranks with consecutive ranges of original ids from `org` on, and of added ids from `added` on. -/
def shardRanks {V : Type} (org added : ℕ) : List (VocabShard V) → List (ShardIndices × List V)
  | [] => []
  | s :: shards =>
    ({  orgVocabStartIndex := org
        orgVocabEndIndex := org + s.orgRows.length
        numOrgVocabPadding := s.padding.length
        addedVocabStartIndex := added
        addedVocabEndIndex := added + s.addedRows.length }, s.weight) ::
      shardRanks (org + s.orgRows.length) (added + s.addedRows.length) shards

def orgVocab {V : Type} (shards : List (VocabShard V)) : List V := shards.flatMap VocabShard.orgRows

def addedVocab {V : Type} (shards : List (VocabShard V)) : List V :=
  shards.flatMap VocabShard.addedRows

/-- The ranks of a vocabulary. -/
def vocabRanks {V : Type} (shards : List (VocabShard V)) : List (ShardIndices × List V) :=
  shardRanks 0 (orgVocab shards).length shards

/-! ## One id on one rank -/

/-- The masked id, and whether it is masked. -/
def ShardIndices.localId (s : ShardIndices) (x : ℤ) : ℤ × Bool :=
  if s.orgVocabStartIndex ≤ x ∧ x < s.orgVocabEndIndex then (x - s.orgVocabStartIndex, false)
  else if s.addedVocabStartIndex ≤ x ∧ x < s.addedVocabEndIndex then
    (x - s.addedVocabStartIndex + (s.orgVocabEndIndex - s.orgVocabStartIndex) +
      s.numOrgVocabPadding, false)
  else (0, true)

/-- The code's arithmetic on one id. -/
theorem localId_eq {s : ShardIndices} (hdisjoint : s.orgVocabEndIndex ≤ s.addedVocabStartIndex)
    (x : ℤ) :
    s.localId x =
      let org := decide (s.orgVocabStartIndex ≤ x) && decide (x < s.orgVocabEndIndex)
      let added := decide (s.addedVocabStartIndex ≤ x) && decide (x < s.addedVocabEndIndex)
      ((org || added).toInt * (x - (s.orgVocabStartIndex * org.toInt +
        (s.addedVocabStartIndex - (s.orgVocabEndIndex - s.orgVocabStartIndex) -
          s.numOrgVocabPadding) * added.toInt)), !(org || added)) := by
  simp only [ShardIndices.localId, ← Bool.decide_and]
  split
  · next horg =>
    have hadded : ¬ (s.addedVocabStartIndex ≤ x ∧ x < s.addedVocabEndIndex) := by omega
    simp [horg, hadded]
  · next horg =>
    split
    · next hadded =>
      simp only [horg, hadded, decide_false, decide_true, and_self, Bool.or_true, Bool.toInt_true,
        Bool.toInt_false, Bool.not_true, Prod.mk.injEq, and_true, mul_zero, mul_one, one_mul]
      omega
    · next hadded => simp [horg, hadded]

/-- **Disjoint ranges**: every id of the tensor is treated alone. -/
theorem getMaskedInputAndMask_eq {s : ShardIndices}
    (hdisjoint : s.orgVocabEndIndex ≤ s.addedVocabStartIndex) (input : List ℤ) :
    getMaskedInputAndMask input s.orgVocabStartIndex s.orgVocabEndIndex s.numOrgVocabPadding
        s.addedVocabStartIndex s.addedVocabEndIndex =
      (input.map fun x => (s.localId x).1, input.map fun x => (s.localId x).2) := by
  unfold getMaskedInputAndMask
  simp only [localId_eq hdisjoint]
  split
  · next hempty =>
    have hadded : ∀ x, (decide (s.addedVocabStartIndex ≤ x) &&
        decide (x < s.addedVocabEndIndex)) = false := fun x => by
      rw [← Bool.decide_and, decide_eq_false_iff_not]
      omega
    simp only [hadded, List.map_map, List.zipWith_map_left, List.zipWith_map_right,
      List.zipWith_self, Bool.or_false, Bool.toInt_false, mul_zero, add_zero]
    rfl
  · simp only [List.map_map, List.zipWith_map_left, List.zipWith_map_right, List.zipWith_self]
    rfl

/-- An id in neither range is masked. -/
theorem ShardIndices.localId_masked {s : ShardIndices} {x : ℤ}
    (horg : x < s.orgVocabStartIndex ∨ s.orgVocabEndIndex ≤ x)
    (hadded : x < s.addedVocabStartIndex ∨ s.addedVocabEndIndex ≤ x) :
    s.localId x = (0, true) := by
  rw [localId, if_neg (by omega), if_neg (by omega)]

/-! ## All ranks -/

section Ranks

variable {V : Type}

theorem shardRanks_append (before after : List (VocabShard V)) : ∀ org added : ℕ,
    shardRanks org added (before ++ after) = shardRanks org added before ++
      shardRanks (org + (orgVocab before).length) (added + (addedVocab before).length) after := by
  induction before with
  | nil => intros; rfl
  | cons s before ih =>
    intro org added
    rw [List.cons_append, shardRanks, ih, shardRanks, List.cons_append, orgVocab, orgVocab,
      addedVocab, addedVocab, List.flatMap_cons, List.flatMap_cons, List.length_append,
      List.length_append, Nat.add_assoc, Nat.add_assoc]

/-- What the indices of a rank say of its table, and where its ranges lie. -/
structure ShardIndices.Covers (i : ShardIndices) (weight : List V) (s : VocabShard V) : Prop where
  weight_eq : weight = s.weight
  org_eq : i.orgVocabEndIndex = i.orgVocabStartIndex + s.orgRows.length
  padding_eq : i.numOrgVocabPadding = s.padding.length
  added_eq : i.addedVocabEndIndex = i.addedVocabStartIndex + s.addedRows.length

theorem mem_shardRanks : ∀ {shards : List (VocabShard V)} {org added : ℕ}
    {rank : ShardIndices × List V}, rank ∈ shardRanks org added shards →
      (∃ s, rank.1.Covers rank.2 s) ∧ org ≤ rank.1.orgVocabStartIndex ∧
        rank.1.orgVocabEndIndex ≤ org + (orgVocab shards).length ∧
        added ≤ rank.1.addedVocabStartIndex ∧
        rank.1.addedVocabEndIndex ≤ added + (addedVocab shards).length
  | [], _, _, _, h => absurd h List.not_mem_nil
  | s :: shards, org, added, rank, h => by
    rw [orgVocab, addedVocab, List.flatMap_cons, List.flatMap_cons, List.length_append,
      List.length_append, Nat.cast_add, Nat.cast_add]
    obtain rfl | h := List.mem_cons.mp h
    · refine ⟨⟨s, rfl, rfl, rfl, rfl⟩, le_rfl, ?_, le_rfl, ?_⟩
      · dsimp only
        omega
      · dsimp only
        omega
    · obtain ⟨hcovers, hstart, hend, hadded, hlast⟩ := mem_shardRanks h
      rw [orgVocab] at hend
      rw [addedVocab] at hlast
      push_cast at hstart hend hadded hlast
      exact ⟨hcovers, by omega, by omega, by omega, by omega⟩

/-- The whole vocabulary: the original rows, then the added ones. -/
def vocab (shards : List (VocabShard V)) : List V := orgVocab shards ++ addedVocab shards

/-- The ranks around one of them. -/
theorem vocabRanks_split (before after : List (VocabShard V)) (s : VocabShard V) :
    vocabRanks (before ++ s :: after) =
      shardRanks 0 (orgVocab (before ++ s :: after)).length before ++
        ({  orgVocabStartIndex := (orgVocab before).length
            orgVocabEndIndex := (orgVocab before).length + s.orgRows.length
            numOrgVocabPadding := s.padding.length
            addedVocabStartIndex :=
              (orgVocab (before ++ s :: after)).length + (addedVocab before).length
            addedVocabEndIndex := (orgVocab (before ++ s :: after)).length +
              (addedVocab before).length + s.addedRows.length }, s.weight) ::
        shardRanks ((orgVocab before).length + s.orgRows.length)
          ((orgVocab (before ++ s :: after)).length + (addedVocab before).length +
            s.addedRows.length) after := by
  rw [vocabRanks, shardRanks_append, Nat.zero_add, shardRanks]
  push_cast
  rfl

theorem length_orgVocab_split (before after : List (VocabShard V)) (s : VocabShard V) :
    (orgVocab (before ++ s :: after)).length =
      (orgVocab before).length + s.orgRows.length + (orgVocab after).length := by
  simp only [orgVocab, List.flatMap_append, List.flatMap_cons, List.length_append]
  omega

/-- **Every id of the vocabulary belongs to one rank**, which has its row at the local index; on every
other rank it is masked, and index 0. -/
theorem exists_owner {shards : List (VocabShard V)} {t : ℕ} (ht : t < (vocab shards).length) :
    ∃ before rank after, vocabRanks shards = before ++ rank :: after ∧
      (∃ j : ℕ, rank.1.localId t = ((j : ℤ), false) ∧ rank.2[j]? = (vocab shards)[t]?) ∧
      ∀ other ∈ before ++ after, other.1.localId t = (0, true) := by
  rw [vocab, List.length_append] at ht
  by_cases horg : t < (orgVocab shards).length
  · obtain ⟨before, s, after, j, rfl, hrow, hj, hget⟩ := exists_row_of_lt horg
    change t = (orgVocab before).length + j at hrow
    change (orgVocab (before ++ s :: after))[t]? = _ at hget
    have hlen := length_orgVocab_split before after s
    refine ⟨_, _, _, vocabRanks_split before after s, ⟨j, ?_, ?_⟩, fun other hother => ?_⟩
    · rw [ShardIndices.localId, if_pos (by dsimp only; omega), Prod.mk.injEq]
      exact ⟨by dsimp only; omega, rfl⟩
    · rw [vocab, List.getElem?_append_left horg, hget, VocabShard.weight,
        List.append_assoc, List.getElem?_append_left hj]
    · obtain hbefore | hafter := List.mem_append.mp hother
      · obtain ⟨-, hstart, hend, hadded, -⟩ := mem_shardRanks hbefore
        exact ShardIndices.localId_masked (.inr (by omega)) (.inl (by omega))
      · obtain ⟨-, hstart, hend, hadded, -⟩ := mem_shardRanks hafter
        exact ShardIndices.localId_masked (.inl (by omega)) (.inl (by omega))
  · have hadded : t - (orgVocab shards).length < (addedVocab shards).length := by omega
    obtain ⟨before, s, after, j, rfl, hrow, hj, hget⟩ := exists_row_of_lt hadded
    change t - (orgVocab (before ++ s :: after)).length = (addedVocab before).length + j at hrow
    change (addedVocab (before ++ s :: after))[_]? = _ at hget
    have hlen := length_orgVocab_split before after s
    refine ⟨_, _, _, vocabRanks_split before after s,
      ⟨s.orgRows.length + s.padding.length + j, ?_, ?_⟩, fun other hother => ?_⟩
    · rw [ShardIndices.localId, if_neg (by dsimp only; omega), if_pos (by dsimp only; omega),
        Prod.mk.injEq]
      exact ⟨by dsimp only; push_cast; omega, rfl⟩
    · have hweight : s.weight = (s.orgRows ++ s.padding) ++ s.addedRows := rfl
      rw [vocab, List.getElem?_append_right (Nat.le_of_not_lt horg), hget, hweight,
        List.getElem?_append_right (by rw [List.length_append]; omega), List.length_append,
        Nat.add_sub_cancel_left]
    · obtain hbefore | hafter := List.mem_append.mp hother
      · obtain ⟨-, hstart, hend, hfrom, hto⟩ := mem_shardRanks hbefore
        exact ShardIndices.localId_masked (.inr (by omega)) (.inr (by omega))
      · obtain ⟨-, hstart, hend, hfrom, hto⟩ := mem_shardRanks hafter
        exact ShardIndices.localId_masked (.inr (by omega)) (.inl (by omega))

theorem embedding_eq {weight : List V} {ids : List ℤ} (row : ℤ → V)
    (h : ∀ i ∈ ids, 0 ≤ i ∧ weight[i.toNat]? = some (row i)) :
    embedding weight ids = some (ids.map row) := by
  have hlookup := mapM_map_eq_some (f := fun i : ℤ => if 0 ≤ i then weight[i.toNat]? else none)
    (c := id) (g := row) (l := ids) fun i hi => by
      rw [id, if_pos (h i hi).1, (h i hi).2]
  rwa [List.map_id] at hlookup

/-- **The local index is never out of the table.** -/
theorem localId_lt {shards : List (VocabShard V)} {rank : ShardIndices × List V}
    (hrank : rank ∈ vocabRanks shards) (x : ℤ) :
    0 ≤ (rank.1.localId x).1 ∧ (rank.1.localId x).1.toNat < rank.2.length := by
  obtain ⟨⟨s, hweight, horg, hpadding, hadded⟩, -⟩ := mem_shardRanks hrank
  have hne := List.length_pos_iff.mpr s.weight_ne
  have hlen : rank.2.length = s.orgRows.length + s.padding.length + s.addedRows.length := by
    rw [hweight, VocabShard.weight, List.length_append, List.length_append]
  rw [List.length_append, List.length_append] at hne
  unfold ShardIndices.localId
  split
  · dsimp only
    omega
  · split
    · dsimp only
      omega
    · dsimp only
      omega

theorem length_vocabRanks (shards : List (VocabShard V)) :
    (vocabRanks shards).length = shards.length := by
  have hlen : ∀ (shards : List (VocabShard V)) (org added : ℕ),
      (shardRanks org added shards).length = shards.length := by
    intro shards
    induction shards with
    | nil => intros; rfl
    | cons s shards ih =>
      intro org added
      rw [shardRanks, List.length_cons, ih, List.length_cons]
  exact hlen shards _ _

/-- The ids of a vocabulary. -/
def InVocab (shards : List (VocabShard V)) (input : List ℤ) : Prop :=
  ∀ x ∈ input, ∃ t : ℕ, x = t ∧ t < (vocab shards).length

end Ranks

/-! ## The sum over the ranks -/

section Forward

variable {V : Type} [AddCommMonoid V]

/-- What a rank adds to the row of an id. -/
def contribution (rank : ShardIndices × List V) (x : ℤ) : V :=
  if (rank.1.localId x).2 then 0 else rank.2.getD (rank.1.localId x).1.toNat 0

theorem allReduce_cons_cons (out out' : List V) (outs : List (List V)) :
    tensorModelParallelAllReduce (out :: out' :: outs) =
      List.zipWith (· + ·) out (tensorModelParallelAllReduce (out' :: outs)) := rfl

/-- Summing tensors that are computed id by id. -/
theorem allReduce_map {ι : Type} (g : ι → ℤ → V) (input : List ℤ) : ∀ {ranks : List ι}, ranks ≠ [] →
    tensorModelParallelAllReduce (ranks.map fun r => input.map (g r)) =
      input.map fun x => (ranks.map fun r => g r x).sum
  | [r], _ => by simp [tensorModelParallelAllReduce]
  | r :: r' :: ranks, _ => by
    have htail := allReduce_map g input (List.cons_ne_nil r' ranks)
    rw [List.map_cons] at htail
    rw [List.map_cons, List.map_cons, allReduce_cons_cons, htail, List.zipWith_map,
      List.zipWith_self]
    simp

/-- A rank of several. -/
theorem embedLocal_eq {shards : List (VocabShard V)} {tpSize : ℕ} (htp : 1 < tpSize)
    {rank : ShardIndices × List V} (hrank : rank ∈ vocabRanks shards) (input : List ℤ) :
    embedLocal tpSize rank.1 rank.2 input = some (input.map (contribution rank)) := by
  obtain ⟨-, -, hend, hstart, -⟩ := mem_shardRanks hrank
  have hmasked := getMaskedInputAndMask_eq (s := rank.1) (by omega) input
  have hlookup : embedding rank.2 (input.map fun x => (rank.1.localId x).1) =
      some (input.map fun x => rank.2.getD (rank.1.localId x).1.toNat 0) := by
    have h := embedding_eq (fun i => rank.2.getD i.toNat 0)
      fun i (hi : i ∈ input.map fun x => (rank.1.localId x).1) => by
        obtain ⟨x, -, rfl⟩ := List.mem_map.mp hi
        obtain ⟨hnonneg, hlt⟩ := localId_lt hrank x
        exact ⟨hnonneg, by rw [List.getD_eq_getElem _ _ hlt, List.getElem?_eq_getElem hlt]⟩
    rwa [List.map_map] at h
  rw [embedLocal, if_pos htp, hmasked]
  simp only [hlookup, Option.bind_eq_bind, Option.bind_some, maskedFill, List.zipWith_map,
    List.zipWith_self]
  rfl

/-- The row of an id is its owner's contribution, and the others add nothing. -/
theorem sum_contributions {shards : List (VocabShard V)} {t : ℕ} (ht : t < (vocab shards).length) :
    ((vocabRanks shards).map fun rank => contribution rank t).sum = (vocab shards).getD t 0 := by
  obtain ⟨before, rank, after, hsplit, ⟨j, hlocal, hrow⟩, hothers⟩ := exists_owner ht
  have hzero : ∀ other ∈ before ++ after, contribution other t = 0 := fun other hother => by
    rw [contribution, hothers other hother, if_pos rfl]
  have hbefore : (before.map fun rank => contribution rank t).sum = 0 :=
    List.sum_eq_zero (List.forall_mem_map.mpr fun r hr => hzero r (List.mem_append_left _ hr))
  have hafter : (after.map fun rank => contribution rank t).sum = 0 :=
    List.sum_eq_zero (List.forall_mem_map.mpr fun r hr => hzero r (List.mem_append_right _ hr))
  have hown : contribution rank t = (vocab shards).getD t 0 := by
    rw [contribution, hlocal, if_neg Bool.false_ne_true, List.getD_eq_getElem?_getD,
      List.getD_eq_getElem?_getD, Int.toNat_natCast, hrow]
  rw [hsplit, List.map_append, List.map_cons, List.sum_append, List.sum_cons, hbefore, hafter, hown,
    zero_add, add_zero]

theorem embedding_vocab {shards : List (VocabShard V)} {input : List ℤ}
    (hinput : InVocab shards input) : embedding (vocab shards) input =
      some (input.map fun x => (vocab shards).getD x.toNat 0) :=
  embedding_eq _ fun x hx => by
    obtain ⟨t, rfl, ht⟩ := hinput x hx
    rw [Int.toNat_natCast, List.getD_eq_getElem _ _ ht, List.getElem?_eq_getElem ht]
    exact ⟨Int.natCast_nonneg t, rfl⟩

/-- **The sharded lookup, on two ranks or more, is the lookup in the whole table.** -/
theorem forward_of_ranks {shards : List (VocabShard V)} (htp : 1 < shards.length) {input : List ℤ}
    (hinput : InVocab shards input) :
    vocabParallelEmbeddingForward (vocabRanks shards) input = embedding (vocab shards) input := by
  have hne : vocabRanks shards ≠ [] := by
    rw [← List.length_pos_iff, length_vocabRanks]
    omega
  have hranks := mapM_map_eq_some (c := id) (l := vocabRanks shards)
    (f := fun rank => embedLocal (vocabRanks shards).length rank.1 rank.2 input)
    (g := fun rank => input.map (contribution rank)) fun rank hrank =>
      embedLocal_eq (by rwa [length_vocabRanks]) hrank input
  rw [List.map_id] at hranks
  rw [vocabParallelEmbeddingForward, hranks, embedding_vocab hinput]
  refine congrArg some ((allReduce_map contribution input hne).trans
    (List.map_congr_left fun x hx => ?_))
  obtain ⟨t, rfl, ht⟩ := hinput x hx
  rw [sum_contributions ht, Int.toNat_natCast]

/-- A single rank looks the ids up in its own table. -/
theorem forward_single (s : VocabShard V) (input : List ℤ) :
    vocabParallelEmbeddingForward (vocabRanks [s]) input = embedding s.weight input := by
  simp only [vocabParallelEmbeddingForward, vocabRanks, shardRanks, List.mapM_cons, List.mapM_nil,
    List.length_singleton, embedLocal, if_neg (Nat.lt_irrefl 1), Option.bind_eq_bind]
  cases embedding s.weight input <;> rfl

/-- …which is the whole table when there is no padding, and begins like it. -/
theorem embedding_weight {s : VocabShard V} {input : List ℤ} (hinput : InVocab [s] input)
    (h : s.padding = [] ∨ ∀ x ∈ input, x < s.orgRows.length) :
    embedding s.weight input = embedding (vocab [s]) input := by
  have hvocab : vocab [s] = s.orgRows ++ s.addedRows := by simp [vocab, orgVocab, addedVocab]
  refine (embedding_eq _ fun x hx => ?_).trans (embedding_vocab hinput).symm
  obtain ⟨t, rfl, ht⟩ := hinput x hx
  rw [Int.toNat_natCast, List.getD_eq_getElem _ _ ht, ← List.getElem?_eq_getElem ht, hvocab,
    VocabShard.weight]
  refine ⟨Int.natCast_nonneg t, ?_⟩
  obtain hnone | horg := h
  · rw [hnone, List.append_nil]
  · have hlt : t < s.orgRows.length := Int.ofNat_lt.mp (horg t hx)
    rw [List.append_assoc, List.getElem?_append_left hlt, List.getElem?_append_left hlt]

/-- **The vocabulary-parallel lookup.**  With two ranks or more every id of the vocabulary is unmasked
on one rank, at its row, and index 0 on the others, and the sum over the ranks is the lookup in the
whole table.  A single rank passes its ids through, which is the same lookup without padding, and for
the original ids. -/
theorem vocabParallelEmbeddingForward_eq {shards : List (VocabShard V)} {input : List ℤ}
    (hinput : InVocab shards input) :
    (1 < shards.length →
      (∀ rank ∈ vocabRanks shards,
        getMaskedInputAndMask input rank.1.orgVocabStartIndex rank.1.orgVocabEndIndex
            rank.1.numOrgVocabPadding rank.1.addedVocabStartIndex rank.1.addedVocabEndIndex =
          (input.map fun x => (rank.1.localId x).1, input.map fun x => (rank.1.localId x).2)) ∧
      (∀ x ∈ input, ∃ before rank after, vocabRanks shards = before ++ rank :: after ∧
        (∃ j : ℕ, rank.1.localId x = ((j : ℤ), false) ∧
          rank.2[j]? = (vocab shards)[x.toNat]?) ∧
        ∀ other ∈ before ++ after, other.1.localId x = (0, true)) ∧
      vocabParallelEmbeddingForward (vocabRanks shards) input = embedding (vocab shards) input) ∧
    ∀ s, shards = [s] → (s.padding = [] ∨ ∀ x ∈ input, x < s.orgRows.length) →
      vocabParallelEmbeddingForward (vocabRanks shards) input =
        embedding (vocab shards) input := by
  refine ⟨fun htp => ⟨fun rank hrank => ?_, fun x hx => ?_, forward_of_ranks htp hinput⟩, ?_⟩
  · obtain ⟨-, -, hend, hstart, -⟩ := mem_shardRanks hrank
    exact getMaskedInputAndMask_eq (by omega) input
  · obtain ⟨t, rfl, ht⟩ := hinput x hx
    rw [Int.toNat_natCast]
    exact exists_owner ht
  · rintro s rfl h
    rw [forward_single, embedding_weight hinput h]

end Forward

/-- A vocabulary of one original and one added row, behind one row of padding. -/
def VocabShard.padded : VocabShard ℤ where
  orgRows := [10]
  padding := [0]
  addedRows := [20]
  weight_ne := List.cons_ne_nil _ _

/-- Two ranks, the second with the added row. -/
theorem vocabParallelEmbeddingForward_two :
    vocabParallelEmbeddingForward
        (vocabRanks [⟨[10], [0], [], List.cons_ne_nil _ _⟩, VocabShard.padded]) [1, 2, 0] =
      some [10, 20, 10] := by
  have hinput : InVocab [⟨[10], [0], [], List.cons_ne_nil _ _⟩, VocabShard.padded] [1, 2, 0] := by
    intro x hx
    simp only [List.mem_cons, List.not_mem_nil, or_false] at hx
    obtain rfl | rfl | rfl := hx
    · exact ⟨1, rfl, by decide⟩
    · exact ⟨2, rfl, by decide⟩
    · exact ⟨0, rfl, by decide⟩
  rw [((vocabParallelEmbeddingForward_eq hinput).1 (by decide)).2.2]
  decide

/-- **A single rank reads the padding for the added id.** -/
theorem vocabParallelEmbeddingForward_padded :
    vocabParallelEmbeddingForward (vocabRanks [VocabShard.padded]) [1] ≠
      embedding (vocab [VocabShard.padded]) [1] := by
  rw [forward_single]
  decide

end VllmAscend
