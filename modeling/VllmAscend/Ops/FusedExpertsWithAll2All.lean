import VllmAscend.Machinery.Exchange
import VllmAscend.Ops.TokenDispatcherWithAllGather

/-!
# Ops/FusedExpertsWithAll2All — every row to the rank of its expert, and back

    rank r     choices of its tokens, sorted by expert          │ rank 0's │ rank 1's │ …
    rank s     the choices of all ranks for its experts         sorted by local expert, and back
    rank r     outputs at the sorted choices                    weighted and added up by token

`fused_experts_with_all2all` of `ops/fused_moe` with an expert map.  A choice is a token with one of its
experts.  Each rank sorts its choices by expert, so the blocks for the ranks stand one after the other;
the receiving rank sorts again, by local expert, and undoes its sort before it sends the outputs back.
-/

namespace VllmAscend

open Machinery
open TokenDispatcherWithAllGather (choices rowOf mem_choices)

variable {R V : Type}

/-- What a rank of the group brings: its tokens, and the ids and weights of their experts. -/
structure MoeRank (R V : Type) where
  hiddenStates : List V
  routing : List (List (ℤ × R))

namespace MoeRank

def topkIds (rank : MoeRank R V) : List (List ℤ) := rank.routing.map (List.map Prod.fst)

def topkWeights (rank : MoeRank R V) : List (List R) := rank.routing.map (List.map Prod.snd)

end MoeRank

/-- `torch.bincount(xs, minlength)`: `none` is an exception. -/
def bincount (xs : List ℤ) (minlength : ℕ) : Option (List ℕ) :=
  if ∀ x ∈ xs, 0 ≤ x then
    some ((List.range (xs.foldl (fun m x => max m (x.toNat + 1)) minlength)).map fun e : ℕ =>
      (xs.filter (· = (e : ℤ))).length)
  else none

/-- `xs.view(worldSize, -1).sum(-1)` -/
def viewSum (worldSize : ℕ) (xs : List ℕ) : Option (List ℕ) :=
  if worldSize ∣ xs.length then
    some ((List.range worldSize).map fun s =>
      ((xs.drop (s * (xs.length / worldSize))).take (xs.length / worldSize)).sum)
  else none

/-- What a rank has sorted before the first exchange. -/
structure ScatteredRows (V : Type) where
  hiddenStates : List V
  expandedRowIdx : List ℤ
  expandedExpertIdx : List ℤ
  scatterSizes : List ℕ

section Phases

variable (globalNumExperts topK : ℕ)

/-- Up to the exchange of the sizes. -/
def scatterRows (worldSize : ℕ) (rank : MoeRank R V) (sortIndices : List ℤ) :
    Option (ScatteredRows V) := do
  let numTokens := rank.hiddenStates.length
  let (hiddenStates, expandedRowIdx, expandedExpertIdx) ←
    npuMoeInitRouting rank.hiddenStates (rowIdx numTokens topK) rank.topkIds numTokens topK sortIndices
  let globalExpertTokens ← bincount expandedExpertIdx globalNumExperts
  let scatterSizes ← viewSum worldSize globalExpertTokens
  return ⟨hiddenStates, expandedRowIdx, expandedExpertIdx, scatterSizes⟩

/-- The rows sorted by local expert, and their running counts; `sortedIdx` is the sort. -/
def groupReceived (localNumExperts : ℕ) (hiddenStates : List V) (localExpertIdx sortedIdx : List ℤ) :
    Option (List V × List ℤ) := do
  let sortedLocalExpertIdx ← gather localExpertIdx sortedIdx
  let expertTokens := npuMoeComputeExpertTokens sortedLocalExpertIdx localNumExperts
  let hiddenStates ← gather hiddenStates sortedIdx
  return (hiddenStates, expertTokens)

variable {n : ℕ}

/-- The first phase on every rank of the group. -/
def scatterAll (ranks : Fin n → MoeRank R V) (sortIndices : Fin n → List ℤ) :
    Option (List (ScatteredRows V)) :=
  (List.finRange n).mapM fun r => scatterRows globalNumExperts topK n (ranks r) (sortIndices r)

/-- The sizes that rank `s` receives. -/
def gatherSizes (scattered : List (ScatteredRows V)) (s : ℕ) : List ℕ :=
  allToAllSingle (scattered.map ScatteredRows.scatterSizes) s

/-- The exchange of the rows and of their local experts. -/
def receiveAll (n : ℕ) (scattered : List (ScatteredRows V)) :
    Option (List (List V) × List (List ℤ)) := do
  let localNumExperts := globalNumExperts / n
  let sendSizes := scattered.map ScatteredRows.scatterSizes
  let receiveSizes := (List.range n).map (gatherSizes scattered)
  let hiddenStates ← allToAllSizes (scattered.map ScatteredRows.hiddenStates) sendSizes receiveSizes
  let localExpertIdx ← allToAllSizes
    (scattered.map fun rank => rank.expandedExpertIdx.map (· % (localNumExperts : ℤ)))
    sendSizes receiveSizes
  return (hiddenStates, localExpertIdx)

/-- From the outputs of the experts of every rank to the tokens of every rank; `resortedIdx` is the sort
of the sort. -/
def finishAll [CommRing R] [AddCommGroup V] [Module R V] (ranks : Fin n → MoeRank R V)
    (scattered : List (ScatteredRows V)) (mlpOutput : Fin n → List V)
    (resortedIdx : Fin n → List ℤ) : Option (List (List V)) := do
  let outputs ← (List.finRange n).mapM fun s => gather (mlpOutput s) (resortedIdx s)
  let returned ← allToAllSizes outputs ((List.range n).map (gatherSizes scattered))
    (scattered.map ScatteredRows.scatterSizes)
  ((List.finRange n).zip (scattered.zip returned)).mapM fun p =>
    npuMoeFinalizeRouting p.2.2 (ranks p.1).topkWeights p.2.1.expandedRowIdx

end Phases

/-! ## What the exchange is to give -/

/-- A choice of a token of a rank: the rank, the token, the id and the weight, and its place among the
choices of the token. -/
abbrev RankChoice (n : ℕ) (R : Type) := Fin n × ℕ × (ℤ × R) × ℕ

namespace RankChoice

variable {n : ℕ}

def expert (c : RankChoice n R) : ℕ := c.2.2.1.1.toNat

/-- The rank that has the expert. -/
def owner (localNumExperts : ℕ) (c : RankChoice n R) : ℕ := c.expert / localNumExperts

def localExpert (localNumExperts : ℕ) (c : RankChoice n R) : ℕ := c.expert % localNumExperts

/-- The hidden state of the token. -/
def row [Zero V] (hiddenStates : Fin n → List V) (c : RankChoice n R) : V :=
  (hiddenStates c.1).getD c.2.1 0

end RankChoice

/-- The choices of all ranks for the experts of rank `s`. -/
def ownedChoices {n : ℕ} (localNumExperts : ℕ) (routing : Fin n → List (List (ℤ × R))) (s : ℕ) :
    List (RankChoice n R) :=
  (List.finRange n).flatMap fun r =>
    ((choices (routing r)).map (r, ·)).filter (RankChoice.owner localNumExperts · = s)

/-- **The rows that rank `s` feeds to its experts** are those of the choices it owns, each once, in the
order of the local experts, as the counts say. -/
structure FeedsOwned {n : ℕ} (localNumExperts : ℕ) (routing : Fin n → List (List (ℤ × R))) (s : ℕ)
    (counts : List ℕ) (fed : List (RankChoice n R)) : Prop where
  perm : fed.Perm (ownedChoices localNumExperts routing s)
  sorted : fed.Pairwise fun a b => a.localExpert localNumExperts ≤ b.localExpert localNumExperts
  counts_eq : counts = (List.range localNumExperts).map fun e =>
    (fed.filter (RankChoice.localExpert localNumExperts · = e)).length

/-- The weighted sums over the experts of the tokens. -/
def mixtures [CommRing R] [AddCommGroup V] [Module R V] {X : Type} [Zero X] (f : ℕ → X → V)
    (hiddenStates : List X) (routing : List (List (ℤ × R))) : List V :=
  routing.mapIdx fun t row =>
    (row.map fun choice => choice.2 • f choice.1.toNat (hiddenStates.getD t 0)).sum

/-- What the sorts and the experts of every rank may return: rank `s` has the experts from
`s * localNumExperts` on. -/
structure IsAllToAllRun {n : ℕ} (globalNumExperts : ℕ) (received : List (List V) × List (List ℤ))
    (f : ℕ → V → V) (sortedIdx : Fin n → List ℤ) (mlpOutput : Fin n → List V)
    (resortedIdx : Fin n → List ℤ) : Prop where
  sorted : ∀ s : Fin n,
    IsArgsort (fun a b : ℤ => decide (a < b)) (received.2.getD s []) (sortedIdx s)
  experts : ∀ (s : Fin n) rows expertTokens,
    groupReceived (globalNumExperts / n) (received.1.getD s []) (received.2.getD s []) (sortedIdx s) =
        some (rows, expertTokens) →
      IsGroupedOutput (fun e => f (s * (globalNumExperts / n) + e)) (groupCounts 0 expertTokens) rows
        (mlpOutput s)
  resorted : ∀ s, IsArgsort (fun a b : ℤ => decide (a < b)) (sortedIdx s) (resortedIdx s)

/-- **The exchange is correct**, whatever the sorts do among equal keys: the sizes agree, every rank feeds
its experts the choices it owns, and every token gets the weighted sum of its experts' outputs. -/
def AllToAllCorrect [CommRing R] [AddCommGroup V] [Module R V] {n : ℕ} (globalNumExperts topK : ℕ)
    (ranks : Fin n → MoeRank R V) : Prop :=
  ∀ sortIndices : Fin n → List ℤ,
    (∀ r, IsArgsort (fun a b : ℤ => decide (a < b)) (ranks r).topkIds.flatten (sortIndices r)) →
    ∃ scattered received, scatterAll globalNumExperts topK ranks sortIndices = some scattered ∧
      receiveAll globalNumExperts n scattered = some received ∧
      (∀ (r s : Fin n) rank, scattered[(r : ℕ)]? = some rank →
        ∃ size, rank.scatterSizes[(s : ℕ)]? = some size ∧
          (gatherSizes scattered s)[(r : ℕ)]? = some size) ∧
      (∀ (s : Fin n) sortedIdx,
        IsArgsort (fun a b : ℤ => decide (a < b)) (received.2.getD s []) sortedIdx →
        ∃ fed expertTokens,
          groupReceived (globalNumExperts / n) (received.1.getD s []) (received.2.getD s []) sortedIdx =
            some (fed.map (RankChoice.row fun r => (ranks r).hiddenStates), expertTokens) ∧
          FeedsOwned (globalNumExperts / n) (fun r => (ranks r).routing) s (groupCounts 0 expertTokens)
            fed) ∧
      ∀ f sortedIdx mlpOutput resortedIdx,
        IsAllToAllRun globalNumExperts received f sortedIdx mlpOutput resortedIdx →
        finishAll ranks scattered mlpOutput resortedIdx =
          some ((List.finRange n).map fun r => mixtures f (ranks r).hiddenStates (ranks r).routing)

/-- A rank's inputs: as many choices for every token, of experts that there are. -/
structure IsMoeRank (globalNumExperts topK : ℕ) (hiddenStates : List V)
    (routing : List (List (ℤ × R))) : Prop where
  length_eq : routing.length = hiddenStates.length
  length_row : ∀ row ∈ routing, row.length = topK
  bounds : ∀ row ∈ routing, ∀ choice ∈ row, 0 ≤ choice.1 ∧ choice.1 < globalNumExperts

/-! ## Sizes by rank -/

/-- The counts of a block of keys add up to the count of the block. -/
theorem sum_block_counts {δ : Type} (key : δ → ℕ) {m s : ℕ} (hm : 0 < m) : ∀ xs : List δ,
    ((List.range' (s * m) m).map fun e => (xs.filter (key · = e)).length).sum =
      (xs.filter (key · / m = s)).length
  | [] => by simp
  | x :: xs => by
    have hstep : ((List.range' (s * m) m).map fun e => ((x :: xs).filter (key · = e)).length) =
        (List.range' (s * m) m).map fun e =>
          (if e = key x then 1 else 0) + (xs.filter (key · = e)).length := by
      refine List.map_congr_left fun e _ => ?_
      rw [List.filter_cons]
      by_cases heq : e = key x
      · rw [if_pos (decide_eq_true heq.symm), if_pos heq, List.length_cons, Nat.add_comm]
      · rw [if_neg (by simpa using Ne.symm heq), if_neg heq, Nat.zero_add]
    have hone : ((List.range' (s * m) m).map fun e => if e = key x then 1 else 0).sum =
        if key x / m = s then 1 else 0 := by
      have hmem : key x ∈ List.range' (s * m) m ↔ key x / m = s := by
        rw [List.mem_range'_1, Nat.div_eq_iff hm]
        constructor
        · rintro ⟨hlow, hhigh⟩
          omega
        · rintro ⟨hlow, hhigh⟩
          omega
      have hcount : ∀ l : List ℕ, (l.map fun e => if e = key x then 1 else 0).sum = l.count (key x) := by
        intro l
        induction l with
        | nil => rfl
        | cons e l ih => rw [List.map_cons, List.sum_cons, ih, List.count_cons, Nat.add_comm]; simp
      rw [hcount, List.Nodup.count (List.nodup_range' _ Nat.one_pos)]
      exact if_congr hmem rfl rfl
    rw [hstep, List.sum_map_add, hone, sum_block_counts key hm xs, List.filter_cons]
    by_cases heq : key x / m = s
    · rw [if_pos heq, if_pos (decide_eq_true heq), List.length_cons, Nat.add_comm]
    · rw [if_neg heq, if_neg (by simpa using heq), Nat.zero_add]

section Sizes

variable {δ : Type} {key : δ → ℕ} {n localNumExperts : ℕ}

theorem bincount_eq {id : δ → ℤ} {minlength : ℕ} {out : List δ}
    (h : ∀ p ∈ out, 0 ≤ id p ∧ id p < minlength) :
    bincount (out.map id) minlength =
      some ((List.range minlength).map fun e => (out.filter fun p => (id p).toNat = e).length) := by
  have hmax : ∀ xs : List ℤ, (∀ x ∈ xs, 0 ≤ x ∧ x < minlength) →
      xs.foldl (fun m x => max m (x.toNat + 1)) minlength = minlength := by
    intro xs
    induction xs with
    | nil => exact fun _ => rfl
    | cons x xs ih =>
      intro hlt
      have hx := hlt x List.mem_cons_self
      rw [List.foldl_cons, max_eq_left (by omega)]
      exact ih fun y hy => hlt y (List.mem_cons_of_mem _ hy)
  have hbounds : ∀ x ∈ out.map id, 0 ≤ x ∧ x < minlength := by
    intro x hx
    obtain ⟨p, hp, rfl⟩ := List.mem_map.mp hx
    exact h p hp
  rw [bincount, if_pos fun x hx => (hbounds x hx).1, hmax _ hbounds]
  refine congrArg some (List.map_congr_left fun e _ => ?_)
  rw [List.filter_map, List.length_map]
  refine congrArg List.length (List.filter_congr fun p hp => ?_)
  have hp := (h p hp).1
  rw [Function.comp_apply, decide_eq_decide]
  omega

/-- **The sizes of the blocks for the ranks**, from the counts of the experts. -/
theorem viewSum_eq (hn : 0 < n) (hlocal : 0 < localNumExperts) (key : δ → ℕ) (out : List δ) :
    viewSum n ((List.range (n * localNumExperts)).map fun e => (out.filter (key · = e)).length) =
      some (groupSizes (key · / localNumExperts) n out) := by
  have hdiv : n * localNumExperts / n = localNumExperts := Nat.mul_div_cancel_left _ hn
  rw [viewSum, List.length_map, List.length_range, hdiv, if_pos (Dvd.intro _ rfl), groupSizes]
  refine congrArg some (List.map_congr_left fun s hs => ?_)
  have hle : (s + 1) * localNumExperts ≤ n * localNumExperts :=
    Nat.mul_le_mul_right _ (List.mem_range.mp hs)
  rw [Nat.succ_mul] at hle
  rw [← List.map_drop, ← List.map_take, List.range_eq_range', List.drop_range',
    List.take_range'_of_length_ge (by omega), Nat.zero_add, Nat.mul_one]
  exact sum_block_counts key hlocal out

end Sizes

/-! ## A rank's choices -/

/-- Everything about the order of a rank's sorted choices that the exchange uses. -/
structure IsSortedChoices (routing : List (List (ℤ × R))) (out : List (ℕ × (ℤ × R) × ℕ)) : Prop where
  perm : out.Perm (choices routing)
  sorted : out.Pairwise fun a b => a.2.1.1.toNat ≤ b.2.1.1.toNat

namespace IsMoeRank

variable {globalNumExperts topK : ℕ} {hiddenStates : List V} {routing : List (List (ℤ × R))}

theorem bounds_of_mem (h : IsMoeRank globalNumExperts topK hiddenStates routing)
    {p : ℕ × (ℤ × R) × ℕ} (hp : p ∈ choices routing) :
    0 ≤ p.2.1.1 ∧ p.2.1.1 < globalNumExperts := by
  obtain ⟨row, hrow, hchoice⟩ := mem_choices.mp hp
  exact h.bounds row (List.mem_of_getElem? hrow) _ (List.mem_of_getElem? hchoice)

/-- The counts of a rank's choices. -/
theorem bincount_eq (h : IsMoeRank globalNumExperts topK hiddenStates routing)
    {out : List (ℕ × (ℤ × R) × ℕ)} (hperm : out.Perm (choices routing)) :
    bincount (out.map fun p => p.2.1.1) globalNumExperts =
      some ((List.range globalNumExperts).map fun e =>
        (out.filter fun p => p.2.1.1.toNat = e).length) :=
  VllmAscend.bincount_eq fun p hp => by exact_mod_cast h.bounds_of_mem (hperm.mem_iff.mp hp)

/-- The settings of a dispatcher that has every expert. -/
def wholeGroup (R : Type) (globalNumExperts topK : ℕ) : TokenDispatcherWithAllGather R where
  applyRouterWeightOnInput := false
  topK := topK
  maxNumTokens := none
  withQuant := false
  numExpertsLocal := globalNumExperts
  sortedWeights := none
  expandedRowIdx := none
  sortedTokenIndices := none
  originalShape := none
  mask := none
  expertMap := none
  topkWeights := none
  topkIds := none

theorem isBatch (h : IsMoeRank globalNumExperts topK hiddenStates routing) :
    (wholeGroup R globalNumExperts topK).IsBatch none hiddenStates routing where
  isRouting := ⟨h.length_eq, h.length_row, fun row hrow choice hchoice => by
    obtain ⟨hlow, hhigh⟩ := h.bounds row hrow choice hchoice
    exact ⟨choice.1, rfl, by omega, hhigh⟩⟩
  id_nonneg row hrow choice hchoice := (h.bounds row hrow choice hchoice).1
  topK_eq := fun hinput => nomatch hinput
  length_le := fun _ hm => nomatch hm

/-- **What a rank has sorted before the first exchange.** -/
theorem scatterRows_eq [AddCommGroup V] {n localNumExperts : ℕ} (hn : 0 < n)
    (hlocal : 0 < localNumExperts)
    (h : IsMoeRank (n * localNumExperts) topK hiddenStates routing) {sortIndices : List ℤ}
    (hsort : IsArgsort (fun a b : ℤ => decide (a < b)) (routing.map (List.map Prod.fst)).flatten
      sortIndices) :
    ∃ out dst, scatterRows (n * localNumExperts) topK n ⟨hiddenStates, routing⟩ sortIndices =
        some ⟨out.map fun p => hiddenStates.getD p.1 0, dst, out.map fun p => p.2.1.1,
          groupSizes (fun p => p.2.1.1.toNat / localNumExperts) n out⟩ ∧
      IsSortedChoices routing out ∧
      ∀ p ∈ choices routing, ∃ j : ℕ,
        dst[rowOf routing.length p]? = some (j : ℤ) ∧ out[j]? = some p := by
  obtain ⟨out, dst, hinit, -, hperm, hsorted, hplace⟩ :=
    h.isBatch.npuMoeInitRouting_eq hsort (rfl : hiddenStates.length = hiddenStates.length)
  have hbincount := h.bincount_eq hperm
  have hsizes := viewSum_eq hn hlocal (fun p : ℕ × (ℤ × R) × ℕ => p.2.1.1.toNat) out
  refine ⟨out, dst, ?_, ⟨hperm, hsorted⟩, fun p hp => ?_⟩
  · have hinit' : npuMoeInitRouting hiddenStates (rowIdx hiddenStates.length topK)
        (routing.map (List.map Prod.fst)) hiddenStates.length topK sortIndices =
          some (out.map fun p => hiddenStates.getD p.1 0, dst, out.map fun p => p.2.1.1) := hinit
    simp only [scatterRows, MoeRank.topkIds, hinit', hbincount, hsizes, Option.bind_eq_bind,
      Option.bind_some, Option.pure_def]
  · rw [h.length_eq]
    exact hplace p hp

end IsMoeRank

/-- **Finalizing on a rank**, when the outputs stand where its sorted choices were. -/
theorem finalize_eq [CommRing R] [AddCommGroup V] [Module R V] {X : Type} [Zero X] (f : ℕ → X → V)
    (xs : List X) {routing : List (List (ℤ × R))} {out : List (ℕ × (ℤ × R) × ℕ)} {dst : List ℤ}
    (hplace : ∀ p ∈ choices routing, ∃ j : ℕ,
      dst[rowOf routing.length p]? = some (j : ℤ) ∧ out[j]? = some p) :
    npuMoeFinalizeRouting (out.map fun p => f p.2.1.1.toNat (xs.getD p.1 0))
        (routing.map (List.map Prod.snd)) dst = some (mixtures f xs routing) := by
  refine TokenDispatcherWithAllGather.npuMoeFinalizeRouting_eq Prod.snd
    (fun t choice => f choice.1.toNat (xs.getD t 0)) fun p hp => ?_
  obtain ⟨j, hj, hjOut⟩ := hplace p hp
  exact ⟨j, hj, by rw [List.getElem?_map, hjOut]; rfl⟩

/-! ## The choices of the group -/

section Group

variable {n localNumExperts topK : ℕ} {hiddenStates : Fin n → List V}
  {routing : Fin n → List (List (ℤ × R))} {out : Fin n → List (ℕ × (ℤ × R) × ℕ)}

/-- The sorted choices of every rank. -/
def groupChoices (out : Fin n → List (ℕ × (ℤ × R) × ℕ)) : List (List (RankChoice n R)) :=
  (List.finRange n).map fun r => (out r).map (r, ·)

@[simp] theorem length_groupChoices : (groupChoices out).length = n := by
  rw [groupChoices, List.length_map, List.length_finRange]

theorem groupChoices_sorted (hout : ∀ r, IsSortedChoices (routing r) (out r)) :
    ∀ row ∈ groupChoices out, row.Pairwise fun a b =>
      RankChoice.owner localNumExperts a ≤ RankChoice.owner localNumExperts b := by
  intro row hrow
  obtain ⟨r, -, rfl⟩ := List.mem_map.mp hrow
  exact List.pairwise_map.mpr ((hout r).sorted.imp fun hle => Nat.div_le_div_right hle)

theorem groupChoices_lt
    (hrank : ∀ r, IsMoeRank (n * localNumExperts) topK (hiddenStates r) (routing r))
    (hout : ∀ r, IsSortedChoices (routing r) (out r)) :
    ∀ row ∈ groupChoices out, ∀ c ∈ row,
      RankChoice.owner localNumExperts c < (groupChoices out).length := by
  intro row hrow c hc
  obtain ⟨r, -, rfl⟩ := List.mem_map.mp hrow
  obtain ⟨p, hp, rfl⟩ := List.mem_map.mp hc
  obtain ⟨hlow, hhigh⟩ := (hrank r).bounds_of_mem ((hout r).perm.mem_iff.mp hp)
  rw [length_groupChoices]
  refine Nat.div_lt_of_lt_mul ?_
  rw [Nat.mul_comm]
  change p.2.1.1.toNat < n * localNumExperts
  omega

/-- **What rank `s` receives are the choices it owns.** -/
theorem destined_perm (hout : ∀ r, IsSortedChoices (routing r) (out r)) (s : ℕ) :
    (destined (RankChoice.owner localNumExperts) (groupChoices out) s).Perm
      (ownedChoices localNumExperts routing s) := by
  rw [destined, groupChoices, List.flatMap_map, ownedChoices]
  exact List.Perm.flatMap_left _ fun r _ => ((hout r).perm.map _).filter _

/-- Sorting the received choices by local expert feeds the experts right. -/
theorem feedsOwned (hout : ∀ r, IsSortedChoices (routing r) (out r)) {s : ℕ}
    {fed : List (RankChoice n R)}
    (hperm : fed.Perm (destined (RankChoice.owner localNumExperts) (groupChoices out) s))
    (hsorted : fed.Pairwise fun a b =>
      a.localExpert localNumExperts ≤ b.localExpert localNumExperts) :
    FeedsOwned localNumExperts routing s
      ((List.range localNumExperts).map fun e =>
        (fed.filter (RankChoice.localExpert localNumExperts · = e)).length) fed :=
  ⟨hperm.trans (destined_perm hout s), hsorted, rfl⟩

/-- **The experts of rank `s` are right for the choices that are destined for it.** -/
theorem FeedsOwned.output_eq {X : Type} {s : ℕ} {counts : List ℕ} {fed : List (RankChoice n R)}
    (h : FeedsOwned localNumExperts routing s counts fed) (hlocal : 0 < localNumExperts)
    {x : RankChoice n R → X} {f : ℕ → X → V} {mlpOutput : List V}
    (hmlp : IsGroupedOutput (fun e => f (s * localNumExperts + e)) counts (fed.map x) mlpOutput) :
    mlpOutput = fed.map fun c => f c.expert (x c) := by
  rw [h.counts_eq] at hmlp
  rw [hmlp.eq_map h.sorted fun c _ => Nat.mod_lt _ hlocal]
  refine List.map_congr_left fun c hc => ?_
  have howned := h.perm.mem_iff.mp hc
  obtain ⟨r, -, hmem⟩ := List.mem_flatMap.mp howned
  have howner : c.owner localNumExperts = s := of_decide_eq_true (List.mem_filter.mp hmem).2
  rw [← howner, RankChoice.owner, RankChoice.localExpert, Nat.mul_comm, Nat.div_add_mod]

/-- The local expert of a choice, as the rank computes it. -/
def localIdx (localNumExperts : ℕ) (c : RankChoice n R) : ℤ := c.2.2.1.1 % (localNumExperts : ℤ)

theorem toNat_localIdx {c : RankChoice n R} (hc : 0 ≤ c.2.2.1.1) :
    (localIdx localNumExperts c).toNat = c.localExpert localNumExperts := by
  rw [localIdx, Int.toNat_emod hc (Int.natCast_nonneg _), Int.toNat_natCast]
  rfl

/-- **Sorting what was received by local expert.** -/
theorem groupReceived_eq (hlocal : 0 < localNumExperts) {ds : List (RankChoice n R)}
    (hnonneg : ∀ c ∈ ds, 0 ≤ c.2.2.1.1) (x : RankChoice n R → V) {sortedIdx : List ℤ}
    (hsort : IsArgsort (fun a b : ℤ => decide (a < b)) (ds.map (localIdx localNumExperts)) sortedIdx) :
    ∃ fed, groupReceived localNumExperts (ds.map x) (ds.map (localIdx localNumExperts)) sortedIdx =
        some (fed.map x, cumsum 0 (((List.range localNumExperts).map fun e =>
          (fed.filter (RankChoice.localExpert localNumExperts · = e)).length).map Nat.cast)) ∧
      fed.Perm ds ∧ gather ds sortedIdx = some fed ∧
      fed.Pairwise fun a b => a.localExpert localNumExperts ≤ b.localExpert localNumExperts := by
  have hindices : sortedIdx.Perm (arange ds.length) := by
    have hperm := hsort.perm
    rwa [List.length_map] at hperm
  obtain ⟨fed, hfed, hperm⟩ := gather_perm hindices
  have hfedOf : ∀ {β : Type} (g : RankChoice n R → β), gather (ds.map g) sortedIdx = some (fed.map g) :=
    fun g => by
      rw [gather_map, hfed]
      rfl
  have hlow : ∀ c ∈ fed, 0 ≤ localIdx localNumExperts c := fun c _ => Int.emod_nonneg _ (by omega)
  have hlocalExpert : ∀ c ∈ fed, (localIdx localNumExperts c).toNat = c.localExpert localNumExperts :=
    fun c hc => toNat_localIdx (hnonneg c (hperm.mem_iff.mp hc))
  refine ⟨fed, ?_, hperm, hfed, ?_⟩
  · have hcounts : (List.range localNumExperts).map (fun e =>
        (fed.filter fun c => (localIdx localNumExperts c).toNat = e).length) =
          (List.range localNumExperts).map fun e =>
            (fed.filter (RankChoice.localExpert localNumExperts · = e)).length := by
      refine List.map_congr_left fun e _ => congrArg List.length (List.filter_congr fun c hc => ?_)
      rw [hlocalExpert c hc]
    simp only [groupReceived, hfedOf, Option.bind_eq_bind, Option.bind_some, Option.pure_def,
      npuMoeComputeExpertTokens_eq hlow, hcounts]
  · have hpairs := hsort.sorted _ (hfedOf _)
    rw [List.pairwise_map] at hpairs
    refine hpairs.imp_of_mem fun ha hb hfalse => ?_
    rw [← hlocalExpert _ ha, ← hlocalExpert _ hb]
    exact Int.toNat_le_toNat (not_lt.mp (of_decide_eq_false hfalse))

/-- What a rank has sorted, of its sorted choices. -/
def sortedRows [Zero V] (localNumExperts : ℕ) (hiddenStates : Fin n → List V)
    (out : Fin n → List (ℕ × (ℤ × R) × ℕ)) (dst : Fin n → List ℤ) (r : Fin n) : ScatteredRows V where
  hiddenStates := (out r).map fun p => (hiddenStates r).getD p.1 0
  expandedRowIdx := dst r
  expandedExpertIdx := (out r).map fun p => p.2.1.1
  scatterSizes := groupSizes (fun p => p.2.1.1.toNat / localNumExperts) n (out r)

theorem map_sizes [Zero V] (dst : Fin n → List ℤ) :
    ((List.finRange n).map (sortedRows localNumExperts hiddenStates out dst)).map
        ScatteredRows.scatterSizes =
      (groupChoices out).map (groupSizes (RankChoice.owner localNumExperts) (groupChoices out).length) := by
  rw [length_groupChoices, groupChoices, List.map_map, List.map_map]
  refine List.map_congr_left fun r _ => ?_
  rw [Function.comp_apply, Function.comp_apply, sortedRows, groupSizes, groupSizes]
  refine List.map_congr_left fun s _ => ?_
  rw [List.filter_map, List.length_map]
  rfl

/-- **The sizes that rank `s` receives** are those the others send it. -/
theorem gatherSizes_eq [Zero V] (dst : Fin n → List ℤ) {s : ℕ} (hs : s < n) :
    gatherSizes ((List.finRange n).map (sortedRows localNumExperts hiddenStates out dst)) s =
      destinedSizes (RankChoice.owner localNumExperts) (groupChoices out) s := by
  rw [gatherSizes, map_sizes]
  exact allToAllSingle_groupSizes (by rwa [length_groupChoices])

theorem receiveAll_eq [Zero V] (hn : 0 < n)
    (hrank : ∀ r, IsMoeRank (n * localNumExperts) topK (hiddenStates r) (routing r))
    (hout : ∀ r, IsSortedChoices (routing r) (out r)) (dst : Fin n → List ℤ) :
    receiveAll (n * localNumExperts) n
        ((List.finRange n).map (sortedRows localNumExperts hiddenStates out dst)) =
      some ((List.range n).map fun s =>
          (destined (RankChoice.owner localNumExperts) (groupChoices out) s).map
            (RankChoice.row hiddenStates),
        (List.range n).map fun s =>
          (destined (RankChoice.owner localNumExperts) (groupChoices out) s).map
            (localIdx localNumExperts)) := by
  have hreceive : (List.range n).map (gatherSizes
      ((List.finRange n).map (sortedRows localNumExperts hiddenStates out dst))) =
        (List.range (groupChoices out).length).map
          (destinedSizes (RankChoice.owner localNumExperts) (groupChoices out)) := by
    rw [length_groupChoices]
    exact List.map_congr_left fun s hs => gatherSizes_eq dst (List.mem_range.mp hs)
  have hsend := fun {β : Type} (x : RankChoice n R → β) => exchange_groups x
    (groupChoices_sorted hout) (groupChoices_lt hrank hout)
  rw [receiveAll, hreceive, map_sizes, Nat.mul_div_cancel_left _ hn]
  have hrows : ((List.finRange n).map (sortedRows localNumExperts hiddenStates out dst)).map
      ScatteredRows.hiddenStates = (groupChoices out).map (List.map (RankChoice.row hiddenStates)) := by
    simp only [groupChoices, List.map_map]
    refine List.map_congr_left fun r _ => ?_
    simp only [Function.comp_apply, sortedRows, List.map_map]
    rfl
  have hexperts : ((List.finRange n).map (sortedRows localNumExperts hiddenStates out dst)).map
      (fun rank => rank.expandedExpertIdx.map (· % (localNumExperts : ℤ))) =
        (groupChoices out).map (List.map (localIdx localNumExperts)) := by
    simp only [groupChoices, List.map_map]
    refine List.map_congr_left fun r _ => ?_
    simp only [Function.comp_apply, sortedRows, List.map_map]
    rfl
  rw [hrows, hexperts, hsend, hsend, length_groupChoices]
  rfl

theorem choice_nonneg
    (hrank : ∀ r, IsMoeRank (n * localNumExperts) topK (hiddenStates r) (routing r))
    (hout : ∀ r, IsSortedChoices (routing r) (out r)) {s : ℕ} :
    ∀ c ∈ destined (RankChoice.owner localNumExperts) (groupChoices out) s, 0 ≤ c.2.2.1.1 := by
  intro c hc
  obtain ⟨row, hrow, hmem⟩ := List.mem_flatMap.mp hc
  obtain ⟨r, -, rfl⟩ := List.mem_map.mp hrow
  obtain ⟨p, hp, rfl⟩ := List.mem_map.mp (List.mem_filter.mp hmem).1
  exact ((hrank r).bounds_of_mem ((hout r).perm.mem_iff.mp hp)).1

end Group

/-- **The unquantised exchange is correct**, for every group whose experts are shared out evenly. -/
theorem allToAllCorrect [CommRing R] [AddCommGroup V] [Module R V] {n localNumExperts topK : ℕ}
    {ranks : Fin n → MoeRank R V} (hn : 0 < n) (hlocal : 0 < localNumExperts)
    (hrank : ∀ r, IsMoeRank (n * localNumExperts) topK (ranks r).hiddenStates (ranks r).routing) :
    AllToAllCorrect (n * localNumExperts) topK ranks := by
  intro sortIndices hsort
  choose out dst hscatter hout hplace using fun r => (hrank r).scatterRows_eq hn hlocal (hsort r)
  set hiddenStates : Fin n → List V := fun r => (ranks r).hiddenStates with hhidden
  have hscattered : scatterAll (n * localNumExperts) topK ranks sortIndices =
      some ((List.finRange n).map (sortedRows localNumExperts hiddenStates out dst)) := by
    have hall := mapM_map_eq_some (c := id) (l := List.finRange n) (f := fun r =>
      scatterRows (n * localNumExperts) topK n (ranks r) (sortIndices r))
      (g := sortedRows localNumExperts hiddenStates out dst) fun r _ => hscatter r
    rwa [List.map_id] at hall
  refine ⟨_, _, hscattered, receiveAll_eq hn hrank hout dst, fun r s rank hr => ?_,
    fun s sortedIdx hsorted => ?_, fun f sortedIdx mlpOutput resortedIdx hrun => ?_⟩
  · rw [List.getElem?_map, List.getElem?_eq_getElem (by rw [List.length_finRange]; exact r.isLt),
      Option.map_some, List.getElem_finRange] at hr
    cases hr
    refine ⟨_, by rw [sortedRows, groupSizes, List.getElem?_map, List.getElem?_range s.isLt]; rfl, ?_⟩
    rw [gatherSizes_eq dst s.isLt, destinedSizes, groupChoices, List.map_map, List.getElem?_map,
      List.getElem?_eq_getElem (by rw [List.length_finRange]; exact r.isLt), List.getElem_finRange,
      Option.map_some, Function.comp_apply, List.filter_map, List.length_map]
    rfl
  · simp only [getD_map_range s.isLt] at hsorted ⊢
    rw [Nat.mul_div_cancel_left _ hn]
    obtain ⟨fed, hgroup, hperm, -, hfedSorted⟩ :=
      groupReceived_eq hlocal (choice_nonneg hrank hout) (RankChoice.row hiddenStates) hsorted
    refine ⟨fed, _, hgroup, ?_⟩
    rw [groupCounts_cumsum]
    exact feedsOwned hout hperm hfedSorted
  · set output : RankChoice n R → V := fun c => f c.expert (c.row hiddenStates) with houtput
    have hback : ∀ s : Fin n, gather (mlpOutput s) (resortedIdx s) =
        some ((destined (RankChoice.owner localNumExperts) (groupChoices out) s).map output) := by
      intro s
      have hsorted := hrun.sorted s
      have hexperts := hrun.experts s
      simp only [getD_map_range s.isLt, Nat.mul_div_cancel_left _ hn] at hsorted hexperts
      obtain ⟨fed, hgroup, hperm, hfed, hfedSorted⟩ :=
        groupReceived_eq hlocal (choice_nonneg hrank hout) (RankChoice.row hiddenStates) hsorted
      have hmlp := hexperts _ _ hgroup
      rw [groupCounts_cumsum] at hmlp
      have hmlpEq : mlpOutput s = fed.map output :=
        (feedsOwned hout hperm hfedSorted).output_eq hlocal hmlp
      refine @gather_argsort_argsort _ _ (fun a b : ℤ => decide (a < b)) id _ _ (sortedIdx s) _
        ?_ ?_ (fun i _ j _ => rfl) ?_
      · have hindices := hsorted.perm
        rwa [List.length_map] at hindices ⊢
      · rw [hmlpEq, gather_map, hfed]
        rfl
      · rw [List.map_id]
        exact hrun.resorted s
    have hall := mapM_map_eq_some (c := id) (l := List.finRange n) (f := fun s =>
      gather (mlpOutput s) (resortedIdx s)) fun s _ => hback s
    have houtputs : (List.finRange n).map (fun s : Fin n =>
        (destined (RankChoice.owner localNumExperts) (groupChoices out) s).map output) =
          (List.range n).map fun s =>
            (destined (RankChoice.owner localNumExperts) (groupChoices out) s).map output := by
      rw [← List.map_coe_finRange_eq_range, List.map_map]
      rfl
    have hreceive : (List.range n).map (gatherSizes
        ((List.finRange n).map (sortedRows localNumExperts hiddenStates out dst))) =
          (List.range n).map
            (destinedSizes (RankChoice.owner localNumExperts) (groupChoices out)) :=
      List.map_congr_left fun s hs => gatherSizes_eq dst (List.mem_range.mp hs)
    have hreturned := Machinery.exchange_back output
      (groupChoices_sorted hout) (groupChoices_lt hrank hout)
    rw [List.map_id] at hall
    rw [length_groupChoices] at hreturned
    have hzip : (List.finRange n).zip
        (((List.finRange n).map (sortedRows localNumExperts hiddenStates out dst)).zip
          ((groupChoices out).map (List.map output))) =
        (List.finRange n).map fun r => (r, sortedRows localNumExperts hiddenStates out dst r,
          (out r).map fun p => output (r, p)) := by
      conv_lhs => arg 1; rw [← List.map_id (List.finRange n)]
      rw [groupChoices, List.map_map, List.zip_map', List.zip_map']
      refine List.map_congr_left fun r _ => ?_
      rw [Function.comp_apply, List.map_map]
      rfl
    rw [finishAll, hall, houtputs, hreceive, map_sizes, length_groupChoices, Option.bind_eq_bind,
      Option.bind_some, hreturned, Option.bind_some, hzip]
    refine mapM_map_eq_some fun r _ => ?_
    exact finalize_eq f (hiddenStates r) (hplace r)

end VllmAscend
