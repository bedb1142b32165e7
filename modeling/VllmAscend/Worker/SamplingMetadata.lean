import VllmAscend.Worker.PersistentBatch

/-!
# Worker/SamplingMetadata — the snapshot the sampler reads

    temperature_cpu[:n] ──refresh_metadata──▸ temperature[:n]        unless all_greedy
    top_p_cpu[:n]       ──refresh_metadata──▸ top_p[:n]              unless no_top_p

The metadata is made anew when anything was added, removed or moved since the last time.  So either
something was, or the metadata is what the rows say (`Synced`), and after `refresh_metadata` it is
(`Synced.refreshMetadata`).
-/

namespace VllmAscend

open Machinery BatchUpdateBuilder

/-- Row `i` of a column holds a value, or the column is left out and that is all the same. -/
def InColumn {α : Type} (column : Option (List α)) (i : ℕ) (value : α) (unneeded : Prop) : Prop :=
  match column with
  | none => unneeded
  | some rows => rows[i]? = some value

/-- A row that holds one value holds another one if they are equal, or if nothing is held. -/
theorem InColumn.iff {α : Type} {column : Option (List α)} {i j : ℕ} {x y : α} {P Q : Prop}
    (hx : InColumn column i x P) (hy : InColumn column j y Q) :
    InColumn column i y Q ↔ column = none ∨ x = y := by
  cases column with
  | none => exact iff_of_true hy (Or.inl rfl)
  | some rows =>
    have hrow : rows[i]? = some x := hx
    simp only [InColumn, hrow, Option.some.injEq, reduceCtorEq, false_or]

/-- …and only if they are equal, where what is left out is the same for all. -/
theorem InColumn.iff_eq {α : Type} {column : Option (List α)} {i j : ℕ} {x y z : α} {P Q : Prop}
    (hx : InColumn column i x P) (hy : InColumn column j y Q) (hP : P → x = z) (hQ : Q → y = z) :
    InColumn column i y Q ↔ x = y := by
  rw [hx.iff hy, or_iff_right_of_imp]
  rintro rfl
  exact (hP hx).trans (hQ hy).symm

namespace SamplingMetadata

/-- A column of penalties, which nobody reads if there are none. -/
def penaltyColumn (md : SamplingMetadata) (column : List ℚ) : Option (List ℚ) :=
  if md.noPenalties then none else some column

/-- **Row `i` of the metadata holds the sampling parameters of a request.**  What is left out is
left out because no request needs it. -/
structure Serves (md : SamplingMetadata) (c : BatchConfig) (i : ℕ) (params : SamplingParams) :
    Prop where
  temperature : InColumn md.temperature i (c.sampledRowOf params).temperature
    (params.samplingType = .greedy)
  topP : InColumn md.topP i (c.sampledRowOf params).topP (¬params.topP < 1)
  topK : InColumn md.topK i (c.sampledRowOf params).topK
    (¬(0 < params.topK ∧ params.topK < c.vocabSize))
  frequency : InColumn (md.penaltyColumn md.frequencyPenalties) i
    (c.sampledRowOf params).frequencyPenalty (params.frequencyPenalty = 0)
  presence : InColumn (md.penaltyColumn md.presencePenalties) i
    (c.sampledRowOf params).presencePenalty (params.presencePenalty = 0)
  repetition : InColumn (md.penaltyColumn md.repetitionPenalties) i
    (c.sampledRowOf params).repetitionPenalty (params.repetitionPenalty = 1)

end SamplingMetadata

namespace InputBatch

variable {β τ : Type} {b b' : InputBatch β τ} {md : SamplingMetadata} {id : ReqId} {i j : ℕ}

/-- The first rows of an array. -/
def rows {α : Type} (b : InputBatch β τ) (a : ℕ → α) : List α := (List.range b.numReqs).map a

/-- The metadata is what the rows and the sets say. -/
structure Matches (md : SamplingMetadata) (b : InputBatch β τ) : Prop where
  temperature : md.temperature = if b.allGreedy then none else some (b.rows b.temperatureCpu)
  topP : md.topP = if b.noTopP then none else some (b.rows b.topPCpu)
  topK : md.topK = if b.noTopK then none else some (b.rows b.topKCpu)
  frequency : md.penaltyColumn md.frequencyPenalties =
    if b.noPenalties then none else some (b.rows b.frequencyPenaltiesCpu)
  presence : md.penaltyColumn md.presencePenalties =
    if b.noPenalties then none else some (b.rows b.presencePenaltiesCpu)
  repetition : md.penaltyColumn md.repetitionPenalties =
    if b.noPenalties then none else some (b.rows b.repetitionPenaltiesCpu)

/-- What is copied of the first rows is what is read of them. -/
theorem map_copySlice {α : Type} (source target : ℕ → α) (n : ℕ) :
    (List.range n).map (copySlice source target n) = (List.range n).map source :=
  List.map_congr_left fun _ hi => if_pos (List.mem_range.mp hi)

/-- **`_make_sampling_metadata` says what the rows say.** -/
theorem makeSamplingMetadata_matches (hok : b.makeSamplingMetadata = .ok (b', md)) :
    Matches md b := by
  have hcopy : ∀ {α : Type} {c : Prop} [Decidable c] (source target : ℕ → α), ¬c →
      (List.range b.numReqs).map
        (if decide (¬c) then copySlice source target b.numReqs else target) = b.rows source := by
    intro α c _ source target hc
    rw [if_pos (decide_eq_true hc), map_copySlice, rows]
  unfold makeSamplingMetadata at hok
  simp only at hok
  split at hok
  case' isFalse => split at hok
  case h_2 => contradiction
  all_goals
    cases hok
    constructor
    case temperature =>
      simp only
      split
      · rfl
      · next hne => rw [hcopy _ _ hne]
    case topP =>
      simp only
      split
      · rfl
      · next hne => rw [hcopy _ _ hne]
    case topK =>
      simp only
      split
      · rfl
      · next hne => rw [hcopy _ _ hne]
    case frequency =>
      simp only [SamplingMetadata.penaltyColumn, decide_eq_true_eq]
      split
      · rfl
      · rw [map_copySlice]
        rfl
    case presence =>
      simp only [SamplingMetadata.penaltyColumn, decide_eq_true_eq]
      split
      · rfl
      · rw [map_copySlice]
        rfl
    case repetition =>
      simp only [SamplingMetadata.penaltyColumn, decide_eq_true_eq]
      split
      · rfl
      · rw [map_copySlice]
        rfl

theorem getElem?_rows {α : Type} (a : ℕ → α) (hi : i < b.numReqs) : (b.rows a)[i]? = some (a i) := by
  rw [rows, List.getElem?_map, List.getElem?_range hi, Option.map_some]

/-! ## What an operation does to it -/

section Synced

variable [BatchUpdateBuilder β]

/-- **Something changed since the metadata was made, or the metadata is what the rows say.** -/
def Synced (b : InputBatch β τ) : Prop :=
  Changed b.batchUpdateBuilder ∨ (holes b.reqIds = ∅ ∧ Matches b.samplingMetadata b)

theorem Initial.synced (h : b.Initial) : b.Synced := by
  obtain ⟨b', hmake⟩ := h.samplingMetadata
  exact Or.inr ⟨by rw [h.reqIds, holes_nil], makeSamplingMetadata_matches hmake⟩

variable [MultiGroupBlockTable τ]

/-- A write is in none of the arrays that are copied. -/
theorem Synced.write (h : b.Synced) (i : ℕ) (w : RowWrite) : (b.write i w).Synced := by
  obtain hchanged | ⟨hholes, hm⟩ := h
  · left
    rwa [(b.write_eq i w).2.2.2.2]
  · right
    rw [(b.write_eq i w).2.2.1]
    refine ⟨hholes, ?_⟩
    cases w <;> exact ⟨hm.temperature, hm.topP, hm.topK, hm.frequency,
      hm.presence, hm.repetition⟩

omit [MultiGroupBlockTable τ] in
theorem Synced.removeRequest (hlayout : Layout b) (htracked : Tracked b)
    (hunread : Unread b.batchUpdateBuilder) (h : b.Synced) (hok : b.removeRequest id = .ok b') :
    b'.Synced := by
  cases hid : b.reqIdToIndex.lookup id with
  | none =>
    simp only [InputBatch.removeRequest, hid] at hok
    cases hok
    exact h
  | some i =>
    obtain ⟨_, _, _, rfl, _, _, _, hchanged⟩ :=
      removeRequest_eq_ok hlayout htracked hunread hid hok
    exact Or.inl hchanged

/-- With no free row there is nothing to condense. -/
theorem condense_of_noHoles (hlayout : Layout b) (htracked : Tracked b)
    (hnone : holes b.reqIds = ∅) :
    b.condense = .ok { b with batchUpdateBuilder := (removed b.batchUpdateBuilder).2 } := by
  have hempty : (removed b.batchUpdateBuilder).1 = [] := by
    rw [removed_eq, htracked, hnone, Finset.sort_empty]
  unfold condense
  simp only
  rw [if_neg (by simp [hlayout.autoregressive]), if_pos hempty]

theorem Synced.condense (hlayout : Layout b) (htracked : Tracked b) (h : b.Synced)
    (hok : b.condense = .ok b') : b'.Synced := by
  obtain hchanged | ⟨hholes, hm⟩ := h
  · obtain ⟨b'', hok', hcondensed⟩ :=
      condense_returns hlayout htracked (moves_seen b) ⟨rfl, rfl, rfl⟩
    cases hok.symm.trans hok'
    exact Or.inl (hcondensed.changed hchanged)
  · cases hok.symm.trans (condense_of_noHoles hlayout htracked hholes)
    exact Or.inr ⟨hholes, hm.temperature, hm.topP, hm.topK, hm.frequency,
      hm.presence, hm.repetition⟩

omit [MultiGroupBlockTable τ] in
/-- **After `refresh_metadata` the metadata is what the rows say.** -/
theorem Synced.refreshMetadata (hlayout : Layout b) (h : b.Synced)
    (hok : b.refreshMetadata = .ok b') : Matches b'.samplingMetadata b' := by
  obtain ⟨builder, t, p, k, f, pr, rp, mask, md, rfl, _, _, _, ⟨hsame, rfl⟩ | ⟨b₁, b₂, hmake, rfl⟩⟩ :=
    refreshMetadata_eq_ok hlayout hok
  · obtain hchanged | ⟨_, hm⟩ := h
    · exact absurd hchanged hsame
    · exact ⟨hm.temperature, hm.topP, hm.topK, hm.frequency, hm.presence,
        hm.repetition⟩
  · have hm := makeSamplingMetadata_matches hmake
    exact ⟨hm.temperature, hm.topP, hm.topK, hm.frequency, hm.presence,
      hm.repetition⟩

end Synced

/-! ## What it comes to -/

/-- The metadata cannot tell the parameters of two requests apart: `top_p` is in it only if some
request of the batch has one below 1. -/
structure Alike (b : InputBatch β τ) (p p' : SamplingParams) : Prop where
  temperature : (b.sampledRowOf p).temperature = (b.sampledRowOf p').temperature
  topP : b.noTopP ∨ (b.sampledRowOf p).topP = (b.sampledRowOf p').topP
  topK : (b.sampledRowOf p).topK = (b.sampledRowOf p').topK
  frequency : (b.sampledRowOf p).frequencyPenalty = (b.sampledRowOf p').frequencyPenalty
  presence : (b.sampledRowOf p).presencePenalty = (b.sampledRowOf p').presencePenalty
  repetition : (b.sampledRowOf p).repetitionPenalty = (b.sampledRowOf p').repetitionPenalty

/-- A row that serves one request serves another one if and only if they are alike. -/
theorem Matches.serves_iff_alike (hm : Matches md b) {p p' : SamplingParams}
    (h : md.Serves b.toBatchConfig i p) (h' : md.Serves b.toBatchConfig j p') :
    md.Serves b.toBatchConfig i p' ↔ b.Alike p p' := by
  have hgreedy : ∀ {q : SamplingParams}, q.samplingType = .greedy →
      (b.sampledRowOf q).temperature = -1 := fun hq => if_pos hq
  have hvocab : ∀ {q : SamplingParams}, ¬(0 < q.topK ∧ q.topK < b.vocabSize) →
      (b.sampledRowOf q).topK = b.vocabSize := fun hq => if_neg hq
  have hnoTopP : md.topP = none ↔ b.noTopP := by
    rw [hm.topP, ite_eq_left_iff]
    simp
  have htemperature := h.temperature.iff_eq h'.temperature hgreedy hgreedy
  have htopP := h.topP.iff h'.topP
  rw [hnoTopP] at htopP
  have htopK := h.topK.iff_eq h'.topK hvocab hvocab
  have hfrequency := h.frequency.iff_eq h'.frequency (congrArg b.float32) (congrArg b.float32)
  have hpresence := h.presence.iff_eq h'.presence (congrArg b.float32) (congrArg b.float32)
  have hrepetition := h.repetition.iff_eq h'.repetition (congrArg b.float32) (congrArg b.float32)
  constructor
  · rintro ⟨h₁, h₂, h₃, h₄, h₅, h₆⟩
    exact ⟨htemperature.mp h₁, htopP.mp h₂, htopK.mp h₃, hfrequency.mp h₄, hpresence.mp h₅,
      hrepetition.mp h₆⟩
  · rintro ⟨h₁, h₂, h₃, h₄, h₅, h₆⟩
    exact ⟨htemperature.mpr h₁, htopP.mpr h₂, htopK.mpr h₃, hfrequency.mpr h₄, hpresence.mpr h₅,
      hrepetition.mpr h₆⟩

end InputBatch

namespace PersistentBatch

variable {β τ : Type} [BatchUpdateBuilder β] [MultiGroupBlockTable τ] {s : PersistentBatch β τ}
  {md : SamplingMetadata} {id : ReqId} {r : FullRequestState} {params : SamplingParams} {i : ℕ}

/-- **Metadata that is what the rows say serves every request in its row.** -/
theorem Holds.serves (h : s.Holds) (hm : InputBatch.Matches md s.batch) (hi : i < s.batch.numReqs)
    (hid : s.batch.reqIdToIndex.lookup id = some i) (hr : s.requests id = some r)
    (hparams : r.samplingParams = some params) : md.Serves s.batch.toBatchConfig i params := by
  obtain ⟨r', params', hr', hparams', hrow, _⟩ := h.exists_request hid
  cases hr.symm.trans hr'
  cases hparams.symm.trans hparams'
  have hmember : ∀ set : ReqSet, s.batch.members set = ∅ → ¬set.Has s.batch.toBatchConfig params :=
    fun set hempty hhas => by
      have hmem := (h.members set id).mpr ⟨r, params, hr, hparams, hhas⟩
      rw [hempty] at hmem
      exact Finset.notMem_empty id hmem
  -- a column that is copied holds what is in the row
  have hcolumn : ∀ {α : Type} {c P : Prop} [Decidable c] (a : ℕ → α) {x : α}, (c → P) → a i = x →
      InColumn (if c then none else some (s.batch.rows a)) i x P := by
    intro α c P _ a x hP hx
    split
    · next hc => exact hP hc
    · exact (InputBatch.getElem?_rows a hi).trans (congrArg some hx)
  constructor
  case temperature =>
    rw [hm.temperature]
    exact hcolumn _ (fun hc => not_not.mp (hmember .random hc)) (congrArg (·.temperature) hrow)
  case topP =>
    rw [hm.topP]
    exact hcolumn _ (hmember .topP) (congrArg (·.topP) hrow)
  case topK =>
    rw [hm.topK]
    exact hcolumn _ (hmember .topK) (congrArg (·.topK) hrow)
  case frequency =>
    rw [hm.frequency]
    exact hcolumn _ (fun hc => not_not.mp (hmember .frequencyPenalties hc.2.1))
      (congrArg (·.frequencyPenalty) hrow)
  case presence =>
    rw [hm.presence]
    exact hcolumn _ (fun hc => not_not.mp (hmember .presencePenalties hc.1))
      (congrArg (·.presencePenalty) hrow)
  case repetition =>
    rw [hm.repetition]
    exact hcolumn _ (fun hc => not_not.mp (hmember .repetitionPenalties hc.2.2))
      (congrArg (·.repetitionPenalty) hrow)

end PersistentBatch

end VllmAscend
