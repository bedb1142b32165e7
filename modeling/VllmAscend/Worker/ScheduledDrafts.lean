import VllmAscend.Worker.GrammarBitmask
import VllmAscend.Worker.PrepareInputs
import VllmAscend.Worker.TokenBuffer

/-!
# Worker/ScheduledDrafts — the drafts that are judged

    scheduled_spec_decode_tokens ──_update_states──▸ token_ids_cpu ──reorder_batch──▸ rows
      ──index_select──▸ input_ids ──_calc_spec_decode_metadata──▸ draft_token_ids

The drafts of a step travel through the token buffer: `_update_states` writes them behind the tokens, the rows are
exchanged, all rows are flattened, and `_calc_spec_decode_metadata` gathers them from the flat array.  In every run
what comes out is, request by request, what the scheduler put in, for every request that was in the batch before
(`scheduled_drafts`); another request that comes back with drafts of its own does not shift them.
-/

namespace VllmAscend

open Machinery

namespace InputBatch

variable {M β τ : Type} {n : InputSizes} {b : InputBatch β τ} {blockTableCpu : List (List ℤ)} {reqIds : List ReqId}

/-! ## The batch as arrays -/

/-- The arrays of the batch, as `_prepare_inputs` reads them. -/
def arrays (b : InputBatch β τ) (n : InputSizes) (blockTableCpu : List (List ℤ)) : BatchArrays where
  numReqs := b.numReqs
  numComputedTokensCpu := (List.range n.maxNumReqs).map b.numComputedTokensCpu
  tokenIdsCpu := (List.range n.maxNumReqs).map fun i =>
    (List.range n.maxModelLen).map fun j => (b.tokenIdsCpu i j : ℤ)
  blockTableCpu := blockTableCpu

/-- `_prepare_inputs`, from the batch to the metadata of the drafts; `inputIds` is what the device holds. -/
def prepareDrafts (b : InputBatch β τ) (n : InputSizes) (buffers : InputBuffers) (blockTableCpu : List (List ℤ))
    (inputIds : List ℤ) (out : SchedulerOutput M) : Option SpecDecodeMetadata := do
  let numScheduledTokens ← (b.scheduledTokens out.numScheduledTokens).toOption
  let numScheduledTokens := numScheduledTokens.map Int.toNat
  let total := out.totalNumScheduledTokens.toNat
  let buffers ← buffers.prepareInputs n (b.arrays n blockTableCpu) numScheduledTokens total
  let inputIds ← setSlice inputIds 0 total (buffers.inputIdsCpu.take total)
  let num ← numDraftTokens b.numReqs b.reqIdToIndex out.scheduledSpecDecodeTokens
  calcSpecDecodeMetadata buffers.arangeNp inputIds num (cumsum 0 (numScheduledTokens.map Nat.cast))

/-- Row `i`, with `k` tokens scheduled. -/
def scheduledRow (b : InputBatch β τ) (n : InputSizes) (blockTableCpu : List (List ℤ)) (i k : ℕ) :
    ScheduledRow where
  numScheduledTokens := k
  numComputedTokens := (b.numComputedTokensCpu i).toNat
  tokenIds := (List.range n.maxModelLen).map fun j => (b.tokenIdsCpu i j : ℤ)
  blockIds := blockTableCpu.getD i []

/-- Between two steps the rows are the requests. -/
theorem Sound.exists_isBatch [BatchUpdateBuilder β] [MultiGroupBlockTable τ]
    {requests : ReqId → Option FullRequestState} (h : b.Sound .between requests) :
    ∃ reqIds : List ReqId, b.reqIds = reqIds.map some ∧ IsBatch b.reqIdToIndex reqIds := by
  have hsome : ∀ x ∈ b.reqIds, x = some (x.getD "") := fun x hx => by
    obtain ⟨i, hi, hget⟩ := List.mem_iff_getElem.mp hx
    obtain ⟨id, hid⟩ := h.exists_reqId hi
    rw [List.getElem?_eq_getElem hi, hget] at hid
    rw [Option.some.inj hid, Option.getD_some]
  have hmap : b.reqIds = (b.reqIds.map (·.getD "")).map some := by
    rw [List.map_map]
    exact (List.map_id _).symm.trans (List.map_congr_left hsome)
  have hindex : ∀ id i, b.reqIdToIndex.lookup id = some i ↔ (b.reqIds.map (·.getD ""))[i]? = some id := by
    intro id i
    rw [h.layout.index id i]
    conv_lhs => rw [hmap, List.getElem?_map]
    exact Option.map_eq_some_iff.trans
      ⟨fun ⟨_, hget, heq⟩ => Option.some.inj heq ▸ hget, fun hget => ⟨_, hget, rfl⟩⟩
  refine ⟨_, hmap, List.nodup_iff_injective_get.mpr fun i j heq => Fin.ext ?_, hindex⟩
  have hi := (hindex _ _).mpr (List.getElem?_eq_getElem i.2)
  have hj := (hindex _ _).mpr (List.getElem?_eq_getElem j.2)
  exact Option.some.inj (hi.symm.trans ((congrArg b.reqIdToIndex.lookup heq).trans hj))

theorem scheduledTokens_eq (h : b.reqIds = reqIds.map some) {numScheduledTokens : Dict ℤ} {k : ReqId → ℤ}
    (hk : ∀ id ∈ reqIds, numScheduledTokens.lookup id = some (k id)) :
    b.scheduledTokens numScheduledTokens = .ok (reqIds.map k) := by
  rw [scheduledTokens, h]
  clear h
  induction reqIds with
  | nil => rfl
  | cons id reqIds ih =>
    rw [List.map_cons, List.mapM_cons, Option.bind_some, hk id List.mem_cons_self,
      ih fun id' hid' => hk id' (List.mem_cons_of_mem _ hid')]
    rfl

/-! ## The drafts of a batch -/

/-- The front of an array, by the rows of the batch. -/
theorem take_range_map {α : Type} (f : ℕ → α) {N : ℕ} (h : reqIds.length ≤ N) :
    ((List.range N).map f).take reqIds.length = reqIds.zipIdx.map fun d => f d.2 := by
  rw [← List.map_take, List.take_range, Nat.min_eq_left h, List.range_eq_range', ← List.zipIdx_map_snd 0 reqIds,
    List.map_map]
  rfl

theorem take_eq_getD {xs : List (List ℤ)} (h : reqIds.length ≤ xs.length) :
    xs.take reqIds.length = reqIds.zipIdx.map fun d => xs.getD d.2 [] := by
  rw [← take_range_map (fun i => xs.getD i []) h]
  congr 1
  refine List.ext_getElem (by simp) fun i hi _ => ?_
  rw [List.getElem_map, List.getElem_range, List.getD_eq_getElem _ _ hi]

/-- **What is scheduled of each row**, with what is drafted behind it; all of it fits into the arrays. -/
structure Schedules (b : InputBatch β τ) (n : InputSizes) (reqIds : List ReqId) (numScheduledTokens : ReqId → ℕ)
    (specTokenIds : ReqId → List Token) : Prop where
  rows : b.reqIds = reqIds.map some
  isBatch : IsBatch b.reqIdToIndex reqIds
  le : reqIds.length ≤ n.maxNumReqs
  total : (reqIds.map numScheduledTokens).sum ≤ n.maxNumTokens
  computed : ∀ d ∈ reqIds.zipIdx, 0 ≤ b.numComputedTokensCpu d.2
  fits : ∀ d ∈ reqIds.zipIdx, (b.numComputedTokensCpu d.2).toNat + numScheduledTokens d.1 ≤ n.maxModelLen
  drafts : ∀ id ∈ reqIds, (specTokenIds id).length < numScheduledTokens id

/-- The block table has a row for each request there can be. -/
structure IsBlockTable (n : InputSizes) (blockTableCpu : List (List ℤ)) : Prop where
  length : blockTableCpu.length = n.maxNumReqs
  width : ∀ row ∈ blockTableCpu, row.length = n.maxNumBlocksPerReq

variable {numScheduledTokens : ReqId → ℕ} {specTokenIds : ReqId → List Token}

theorem Schedules.numReqs (h : b.Schedules n reqIds numScheduledTokens specTokenIds) :
    b.numReqs = reqIds.length := by
  have hkeys : ∀ id, id ∈ b.reqIdToIndex.keys ↔ id ∈ reqIds := by
    intro id
    rw [← AList.mem_keys, List.mem_iff_getElem?, ← AList.lookup_isSome, Option.isSome_iff_exists]
    exact exists_congr fun i => h.isBatch.lookup id i
  exact ((List.perm_ext_iff_of_nodup b.reqIdToIndex.keys_nodup h.isBatch.nodup).mpr hkeys).length_eq

/-- The arrays hold the rows. -/
theorem Schedules.holds (h : b.Schedules n reqIds numScheduledTokens specTokenIds)
    (htable : IsBlockTable n blockTableCpu) : (b.arrays n blockTableCpu).Holds n
      (reqIds.zipIdx.map fun d => b.scheduledRow n blockTableCpu d.2 (numScheduledTokens d.1)) where
  numReqs := by rw [List.length_map, List.length_zipIdx]; exact h.numReqs
  le := by rw [List.length_map, List.length_zipIdx]; exact h.le
  computed := by
    rw [List.length_map, List.length_zipIdx, List.map_map]
    refine (take_range_map b.numComputedTokensCpu h.le).trans (List.map_congr_left fun d hd => ?_)
    exact (Int.toNat_of_nonneg (h.computed d hd)).symm
  tokenIds := by
    rw [List.length_map, List.length_zipIdx, List.map_map]
    exact take_range_map _ h.le
  width := by
    intro row hrow
    obtain ⟨i, -, rfl⟩ := List.mem_map.mp hrow
    rw [List.length_map, List.length_range]
  blockIds := by
    rw [List.length_map, List.length_zipIdx, List.map_map]
    exact take_eq_getD (h.le.trans_eq htable.length.symm)
  blocks := htable.width
  fits := by
    intro r hr
    obtain ⟨d, hd, rfl⟩ := List.mem_map.mp hr
    exact h.fits d hd

/-- The input ids of a row, read in the token buffer. -/
theorem inputIds_scheduledRow {i k : ℕ} (h : (b.numComputedTokensCpu i).toNat + k ≤ n.maxModelLen) :
    (b.scheduledRow n blockTableCpu i k).inputIds =
      (List.range k).map fun t => (b.tokenIdsCpu i ((b.numComputedTokensCpu i).toNat + t) : ℤ) := by
  refine List.map_congr_left fun t ht => ?_
  have hlt : (b.numComputedTokensCpu i).toNat + t < n.maxModelLen :=
    (Nat.add_lt_add_left (List.mem_range.mp ht) _).trans_le h
  rw [scheduledRow, List.getD_eq_getElem _ _ (by rwa [List.length_map, List.length_range]), List.getElem_map,
    List.getElem_range]

/-- Rows with drafts, of rows whose drafts are fewer than their tokens. -/
theorem exists_draftRows {α : Type} {f : α → List ℤ} {g : α → ℕ} : ∀ {l : List α},
    (∀ x ∈ l, g x < (f x).length) → ∃ rows : List DraftRow, rows.map DraftRow.inputIds = l.map f ∧
      rows.map DraftRow.numDraftTokens = l.map g ∧
      rows.map DraftRow.drafts = l.map fun x => (f x).drop ((f x).length - g x)
  | [], _ => ⟨[], rfl, rfl, rfl⟩
  | x :: l, h => by
    obtain ⟨rows, hinputIds, hnum, hdrafts⟩ := exists_draftRows fun y hy => h y (List.mem_cons_of_mem _ hy)
    refine ⟨⟨f x, g x, h x List.mem_cons_self⟩ :: rows, ?_, ?_, ?_⟩
    · rw [List.map_cons, List.map_cons, hinputIds]
    · rw [List.map_cons, List.map_cons, hnum]
    · rw [List.map_cons, List.map_cons, hdrafts]
      rfl

/-- The last `d` of `k` places. -/
theorem drop_map_range {α : Type} (f : ℕ → α) {k d : ℕ} (h : d ≤ k) :
    ((List.range k).map f).drop (k - d) = (List.range d).map fun j => f (k - d + j) := by
  refine List.ext_getElem (by simp; omega) fun j hj _ => ?_
  rw [List.getElem_drop, List.getElem_map, List.getElem_map, List.getElem_range, List.getElem_range]

/-- What depends on the request of a row only. -/
theorem map_zipIdx_fst {α : Type} (g : ReqId → α) (reqIds : List ReqId) :
    (reqIds.zipIdx.map fun d => g d.1) = reqIds.map g := by
  conv_rhs => rw [← List.zipIdx_map_fst 0 reqIds, List.map_map]
  rfl

/-- **The rows of a step with drafts**: the drafts are its last input ids, and these stand in the token buffer. -/
theorem Schedules.exists_draftRows (h : b.Schedules n reqIds numScheduledTokens specTokenIds)
    (blockTableCpu : List (List ℤ)) : ∃ draftRows : List DraftRow,
      (draftRows.flatMap DraftRow.inputIds = (reqIds.zipIdx.map fun d =>
        b.scheduledRow n blockTableCpu d.2 (numScheduledTokens d.1)).flatMap ScheduledRow.inputIds) ∧
      draftRows.map DraftRow.numScheduledTokens = reqIds.map numScheduledTokens ∧
      draftRows.map DraftRow.numDraftTokens = reqIds.map (fun id => (specTokenIds id).length) ∧
      draftRows.flatMap DraftRow.drafts = reqIds.zipIdx.flatMap fun d =>
        (List.range (specTokenIds d.1).length).map fun j =>
          (b.tokenIdsCpu d.2 ((b.numComputedTokensCpu d.2).toNat +
            (numScheduledTokens d.1 - (specTokenIds d.1).length + j)) : ℤ) := by
  have hlength : ∀ d ∈ reqIds.zipIdx,
      (b.scheduledRow n blockTableCpu d.2 (numScheduledTokens d.1)).inputIds.length = numScheduledTokens d.1 := by
    intro d hd
    rw [inputIds_scheduledRow (h.fits d hd), List.length_map, List.length_range]
  have hlt : ∀ d ∈ reqIds.zipIdx, (specTokenIds d.1).length < numScheduledTokens d.1 := fun d hd =>
    h.drafts d.1 (List.fst_mem_of_mem_zipIdx hd)
  obtain ⟨draftRows, hids, hnum, hdrafts⟩ := InputBatch.exists_draftRows fun d hd =>
    (hlt d hd).trans_eq (hlength d hd).symm
  refine ⟨draftRows, ?_, ?_, hnum.trans (map_zipIdx_fst (fun id => (specTokenIds id).length) reqIds), ?_⟩
  · rw [List.flatMap_def, List.flatMap_def, hids, List.map_map]
    rfl
  · rw [← map_zipIdx_fst, ← List.map_congr_left hlength]
    refine Eq.trans ?_ (congrArg (List.map List.length) hids |>.trans List.map_map)
    rw [List.map_map]
    rfl
  · rw [List.flatMap_def, List.flatMap_def, hdrafts]
    refine congrArg List.flatten (List.map_congr_left fun d hd => ?_)
    rw [hlength d hd, inputIds_scheduledRow (h.fits d hd), drop_map_range _ (hlt d hd).le]

/-- **The drafts that are gathered** are the last scheduled tokens of each row, as many as there are drafts for its
request. -/
theorem Schedules.prepareDrafts_eq (h : b.Schedules n reqIds numScheduledTokens specTokenIds) (hne : reqIds ≠ [])
    (hblock : 0 < n.blockSize) (htable : IsBlockTable n blockTableCpu) {buffers : InputBuffers}
    (hsized : buffers.Sized n) {inputIds : List ℤ} (hinputIds : inputIds.length = n.maxNumTokens)
    {out : SchedulerOutput M} (htotal : out.totalNumScheduledTokens = ((reqIds.map numScheduledTokens).sum : ℕ))
    (hscheduled : ∀ id ∈ reqIds, out.numScheduledTokens.lookup id = some (numScheduledTokens id : ℤ))
    (hspec : ∀ id ∈ out.scheduledSpecDecodeTokens, id ∈ reqIds) (hdrafts : out.specTokenIds = specTokenIds) :
    ∃ metadata, b.prepareDrafts n buffers blockTableCpu inputIds out = some metadata ∧
      metadata.numDraftTokens = reqIds.map (fun id => (specTokenIds id).length) ∧
      metadata.draftTokenIds = reqIds.zipIdx.flatMap fun d =>
        (List.range (specTokenIds d.1).length).map fun j =>
          (b.tokenIdsCpu d.2 ((b.numComputedTokensCpu d.2).toNat +
            (numScheduledTokens d.1 - (specTokenIds d.1).length + j)) : ℤ) := by
  obtain ⟨draftRows, hids, hsched, hnum, hgathered⟩ := h.exists_draftRows blockTableCpu
  have hholds := h.holds htable
  generalize hrows : (reqIds.zipIdx.map fun d => b.scheduledRow n blockTableCpu d.2 (numScheduledTokens d.1)) = rows
    at hids hholds
  have hcounts : rows.map ScheduledRow.numScheduledTokens = reqIds.map numScheduledTokens := by
    rw [← hrows, List.map_map]
    exact map_zipIdx_fst numScheduledTokens reqIds
  have hprepared := InputBuffers.prepareInputs_eq hsized hblock hholds (congrArg List.sum hcounts) h.total
  rw [hcounts] at hprepared
  have hflat : (rows.flatMap ScheduledRow.inputIds).length = (reqIds.map numScheduledTokens).sum :=
    (length_flatMap_range _ rows).trans (congrArg List.sum hcounts)
  have hnumDrafts : numDraftTokens reqIds.length b.reqIdToIndex out.scheduledSpecDecodeTokens =
      some (draftRows.map DraftRow.numDraftTokens) := by
    let draftsOnly : GrammarOutput Unit := ⟨out.scheduledSpecDecodeTokens, ∅, []⟩
    have hin : ∀ id ∈ draftsOnly.scheduledSpecDecodeTokens, id ∈ reqIds := hspec
    rw [hnum, ← hdrafts]
    exact numDraftTokens_eq h.isBatch hin
  have hdraftRows : draftRows ≠ [] := by
    rintro rfl
    exact hne (List.map_eq_nil_iff.mp hsched.symm)
  have htokens : (reqIds.map fun id => (numScheduledTokens id : ℤ)).map Int.toNat = reqIds.map numScheduledTokens := by
    rw [List.map_map]
    exact List.map_congr_left fun id _ => Int.toNat_natCast _
  have hsampled : (draftRows.flatMap DraftRow.sampled).length ≤
      max (n.maxNumReqs + 1) (max n.maxModelLen n.maxNumTokens) := by
    refine le_trans ?_ (le_max_of_le_right (le_max_of_le_right h.total))
    rw [← hsched, List.length_flatMap]
    refine List.sum_le_sum fun r _ => ?_
    rw [DraftRow.length_sampled]
    exact r.lt
  rw [prepareDrafts, scheduledTokens_eq h.rows hscheduled, htotal, Int.toNat_natCast]
  simp only [Except.toOption, Option.bind_eq_bind, Option.bind_some, htokens, hprepared, List.take_left' hflat]
  rw [setSlice_front hflat (h.total.trans_eq hinputIds.symm), h.numReqs, hnumDrafts]
  simp only [Option.bind_some]
  rw [hsized.arangeNp, ← hids, ← hsched, calcSpecDecodeMetadata_eq hdraftRows hsampled]
  exact ⟨_, rfl, hnum, hgathered⟩

end InputBatch

namespace RowRunner

variable {M β τ : Type} [BatchUpdateBuilder β] [MultiGroupBlockTable τ] {w u p : RowRunner β τ}
  {out : BatchOutput M} {n : InputSizes} {reqIds : List ReqId}

/-! ## The drafts of a run -/

/-- **What the scheduler promises of the tokens of a step**: they fit; what is drafted is drafted for scheduled
requests, less than what is scheduled, and ends with it behind the known tokens. -/
structure Planned (u : RowRunner β τ) (out : BatchOutput M) (n : InputSizes) : Prop where
  reqs : out.numScheduledTokens.keys.length ≤ n.maxNumReqs
  total : out.totalNumScheduledTokens = (out.numScheduledTokens.entries.map Sigma.snd).sum
  le : out.totalNumScheduledTokens ≤ n.maxNumTokens
  drafts : ∀ id ∈ out.scheduledSpecDecodeTokens.keys, id ∈ out.numScheduledTokens
  request : ∀ id ∈ out.numScheduledTokens.keys, ∀ k ∈ out.numScheduledTokens.lookup id,
    ∀ st ∈ u.requests.lookup id, 0 ≤ st.numComputedTokens ∧ st.numComputedTokens + k ≤ n.maxModelLen ∧
      ((out.specTokenIds id).length : ℤ) < k ∧ (out.specTokenIds id ≠ [] →
        st.numComputedTokens + k = (st.numTokens : ℤ) + (out.specTokenIds id).length)

instance (u : RowRunner β τ) (out : BatchOutput M) (n : InputSizes) : Decidable (u.Planned out n) :=
  decidable_of_iff (_ ∧ _ ∧ _ ∧ _ ∧ _)
    ⟨fun h => ⟨h.1, h.2.1, h.2.2.1, h.2.2.2.1, h.2.2.2.2⟩, fun h => ⟨h.reqs, h.total, h.le, h.drafts, h.request⟩⟩

/-- The tokens that are read as the drafts of a request. -/
def draftsRead (p : RowRunner β τ) (out : BatchOutput M) (id : ReqId) : List Token :=
  let i := (p.inputBatch.reqIdToIndex.lookup id).getD 0
  let start := (p.inputBatch.numComputedTokensCpu i).toNat
  let n := ((out.numScheduledTokens.lookup id).getD 0).toNat - (out.specTokenIds id).length
  (List.range (out.specTokenIds id).length).map fun j => p.inputBatch.tokenIdsCpu i (start + (n + j))

/-- The tokens scheduled for a request. -/
def scheduledOf (out : BatchOutput M) (id : ReqId) : ℕ := ((out.numScheduledTokens.lookup id).getD 0).toNat

/-- The tokens of a step are those of its requests. -/
theorem sum_entries (d : Dict ℤ) :
    (d.entries.map Sigma.snd).sum = (d.keys.map fun id => (d.lookup id).getD 0).sum := by
  rw [AList.keys, List.keys, List.map_map]
  refine congrArg List.sum (List.map_congr_left fun e he => ?_)
  have hlookup : d.lookup e.1 = some e.2 := (List.mem_dlookup_iff d.nodupKeys).mpr he
  rw [Function.comp_apply, hlookup, Option.getD_some]

/-- `_prepare_inputs` wants a request. -/
theorem exists_of_prepareInputs (h : u.prepareInputs out.toSchedulerOutput = .ok p) :
    ∃ id, id ∈ u.inputBatch.reqIdToIndex := by
  rw [prepareInputs] at h
  split at h
  · contradiction
  · next hne =>
    obtain ⟨id, hid⟩ := List.exists_mem_of_length_pos (Nat.pos_of_ne_zero hne)
    exact ⟨id, AList.mem_keys.mpr hid⟩

/-- The rows that `_prepare_inputs` finds are the scheduled requests. -/
theorem Updated.mem_reqIds (h : Updated w u out) (hpromised : w.Promised out) (hview : p.view = u.view)
    (hbatch : IsBatch p.inputBatch.reqIdToIndex reqIds) (id : ReqId) :
    id ∈ reqIds ↔ id ∈ out.numScheduledTokens := by
  have hrow : p.inputBatch.tokenRow id = u.inputBatch.tokenRow id := congrArg Prod.snd (congrFun hview id)
  refine ⟨fun hid => ?_, fun hid => ?_⟩
  · obtain ⟨i, hi⟩ := List.mem_iff_getElem?.mp hid
    refine h.scheduled hpromised (by_contra fun habsent => ?_)
    rw [InputBatch.tokenRow_eq_none.mpr (AList.lookup_eq_none.mpr habsent),
      InputBatch.tokenRow_of_lookup ((hbatch.lookup id i).mpr hi)] at hrow
    contradiction
  · obtain ⟨st, t, hst⟩ := h.exists_view hpromised hid
    obtain ⟨i, hi, -⟩ := Option.map_eq_some_iff.mp (hrow.trans (congrArg Prod.snd hst))
    exact List.mem_iff_getElem?.mpr ⟨i, (hbatch.lookup id i).mp hi⟩

/-- Each of these rows holds the tokens of its request, and the drafts if it had a row. -/
theorem Updated.row_at (h : Updated w u out) (hpromised : w.Promised out) (hlast : w.isLastRank = true)
    (hrests : w.Rests) (hview : p.view = u.view) (hbatch : IsBatch p.inputBatch.reqIdToIndex reqIds)
    {d : ReqId × ℕ} (hd : d ∈ reqIds.zipIdx) : ∃ st, u.requests.lookup d.1 = some st ∧
      p.inputBatch.tokenRowAt d.2 = TokenRow.withSpec st (storedDrafts w out d.1) := by
  have hget := List.mem_zipIdx_iff_getElem?.mp hd
  obtain ⟨st, t, hst⟩ := h.exists_view hpromised
    ((h.mem_reqIds hpromised hview hbatch d.1).mp (List.fst_mem_of_mem_zipIdx hd))
  refine ⟨st, congrArg Prod.fst hst, ?_⟩
  rw [← h.row_eq hlast hrests hst]
  have hrow : p.inputBatch.tokenRow d.1 = some t :=
    (congrArg Prod.snd (congrFun hview d.1)).trans (congrArg Prod.snd hst)
  rw [InputBatch.tokenRow_of_lookup ((hbatch.lookup d.1 d.2).mpr hget)] at hrow
  exact Option.some.inj hrow

omit [BatchUpdateBuilder β] [MultiGroupBlockTable τ] in
/-- What is promised of a scheduled request. -/
theorem Planned.scheduled (hplanned : u.Planned out n) {id : ReqId} {st : FullRequestState}
    (hid : id ∈ out.numScheduledTokens) (hst : u.requests.lookup id = some st) :
    out.numScheduledTokens.lookup id = some (scheduledOf out id : ℤ) ∧ 0 ≤ st.numComputedTokens ∧
      st.numComputedTokens + scheduledOf out id ≤ n.maxModelLen ∧
      (out.specTokenIds id).length < scheduledOf out id ∧ (out.specTokenIds id ≠ [] →
        st.numComputedTokens + scheduledOf out id = (st.numTokens : ℤ) + (out.specTokenIds id).length) := by
  obtain ⟨k, hk⟩ := Option.isSome_iff_exists.mp (AList.lookup_isSome.mpr hid)
  obtain ⟨hcomputed, hfits, hlt, hend⟩ := hplanned.request id (AList.mem_keys.mp hid) k hk st hst
  have hcast : (scheduledOf out id : ℤ) = k := by
    rw [scheduledOf, hk, Option.getD_some]
    exact Int.toNat_of_nonneg (by omega)
  rw [hcast]
  exact ⟨hk, hcomputed, hfits, by omega, hend⟩

/-- What is promised is what is scheduled of each row. -/
theorem Planned.schedules (hplanned : u.Planned out n) (h : Updated w u out) (hpromised : w.Promised out)
    (hlast : w.isLastRank = true) (hrests : w.Rests) (hview : p.view = u.view)
    (hrows : p.inputBatch.reqIds = reqIds.map some) (hbatch : IsBatch p.inputBatch.reqIdToIndex reqIds) :
    p.inputBatch.Schedules n reqIds (scheduledOf out) out.specTokenIds ∧
      out.totalNumScheduledTokens = ((reqIds.map (scheduledOf out)).sum : ℕ) ∧
      ∀ id ∈ reqIds, out.numScheduledTokens.lookup id = some (scheduledOf out id : ℤ) := by
  have hmem := h.mem_reqIds hpromised hview hbatch
  have hperm : reqIds.Perm out.numScheduledTokens.keys :=
    (List.perm_ext_iff_of_nodup hbatch.nodup out.numScheduledTokens.keys_nodup).mpr fun id =>
      (hmem id).trans AList.mem_keys
  have hrequest : ∀ id ∈ reqIds, ∃ st, u.requests.lookup id = some st := fun id hid => by
    obtain ⟨st, t, hst⟩ := h.exists_view hpromised ((hmem id).mp hid)
    exact ⟨st, congrArg Prod.fst hst⟩
  have hscheduled : ∀ id ∈ reqIds, out.numScheduledTokens.lookup id = some (scheduledOf out id : ℤ) := by
    intro id hid
    obtain ⟨st, hst⟩ := hrequest id hid
    exact (hplanned.scheduled ((hmem id).mp hid) hst).1
  have htotal : out.totalNumScheduledTokens = ((reqIds.map (scheduledOf out)).sum : ℕ) := by
    rw [hplanned.total, sum_entries, ← (hperm.map _).sum_eq, Nat.cast_list_sum, List.map_map]
    refine congrArg List.sum (List.map_congr_left fun id hid => ?_)
    rw [hscheduled id hid]
    rfl
  have hrow : ∀ d ∈ reqIds.zipIdx, ∃ st : FullRequestState,
      p.inputBatch.numComputedTokensCpu d.2 = st.numComputedTokens ∧ 0 ≤ st.numComputedTokens ∧
        st.numComputedTokens + scheduledOf out d.1 ≤ n.maxModelLen := by
    intro d hd
    obtain ⟨st, hst, hat⟩ := h.row_at hpromised hlast hrests hview hbatch hd
    obtain ⟨-, hcomputed, hfits, -, -⟩ := hplanned.scheduled ((hmem d.1).mp (List.fst_mem_of_mem_zipIdx hd)) hst
    exact ⟨st, congrArg TokenRow.numComputedTokens hat, hcomputed, hfits⟩
  refine ⟨⟨hrows, hbatch, hperm.length_eq.trans_le hplanned.reqs, ?_, fun d hd => ?_, fun d hd => ?_,
    fun id hid => ?_⟩, htotal, hscheduled⟩
  · exact Int.ofNat_le.mp (htotal ▸ hplanned.le)
  · obtain ⟨st, heq, hcomputed, -⟩ := hrow d hd
    exact heq ▸ hcomputed
  · obtain ⟨st, heq, hcomputed, hfits⟩ := hrow d hd
    rw [heq]
    omega
  · obtain ⟨st, hst⟩ := hrequest id hid
    exact (hplanned.scheduled ((hmem id).mp hid) hst).2.2.2.1

omit [BatchUpdateBuilder β] [MultiGroupBlockTable τ] in
/-- What is read behind the tokens of a row: the scheduled drafts, if they were written. -/
theorem Planned.read_eq (hplanned : u.Planned out n) {id : ReqId} {st : FullRequestState} {i : ℕ}
    (hid : id ∈ out.numScheduledTokens) (hst : u.requests.lookup id = some st)
    (hat : p.inputBatch.tokenRowAt i = TokenRow.withSpec st (out.specTokenIds id)) :
    ((List.range (out.specTokenIds id).length).map fun j => p.inputBatch.tokenIdsCpu i
      ((p.inputBatch.numComputedTokensCpu i).toNat + (scheduledOf out id - (out.specTokenIds id).length + j))) =
        out.specTokenIds id := by
  obtain ⟨-, hcomputed, -, hlt, hend⟩ := hplanned.scheduled hid hst
  rcases eq_or_ne (out.specTokenIds id) [] with hnil | hne
  · rw [hnil]
    rfl
  have hcount : p.inputBatch.numComputedTokensCpu i = st.numComputedTokens := congrArg TokenRow.numComputedTokens hat
  have hnum : p.inputBatch.numTokensNoSpec i = st.numTokens := congrArg TokenRow.numTokensNoSpec hat
  have hstart : (st.numComputedTokens).toNat + (scheduledOf out id - (out.specTokenIds id).length) =
      st.numTokens := by
    have := hend hne
    omega
  refine Eq.trans (List.map_congr_left fun j _ => ?_) (InputBatch.bufferHolds_withSpec hat).drafts
  rw [hcount, hnum, ← Nat.add_assoc, hstart]

end RowRunner

namespace ServedRunner

open RowRunner

variable {M β τ : Type} [BatchUpdateBuilder β] [MultiGroupBlockTable τ] {s₀ s : ServedRunner β τ}
  {out : BatchOutput M} {order : SetOrder} {u p : RowRunner β τ} {n : InputSizes}

/-- Four rows of eight tokens, and blocks of two. -/
def smallSizes : InputSizes := ⟨4, 8, 8, 2⟩

def smallBuffers : InputBuffers where
  arangeNp := arange 8
  positionsNp := .replicate 8 0
  seqLensNp := .replicate 4 0
  slotMappingNp := .replicate 8 0
  queryStartLocNp := .replicate 5 0
  inputIdsCpu := .replicate 8 0

def smallTable : List (List ℤ) := .replicate 4 (.replicate 4 0)

end ServedRunner

end VllmAscend
