import VllmAscend.Machinery.LastIndex
import VllmAscend.Worker.SpecDecodeMetadata

/-!
# Worker/GrammarBitmask — the bitmask of each request reaches its own logits

    batch rows     a      b (1 draft)     c          logits rows   0 │ 1 2 │ 3
    compacted      c │ a                             bitmask       0 │ 1
    applied        0 ← 1,  3 ← 0

The scheduler sends a bitmask for the structured requests only, in an order of its own.  The runner walks
over the batch for the row where the logits of each request begin, and over the scheduler's order for the
rows of its bitmask.  Every row of the logits is masked by its own bitmask row, or not at all
(`applyGrammarBitmask_eq`).
-/

namespace VllmAscend

open Machinery

/-- The fields of the scheduler's output that are read. -/
structure GrammarOutput (B : Type) where
  scheduledSpecDecodeTokens : Dict (List Token)
  structuredOutputRequestIds : Dict ℕ
  grammarBitmask : List B

variable {B L : Type}

/-- `len(scheduled_spec_decode_tokens.get(req_id, []))` -/
def GrammarOutput.numSpecTokens (out : GrammarOutput B) (reqId : ReqId) : ℕ :=
  ((out.scheduledSpecDecodeTokens.lookup reqId).getD []).length

/-- `sorted(d.items(), key=lambda x: x[1])` -/
def sortedItems (d : Dict ℕ) : List (ReqId × ℕ) :=
  (d.entries.map fun e => (e.1, e.2)).mergeSort fun a b => decide (a.2 ≤ b.2)

/-- One round of the loop over the batch: the cumulative offset, and the rows found so far. -/
def indexStep (out : GrammarOutput B) (s : ℕ × Dict ℕ) (row : ReqId × ℕ) : ℕ × Dict ℕ :=
  let logitIndex := row.2 + s.1
  (s.1 + out.numSpecTokens row.1,
    if row.1 ∈ out.structuredOutputRequestIds then s.2.insert row.1 logitIndex else s.2)

/-- `struct_out_req_batch_indices` -/
def structOutReqBatchIndices (out : GrammarOutput B) (reqIdToIndex : Dict ℕ) : Dict ℕ :=
  ((sortedItems reqIdToIndex).foldl (indexStep out) (0, ∅)).2

/-- The rows of one request, copied to where its logits are. -/
def copyRows (grammarBitmask : List B) (cumulativeIndex logitIndex n : ℕ) (s : List B × List ℕ) :
    Option (List B × List ℕ) :=
  (List.range n).foldlM (fun s i => do
    let row ← grammarBitmask[cumulativeIndex + i]?
    let sortedBitmask ← setItem s.1 (logitIndex + i : ℕ) row
    return (sortedBitmask, s.2 ++ [logitIndex + i])) s

/-- `sorted_bitmask` and `out_indices`; `zero` is a row of zeros. -/
def sortBitmask (out : GrammarOutput B) (zero : B) (reqIdToIndex : Dict ℕ) (numLogits : ℕ) :
    Option (List B × List ℕ) := do
  let indices := structOutReqBatchIndices out reqIdToIndex
  let s ← (sortedItems out.structuredOutputRequestIds).foldlM (fun (s : ℕ × List B × List ℕ) item => do
    let logitIndex ← indices.lookup item.1
    let numSpecTokens := out.numSpecTokens item.1
    let copied ← copyRows out.grammarBitmask s.1 logitIndex (1 + numSpecTokens) s.2
    return (s.1 + (1 + numSpecTokens), copied)) (0, List.replicate numLogits zero, [])
  return s.2

/-- `apply_token_bitmask_inplace`: at each of the indices, the row of the logits with the row of the
bitmask. -/
def applyTokenBitmaskInplace (mask : B → L → L) (logits : List L) (bitmask : List B)
    (indices : List ℕ) : Option (List L) :=
  indices.foldlM (fun logits (i : ℕ) => do
    let row ← bitmask[i]?
    modifyItem (fun x => some (mask row x)) logits i) logits

/-- `apply_grammar_bitmask` -/
def applyGrammarBitmask (mask : B → L → L) (zero : B) (out : GrammarOutput B) (reqIdToIndex : Dict ℕ)
    (logits : List L) : Option (List L) := do
  let (sortedBitmask, outIndices) ← sortBitmask out zero reqIdToIndex logits.length
  applyTokenBitmaskInplace mask logits sortedBitmask outIndices

/-- The rows of the logits: `logits_indices` of `_prepare_inputs`. -/
def logitsIndices (arangeNp inputIds : List ℤ) (reqIdToIndex : Dict ℕ)
    (scheduledSpecDecodeTokens : Dict (List Token)) (cuNumTokens : List ℤ) : Option (List ℤ) :=
  if scheduledSpecDecodeTokens.entries.length = 0 then some (cuNumTokens.map (· - 1))
  else do
    let num ← numDraftTokens cuNumTokens.length reqIdToIndex scheduledSpecDecodeTokens
    let metadata ← calcSpecDecodeMetadata arangeNp inputIds num cuNumTokens
    return metadata.logitsIndices

/-! ## The batch -/

/-- The rows of the batch, by their requests. -/
structure IsBatch (reqIdToIndex : Dict ℕ) (reqIds : List ReqId) : Prop where
  nodup : reqIds.Nodup
  lookup : ∀ id i, reqIdToIndex.lookup id = some i ↔ reqIds[i]? = some id

/-- An order of numbered requests: each once, by ascending numbers. -/
structure IsNumbering (numbers : Dict ℕ) (order : List ReqId) : Prop where
  mem : ∀ id, id ∈ order ↔ id ∈ numbers
  ascending : order.Pairwise fun a b => ∀ i j, numbers.lookup a = some i → numbers.lookup b = some j → i < j

/-- The number of rows that a request has in the logits. -/
def GrammarOutput.size (out : GrammarOutput B) (reqId : ReqId) : ℕ := 1 + out.numSpecTokens reqId

/-! ## The two orders -/

theorem mem_items {d : Dict ℕ} {item : ReqId × ℕ} :
    item ∈ d.entries.map (fun e => (e.1, e.2)) ↔ d.lookup item.1 = some item.2 := by
  rw [AList.lookup, ← Option.mem_def, List.mem_dlookup_iff d.nodupKeys, List.mem_map]
  constructor
  · rintro ⟨e, he, rfl⟩
    exact he
  · exact fun h => ⟨⟨item.1, item.2⟩, h, rfl⟩

theorem nodup_items (d : Dict ℕ) : (d.entries.map fun e => (e.1, e.2)).Nodup := by
  refine List.Nodup.of_map Prod.fst ?_
  rw [List.map_map]
  exact d.nodupKeys

/-- **The items, sorted by their values**, when these are all different. -/
theorem sortedItems_eq {d : Dict ℕ} {items : List (ReqId × ℕ)}
    (hmem : ∀ item, item ∈ items ↔ d.lookup item.1 = some item.2)
    (hsorted : items.Pairwise fun a b => a.2 < b.2) : sortedItems d = items := by
  refine mergeSort_eq_of_perm ((List.perm_ext_iff_of_nodup (nodup_items d) ?_).mpr fun item => ?_) hsorted
  · exact hsorted.imp fun hlt heq => absurd (congrArg Prod.snd heq) hlt.ne
  · rw [mem_items, hmem]

/-- The batch, in the order of its rows. -/
theorem IsBatch.sortedItems_eq {reqIdToIndex : Dict ℕ} {reqIds : List ReqId}
    (h : IsBatch reqIdToIndex reqIds) : sortedItems reqIdToIndex = reqIds.zipIdx := by
  refine VllmAscend.sortedItems_eq (fun item => ?_) ?_
  · rw [h.lookup, List.mem_zipIdx_iff_getElem?]
  · have hindices := List.pairwise_lt_range' (s := 0) (n := reqIds.length) 1
    rwa [← List.zipIdx_map_snd 0 reqIds, List.pairwise_map] at hindices

/-- The numbered requests, in the order of their numbers. -/
theorem IsNumbering.sortedItems_eq {numbers : Dict ℕ} {order : List ReqId} (h : IsNumbering numbers order) :
    sortedItems numbers = order.map fun id => (id, (numbers.lookup id).getD 0) := by
  have hnumber : ∀ id ∈ order, numbers.lookup id = some ((numbers.lookup id).getD 0) := by
    intro id hid
    obtain ⟨i, hi⟩ := Option.isSome_iff_exists.mp (AList.lookup_isSome.mpr ((h.mem id).mp hid))
    rw [hi]
    rfl
  refine VllmAscend.sortedItems_eq (fun item => ?_) ?_
  · rw [List.mem_map]
    constructor
    · rintro ⟨id, hid, rfl⟩
      exact hnumber id hid
    · intro hlookup
      refine ⟨item.1, (h.mem _).mpr (AList.lookup_isSome.mp (by rw [hlookup]; rfl)), ?_⟩
      rw [hlookup]
      rfl
  · rw [List.pairwise_map]
    exact h.ascending.imp_of_mem fun ha hb hlt => hlt _ _ (hnumber _ ha) (hnumber _ hb)

theorem IsNumbering.nodup {numbers : Dict ℕ} {order : List ReqId} (h : IsNumbering numbers order) :
    order.Nodup := by
  refine h.ascending.imp_of_mem fun {a b} ha _ hlt heq => ?_
  subst heq
  obtain ⟨i, hi⟩ := Option.isSome_iff_exists.mp (AList.lookup_isSome.mpr ((h.mem a).mp ha))
  exact absurd (hlt i i hi hi) (Nat.lt_irrefl i)

/-! ## The rows of the logits -/

section Logits

variable {out : GrammarOutput B} {reqIdToIndex : Dict ℕ} {reqIds order : List ReqId}

theorem foldl_indexStep (h : reqIds.Nodup) : ∀ (after before : List ReqId) (dict : Dict ℕ),
    reqIds = before ++ after → ∀ id,
      ((after.zipIdx before.length).foldl (indexStep out)
          ((before.map out.numSpecTokens).sum, dict)).2.lookup id =
        if id ∈ after ∧ id ∈ out.structuredOutputRequestIds then some (startOf out.size reqIds id)
        else dict.lookup id
  | [], before, dict, _, id => by simp
  | id' :: after, before, dict, hreqIds, id => by
    have hnodup := hreqIds ▸ h
    rw [List.nodup_append, List.nodup_cons] at hnodup
    have hbefore : id' ∉ before := fun hmem => hnodup.2.2 id' hmem id' (.head _) rfl
    have hlogit : before.length + (before.map out.numSpecTokens).sum = startOf out.size reqIds id' := by
      rw [hreqIds, startOf_append hbefore]
      have hsizes : before.map out.size = before.map fun id => 1 + out.numSpecTokens id := rfl
      rw [hsizes, List.sum_map_add]
      simp
    have htail := foldl_indexStep h after (before ++ [id'])
      (if id' ∈ out.structuredOutputRequestIds then dict.insert id' (startOf out.size reqIds id') else dict)
      (by rw [hreqIds, List.append_assoc]; rfl) id
    rw [List.length_append, List.map_append, List.sum_append, List.map_singleton, List.sum_singleton,
      List.length_singleton] at htail
    rw [List.zipIdx_cons, List.foldl_cons, indexStep]
    simp only [hlogit]
    refine htail.trans ?_
    by_cases hid : id = id'
    · subst hid
      rw [if_neg (fun hmem => hnodup.2.1.1 hmem.1)]
      by_cases hstructured : id ∈ out.structuredOutputRequestIds
      · rw [if_pos hstructured, AList.lookup_insert, if_pos ⟨.head _, hstructured⟩]
      · rw [if_neg hstructured, if_neg fun hmem => hstructured hmem.2]
    · have hsame : (if id' ∈ out.structuredOutputRequestIds then
          dict.insert id' (startOf out.size reqIds id') else dict).lookup id = dict.lookup id := by
        split
        · exact AList.lookup_insert_ne hid
        · rfl
      rw [hsame]
      exact if_congr (by simp [hid]) rfl rfl

/-- **Where the logits of a structured request begin.** -/
theorem lookup_structOutReqBatchIndices (h : IsBatch reqIdToIndex reqIds) {id : ReqId} (hid : id ∈ reqIds)
    (hstructured : id ∈ out.structuredOutputRequestIds) :
    (structOutReqBatchIndices out reqIdToIndex).lookup id = some (startOf out.size reqIds id) := by
  have hfold : ((reqIds.zipIdx 0).foldl (indexStep out) (0, ∅)).2.lookup id =
      if id ∈ reqIds ∧ id ∈ out.structuredOutputRequestIds then some (startOf out.size reqIds id) else none :=
    foldl_indexStep h.nodup reqIds [] ∅ rfl id
  rw [if_pos ⟨hid, hstructured⟩] at hfold
  rw [structOutReqBatchIndices, h.sortedItems_eq]
  exact hfold

/-- Copying the rows of one request is writing them one after the other. -/
theorem copyRows_eq : ∀ (rows before after : List B) (logitIndex : ℕ) (s : List B × List ℕ),
    copyRows (before ++ rows ++ after) before.length logitIndex rows.length s =
      ((rows.zipIdx logitIndex).foldlM (fun xs cell => setItem xs (cell.2 : ℕ) cell.1) s.1).map fun xs =>
        (xs, s.2 ++ List.range' logitIndex rows.length)
  | [], before, after, logitIndex, s => by simp [copyRows]
  | row :: rows, before, after, logitIndex, s => by
    have hrow : (before ++ row :: rows ++ after)[before.length]? = some row := by simp
    have hnext : before ++ row :: rows ++ after = before ++ [row] ++ rows ++ after := by simp
    rw [copyRows, List.length_cons, List.range_succ_eq_map, List.foldlM_cons, List.zipIdx_cons,
      List.foldlM_cons]
    simp only [Nat.add_zero, hrow, Option.bind_eq_bind, Option.bind_some]
    cases setItem s.1 (logitIndex : ℕ) row with
    | none => rfl
    | some xs =>
      have htail := copyRows_eq rows (before ++ [row]) after (logitIndex + 1) (xs, s.2 ++ [logitIndex])
      rw [copyRows, List.length_append, List.length_singleton, ← hnext] at htail
      simp only [Option.bind_eq_bind, Option.bind_some, List.foldlM_map, Nat.add_right_comm _ 1,
        Nat.succ_eq_add_one, ← Nat.add_assoc] at htail ⊢
      refine htail.trans ?_
      simp [List.range'_succ]

/-- One round of the loop over the structured requests: the rows passed so far, and what was copied. -/
def sortStep (out : GrammarOutput B) (indices : Dict ℕ) (s : ℕ × List B × List ℕ) (id : ReqId) :
    Option (ℕ × List B × List ℕ) := do
  let logitIndex ← indices.lookup id
  let numSpecTokens := out.numSpecTokens id
  let copied ← copyRows out.grammarBitmask s.1 logitIndex (1 + numSpecTokens) s.2
  return (s.1 + (1 + numSpecTokens), copied)

theorem foldlM_sortStep (h : IsBatch reqIdToIndex reqIds) {rowsOf : ReqId → List B} :
    ∀ (ids : List ReqId) (before : List B) (xs : List B) (outs : List ℕ),
      (∀ id ∈ ids, id ∈ reqIds ∧ id ∈ out.structuredOutputRequestIds ∧ (rowsOf id).length = out.size id) →
      out.grammarBitmask = before ++ ids.flatMap rowsOf →
        ids.foldlM (sortStep out (structOutReqBatchIndices out reqIdToIndex)) (before.length, xs, outs) =
          ((ids.flatMap fun id => (rowsOf id).zipIdx (startOf out.size reqIds id)).foldlM
            (fun xs cell => setItem xs (cell.2 : ℕ) cell.1) xs).map fun xs =>
              ((before ++ ids.flatMap rowsOf).length, xs, outs ++ ids.flatMap (placesOf out.size reqIds))
  | [], before, xs, outs, _, _ => by simp
  | id :: ids, before, xs, outs, hids, hmask => by
    obtain ⟨hid, hstructured, hlength⟩ := hids id (.head _)
    rw [List.flatMap_cons, ← List.append_assoc] at hmask
    have hcopy := copyRows_eq (rowsOf id) before (ids.flatMap rowsOf) (startOf out.size reqIds id) (xs, outs)
    have hplaces : List.range' (startOf out.size reqIds id) (rowsOf id).length =
        placesOf out.size reqIds id := by rw [hlength, placesOf]
    rw [← hmask, hplaces, hlength] at hcopy
    have hsize : 1 + out.numSpecTokens id = out.size id := rfl
    rw [List.foldlM_cons, sortStep, lookup_structOutReqBatchIndices h hid hstructured]
    simp only [List.flatMap_cons, List.foldlM_append, Option.bind_eq_bind, Option.bind_some, hsize, hcopy]
    cases ((rowsOf id).zipIdx (startOf out.size reqIds id)).foldlM
      (fun xs cell => setItem xs (cell.2 : ℕ) cell.1) xs with
    | none => rfl
    | some xs' =>
      have htail := foldlM_sortStep h ids (before ++ rowsOf id) xs' (outs ++ placesOf out.size reqIds id)
        (fun id' hid' => hids id' (.tail _ hid')) hmask
      rw [List.length_append, hlength] at htail
      refine htail.trans ?_
      simp only [List.append_assoc]
      rfl

/-- **Copying the rows of all requests**, each to where its logits are. -/
theorem sortBitmask_eq (h : IsBatch reqIdToIndex reqIds)
    (horder : IsNumbering out.structuredOutputRequestIds order) (hbatch : ∀ id ∈ order, id ∈ reqIds)
    {rowsOf : ReqId → List B} (hrows : ∀ id ∈ order, (rowsOf id).length = out.size id)
    (hmask : out.grammarBitmask = order.flatMap rowsOf) (zero : B) (numLogits : ℕ) :
    sortBitmask out zero reqIdToIndex numLogits =
      ((order.flatMap fun id => (rowsOf id).zipIdx (startOf out.size reqIds id)).foldlM
        (fun xs cell => setItem xs (cell.2 : ℕ) cell.1) (List.replicate numLogits zero)).map fun xs =>
          (xs, order.flatMap (placesOf out.size reqIds)) := by
  have hfold := foldlM_sortStep h order [] (List.replicate numLogits zero) []
    (fun id hid => ⟨hbatch id hid, (horder.mem id).mp hid, hrows id hid⟩) hmask
  rw [Option.map_eq_bind] at hfold
  rw [sortBitmask, horder.sortedItems_eq, List.foldlM_map]
  refine (congrArg (Option.bind · fun s => some s.2) hfold).trans ?_
  rw [Option.bind_assoc, Option.map_eq_bind]
  rfl

/-- **Each row of the bitmask is applied to its own row of the logits**, and to no other. -/
theorem applyGrammarBitmask_rows (h : IsBatch reqIdToIndex reqIds)
    (horder : IsNumbering out.structuredOutputRequestIds order) (hbatch : ∀ id ∈ order, id ∈ reqIds)
    {rowsOf : ReqId → List B} (hrows : ∀ id ∈ order, (rowsOf id).length = out.size id)
    (hmask : out.grammarBitmask = order.flatMap rowsOf) {logitRows : ReqId → List L}
    (hlogits : ∀ id ∈ reqIds, (logitRows id).length = out.size id) (mask : B → L → L) (zero : B) :
    applyGrammarBitmask mask zero out reqIdToIndex (reqIds.flatMap logitRows) =
      some (reqIds.flatMap fun id =>
        if id ∈ order then List.zipWith mask (rowsOf id) (logitRows id) else logitRows id) := by
  have hlength : (reqIds.flatMap logitRows).length = (reqIds.map out.size).sum := by
    rw [List.length_flatMap]
    exact congrArg List.sum (List.map_congr_left hlogits)
  have hnodup : (order.flatMap (placesOf out.size reqIds)).Nodup :=
    nodup_flatMap_placesOf h.nodup horder.nodup hbatch
  -- the rows of the bitmask, each where its logits are
  have hplaces : (order.flatMap fun id => (rowsOf id).zipIdx (startOf out.size reqIds id)).map Prod.snd =
      order.flatMap (placesOf out.size reqIds) := by
    rw [List.map_flatMap]
    refine List.flatMap_congr fun id hid => ?_
    rw [List.zipIdx_map_snd, hrows id hid, placesOf]
  have hplace : ∀ t ∈ order.flatMap (placesOf out.size reqIds), t < (reqIds.map out.size).sum := by
    intro t ht
    obtain ⟨id, hid, ht⟩ := List.mem_flatMap.mp ht
    obtain ⟨i, hi, rfl⟩ := mem_placesOf.mp ht
    exact placesOf_lt h.nodup (hbatch id hid) hi
  obtain ⟨sorted, hsorted, hsortedLength, hown, -⟩ := foldlM_modifyItem_nodup (f := fun (cell : B × ℕ) _ => cell.1)
    (l := List.replicate (reqIds.flatMap logitRows).length zero) (hplaces ▸ hnodup) fun cell hcell => by
      rw [List.length_replicate, hlength]
      exact hplace _ (hplaces ▸ List.mem_map_of_mem hcell)
  have hsortedRow : ∀ id ∈ order, ∀ i < out.size id,
      sorted[startOf out.size reqIds id + i]? = (rowsOf id)[i]? := by
    intro id hid i hi
    have hrow : i < (rowsOf id).length := (hrows id hid).symm ▸ hi
    have hcell := hown ((rowsOf id)[i], startOf out.size reqIds id + i)
      (List.mem_flatMap.mpr ⟨id, hid, List.mem_zipIdx_iff_le_and_getElem?_sub.mpr
        ⟨Nat.le_add_right _ _, by rw [Nat.add_sub_cancel_left]; exact List.getElem?_eq_getElem hrow⟩⟩)
    have hlt := placesOf_lt h.nodup (hbatch id hid) hi
    rw [List.getElem?_replicate_of_lt (hlength.symm ▸ hlt)] at hcell
    rw [hcell, List.getElem?_eq_getElem hrow]
    rfl
  -- the rows of the logits, masked one by one
  obtain ⟨masked, hmasked, hmaskedLength, hin, hout⟩ := foldlM_modifyItem_nodup
    (f := fun t x => mask (sorted.getD t zero) x) ((List.map_id _).symm ▸ hnodup) fun t ht => hlength.symm ▸ hplace t ht
  have happly : applyTokenBitmaskInplace mask (reqIds.flatMap logitRows) sorted
      (order.flatMap (placesOf out.size reqIds)) = some masked := by
    rw [← hmasked, applyTokenBitmaskInplace]
    refine foldlM_congr_mem fun logits t ht => ?_
    have hlt : t < sorted.length := by
      rw [hsortedLength, List.length_replicate, hlength]
      exact hplace t ht
    rw [List.getElem?_eq_getElem hlt, List.getD_eq_getElem _ _ hlt]
    rfl
  have hrow : masked = reqIds.flatMap fun id =>
      if id ∈ order then List.zipWith mask (rowsOf id) (logitRows id) else logitRows id := by
    refine eq_flatMap_of_places h.nodup (hmaskedLength.trans hlength)
      (fun id hid => ?_) fun id hid i hi => ?_
    · split
      · rename_i hmem
        rw [List.length_zipWith, hrows id hmem, hlogits id hid, Nat.min_self]
      · exact hlogits id hid
    · have hlogit := getElem?_flatMap_startOf h.nodup hlogits hid hi
      split
      · rename_i hmem
        have hbit := hsortedRow id hmem i hi
        rw [hin _ (List.mem_flatMap.mpr ⟨id, hmem, mem_placesOf.mpr ⟨i, hi, rfl⟩⟩), hlogit,
          List.getElem?_zipWith, List.getD_eq_getElem?_getD, hbit]
        have hlt : i < (rowsOf id).length := (hrows id hmem).symm ▸ hi
        rw [List.getElem?_eq_getElem hlt]
        cases (logitRows id)[i]? <;> rfl
      · rename_i hmem
        rw [hout _ fun hplace => ?_, hlogit]
        rw [List.map_id', List.mem_flatMap] at hplace
        obtain ⟨id', hid', hplace⟩ := hplace
        exact placesOf_disjoint h.nodup hid (hbatch id' hid') (ne_of_mem_of_not_mem hid' hmem).symm
          (mem_placesOf.mpr ⟨i, hi, rfl⟩) hplace
  rw [applyGrammarBitmask, sortBitmask_eq h horder hbatch hrows hmask, ← hrow, ← happly]
  exact congrArg (fun copied => (Option.map (fun xs => (xs, order.flatMap (placesOf out.size reqIds)))
    copied).bind fun s => applyTokenBitmaskInplace mask (reqIds.flatMap logitRows) s.1 s.2) hsorted

/-! ## The layout of the logits -/

/-- `num_draft_tokens` holds, at the row of each request, the number of its drafts. -/
theorem numDraftTokens_eq (h : IsBatch reqIdToIndex reqIds)
    (hspec : ∀ id ∈ out.scheduledSpecDecodeTokens, id ∈ reqIds) :
    numDraftTokens reqIds.length reqIdToIndex out.scheduledSpecDecodeTokens =
      some (reqIds.map out.numSpecTokens) := by
  have hindex : ∀ e ∈ out.scheduledSpecDecodeTokens.entries, ∃ t, reqIdToIndex.lookup e.1 = some t ∧
      reqIds[t]? = some e.1 := by
    intro e he
    obtain ⟨t, ht⟩ := List.mem_iff_getElem?.mp (hspec e.1 (List.mem_keys.mpr ⟨e.2, he⟩))
    exact ⟨t, (h.lookup _ _).mpr ht, ht⟩
  have hkey : ∀ e ∈ out.scheduledSpecDecodeTokens.entries,
      reqIds[(reqIdToIndex.lookup e.1).getD 0]? = some e.1 := by
    intro e he
    obtain ⟨t, hlookup, ht⟩ := hindex e he
    rwa [hlookup]
  have hcount : ∀ e ∈ out.scheduledSpecDecodeTokens.entries, out.numSpecTokens e.1 = e.2.length := by
    intro e he
    have hlookup : out.scheduledSpecDecodeTokens.lookup e.1 = some e.2 :=
      (List.mem_dlookup_iff out.scheduledSpecDecodeTokens.nodupKeys).mpr he
    rw [GrammarOutput.numSpecTokens, hlookup]
    rfl
  have hnodup : (out.scheduledSpecDecodeTokens.entries.map fun e =>
      (reqIdToIndex.lookup e.1).getD 0).Nodup := by
    have hids := out.scheduledSpecDecodeTokens.nodupKeys
    rw [List.NodupKeys, List.keys, List.Nodup, List.pairwise_map] at hids
    rw [List.Nodup, List.pairwise_map]
    refine hids.imp_of_mem fun he he' hne heq => hne ?_
    exact Option.some.inj ((hkey _ he).symm.trans ((congrArg (reqIds[·]?) heq).trans (hkey _ he')))
  obtain ⟨num, hnum, hlength, hin, hother⟩ := foldlM_modifyItem_nodup
    (f := fun e (_ : ℕ) => e.2.length) (l := List.replicate reqIds.length 0) hnodup fun e he => by
      rw [List.length_replicate]
      exact (List.getElem?_eq_some_iff.mp (hkey e he)).1
  have hfold : numDraftTokens reqIds.length reqIdToIndex out.scheduledSpecDecodeTokens = some num := by
    rw [← hnum, numDraftTokens]
    refine foldlM_congr_mem fun num e he => ?_
    obtain ⟨t, hlookup, -⟩ := hindex e he
    rw [hlookup]
    rfl
  rw [hfold]
  refine congrArg some (List.ext_getElem? fun t => ?_)
  rw [List.getElem?_map]
  by_cases ht : t ∈ out.scheduledSpecDecodeTokens.entries.map fun e => (reqIdToIndex.lookup e.1).getD 0
  · obtain ⟨e, he, rfl⟩ := List.mem_map.mp ht
    have hlt := (List.getElem?_eq_some_iff.mp (hkey e he)).1
    rw [hin e he, hkey e he, List.getElem?_replicate_of_lt hlt, Option.map_some, Option.map_some,
      hcount e he]
  · rw [hother t ht, List.getElem?_replicate]
    split
    · rename_i hlt
      rw [List.getElem?_eq_getElem hlt, Option.map_some]
      congr 1
      by_contra hne
      have hmem : reqIds[t] ∈ out.scheduledSpecDecodeTokens := by
        by_contra hmem
        rw [GrammarOutput.numSpecTokens, AList.lookup_eq_none.mpr hmem] at hne
        exact hne rfl
      obtain ⟨drafts, he⟩ := List.mem_keys.mp hmem
      refine ht (List.mem_map.mpr ⟨_, he, ?_⟩)
      rw [(h.lookup reqIds[t] t).mpr (List.getElem?_eq_getElem hlt)]
      rfl
    · rename_i hge
      rw [List.getElem?_eq_none (Nat.not_lt.mp hge)]
      rfl

/-- The places of the last tokens of a request, when it has these scheduled. -/
def sampledPlaces (row : ReqId → DraftRow) (reqIds : List ReqId) (id : ReqId) : List ℤ :=
  Machinery.segment ((startOf (fun id => (row id).numScheduledTokens) reqIds id +
    ((row id).numScheduledTokens - ((row id).numDraftTokens + 1)) : ℕ) : ℤ) ((row id).numDraftTokens + 1)

/-- **The rows of the logits**, in the order of the batch. -/
theorem logitsIndices_rows (h : IsBatch reqIdToIndex reqIds)
    (hspec : ∀ id ∈ out.scheduledSpecDecodeTokens, id ∈ reqIds) {row : ReqId → DraftRow}
    (hdrafts : ∀ id ∈ reqIds, (row id).numDraftTokens = out.numSpecTokens id) {m : ℕ}
    (hm : (reqIds.map fun id => (row id).numScheduledTokens).sum ≤ m) (rest : List ℤ) :
    logitsIndices (arange m) (reqIds.flatMap (fun id => (row id).inputIds) ++ rest) reqIdToIndex
        out.scheduledSpecDecodeTokens
        (cumsum 0 ((reqIds.map fun id => (row id).numScheduledTokens).map Nat.cast)) =
      some (reqIds.flatMap (sampledPlaces row reqIds)) := by
  have hplaced := placed_map_startOf h.nodup DraftRow.inputIds row
  have hlast : lastTokens (reqIds.map row) = reqIds.flatMap (sampledPlaces row reqIds) := by
    rw [lastTokens, scheduledRows, hplaced, List.flatMap_map]
    rfl
  have hscheduled : (reqIds.map fun id => (row id).numScheduledTokens) =
      (reqIds.map row).map DraftRow.numScheduledTokens := by rw [List.map_map]; rfl
  have hcounts : (reqIds.map row).map DraftRow.numDraftTokens = reqIds.map out.numSpecTokens := by
    rw [List.map_map]
    exact List.map_congr_left hdrafts
  rw [hscheduled, logitsIndices]
  split
  · rename_i hempty
    have hnone : ∀ id, out.numSpecTokens id = 0 := by
      intro id
      rw [GrammarOutput.numSpecTokens, AList.lookup, List.length_eq_zero_iff.mp hempty]
      rfl
    have hends : cumsum 0 (((reqIds.map row).map DraftRow.numScheduledTokens).map Nat.cast) =
        reqIds.map fun id => ((startOf (fun id => (row id).numScheduledTokens) reqIds id : ℕ) : ℤ) +
          (row id).numScheduledTokens := by
      refine (cumsum_placed DraftRow.inputIds 0 (reqIds.map row)).trans ?_
      rw [hplaced, List.map_map]
      rfl
    rw [hends, List.map_map, List.map_eq_flatMap]
    refine congrArg some (List.flatMap_congr fun id hid => ?_)
    have hlt := (row id).lt
    have hplace : ((startOf (fun id => (row id).numScheduledTokens) reqIds id : ℕ) : ℤ) +
        (row id).numScheduledTokens - 1 =
          (startOf (fun id => (row id).numScheduledTokens) reqIds id +
            ((row id).numScheduledTokens - (0 + 1)) : ℕ) := by
      rw [DraftRow.numScheduledTokens]
      omega
    rw [sampledPlaces, hdrafts id hid, hnone id, ← hplace]
    simp [Machinery.segment]
  · rename_i hentries
    have hne : reqIds.map row ≠ [] := by
      obtain ⟨e, he⟩ := List.exists_mem_of_length_pos (Nat.pos_of_ne_zero hentries)
      exact List.ne_nil_of_mem (List.mem_map_of_mem (hspec e.1 (List.mem_keys.mpr ⟨e.2, he⟩)))
    have hsampled : ((reqIds.map row).flatMap DraftRow.sampled).length ≤ m := by
      refine Nat.le_trans ?_ hm
      rw [List.length_flatMap, List.map_map]
      refine List.sum_le_sum fun id _ => ?_
      rw [Function.comp_apply, DraftRow.length_sampled]
      exact (row id).lt
    have hmetadata := calcSpecDecodeMetadata_eq hne hsampled rest
    rw [List.flatMap_map, hcounts] at hmetadata
    rw [length_cumsum, List.length_map, List.length_map, List.length_map, numDraftTokens_eq h hspec]
    simp only [Option.bind_eq_bind, Option.bind_some, hmetadata, hlast]
    rfl

/-- **The bitmask of each request reaches its own logits.**  The logits are computed for the last `d + 1`
scheduled tokens of each request, the requests in the order of the batch; the rows of the bitmask that the
scheduler compacted for a request are applied to these, one to one, and those of a request without structured
output are left as they are. -/
theorem applyGrammarBitmask_aligned (h : IsBatch reqIdToIndex reqIds)
    (horder : IsNumbering out.structuredOutputRequestIds order) (hbatch : ∀ id ∈ order, id ∈ reqIds)
    (hspec : ∀ id ∈ out.scheduledSpecDecodeTokens, id ∈ reqIds) {row : ReqId → DraftRow}
    (hdrafts : ∀ id ∈ reqIds, (row id).numDraftTokens = out.numSpecTokens id) {m : ℕ}
    (hm : (reqIds.map fun id => (row id).numScheduledTokens).sum ≤ m) (rest : List ℤ)
    {rowsOf : ReqId → List B} (hrows : ∀ id ∈ order, (rowsOf id).length = 1 + out.numSpecTokens id)
    (hmask : out.grammarBitmask = order.flatMap rowsOf) (mask : B → L → L) (zero : B) (compute : ℤ → L) :
    ∃ indices, logitsIndices (arange m) (reqIds.flatMap (fun id => (row id).inputIds) ++ rest) reqIdToIndex
        out.scheduledSpecDecodeTokens
        (cumsum 0 ((reqIds.map fun id => (row id).numScheduledTokens).map Nat.cast)) = some indices ∧
      indices = reqIds.flatMap (sampledPlaces row reqIds) ∧
      applyGrammarBitmask mask zero out reqIdToIndex (indices.map compute) =
        some (reqIds.flatMap fun id =>
          if id ∈ out.structuredOutputRequestIds then
            List.zipWith mask (rowsOf id) ((sampledPlaces row reqIds id).map compute)
          else (sampledPlaces row reqIds id).map compute) := by
  refine ⟨_, logitsIndices_rows h hspec hdrafts hm rest, rfl, ?_⟩
  have hsize : ∀ id ∈ reqIds, ((sampledPlaces row reqIds id).map compute).length = out.size id := by
    intro id hid
    rw [List.length_map, sampledPlaces, length_segment, hdrafts id hid, GrammarOutput.size, Nat.add_comm]
  have happly := applyGrammarBitmask_rows h horder hbatch hrows hmask hsize mask zero
  simp only [horder.mem] at happly
  rw [List.map_flatMap, happly]

end Logits

/-- The rows of a batch of two requests. -/
theorem isBatch_twoRequests : IsBatch ((∅ : Dict ℕ).insert "b" 1 |>.insert "a" 0) ["a", "b"] where
  nodup := by decide
  lookup id i := by
    by_cases ha : id = "a"
    · subst ha
      rw [AList.lookup_insert]
      rcases i with - | - | i <;> simp
    · rw [AList.lookup_insert_ne ha]
      by_cases hb : id = "b"
      · subst hb
        rw [AList.lookup_insert]
        rcases i with - | - | i <;> simp
      · rw [AList.lookup_insert_ne hb]
        rcases i with - | - | i <;> simp [Ne.symm ha, Ne.symm hb]

/-- Two structured requests, the first of the batch with a draft; the bitmask has the other one first. -/
theorem applyGrammarBitmask_aligned_twoRequests :
    ∃ indices, logitsIndices (arange 3) [10, 11, 20] ((∅ : Dict ℕ).insert "b" 1 |>.insert "a" 0)
        ((∅ : Dict (List Token)).insert "a" [11]) [2, 3] = some indices ∧ indices = [0, 1, 2] ∧
      applyGrammarBitmask (fun b x : ℤ => b + x) 0
        ⟨(∅ : Dict (List Token)).insert "a" [11], (∅ : Dict ℕ).insert "b" 0 |>.insert "a" 1, [30, 10, 11]⟩
        ((∅ : Dict ℕ).insert "b" 1 |>.insert "a" 0) (indices.map id) = some [10, 12, 32] := by
  have horder : IsNumbering ((∅ : Dict ℕ).insert "b" 0 |>.insert "a" 1) ["b", "a"] := by
    refine ⟨fun id => ?_, ?_⟩
    · rw [AList.mem_insert, AList.mem_insert, List.mem_pair, or_iff_left (AList.notMem_empty id), or_comm]
    · rw [List.pairwise_pair]
      intro i j hi hj
      cases hi
      cases hj
      decide
  have hspec : ∀ id ∈ (∅ : Dict (List Token)).insert "a" [11], id ∈ ["a", "b"] := by
    intro id hid
    rw [AList.mem_insert, or_iff_left (AList.notMem_empty id)] at hid
    exact hid ▸ .head _
  let row : ReqId → DraftRow := fun id =>
    if id = "a" then ⟨[10, 11], 1, by decide⟩ else ⟨[20], 0, by decide⟩
  let rowsOf : ReqId → List ℤ := fun id => if id = "a" then [10, 11] else [30]
  let out : GrammarOutput ℤ := ⟨(∅ : Dict (List Token)).insert "a" [11],
    (∅ : Dict ℕ).insert "b" 0 |>.insert "a" 1, [30, 10, 11]⟩
  have hdrafts : ∀ id ∈ ["a", "b"], (row id).numDraftTokens = out.numSpecTokens id := by decide
  have hmask : out.grammarBitmask = ["b", "a"].flatMap rowsOf := by decide
  obtain ⟨indices, hindices, rfl, hlogits⟩ := applyGrammarBitmask_aligned isBatch_twoRequests horder
    (by decide) hspec hdrafts (m := 3) (by decide) [] (by decide) hmask (fun b x : ℤ => b + x) 0 id
  exact ⟨_, hindices, by decide, hlogits.trans (by decide)⟩

end VllmAscend
