import VllmAscend.Machinery.KeyedFold
import VllmAscend.Worker.ModelRunner

/-!
# Worker/UpdateStates — what `_update_states` makes of each request

    new        ──▸ a new state, a new row
    cached     ──▸ the old state updated, and its row, or a new row
    finished   ──▸ neither
    otherwise  ──▸ the old state, no row

Every entry of an output writes the state and the row of its own request only, so the three loops of
`_update_states` are folds with one change per key.  `updateStates_eq_ok` is all that is used of
them.
-/

namespace VllmAscend

open Machinery

variable {M : Type}

/-- Looking up a key in what is left of a dictionary. -/
theorem Dict.lookup_without {α : Type} (d : Dict α) (p : ReqId → Prop) [DecidablePred p]
    (id : ReqId) : (d.without p).lookup id = if p id then none else d.lookup id := by
  ext x
  rw [← Option.mem_def, ← Option.mem_def, AList.mem_lookup_iff, without, List.mem_filter]
  split
  · next hp => simp [hp]
  · next hp => simp [hp, ← AList.mem_lookup_iff]

namespace NPUModelRunner

variable {self w : NPUModelRunner} {out : SchedulerOutput M} {e : CachedRequestEntry}
  {st st' : CachedRequestState} {id : ReqId}

/-- The state and the row of a request. -/
def seen (self : NPUModelRunner) (id : ReqId) : Option CachedRequestState × Option InputRow :=
  (self.requests.lookup id, self.inputBatch.lookup id)

/-- The same worker, whatever it keeps of the requests. -/
structure SameRank (w w' : NPUModelRunner) : Prop where
  isLastRank : w'.isLastRank = w.isLastRank
  broadcastPpOutput : w'.broadcastPpOutput = w.broadcastPpOutput
  maxModelLen : w'.maxModelLen = w.maxModelLen

theorem SameRank.refl (self : NPUModelRunner) : SameRank self self := ⟨rfl, rfl, rfl⟩

theorem SameRank.trans {w' : NPUModelRunner} (h : SameRank self w) (h' : SameRank w w') :
    SameRank self w' := ⟨h'.1.trans h.1, h'.2.trans h.2, h'.3.trans h.3⟩

/-! ## The loops, one at a time -/

theorem seen_removeRequests (self : NPUModelRunner) (out : SchedulerOutput M) (id : ReqId) :
    (self.removeRequests out).seen id =
      (if id ∈ out.finishedReqIds then none else self.requests.lookup id,
        if id ∈ out.finishedReqIds ∨ id ∉ out.numScheduledTokens then none
        else self.inputBatch.lookup id) := by
  rw [seen, removeRequests, Dict.lookup_without, Dict.lookup_without]

theorem sameRank_foldl_addNewRequest : ∀ (l : List NewRequestData) (self : NPUModelRunner),
    SameRank self (l.foldl addNewRequest self)
  | [], self => .refl self
  | _ :: l, _ => ⟨(sameRank_foldl_addNewRequest l _).1, (sameRank_foldl_addNewRequest l _).2,
      (sameRank_foldl_addNewRequest l _).3⟩

/-- The new requests get new states. -/
theorem seen_addNewRequests (self : NPUModelRunner) {l : List NewRequestData}
    (hnodup : (l.map NewRequestData.reqId).Nodup) :
    (∀ d ∈ l, (l.foldl addNewRequest self).seen d.reqId =
        (some (newState d), (self.seen d.reqId).2)) ∧
      ∀ id, id ∉ l.map NewRequestData.reqId → (l.foldl addNewRequest self).seen id =
        self.seen id := by
  refine foldl_keyed NewRequestData.reqId seen (R := fun d v v' => v' = (some (newState d), v.2))
    (fun self d => ⟨?_, fun id hne => ?_⟩) hnodup
  · simp [seen, addNewRequest]
  · simp [seen, addNewRequest, AList.lookup_insert_ne hne]

/-- An entry of a running or resumed request updates its state, and its row if it has one. -/
theorem updateCachedRequest_eq_ok (h : updateCachedRequest out self e = .ok w) :
    SameRank self w ∧
      (∃ st st', (self.seen e.reqId).1 = some st ∧ updateState self.isLastRank st e = .ok st' ∧
        w.seen e.reqId = (some st', (self.seen e.reqId).2.map fun row =>
          updateRow self.isLastRank row e (numSpecTokens out.scheduledSpecDecodeTokens e.reqId))) ∧
      ∀ id, id ≠ e.reqId → w.seen id = self.seen id := by
  unfold updateCachedRequest at h
  split at h
  · contradiction
  next st hst =>
    split at h
    · contradiction
    next st' hst' =>
      cases h
      refine ⟨⟨rfl, rfl, rfl⟩, ⟨st, st', hst, hst', ?_⟩, fun id hne => ?_⟩
      · cases hrow : self.inputBatch.lookup e.reqId <;> simp [seen, hrow]
      · cases hrow : self.inputBatch.lookup e.reqId <;>
          simp [seen, AList.lookup_insert_ne hne]

/-- The running and resumed requests get their states and rows updated. -/
theorem seen_updateCachedRequests {l : List CachedRequestEntry}
    (hnodup : (l.map CachedRequestEntry.reqId).Nodup)
    (h : l.foldlM (updateCachedRequest out) self = .ok w) :
    SameRank self w ∧
      (∀ e ∈ l, ∃ st st', (self.seen e.reqId).1 = some st ∧
        updateState self.isLastRank st e = .ok st' ∧
        w.seen e.reqId = (some st', (self.seen e.reqId).2.map fun row =>
          updateRow self.isLastRank row e (numSpecTokens out.scheduledSpecDecodeTokens e.reqId))) ∧
      ∀ id, id ∉ l.map CachedRequestEntry.reqId → w.seen id = self.seen id := by
  refine foldlM_keyed CachedRequestEntry.reqId seen (I := SameRank self)
    (R := fun e v v' => ∃ st st', v.1 = some st ∧ updateState self.isLastRank st e = .ok st' ∧
      v' = (some st', v.2.map fun row =>
        updateRow self.isLastRank row e (numSpecTokens out.scheduledSpecDecodeTokens e.reqId)))
    (fun w e w' hrank h => ?_) hnodup (.refl self) h
  obtain ⟨hrank', hown, hother⟩ := updateCachedRequest_eq_ok h
  rw [hrank.isLastRank] at hown
  exact ⟨hrank.trans hrank', hown, hother⟩

theorem sameRank_addToBatch (self : NPUModelRunner) (id : ReqId) :
    SameRank self (self.addToBatch id) := by
  unfold addToBatch
  split <;> exact ⟨rfl, rfl, rfl⟩

theorem sameRank_foldl_addToBatch : ∀ (l : List ReqId) (self : NPUModelRunner),
    SameRank self (l.foldl addToBatch self)
  | [], self => .refl self
  | id :: l, self => (sameRank_addToBatch self id).trans (sameRank_foldl_addToBatch l _)

/-- The requests added to the batch get new rows. -/
theorem seen_addToBatch (self : NPUModelRunner) {l : List ReqId} (hnodup : l.Nodup) :
    (∀ id ∈ l, (l.foldl addToBatch self).seen id =
        ((self.seen id).1, match (self.seen id).1 with
          | none => (self.seen id).2
          | some st => some (newRow st))) ∧
      ∀ id, id ∉ l → (l.foldl addToBatch self).seen id = self.seen id := by
  have h := foldl_keyed (fun id : ReqId => id) seen (f := addToBatch)
    (R := fun _ v v' => v' = (v.1, match v.1 with
      | none => v.2
      | some st => some (newRow st)))
    (fun self id => ⟨?_, fun id' hne => ?_⟩) (l := l) (s := self) (by simpa using hnodup)
  · simpa using h
  · cases hst : self.requests.lookup id <;> simp [seen, addToBatch, hst]
  · cases hst : self.requests.lookup id <;>
      simp [seen, addToBatch, hst, AList.lookup_insert_ne hne]

/-! ## The call -/

/-- What `_update_states` makes of the states and the rows. -/
structure StatesUpdated (w w' : NPUModelRunner) (out : SchedulerOutput M) : Prop where
  rank : SameRank w w'
  new : ∀ d ∈ out.scheduledNewReqs, w'.requests.lookup d.reqId = some (newState d)
  cached : ∀ e ∈ out.scheduledCachedReqs, e.reqId ∉ out.finishedReqIds ∧
    ∃ st st', w.requests.lookup e.reqId = some st ∧ updateState w.isLastRank st e = .ok st' ∧
      w'.requests.lookup e.reqId = some st'
  unscheduled : ∀ id, id ∉ out.numScheduledTokens → w'.requests.lookup id =
    if id ∈ out.finishedReqIds then none else w.requests.lookup id
  /-- a row is of a scheduled request, and made of its state or updated -/
  row : ∀ id row, w'.inputBatch.lookup id = some row → id ∈ out.numScheduledTokens ∧
    ((∃ st, w'.requests.lookup id = some st ∧ row = newRow st) ∨
      ∃ e ∈ out.scheduledCachedReqs, e.reqId = id ∧ ∃ row₀, w.inputBatch.lookup id = some row₀ ∧
        row = updateRow w.isLastRank row₀ e (numSpecTokens out.scheduledSpecDecodeTokens id))

/-- The states and the rows when the entries are gone through, before rows are added. -/
structure EntriesRead (w w' : NPUModelRunner) (out : SchedulerOutput M) : Prop where
  rank : SameRank w w'
  new : ∀ d ∈ out.scheduledNewReqs, w'.requests.lookup d.reqId = some (newState d)
  cached : ∀ e ∈ out.scheduledCachedReqs, e.reqId ∉ out.finishedReqIds ∧
    ∃ st st', w.requests.lookup e.reqId = some st ∧ updateState w.isLastRank st e = .ok st' ∧
      w'.requests.lookup e.reqId = some st' ∧
      w'.inputBatch.lookup e.reqId = (w.inputBatch.lookup e.reqId).map fun row =>
        updateRow w.isLastRank row e (numSpecTokens out.scheduledSpecDecodeTokens e.reqId)
  unscheduled : ∀ id, id ∉ out.numScheduledTokens → w'.inputBatch.lookup id = none ∧
    w'.requests.lookup id = if id ∈ out.finishedReqIds then none else w.requests.lookup id

/-- An id is scheduled when there is an entry for it. -/
theorem mem_numScheduledTokens
    (hentries : out.numScheduledTokens.keys.Perm (out.newIds ++ out.reqIds)) :
    id ∈ out.numScheduledTokens ↔ id ∈ out.newIds ∨ id ∈ out.reqIds :=
  hentries.mem_iff.trans List.mem_append

/-- Going through the entries. -/
theorem entriesRead (hentries : out.numScheduledTokens.keys.Perm (out.newIds ++ out.reqIds))
    (h : out.scheduledCachedReqs.foldlM (updateCachedRequest out)
      (out.scheduledNewReqs.foldl addNewRequest (self.removeRequests out)) = .ok w) :
    EntriesRead self w out := by
  obtain ⟨hnewIds, hreqIds, hdisjoint⟩ :=
    List.nodup_append.mp (hentries.nodup_iff.mp out.numScheduledTokens.keys_nodup)
  have hkept := seen_removeRequests self out
  have hrank : SameRank self (self.removeRequests out) := ⟨rfl, rfl, rfl⟩
  have hrank₁ := hrank.trans (sameRank_foldl_addNewRequest out.scheduledNewReqs _)
  obtain ⟨hnew, hother₁⟩ := seen_addNewRequests (self.removeRequests out) hnewIds
  generalize out.scheduledNewReqs.foldl addNewRequest (self.removeRequests out) = w₁ at *
  obtain ⟨hrank₂, hcached, hother₂⟩ := seen_updateCachedRequests hreqIds h
  rw [hrank₁.isLastRank] at hcached
  refine ⟨hrank₁.trans hrank₂, fun d hd => ?_, fun e he => ?_, fun id hid => ?_⟩
  · have hnot : d.reqId ∉ out.reqIds := fun hmem =>
      hdisjoint _ (List.mem_map_of_mem hd) _ hmem rfl
    exact congrArg Prod.fst ((hother₂ _ hnot).trans (hnew d hd))
  · have hreq : e.reqId ∈ out.reqIds := List.mem_map_of_mem he
    have hnum : e.reqId ∈ out.numScheduledTokens :=
      (mem_numScheduledTokens hentries).mpr (Or.inr hreq)
    obtain ⟨st, st', hst, hupdate, hseen⟩ := hcached e he
    rw [hother₁ _ fun hmem => hdisjoint _ hmem _ hreq rfl, hkept] at hst hseen
    simp only [ite_eq_iff, reduceCtorEq, and_false, false_or] at hst
    simp only [hst.1, hnum, not_true_eq_false, or_self, if_false] at hseen
    exact ⟨hst.1, st, st', hst.2, hupdate, congrArg Prod.fst hseen, congrArg Prod.snd hseen⟩
  · have hnot := (mem_numScheduledTokens hentries).not.mp hid
    rw [not_or] at hnot
    have hsame := (hother₂ id hnot.2).trans ((hother₁ id hnot.1).trans (hkept id))
    rw [if_pos (Or.inr hid)] at hsame
    exact ⟨congrArg Prod.snd hsame, congrArg Prod.fst hsame⟩

/-- **`_update_states`, request by request**, on an output that has one entry for each request it
schedules. -/
theorem updateStates_eq_ok
    (hentries : out.numScheduledTokens.keys.Perm (out.newIds ++ out.reqIds))
    (h : self.updateStates out = .ok w) : StatesUpdated self w out := by
  have hnodup := hentries.nodup_iff.mp out.numScheduledTokens.keys_nodup
  unfold updateStates at h
  rw [bind_eq_ok] at h
  obtain ⟨w₂, hcached, hw⟩ := h
  cases hw
  have hread := entriesRead hentries hcached
  have hrank := sameRank_foldl_addToBatch ((self.removeRequests out).reqIdsToAdd out) w₂
  obtain ⟨hadded, hother⟩ := seen_addToBatch w₂
    (hnodup.sublist (List.Sublist.append (.refl _) List.filter_sublist) :
      ((self.removeRequests out).reqIdsToAdd out).Nodup)
  generalize hids : (self.removeRequests out).reqIdsToAdd out = ids at *
  generalize ids.foldl addToBatch w₂ = w₃ at *
  have hstate : ∀ id, w₃.requests.lookup id = w₂.requests.lookup id := by
    intro id
    by_cases hid : id ∈ ids
    · exact congrArg Prod.fst (hadded id hid)
    · exact congrArg Prod.fst (hother id hid)
  refine ⟨hread.rank.trans hrank, fun d hd => (hstate _).trans (hread.new d hd), ?_, ?_, ?_⟩
  · intro e he
    obtain ⟨hfinished, st, st', hst, hupdate, hst', _⟩ := hread.cached e he
    exact ⟨hfinished, st, st', hst, hupdate, (hstate _).trans hst'⟩
  · exact fun id hid => (hstate id).trans (hread.unscheduled id hid).2
  · intro id row hrow
    have hnum : id ∈ out.numScheduledTokens := by
      by_contra hnot
      have hadd : id ∉ ids := by
        rw [mem_numScheduledTokens hentries, not_or] at hnot
        rw [← hids, reqIdsToAdd, List.mem_append, not_or]
        exact ⟨hnot.1, fun hmem => hnot.2 (List.mem_filter.mp hmem).1⟩
      have hnone : w₃.inputBatch.lookup id = none :=
        (congrArg Prod.snd (hother id hadd)).trans (hread.unscheduled id hnot).1
      rw [hrow] at hnone
      contradiction
    refine ⟨hnum, ?_⟩
    by_cases hid : id ∈ ids
    · left
      obtain ⟨st, hst⟩ : ∃ st, w₂.requests.lookup id = some st := by
        obtain hnew | hreq := (mem_numScheduledTokens hentries).mp hnum
        · obtain ⟨d, hd, rfl⟩ := List.mem_map.mp hnew
          exact ⟨_, hread.new d hd⟩
        · obtain ⟨e, he, rfl⟩ := List.mem_map.mp hreq
          obtain ⟨_, _, st', _, _, hst', _⟩ := hread.cached e he
          exact ⟨st', hst'⟩
      have hseen : w₃.inputBatch.lookup id = _ := congrArg Prod.snd (hadded id hid)
      simp only [seen, hst, hrow] at hseen
      cases hseen
      exact ⟨st, (hstate id).trans hst, rfl⟩
    · right
      have hreq : id ∈ out.reqIds := by
        refine ((mem_numScheduledTokens hentries).mp hnum).resolve_left fun hnew => hid ?_
        rw [← hids]
        exact List.mem_append_left _ hnew
      obtain ⟨e, he, rfl⟩ := List.mem_map.mp hreq
      obtain ⟨_, _, _, _, _, _, hbatch⟩ := hread.cached e he
      have hsame : w₃.inputBatch.lookup e.reqId = w₂.inputBatch.lookup e.reqId :=
        congrArg Prod.snd (hother _ hid)
      rw [hrow, hbatch, eq_comm, Option.map_eq_some_iff] at hsame
      obtain ⟨row₀, hrow₀, heq⟩ := hsame
      exact ⟨e, he, rfl, row₀, hrow₀, heq.symm⟩

/-! ## What the call raises -/

/-- A fault of an entry: no state, a token list that is empty, or no blocks for a resumed
request. -/
theorem updateCachedRequest_error {fault : WorkerFault}
    (h : updateCachedRequest out self e = .error fault) :
    (fault = .keyError ∧ (self.seen e.reqId).1 = none) ∨
      (fault = .indexError ∧ self.isLastRank = false) ∨
      (fault = .resumedBlocks ∧ e.resumedFromPreemption = true ∧ e.newBlockIds = none) := by
  unfold updateCachedRequest at h
  split at h
  · next hnone =>
    cases h
    exact Or.inl ⟨rfl, hnone⟩
  right
  split at h
  · next hupdate =>
    cases h
    obtain hreceive | ⟨st, _, hblocks⟩ := bind_eq_error.mp hupdate
    · left
      unfold receiveTokens at hreceive
      split at hreceive
      · contradiction
      · next hlast =>
        refine ⟨?_, by simpa using hlast⟩
        simp only at hreceive
        split_ifs at hreceive
        split at hreceive
        · cases hreceive
          rfl
        · contradiction
    · right
      unfold updateBlockIds at hblocks
      split at hblocks
      · next hresumed =>
        split at hblocks
        · next hnone =>
          cases hblocks
          exact ⟨rfl, hresumed, hnone⟩
        · contradiction
      · split at hblocks <;> contradiction
  · contradiction

/-- **What makes `_update_states` raise**: a running or resumed request the worker does not know, a
resumed one that comes without blocks, or, on a rank that does not sample, a missing token. -/
theorem updateStates_error (hentries : out.numScheduledTokens.keys.Perm (out.newIds ++ out.reqIds))
    {fault : WorkerFault} (h : self.updateStates out = .error fault) :
    ∃ e ∈ out.scheduledCachedReqs,
      (fault = .keyError ∧ (e.reqId ∈ out.finishedReqIds ∨ e.reqId ∉ self.requests)) ∨
      (fault = .indexError ∧ self.isLastRank = false) ∨
      (fault = .resumedBlocks ∧ e.resumedFromPreemption = true ∧ e.newBlockIds = none) := by
  obtain ⟨hnewIds, hreqIds, hdisjoint⟩ :=
    List.nodup_append.mp (hentries.nodup_iff.mp out.numScheduledTokens.keys_nodup)
  have hrank := sameRank_foldl_addNewRequest out.scheduledNewReqs (self.removeRequests out)
  obtain ⟨_, hother⟩ := seen_addNewRequests (self.removeRequests out) hnewIds
  unfold updateStates at h
  obtain h | ⟨_, _, h⟩ := bind_eq_error.mp h
  · obtain ⟨e, he, w, hlast, hview, herror⟩ := foldlM_keyed_error
      CachedRequestEntry.reqId seen (I := fun w => w.isLastRank = self.isLastRank)
      (fun w e w' hlast hstep => by
        obtain ⟨hrank, _, hother⟩ := updateCachedRequest_eq_ok hstep
        exact ⟨hrank.isLastRank.trans hlast, hother⟩)
      hreqIds hrank.isLastRank h
    refine ⟨e, he, ?_⟩
    obtain ⟨rfl, hnone⟩ | ⟨rfl, hrank⟩ | hblocks := updateCachedRequest_error herror
    · left
      refine ⟨rfl, ?_⟩
      rw [hview, hother _ fun hnew => hdisjoint _ hnew _ (List.mem_map_of_mem he) rfl,
        seen_removeRequests] at hnone
      by_contra hnot
      rw [not_or, not_not] at hnot
      simp only [hnot.1, if_false] at hnone
      exact AList.lookup_eq_none.mp hnone hnot.2
    · exact Or.inr (Or.inl ⟨rfl, hlast ▸ hrank⟩)
    · exact Or.inr (Or.inr hblocks)
  · contradiction

end NPUModelRunner

end VllmAscend
