import VllmAscend.Worker.UpdateStates

/-!
# Worker/ExecuteModel — the sampled tokens are cached

    num_tokens_no_spec ──len(sampled)──▸ end_idx ≤ max_model_len

A rank that samples appends to the state and to the row of each request of its batch what was
sampled for it, and asserts that the row does not grow over the model length.  `executeModel_eq_ok`
says what it leaves, `executeModel_maxModelLen` when the assertion fails.
-/

namespace VllmAscend

open Machinery

variable {M : Type}

namespace NPUModelRunner

variable {self w w' : NPUModelRunner} {out : SchedulerOutput M} {id : ReqId}
  {res res' : ModelRunnerOutput}

/-- What caching the sampled tokens makes of a state and a row. -/
def Appended (maxModelLen : ℕ) (sampled : List Token)
    (v v' : Option CachedRequestState × Option InputRow) : Prop :=
  (sampled = [] ∧ v' = v) ∨ ∃ st row, v = (some st, some row) ∧
    row.numTokensNoSpec + sampled.length ≤ maxModelLen ∧
    v' = (some { st with outputTokenIds := st.outputTokenIds ++ sampled },
      some { row with
        numTokensNoSpec := row.numTokensNoSpec + sampled.length
        numTokens := row.numTokensNoSpec + sampled.length })

theorem appendSampled_eq_ok {sampled : List Token} (h : self.appendSampled id sampled = .ok w) :
    SameRank self w ∧ Appended self.maxModelLen sampled (self.seen id) (w.seen id) ∧
      ∀ id', id' ≠ id → w.seen id' = self.seen id' := by
  unfold appendSampled at h
  split at h
  · next hnil =>
    cases h
    exact ⟨.refl self, Or.inl ⟨hnil, rfl⟩, fun _ _ => rfl⟩
  · split at h
    · next row st hrow hst =>
      simp only at h
      split at h
      · next hle =>
        cases h
        refine ⟨⟨rfl, rfl, rfl⟩, Or.inr ⟨st, row, ?_, hle, ?_⟩, fun id' hne => ?_⟩
        · rw [seen, hrow, hst]
        · simp [seen]
        · simp [seen, AList.lookup_insert_ne hne]
      · contradiction
    · contradiction

/-- The assertion on `end_idx`. -/
theorem appendSampled_maxModelLen {sampled : List Token}
    (h : self.appendSampled id sampled = .error .maxModelLen) :
    ∃ row, (self.seen id).2 = some row ∧
      (self.maxModelLen : ℤ) < row.numTokensNoSpec + sampled.length := by
  unfold appendSampled at h
  split at h
  · contradiction
  · split at h
    · next row st hrow hst =>
      simp only at h
      split at h
      · contradiction
      · exact ⟨row, hrow, by omega⟩
    · cases h

/-- The tokens are cached in the states `w`. -/
structure Sampled (w w' : NPUModelRunner) (sampled : ReqId → List Token) : Prop where
  rank : SameRank w w'
  batch : ∀ id, (w.inputBatch.lookup id).isSome →
    Appended w.maxModelLen (sampled id) (w.seen id) (w'.seen id)
  other : ∀ id, w.inputBatch.lookup id = none → w'.seen id = w.seen id

/-- **What `execute_model` leaves**: on a rank that samples, the states with the valid tokens
appended, else the states as they were updated. -/
theorem executeModel_eq_ok (h : self.executeModel out res = .ok (w', res')) :
    ∃ w, self.updateStates out = .ok w ∧
      ((w.Samples ∧ Sampled w w' (w.validSampledTokenIds out res.sampledTokenIds) ∧
        res' = { res with
          sampledTokenIds := w.validSampledTokenIds out res.sampledTokenIds }) ∨
        (¬w.Samples ∧ w' = w ∧ res' = res)) := by
  unfold executeModel at h
  rw [bind_eq_ok] at h
  obtain ⟨w, hupdate, h⟩ := h
  refine ⟨w, hupdate, ?_⟩
  by_cases hsamples : w.Samples
  · left
    rw [if_pos hsamples, bind_eq_ok] at h
    obtain ⟨sampled, hfold, h⟩ := h
    cases h
    obtain ⟨hrank, hbatch, hother⟩ := foldlM_keyed (fun id : ReqId => id) seen
      (I := SameRank w)
      (R := fun id v v' => Appended w.maxModelLen
        (w.validSampledTokenIds out res.sampledTokenIds id) v v')
      (fun w₁ id w₂ hrank hstep => by
        obtain ⟨hrank', hown, hother⟩ := appendSampled_eq_ok hstep
        rw [hrank.maxModelLen] at hown
        exact ⟨hrank.trans hrank', hown, hother⟩)
      (by simpa using w.inputBatch.keys_nodup) (.refl w) hfold
    refine ⟨hsamples, ⟨hrank, fun id hid => ?_, fun id hid => ?_⟩, rfl⟩
    · exact hbatch id (AList.mem_keys.mpr (AList.lookup_isSome.mp hid))
    · refine hother id ?_
      rw [List.map_id']
      exact fun hmem => AList.lookup_eq_none.mp hid (AList.mem_keys.mp hmem)
  · right
    rw [if_neg hsamples] at h
    cases h
    exact ⟨hsamples, rfl, rfl⟩

/-- **When the assertion on `end_idx` fails**: on a rank that samples, for a request whose row would
grow over the model length. -/
theorem executeModel_maxModelLen
    (hentries : out.numScheduledTokens.keys.Perm (out.newIds ++ out.reqIds))
    (h : self.executeModel out res = .error .maxModelLen) :
    ∃ w, self.updateStates out = .ok w ∧ w.Samples ∧ ∃ id row,
      w.inputBatch.lookup id = some row ∧ (w.maxModelLen : ℤ) <
        row.numTokensNoSpec + (w.validSampledTokenIds out res.sampledTokenIds id).length := by
  unfold executeModel at h
  obtain h | ⟨w, hupdate, h⟩ := bind_eq_error.mp h
  · obtain ⟨_, _, ⟨hfault, _⟩ | ⟨hfault, _⟩ | ⟨hfault, _⟩⟩ := updateStates_error hentries h <;>
      contradiction
  refine ⟨w, hupdate, ?_⟩
  by_cases hsamples : w.Samples
  · rw [if_pos hsamples] at h
    obtain h | ⟨_, _, h⟩ := bind_eq_error.mp h
    · obtain ⟨id, _, w₁, hrank, hview, herror⟩ := foldlM_keyed_error
        (fun id : ReqId => id) seen (I := SameRank w)
        (fun w₁ id w₂ hrank hstep => by
          obtain ⟨hrank', _, hother⟩ := appendSampled_eq_ok hstep
          exact ⟨hrank.trans hrank', hother⟩)
        (by simpa using w.inputBatch.keys_nodup) (.refl w) h
      obtain ⟨row, hrow, hlt⟩ := appendSampled_maxModelLen herror
      rw [hrank.maxModelLen] at hlt
      exact ⟨hsamples, id, row, (congrArg Prod.snd hview).symm.trans hrow, hlt⟩
    · contradiction
  · rw [if_neg hsamples] at h
    contradiction

/-- Caching tokens does not touch the blocks. -/
theorem Sampled.blockIds {sampled : ReqId → List Token} (h : Sampled w w' sampled) (id : ReqId) :
    (w'.requests.lookup id).map CachedRequestState.blockIds =
      (w.requests.lookup id).map CachedRequestState.blockIds := by
  cases hrow : w.inputBatch.lookup id with
  | none => exact congrArg (fun v => Option.map CachedRequestState.blockIds v.1) (h.other id hrow)
  | some row =>
    obtain ⟨_, hsame⟩ | ⟨st, row, hseen, _, hseen'⟩ := h.batch id (by rw [hrow]; rfl)
    · exact congrArg (fun v => Option.map CachedRequestState.blockIds v.1) hsame
    · have hst : w.requests.lookup id = some st := congrArg Prod.fst hseen
      have hst' : w'.requests.lookup id = _ := congrArg Prod.fst hseen'
      rw [hst, hst']
      rfl

end NPUModelRunner

end VllmAscend
