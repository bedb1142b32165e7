import VllmAscend.Worker.RowExecute

/-!
# Worker/MetadataOrder — the metadata is older than the order of the rows

    _update_states ──refresh_metadata──▸ row i : request of row i
    _prepare_inputs ──reorder_batch──▸ rows i ↔ j         the metadata stays as it is

The metadata is made in `_update_states`, of the rows as they are then; `reorder_batch` comes after
it.  So a request is sampled with the parameters of the one it changed places with
(`metadata_serves_rows`), as `metadata_misplaced` shows.
-/

namespace VllmAscend

open Machinery

namespace InputBatch

theorem Alike.symm {β τ : Type} {b : InputBatch β τ} {p p' : SamplingParams} (h : b.Alike p p') :
    b.Alike p' p :=
  ⟨h.temperature.symm, h.topP.imp_right Eq.symm, h.topK.symm, h.frequency.symm, h.presence.symm,
    h.repetition.symm⟩

end InputBatch

namespace RowRunner

variable {M β τ : Type} [BatchUpdateBuilder β] [MultiGroupBlockTable τ]

/-- **Row `i` of the metadata holds the sampling parameters of the request in row `i`.** -/
def ServesRows (requests : Dict FullRequestState) (b : InputBatch β τ) : Prop :=
  ∀ i id, b.reqIds[i]? = some (some id) → ∃ st params, requests.lookup id = some st ∧
    st.samplingParams = some params ∧ b.samplingMetadata.Serves b.toBatchConfig i params

/-- The requests in two rows have the same sampling parameters, as far as they are stored. -/
def AlikeRows (w : RowRunner β τ) (i j : ℕ) : Prop :=
  ∀ id id' st st' params params', w.inputBatch.reqIds[i]? = some (some id) →
    w.inputBatch.reqIds[j]? = some (some id') → w.requests.lookup id = some st →
    w.requests.lookup id' = some st' → st.samplingParams = some params →
    st'.samplingParams = some params' → w.inputBatch.Alike params params'

variable {w u : RowRunner β τ} {out : BatchOutput M} {order : SetOrder} {id : ReqId} {i : ℕ}

/-- After `_update_states` the requests in the batch are the scheduled ones. -/
theorem Updated.scheduled (h : Updated w u out) (hpromised : w.Promised out)
    (hid : id ∈ u.inputBatch.reqIdToIndex) : id ∈ out.numScheduledTokens := by
  rw [← AList.mem_keys.symm, hpromised.1.mem_iff, List.mem_append]
  by_contra hnot
  rw [not_or] at hnot
  have hrow : u.inputBatch.tokenRow id = none :=
    congrArg Prod.snd (h.other id hnot.1 hnot.2)
  exact AList.lookup_eq_none.mp (InputBatch.tokenRow_eq_none.mp hrow) hid

/-- **…and each row of the metadata serves its request.** -/
theorem Updated.serves (h : Updated w u out) (hid : u.inputBatch.reqIdToIndex.lookup id = some i) :
    ∃ st params, u.requests.lookup id = some st ∧ st.samplingParams = some params ∧
      u.inputBatch.samplingMetadata.Serves u.inputBatch.toBatchConfig i params := by
  obtain ⟨known, hsound, hknown⟩ := h.coupled.sound
  obtain ⟨r, params, hr, hparams, _⟩ := hsound.holds.exists_request hid
  obtain ⟨st, hst, hsame⟩ := hknown id r hr
  have hlt : i < u.inputBatch.numReqs := by
    rw [← hsound.length_reqIds]
    exact hsound.layout.index.lt hid
  exact ⟨st, params, hst, hsame.trans hparams, hsound.holds.serves h.inSync hlt hid hr hparams⟩

end RowRunner

namespace ServedRunner

open RowRunner

variable {M β τ : Type} [BatchUpdateBuilder β] [MultiGroupBlockTable τ] {s₀ s : ServedRunner β τ}

/-- **The metadata matches the order of the rows exactly when no two requests with different
parameters are exchanged**, in every run and for every next output. -/
theorem metadata_serves_rows (hinit : s₀.Initial)
    (run : Run (ServedRunner.step (M := M)) Promised s₀ s) {out : BatchOutput M} {order : SetOrder}
    {w : RowRunner β τ} (hpromised : s.runner.Promised out)
    (hupdate : s.runner.updateStates out order = .ok w) :
    ∃ numTokens b modified,
      w.inputBatch.scheduledTokens out.numScheduledTokens = .ok numTokens ∧
      w.inputBatch.reorderBatch out.numScheduledTokens = .ok (b, modified) ∧
      (ServesRows w.requests b ↔ ∀ p ∈ exchanges numTokens, w.AlikeRows p.1 p.2) := by
  have hupdated := updateStates_eq_ok (coupled_of_run hinit run) hpromised hupdate
  obtain ⟨known, hsound, _⟩ := hupdated.coupled.sound
  obtain ⟨numTokens, b, modified, hnum, hlength, hreorder, hexchanged⟩ :=
    hsound.reorderBatch_returns fun id hid => hupdated.scheduled hpromised hid
  refine ⟨numTokens, b, modified, hnum, hreorder, ?_⟩
  have hrow : ∀ {id : ReqId} {k : ℕ}, b.reqIds[k]? = some (some id) ↔
      ∃ i, w.inputBatch.reqIdToIndex.lookup id = some i ∧ exchange (exchanges numTokens) i = k := by
    intro id k
    refine (hexchanged.sound.layout.index id k).symm.trans ?_
    simp only [hexchanged.lookup, Option.map_eq_some_iff]
  have hpair : ∀ p ∈ exchanges numTokens,
      p.1 < w.inputBatch.reqIds.length ∧ p.2 < w.inputBatch.reqIds.length := by
    intro p hp
    obtain ⟨h₁, h₂⟩ := mem_of_mem_exchanges hp
    rw [← hlength]
    exact ⟨(mem_prefills.mp h₁).1, (List.getElem?_eq_some_iff.mp (mem_decodes.mp h₂)).1⟩
  constructor
  · -- the second request of a pair is sampled with the row of the first
    intro hserves p hp id id' st st' params params' hid hid' hst hst' hparams hparams'
    have hlookup := InputBatch.index_of_reqIds hsound.layout hid
    have hlookup' := InputBatch.index_of_reqIds hsound.layout hid'
    obtain ⟨st₁, params₁, hst₁, hparams₁, hown⟩ := hupdated.serves hlookup
    cases hst.symm.trans hst₁
    cases hparams.symm.trans hparams₁
    obtain ⟨st₂, params₂, hst₂, hparams₂, hown'⟩ := hupdated.serves hlookup'
    cases hst'.symm.trans hst₂
    cases hparams'.symm.trans hparams₂
    obtain ⟨st₃, params₃, hst₃, hparams₃, hmoved⟩ := hserves p.1 id' (hrow.mpr
      ⟨p.2, hlookup', (exchange_of_mem (nodup_exchanges numTokens) hp).2⟩)
    cases hst'.symm.trans hst₃
    cases hparams'.symm.trans hparams₃
    rw [hexchanged.samplingMetadata, hexchanged.config] at hmoved
    exact (hupdated.inSync.serves_iff_alike hown hown').mp hmoved
  · intro halike k id hid
    obtain ⟨i, hlookup, rfl⟩ := hrow.mp hid
    obtain ⟨st, params, hst, hparams, hown⟩ := hupdated.serves hlookup
    refine ⟨st, params, hst, hparams, ?_⟩
    rw [hexchanged.samplingMetadata, hexchanged.config]
    have hget := (hsound.layout.index id i).mp hlookup
    -- the request that was in the row this one has come to
    have hother : ∀ {j : ℕ}, j < w.inputBatch.reqIds.length →
        (∀ id' st' params', w.inputBatch.reqIds[j]? = some (some id') →
          w.requests.lookup id' = some st' → st'.samplingParams = some params' →
            w.inputBatch.Alike params' params) →
        w.inputBatch.samplingMetadata.Serves w.inputBatch.toBatchConfig j params := by
      intro j hj hsame
      obtain ⟨id', hid'⟩ := hsound.exists_reqId hj
      obtain ⟨st', params', hst', hparams', hown'⟩ :=
        hupdated.serves (InputBatch.index_of_reqIds hsound.layout hid')
      exact (hupdated.inSync.serves_iff_alike hown' hown).mpr (hsame id' st' params' hid' hst' hparams')
    by_cases hfst : i ∈ (exchanges numTokens).map Prod.fst
    · obtain ⟨p, hp, rfl⟩ := List.mem_map.mp hfst
      rw [(exchange_of_mem (nodup_exchanges numTokens) hp).1]
      exact hother (hpair p hp).2 fun id' st' params' hid' hst' hparams' =>
        (halike p hp id id' st st' params params' hget hid' hst hst' hparams hparams').symm
    · by_cases hsnd : i ∈ (exchanges numTokens).map Prod.snd
      · obtain ⟨p, hp, rfl⟩ := List.mem_map.mp hsnd
        rw [(exchange_of_mem (nodup_exchanges numTokens) hp).2]
        exact hother (hpair p hp).1 fun id' st' params' hid' hst' hparams' =>
          halike p hp id' id st' st params' params hid' hget hst' hst hparams' hparams
      · rw [exchange_of_notMem hfst hsnd]
        exact hown

/-- A worker at start, with MLA, that is the last rank. -/
def start (config : BatchConfig) (maxModelLen : ℕ) : ServedRunner UpdateBuilder RowBlocks where
  runner :=
    { requests := ∅
      inputBatch := .start config
      isLastRank := true
      broadcastPpOutput := false
      maxModelLen := maxModelLen
      useMla := true
      usesNgram := false }
  tokens _ := []

theorem start_initial {config : BatchConfig} {maxModelLen : ℕ}
    (h : config.isPoolingModel = false) : (start config maxModelLen).Initial :=
  ⟨rfl, (PersistentBatch.start_initial h).batch, h⟩

/-- Two new requests, one with a prompt of two tokens and the other with one of a single token. -/
def twoNew (params params' : SamplingParams) : BatchOutput Unit where
  scheduledNewReqs := [⟨"a", [1, 2], [[1]], 0, none⟩, ⟨"b", [3], [[2]], 0, none⟩]
  scheduledCachedReqs := []
  numScheduledTokens := (∅ : Dict ℤ).insert "b" 1 |>.insert "a" 2
  totalNumScheduledTokens := 3
  scheduledSpecDecodeTokens := ∅
  finishedReqIds := ∅
  kvConnectorMetadata := none
  samplingParams id := if id = "a" then some params else some params'
  poolingParams _ := none

/-- `SamplingParams(temperature=1)`. -/
def random : SamplingParams :=
  { SamplingParams.greedy with samplingType := .random, temperature := 1 }

/-- Two requests with the same parameters are exchanged. -/
theorem metadata_serves_rows_small : ∃ w,
    (start .small 8).runner.updateStates (twoNew random random) .sorted = .ok w ∧
    ∃ numTokens b modified,
      w.inputBatch.scheduledTokens (twoNew random random).numScheduledTokens = .ok numTokens ∧
      w.inputBatch.reorderBatch (twoNew random random).numScheduledTokens = .ok (b, modified) ∧
      (ServesRows w.requests b ↔ ∀ p ∈ exchanges numTokens, w.AlikeRows p.1 p.2) := by
  obtain ⟨w, hw⟩ := exists_of_isOk
    (x := (start .small 8).runner.updateStates (twoNew random random) .sorted) (by decide +kernel)
  exact ⟨w, hw, metadata_serves_rows (start_initial rfl) Run.refl (by decide +kernel) hw⟩

/-- **A greedy request is sampled at the temperature of another one**, and the other greedily. -/
theorem metadata_misplaced : ∃ w b,
    (start .small 8).runner.Promised (twoNew random .greedy) ∧
    (start .small 8).runner.updateStates (twoNew random .greedy) .sorted = .ok w ∧
    w.inputBatch.reorderBatch (twoNew random .greedy).numScheduledTokens = .ok (b, true) ∧
    ¬ServesRows w.requests b := by
  obtain ⟨⟨w, b, modified⟩, hok, rfl, hrow, hst, hcolumn⟩ : Returns (do
      let w ← (start .small 8).runner.updateStates (twoNew random .greedy) .sorted
      let reordered ← (w.inputBatch.reorderBatch
        (twoNew random .greedy).numScheduledTokens).mapError .batch
      return (w, reordered) : Except RunnerFault _)
      fun p => p.2.2 = true ∧ p.2.1.reqIds[0]? = some (some "b") ∧
        (p.1.requests.lookup "b").bind (·.samplingParams) = some .greedy ∧
        p.2.1.samplingMetadata.temperature = some [1, -1] := by
    decide +kernel
  simp only [bind_eq_ok, mapError_eq_ok] at hok
  obtain ⟨w', hupdate, reordered, hreorder, hok⟩ := hok
  cases hok
  refine ⟨w, b, by decide +kernel, hupdate, hreorder, fun hserves => ?_⟩
  obtain ⟨st, params, hst', hparams, hrow'⟩ := hserves 0 "b" hrow
  rw [hst', Option.bind_some, hparams] at hst
  cases hst
  have htemperature := hrow'.temperature
  rw [hcolumn] at htemperature
  have heq : (1 : ℚ) = -1 := Option.some.inj htemperature
  exact absurd heq (by decide)

end ServedRunner

end VllmAscend
