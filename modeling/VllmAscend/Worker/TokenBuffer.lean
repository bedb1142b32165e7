import VllmAscend.Worker.MetadataOrder

/-!
# Worker/TokenBuffer — which drafts reach the token buffer

    in the batch        prompt │ output │ drafts        num_tokens = num_tokens_no_spec + drafts
    new, or back again  prompt │ output │               num_tokens = num_tokens_no_spec

On the last rank `_update_states` writes the scheduled drafts of a request behind its tokens, but only when the
request has a row already; `add_request` writes no drafts.  So in every run, whoever left and came back, the buffer
agrees with the scheduler for the requests without drafts and for those that did not leave
(`token_buffer_iff`).
-/

namespace VllmAscend

open Machinery

namespace RowRunner

variable {M β τ : Type} [BatchUpdateBuilder β] [MultiGroupBlockTable τ] {w u w' : RowRunner β τ}
  {out : BatchOutput M} {order : SetOrder} {id : ReqId} {sampledTokenIds returned : ReqId → List Token}

/-! ## What the rows hold -/

/-- The rows hold the tokens of their requests, and no drafts. -/
def Rests (w : RowRunner β τ) : Prop :=
  ∀ id st t, w.view id = (some st, some t) → t.Holds st

/-- The drafts that `_update_states` writes for a request. -/
def storedDrafts (w : RowRunner β τ) (out : BatchOutput M) (id : ReqId) : List Token :=
  if id ∈ w.inputBatch.reqIdToIndex ∧ id ∉ out.newIds then out.specTokenIds id else []

omit [BatchUpdateBuilder β] [MultiGroupBlockTable τ] in
theorem storedDrafts_eq_or (w : RowRunner β τ) (out : BatchOutput M) (id : ReqId) :
    storedDrafts w out id = out.specTokenIds id ∨ storedDrafts w out id = [] := by
  rw [storedDrafts]
  split
  · exact Or.inl rfl
  · exact Or.inr rfl

/-- A scheduled request has a state and a row. -/
theorem Updated.exists_view (h : Updated w u out) (hpromised : w.Promised out) (hid : id ∈ out.numScheduledTokens) :
    ∃ st t, u.view id = (some st, some t) := by
  rcases List.mem_append.mp (hpromised.1.mem_iff.mp (AList.mem_keys.mp hid)) with hnew | hreq
  · obtain ⟨d, hd, rfl⟩ := List.mem_map.mp hnew
    exact ⟨_, _, h.fresh d hd⟩
  · obtain ⟨e, he, rfl⟩ := List.mem_map.mp hreq
    obtain ⟨st, cached, hcached⟩ := h.cached e he
    obtain ⟨t, ht⟩ := Option.isSome_iff_exists.mp hcached.hasRow
    exact ⟨_, t, Prod.ext hcached.after ht⟩

/-- **The rows after `_update_states`**: the tokens of the request, and the drafts if it had a row. -/
theorem Updated.row_eq (h : Updated w u out) (hlast : w.isLastRank = true) (hrests : w.Rests)
    {st : FullRequestState} {t : TokenRow} (hview : u.view id = (some st, some t)) :
    t = TokenRow.withSpec st (storedDrafts w out id) := by
  rw [storedDrafts]
  by_cases hnew : id ∈ out.newIds
  · obtain ⟨d, hd, rfl⟩ := List.mem_map.mp hnew
    rw [h.fresh d hd, Prod.mk.injEq, Option.some.injEq, Option.some.injEq] at hview
    obtain ⟨rfl, rfl⟩ := hview
    rw [if_neg fun hmem => hmem.2 hnew, TokenRow.withSpec_nil]
  by_cases hreq : id ∈ out.reqIds
  · obtain ⟨e, he, rfl⟩ := List.mem_map.mp hreq
    obtain ⟨st₀, cached, hcached⟩ := h.cached e he
    obtain rfl : st = { st₀ with toCachedRequestState := cached } :=
      Option.some.inj ((congrArg Prod.fst hview).symm.trans hcached.after)
    have hrow : u.inputBatch.tokenRow e.reqId = some t := congrArg Prod.snd hview
    cases hbefore : w.inputBatch.tokenRow e.reqId with
    | none =>
      have habsent : e.reqId ∉ w.inputBatch.reqIdToIndex :=
        AList.lookup_eq_none.mp (InputBatch.tokenRow_eq_none.mp hbefore)
      rw [if_neg fun hmem => habsent hmem.1, TokenRow.withSpec_nil]
      exact Option.some.inj (hrow.symm.trans (hcached.added hbefore))
    | some t₀ =>
      have hin : e.reqId ∈ w.inputBatch.reqIdToIndex := by
        by_contra habsent
        rw [InputBatch.tokenRow_eq_none.mpr (AList.lookup_eq_none.mpr habsent)] at hbefore
        contradiction
      have hsettled : Settled (w.view e.reqId) := fun st₁ hst₁ t₁ ht₁ =>
        hrests e.reqId st₁ t₁ (Prod.ext hst₁ ht₁)
      rw [if_pos ⟨hin, hnew⟩]
      exact Option.some.inj (hrow.symm.trans (hcached.kept (hbefore ▸ rfl) hlast hsettled))
  · rw [h.other id hnew hreq] at hview
    exact absurd (congrArg Prod.snd hview) (Option.some_ne_none t).symm

/-- What is promised of a step with drafts: it reaches the end of the known tokens of the request, and a token is
sampled for it. -/
def Verifies (w : RowRunner β τ) (out : BatchOutput M) (sampledTokenIds : ReqId → List Token) : Prop :=
  ∀ e ∈ out.scheduledCachedReqs, out.specTokenIds e.reqId ≠ [] →
    out.totalNumScheduledTokens ≠ 0 ∧ sampledTokenIds e.reqId ≠ [] ∧
      ∀ st ∈ w.requests.lookup e.reqId, ∀ n ∈ out.numScheduledTokens.lookup e.reqId,
        (st.numTokens : ℤ) ≤ e.numComputedTokens + n

instance (w : RowRunner β τ) (out : BatchOutput M) (sampledTokenIds : ReqId → List Token) :
    Decidable (w.Verifies out sampledTokenIds) :=
  inferInstanceAs (Decidable (∀ e ∈ out.scheduledCachedReqs, _))

/-- Where drafts were written, tokens are sampled. -/
theorem Updated.validTokens_ne_nil (h : Updated w u out) (hpromised : w.Promised out) (hlast : w.isLastRank = true)
    (hverifies : w.Verifies out sampledTokenIds) (hrow : (u.inputBatch.tokenRow id).isSome)
    (hdrafts : storedDrafts w out id ≠ []) :
    out.totalNumScheduledTokens ≠ 0 ∧ u.validTokens out.toSchedulerOutput sampledTokenIds id ≠ [] := by
  rw [storedDrafts] at hdrafts
  split at hdrafts
  · next hmem =>
    have hreq : id ∈ out.reqIds := by
      by_contra hreq
      have hnone : u.inputBatch.tokenRow id = none := congrArg Prod.snd (h.other id hmem.2 hreq)
      rw [hnone] at hrow
      contradiction
    obtain ⟨e, he, rfl⟩ := List.mem_map.mp hreq
    obtain ⟨htotal, hsampled, hreaches⟩ := hverifies e he hdrafts
    obtain ⟨st, cached, hcached⟩ := h.cached e he
    obtain ⟨hprompt, -, hcomputed, houtput⟩ := NPUModelRunner.updateState_eq_ok hcached.update
    have hkey : e.reqId ∈ out.numScheduledTokens :=
      AList.mem_keys.mpr (hpromised.1.mem_iff.mpr (List.mem_append_right _ hreq))
    obtain ⟨n, hn⟩ := Option.isSome_iff_exists.mp (AList.lookup_isSome.mpr hkey)
    have hnumTokens : cached.numTokens = st.numTokens := by
      rw [CachedRequestState.numTokens, CachedRequestState.numTokens, hprompt, houtput hlast]
    refine ⟨htotal, ?_⟩
    rw [validTokens, hcached.after, hn]
    change (if cached.numComputedTokens + n < cached.numTokens then [] else sampledTokenIds e.reqId) ≠ []
    rw [if_neg (by rw [hcomputed, hnumTokens]; exact not_lt.mpr (hreaches st hcached.before n hn))]
    exact hsampled
  · exact absurd rfl hdrafts

/-- A row with drafts rests again when tokens are written over the drafts. -/
theorem holds_of_appended {st : FullRequestState} {drafts sampled : List Token} {t t' : TokenRow}
    (ht : t = TokenRow.withSpec st drafts)
    (ht' : t' = { t with
      tokens := t.tokens.take t.numTokensNoSpec ++ sampled
      numTokens := t.numTokensNoSpec + sampled.length
      numTokensNoSpec := t.numTokensNoSpec + sampled.length }) :
    t'.Holds { st with outputTokenIds := st.outputTokenIds ++ sampled } := by
  have hlength : (st.promptTokenIds ++ st.outputTokenIds).length = st.numTokens := List.length_append
  have hcount : st.numTokens + sampled.length =
      ({ st with outputTokenIds := st.outputTokenIds ++ sampled } : FullRequestState).numTokens := by
    rw [CachedRequestState.numTokens, CachedRequestState.numTokens, List.length_append]
    exact Nat.add_assoc _ _ _
  subst ht ht'
  refine ⟨?_, hcount, hcount⟩
  change (st.promptTokenIds ++ st.outputTokenIds ++ drafts).take st.numTokens ++ sampled = _
  rw [← hlength, List.take_left, List.append_assoc]

/-- **A step leaves the rows at rest.** -/
theorem Rests.executeModel (h : w.Coupled .between) (hpromised : w.Promised out) (hlast : w.isLastRank = true)
    (hrests : w.Rests) (hverifies : w.Verifies out sampledTokenIds)
    (hok : w.executeModel out order sampledTokenIds = .ok (w', returned)) : w'.Rests := by
  obtain ⟨u, -, hupdated, hexecuted⟩ := executeModel_eq_ok h hpromised hok
  have hsamples : u.Samples := Or.inl (hupdated.rank.isLastRank.trans hlast)
  intro id st t hview
  -- without drafts the row is at rest as it is
  have hquiet : u.view id = (some st, some t) → storedDrafts w out id = [] → t.Holds st := fun hu hnil => by
    rw [hupdated.row_eq hlast hrests hu, hnil, TokenRow.withSpec_nil]
    exact TokenRow.holds_tokenRow st
  rcases hrow : u.inputBatch.tokenRow id with _ | t₀
  · have hsame : w'.view id = u.view id := (hexecuted.other id hrow).2
    have hnone : (some t : Option TokenRow) = none := (congrArg Prod.snd (hview.symm.trans hsame)).trans hrow
    contradiction
  have hsome : (u.inputBatch.tokenRow id).isSome := hrow ▸ rfl
  have hdrafts : storedDrafts w out id ≠ [] → _ :=
    hupdated.validTokens_ne_nil hpromised hlast hverifies hsome
  rcases hexecuted.batch id hsome with ⟨-, -, -, happended⟩ | ⟨hidle, -, hsame⟩
  · rcases happended with ⟨hnil, hsame⟩ | ⟨-, st₁, t₁, hu, -, hst, -, ht⟩
    · refine hquiet (hsame.symm.trans hview) (by_contra fun hne => (hdrafts hne).2 hnil)
    · have hrow₁ := hupdated.row_eq hlast hrests hu
      have ht' := ht (by rw [hrow₁]; exact Nat.le_add_right _ _)
      rw [hview] at hst ht'
      obtain rfl := Option.some.inj hst
      exact holds_of_appended hrow₁ (Option.some.inj ht')
  · refine hquiet (hsame.symm.trans hview) (by_contra fun hne => ?_)
    exact hidle.elim (fun hnot => hnot hsamples) (hdrafts hne).1

end RowRunner

/-! ## The buffer of a run -/

/-- **The token buffer agrees with the scheduler**: the row holds the tokens of the request, behind them the drafts,
and both are counted. -/
structure InputBatch.BufferHolds {β τ : Type} (b : InputBatch β τ) (i : ℕ) (st : FullRequestState)
    (specTokenIds : List Token) : Prop where
  tokens : (List.range (b.numTokensNoSpec i)).map (b.tokenIdsCpu i) = st.promptTokenIds ++ st.outputTokenIds
  drafts : (List.range specTokenIds.length).map (fun j => b.tokenIdsCpu i (b.numTokensNoSpec i + j)) = specTokenIds
  numTokens : b.numTokens i = b.numTokensNoSpec i + specTokenIds.length

namespace InputBatch

variable {β τ : Type} {b : InputBatch β τ} {i : ℕ} {st : FullRequestState} {drafts specTokenIds : List Token}

/-- A row with drafts, read place by place. -/
theorem bufferHolds_withSpec (h : b.tokenRowAt i = TokenRow.withSpec st drafts) : b.BufferHolds i st drafts := by
  have htokens : (List.range (b.numTokens i)).map (b.tokenIdsCpu i) =
      st.promptTokenIds ++ st.outputTokenIds ++ drafts := congrArg TokenRow.tokens h
  have hnoSpec : b.numTokensNoSpec i = st.numTokens := congrArg TokenRow.numTokensNoSpec h
  have hnum : b.numTokens i = st.numTokens + drafts.length := congrArg TokenRow.numTokens h
  have hlength : (st.promptTokenIds ++ st.outputTokenIds).length = st.numTokens := List.length_append
  rw [hnum, List.range_add, List.map_append, List.map_map] at htokens
  obtain ⟨hbefore, hbehind⟩ := List.append_inj htokens (by rw [List.length_map, List.length_range, hlength])
  refine ⟨hnoSpec ▸ hbefore, ?_, by rw [hnum, hnoSpec]⟩
  rw [hnoSpec]
  exact hbehind

/-- Drafts that are scheduled and not written are missed. -/
theorem bufferHolds_iff (h : b.tokenRowAt i = TokenRow.withSpec st drafts)
    (hdrafts : drafts = specTokenIds ∨ drafts = []) :
    b.BufferHolds i st specTokenIds ↔ drafts = specTokenIds := by
  refine ⟨fun hholds => ?_, fun heq => heq ▸ bufferHolds_withSpec h⟩
  have hlength : drafts.length = specTokenIds.length :=
    Nat.add_left_cancel ((bufferHolds_withSpec h).numTokens.symm.trans hholds.numTokens)
  rcases hdrafts with heq | hnil
  · exact heq
  · rw [hnil, List.length_nil] at hlength
    exact hnil.trans (List.length_eq_zero_iff.mp hlength.symm).symm

end InputBatch

namespace ServedRunner

open RowRunner

variable {M β τ : Type} [BatchUpdateBuilder β] [MultiGroupBlockTable τ] {s₀ s : ServedRunner β τ}
  {out : BatchOutput M} {order : SetOrder} {u : RowRunner β τ} {id : ReqId}

/-- A step that is promised, and verifies its drafts. -/
def Verified (s : ServedRunner β τ) (a : RunnerInput M) : Prop :=
  s.Promised a ∧ s.runner.Verifies a.out a.sampledTokenIds

instance (s : ServedRunner β τ) : DecidablePred (s.Verified (M := M)) := fun a =>
  inferInstanceAs (Decidable (s.Promised a ∧ s.runner.Verifies a.out a.sampledTokenIds))

/-- **Between any two steps of the last rank** the rows are at rest. -/
theorem rests_of_run (hinit : s₀.Initial) (hlast : s₀.runner.isLastRank = true)
    (run : Run (ServedRunner.step (M := M)) Verified s₀ s) :
    s.runner.Coupled .between ∧ s.runner.isLastRank = true ∧ s.runner.Rests := by
  refine run.invariant (I := fun s => s.runner.Coupled .between ∧ s.runner.isLastRank = true ∧ s.runner.Rests) ?_
    ⟨hinit.coupled, hlast, fun id st t hview => ?_⟩
  · rintro s a s' ⟨hcoupled, hlast, hrests⟩ ⟨hpromised, hverifies⟩ hok
    obtain ⟨returned, hexecute, -⟩ := step_eq_ok hok
    obtain ⟨u, -, hupdated, hexecuted⟩ := executeModel_eq_ok hcoupled hpromised hexecute
    exact ⟨hexecuted.coupled, hexecuted.rank.isLastRank.trans (hupdated.rank.isLastRank.trans hlast),
      Rests.executeModel hcoupled hpromised hlast hrests hverifies hexecute⟩
  · have hnone : s₀.runner.requests.lookup id = none := by rw [hinit.requests]; rfl
    have hsome : s₀.runner.requests.lookup id = some st := congrArg Prod.fst hview
    rw [hnone] at hsome
    contradiction

/-- **The token buffer agrees with the scheduler for exactly the requests without drafts and those that have stayed.**
In every run of the last rank, whatever requests were left out of steps and came back, every scheduled request has a
state and a row after `_update_states`; the row holds its tokens and the scheduled drafts, counted, if and only if
there are no drafts for it or it was in the batch before. -/
theorem token_buffer_iff (hinit : s₀.Initial) (hlast : s₀.runner.isLastRank = true)
    (run : Run (ServedRunner.step (M := M)) Verified s₀ s) (hpromised : s.runner.Promised out)
    (hupdate : s.runner.updateStates out order = .ok u) (hid : id ∈ out.numScheduledTokens) :
    ∃ st i, u.requests.lookup id = some st ∧ u.inputBatch.reqIdToIndex.lookup id = some i ∧
      (u.inputBatch.BufferHolds i st (out.specTokenIds id) ↔
        out.specTokenIds id = [] ∨ (id ∈ s.runner.inputBatch.reqIdToIndex ∧ id ∉ out.newIds)) := by
  obtain ⟨hcoupled, hrank, hrests⟩ := rests_of_run hinit hlast run
  have hupdated := updateStates_eq_ok hcoupled hpromised hupdate
  obtain ⟨st, t, hview⟩ := hupdated.exists_view hpromised hid
  obtain ⟨i, hi, hrow⟩ := Option.map_eq_some_iff.mp (congrArg Prod.snd hview)
  have heq := hrow.trans (hupdated.row_eq hrank hrests hview)
  refine ⟨st, i, congrArg Prod.fst hview, hi, ?_⟩
  rw [InputBatch.bufferHolds_iff heq (storedDrafts_eq_or _ _ _), storedDrafts]
  split
  · next hmem => exact iff_of_true rfl (Or.inr hmem)
  · next hmem => exact ⟨fun hnil => Or.inl hnil.symm, fun hor => (hor.resolve_right hmem).symm⟩

/-- The second of two requests alone, with a draft. -/
def secondDrafted : BatchOutput Unit where
  scheduledNewReqs := []
  scheduledCachedReqs := [⟨"b", false, [], none, 1⟩]
  numScheduledTokens := (∅ : Dict ℤ).insert "b" 2
  totalNumScheduledTokens := 2
  scheduledSpecDecodeTokens := (∅ : Dict (List Token)).insert "b" [7]
  finishedReqIds := ∅
  kvConnectorMetadata := none
  samplingParams _ := none
  poolingParams _ := none

/-- The two of them, each with a draft. -/
def bothDrafted : BatchOutput Unit where
  scheduledNewReqs := []
  scheduledCachedReqs := [⟨"a", false, [], none, 2⟩, ⟨"b", false, [], none, 3⟩]
  numScheduledTokens := (∅ : Dict ℤ).insert "a" 2 |>.insert "b" 2
  totalNumScheduledTokens := 4
  scheduledSpecDecodeTokens := (∅ : Dict (List Token)).insert "a" [4] |>.insert "b" [5]
  finishedReqIds := ∅
  kvConnectorMetadata := none
  samplingParams _ := none
  poolingParams _ := none

/-- **A request comes back with a draft, and its row has none.** -/
theorem token_buffer_returned : ∃ s u st i,
    feed ServedRunner.step (start .small 8) [⟨twoNew random random, .sorted, fun _ => [6]⟩,
      ⟨secondDrafted, .sorted, fun _ => [7, 2]⟩] = .ok s ∧
    s.runner.updateStates bothDrafted .sorted = .ok u ∧ u.requests.lookup "a" = some st ∧
    u.inputBatch.reqIdToIndex.lookup "a" = some i ∧ ¬u.inputBatch.BufferHolds i st [4] := by
  obtain ⟨⟨s, u⟩, hok, habsent⟩ : Returns (do
      let s ← feed ServedRunner.step (start .small 8) [⟨twoNew random random, .sorted, fun _ => [6]⟩,
        ⟨secondDrafted, .sorted, fun _ => [7, 2]⟩]
      return (s, ← s.runner.updateStates bothDrafted .sorted) : Except RunnerFault _)
      fun p => p.1.runner.Promised bothDrafted ∧ "a" ∉ p.1.runner.inputBatch.reqIdToIndex := by
    decide +kernel
  simp only [bind_eq_ok] at hok
  obtain ⟨s', hfeed, u', hupdate, hok⟩ := hok
  cases hok
  have hback : "a" ∈ bothDrafted.numScheduledTokens := by decide
  obtain ⟨st, i, hst, hi, hiff⟩ := token_buffer_iff (start_initial rfl) rfl
    (Run.of_feed hfeed (by decide +kernel)) habsent.1 hupdate hback
  refine ⟨s, u, st, i, hfeed, hupdate, hst, hi, fun hholds => ?_⟩
  rcases hiff.mp hholds with hnil | hstayed
  · contradiction
  · exact habsent.2 hstayed.1

end ServedRunner

end VllmAscend
