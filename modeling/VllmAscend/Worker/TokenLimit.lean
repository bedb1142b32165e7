import VllmAscend.Core.Readiness
import VllmAscend.Worker.Serving

/-!
# Worker/TokenLimit — the sampled tokens and the model length

    positions   num_computed_tokens + 1 + k  ≤  max_model_len          bounded by the decode loop
    tokens      num_tokens + 1 + k           ≤  max_model_len + 1      asserted by the model runner

The decode loop bounds the positions that are computed, and the token sampled after the last of them
is one more.  So a request whose tokens and scheduled drafts fill the context window passes it when
all its drafts are accepted, and never otherwise.  What the worker counts is bounded by what the
scheduler counts and the worker has returned since (`TokensBounded`).
-/

namespace VllmAscend

open Machinery

variable {σ κ M : Type}

namespace NPUModelRunner

/-! ## What an output does to the counts -/

variable {w w' : NPUModelRunner} {out : SchedulerOutput M} {st st' : CachedRequestState}
  {e : CachedRequestEntry} {isLastRank : Bool} {id : ReqId} {m n : ℕ}

/-- The state and the row of a request count no more than `n` tokens. -/
structure Counts (w : NPUModelRunner) (id : ReqId) (n : ℕ) : Prop where
  state : ∀ st, w.requests.lookup id = some st → st.numTokens ≤ n
  row : ∀ row, w.inputBatch.lookup id = some row → row.numTokensNoSpec ≤ n

theorem Counts.mono (h : Counts w id m) (hle : m ≤ n) : Counts w id n :=
  ⟨fun st hst => (h.state st hst).trans hle, fun row hrow => (h.row row hrow).trans (by omega)⟩

theorem Counts.congr (h : Counts w id n) (hseen : w'.seen id = w.seen id) : Counts w' id n :=
  ⟨fun st hst => h.state st ((congrArg Prod.fst hseen).symm.trans hst),
    fun row hrow => h.row row ((congrArg Prod.snd hseen).symm.trans hrow)⟩

/-- The tokens that are sent back reach as far as the entry says. -/
theorem receiveTokens_numTokens {tokens : List Token}
    (h : receiveTokens isLastRank st tokens = .ok st') :
    st'.numComputedTokens = st.numComputedTokens ∧
      (st'.numTokens : ℤ) ≤ max (st.numTokens : ℤ) (st.numComputedTokens + tokens.length) := by
  unfold receiveTokens at h
  simp only at h
  split_ifs at h with hlast hone hpos
  · cases h
    exact ⟨rfl, le_max_left _ _⟩
  · split at h
    · contradiction
    · cases h
      refine ⟨rfl, ?_⟩
      simp only [CachedRequestState.numTokens, List.length_append, List.length_singleton] at hone ⊢
      omega
  · cases h
    refine ⟨rfl, ?_⟩
    simp only [CachedRequestState.numTokens, List.length_append, List.length_drop] at hpos ⊢
    omega
  · cases h
    exact ⟨rfl, le_max_left _ _⟩

theorem updateState_numTokens (h : updateState isLastRank st e = .ok st') :
    st'.numComputedTokens = e.numComputedTokens ∧
      (st'.numTokens : ℤ) ≤
        max (st.numTokens : ℤ) (e.numComputedTokens + e.newTokenIds.length) := by
  unfold updateState at h
  rw [bind_eq_ok] at h
  obtain ⟨st₁, hreceive, h⟩ := h
  have hreceived := receiveTokens_numTokens hreceive
  have hsame : st'.numComputedTokens = st₁.numComputedTokens ∧ st'.numTokens = st₁.numTokens := by
    unfold updateBlockIds at h
    split at h
    · split at h
      · contradiction
      · cases h
        exact ⟨rfl, rfl⟩
    · split at h
      · cases h
        exact ⟨rfl, rfl⟩
      · cases h
        exact ⟨rfl, rfl⟩
  rw [hsame.1, hsame.2]
  exact hreceived

/-- To the state and the row of a request is appended what was sampled for it, or nothing. -/
theorem Counts.appended {maxModelLen : ℕ} {sampled : List Token} (h : Counts w id n)
    (happended : Appended maxModelLen sampled (w.seen id) (w'.seen id)) :
    Counts w' id (n + sampled.length) := by
  obtain ⟨_, hseen⟩ | ⟨st, row, hseen, _, hseen'⟩ := happended
  · exact (h.congr hseen).mono (Nat.le_add_right _ _)
  · have hst := h.state st (congrArg Prod.fst hseen)
    have hrow := h.row row (congrArg Prod.snd hseen)
    refine ⟨fun st' hst' => ?_, fun row' hrow' => ?_⟩
    · have heq : some st' = some _ := hst'.symm.trans (congrArg Prod.fst hseen')
      cases heq
      simp only [CachedRequestState.numTokens, List.length_append] at hst ⊢
      omega
    · have heq : some row' = some _ := hrow'.symm.trans (congrArg Prod.snd hseen')
      cases heq
      simp only
      omega

/-- **Caching the sampled tokens** adds at most what was sampled. -/
theorem Counts.sampled {tokens : ReqId → List Token} (h : Counts w id n)
    (hsampled : Sampled w w' tokens) : Counts w' id (n + (tokens id).length) := by
  cases hrow : w.inputBatch.lookup id with
  | none => exact (h.congr (hsampled.other id hrow)).mono (Nat.le_add_right _ _)
  | some row => exact h.appended (hsampled.batch id (by rw [hrow]; rfl))

/-- The counts of a scheduled request after `_update_states`. -/
theorem StatesUpdated.counts (hw : StatesUpdated w w' out)
    (hentries : out.numScheduledTokens.keys.Perm (out.newIds ++ out.reqIds))
    (hnew : ∀ d ∈ out.scheduledNewReqs, d.reqId = id → d.promptTokenIds.length ≤ n)
    (hcached : ∀ e ∈ out.scheduledCachedReqs, e.reqId = id →
      Counts w id n ∧ e.numComputedTokens + e.newTokenIds.length ≤ n)
    (hid : id ∈ out.numScheduledTokens) : Counts w' id n := by
  have hstate : ∀ st, w'.requests.lookup id = some st → st.numTokens ≤ n := by
    intro st hst
    obtain hmem | hmem := (mem_numScheduledTokens hentries).mp hid
    · obtain ⟨d, hd, rfl⟩ := List.mem_map.mp hmem
      have heq := hst.symm.trans (hw.new d hd)
      cases heq
      exact hnew d hd rfl
    · obtain ⟨e, he, rfl⟩ := List.mem_map.mp hmem
      obtain ⟨_, st₀, st₁, hst₀, hupdate, hst₁⟩ := hw.cached e he
      obtain ⟨hold, htokens⟩ := hcached e he rfl
      cases hst.symm.trans hst₁
      have hcount := hold.state st₀ hst₀
      have hle := (updateState_numTokens hupdate).2
      omega
  refine ⟨hstate, fun row hrow => ?_⟩
  obtain ⟨_, ⟨st, hst, rfl⟩ | ⟨e, he, rfl, row₀, hrow₀, rfl⟩⟩ := hw.row id row hrow
  · exact Int.ofNat_le.mpr (hstate st hst)
  · obtain ⟨hold, htokens⟩ := hcached e he rfl
    simp only [updateRow]
    split
    · exact hold.row row₀ hrow₀
    · exact htokens

/-- No tokens of a prefill that is complete are discarded. -/
theorem validSampledTokenIds_eq {sampled : ReqId → List Token}
    (h : ∀ st, w.requests.lookup id = some st →
      (st.numTokens : ℤ) ≤ st.numComputedTokens + (out.numScheduledTokens.lookup id).getD 0) :
    w.validSampledTokenIds out sampled id = sampled id := by
  unfold validSampledTokenIds
  split
  · rfl
  · next st hst =>
    simp only
    rw [if_neg (by have := h st hst; omega)]

/-- The computed tokens of a scheduled request after `_update_states`. -/
theorem StatesUpdated.numComputedTokens (hw : StatesUpdated w w' out)
    (hentries : out.numScheduledTokens.keys.Perm (out.newIds ++ out.reqIds)) {computed : ℤ}
    (hnew : ∀ d ∈ out.scheduledNewReqs, d.reqId = id → d.numComputedTokens = computed)
    (hcached : ∀ e ∈ out.scheduledCachedReqs, e.reqId = id → e.numComputedTokens = computed)
    (hid : id ∈ out.numScheduledTokens) :
    ∀ st, w'.requests.lookup id = some st → st.numComputedTokens = computed := by
  intro st hst
  obtain hmem | hmem := (mem_numScheduledTokens hentries).mp hid
  · obtain ⟨d, hd, rfl⟩ := List.mem_map.mp hmem
    cases hst.symm.trans (hw.new d hd)
    exact hnew d hd rfl
  · obtain ⟨e, he, rfl⟩ := List.mem_map.mp hmem
    obtain ⟨_, st₀, st₁, hst₀, hupdate, hst₁⟩ := hw.cached e he
    cases hst.symm.trans hst₁
    rw [(updateState_numTokens hupdate).1]
    exact hcached e he rfl

/-- A request that is not scheduled has no row, and its state or none. -/
theorem StatesUpdated.seen_unscheduled (hw : StatesUpdated w w' out)
    (hid : id ∉ out.numScheduledTokens) : w'.seen id =
      (if id ∈ out.finishedReqIds then none else w.requests.lookup id, none) := by
  rw [seen, hw.unscheduled id hid]
  congr 1
  by_contra hsome
  obtain ⟨row, hrow⟩ := Option.ne_none_iff_exists'.mp hsome
  exact hid (hw.row id row hrow).1

theorem StatesUpdated.counts_unscheduled (hw : StatesUpdated w w' out)
    (hid : id ∉ out.numScheduledTokens) (h : Counts w id n) : Counts w' id n := by
  have hseen := hw.seen_unscheduled hid
  refine ⟨fun st hst => ?_, fun row hrow => ?_⟩
  · have hst' := (congrArg Prod.fst hseen).symm.trans hst
    simp only [ite_eq_iff, reduceCtorEq, and_false, false_or] at hst'
    exact h.state st hst'.2
  · exact nomatch (congrArg Prod.snd hseen).symm.trans hrow

/-- **What `execute_model` does to the counts**, request by request. -/
theorem executeModel_counts {res res' : ModelRunnerOutput}
    (hentries : out.numScheduledTokens.keys.Perm (out.newIds ++ out.reqIds))
    (h : w.executeModel out res = .ok (w', res')) :
    ∃ w₁, StatesUpdated w w₁ out ∧ SameRank w w' ∧
      (∀ id n, Counts w₁ id n →
        w₁.validSampledTokenIds out res.sampledTokenIds id = res.sampledTokenIds id →
        Counts w' id (n + (res.sampledTokenIds id).length) ∧
          res'.sampledTokenIds id = res.sampledTokenIds id) ∧
      ∀ id, id ∉ out.numScheduledTokens → w'.seen id = w₁.seen id := by
  obtain ⟨w₁, hupdate, hcases⟩ := executeModel_eq_ok h
  have hw := updateStates_eq_ok hentries hupdate
  refine ⟨w₁, hw, ?_⟩
  obtain ⟨_, hsampled, rfl⟩ | ⟨_, rfl, rfl⟩ := hcases
  · refine ⟨hw.rank.trans hsampled.rank, fun id n hcounts hvalid => ⟨?_, hvalid⟩,
      fun id hid => hsampled.other id ?_⟩
    · rw [← hvalid]
      exact hcounts.sampled hsampled
    · exact congrArg Prod.snd (hw.seen_unscheduled hid)
  · exact ⟨hw.rank, fun id n hcounts _ => ⟨hcounts.mono (Nat.le_add_right _ _), rfl⟩,
      fun _ _ => rfl⟩

end NPUModelRunner

/-! ## What the scheduler counts -/

variable {A : AscendScheduler σ κ M} {e : Engine σ κ M} {s s' : SchedulerState σ κ}
  {out : SchedulerOutput M} {p : Plan} {id : ReqId}

/-- A scheduled request, after the call: its `k` drafts are computed beyond its tokens. -/
structure Launched (A : AscendScheduler σ κ M) (r r' : Request) (n : ℤ) (k : ℕ) : Prop where
  tokens : r'.numTokens = r.numTokens
  computed : r'.numComputedTokens = r'.numTokens + k
  before : r'.numComputedTokens - n ≤ r'.numTokens
  window : k = 0 ∨ r'.numTokens + k ≤ A.maxModelLen

/-- **A request that an output schedules** was in no other unprocessed output. -/
theorem Ready.launched (h : Ready A e) (hp : p.Describes A e.sched s' out)
    (hid : id ∈ out.numScheduledTokens) : (∀ i o, ¬e.Pending id i o) ∧
      Launched A (e.sched.obj id) (s'.obj id) ((out.numScheduledTokens.lookup id).getD 0)
        (numSpecTokens out.scheduledSpecDecodeTokens id) := by
  obtain ha | hd := List.mem_append.mp (hp.output.keys.mem_iff.mp hid)
  · obtain ⟨n, hlookup, hpos, htokens, _, hcomputed, hspec⟩ := hp.obj_admitted ha
    refine ⟨h.waiting id (hp.queues.mem_waiting_of_fate ha), htokens.numTokens, ?_, ?_,
      Or.inl hspec⟩
    · rw [hcomputed, hspec]
      simp
    · rw [hlookup, hcomputed]
      simp only [Option.getD_some]
      omega
  · obtain ⟨_, hempty⟩ | ⟨hnone, _⟩ := hp.queues.phases
    · have hidle := h.idle id (hp.queues.mem_running_of_decoded hd) (by simp [hempty])
      obtain ⟨n, r, hlookup, hentry, hobj⟩ := hp.obj_decoded hd
      obtain ⟨hn, hbound, hcomputed⟩ := hidle.decode hentry
      have hahead := hidle.ahead
      have htokens : (s'.obj id).numTokens = (e.sched.obj id).numTokens := by
        rw [hobj, hentry.drafts]
        rfl
      rw [← hobj] at hcomputed
      refine ⟨hidle.landed, htokens, hcomputed, ?_, Or.inr (by omega)⟩
      rw [hlookup, hcomputed]
      simp only [Option.getD_some]
      omega
    · rw [hnone] at hd
      exact absurd hd List.not_mem_nil

/-- A request that is in a queue after the call and is not scheduled has the tokens it had. -/
theorem Plan.Describes.numTokens_eq (hnodup : (s.waiting ++ s.running).Nodup)
    (hp : p.Describes A s s' out) (hid : id ∈ s'.waiting ++ s'.running)
    (hnot : id ∉ out.numScheduledTokens) : (s'.obj id).numTokens = (s.obj id).numTokens := by
  have hunscheduled : id ∉ p.scheduled := fun hmem => hnot (hp.output.keys.mem_iff.mpr hmem)
  rw [Plan.scheduled, List.mem_append, not_or] at hunscheduled
  obtain hid | hid := List.mem_append.mp hid
  · obtain hid | hid := hp.queues.mem_waiting' hid
    · rw [hp.obj_preempted hnodup hid]
      rfl
    · exact (hp.obj_kept hnodup hid).tokens.numTokens
  · have hstay := (hp.queues.mem_running' hid).resolve_right hunscheduled.1
    rw [hp.obj_passed hnodup hstay hunscheduled.2]

/-! ## The invariant -/

/-- Something holds of every request a call of `schedule()` schedules, of its drafts and of what is
sampled for it. -/
def ServingEvent.Scheduled (A : AscendScheduler σ κ M) (P : Request → ℕ → List Token → Prop)
    (s : Serving σ κ M) : ServingEvent → Prop
  | .schedule res => ∀ sched out, A.schedule s.engine.sched = .ok (sched, out) →
    ∀ id ∈ out.numScheduledTokens, P (s.engine.sched.obj id)
      (numSpecTokens out.scheduledSpecDecodeTokens id) (res.sampledTokenIds id)
  | _ => True

instance (P : Request → ℕ → List Token → Prop) [∀ r k sampled, Decidable (P r k sampled)]
    (s : Serving σ κ M) (ev : ServingEvent) : Decidable (ev.Scheduled A P s) :=
  match ev with
  | .schedule res =>
    match h : A.schedule s.engine.sched with
    | .ok (_, out) =>
      decidable_of_iff (∀ id ∈ out.numScheduledTokens.keys, P (s.engine.sched.obj id)
          (numSpecTokens out.scheduledSpecDecodeTokens id) (res.sampledTokenIds id))
        ⟨fun hall _ _ heq => by cases h.symm.trans heq; exact hall, fun hall => hall _ _ h⟩
    | .error _ => isTrue fun _ _ heq => nomatch h.symm.trans heq
  | .addRequest _ _ => isTrue trivial
  | .finishRequests _ _ => isTrue trivial
  | .updateFromOutput _ => isTrue trivial

/-- One to `k + 1` tokens are sampled for a request scheduled with `k` drafts. -/
def ServingEvent.Samples (A : AscendScheduler σ κ M) : Serving σ κ M → ServingEvent → Prop :=
  ServingEvent.Scheduled A fun _ k sampled => 0 < sampled.length ∧ sampled.length ≤ k + 1

instance (s : Serving σ κ M) (ev : ServingEvent) : Decidable (ev.Samples A s) :=
  inferInstanceAs (Decidable (ServingEvent.Scheduled _ _ s ev))

/-- A request whose tokens and scheduled drafts fill the context window has a draft rejected. -/
def ServingEvent.LeavesRoom (A : AscendScheduler σ κ M) : Serving σ κ M → ServingEvent → Prop :=
  ServingEvent.Scheduled A fun r k sampled =>
    r.numTokens + k < A.maxModelLen ∨ sampled.length ≤ k

instance (s : Serving σ κ M) (ev : ServingEvent) : Decidable (ev.LeavesRoom A s) :=
  inferInstanceAs (Decidable (ServingEvent.Scheduled _ _ s ev))

/-- Requests in flight are left alone. -/
def ServingEvent.SparesInFlight (s : Serving σ κ M) : ServingEvent → Prop
  | .addRequest id r => (Event.addRequest id r).SparesInFlight s.engine
  | .finishRequests requestIds finishedStatus =>
    (Event.finishRequests requestIds finishedStatus).SparesInFlight s.engine
  | _ => True

/-- The worker counts no more tokens than the scheduler, and those it has returned since. -/
structure TokensBounded (A : AscendScheduler σ κ M) (s : Serving σ κ M) : Prop where
  maxModelLen : s.worker.maxModelLen = A.maxModelLen
  returned : s.results.length = s.engine.history.length
  accepted : ∀ id i out res, s.engine.Pending id i out → s.results[i]? = some res →
    0 < (res.sampledTokenIds id).length ∧
      (res.sampledTokenIds id).length ≤ numSpecTokens out.scheduledSpecDecodeTokens id + 1
  landed : ∀ id, s.engine.sched.Sent id → (∀ i out, ¬s.engine.Pending id i out) →
    NPUModelRunner.Counts s.worker id (s.engine.sched.obj id).numTokens
  inFlight : ∀ id ∈ s.engine.sched.running, ∀ i out res, s.engine.Pending id i out →
    s.results[i]? = some res → NPUModelRunner.Counts s.worker id
      ((s.engine.sched.obj id).numTokens + (res.sampledTokenIds id).length)
  limit : ∀ id st, s.worker.requests.lookup id = some st → st.numTokens ≤ A.maxModelLen

namespace TokensBounded

variable {sv sv' : Serving σ κ M} {res res' : ModelRunnerOutput} {w w' : NPUModelRunner}

theorem initial (h : sv.Initial) (hlen : sv.worker.maxModelLen = A.maxModelLen) :
    TokensBounded A sv := by
  refine ⟨hlen, by rw [h.results, h.engine.history]; rfl, fun _ i _ _ hp => ?_, fun _ hsent => ?_,
    fun _ hid => ?_, fun id st hst => ?_⟩
  · simp [Engine.Pending, h.engine.history] at hp
  · simp [SchedulerState.Sent, h.engine.running, h.engine.waiting] at hsent
  · simp [h.engine.running] at hid
  · simp [h.requests] at hst

/-- **The counts of a scheduled request** when its output is executed, before its tokens are
sampled. -/
theorem counts (laws : A.BaseLaws) (hready : Ready A sv.engine) (h : TokensBounded A sv)
    (hp : p.Describes A sv.engine.sched s' out) (hh : Handover s' out)
    (hw : NPUModelRunner.StatesUpdated sv.worker w out) (hid : id ∈ out.numScheduledTokens) :
    NPUModelRunner.Counts w id (s'.obj id).numTokens ∧
      ∀ sampled, w.validSampledTokenIds out sampled id = sampled id := by
  obtain ⟨hlanded, htokens, hcomputed, hbefore, _⟩ := hready.launched hp hid
  have hcounts : NPUModelRunner.Counts w id (s'.obj id).numTokens := by
    refine hw.counts (hp.entries laws) (fun d hd heq => ?_) (fun e he heq => ?_) hid
    · subst heq
      rw [(hh.new d hd).1]
      exact Nat.le_add_right _ _
    · subst heq
      obtain ⟨heq, hle⟩ := hh.cached e he
      refine ⟨?_, by omega⟩
      rw [htokens]
      exact h.landed _ (sent_of_cached laws hp he) hlanded
  refine ⟨hcounts, fun sampled => NPUModelRunner.validSampledTokenIds_eq fun st hst => ?_⟩
  have hst' : st.numComputedTokens =
      (s'.obj id).numComputedTokens - (out.numScheduledTokens.lookup id).getD 0 :=
    hw.numComputedTokens (hp.entries laws)
    (fun d hd heq => by subst heq; have := (hh.new d hd).2; omega)
    (fun e he heq => by subst heq; have := (hh.cached e he).1; omega) hid st hst
  have hle := hcounts.state st hst
  omega

/-- The tokens of a scheduled request after its output is executed. -/
theorem room {r r' : Request} {n : ℤ} {k : ℕ} {sampled : List Token}
    (h : Launched A r r' n k) (hsamples : 0 < sampled.length ∧ sampled.length ≤ k + 1) :
    (r.numTokens + k < A.maxModelLen ∨ sampled.length ≤ k) ↔
      r'.numTokens + sampled.length ≤ A.maxModelLen := by
  have htokens := h.tokens
  have hwindow := h.window
  omega

/-- **One output** that leaves room keeps the counts bounded. -/
theorem schedule (laws : A.BaseLaws) (hsound : Sound A sv.engine) (hready : Ready A sv.engine)
    (h : TokensBounded A sv) (hp : p.Describes A sv.engine.sched s' out) (hh : Handover s' out)
    (execute : sv.worker.executeModel out res = .ok (w', res'))
    (hsamples : ∀ id ∈ out.numScheduledTokens, 0 < (res.sampledTokenIds id).length ∧
      (res.sampledTokenIds id).length ≤ numSpecTokens out.scheduledSpecDecodeTokens id + 1)
    (hroom : ∀ id ∈ out.numScheduledTokens,
      (s'.obj id).numTokens + (res.sampledTokenIds id).length ≤ A.maxModelLen) :
    TokensBounded A
      { engine := { sv.engine with
          sched := s'
          history := sv.engine.history ++ [⟨out, false⟩] }
        worker := w'
        results := sv.results ++ [res'] } := by
  obtain ⟨w, hw, hrank, hexecuted, hother⟩ :=
    NPUModelRunner.executeModel_counts (hp.entries laws) execute
  -- a scheduled request has its sampled tokens appended, and the others are left alone
  have hscheduled : ∀ id ∈ out.numScheduledTokens, NPUModelRunner.Counts w' id
        ((s'.obj id).numTokens + (res.sampledTokenIds id).length) ∧
      res'.sampledTokenIds id = res.sampledTokenIds id := by
    intro id hid
    obtain ⟨hcounts, hvalid⟩ := h.counts laws hready hp hh hw hid
    exact hexecuted id _ hcounts (hvalid _)
  have hunscheduled : ∀ {id n}, id ∉ out.numScheduledTokens →
      NPUModelRunner.Counts sv.worker id n → NPUModelRunner.Counts w' id n := fun hid hcounts =>
    (hw.counts_unscheduled hid hcounts).congr (hother _ hid)
  have hissue : ∀ {id i o}, ({ sv.engine with
      sched := s'
      history := sv.engine.history ++ [⟨out, false⟩] } : Engine σ κ M).Pending id i o ↔
        sv.engine.Pending id i o ∨
          (i = sv.engine.history.length ∧ o = out ∧ id ∈ out.numScheduledTokens) :=
    Engine.pending_issue rfl
  have hresult : (sv.results ++ [res'])[sv.engine.history.length]? = some res' := by
    rw [← h.returned]
    simp
  have hold : ∀ {id i o r}, sv.engine.Pending id i o → (sv.results ++ [res'])[i]? = some r →
      sv.results[i]? = some r := by
    intro id i o r hpending hr
    have hlt := (List.getElem?_eq_some_iff.mp hpending.1).1
    rwa [List.getElem?_append_left (by rw [h.returned]; exact hlt)] at hr
  refine ⟨hrank.maxModelLen.trans h.maxModelLen, by simp [h.returned], ?_, ?_, ?_, ?_⟩
  · intro id i o r hpending hr
    obtain hpending | ⟨rfl, rfl, hid⟩ := hissue.mp hpending
    · exact h.accepted id i o r hpending (hold hpending hr)
    · rw [hresult] at hr
      cases hr
      rw [(hscheduled id hid).2]
      exact hsamples id hid
  · intro id hsent hlanded
    have hid : id ∉ out.numScheduledTokens := fun hid =>
      hlanded _ _ (hissue.mpr (Or.inr ⟨rfl, rfl, hid⟩))
    rw [hp.numTokens_eq hsound.nodup hsent.mem hid]
    exact hunscheduled hid (h.landed id (sent_schedule hsound.nodup hp hsent hid)
      fun i o hpending => hlanded i o (hissue.mpr (Or.inl hpending)))
  · intro id hid i o r hpending hr
    obtain hpending | ⟨rfl, rfl, hnum⟩ := hissue.mp hpending
    · have hnum : id ∉ out.numScheduledTokens := fun hnum =>
        (hready.launched hp hnum).1 i o hpending
      have hrun : id ∈ sv.engine.sched.running := by
        have hunscheduled : id ∉ p.scheduled := fun hmem => hnum (hp.output.keys.mem_iff.mpr hmem)
        rw [Plan.scheduled, List.mem_append, not_or] at hunscheduled
        rw [hp.queues.running]
        exact List.mem_append_left _ ((hp.queues.mem_running' hid).resolve_right hunscheduled.1)
      simp only [hp.numTokens_eq hsound.nodup (List.mem_append_right _ hid) hnum]
      exact hunscheduled hnum (h.inFlight id hrun i o r hpending (hold hpending hr))
    · rw [hresult] at hr
      cases hr
      rw [(hscheduled id hnum).2]
      exact (hscheduled id hnum).1
  · intro id st hst
    by_cases hid : id ∈ out.numScheduledTokens
    · exact ((hscheduled id hid).1.state st hst).trans (hroom id hid)
    · have hseen := (hother id hid).trans (hw.seen_unscheduled hid)
      have hst' := (congrArg Prod.fst hseen).symm.trans hst
      simp only [ite_eq_iff, reduceCtorEq, and_false, false_or] at hst'
      exact h.limit id st hst'.2

/-- **The assertion does not fail** on an output that leaves room. -/
theorem executeModel_ne_maxModelLen (laws : A.BaseLaws) (hready : Ready A sv.engine)
    (h : TokensBounded A sv) (hp : p.Describes A sv.engine.sched s' out) (hh : Handover s' out)
    (hroom : ∀ id ∈ out.numScheduledTokens,
      (s'.obj id).numTokens + (res.sampledTokenIds id).length ≤ A.maxModelLen) :
    sv.worker.executeModel out res ≠ .error .maxModelLen := by
  intro herror
  obtain ⟨w, hupdate, _, id, row, hrow, hlt⟩ :=
    NPUModelRunner.executeModel_maxModelLen (hp.entries laws) herror
  have hw := NPUModelRunner.updateStates_eq_ok (hp.entries laws) hupdate
  have hid := (hw.row id row hrow).1
  obtain ⟨hcounts, hvalid⟩ := h.counts laws hready hp hh hw hid
  have hle := hcounts.row row hrow
  have hfits := hroom id hid
  rw [hvalid, hw.rank.maxModelLen, h.maxModelLen] at hlt
  omega

/-! ### The other events -/

/-- A call that the worker has no part in. -/
theorem call {engine : Engine σ κ M} (h : TokensBounded A sv)
    (hlength : engine.history.length = sv.engine.history.length)
    (hpending : ∀ {id i o}, engine.Pending id i o → sv.engine.Pending id i o)
    (hlanded : ∀ id, engine.sched.Sent id → (∀ i o, ¬engine.Pending id i o) →
      NPUModelRunner.Counts sv.worker id (engine.sched.obj id).numTokens)
    (hrunning : ∀ id ∈ engine.sched.running, ∀ i o, engine.Pending id i o →
      id ∈ sv.engine.sched.running ∧ engine.sched.obj id = sv.engine.sched.obj id) :
    TokensBounded A { sv with engine := engine } where
  maxModelLen := h.maxModelLen
  returned := h.returned.trans hlength.symm
  accepted id i o res hp := h.accepted id i o res (hpending hp)
  landed := hlanded
  inFlight := by
    intro id hid i o res hp hr
    obtain ⟨hid, hobj⟩ := hrunning id hid i o hp
    simp only [hobj]
    exact h.inFlight id hid i o res (hpending hp) hr
  limit := h.limit

/-- A new request was not sent before. -/
theorem addRequest {r : Request} (laws : A.BaseLaws) (h : TokensBounded A sv)
    (hallowed : (Event.addRequest id r).Allowed sv.engine) :
    TokensBounded A { sv with engine := { sv.engine with
      sched := A.super.addRequest sv.engine.sched id r
      added := insert id sv.engine.added } } := by
  have hobj : ∀ {id'}, id' ≠ id →
      (A.super.addRequest sv.engine.sched id r).obj id' = sv.engine.sched.obj id' := by
    intro id' hne
    rw [laws.add]
    exact Function.update_of_ne hne _ _
  refine h.call rfl (fun hp => hp) (fun id' hsent hlanded => ?_) fun id' hid' _ _ _ => ?_
  · obtain ⟨hsent, hne⟩ := sent_addRequest laws hallowed hsent
    simp only [hobj hne]
    exact h.landed id' hsent hlanded
  · have hid' : id' ∈ sv.engine.sched.running := by
      simp only [laws.add] at hid'
      exact hid'
    refine ⟨hid', hobj fun heq => hallowed.2.2 ?_⟩
    rw [← heq]
    exact hid'

/-- A request that `finish_requests` leaves in a queue keeps its tokens. -/
theorem finishRequests {ids : Finset ReqId} {status : RequestStatus} {gate : Finset ReqId}
    (hsound : Sound A sv.engine) (h : TokensBounded A sv)
    (hfinished : Finished { sv.engine.sched with scheduledReqIds := gate } s' ids status) :
    TokensBounded A { sv with engine := { sv.engine with sched := s' } } := by
  have hleft : ∀ {id}, s'.Sent id → sv.engine.sched.Sent id ∧ s'.obj id = sv.engine.sched.obj id :=
    fun hsent => by
      obtain ⟨hsent, hnot⟩ := sent_finishRequests hsound.toCoherent hfinished hsent
      exact ⟨hsent, hfinished.other _ hnot⟩
  refine h.call rfl (fun hp => hp) (fun id hsent hlanded => ?_) fun id hid _ _ _ => ?_
  · obtain ⟨hsent, hobj⟩ := hleft hsent
    simp only [hobj]
    exact h.landed id hsent hlanded
  · refine ⟨?_, (hleft (Or.inl hid)).2⟩
    have hid : id ∈ s'.running := hid
    rw [hfinished.running] at hid
    exact (List.mem_filter.mp hid).1

/-- **A processed output** has the scheduler count what the worker returned for it. -/
theorem updateFromOutput {i : ℕ} {stopped : Finset ReqId} {gate : Finset ReqId}
    (hsound : Sound A sv.engine) (hready : Ready A sv.engine) (h : TokensBounded A sv)
    (issued : sv.engine.history[i]? = some ⟨out, false⟩) (hreturned : sv.results[i]? = some res)
    (hupdated : Updated A.maxModelLen { sv.engine.sched with scheduledReqIds := gate } s' out res
      stopped) :
    TokensBounded A { sv with engine := { sv.engine with
      sched := s'
      history := sv.engine.history.set i ⟨out, true⟩ } } := by
  have hprocess : ∀ {id j o}, ({ sv.engine with
      sched := s'
      history := sv.engine.history.set i ⟨out, true⟩ } : Engine σ κ M).Pending id j o ↔
        sv.engine.Pending id j o ∧ j ≠ i := Engine.pending_process rfl rfl
  refine h.call (by simp) (fun hp => (hprocess.mp hp).1) (fun id hsent hlanded => ?_)
    fun id hid j o hp => ?_
  · obtain ⟨hsent, hnot⟩ := sent_updateFromOutput hupdated hsent
    by_cases hid : id ∈ out.numScheduledTokens
    · -- a request of the output was running, and its tokens are the ones that were returned
      have hrun : id ∈ sv.engine.sched.running :=
        hsent.resolve_right fun hw => hready.waiting id hw.1 i out ⟨issued, hid⟩
      obtain ⟨hpos, hle⟩ := h.accepted id i out res ⟨issued, hid⟩ hreturned
      have haccepted := hupdated.accepted id hid (hsound.known id hsent.mem) hnot hpos hle
      have hcounts := h.inFlight id hrun i out res ⟨issued, hid⟩ hreturned
      have htokens : (s'.obj id).numTokens =
          (sv.engine.sched.obj id).numTokens + (res.sampledTokenIds id).length := by
        simp only [Request.numTokens, haccepted.prompt, haccepted.tokens, List.length_append]
        omega
      simp only [htokens]
      exact hcounts
    · simp only [hupdated.other id hid]
      refine h.landed id hsent fun j o hp => hlanded j o (hprocess.mpr ⟨hp, ?_⟩)
      rintro rfl
      have heq := hp.1
      rw [issued] at heq
      cases heq
      exact hid hp.2
  · obtain ⟨hp, hne⟩ := hprocess.mp hp
    have hrun : id ∈ sv.engine.sched.running := by
      have hid : id ∈ s'.running := hid
      rw [hupdated.running] at hid
      exact (List.mem_filter.mp hid).1
    refine ⟨hrun, hupdated.other id fun hmem => hne ?_⟩
    -- a request in flight is in one unprocessed output only
    by_cases hgate : id ∈ sv.engine.sched.scheduledReqIds
    · obtain ⟨l, o', hflight⟩ := hready.inFlight id hrun hgate
      exact (hflight.once j o hp).trans (hflight.once i out ⟨issued, hmem⟩).symm
    · exact absurd hp ((hready.idle id hrun hgate).landed j o)

/-- **Every event keeps the counts bounded.** -/
theorem served {ev : ServingEvent} (laws : A.BaseLaws)
    (hoff : A.schedulerConfig.chunkedPrefillEnabled = false) (hsound : Sound A sv.engine)
    (hready : Ready A sv.engine) (h : TokensBounded A sv) (hallowed : ev.Allowed sv)
    (hsamples : ev.Samples A sv) (hroom : ev.LeavesRoom A sv) (hserved : Served A sv ev sv') :
    TokensBounded A sv' := by
  cases hserved with
  | call calls step stepped =>
    cases calls with
    | addRequest =>
      cases step
      exact h.addRequest laws hallowed
    | finishRequests =>
      cases stepped with
      | finishRequests finished => exact h.finishRequests hsound finished
    | updateFromOutput returned =>
      cases stepped with
      | updateFromOutput issued updated =>
        exact h.updateFromOutput hsound hready issued returned updated
  | @schedule res res' p sched out worker call plan execute =>
    obtain ⟨fr, hcall⟩ := AscendScheduler.schedule_call hoff call
    refine h.schedule laws hsound hready plan (hcall.handover laws) execute
      (hsamples sched out call) fun id hid => ?_
    exact (room (hready.launched plan hid).2 (hsamples sched out call id hid)).mp
      (hroom sched out call id hid)

end TokensBounded

/-- **Every event keeps the running requests ready.** -/
theorem Ready.served {sv sv' : Serving σ κ M} {ev : ServingEvent} (hsound : Sound A sv.engine)
    (hready : Ready A sv.engine) (h : TokensBounded A sv) (hallowed : ev.Allowed sv)
    (hspares : ev.SparesInFlight sv) (hserved : Served A sv ev sv') : Ready A sv'.engine := by
  cases hserved with
  | call calls step stepped =>
    refine hready.stepped hsound (calls.allowed hallowed) ?_ ?_ stepped
    · cases calls with
      | addRequest => trivial
      | finishRequests => trivial
      | updateFromOutput returned => exact fun id out hp => h.accepted id _ out _ hp returned
    · cases calls with
      | addRequest => exact hspares
      | finishRequests => exact hspares
      | updateFromOutput returned => trivial
  | schedule call plan execute => exact hready.schedule hsound plan

namespace AscendScheduler

variable {s₀ sv : Serving σ κ M}

/-- What is known of the scheduler and the worker along a run. -/
theorem run_tokensBounded (laws : A.BaseLaws)
    (hoff : A.schedulerConfig.chunkedPrefillEnabled = false) (hinit : s₀.Initial)
    (hlen : s₀.worker.maxModelLen = A.maxModelLen)
    (run : Run A.serve (fun s ev => ev.Allowed s ∧ ev.SparesInFlight s ∧ ev.Samples A s ∧
      ev.LeavesRoom A s) s₀ sv) :
    Sound A sv.engine ∧ Ready A sv.engine ∧ TokensBounded A sv := by
  refine run.invariant (I := fun s => Sound A s.engine ∧ Ready A s.engine ∧ TokensBounded A s) ?_
    ⟨.initial hinit.engine, .initial hinit.engine, .initial hinit hlen⟩
  rintro s ev s' ⟨hsound, hready, hbounded⟩ ⟨hallowed, hspares, hsamples, hroom⟩ hstep
  have hserved := serve_eq_ok laws hoff hsound.nodup hstep
  exact ⟨hsound.served hallowed hserved, hready.served hsound hbounded hallowed hspares hserved,
    hbounded.served laws hoff hsound hready hallowed hsamples hroom hserved⟩

/-- A prompt that is prefilled, with one token sampled for it. -/
def prefillSampled (promptTokenIds : List Token) : List ServingEvent :=
  [.addRequest "a" (.ofPrompt promptTokenIds), .schedule ⟨fun _ => [7], fun _ => some [9]⟩,
    .updateFromOutput 0]

theorem prefillSampled_along (promptTokenIds : List Token)
    {P : Serving BlockPool Unit Unit → ServingEvent → Prop}
    (hadd : P Deployment.small.serving (.addRequest "a" (.ofPrompt promptTokenIds)))
    (hschedule : Returns (Deployment.small.scheduler.serve Deployment.small.serving
      (.addRequest "a" (.ofPrompt promptTokenIds)))
      fun s => P s (.schedule ⟨fun _ => [7], fun _ => some [9]⟩))
    (hupdate : ∀ s, P s (.updateFromOutput 0)) :
    AllowedAlong Deployment.small.scheduler.serve P Deployment.small.serving
      (prefillSampled promptTokenIds) :=
  ⟨hadd, fun _ hs => ⟨hschedule.of_eq_ok hs, fun _ _ => ⟨hupdate _, fun _ _ => trivial⟩⟩⟩

end AscendScheduler

end VllmAscend
