import VllmAscend.Machinery.KeyedFold
import VllmAscend.Worker.RowRunner

/-!
# Worker/RowUpdates — what `_update_states` makes of each request and of its row

    new, or not in the batch   ──▸ a row of what the state says
    in the batch               ──▸ its row, with the drafts behind the tokens
    otherwise                  ──▸ no row

The loops of `_update_states` each write the state and the row of one request, so what they come to
is said request by request (`Updated`), whatever rows the requests are in.
-/

namespace VllmAscend

open Machinery

/-- The tokens of a row. -/
@[ext] structure TokenRow where
  /-- `token_ids_cpu`, up to `num_tokens` -/
  tokens : List Token
  numTokens : ℕ
  numTokensNoSpec : ℕ
  numComputedTokens : ℤ
  deriving DecidableEq, Repr

/-- The tokens of a request, as `add_request` stores them. -/
def FullRequestState.tokenRow (st : FullRequestState) : TokenRow where
  tokens := st.promptTokenIds ++ st.outputTokenIds
  numTokens := st.numTokens
  numTokensNoSpec := st.numTokens
  numComputedTokens := st.numComputedTokens

namespace TokenRow

/-- What a write makes of the tokens of a row. -/
def write (t : TokenRow) : RowWrite → TokenRow
  | .numComputedTokens n => { t with numComputedTokens := n }
  | .tokens start values numTokens numTokensNoSpec =>
    { t with
      tokens := (t.tokens.take start ++ values).take numTokens
      numTokens := numTokens
      numTokensNoSpec := numTokensNoSpec }
  | .blocks _ | .outputTokenIds _ => t

/-- A write that leaves no gap between the tokens of a row. -/
def Fits (t : TokenRow) : RowWrite → Prop
  | .tokens start values numTokens _ => start ≤ t.numTokens ∧ numTokens ≤ start + values.length
  | .numComputedTokens _ | .blocks _ | .outputTokenIds _ => True

/-- A row that holds the tokens of a request, and no drafts. -/
structure Holds (t : TokenRow) (st : FullRequestState) : Prop where
  tokens : t.tokens = st.promptTokenIds ++ st.outputTokenIds
  numTokens : t.numTokens = st.numTokens
  numTokensNoSpec : t.numTokensNoSpec = st.numTokens

theorem holds_tokenRow (st : FullRequestState) : st.tokenRow.Holds st := ⟨rfl, rfl, rfl⟩

/-- The row of a request, with drafts. -/
def withSpec (st : FullRequestState) (specTokenIds : List Token) : TokenRow where
  tokens := st.promptTokenIds ++ st.outputTokenIds ++ specTokenIds
  numTokens := st.numTokens + specTokenIds.length
  numTokensNoSpec := st.numTokens
  numComputedTokens := st.numComputedTokens

theorem withSpec_nil (st : FullRequestState) : withSpec st [] = st.tokenRow := by
  rw [withSpec, List.append_nil]
  rfl

end TokenRow

namespace InputBatch

variable {β τ : Type} [MultiGroupBlockTable τ] {b : InputBatch β τ} {id : ReqId} {i : ℕ}

/-- The tokens of a row. -/
def tokenRowAt (b : InputBatch β τ) (i : ℕ) : TokenRow where
  tokens := (List.range (b.numTokens i)).map (b.tokenIdsCpu i)
  numTokens := b.numTokens i
  numTokensNoSpec := b.numTokensNoSpec i
  numComputedTokens := b.numComputedTokensCpu i

/-- The tokens of the row of a request. -/
def tokenRow (b : InputBatch β τ) (id : ReqId) : Option TokenRow :=
  (b.reqIdToIndex.lookup id).map b.tokenRowAt

omit [MultiGroupBlockTable τ] in
theorem tokenRow_of_lookup (hid : b.reqIdToIndex.lookup id = some i) :
    b.tokenRow id = some (b.tokenRowAt i) := by
  rw [tokenRow, hid, Option.map_some]

omit [MultiGroupBlockTable τ] in
theorem tokenRow_eq_none : b.tokenRow id = none ↔ b.reqIdToIndex.lookup id = none :=
  Option.map_eq_none_iff

/-- The tokens are part of what is seen of a row. -/
theorem tokenRow_eq (b : InputBatch β τ) (id : ReqId) :
    b.tokenRow id = (b.seen id).map fun d =>
      ⟨d.tokens, d.numTokens, d.numTokensNoSpec, d.numComputedTokens⟩ := by
  rw [tokenRow, seen, Option.map_map]
  rfl

theorem tokenRow_congr {b' : InputBatch β τ} (h : b'.seen id = b.seen id) :
    b'.tokenRow id = b.tokenRow id := by
  rw [tokenRow_eq, tokenRow_eq, h]

/-- A write leaves the tokens of the other rows. -/
theorem tokenRowAt_write_ne (w : RowWrite) {k : ℕ} (hne : k ≠ i) :
    (b.write i w).tokenRowAt k = b.tokenRowAt k := by
  cases w with
  | numComputedTokens n =>
    ext1
    case numComputedTokens => exact Function.update_of_ne hne ..
    all_goals rfl
  | blocks _ => rfl
  | outputTokenIds _ => rfl
  | tokens start values numTokens numTokensNoSpec =>
    simp only [tokenRowAt, InputBatch.write, Function.update_of_ne hne]

/-- …and changes those of the row it is made in. -/
theorem tokenRowAt_write_self {w : RowWrite} (hfits : (b.tokenRowAt i).Fits w) :
    (b.write i w).tokenRowAt i = (b.tokenRowAt i).write w := by
  cases w with
  | numComputedTokens n =>
    ext1
    case numComputedTokens => exact Function.update_self ..
    all_goals rfl
  | blocks _ => rfl
  | outputTokenIds _ => rfl
  | tokens start values numTokens numTokensNoSpec =>
    ext1
    case tokens =>
      simp only [tokenRowAt, InputBatch.write, TokenRow.write, Function.update_self]
      exact map_writeSlice_take hfits.1 hfits.2
    case numTokens => exact Function.update_self ..
    case numTokensNoSpec => exact Function.update_self ..
    all_goals rfl

theorem tokenRow_write_ne (h : Layout b) (hid : b.reqIdToIndex.lookup id = some i) (w : RowWrite)
    {id' : ReqId} (hne : id' ≠ id) : (b.write i w).tokenRow id' = b.tokenRow id' := by
  rw [tokenRow, (b.write_eq i w).2.2.2.1, tokenRow]
  cases hid' : b.reqIdToIndex.lookup id' with
  | none => rfl
  | some k =>
    have hki : k ≠ i := fun heq => hne (h.index.inj (heq ▸ hid') hid)
    rw [Option.map_some, Option.map_some, tokenRowAt_write_ne w hki]

end InputBatch

theorem mapError_eq_ok {ε ε' α : Type} {f : ε → ε'} {x : Except ε α} {a : α} :
    x.mapError f = .ok a ↔ x = .ok a := by
  cases x <;> simp [Except.mapError]

namespace NPUModelRunner

variable {isLastRank : Bool} {st st' : CachedRequestState} {e : CachedRequestEntry}

/-- What an update of a state leaves as it is, and the count it takes over. -/
theorem updateState_eq_ok (h : updateState isLastRank st e = .ok st') :
    st'.promptTokenIds = st.promptTokenIds ∧ st'.loraRequest = st.loraRequest ∧
      st'.numComputedTokens = e.numComputedTokens ∧
      (isLastRank = true → st'.outputTokenIds = st.outputTokenIds) := by
  have hreceive : ∀ {s s' : CachedRequestState} {tokens : List Token},
      receiveTokens isLastRank s tokens = .ok s' → s'.promptTokenIds = s.promptTokenIds ∧
        s'.loraRequest = s.loraRequest ∧ s'.numComputedTokens = s.numComputedTokens ∧
        (isLastRank = true → s'.outputTokenIds = s.outputTokenIds) := by
    intro s s' tokens h
    unfold receiveTokens at h
    simp only at h
    split_ifs at h with hlast hone
    · cases h
      exact ⟨rfl, rfl, rfl, fun _ => rfl⟩
    · split at h
      · contradiction
      · cases h
        exact ⟨rfl, rfl, rfl, fun hrank => absurd hrank hlast⟩
    · cases h
      exact ⟨rfl, rfl, rfl, fun hrank => absurd hrank hlast⟩
    · cases h
      exact ⟨rfl, rfl, rfl, fun _ => rfl⟩
  have hblocks : ∀ {s s' : CachedRequestState}, updateBlockIds s e = .ok s' →
      s'.promptTokenIds = s.promptTokenIds ∧ s'.loraRequest = s.loraRequest ∧
        s'.numComputedTokens = s.numComputedTokens ∧ s'.outputTokenIds = s.outputTokenIds := by
    intro s s' h
    unfold updateBlockIds at h
    split at h <;> split at h
    · contradiction
    · cases h
      exact ⟨rfl, rfl, rfl, rfl⟩
    · cases h
      exact ⟨rfl, rfl, rfl, rfl⟩
    · cases h
      exact ⟨rfl, rfl, rfl, rfl⟩
  unfold updateState at h
  rw [bind_eq_ok] at h
  obtain ⟨s₁, h₁, h₂⟩ := h
  obtain ⟨hprompt₁, hlora₁, hcomputed₁, houtput₁⟩ := hreceive h₁
  obtain ⟨hprompt₂, hlora₂, hcomputed₂, houtput₂⟩ := hblocks h₂
  exact ⟨hprompt₂.trans hprompt₁, hlora₂.trans hlora₁, hcomputed₂.trans hcomputed₁,
    fun hrank => houtput₂.trans (houtput₁ hrank)⟩

end NPUModelRunner

namespace RowRunner

variable {M β τ : Type} [BatchUpdateBuilder β] [MultiGroupBlockTable τ] {w w' : RowRunner β τ}
  {out : BatchOutput M} {order : SetOrder} {id : ReqId}

/-- The state of a request and the tokens of its row. -/
def view (w : RowRunner β τ) (id : ReqId) : Option FullRequestState × Option TokenRow :=
  (w.requests.lookup id, w.inputBatch.tokenRow id)

/-- The same runner, whatever requests it has. -/
structure SameRank (w w' : RowRunner β τ) : Prop where
  isLastRank : w'.isLastRank = w.isLastRank
  broadcastPpOutput : w'.broadcastPpOutput = w.broadcastPpOutput
  maxModelLen : w'.maxModelLen = w.maxModelLen
  useMla : w'.useMla = w.useMla
  usesNgram : w'.usesNgram = w.usesNgram

omit [BatchUpdateBuilder β] [MultiGroupBlockTable τ] in
theorem SameRank.refl (w : RowRunner β τ) : SameRank w w := ⟨rfl, rfl, rfl, rfl, rfl⟩

omit [BatchUpdateBuilder β] [MultiGroupBlockTable τ] in
theorem SameRank.trans {w'' : RowRunner β τ} (h : SameRank w w') (h' : SameRank w' w'') :
    SameRank w w'' :=
  ⟨h'.1.trans h.1, h'.2.trans h.2, h'.3.trans h.3, h'.4.trans h.4, h'.5.trans h.5⟩

/-- **A runner in a phase of the step**: its batch is sound, and the states of the requests in it
have the parameters they were added with. -/
structure Coupled (w : RowRunner β τ) (phase : BatchPhase) : Prop where
  sound : ∃ requests, w.inputBatch.Sound phase requests ∧ ∀ id r, requests id = some r →
    ∃ st, w.requests.lookup id = some st ∧ st.samplingParams = r.samplingParams
  positive : ∀ id st, w.requests.lookup id = some st →
    ∀ lora ∈ st.loraRequest, 0 < lora.loraIntId

theorem Coupled.layout {phase : BatchPhase} (h : w.Coupled phase) :
    InputBatch.Layout w.inputBatch := by
  obtain ⟨_, hsound, _⟩ := h.sound
  exact hsound.layout

/-! ## The loops, one at a time -/

/-- What is unscheduled is what is in the batch and not scheduled. -/
theorem removeRequests_eq_ok (h : w.Coupled .between)
    (hok : w.removeRequests out.toSchedulerOutput order = .ok w') :
    SameRank w w' ∧ w'.Coupled .removing ∧ ∀ id, w'.view id =
      (if id ∈ out.finishedReqIds then none else w.requests.lookup id,
        if id ∈ out.finishedReqIds ∨ id ∉ out.numScheduledTokens then none
        else w.inputBatch.tokenRow id) := by
  obtain ⟨requests, hsound, hknown⟩ := h.sound
  unfold removeRequests at hok
  simp only [bind_eq_ok] at hok
  obtain ⟨b₁, hfinished, b₂, hunscheduled, hok⟩ := hok
  cases hok
  obtain ⟨hsound₁, hseen₁⟩ := hsound.removing.removeAll hfinished
  obtain ⟨hsound₂, hseen₂⟩ := hsound₁.removeAll hunscheduled
  simp only [order.mem_walk] at hsound₁ hseen₁ hsound₂ hseen₂
  refine ⟨⟨rfl, rfl, rfl, rfl, rfl⟩, ⟨⟨_, hsound₂, fun id r hr => ?_⟩, fun id st hst => ?_⟩,
    fun id => ?_⟩
  · split at hr
    · contradiction
    · split at hr
      · contradiction
      · next hfin =>
        obtain ⟨st, hst, hsame⟩ := hknown id r hr
        refine ⟨st, ?_, hsame⟩
        simp only [Dict.lookup_without, if_neg hfin, hst]
  · simp only [Dict.lookup_without] at hst
    split at hst
    · contradiction
    · exact h.positive id st hst
  · have hrow : b₂.seen id = if id ∈ out.finishedReqIds ∨ id ∉ out.numScheduledTokens then none
        else w.inputBatch.seen id := by
      rw [hseen₂, hseen₁]
      by_cases hfin : id ∈ out.finishedReqIds
      · simp [hfin]
      · by_cases hsched : id ∈ out.numScheduledTokens
        · have hkey : id ∈ out.numScheduledTokens.keys := AList.mem_keys.mp hsched
          simp [hfin, hsched, hkey]
        · have hkey : id ∉ out.numScheduledTokens.keys := fun hmem =>
            hsched (AList.mem_keys.mpr hmem)
          simp only [hfin, hsched, hkey, Finset.mem_sdiff, List.mem_toFinset, not_false_eq_true,
            and_true, or_true, if_true, if_false]
          split
          · rfl
          · next hnot =>
            have hnone : b₁.seen id = none := InputBatch.seen_eq_none.mpr
              (AList.lookup_eq_none.mpr fun hmem => hnot (AList.mem_keys.mp hmem))
            rw [← hnone, hseen₁, if_neg hfin]
    rw [view, Dict.lookup_without]
    refine Prod.ext rfl ?_
    simp only [InputBatch.tokenRow_eq, hrow]
    split <;> rfl

/-- The new requests, of which none is in the batch yet, get new states. -/
theorem addNewRequests_eq (out : BatchOutput M) : ∀ {l : List NewRequestData} {w : RowRunner β τ},
    (∀ d ∈ l, w.inputBatch.reqIdToIndex.lookup d.reqId = none) →
    (∀ d ∈ l, ∀ lora ∈ d.loraRequest, 0 < lora.loraIntId) → w.Coupled .removing →
      SameRank w (l.foldl (addNewRequest out) w) ∧
        (l.foldl (addNewRequest out) w).Coupled .removing ∧
        (l.foldl (addNewRequest out) w).inputBatch = w.inputBatch
  | [], w, _, _, h => ⟨.refl w, h, rfl⟩
  | d :: l, w, habsent, hlora, h => by
    have hcoupled : (addNewRequest out w d).Coupled .removing := by
      obtain ⟨requests, hsound, hknown⟩ := h.sound
      refine ⟨⟨requests, hsound, fun id r hr => ?_⟩, fun id st hst => ?_⟩
      · have hne : id ≠ d.reqId := by
          rintro rfl
          rw [hsound.requests_eq_none.mpr (habsent d (.head _))] at hr
          contradiction
        obtain ⟨st, hst, hsame⟩ := hknown id r hr
        exact ⟨st, (AList.lookup_insert_ne hne).trans hst, hsame⟩
      · obtain rfl | hne := eq_or_ne id d.reqId
        · cases (AList.lookup_insert w.requests).symm.trans hst
          exact hlora d (.head _)
        · exact h.positive id st ((AList.lookup_insert_ne hne).symm.trans hst)
    obtain ⟨hrank, hrest, hbatch⟩ := addNewRequests_eq out (l := l) (w := addNewRequest out w d)
      (fun d' hd' => habsent d' (.tail _ hd')) (fun d' hd' => hlora d' (.tail _ hd')) hcoupled
    exact ⟨⟨hrank.1, hrank.2, hrank.3, hrank.4, hrank.5⟩, hrest, hbatch⟩

omit [BatchUpdateBuilder β] [MultiGroupBlockTable τ] in
/-- …and those states are what the output says. -/
theorem lookup_addNewRequests (out : BatchOutput M) (w : RowRunner β τ) {l : List NewRequestData}
    (hnodup : (l.map NewRequestData.reqId).Nodup) :
    (∀ d ∈ l, (l.foldl (addNewRequest out) w).requests.lookup d.reqId = some (newState out d)) ∧
      ∀ id, id ∉ l.map NewRequestData.reqId →
        (l.foldl (addNewRequest out) w).requests.lookup id = w.requests.lookup id := by
  refine foldl_keyed NewRequestData.reqId (fun (w : RowRunner β τ) id => w.requests.lookup id)
    (R := fun d _ v' => v' = some (newState out d)) (fun w d => ⟨?_, fun id hne => ?_⟩) hnodup
  · exact AList.lookup_insert _
  · exact AList.lookup_insert_ne hne

/-- What an entry finds of its request on the last rank: a row without drafts, if it has one. -/
def Settled (v : Option FullRequestState × Option TokenRow) : Prop :=
  ∀ st ∈ v.1, ∀ t ∈ v.2, t.Holds st

/-- What an entry of a running or resumed request makes of its state and of its row. -/
def CachedUpdate (out : SchedulerOutput M) (isLastRank : Bool) (e : CachedRequestEntry)
    (v v' : Option FullRequestState × Option TokenRow) : Prop :=
  ∃ st cached, v.1 = some st ∧
    NPUModelRunner.updateState isLastRank st.toCachedRequestState e = .ok cached ∧
    v'.1 = some { st with toCachedRequestState := cached } ∧ v'.2.isSome = v.2.isSome ∧
    (isLastRank = true → Settled v → v'.2 = v.2.map fun _ =>
      TokenRow.withSpec { st with toCachedRequestState := cached } (out.specTokenIds e.reqId))

/-- **All that `_update_states` writes into a row**: the counts, the blocks and the drafts. -/
theorem updateRow_eq {requests : ReqId → Option FullRequestState} {phase : BatchPhase}
    {b : InputBatch β τ} {i : ℕ} (e : CachedRequestEntry) (st : FullRequestState)
    (specTokenIds : List Token) (isLastRank : Bool) (h : b.Sound phase requests)
    (hid : b.reqIdToIndex.lookup id = some i) :
    (updateRow isLastRank b st e specTokenIds i).Sound phase requests ∧
      (updateRow isLastRank b st e specTokenIds i).reqIdToIndex = b.reqIdToIndex ∧
      (∀ id', id' ≠ id →
        (updateRow isLastRank b st e specTokenIds i).tokenRow id' = b.tokenRow id') ∧
      (isLastRank = true → (b.tokenRowAt i).Holds st → st.numComputedTokens = e.numComputedTokens →
        (updateRow isLastRank b st e specTokenIds i).tokenRowAt i =
          TokenRow.withSpec st specTokenIds) := by
  -- what every write keeps
  let P (b' : InputBatch β τ) : Prop := b'.Sound phase requests ∧
    b'.reqIdToIndex = b.reqIdToIndex ∧ ∀ id', id' ≠ id → b'.tokenRow id' = b.tokenRow id'
  have hwrite : ∀ {b' : InputBatch β τ} (w : RowWrite), P b' → P (b'.write i w) := by
    rintro b' w ⟨hsound, hindex, hother⟩
    have hid' : b'.reqIdToIndex.lookup id = some i := hindex ▸ hid
    exact ⟨hsound.write hid' w, (b'.write_eq i w).2.2.2.1.trans hindex, fun id' hne =>
      (InputBatch.tokenRow_write_ne hsound.layout hid' w hne).trans (hother id' hne)⟩
  have hspec : ∀ {b' : InputBatch β τ}, P b' → P (storeSpecTokens b' specTokenIds i) := by
    intro b' hb'
    unfold storeSpecTokens
    split
    · exact hb'
    · exact hwrite _ hb'
  set b₂ := (b.write i (.outputTokenIds st.outputTokenIds)).write i
    (.numComputedTokens e.numComputedTokens)
  set b₃ := e.newBlockIds.elim b₂ fun newBlockIds => b₂.write i (.blocks newBlockIds)
  have hb₂ : P b₂ := hwrite _ (hwrite _ ⟨h, rfl, fun _ _ => rfl⟩)
  have hb₃ : P b₃ ∧ b₃.tokenRowAt i = b₂.tokenRowAt i := by
    cases hblocks : e.newBlockIds with
    | none => simpa only [b₃, hblocks] using ⟨hb₂, rfl⟩
    | some newBlockIds =>
      simp only [b₃, hblocks, Option.elim_some]
      exact ⟨hwrite _ hb₂, InputBatch.tokenRowAt_write_self trivial⟩
  have hP : P (updateRow isLastRank b st e specTokenIds i) := by
    refine hspec ?_
    split
    · exact hb₃.1
    · exact hwrite _ hb₃.1
  refine ⟨hP.1, hP.2.1, hP.2.2, fun hrank hrow hcomputed => ?_⟩
  have hrow₂ : b₂.tokenRowAt i =
      ((b.write i (.outputTokenIds st.outputTokenIds)).tokenRowAt i).write
        (.numComputedTokens e.numComputedTokens) :=
    InputBatch.tokenRowAt_write_self (w := .numComputedTokens e.numComputedTokens) trivial
  have hrow₃ : b₃.tokenRowAt i = { b.tokenRowAt i with numComputedTokens := e.numComputedTokens } :=
    hb₃.2.trans hrow₂
  have hno : b₃.numTokensNoSpec i = st.numTokens :=
    (congrArg TokenRow.numTokensNoSpec hrow₃).trans hrow.numTokensNoSpec
  have hnum : b₃.numTokens i = st.numTokens :=
    (congrArg TokenRow.numTokens hrow₃).trans hrow.numTokens
  have hupdate : updateRow isLastRank b st e specTokenIds i =
      storeSpecTokens b₃ specTokenIds i := by
    simp only [updateRow, hrank, if_true]
    rfl
  rw [hupdate, storeSpecTokens]
  split
  · next hnil =>
    rw [hrow₃, hnil, TokenRow.withSpec_nil]
    ext1
    case tokens => exact hrow.tokens
    case numTokens => exact hrow.numTokens
    case numTokensNoSpec => exact hrow.numTokensNoSpec
    case numComputedTokens => exact hcomputed.symm
  · have hfits : (b₃.tokenRowAt i).Fits (.tokens st.numTokens specTokenIds
        (st.numTokens + specTokenIds.length) st.numTokens) := ⟨hnum.ge, le_rfl⟩
    rw [hno, hnum, InputBatch.tokenRowAt_write_self hfits, hrow₃]
    ext1
    case tokens =>
      have hlength : (st.promptTokenIds ++ st.outputTokenIds).length = st.numTokens :=
        List.length_append
      simp only [TokenRow.write, TokenRow.withSpec, hrow.tokens]
      rw [List.take_of_length_le hlength.le, List.take_of_length_le]
      rw [List.length_append, hlength]
    case numComputedTokens => exact hcomputed.symm
    all_goals rfl

/-- **An entry of a running or resumed request** changes its state and its row. -/
theorem updateCachedRequest_eq_ok {e : CachedRequestEntry} (h : w.Coupled .removing)
    (hok : updateCachedRequest out.toSchedulerOutput w e = .ok w') :
    (SameRank w w' ∧ w'.Coupled .removing) ∧
      CachedUpdate out.toSchedulerOutput w.isLastRank e (w.view e.reqId) (w'.view e.reqId) ∧
      ∀ id, id ≠ e.reqId → w'.view id = w.view id := by
  obtain ⟨requests, hsound, hknown⟩ := h.sound
  unfold updateCachedRequest at hok
  split at hok
  · contradiction
  next st hst =>
    split at hok
    · contradiction
    next cached hcached =>
      obtain ⟨_, hlora, hcomputed, houtput⟩ := NPUModelRunner.updateState_eq_ok hcached
      have hprompt := (NPUModelRunner.updateState_eq_ok hcached).1
      set st' : FullRequestState := { st with toCachedRequestState := cached }
      -- the states
      have hother : ∀ id, id ≠ e.reqId →
          (w.requests.insert e.reqId st').lookup id = w.requests.lookup id :=
        fun id hne => AList.lookup_insert_ne hne
      have hknown' : ∀ id r, requests id = some r → ∃ st,
          (w.requests.insert e.reqId st').lookup id = some st ∧
            st.samplingParams = r.samplingParams := by
        intro id r hr
        obtain ⟨st₁, hst₁, hsame⟩ := hknown id r hr
        obtain rfl | hne := eq_or_ne id e.reqId
        · cases hst.symm.trans hst₁
          exact ⟨st', AList.lookup_insert _, hsame⟩
        · exact ⟨st₁, (hother id hne).trans hst₁, hsame⟩
      have hpositive : ∀ id st₁, (w.requests.insert e.reqId st').lookup id = some st₁ →
          ∀ lora ∈ st₁.loraRequest, 0 < lora.loraIntId := by
        intro id st₁ hst₁
        obtain rfl | hne := eq_or_ne id e.reqId
        · cases (AList.lookup_insert w.requests).symm.trans hst₁
          intro lora hmem
          exact h.positive e.reqId st hst lora (hlora ▸ hmem)
        · exact h.positive id st₁ ((hother id hne).symm.trans hst₁)
      -- the row
      cases hid : w.inputBatch.reqIdToIndex.lookup e.reqId with
      | none =>
        simp only [hid] at hok
        cases hok
        have hnone : w.inputBatch.tokenRow e.reqId = none :=
          InputBatch.tokenRow_eq_none.mpr hid
        refine ⟨⟨⟨rfl, rfl, rfl, rfl, rfl⟩, ⟨requests, hsound, hknown'⟩, hpositive⟩, ?_,
          fun id hne => Prod.ext (hother id hne) rfl⟩
        exact ⟨st, cached, hst, hcached, AList.lookup_insert _, rfl, fun _ _ => by
          simp only [view, hnone, Option.map_none]⟩
      | some i =>
        simp only [hid] at hok
        cases hok
        obtain ⟨hsound', hindex, hothers, hown⟩ :=
          updateRow_eq e st' (out.specTokenIds e.reqId) w.isLastRank hsound hid
        have hrow := InputBatch.tokenRow_of_lookup hid
        have hrow' := InputBatch.tokenRow_of_lookup (hindex ▸ hid)
        refine ⟨⟨⟨rfl, rfl, rfl, rfl, rfl⟩, ⟨requests, hsound', hknown'⟩, hpositive⟩, ?_,
          fun id hne => Prod.ext (hother id hne) (hothers id hne)⟩
        refine ⟨st, cached, hst, hcached, AList.lookup_insert _, ?_, fun hrank hsettled => ?_⟩
        · simp only [view, hrow, hrow', Option.isSome_some]
        · have hholds := hsettled st hst _ hrow
          simp only [view, hrow, hrow', Option.map_some]
          congr 1
          have houtput' : st'.outputTokenIds = st.outputTokenIds := houtput hrank
          have hnumTokens : st'.numTokens = st.numTokens := by
            simp only [CachedRequestState.numTokens, st', hprompt, houtput hrank]
          refine hown hrank ⟨?_, hholds.numTokens.trans hnumTokens.symm,
            hholds.numTokensNoSpec.trans hnumTokens.symm⟩ hcomputed
          rw [hholds.tokens, houtput']
          exact congrArg (· ++ st.outputTokenIds) hprompt.symm

/-- A batch to which requests are added whose states are in a dictionary. -/
def Adding (requests : Dict FullRequestState) (b : InputBatch β τ) : Prop :=
  ∃ known, b.Sound .adding known ∧ ∀ id r, known id = some r →
    ∃ st, requests.lookup id = some st ∧ st.samplingParams = r.samplingParams

/-- **The requests that are added**, of which none is in the batch yet, get rows of what their
states say. -/
theorem addToBatch_eq_ok {requests : Dict FullRequestState} {ids : List ReqId}
    {b b' : InputBatch β τ} (hpositive : ∀ id st, requests.lookup id = some st →
      ∀ lora ∈ st.loraRequest, 0 < lora.loraIntId)
    (hnodup : ids.Nodup) (habsent : ∀ id ∈ ids, b.tokenRow id = none) (h : Adding requests b)
    (hok : ids.foldlM (addToBatch requests) b = .ok b') :
    Adding requests b' ∧ (∀ id ∈ ids, ∃ st, requests.lookup id = some st ∧
      b'.tokenRow id = some st.tokenRow) ∧ ∀ id ∉ ids, b'.tokenRow id = b.tokenRow id := by
  have hfold := foldlM_keyed_of (fun id : ReqId => id) (fun (b : InputBatch β τ) id => b.tokenRow id)
    (I := Adding requests) (P := fun _ v => v = none)
    (R := fun id _ v' => ∃ st, requests.lookup id = some st ∧ v' = some st.tokenRow)
    (fun b id b' (hb : Adding requests b) hnone (hok : addToBatch requests b id = .ok b') => ?_)
    (l := ids) (by simpa using hnodup) h habsent hok
  · obtain ⟨hadding, hown, hother⟩ := hfold
    exact ⟨hadding, hown, fun id hid => hother id (by simpa using hid)⟩
  · obtain ⟨known, hsound, hknown⟩ := hb
    unfold addToBatch at hok
    split at hok
    · contradiction
    next st hst =>
      rw [mapError_eq_ok] at hok
      have hnot : id ∉ b.reqIdToIndex :=
        AList.lookup_eq_none.mp (InputBatch.tokenRow_eq_none.mp hnone)
      obtain ⟨params, hparams, hsound', hseen⟩ :=
        hsound.addRequest hnot (hpositive id st hst) hok
      refine ⟨⟨_, hsound', fun id' r hr => ?_⟩, ⟨st, hst, ?_⟩, fun id' hne => ?_⟩
      · obtain rfl | hne := eq_or_ne id' id
        · rw [Function.update_self] at hr
          cases hr
          exact ⟨st, hst, rfl⟩
        · rw [Function.update_of_ne hne] at hr
          exact hknown id' r hr
      · rw [InputBatch.tokenRow_eq, hseen, Function.update_self]
        rfl
      · exact InputBatch.tokenRow_congr (by rw [hseen, Function.update_of_ne hne])

/-! ## `_update_states` -/

/-- **What the scheduler promises of an output**: every scheduled request is in it once, the new
ones are not in the batch unless they have just finished, and LoRA ids are positive. -/
def Promised (w : RowRunner β τ) (out : BatchOutput M) : Prop :=
  out.numScheduledTokens.keys.Perm (out.newIds ++ out.reqIds) ∧
    (∀ id ∈ out.newIds, id ∈ out.finishedReqIds ∨ id ∉ w.inputBatch.reqIdToIndex) ∧
    ∀ d ∈ out.scheduledNewReqs, ∀ lora ∈ d.loraRequest, 0 < lora.loraIntId

instance (w : RowRunner β τ) (out : BatchOutput M) : Decidable (w.Promised out) :=
  inferInstanceAs (Decidable (_ ∧ _ ∧ _))

/-- What `_update_states` leaves of a running or resumed request. -/
structure CachedUpdated (w w' : RowRunner β τ) (out : SchedulerOutput M) (e : CachedRequestEntry)
    (st : FullRequestState) (cached : CachedRequestState) : Prop where
  notFinished : e.reqId ∉ out.finishedReqIds
  before : w.requests.lookup e.reqId = some st
  update : NPUModelRunner.updateState w.isLastRank st.toCachedRequestState e = .ok cached
  after : w'.requests.lookup e.reqId = some { st with toCachedRequestState := cached }
  hasRow : (w'.inputBatch.tokenRow e.reqId).isSome
  added : w.inputBatch.tokenRow e.reqId = none →
    w'.inputBatch.tokenRow e.reqId =
      some ({ st with toCachedRequestState := cached } : FullRequestState).tokenRow
  kept : (w.inputBatch.tokenRow e.reqId).isSome → w.isLastRank = true →
    Settled (w.view e.reqId) → w'.inputBatch.tokenRow e.reqId =
      some (TokenRow.withSpec { st with toCachedRequestState := cached } (out.specTokenIds e.reqId))

/-- **What `_update_states` leaves.** -/
structure Updated (w w' : RowRunner β τ) (out : BatchOutput M) : Prop where
  rank : SameRank w w'
  coupled : w'.Coupled .between
  inSync : InputBatch.Matches w'.inputBatch.samplingMetadata w'.inputBatch
  fresh : ∀ d ∈ out.scheduledNewReqs,
    w'.view d.reqId = (some (newState out d), some (newState out d).tokenRow)
  cached : ∀ e ∈ out.scheduledCachedReqs, ∃ st cached,
    CachedUpdated w w' out.toSchedulerOutput e st cached
  other : ∀ id, id ∉ out.newIds → id ∉ out.reqIds → w'.view id =
    (if id ∈ out.finishedReqIds then none else w.requests.lookup id, none)

theorem updateStates_eq_ok (h : w.Coupled .between) (hpromised : w.Promised out)
    (hok : w.updateStates out order = .ok w') : Updated w w' out := by
  obtain ⟨hentries, hnew, hlora⟩ := hpromised
  have hnodup := hentries.nodup_iff.mp out.numScheduledTokens.keys_nodup
  obtain ⟨hnewIds, hreqIds, hdisjoint⟩ := List.nodup_append.mp hnodup
  have hscheduled : ∀ id, id ∈ out.numScheduledTokens ↔ id ∈ out.newIds ∨ id ∈ out.reqIds :=
    fun id => AList.mem_keys.trans (hentries.mem_iff.trans List.mem_append)
  unfold updateStates at hok
  simp only [bind_eq_ok, mapError_eq_ok] at hok
  obtain ⟨kept, hremove, updated, hcached, added, hadd, condensed, hcondense, refreshed, hrefresh,
    hok⟩ := hok
  cases hok
  -- the requests that leave
  obtain ⟨hrank₁, hcoupled₁, hview₁⟩ := removeRequests_eq_ok h hremove
  have hrow₁ : ∀ id, kept.inputBatch.tokenRow id =
      if id ∈ out.finishedReqIds ∨ id ∉ out.numScheduledTokens then none
      else w.inputBatch.tokenRow id := fun id => congrArg Prod.snd (hview₁ id)
  have hlookup₁ : ∀ id, kept.requests.lookup id =
      if id ∈ out.finishedReqIds then none else w.requests.lookup id :=
    fun id => congrArg Prod.fst (hview₁ id)
  have habsent : ∀ id ∈ out.newIds, kept.inputBatch.tokenRow id = none := by
    intro id hid
    rw [hrow₁]
    split
    · rfl
    · next hnot =>
      refine InputBatch.tokenRow_eq_none.mpr (AList.lookup_eq_none.mpr ?_)
      exact (hnew id hid).resolve_left fun hfin => hnot (Or.inl hfin)
  -- the new requests
  obtain ⟨hrank₂, hcoupled₂, hbatch₂⟩ := addNewRequests_eq out
    (l := out.scheduledNewReqs) (fun d hd => InputBatch.tokenRow_eq_none.mp
      (habsent d.reqId (List.mem_map_of_mem hd))) hlora hcoupled₁
  obtain ⟨hfresh₂, hold₂⟩ := lookup_addNewRequests out kept hnewIds
  set fresh := out.scheduledNewReqs.foldl (addNewRequest out) kept
  -- the running and resumed requests
  obtain ⟨⟨hrank₃, hcoupled₃⟩, hown₃, hother₃⟩ := foldlM_keyed CachedRequestEntry.reqId
    (view : RowRunner β τ → _) (I := fun v => SameRank fresh v ∧ v.Coupled .removing)
    (R := fun e v v' => CachedUpdate out.toSchedulerOutput w.isLastRank e v v')
    (fun v e v' hv hstep => by
      obtain ⟨⟨hrank, hcoupled⟩, hown, hother⟩ := updateCachedRequest_eq_ok hv.2 hstep
      have hlast : v.isLastRank = w.isLastRank :=
        hv.1.isLastRank.trans (hrank₂.isLastRank.trans hrank₁.isLastRank)
      exact ⟨⟨hv.1.trans hrank, hcoupled⟩, hlast ▸ hown, hother⟩)
    hreqIds ⟨.refl fresh, hcoupled₂⟩ hcached
  have hnotReq : ∀ id ∈ out.newIds, id ∉ out.reqIds := fun id hid hid' => hdisjoint id hid id hid' rfl
  have hrow₂ : ∀ id, fresh.inputBatch.tokenRow id = kept.inputBatch.tokenRow id := fun id => by
    rw [hbatch₂]
  -- the requests that get a row
  have hfilter : ∀ id, id ∈ out.reqIds.filter (· ∉ kept.inputBatch.reqIdToIndex) ↔
      id ∈ out.reqIds ∧ kept.inputBatch.tokenRow id = none := fun id => by
    rw [List.mem_filter, decide_eq_true_eq, InputBatch.tokenRow_eq_none, AList.lookup_eq_none]
  have hadding : Adding updated.requests updated.inputBatch := by
    obtain ⟨known, hsound, hknown⟩ := hcoupled₃.sound
    exact ⟨known, hsound.adding, hknown⟩
  obtain ⟨⟨known, hsound₄, hknown₄⟩, hown₄, hother₄⟩ := addToBatch_eq_ok hcoupled₃.positive
    (hnodup.sublist (List.Sublist.append (List.Sublist.refl _) List.filter_sublist)) (fun id hid => by
      obtain hid | hid := List.mem_append.mp hid
      · exact (congrArg Prod.snd (hother₃ id (hnotReq id hid))).trans
          ((hrow₂ id).trans (habsent id hid))
      · obtain ⟨hid, hnone⟩ := (hfilter id).mp hid
        obtain ⟨e, he, rfl⟩ := List.mem_map.mp hid
        obtain ⟨_, _, _, _, _, hsome, _⟩ := hown₃ e he
        have hnone₂ : (fresh.view e.reqId).2 = none := (hrow₂ e.reqId).trans hnone
        rw [hnone₂] at hsome
        exact Option.not_isSome_iff_eq_none.mp (by simpa [view] using hsome)) hadding hadd
  -- …which they keep
  obtain ⟨hsound₅, hseen₅⟩ := hsound₄.condense hcondense
  obtain ⟨hsound₆, hseen₆, hmatches⟩ := hsound₅.refreshMetadata hrefresh
  have hrow₆ : ∀ id, refreshed.tokenRow id = added.tokenRow id := fun id =>
    InputBatch.tokenRow_congr (by rw [hseen₆, hseen₅])
  refine ⟨?_, ⟨⟨known, hsound₆, hknown₄⟩, hcoupled₃.positive⟩, hmatches, fun d hd => ?_,
    fun e he => ?_, fun id hid hid' => ?_⟩
  · obtain ⟨h₁, h₂, h₃, h₄, h₅⟩ := (hrank₁.trans hrank₂).trans hrank₃
    exact ⟨h₁, h₂, h₃, h₄, h₅⟩
  · have hmem : d.reqId ∈ out.newIds := List.mem_map_of_mem hd
    have hst : updated.requests.lookup d.reqId = some (newState out d) :=
      (congrArg Prod.fst (hother₃ d.reqId (hnotReq _ hmem))).trans (hfresh₂ d hd)
    obtain ⟨st, hst', hrow⟩ := hown₄ d.reqId (List.mem_append_left _ hmem)
    cases hst.symm.trans hst'
    exact Prod.ext hst ((hrow₆ _).trans hrow)
  · have hmem : e.reqId ∈ out.reqIds := List.mem_map_of_mem he
    have hnotNew : e.reqId ∉ out.newIds := fun hid => hnotReq _ hid hmem
    obtain ⟨st, cached, hst, hcached', hst', hsome, hkept⟩ := hown₃ e he
    have hst₁ : kept.requests.lookup e.reqId = some st := (hold₂ _ hnotNew).symm.trans hst
    rw [hlookup₁] at hst₁
    have hfin : e.reqId ∉ out.finishedReqIds := fun hfin => by
      rw [if_pos hfin] at hst₁
      contradiction
    rw [if_neg hfin] at hst₁
    have hrow : kept.inputBatch.tokenRow e.reqId = w.inputBatch.tokenRow e.reqId := by
      rw [hrow₁, if_neg]
      exact fun hnot => hnot.elim hfin fun hnot => hnot ((hscheduled _).mpr (Or.inr hmem))
    have hrow' : (fresh.view e.reqId).2 = w.inputBatch.tokenRow e.reqId :=
      (hrow₂ e.reqId).trans hrow
    have hview : fresh.view e.reqId = w.view e.reqId := Prod.ext (hst.trans hst₁.symm) hrow'
    refine ⟨st, cached, hfin, hst₁, hcached', hst', ?_, fun hnone => ?_, fun hin hlast hsettled => ?_⟩
    · rw [hrow₆]
      by_cases hadded : e.reqId ∈ out.newIds ++ out.reqIds.filter (· ∉ kept.inputBatch.reqIdToIndex)
      · obtain ⟨_, _, hrow⟩ := hown₄ e.reqId hadded
        rw [hrow]
        rfl
      · rw [hother₄ e.reqId hadded]
        refine hsome.trans ?_
        rw [hrow', ← hrow, Option.isSome_iff_ne_none]
        exact fun hnone => hadded (List.mem_append_right _ ((hfilter _).mpr ⟨hmem, hnone⟩))
    · obtain ⟨st₂, hst₂, hrow₂⟩ := hown₄ e.reqId
        (List.mem_append_right _ ((hfilter _).mpr ⟨hmem, hrow.trans hnone⟩))
      cases hst'.symm.trans hst₂
      exact (hrow₆ _).trans hrow₂
    · have hnotAdded : e.reqId ∉
          out.newIds ++ out.reqIds.filter (· ∉ kept.inputBatch.reqIdToIndex) := by
        rw [List.mem_append, hfilter, hrow]
        rintro (hid | ⟨_, hnone⟩)
        · exact hnotNew hid
        · rw [hnone] at hin
          contradiction
      rw [hrow₆, hother₄ e.reqId hnotAdded]
      refine (hkept hlast (hview ▸ hsettled)).trans ?_
      rw [hrow']
      obtain ⟨t, ht⟩ := Option.isSome_iff_exists.mp hin
      rw [ht, Option.map_some]
  · have hnotAdded : id ∉ out.newIds ++ out.reqIds.filter (· ∉ kept.inputBatch.reqIdToIndex) := by
      rw [List.mem_append, hfilter]
      exact fun hmem => hmem.elim hid fun hmem => hid' hmem.1
    refine Prod.ext ?_ ?_
    · exact (congrArg Prod.fst (hother₃ id hid')).trans ((hold₂ id hid).trans (hlookup₁ id))
    · refine (hrow₆ id).trans ((hother₄ id hnotAdded).trans
        ((congrArg Prod.snd (hother₃ id hid')).trans ((hrow₂ id).trans ?_)))
      rw [hrow₁, if_pos]
      exact Or.inr fun hmem => ((hscheduled id).mp hmem).elim hid hid'

end RowRunner

end VllmAscend
