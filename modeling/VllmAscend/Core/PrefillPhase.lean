import VllmAscend.Core.Ledger

/-!
# Core/PrefillPhase — what the prefill loop leaves behind

    s.waiting = seen ++ rest         seen labelled kept | ignored | admitted

A run of the prefill loop labels a prefix of the waiting queue with what became of each request, its
`Fate`.  Every list, set and dictionary the loop fills is a sublist of the labelled prefix, in its
order (`PrefillQueues`, `PrefillRecords`), and every object is what its fate makes of it
(`PrefillObjects`).
-/

namespace VllmAscend

open Machinery

variable {σ κ M : Type}

/-- The requests with a given fate, in the order of the waiting queue. -/
def withFate (f : Fate) (fates : List (ReqId × Fate)) : List ReqId :=
  (fates.filter fun p => p.2 = f).map Prod.fst

@[simp] theorem withFate_nil (f : Fate) : withFate f [] = [] := rfl

theorem withFate_snoc (f : Fate) (fates : List (ReqId × Fate)) (id : ReqId) (g : Fate) :
    withFate f (fates ++ [(id, g)]) = withFate f fates ++ if g = f then [id] else [] := by
  by_cases h : g = f <;> simp [withFate, h]

theorem withFate_sublist (f : Fate) (fates : List (ReqId × Fate)) :
    (withFate f fates).Sublist (fates.map Prod.fst) :=
  List.filter_sublist.map _

theorem mem_withFate {f : Fate} {fates : List (ReqId × Fate)} {id : ReqId} :
    id ∈ withFate f fates ↔ (id, f) ∈ fates := by
  simp [withFate]

/-- **The fates partition the requests looked at.** -/
theorem perm_withFate : ∀ fates : List (ReqId × Fate),
    (fates.map Prod.fst).Perm
      (withFate .kept fates ++ withFate .admitted fates ++ withFate .ignored fates)
  | [] => by simp
  | (id, f) :: fates => by
    have ih := perm_withFate fates
    cases f
    · simpa [withFate] using ih
    · have hmiddle : (withFate .kept fates ++ withFate .admitted fates ++
          id :: withFate .ignored fates).Perm
          (id :: (withFate .kept fates ++ withFate .admitted fates ++ withFate .ignored fates)) :=
        List.perm_middle
      simpa [withFate] using (ih.cons id).trans hmiddle.symm
    · have hmiddle : (withFate .kept fates ++ id :: withFate .admitted fates ++
          withFate .ignored fates).Perm
          (id ::
            (withFate .kept fates ++ withFate .admitted fates ++ withFate .ignored fates)) := by
        rw [List.append_assoc, List.append_assoc, List.cons_append]
        exact List.perm_middle
      simpa [withFate] using (ih.cons id).trans hmiddle.symm

namespace AscendScheduler

variable {self : AscendScheduler σ κ M} {s : SchedulerState σ κ} {fr fr' : Frame σ κ} {id : ReqId}
  {rest : List ReqId} {fates : List (ReqId × Fate)}

/-! ## The queues -/

/-- The queues and the sets of the scheduler after the requests in `fates` were looked at. -/
structure PrefillQueues (s : SchedulerState σ κ) (fates : List (ReqId × Fate)) (fr : Frame σ κ) :
    Prop where
  waiting : s.waiting = fates.map Prod.fst ++ fr.waiting
  skipped : fr.skippedWaitingRequests.reverse = withFate .kept fates
  running : fr.running = s.running ++ withFate .admitted fates
  scheduledReqIds : fr.scheduledReqIds = s.scheduledReqIds ∪ (withFate .admitted fates).toFinset
  finishedReqIds : fr.finishedReqIds = s.finishedReqIds ∪ (withFate .ignored fates).toFinset
  requests : fr.requests = s.requests

theorem PrefillQueues.start (s : SchedulerState σ κ) : PrefillQueues s [] (self.start s) :=
  ⟨rfl, rfl, by simp [AscendScheduler.start], by simp [AscendScheduler.start],
    by simp [AscendScheduler.start], rfl⟩

/-- One more request looked at. -/
theorem PrefillQueues.snoc {f : Fate} (h : PrefillQueues s fates fr)
    (head : fr.waiting = id :: rest) (hmove : PrefillMove self fr id f fr') :
    PrefillQueues s (fates ++ [(id, f)]) fr' := by
  have hwaiting : s.waiting = (fates ++ [(id, f)]).map Prod.fst ++ fr.waiting.tail := by
    rw [h.waiting, head]
    simp
  cases hmove with
  | kept =>
    refine ⟨hwaiting, ?_, ?_, ?_, ?_, h.requests⟩ <;>
      simp [withFate_snoc, h.skipped, h.running, h.scheduledReqIds, h.finishedReqIds]
  | ignored =>
    refine ⟨hwaiting, ?_, ?_, ?_, ?_, h.requests⟩ <;>
      simp [withFate_snoc, h.skipped, h.running, h.scheduledReqIds, h.finishedReqIds]
  | admitted =>
    refine ⟨hwaiting, ?_, ?_, ?_, ?_, h.requests⟩ <;>
      simp [withFate_snoc, h.skipped, h.running, h.scheduledReqIds, h.finishedReqIds]

/-! ## The records -/

/-- The local variables of the call after the requests in `fates` were looked at. -/
structure PrefillRecords (A : AscendScheduler σ κ M) (s : SchedulerState σ κ)
    (fates : List (ReqId × Fate)) (fr : Frame σ κ) : Prop where
  ledger : Ledger A s.obj (withFate .admitted fates) fr.numScheduledTokens fr.tokenBudget
    fr.scheduledLoras
  new : fr.scheduledNewReqs =
    (withFate .admitted fates).filter fun id => (s.obj id).status ≠ .preempted
  resumed : fr.scheduledResumedReqs =
    (withFate .admitted fates).filter fun id => (s.obj id).status = .preempted
  running : fr.scheduledRunningReqs = []
  preempted : fr.preemptedReqs = []
  spec : fr.scheduledSpecDecodeTokens = ∅
  reqIndex : fr.reqIndex = 0

theorem PrefillRecords.start (s : SchedulerState σ κ) :
    PrefillRecords self s [] (self.start s) :=
  ⟨Ledger.empty, rfl, rfl, rfl, rfl, rfl, rfl⟩

/-- One more request looked at; the call has not touched it before. -/
theorem PrefillRecords.snoc {f : Fate} (h : PrefillRecords self s fates fr)
    (hid : id ∉ fates.map Prod.fst) (hobj : fr.obj id = s.obj id)
    (hmove : PrefillMove self fr id f fr') : PrefillRecords self s (fates ++ [(id, f)]) fr' := by
  have hsnoc := withFate_snoc .admitted fates id f
  cases hmove with
  | kept =>
    rw [if_neg (by decide), List.append_nil] at hsnoc
    exact ⟨hsnoc ▸ h.ledger, hsnoc ▸ h.new, hsnoc ▸ h.resumed, h.running, h.preempted, h.spec,
      h.reqIndex⟩
  | ignored =>
    rw [if_neg (by decide), List.append_nil] at hsnoc
    exact ⟨hsnoc ▸ h.ledger, hsnoc ▸ h.new, hsnoc ▸ h.resumed, h.running, h.preempted, h.spec,
      h.reqIndex⟩
  | @admitted kv conn r n blocks isNew tokens status computed pos budget lora resumed =>
    rw [if_pos rfl] at hsnoc
    have hadmitted : id ∉ withFate .admitted fates := fun hmem =>
      hid ((withFate_sublist _ _).subset hmem)
    have hlora := tokens.loraRequest
    rw [hobj] at hlora resumed
    refine ⟨?_, ?_, ?_, h.running, h.preempted, h.spec, h.reqIndex⟩
    · rw [hsnoc]
      exact h.ledger.enter hadmitted (by omega) budget hlora lora
    · rw [hsnoc, List.filter_append, ← h.new]
      cases isNew <;> simp_all
    · rw [hsnoc, List.filter_append, ← h.resumed]
      cases isNew <;> simp_all

/-! ## The objects -/

/-- What an admitted request becomes: running, and computed to the last token once the tokens it
is scheduled are added. -/
structure Admitted (r r' : Request) (n : ℤ) : Prop where
  tokens : r.SameTokens r'
  status : r'.status = .running
  pos : 0 < n
  computed : r'.numComputedTokens + n = r'.numTokens

/-- The requests after the requests in `fates` were looked at. -/
structure PrefillObjects (s : SchedulerState σ κ) (fates : List (ReqId × Fate)) (fr : Frame σ κ) :
    Prop where
  unseen : ∀ id, id ∉ fates.map Prod.fst → fr.obj id = s.obj id
  kept : ∀ id ∈ withFate .kept fates, (s.obj id).Kept (fr.obj id)
  ignored : ∀ id ∈ withFate .ignored fates,
    (s.obj id).SameTokens (fr.obj id) ∧ (fr.obj id).status = .finishedIgnored
  admitted : ∀ id ∈ withFate .admitted fates,
    ∃ n, fr.numScheduledTokens.lookup id = some n ∧ Admitted (s.obj id) (fr.obj id) n

theorem PrefillObjects.start (s : SchedulerState σ κ) : PrefillObjects s [] (self.start s) :=
  ⟨fun _ _ => rfl, by simp, by simp, by simp⟩

/-- **One more object**: what holds of the requests with a fate goes on holding, and holds of the
request that is added when its fate is that one. -/
theorem fate_snoc {obj₀ obj : ReqId → Request} {P : ReqId → Request → Request → Prop} {f g : Fate}
    {r : Request} (h : ∀ id' ∈ withFate g fates, P id' (obj₀ id') (obj id'))
    (hid : id ∉ fates.map Prod.fst) (hnew : f = g → P id (obj₀ id) r) :
    ∀ id' ∈ withFate g (fates ++ [(id, f)]), P id' (obj₀ id') (Function.update obj id r id') := by
  intro id' hmem
  rw [withFate_snoc, List.mem_append] at hmem
  obtain hmem | hmem := hmem
  · have hne : id' ≠ id := by
      rintro rfl
      exact hid ((withFate_sublist _ _).subset hmem)
    rw [Function.update_of_ne hne]
    exact h id' hmem
  · split at hmem
    · next hf =>
      obtain rfl := List.mem_singleton.mp hmem
      rw [Function.update_self]
      exact hnew hf
    · exact absurd hmem (List.not_mem_nil)

/-- One more request looked at. -/
theorem PrefillObjects.snoc {f : Fate} (h : PrefillObjects s fates fr)
    (hid : id ∉ fates.map Prod.fst) (hmove : PrefillMove self fr id f fr') :
    PrefillObjects s (fates ++ [(id, f)]) fr' := by
  have hobj := h.unseen id hid
  have hunseen : ∀ (g : Fate) (r : Request) (id' : ReqId),
      id' ∉ (fates ++ [(id, g)]).map Prod.fst → Function.update fr.obj id r id' = s.obj id' := by
    intro g r id' hid'
    simp only [List.map_append, List.map_cons, List.map_nil, List.mem_append, List.mem_singleton,
      not_or] at hid'
    rw [Function.update_of_ne hid'.2]
    exact h.unseen id' hid'.1
  cases hmove with
  | kept request =>
    rw [hobj] at request
    exact ⟨hunseen .kept _, fate_snoc (P := fun _ r r' => r.Kept r') h.kept hid fun _ => request,
      fate_snoc (P := fun _ r r' => r.SameTokens r' ∧ r'.status = .finishedIgnored) h.ignored hid
        (fun hf => nomatch hf),
      fate_snoc (P := fun id r r' => ∃ n, fr.numScheduledTokens.lookup id = some n ∧
        Admitted r r' n) h.admitted hid (fun hf => nomatch hf)⟩
  | ignored tokens status =>
    rw [hobj] at tokens
    exact ⟨hunseen .ignored _, fate_snoc (P := fun _ r r' => r.Kept r') h.kept hid
        (fun hf => nomatch hf),
      fate_snoc (P := fun _ r r' => r.SameTokens r' ∧ r'.status = .finishedIgnored) h.ignored hid
        fun _ => ⟨tokens, status⟩,
      fate_snoc (P := fun id r r' => ∃ n, fr.numScheduledTokens.lookup id = some n ∧
        Admitted r r' n) h.admitted hid (fun hf => nomatch hf)⟩
  | @admitted _ _ _ n _ _ tokens status computed pos budget lora resumed =>
    rw [hobj] at tokens
    -- the requests admitted before keep their entries
    have hadmitted : ∀ id' ∈ withFate .admitted fates,
        ∃ m, (fr.numScheduledTokens.insert id n).lookup id' = some m ∧
          Admitted (s.obj id') (fr.obj id') m := by
      intro id' hmem
      obtain ⟨m, hlookup, hm⟩ := h.admitted id' hmem
      have hne : id' ≠ id := by
        rintro rfl
        exact hid ((withFate_sublist _ _).subset hmem)
      exact ⟨m, (AList.lookup_insert_ne hne).trans hlookup, hm⟩
    exact ⟨hunseen .admitted _, fate_snoc (P := fun _ r r' => r.Kept r') h.kept hid
        (fun hf => nomatch hf),
      fate_snoc (P := fun _ r r' => r.SameTokens r' ∧ r'.status = .finishedIgnored) h.ignored hid
        (fun hf => nomatch hf),
      fate_snoc (P := fun id' r r' => ∃ m, (fr.numScheduledTokens.insert id n).lookup id' = some m ∧
        Admitted r r' m) hadmitted hid
        fun _ => ⟨n, AList.lookup_insert _, tokens, status, pos, computed⟩⟩

/-! ## The phase -/

/-- Some round of the prefill loop finds its request too long. -/
def FindsTooLong (A : AscendScheduler σ κ M) (s : SchedulerState σ κ) : Prop :=
  ∃ fr id rest, Rounds A.prefillBody (A.start s) fr ∧ fr.waiting = id :: rest ∧
    0 < fr.tokenBudget ∧ fr.running.length ≠ A.maxNumRunningReqs ∧ TooLongAt A fr id

/-- The prefill loop after it looked at the requests in `fates`. -/
structure PrefillPhase (A : AscendScheduler σ κ M) (s : SchedulerState σ κ)
    (fates : List (ReqId × Fate)) (fr : Frame σ κ) : Prop where
  rounds : Rounds A.prefillBody (A.start s) fr
  queues : PrefillQueues s fates fr
  records : PrefillRecords A s fates fr
  objects : PrefillObjects s fates fr
  tooLong : withFate .ignored fates ≠ [] → FindsTooLong A s

/-- **One round of the prefill loop** labels one more request of the waiting queue. -/
theorem PrefillPhase.again (hnodup : s.waiting.Nodup) (h : PrefillPhase self s fates fr)
    (hround : self.prefillBody fr = .ok (.again fr')) :
    ∃ id f, PrefillPhase self s (fates ++ [(id, f)]) fr' := by
  have hrounds := h.rounds.tail hround
  obtain ⟨id, rest, head, hbudget, hroom, hround⟩ := prefillBody_again hround
  obtain ⟨f, hmove, htooLong⟩ := hround.move
  have hid : id ∉ fates.map Prod.fst := by
    rw [h.queues.waiting, head, List.nodup_append] at hnodup
    exact fun hmem => hnodup.2.2 id hmem id (by simp) rfl
  have hobj := h.objects.unseen id hid
  refine ⟨id, f, hrounds, h.queues.snoc head hmove, h.records.snoc hid hobj hmove,
    h.objects.snoc hid hmove, fun hne => ?_⟩
  by_cases hf : f = .ignored
  · exact ⟨fr, id, rest, h.rounds, head, hbudget, hroom, htooLong hf⟩
  · rw [withFate_snoc, if_neg hf, List.append_nil] at hne
    exact h.tooLong hne

/-- Any number of rounds. -/
theorem prefill_rounds (hnodup : s.waiting.Nodup)
    (h : Rounds self.prefillBody (self.start s) fr) : ∃ fates, PrefillPhase self s fates fr := by
  refine h.invariant (I := fun fr => ∃ fates, PrefillPhase self s fates fr) ?_
    ⟨[], .refl, .start s, .start s, .start s, fun hne => absurd rfl hne⟩
  rintro fr fr' ⟨fates, hphase⟩ hround
  obtain ⟨id, f, hphase'⟩ := hphase.again hnodup hround
  exact ⟨_, hphase'⟩

/-- What holds when the loop is left: as in the rounds, but for the request whose blocks were
refused, which may have got its remote KVs. -/
structure PrefillDone (A : AscendScheduler σ κ M) (s : SchedulerState σ κ)
    (fates : List (ReqId × Fate)) (fr : Frame σ κ) : Prop where
  queues : PrefillQueues s fates fr
  records : PrefillRecords A s fates fr
  unseen : ∀ id, id ∉ s.waiting → fr.obj id = s.obj id
  rest : ∀ id ∈ fr.waiting, (s.obj id).Kept (fr.obj id)
  kept : ∀ id ∈ withFate .kept fates, (s.obj id).Kept (fr.obj id)
  ignored : ∀ id ∈ withFate .ignored fates,
    (s.obj id).SameTokens (fr.obj id) ∧ (fr.obj id).status = .finishedIgnored
  admitted : ∀ id ∈ withFate .admitted fates,
    ∃ n, fr.numScheduledTokens.lookup id = some n ∧ Admitted (s.obj id) (fr.obj id) n
  tooLong : withFate .ignored fates ≠ [] → FindsTooLong A s

/-- A frame of the rounds, left as it is. -/
theorem PrefillPhase.done (hnodup : s.waiting.Nodup) (h : PrefillPhase self s fates fr) :
    PrefillDone self s fates fr where
  queues := h.queues
  records := h.records
  unseen := by
    intro id hid
    refine h.objects.unseen id fun hmem => hid ?_
    rw [h.queues.waiting]
    exact List.mem_append_left _ hmem
  rest := by
    intro id hid
    rw [h.queues.waiting, List.nodup_append] at hnodup
    rw [h.objects.unseen id fun hmem => hnodup.2.2 id hmem id hid rfl]
    exact .refl _
  kept := h.objects.kept
  ignored := h.objects.ignored
  admitted := h.objects.admitted
  tooLong := h.tooLong

/-- A frame of the rounds, but for the outside state and the object of a request that was not dealt
with. -/
theorem PrefillPhase.refused {kv : σ} {conn : κ} {r : Request} (hnodup : s.waiting.Nodup)
    (h : PrefillPhase self s fates fr) (head : fr.waiting = id :: rest) (hr : (fr.obj id).Kept r) :
    PrefillDone self s fates
      { fr with kv := kv, conn := conn, obj := Function.update fr.obj id r } := by
  have hseen : ∀ {f : Fate} {id' : ReqId}, id' ∈ withFate f fates → id' ≠ id := by
    rintro f id' hmem rfl
    rw [h.queues.waiting, head, List.nodup_append] at hnodup
    exact hnodup.2.2 id' ((withFate_sublist _ _).subset hmem) id' (by simp) rfl
  have hobj : ∀ {f : Fate} {id' : ReqId}, id' ∈ withFate f fates →
      Function.update fr.obj id r id' = fr.obj id' := fun hmem =>
    Function.update_of_ne (hseen hmem) _ _
  have hdone := h.done hnodup
  refine ⟨⟨h.queues.1, h.queues.2, h.queues.3, h.queues.4, h.queues.5, h.queues.6⟩,
    ⟨h.records.1, h.records.2, h.records.3, h.records.4, h.records.5, h.records.6, h.records.7⟩,
    ?_, ?_, ?_, ?_, ?_, h.tooLong⟩
  · intro id' hid'
    have hne : id' ≠ id := by
      rintro rfl
      rw [h.queues.waiting, head] at hid'
      simp at hid'
    exact (Function.update_of_ne hne _ _).trans (hdone.unseen id' hid')
  · intro id' hid'
    by_cases hne : id' = id
    · subst hne
      have hsame : fr.obj id' = s.obj id' := by
        rw [h.queues.waiting, head, List.nodup_append] at hnodup
        exact h.objects.unseen id' fun hmem => hnodup.2.2 id' hmem id' (by simp) rfl
      simp only [Function.update_self]
      exact hsame ▸ hr
    · simp only [Function.update_of_ne hne]
      exact hdone.rest id' hid'
  · intro id' hmem
    simp only [hobj hmem]
    exact hdone.kept id' hmem
  · intro id' hmem
    simp only [hobj hmem]
    exact hdone.ignored id' hmem
  · intro id' hmem
    simp only [hobj hmem]
    exact hdone.admitted id' hmem

/-- **The prefill loop labels a prefix of the waiting queue.** -/
theorem prefillPhase_eq_ok (hnodup : s.waiting.Nodup) (h : self.prefillPhase s = .ok fr') :
    ∃ fates, PrefillDone self s fates fr' := by
  obtain ⟨fr, hrounds, hleave⟩ := whileLoop_eq_ok h
  obtain ⟨fates, hphase⟩ := prefill_rounds hnodup hrounds
  refine ⟨fates, ?_⟩
  cases prefillBody_leave hleave with
  | done => exact hphase.done hnodup
  | refused head looked alloc =>
    obtain ⟨r, hframe, htokens, hstatus⟩ := looked.frame_eq
    rw [hframe]
    exact hphase.refused hnodup head (Request.kept_of_awaited htokens hstatus)

/-- **The prefill loop ends**: every round shortens the waiting queue. -/
theorem prefillPhase_error (hnodup : s.waiting.Nodup) {e : Fault}
    (h : self.prefillPhase s = .error e) :
    e.isEntry = true ∨ (e = .invalidStatus ∧
      ∃ id ∈ s.waiting, (s.obj id).status.isSchedulable = false) := by
  obtain rfl | ⟨fr, hrounds, herr⟩ := whileLoop_eq_error h
  · refine absurd h (whileLoop_ne_exhausted (fun fr : Frame σ κ => fr.waiting.length) ?_ ?_
      (Nat.lt_succ_self _))
    · intro fr fr' hround
      obtain ⟨id, rest, head, _, _, hround⟩ := prefillBody_again hround
      obtain ⟨f, hmove, _⟩ := hround.move
      cases hmove <;> simp [head]
    · intro fr herr
      obtain h | ⟨h, _⟩ := prefillBody_error herr
      · contradiction
      · contradiction
  · refine (prefillBody_error herr).imp_right ?_
    rintro ⟨he, id, rest, head, hstatus⟩
    obtain ⟨fates, hphase⟩ := prefill_rounds hnodup hrounds
    have hwaiting := hphase.queues.waiting
    rw [head] at hwaiting
    refine ⟨he, id, by simp [hwaiting], ?_⟩
    rwa [hphase.objects.unseen id] at hstatus
    rw [hwaiting, List.nodup_append] at hnodup
    exact fun hmem => hnodup.2.2 id hmem id (by simp) rfl

/-- **The prefill loop does not fill the running list beyond its bound.** -/
theorem prefillPhase_running_le (hlen : s.running.length ≤ self.maxNumRunningReqs)
    (h : self.prefillPhase s = .ok fr') : fr'.running.length ≤ self.maxNumRunningReqs := by
  refine whileLoop_invariant (I := fun fr => fr.running.length ≤ self.maxNumRunningReqs)
    (J := fun fr => fr.running.length ≤ self.maxNumRunningReqs) ?_ ?_ h hlen
  · intro fr fr' hfr hround
    obtain ⟨id, rest, head, _, hroom, hround⟩ := prefillBody_again hround
    obtain ⟨f, hmove, _⟩ := hround.move
    cases hmove with
    | kept => exact hfr
    | ignored => exact hfr
    | admitted =>
      rw [List.length_append, List.length_singleton]
      omega
  · intro fr fr' hfr hround
    cases prefillBody_leave hround with
    | done => exact hfr
    | refused head looked alloc =>
      obtain ⟨r, hframe, _, _⟩ := looked.frame_eq
      rw [hframe]
      exact hfr

end AscendScheduler

end VllmAscend
