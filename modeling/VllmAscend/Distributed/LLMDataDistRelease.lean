import VllmAscend.Distributed.LLMDataDistConnector
import VllmAscend.Machinery.Barrier
import VllmAscend.Machinery.Run

/-!
# Distributed/LLMDataDistRelease — the tasks of the decode ranks, and what releases the producer

    _read_blocks   connect ──▸ any local blocks? ──▸ enough remote blocks? ──▸ pull, pull
                      ✗               ✗                     ✗                   ✗     ──▸ finish
    prefill        ReqForFinished, from every decode rank ──▸ finished_reqs

A task notifies the producer in its last lines, so all its other ends leave the producer waiting.
The producer frees the blocks of a request when the signals of all decode ranks are there: it does
exactly when each of their tasks gets to the end (`released_iff`).
-/

namespace VllmAscend

open Machinery

/-- An exception of `pull_blocks`. -/
inductive PullFault where
  | typeError
  | valueError
  | llmException
  | other
  deriving DecidableEq, Repr

/-- How a task fails. -/
inductive TaskFault where
  /-- `connect_to_remote_agent` raised -/
  | connect
  /-- `assert num_local_blocks <= num_remote_blocks` -/
  | blockCount
  /-- the `RuntimeError` raised for an exception that `pull_blocks` is known for -/
  | runtimeError (cause : PullFault)
  | other
  deriving DecidableEq, Repr

/-- What is raised for an exception of `pull_blocks`. -/
def PullFault.raised : PullFault → TaskFault
  | .other => .other
  | cause => .runtimeError cause

/-- `[ReqForFinished, [request_id, tp_rank, tp_size]]`, to the prefill rank at `host` and `port`. -/
structure ReqForFinished where
  host : String
  port : ℕ
  requestId : ReqId
  tpRank : ℕ
  tpSize : ℕ
  deriving DecidableEq, Repr

/-- The worker, with the size it sends along. -/
structure LLMDataDistDecodeWorker extends LLMDataDistCMgrConnectorWorker where
  tpSize : ℕ

/-- What comes from outside: whether the worker can connect to the remote agent, and how each of the
calls of `pull_blocks` ends. -/
structure PullOutcomes where
  connects : Bool
  pull : ℕ → Except PullFault Unit

namespace LLMDataDistDecodeWorker

/-- The calls of `pull_blocks`, up to the first that raises. -/
def pullBlocks (pull : ℕ → Except PullFault Unit) : List Pull → ℕ → Except PullFault Unit
  | [], _ => .ok ()
  | _ :: pulls, k =>
    match pull k with
    | .error e => .error e
    | .ok () => pullBlocks pull pulls (k + 1)

/-- The message of `send_finish_to_remote`; the exceptions after it is sent are caught. -/
def finishMessage (self : LLMDataDistDecodeWorker) (requestId : ReqId) (m : LLMDataDist.ReqMeta) :
    ReqForFinished :=
  ⟨m.remoteHost, m.remotePort, requestId, self.tpRank, self.tpSize⟩

/-- `_read_blocks`: the worker after it, the messages it sent, and how it ends. -/
def readBlocksTask (self : LLMDataDistDecodeWorker) (requestId : ReqId) (m : LLMDataDist.ReqMeta)
    (outcomes : PullOutcomes) :
    LLMDataDistDecodeWorker × List ReqForFinished × Except TaskFault Unit :=
  if outcomes.connects = false then (self, [], .error .connect)
  else if m.localBlockIds.length = 0 then (self, [], .ok ())
  else
    match self.readBlocks requestId m with
    | none => (self, [], .error .blockCount)
    | some (worker, pulls) =>
      match pullBlocks outcomes.pull pulls 0 with
      | .error e => (self, [], .error e.raised)
      | .ok () =>
        ({ self with finishedReqs := worker.finishedReqs }, [self.finishMessage requestId m], .ok ())

end LLMDataDistDecodeWorker

/-- A task that `start_load_kv` submits, as it is run. -/
structure PullTask where
  worker : LLMDataDistDecodeWorker
  requestId : ReqId
  reqMeta : LLMDataDist.ReqMeta
  outcomes : PullOutcomes

namespace PullTask

def run (t : PullTask) : LLMDataDistDecodeWorker × List ReqForFinished × Except TaskFault Unit :=
  t.worker.readBlocksTask t.requestId t.reqMeta t.outcomes

/-- What the task is to send. -/
def message (t : PullTask) : ReqForFinished := t.worker.finishMessage t.requestId t.reqMeta

/-- The worker connects, there is something to pull and not too much of it, and the pulls succeed:
one, or two for MLA. -/
structure Succeeds (t : PullTask) : Prop where
  connects : t.outcomes.connects = true
  nonempty : t.reqMeta.localBlockIds ≠ []
  enough : t.reqMeta.localBlockIds.length ≤ t.reqMeta.remoteBlockIds.length
  pull : t.outcomes.pull 0 = .ok ()
  pull_mla : t.worker.useMla = true → t.outcomes.pull 1 = .ok ()

/-- Where the pulls of `_read_blocks` succeed. -/
theorem pullBlocks_ok_iff {t : PullTask} (hne : t.reqMeta.localBlockIds ≠ [])
    {worker : LLMDataDistCMgrConnectorWorker} {pulls : List Pull}
    (hread : t.worker.readBlocks t.requestId t.reqMeta = some (worker, pulls)) :
    LLMDataDistDecodeWorker.pullBlocks t.outcomes.pull pulls 0 = .ok () ↔
      t.outcomes.pull 0 = .ok () ∧ (t.worker.useMla = true → t.outcomes.pull 1 = .ok ()) := by
  have hpulls : pulls.length = if t.worker.useMla then 2 else 1 := by
    simp only [LLMDataDistCMgrConnectorWorker.readBlocks,
      if_neg (List.length_eq_zero_iff.not.mpr hne)] at hread
    split at hread
    · cases hread
      split_ifs <;> rfl
    · contradiction
  obtain _ | ⟨p, _ | ⟨p', _ | ⟨p'', ps⟩⟩⟩ := pulls
  · split_ifs at hpulls
  · -- one pull
    have hmla : t.worker.useMla ≠ true := by
      intro hmla
      rw [if_pos hmla] at hpulls
      simp at hpulls
    cases h0 : t.outcomes.pull 0 <;> simp [LLMDataDistDecodeWorker.pullBlocks, h0, hmla]
  · -- two, for MLA
    have hmla : t.worker.useMla = true := by
      by_contra hmla
      rw [if_neg hmla] at hpulls
      simp at hpulls
    cases h0 : t.outcomes.pull 0 <;> cases h1 : t.outcomes.pull 1 <;>
      simp [LLMDataDistDecodeWorker.pullBlocks, h0, h1, hmla]
  · split_ifs at hpulls <;> simp at hpulls

theorem readBlocks_isSome_iff {t : PullTask} (hne : t.reqMeta.localBlockIds ≠ []) :
    (∃ worker pulls, t.worker.readBlocks t.requestId t.reqMeta = some (worker, pulls)) ↔
      t.reqMeta.localBlockIds.length ≤ t.reqMeta.remoteBlockIds.length := by
  simp only [LLMDataDistCMgrConnectorWorker.readBlocks,
    if_neg (List.length_eq_zero_iff.not.mpr hne)]
  split <;> simp_all

/-- **A task that gets to its end sends one message**, its own. -/
theorem sent_of_succeeds {t : PullTask} (h : t.Succeeds) : t.run.2.1 = [t.message] := by
  obtain ⟨worker, pulls, hread⟩ := (readBlocks_isSome_iff h.nonempty).mpr h.enough
  have hpull := (pullBlocks_ok_iff h.nonempty hread).mpr ⟨h.pull, h.pull_mla⟩
  simp [run, LLMDataDistDecodeWorker.readBlocksTask, h.connects,
    List.length_eq_zero_iff.not.mpr h.nonempty, hread, hpull, message]

/-- **A task that ends before sends none.** -/
theorem sent_of_not_succeeds {t : PullTask} (h : ¬t.Succeeds) : t.run.2.1 = [] := by
  by_cases hconnects : t.outcomes.connects = false
  · simp [run, LLMDataDistDecodeWorker.readBlocksTask, hconnects]
  rw [Bool.not_eq_false] at hconnects
  by_cases hne : t.reqMeta.localBlockIds = []
  · simp [run, LLMDataDistDecodeWorker.readBlocksTask, hconnects, hne]
  simp only [run, LLMDataDistDecodeWorker.readBlocksTask, hconnects,
    List.length_eq_zero_iff.not.mpr hne, if_false]
  cases hread : t.worker.readBlocks t.requestId t.reqMeta with
  | none => rfl
  | some read =>
    obtain ⟨worker, pulls⟩ := read
    cases hpull : LLMDataDistDecodeWorker.pullBlocks t.outcomes.pull pulls 0 with
    | error e => simp [hpull]
    | ok _ =>
      obtain ⟨h0, h1⟩ := (pullBlocks_ok_iff hne hread).mp hpull
      have henough := (readBlocks_isSome_iff hne).mp ⟨worker, pulls, hread⟩
      exact absurd ⟨hconnects, hne, henough, h0, h1⟩ h

theorem sent_eq_message_iff (t : PullTask) : t.run.2.1 = [t.message] ↔ t.Succeeds := by
  refine ⟨fun hsent => ?_, sent_of_succeeds⟩
  by_contra h
  rw [sent_of_not_succeeds h] at hsent
  contradiction

end PullTask

/-! ## The prefill rank that is notified -/

/-- The worker of the prefill rank, as far as it counts. -/
structure LLMDataDistPrefillWorker where
  doneReceivingCounts : Dict (Finset ℕ)
  finishedReqs : Finset ReqId

namespace LLMDataDistPrefillWorker

def init : LLMDataDistPrefillWorker := ⟨∅, ∅⟩

def doneRanks (self : LLMDataDistPrefillWorker) (requestId : ReqId) : Finset ℕ :=
  (self.doneReceivingCounts.lookup requestId).getD ∅

/-- `_increment_task_count`. -/
def incrementTaskCount (self : LLMDataDistPrefillWorker) (requestId : ReqId)
    (tpRank decodeTpSize : ℕ) : LLMDataDistPrefillWorker × Bool :=
  let ranks := self.doneRanks requestId
  -- a rank that is in the set had its entry made before
  if tpRank ∈ ranks then (self, false)
  else if (insert tpRank ranks).card = decodeTpSize then
    ({ self with doneReceivingCounts := self.doneReceivingCounts.erase requestId }, true)
  else
    ({ self with
      doneReceivingCounts := self.doneReceivingCounts.insert requestId (insert tpRank ranks) },
      false)

/-- `listen_for_agent_metadata_req`, on a `ReqForFinished`. -/
def receive (self : LLMDataDistPrefillWorker) (msg : ReqForFinished) : LLMDataDistPrefillWorker :=
  let counted := self.incrementTaskCount msg.requestId msg.tpRank msg.tpSize
  if counted.2 then
    { counted.1 with finishedReqs := insert msg.requestId counted.1.finishedReqs }
  else counted.1

/-- `get_finished`. -/
def getFinished (self : LLMDataDistPrefillWorker) : Finset ReqId × LLMDataDistPrefillWorker :=
  (self.finishedReqs, { self with finishedReqs := ∅ })

/-- The counts, key by key. -/
def barrier (self : LLMDataDistPrefillWorker) : Barrier ReqId ℕ :=
  ⟨self.doneRanks, self.finishedReqs⟩

/-- **Receiving a message** is signalling the barrier. -/
theorem barrier_receive {self : LLMDataDistPrefillWorker} {msg : ReqForFinished} :
    (self.receive msg).barrier =
      self.barrier.signal msg.tpSize msg.requestId msg.tpRank := by
  have hinsert : ∀ (ranks : Finset ℕ) (id : ReqId),
      ((self.doneReceivingCounts.insert msg.requestId ranks).lookup id).getD ∅ =
        Function.update self.doneRanks msg.requestId ranks id := by
    intro ranks id
    by_cases hne : id = msg.requestId
    · subst hne
      simp
    · simp [AList.lookup_insert_ne hne, hne, doneRanks]
  have herase : ∀ id : ReqId,
      ((self.doneReceivingCounts.erase msg.requestId).lookup id).getD ∅ =
        Function.update self.doneRanks msg.requestId ∅ id := by
    intro id
    by_cases hne : id = msg.requestId
    · subst hne
      simp
    · simp [AList.lookup_erase_ne hne, hne, doneRanks]
  have hcounts : self.barrier.counts msg.requestId = self.doneRanks msg.requestId := rfl
  rw [Barrier.signal, hcounts, receive, incrementTaskCount]
  by_cases hmem : msg.tpRank ∈ self.doneRanks msg.requestId
  · simp only [if_pos hmem, Bool.false_eq_true, if_false]
  by_cases hfull : (insert msg.tpRank (self.doneRanks msg.requestId)).card = msg.tpSize
  · simp only [if_neg hmem, if_pos hfull, if_true, barrier]
    congr 1
    funext id
    rw [doneRanks, herase]
  · simp only [if_neg hmem, if_neg hfull, Bool.false_eq_true, if_false, barrier]
    congr 1
    funext id
    rw [doneRanks, hinsert]

end LLMDataDistPrefillWorker

/-! ## The decode ranks and the prefill rank -/

/-- The workers of the decode ranks, the messages on their way, and the prefill rank. -/
structure LLMDataDistSystem where
  workers : ℕ → LLMDataDistDecodeWorker
  inFlight : Multiset ReqForFinished
  prefill : LLMDataDistPrefillWorker
  /-- the history: the task each decode rank ran for a request -/
  tasks : ℕ → ReqId → Option PullTask
  /-- the history: whose message arrived -/
  received : ReqId → Finset ℕ
  /-- the history: how often the prefill rank returned a request -/
  returned : ReqId → ℕ

inductive LLMDataDistEvent where
  /-- the executor of a decode rank runs a task of `start_load_kv` -/
  | readBlocks (rank : ℕ) (requestId : ReqId) (reqMeta : LLMDataDist.ReqMeta)
    (outcomes : PullOutcomes)
  /-- a message arrives -/
  | receive (msg : ReqForFinished)
  | getFinished

namespace LLMDataDistSystem

/-- `n` decode ranks that ran nothing yet. -/
def init (n : ℕ) (worker : LLMDataDistCMgrConnectorWorker) : LLMDataDistSystem where
  workers rank := ⟨{ worker with tpRank := rank }, n⟩
  inFlight := 0
  prefill := .init
  tasks _ _ := none
  received _ := ∅
  returned _ := 0

def step (self : LLMDataDistSystem) : LLMDataDistEvent → Except Unit LLMDataDistSystem
  | .readBlocks rank requestId reqMeta outcomes =>
    let t : PullTask := ⟨self.workers rank, requestId, reqMeta, outcomes⟩
    .ok { self with
      workers := Function.update self.workers rank t.run.1
      inFlight := self.inFlight + t.run.2.1
      tasks := Function.update self.tasks rank (Function.update (self.tasks rank) requestId (some t)) }
  | .receive msg =>
    if msg ∈ self.inFlight then
      .ok { self with
        inFlight := self.inFlight.erase msg
        prefill := self.prefill.receive msg
        received := Function.update self.received msg.requestId
          (insert msg.tpRank (self.received msg.requestId)) }
    else .error ()
  | .getFinished =>
    let finished := self.prefill.getFinished
    .ok { self with
      prefill := finished.2
      returned := fun id => self.returned id + if id ∈ finished.1 then 1 else 0 }

/-- A decode rank, of `n`, runs one task for a request. -/
def Once (n : ℕ) (s : LLMDataDistSystem) : LLMDataDistEvent → Prop
  | .readBlocks rank requestId _ _ => rank < n ∧ (s.tasks rank requestId).isNone
  | _ => True

instance (n : ℕ) (s : LLMDataDistSystem) : (ev : LLMDataDistEvent) → Decidable (s.Once n ev)
  | .readBlocks .. => inferInstanceAs (Decidable (_ ∧ _))
  | .receive _ | .getFinished => isTrue trivial

variable {s s' : LLMDataDistSystem} {n d : ℕ} {id : ReqId}
  {worker : LLMDataDistCMgrConnectorWorker}

/-- A decode rank ran a task for the request that got to its end. -/
def Succeeded (s : LLMDataDistSystem) (d : ℕ) (id : ReqId) : Prop :=
  ∃ t, s.tasks d id = some t ∧ t.Succeeds

/-- The messages that were sent are on their way or counted, each once. -/
structure Orderly (n : ℕ) (s : LLMDataDistSystem) : Prop where
  workers : ∀ d, (s.workers d).tpRank = d ∧ (s.workers d).tpSize = n
  tasks : ∀ d id t, s.tasks d id = some t →
    d < n ∧ t.requestId = id ∧ t.worker.tpRank = d ∧ t.worker.tpSize = n
  nodup : (s.inFlight.map fun m => (m.requestId, m.tpRank)).Nodup
  inFlight : ∀ m ∈ s.inFlight, s.Succeeded m.tpRank m.requestId ∧
    m.tpRank ∉ s.received m.requestId ∧ m.tpSize = n
  received : ∀ id, ∀ d ∈ s.received id, d < n ∧ s.Succeeded d id
  sent : ∀ d id, s.Succeeded d id →
    d ∈ s.received id ∨ ∃ m ∈ s.inFlight, m.requestId = id ∧ m.tpRank = d
  tracks : s.prefill.barrier.Tracks n s.received s.returned

namespace Orderly

theorem initial (hn : 0 < n) : (init n worker).Orderly n where
  workers _ := ⟨rfl, rfl⟩
  tasks _ _ _ h := by cases h
  nodup := Multiset.nodup_zero
  inFlight m hm := absurd hm (Multiset.notMem_zero m)
  received _ d hd := absurd hd (Finset.notMem_empty d)
  sent _ _ h := by
    obtain ⟨t, ht, _⟩ := h
    cases ht
  tracks := .initial hn

/-- The worker after a task sends the same along. -/
theorem run_worker (t : PullTask) :
    t.run.1.tpRank = t.worker.tpRank ∧ t.run.1.tpSize = t.worker.tpSize := by
  rw [PullTask.run, LLMDataDistDecodeWorker.readBlocksTask]
  split_ifs
  · exact ⟨rfl, rfl⟩
  · exact ⟨rfl, rfl⟩
  · split
    · exact ⟨rfl, rfl⟩
    · split <;> exact ⟨rfl, rfl⟩

/-- **A task runs**, and sends its message or none. -/
theorem readBlocks (h : s.Orderly n) {rank : ℕ} {requestId : ReqId}
    {reqMeta : LLMDataDist.ReqMeta} {outcomes : PullOutcomes}
    (honce : s.Once n (.readBlocks rank requestId reqMeta outcomes))
    (hstep : s.step (.readBlocks rank requestId reqMeta outcomes) = .ok s') : s'.Orderly n := by
  obtain ⟨hrank, hnone⟩ := honce
  rw [Option.isNone_iff_eq_none] at hnone
  let t : PullTask := ⟨s.workers rank, requestId, reqMeta, outcomes⟩
  have htasks : ∀ d id, (d, id) ≠ (rank, requestId) →
      Function.update s.tasks rank (Function.update (s.tasks rank) requestId (some t)) d id =
        s.tasks d id := by
    intro d id hne
    by_cases hd : d = rank
    · subst hd
      have hid : id ≠ requestId := fun heq => hne (heq ▸ rfl)
      simp [hid]
    · simp [hd]
  have hnew : s'.tasks rank requestId = some t := by
    cases hstep
    simp [t]
  have hother : ∀ d id, (d, id) ≠ (rank, requestId) → s'.tasks d id = s.tasks d id := by
    cases hstep
    exact htasks
  have hkeep : ∀ d id, s.Succeeded d id → s'.Succeeded d id := by
    rintro d id ⟨t', ht', hsucceeds⟩
    refine ⟨t', ?_, hsucceeds⟩
    rw [hother d id fun heq => ?_, ht']
    cases heq
    rw [hnone] at ht'
    contradiction
  have hback : ∀ d id, s'.Succeeded d id →
      ((d, id) = (rank, requestId) ∧ t.Succeeds) ∨ s.Succeeded d id := by
    rintro d id ⟨t', ht', hsucceeds⟩
    by_cases hpair : (d, id) = (rank, requestId)
    · cases hpair
      rw [hnew, Option.some_inj] at ht'
      exact Or.inl ⟨rfl, ht' ▸ hsucceeds⟩
    · exact Or.inr ⟨t', (hother d id hpair).symm.trans ht', hsucceeds⟩
  have hfresh : ∀ m ∈ s.inFlight, (m.requestId, m.tpRank) ≠ (requestId, rank) := by
    intro m hm heq
    obtain ⟨⟨t', ht', _⟩, _⟩ := h.inFlight m hm
    rw [(Prod.mk.inj heq).1, (Prod.mk.inj heq).2, hnone] at ht'
    contradiction
  have hmessage : t.message.requestId = requestId ∧ t.message.tpRank = rank ∧ t.message.tpSize = n :=
    ⟨rfl, (h.workers rank).1, (h.workers rank).2⟩
  have hinFlight : s'.inFlight = s.inFlight ∧ ¬t.Succeeds ∨
      s'.inFlight = t.message ::ₘ s.inFlight ∧ t.Succeeds := by
    have hsent : s'.inFlight = s.inFlight + (t.run.2.1 : Multiset ReqForFinished) := by
      cases hstep
      rfl
    by_cases hsucceeds : t.Succeeds
    · rw [PullTask.sent_of_succeeds hsucceeds, Multiset.coe_singleton, add_comm,
        Multiset.singleton_add] at hsent
      exact Or.inr ⟨hsent, hsucceeds⟩
    · rw [PullTask.sent_of_not_succeeds hsucceeds, Multiset.coe_nil, add_zero] at hsent
      exact Or.inl ⟨hsent, hsucceeds⟩
  have hreceived : s'.received = s.received := by
    cases hstep
    rfl
  refine ⟨fun d => ?_, fun d id t' ht' => ?_, ?_, fun m hm => ?_, fun id d hd => ?_,
    fun d id hsucceeded => ?_, ?_⟩
  · cases hstep
    by_cases hd : d = rank
    · subst hd
      simp only [Function.update_self]
      exact ⟨(run_worker t).1.trans (h.workers d).1, (run_worker t).2.trans (h.workers d).2⟩
    · simp only [Function.update_of_ne hd]
      exact h.workers d
  · by_cases hpair : (d, id) = (rank, requestId)
    · cases hpair
      rw [hnew, Option.some_inj] at ht'
      subst ht'
      exact ⟨hrank, rfl, (h.workers rank).1, (h.workers rank).2⟩
    · exact h.tasks d id t' ((hother d id hpair).symm.trans ht')
  · obtain ⟨heq, _⟩ | ⟨heq, _⟩ := hinFlight
    · rw [heq]
      exact h.nodup
    · rw [heq, Multiset.map_cons, Multiset.nodup_cons]
      refine ⟨fun hmem => ?_, h.nodup⟩
      obtain ⟨m, hm, hsignal⟩ := Multiset.mem_map.mp hmem
      rw [hmessage.1, hmessage.2.1] at hsignal
      exact hfresh m hm hsignal
  · have hold : m ∈ s.inFlight ∨ m = t.message ∧ t.Succeeds := by
      obtain ⟨heq, _⟩ | ⟨heq, hsucceeds⟩ := hinFlight
      · exact Or.inl (heq ▸ hm)
      · rw [heq, Multiset.mem_cons] at hm
        exact hm.symm.imp_right fun heq => ⟨heq, hsucceeds⟩
    rw [hreceived]
    obtain hold | ⟨rfl, hsucceeds⟩ := hold
    · obtain ⟨hsucceeded, hnot, hsize⟩ := h.inFlight m hold
      exact ⟨hkeep _ _ hsucceeded, hnot, hsize⟩
    · rw [hmessage.1, hmessage.2.1]
      refine ⟨⟨t, hnew, hsucceeds⟩, fun hmem => ?_, hmessage.2.2⟩
      obtain ⟨t', ht', _⟩ := (h.received requestId rank hmem).2
      rw [hnone] at ht'
      contradiction
  · rw [hreceived] at hd
    obtain ⟨hlt, hsucceeded⟩ := h.received id d hd
    exact ⟨hlt, hkeep d id hsucceeded⟩
  · rw [hreceived]
    obtain ⟨hpair, hsucceeds⟩ | hsucceeded := hback d id hsucceeded
    · cases hpair
      obtain ⟨_, hnot⟩ | ⟨heq, _⟩ := hinFlight
      · exact absurd hsucceeds hnot
      · exact Or.inr ⟨t.message, heq ▸ Multiset.mem_cons_self _ _, hmessage.1, hmessage.2.1⟩
    · obtain hmem | ⟨m, hm, hsignal⟩ := h.sent d id hsucceeded
      · exact Or.inl hmem
      · obtain ⟨heq, _⟩ | ⟨heq, _⟩ := hinFlight
        · exact Or.inr ⟨m, heq ▸ hm, hsignal⟩
        · exact Or.inr ⟨m, heq ▸ Multiset.mem_cons_of_mem hm, hsignal⟩
  · cases hstep
    exact h.tracks

theorem received_subset (h : s.Orderly n) (id : ReqId) : s.received id ⊆ Finset.range n :=
  fun d hd => Finset.mem_range.mpr (h.received id d hd).1

/-- **A message arrives** and is counted. -/
theorem receive (h : s.Orderly n) {msg : ReqForFinished}
    (hstep : s.step (.receive msg) = .ok s') : s'.Orderly n := by
  simp only [LLMDataDistSystem.step] at hstep
  split_ifs at hstep with hmem
  cases hstep
  obtain ⟨hsucceeded, hnot, hsize⟩ := h.inFlight msg hmem
  have hlt : msg.tpRank < n := by
    obtain ⟨t, ht, _⟩ := hsucceeded
    exact (h.tasks _ _ t ht).1
  have hnodup := h.nodup
  rw [← Multiset.cons_erase hmem, Multiset.map_cons, Multiset.nodup_cons] at hnodup
  have hreceived : ∀ id d, d ∈ Function.update s.received msg.requestId
      (insert msg.tpRank (s.received msg.requestId)) id ↔
        d ∈ s.received id ∨ id = msg.requestId ∧ d = msg.tpRank := by
    intro id d
    by_cases hid : id = msg.requestId
    · subst hid
      rw [Function.update_self, Finset.mem_insert, or_comm]
      simp
    · rw [Function.update_of_ne hid]
      simp [hid]
  refine ⟨h.workers, h.tasks, hnodup.2, fun m hm => ?_, fun id d hd => ?_, fun d id hd => ?_, ?_⟩
  · obtain ⟨hsucceeded', hnot', hsize'⟩ := h.inFlight m (Multiset.mem_of_mem_erase hm)
    refine ⟨hsucceeded', fun hin => ?_, hsize'⟩
    obtain hin | ⟨hid, hrank⟩ := (hreceived _ _).mp hin
    · exact hnot' hin
    · exact hnodup.1 (Multiset.mem_map.mpr ⟨m, hm, by rw [hid, hrank]⟩)
  · obtain hd | ⟨rfl, rfl⟩ := (hreceived id d).mp hd
    · exact h.received id d hd
    · exact ⟨hlt, hsucceeded⟩
  · obtain hin | ⟨m, hm, hid, hrank⟩ := h.sent d id hd
    · exact Or.inl ((hreceived id d).mpr (Or.inl hin))
    · by_cases hmsg : m = msg
      · subst hmsg
        exact Or.inl ((hreceived id d).mpr (Or.inr ⟨hid.symm, hrank.symm⟩))
      · exact Or.inr ⟨m, (Multiset.mem_erase_of_ne hmsg).mpr hm, hid, hrank⟩
  · have hsub : insert msg.tpRank (s.received msg.requestId) ⊆ Finset.range n :=
      Finset.insert_subset (Finset.mem_range.mpr hlt) (h.received_subset _)
    have hcard := Finset.card_le_card hsub
    rw [Finset.card_insert_of_notMem hnot, Finset.card_range] at hcard
    rw [LLMDataDistPrefillWorker.barrier_receive, hsize]
    exact h.tracks.signal hcard

theorem step {ev : LLMDataDistEvent} (h : s.Orderly n) (honce : s.Once n ev)
    (hstep : s.step ev = .ok s') : s'.Orderly n := by
  cases ev with
  | readBlocks => exact h.readBlocks honce hstep
  | receive => exact h.receive hstep
  | getFinished =>
    cases hstep
    exact { h with tracks := h.tracks.take }

end Orderly

/-- **A task notifies the producer exactly when it gets to its end**, and once; and when all decode
ranks ran their task for a request and every message arrived, the producer is told to free its blocks
exactly when all of them did. -/
theorem released_iff (hn : 0 < n) (run : Run step (Once n) (init n worker) s) :
    (∀ d id t, s.tasks d id = some t →
      t.requestId = id ∧ (t.run.2.1 = [t.message] ↔ t.Succeeds)) ∧
    ∀ id, (∀ d < n, (s.tasks d id).isSome) → s.inFlight = 0 →
      ((∀ s', s.step .getFinished = .ok s' → s'.returned id = 1) ↔
        ∀ d < n, s.Succeeded d id) := by
  have h : s.Orderly n :=
    run.invariant (fun _ _ _ h honce hstep => h.step honce hstep) (.initial hn)
  refine ⟨fun d id t ht => ⟨(h.tasks d id t ht).2.1, t.sent_eq_message_iff⟩,
    fun id _ hnone => ⟨fun hreturned d hd => ?_, fun hall s' hstep => ?_⟩⟩
  · have hone : s.returned id + s.prefill.barrier.pending id = 1 := hreturned _ rfl
    have hcard : n ≤ (s.received id).card := by
      by_contra hlt
      have hzero := (h.tracks.counting id (not_le.mp hlt)).2
      omega
    have hrange := Finset.eq_of_subset_of_card_le (h.received_subset id) (by simpa using hcard)
    exact (h.received id d (hrange ▸ Finset.mem_range.mpr hd)).2
  · cases hstep
    have hrange : Finset.range n ⊆ s.received id := by
      intro d hd
      obtain hin | ⟨m, hm, _⟩ := h.sent d id (hall d (Finset.mem_range.mp hd))
      · exact hin
      · rw [hnone] at hm
        exact absurd hm (Multiset.notMem_zero m)
    have hcard := Finset.card_le_card hrange
    rw [Finset.card_range] at hcard
    exact (h.tracks.complete id hcard).2

/-- One decode rank, and the events of one request with these local blocks. -/
def smallEvents (localBlockIds : List BlockId) : List LLMDataDistEvent :=
  [.readBlocks 0 "a" ⟨localBlockIds, [7], "host", 50, "prefill", 1⟩ ⟨true, fun _ => .ok ()⟩]

def small : LLMDataDistSystem := init 1 ⟨0, false, ∅, fun _ _ => 0⟩

theorem released_iff_small : ∃ s, feed step small (smallEvents [3]) = .ok s ∧
    (∀ d id t, s.tasks d id = some t →
      t.requestId = id ∧ (t.run.2.1 = [t.message] ↔ t.Succeeds)) ∧
    ∀ id, (∀ d < 1, (s.tasks d id).isSome) → s.inFlight = 0 →
      ((∀ s', s.step .getFinished = .ok s' → s'.returned id = 1) ↔
        ∀ d < 1, s.Succeeded d id) := by
  obtain ⟨s, hs⟩ := exists_of_isOk (x := feed step small (smallEvents [3])) (by decide +kernel)
  exact ⟨s, hs, released_iff (by decide) (Run.of_feed hs (by decide +kernel))⟩

/-- **A full prefix hit leaves the producer waiting**: the task sends nothing, and when it is over
the prefill rank does not return the request. -/
theorem unreleased_after_prefix_hit : ∃ s t, Run step (Once 1) small s ∧
    s.tasks 0 "a" = some t ∧ t.run.2.1 = [] ∧ s.inFlight = 0 ∧
    ∀ s', s.step .getFinished = .ok s' → s'.returned "a" = 0 := by
  obtain ⟨s, hs, hsent, hnone, hreturned⟩ : Returns (feed step small (smallEvents [])) fun s =>
      ((s.tasks 0 "a").map fun t => t.run.2.1) = some [] ∧ s.inFlight = 0 ∧
        s.returned "a" + s.prefill.barrier.pending "a" = 0 := by
    decide +kernel
  obtain ⟨t, ht, hsent⟩ := Option.map_eq_some_iff.mp hsent
  refine ⟨s, t, Run.of_feed hs (by decide +kernel), ht, hsent, hnone, fun s' hstep => ?_⟩
  cases hstep
  exact hreturned

end LLMDataDistSystem

end VllmAscend
