import VllmAscend.Distributed.DoneSignals
import VllmAscend.Distributed.MooncakeTransfer

/-!
# Distributed/MooncakeSystem — a prefill engine and a decode engine over Mooncake

    decode rank d   start_load_kv ──▸ queue ──▸ transfer ──▸ done, locally ──▸ DONE_RECVING
                                                               │                   │
    decode rank 0                                        counts n of them          │
    prefill rank p                                                            done, locally
    prefill rank 0                                                           counts n of them

Every decode rank reads its part of a request from a prefill rank and tells rank 0 of either engine,
directly or through another rank.  The ranks take their steps and the messages arrive in any order.
What the decode engine is told is that the ranks tried to read (`received_iff_readable`); what the
prefill engine is told is that they will not read any more (`frees_after_reads`).
-/

namespace VllmAscend

open Machinery

/-- How far a decode rank is with a request. -/
inductive LoadState where
  | absent
  /-- in `request_queue` -/
  | queued
  /-- in `_transfer_kv_cache` -/
  | reading
  /-- after it, before the DONE message -/
  | read (t : Transfer)
  /-- the DONE message is on its way -/
  | notified (t : Transfer)
  /-- the DONE message has arrived -/
  | delivered (t : Transfer)

namespace LoadState

/-- The call of `_transfer_kv_cache`, when it is over. -/
def transfer : LoadState → Option Transfer
  | .read t | .notified t | .delivered t => some t
  | _ => none

def isAbsent : LoadState → Bool
  | .absent => true
  | _ => false

def isDelivered : LoadState → Bool
  | .delivered _ => true
  | _ => false

theorem isAbsent_iff {load : LoadState} : load.isAbsent = true ↔ load = .absent := by
  cases load <;> simp [isAbsent]

theorem transfer_of_isDelivered {load : LoadState} (h : load.isDelivered = true) :
    load.transfer.isSome := by
  cases load <;> simp_all [isDelivered, transfer]

/-- The DONE message is sent. -/
def notify : LoadState → LoadState
  | .read t => .notified t
  | load => load

/-- The DONE message arrives. -/
def deliver : LoadState → LoadState
  | .notified t => .delivered t
  | load => load

/-- The DONE message was sent. -/
def isNotified : LoadState → Bool
  | .notified _ | .delivered _ => true
  | _ => false

end LoadState

/-- Where `_handle_request` of a decode rank is. -/
inductive Handling where
  | transferring (req : TransferRequest)
  | notifying (req : TransferRequest)
  deriving DecidableEq, Repr

/-- `(DONE_RECVING_MSG, request_id, tp_rank)`, to the prefill rank that listens on `port`. -/
structure DoneRecving where
  port : ℕ
  requestId : ReqId
  tpRank : ℕ
  deriving DecidableEq, Repr

structure MooncakeSystem where
  topology : TpTopology
  /-- `side_channel_port` of the prefill engine -/
  sideChannelPort : ℕ
  threads : ℕ → KVCacheRecvingThread
  handling : ℕ → Option Handling
  doneRecving : Multiset DoneRecving
  /-- the trackers of the decode ranks -/
  decode : DoneSignals
  /-- the trackers of the prefill ranks -/
  prefill : DoneSignals
  /-- the history: how far each decode rank is with each request -/
  loads : ℕ → ReqId → LoadState

inductive MooncakeEvent where
  /-- a turn of the loop of `start_load_kv` at a decode rank -/
  | startLoadKv (rank : ℕ) (reqId : ReqId) (reqMeta : Mooncake.ReqMeta)
  /-- the receiving thread of a decode rank takes the next request -/
  | get (rank : ℕ)
  /-- `_transfer_kv_cache` ends, and the first line of the `finally` block runs -/
  | transfer (rank : ℕ) (reply : Option MooncakeAgentMetadata) (ret : ℤ)
  /-- `_send_done_recv_signal` -/
  | sendDone (rank : ℕ)
  /-- the sending thread of a prefill rank gets a DONE message -/
  | recvDone (msg : DoneRecving)
  /-- rank 0 of either engine gets a signal that another rank pushed -/
  | listenDecode (signal : ReqId × ℕ)
  | listenPrefill (signal : ReqId × ℕ)
  /-- `get_finished` at a rank of either engine -/
  | getFinishedDecode (rank : ℕ)
  | getFinishedPrefill (rank : ℕ)
  deriving DecidableEq, Repr

namespace MooncakeSystem

/-- At `__init__`, of the two engines and of the receiving threads. -/
def init (topology : TpTopology) (sideChannelPort : ℕ) (threads : ℕ → KVCacheRecvingThread) :
    MooncakeSystem where
  topology := topology
  sideChannelPort := sideChannelPort
  threads := fun rank => { threads rank with requestQueue := [] }
  handling _ := none
  doneRecving := 0
  decode := .init topology.decodeTpSize
  prefill := .init topology.decodeTpSize
  loads _ _ := .absent

/-- The history, where a decode rank went on with a request. -/
def setLoad (self : MooncakeSystem) (rank : ℕ) (reqId : ReqId) (load : LoadState) :
    ℕ → ReqId → LoadState :=
  Function.update self.loads rank (Function.update (self.loads rank) reqId load)

/-- A message for rank `p` arrives only if there is such a prefill rank. -/
def prefillRank (self : MooncakeSystem) (msg : DoneRecving) : Option ℕ :=
  let p := msg.port - self.sideChannelPort
  if self.sideChannelPort ≤ msg.port ∧ p < self.topology.prefillTpSize then some p else none

def step (self : MooncakeSystem) : MooncakeEvent → Except Unit MooncakeSystem
  | .startLoadKv rank reqId reqMeta =>
    if rank < self.topology.decodeTpSize then
      match self.topology.loadRequest rank reqId reqMeta with
      | none => .error ()
      | some req =>
        let thread := self.threads rank
        .ok { self with
          threads := Function.update self.threads rank
            { thread with requestQueue := thread.requestQueue ++ [req] }
          loads := self.setLoad rank reqId .queued }
    else .error ()
  | .get rank =>
    let thread := self.threads rank
    match self.handling rank, thread.requestQueue with
    | none, req :: rest =>
      .ok { self with
        threads := Function.update self.threads rank { thread with requestQueue := rest }
        handling := Function.update self.handling rank (some (.transferring req))
        loads := self.setLoad rank req.requestId .reading }
    | _, _ => .error ()
  | .transfer rank reply ret =>
    match self.handling rank with
    | some (.transferring req) =>
      let t : Transfer := ⟨self.threads rank, req, reply, ret⟩
      -- whether it raised or not
      .ok { self with
        threads := Function.update self.threads rank t.run.1
        decode := self.decode.updateDoneTaskCount rank req.requestId rank
        handling := Function.update self.handling rank (some (.notifying req))
        loads := self.setLoad rank req.requestId (.read t) }
    | _ => .error ()
  | .sendDone rank =>
    match self.handling rank with
    | some (.notifying req) =>
      -- the thread does not wait for the ACK longer than its timeouts
      .ok { self with
        doneRecving := ⟨req.remoteHandshakePort, req.requestId, rank⟩ ::ₘ self.doneRecving
        handling := Function.update self.handling rank none
        loads := self.setLoad rank req.requestId (self.loads rank req.requestId).notify }
    | _ => .error ()
  | .recvDone msg =>
    if msg ∈ self.doneRecving then
      match self.prefillRank msg with
      | none => .error ()
      | some p =>
        .ok { self with
          doneRecving := self.doneRecving.erase msg
          prefill := self.prefill.updateDoneTaskCount p msg.requestId msg.tpRank
          loads := self.setLoad msg.tpRank msg.requestId
            (self.loads msg.tpRank msg.requestId).deliver }
    else .error ()
  | .listenDecode signal =>
    if signal ∈ self.decode.pushed then .ok { self with decode := self.decode.listen signal }
    else .error ()
  | .listenPrefill signal =>
    if signal ∈ self.prefill.pushed then .ok { self with prefill := self.prefill.listen signal }
    else .error ()
  | .getFinishedDecode rank => .ok { self with decode := self.decode.getFinished rank }
  | .getFinishedPrefill rank => .ok { self with prefill := self.prefill.getFinished rank }

/-! ## What the steps keep -/

variable {s s' : MooncakeSystem} {d d' : ℕ} {id id' : ReqId} {load : LoadState}

/-- A request is loaded once by a decode rank, from the prefill engine that published it. -/
def Once (s : MooncakeSystem) : MooncakeEvent → Prop
  | .startLoadKv rank reqId reqMeta =>
    (s.loads rank reqId).isAbsent = true ∧ reqMeta.remotePort = s.sideChannelPort
  | _ => True

instance (s : MooncakeSystem) : (ev : MooncakeEvent) → Decidable (s.Once ev)
  | .startLoadKv .. => inferInstanceAs (Decidable (_ ∧ _))
  | .get _ | .transfer .. | .sendDone _ | .recvDone _ | .listenDecode _ | .listenPrefill _
  | .getFinishedDecode _ | .getFinishedPrefill _ => isTrue trivial

theorem setLoad_self : s.setLoad d id load d id = load := by simp [setLoad]

/-- Another load, or the same on another rank, stays as it is. -/
theorem setLoad_of_pair_ne (h : (d', id') ≠ (d, id)) :
    s.setLoad d id load d' id' = s.loads d' id' := by
  by_cases hd : d' = d
  · subst hd
    have hid : id' ≠ id := fun heq => h (heq ▸ rfl)
    simp [setLoad, hid]
  · simp [setLoad, hd]

theorem setLoad_of_ne (h : s.loads d' id' ≠ s.loads d id) :
    s.setLoad d id load d' id' = s.loads d' id' := by
  refine setLoad_of_pair_ne fun heq => h ?_
  cases heq
  rfl

/-- The ranks whose loads of a request have some property. -/
def ranks (n : ℕ) (p : LoadState → Bool) (loads : ℕ → ReqId → LoadState) (id : ReqId) : Finset ℕ :=
  (Finset.range n).filter fun d => p (loads d id)

@[simp] theorem mem_ranks {n : ℕ} {p : LoadState → Bool} {loads : ℕ → ReqId → LoadState} :
    d ∈ ranks n p loads id ↔ d < n ∧ p (loads d id) = true := by
  simp [ranks]

theorem ranks_setLoad_same {n : ℕ} {p : LoadState → Bool} (h : p load = p (s.loads d id)) :
    ranks n p (s.setLoad d id load) = ranks n p s.loads := by
  funext id'
  refine Finset.filter_congr fun d' _ => ?_
  by_cases hpair : (d', id') = (d, id)
  · cases hpair
    rw [setLoad_self, h]
  · rw [setLoad_of_pair_ne hpair]

theorem ranks_setLoad_new {n : ℕ} {p : LoadState → Bool} (hd : d < n) (h : p load = true) :
    ranks n p (s.setLoad d id load) =
      Function.update (ranks n p s.loads) id (insert d (ranks n p s.loads id)) := by
  funext id'
  by_cases hid : id' = id
  · subst hid
    ext d'
    by_cases hd' : d' = d
    · subst hd'
      simp [setLoad_self, h, hd]
    · simp [setLoad, hd']
  · rw [Function.update_of_ne hid]
    refine Finset.filter_congr fun d' _ => ?_
    rw [setLoad_of_pair_ne fun heq => hid (congrArg Prod.snd heq)]

/-- A port that a prefill rank listens on. -/
def Addressed (s : MooncakeSystem) (port : ℕ) : Prop :=
  ∃ p < s.topology.prefillTpSize, port = s.sideChannelPort + p

def DoneRecving.signal (m : DoneRecving) : ReqId × ℕ := (m.requestId, m.tpRank)

/-- What the threads and the messages hold is what the history says, each load once; and the
trackers have what the history says was signalled. -/
structure Orderly (s : MooncakeSystem) : Prop where
  queue_nodup : ∀ d, ((s.threads d).requestQueue.map TransferRequest.requestId).Nodup
  queued : ∀ d, ∀ req ∈ (s.threads d).requestQueue, d < s.topology.decodeTpSize ∧
    s.loads d req.requestId = .queued ∧ s.Addressed req.remoteHandshakePort
  transferring : ∀ d req, s.handling d = some (.transferring req) → d < s.topology.decodeTpSize ∧
    s.loads d req.requestId = .reading ∧ s.Addressed req.remoteHandshakePort
  notifying : ∀ d req, s.handling d = some (.notifying req) → d < s.topology.decodeTpSize ∧
    (∃ t, s.loads d req.requestId = .read t) ∧ s.Addressed req.remoteHandshakePort
  messages_nodup : (s.doneRecving.map DoneRecving.signal).Nodup
  messages : ∀ m ∈ s.doneRecving, m.tpRank < s.topology.decodeTpSize ∧
    (∃ t, s.loads m.tpRank m.requestId = .notified t) ∧ s.Addressed m.port
  notified : ∀ d id t, s.loads d id = .notified t →
    ∃ m ∈ s.doneRecving, m.tpRank = d ∧ m.requestId = id
  request : ∀ d id t, (s.loads d id).transfer = some t → t.request.requestId = id
  decode : s.decode.Gathers s.topology.decodeTpSize
    (ranks s.topology.decodeTpSize (fun load => load.transfer.isSome) s.loads)
  prefill : s.prefill.Gathers s.topology.decodeTpSize
    (ranks s.topology.decodeTpSize LoadState.isDelivered s.loads)

namespace Orderly

theorem initial (topology : TpTopology) (sideChannelPort : ℕ)
    (threads : ℕ → KVCacheRecvingThread) : (init topology sideChannelPort threads).Orderly where
  queue_nodup _ := List.nodup_nil
  queued _ req hreq := absurd hreq List.not_mem_nil
  transferring _ _ h := by cases h
  notifying _ _ h := by cases h
  messages_nodup := Multiset.nodup_zero
  messages m hm := absurd hm (Multiset.notMem_zero m)
  notified _ _ _ h := by cases h
  request _ _ _ h := by cases h
  decode := by
    have hnone : ranks topology.decodeTpSize (fun load => load.transfer.isSome)
        (init topology sideChannelPort threads).loads = fun _ => ∅ := by
      funext id
      simp [ranks, init, LoadState.transfer]
    exact hnone ▸ .initial topology.decodeTpSize_pos
  prefill := by
    have hnone : ranks topology.decodeTpSize LoadState.isDelivered
        (init topology sideChannelPort threads).loads = fun _ => ∅ := by
      funext id
      simp [ranks, init, LoadState.isDelivered]
    exact hnone ▸ .initial topology.decodeTpSize_pos

section Frame

/-! The other loads, where one goes on. -/

variable (h : s.Orderly) {rank : ℕ} {reqId : ReqId}

include h

theorem queued_setLoad (hne : s.loads rank reqId ≠ .queued) :
    ∀ d, ∀ req ∈ (s.threads d).requestQueue, d < s.topology.decodeTpSize ∧
      s.setLoad rank reqId load d req.requestId = .queued ∧
      s.Addressed req.remoteHandshakePort := by
  intro d req hreq
  obtain ⟨hd, hload, haddressed⟩ := h.queued d req hreq
  exact ⟨hd, by rw [setLoad_of_ne (by rw [hload]; exact hne.symm), hload], haddressed⟩

theorem transferring_setLoad (hne : s.loads rank reqId ≠ .reading) :
    ∀ d req, s.handling d = some (.transferring req) → d < s.topology.decodeTpSize ∧
      s.setLoad rank reqId load d req.requestId = .reading ∧
      s.Addressed req.remoteHandshakePort := by
  intro d req hreq
  obtain ⟨hd, hload, haddressed⟩ := h.transferring d req hreq
  exact ⟨hd, by rw [setLoad_of_ne (by rw [hload]; exact hne.symm), hload], haddressed⟩

theorem notifying_setLoad (hne : ∀ t, s.loads rank reqId ≠ .read t) :
    ∀ d req, s.handling d = some (.notifying req) → d < s.topology.decodeTpSize ∧
      (∃ t, s.setLoad rank reqId load d req.requestId = .read t) ∧
      s.Addressed req.remoteHandshakePort := by
  intro d req hreq
  obtain ⟨hd, ⟨t, hload⟩, haddressed⟩ := h.notifying d req hreq
  exact ⟨hd, ⟨t, by rw [setLoad_of_ne (by rw [hload]; exact (hne t).symm), hload]⟩, haddressed⟩

theorem messages_setLoad (hne : ∀ t, s.loads rank reqId ≠ .notified t) :
    ∀ m ∈ s.doneRecving, m.tpRank < s.topology.decodeTpSize ∧
      (∃ t, s.setLoad rank reqId load m.tpRank m.requestId = .notified t) ∧
      s.Addressed m.port := by
  intro m hm
  obtain ⟨hd, ⟨t, hload⟩, haddressed⟩ := h.messages m hm
  exact ⟨hd, ⟨t, by rw [setLoad_of_ne (by rw [hload]; exact (hne t).symm), hload]⟩, haddressed⟩

theorem notified_setLoad (hnew : ∀ t, load ≠ .notified t) {d : ℕ} {id : ReqId} {t : Transfer}
    (ht : s.setLoad rank reqId load d id = .notified t) :
    (d, id) ≠ (rank, reqId) ∧ ∃ m ∈ s.doneRecving, m.tpRank = d ∧ m.requestId = id := by
  have hpair : (d, id) ≠ (rank, reqId) := by
    rintro heq
    cases heq
    exact hnew t (setLoad_self.symm.trans ht)
  refine ⟨hpair, h.notified d id t ?_⟩
  rwa [setLoad_of_pair_ne hpair] at ht

theorem request_setLoad (hnew : ∀ t, load.transfer = some t → t.request.requestId = reqId) :
    ∀ d id t, (s.setLoad rank reqId load d id).transfer = some t → t.request.requestId = id := by
  intro d id t ht
  by_cases hpair : (d, id) = (rank, reqId)
  · cases hpair
    rw [setLoad_self] at ht
    exact hnew t ht
  · rw [setLoad_of_pair_ne hpair] at ht
    exact h.request d id t ht

end Frame

/-- **A request is queued** at a rank that did not have it. -/
theorem startLoadKv (h : s.Orderly) {rank : ℕ} {reqId : ReqId} {reqMeta : Mooncake.ReqMeta}
    (honce : s.Once (.startLoadKv rank reqId reqMeta))
    (hstep : s.step (.startLoadKv rank reqId reqMeta) = .ok s') : s'.Orderly := by
  have hfresh : s.loads rank reqId = .absent := LoadState.isAbsent_iff.mp honce.1
  have hport := honce.2
  simp only [MooncakeSystem.step] at hstep
  split_ifs at hstep with hrank
  cases hreq : s.topology.loadRequest rank reqId reqMeta with
  | none => simp [hreq] at hstep
  | some req =>
    simp only [hreq] at hstep
    cases hstep
    obtain ⟨p, hp, hlt⟩ := s.topology.getRemoteTpRank_isSome hrank reqId
    simp only [TpTopology.loadRequest, hp, Option.map_some, Option.some.injEq] at hreq
    have hid : req.requestId = reqId := by rw [← hreq]
    have haddressed : s.Addressed req.remoteHandshakePort := ⟨p, hlt, by rw [← hreq, hport]⟩
    refine ⟨fun d => ?_, fun d req' hreq' => ?_, h.transferring_setLoad (by simp [hfresh]),
      h.notifying_setLoad (by simp [hfresh]), h.messages_nodup, h.messages_setLoad (by simp [hfresh]),
      fun d id t ht => (h.notified_setLoad (by simp) ht).2, h.request_setLoad (by
        simp [LoadState.transfer]), ?_, ?_⟩
    · by_cases hd : d = rank
      · subst hd
        simp only [Function.update_self, List.map_append, List.map_cons, List.map_nil]
        refine List.nodup_append.mpr ⟨h.queue_nodup d, List.nodup_singleton _, ?_⟩
        intro x hx y hy heq
        obtain ⟨req', hreq', rfl⟩ := List.mem_map.mp hx
        have hqueued := (h.queued d req' hreq').2.1
        rw [heq, List.mem_singleton.mp hy, hid, hfresh] at hqueued
        contradiction
      · simp only [Function.update_of_ne hd]
        exact h.queue_nodup d
    · have hold : req' ∈ (s.threads d).requestQueue ∨ d = rank ∧ req' = req := by
        by_cases hd : d = rank
        · subst hd
          simpa using hreq'
        · simp only [Function.update_of_ne hd] at hreq'
          exact Or.inl hreq'
      obtain hold | ⟨rfl, rfl⟩ := hold
      · exact h.queued_setLoad (by simp [hfresh]) d req' hold
      · exact ⟨hrank, by simp only [hid, setLoad_self], haddressed⟩
    · simp only
      rw [ranks_setLoad_same (by rw [hfresh]; rfl)]
      exact h.decode
    · simp only
      rw [ranks_setLoad_same (by rw [hfresh]; rfl)]
      exact h.prefill

/-- **The next request is taken** off the queue of an idle thread. -/
theorem get (h : s.Orderly) {rank : ℕ} (hstep : s.step (.get rank) = .ok s') : s'.Orderly := by
  simp only [MooncakeSystem.step] at hstep
  split at hstep
  · next req rest hidle hqueue =>
    cases hstep
    have hnodup := h.queue_nodup rank
    rw [hqueue, List.map_cons, List.nodup_cons] at hnodup
    obtain ⟨hd, hload, haddressed⟩ := h.queued rank req (by rw [hqueue]; exact List.mem_cons_self)
    refine ⟨fun d => ?_, fun d req' hreq' => ?_, fun d req' hreq' => ?_, fun d req' hreq' => ?_,
      h.messages_nodup, h.messages_setLoad (by simp [hload]),
      fun d id t ht => (h.notified_setLoad (by simp) ht).2,
      h.request_setLoad (by simp [LoadState.transfer]), ?_, ?_⟩
    · by_cases hd : d = rank
      · subst hd
        simp only [Function.update_self]
        exact hnodup.2
      · simp only [Function.update_of_ne hd]
        exact h.queue_nodup d
    · -- the requests that stay in a queue are others
      have hold : req' ∈ (s.threads d).requestQueue ∧ (d, req'.requestId) ≠ (rank, req.requestId) := by
        by_cases hd : d = rank
        · subst hd
          simp only [Function.update_self] at hreq'
          refine ⟨hqueue ▸ List.mem_cons_of_mem _ hreq', fun heq => hnodup.1 ?_⟩
          rw [← (Prod.mk.inj heq).2]
          exact List.mem_map_of_mem hreq'
        · simp only [Function.update_of_ne hd] at hreq'
          exact ⟨hreq', fun heq => hd (Prod.mk.inj heq).1⟩
      obtain ⟨hd', hload', haddressed'⟩ := h.queued d req' hold.1
      exact ⟨hd', (setLoad_of_pair_ne hold.2).trans hload', haddressed'⟩
    · by_cases hd' : d = rank
      · subst hd'
        simp only [Function.update_self, Option.some.injEq, Handling.transferring.injEq] at hreq'
        subst hreq'
        exact ⟨hd, setLoad_self, haddressed⟩
      · simp only [Function.update_of_ne hd'] at hreq'
        exact h.transferring_setLoad (by simp [hload]) d req' hreq'
    · by_cases hd' : d = rank
      · subst hd'
        simp at hreq'
      · simp only [Function.update_of_ne hd'] at hreq'
        exact h.notifying_setLoad (by simp [hload]) d req' hreq'
    · simp only
      rw [ranks_setLoad_same (by rw [hload]; rfl)]
      exact h.decode
    · simp only
      rw [ranks_setLoad_same (by rw [hload]; rfl)]
      exact h.prefill
  · contradiction

/-- **A transfer ends**, and the rank signals its own engine. -/
theorem transfer (h : s.Orderly) {rank : ℕ} {reply : Option MooncakeAgentMetadata} {ret : ℤ}
    (hstep : s.step (.transfer rank reply ret) = .ok s') : s'.Orderly := by
  simp only [MooncakeSystem.step] at hstep
  split at hstep
  · next req hhandling =>
    cases hstep
    obtain ⟨hd, hload, haddressed⟩ := h.transferring rank req hhandling
    have hqueue : ∀ d, (Function.update s.threads rank
        (Transfer.run ⟨s.threads rank, req, reply, ret⟩).1 d).requestQueue =
          (s.threads d).requestQueue := by
      intro d
      by_cases hd : d = rank
      · subst hd
        rw [Function.update_self, Transfer.run_requestQueue]
      · rw [Function.update_of_ne hd]
    refine ⟨fun d => ?_, fun d req' hreq' => ?_, fun d req' hreq' => ?_, fun d req' hreq' => ?_,
      h.messages_nodup, h.messages_setLoad (by simp [hload]),
      fun d id t ht => (h.notified_setLoad (by simp) ht).2,
      h.request_setLoad fun t ht => ?_, ?_, ?_⟩
    · simp only [hqueue]
      exact h.queue_nodup d
    · simp only [hqueue] at hreq'
      exact h.queued_setLoad (by simp [hload]) d req' hreq'
    · by_cases hd' : d = rank
      · subst hd'
        simp at hreq'
      · simp only [Function.update_of_ne hd'] at hreq'
        obtain ⟨hlt, hload', haddressed'⟩ := h.transferring d req' hreq'
        have hpair : (d, req'.requestId) ≠ (rank, req.requestId) :=
          fun heq => hd' (Prod.mk.inj heq).1
        exact ⟨hlt, (setLoad_of_pair_ne hpair).trans hload', haddressed'⟩
    · by_cases hd' : d = rank
      · subst hd'
        simp only [Function.update_self, Option.some.injEq, Handling.notifying.injEq] at hreq'
        subst hreq'
        exact ⟨hd, ⟨_, setLoad_self⟩, haddressed⟩
      · simp only [Function.update_of_ne hd'] at hreq'
        exact h.notifying_setLoad (by simp [hload]) d req' hreq'
    · cases ht
      rfl
    · simp only
      rw [ranks_setLoad_new hd rfl]
      refine h.decode.updateDoneTaskCount hd ?_
      simp [hload, LoadState.transfer]
    · simp only
      rw [ranks_setLoad_same (by rw [hload]; rfl)]
      exact h.prefill
  · contradiction

/-- **The DONE message is sent**, after the transfer. -/
theorem sendDone (h : s.Orderly) {rank : ℕ} (hstep : s.step (.sendDone rank) = .ok s') :
    s'.Orderly := by
  simp only [MooncakeSystem.step] at hstep
  split at hstep
  · next req hhandling =>
    cases hstep
    obtain ⟨hd, ⟨t, hload⟩, haddressed⟩ := h.notifying rank req hhandling
    simp only [hload, LoadState.notify]
    refine ⟨h.queue_nodup, h.queued_setLoad (by simp [hload]), fun d req' hreq' => ?_,
      fun d req' hreq' => ?_, ?_, fun m hm => ?_, fun d id t' ht' => ?_,
      h.request_setLoad fun t' ht' => ?_, ?_, ?_⟩
    · by_cases hd' : d = rank
      · subst hd'
        simp at hreq'
      · simp only [Function.update_of_ne hd'] at hreq'
        exact h.transferring_setLoad (by simp [hload]) d req' hreq'
    · by_cases hd' : d = rank
      · subst hd'
        simp at hreq'
      · simp only [Function.update_of_ne hd'] at hreq'
        obtain ⟨hlt, ⟨t', hload'⟩, haddressed'⟩ := h.notifying d req' hreq'
        have hpair : (d, req'.requestId) ≠ (rank, req.requestId) :=
          fun heq => hd' (Prod.mk.inj heq).1
        exact ⟨hlt, ⟨t', (setLoad_of_pair_ne hpair).trans hload'⟩, haddressed'⟩
    · -- a message with the same signal would have been sent before
      rw [Multiset.map_cons, Multiset.nodup_cons]
      refine ⟨fun hmem => ?_, h.messages_nodup⟩
      obtain ⟨m, hm, heq⟩ := Multiset.mem_map.mp hmem
      obtain ⟨_, ⟨t', hnotified⟩, _⟩ := h.messages m hm
      have hrank : m.tpRank = rank := congrArg Prod.snd heq
      have hid : m.requestId = req.requestId := congrArg Prod.fst heq
      rw [hrank, hid, hload] at hnotified
      contradiction
    · obtain rfl | hm := Multiset.mem_cons.mp hm
      · exact ⟨hd, ⟨t, setLoad_self⟩, haddressed⟩
      · exact h.messages_setLoad (by simp [hload]) m hm
    · by_cases hpair : (d, id) = (rank, req.requestId)
      · cases hpair
        exact ⟨_, Multiset.mem_cons_self _ _, rfl, rfl⟩
      · obtain ⟨m, hm, heq⟩ := h.notified d id t' ((setLoad_of_pair_ne hpair).symm.trans ht')
        exact ⟨m, Multiset.mem_cons_of_mem hm, heq⟩
    · cases ht'
      exact h.request rank req.requestId t (by rw [hload]; rfl)
    · rw [ranks_setLoad_same (by rw [hload]; rfl)]
      exact h.decode
    · rw [ranks_setLoad_same (by rw [hload]; rfl)]
      exact h.prefill
  · contradiction

/-- **The DONE message arrives**, and the prefill rank signals its own engine. -/
theorem recvDone (h : s.Orderly) {msg : DoneRecving} (hstep : s.step (.recvDone msg) = .ok s') :
    s'.Orderly := by
  simp only [MooncakeSystem.step] at hstep
  split_ifs at hstep with hmem
  split at hstep
  · contradiction
  · next p hp =>
    cases hstep
    obtain ⟨hd, ⟨t, hload⟩, haddressed⟩ := h.messages msg hmem
    simp only [hload, LoadState.deliver]
    have hnodup := h.messages_nodup
    rw [← Multiset.cons_erase hmem, Multiset.map_cons, Multiset.nodup_cons] at hnodup
    refine ⟨h.queue_nodup, h.queued_setLoad (by simp [hload]),
      h.transferring_setLoad (by simp [hload]), h.notifying_setLoad (by simp [hload]), hnodup.2,
      fun m hm => ?_, fun d id t' ht' => ?_, h.request_setLoad fun t' ht' => ?_, ?_, ?_⟩
    · -- the messages that stay are of other loads
      have hpair : (m.tpRank, m.requestId) ≠ (msg.tpRank, msg.requestId) := by
        intro heq
        refine hnodup.1 (Multiset.mem_map.mpr ⟨m, hm, ?_⟩)
        rw [DoneRecving.signal, DoneRecving.signal, (Prod.mk.inj heq).1, (Prod.mk.inj heq).2]
      obtain ⟨hlt, ⟨t', hload'⟩, haddressed'⟩ := h.messages m (Multiset.mem_of_mem_erase hm)
      exact ⟨hlt, ⟨t', (setLoad_of_pair_ne hpair).trans hload'⟩, haddressed'⟩
    · obtain ⟨hpair, m, hm, hrank, hid⟩ := h.notified_setLoad (by simp) ht'
      refine ⟨m, (Multiset.mem_erase_of_ne fun heq => hpair ?_).mpr hm, hrank, hid⟩
      rw [← hrank, ← hid, heq]
    · cases ht'
      exact h.request msg.tpRank msg.requestId t (by rw [hload]; rfl)
    · rw [ranks_setLoad_same (by rw [hload]; rfl)]
      exact h.decode
    · rw [ranks_setLoad_new hd rfl]
      refine h.prefill.updateDoneTaskCount hd ?_
      simp [hload, LoadState.isDelivered]

/-- **A signal arrives at rank 0** of either engine. -/
theorem listen (h : s.Orderly) {signal : ReqId × ℕ}
    (hstep : s.step (.listenDecode signal) = .ok s' ∨ s.step (.listenPrefill signal) = .ok s') :
    s'.Orderly := by
  simp only [MooncakeSystem.step] at hstep
  obtain hstep | hstep := hstep
  · split_ifs at hstep with hpushed
    cases hstep
    exact { h with decode := h.decode.listen hpushed }
  · split_ifs at hstep with hpushed
    cases hstep
    exact { h with prefill := h.prefill.listen hpushed }

theorem step (h : s.Orderly) {ev : MooncakeEvent} (honce : s.Once ev) (hstep : s.step ev = .ok s') :
    s'.Orderly := by
  cases ev with
  | startLoadKv => exact h.startLoadKv honce hstep
  | get => exact h.get hstep
  | transfer => exact h.transfer hstep
  | sendDone => exact h.sendDone hstep
  | recvDone => exact h.recvDone hstep
  | listenDecode => exact h.listen (Or.inl hstep)
  | listenPrefill => exact h.listen (Or.inr hstep)
  | getFinishedDecode =>
    cases hstep
    exact { h with decode := h.decode.getFinished }
  | getFinishedPrefill =>
    cases hstep
    exact { h with prefill := h.prefill.getFinished }

theorem of_run {topology : TpTopology} {sideChannelPort : ℕ} {threads : ℕ → KVCacheRecvingThread}
    (run : Run MooncakeSystem.step Once (init topology sideChannelPort threads) s) : s.Orderly :=
  run.invariant (fun _ _ _ h honce hstep => h.step honce hstep) (initial _ _ _)

end Orderly

end MooncakeSystem

end VllmAscend
