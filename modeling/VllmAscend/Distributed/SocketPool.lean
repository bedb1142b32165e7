import VllmAscend.Core.Request
import VllmAscend.Machinery.Run

/-!
# Distributed/SocketPool — the REQ sockets of the receiving thread, over many requests

    _get_remote_socket ──▸ ensure_zmq_send ──▸ ensure_zmq_recv ──▸ _return_remote_socket
      pool, or new           three tries          three polls          whatever happened

The thread handles one request after the other; each asks its prefill rank for its metadata, if that
is not known, and tells it that the blocks are read.  A REQ socket alternates between sending and
receiving, and goes back to its pool in a `finally` block.  After three polls in vain it goes back
waiting for the reply, and then no send on it succeeds any more, however late the reply comes.
-/

namespace VllmAscend

open Machinery

/-- A reply, with the number of the message it answers. -/
structure Reply where
  answers : ℕ
  data : String
  deriving DecidableEq, Repr

/-- A REQ socket, registered with the poller. -/
structure ReqSocket where
  path : String
  /-- the message it sent, until `recv` returns its reply -/
  awaiting : Option ℕ
  /-- the reply, when it is there -/
  arrived : Option Reply
  deriving DecidableEq, Repr

namespace ReqSocket

/-- `make_zmq_socket`. -/
def make (path : String) : ReqSocket := ⟨path, none, none⟩

/-- It can send, and no reply is pending. -/
def Ready (sock : ReqSocket) : Prop := sock.awaiting = none ∧ sock.arrived = none

instance (sock : ReqSocket) : Decidable sock.Ready := inferInstanceAs (Decidable (_ ∧ _))

end ReqSocket

/-- What is asked of the prefill rank. -/
inductive ZmqMessage where
  | getMeta
  | doneRecving
  deriving DecidableEq, Repr

/-- `_get_remote_metadata` or `_send_done_recv_signal`, with the socket it uses. -/
structure ZmqCall where
  message : ZmqMessage
  path : String
  sock : ℕ
  deriving DecidableEq, Repr

/-- How a call ends: `ensure_zmq_recv` returns the reply to what was sent last, or one of the two
gives up. -/
inductive ZmqOutcome where
  | replied (sent : ℕ) (reply : Reply)
  | sendFailed
  | recvFailed
  deriving DecidableEq, Repr

/-- Where `_handle_request` is. -/
inductive ZmqPhase where
  /-- no request is handled -/
  | idle
  | sending (call : ZmqCall) (retriesLeft : ℕ)
  | receiving (call : ZmqCall) (sent : ℕ) (retriesLeft : ℕ)
  /-- in `recv`, which has no timeout -/
  | blocked (call : ZmqCall) (sent : ℕ)
  /-- the rest of `_transfer_kv_cache` -/
  | transferring (path : String)
  deriving DecidableEq, Repr

namespace ZmqPhase

/-- The call whose reply is awaited, and the message it sent. -/
def awaited : ZmqPhase → Option (ZmqCall × ℕ)
  | .receiving call sent _ | .blocked call sent => some (call, sent)
  | .idle | .sending .. | .transferring _ => none

/-- The call that uses a socket. -/
def call : ZmqPhase → Option ZmqCall
  | .sending call _ | .receiving call _ _ | .blocked call _ => some call
  | .idle | .transferring _ => none

end ZmqPhase

structure SocketPool where
  sockets : ℕ → ReqSocket
  /-- how many sockets there are -/
  numSockets : ℕ
  remoteSockets : String → List ℕ
  phase : ZmqPhase
  /-- how many messages were sent -/
  numSent : ℕ
  /-- the history of the calls -/
  outcomes : List (ZmqMessage × String × ZmqOutcome)

inductive SocketEvent where
  /-- the next request; it needs the metadata, or has it -/
  | handle (path : String) (needsMetadata : Bool)
  /-- a try of `ensure_zmq_send`, which the transport accepts or not -/
  | send (accepted : Bool)
  /-- a try of `ensure_zmq_recv`; the poll fails, or returns what is readable -/
  | poll (error : Bool)
  /-- `recv` returns the reply it waited for -/
  | recv
  /-- the transfer is over -/
  | transferred
  /-- a reply arrives, late or not -/
  | arrive (sock : ℕ) (data : String)
  deriving DecidableEq, Repr

namespace SocketPool

/-- `max_retries`. -/
def maxRetries : ℕ := 3

def init : SocketPool := ⟨fun _ => .make "", 0, fun _ => [], .idle, 0, []⟩

variable (self : SocketPool)

/-- `_get_remote_socket`, for a message to `path`. -/
def getRemoteSocket (message : ZmqMessage) (path : String) : SocketPool :=
  match self.remoteSockets path with
  | sock :: rest =>
    { self with
      remoteSockets := Function.update self.remoteSockets path rest
      phase := .sending ⟨message, path, sock⟩ maxRetries }
  | [] =>
    { self with
      sockets := Function.update self.sockets self.numSockets (.make path)
      numSockets := self.numSockets + 1
      phase := .sending ⟨message, path, self.numSockets⟩ maxRetries }

/-- The end of a call: `_return_remote_socket`, and on to what comes next. -/
def finish (call : ZmqCall) (outcome : ZmqOutcome) : SocketPool :=
  { self with
    remoteSockets := Function.update self.remoteSockets call.path
      (self.remoteSockets call.path ++ [call.sock])
    phase := match call.message with
      | .getMeta => .transferring call.path
      | .doneRecving => .idle
    outcomes := (call.message, call.path, outcome) :: self.outcomes }

/-- `poller.poll` reports some socket. -/
def Readable : Prop := ∃ i < self.numSockets, (self.sockets i).arrived.isSome

instance : Decidable self.Readable := inferInstanceAs (Decidable (∃ i < _, _))

/-- A turn of the loop of `ensure_zmq_send`. -/
def trySend (call : ZmqCall) (retriesLeft : ℕ) (accepted : Bool) : SocketPool :=
  -- a socket that waits for a reply does not send
  if (self.sockets call.sock).awaiting = none ∧ accepted = true then
    { self with
      sockets := Function.update self.sockets call.sock
        { self.sockets call.sock with awaiting := some self.numSent }
      numSent := self.numSent + 1
      phase := .receiving call self.numSent maxRetries }
  else if 0 < retriesLeft - 1 then { self with phase := .sending call (retriesLeft - 1) }
  else self.finish call .sendFailed

/-- `recv` returns a reply. -/
def receive (call : ZmqCall) (sent : ℕ) (reply : Reply) : SocketPool :=
  finish { self with
    sockets := Function.update self.sockets call.sock
      { self.sockets call.sock with awaiting := none, arrived := none } }
    call (.replied sent reply)

/-- A turn of the loop of `ensure_zmq_recv`. -/
def tryRecv (call : ZmqCall) (sent retriesLeft : ℕ) (error : Bool) : SocketPool :=
  if error = false ∧ self.Readable then
    -- whichever socket was reported
    match (self.sockets call.sock).arrived with
    | some reply => self.receive call sent reply
    | none => { self with phase := .blocked call sent }
  else if 0 < retriesLeft - 1 then { self with phase := .receiving call sent (retriesLeft - 1) }
  else self.finish call .recvFailed

def step : SocketEvent → Except Unit SocketPool
  | .handle path needsMetadata =>
    match self.phase with
    | .idle =>
      .ok (self.getRemoteSocket (if needsMetadata then .getMeta else .doneRecving) path)
    | _ => .error ()
  | .send accepted =>
    match self.phase with
    | .sending call retriesLeft => .ok (self.trySend call retriesLeft accepted)
    | _ => .error ()
  | .poll error =>
    match self.phase with
    | .receiving call sent retriesLeft => .ok (self.tryRecv call sent retriesLeft error)
    | _ => .error ()
  | .recv =>
    match self.phase with
    | .blocked call sent =>
      match (self.sockets call.sock).arrived with
      | some reply => .ok (self.receive call sent reply)
      | none => .error ()
    | _ => .error ()
  | .transferred =>
    match self.phase with
    | .transferring path => .ok (self.getRemoteSocket .doneRecving path)
    | _ => .error ()
  | .arrive sock data =>
    match (self.sockets sock).awaiting, (self.sockets sock).arrived with
    | some sent, none =>
      .ok { self with
        sockets := Function.update self.sockets sock
          { self.sockets sock with arrived := some ⟨sent, data⟩ } }
    | _, _ => .error ()

variable {self} {s s' : SocketPool} {call : ZmqCall}

/-- **What a step can do.** -/
theorem step_cases {ev : SocketEvent} (hstep : s.step ev = .ok s') :
    (∃ message path, s.phase.call = none ∧ s' = s.getRemoteSocket message path) ∨
    (∃ call retriesLeft accepted, s.phase = .sending call retriesLeft ∧
      s' = s.trySend call retriesLeft accepted) ∨
    (∃ call sent retriesLeft error, s.phase = .receiving call sent retriesLeft ∧
      ev = .poll error ∧ s' = s.tryRecv call sent retriesLeft error) ∨
    (∃ call sent reply, s.phase = .blocked call sent ∧
      (s.sockets call.sock).arrived = some reply ∧ s' = s.receive call sent reply) ∨
    ∃ sock data sent, (s.sockets sock).awaiting = some sent ∧ (s.sockets sock).arrived = none ∧
      s' = { s with
        sockets := Function.update s.sockets sock
          { s.sockets sock with arrived := some ⟨sent, data⟩ } } := by
  cases ev with
  | handle path needsMetadata =>
    simp only [step] at hstep
    split at hstep
    · next hphase =>
      cases hstep
      exact Or.inl ⟨_, _, by rw [hphase]; rfl, rfl⟩
    · contradiction
  | send accepted =>
    simp only [step] at hstep
    split at hstep
    · next hphase =>
      cases hstep
      exact Or.inr (Or.inl ⟨_, _, _, hphase, rfl⟩)
    · contradiction
  | poll error =>
    simp only [step] at hstep
    split at hstep
    · next hphase =>
      cases hstep
      exact Or.inr (Or.inr (Or.inl ⟨_, _, _, _, hphase, rfl, rfl⟩))
    · contradiction
  | recv =>
    simp only [step] at hstep
    split at hstep
    · next hphase =>
      split at hstep
      · next harrived =>
        cases hstep
        exact Or.inr (Or.inr (Or.inr (Or.inl ⟨_, _, _, hphase, harrived, rfl⟩)))
      · contradiction
    · contradiction
  | transferred =>
    simp only [step] at hstep
    split at hstep
    · next hphase =>
      cases hstep
      exact Or.inl ⟨_, _, by rw [hphase]; rfl, rfl⟩
    · contradiction
  | arrive sock data =>
    simp only [step] at hstep
    split at hstep
    · next hsent harrived =>
      cases hstep
      exact Or.inr (Or.inr (Or.inr (Or.inr ⟨_, _, _, hsent, harrived, rfl⟩)))
    · contradiction

/-! ## Whose sockets they are -/

/-- Each socket in a pool is one of that path and is there once; one in use is in no pool. -/
structure Owned (s : SocketPool) : Prop where
  pool_lt : ∀ path, ∀ i ∈ s.remoteSockets path, i < s.numSockets
  pool_path : ∀ path, ∀ i ∈ s.remoteSockets path, (s.sockets i).path = path
  pool_nodup : ∀ path, (s.remoteSockets path).Nodup
  inUse : ∀ call, s.phase.call = some call → call.sock < s.numSockets ∧
    (s.sockets call.sock).path = call.path ∧ call.sock ∉ s.remoteSockets call.path

namespace Owned

theorem initial : init.Owned where
  pool_lt _ _ hi := absurd hi List.not_mem_nil
  pool_path _ _ hi := absurd hi List.not_mem_nil
  pool_nodup _ := List.nodup_nil
  inUse _ h := by cases h

/-- What a socket does, its path and its place stay. -/
theorem congr (h : s.Owned) (hpath : ∀ i, (s'.sockets i).path = (s.sockets i).path)
    (hnum : s'.numSockets = s.numSockets) (hpool : s'.remoteSockets = s.remoteSockets)
    (hcall : s'.phase.call = s.phase.call) : s'.Owned := by
  refine ⟨fun path i hi => ?_, fun path i hi => ?_, fun path => ?_, fun call hcall' => ?_⟩
  · rw [hpool] at hi
    exact hnum ▸ h.pool_lt path i hi
  · rw [hpool] at hi
    exact (hpath i).trans (h.pool_path path i hi)
  · exact hpool ▸ h.pool_nodup path
  · rw [hnum, hpath, hpool]
    exact h.inUse call (hcall ▸ hcall')

/-- The socket in use is not one of any pool. -/
theorem notMem (h : s.Owned) (hcall : s.phase.call = some call) (path : String) :
    call.sock ∉ s.remoteSockets path := by
  obtain ⟨_, hpath, hnot⟩ := h.inUse call hcall
  intro hmem
  have heq := h.pool_path path _ hmem
  rw [hpath] at heq
  exact hnot (heq ▸ hmem)

/-- **A socket is taken** from the pool, or made. -/
theorem getRemoteSocket (h : s.Owned) (message : ZmqMessage) (path : String) :
    (s.getRemoteSocket message path).Owned := by
  rw [SocketPool.getRemoteSocket]
  split
  · next sock rest hpool =>
    have hnodup := h.pool_nodup path
    rw [hpool, List.nodup_cons] at hnodup
    have hsub : ∀ path' i, i ∈ Function.update s.remoteSockets path rest path' →
        i ∈ s.remoteSockets path' := by
      intro path' i hi
      by_cases hne : path' = path
      · subst hne
        rw [Function.update_self] at hi
        exact hpool ▸ List.mem_cons_of_mem _ hi
      · rwa [Function.update_of_ne hne] at hi
    have hmem : sock ∈ s.remoteSockets path := hpool ▸ List.mem_cons_self
    refine ⟨fun path' i hi => h.pool_lt path' i (hsub path' i hi),
      fun path' i hi => h.pool_path path' i (hsub path' i hi), fun path' => ?_, fun call hcall => ?_⟩
    · by_cases hne : path' = path
      · subst hne
        simp only [Function.update_self]
        exact hnodup.2
      · simp only [Function.update_of_ne hne]
        exact h.pool_nodup path'
    · cases hcall
      refine ⟨h.pool_lt path sock hmem, h.pool_path path sock hmem, ?_⟩
      simp only [Function.update_self]
      exact hnodup.1
  · next hpool =>
    have hne : ∀ path' i, i ∈ s.remoteSockets path' → i ≠ s.numSockets :=
      fun path' i hi => (h.pool_lt path' i hi).ne
    refine ⟨fun path' i hi => (h.pool_lt path' i hi).trans (Nat.lt_succ_self _),
      fun path' i hi => ?_, h.pool_nodup, fun call hcall => ?_⟩
    · simp only [Function.update_of_ne (hne path' i hi)]
      exact h.pool_path path' i hi
    · cases hcall
      refine ⟨Nat.lt_succ_self _, by simp [ReqSocket.make], fun hi => hne _ _ hi rfl⟩

/-- **The socket in use is returned.** -/
theorem finish (h : s.Owned) (hcall : s.phase.call = some call) (outcome : ZmqOutcome) :
    (s.finish call outcome).Owned := by
  obtain ⟨hlt, hpath, hnot⟩ := h.inUse call hcall
  have hmem : ∀ path i, i ∈ (s.finish call outcome).remoteSockets path →
      i ∈ s.remoteSockets path ∨ path = call.path ∧ i = call.sock := by
    intro path i hi
    simp only [SocketPool.finish] at hi
    by_cases hne : path = call.path
    · subst hne
      rw [Function.update_self, List.mem_append, List.mem_singleton] at hi
      exact hi.imp_right fun heq => ⟨rfl, heq⟩
    · rw [Function.update_of_ne hne] at hi
      exact Or.inl hi
  refine ⟨fun path i hi => ?_, fun path i hi => ?_, fun path => ?_, fun call' hcall' => ?_⟩
  · obtain hi | ⟨_, rfl⟩ := hmem path i hi
    · exact h.pool_lt path i hi
    · exact hlt
  · obtain hi | ⟨rfl, rfl⟩ := hmem path i hi
    · exact h.pool_path path i hi
    · exact hpath
  · simp only [SocketPool.finish]
    by_cases hne : path = call.path
    · subst hne
      rw [Function.update_self]
      refine List.nodup_append.mpr ⟨h.pool_nodup _, List.nodup_singleton _, ?_⟩
      intro i hi j hj heq
      rw [List.mem_singleton.mp hj] at heq
      exact hnot (heq ▸ hi)
    · rw [Function.update_of_ne hne]
      exact h.pool_nodup path
  · simp only [SocketPool.finish] at hcall'
    cases hmessage : call.message <;> simp [hmessage, ZmqPhase.call] at hcall'

/-- A socket that changes keeps its path. -/
theorem update_path {i : ℕ} {sock : ReqSocket} (hpath : sock.path = (s.sockets i).path) (j : ℕ) :
    (Function.update s.sockets i sock j).path = (s.sockets j).path := by
  by_cases hne : j = i
  · subst hne
    rw [Function.update_self, hpath]
  · rw [Function.update_of_ne hne]

theorem receive (h : s.Owned) (hcall : s.phase.call = some call) (sent : ℕ) (reply : Reply) :
    (s.receive call sent reply).Owned := by
  have hreset : SocketPool.Owned { s with
      sockets := Function.update s.sockets call.sock
        { s.sockets call.sock with awaiting := none, arrived := none } } :=
    h.congr (update_path rfl) rfl rfl rfl
  exact hreset.finish hcall _

theorem step {ev : SocketEvent} (h : s.Owned) (hstep : s.step ev = .ok s') : s'.Owned := by
  obtain ⟨message, path, _, rfl⟩ | ⟨call, retriesLeft, accepted, hphase, rfl⟩ |
    ⟨call, sent, retriesLeft, error, hphase, _, rfl⟩ | ⟨call, sent, reply, hphase, _, rfl⟩ |
    ⟨sock, data, sent, _, _, rfl⟩ := step_cases hstep
  · exact h.getRemoteSocket _ _
  · rw [trySend]
    split_ifs
    · exact h.congr (update_path rfl) rfl rfl (by rw [hphase]; rfl)
    · exact h.congr (fun _ => rfl) rfl rfl (by rw [hphase]; rfl)
    · exact h.finish (by rw [hphase]; rfl) _
  · rw [tryRecv]
    split_ifs
    · split
      · exact h.receive (by rw [hphase]; rfl) _ _
      · exact h.congr (fun _ => rfl) rfl rfl (by rw [hphase]; rfl)
    · exact h.congr (fun _ => rfl) rfl rfl (by rw [hphase]; rfl)
    · exact h.finish (by rw [hphase]; rfl) _
  · exact h.receive (by rw [hphase]; rfl) _ _
  · exact h.congr (update_path rfl) rfl rfl rfl

end Owned

/-! ## Which message a reply answers -/

/-- A call returned the reply to the message it sent. -/
def RepliesAnswer (s : SocketPool) : Prop :=
  ∀ x ∈ s.outcomes, ∀ sent reply, x.2.2 = .replied sent reply → reply.answers = sent

/-- Each socket has the reply to what it sent, if any; and the call that waits for a reply waits for
that of its socket. -/
structure Matched (s : SocketPool) : Prop where
  arrived : ∀ i reply, (s.sockets i).arrived = some reply →
    (s.sockets i).awaiting = some reply.answers
  awaited : ∀ call sent, s.phase.awaited = some (call, sent) →
    (s.sockets call.sock).awaiting = some sent
  answers : s.RepliesAnswer

namespace Matched

theorem initial : init.Matched where
  arrived _ _ h := by cases h
  awaited _ _ h := by cases h
  answers _ hx := absurd hx List.not_mem_nil

/-- A socket that changes has the reply to what it sent. -/
theorem update_arrived (h : s.Matched) {i : ℕ} {sock : ReqSocket}
    (hsock : ∀ reply, sock.arrived = some reply → sock.awaiting = some reply.answers) :
    ∀ j reply, (Function.update s.sockets i sock j).arrived = some reply →
      (Function.update s.sockets i sock j).awaiting = some reply.answers := by
  intro j reply hj
  by_cases hne : j = i
  · subst hne
    rw [Function.update_self] at hj ⊢
    exact hsock reply hj
  · rw [Function.update_of_ne hne] at hj ⊢
    exact h.arrived j reply hj

theorem finish {sockets : ℕ → ReqSocket} (h : s.Matched)
    (harrived : ∀ i reply, (sockets i).arrived = some reply →
      (sockets i).awaiting = some reply.answers)
    {outcome : ZmqOutcome} (houtcome : ∀ sent reply, outcome = .replied sent reply →
      reply.answers = sent) :
    (SocketPool.finish { s with sockets := sockets } call outcome).Matched := by
  refine ⟨harrived, fun call' sent hawaited => ?_, fun x hx => ?_⟩
  · simp only [SocketPool.finish] at hawaited
    cases hmessage : call.message <;> simp [hmessage, ZmqPhase.awaited] at hawaited
  · obtain rfl | hx := List.mem_cons.mp hx
    · exact houtcome
    · exact h.answers x hx

/-- **The reply that `recv` returns** is the one to the message of the call. -/
theorem receive (h : s.Matched) {sent : ℕ} {reply : Reply}
    (hawaited : s.phase.awaited = some (call, sent))
    (harrived : (s.sockets call.sock).arrived = some reply) :
    (s.receive call sent reply).Matched := by
  refine h.finish (h.update_arrived (by simp)) fun sent' reply' heq => ?_
  cases heq
  have hanswers := h.arrived _ _ harrived
  rw [h.awaited call sent hawaited] at hanswers
  exact (Option.some.inj hanswers).symm

theorem step {ev : SocketEvent} (h : s.Matched) (hstep : s.step ev = .ok s') : s'.Matched := by
  obtain ⟨message, path, hphase, rfl⟩ | ⟨call, retriesLeft, accepted, hphase, rfl⟩ |
    ⟨call, sent, retriesLeft, error, hphase, _, rfl⟩ | ⟨call, sent, reply, hphase, harrived, rfl⟩ |
    ⟨sock, data, sent, hsent, harrived, rfl⟩ := step_cases hstep
  · rw [getRemoteSocket]
    split
    · exact ⟨h.arrived, (fun _ _ hcall => by cases hcall), h.answers⟩
    · exact ⟨h.update_arrived (by simp [ReqSocket.make]), (fun _ _ hcall => by cases hcall), h.answers⟩
  · rw [trySend]
    split_ifs with hsend
    · refine ⟨h.update_arrived fun reply hreply => ?_, fun call' sent hcall => ?_, h.answers⟩
      · -- a socket that can send has no reply
        have hawaiting := h.arrived _ reply hreply
        rw [hsend.1] at hawaiting
        contradiction
      · cases hcall
        simp
    · exact ⟨h.arrived, (fun _ _ hcall => by cases hcall), h.answers⟩
    · exact h.finish h.arrived fun _ _ heq => by cases heq
  · have hawaited : s.phase.awaited = some (call, sent) := by rw [hphase]; rfl
    rw [tryRecv]
    split_ifs
    · split
      · next reply harrived => exact h.receive hawaited harrived
      · exact ⟨h.arrived, fun call' sent' hcall => h.awaited call' sent' (hawaited.trans hcall),
          h.answers⟩
    · exact ⟨h.arrived, fun call' sent' hcall => h.awaited call' sent' (hawaited.trans hcall),
        h.answers⟩
    · exact h.finish h.arrived fun _ _ heq => by cases heq
  · exact h.receive (by rw [hphase]; rfl) harrived
  · refine ⟨h.update_arrived fun reply hreply => ?_, fun call' sent' hcall => ?_, h.answers⟩
    · cases hreply
      exact hsent
    · by_cases hne : call'.sock = sock
      · have hawaiting := h.awaited call' sent' hcall
        rw [hne] at hawaiting
        simp only [hne, Function.update_self]
        exact hawaiting
      · simp only [Function.update_of_ne hne]
        exact h.awaited call' sent' hcall

end Matched

/-! ## A pool that is ready -/

/-- Every socket in a pool can send, and has no reply pending. -/
def PoolReady (s : SocketPool) : Prop := ∀ path, ∀ i ∈ s.remoteSockets path, (s.sockets i).Ready

/-- A try to send fails only if the transport refuses it. -/
def SendReady (s : SocketPool) : Prop :=
  ∀ call retriesLeft, s.phase = .sending call retriesLeft → (s.sockets call.sock).Ready

/-- `recv` never waits for a reply while another socket was reported. -/
def NeverBlocked (s : SocketPool) : Prop := ∀ call sent, s.phase ≠ .blocked call sent

/-- The step is not the last try of `ensure_zmq_recv`, with nothing to read or an error. -/
def InTime (s : SocketPool) : SocketEvent → Prop
  | .poll error =>
    match s.phase with
    | .receiving _ _ retriesLeft => (error = false ∧ s.Readable) ∨ 1 < retriesLeft
    | _ => True
  | _ => True

instance (s : SocketPool) : (ev : SocketEvent) → Decidable (s.InTime ev)
  | .poll error =>
    match h : s.phase with
    | .receiving _ _ retriesLeft =>
      decidable_of_iff ((error = false ∧ s.Readable) ∨ 1 < retriesLeft) (by rw [InTime, h])
    | .idle | .sending .. | .blocked .. | .transferring _ => isTrue (by rw [InTime, h]; trivial)
  | .handle .. | .send _ | .recv | .transferred | .arrive .. => isTrue trivial

/-- Every socket can send, but the one whose reply is awaited. -/
structure Quiet (s : SocketPool) : Prop where
  ready : ∀ i, (∀ call sent retriesLeft, s.phase = .receiving call sent retriesLeft →
    call.sock ≠ i) → (s.sockets i).Ready
  neverBlocked : s.NeverBlocked

namespace Quiet

theorem initial : init.Quiet := ⟨fun _ _ => ⟨rfl, rfl⟩, fun _ _ h => by cases h⟩

theorem all_ready (h : s.Quiet)
    (hphase : ∀ call sent retriesLeft, s.phase ≠ .receiving call sent retriesLeft) (i : ℕ) :
    (s.sockets i).Ready :=
  h.ready i fun call sent retriesLeft heq => absurd heq (hphase call sent retriesLeft)

theorem poolReady (h : s.Quiet) (howned : s.Owned) : s.PoolReady := by
  refine fun path i hi => h.ready i fun call sent retriesLeft hphase heq => ?_
  exact howned.notMem (by rw [hphase]; rfl) path (heq ▸ hi)

theorem sendReady (h : s.Quiet) : s.SendReady :=
  fun call retriesLeft hphase => h.all_ready (by simp [hphase]) call.sock

/-- When all sockets are ready, they are after the end of a call. -/
theorem finish {sockets : ℕ → ReqSocket} (hready : ∀ i, (sockets i).Ready) (outcome : ZmqOutcome) :
    (SocketPool.finish { s with sockets := sockets } call outcome).Quiet := by
  refine ⟨fun i _ => hready i, fun call' sent hphase => ?_⟩
  simp only [SocketPool.finish] at hphase
  cases hmessage : call.message <;> simp [hmessage] at hphase

theorem step {ev : SocketEvent} (h : s.Quiet) (htime : s.InTime ev)
    (hstep : s.step ev = .ok s') : s'.Quiet := by
  obtain ⟨message, path, hphase, rfl⟩ | ⟨call, retriesLeft, accepted, hphase, rfl⟩ |
    ⟨call, sent, retriesLeft, error, hphase, rfl, rfl⟩ | ⟨call, sent, reply, hphase, _, rfl⟩ |
    ⟨sock, data, sent, hsent, harrived, rfl⟩ := step_cases hstep
  · have hall := h.all_ready fun call sent retriesLeft heq => by
      rw [heq] at hphase
      contradiction
    rw [getRemoteSocket]
    split
    · exact ⟨fun i _ => hall i, fun _ _ heq => by cases heq⟩
    · refine ⟨fun i _ => ?_, fun _ _ heq => by cases heq⟩
      by_cases hne : i = s.numSockets
      · subst hne
        simp [ReqSocket.make, ReqSocket.Ready]
      · simp only [Function.update_of_ne hne]
        exact hall i
  · have hall := h.all_ready (by simp [hphase])
    rw [trySend]
    split_ifs
    · refine ⟨fun i hi => ?_, fun _ _ heq => by cases heq⟩
      simp only [Function.update_of_ne (hi _ _ _ rfl).symm]
      exact hall i
    · exact ⟨fun i _ => hall i, fun _ _ heq => by cases heq⟩
    · exact finish hall _
  · -- only the socket of the call can have a reply
    have hother : ∀ i, i ≠ call.sock → (s.sockets i).Ready := by
      intro i hne
      refine h.ready i fun call' sent' retriesLeft' heq => ?_
      cases hphase.symm.trans heq
      exact hne.symm
    rw [tryRecv]
    split_ifs with hread hretry
    · obtain ⟨_, i, _, hi⟩ := hread
      split
      · refine finish (fun j => ?_) _
        by_cases hne : j = call.sock
        · subst hne
          simp [ReqSocket.Ready]
        · rw [Function.update_of_ne hne]
          exact hother j hne
      · next hnone =>
        by_cases hne : i = call.sock
        · rw [hne, hnone] at hi
          contradiction
        · rw [(hother i hne).2] at hi
          contradiction
    · refine ⟨fun i hi => h.ready i fun call' sent' retriesLeft' heq => ?_, fun _ _ heq => by cases heq⟩
      cases hphase.symm.trans heq
      exact hi _ _ _ rfl
    · rw [InTime, hphase] at htime
      exact absurd htime (by simp only [not_or]; exact ⟨hread, by omega⟩)
  · exact absurd hphase (h.neverBlocked call sent)
  · refine ⟨fun i hi => ?_, h.neverBlocked⟩
    have hne : i ≠ sock := by
      rintro rfl
      rw [(h.ready i hi).1] at hsent
      contradiction
    simp only [Function.update_of_ne hne]
    exact h.ready i hi

end Quiet

/-- A last try in vain returns a socket that waits for its reply. -/
theorem not_poolReady_of_late {ev : SocketEvent} (h : s.Matched) (hstep : s.step ev = .ok s')
    (hlate : ¬s.InTime ev) : ¬s'.PoolReady := by
  cases ev with
  | poll error =>
    simp only [step] at hstep
    split at hstep
    · next call sent retriesLeft hphase =>
      cases hstep
      simp only [InTime, hphase, not_or, not_lt] at hlate
      rw [tryRecv, if_neg hlate.1, if_neg (by omega)]
      intro hready
      have hmem : call.sock ∈ (s.finish call .recvFailed).remoteSockets call.path := by
        simp [SocketPool.finish]
      have hawaiting := (hready _ _ hmem).1
      rw [SocketPool.finish, h.awaited call sent (by rw [hphase]; rfl)] at hawaiting
      contradiction
    · contradiction
  | handle | send | recv | transferred | arrive => exact absurd trivial hlate

/-- **The pool stays ready**, every reply answers the message just sent and no send fails but for the
transport, in every run in which `ensure_zmq_recv` does not give up; and giving up ends it. -/
theorem pool_ready (run : Run step InTime init s) :
    (s.PoolReady ∧ s.RepliesAnswer ∧ s.SendReady ∧ s.NeverBlocked) ∧
      ∀ ev s', s.step ev = .ok s' → (s'.PoolReady ↔ s.InTime ev) := by
  obtain ⟨howned, hmatched, hquiet⟩ := run.invariant (I := fun s => s.Owned ∧ s.Matched ∧ s.Quiet)
    (fun _ _ _ h htime hstep => ⟨h.1.step hstep, h.2.1.step hstep, h.2.2.step htime hstep⟩)
    ⟨.initial, .initial, .initial⟩
  refine ⟨⟨hquiet.poolReady howned, hmatched.answers, hquiet.sendReady, hquiet.neverBlocked⟩,
    fun ev s' hstep => ⟨fun hready => ?_, fun htime => ?_⟩⟩
  · by_contra hlate
    exact not_poolReady_of_late hmatched hstep hlate hready
  · exact (hquiet.step htime hstep).poolReady (howned.step hstep)

/-- A socket waits for a reply that no call waits for. -/
structure Stuck (i sent : ℕ) (s : SocketPool) : Prop where
  registered : i < s.numSockets
  awaiting : (s.sockets i).awaiting = some sent
  abandoned : ∀ call sent', s.phase.awaited = some (call, sent') → call.sock ≠ i

/-- **A socket that is stuck stays so**, whatever arrives: `send` refuses it, so no call receives on
it. -/
theorem Stuck.step {i sent : ℕ} {ev : SocketEvent} (h : s.Stuck i sent)
    (hstep : s.step ev = .ok s') : s'.Stuck i sent := by
  have hfinish : ∀ (call : ZmqCall) (outcome : ZmqOutcome) (sockets : ℕ → ReqSocket),
      (sockets i).awaiting = some sent →
        (SocketPool.finish { s with sockets := sockets } call outcome).Stuck i sent := by
    refine fun call outcome sockets hi => ⟨h.registered, hi, fun call' sent' hawaited => ?_⟩
    simp only [SocketPool.finish] at hawaited
    cases hmessage : call.message <;> simp [hmessage, ZmqPhase.awaited] at hawaited
  have hreceive : ∀ (call : ZmqCall) (sent' : ℕ) (reply : Reply), call.sock ≠ i →
      (s.receive call sent' reply).Stuck i sent :=
    fun call sent' reply hne => hfinish call _ _ (by rw [Function.update_of_ne hne.symm, h.awaiting])
  obtain ⟨message, path, _, rfl⟩ | ⟨call, retriesLeft, accepted, _, rfl⟩ |
    ⟨call, sent', retriesLeft, error, hphase, _, rfl⟩ | ⟨call, sent', reply, hphase, _, rfl⟩ |
    ⟨sock, data, sent', _, _, rfl⟩ := step_cases hstep
  · rw [getRemoteSocket]
    split
    · exact ⟨h.registered, h.awaiting, fun _ _ hcall => by cases hcall⟩
    · refine ⟨h.registered.trans (Nat.lt_succ_self _), ?_, fun _ _ hcall => by cases hcall⟩
      simp only [Function.update_of_ne h.registered.ne]
      exact h.awaiting
  · rw [trySend]
    split_ifs with hsend
    · have hne : call.sock ≠ i := by
        rintro rfl
        rw [h.awaiting] at hsend
        exact absurd hsend.1 (by simp)
      refine ⟨h.registered, ?_, fun _ _ hcall => ?_⟩
      · simp only [Function.update_of_ne hne.symm]
        exact h.awaiting
      · cases hcall
        exact hne
    · exact ⟨h.registered, h.awaiting, fun _ _ hcall => by cases hcall⟩
    · exact hfinish call _ _ h.awaiting
  · have hawaited : s.phase.awaited = some (call, sent') := by rw [hphase]; rfl
    rw [tryRecv]
    split_ifs
    · split
      · exact hreceive call sent' _ (h.abandoned call sent' hawaited)
      · exact ⟨h.registered, h.awaiting, fun _ _ hcall => h.abandoned _ _ (hawaited.trans hcall)⟩
    · exact ⟨h.registered, h.awaiting, fun _ _ hcall => h.abandoned _ _ (hawaited.trans hcall)⟩
    · exact hfinish call _ _ h.awaiting
  · exact hreceive call sent' _ (h.abandoned call sent' (by rw [hphase]; rfl))
  · refine ⟨h.registered, ?_, h.abandoned⟩
    by_cases hne : i = sock
    · subst hne
      simp only [Function.update_self]
      exact h.awaiting
    · simp only [Function.update_of_ne hne]
      exact h.awaiting

theorem Stuck.run {i sent : ℕ} {allowed : SocketPool → SocketEvent → Prop} (h : s.Stuck i sent)
    (run : Run SocketPool.step allowed s s') : s'.Stuck i sent :=
  run.invariant (fun _ _ _ h _ hstep => Stuck.step h hstep) h

/-- The events of a done signal whose reply is too late, and of one after it. -/
def lateEvents : List SocketEvent :=
  [.handle "tcp" false, .send true, .poll false, .poll false, .poll false, .arrive 0 "ACK",
    .handle "tcp" false, .send true, .send true, .send true]

theorem pool_ready_small : ∃ s,
    feed step init [.handle "tcp" true, .send false, .send true, .poll false, .arrive 0 "meta",
      .poll false, .transferred, .send true, .arrive 0 "ACK", .poll false] = .ok s ∧
    (s.PoolReady ∧ s.RepliesAnswer ∧ s.SendReady ∧ s.NeverBlocked) ∧
      ∀ ev s', s.step ev = .ok s' → (s'.PoolReady ↔ s.InTime ev) := by
  obtain ⟨s, hs⟩ := exists_of_isOk (x := feed step init [.handle "tcp" true, .send false,
    .send true, .poll false, .arrive 0 "meta", .poll false, .transferred, .send true,
    .arrive 0 "ACK", .poll false]) (by decide +kernel)
  exact ⟨s, hs, pool_ready (Run.of_feed hs (by decide +kernel))⟩

/-- **After one late reply**, the next done signal to the same peer fails, although the transport
accepts every message. -/
theorem stuck_after_late_reply : ∃ s, feed step init lateEvents = .ok s ∧ s.phase = .idle ∧
    ¬s.PoolReady ∧ (.doneRecving, "tcp", .sendFailed) ∈ s.outcomes := by
  obtain ⟨s, hs, hphase, hmem, hstuck, hfailed⟩ : Returns (feed step init lateEvents) fun s =>
      s.phase = .idle ∧ 0 ∈ s.remoteSockets "tcp" ∧ ¬(s.sockets 0).Ready ∧
        (.doneRecving, "tcp", .sendFailed) ∈ s.outcomes := by
    decide +kernel
  exact ⟨s, hs, hphase, fun hready => hstuck (hready "tcp" 0 hmem), hfailed⟩

end SocketPool

end VllmAscend
