import VllmAscend.Core.Scheduler

/-!
# Distributed/RemoteLoads — what the scheduler sides of the connectors have in common

    update_state_after_alloc ──▸ _reqs_need_recv[id] := (request, blocks) ──▸ build_connector_meta

Both connectors keep the loads that are to be started in a dictionary, fill it for a remote prefill
whose parameters are complete, and empty it into the metadata at the end of the call.  They differ
in the keys they ask for, the local blocks they pass on and the entry they make.
-/

namespace VllmAscend

/-- `params is not None and params.get("do_remote_prefill")`. -/
def doRemotePrefill (params : Option KVTransferParams) : Bool :=
  params.any fun p => p.doRemotePrefill = some true

namespace KVTransferParams

/-- `params.get("remote_block_ids")` is there and not empty. -/
def hasRemoteBlocks (p : KVTransferParams) : Bool := p.remoteBlockIds.any fun ids => ¬ids.isEmpty

/-- `all(p in params for p in ("remote_engine_id", "remote_host", "remote_port"))`. -/
def namesRemote (p : KVTransferParams) : Bool :=
  p.remoteEngineId.isSome && p.remoteHost.isSome && p.remotePort.isSome

end KVTransferParams

/-- `_reqs_need_recv`: the requests that need to start to receive, with their local blocks.  Of a
request only its transfer parameters are read again. -/
structure PendingLoads where
  reqsNeedRecv : Dict (KVTransferParams × List BlockId)

namespace PendingLoads

variable {α : Type}

/-- `update_state_after_alloc`, where `complete` are the keys it asks for.  The parameters are
stored as the method leaves them: it is the same dictionary whose `do_remote_prefill` it sets to
`False`. -/
def register (self : PendingLoads) (complete : KVTransferParams → Bool) (id : ReqId) (r : Request)
    (localBlockIds : List BlockId) (numExternalTokens : ℕ) :
    Option (PendingLoads × Option KVTransferParams) :=
  match r.kvTransferParams with
  | none => some (self, none)
  | some params =>
    if doRemotePrefill (some params) then
      -- only trigger one transfer per request
      let params' := { params with doRemotePrefill := some false }
      if params.hasRemoteBlocks then
        if complete params then
          some (⟨self.reqsNeedRecv.insert id (params', localBlockIds)⟩, some params')
        else some (self, some params')
      else if numExternalTokens = 0 then some (self, some params') else none
    else some (self, some params)

/-- `meta.add_new_req(...)`, where `reqMeta` makes the entry; a missing key raises. -/
def addNewReq (reqMeta : List BlockId → KVTransferParams → Option α) (requests : Dict α)
    (entry : Sigma fun _ : ReqId => KVTransferParams × List BlockId) : Option (Dict α) :=
  (reqMeta entry.2.2 entry.2.1).map fun m => requests.insert entry.1 m

/-- `build_connector_meta`. -/
def build (self : PendingLoads) (reqMeta : List BlockId → KVTransferParams → Option α) :
    Option (PendingLoads × Dict α) :=
  (self.reqsNeedRecv.entries.foldlM (addNewReq reqMeta) ∅).map fun requests => (⟨∅⟩, requests)

/-- `request_finished`: whether the blocks are freed later, and the parameters for the engine that
decodes, where `published` are those of the blocks. -/
def requestFinished (published : List BlockId → KVTransferParams) (r : Request)
    (blockIds : List BlockId) : Bool × Option KVTransferParams :=
  if r.kvTransferParams.any (fun p => p.doRemoteDecode = some true) ∧
      r.status = .finishedLengthCapped then
    (0 < blockIds.length, some (published blockIds))
  else (false, none)

/-! ## What each does -/

variable {self self' : PendingLoads} {complete : KVTransferParams → Bool} {id : ReqId} {r : Request}
  {n : ℕ} {localBlockIds : List BlockId} {params : Option KVTransferParams}

/-- The load of the request is registered. -/
def Registers (complete : KVTransferParams → Bool) (r : Request) : Prop :=
  ∃ p, r.kvTransferParams = some p ∧ doRemotePrefill (some p) = true ∧ p.hasRemoteBlocks = true ∧
    complete p = true

/-- **A load is registered exactly when all keys are there**, and never again for the request. -/
theorem register_eq_some
    (h : self.register complete id r localBlockIds n = some (self', params)) :
    (∀ id', id' ∈ self'.reqsNeedRecv ↔
      id' ∈ self.reqsNeedRecv ∨ (id' = id ∧ Registers complete r)) ∧
      doRemotePrefill params = false := by
  unfold register at h
  split at h
  · next hnone =>
    cases h
    exact ⟨fun id' => by simp [Registers, hnone], rfl⟩
  next p hp =>
    have hregisters : Registers complete r ↔
        doRemotePrefill (some p) = true ∧ p.hasRemoteBlocks = true ∧ complete p = true := by
      simp [Registers, hp]
    rw [hregisters]
    split at h
    · next hremote =>
      split at h
      · next hblocks =>
        split at h
        · next hcomplete =>
          cases h
          refine ⟨fun id' => ?_, by simp [doRemotePrefill]⟩
          rw [AList.mem_insert]
          simp [hremote, hblocks, hcomplete, or_comm]
        · next hcomplete =>
          cases h
          exact ⟨fun id' => by simp [hcomplete], by simp [doRemotePrefill]⟩
      · next hblocks =>
        split at h
        · cases h
          exact ⟨fun id' => by simp [hblocks], by simp [doRemotePrefill]⟩
        · contradiction
    · next hremote =>
      cases h
      exact ⟨fun id' => by simp [hremote], by simpa using hremote⟩

/-- External tokens come with remote blocks. -/
theorem register_hasRemoteBlocks {p : KVTransferParams}
    (h : self.register complete id r localBlockIds n = some (self', params))
    (hp : r.kvTransferParams = some p) (hremote : doRemotePrefill (some p) = true) (hn : 0 < n) :
    p.hasRemoteBlocks = true := by
  simp only [register, hp, if_pos hremote] at h
  by_contra hblocks
  rw [if_neg hblocks, if_neg hn.ne'] at h
  contradiction

/-- A registered load is the request's parameters with its local blocks. -/
theorem register_lookup {p : KVTransferParams}
    (h : self.register complete id r localBlockIds n = some (self', params))
    (hp : r.kvTransferParams = some p) (hremote : doRemotePrefill (some p) = true)
    (hblocks : p.hasRemoteBlocks = true) (hcomplete : complete p = true) :
    self'.reqsNeedRecv.lookup id =
      some ({ p with doRemotePrefill := some false }, localBlockIds) := by
  simp only [register, hp, if_pos hremote, if_pos hblocks, if_pos hcomplete] at h
  cases h
  exact AList.lookup_insert _

/-- The entries of the metadata, one for each load. -/
theorem foldlM_addNewReq {reqMeta : List BlockId → KVTransferParams → Option α} :
    ∀ {l : List (Sigma fun _ : ReqId => KVTransferParams × List BlockId)}
      {requests₀ requests : Dict α}, l.NodupKeys →
      l.foldlM (addNewReq reqMeta) requests₀ = some requests →
        (∀ id ∉ l.keys, requests.lookup id = requests₀.lookup id) ∧
          ∀ id load, l.dlookup id = some load →
            (reqMeta load.2 load.1).isSome ∧ requests.lookup id = reqMeta load.2 load.1
  | [], requests₀, requests, _, h => by
    cases h
    exact ⟨fun _ _ => rfl, fun _ _ hload => nomatch hload⟩
  | ⟨key, load⟩ :: l, requests₀, requests, hnodup, h => by
    rw [List.foldlM_cons, Option.bind_eq_bind, Option.bind_eq_some_iff] at h
    obtain ⟨requests₁, hentry, hrest⟩ := h
    rw [addNewReq, Option.map_eq_some_iff] at hentry
    obtain ⟨m, hm, rfl⟩ := hentry
    rw [List.nodupKeys_cons] at hnodup
    obtain ⟨hother, hloads⟩ := foldlM_addNewReq hnodup.2 hrest
    refine ⟨fun id hid => ?_, fun id load' hload => ?_⟩
    · rw [List.keys_cons, List.mem_cons, not_or] at hid
      rw [hother id hid.2, AList.lookup_insert_ne hid.1]
    · by_cases hkey : id = key
      · subst hkey
        rw [List.dlookup_cons_eq] at hload
        cases hload
        rw [hother id hnodup.1, AList.lookup_insert]
        exact ⟨by rw [hm]; rfl, hm.symm⟩
      · rw [List.dlookup_cons_ne _ _ hkey] at hload
        exact hloads id load' hload

/-- **The metadata has one entry for each registered load**, and none is left. -/
theorem build_eq_some {reqMeta : List BlockId → KVTransferParams → Option α} {requests : Dict α}
    (h : self.build reqMeta = some (self', requests)) :
    self'.reqsNeedRecv = ∅ ∧ (∀ id, id ∈ requests ↔ id ∈ self.reqsNeedRecv) ∧
      ∀ id load, self.reqsNeedRecv.lookup id = some load →
        requests.lookup id = reqMeta load.2 load.1 := by
  rw [build, Option.map_eq_some_iff] at h
  obtain ⟨built, hbuilt, heq⟩ := h
  cases heq
  obtain ⟨hother, hloads⟩ := foldlM_addNewReq self.reqsNeedRecv.nodupKeys hbuilt
  refine ⟨rfl, fun id => ?_, fun id load hload => (hloads id load hload).2⟩
  rw [← AList.lookup_isSome, ← AList.lookup_isSome]
  cases hload : self.reqsNeedRecv.lookup id with
  | none =>
    have hid : id ∉ self.reqsNeedRecv.entries.keys := AList.lookup_eq_none.mp hload
    simp [hother id hid]
  | some load =>
    obtain ⟨hsome, hlookup⟩ := hloads id load hload
    simp [hlookup, hsome]

end PendingLoads

end VllmAscend
