import VllmAscend.Distributed.MooncakeTransfer
import VllmAscend.Machinery.Runs
import VllmAscend.Machinery.Exchange

/-!
# Distributed/GroupedTransfer — reading groups of blocks is reading the blocks

    remote   4 5 6 │ 9 │ 2 3        one read for each group and layer
    local    0 1 2 │ 3 │ 7 8        cut where either side does not go up by one

`group_concurrent_contiguous` cuts the pairs of blocks into their runs (`groupConcurrentContiguous_eq`), and
the bytes that the reads of the groups copy are those of the single blocks (`groupedTransfer`).
-/

namespace VllmAscend

open Machinery

/-! ## Groups -/

/-- Where a list of flags is up, counted from `k + 1`. -/
def placesFrom (k : ℕ) (flags : List Bool) : List ℕ :=
  ((flags.zipIdx k).filter fun x => x.1).map fun x => x.2 + 1

theorem placesFrom_cons (k : ℕ) (flag : Bool) (flags : List Bool) :
    placesFrom k (flag :: flags) = if flag then (k + 1) :: placesFrom (k + 1) flags else placesFrom (k + 1) flags := by
  rw [placesFrom, List.zipIdx_cons]
  cases flag <;> rfl

theorem lt_of_mem_placesFrom {k place : ℕ} {flags : List Bool} (h : place ∈ placesFrom k flags) : k < place := by
  obtain ⟨x, hx, rfl⟩ := List.mem_map.mp h
  exact Nat.lt_succ_of_le (List.le_snd_of_mem_zipIdx (List.mem_filter.mp hx).1)

/-- A cut behind the first entry leaves it in the first part. -/
theorem split_cons {α : Type} (x : α) (xs : List α) {k : ℕ} : ∀ {places : List ℕ}, (∀ place ∈ places, k < place) →
    split (x :: xs) places k = (split xs places (k + 1)).modifyHead (x :: ·)
  | [], _ => rfl
  | place :: places, h => by
    obtain ⟨d, rfl⟩ := Nat.exists_eq_add_of_lt (h place List.mem_cons_self)
    have hd : k + d + 1 - k = d + 1 := by omega
    have hd' : k + d + 1 - (k + 1) = d := by omega
    rw [split, split, hd, hd', List.take_succ_cons, List.drop_succ_cons, List.modifyHead_cons]

/-- Where either side of a list of pairs does not go up by one. -/
def breakFlags (pairs : List (ℕ × ℕ)) : List Bool :=
  List.zipWith (fun s d => s != 1 || d != 1) (diff (pairs.map Prod.fst)) (diff (pairs.map Prod.snd))

theorem breakFlags_cons_cons (x y : ℕ × ℕ) (ys : List (ℕ × ℕ)) :
    breakFlags (x :: y :: ys) = (!follows x y) :: breakFlags (y :: ys) := by
  have hone : ∀ a b : ℕ, ((b : ℤ) - a != 1) = !(b == a + 1) := fun a b => by
    rw [bne, Bool.not_inj_iff, Bool.eq_iff_iff, beq_iff_eq, beq_iff_eq]
    omega
  refine congrArg₂ List.cons ?_ rfl
  change (((y.1 : ℤ) - x.1 != 1) || ((y.2 : ℤ) - x.2 != 1)) = _
  rw [hone, hone, ← Bool.not_and]
  rfl

/-- **The cuts give the runs**, of either side. -/
theorem split_breakFlags (f : ℕ × ℕ → ℕ) : ∀ (k : ℕ) (xs : List (ℕ × ℕ)) (x : ℕ × ℕ),
    split ((x :: xs).map f) (placesFrom k (breakFlags (x :: xs))) k =
      ((x :: xs).splitBy follows).map (List.map f)
  | _, [], x => by
    rw [List.splitBy_of_isChain (List.cons_ne_nil x []) (List.isChain_singleton x)]
    rfl
  | k, y :: ys, x => by
    have ih := split_breakFlags f (k + 1) ys y
    rw [breakFlags_cons_cons, placesFrom_cons, splitBy_cons_cons]
    cases follows x y with
    | true =>
      rw [if_neg (by simp), if_pos rfl, List.map_cons,
        split_cons _ _ fun place hplace => (Nat.lt_succ_self k).trans (lt_of_mem_placesFrom hplace), ih]
      cases (y :: ys).splitBy follows <;> rfl
    | false =>
      rw [if_pos (by simp), if_neg Bool.false_ne_true, split, Nat.add_sub_cancel_left, List.map_cons,
        List.take_succ_cons, List.take_zero, List.drop_succ_cons, List.drop_zero, ih, List.map_cons]
      rfl

/-- **The groups are the runs of the pairs of blocks.** -/
theorem groupConcurrentContiguous_eq (pairs : List (ℕ × ℕ)) :
    groupConcurrentContiguous (pairs.map Prod.fst) (pairs.map Prod.snd) =
      some ((pairs.splitBy follows).map (List.map Prod.fst), (pairs.splitBy follows).map (List.map Prod.snd)) := by
  cases pairs with
  | nil => rfl
  | cons x xs =>
    have hbreaks : breaks ((x :: xs).map Prod.fst) ((x :: xs).map Prod.snd) =
        some (placesFrom 0 (breakFlags (x :: xs))) := by
      have hlength : (diff ((x :: xs).map Prod.fst)).length = (diff ((x :: xs).map Prod.snd)).length := by
        simp only [diff, List.length_zipWith, List.length_tail, List.length_map]
      have hflags : broadcast (fun s d : ℤ => s != 1 || d != 1) (diff ((x :: xs).map Prod.fst))
          (diff ((x :: xs).map Prod.snd)) = some (breakFlags (x :: xs)) := if_pos hlength
      rw [breaks, hflags]
      rfl
    rw [groupConcurrentContiguous, if_neg (by simp), hbreaks, Option.map_some, split_breakFlags, split_breakFlags]

/-- Two lists of one length are a list of pairs. -/
theorem exists_pairs {src dst : List ℕ} (h : src.length = dst.length) :
    ∃ pairs : List (ℕ × ℕ), src = pairs.map Prod.fst ∧ dst = pairs.map Prod.snd :=
  ⟨src.zip dst, (List.map_fst_zip h.le).symm, (List.map_snd_zip h.ge).symm⟩

/-- The runs of a list of pairs, side by side. -/
theorem zip_runs (pairs : List (ℕ × ℕ)) : ((pairs.splitBy follows).map (List.map Prod.fst)).zip
    ((pairs.splitBy follows).map (List.map Prod.snd)) =
      (pairs.splitBy follows).map fun run => (run.map Prod.fst, run.map Prod.snd) := List.zip_map'

/-- No group of pairs is empty. -/
theorem ne_nil_of_mem_runs {pairs : List (ℕ × ℕ)} {group : List ℕ × List ℕ}
    (h : group ∈ ((pairs.splitBy follows).map (List.map Prod.fst)).zip ((pairs.splitBy follows).map (List.map Prod.snd))) :
    group.1 ≠ [] ∧ group.2 ≠ [] := by
  rw [zip_runs] at h
  obtain ⟨run, hrun, rfl⟩ := List.mem_map.mp h
  have hne : run ≠ [] := List.ne_nil_of_mem_splitBy hrun
  exact ⟨mt List.map_eq_nil_iff.mp hne, mt List.map_eq_nil_iff.mp hne⟩

/-- A side of a run goes up by one. -/
theorem side_of_run {run : List (ℕ × ℕ)} (h : run ≠ [] ∧ run.IsChain fun x y => follows x y = true) {f : ℕ × ℕ → ℕ}
    (hf : ∀ x y : ℕ × ℕ, y = (x.1 + 1, x.2 + 1) → f y = f x + 1) :
    run.map f ≠ [] ∧ (run.map f).IsChain fun a b => b = a + 1 :=
  ⟨fun hnil => h.1 (List.map_eq_nil_iff.mp hnil),
    (List.isChain_map f).mpr (h.2.imp fun x y hxy => hf x y (follows_iff.mp hxy))⟩

/-! ## Bytes -/

/-- The bytes that reads copy, from where to where. -/
def copiedBytes (reads : List (ℕ × ℕ × ℕ)) : List (ℕ × ℕ) :=
  reads.flatMap fun read => (List.range read.2.2).map fun i => (read.1 + i, read.2.1 + i)

/-- The bytes that single blocks copy in a layer; a pair is a remote block and a local one. -/
def blockBytesOf (blockLen : ℕ) (addrs : ℕ × ℕ) (pairs : List (ℕ × ℕ)) : List (ℕ × ℕ) :=
  pairs.flatMap fun pair => (List.range blockLen).map fun i =>
    (addrs.1 + (pair.2 * blockLen + i), addrs.2 + (pair.1 * blockLen + i))

/-- The block pairs that the read of a group covers: as many as the local side has, from the first two on. -/
def groupBlocks : List BlockId × List BlockId → List (BlockId × BlockId)
  | (remoteBlockId :: _, localBlockId :: rest) =>
    (List.range (rest.length + 1)).map fun i => (remoteBlockId + i, localBlockId + i)
  | _ => []

/-- **A run of pairs is what its group covers.** -/
theorem groupBlocks_run {run : List (ℕ × ℕ)} (hne : run ≠ []) (hrun : run.IsChain fun x y => follows x y = true) :
    groupBlocks (run.map Prod.fst, run.map Prod.snd) = run := by
  obtain ⟨x, xs, rfl⟩ := List.exists_cons_of_ne_nil hne
  rw [List.map_cons, List.map_cons, groupBlocks, List.length_map]
  exact (eq_map_range hrun).symm

/-- **The groups of pairs cover the pairs.** -/
theorem flatMap_groupBlocks_runs (pairs : List (ℕ × ℕ)) : (((pairs.splitBy follows).map (List.map Prod.fst)).zip
    ((pairs.splitBy follows).map (List.map Prod.snd))).flatMap groupBlocks = pairs := by
  rw [zip_runs, List.flatMap_map]
  calc (pairs.splitBy follows).flatMap (fun run => groupBlocks (run.map Prod.fst, run.map Prod.snd))
      = (pairs.splitBy follows).flatMap id := List.flatMap_congr fun run hrun =>
        groupBlocks_run (List.ne_nil_of_mem_splitBy hrun) (List.isChain_of_mem_splitBy hrun)
    _ = pairs := by rw [List.flatMap_id, List.flatten_splitBy]

namespace KVCacheRecvingThread

/-- **A group is read as the blocks it covers.** -/
theorem readGroup_blocks {blockLen : ℕ} {addrs : ℕ × ℕ} {group : List BlockId × List BlockId}
    (h : group.1 ≠ [] ∧ group.2 ≠ []) : ∃ read, readGroup blockLen addrs group = .ok read ∧
      copiedBytes [read] = blockBytesOf blockLen addrs (groupBlocks group) := by
  obtain ⟨_ | ⟨r, rs⟩, _ | ⟨l, ls⟩⟩ := group
  · exact absurd rfl h.1
  · exact absurd rfl h.1
  · exact absurd rfl h.2
  · refine ⟨_, rfl, ?_⟩
    rw [copiedBytes, List.flatMap_singleton, blockBytesOf, groupBlocks, List.flatMap_map, range_mul, List.map_flatMap]
    refine List.flatMap_congr fun s _ => ?_
    rw [List.map_map]
    refine List.map_congr_left fun i _ => ?_
    simp only [Function.comp_apply, Nat.add_mul, Nat.add_assoc]

theorem mapM_readGroup {blockLen : ℕ} {addrs : ℕ × ℕ} : ∀ {groups : List (List BlockId × List BlockId)},
    (∀ group ∈ groups, group.1 ≠ [] ∧ group.2 ≠ []) →
      ∃ reads, groups.mapM (readGroup blockLen addrs) = .ok reads ∧
        copiedBytes reads = blockBytesOf blockLen addrs (groups.flatMap groupBlocks)
  | [], _ => ⟨[], rfl, rfl⟩
  | group :: groups, h => by
    obtain ⟨read, hread, hcopied⟩ := readGroup_blocks (h group List.mem_cons_self)
    obtain ⟨reads, hreads, hrest⟩ := mapM_readGroup fun group' hgroup' => h group' (List.mem_cons_of_mem _ hgroup')
    refine ⟨read :: reads, ?_, ?_⟩
    · rw [List.mapM_cons, hread, hreads]
      rfl
    · rw [List.flatMap_cons, blockBytesOf, List.flatMap_append, ← blockBytesOf, ← blockBytesOf, ← hcopied, ← hrest]
      rw [copiedBytes, copiedBytes, copiedBytes, List.flatMap_cons, List.flatMap_singleton]

/-- **All layers are read as the blocks that the groups cover.** -/
theorem readLayers_blocks (self : KVCacheRecvingThread) {groups : List (List BlockId × List BlockId)}
    (h : ∀ group ∈ groups, group.1 ≠ [] ∧ group.2 ≠ []) (layers : List (ℕ × ℕ)) :
    ∃ reads, self.readLayers groups layers = .ok reads ∧ copiedBytes reads =
      layers.zipIdx.flatMap fun layer => blockBytesOf (self.blockBytes layer.2) layer.1 (groups.flatMap groupBlocks) := by
  have hlayers : ∀ ls : List ((ℕ × ℕ) × ℕ), ∃ reads : List (List (ℕ × ℕ × ℕ)),
      (ls.mapM fun layer => groups.mapM (readGroup (self.blockBytes layer.2) layer.1)) = .ok reads ∧
        copiedBytes reads.flatten =
          ls.flatMap fun layer => blockBytesOf (self.blockBytes layer.2) layer.1 (groups.flatMap groupBlocks) := by
    intro ls
    induction ls with
    | nil => exact ⟨[], rfl, rfl⟩
    | cons layer ls ih =>
      obtain ⟨reads, hreads, hcopied⟩ := mapM_readGroup h
      obtain ⟨rest, hrest, hcopiedRest⟩ := ih
      refine ⟨reads :: rest, ?_, ?_⟩
      · rw [List.mapM_cons, hreads, hrest]
        rfl
      · rw [List.flatMap_cons, ← hcopied, ← hcopiedRest, List.flatten_cons, copiedBytes, List.flatMap_append]
        rfl
  obtain ⟨reads, hreads, hcopied⟩ := hlayers layers.zipIdx
  exact ⟨reads.flatten, by rw [readLayers, hreads]; rfl, hcopied⟩

theorem blockBytes_of_ensureMetadata {self thread : KVCacheRecvingThread} {req : TransferRequest}
    {reply : Option MooncakeAgentMetadata} (h : self.ensureMetadata req reply = .ok thread) :
    thread.blockBytes = self.blockBytes := by
  rw [ensureMetadata] at h
  split at h
  · cases reply with
    | none => contradiction
    | some agentMeta =>
      rw [getRemoteMetadata] at h
      split_ifs at h
      cases h
      rfl
  · cases h
    rfl

/-- **The read of a request**, in bytes, where no group is empty. -/
theorem batchRead_blocks (thread : KVCacheRecvingThread) {req : TransferRequest} {remoteAddrs : List ℕ} {port : ℕ}
    {groups : List (List ℕ) × List (List ℕ)}
    (hgroups : groupConcurrentContiguous req.remoteBlockIds req.localBlockIds = some groups)
    (hne : ∀ group ∈ groups.1.zip groups.2, group.1 ≠ [] ∧ group.2 ≠ [])
    (hremote : thread.kvCachesBaseAddr req.remoteEngineId req.remoteHandshakePort = some remoteAddrs)
    (hport : thread.remoteTePort req.remoteEngineId req.remoteHandshakePort = some port) :
    ∃ read, thread.batchRead req = .ok read ∧
      copiedBytes (read.srcList.zip (read.dstList.zip read.lengthList)) =
        (thread.localAddrs.zip remoteAddrs).zipIdx.flatMap fun layer =>
          blockBytesOf (thread.blockBytes layer.2) layer.1 ((groups.1.zip groups.2).flatMap groupBlocks) := by
  obtain ⟨reads, hreads, hcopied⟩ := thread.readLayers_blocks hne (thread.localAddrs.zip remoteAddrs)
  refine ⟨_, by rw [batchRead, hgroups]; simp only [hremote, hport, hreads]; rfl, ?_⟩
  have htriples : (reads.map (·.1)).zip ((reads.map (·.2.1)).zip (reads.map (·.2.2))) = reads := by
    rw [List.zip_map', List.zip_map']
    exact List.map_id reads
  rw [htriples, hcopied]

end KVCacheRecvingThread

/-! ## The transfer -/

/-- **Reading groups of blocks is reading the blocks.**  Two lists of one length are cut into as many groups,
in pairs of one length, that join to the lists; both sides of a group go up by one, and no two neighbouring
groups could be one.  The bytes that the reads copy in all layers are those of the single pairs of blocks. -/
theorem groupedTransfer (thread : KVCacheRecvingThread) {req : TransferRequest}
    (hlength : req.remoteBlockIds.length = req.localBlockIds.length) {remoteAddrs : List ℕ} {port : ℕ}
    (hremote : thread.kvCachesBaseAddr req.remoteEngineId req.remoteHandshakePort = some remoteAddrs)
    (hport : thread.remoteTePort req.remoteEngineId req.remoteHandshakePort = some port) :
    ∃ groups : List (List ℕ) × List (List ℕ),
      groupConcurrentContiguous req.remoteBlockIds req.localBlockIds = some groups ∧
      groups.1.map List.length = groups.2.map List.length ∧
      groups.1.flatten = req.remoteBlockIds ∧ groups.2.flatten = req.localBlockIds ∧
      (∀ group ∈ groups.1 ++ groups.2, group ≠ [] ∧ group.IsChain fun a b => b = a + 1) ∧
      (groups.1.zip groups.2).IsChain (fun group next => ∀ s d s' d',
        group.1.getLast? = some s → group.2.getLast? = some d → next.1.head? = some s' → next.2.head? = some d' →
          ¬ (s' = s + 1 ∧ d' = d + 1)) ∧
      ∃ read, thread.batchRead req = .ok read ∧
        copiedBytes (read.srcList.zip (read.dstList.zip read.lengthList)) =
          (thread.localAddrs.zip remoteAddrs).zipIdx.flatMap fun layer =>
            blockBytesOf (thread.blockBytes layer.2) layer.1 (req.remoteBlockIds.zip req.localBlockIds) := by
  obtain ⟨pairs, hsrc, hdst⟩ := exists_pairs hlength
  have hgroups := groupConcurrentContiguous_eq pairs
  rw [← hsrc, ← hdst] at hgroups
  have hruns : ∀ run ∈ pairs.splitBy follows, run ≠ [] ∧ run.IsChain fun x y => follows x y = true := fun run hrun =>
    ⟨List.ne_nil_of_mem_splitBy hrun, List.isChain_of_mem_splitBy hrun⟩
  refine ⟨_, hgroups, ?_, ?_, ?_, ?_, ?_, ?_⟩
  · simp only [List.map_map, Function.comp_def, List.length_map]
  · rw [← List.map_flatten, List.flatten_splitBy, hsrc]
  · rw [← List.map_flatten, List.flatten_splitBy, hdst]
  · intro group hgroup
    rcases List.mem_append.mp hgroup with hgroup | hgroup
    · obtain ⟨run, hrun, rfl⟩ := List.mem_map.mp hgroup
      exact side_of_run (hruns run hrun) fun x y hxy => by rw [hxy]
    · obtain ⟨run, hrun, rfl⟩ := List.mem_map.mp hgroup
      exact side_of_run (hruns run hrun) fun x y hxy => by rw [hxy]
  · rw [zip_runs, List.isChain_map]
    refine (List.isChain_getLast_head_splitBy follows pairs).imp ?_
    rintro run next ⟨hrun, hnext, hbreak⟩ s d s' d' hs hd hs' hd' ⟨rfl, rfl⟩
    rw [List.getLast?_map, List.getLast?_eq_some_getLast hrun] at hs hd
    rw [List.head?_map, List.head?_eq_some_head hnext] at hs' hd'
    have hfollows : next.head hnext = ((run.getLast hrun).1 + 1, (run.getLast hrun).2 + 1) :=
      Prod.ext ((Option.some.inj hs').trans (congrArg (· + 1) (Option.some.inj hs)).symm)
        ((Option.some.inj hd').trans (congrArg (· + 1) (Option.some.inj hd)).symm)
    exact absurd (follows_iff.mpr hfollows) (by rw [hbreak]; exact Bool.false_ne_true)
  · have hpairs : req.remoteBlockIds.zip req.localBlockIds = pairs := by
      rw [hsrc, hdst, List.zip_map']
      exact List.map_id pairs
    obtain ⟨read, hread, hcopied⟩ := thread.batchRead_blocks hgroups (fun _ => ne_nil_of_mem_runs) hremote hport
    exact ⟨read, hread, by rw [hcopied, flatMap_groupBlocks_runs, hpairs]⟩

/-- A thread that knows the addresses of two layers of the other engine. -/
def twoLayers : KVCacheRecvingThread :=
  { KVCacheRecvingThread.init "decode" 0 [100, 200] [4, 2] (Or.inr rfl) with
    kvCachesBaseAddr := Function.update (Function.update (fun _ _ => none) "decode"
      (Function.update (fun _ => none) 0 (some [100, 200]))) "prefill" fun _ => some [300, 400]
    local_known := rfl
    remoteTePort := fun _ _ => some 7 }

/-- Five blocks in two groups. -/
def fiveBlocks : TransferRequest := ⟨"r", [10, 11, 12, 20, 21], [1, 2, 3, 5, 6], "prefill", "host", 1⟩

theorem groupedTransfer_fiveBlocks : ∃ read, twoLayers.batchRead fiveBlocks = .ok read ∧
    copiedBytes (read.srcList.zip (read.dstList.zip read.lengthList)) =
      ([(100, 300), (200, 400)].zipIdx).flatMap fun layer =>
        blockBytesOf (twoLayers.blockBytes layer.2) layer.1 (fiveBlocks.remoteBlockIds.zip fiveBlocks.localBlockIds) := by
  have hlength : fiveBlocks.remoteBlockIds.length = fiveBlocks.localBlockIds.length := rfl
  have hremote : twoLayers.kvCachesBaseAddr fiveBlocks.remoteEngineId fiveBlocks.remoteHandshakePort =
      some [300, 400] := rfl
  have hport : twoLayers.remoteTePort fiveBlocks.remoteEngineId fiveBlocks.remoteHandshakePort = some 7 := rfl
  obtain ⟨-, -, -, -, -, -, -, hread⟩ := groupedTransfer twoLayers hlength hremote hport
  exact hread

end VllmAscend
