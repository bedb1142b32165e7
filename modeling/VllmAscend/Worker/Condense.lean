import VllmAscend.Worker.BatchRows

/-!
# Worker/Condense — the rows that are still free are filled from the top

    [a, –, b, –, c]  ──▸  [a, c, b, –, –]  ──▸  [a, c, b]

Each round moves the request of the largest row that is not empty into the smallest row that is, and
ends when there is no such row below it; the lists are then cut off behind the last request.  What
every move keeps (`Moves`), `condense` keeps.
-/

namespace VllmAscend

open Machinery BatchUpdateBuilder

namespace InputBatch

variable {β τ : Type} [BatchUpdateBuilder β] [MultiGroupBlockTable τ]
  {self self' : InputBatch β τ} {id : ReqId} {i j k n : ℕ}

/-! ## One move -/

theorem getElem?_reqOutputTokenIds_moveRequest (id : ReqId) (hne : i ≠ j)
    (hj : j < self.reqOutputTokenIds.length) (hk : k ≠ i) :
    (self.moveRequest id i j).reqOutputTokenIds[k]?.join =
      (self.reqOutputTokenIds[if k = j then i else k]?).join := by
  have hget : (self.moveRequest id i j).reqOutputTokenIds[k]? =
      (self.reqOutputTokenIds.set j (self.reqOutputTokenIds[i]?.join))[k]? :=
    List.getElem?_set_ne hk.symm
  rw [hget]
  obtain rfl | hkj := eq_or_ne k j
  · rw [if_pos rfl, List.getElem?_set_self hj, Option.join_some]
  · rw [if_neg hkj, List.getElem?_set_ne hkj.symm]

/-- **The row is copied**; what is left in the old one is not said. -/
theorem rowData_moveRequest (h : Layout self) (hid : self.reqIdToIndex.lookup id = some i)
    (hj : j ∈ holes self.reqIds) (hk : k ≠ i) :
    (self.moveRequest id i j).rowData k = self.rowData (if k = j then i else k) := by
  have hfree := h.free (h.not_lookup_of_hole hj)
  have hne : i ≠ j := fun heq => h.index.notMem_holes hid (heq ▸ hj)
  have hout := getElem?_reqOutputTokenIds_moveRequest id hne
    (h.outputs ▸ lt_of_mem_holes hj) hk
  have hnumTokens : (self.moveRequest id i j).numTokens k =
      self.numTokens (if k = j then i else k) := copyRow_apply ..
  ext1
  case tokens =>
    rw [rowData, rowData, hnumTokens]
    refine List.map_congr_left fun l hl => ?_
    refine (congrFun (Function.update_apply ..) l).trans ?_
    split
    · next hkj =>
      rw [if_pos hkj, List.mem_range] at hl
      exact if_pos hl
    · rfl
  case blocks =>
    refine (MultiGroupBlockTable.row_moveRow hk).trans ?_
    split <;> rfl
  case sampled => ext1 <;> exact copyRow_apply ..
  case generator =>
    refine (moveEntry_apply hfree.1 k).trans ?_
    rw [if_neg hk]
    split <;> rfl
  case badWords =>
    refine (moveEntry_apply hfree.2 k).trans ?_
    rw [if_neg hk]
    split <;> rfl
  case outputTokenIds => exact hout
  all_goals exact copyRow_apply ..

theorem lookup_moveRequest (self : InputBatch β τ) (id : ReqId) (i j : ℕ) :
    (fun id' => (self.moveRequest id i j).reqIdToIndex.lookup id') =
      Function.update (fun id' => self.reqIdToIndex.lookup id') id (some j) :=
  Dict.lookup_insert_eq ..

theorem Layout.moveRequest (h : Layout self) (hid : self.reqIdToIndex.lookup id = some i)
    (hj : j ∈ holes self.reqIds) : Layout (self.moveRequest id i j) := by
  have hfree := h.free (h.not_lookup_of_hole hj)
  have hkept : ∀ k, k ≠ i → (∃ id', self.reqIdToIndex.lookup id' = some k) →
      ∃ id', (self.moveRequest id i j).reqIdToIndex.lookup id' = some k := by
    rintro k hk ⟨id', hid'⟩
    refine ⟨id', (AList.lookup_insert_ne ?_).trans hid'⟩
    rintro rfl
    exact hk (Option.some.inj (hid'.symm.trans hid))
  constructor
  case autoregressive => exact h.autoregressive
  case index =>
    rw [lookup_moveRequest]
    exact h.index.move hid hj
  case outputs =>
    have hout := h.outputs
    simpa [InputBatch.moveRequest] using hout
  case generators =>
    intro k hk
    have heq : (self.moveRequest id i j).generators k = _ := moveEntry_apply hfree.1 k
    rw [heq] at hk
    split at hk
    · next hkj => exact ⟨id, hkj ▸ AList.lookup_insert _⟩
    · next hkj =>
      split at hk
      · contradiction
      · next hki => exact hkept k hki (h.generators k hk)
  case badWords =>
    intro k hk
    have heq : (self.moveRequest id i j).badWordsTokenIds k = _ := moveEntry_apply hfree.2 k
    rw [heq] at hk
    split at hk
    · next hkj => exact ⟨id, hkj ▸ AList.lookup_insert _⟩
    · next hkj =>
      split at hk
      · contradiction
      · next hki => exact hkept k hki (h.badWords k hk)

/-- **A move is not seen.** -/
theorem seen_moveRequest (h : Layout self) (hid : self.reqIdToIndex.lookup id = some i)
    (hj : j ∈ holes self.reqIds) : (self.moveRequest id i j).seen = self.seen := by
  have hne : j ≠ i := fun heq => h.index.notMem_holes hid (heq ▸ hj)
  funext id'
  have hlookup := congrFun (lookup_moveRequest self id i j) id'
  rw [seen, seen]
  refine (congrArg (Option.map _) hlookup).trans ?_
  obtain rfl | hid' := eq_or_ne id' id
  · rw [Function.update_self, hid, Option.map_some, Option.map_some,
      rowData_moveRequest h hid hj hne, if_pos rfl]
  · rw [Function.update_of_ne hid']
    cases hk : self.reqIdToIndex.lookup id' with
    | none => rfl
    | some k =>
      have hki : k ≠ i := fun heq => hid' (h.index.inj (heq ▸ hk) hid)
      have hkj : k ≠ j := fun heq => h.not_lookup_of_hole hj id' (heq ▸ hk)
      rw [Option.map_some, Option.map_some, rowData_moveRequest h hid hj hki, if_neg hkj]

/-! ## The loop -/

/-- What every step of `condense` keeps. -/
structure Moves (I : InputBatch β τ → Prop) : Prop where
  builder : ∀ {b : InputBatch β τ} (builder : β), I b → I { b with batchUpdateBuilder := builder }
  move : ∀ {b : InputBatch β τ} {id : ReqId} {i j : ℕ}, Layout b →
    b.reqIdToIndex.lookup id = some i → j ∈ holes b.reqIds → I b → I (b.moveRequest id i j)
  trim : ∀ {b : InputBatch β τ} {n : ℕ}, Layout b →
    (∀ id i, b.reqIdToIndex.lookup id = some i → i < n) → I b → I (b.trim n)

theorem pending_moveRequest (id : ReqId) (i : ℕ)
    (hj : IsLeast (pending self.batchUpdateBuilder : Set ℕ) j) :
    pending (self.moveRequest id i j).batchUpdateBuilder =
      (pending self.batchUpdateBuilder).erase j :=
  (pending_movedAppend _ _).trans (popRemoved_some hj).2

omit [BatchUpdateBuilder β] [MultiGroupBlockTable τ] in
theorem largestNonEmpty_spec (l : List ℕ) : ∀ n : ℕ, largestNonEmpty l n ≤ n ∧
    (∀ i, largestNonEmpty l n < i → i ≤ n → i ∈ l) ∧
      (largestNonEmpty l n ∈ l → largestNonEmpty l n = 0)
  | 0 => ⟨le_rfl, fun i hi hi' => absurd hi' (Nat.not_le.mpr hi), fun _ => rfl⟩
  | n + 1 => by
    unfold largestNonEmpty
    split
    · next hmem =>
      obtain ⟨hle, habove, hzero⟩ := largestNonEmpty_spec l n
      refine ⟨hle.trans n.le_succ, fun i hi hi' => ?_, hzero⟩
      obtain rfl | hlt := eq_or_lt_of_le hi'
      · exact hmem
      · exact habove i hi (Nat.lt_succ_iff.mp hlt)
    · next hmem =>
      exact ⟨le_rfl, fun i hi hi' => absurd hi' (Nat.not_le.mpr hi), fun h => absurd h hmem⟩

omit [MultiGroupBlockTable τ] in
theorem numReqs_moveRequest [MultiGroupBlockTable τ]
    (hid : self.reqIdToIndex.lookup id = some i) :
    (self.moveRequest id i j).numReqs = self.numReqs := by
  have hmem : id ∈ self.reqIdToIndex.keys :=
    AList.mem_keys.mp (AList.lookup_isSome.mp (by rw [hid]; rfl))
  have hkeys : (self.moveRequest id i j).reqIdToIndex.keys = id :: self.reqIdToIndex.keys.erase id :=
    AList.keys_insert _
  rw [numReqs, hkeys, List.length_cons, List.length_erase_of_mem hmem, numReqs]
  have hpos := List.length_pos_of_mem hmem
  omega

/-- The batch and `last_req_index` between two rounds: of the rows up to the index the free ones are
in the list, and the rows behind it are free. -/
structure Sliding (I : InputBatch β τ → Prop) (N : ℕ) (C : Prop) (s : InputBatch β τ × ℕ) :
    Prop where
  layout : Layout s.1
  keeps : I s.1
  numReqs : s.1.numReqs = N
  changed : C → Changed s.1.batchUpdateBuilder
  last : s.2 < s.1.reqIds.length
  pending : BatchUpdateBuilder.pending s.1.batchUpdateBuilder ⊆ holes s.1.reqIds
  below : ∀ i ≤ s.2, i ∈ holes s.1.reqIds → i ∈ BatchUpdateBuilder.pending s.1.batchUpdateBuilder
  above : ∀ i, s.2 < i → i < s.1.reqIds.length → i ∈ holes s.1.reqIds

/-- The batch after the loop: the requests are in the first rows. -/
structure Slid (I : InputBatch β τ → Prop) (N : ℕ) (C : Prop) (b : InputBatch β τ) : Prop where
  layout : Layout b
  keeps : I b
  numReqs : b.numReqs = N
  changed : C → Changed b.batchUpdateBuilder
  free : ∀ i, i < b.reqIds.length → (i ∈ holes b.reqIds ↔ N ≤ i)

omit [BatchUpdateBuilder β] [MultiGroupBlockTable τ] in
/-- Where the free rows are the last ones, the number of requests is where they begin. -/
theorem Layout.numReqs_eq (h : Layout self) (hn : n ≤ self.reqIds.length)
    (hholes : ∀ i, i < self.reqIds.length → (i ∈ holes self.reqIds ↔ n ≤ i)) :
    self.numReqs = n := by
  have heq : holes self.reqIds = Finset.Ico n self.reqIds.length := by
    ext i
    rw [Finset.mem_Ico]
    constructor
    · intro hi
      exact ⟨(hholes i (lt_of_mem_holes hi)).mp hi, lt_of_mem_holes hi⟩
    · rintro ⟨hni, hi⟩
      exact (hholes i hi).mpr hni
  have hadd := h.numReqs_add
  rw [heq, Nat.card_Ico] at hadd
  omega

section Loop

variable {I : InputBatch β τ → Prop} {N : ℕ} {C : Prop} {s : InputBatch β τ × ℕ}

/-- Reading the removals does not change what the loop relies on. -/
theorem Sliding.read (h : Sliding I N C s) (hI : Moves I) {builder : β}
    (hpending : BatchUpdateBuilder.pending builder =
      BatchUpdateBuilder.pending s.1.batchUpdateBuilder)
    (hchanged : Changed builder ↔ Changed s.1.batchUpdateBuilder) :
    Sliding I N C ({ s.1 with batchUpdateBuilder := builder }, s.2) where
  layout := ⟨h.layout.autoregressive, h.layout.index, h.layout.outputs, h.layout.generators,
    h.layout.badWords⟩
  keeps := hI.builder builder h.keeps
  numReqs := h.numReqs
  changed := fun hC => hchanged.mpr (h.changed hC)
  last := h.last
  pending := by
    rw [hpending]
    exact h.pending
  below := by
    rw [hpending]
    exact h.below
  above := h.above

omit [MultiGroupBlockTable τ] in
/-- The loop ends where no row is free below one that is not. -/
theorem Sliding.slid (h : Sliding I N C s) (hn : n ≤ s.2 + 1)
    (hlive : ∀ i < n, i ∉ BatchUpdateBuilder.pending s.1.batchUpdateBuilder)
    (hfree : ∀ i, n ≤ i → i ≤ s.2 → i ∈ BatchUpdateBuilder.pending s.1.batchUpdateBuilder) :
    Slid I N C s.1 := by
  have hlast := h.last
  have hholes : ∀ i, i < s.1.reqIds.length → (i ∈ holes s.1.reqIds ↔ n ≤ i) := by
    intro i hi
    constructor
    · intro hmem
      by_contra hlt
      exact hlive i (by omega) (h.below i (by omega) hmem)
    · intro hni
      obtain hgt | hle := Nat.lt_or_ge s.2 i
      · exact h.above i hgt hi
      · exact h.pending (hfree i hni hle)
  have hN : N = n := h.numReqs.symm.trans (h.layout.numReqs_eq (by omega) hholes)
  exact ⟨h.layout, h.keeps, h.numReqs, h.changed, hN ▸ hholes⟩

/-- **One round moves the last request into the lowest free row.** -/
theorem Sliding.move (h : Sliding I N C s) (hI : Moves I)
    (hid : s.1.reqIdToIndex.lookup id = some i) (hi : i ≤ s.2)
    (hbehind : ∀ k, i < k → k ≤ s.2 → k ∈ BatchUpdateBuilder.pending s.1.batchUpdateBuilder)
    (hj : IsLeast (BatchUpdateBuilder.pending s.1.batchUpdateBuilder : Set ℕ) j) (hji : j < i) :
    Sliding I N C (s.1.moveRequest id i j, i - 1) := by
  have hlast := h.last
  have hjmem : j ∈ BatchUpdateBuilder.pending s.1.batchUpdateBuilder := hj.1
  have hhole : j ∈ holes s.1.reqIds := h.pending hjmem
  have hlt : i < s.1.reqIds.length := h.layout.index.lt hid
  have hlength : (s.1.moveRequest id i j).reqIds.length = s.1.reqIds.length := by
    simp [moveRequest]
  have hpending := pending_moveRequest id i hj
  have hholes : holes (s.1.moveRequest id i j).reqIds =
      insert i ((holes s.1.reqIds).erase j) := by
    have hset := holes_set_some (k := id) (lt_of_mem_holes hhole)
    rw [← hset]
    exact holes_set_none (by rwa [List.length_set])
  constructor
  case layout => exact h.layout.moveRequest hid hhole
  case keeps => exact hI.move h.layout hid hhole h.keeps
  case numReqs => exact (numReqs_moveRequest hid).trans h.numReqs
  case changed => exact fun _ => changed_movedAppend _ _
  case last =>
    rw [hlength]
    exact (Nat.sub_le _ _).trans_lt hlt
  case pending =>
    rw [hpending, hholes]
    exact (Finset.erase_subset_erase j h.pending).trans (Finset.subset_insert _ _)
  case below =>
    intro k hk hmem
    rw [hholes, Finset.mem_insert, Finset.mem_erase] at hmem
    rw [hpending, Finset.mem_erase]
    obtain rfl | ⟨hkj, hmem⟩ := hmem
    · omega
    · exact ⟨hkj, h.below k (by omega) hmem⟩
  case above =>
    intro k hk hk'
    rw [hlength] at hk'
    rw [hholes, Finset.mem_insert, Finset.mem_erase]
    obtain rfl | hki := eq_or_ne k i
    · exact Or.inl rfl
    · refine Or.inr ⟨by omega, ?_⟩
      obtain hgt | hle := Nat.lt_or_ge s.2 k
      · exact h.above k hgt hk'
      · exact h.pending (hbehind k (by omega) hle)

/-- **A round leaves the loop with the requests in front, or moves one of them.** -/
theorem Sliding.round (h : Sliding I N C s) (hI : Moves I) :
    (∃ t, condenseRound s = .ok (.leave t) ∧ Slid I N C t.1) ∨
      ∃ t, condenseRound s = .ok (.again t) ∧ Sliding I N C t ∧
        (BatchUpdateBuilder.pending t.1.batchUpdateBuilder).card <
          (BatchUpdateBuilder.pending s.1.batchUpdateBuilder).card := by
  obtain ⟨b, last⟩ := s
  have hread := h.read hI (pending_removed b.batchUpdateBuilder)
    (changed_removed b.batchUpdateBuilder)
  have hmem : ∀ i, i ∈ (removed b.batchUpdateBuilder).1 ↔
      i ∈ BatchUpdateBuilder.pending b.batchUpdateBuilder := by
    intro i
    rw [removed_eq, Finset.mem_sort]
  unfold condenseRound
  simp only
  split
  · next hnil =>
    -- no row is free
    refine Or.inl ⟨_, rfl, hread.slid (n := last + 1) le_rfl ?_ ?_⟩
    · intro i _
      rw [pending_removed, ← hmem, hnil]
      exact List.not_mem_nil
    · intro i hi hi'
      exact absurd hi' (Nat.not_le.mpr hi)
  · next hne =>
    obtain ⟨hle, hbehind, hzero⟩ :=
      largestNonEmpty_spec (removed b.batchUpdateBuilder).1 last
    set i := largestNonEmpty (removed b.batchUpdateBuilder).1 last
    obtain ⟨k, hk⟩ := List.exists_mem_of_ne_nil _ hne
    have hnonempty : (BatchUpdateBuilder.pending b.batchUpdateBuilder).Nonempty :=
      ⟨k, (hmem k).mp hk⟩
    set j := (BatchUpdateBuilder.pending b.batchUpdateBuilder).min' hnonempty
    have hleast : IsLeast (BatchUpdateBuilder.pending b.batchUpdateBuilder : Set ℕ) j :=
      Finset.isLeast_min' _ hnonempty
    have hpeek : (peekRemoved (removed b.batchUpdateBuilder).2).1 = some j :=
      peekRemoved_eq (by rwa [pending_removed])
    have hpeeked := hread.read hI (pending_peekRemoved (removed b.batchUpdateBuilder).2)
      (changed_peekRemoved (removed b.batchUpdateBuilder).2)
    have hpending : BatchUpdateBuilder.pending
        (peekRemoved (removed b.batchUpdateBuilder).2).2 =
          BatchUpdateBuilder.pending b.batchUpdateBuilder := by
      rw [pending_peekRemoved, pending_removed]
    have hbehind' : ∀ k, i < k → k ≤ last →
        k ∈ BatchUpdateBuilder.pending b.batchUpdateBuilder := fun k hik hk =>
      (hmem k).mp (hbehind k hik hk)
    simp only [hpeek]
    split
    · next hij =>
      -- nothing below the last request is free, or there is no request at all
      by_cases hi : i ∈ BatchUpdateBuilder.pending b.batchUpdateBuilder
      · have hi0 : i = 0 := hzero ((hmem i).mpr hi)
        refine Or.inl ⟨_, rfl, hpeeked.slid (n := 0) (Nat.zero_le _) (fun k hk => ?_) ?_⟩
        · exact absurd hk (Nat.not_lt_zero k)
        · intro k _ hk
          rw [hpending]
          obtain rfl | hpos := Nat.eq_zero_or_pos k
          · exact hi0 ▸ hi
          · exact hbehind' k (hi0 ▸ hpos) hk
      · refine Or.inl ⟨_, rfl, hpeeked.slid (n := i + 1) (Nat.succ_le_succ hle) ?_ ?_⟩
        · intro k hk hkmem
          rw [hpending] at hkmem
          have hjk : j ≤ k := hleast.2 hkmem
          obtain rfl : k = i := by omega
          exact hi hkmem
        · intro k hk hk'
          rw [hpending]
          exact hbehind' k hk hk'
    · next hij =>
      have hi : i ∉ BatchUpdateBuilder.pending b.batchUpdateBuilder := by
        intro hi
        have hi0 : i = 0 := hzero ((hmem i).mpr hi)
        omega
      have hlast := h.last
      have hlt : i < b.reqIds.length := by
        simp only at hlast
        omega
      obtain ⟨id, hid⟩ := Indexes.exists_of_notMem_holes hlt fun hhole =>
        hi (h.below i hle hhole)
      simp only [hid]
      have hlookup := (h.layout.index id i).mpr hid
      refine Or.inr ⟨_, rfl, hpeeked.move hI hlookup hle ?_ ?_ (Nat.lt_of_not_le hij), ?_⟩
      · rw [hpending]
        exact hbehind'
      · rwa [hpending]
      · rw [pending_moveRequest id i (by rwa [hpending]), hpending]
        exact Finset.card_erase_lt_of_mem hleast.1

end Loop

/-! ## `condense` -/

/-- The batch after `condense`. -/
structure Condensed (I : InputBatch β τ → Prop) (b b' : InputBatch β τ) : Prop where
  layout : Layout b'
  noHoles : holes b'.reqIds = ∅
  keeps : I b'
  changed : Changed b.batchUpdateBuilder → Changed b'.batchUpdateBuilder

omit [BatchUpdateBuilder β] [MultiGroupBlockTable τ] in
theorem Layout.trim (h : Layout self)
    (hend : ∀ i, n ≤ i → i < self.reqIds.length → i ∈ holes self.reqIds) :
    Layout (self.trim n) where
  autoregressive := h.autoregressive
  index := h.index.take hend
  outputs := by
    have houtputs := h.outputs
    simp only [InputBatch.trim, List.length_take, houtputs]
  generators := h.generators
  badWords := h.badWords

/-- The lists are cut off behind the last request. -/
theorem Slid.trim {I : InputBatch β τ → Prop} {N : ℕ} {C : Prop} (h : Slid I N C self)
    (hI : Moves I) : Layout (self.trim N) ∧ holes (self.trim N).reqIds = ∅ ∧ I (self.trim N) := by
  have hend : ∀ i, N ≤ i → i < self.reqIds.length → i ∈ holes self.reqIds := fun i hNi hi =>
    (h.free i hi).mpr hNi
  refine ⟨h.layout.trim hend, ?_, hI.trim h.layout (fun id i hid => ?_) h.keeps⟩
  · refine Finset.eq_empty_of_forall_notMem fun i hi => ?_
    have hlt := lt_of_mem_holes hi
    rw [mem_holes] at hi
    simp only [InputBatch.trim, List.length_take, List.getElem?_take] at hi hlt
    rw [if_pos (by omega), ← mem_holes, h.free i (by omega)] at hi
    omega
  · have hnot := h.layout.index.notMem_holes hid
    rw [h.free i (h.layout.index.lt hid)] at hnot
    omega

/-- **`condense` leaves a batch without gaps**, and whatever every move keeps. -/
theorem condense_returns (h : Layout self) (htracked : Tracked self)
    {I : InputBatch β τ → Prop} (hI : Moves I) (hs : I self) :
    ∃ self', self.condense = .ok self' ∧ Condensed I self self' := by
  have hread := changed_removed self.batchUpdateBuilder
  unfold condense
  simp only
  rw [if_neg (by simp [h.autoregressive])]
  have hmem : ∀ i, i ∈ (removed self.batchUpdateBuilder).1 ↔ i ∈ holes self.reqIds := by
    intro i
    rw [removed_eq, Finset.mem_sort, htracked]
  split
  · next hnil =>
    refine ⟨_, rfl, ⟨h.autoregressive, h.index, h.outputs, h.generators, h.badWords⟩, ?_,
      hI.builder _ hs, hread.mpr⟩
    refine Finset.eq_empty_of_forall_notMem fun i hi => ?_
    rw [← hmem, hnil] at hi
    exact List.not_mem_nil hi
  · next hne =>
    have hlength : (removed self.batchUpdateBuilder).1.length = (holes self.reqIds).card := by
      rw [removed_eq, Finset.length_sort, htracked]
    have hadd := h.numReqs_add
    have hlayout : Layout ({ self with
        batchUpdateBuilder := (removed self.batchUpdateBuilder).2 } : InputBatch β τ) :=
      ⟨h.autoregressive, h.index, h.outputs, h.generators, h.badWords⟩
    split
    · next hzero =>
      -- the batched states are empty
      have hall : holes self.reqIds = Finset.range self.reqIds.length := by
        refine Finset.eq_of_subset_of_card_le (Finset.filter_subset _ _) ?_
        rw [Finset.card_range]
        omega
      have hslid : Slid I 0 (Changed self.batchUpdateBuilder) ({ self with
          batchUpdateBuilder := (removed self.batchUpdateBuilder).2 } : InputBatch β τ) := by
        refine ⟨hlayout, hI.builder _ hs, hzero, hread.mpr, fun i hi => ?_⟩
        simp only at hi ⊢
        rw [hall, Finset.mem_range]
        exact ⟨fun _ => Nat.zero_le i, fun _ => hi⟩
      obtain ⟨htrim, hholes, hkeeps⟩ := hslid.trim hI
      exact ⟨_, rfl, htrim, hholes, hkeeps, hread.mpr⟩
    · next hpos =>
      have hsliding : Sliding I self.numReqs (Changed self.batchUpdateBuilder)
          (({ self with batchUpdateBuilder := (removed self.batchUpdateBuilder).2 } :
            InputBatch β τ),
            self.numReqs + (removed self.batchUpdateBuilder).1.length - 1) := by
        have hpending := (pending_removed self.batchUpdateBuilder).trans htracked
        refine ⟨hlayout, hI.builder _ hs, rfl, hread.mpr, ?_, hpending.subset, ?_, ?_⟩
        · simp only
          omega
        · intro i _ hi
          rw [hpending]
          exact hi
        · intro i hi hi'
          simp only at hi hi'
          omega
      have hfuel : (pending (removed self.batchUpdateBuilder).2).card <
          (removed self.batchUpdateBuilder).1.length + 1 := by
        rw [pending_removed, htracked, hlength]
        exact Nat.lt_succ_self _
      obtain ⟨t, ht, hslid⟩ : ∃ t, whileLoop BatchFault.assertion condenseRound
          ((removed self.batchUpdateBuilder).1.length + 1)
          ({ self with batchUpdateBuilder := (removed self.batchUpdateBuilder).2 },
            self.numReqs + (removed self.batchUpdateBuilder).1.length - 1) = .ok t ∧
            Slid I self.numReqs (Changed self.batchUpdateBuilder) t.1 :=
        whileLoop_returns (fun s => (pending s.1.batchUpdateBuilder).card)
          (fun s hs => hs.round hI) hfuel hsliding
      obtain ⟨htrim, hholes, hkeeps⟩ := hslid.trim hI
      rw [ht]
      exact ⟨_, rfl, htrim, hholes, hkeeps, hslid.changed⟩

/-- **The moves are not seen**, and touch nothing but the rows. -/
theorem moves_seen (b₀ : InputBatch β τ) : Moves fun b : InputBatch β τ =>
    b.seen = b₀.seen ∧ b.registry = b₀.registry ∧ b.toBatchConfig = b₀.toBatchConfig where
  builder := fun _ h => h
  move := fun hlayout hid hj ⟨hseen, hregistry, hconfig⟩ =>
    ⟨(seen_moveRequest hlayout hid hj).trans hseen, hregistry, hconfig⟩
  trim := by
    rintro b n hlayout hlive ⟨hseen, hregistry, hconfig⟩
    refine ⟨Eq.trans ?_ hseen, hregistry, hconfig⟩
    funext id
    rw [seen, seen]
    cases hid : b.reqIdToIndex.lookup id with
    | none => exact congrArg (Option.map _) hid
    | some i =>
      refine (congrArg (Option.map _) hid).trans ?_
      rw [Option.map_some, Option.map_some]
      congr 1
      ext1
      case outputTokenIds =>
        exact congrArg Option.join ((List.getElem?_take ..).trans (if_pos (hlive id i hid)))
      all_goals rfl

end InputBatch

end VllmAscend
