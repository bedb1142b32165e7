import VllmAscend.Core.Request
import VllmAscend.Machinery.Windows

/-!
# Worker/MmEmbeddings — the embeddings of multimodal items, window by window

    prompt     · · I I I I · · J J J ·          two items, at offsets 2 and 8
    windows    ├─────┤├─────────┤├───┤
    taken      I[0:2]  I[2:4] J[0:1]  J[1:3]

A prompt is computed in windows, and an item is encoded once.  Every window takes from the output of each item
the slice that lies in it.  Over all windows of a request the slices of an item are its whole output, each
place once and in order (`gatherMmEmbeddings_covers`).
-/

namespace VllmAscend

open Machinery

structure PlaceholderRange where
  offset : ℕ
  length : ℕ
  isEmbed : Option (List Bool)

/-- The fields of a request's state that are read. -/
structure MmRequestState where
  numComputedTokens : ℕ
  mmPositions : List PlaceholderRange
  mmHashes : Option (List String)

/-- `self.encoder_cache`: by the items of each request in version 0.10.1.1, by hash otherwise. -/
inductive EncoderCache (E : Type)
  | byItem (cache : Dict (AList fun _ : ℕ => List E))
  | byHash (cache : AList fun _ : String => List E)

variable {E G : Type}

/-- The output of the encoder for an item, asserted to be there. -/
def EncoderCache.output (reqId : ReqId) (mmHashes : Option (List String)) (i : ℕ) :
    EncoderCache E → Option (List E)
  | .byItem cache => do
    let items ← cache.lookup reqId
    items.lookup i
  | .byHash cache => do
    let hashes ← mmHashes
    let mmHash ← hashes[i]?
    cache.lookup mmHash

/-- `xs[start:stop]`, where neither is negative. -/
def sliceOf (xs : List E) (start stop : ℤ) : List E := (xs.take stop.toNat).drop start.toNat

/-- The loop over the items of a request, from item `i` on; `output` is the encoder's. -/
def gatherItems (gatherMmPlaceholders : List E → Option (List Bool) → G) (output : ℕ → Option (List E))
    (numComputedTokens numScheduledTokens : ℤ) : ℕ → List PlaceholderRange → Option (List G)
  | _, [] => some []
  | i, posInfo :: rest =>
    let startPos : ℤ := posInfo.offset
    let numEncoderTokens : ℤ := posInfo.length
    if startPos ≥ numComputedTokens + numScheduledTokens then some []
    else if startPos + numEncoderTokens ≤ numComputedTokens then
      gatherItems gatherMmPlaceholders output numComputedTokens numScheduledTokens (i + 1) rest
    else do
      let startIdx := max (numComputedTokens - startPos) 0
      let endIdx := min (numComputedTokens - startPos + numScheduledTokens) numEncoderTokens
      guard (startIdx < endIdx)
      let encoderOutput ← output i
      let item := gatherMmPlaceholders (sliceOf encoderOutput startIdx endIdx)
        (posInfo.isEmbed.map fun isEmbed => sliceOf isEmbed startIdx endIdx)
      let items ← gatherItems gatherMmPlaceholders output numComputedTokens numScheduledTokens (i + 1) rest
      return item :: items

/-- A step, as far as it is read: the scheduler's output and the runner's state. -/
structure MmStep (E : Type) where
  numScheduledTokens : Dict ℕ
  reqIds : List ReqId
  requests : Dict MmRequestState
  encoderCache : EncoderCache E

/-- `_gather_mm_embeddings` -/
def gatherMmEmbeddings (gatherMmPlaceholders : List E → Option (List Bool) → G) (step : MmStep E) :
    Option (List G) :=
  step.reqIds.foldlM (fun mmEmbeds reqId => do
    let numScheduledTokens ← step.numScheduledTokens.lookup reqId
    let reqState ← step.requests.lookup reqId
    let items ← gatherItems gatherMmPlaceholders (step.encoderCache.output reqId reqState.mmHashes)
      reqState.numComputedTokens numScheduledTokens 0 reqState.mmPositions
    return mmEmbeds ++ items) []

/-! ## The slices of a window -/

/-- A slice of the output of an item. -/
structure ItemSlice where
  item : ℕ
  start : ℕ
  stop : ℕ

/-- The places of a slice, in the output. -/
def ItemSlice.places (s : ItemSlice) : List ℕ := List.range' s.start (s.stop - s.start)

/-- Whether a range has a place in a window. -/
def PlaceholderRange.Meets (p : PlaceholderRange) (c n : ℕ) : Prop := p.offset < c + n ∧ c < p.offset + p.length

instance (p : PlaceholderRange) (c n : ℕ) : Decidable (p.Meets c n) := inferInstanceAs (Decidable (_ ∧ _))

/-- The slices that lie in a window, of the items from item `i` on. -/
def windowSlices (c n : ℕ) (i : ℕ) (positions : List PlaceholderRange) : List ItemSlice :=
  (positions.zipIdx i).filterMap fun p =>
    if p.1.Meets c n then some ⟨p.2, c - p.1.offset, min (c + n - p.1.offset) p.1.length⟩ else none

/-- Ranges that follow one another, none of them empty. -/
structure OrderedRanges (positions : List PlaceholderRange) : Prop where
  ordered : positions.Pairwise fun p q => p.offset + p.length ≤ q.offset
  pos : ∀ p ∈ positions, 1 ≤ p.length

/-- What is taken of an item. -/
def readSlice (gatherMmPlaceholders : List E → Option (List Bool) → G) (output : ℕ → List E)
    (isEmbed : ℕ → Option (List Bool)) (s : ItemSlice) : G :=
  gatherMmPlaceholders (((output s.item).take s.stop).drop s.start)
    ((isEmbed s.item).map fun isEmbed => (isEmbed.take s.stop).drop s.start)

section Window

variable {c n i : ℕ}

theorem windowSlices_cons (p : PlaceholderRange) (positions : List PlaceholderRange) :
    windowSlices c n i (p :: positions) =
      (if p.Meets c n then [⟨i, c - p.offset, min (c + n - p.offset) p.length⟩] else []) ++
        windowSlices c n (i + 1) positions := by
  rw [windowSlices, List.zipIdx_cons, List.filterMap_cons]
  split
  · rename_i hnone
    rw [if_neg fun hmeets => by simp [hmeets] at hnone]
    rfl
  · rename_i s hsome
    by_cases hmeets : p.Meets c n
    · rw [if_pos hmeets] at hsome ⊢
      cases hsome
      rfl
    · rw [if_neg hmeets] at hsome
      cases hsome

/-- Behind the window there is nothing to take. -/
theorem windowSlices_of_ge : ∀ {positions : List PlaceholderRange} {i : ℕ},
    (∀ p ∈ positions, c + n ≤ p.offset) → windowSlices c n i positions = []
  | [], _, _ => rfl
  | p :: positions, i, h => by
    have hp := h p (.head _)
    rw [windowSlices_cons, if_neg fun hmeets => Nat.not_lt.mpr hp hmeets.1,
      windowSlices_of_ge fun q hq => h q (.tail _ hq)]
    rfl

theorem mem_windowSlices {positions : List PlaceholderRange} {s : ItemSlice} :
    s ∈ windowSlices c n 0 positions ↔ ∃ p, positions[s.item]? = some p ∧ p.Meets c n ∧
      s = ⟨s.item, c - p.offset, min (c + n - p.offset) p.length⟩ := by
  rw [windowSlices, List.mem_filterMap]
  constructor
  · rintro ⟨⟨p, j⟩, hp, hs⟩
    rw [List.mem_zipIdx_iff_getElem?] at hp
    by_cases hmeets : p.Meets c n
    · rw [if_pos hmeets] at hs
      cases hs
      exact ⟨p, hp, hmeets, rfl⟩
    · rw [if_neg hmeets] at hs
      cases hs
  · rintro ⟨p, hp, hmeets, hs⟩
    exact ⟨(p, s.item), List.mem_zipIdx_iff_getElem?.mpr hp, by rw [if_pos hmeets, ← hs]⟩

/-- **The slices of a window are not empty.** -/
theorem start_lt_stop {positions : List PlaceholderRange} (h : OrderedRanges positions) (hn : 0 < n)
    {s : ItemSlice} (hs : s ∈ windowSlices c n 0 positions) : s.start < s.stop := by
  obtain ⟨p, hp, ⟨hbefore, hafter⟩, hs⟩ := mem_windowSlices.mp hs
  have hpos := h.pos p (List.mem_of_getElem? hp)
  rw [hs]
  dsimp only
  omega

/-- The slice of an item in a window is the cut of its range. -/
theorem places_windowSlice (p : PlaceholderRange) (item : ℕ) :
    (if p.Meets c n then [(⟨item, c - p.offset, min (c + n - p.offset) p.length⟩ : ItemSlice)]
      else []).flatMap ItemSlice.places = cut p.offset p.length c n := by
  split
  · exact List.append_nil _
  · rename_i hmeets
    have hnone : min (c + n - p.offset) p.length - (c - p.offset) = 0 := by
      rw [PlaceholderRange.Meets, not_and_or] at hmeets
      omega
    rw [cut, hnone]
    rfl

/-- **What a window takes of one item.** -/
theorem places_item : ∀ {positions : List PlaceholderRange} {i k : ℕ} {p : PlaceholderRange},
    positions[k]? = some p →
      ((windowSlices c n i positions).filter (·.item = i + k)).flatMap ItemSlice.places =
        cut p.offset p.length c n
  | q :: positions, i, 0, p, hp => by
    cases hp
    have hhead := places_windowSlice (c := c) (n := n) q i
    have htail : (windowSlices c n (i + 1) positions).filter (·.item = i + 0) = [] := by
      rw [List.filter_eq_nil_iff]
      intro s hs
      obtain ⟨⟨p', j⟩, hj, hsome⟩ := List.mem_filterMap.mp hs
      have hle := List.le_snd_of_mem_zipIdx hj
      by_cases hmeets : p'.Meets c n
      · rw [if_pos hmeets] at hsome
        cases hsome
        simp only [decide_eq_true_eq]
        omega
      · rw [if_neg hmeets] at hsome
        cases hsome
    rw [windowSlices_cons, List.filter_append, htail, List.append_nil, ← hhead]
    split <;> simp
  | q :: positions, i, k + 1, p, hp => by
    have htail := places_item (i := i + 1) (k := k) hp
    rw [windowSlices_cons, List.filter_append, List.flatMap_append]
    have hhead : (if q.Meets c n then
        [(⟨i, c - q.offset, min (c + n - q.offset) q.length⟩ : ItemSlice)] else []).filter
          (·.item = i + (k + 1)) = [] := by
      split <;> simp
    rw [hhead, ← htail, Nat.add_right_comm i 1 k]
    rfl

/-- The positions of a slice in the prompt. -/
def ItemSlice.positions (offset : ℕ → ℕ) (s : ItemSlice) : List ℕ := s.places.map (offset s.item + ·)

theorem positions_windowSlices {offset : ℕ → ℕ} : ∀ {positions : List PlaceholderRange} {i : ℕ},
    (∀ k p, positions[k]? = some p → offset (i + k) = p.offset) →
      (windowSlices c n i positions).flatMap (ItemSlice.positions offset) =
        positions.flatMap fun p => (cut p.offset p.length c n).map (p.offset + ·)
  | [], _, _ => rfl
  | p :: positions, i, h => by
    have htail := positions_windowSlices (i := i + 1) fun k q hq => by
      rw [Nat.add_right_comm]
      exact h (k + 1) q hq
    have hoffset := h 0 p rfl
    rw [windowSlices_cons, List.flatMap_append, htail, List.flatMap_cons, ← places_windowSlice p i]
    congr 1
    split
    · rw [List.flatMap_singleton, List.flatMap_singleton, ItemSlice.positions, ← hoffset]
      rfl
    · rfl

/-- **The gathered positions** are those of the window that lie in a range. -/
theorem positions_window {offset : ℕ → ℕ} {positions : List PlaceholderRange} (h : OrderedRanges positions)
    (hoffset : ∀ k p, positions[k]? = some p → offset k = p.offset) :
    (windowSlices c n 0 positions).flatMap (ItemSlice.positions offset) =
      (List.range' c n).filter fun t => decide (∃ p ∈ positions, p.offset ≤ t ∧ t < p.offset + p.length) := by
  rw [positions_windowSlices fun k p hp => by rw [Nat.zero_add]; exact hoffset k p hp]
  refine eq_of_increasing ?_ ((List.pairwise_lt_range' 1).filter _) fun t => ?_
  · rw [List.pairwise_flatMap]
    refine ⟨fun p _ => ?_, h.ordered.imp fun hpq x hx y hy => ?_⟩
    · rw [List.pairwise_map]
      exact (cut_pairwise c n).imp fun hlt => Nat.add_lt_add_left hlt _
    · obtain ⟨j, hj, rfl⟩ := List.mem_map.mp hx
      obtain ⟨j', hj', rfl⟩ := List.mem_map.mp hy
      rw [mem_cut] at hj hj'
      omega
  · rw [List.mem_flatMap, List.mem_filter, List.mem_range'_1, decide_eq_true_eq]
    constructor
    · rintro ⟨p, hp, ht⟩
      obtain ⟨j, hj, rfl⟩ := List.mem_map.mp ht
      rw [mem_cut] at hj
      exact ⟨hj.2, p, hp, Nat.le_add_right _ _, Nat.add_lt_add_left hj.1 _⟩
    · rintro ⟨hwindow, p, hp, hle, hlt⟩
      refine ⟨p, hp, List.mem_map.mpr ⟨t - p.offset, mem_cut.mpr ?_, Nat.add_sub_cancel' hle⟩⟩
      omega

end Window

/-! ## The code takes the slices of the window -/

theorem sliceOf_natCast (xs : List E) (start stop : ℕ) :
    sliceOf xs start stop = (xs.take stop).drop start := rfl

/-- **The loop over the items of a request takes the slices of the window**, and its assertion holds. -/
theorem gatherItems_eq (gatherMmPlaceholders : List E → Option (List Bool) → G)
    (output : ℕ → Option (List E)) (encoded : ℕ → List E) (isEmbed : ℕ → Option (List Bool)) {c n : ℕ}
    (hn : 0 < n) : ∀ {positions : List PlaceholderRange} {i : ℕ},
    positions.Pairwise (fun p q => p.offset + p.length ≤ q.offset) → (∀ p ∈ positions, 1 ≤ p.length) →
    (∀ k p, positions[k]? = some p → isEmbed (i + k) = p.isEmbed) →
    (∀ k p, positions[k]? = some p → p.Meets c n → output (i + k) = some (encoded (i + k))) →
      gatherItems gatherMmPlaceholders output c n i positions =
        some ((windowSlices c n i positions).map (readSlice gatherMmPlaceholders encoded isEmbed))
  | [], _, _, _, _, _ => rfl
  | p :: positions, i, hordered, hpos, hembed, houtput => by
    obtain ⟨hp, hordered⟩ := List.pairwise_cons.mp hordered
    have hlength := hpos p (.head _)
    have htail := gatherItems_eq gatherMmPlaceholders output encoded isEmbed hn (i := i + 1) hordered
      (fun q hq => hpos q (.tail _ hq))
      (fun k q hq => by rw [Nat.add_right_comm]; exact hembed (k + 1) q hq)
      (fun k q hq hmeets => by rw [Nat.add_right_comm]; exact houtput (k + 1) q hq hmeets)
    rw [gatherItems, windowSlices_cons]
    dsimp only
    split
    · rename_i hbreak
      have hge : c + n ≤ p.offset := by omega
      rw [if_neg fun hmeets => Nat.not_lt.mpr hge hmeets.1, windowSlices_of_ge fun q hq =>
        Nat.le_trans (Nat.le_trans hge (Nat.le_add_right _ _)) (hp q hq)]
      rfl
    · rename_i hbreak
      split
      · rename_i hcontinue
        rw [if_neg fun hmeets => Nat.not_le.mpr hmeets.2 (by omega), htail]
        rfl
      · rename_i hcontinue
        have hmeets : p.Meets c n := ⟨by omega, by omega⟩
        have hstart : max ((c : ℤ) - p.offset) 0 = (c - p.offset : ℕ) := by omega
        have hstop : min ((c : ℤ) - p.offset + n) p.length = (min (c + n - p.offset) p.length : ℕ) := by omega
        have hlt : ((c - p.offset : ℕ) : ℤ) < (min (c + n - p.offset) p.length : ℕ) := by omega
        have hencoded : output i = some (encoded i) := houtput 0 p rfl hmeets
        have hmask : isEmbed i = p.isEmbed := hembed 0 p rfl
        rw [if_pos hmeets, hstart, hstop, guard, if_pos hlt, hencoded, htail, List.map_append,
          List.map_singleton, readSlice, hmask]
        rfl

/-! ## The steps of a prefill -/

/-- **A step that can be served**: every request of the batch has tokens scheduled, its items follow one
another, and those of the window are encoded. -/
structure ServedStep (E : Type) extends MmStep E where
  state : ReqId → MmRequestState
  scheduled : ReqId → ℕ
  encoded : ReqId → ℕ → List E
  state_eq : ∀ id ∈ reqIds, requests.lookup id = some (state id)
  scheduled_eq : ∀ id ∈ reqIds, numScheduledTokens.lookup id = some (scheduled id)
  scheduled_pos : ∀ id ∈ reqIds, 0 < scheduled id
  ordered : ∀ id ∈ reqIds, OrderedRanges (state id).mmPositions
  cached : ∀ id ∈ reqIds, ∀ i p, (state id).mmPositions[i]? = some p →
    p.Meets (state id).numComputedTokens (scheduled id) →
      encoderCache.output id (state id).mmHashes i = some (encoded id i)

namespace ServedStep

/-- The slices of a request in a step. -/
def slices (step : ServedStep E) (id : ReqId) : List ItemSlice :=
  if id ∈ step.reqIds then
    windowSlices (step.state id).numComputedTokens (step.scheduled id) 0 (step.state id).mmPositions
  else []

/-- What is read of them. -/
def read (step : ServedStep E) (gatherMmPlaceholders : List E → Option (List Bool) → G) (id : ReqId) :
    ItemSlice → G :=
  readSlice gatherMmPlaceholders (step.encoded id)
    fun i => (step.state id).mmPositions[i]?.bind PlaceholderRange.isEmbed

/-- **A step gathers the slices of its requests**, one request after the other. -/
theorem gatherMmEmbeddings_eq (step : ServedStep E)
    (gatherMmPlaceholders : List E → Option (List Bool) → G) :
    gatherMmEmbeddings gatherMmPlaceholders step.toMmStep =
      some (step.reqIds.flatMap fun id => (step.slices id).map (step.read gatherMmPlaceholders id)) := by
  have key : ∀ (ids : List ReqId) (mmEmbeds : List G), (∀ id ∈ ids, id ∈ step.reqIds) →
      ids.foldlM (fun mmEmbeds reqId => do
          let numScheduledTokens ← step.numScheduledTokens.lookup reqId
          let reqState ← step.requests.lookup reqId
          let items ← gatherItems gatherMmPlaceholders (step.encoderCache.output reqId reqState.mmHashes)
            reqState.numComputedTokens numScheduledTokens 0 reqState.mmPositions
          return mmEmbeds ++ items) mmEmbeds =
        some (mmEmbeds ++
          ids.flatMap fun id => (step.slices id).map (step.read gatherMmPlaceholders id)) := by
    intro ids
    induction ids with
    | nil => exact fun mmEmbeds _ => congrArg some (List.append_nil _).symm
    | cons id ids ih =>
      intro mmEmbeds hids
      have hid := hids id (.head _)
      have hitems := gatherItems_eq gatherMmPlaceholders
        (step.encoderCache.output id (step.state id).mmHashes) (step.encoded id)
        (fun i => (step.state id).mmPositions[i]?.bind PlaceholderRange.isEmbed)
        (step.scheduled_pos id hid) (i := 0) (step.ordered id hid).ordered (step.ordered id hid).pos
        (fun k p hp => by simp [hp])
        (fun k p hp hmeets => by rw [Nat.zero_add]; exact step.cached id hid k p hp hmeets)
      have htail := ih (mmEmbeds ++ (step.slices id).map (step.read gatherMmPlaceholders id))
        fun id' hid' => hids id' (.tail _ hid')
      rw [List.append_assoc, slices, if_pos hid] at htail
      rw [List.foldlM_cons, step.scheduled_eq id hid, step.state_eq id hid]
      simp only [Option.bind_eq_bind, Option.bind_some, hitems]
      rw [List.flatMap_cons, slices, if_pos hid]
      exact htail
  exact key step.reqIds [] fun _ hid => hid

end ServedStep

/-- **The steps that compute a prompt**, up to a place of it: each step in which the request is scheduled goes
on where the last one stopped. -/
inductive Prefills (id : ReqId) (positions : List PlaceholderRange) : ℕ → List (ServedStep E) → ℕ → Prop
  | done (stop : ℕ) : Prefills id positions stop [] stop
  | idle {start stop : ℕ} {step : ServedStep E} {steps : List (ServedStep E)} (h : id ∉ step.reqIds) :
      Prefills id positions start steps stop → Prefills id positions start (step :: steps) stop
  | window {start stop : ℕ} {step : ServedStep E} {steps : List (ServedStep E)} (h : id ∈ step.reqIds)
      (hcomputed : (step.state id).numComputedTokens = start)
      (hpositions : (step.state id).mmPositions = positions) :
      Prefills id positions (start + step.scheduled id) steps stop →
        Prefills id positions start (step :: steps) stop

section Prefill

variable {id : ReqId} {positions : List PlaceholderRange}

/-- The slices of an item are the cuts of consecutive windows. -/
theorem Prefills.places_item {start stop : ℕ} {steps : List (ServedStep E)}
    (h : Prefills id positions start steps stop) {i : ℕ} {p : PlaceholderRange}
    (hp : positions[i]? = some p) :
    ∃ windows, Consecutive start windows stop ∧
      steps.flatMap (fun step => ((step.slices id).filter (·.item = i)).flatMap ItemSlice.places) =
        windows.flatMap fun w => cut p.offset p.length w.1 w.2 := by
  induction h with
  | done stop => exact ⟨[], .nil stop, rfl⟩
  | idle hid _ ih =>
    obtain ⟨windows, hwindows, hplaces⟩ := ih
    refine ⟨windows, hwindows, ?_⟩
    rw [List.flatMap_cons, hplaces, ServedStep.slices, if_neg hid]
    rfl
  | @window start stop step steps hid hcomputed hpositions _ ih =>
    obtain ⟨windows, hwindows, hplaces⟩ := ih
    refine ⟨(start, step.scheduled id) :: windows, .cons hwindows, ?_⟩
    have hitem := VllmAscend.places_item (c := start) (n := step.scheduled id) (i := 0) hp
    rw [Nat.zero_add] at hitem
    rw [List.flatMap_cons, hplaces, ServedStep.slices, if_pos hid, hcomputed, hpositions, hitem,
      List.flatMap_cons]

theorem Prefills.positions_eq {start stop : ℕ} {steps : List (ServedStep E)}
    (h : Prefills id positions start steps stop) :
    ∀ step ∈ steps, id ∈ step.reqIds → (step.state id).mmPositions = positions := by
  induction h with
  | done => exact fun _ hstep => absurd hstep List.not_mem_nil
  | idle hid _ ih =>
    rintro step (- | ⟨_, hstep⟩) hmem
    · exact absurd hmem hid
    · exact ih step hstep hmem
  | window _ _ hpositions _ ih =>
    rintro step (- | ⟨_, hstep⟩) hmem
    · exact hpositions
    · exact ih step hstep hmem

end Prefill

/-- **Every embedding is gathered once.**  Each step gathers, request by request, the slices of its window,
none of them empty, and their positions are those of the window that lie in a range.  Over the steps that
compute the whole prompt of a request, the slices of each of its items are the places of its output, each once
and in order. -/
theorem gatherMmEmbeddings_covers (steps : List (ServedStep E))
    (gatherMmPlaceholders : List E → Option (List Bool) → G) :
    (∀ step ∈ steps, gatherMmEmbeddings gatherMmPlaceholders step.toMmStep =
      some (step.reqIds.flatMap fun id => (step.slices id).map (step.read gatherMmPlaceholders id))) ∧
    (∀ step ∈ steps, ∀ id ∈ step.reqIds,
      (∀ s ∈ step.slices id, s.start < s.stop) ∧
      (step.slices id).flatMap (ItemSlice.positions fun i =>
          ((step.state id).mmPositions[i]?.map PlaceholderRange.offset).getD 0) =
        (List.range' (step.state id).numComputedTokens (step.scheduled id)).filter fun t =>
          decide (∃ p ∈ (step.state id).mmPositions, p.offset ≤ t ∧ t < p.offset + p.length)) ∧
    ∀ id positions numPromptTokens, Prefills id positions 0 steps numPromptTokens →
      (∀ p ∈ positions, p.offset + p.length ≤ numPromptTokens) →
        ∀ i p, positions[i]? = some p →
          steps.flatMap (fun step => ((step.slices id).filter (·.item = i)).flatMap ItemSlice.places) =
            List.range p.length := by
  refine ⟨fun step _ => step.gatherMmEmbeddings_eq gatherMmPlaceholders, fun step _ id hid => ?_,
    fun id positions total hprefills hinside i p hp => ?_⟩
  · rw [ServedStep.slices, if_pos hid]
    refine ⟨fun s hs => start_lt_stop (step.ordered id hid) (step.scheduled_pos id hid) hs, ?_⟩
    exact positions_window (step.ordered id hid) fun k p hp => by rw [hp]; rfl
  · obtain ⟨windows, hwindows, hplaces⟩ := hprefills.places_item hp
    rw [hplaces]
    exact flatMap_cut hwindows (Nat.zero_le _) (hinside p (List.mem_of_getElem? hp))

/-- A step with one request, that has an item of three places from position 1 on. -/
def oneItemStep (c n : ℕ) (hn : 0 < n) : ServedStep ℕ where
  numScheduledTokens := (∅ : Dict ℕ).insert "a" n
  reqIds := ["a"]
  requests := (∅ : Dict MmRequestState).insert "a" ⟨c, [⟨1, 3, none⟩], some ["image"]⟩
  encoderCache := .byHash ((∅ : AList fun _ : String => List ℕ).insert "image" [10, 11, 12])
  state := fun _ => ⟨c, [⟨1, 3, none⟩], some ["image"]⟩
  scheduled := fun _ => n
  encoded := fun _ _ => [10, 11, 12]
  state_eq := by
    rintro _ (- | ⟨_, ⟨⟩⟩)
    exact AList.lookup_insert _
  scheduled_eq := by
    rintro _ (- | ⟨_, ⟨⟩⟩)
    exact AList.lookup_insert _
  scheduled_pos := fun _ _ => hn
  ordered := fun _ _ => ⟨List.pairwise_singleton _ _, by simp⟩
  cached := by
    rintro id - (- | i) p hp -
    · rfl
    · cases hp

/-- Two windows of the prompt of one request; the first ends inside of the item. -/
theorem gatherMmEmbeddings_covers_twoWindows :
    gatherMmEmbeddings (fun xs _ => xs) (oneItemStep 0 2 (by decide)).toMmStep = some [[10]] ∧
      gatherMmEmbeddings (fun xs _ => xs) (oneItemStep 2 3 (by decide)).toMmStep = some [[11, 12]] ∧
      [oneItemStep 0 2 (by decide), oneItemStep 2 3 (by decide)].flatMap (fun step =>
        ((step.slices "a").filter (·.item = 0)).flatMap ItemSlice.places) = List.range 3 := by
  obtain ⟨hgather, -, hcovers⟩ := gatherMmEmbeddings_covers
    [oneItemStep 0 2 (by decide), oneItemStep 2 3 (by decide)] (fun xs _ => xs)
  have hprefills : Prefills "a" [⟨1, 3, none⟩] 0
      [oneItemStep 0 2 (by decide), oneItemStep 2 3 (by decide)] 5 :=
    .window (.head _) rfl rfl (.window (.head _) rfl rfl (.done 5))
  refine ⟨(hgather _ (.head _)).trans rfl, (hgather _ (.tail _ (.head _))).trans rfl, ?_⟩
  exact hcovers "a" [⟨1, 3, none⟩] 5 hprefills (by simp) 0 _ rfl

end VllmAscend
