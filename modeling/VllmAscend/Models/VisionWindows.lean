import VllmAscend.Machinery.Raster
import VllmAscend.Machinery.Rows

/-!
# Models/VisionWindows — the merged tokens of images, window by window

    patches         m·m of each merged token, one after the other         rot_pos_emb
    merged tokens   frame by frame, row by row                            grid after grid
    windows         ws × ws merged tokens of a frame, cut at the border   get_window_index

Three orders of `AscendQwen2_5_VisionTransformer`.  Windows list every merged token once, and the lengths
that the window attention gets are those of the windows that are not empty (`losslessWindows`); patches
move along with their positions, and the order is undone at the end (`forward_windowOrder`).
-/

namespace VllmAscend

open Machinery

/-- A row of `grid_thw`. -/
structure VisionGrid where
  t : ℕ
  h : ℕ
  w : ℕ

/-- `AscendQwen2_5_VisionTransformer`: the sizes of patches, merged tokens and windows. -/
structure VisionSizes where
  spatialMergeSize : ℕ
  windowSize : ℕ
  patchSize : ℕ
  fullattBlockIndexes : List ℕ

namespace VisionSizes

variable {α : Type} (v : VisionSizes)

/-- `self.spatial_merge_unit` -/
def spatialMergeUnit : ℕ := v.spatialMergeSize * v.spatialMergeSize

/-- `vit_merger_window_size`, in merged tokens. -/
def vitMergerWindowSize : ℕ := v.windowSize / v.spatialMergeSize / v.patchSize

/-! ## Positions of patches -/

/-- `hpos_ids` or `wpos_ids` of a frame: reshaped to merged tokens, permuted and flattened. -/
def mergedPosIds (g : VisionGrid) (posIds : ℕ → ℕ → ℕ) : Option (List ℕ) :=
  let h := g.h / v.spatialMergeSize
  let w := g.w / v.spatialMergeSize
  if h * v.spatialMergeSize * (w * v.spatialMergeSize) = g.h * g.w then
    some (windows v.spatialMergeSize h w posIds).flatten
  else none

/-- `pos_ids` of a grid. -/
def gridPosIds (g : VisionGrid) : Option (List (ℕ × ℕ)) := do
  let hposIds ← v.mergedPosIds g fun y _ => y
  let wposIds ← v.mergedPosIds g fun _ x => x
  return (List.replicate g.t (hposIds.zip wposIds)).flatten

/-- `pos_ids` -/
def posIds (grids : List VisionGrid) : Option (List (ℕ × ℕ)) :=
  if grids = [] then none else (grids.mapM v.gridPosIds).map List.flatten

/-- `rot_pos_emb`; `rotary_pos_emb` gives the rows of its table. -/
def rotPosEmb {Θ : Type} (rotaryPosEmb : ℕ → List (List Θ)) (grids : List VisionGrid) :
    Option (List (List Θ)) := do
  let posIds ← v.posIds grids
  let maxGridSize ← (grids.flatMap fun g => [g.h, g.w]).max?
  let rotaryPosEmbFull := rotaryPosEmb maxGridSize
  posIds.mapM fun pos => do
    let hpos ← rotaryPosEmbFull[pos.1]?
    let wpos ← rotaryPosEmbFull[pos.2]?
    return hpos ++ wpos

/-! ## Windows -/

/-- `index_padded` of a frame: `arange`, reshaped, and `-100` around it. -/
def indexPadded (llmGridH llmGridW f y x : ℕ) : ℤ :=
  if y < llmGridH ∧ x < llmGridW then ((f * llmGridH + y) * llmGridW + x : ℕ) else -100

/-- `index_padded` of a grid, reshaped to its windows. -/
def paddedWindows (g : VisionGrid) : List (List ℤ) :=
  let llmGridH := g.h / v.spatialMergeSize
  let llmGridW := g.w / v.spatialMergeSize
  let padH := v.vitMergerWindowSize - llmGridH % v.vitMergerWindowSize
  let padW := v.vitMergerWindowSize - llmGridW % v.vitMergerWindowSize
  let numWindowsH := (llmGridH + padH) / v.vitMergerWindowSize
  let numWindowsW := (llmGridW + padW) / v.vitMergerWindowSize
  (List.range g.t).flatMap fun f =>
    windows v.vitMergerWindowSize numWindowsH numWindowsW (indexPadded llmGridH llmGridW f)

/-- The variables of the loop of `get_window_index`. -/
structure WindowState where
  windowIndex : List (List ℤ)
  cuWindowSeqlens : List ℤ
  windowIndexId : ℤ

/-- A pass of the loop. -/
def windowStep (state : WindowState) (g : VisionGrid) : WindowState :=
  let indexPadded := v.paddedWindows g
  let seqlens := indexPadded.map fun cells => ((cells.filter (· ≠ -100)).length : ℤ)
  let indexNew := indexPadded.flatten.filter (· ≠ -100)
  let cuSeqlensTmp := (cumsum 0 seqlens).map fun c =>
    c * v.spatialMergeUnit + state.cuWindowSeqlens.getLastD 0
  { windowIndex := state.windowIndex ++ [indexNew.map (· + state.windowIndexId)]
    cuWindowSeqlens := state.cuWindowSeqlens ++ cuSeqlensTmp
    windowIndexId := state.windowIndexId +
      (g.t * (g.h / v.spatialMergeSize) * (g.w / v.spatialMergeSize) : ℕ) }

/-- `get_window_index`; concatenating nothing fails, and so does a division by zero. -/
def getWindowIndex (grids : List VisionGrid) : Option (List ℤ × List ℤ) :=
  let state := grids.foldl v.windowStep ⟨[], [0], 0⟩
  if state.windowIndex = [] ∨ v.vitMergerWindowSize = 0 then none else some (state.windowIndex.flatten, state.cuWindowSeqlens)

/-- `x.reshape(seq_len // unit, unit, -1)[window_index, :, :].reshape(seq_len, -1)`, of that many rows, and
not of none, which leave `-1` open. -/
def byWindow (seqLen : ℕ) (windowIndex : List ℤ) (xs : List α) : Option (List α) :=
  if xs.length = seqLen ∧ 0 < seqLen ∧ seqLen % v.spatialMergeUnit = 0 then
    (gather (rows v.spatialMergeUnit xs) windowIndex).map List.flatten
  else none

end VisionSizes

/-- The parts of the transformer that work on rows. -/
structure VisionLayers (X H Θ C O : Type) where
  patchEmbed : List X → List H
  rotaryPosEmb : ℕ → List (List Θ)
  calCosSin : List (List Θ) → C × C
  blocks : List (List H → List ℤ → C → C → List H)
  merger : List H → List O

namespace VisionSizes

variable {X H Θ C O : Type} (v : VisionSizes)

/-- The transformer blocks, those with full attention on whole frames. -/
def runBlocks (layers : VisionLayers X H Θ C O) (x : List H) (cuSeqlens cuWindowSeqlens : List ℤ)
    (cos sin : C) : List H :=
  layers.blocks.zipIdx.foldl (fun x blk =>
    blk.1 x (if blk.2 ∈ v.fullattBlockIndexes then cuSeqlens else cuWindowSeqlens) cos sin) x

/-- `forward` -/
def forward (layers : VisionLayers X H Θ C O) (x : List X) (grids : List VisionGrid) : Option (List O) := do
  let cuSeqlens := repeatInterleave (grids.map fun g => ((g.h * g.w : ℕ) : ℤ)) (grids.map VisionGrid.t)
  let x := layers.patchEmbed x
  let rotaryPosEmb ← v.rotPosEmb layers.rotaryPosEmb grids
  let (windowIndex, cuWindowSeqlens) ← v.getWindowIndex grids
  let cuWindowSeqlens := differences (uniqueConsecutive cuWindowSeqlens)
  let seqLen := x.length
  let x ← v.byWindow seqLen windowIndex x
  let rotaryPosEmb ← v.byWindow seqLen windowIndex rotaryPosEmb
  let (cos, sin) := layers.calCosSin rotaryPosEmb
  let x := v.runBlocks layers x cuSeqlens cuWindowSeqlens cos sin
  let x := layers.merger x
  let reverseIndices := argsort windowIndex
  gather x reverseIndices

end VisionSizes

/-! ## The windows of a grid -/

namespace VisionSizes

variable {v : VisionSizes} {g : VisionGrid}

variable (v) in
/-- How many merged tokens a grid has. -/
def mergedTokens (g : VisionGrid) : ℕ := g.t * (g.h / v.spatialMergeSize) * (g.w / v.spatialMergeSize)

theorem indexPadded_inside {h w f y x : ℕ} (hy : y < h) (hx : x < w) :
    indexPadded h w f y x = ((f * h + y) * w + x : ℕ) := if_pos ⟨hy, hx⟩

theorem indexPadded_ne {h w f : ℕ} : ∀ y < h, ∀ x < w, decide (indexPadded h w f y x ≠ -100) = true :=
  fun y hy x hx => by
    rw [indexPadded_inside hy hx, decide_eq_true_iff]
    omega

theorem indexPadded_outside {h w f : ℕ} : ∀ y x, h ≤ y ∨ w ≤ x →
    decide (indexPadded h w f y x ≠ -100) = false := fun y x hout => by
  rw [indexPadded, if_neg (by omega)]
  rfl

/-- The padded size is a whole number of windows. -/
theorem padded_eq {ws : ℕ} (hws : 0 < ws) (n : ℕ) :
    (n + (ws - n % ws)) / ws * ws = n + (ws - n % ws) := by
  have hlt := Nat.mod_lt n hws
  have hdiv := Nat.div_add_mod n ws
  have hpadded : n + (ws - n % ws) = ws * (n / ws + 1) := by
    rw [Nat.mul_succ]
    omega
  rw [hpadded, Nat.mul_div_cancel_left _ hws, Nat.mul_comm]

/-- The tokens of a frame, row by row, and the frames one after the other. -/
theorem raster_frames (t h w : ℕ) :
    ((List.range t).flatMap fun f => raster h w fun y x => (((f * h + y) * w + x : ℕ) : ℤ)) =
      arange (t * h * w) := by
  rw [arange, Machinery.segment, range_mul (t * h) w, range_mul t h, List.flatMap_assoc, List.map_flatMap]
  refine List.flatMap_congr fun f _ => ?_
  rw [List.flatMap_map, List.map_flatMap, raster]
  refine List.flatMap_congr fun y _ => ?_
  rw [List.map_map]
  exact List.map_congr_left fun x _ => (zero_add _).symm

/-- **A grid lists its tokens once**, window by window. -/
theorem paddedWindows_perm (hws : 0 < v.vitMergerWindowSize) (g : VisionGrid) :
    ((v.paddedWindows g).flatten.filter (· ≠ -100)).Perm (arange (v.mergedTokens g)) := by
  rw [mergedTokens, ← raster_frames, paddedWindows, ← List.flatMap_id, List.flatMap_assoc,
    List.filter_flatMap]
  refine List.Perm.flatMap_left _ fun f _ => ?_
  rw [List.flatMap_id]
  refine ((windows_perm _ _ _ _).filter _).trans (List.Perm.of_eq ?_)
  rw [padded_eq hws, padded_eq hws, filter_raster _ _ indexPadded_ne indexPadded_outside]
  refine List.flatMap_congr fun y hy => List.map_congr_left fun x hx => ?_
  exact indexPadded_inside (List.mem_range.mp hy) (List.mem_range.mp hx)

/-- **What a window consists of**: the tokens of a frame with equal quotients. -/
theorem mem_paddedWindows {cells : List ℤ} (hcells : cells ∈ v.paddedWindows g) :
    ∃ f < g.t, ∃ a b : ℕ, ∀ c : ℤ, c ∈ cells.filter (· ≠ -100) ↔
      ∃ i < g.h / v.spatialMergeSize, ∃ j < g.w / v.spatialMergeSize,
        i / v.vitMergerWindowSize = a ∧ j / v.vitMergerWindowSize = b ∧ 0 < v.vitMergerWindowSize ∧
          c = ((f * (g.h / v.spatialMergeSize) + i) * (g.w / v.spatialMergeSize) + j : ℕ) := by
  obtain ⟨f, hf, hcells⟩ := List.mem_flatMap.mp hcells
  obtain ⟨a, _, hcells⟩ := List.mem_flatMap.mp hcells
  obtain ⟨b, _, rfl⟩ := List.mem_map.mp hcells
  refine ⟨f, List.mem_range.mp hf, a, b, fun c => ?_⟩
  rw [mem_filter_windowCells indexPadded_ne indexPadded_outside]
  refine exists_congr fun i => and_congr_right fun hi => exists_congr fun j => and_congr_right fun hj => ?_
  rw [indexPadded_inside hi hj]

/-! ## The windows of all grids -/

variable (v) in
/-- The windows of grids, each the list of its merged tokens, with `o` tokens before them. -/
def tokenWindows : ℕ → List VisionGrid → List (List ℤ)
  | _, [] => []
  | o, g :: gs => (v.paddedWindows g).map (fun cells => (cells.filter (· ≠ -100)).map (· + (o : ℤ))) ++
      tokenWindows (o + v.mergedTokens g) gs

variable (v) in
/-- How many patches each window has. -/
def patchCounts (tokens : List (List ℤ)) : List ℤ := tokens.map fun ts => (ts.length : ℤ) * v.spatialMergeUnit

theorem getLast?_append_cumsum {xs : List ℤ} {s : ℤ} (h : xs.getLast? = some s) (ns : List ℤ) :
    (xs ++ cumsum s ns).getLast? = some (s + ns.sum) := by
  rw [← getLast?_cumsum s ns]
  cases ns with
  | nil => rw [cumsum, List.append_nil, h, List.getLast?_singleton]
  | cons n ns => rw [cumsum, List.getLast?_append_cons, List.getLast?_cons_cons]

/-- **The loop of `get_window_index`** appends the windows of each grid and their running sums. -/
theorem foldl_windowStep : ∀ (gs : List VisionGrid) (o : ℕ) (state : WindowState) (s : ℤ),
    state.windowIndexId = o → state.cuWindowSeqlens.getLast? = some s →
    (gs.foldl v.windowStep state).windowIndex.flatten =
        state.windowIndex.flatten ++ (v.tokenWindows o gs).flatten ∧
      (gs.foldl v.windowStep state).cuWindowSeqlens =
        state.cuWindowSeqlens ++ cumsum s (v.patchCounts (v.tokenWindows o gs)) ∧
      (gs.foldl v.windowStep state).windowIndex.length = state.windowIndex.length + gs.length
  | [], _, state, s, _, _ => by
    refine ⟨?_, ?_, rfl⟩
    · rw [tokenWindows, List.flatten_nil, List.append_nil, List.foldl_nil]
    · rw [tokenWindows, patchCounts, List.map_nil, cumsum, List.append_nil, List.foldl_nil]
  | g :: gs, o, state, s, hid, hlast => by
    set heads := (v.paddedWindows g).map fun cells => (cells.filter (· ≠ -100)).map (· + (o : ℤ)) with hheads
    have hindex : (v.windowStep state g).windowIndex = state.windowIndex ++ [heads.flatten] := by
      rw [windowStep, hid, List.filter_flatten, List.map_flatten, List.map_map]
      rfl
    have hcu : (v.windowStep state g).cuWindowSeqlens =
        state.cuWindowSeqlens ++ cumsum s (v.patchCounts heads) := by
      have hgetLast : state.cuWindowSeqlens.getLastD 0 = s := by
        rw [List.getLastD_eq_getLast?, hlast, Option.getD_some]
      rw [windowStep, hgetLast, cumsum_mul, zero_mul, zero_add, List.map_map, patchCounts, hheads,
        List.map_map]
      simp only [Function.comp_def, List.length_map]
    have hnext : (v.windowStep state g).windowIndexId = ((o + v.mergedTokens g : ℕ) : ℤ) := by
      rw [windowStep, hid, Nat.cast_add]
      rfl
    obtain ⟨hflat, hsums, hlength⟩ := foldl_windowStep gs _ (v.windowStep state g) _ hnext
      (hcu ▸ getLast?_append_cumsum hlast _)
    rw [List.foldl_cons, hflat, hsums, hlength, hindex, hcu, tokenWindows, ← hheads]
    refine ⟨?_, ?_, ?_⟩
    · rw [List.flatten_append, List.flatten_append, List.flatten_singleton, List.append_assoc]
    · rw [patchCounts, patchCounts, patchCounts, List.map_append, cumsum_append, List.append_assoc]
    · rw [List.length_append, List.length_singleton, List.length_cons, Nat.add_assoc, Nat.add_comm 1]

/-- **What `get_window_index` returns.** -/
theorem getWindowIndex_eq_some (hws : 0 < v.vitMergerWindowSize) {grids : List VisionGrid} (hne : grids ≠ []) :
    v.getWindowIndex grids = some ((v.tokenWindows 0 grids).flatten,
      0 :: cumsum 0 (v.patchCounts (v.tokenWindows 0 grids))) := by
  obtain ⟨hflat, hsums, hlength⟩ := foldl_windowStep (v := v) grids 0 ⟨[], [0], 0⟩ 0 rfl rfl
  have hindex : ¬((grids.foldl v.windowStep ⟨[], [0], 0⟩).windowIndex = [] ∨ v.vitMergerWindowSize = 0) := by
    rintro (hnil | hzero)
    · have hzero : 0 = 0 + grids.length := (congrArg List.length hnil).symm.trans hlength
      exact hne (List.eq_nil_of_length_eq_zero (by omega))
    · exact hws.ne' hzero
  rw [getWindowIndex, if_neg hindex, hflat, hsums]
  rfl

variable (v) in
/-- The merged token in row `i` and column `j` of frame `f` of `grids[n]`. -/
def mergedToken (grids : List VisionGrid) (n : ℕ) (g : VisionGrid) (f i j : ℕ) : ℕ :=
  ((grids.take n).map v.mergedTokens).sum +
    ((f * (g.h / v.spatialMergeSize) + i) * (g.w / v.spatialMergeSize) + j)

variable (v) in
/-- **The merged tokens of a window**: those of a frame with equal quotients of row and column. -/
def IsWindow (grids : List VisionGrid) (tokens : List ℤ) : Prop :=
  ∃ n g f a b, grids[n]? = some g ∧ f < g.t ∧ ∀ c : ℤ, c ∈ tokens ↔
    ∃ i < g.h / v.spatialMergeSize, ∃ j < g.w / v.spatialMergeSize,
      i / v.vitMergerWindowSize = a ∧ j / v.vitMergerWindowSize = b ∧ c = v.mergedToken grids n g f i j

theorem mem_tokenWindows (hws : 0 < v.vitMergerWindowSize) {tokens : List ℤ} :
    ∀ (gs : List VisionGrid) (o : ℕ), tokens ∈ v.tokenWindows o gs →
      ∃ n g f a b, gs[n]? = some g ∧ f < g.t ∧ ∀ c : ℤ, c ∈ tokens ↔
        ∃ i < g.h / v.spatialMergeSize, ∃ j < g.w / v.spatialMergeSize,
          i / v.vitMergerWindowSize = a ∧ j / v.vitMergerWindowSize = b ∧
            c = ((o + v.mergedToken gs n g f i j : ℕ) : ℤ)
  | [], _, h => absurd h List.not_mem_nil
  | g :: gs, o, h => by
    rw [tokenWindows, List.mem_append, List.mem_map] at h
    obtain ⟨cells, hcells, rfl⟩ | h := h
    · obtain ⟨f, hf, a, b, hmem⟩ := mem_paddedWindows hcells
      refine ⟨0, g, f, a, b, rfl, hf, fun c => ?_⟩
      rw [List.mem_map]
      constructor
      · rintro ⟨c, hc, rfl⟩
        obtain ⟨i, hi, j, hj, ha, hb, _, rfl⟩ := (hmem c).mp hc
        refine ⟨i, hi, j, hj, ha, hb, ?_⟩
        rw [mergedToken, List.take_zero, List.map_nil, List.sum_nil, Nat.zero_add, Nat.cast_add o, add_comm]
      · rintro ⟨i, hi, j, hj, ha, hb, rfl⟩
        refine ⟨_, (hmem _).mpr ⟨i, hi, j, hj, ha, hb, hws, rfl⟩, ?_⟩
        rw [mergedToken, List.take_zero, List.map_nil, List.sum_nil, Nat.zero_add, Nat.cast_add o, add_comm]
    · obtain ⟨n, g', f, a, b, hget, hf, hmem⟩ := mem_tokenWindows hws gs _ h
      refine ⟨n + 1, g', f, a, b, hget, hf, fun c => (hmem c).trans ?_⟩
      simp only [mergedToken, List.take_succ_cons, List.map_cons, List.sum_cons, Nat.add_assoc]

/-- **The windows list every merged token once.** -/
theorem tokenWindows_perm (hws : 0 < v.vitMergerWindowSize) : ∀ (gs : List VisionGrid) (o : ℕ),
    (v.tokenWindows o gs).flatten.Perm (Machinery.segment o (gs.map v.mergedTokens).sum)
  | [], _ => List.Perm.refl _
  | g :: gs, o => by
    have hfirst : ((v.paddedWindows g).map fun cells =>
        (cells.filter (· ≠ -100)).map (· + (o : ℤ))).flatten.Perm (Machinery.segment o (v.mergedTokens g)) := by
      have hgrid := (paddedWindows_perm hws g).map (· + (o : ℤ))
      rw [List.filter_flatten, List.map_flatten, List.map_map] at hgrid
      refine hgrid.trans (List.Perm.of_eq ?_)
      rw [arange, Machinery.segment, Machinery.segment, List.map_map]
      refine List.map_congr_left fun k _ => ?_
      rw [Function.comp_apply, zero_add, add_comm]
    rw [tokenWindows, List.flatten_append, List.map_cons, List.sum_cons, segment_add]
    rw [← Nat.cast_add]
    exact hfirst.append (tokenWindows_perm hws gs _)

/-! ## Patches in the order of windows -/

variable (v) in
/-- The patches of merged tokens. -/
def patchOrder (tokens : List ℤ) : List ℕ :=
  tokens.flatMap fun k => (List.range v.spatialMergeUnit).map (k.toNat * v.spatialMergeUnit + ·)

theorem length_patchOrder (tokens : List ℤ) :
    (v.patchOrder tokens).length = tokens.length * v.spatialMergeUnit := by
  rw [patchOrder, List.length_flatMap]
  simp only [List.length_map, List.length_range, List.map_const', List.sum_replicate_nat]

theorem patchOrder_flatten (tokens : List (List ℤ)) :
    v.patchOrder tokens.flatten = tokens.flatMap v.patchOrder := by
  rw [← List.flatMap_id, patchOrder, List.flatMap_assoc]
  rfl

variable (v) in
/-- **A lossless partition**: windows list the merged tokens once, the lengths of the windows are positive
and make up the patches, each is that of one window, and the sort of the order undoes it. -/
structure LosslessWindows (grids : List VisionGrid) (windowIndex cuWindowSeqlens : List ℤ) : Prop where
  perm : windowIndex.Perm (arange (grids.map v.mergedTokens).sum)
  pos : ∀ n ∈ differences (uniqueConsecutive cuWindowSeqlens), 0 < n
  sum : (differences (uniqueConsecutive cuWindowSeqlens)).sum = ((grids.map fun g => g.t * g.h * g.w).sum : ℕ)
  segments : ∀ patches ∈ splitSizes ((differences (uniqueConsecutive cuWindowSeqlens)).map Int.toNat)
    (v.patchOrder windowIndex), ∃ tokens, v.IsWindow grids tokens ∧ patches = v.patchOrder tokens
  restored : ∀ {α : Type} (xs : List α), xs.length = (grids.map v.mergedTokens).sum →
    ∃ ys, gather xs windowIndex = some ys ∧ gather ys (argsort windowIndex) = some xs

variable (v) in
/-- Grids of whole merged tokens, and windows that are not empty. -/
structure TakesGrids (grids : List VisionGrid) : Prop where
  ne_nil : grids ≠ []
  merge_pos : 0 < v.spatialMergeSize
  window_pos : 0 < v.vitMergerWindowSize
  height : ∀ g ∈ grids, v.spatialMergeSize ∣ g.h
  width : ∀ g ∈ grids, v.spatialMergeSize ∣ g.w

variable {grids : List VisionGrid}

/-- How many patches the merged tokens of grids have. -/
theorem TakesGrids.sum_mergedTokens (h : v.TakesGrids grids) :
    (grids.map v.mergedTokens).sum * v.spatialMergeUnit = (grids.map fun g => g.t * g.h * g.w).sum := by
  rw [← List.sum_map_mul_right]
  refine congrArg List.sum (List.map_congr_left fun g hg => ?_)
  calc v.mergedTokens g * v.spatialMergeUnit
      = g.t * (g.h / v.spatialMergeSize * v.spatialMergeSize) *
          (g.w / v.spatialMergeSize * v.spatialMergeSize) := by
        rw [mergedTokens, spatialMergeUnit]
        ring
    _ = g.t * g.h * g.w := by rw [Nat.div_mul_cancel (h.height g hg), Nat.div_mul_cancel (h.width g hg)]

theorem TakesGrids.unit_pos (h : v.TakesGrids grids) : 0 < v.spatialMergeUnit :=
  Nat.mul_pos h.merge_pos h.merge_pos

/-- **The lengths of windows**: the windows that are not empty. -/
theorem TakesGrids.differences_patchCounts (h : v.TakesGrids grids) (tokens : List (List ℤ)) :
    differences (uniqueConsecutive (0 :: cumsum 0 (v.patchCounts tokens))) =
      v.patchCounts (tokens.filter (· ≠ [])) := by
  have hzero : ∀ ts : List ℤ, decide ((ts.length : ℤ) * v.spatialMergeUnit ≠ 0) = decide (ts ≠ []) := by
    intro ts
    refine decide_eq_decide.mpr (not_congr ?_)
    rw [mul_eq_zero, Nat.cast_eq_zero, Nat.cast_eq_zero, or_iff_left h.unit_pos.ne', List.length_eq_zero_iff]
  rw [differences_uniqueConsecutive, patchCounts, patchCounts, List.filter_map]
  simp only [Function.comp_def, hzero]

/-- **Window order is a lossless partition.** -/
theorem TakesGrids.losslessWindows (h : v.TakesGrids grids) :
    v.LosslessWindows grids (v.tokenWindows 0 grids).flatten
      (0 :: cumsum 0 (v.patchCounts (v.tokenWindows 0 grids))) := by
  have hperm := tokenWindows_perm h.window_pos grids 0
  have hfull : ((v.tokenWindows 0 grids).filter (· ≠ [])).flatten = (v.tokenWindows 0 grids).flatten :=
    List.flatten_filter_ne_nil
  have hcounts : ∀ tokens : List (List ℤ),
      v.patchCounts tokens = tokens.map fun ts => ((v.patchOrder ts).length : ℤ) := fun tokens =>
    List.map_congr_left fun ts _ => by rw [length_patchOrder, Nat.cast_mul]
  refine ⟨hperm, fun n hn => ?_, ?_, fun patches hpatches => ?_, fun xs hxs => ?_⟩
  · rw [h.differences_patchCounts] at hn
    obtain ⟨ts, hts, rfl⟩ := List.mem_map.mp hn
    have hne := of_decide_eq_true (List.mem_filter.mp hts).2
    exact mul_pos (Nat.cast_pos.mpr (List.length_pos_iff.mpr hne)) (Nat.cast_pos.mpr h.unit_pos)
  · rw [h.differences_patchCounts, patchCounts, List.sum_map_mul_right, ← h.sum_mergedTokens, Nat.cast_mul]
    have hlength := hperm.length_eq
    rw [length_segment, ← hfull, List.length_flatten] at hlength
    rw [← hlength, Nat.cast_list_sum, List.map_map]
    rfl
  · rw [h.differences_patchCounts, hcounts, List.map_map, ← hfull] at hpatches
    have hsegments := splitSizes_flatMap v.patchOrder ((v.tokenWindows 0 grids).filter (· ≠ []))
    rw [← patchOrder_flatten] at hsegments
    simp only [Function.comp_def, Int.toNat_natCast, hsegments] at hpatches
    obtain ⟨ts, hts, rfl⟩ := List.mem_map.mp hpatches
    obtain ⟨n, g, f, a, b, hget, hf, hmem⟩ := mem_tokenWindows h.window_pos grids 0 (List.mem_filter.mp hts).1
    simp only [Nat.zero_add] at hmem
    exact ⟨ts, ⟨n, g, f, a, b, hget, hf, hmem⟩, rfl⟩
  · have hp : (v.tokenWindows 0 grids).flatten.Perm (arange xs.length) := hxs ▸ hperm
    obtain ⟨ys, hys, _⟩ := gather_perm hp
    exact ⟨ys, hys, gather_argsort hp hys⟩

/-- **Rows of patches move with their merged token.** -/
theorem byWindow_eq {α : Type} {n : ℕ} (hunit : 0 < v.spatialMergeUnit) {windowIndex : List ℤ} {xs : List α}
    (hperm : windowIndex.Perm (arange n)) (hxs : xs.length = n * v.spatialMergeUnit) (hpos : 0 < xs.length) :
    ∃ ys, v.byWindow xs.length windowIndex xs = some ys ∧
      ys.map some = (v.patchOrder windowIndex).map (xs[·]?) := by
  have hrows : (rows v.spatialMergeUnit xs).length = n := by
    rw [length_rows, hxs, Nat.mul_div_cancel _ hunit]
  have hgather : gather (rows v.spatialMergeUnit xs) windowIndex = some (windowIndex.map fun k =>
      (xs.drop (k.toNat * v.spatialMergeUnit)).take v.spatialMergeUnit) :=
    gather_of_mem (fun i hi => hrows.symm ▸ hperm.mem_iff.mp hi) fun j row hrow => by
      have hlt := (List.getElem?_eq_some_iff.mp hrow).1
      rw [rows, List.getElem?_map, List.getElem?_range (by rwa [length_rows] at hlt)] at hrow
      exact Option.some.inj hrow
  refine ⟨_, by rw [byWindow, if_pos ⟨rfl, hpos, by rw [hxs, Nat.mul_mod_left]⟩, hgather]; rfl, ?_⟩
  rw [← List.flatMap_def, patchOrder, List.map_flatMap, List.map_flatMap]
  refine List.flatMap_congr fun k hk => ?_
  obtain ⟨hlow, hhigh⟩ := mem_arange.mp (hperm.mem_iff.mp hk)
  have hend : k.toNat * v.spatialMergeUnit + v.spatialMergeUnit ≤ xs.length := by
    rw [hxs, ← Nat.succ_mul]
    exact Nat.mul_le_mul_right _ (by omega)
  rw [List.map_map]
  refine List.ext_getElem ?_ fun e he he' => ?_
  · rw [List.length_map, List.length_map, List.length_range, List.length_take_of_le]
    rw [List.length_drop]
    omega
  · rw [List.length_map, List.length_range] at he'
    rw [List.getElem_map, List.getElem_map, List.getElem_range, List.getElem_take, List.getElem_drop,
      Function.comp_apply, List.getElem?_eq_getElem (by omega)]

/-! ## Positions of patches -/

variable (v) in
/-- The merged tokens of a grid, each with its frame, row and column. -/
def frameTokens (g : VisionGrid) : List (ℕ × ℕ × ℕ) :=
  ((List.range g.t).flatMap fun f => (List.range (g.h / v.spatialMergeSize)).map fun i => (f, i)).flatMap
    fun p => (List.range (g.w / v.spatialMergeSize)).map fun j => (p.1, p.2, j)

variable (v) in
/-- The position of patch `e` of a merged token. -/
def patchPos (token : ℕ × ℕ × ℕ) (e : ℕ) : ℕ × ℕ :=
  (token.2.1 * v.spatialMergeSize + e / v.spatialMergeSize,
    token.2.2 * v.spatialMergeSize + e % v.spatialMergeSize)

theorem raster_patchPos (hm : 0 < v.spatialMergeSize) (f i j : ℕ) :
    windowCells v.spatialMergeSize (fun y x => (y, x)) i j =
      (List.range v.spatialMergeUnit).map (v.patchPos (f, i, j)) := by
  rw [windowCells, raster, spatialMergeUnit, range_mul, List.map_flatMap]
  refine List.flatMap_congr fun a _ => ?_
  rw [List.map_map]
  refine List.map_congr_left fun b hb => ?_
  have hlt := List.mem_range.mp hb
  rw [Function.comp_apply, patchPos, Nat.mul_comm a, Nat.mul_add_div hm, Nat.div_eq_of_lt hlt, Nat.add_zero,
    Nat.mul_add_mod, Nat.mod_eq_of_lt hlt]

/-- `pos_ids` of a grid, merged token by merged token. -/
theorem gridPosIds_eq (hm : 0 < v.spatialMergeSize) (hh : v.spatialMergeSize ∣ g.h)
    (hw : v.spatialMergeSize ∣ g.w) :
    v.gridPosIds g = some ((v.frameTokens g).flatMap fun token =>
      (List.range v.spatialMergeUnit).map (v.patchPos token)) := by
  have hids : ∀ posIds : ℕ → ℕ → ℕ, v.mergedPosIds g posIds = some
      (windows v.spatialMergeSize (g.h / v.spatialMergeSize) (g.w / v.spatialMergeSize) posIds).flatten :=
    fun posIds => if_pos (by rw [Nat.div_mul_cancel hh, Nat.div_mul_cancel hw])
  have hframe : (windows v.spatialMergeSize (g.h / v.spatialMergeSize) (g.w / v.spatialMergeSize)
      fun y _ => y).flatten.zip (windows v.spatialMergeSize (g.h / v.spatialMergeSize)
        (g.w / v.spatialMergeSize) fun _ x => x).flatten =
      (windows v.spatialMergeSize (g.h / v.spatialMergeSize) (g.w / v.spatialMergeSize)
        fun y x => (y, x)).flatten := by
    rw [← map_flatten_windows Prod.fst _ _ _ fun y x => (y, x),
      ← map_flatten_windows Prod.snd _ _ _ fun y x => (y, x), List.zip_map']
    exact List.map_id _
  rw [gridPosIds, hids, hids]
  simp only [Option.bind_eq_bind, Option.bind_some, Option.pure_def, Option.some.injEq]
  rw [hframe, flatten_windows, frameTokens, List.flatMap_assoc, List.flatMap_assoc]
  have hcopies : ∀ (t : ℕ) (ps : List (ℕ × ℕ)),
      (List.replicate t ps).flatten = (List.range t).flatMap fun _ => ps := fun t ps => by
    rw [List.flatMap_def, List.map_const', List.length_range]
  rw [hcopies]
  refine List.flatMap_congr fun f _ => ?_
  rw [List.flatMap_map]
  refine List.flatMap_congr fun i _ => ?_
  rw [List.flatMap_map]
  exact List.flatMap_congr fun j _ => raster_patchPos hm f i j

/-- A merged token of a grid. -/
theorem getElem?_frameTokens {f i j : ℕ} (hf : f < g.t) (hi : i < g.h / v.spatialMergeSize)
    (hj : j < g.w / v.spatialMergeSize) :
    (v.frameTokens g)[(f * (g.h / v.spatialMergeSize) + i) * (g.w / v.spatialMergeSize) + j]? =
      some (f, i, j) :=
  getElem?_rows _ hj (getElem?_raster hf hi Prod.mk)

theorem length_frameTokens (g : VisionGrid) : (v.frameTokens g).length = v.mergedTokens g := by
  rw [frameTokens, List.length_flatMap]
  simp only [List.length_map, List.length_range, List.map_const', List.sum_replicate_nat, List.length_flatMap,
    mergedTokens]

/-- A merged token of grids. -/
theorem getElem?_flatMap_frameTokens : ∀ (grids : List VisionGrid) {n f i j : ℕ} {g : VisionGrid},
    grids[n]? = some g → f < g.t → i < g.h / v.spatialMergeSize → j < g.w / v.spatialMergeSize →
      (grids.flatMap v.frameTokens)[v.mergedToken grids n g f i j]? = some (f, i, j)
  | g :: grids, 0, f, i, j, _, rfl, hf, hi, hj => by
    have hget := getElem?_frameTokens hf hi hj
    rw [mergedToken, List.take_zero, List.map_nil, List.sum_nil, Nat.zero_add, List.flatMap_cons,
      List.getElem?_append_left (List.getElem?_eq_some_iff.mp hget).1, hget]
  | g :: grids, n + 1, f, i, j, g', hget, hf, hi, hj => by
    have hrest := getElem?_flatMap_frameTokens grids hget hf hi hj
    rw [mergedToken] at hrest ⊢
    rw [List.take_succ_cons, List.map_cons, List.sum_cons, List.flatMap_cons, Nat.add_assoc,
      ← length_frameTokens, List.getElem?_append_right (Nat.le_add_right _ _), Nat.add_sub_cancel_left, hrest]

variable (v) in
/-- The positions of the patches of grids. -/
def patchPositions (grids : List VisionGrid) : List (ℕ × ℕ) :=
  (grids.flatMap v.frameTokens).flatMap fun token => (List.range v.spatialMergeUnit).map (v.patchPos token)

/-- **`pos_ids`**, merged token by merged token. -/
theorem TakesGrids.posIds_eq (h : v.TakesGrids grids) : v.posIds grids = some (v.patchPositions grids) := by
  rw [patchPositions, posIds, if_neg h.ne_nil, mapM_eq_some_map fun g hg =>
    gridPosIds_eq h.merge_pos (h.height g hg) (h.width g hg), List.flatMap_assoc]
  rfl

/-- **A patch and its position.** -/
theorem getElem?_posIds {n f i j a b : ℕ} (hget : grids[n]? = some g) (hf : f < g.t)
    (hi : i < g.h / v.spatialMergeSize) (hj : j < g.w / v.spatialMergeSize) (ha : a < v.spatialMergeSize)
    (hb : b < v.spatialMergeSize) :
    (v.patchPositions grids)[v.mergedToken grids n g f i j * v.spatialMergeUnit +
        (a * v.spatialMergeSize + b)]? =
      some (i * v.spatialMergeSize + a, j * v.spatialMergeSize + b) := by
  have hm : 0 < v.spatialMergeSize := Nat.zero_lt_of_lt ha
  have he : a * v.spatialMergeSize + b < v.spatialMergeUnit := by
    calc a * v.spatialMergeSize + b < (a + 1) * v.spatialMergeSize := by rw [Nat.succ_mul]; omega
      _ ≤ v.spatialMergeUnit := Nat.mul_le_mul_right _ ha
  rw [patchPositions, getElem?_rows v.patchPos he (getElem?_flatMap_frameTokens grids hget hf hi hj), patchPos,
    Nat.mul_comm a, Nat.mul_add_div hm, Nat.div_eq_of_lt hb, Nat.add_zero, Nat.mul_add_mod,
    Nat.mod_eq_of_lt hb]

/-- Positions are inside of a grid. -/
theorem lt_of_mem_posIds (hm : 0 < v.spatialMergeSize) {pos : ℕ × ℕ}
    (hpos : pos ∈ v.patchPositions grids) : ∃ g ∈ grids, pos.1 < g.h ∧ pos.2 < g.w := by
  have hinside : ∀ {n i e : ℕ}, i < n / v.spatialMergeSize → e < v.spatialMergeSize →
      i * v.spatialMergeSize + e < n := fun {n i e} hi he =>
    calc i * v.spatialMergeSize + e < (i + 1) * v.spatialMergeSize := by rw [Nat.succ_mul]; omega
      _ ≤ n / v.spatialMergeSize * v.spatialMergeSize := Nat.mul_le_mul_right _ hi
      _ ≤ n := Nat.div_mul_le_self _ _
  obtain ⟨token, htoken, hpos⟩ := List.mem_flatMap.mp hpos
  obtain ⟨g, hg, htoken⟩ := List.mem_flatMap.mp htoken
  obtain ⟨e, he, rfl⟩ := List.mem_map.mp hpos
  obtain ⟨p, hp, htoken⟩ := List.mem_flatMap.mp htoken
  obtain ⟨f, _, hp⟩ := List.mem_flatMap.mp hp
  obtain ⟨i, hi, rfl⟩ := List.mem_map.mp hp
  obtain ⟨j, hj, rfl⟩ := List.mem_map.mp htoken
  exact ⟨g, hg, hinside (List.mem_range.mp hi) (Nat.div_lt_of_lt_mul (List.mem_range.mp he)),
    hinside (List.mem_range.mp hj) (Nat.mod_lt _ hm)⟩

variable (v) in
/-- **The rows of patches**: patch `(a, b)` of each merged token has the rows of the table for row
`i * m + a` and column `j * m + b`. -/
def NumbersPatches {Θ : Type} (grids : List VisionGrid) (table rotaryPosEmb : List (List Θ)) : Prop :=
  ∀ n g f i j a b, grids[n]? = some g → f < g.t → i < g.h / v.spatialMergeSize →
    j < g.w / v.spatialMergeSize → a < v.spatialMergeSize → b < v.spatialMergeSize →
      ∃ hpos wpos, table[i * v.spatialMergeSize + a]? = some hpos ∧
        table[j * v.spatialMergeSize + b]? = some wpos ∧
        rotaryPosEmb[v.mergedToken grids n g f i j * v.spatialMergeUnit + (a * v.spatialMergeSize + b)]? =
          some (hpos ++ wpos)

/-- **`rot_pos_emb`** numbers the patches merged token by merged token. -/
theorem TakesGrids.rotPosEmb_eq {Θ : Type} (h : v.TakesGrids grids) {rotaryPosEmb : ℕ → List (List Θ)}
    (htable : ∀ n, (rotaryPosEmb n).length = n) :
    ∃ maxGridSize rots, (grids.flatMap fun g => [g.h, g.w]).max? = some maxGridSize ∧
      v.rotPosEmb rotaryPosEmb grids = some rots ∧
      rots.length = (grids.map v.mergedTokens).sum * v.spatialMergeUnit ∧
      v.NumbersPatches grids (rotaryPosEmb maxGridSize) rots := by
  obtain ⟨g₀, hg₀⟩ := List.exists_mem_of_ne_nil grids h.ne_nil
  obtain ⟨maxGridSize, hmax⟩ : ∃ n, (grids.flatMap fun g => [g.h, g.w]).max? = some n :=
    Option.isSome_iff_exists.mp (List.isSome_max?_of_mem (List.mem_flatMap.mpr ⟨g₀, hg₀, .head _⟩))
  have hle : ∀ g ∈ grids, g.h ≤ maxGridSize ∧ g.w ≤ maxGridSize := fun g hg =>
    ⟨(List.max?_eq_some_iff.mp hmax).2 _ (List.mem_flatMap.mpr ⟨g, hg, .head _⟩),
      (List.max?_eq_some_iff.mp hmax).2 _ (List.mem_flatMap.mpr ⟨g, hg, .tail _ (.head _)⟩)⟩
  have hrow : ∀ k < maxGridSize, (rotaryPosEmb maxGridSize)[k]? =
      some ((rotaryPosEmb maxGridSize).getD k []) := fun k hk => by
    rw [List.getD_eq_getElem?_getD, List.getElem?_eq_getElem (by rwa [htable]), Option.getD_some]
  have hrots : v.rotPosEmb rotaryPosEmb grids = some ((v.patchPositions grids).map fun pos =>
      (rotaryPosEmb maxGridSize).getD pos.1 [] ++ (rotaryPosEmb maxGridSize).getD pos.2 []) := by
    rw [rotPosEmb, h.posIds_eq, hmax]
    refine mapM_eq_some_map fun pos hpos => ?_
    obtain ⟨g, hg, hh, hw⟩ := lt_of_mem_posIds h.merge_pos hpos
    rw [hrow _ (hh.trans_le (hle g hg).1), hrow _ (hw.trans_le (hle g hg).2)]
    rfl
  refine ⟨maxGridSize, _, hmax, hrots, ?_, fun n g f i j a b hget hf hi hj ha hb => ?_⟩
  · rw [List.length_map, patchPositions, List.length_flatMap]
    simp only [List.length_map, List.length_range, List.map_const', List.sum_replicate_nat,
      List.length_flatMap, length_frameTokens]
  · have hpos := getElem?_posIds hget hf hi hj ha hb
    obtain ⟨g', hg', hh, hw⟩ := lt_of_mem_posIds (Nat.zero_lt_of_lt ha) (List.mem_of_getElem? hpos)
    refine ⟨_, _, hrow _ (hh.trans_le (hle g' hg').1), hrow _ (hw.trans_le (hle g' hg').2), ?_⟩
    rw [List.getElem?_map, hpos]
    rfl

/-! ## The order is undone -/

/-- Blocks keep the number of rows. -/
theorem length_runBlocks {X H Θ C O : Type} {layers : VisionLayers X H Θ C O}
    (hblocks : ∀ blk ∈ layers.blocks, ∀ x lens cos sin, (blk x lens cos sin).length = x.length)
    (cuSeqlens cuWindowSeqlens : List ℤ) (cos sin : C) (x : List H) :
    (v.runBlocks layers x cuSeqlens cuWindowSeqlens cos sin).length = x.length := by
  rw [runBlocks]
  refine List.foldlRecOn (motive := fun y : List H => y.length = x.length) _ _ rfl fun y hy blk hblk => ?_
  rw [hblocks _ (List.fst_mem_of_mem_zipIdx hblk), hy]

/-- **Window order is lossless**: windows partition the patches, the rows that number them move along with
them, and what the merger makes of the reordered patches is returned in the order of the merged tokens. -/
theorem forward_windowOrder {X H Θ C O : Type} (h : v.TakesGrids grids) (layers : VisionLayers X H Θ C O)
    (htable : ∀ n, (layers.rotaryPosEmb n).length = n)
    (hblocks : ∀ blk ∈ layers.blocks, ∀ x lens cos sin, (blk x lens cos sin).length = x.length)
    (hmerger : ∀ x n, x.length = n * v.spatialMergeUnit → (layers.merger x).length = n) :
    ∃ windowIndex cuWindowSeqlens maxGridSize rotaryPosEmb,
      v.getWindowIndex grids = some (windowIndex, cuWindowSeqlens) ∧
      v.LosslessWindows grids windowIndex cuWindowSeqlens ∧
      (grids.flatMap fun g => [g.h, g.w]).max? = some maxGridSize ∧
      v.rotPosEmb layers.rotaryPosEmb grids = some rotaryPosEmb ∧
      v.NumbersPatches grids (layers.rotaryPosEmb maxGridSize) rotaryPosEmb ∧
      ∀ x : List X, (layers.patchEmbed x).length = (grids.map fun g => g.t * g.h * g.w).sum →
        0 < (layers.patchEmbed x).length → ∃ patches rots out,
          patches.map some = (v.patchOrder windowIndex).map ((layers.patchEmbed x)[·]?) ∧
          rots.map some = (v.patchOrder windowIndex).map (rotaryPosEmb[·]?) ∧
          v.forward layers x grids = some out ∧
          gather out windowIndex = some (layers.merger (v.runBlocks layers patches
            (repeatInterleave (grids.map fun g => ((g.h * g.w : ℕ) : ℤ)) (grids.map VisionGrid.t))
            (differences (uniqueConsecutive cuWindowSeqlens)) (layers.calCosSin rots).1
            (layers.calCosSin rots).2)) := by
  have hindex := getWindowIndex_eq_some h.window_pos h.ne_nil
  have hlossless := h.losslessWindows
  obtain ⟨maxGridSize, rotaryPosEmb, hmax, hrot, hrotLength, hnumbers⟩ := h.rotPosEmb_eq htable
  refine ⟨_, _, maxGridSize, rotaryPosEmb, hindex, hlossless, hmax, hrot, hnumbers, fun x hx hpos => ?_⟩
  generalize (v.tokenWindows 0 grids).flatten = windowIndex at hindex hlossless ⊢
  generalize 0 :: cumsum 0 (v.patchCounts (v.tokenWindows 0 grids)) = cuWindowSeqlens at hindex hlossless ⊢
  have hlength := hx.trans h.sum_mergedTokens.symm
  obtain ⟨patches, hpatches, hpatchesEq⟩ := byWindow_eq h.unit_pos hlossless.perm hlength hpos
  obtain ⟨rots, hrots, hrotsEq⟩ :=
    byWindow_eq h.unit_pos hlossless.perm hrotLength (hrotLength.trans hlength.symm ▸ hpos)
  rw [hrotLength.trans hlength.symm] at hrots
  have hpatchesLength : patches.length = (grids.map v.mergedTokens).sum * v.spatialMergeUnit := by
    have hcount := congrArg List.length hpatchesEq
    rwa [List.length_map, List.length_map, length_patchOrder, hlossless.perm.length_eq, length_arange] at hcount
  set merged := layers.merger (v.runBlocks layers patches
    (repeatInterleave (grids.map fun g => ((g.h * g.w : ℕ) : ℤ)) (grids.map VisionGrid.t))
    (differences (uniqueConsecutive cuWindowSeqlens)) (layers.calCosSin rots).1 (layers.calCosSin rots).2) with hmerged
  have hmergedLength : merged.length = (grids.map v.mergedTokens).sum :=
    hmerger _ _ ((length_runBlocks hblocks _ _ _ _ patches).trans hpatchesLength)
  have hperm : windowIndex.Perm (arange merged.length) := hmergedLength.symm ▸ hlossless.perm
  have hsort : (argsort windowIndex).Perm (arange merged.length) := by
    have hargsort := (argsort_argsorts windowIndex).perm
    rwa [hperm.length_eq, length_arange] at hargsort
  obtain ⟨out, hout, _⟩ := gather_perm hsort
  refine ⟨patches, rots, out, hpatchesEq, hrotsEq, ?_, gather_of_gather_argsort hperm hout⟩
  rw [forward, hrot, hindex]
  simp only [Option.bind_eq_bind, Option.bind_some, hpatches, hrots]
  exact hout

/-- An image of three by one merged tokens and a video of two frames of one by two, in windows of two by
two. -/
theorem forward_windowOrder_imageAndVideo : ∃ windowIndex cuWindowSeqlens out,
    getWindowIndex ⟨2, 8, 2, []⟩ [⟨1, 6, 2⟩, ⟨2, 2, 4⟩] = some (windowIndex, cuWindowSeqlens) ∧
      LosslessWindows ⟨2, 8, 2, []⟩ [⟨1, 6, 2⟩, ⟨2, 2, 4⟩] windowIndex cuWindowSeqlens ∧
      forward ⟨2, 8, 2, []⟩ (⟨id, fun n => (List.range n).map ([·]), fun rots => (rots, rots),
        [fun x _ _ _ => x], fun x => (rows 4 x).map List.sum⟩ : VisionLayers ℕ ℕ ℕ (List (List ℕ)) ℕ)
        (List.range 28) [⟨1, 6, 2⟩, ⟨2, 2, 4⟩] = some out := by
  have htakes : TakesGrids ⟨2, 8, 2, []⟩ [⟨1, 6, 2⟩, ⟨2, 2, 4⟩] :=
    ⟨List.cons_ne_nil _ _, by decide, by decide, by decide, by decide⟩
  obtain ⟨windowIndex, cuWindowSeqlens, _, _, hindex, hlossless, _, _, _, hforward⟩ := forward_windowOrder htakes
    (⟨id, fun n => (List.range n).map ([·]), fun rots => (rots, rots), [fun x _ _ _ => x],
      fun x => (rows 4 x).map List.sum⟩ : VisionLayers ℕ ℕ ℕ (List (List ℕ)) ℕ)
    (fun n => by rw [List.length_map, List.length_range])
    (fun blk hblk x lens cos sin => by rw [List.mem_singleton.mp hblk])
    (fun x n hx => by
      rw [List.length_map, length_rows, hx]
      exact Nat.mul_div_cancel n (Nat.succ_pos 3))
  obtain ⟨_, _, out, _, _, hout, _⟩ := hforward (List.range 28) (by decide) (by decide)
  exact ⟨windowIndex, cuWindowSeqlens, out, hindex, hlossless, hout⟩

end VisionSizes

end VllmAscend
