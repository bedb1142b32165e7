import VllmAscend.Machinery.Axes
import VllmAscend.Machinery.Rows

/-!
# Models/Qwen25VL — vision heads padded to the size the operators want

    head        a … b │ c … d                  half │ half
    padded      a … b 0 … 0 │ c … d 0 … 0      64   │ 64

The vision attention on heads of 128, with the weights, the biases, the rotary tables and the projection
that `AscendQwen2_5_VisionTransformer` pads, over any commutative ring.  The zeros stand after each half of
a head, so that the rotation still pairs the same entries; nothing else changes (`forward_padded`).
-/

namespace VllmAscend

open Machinery

def minPadSize : ℕ := 64

def maxPadSize : ℕ := 128

/-- A linear layer: the rows of its weight and its bias. -/
structure LinearRows (R : Type) where
  weight : List (List R)
  bias : Option (List R)

/-- The layer on a token. -/
def LinearRows.apply {R : Type} [CommRing R] (layer : LinearRows R) (x : List R) : List R :=
  let out := layer.weight.map (rowProduct x)
  match layer.bias with
  | some bias => List.zipWith (· + ·) out bias
  | none => out

/-! ## The attention -/

/-- `AscendQwen2_5_VisionAttention`, on one rank. -/
structure AscendQwen25VisionAttention where
  numAttentionHeadsPerPartition : ℕ
  hiddenSizePerAttentionHead : ℕ
  originHiddenSizePerAttentionHead : ℕ

namespace AscendQwen25VisionAttention

/-- `__init__` -/
def init (numHeads projectionSize numAttentionHeadsPerPartition : ℕ) : AscendQwen25VisionAttention :=
  let hiddenSizePerAttentionHead := projectionSize / numHeads
  { numAttentionHeadsPerPartition
    originHiddenSizePerAttentionHead := hiddenSizePerAttentionHead
    hiddenSizePerAttentionHead :=
      if hiddenSizePerAttentionHead > minPadSize ∧ hiddenSizePerAttentionHead < maxPadSize then maxPadSize
      else hiddenSizePerAttentionHead }

/-- The same attention with the heads as they are. -/
def withoutPadding (m : AscendQwen25VisionAttention) : AscendQwen25VisionAttention :=
  { m with hiddenSizePerAttentionHead := m.originHiddenSizePerAttentionHead }

variable {R : Type} [CommRing R] {s b n : ℕ}

/-- `split_qkv` on a token: its heads, of the query, the key and the value. -/
def splitQkv (m : AscendQwen25VisionAttention) (qkv : List R) :
    List (List R) × List (List R) × List (List R) :=
  let size := (qkv.length + 2) / 3
  let chunk := fun i => rows m.hiddenSizePerAttentionHead ((qkv.drop (i * size)).take size)
  (chunk 0, chunk 1, chunk 2)

/-- `rotate_half` -/
def rotateHalf (x : List R) : List R :=
  (x.drop (x.length / 2)).map (- ·) ++ x.take (x.length / 2)

/-- `npu_rotary_mul` on a head. -/
def npuRotaryMul (x cos sin : List R) : List R :=
  List.zipWith (· + ·) (List.zipWith (· * ·) x cos) (List.zipWith (· * ·) (rotateHalf x) sin)

/-- The sum of rows of `size` entries, each times its weight. -/
def weightedRows (size : ℕ) (terms : List (R × List R)) : List R :=
  terms.foldr (fun term acc => List.zipWith (· + ·) (term.2.map (term.1 * ·)) acc)
    (List.replicate size 0)

/-- `_npu_flash_attention_unpad`; the weights are any function of the scores of a head. -/
def npuFlashAttentionUnpad (attentionWeights : List ℤ → (Fin n → Fin n → R) → Fin n → Fin n → R)
    (query key value : Fin n → List (List R)) (seqLen : List ℤ) (scaleValue : R) (numHeads size : ℕ) :
    Fin n → List (List R) := fun i =>
  (List.range numHeads).map fun h =>
    let scores := fun i j => scaleValue * rowProduct ((query i).getD h []) ((key j).getD h [])
    weightedRows size ((List.finRange n).map fun j =>
      (attentionWeights seqLen scores i j, (value j).getD h []))

/-- `rearrange(x, "b s h d -> (b s) h d")` -/
def flattenTokens (x : Tensor₂ (List (List R)) b s) : Fin (b * s) → List (List R) := fun i =>
  x (finProdFinEquiv.symm i).1 (finProdFinEquiv.symm i).2

/-- `forward`; `rsqrt d` is `d ** -0.5`. -/
def forward (m : AscendQwen25VisionAttention) (rsqrt : ℕ → R)
    (attentionWeights : List ℤ → (Fin (b * s) → Fin (b * s) → R) → Fin (b * s) → Fin (b * s) → R)
    (qkv proj : LinearRows R) (x : Tensor₂ (List R) s b) (cuSeqlens : List ℤ)
    (cos sin : Fin s → List R) : Tensor₂ (List R) s b :=
  let parts := fun i j => m.splitQkv (qkv.apply (x i j))
  let q := transpose₂ fun i j => (parts i j).1
  let k := transpose₂ fun i j => (parts i j).2.1
  let v := transpose₂ fun i j => (parts i j).2.2
  let q := fun j i => (q j i).map fun head => npuRotaryMul head (cos i) (sin i)
  let k := fun j i => (k j i).map fun head => npuRotaryMul head (cos i) (sin i)
  let contextLayer := npuFlashAttentionUnpad attentionWeights (flattenTokens q) (flattenTokens k)
    (flattenTokens v) cuSeqlens (rsqrt m.originHiddenSizePerAttentionHead)
    m.numAttentionHeadsPerPartition m.hiddenSizePerAttentionHead
  fun i j => proj.apply (contextLayer (finProdFinEquiv (j, i))).flatten

end AscendQwen25VisionAttention

/-! ## The padding -/

/-- `AscendQwen2_5_VisionTransformer`: what the padding reads. -/
structure AscendQwen25VisionTransformer where
  hiddenSize : ℕ
  interleaved : Bool
  enablePad : Bool
  originHiddenSizePerAttentionHead : ℕ
  halfOriginHiddenSizePerAttentionHead : ℕ
  halfPadHiddenSizePerAttentionHead : ℕ
  hiddenSizePerAttentionHead : ℕ

namespace AscendQwen25VisionTransformer

/-- `__init__`; without padding the sizes of the padding are not set, and not read. -/
def init (hiddenSize numHeads : ℕ) (interleaved : Bool) : AscendQwen25VisionTransformer :=
  let hiddenSizePerAttentionHead := hiddenSize / numHeads
  let enablePad := decide
    (hiddenSizePerAttentionHead > minPadSize ∧ hiddenSizePerAttentionHead < maxPadSize)
  { hiddenSize, interleaved, enablePad
    originHiddenSizePerAttentionHead := hiddenSizePerAttentionHead
    halfOriginHiddenSizePerAttentionHead := hiddenSizePerAttentionHead / 2
    halfPadHiddenSizePerAttentionHead := (maxPadSize - hiddenSizePerAttentionHead) / 2
    hiddenSizePerAttentionHead := if enablePad then maxPadSize else hiddenSizePerAttentionHead }

/-- The same transformer without padding. -/
def withoutPadding (t : AscendQwen25VisionTransformer) : AscendQwen25VisionTransformer :=
  { t with
    enablePad := false
    hiddenSizePerAttentionHead := t.originHiddenSizePerAttentionHead }

variable {R Θ : Type} [CommRing R] (t : AscendQwen25VisionTransformer)

/-- One of the two tables of `cal_cos_sin`, for a function of the angles. -/
def calTable (f : Θ → R) (rotaryPosEmb : List Θ) : List R :=
  let table := rotaryPosEmb.map f
  let table :=
    if t.enablePad then table ++ List.replicate t.halfPadHiddenSizePerAttentionHead 0 else table
  if ¬ t.interleaved then table ++ table else table.flatMap fun c => [c, c]

/-- `cal_cos_sin` -/
def calCosSin {s : ℕ} (cos sin : Θ → R) (rotaryPosEmb : Fin s → List Θ) :
    (Fin s → List R) × (Fin s → List R) :=
  (fun i => t.calTable cos (rotaryPosEmb i), fun i => t.calTable sin (rotaryPosEmb i))

/-- What `pad_qkv_weight` and `pad_qkv_bias` do to the heads, for a zero of their entries. -/
def padQkv {α : Type} (zero : α) (data : List α) : List α :=
  let heads := rows 3 (rows t.originHiddenSizePerAttentionHead data)
  let firstHalf := heads.map (List.map (List.take t.halfOriginHiddenSizePerAttentionHead))
  let secondHalf := heads.map (List.map (List.drop t.halfOriginHiddenSizePerAttentionHead))
  let pad := fun head => head ++ List.replicate t.halfPadHiddenSizePerAttentionHead zero
  let firstHalfPadded := firstHalf.map (List.map pad)
  let secondHalfPadded := secondHalf.map (List.map pad)
  (List.zipWith (List.zipWith (· ++ ·)) firstHalfPadded secondHalfPadded).flatten.flatten

def padQkvBias (bias : List R) : List R := t.padQkv 0 bias

def padQkvWeight (data : List (List R)) : List (List R) :=
  t.padQkv (List.replicate t.hiddenSize 0) data

def padProjWeight (data : List (List R)) : List (List R) :=
  data.map fun row => (rows t.halfOriginHiddenSizePerAttentionHead row).flatMap fun half =>
    half ++ List.replicate t.halfPadHiddenSizePerAttentionHead 0

end AscendQwen25VisionTransformer

/-! ## What the padding does -/

section Padding

variable {R : Type} [CommRing R] {half pad k : ℕ}

/-- **Zeros go after each half of every head.** -/
theorem AscendQwen25VisionTransformer.padQkv_eq {α : Type} {t : AscendQwen25VisionTransformer}
    (hpos : 0 < t.originHiddenSizePerAttentionHead) (zero : α) {data : List α}
    (hlength : data.length = k * 3 * t.originHiddenSizePerAttentionHead) :
    t.padQkv zero data = (rows t.originHiddenSizePerAttentionHead data).flatMap
      (padHalves zero t.halfOriginHiddenSizePerAttentionHead t.halfPadHiddenSizePerAttentionHead) := by
  have hheads : (rows t.originHiddenSizePerAttentionHead data).length = k * 3 := by
    rw [length_rows, hlength, Nat.mul_div_cancel _ hpos]
  simp only [padQkv, List.map_map, List.zipWith_map, List.zipWith_self, Function.comp_def]
  rw [← List.map_flatten, flatten_rows (by decide) hheads, List.flatMap_def]
  rfl

/-- **A padded layer gives padded heads.** -/
theorem LinearRows.apply_padded {size heads : ℕ} (hsize : size = half + half) (hpos : 0 < size)
    {weight : List (List R)} {bias : List R} (hweight : weight.length = heads * size)
    (hbias : bias.length = heads * size) (hidden : ℕ) (x : List R) :
    LinearRows.apply ⟨(rows size weight).flatMap (padHalves (List.replicate hidden 0) half pad),
        some ((rows size bias).flatMap (padHalves 0 half pad))⟩ x =
      (rows size (LinearRows.apply ⟨weight, some bias⟩ x)).flatMap (padHalves 0 half pad) := by
  have hproduct : ((rows size weight).flatMap (padHalves (List.replicate hidden 0) half pad)).map
      (rowProduct x) = (rows size (weight.map (rowProduct x))).flatMap (padHalves 0 half pad) := by
    rw [List.map_flatMap, rows_map, List.flatMap_map]
    refine List.flatMap_congr fun head _ => ?_
    rw [map_padHalves, rowProduct_replicate_zero]
  have hout : (weight.map (rowProduct x)).length = heads * size := (List.length_map _).trans hweight
  simp only [LinearRows.apply, hproduct]
  rw [zipWith_flatMap_padHalves (· + ·) 0 0 pad hsize hpos hout hbias, add_zero]

open AscendQwen25VisionAttention

/-- **The heads of padded parts** are the padded heads. -/
theorem AscendQwen25VisionAttention.splitQkv_padded {m : AscendQwen25VisionAttention}
    (hsize : m.originHiddenSizePerAttentionHead = half + half) (hpos : 0 < half)
    (hpad : m.hiddenSizePerAttentionHead = (half + pad) + (half + pad)) {qkv : List R} {heads : ℕ}
    (hlength : qkv.length = 3 * heads * m.originHiddenSizePerAttentionHead) :
    m.splitQkv ((rows m.originHiddenSizePerAttentionHead qkv).flatMap (padHalves 0 half pad)) =
      ((m.withoutPadding.splitQkv qkv).1.map (padHalves 0 half pad),
        (m.withoutPadding.splitQkv qkv).2.1.map (padHalves 0 half pad),
        (m.withoutPadding.splitQkv qkv).2.2.map (padHalves 0 half pad)) := by
  have hsizePos : 0 < m.originHiddenSizePerAttentionHead := by omega
  -- both lists are rows, all rows of a list of one length; a part is a third of the rows
  have hpart : ∀ {size : ℕ} {ls : List (List R)}, 0 < size → (∀ l ∈ ls, l.length = size) →
      ls.length = 3 * heads → ∀ i,
        rows size ((ls.flatten.drop (i * ((ls.flatten.length + 2) / 3))).take
          ((ls.flatten.length + 2) / 3)) = (ls.drop (i * heads)).take heads := by
    intro size ls hsize hls hcount i
    have hthird : (ls.flatten.length + 2) / 3 = heads * size := by
      rw [length_flatten_rows hls, hcount, Nat.mul_assoc]
      omega
    rw [hthird, ← Nat.mul_assoc, drop_flatten_rows _ hls,
      take_flatten_rows _ fun l hl => hls l (List.mem_of_mem_drop hl),
      rows_flatten hsize fun l hl => hls l (List.mem_of_mem_drop (List.mem_of_mem_take hl))]
  have hrows : ∀ l ∈ rows m.originHiddenSizePerAttentionHead qkv,
      l.length = m.originHiddenSizePerAttentionHead := fun l hl => length_of_mem_rows hl
  have hcount : (rows m.originHiddenSizePerAttentionHead qkv).length = 3 * heads := by
    rw [length_rows, hlength, Nat.mul_div_cancel _ hsizePos]
  have hpadded : ∀ l ∈ (rows m.originHiddenSizePerAttentionHead qkv).map (padHalves 0 half pad),
      l.length = m.hiddenSizePerAttentionHead := by
    intro l hl
    obtain ⟨head, hhead, rfl⟩ := List.mem_map.mp hl
    rw [hpad, length_padHalves 0 pad ((hrows head hhead).trans hsize)]
  have hplain := hpart hsizePos hrows hcount
  rw [flatten_rows hsizePos hlength] at hplain
  have hparts := hpart (by omega) hpadded ((List.length_map _).trans hcount)
  simp only [splitQkv, withoutPadding, List.flatMap_def, hplain, hparts, List.map_take, List.map_drop]

theorem length_rotateHalf (x : List R) : (rotateHalf x).length = x.length := by
  rw [rotateHalf, List.length_append, List.length_map, List.length_drop, List.length_take]
  omega

theorem rotateHalf_padHalves {x : List R} (hx : x.length = half + half) :
    rotateHalf (padHalves 0 half pad x) = padHalves 0 half pad (rotateHalf x) := by
  have hmiddle : (padHalves 0 half pad x).length / 2 =
      (x.take half ++ List.replicate pad 0).length := by
    rw [length_padHalves 0 pad hx, List.length_append, List.length_take_of_le (by omega),
      List.length_replicate]
    omega
  have hhalf : x.length / 2 = half := by omega
  have hfirst : ((x.drop half).map (- ·)).length = half := by
    rw [List.length_map, List.length_drop, hx, Nat.add_sub_cancel]
  rw [rotateHalf, hmiddle, padHalves, List.drop_left, List.take_left, rotateHalf, hhalf, padHalves,
    List.take_left' hfirst, List.drop_left' hfirst, List.map_append, List.map_replicate, neg_zero]

/-- **The rotation keeps the zeros, and its pairs.** -/
theorem npuRotaryMul_padHalves {x cos sin : List R} (hx : x.length = half + half)
    (hcos : cos.length = half + half) (hsin : sin.length = half + half) :
    npuRotaryMul (padHalves 0 half pad x) (padHalves 0 half pad cos) (padHalves 0 half pad sin) =
      padHalves 0 half pad (npuRotaryMul x cos sin) := by
  have hrotated := (length_rotateHalf x).trans hx
  rw [npuRotaryMul, rotateHalf_padHalves hx, zipWith_padHalves _ _ _ _ hx hcos,
    zipWith_padHalves _ _ _ _ hrotated hsin, mul_zero,
    zipWith_padHalves _ _ _ _ (by rw [List.length_zipWith, hx, hcos, Nat.min_self])
      (by rw [List.length_zipWith, hrotated, hsin, Nat.min_self]), add_zero, npuRotaryMul]

theorem length_npuRotaryMul {x cos sin : List R} (hx : x.length = half + half)
    (hcos : cos.length = half + half) (hsin : sin.length = half + half) :
    (npuRotaryMul x cos sin).length = half + half := by
  rw [npuRotaryMul, List.length_zipWith, List.length_zipWith, List.length_zipWith, length_rotateHalf, hx,
    hcos, hsin, Nat.min_self, Nat.min_self]

theorem length_weightedRows {size : ℕ} : ∀ {terms : List (R × List R)},
    (∀ term ∈ terms, term.2.length = size) → (weightedRows size terms).length = size
  | [], _ => List.length_replicate
  | term :: terms, h => by
    have htail := length_weightedRows fun term hterm => h term (.tail _ hterm)
    rw [weightedRows, List.foldr_cons, List.length_zipWith, List.length_map, h term (.head _)]
    exact (congrArg (min size) htail).trans (Nat.min_self size)

theorem weightedRows_padHalves : ∀ {terms : List (R × List R)},
    (∀ term ∈ terms, term.2.length = half + half) →
      weightedRows ((half + pad) + (half + pad))
          (terms.map fun term => (term.1, padHalves 0 half pad term.2)) =
        padHalves 0 half pad (weightedRows (half + half) terms)
  | [], _ => (padHalves_replicate 0 half pad).symm
  | term :: terms, h => by
    have hrest : ∀ term ∈ terms, term.2.length = half + half := fun term hterm => h term (.tail _ hterm)
    have htail := weightedRows_padHalves hrest
    rw [weightedRows] at htail
    rw [weightedRows, List.map_cons, List.foldr_cons, htail, map_padHalves, mul_zero,
      zipWith_padHalves _ _ _ _ ((List.length_map _).trans (h term (.head _)))
        (length_weightedRows hrest), add_zero]
    rfl

/-- Heads of one size, as many as there are. -/
def IsHeads (numHeads size : ℕ) (heads : List (List R)) : Prop :=
  heads.length = numHeads ∧ ∀ head ∈ heads, head.length = size

theorem getD_map_padHalves {heads : List (List R)} {h : ℕ} (hh : h < heads.length) :
    (heads.map (padHalves 0 half pad)).getD h [] = padHalves 0 half pad (heads.getD h []) := by
  rw [List.getD_eq_getElem _ _ (by rwa [List.length_map]), List.getElem_map, List.getD_eq_getElem _ _ hh]

omit [CommRing R] in
theorem IsHeads.getD {numHeads size : ℕ} {heads : List (List R)} (hheads : IsHeads numHeads size heads)
    {h : ℕ} (hh : h < numHeads) : h < heads.length ∧ (heads.getD h []).length = size := by
  have hlt : h < heads.length := hheads.1.symm ▸ hh
  refine ⟨hlt, ?_⟩
  rw [List.getD_eq_getElem _ _ hlt]
  exact hheads.2 _ (List.getElem_mem hlt)

theorem isHeads_npuFlashAttentionUnpad {n numHeads size : ℕ}
    (attentionWeights : List ℤ → (Fin n → Fin n → R) → Fin n → Fin n → R)
    (query key : Fin n → List (List R)) {value : Fin n → List (List R)}
    (hvalue : ∀ i, IsHeads numHeads size (value i)) (seqLen : List ℤ) (scaleValue : R) (i : Fin n) :
    IsHeads numHeads size
      (npuFlashAttentionUnpad attentionWeights query key value seqLen scaleValue numHeads size i) := by
  refine ⟨(List.length_map _).trans List.length_range, fun head hhead => ?_⟩
  obtain ⟨h, hmem, rfl⟩ := List.mem_map.mp hhead
  refine length_weightedRows fun term hterm => ?_
  obtain ⟨j, _, rfl⟩ := List.mem_map.mp hterm
  exact ((hvalue j).getD (List.mem_range.mp hmem)).2

/-- **The attention on padded heads**: the scores are the same, and the zeros stay. -/
theorem npuFlashAttentionUnpad_padHalves {n numHeads : ℕ} (pad : ℕ)
    (attentionWeights : List ℤ → (Fin n → Fin n → R) → Fin n → Fin n → R)
    {query key value : Fin n → List (List R)}
    (hquery : ∀ i, IsHeads numHeads (half + half) (query i))
    (hkey : ∀ i, IsHeads numHeads (half + half) (key i))
    (hvalue : ∀ i, IsHeads numHeads (half + half) (value i)) (seqLen : List ℤ) (scaleValue : R) (i : Fin n) :
    npuFlashAttentionUnpad attentionWeights (fun i => (query i).map (padHalves 0 half pad))
        (fun i => (key i).map (padHalves 0 half pad)) (fun i => (value i).map (padHalves 0 half pad))
        seqLen scaleValue numHeads ((half + pad) + (half + pad)) i =
      (npuFlashAttentionUnpad attentionWeights query key value seqLen scaleValue numHeads (half + half)
        i).map (padHalves 0 half pad) := by
  rw [npuFlashAttentionUnpad, npuFlashAttentionUnpad, List.map_map]
  refine List.map_congr_left fun h hmem => ?_
  have hh := List.mem_range.mp hmem
  have hscores : ∀ i j, rowProduct (((query i).map (padHalves 0 half pad)).getD h [])
      (((key j).map (padHalves 0 half pad)).getD h []) =
        rowProduct ((query i).getD h []) ((key j).getD h []) := by
    intro i j
    rw [getD_map_padHalves ((hquery i).getD hh).1, getD_map_padHalves ((hkey j).getD hh).1,
      rowProduct_padHalves pad ((hquery i).getD hh).2 ((hkey j).getD hh).2]
  simp only [hscores, Function.comp_apply]
  rw [← weightedRows_padHalves, List.map_map]
  · refine congrArg (weightedRows _) (List.map_congr_left fun j _ => ?_)
    rw [Function.comp_apply, getD_map_padHalves ((hvalue j).getD hh).1]
  · intro term hterm
    obtain ⟨j, _, rfl⟩ := List.mem_map.mp hterm
    exact ((hvalue j).getD hh).2

/-- **A padded projection drops the zeros.** -/
theorem LinearRows.apply_padProj {size heads : ℕ} (pad : ℕ) (hsize : size = half + half) (hpos : 0 < half)
    {weight : List (List R)} (hweight : ∀ row ∈ weight, row.length = heads * size)
    (bias : Option (List R)) {x : List (List R)} (hheads : IsHeads heads size x) :
    LinearRows.apply ⟨weight.map fun row => (rows half row).flatMap fun part =>
        part ++ List.replicate pad 0, bias⟩ (x.map (padHalves 0 half pad)).flatten =
      LinearRows.apply ⟨weight, bias⟩ x.flatten := by
  have hproduct : (weight.map fun row => (rows half row).flatMap fun part =>
      part ++ List.replicate pad 0).map (rowProduct (x.map (padHalves 0 half pad)).flatten) =
        weight.map (rowProduct x.flatten) := by
    rw [List.map_map]
    refine List.map_congr_left fun row hrow => ?_
    have hlength := hweight row hrow
    have hsizePos : 0 < size := by omega
    have hpair := forall₂_rows hsizePos ((length_flatten_rows hheads.2).trans (congrArg (· * size) hheads.1))
      hlength
    rw [rows_flatten hsizePos hheads.2] at hpair
    rw [Function.comp_apply, flatMap_rows_half 0 pad hpos (hsize ▸ hlength), ← List.flatMap_def, ← hsize,
      rowProduct_flatMap_padHalves pad (hpair.imp fun _ _ h => ⟨h.1.trans hsize, h.2.trans hsize⟩),
      flatten_rows hsizePos hlength]
  simp only [LinearRows.apply, hproduct]

/-- **The padded tables** have zeros where the heads have. -/
theorem AscendQwen25VisionTransformer.calTable_padded {Θ : Type} {t : AscendQwen25VisionTransformer}
    (hpad : t.enablePad = true) (hinterleaved : t.interleaved = false) (f : Θ → R)
    {rotaryPosEmb : List Θ} (hrotary : rotaryPosEmb.length = half) :
    t.calTable f rotaryPosEmb =
      padHalves 0 half t.halfPadHiddenSizePerAttentionHead (t.withoutPadding.calTable f rotaryPosEmb) := by
  have hlength : (rotaryPosEmb.map f).length = half := (List.length_map _).trans hrotary
  simp only [calTable, withoutPadding, hpad, hinterleaved, if_true, Bool.false_eq_true, if_false,
    not_false_eq_true]
  rw [padHalves, List.take_left' hlength, List.drop_left' hlength]

theorem AscendQwen25VisionTransformer.length_calTable_withoutPadding {Θ : Type}
    {t : AscendQwen25VisionTransformer} (hinterleaved : t.interleaved = false) (f : Θ → R)
    {rotaryPosEmb : List Θ} (hrotary : rotaryPosEmb.length = half) :
    (t.withoutPadding.calTable f rotaryPosEmb).length = half + half := by
  simp only [calTable, withoutPadding, hinterleaved, Bool.false_eq_true, if_false, not_false_eq_true, if_true]
  rw [List.length_append, List.length_map, hrotary]

omit [CommRing R] in
/-- The heads of the three parts. -/
theorem AscendQwen25VisionAttention.splitQkv_heads {m : AscendQwen25VisionAttention}
    (hpos : 0 < m.hiddenSizePerAttentionHead) {qkv : List R} {heads : ℕ}
    (hlength : qkv.length = 3 * heads * m.hiddenSizePerAttentionHead) (part : List (List R))
    (hpart : part = (m.splitQkv qkv).1 ∨ part = (m.splitQkv qkv).2.1 ∨ part = (m.splitQkv qkv).2.2) :
    IsHeads heads m.hiddenSizePerAttentionHead part := by
  have hthird : (qkv.length + 2) / 3 = heads * m.hiddenSizePerAttentionHead := by
    rw [hlength, Nat.mul_assoc]
    omega
  have hchunk : ∀ i < 3, (rows m.hiddenSizePerAttentionHead ((qkv.drop (i * ((qkv.length + 2) / 3))).take
      ((qkv.length + 2) / 3))).length = heads := by
    intro i hi
    have hle : (i + 1) * (heads * m.hiddenSizePerAttentionHead) ≤
        3 * (heads * m.hiddenSizePerAttentionHead) := Nat.mul_le_mul_right _ hi
    rw [Nat.succ_mul] at hle
    rw [length_rows, hthird, List.length_take_of_le, Nat.mul_div_cancel _ hpos]
    rw [List.length_drop, hlength, Nat.mul_assoc]
    omega
  obtain rfl | rfl | rfl := hpart
  · exact ⟨hchunk 0 (by decide), fun head hhead => length_of_mem_rows hhead⟩
  · exact ⟨hchunk 1 (by decide), fun head hhead => length_of_mem_rows hhead⟩
  · exact ⟨hchunk 2 (by decide), fun head hhead => length_of_mem_rows hhead⟩

/-- **A run on padded heads** returns what the run on the heads returns, once the parts and the tables are
padded and the projection drops the zeros. -/
theorem AscendQwen25VisionAttention.forward_padHalves {s b : ℕ} {m : AscendQwen25VisionAttention}
    (hsize : m.originHiddenSizePerAttentionHead = half + half)
    (hpadded : m.hiddenSizePerAttentionHead = (half + pad) + (half + pad))
    {qkv qkv' proj proj' : LinearRows R} {cos sin cos' sin' : Fin s → List R}
    (hsplit : ∀ x, m.splitQkv (qkv'.apply x) =
      ((m.withoutPadding.splitQkv (qkv.apply x)).1.map (padHalves 0 half pad),
        (m.withoutPadding.splitQkv (qkv.apply x)).2.1.map (padHalves 0 half pad),
        (m.withoutPadding.splitQkv (qkv.apply x)).2.2.map (padHalves 0 half pad)))
    (hheads : ∀ x part,
      (part = (m.withoutPadding.splitQkv (qkv.apply x)).1 ∨
        part = (m.withoutPadding.splitQkv (qkv.apply x)).2.1 ∨
        part = (m.withoutPadding.splitQkv (qkv.apply x)).2.2) →
      IsHeads m.numAttentionHeadsPerPartition (half + half) part)
    (hcos : ∀ i, (cos i).length = half + half ∧ cos' i = padHalves 0 half pad (cos i))
    (hsin : ∀ i, (sin i).length = half + half ∧ sin' i = padHalves 0 half pad (sin i))
    (hproj : ∀ heads, IsHeads m.numAttentionHeadsPerPartition (half + half) heads →
      proj'.apply (heads.map (padHalves 0 half pad)).flatten = proj.apply heads.flatten)
    (rsqrt : ℕ → R)
    (attentionWeights : List ℤ → (Fin (b * s) → Fin (b * s) → R) → Fin (b * s) → Fin (b * s) → R)
    (x : Tensor₂ (List R) s b) (cuSeqlens : List ℤ) :
    m.forward rsqrt attentionWeights qkv' proj' x cuSeqlens cos' sin' =
      m.withoutPadding.forward rsqrt attentionWeights qkv proj x cuSeqlens cos sin := by
  have hrotated : ∀ (i : Fin s) {heads : List (List R)},
      IsHeads m.numAttentionHeadsPerPartition (half + half) heads →
        (heads.map (padHalves 0 half pad)).map (fun head => npuRotaryMul head (cos' i) (sin' i)) =
            (heads.map fun head => npuRotaryMul head (cos i) (sin i)).map (padHalves 0 half pad) ∧
          IsHeads m.numAttentionHeadsPerPartition (half + half)
            (heads.map fun head => npuRotaryMul head (cos i) (sin i)) := by
    intro i heads hheads
    refine ⟨?_, (List.length_map _).trans hheads.1, fun head hhead => ?_⟩
    · rw [List.map_map, List.map_map]
      refine List.map_congr_left fun head hhead => ?_
      rw [Function.comp_apply, Function.comp_apply, (hcos i).2, (hsin i).2,
        npuRotaryMul_padHalves (hheads.2 head hhead) (hcos i).1 (hsin i).1]
    · obtain ⟨own, hown, rfl⟩ := List.mem_map.mp hhead
      exact length_npuRotaryMul (hheads.2 own hown) (hcos i).1 (hsin i).1
  have hq := fun x => hheads x _ (Or.inl rfl)
  have hk := fun x => hheads x _ (Or.inr (Or.inl rfl))
  have hv := fun x => hheads x _ (Or.inr (Or.inr rfl))
  have hquery : ∀ i : Fin (b * s), IsHeads m.numAttentionHeadsPerPartition (half + half)
      (flattenTokens (fun j i => (m.withoutPadding.splitQkv (qkv.apply (x i j))).1.map fun head =>
        npuRotaryMul head (cos i) (sin i)) i) := fun i => (hrotated _ (hq _)).2
  have hkey : ∀ i : Fin (b * s), IsHeads m.numAttentionHeadsPerPartition (half + half)
      (flattenTokens (fun j i => (m.withoutPadding.splitQkv (qkv.apply (x i j))).2.1.map fun head =>
        npuRotaryMul head (cos i) (sin i)) i) := fun i => (hrotated _ (hk _)).2
  have hvalue : ∀ i : Fin (b * s), IsHeads m.numAttentionHeadsPerPartition (half + half)
      (flattenTokens (transpose₂ fun i j => (m.withoutPadding.splitQkv (qkv.apply (x i j))).2.2) i) :=
    fun i => hv _
  have hattention := npuFlashAttentionUnpad_padHalves pad attentionWeights hquery hkey hvalue
    cuSeqlens (rsqrt m.originHiddenSizePerAttentionHead)
  have horigin : m.withoutPadding.hiddenSizePerAttentionHead = half + half := hsize
  funext i j
  simp only [forward, transpose₂, hsplit, (hrotated _ (hq _)).1, (hrotated _ (hk _)).1, hpadded, horigin]
  exact (congrArg (fun heads => proj'.apply (List.flatten heads)) (hattention _)).trans
    (hproj _ (isHeads_npuFlashAttentionUnpad attentionWeights _ _ hvalue cuSeqlens _ _))

end Padding

/-! ## The padded attention -/

open AscendQwen25VisionAttention in
/-- **Padding the heads does not change what the attention returns**, for any number of heads on the rank,
any weights and any input.  The head size is one that is padded. -/
theorem forward_padded {R Θ : Type} [CommRing R] {s b hiddenSize numHeads localHeads : ℕ}
    (hlow : minPadSize < hiddenSize / numHeads) (hhigh : hiddenSize / numHeads < maxPadSize)
    (hdvd : 4 ∣ hiddenSize / numHeads) {qkvWeight projWeight : List (List R)} {qkvBias : List R}
    (hweight : qkvWeight.length = 3 * localHeads * (hiddenSize / numHeads))
    (hbias : qkvBias.length = 3 * localHeads * (hiddenSize / numHeads))
    (hproj : ∀ row ∈ projWeight, row.length = localHeads * (hiddenSize / numHeads))
    (projBias : Option (List R)) (rsqrt : ℕ → R)
    (attentionWeights : List ℤ → (Fin (b * s) → Fin (b * s) → R) → Fin (b * s) → Fin (b * s) → R)
    (x : Tensor₂ (List R) s b) (cuSeqlens : List ℤ) (cos sin : Θ → R) (rotaryPosEmb : Fin s → List Θ)
    (hrotary : ∀ i, (rotaryPosEmb i).length = hiddenSize / numHeads / 2) :
    let t := AscendQwen25VisionTransformer.init hiddenSize numHeads false
    let m := AscendQwen25VisionAttention.init numHeads hiddenSize localHeads
    m.forward rsqrt attentionWeights ⟨t.padQkvWeight qkvWeight, some (t.padQkvBias qkvBias)⟩
        ⟨t.padProjWeight projWeight, projBias⟩ x cuSeqlens (t.calCosSin cos sin rotaryPosEmb).1
        (t.calCosSin cos sin rotaryPosEmb).2 =
      m.withoutPadding.forward rsqrt attentionWeights ⟨qkvWeight, some qkvBias⟩ ⟨projWeight, projBias⟩ x
        cuSeqlens (t.withoutPadding.calCosSin cos sin rotaryPosEmb).1
        (t.withoutPadding.calCosSin cos sin rotaryPosEmb).2 := by
  intro t m
  have hrange : hiddenSize / numHeads > minPadSize ∧ hiddenSize / numHeads < maxPadSize := ⟨hlow, hhigh⟩
  obtain ⟨half, hhalf⟩ : ∃ half, half = hiddenSize / numHeads / 2 := ⟨_, rfl⟩
  obtain ⟨pad, hpad⟩ : ∃ pad, pad = (maxPadSize - hiddenSize / numHeads) / 2 := ⟨_, rfl⟩
  have hmax : maxPadSize = 128 := rfl
  have hmin : minPadSize = 64 := rfl
  have hsize : hiddenSize / numHeads = half + half := by omega
  have hpos : 0 < hiddenSize / numHeads := by omega
  have hpadded : m.hiddenSizePerAttentionHead = (half + pad) + (half + pad) :=
    (if_pos hrange).trans (by omega)
  have htable : ∀ (f : Θ → R) i, (t.withoutPadding.calTable f (rotaryPosEmb i)).length = half + half ∧
      t.calTable f (rotaryPosEmb i) = padHalves 0 half pad (t.withoutPadding.calTable f (rotaryPosEmb i)) := by
    intro f i
    have hrotary := (hrotary i).trans hhalf.symm
    refine ⟨AscendQwen25VisionTransformer.length_calTable_withoutPadding rfl f hrotary, ?_⟩
    rw [hpad]
    exact AscendQwen25VisionTransformer.calTable_padded (decide_eq_true hrange) rfl f hrotary
  have hpadQkv : ∀ {α : Type} (zero : α) {data : List α},
      data.length = 3 * localHeads * (hiddenSize / numHeads) →
        t.padQkv zero data = (rows (hiddenSize / numHeads) data).flatMap (padHalves zero half pad) := by
    intro α zero data hlength
    rw [Nat.mul_comm 3] at hlength
    rw [hhalf, hpad]
    exact AscendQwen25VisionTransformer.padQkv_eq (t := t) hpos zero hlength
  have hqkv : ∀ x : List R, (LinearRows.apply ⟨qkvWeight, some qkvBias⟩ x).length =
      3 * localHeads * (hiddenSize / numHeads) := by
    intro x
    simp only [LinearRows.apply]
    rw [List.length_zipWith, List.length_map, hweight, hbias, Nat.min_self]
  refine forward_padHalves hsize hpadded (fun x => ?_) (fun x part hpart => ?_)
    (htable cos) (htable sin) (fun heads hheads => ?_) rsqrt attentionWeights x cuSeqlens
  · rw [AscendQwen25VisionTransformer.padQkvWeight, AscendQwen25VisionTransformer.padQkvBias,
      hpadQkv _ hweight, hpadQkv _ hbias, LinearRows.apply_padded hsize hpos hweight hbias]
    exact splitQkv_padded hsize (by omega) hpadded (hqkv x)
  · have hheads := splitQkv_heads (m := m.withoutPadding) hpos (hqkv x) part hpart
    exact ⟨hheads.1, fun head hhead => (hheads.2 head hhead).trans hsize⟩
  · have hown : IsHeads localHeads (hiddenSize / numHeads) heads :=
      ⟨hheads.1, fun head hhead => (hheads.2 head hhead).trans hsize.symm⟩
    have hdrop := LinearRows.apply_padProj pad hsize (by omega) hproj projBias hown
    rw [hhalf, hpad] at hdrop
    rw [hhalf, hpad]
    exact hdrop

/-- One head of 68 entries, and one token. -/
theorem forward_padded_oneHead :
    let t := AscendQwen25VisionTransformer.init 68 1 false
    let m := AscendQwen25VisionAttention.init 1 68 1
    let table := fun (t : AscendQwen25VisionTransformer) (f : ℤ → ℤ) (_ : Fin 1) =>
      t.calTable f (List.replicate 34 1)
    m.forward (R := ℤ) (b := 1) (fun _ => 1) (fun _ scores => scores)
        ⟨t.padQkvWeight (List.replicate 204 (List.replicate 68 1)),
          some (t.padQkvBias (List.replicate 204 1))⟩
        ⟨t.padProjWeight (List.replicate 68 (List.replicate 68 1)), none⟩
        (fun _ _ => List.replicate 68 1) [1] (table t id) (table t fun a => -a) =
      m.withoutPadding.forward (R := ℤ) (b := 1) (fun _ => 1) (fun _ scores => scores)
        ⟨List.replicate 204 (List.replicate 68 1), some (List.replicate 204 1)⟩
        ⟨List.replicate 68 (List.replicate 68 1), none⟩
        (fun _ _ => List.replicate 68 1) [1] (table t.withoutPadding id)
        (table t.withoutPadding fun a => -a) :=
  forward_padded (by decide) (by decide) (by decide) List.length_replicate List.length_replicate
    (fun row hrow => by rw [List.eq_of_mem_replicate hrow]; exact List.length_replicate) none (fun _ => 1)
    (fun _ scores => scores) (fun _ _ => List.replicate 68 1) [1] id (fun a => -a)
    (fun _ => List.replicate 34 1) fun _ => List.length_replicate

end VllmAscend
