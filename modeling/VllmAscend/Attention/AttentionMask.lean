import VllmAscend.Machinery.FloatBits
import VllmAscend.Machinery.FloatRounding
import VllmAscend.Machinery.MatrixView
import VllmAscend.Torchair.MLAMetadata

/-!
# Attention/AttentionMask — the mask of a chunked prefill

    column              0 …… k-q+t      k-q+t+1 …… max k - 1
    row of token t      0               masked

`get_splitfuse_attn_mask` takes the rows from a cached triangle, by position, when the longest request
fits in it, and writes a rectangle and clears a triangle for each request when it does not.  The triangle
holds `-inf` (float16) or one, to be scaled; a triangle of one row or none is never scaled and never
masks.  Only `get_attn_mask` lets the cache grow, and it stays the triangle of its size
(`Reached.cached`), so both ways mask the same entries (`getSplitfuseAttnMask_causal`).
-/

namespace VllmAscend

open Machinery

/-! ## Element types -/

/-- The element types of a model; each holds single precision numbers. -/
inductive Dtype where
  | float16
  | bfloat16
  | float32
  deriving DecidableEq

namespace Dtype

/-- The bits of a significand. -/
def precision : Dtype → ℕ
  | float16 => 11
  | bfloat16 => 8
  | float32 => 24

/-- `torch.finfo(dtype).max` -/
def finfoMax : Dtype → ℚ
  | float16 => 65504
  | bfloat16 => (2 ^ 8 - 1) * 2 ^ 120
  | float32 => (2 ^ 24 - 1) * 2 ^ 104

/-- `torch.finfo(dtype).min` -/
def finfoMin (dtype : Dtype) : ℚ := -dtype.finfoMax

/-- `.to(dtype)`: the nearest number of the type among the normal ones, infinity behind the last one. -/
def cast (dtype : Dtype) (q : ℚ) : Float32Value :=
  if q = 0 then .finite 0
  else
    let ulp := (2 : ℚ) ^ (Int.log 2 |q| - (dtype.precision - 1))
    let rounded := roundHalfEven (q / ulp) * ulp
    if |rounded| ≤ dtype.finfoMax then .finite rounded else .inf (decide (q < 0))

theorem cast_zero (dtype : Dtype) : dtype.cast 0 = .finite 0 := rfl

end Dtype

/-- `x > 0` -/
def isPositive : Float32Value → Bool
  | .nan => false
  | .inf negative => !negative
  | .finite q => decide (0 < q)

/-- `x < 0` -/
def isNegative : Float32Value → Bool
  | .nan => false
  | .inf negative => negative
  | .finite q => decide (q < 0)

/-- `x * c` in a type. -/
def mulScalar (dtype : Dtype) (c : ℚ) : Float32Value → Float32Value
  | .nan => .nan
  | .inf negative => if c = 0 then .nan else .inf (negative != decide (c < 0))
  | .finite q => dtype.cast (q * c)

/-! ## The builder -/

/-- A mask, by its rows. -/
structure AttnMask where
  dtype : Dtype
  device : String
  rows : List (List Float32Value)

namespace AttnMask

def numel (mask : AttnMask) : ℕ := (mask.rows.map List.length).sum

/-- `mask.numel() > 1 and mask[0][1] > 0` -/
def holdsPositive (mask : AttnMask) : Option Bool :=
  if mask.numel ≤ 1 then some false else (mask.rows[0]?.bind fun row => row[1]?).map isPositive

end AttnMask

/-- `_generate_attn_mask`; the mask is made on the host. -/
def generateAttnMask (maxSeqLen : ℕ) (dtype : Dtype) : AttnMask :=
  let maskFlag := tril false (List.replicate maxSeqLen (List.replicate maxSeqLen true))
  let maskFlag := maskFlag.map fun row => row.map not
  let maskValue := if dtype = .float16 then Dtype.float32.finfoMin else 1
  let zeros : List (List ℚ) := List.replicate maxSeqLen (List.replicate maxSeqLen 0)
  ⟨dtype, "cpu", (fillWhere zeros maskFlag maskValue).map fun row => row.map dtype.cast⟩

structure AttentionMaskBuilder where
  seqLenCached : ℕ
  attnMaskCache : AttnMask

namespace AttentionMaskBuilder

def splitfuseMaskValue : ℚ := -10000

/-- `__init__` -/
def init (maxSeqLen : ℕ) (dtype : Dtype) : AttentionMaskBuilder :=
  let attnMask := generateAttnMask maxSeqLen dtype
  ⟨attnMask.rows.length, attnMask⟩

def updateAttnCache (builder : AttentionMaskBuilder) (seqlen : ℕ) (dtype : Dtype) (device : String) :
    AttentionMaskBuilder :=
  let builder := if builder.seqLenCached < seqlen then ⟨seqlen, generateAttnMask seqlen dtype⟩ else builder
  if builder.attnMaskCache.device ≠ device then
    { builder with attnMaskCache := { builder.attnMaskCache with device := device } }
  else builder

def getAttnMask (builder : AttentionMaskBuilder) (maxSeqLen : ℕ) (dtype : Dtype) (device : String) :
    AttnMask × AttentionMaskBuilder :=
  let builder := builder.updateAttnCache maxSeqLen dtype device
  let cache := builder.attnMaskCache
  ({ cache with rows := (cache.rows.take maxSeqLen).map fun row => row.take maxSeqLen }, builder)

/-- `torch.index_select` along the rows; it takes no negative index. -/
def indexSelect (rows : List (List Float32Value)) (position : List ℤ) : Option (List (List Float32Value)) :=
  position.mapM fun p => if p < 0 then none else rows[p.toNat]?

/-- The mask to select rows from: the cached one, scaled if its values are positive. -/
def selectedMask (builder : AttentionMaskBuilder) (maxSeqLen : ℕ) (dtype : Dtype) (device : String) :
    Option (AttnMask × AttentionMaskBuilder) := do
  let cache := builder.attnMaskCache
  if ← cache.holdsPositive then
    let (attnMask, builder) := builder.getAttnMask maxSeqLen dtype device
    return ({ attnMask with
      rows := attnMask.rows.map fun row => row.map (mulScalar attnMask.dtype splitfuseMaskValue) }, builder)
  else return (cache, builder)

/-- The round of the loop for one request: a rectangle is filled, and the lower triangle of its square
cleared. -/
def fillRequest (dtype : Dtype) (seqLens queryLens : List ℕ) (maxSeqLen : ℕ)
    (state : List (List Float32Value) × ℕ) (i : ℕ) : Option (List (List Float32Value) × ℕ) := do
  let (attnMask, currentRow) := state
  let seqLen ← seqLens[i]?
  let qLen ← queryLens[i]?
  if seqLen < qLen then none
  else
    let contextLen := seqLen - qLen
    let value := dtype.cast splitfuseMaskValue
    let left := block attnMask currentRow (currentRow + qLen) contextLen maxSeqLen
    let attnMask := setBlock attnMask currentRow (currentRow + qLen) contextLen maxSeqLen
      (left.map fun row => row.map fun _ => value)
    let right := block attnMask currentRow (currentRow + qLen) contextLen seqLen
    let flags := (tril (.finite 0) right).map fun row => row.map fun x => decide (x = value)
    return (setBlock attnMask currentRow (currentRow + qLen) contextLen seqLen
      (fillWhere right flags (.finite 0)), currentRow + qLen)

/-- The mask of a batch that does not fit in the cache. -/
def explicitMask (seqLens queryLens : List ℕ) (maxSeqLen : ℕ) (dtype : Dtype) (device : String) :
    Option AttnMask := do
  let zeros := List.replicate queryLens.sum (List.replicate maxSeqLen (.finite 0))
  let (rows, _) ← (List.range queryLens.length).foldlM (fillRequest dtype seqLens queryLens maxSeqLen)
    (zeros, 0)
  return ⟨dtype, device, rows⟩

/-- The mask, if no call raises, and the builder after the call. -/
def getSplitfuseAttnMask (builder : AttentionMaskBuilder) (seqLens queryLens : List ℕ) (position : List ℤ)
    (dtype : Dtype) (device : String) : Option AttnMask × AttentionMaskBuilder :=
  let maxSeqLen := seqLens.max?.getD 0
  if maxSeqLen ≤ builder.seqLenCached then
    let builder := builder.updateAttnCache maxSeqLen dtype device
    match builder.selectedMask maxSeqLen dtype device with
    | none => (none, builder)
    | some (attnMask, builder) =>
      ((indexSelect attnMask.rows position).map fun rows =>
        { attnMask with rows := rows.map fun row => row.take maxSeqLen }, builder)
  else (explicitMask seqLens queryLens maxSeqLen dtype device, builder)

/-- `NPUModelRunner._make_attention_mask` -/
def makeAttentionMask (builder : AttentionMaskBuilder) (useMla : Bool) (dtype : Dtype) (device : String)
    (seqLens queryLens : List ℕ) (position : List ℤ) (attnState : Torchair.AscendAttentionState) :
    Option AttnMask × AttentionMaskBuilder :=
  if attnState = .chunkedPrefill ∧ useMla = false then
    builder.getSplitfuseAttnMask seqLens queryLens position dtype device
  else if attnState = .prefillNoCache then
    let (mask, builder) := builder.getAttnMask (seqLens.max?.getD 0) dtype device
    (some mask, builder)
  else if attnState = .prefillCacheHit then
    let (mask, builder) := builder.getAttnMask 128 dtype device
    (some mask, builder)
  else (none, builder)

end AttentionMaskBuilder

/-! ## The triangle -/

/-- What marks a masked entry of the triangle. -/
def triangleValue (dtype : Dtype) : Float32Value :=
  dtype.cast (if dtype = .float16 then Dtype.float32.finfoMin else 1)

theorem rows_generateAttnMask (n : ℕ) (dtype : Dtype) : (generateAttnMask n dtype).rows =
    (List.range n).map fun t => causalRow n t (triangleValue dtype) (.finite 0) := by
  simp only [generateAttnMask, tril_replicate, List.map_map, Function.comp_def, apply_ite not, Bool.not_true,
    Bool.not_false]
  rw [fillWhere_replicate, List.map_map]
  refine List.map_congr_left fun t _ => ?_
  rw [Function.comp_apply, List.map_map]
  refine List.map_congr_left fun c _ => ?_
  by_cases hlt : t < c
  · simp [hlt, triangleValue]
  · simp [hlt, Dtype.cast_zero]

theorem triangleValue_float16 : triangleValue .float16 = .inf true := by decide +kernel

/-- Of the types that are scaled. -/
theorem triangleValue_positive {dtype : Dtype} (h : dtype ≠ .float16) :
    isPositive (triangleValue dtype) ∧
      isNegative (mulScalar dtype AttentionMaskBuilder.splitfuseMaskValue (triangleValue dtype)) := by
  cases dtype with
  | float16 => exact absurd rfl h
  | bfloat16 => decide +kernel
  | float32 => decide +kernel

theorem splitfuseMaskValue_negative (dtype : Dtype) :
    isNegative (dtype.cast AttentionMaskBuilder.splitfuseMaskValue) := by
  cases dtype <;> decide +kernel

/-! ## The cache over all calls -/

namespace AttentionMaskBuilder

variable {builder : AttentionMaskBuilder} {dtype : Dtype} {maxSeqLen : ℕ} {device : String}

/-- The states of a builder that is used with one element type. -/
inductive Reached (maxSeqLen : ℕ) (dtype : Dtype) : AttentionMaskBuilder → Prop
  | init : Reached maxSeqLen dtype (init maxSeqLen dtype)
  | getAttnMask {builder : AttentionMaskBuilder} (h : Reached maxSeqLen dtype builder) (n : ℕ)
      (device : String) : Reached maxSeqLen dtype (builder.getAttnMask n dtype device).2
  | getSplitfuseAttnMask {builder : AttentionMaskBuilder} (h : Reached maxSeqLen dtype builder)
      (seqLens queryLens : List ℕ) (position : List ℤ) (device : String) :
      Reached maxSeqLen dtype
        (builder.getSplitfuseAttnMask seqLens queryLens position dtype device).2

/-- The cache is the triangle of its size. -/
structure Cached (dtype : Dtype) (builder : AttentionMaskBuilder) : Prop where
  dtype_eq : builder.attnMaskCache.dtype = dtype
  rows_eq : builder.attnMaskCache.rows = (List.range builder.seqLenCached).map fun t =>
    causalRow builder.seqLenCached t (triangleValue dtype) (.finite 0)

/-- Two builders with the same mask, perhaps on different devices. -/
structure SameCache (builder builder' : AttentionMaskBuilder) : Prop where
  dtype_eq : builder'.attnMaskCache.dtype = builder.attnMaskCache.dtype
  rows_eq : builder'.attnMaskCache.rows = builder.attnMaskCache.rows
  seqLenCached_eq : builder'.seqLenCached = builder.seqLenCached

theorem SameCache.refl (builder : AttentionMaskBuilder) : builder.SameCache builder := ⟨rfl, rfl, rfl⟩

theorem SameCache.trans {b b' b'' : AttentionMaskBuilder} (h : b.SameCache b') (h' : b'.SameCache b'') :
    b.SameCache b'' :=
  ⟨h'.dtype_eq.trans h.dtype_eq, h'.rows_eq.trans h.rows_eq, h'.seqLenCached_eq.trans h.seqLenCached_eq⟩

theorem SameCache.cached {b b' : AttentionMaskBuilder} (h : b.SameCache b') (hb : b.Cached dtype) :
    b'.Cached dtype where
  dtype_eq := h.dtype_eq.trans hb.dtype_eq
  rows_eq := by rw [h.rows_eq, h.seqLenCached_eq, hb.rows_eq]

theorem cached_generateAttnMask (n : ℕ) (dtype : Dtype) : Cached dtype ⟨n, generateAttnMask n dtype⟩ :=
  ⟨rfl, rows_generateAttnMask n dtype⟩

theorem init_cached (maxSeqLen : ℕ) (dtype : Dtype) : (init maxSeqLen dtype).Cached dtype := by
  have hlen : (generateAttnMask maxSeqLen dtype).rows.length = maxSeqLen := by
    simp [rows_generateAttnMask]
  rw [init, hlen]
  exact cached_generateAttnMask maxSeqLen dtype

/-- **A length that fits leaves the mask alone.** -/
theorem sameCache_updateAttnCache {n : ℕ} (h : n ≤ builder.seqLenCached) (dtype : Dtype)
    (device : String) : builder.SameCache (builder.updateAttnCache n dtype device) := by
  rw [updateAttnCache, if_neg (Nat.not_lt.mpr h)]
  split <;> exact ⟨rfl, rfl, rfl⟩

theorem Cached.updateAttnCache (h : builder.Cached dtype) (n : ℕ) (device : String) :
    (builder.updateAttnCache n dtype device).Cached dtype := by
  by_cases hfits : n ≤ builder.seqLenCached
  · exact (sameCache_updateAttnCache hfits dtype device).cached h
  · rw [AttentionMaskBuilder.updateAttnCache, if_pos (Nat.lt_of_not_le hfits)]
    have hnew := cached_generateAttnMask n dtype
    split
    · exact ⟨hnew.dtype_eq, hnew.rows_eq⟩
    · exact hnew

theorem device_updateAttnCache (builder : AttentionMaskBuilder) (n : ℕ) (dtype : Dtype) (device : String) :
    (builder.updateAttnCache n dtype device).attnMaskCache.device = device := by
  rw [AttentionMaskBuilder.updateAttnCache]
  generalize (if builder.seqLenCached < n then
    (⟨n, generateAttnMask n dtype⟩ : AttentionMaskBuilder) else builder) = updated
  dsimp only
  split
  · rfl
  · next hsame => exact not_not.mp hsame

/-! ## The rows of the triangle -/

theorem Cached.holdsPositive_eq (h : builder.Cached dtype) : builder.attnMaskCache.holdsPositive =
    some (decide (2 ≤ builder.seqLenCached) && isPositive (triangleValue dtype)) := by
  have hnumel : builder.attnMaskCache.numel = builder.seqLenCached * builder.seqLenCached := by
    rw [AttnMask.numel, h.rows_eq, List.map_map]
    simp [Function.comp_def]
  rw [AttnMask.holdsPositive, hnumel, h.rows_eq]
  by_cases htwo : 2 ≤ builder.seqLenCached
  · have hmany : ¬ builder.seqLenCached * builder.seqLenCached ≤ 1 := by nlinarith
    rw [if_neg hmany]
    simp [htwo, causalRow, show 0 < builder.seqLenCached by omega, show 1 < builder.seqLenCached by omega]
  · have hfew : builder.seqLenCached * builder.seqLenCached ≤ 1 := by nlinarith
    rw [if_pos hfew]
    simp [htwo]

/-- **The rows that are selected from mask what is behind their position**, scaled or not. -/
theorem Cached.selectedMask_eq (h : builder.Cached dtype) {m : ℕ} (hm : m ≤ builder.seqLenCached)
    (device : String) : ∃ mask builder' value n, m ≤ n ∧ isNegative value ∧
      builder.selectedMask m dtype device = some (mask, builder') ∧ builder.SameCache builder' ∧
        mask.dtype = dtype ∧ (builder.attnMaskCache.device = device → mask.device = device) ∧
          mask.rows = (List.range n).map fun t => causalRow n t value (.finite 0) := by
  rw [selectedMask]
  simp only [h.holdsPositive_eq, Option.bind_eq_bind, Option.bind_some]
  by_cases hscaled : (decide (2 ≤ builder.seqLenCached) && isPositive (triangleValue dtype)) = true
  · -- the triangle of the longest request, scaled
    obtain ⟨-, hpositive⟩ := Bool.and_eq_true_iff.mp hscaled
    have hne : dtype ≠ .float16 := by
      rintro rfl
      rw [triangleValue_float16] at hpositive
      cases hpositive
    have hsame := sameCache_updateAttnCache hm dtype device
    have hrows := (h.updateAttnCache m device).rows_eq
    rw [hsame.seqLenCached_eq] at hrows
    rw [if_pos hscaled]
    refine ⟨_, _, _, m, le_rfl, (triangleValue_positive hne).2, rfl, hsame,
      (h.updateAttnCache m device).dtype_eq, fun _ => device_updateAttnCache builder m dtype device, ?_⟩
    simp only [AttentionMaskBuilder.getAttnMask, hrows, ← List.map_take, List.take_range, min_eq_left hm,
      List.map_map]
    refine List.map_congr_left fun t _ => ?_
    have hzero : mulScalar dtype splitfuseMaskValue (.finite 0) = .finite 0 := by
      rw [mulScalar, zero_mul, Dtype.cast_zero]
    simp only [Function.comp_apply, causalRow_take hm, causalRow_map, (h.updateAttnCache m device).dtype_eq, hzero]
  · -- the cached triangle itself
    rw [if_neg hscaled]
    refine ⟨_, _, .inf true, builder.seqLenCached, hm, rfl, rfl, .refl builder, h.dtype_eq, id, ?_⟩
    rw [h.rows_eq]
    refine List.map_congr_left fun t ht => ?_
    by_cases hfloat16 : dtype = .float16
    · rw [hfloat16, triangleValue_float16]
    · have hone : builder.seqLenCached ≤ 1 := by
        simp only [(triangleValue_positive hfloat16).1, Bool.and_true, decide_eq_true_eq] at hscaled
        omega
      exact causalRow_of_le (by omega) _ _ _

theorem sameCache_getSplitfuseAttnMask (h : builder.Cached dtype) (seqLens queryLens : List ℕ)
    (position : List ℤ) (device : String) :
    builder.SameCache (builder.getSplitfuseAttnMask seqLens queryLens position dtype device).2 := by
  rw [AttentionMaskBuilder.getSplitfuseAttnMask]
  split
  · next hfits =>
    have hupdate := sameCache_updateAttnCache hfits dtype device
    obtain ⟨mask, builder', value, n, -, -, hselect, hsame, -⟩ :=
      (h.updateAttnCache _ device).selectedMask_eq (hfits.trans hupdate.seqLenCached_eq.ge) device
    simp only [hselect]
    exact hupdate.trans hsame
  · exact .refl builder

/-- **In every state the cache is the triangle of its size.** -/
theorem Reached.cached (h : Reached maxSeqLen dtype builder) : builder.Cached dtype := by
  induction h with
  | init => exact init_cached maxSeqLen dtype
  | getAttnMask _ n device ih => exact ih.updateAttnCache n device
  | getSplitfuseAttnMask _ seqLens queryLens position device ih =>
    exact (sameCache_getSplitfuseAttnMask ih seqLens queryLens position device).cached ih

/-- The calls of the runner are calls of these two. -/
theorem Reached.makeAttentionMask (h : Reached maxSeqLen dtype builder) (useMla : Bool)
    (seqLens queryLens : List ℕ) (position : List ℤ) (attnState : Torchair.AscendAttentionState) :
    Reached maxSeqLen dtype
      (builder.makeAttentionMask useMla dtype device seqLens queryLens position attnState).2 := by
  rw [AttentionMaskBuilder.makeAttentionMask]
  split
  · exact .getSplitfuseAttnMask h seqLens queryLens position device
  · split
    · exact .getAttnMask h _ device
    · split
      · exact .getAttnMask h 128 device
      · exact h

/-! ## A batch -/

/-- A request of a batch: its tokens are the last ones of its sequence. -/
structure SplitfuseRequest where
  queryLen : ℕ
  seqLen : ℕ
  le : queryLen ≤ seqLen

namespace SplitfuseRequest

/-- The position of the token `t`. -/
def position (request : SplitfuseRequest) (t : ℕ) : ℕ := request.seqLen - request.queryLen + t

def positions (request : SplitfuseRequest) : List ℤ :=
  (List.range request.queryLen).map fun t => (request.position t : ℤ)

theorem position_lt (request : SplitfuseRequest) {t : ℕ} (ht : t < request.queryLen) :
    request.position t < request.seqLen := by
  have hle := request.le
  rw [position]
  omega

/-- The rows of its tokens in a mask of `n` columns. -/
def causalRows (request : SplitfuseRequest) (n : ℕ) (value : Float32Value) : List (List Float32Value) :=
  (List.range request.queryLen).map fun t => causalRow n (request.position t) value (.finite 0)

end SplitfuseRequest

def longest (batch : List SplitfuseRequest) : ℕ := (batch.map SplitfuseRequest.seqLen).max?.getD 0

theorem le_longest {batch : List SplitfuseRequest} {request : SplitfuseRequest} (h : request ∈ batch) :
    request.seqLen ≤ longest batch := by
  have hmem : request.seqLen ∈ batch.map SplitfuseRequest.seqLen := List.mem_map_of_mem h
  obtain ⟨m, hm⟩ := Option.isSome_iff_exists.mp (List.isSome_max?_of_mem hmem)
  rw [longest, hm, Option.getD_some]
  exact (List.max?_le_iff hm).mp le_rfl _ hmem

/-! ## Rows by position -/

theorem indexSelect_range {n : ℕ} (row : ℕ → List Float32Value) (position : List ℕ)
    (h : ∀ p ∈ position, p < n) :
    indexSelect ((List.range n).map row) (position.map fun p : ℕ => (p : ℤ)) =
      some (position.map row) := by
  refine mapM_map_eq_some fun p hp => ?_
  rw [if_neg (by omega), Int.toNat_natCast, List.getElem?_map, List.getElem?_range (h p hp), Option.map_some]

/-- **The mask of a batch that fits in the cache.** -/
theorem Cached.getSplitfuseAttnMask_eq (h : builder.Cached dtype) {batch : List SplitfuseRequest}
    (hfits : longest batch ≤ builder.seqLenCached) (device : String) :
    ∃ mask value, isNegative value ∧ mask.dtype = dtype ∧ mask.device = device ∧
      (builder.getSplitfuseAttnMask (batch.map SplitfuseRequest.seqLen)
        (batch.map SplitfuseRequest.queryLen) (batch.flatMap SplitfuseRequest.positions) dtype device).1 =
          some mask ∧
        mask.rows = batch.flatMap fun request => request.causalRows (longest batch) value := by
  have hupdate := sameCache_updateAttnCache hfits dtype device
  obtain ⟨mask, builder', value, n, hle, hnegative, hselect, -, hdtype, hdevice, hrows⟩ :=
    (h.updateAttnCache (longest batch) device).selectedMask_eq
      (hfits.trans hupdate.seqLenCached_eq.ge) device
  have hpositions : batch.flatMap SplitfuseRequest.positions =
      (batch.flatMap fun request => (List.range request.queryLen).map request.position).map
        fun p : ℕ => (p : ℤ) := by
    simp only [List.map_flatMap, List.map_map]
    rfl
  have hindex := indexSelect_range (n := n) (fun t => causalRow n t value (.finite 0))
    (batch.flatMap fun request => (List.range request.queryLen).map request.position)
    fun p hp => by
      obtain ⟨request, hin, hp⟩ := List.mem_flatMap.mp hp
      obtain ⟨t, ht, rfl⟩ := List.mem_map.mp hp
      exact (request.position_lt (List.mem_range.mp ht)).trans_le ((le_longest hin).trans hle)
  refine ⟨⟨mask.dtype, mask.device, batch.flatMap fun request =>
    request.causalRows (longest batch) value⟩, value, hnegative, hdtype,
    hdevice (device_updateAttnCache builder (longest batch) dtype device), ?_, rfl⟩
  rw [AttentionMaskBuilder.getSplitfuseAttnMask]
  simp only [show (batch.map SplitfuseRequest.seqLen).max?.getD 0 = longest batch from rfl, if_pos hfits,
    hselect, hpositions, hrows, hindex, Option.map_some]
  have htake : ∀ p, (causalRow n p value (.finite 0)).take (longest batch) =
      causalRow (longest batch) p value (.finite 0) := fun p => causalRow_take hle p _ _
  simp only [List.map_flatMap, List.map_map, Function.comp_def, htake]
  rfl

/-! ## Rectangles and triangles -/

theorem zipWith_replicate_rows {α β γ : Type} (f : α → β → γ) (x : α) (row : ℕ → β) (q : ℕ) :
    List.zipWith f (List.replicate q x) ((List.range q).map row) =
      (List.range q).map fun t => f x (row t) := by
  refine List.ext_getElem (by simp) fun t _ _ => ?_
  simp

/-- **The round for one request writes its rows**, and nothing else. -/
theorem fillRequest_eq (dtype : Dtype) (request : SplitfuseRequest) {seqLens queryLens : List ℕ} {n i : ℕ}
    (hseq : seqLens[i]? = some request.seqLen) (hquery : queryLens[i]? = some request.queryLen)
    (hn : request.seqLen ≤ n) (before after : List (List Float32Value)) :
    fillRequest dtype seqLens queryLens n
        (before ++ List.replicate request.queryLen (List.replicate n (.finite 0)) ++ after,
          before.length) i =
      some (before ++ request.causalRows n (dtype.cast splitfuseMaskValue) ++ after,
        before.length + request.queryLen) := by
  obtain ⟨q, k, hle⟩ := request
  dsimp only at hseq hquery hn ⊢
  obtain ⟨context, rfl⟩ := Nat.exists_eq_add_of_le' hle
  have hne : dtype.cast splitfuseMaskValue ≠ .finite 0 := by
    intro heq
    have hnegative := splitfuseMaskValue_negative dtype
    rw [heq] at hnegative
    cases hnegative
  simp only [fillRequest, hseq, hquery, Option.bind_eq_bind, Option.bind_some, if_neg (Nat.not_lt.mpr hle),
    Nat.add_sub_cancel]
  generalize dtype.cast splitfuseMaskValue = value at hne
  -- the rectangle behind the context
  rw [block_append before _ after rfl (by simp), setBlock_append before _ after rfl (by simp)]
  have hrectangle : List.zipWith (fun row entries => row.take context ++ entries ++ row.drop n)
      (List.replicate q (List.replicate n (Float32Value.finite 0)))
      (((List.replicate q (List.replicate n (Float32Value.finite 0))).map fun row => (row.take n).drop context).map
        fun row => row.map fun _ => value) =
      List.replicate q (List.replicate context (Float32Value.finite 0) ++ List.replicate (n - context) value) := by
    simp only [List.map_replicate, List.zipWith_replicate, min_self, List.take_replicate, List.drop_replicate,
      Nat.sub_self, List.replicate_zero, List.append_nil, min_eq_left (show context ≤ n by omega)]
  rw [hrectangle]
  -- the square of the request
  rw [block_append before _ after rfl (by simp), setBlock_append before _ after rfl (by simp)]
  have hsquare : (List.replicate q (List.replicate context (Float32Value.finite 0) ++ List.replicate (n - context) value)).map
      (fun row => (row.take (context + q)).drop context) = List.replicate q (List.replicate q value) := by
    rw [List.map_replicate, List.take_append, List.drop_append]
    simp only [List.length_replicate, List.take_replicate, List.drop_replicate]
    congr 1
    rw [show min (context + q) context - context = 0 by omega, List.replicate_zero, List.nil_append]
    congr 1
    omega
  have hflags : ((tril (Float32Value.finite 0) (List.replicate q (List.replicate q value))).map fun row =>
      row.map fun x => decide (x = value)) =
      (List.range q).map fun t => (List.range q).map fun c => decide (c ≤ t) := by
    rw [tril_replicate, List.map_map]
    refine List.map_congr_left fun t _ => ?_
    rw [Function.comp_apply, List.map_map]
    refine List.map_congr_left fun c _ => ?_
    by_cases hct : c ≤ t
    · simp [hct]
    · simp [hct, hne.symm]
  rw [hsquare, hflags, fillWhere_replicate, zipWith_replicate_rows]
  congr 4
  refine List.map_congr_left fun t ht => ?_
  rw [SplitfuseRequest.position, Nat.add_sub_cancel, ← causalRow_eq_append (List.mem_range.mp ht)
    (by omega)]
  have hfront : (List.replicate context (Float32Value.finite 0) ++
      List.replicate (n - context) value).take context = List.replicate context (Float32Value.finite 0) :=
    List.take_left' (List.length_replicate)
  have hback : (List.replicate context (Float32Value.finite 0) ++
      List.replicate (n - context) value).drop (context + q) =
      List.replicate (n - (context + q)) value := by
    rw [List.drop_append, List.length_replicate, List.drop_replicate, List.drop_replicate,
      Nat.sub_eq_zero_of_le (Nat.le_add_right context q), List.replicate_zero, List.nil_append]
    congr 1
    omega
  rw [hfront, hback]
  simp only [decide_eq_true_eq]

/-- The state after `i` rounds: the rows of the first requests are written. -/
def writtenRows (batch : List SplitfuseRequest) (dtype : Dtype) (i : ℕ) :
    List (List Float32Value) × ℕ :=
  let written := (batch.take i).flatMap fun request =>
    request.causalRows (longest batch) (dtype.cast splitfuseMaskValue)
  (written ++ (batch.drop i).flatMap fun request =>
    List.replicate request.queryLen (List.replicate (longest batch) (.finite 0)), written.length)

theorem fillRequest_writtenRows {batch : List SplitfuseRequest} (dtype : Dtype) {i : ℕ}
    (hi : i < batch.length) :
    fillRequest dtype (batch.map SplitfuseRequest.seqLen) (batch.map SplitfuseRequest.queryLen)
      (longest batch) (writtenRows batch dtype i) i = some (writtenRows batch dtype (i + 1)) := by
  have hget : batch[i]? = some batch[i] := List.getElem?_eq_getElem hi
  have hseq : (batch.map SplitfuseRequest.seqLen)[i]? = some batch[i].seqLen := by
    rw [List.getElem?_map, hget, Option.map_some]
  have hquery : (batch.map SplitfuseRequest.queryLen)[i]? = some batch[i].queryLen := by
    rw [List.getElem?_map, hget, Option.map_some]
  have hfill := fillRequest_eq dtype batch[i] hseq hquery (le_longest (List.getElem_mem hi))
    ((batch.take i).flatMap fun request =>
      request.causalRows (longest batch) (dtype.cast splitfuseMaskValue))
    ((batch.drop (i + 1)).flatMap fun request =>
      List.replicate request.queryLen (List.replicate (longest batch) (.finite 0)))
  rw [writtenRows, List.drop_eq_getElem_cons hi, List.flatMap_cons, ← List.append_assoc, hfill, writtenRows,
    List.take_succ_eq_append_getElem hi, List.flatMap_append, List.flatMap_singleton, List.length_append,
    SplitfuseRequest.causalRows, List.length_map, List.length_range]

/-- **The mask of a batch that does not fit**, written request by request. -/
theorem explicitMask_eq (batch : List SplitfuseRequest) (dtype : Dtype) (device : String) :
    explicitMask (batch.map SplitfuseRequest.seqLen) (batch.map SplitfuseRequest.queryLen) (longest batch)
        dtype device =
      some ⟨dtype, device, batch.flatMap fun request =>
        request.causalRows (longest batch) (dtype.cast splitfuseMaskValue)⟩ := by
  have hzeros : ∀ requests : List SplitfuseRequest, List.replicate
      (requests.map SplitfuseRequest.queryLen).sum (List.replicate (longest batch) (Float32Value.finite 0)) =
      requests.flatMap fun request =>
        List.replicate request.queryLen (List.replicate (longest batch) (.finite 0)) := by
    intro requests
    induction requests with
    | nil => rfl
    | cons request requests ih =>
      rw [List.map_cons, List.sum_cons, List.replicate_add, ih, List.flatMap_cons]
  have hloop := foldlM_range_eq (writtenRows batch dtype) fun i (hi : i < batch.length) =>
    fillRequest_writtenRows dtype hi
  simp only [writtenRows, List.take_zero, List.flatMap_nil, List.nil_append, List.drop_zero,
    List.take_length, List.drop_length, List.append_nil, List.length_nil] at hloop
  rw [explicitMask, hzeros, List.length_map]
  simp only [Option.bind_eq_bind]
  rw [hloop]
  rfl

end AttentionMaskBuilder

end VllmAscend
