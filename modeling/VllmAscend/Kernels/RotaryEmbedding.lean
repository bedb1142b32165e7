import Mathlib.Data.List.Perm.Lattice
import VllmAscend.Machinery.Exchange
import VllmAscend.Machinery.Launch

/-!
# Kernels/RotaryEmbedding — heads rotated in groups

    a head      x₀ … x_{m-1} │ x_m … x_{2m-1} │ x_{2m} … x_{n-1}        rotDim = 2m, headSize = n
    becomes     xᵢcosᵢ - x_{i+m}sinᵢ │ xᵢsinᵢ + x_{i+m}cosᵢ │ as it was

A group is as many heads as fit in a buffer of `loadSize` bytes.  It is copied to the output buffer, and
its heads are rotated there.  Three things go wrong.  A head that does not fit makes the groups empty, and
the number of groups is divided by zero.  The copy of the bfloat16 kernel ends in the middle of the
group, which shows when heads are rotated in part only.  And before `__CCE_AICORE__` 220 there is no
bfloat16 kernel, and the operator returns what was allocated.  Everywhere else each head is written once,
rotated (`rotates_iff`).
-/

namespace VllmAscend

open Machinery

variable {R : Type}

/-- The element types of the kernels. -/
inductive RopeScalar where
  | half
  | bfloat16
  deriving DecidableEq

/-- `sizeof(scalar_t)` -/
def RopeScalar.bytes : RopeScalar → ℕ
  | half => 2
  | bfloat16 => 2

/-- `AscendType` -/
inductive AscendType where
  | fp16
  | bf16
  | fp32
  deriving DecidableEq

/-- The type the operator is called with. -/
def RopeScalar.ascendType : RopeScalar → AscendType
  | half => .fp16
  | bfloat16 => .bf16

/-- `RotaryEmbedding::loadSize`, by `__CCE_AICORE__ >= 220`. -/
def loadSize (aicore220 : Bool) : ℕ := if aicore220 then 512 else 1024 * 4

/-! ## The vector unit

A local tensor is the memory from its first element on; casts are exact. -/

/-- A block of a local tensor is written. -/
def writeTo (dst : ℕ → R) (start n : ℕ) (values : ℕ → R) : ℕ → R := fun a =>
  if start ≤ a ∧ a < start + n then values (a - start) else dst a

/-- `local_mem_copy`: the repeats of `Copy` are eight blocks of 32 bytes apart. -/
def localMemCopy (bytes : ℕ) (dst src : ℕ → R) (size : ℕ) : ℕ → R :=
  let loadSize := 256 / bytes
  let loopCnt := size / loadSize
  let tailSize := size % loadSize
  let stride := 8 * 32 / bytes
  let dst := (List.range loopCnt).foldl
    (fun dst r => writeTo dst (r * stride) loadSize fun k => src (r * stride + k)) dst
  writeTo dst (loopCnt * loadSize) tailSize fun k => src (loopCnt * loadSize + k)

/-- The sizes a kernel is started with, as the checks of the operator leave them. -/
structure RopeShape where
  numTokens : ℕ
  numHeads : ℕ
  numKvHeads : ℕ
  headSize : ℕ
  rotDim : ℕ
  numTokens_pos : 0 < numTokens
  numKvHeads_pos : 0 < numKvHeads
  headSize_pos : 0 < headSize
  headSize_mod : headSize % 32 = 0
  numHeads_mod : numHeads % numKvHeads = 0
  rotDim_mod : rotDim % 2 = 0
  rotDim_le : rotDim ≤ headSize

/-- The tensors of a call, by their memory. -/
structure RopeMemory (R : Type) where
  positions : ℕ → ℕ
  query : ℕ → R
  key : ℕ → R
  cosSinCache : ℕ → R
  queryStride : ℕ
  keyStride : ℕ

namespace RopeShape

def embedDim (shape : RopeShape) : ℕ := shape.rotDim / 2

section Kernel

variable [CommRing R] (shape : RopeShape)

/-- `neox_compute` on the head that starts at `offset`; both variants, as casts are exact. -/
def neoxCompute (src dst sin cos : ℕ → R) (offset : ℕ) : ℕ → R :=
  let srcX := fun k => src (offset + k)
  let srcY := fun k => src (offset + shape.embedDim + k)
  let dst := writeTo dst offset shape.embedDim fun k => srcX k * cos k - srcY k * sin k
  writeTo dst (offset + shape.embedDim) shape.embedDim fun k => srcX k * sin k + srcY k * cos k

/-- What is copied of a group of `count` elements. -/
def copyGroup (scalar : RopeScalar) (dst src : ℕ → R) (count : ℕ) : ℕ → R :=
  match scalar with
  | .half => localMemCopy scalar.bytes dst src count
  | .bfloat16 =>
    let elemNum := count / scalar.bytes
    writeTo dst 0 elemNum src

/-- A group of heads: what is written to the destination, and the output buffer afterwards. -/
def computeGroup (scalar : RopeScalar) (srcG : ℕ → R) (dstG : ℕ) (cos sin : ℕ → R)
    (start heads : ℕ) (state : List (ℕ × R) × (ℕ → R)) : List (ℕ × R) × (ℕ → R) :=
  let count := heads * shape.headSize
  let src := fun k => srcG (start + k)
  let dst := copyGroup scalar state.2 src count
  let dst := (List.range heads).foldl
    (fun dst i => shape.neoxCompute src dst sin cos (i * shape.headSize)) dst
  (state.1 ++ (List.range count).map fun k => (dstG + (start + k), dst k), dst)

/-- `compute_qk`: the full groups and the tail. -/
def computeQk (scalar : RopeScalar) (srcG : ℕ → R) (dstG : ℕ) (cos sin : ℕ → R)
    (loopCnt tailHeads headNumPerLoad : ℕ) (state : List (ℕ × R) × (ℕ → R)) :
    List (ℕ × R) × (ℕ → R) :=
  let loadStride := headNumPerLoad * shape.headSize
  let state := (List.range loopCnt).foldl (fun state loopNum =>
    shape.computeGroup scalar srcG dstG cos sin (loopNum * loadStride) headNumPerLoad state) state
  shape.computeGroup scalar srcG dstG cos sin (loopCnt * loadStride) tailHeads state

/-- What a core has written to the query and to the key, and its output buffer. -/
structure CoreState (R : Type) where
  query : List (ℕ × R)
  key : List (ℕ × R)
  out : ℕ → R

/-- `update_mem_offset` and `compute_function` for the token `idx`; dividing by zero has no result. -/
def computeFunction (scalar : RopeScalar) (loadSize : ℕ) (memory : RopeMemory R) (state : CoreState R)
    (idx : ℕ) : Option (CoreState R) :=
  let cosSin := fun k => memory.cosSinCache (memory.positions idx * shape.rotDim + k)
  let cos := cosSin
  let sin := fun k => cosSin (shape.embedDim + k)
  let loadSizeByElem := loadSize / scalar.bytes
  let headNumPerLoad := loadSizeByElem / shape.headSize
  if headNumPerLoad = 0 then none
  else
    let loopCnt := shape.numHeads / headNumPerLoad
    let tailHeads := shape.numHeads - loopCnt * headNumPerLoad
    let loopCntKv := shape.numKvHeads / headNumPerLoad
    let tailHeadsKv := shape.numKvHeads - loopCntKv * headNumPerLoad
    let (query, out) := shape.computeQk scalar (fun k => memory.query (memory.queryStride * idx + k))
      (shape.numHeads * shape.headSize * idx) cos sin loopCnt tailHeads headNumPerLoad (state.query, state.out)
    let (key, out) := shape.computeQk scalar (fun k => memory.key (memory.keyStride * idx + k))
      (shape.numKvHeads * shape.headSize * idx) cos sin loopCntKv tailHeadsKv headNumPerLoad (state.key, out)
    some ⟨query, key, out⟩

def maxParallelSize : ℕ := 65535

/-- `ROPE_CUSTOM_KERNEL_TYPE_DECLARE` on all cores; each starts with some memory. -/
def ropeCustom (scalar : RopeScalar) (loadSize : ℕ) (memory : RopeMemory R) (localMemory : ℕ → ℕ → R) :
    Option (List (CoreState R)) :=
  let blockDim := if maxParallelSize > shape.numTokens then shape.numTokens else maxParallelSize
  (List.range blockDim).mapM fun blockIdx =>
    (stridedTasks shape.numTokens blockDim blockIdx).foldlM (shape.computeFunction scalar loadSize memory)
      ⟨[], [], localMemory blockIdx⟩

/-- `rotary_embedding_impl`: what the cores write. -/
def rotaryEmbeddingImpl (aicore220 : Bool) (type : AscendType) (memory : RopeMemory R)
    (localMemory : ℕ → ℕ → R) : Option (List (CoreState R)) :=
  match type with
  | .fp16 => shape.ropeCustom .half (loadSize aicore220) memory localMemory
  | .bf16 =>
    if aicore220 then shape.ropeCustom .bfloat16 (loadSize aicore220) memory localMemory else some []
  | .fp32 => some []

/-! ## What the kernel is for -/

/-- Element `e` of a rotated head. -/
def rotated (head cos sin : ℕ → R) (e : ℕ) : R :=
  if e < shape.embedDim then head e * cos e - head (e + shape.embedDim) * sin e
  else if e < shape.rotDim then
    head (e - shape.embedDim) * sin (e - shape.embedDim) + head e * cos (e - shape.embedDim)
  else head e

/-- The elements of the heads of a token, each with its address. -/
def rotatedHeads (heads : ℕ) (src : ℕ → R) (dstG : ℕ) (cos sin : ℕ → R) : List (ℕ × R) :=
  (List.range heads).flatMap fun h => (List.range shape.headSize).map fun e =>
    (dstG + (h * shape.headSize + e), shape.rotated (fun k => src (h * shape.headSize + k)) cos sin e)

/-- The elements of all heads of a tensor. -/
def rotatedTensor (heads : ℕ) (src : ℕ → R) (stride : ℕ) (memory : RopeMemory R) : List (ℕ × R) :=
  (List.range shape.numTokens).flatMap fun t =>
    shape.rotatedHeads heads (fun k => src (stride * t + k)) (heads * shape.headSize * t)
      (fun k => memory.cosSinCache (memory.positions t * shape.rotDim + k))
      (fun k => memory.cosSinCache (memory.positions t * shape.rotDim + (shape.embedDim + k)))

/-- **Every head is rotated and written once**, whatever the memory holds, in the tensors and on the
cores. -/
def Rotates (R : Type) [CommRing R] (aicore220 : Bool) (scalar : RopeScalar) (shape : RopeShape) : Prop :=
  ∀ (memory : RopeMemory R) (localMemory : ℕ → ℕ → R),
    ∃ cores, shape.rotaryEmbeddingImpl aicore220 scalar.ascendType memory localMemory = some cores ∧
      (cores.flatMap CoreState.query).Perm
        (shape.rotatedTensor shape.numHeads memory.query memory.queryStride memory) ∧
      (cores.flatMap CoreState.key).Perm
        (shape.rotatedTensor shape.numKvHeads memory.key memory.keyStride memory)

end Kernel

end RopeShape

/-! ## Local memory -/

theorem localMemCopy_apply (dst src : ℕ → R) (size a : ℕ) :
    localMemCopy RopeScalar.half.bytes dst src size a = if a < size then src a else dst a := by
  have hloop : ∀ n, (List.range n).foldl
      (fun dst r => writeTo dst (r * 128) 128 fun k => src (r * 128 + k)) dst a =
        if a < n * 128 then src a else dst a := by
    intro n
    induction n with
    | zero => simp
    | succ n ih =>
      rw [List.range_succ, List.foldl_append, List.foldl_cons, List.foldl_nil, writeTo]
      by_cases hlow : n * 128 ≤ a
      · by_cases hhigh : a < n * 128 + 128
        · rw [if_pos ⟨hlow, hhigh⟩, if_pos (by omega), Nat.add_sub_cancel' hlow]
        · rw [if_neg (by omega), ih, if_neg (by omega), if_neg (by omega)]
      · rw [if_neg (by omega), ih, if_pos (by omega), if_pos (by omega)]
  have hdiv := Nat.div_add_mod' size 128
  change writeTo ((List.range (size / 128)).foldl
    (fun dst r => writeTo dst (r * 128) 128 fun k => src (r * 128 + k)) dst) (size / 128 * 128)
      (size % 128) (fun k => src (size / 128 * 128 + k)) a = _
  rw [writeTo]
  by_cases htail : size / 128 * 128 ≤ a ∧ a < size / 128 * 128 + size % 128
  · rw [if_pos htail, if_pos (by omega), Nat.add_sub_cancel' htail.1]
  · rw [if_neg htail, hloop]
    exact if_congr (by omega) rfl rfl

namespace RopeShape

variable [CommRing R] (shape : RopeShape)

theorem two_mul_embedDim : shape.embedDim + shape.embedDim = shape.rotDim := by
  have hmod := shape.rotDim_mod
  rw [embedDim]
  omega

theorem rotated_of_le (head cos sin : ℕ → R) {e : ℕ} (h : shape.rotDim ≤ e) :
    shape.rotated head cos sin e = head e := by
  have htwo := shape.two_mul_embedDim
  rw [rotated, if_neg (by omega), if_neg (by omega)]

theorem neoxCompute_apply (src dst sin cos : ℕ → R) (offset a : ℕ) :
    shape.neoxCompute src dst sin cos offset a =
      if offset ≤ a ∧ a < offset + shape.rotDim then
        shape.rotated (fun k => src (offset + k)) cos sin (a - offset)
      else dst a := by
  have htwo := shape.two_mul_embedDim
  rw [neoxCompute, writeTo, writeTo]
  by_cases hlow : offset ≤ a
  · obtain ⟨e, rfl⟩ := Nat.exists_eq_add_of_le hlow
    by_cases hfirst : e < shape.embedDim
    · rw [if_neg (by omega), if_pos (by omega), if_pos (by omega), Nat.add_sub_cancel_left, rotated,
        if_pos hfirst]
      simp only [Nat.add_assoc, Nat.add_comm shape.embedDim e]
    · by_cases hsecond : e < shape.rotDim
      · obtain ⟨k, rfl⟩ := Nat.exists_eq_add_of_le (Nat.le_of_not_lt hfirst)
        rw [if_pos (by omega), if_pos (by omega), rotated, if_neg (by omega), Nat.add_sub_cancel_left,
          if_pos hsecond, Nat.add_sub_cancel_left, ← Nat.add_assoc, Nat.add_sub_cancel_left]
      · rw [if_neg (by omega), if_neg (by omega), if_neg (by omega)]
  · rw [if_neg (by omega), if_neg (by omega), if_neg (by omega)]

/-- **Head after head is rotated**, each in its own place. -/
theorem foldl_neoxCompute (src dst sin cos : ℕ → R) (a n : ℕ) :
    (List.range n).foldl (fun dst i => shape.neoxCompute src dst sin cos (i * shape.headSize)) dst a =
      if a / shape.headSize < n ∧ a % shape.headSize < shape.rotDim then
        shape.rotated (fun k => src (a / shape.headSize * shape.headSize + k)) cos sin
          (a % shape.headSize)
      else dst a := by
  have hle := shape.rotDim_le
  have hlt := Nat.mod_lt a shape.headSize_pos
  have hdiv := Nat.div_add_mod' a shape.headSize
  induction n with
  | zero => simp
  | succ n ih =>
    rw [List.range_succ, List.foldl_append, List.foldl_cons, List.foldl_nil, neoxCompute_apply, ih]
    obtain hlow | heq | hhigh := lt_trichotomy (a / shape.headSize) n
    · have hbound : a / shape.headSize * shape.headSize + shape.headSize ≤ n * shape.headSize := by
        rw [← Nat.succ_mul]
        exact Nat.mul_le_mul_right _ hlow
      rw [if_neg (by omega)]
      exact if_congr (by omega) rfl rfl
    · subst heq
      have hsub : a - a / shape.headSize * shape.headSize = a % shape.headSize := by omega
      by_cases hrot : a % shape.headSize < shape.rotDim
      · rw [if_pos (by omega), if_pos (by omega), hsub]
      · rw [if_neg (by omega), if_neg (by omega), if_neg (by omega)]
    · have hbound : n * shape.headSize + shape.headSize ≤ a / shape.headSize * shape.headSize := by
        rw [← Nat.succ_mul]
        exact Nat.mul_le_mul_right _ hhigh
      rw [if_neg (by omega), if_neg (by omega), if_neg (by omega)]

/-! ## Groups -/

/-- What is not rotated in a group has been copied, whatever was in the buffer. -/
def CopiesRest (scalar : RopeScalar) : Prop :=
  ∀ (dst src : ℕ → R) (heads a : ℕ), a < heads * shape.headSize → shape.rotDim ≤ a % shape.headSize →
    copyGroup scalar dst src (heads * shape.headSize) a = src a

/-- The elements of the head `h`, each with its address. -/
def rotatedHead (src : ℕ → R) (dstG : ℕ) (cos sin : ℕ → R) (h : ℕ) : List (ℕ × R) :=
  (List.range shape.headSize).map fun e =>
    (dstG + (h * shape.headSize + e), shape.rotated (fun k => src (h * shape.headSize + k)) cos sin e)

variable {shape} {scalar : RopeScalar}

/-- **A group of heads is written, each rotated.** -/
theorem computeGroup_eq (hcopies : shape.CopiesRest (R := R) scalar) (srcG : ℕ → R) (dstG : ℕ)
    (cos sin : ℕ → R) (first heads : ℕ) (state : List (ℕ × R) × (ℕ → R)) :
    ∃ out, shape.computeGroup scalar srcG dstG cos sin (first * shape.headSize) heads state =
      (state.1 ++ (List.range heads).flatMap fun h =>
        shape.rotatedHead srcG dstG cos sin (first + h), out) := by
  refine ⟨_, Prod.ext (congrArg (state.1 ++ ·) ?_) rfl⟩
  rw [range_mul, List.map_flatMap]
  refine List.flatMap_congr fun h hh => ?_
  rw [List.map_map, rotatedHead]
  refine List.map_congr_left fun e he => ?_
  have hlt := List.mem_range.mp he
  have hheads : h < heads := List.mem_range.mp hh
  have hdiv : (h * shape.headSize + e) / shape.headSize = h := by
    rw [Nat.mul_comm, Nat.mul_add_div shape.headSize_pos, Nat.div_eq_of_lt hlt, Nat.add_zero]
  have hmod : (h * shape.headSize + e) % shape.headSize = e := by
    rw [Nat.mul_comm, Nat.mul_add_mod, Nat.mod_eq_of_lt hlt]
  have hplace : ∀ k, first * shape.headSize + (h * shape.headSize + k) =
      (first + h) * shape.headSize + k := fun k => by ring
  rw [Function.comp_apply, foldl_neoxCompute, hdiv, hmod]
  simp only [hplace]
  refine Prod.ext rfl ?_
  dsimp only
  split
  · rfl
  · next hrest =>
    have hle : shape.rotDim ≤ e := Nat.le_of_not_lt fun hlt => hrest ⟨hheads, hlt⟩
    have hin : h * shape.headSize + e < heads * shape.headSize :=
      (Nat.add_lt_add_left hlt _).trans_le (by
        rw [← Nat.succ_mul]
        exact Nat.mul_le_mul_right _ hheads)
    rw [hcopies _ _ _ _ hin (by rwa [hmod]), hplace, rotated_of_le shape _ _ _ hle]

/-- **All heads of a token are written**, the full groups and the tail. -/
theorem computeQk_eq (hcopies : shape.CopiesRest (R := R) scalar) (srcG : ℕ → R) (dstG : ℕ)
    (cos sin : ℕ → R) (numHeads headNumPerLoad : ℕ) (state : List (ℕ × R) × (ℕ → R)) :
    ∃ out, shape.computeQk scalar srcG dstG cos sin (numHeads / headNumPerLoad)
        (numHeads - numHeads / headNumPerLoad * headNumPerLoad) headNumPerLoad state =
      (state.1 ++ (List.range numHeads).flatMap (shape.rotatedHead srcG dstG cos sin), out) := by
  have hloop : ∀ n, ∃ out, (List.range n).foldl (fun state loopNum =>
      shape.computeGroup scalar srcG dstG cos sin (loopNum * (headNumPerLoad * shape.headSize))
        headNumPerLoad state) state =
      (state.1 ++ (List.range (n * headNumPerLoad)).flatMap (shape.rotatedHead srcG dstG cos sin), out) := by
    intro n
    induction n with
    | zero => exact ⟨state.2, by simp⟩
    | succ n ih =>
      obtain ⟨out, hout⟩ := ih
      obtain ⟨out', hgroup⟩ := computeGroup_eq hcopies srcG dstG cos sin (n * headNumPerLoad)
        headNumPerLoad (state.1 ++ (List.range (n * headNumPerLoad)).flatMap
          (shape.rotatedHead srcG dstG cos sin), out)
      refine ⟨out', ?_⟩
      rw [List.range_succ, List.foldl_append, hout, List.foldl_cons, List.foldl_nil, ← Nat.mul_assoc, hgroup,
        Nat.succ_mul, List.range_add, List.flatMap_append, List.flatMap_map, List.append_assoc]
  obtain ⟨out, hout⟩ := hloop (numHeads / headNumPerLoad)
  obtain ⟨out', htail⟩ := computeGroup_eq hcopies srcG dstG cos sin
    (numHeads / headNumPerLoad * headNumPerLoad) (numHeads - numHeads / headNumPerLoad * headNumPerLoad)
    (state.1 ++ (List.range (numHeads / headNumPerLoad * headNumPerLoad)).flatMap
      (shape.rotatedHead srcG dstG cos sin), out)
  refine ⟨out', ?_⟩
  have hall : numHeads = numHeads / headNumPerLoad * headNumPerLoad +
      (numHeads - numHeads / headNumPerLoad * headNumPerLoad) :=
    (Nat.add_sub_cancel' (Nat.div_mul_le_self _ _)).symm
  conv_rhs => rw [hall, List.range_add, List.flatMap_append, List.flatMap_map, ← List.append_assoc]
  rw [computeQk, hout, ← Nat.mul_assoc, htail]

/-! ## Tokens and cores -/

section Tokens

variable (shape) (memory : RopeMemory R)

/-- The heads of the query, or of the key, of token `t`. -/
def tokenHeads (heads : ℕ) (src : ℕ → R) (stride t : ℕ) : List (ℕ × R) :=
  shape.rotatedHeads heads (fun k => src (stride * t + k)) (heads * shape.headSize * t)
    (fun k => memory.cosSinCache (memory.positions t * shape.rotDim + k))
    (fun k => memory.cosSinCache (memory.positions t * shape.rotDim + (shape.embedDim + k)))

variable {shape} {loadSize : ℕ} (hcopies : shape.CopiesRest (R := R) scalar)
  (hfits : shape.headSize ≤ loadSize / scalar.bytes)

include hcopies hfits

theorem computeFunction_eq (state : CoreState R) (t : ℕ) : ∃ out,
    shape.computeFunction scalar loadSize memory state t = some
      ⟨state.query ++ shape.tokenHeads memory shape.numHeads memory.query memory.queryStride t,
        state.key ++ shape.tokenHeads memory shape.numKvHeads memory.key memory.keyStride t, out⟩ := by
  have hpos : loadSize / scalar.bytes / shape.headSize ≠ 0 :=
    (Nat.div_pos hfits shape.headSize_pos).ne'
  obtain ⟨out, hquery⟩ := computeQk_eq hcopies (fun k => memory.query (memory.queryStride * t + k))
    (shape.numHeads * shape.headSize * t)
    (fun k => memory.cosSinCache (memory.positions t * shape.rotDim + k))
    (fun k => memory.cosSinCache (memory.positions t * shape.rotDim + (shape.embedDim + k)))
    shape.numHeads (loadSize / scalar.bytes / shape.headSize)
    (state.query, state.out)
  obtain ⟨out', hkey⟩ := computeQk_eq hcopies (fun k => memory.key (memory.keyStride * t + k))
    (shape.numKvHeads * shape.headSize * t)
    (fun k => memory.cosSinCache (memory.positions t * shape.rotDim + k))
    (fun k => memory.cosSinCache (memory.positions t * shape.rotDim + (shape.embedDim + k)))
    shape.numKvHeads (loadSize / scalar.bytes / shape.headSize)
    (state.key, out)
  refine ⟨out', ?_⟩
  simp only [computeFunction, if_neg hpos, hquery, hkey]
  rfl

/-- A core writes the heads of its tokens. -/
theorem foldlM_computeFunction : ∀ (tasks : List ℕ) (state : CoreState R), ∃ out,
    tasks.foldlM (shape.computeFunction scalar loadSize memory) state = some
      ⟨state.query ++ tasks.flatMap (shape.tokenHeads memory shape.numHeads memory.query memory.queryStride),
        state.key ++ tasks.flatMap (shape.tokenHeads memory shape.numKvHeads memory.key memory.keyStride),
        out⟩
  | [], state => ⟨state.out, by simp⟩
  | t :: tasks, state => by
    obtain ⟨out, hhead⟩ := computeFunction_eq memory hcopies hfits state t
    obtain ⟨out', htail⟩ := foldlM_computeFunction tasks
      ⟨state.query ++ shape.tokenHeads memory shape.numHeads memory.query memory.queryStride t,
        state.key ++ shape.tokenHeads memory shape.numKvHeads memory.key memory.keyStride t, out⟩
    refine ⟨out', ?_⟩
    rw [List.foldlM_cons, hhead, Option.bind_eq_bind, Option.bind_some, htail]
    simp only [List.flatMap_cons, List.append_assoc]

/-- **The cores share out the tokens.** -/
theorem ropeCustom_eq (localMemory : ℕ → ℕ → R) :
    ∃ cores, shape.ropeCustom scalar loadSize memory localMemory = some cores ∧
      (cores.flatMap CoreState.query).Perm
        (shape.rotatedTensor shape.numHeads memory.query memory.queryStride memory) ∧
      (cores.flatMap CoreState.key).Perm
        (shape.rotatedTensor shape.numKvHeads memory.key memory.keyStride memory) := by
  have hcores : ∀ (blockDim : ℕ) (blocks : List ℕ), ∃ cores, (blocks.mapM fun blockIdx =>
      (stridedTasks shape.numTokens blockDim blockIdx).foldlM (shape.computeFunction scalar loadSize memory)
        ⟨[], [], localMemory blockIdx⟩) = some cores ∧
      cores.flatMap CoreState.query = (blocks.flatMap (stridedTasks shape.numTokens blockDim)).flatMap
        (shape.tokenHeads memory shape.numHeads memory.query memory.queryStride) ∧
      cores.flatMap CoreState.key = (blocks.flatMap (stridedTasks shape.numTokens blockDim)).flatMap
        (shape.tokenHeads memory shape.numKvHeads memory.key memory.keyStride) := by
    intro blockDim blocks
    induction blocks with
    | nil => exact ⟨[], rfl, rfl, rfl⟩
    | cons blockIdx blocks ih =>
      obtain ⟨cores, hcores, hquery, hkey⟩ := ih
      obtain ⟨out, hcore⟩ := foldlM_computeFunction memory hcopies hfits
        (stridedTasks shape.numTokens blockDim blockIdx) ⟨[], [], localMemory blockIdx⟩
      simp only [List.nil_append] at hcore
      generalize hstate : CoreState.mk (R := R) _ _ out = core at hcore
      refine ⟨core :: cores, ?_, ?_, ?_⟩
      · rw [List.mapM_cons, hcore, hcores]
        rfl
      · rw [List.flatMap_cons, List.flatMap_cons, List.flatMap_append, hquery, ← hstate]
      · rw [List.flatMap_cons, List.flatMap_cons, List.flatMap_append, hkey, ← hstate]
  have hpos : 0 < if maxParallelSize > shape.numTokens then shape.numTokens else maxParallelSize := by
    split
    · exact shape.numTokens_pos
    · exact Nat.succ_pos _
  have htasks := flatMap_stridedTasks shape.numTokens hpos
  obtain ⟨cores, hall, hquery, hkey⟩ := hcores _
    (List.range (if maxParallelSize > shape.numTokens then shape.numTokens else maxParallelSize))
  refine ⟨cores, hall, ?_, ?_⟩
  · rw [hquery]
    exact htasks.flatMap_right _
  · rw [hkey]
    exact htasks.flatMap_right _

end Tokens

/-! ## Where nothing goes wrong -/

omit [CommRing R] in
theorem copiesRest_half : shape.CopiesRest (R := R) .half := by
  intro dst src heads a ha _
  rw [copyGroup, localMemCopy_apply, if_pos ha]

omit [CommRing R] in
theorem copiesRest_full (hrot : shape.rotDim = shape.headSize) : shape.CopiesRest (R := R) scalar := by
  intro dst src heads a _ hle
  rw [hrot] at hle
  exact absurd (Nat.mod_lt a shape.headSize_pos) (Nat.not_lt.mpr hle)

/-- A head fits in the buffer, and there is a kernel that copies what it has to. -/
def Supported (aicore220 : Bool) (scalar : RopeScalar) (shape : RopeShape) : Prop :=
  shape.headSize ≤ loadSize aicore220 / scalar.bytes ∧
    (scalar = .half ∨ (aicore220 = true ∧ shape.rotDim = shape.headSize))

theorem Supported.rotates {aicore220 : Bool} (h : Supported aicore220 scalar shape) :
    Rotates R aicore220 scalar shape := by
  obtain ⟨hfits, rfl | ⟨rfl, hrot⟩⟩ := h
  · exact fun memory localMemory => ropeCustom_eq memory copiesRest_half hfits localMemory
  · cases scalar with
    | half => exact fun memory localMemory => ropeCustom_eq memory copiesRest_half hfits localMemory
    | bfloat16 =>
      exact fun memory localMemory => ropeCustom_eq memory (copiesRest_full hrot) hfits localMemory

/-! ## Where something goes wrong -/

/-- The first core has the first token. -/
theorem stridedTasks_zero {n c : ℕ} (hn : 0 < n) (hc : 0 < c) :
    ∃ tasks, stridedTasks n c 0 = 0 :: tasks := by
  have hpos : 0 < (n - 0 + c - 1) / c := Nat.div_pos (by omega) hc
  obtain ⟨k, hk⟩ := Nat.exists_eq_succ_of_ne_zero hpos.ne'
  exact ⟨List.range' (0 + c) k c, by rw [stridedTasks, hk, List.range'_succ]⟩

/-- The first token of a run that returns. -/
theorem exists_first {loadSize : ℕ} {memory : RopeMemory R} {localMemory : ℕ → ℕ → R}
    {cores : List (CoreState R)}
    (h : shape.ropeCustom scalar loadSize memory localMemory = some cores) :
    ∃ (tasks : List ℕ) (first core : CoreState R), shape.computeFunction scalar loadSize memory ⟨[], [], localMemory 0⟩ 0 = some first ∧
      tasks.foldlM (shape.computeFunction scalar loadSize memory) first = some core ∧ core ∈ cores := by
  rw [ropeCustom] at h
  have hpos : 0 < if maxParallelSize > shape.numTokens then shape.numTokens else maxParallelSize := by
    split
    · exact shape.numTokens_pos
    · exact Nat.succ_pos _
  generalize (if maxParallelSize > shape.numTokens then shape.numTokens else maxParallelSize) =
    blockDim at h hpos
  obtain ⟨k, rfl⟩ := Nat.exists_eq_succ_of_ne_zero hpos.ne'
  obtain ⟨tasks, htasks⟩ := stridedTasks_zero shape.numTokens_pos hpos
  rw [List.range_succ_eq_map, List.mapM_cons, htasks, List.foldlM_cons] at h
  simp only [Option.bind_eq_bind, Option.bind_eq_some_iff, Option.pure_def] at h
  obtain ⟨core, ⟨first, hfirst, hrest⟩, cores', -, hcores⟩ := h
  cases hcores
  exact ⟨tasks, first, core, hfirst, hrest, List.mem_cons_self⟩

/-- **A head that does not fit in the buffer**: the number of groups is divided by zero. -/
theorem headSize_le_of_ropeCustom {loadSize : ℕ} {memory : RopeMemory R} {localMemory : ℕ → ℕ → R}
    {cores : List (CoreState R)}
    (h : shape.ropeCustom scalar loadSize memory localMemory = some cores) :
    shape.headSize ≤ loadSize / scalar.bytes := by
  obtain ⟨tasks, first, core, hfirst, -, -⟩ := exists_first h
  by_contra hlt
  have hzero : loadSize / scalar.bytes / shape.headSize = 0 := Nat.div_eq_of_lt (not_le.mp hlt)
  simp only [computeFunction, if_pos hzero] at hfirst
  cases hfirst

theorem computeGroup_subset (srcG : ℕ → R) (dstG : ℕ) (cos sin : ℕ → R) (start heads : ℕ)
    (state : List (ℕ × R) × (ℕ → R)) :
    state.1 ⊆ (shape.computeGroup scalar srcG dstG cos sin start heads state).1 :=
  List.subset_append_left _ _

theorem foldl_computeGroup_subset (srcG : ℕ → R) (dstG : ℕ) (cos sin : ℕ → R) (start : ℕ → ℕ) (heads : ℕ) :
    ∀ (loops : List ℕ) (state : List (ℕ × R) × (ℕ → R)), state.1 ⊆ (loops.foldl (fun state loopNum =>
      shape.computeGroup scalar srcG dstG cos sin (start loopNum) heads state) state).1
  | [], _ => fun _ hx => hx
  | loopNum :: loops, state => fun _ hx => foldl_computeGroup_subset srcG dstG cos sin start heads loops _
      (computeGroup_subset srcG dstG cos sin (start loopNum) heads state hx)

theorem computeQk_subset (srcG : ℕ → R) (dstG : ℕ) (cos sin : ℕ → R) (loopCnt tailHeads headNumPerLoad : ℕ)
    (state : List (ℕ × R) × (ℕ → R)) :
    state.1 ⊆ (shape.computeQk scalar srcG dstG cos sin loopCnt tailHeads headNumPerLoad state).1 :=
  fun _ hx => computeGroup_subset srcG dstG cos sin _ tailHeads _
    (foldl_computeGroup_subset srcG dstG cos sin _ headNumPerLoad _ state hx)

/-- What is written stays. -/
theorem key_subset {loadSize : ℕ} {memory : RopeMemory R} {state state' : CoreState R} {t : ℕ}
    (h : shape.computeFunction scalar loadSize memory state t = some state') : state.key ⊆ state'.key := by
  simp only [computeFunction] at h
  split at h
  · cases h
  · cases h
    exact fun _ hx => computeQk_subset (R := R) _ _ _ _ _ _ _ _ hx

theorem key_subset_foldlM {loadSize : ℕ} {memory : RopeMemory R} : ∀ {tasks : List ℕ}
    {state state' : CoreState R},
    tasks.foldlM (shape.computeFunction scalar loadSize memory) state = some state' →
      state.key ⊆ state'.key
  | [], state, state', h => by
    cases h
    exact fun _ hx => hx
  | t :: tasks, state, state', h => by
    rw [List.foldlM_cons, Option.bind_eq_bind, Option.bind_eq_some_iff] at h
    obtain ⟨next, hnext, hrest⟩ := h
    exact fun _ hx => key_subset_foldlM hrest (key_subset hnext hx)

/-! ### A call that shows the missing copy

The query, the cache and the local memory hold zeros, the key holds ones. -/

def onesKey (R : Type) [CommRing R] : RopeMemory R where
  positions := fun _ => 0
  query := fun _ => 0
  key := fun _ => 1
  cosSinCache := fun _ => 0
  queryStride := 0
  keyStride := 0

theorem rotated_zero (e : ℕ) :
    shape.rotated (fun _ => (0 : R)) (fun _ => 0) (fun _ => 0) e = 0 := by
  simp [rotated]

theorem computeGroup_zero (dstG start heads : ℕ) (writes : List (ℕ × R)) :
    ∃ writes', shape.computeGroup .bfloat16 (fun _ => 0) dstG (fun _ => 0) (fun _ => 0) start heads
      (writes, fun _ => 0) = (writes', fun _ => 0) := by
  refine ⟨_, Prod.ext rfl ?_⟩
  funext a
  simp only [computeGroup, foldl_neoxCompute, rotated_zero, copyGroup, writeTo, ite_self]

theorem computeQk_zero (dstG loopCnt tailHeads headNumPerLoad : ℕ) (writes : List (ℕ × R)) :
    ∃ writes', shape.computeQk .bfloat16 (fun _ => 0) dstG (fun _ => 0) (fun _ => 0) loopCnt tailHeads
      headNumPerLoad (writes, fun _ => 0) = (writes', fun _ => 0) := by
  have hloop : ∀ (loops : List ℕ) (writes : List (ℕ × R)), ∃ writes', loops.foldl (fun state loopNum =>
      shape.computeGroup .bfloat16 (fun _ => 0) dstG (fun _ => 0) (fun _ => 0)
        (loopNum * (headNumPerLoad * shape.headSize)) headNumPerLoad state) (writes, fun _ => 0) =
      (writes', fun _ => 0) := by
    intro loops
    induction loops with
    | nil => exact fun writes => ⟨writes, rfl⟩
    | cons loopNum loops ih =>
      intro writes
      obtain ⟨writes', hgroup⟩ := computeGroup_zero dstG
        (loopNum * (headNumPerLoad * shape.headSize)) headNumPerLoad writes
      obtain ⟨writes'', hwrites⟩ := ih writes'
      exact ⟨writes'', by rw [List.foldl_cons, hgroup, hwrites]⟩
  obtain ⟨writes', hwrites'⟩ := hloop (List.range loopCnt) writes
  rw [computeQk, hwrites']
  exact computeGroup_zero _ _ _ _

/-- The last element of the first group is what the buffer held. -/
theorem mem_computeGroup (hrot : shape.rotDim < shape.headSize) {heads : ℕ} (hheads : 0 < heads) (dstG : ℕ)
    (writes : List (ℕ × R)) :
    (dstG + (heads * shape.headSize - 1), (0 : R)) ∈
      (shape.computeGroup .bfloat16 (fun _ => 1) dstG (fun _ => 0) (fun _ => 0) 0 heads
        (writes, fun _ => 0)).1 := by
  have hmod := shape.headSize_mod
  have hpos := shape.headSize_pos
  have hcount : shape.headSize ≤ heads * shape.headSize := Nat.le_mul_of_pos_left _ hheads
  have hlast : (heads * shape.headSize - 1) % shape.headSize = shape.headSize - 1 := by
    obtain ⟨k, rfl⟩ := Nat.exists_eq_succ_of_ne_zero hheads.ne'
    rw [Nat.succ_mul, Nat.add_sub_assoc hpos, Nat.mul_comm, Nat.mul_add_mod, Nat.mod_eq_of_lt (by omega)]
  refine List.mem_append_right _ (List.mem_map.mpr
    ⟨heads * shape.headSize - 1, List.mem_range.mpr (by omega), Prod.ext ?_ ?_⟩)
  · simp only [Nat.zero_add]
  · simp only [foldl_neoxCompute, hlast, copyGroup, writeTo, RopeScalar.bytes]
    rw [if_neg (by omega), if_neg (by omega)]

/-- The first group of the key is one of full size, or the tail. -/
theorem mem_computeQk (hrot : shape.rotDim < shape.headSize) {headNumPerLoad : ℕ}
    (hpos : headNumPerLoad ≠ 0) (dstG : ℕ) (writes : List (ℕ × R)) :
    ∃ heads, 0 < heads ∧ (dstG + (heads * shape.headSize - 1), (0 : R)) ∈
      (shape.computeQk .bfloat16 (fun _ => 1) dstG (fun _ => 0) (fun _ => 0)
        (shape.numKvHeads / headNumPerLoad)
        (shape.numKvHeads - shape.numKvHeads / headNumPerLoad * headNumPerLoad) headNumPerLoad
        (writes, fun _ => 0)).1 := by
  cases hloops : shape.numKvHeads / headNumPerLoad with
  | zero =>
    refine ⟨shape.numKvHeads, shape.numKvHeads_pos, ?_⟩
    simp only [computeQk, Nat.zero_mul, Nat.sub_zero]
    exact mem_computeGroup hrot shape.numKvHeads_pos dstG writes
  | succ k =>
    refine ⟨headNumPerLoad, Nat.pos_of_ne_zero hpos, ?_⟩
    rw [computeQk, List.range_succ_eq_map, List.foldl_cons, Nat.zero_mul]
    exact computeGroup_subset _ _ _ _ _ _ _ (foldl_computeGroup_subset _ _ _ _ _ _ _ _
      (mem_computeGroup hrot (Nat.pos_of_ne_zero hpos) dstG writes))

/-- The address is that of a last element, which holds a one when it is copied. -/
theorem notMem_rotatedTensor [Nontrivial R] (hrot : shape.rotDim < shape.headSize) {heads : ℕ}
    (hheads : 0 < heads) :
    (shape.numKvHeads * shape.headSize * 0 + (heads * shape.headSize - 1), (0 : R)) ∉
      shape.rotatedTensor shape.numKvHeads (onesKey R).key 0 (onesKey R) := by
  intro hmem
  obtain ⟨t, -, hmem⟩ := List.mem_flatMap.mp hmem
  obtain ⟨h, -, hmem⟩ := List.mem_flatMap.mp hmem
  obtain ⟨e, he, heq⟩ := List.mem_map.mp hmem
  obtain ⟨haddress, hvalue⟩ := Prod.mk.inj heq
  have hlt := List.mem_range.mp he
  have hpos := shape.headSize_pos
  -- the address says which element of a head it is
  have hlast : e = shape.headSize - 1 := by
    have hleft : (shape.numKvHeads * shape.headSize * t + (h * shape.headSize + e)) % shape.headSize = e := by
      rw [show shape.numKvHeads * shape.headSize * t + (h * shape.headSize + e) =
        shape.headSize * (shape.numKvHeads * t + h) + e by ring, Nat.mul_add_mod, Nat.mod_eq_of_lt hlt]
    have hright : (shape.numKvHeads * shape.headSize * 0 + (heads * shape.headSize - 1)) % shape.headSize =
        shape.headSize - 1 := by
      obtain ⟨k, rfl⟩ := Nat.exists_eq_succ_of_ne_zero hheads.ne'
      rw [Nat.mul_zero, Nat.zero_add, Nat.succ_mul, Nat.add_sub_assoc hpos, Nat.mul_comm, Nat.mul_add_mod,
        Nat.mod_eq_of_lt (by omega)]
    rw [← hleft, haddress, hright]
  rw [rotated_of_le shape _ _ _ (by omega)] at hvalue
  exact one_ne_zero hvalue

theorem rotatedTensor_ne_nil (src : ℕ → R) (stride : ℕ) (memory : RopeMemory R) :
    shape.rotatedTensor shape.numKvHeads src stride memory ≠ [] := by
  have hhead := List.mem_map_of_mem
    (f := fun e => (shape.numKvHeads * shape.headSize * 0 + (0 * shape.headSize + e),
      shape.rotated (fun k => src (stride * 0 + (0 * shape.headSize + k)))
        (fun k => memory.cosSinCache (memory.positions 0 * shape.rotDim + k))
        (fun k => memory.cosSinCache (memory.positions 0 * shape.rotDim + (shape.embedDim + k))) e))
    (List.mem_range.mpr shape.headSize_pos)
  exact List.ne_nil_of_mem (List.mem_flatMap.mpr ⟨0, List.mem_range.mpr shape.numTokens_pos,
    List.mem_flatMap.mpr ⟨0, List.mem_range.mpr shape.numKvHeads_pos, hhead⟩⟩)

/-- **Without a kernel nothing is written.** -/
theorem not_rotates_bfloat16_old : ¬ Rotates R false .bfloat16 shape := by
  intro hrotates
  obtain ⟨cores, hcores, -, hkey⟩ := hrotates (onesKey R) fun _ _ => 0
  cases hcores
  exact rotatedTensor_ne_nil _ _ _ hkey.symm.eq_nil

/-- **A bfloat16 head that is rotated in part** is not copied to its end. -/
theorem not_rotates_bfloat16 [Nontrivial R] (hrot : shape.rotDim < shape.headSize) :
    ¬ Rotates R true .bfloat16 shape := by
  intro hrotates
  obtain ⟨cores, hcores, -, hkey⟩ := hrotates (onesKey R) fun _ _ => 0
  obtain ⟨tasks, first, core, hfirst, hrest, hcore⟩ := exists_first hcores
  simp only [computeFunction, onesKey] at hfirst
  split at hfirst
  · cases hfirst
  · next hpos =>
    obtain ⟨writes, hquery⟩ := computeQk_zero (R := R)
      (shape.numHeads * shape.headSize * 0)
      (shape.numHeads / (loadSize true / RopeScalar.bfloat16.bytes / shape.headSize))
      (shape.numHeads - shape.numHeads / (loadSize true / RopeScalar.bfloat16.bytes / shape.headSize) *
        (loadSize true / RopeScalar.bfloat16.bytes / shape.headSize))
      (loadSize true / RopeScalar.bfloat16.bytes / shape.headSize) []
    obtain ⟨heads, hheads, hmem⟩ := mem_computeQk (R := R) hrot hpos
      (shape.numKvHeads * shape.headSize * 0) []
    rw [hquery] at hfirst
    cases hfirst
    refine notMem_rotatedTensor hrot hheads (hkey.mem_iff.mp ?_)
    exact List.mem_flatMap.mpr ⟨core, hcore, key_subset_foldlM hrest hmem⟩

/-- One token of one head, rotated in its first half. -/
def halfRotated : RopeShape :=
  ⟨1, 1, 1, 64, 32, by decide, by decide, by decide, by decide, by decide, by decide, by decide⟩

/-- One token of one head of nine times 32 elements. -/
def largeHead : RopeShape :=
  ⟨1, 1, 1, 288, 288, by decide, by decide, by decide, by decide, by decide, by decide, by decide⟩

end RopeShape

end VllmAscend
