import VllmAscend.Machinery.Axes

/-!
# Attention/WeightAbsorption — the two paths through `kv_b_proj`

    prefill    q_nope · (W_UK c_j)        Σ_j w_j (W_UV c_j)
    decode     (W_UKᵀ q_nope) · c_j       W_UV (Σ_j w_j c_j)

A prefill maps every latent vector to the keys and values of all heads.  A decode leaves the latent
vectors as they are and maps the query and the output, with the two parts of the same weight that
`process_weights_after_loading` cuts out.  Over a commutative ring both compute the same
(`decode_eq_prefill`).
-/

namespace VllmAscend

open Machinery

variable {K : Type} [CommRing K]

/-- A linear layer without bias; `quant_method` of a quantised one applies the weight that the stored
one stands for. -/
structure LinearBase (K : Type) (inputSize outputSize : ℕ) where
  weight : Tensor₂ K outputSize inputSize
  unquantized : Bool

/-- `layer(x)[0]` -/
def LinearBase.apply {b inputSize outputSize : ℕ} (layer : LinearBase K inputSize outputSize)
    (x : Tensor₂ K b inputSize) : Tensor₂ K b outputSize :=
  fun i o => ∑ l, x i l * layer.weight o l

def getAndMaybeDequantWeights {inputSize outputSize : ℕ} (layer : LinearBase K inputSize outputSize) :
    Tensor₂ K outputSize inputSize :=
  if layer.unquantized then layer.weight else transpose₂ (layer.apply (eye inputSize))

/-- What the attention reads of the configuration, and its projection. -/
structure AscendMLAImpl (K : Type) where
  numHeads : ℕ
  kvLoraRank : ℕ
  qkNopeHeadDim : ℕ
  qkRopeHeadDim : ℕ
  vHeadDim : ℕ
  scale : K
  kvBProj : LinearBase K kvLoraRank (numHeads * (qkNopeHeadDim + vHeadDim))

namespace AscendMLAImpl

variable (m : AscendMLAImpl K) {b t : ℕ}

/-! ## The weights -/

/-- `W_UK` and `W_UV` -/
def kvBProjWeight : Tensor₃ K m.kvLoraRank m.numHeads m.qkNopeHeadDim ×
    Tensor₃ K m.kvLoraRank m.numHeads m.vHeadDim :=
  split (view (transpose₂ (getAndMaybeDequantWeights m.kvBProj)))

def wUV : Tensor₃ K m.numHeads m.kvLoraRank m.vHeadDim := transpose₀₁ m.kvBProjWeight.2

def wUKT : Tensor₃ K m.numHeads m.qkNopeHeadDim m.kvLoraRank := permute₁₂₀ m.kvBProjWeight.1

/-! ## The decode path -/

/-- `_q_proj_and_k_up_proj` of `q_proj(x)[0]`. -/
def qProjAndKUpProj (q : Tensor₂ K b (m.numHeads * (m.qkNopeHeadDim + m.qkRopeHeadDim))) :
    Tensor₃ K b m.numHeads m.kvLoraRank × Tensor₃ K b m.numHeads m.qkRopeHeadDim :=
  let (qNope, qPe) := split (view q)
  let qlNope := bmm (transpose₀₁ qNope) m.wUKT
  (transpose₀₁ qlNope, qPe)

/-- `_v_up_proj_and_o_proj` -/
def vUpProjAndOProj (x : Tensor₃ K b m.numHeads m.kvLoraRank) :
    Tensor₂ K b (m.numHeads * m.vHeadDim) :=
  reshape (transpose₀₁ (bmm (transpose₀₁ x) m.wUV))

/-- The scores of `_forward_decode`, by `npu_multi_head_latent_attention` on the two caches or by
`_npu_paged_attention_mla` on the concatenated ones. -/
def decodeScores (mlaPa : Bool)
    (rotaryEmb : Tensor₃ K b m.numHeads m.qkRopeHeadDim → Tensor₃ K b m.numHeads m.qkRopeHeadDim)
    (q : Tensor₂ K b (m.numHeads * (m.qkNopeHeadDim + m.qkRopeHeadDim)))
    (kvCCache : Tensor₃ K t 1 m.kvLoraRank) (kPeCache : Tensor₃ K t 1 m.qkRopeHeadDim) :
    Tensor₃ K b m.numHeads t :=
  let (qlNope, qPe) := m.qProjAndKUpProj q
  let qPe := rotaryEmb qPe
  if mlaPa then fun i n j =>
    m.scale * (dotScores qlNope (expand kvCCache) i n j + dotScores qPe (expand kPeCache) i n j)
  else fun i n j =>
    m.scale * dotScores (cat qlNope qPe) (expand (cat kvCCache kPeCache)) i n j

/-- What `_forward_decode` returns, given the weights of the attention.  The values are the latent
vectors, on the concatenated cache its first `kv_lora_rank` entries. -/
def forwardDecode (mlaPa : Bool) (w : Tensor₃ K b m.numHeads t)
    (kvCCache : Tensor₃ K t 1 m.kvLoraRank) (kPeCache : Tensor₃ K t 1 m.qkRopeHeadDim) :
    Tensor₂ K b (m.numHeads * m.vHeadDim) :=
  let value := if mlaPa then kvCCache else (split (cat kvCCache kPeCache)).1
  m.vUpProjAndOProj (weightedSum w (expand value))

/-! ## The prefill path -/

/-- `k_nope` and `value` -/
def kNopeValue (kvCNormed : Tensor₂ K t m.kvLoraRank) :
    Tensor₃ K t m.numHeads m.qkNopeHeadDim × Tensor₃ K t m.numHeads m.vHeadDim :=
  split (view (m.kvBProj.apply kvCNormed))

/-- The scores of `_forward_prefill`, by `_npu_flash_attention` on concatenated keys or by
`npu_ring_mla`. -/
def prefillScores (prefillNoCache : Bool)
    (rotaryEmb : Tensor₃ K b m.numHeads m.qkRopeHeadDim → Tensor₃ K b m.numHeads m.qkRopeHeadDim)
    (q : Tensor₂ K b (m.numHeads * (m.qkNopeHeadDim + m.qkRopeHeadDim)))
    (kvCNormed : Tensor₂ K t m.kvLoraRank) (kPe : Tensor₃ K t 1 m.qkRopeHeadDim) :
    Tensor₃ K b m.numHeads t :=
  -- `prefill_q_pe[...] = …` writes into the query
  let query := cat (split (view q)).1 (rotaryEmb (split (view q)).2)
  let (kNope, _) := m.kNopeValue kvCNormed
  let kPe := expand kPe
  if prefillNoCache then fun i n j => m.scale * dotScores query (cat kNope kPe) i n j
  else
    let (qNope, qPe) := split query
    fun i n j => m.scale * (dotScores qNope kNope i n j + dotScores qPe kPe i n j)

/-- What `_forward_prefill` returns, given the weights of the attention. -/
def forwardPrefill (w : Tensor₃ K b m.numHeads t) (kvCNormed : Tensor₂ K t m.kvLoraRank) :
    Tensor₂ K b (m.numHeads * m.vHeadDim) :=
  let (_, value) := m.kNopeValue kvCNormed
  reshape (weightedSum w value)

end AscendMLAImpl

/-! ## One weight -/

/-- **Dequantised through the unit matrix**, a layer gives its weight back. -/
theorem getAndMaybeDequantWeights_eq {inputSize outputSize : ℕ}
    (layer : LinearBase K inputSize outputSize) :
    getAndMaybeDequantWeights layer = layer.weight := by
  rw [getAndMaybeDequantWeights]
  split
  · rfl
  · funext o i
    simp [transpose₂, LinearBase.apply, eye]

namespace AscendMLAImpl

variable (m : AscendMLAImpl K) {b t : ℕ}

theorem wUKT_apply (n : Fin m.numHeads) (p : Fin m.qkNopeHeadDim) (l : Fin m.kvLoraRank) :
    m.wUKT n p l = m.kvBProj.weight (finProdFinEquiv (n, Fin.castAdd m.vHeadDim p)) l := by
  rw [wUKT, permute₁₂₀, kvBProjWeight, getAndMaybeDequantWeights_eq]
  rfl

theorem wUV_apply (n : Fin m.numHeads) (l : Fin m.kvLoraRank) (v : Fin m.vHeadDim) :
    m.wUV n l v = m.kvBProj.weight (finProdFinEquiv (n, Fin.natAdd m.qkNopeHeadDim v)) l := by
  rw [wUV, transpose₀₁, kvBProjWeight, getAndMaybeDequantWeights_eq]
  rfl

/-- **The keys of a head are its part of the weight, applied to the latent vector.** -/
theorem kNope_apply (kvCNormed : Tensor₂ K t m.kvLoraRank) (j : Fin t) (n : Fin m.numHeads)
    (p : Fin m.qkNopeHeadDim) :
    (m.kNopeValue kvCNormed).1 j n p = ∑ l, kvCNormed j l * m.wUKT n p l := by
  simp only [wUKT_apply]
  rfl

/-- …and so are its values. -/
theorem value_apply (kvCNormed : Tensor₂ K t m.kvLoraRank) (j : Fin t) (n : Fin m.numHeads)
    (v : Fin m.vHeadDim) :
    (m.kNopeValue kvCNormed).2 j n v = ∑ l, kvCNormed j l * m.wUV n l v := by
  simp only [wUV_apply]
  rfl

/-! ## Both paths -/

/-- **The absorbed query meets the latent vector as the query meets the key.** -/
theorem dotScores_absorbed (q : Tensor₂ K b (m.numHeads * (m.qkNopeHeadDim + m.qkRopeHeadDim)))
    (kvCNormed : Tensor₂ K t m.kvLoraRank) :
    dotScores (m.qProjAndKUpProj q).1 (expand (unsqueeze₁ kvCNormed)) =
      dotScores (split (view q)).1 (m.kNopeValue kvCNormed).1 := by
  funext i n j
  simp only [dotScores, kNope_apply]
  exact sum_mul_sum_comm (fun p => (split (view q)).1 i n p) (m.wUKT n) (kvCNormed j)

theorem decodeScores_eq (mlaPa : Bool)
    (rotaryEmb : Tensor₃ K b m.numHeads m.qkRopeHeadDim → Tensor₃ K b m.numHeads m.qkRopeHeadDim)
    (q : Tensor₂ K b (m.numHeads * (m.qkNopeHeadDim + m.qkRopeHeadDim)))
    (kvCCache : Tensor₃ K t 1 m.kvLoraRank) (kPeCache : Tensor₃ K t 1 m.qkRopeHeadDim) :
    m.decodeScores mlaPa rotaryEmb q kvCCache kPeCache = fun i n j =>
      m.scale * (dotScores (m.qProjAndKUpProj q).1 (expand kvCCache) i n j +
        dotScores (rotaryEmb (split (view q)).2) (expand kPeCache) i n j) := by
  cases mlaPa with
  | true => rfl
  | false =>
    funext i n j
    simp only [decodeScores, Bool.false_eq_true, if_false, expand_cat, dotScores_cat]
    rfl

theorem prefillScores_eq (prefillNoCache : Bool)
    (rotaryEmb : Tensor₃ K b m.numHeads m.qkRopeHeadDim → Tensor₃ K b m.numHeads m.qkRopeHeadDim)
    (q : Tensor₂ K b (m.numHeads * (m.qkNopeHeadDim + m.qkRopeHeadDim)))
    (kvCNormed : Tensor₂ K t m.kvLoraRank) (kPe : Tensor₃ K t 1 m.qkRopeHeadDim) :
    m.prefillScores prefillNoCache rotaryEmb q kvCNormed kPe = fun i n j =>
      m.scale * (dotScores (split (view q)).1 (m.kNopeValue kvCNormed).1 i n j +
        dotScores (rotaryEmb (split (view q)).2) (expand kPe) i n j) := by
  cases prefillNoCache with
  | true =>
    funext i n j
    simp only [prefillScores, if_true, dotScores_cat]
  | false =>
    funext i n j
    simp only [prefillScores, Bool.false_eq_true, if_false, split_cat]

/-- **The output mapped up** is the sum of the values mapped up. -/
theorem forwardDecode_eq (mlaPa : Bool) (w : Tensor₃ K b m.numHeads t)
    (kvCNormed : Tensor₂ K t m.kvLoraRank) (kPeCache : Tensor₃ K t 1 m.qkRopeHeadDim) :
    m.forwardDecode mlaPa w (unsqueeze₁ kvCNormed) kPeCache = m.forwardPrefill w kvCNormed := by
  have hvalue : (if mlaPa then unsqueeze₁ kvCNormed
      else (split (cat (unsqueeze₁ kvCNormed) kPeCache)).1) = unsqueeze₁ kvCNormed := by
    rw [split_cat, ite_self]
  rw [forwardDecode, hvalue, vUpProjAndOProj, forwardPrefill]
  refine congrArg reshape (funext₃ fun i n v => ?_)
  calc ∑ l, (∑ j, w i n j * kvCNormed j l) * m.wUV n l v
      = ∑ j, w i n j * ∑ l, m.wUV n l v * kvCNormed j l :=
        sum_mul_sum_comm (w i n) kvCNormed fun l => m.wUV n l v
    _ = ∑ j, w i n j * (m.kNopeValue kvCNormed).2 j n v := by
        simp only [value_apply, mul_comm]

/-- **Weight absorption is exact**: a decode and a prefill have the same scores for every query, head and
token, and from the same weights they make the same output. -/
theorem decode_eq_prefill (mlaPa prefillNoCache : Bool)
    (rotaryEmb : Tensor₃ K b m.numHeads m.qkRopeHeadDim → Tensor₃ K b m.numHeads m.qkRopeHeadDim)
    (q : Tensor₂ K b (m.numHeads * (m.qkNopeHeadDim + m.qkRopeHeadDim)))
    (kvCNormed : Tensor₂ K t m.kvLoraRank) (kPe : Tensor₃ K t 1 m.qkRopeHeadDim) :
    m.decodeScores mlaPa rotaryEmb q (unsqueeze₁ kvCNormed) kPe =
        m.prefillScores prefillNoCache rotaryEmb q kvCNormed kPe ∧
      ∀ w : Tensor₃ K b m.numHeads t,
        m.forwardDecode mlaPa w (unsqueeze₁ kvCNormed) kPe = m.forwardPrefill w kvCNormed := by
  refine ⟨?_, fun w => forwardDecode_eq m mlaPa w kvCNormed kPe⟩
  rw [decodeScores_eq, prefillScores_eq, dotScores_absorbed]

end AscendMLAImpl

end VllmAscend
