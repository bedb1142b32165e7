import VllmAscend.Machinery.Collective

/-!
# Distributed/Communication310p — broadcast and all-reduce rebuilt from a gather

    group rank    0   1   2   …          tensor_list    t₀ │ t₁ │ t₂ │ …
    global rank   g₀  g₁  g₂  …

On this chip both collectives gather every member's tensor first.  The list stands in the order of the group,
but `broadcast310p` looks the source up by its global rank, and `all_reduce` leaves the tensor passed in as it
was and returns the reduction.  They keep the meaning of the originals exactly when that makes no difference
(`communicationAdaptation310p_iff`).
-/

namespace VllmAscend

open Machinery

variable {R : Type} {n : ℕ}

/-! ## Collective calls -/

inductive DeviceType
  | cpu
  | npu
  deriving DecidableEq

inductive DType
  | bool
  | int32
  | int64
  | float16
  | bfloat16
  | float32
  deriving DecidableEq

inductive ReduceOp
  | sum
  | avg
  | product
  | min
  | max
  | band
  | bor
  | bxor
  deriving DecidableEq

/-- A process group: the global rank of each member, in the order of the group. -/
structure ProcessGroup (n : ℕ) where
  globalRank : Fin n → ℕ
  injective : Function.Injective globalRank

/-- What the members pass in, on devices of one kind and of one dtype and shape. -/
structure Passed (n : ℕ) (R : Type) where
  device : DeviceType
  dtype : DType
  shape : List ℕ
  tensor : Fin n → Shaped R
  shape_eq : ∀ r, (tensor r).shape = shape

/-- What a call returns. -/
inductive Returned (R : Type)
  | nothing
  | handle
  | tensor (x : Shaped R)
  deriving DecidableEq

/-- A member after a call has finished: the tensor it passed in, and what was returned. -/
structure Called (R : Type) where
  tensor : Shaped R
  returned : Returned R
  deriving DecidableEq

inductive CommError
  | indexError
  | notImplementOp (op : ReduceOp)
  deriving DecidableEq

/-- The members' results. -/
abbrev CollectiveResult (n : ℕ) (R : Type) := Fin n → Except CommError (Called R)

/-- `torch.distributed`, as far as it is replaced or used. -/
structure TorchDistributed (R : Type) where
  emptyLike : Shaped R → Shaped R
  allGather : {n : ℕ} → ProcessGroup n → (Fin n → List (Shaped R)) → (Fin n → Shaped R) → Fin n → List (Shaped R)
  broadcast : {n : ℕ} → ProcessGroup n → Passed n R → (src : ℕ) → (asyncOp : Bool) → CollectiveResult n R
  allReduce : {n : ℕ} → ProcessGroup n → Passed n R → ReduceOp → (asyncOp : Bool) → CollectiveResult n R

/-! ## The replacements -/

/-- `f` over the entries of stacked tensors at each place. -/
def stackReduce (f : List R → R) [Zero R] (shape : List ℕ) (tensorList : List (Shaped R)) : Shaped R :=
  ⟨shape, (List.range shape.prod).map fun k => f (tensorList.map (·.data.getD k 0)), by
    rw [List.length_map, List.length_range]⟩

namespace TorchDistributed

variable (td : TorchDistributed R)

/-- `tensor_list` of every member, filled by `all_gather`. -/
def tensorLists (group : ProcessGroup n) (passed : Passed n R) : Fin n → List (Shaped R) :=
  td.allGather group
    (fun rank => (List.replicate n (td.emptyLike (passed.tensor rank))).set rank (passed.tensor rank)) passed.tensor

/-- `broadcast310p` -/
def broadcast310p (group : ProcessGroup n) (passed : Passed n R) (src : ℕ) (asyncOp : Bool) :
    CollectiveResult n R :=
  if passed.device = .cpu then td.broadcast group passed src asyncOp
  else fun rank =>
    match (td.tensorLists group passed rank)[src]? with
    | some x => .ok ⟨x, if asyncOp then .handle else .nothing⟩
    | none => .error .indexError

/-- `all_reduce` of `all_reduce_wrapper_310p`.  The tensor passed in is the member's own of its list. -/
def allReduce310p [AddCommMonoid R] [LinearOrder R] (group : ProcessGroup n) (passed : Passed n R) (op : ReduceOp)
    (asyncOp : Bool) : CollectiveResult n R :=
  if passed.dtype ≠ .int64 then td.allReduce group passed op asyncOp
  else fun rank =>
    let tensorList := td.tensorLists group passed rank
    let tensor := tensorList.getD rank (passed.tensor rank)
    match op with
    | .sum => .ok ⟨tensor, .tensor (stackReduce List.sum passed.shape tensorList)⟩
    | .max => .ok ⟨tensor, .tensor (stackReduce (fun xs => xs.max?.getD 0) passed.shape tensorList)⟩
    | op => .error (.notImplementOp op)

/-- `communication_adaptation_310p` -/
def communicationAdaptation310p [AddCommMonoid R] [LinearOrder R] : TorchDistributed R :=
  { td with broadcast := td.broadcast310p, allReduce := td.allReduce310p }

end TorchDistributed

/-! ## What the originals mean -/

section Meaning

variable [AddCommMonoid R] [LinearOrder R]

/-- `x` is the reduction of `xs`, for the operations that the replacement has. -/
def ReduceOp.Reduces : ReduceOp → (Fin n → R) → R → Prop
  | .sum, xs, x => x = ∑ r, xs r
  | .max, xs, x => IsGreatest (Set.range xs) x
  | _, _, _ => False

/-- A tensor is the reduction of all members' tensors, entry by entry. -/
def Passed.IsReduction (passed : Passed n R) (op : ReduceOp) (x : Shaped R) : Prop :=
  x.shape = passed.shape ∧
    ∀ k < passed.shape.prod, op.Reduces (fun r => (passed.tensor r).data.getD k 0) (x.data.getD k 0)

namespace TorchDistributed

/-- The broadcast leaves on every member the tensor of the member whose global rank is the source's. -/
def Broadcasts (td : TorchDistributed R) (group : ProcessGroup n) (passed : Passed n R) (asyncOp : Bool)
    (src : Fin n) : Prop :=
  ∀ r, ∃ called, td.broadcast group passed (group.globalRank src) asyncOp r = .ok called ∧
    called.tensor = passed.tensor src

/-- The all-reduce leaves the reduction in every member's tensor. -/
def ReducesInPlace (td : TorchDistributed R) (group : ProcessGroup n) (passed : Passed n R) (asyncOp : Bool)
    (op : ReduceOp) : Prop :=
  ∀ r, ∃ called, td.allReduce group passed op asyncOp r = .ok called ∧ passed.IsReduction op called.tensor

/-- **What `torch.distributed` documents** of the functions that are replaced or used. -/
structure Documented (td : TorchDistributed R) : Prop where
  shape_emptyLike : ∀ x, (td.emptyLike x).shape = x.shape
  allGather_eq : ∀ {n : ℕ} (group : ProcessGroup n) (passed : Passed n R) (lists : Fin n → List (Shaped R)),
    (∀ r, (lists r).length = n) → (∀ r, ∀ x ∈ lists r, x.shape = passed.shape) →
      ∀ r, td.allGather group lists passed.tensor r = List.ofFn passed.tensor
  broadcasts : ∀ {n : ℕ} (group : ProcessGroup n) (passed : Passed n R) (asyncOp : Bool) (src : Fin n),
    td.Broadcasts group passed asyncOp src
  reducesInPlace : ∀ {n : ℕ} (group : ProcessGroup n) (passed : Passed n R) (asyncOp : Bool) (op : ReduceOp),
    op = .sum ∨ op = .max → td.ReducesInPlace group passed asyncOp op

variable {td : TorchDistributed R}

/-- **The gathered tensors** stand in the order of the group. -/
theorem Documented.tensorLists_eq (h : td.Documented) (group : ProcessGroup n) (passed : Passed n R) (rank : Fin n) :
    td.tensorLists group passed rank = List.ofFn passed.tensor := by
  refine h.allGather_eq group passed _ (fun r => ?_) (fun r x hx => ?_) rank
  · rw [List.length_set, List.length_replicate]
  · rcases List.mem_or_eq_of_mem_set hx with hx | rfl
    · rw [List.eq_of_mem_replicate hx, h.shape_emptyLike, passed.shape_eq]
    · exact passed.shape_eq r

/-! ## Broadcast -/

theorem broadcast310p_npu (h : td.Documented) (group : ProcessGroup n) {passed : Passed n R}
    (hdevice : passed.device ≠ .cpu) (src : ℕ) (asyncOp : Bool) (rank : Fin n) :
    td.broadcast310p group passed src asyncOp rank =
      if hsrc : src < n then .ok ⟨passed.tensor ⟨src, hsrc⟩, if asyncOp then .handle else .nothing⟩
      else .error .indexError := by
  rw [broadcast310p, if_neg hdevice]
  simp only [h.tensorLists_eq]
  by_cases hsrc : src < n
  · rw [List.getElem?_ofFn, dif_pos hsrc, dif_pos hsrc]
  · rw [List.getElem?_ofFn, dif_neg hsrc, dif_neg hsrc]

/-- **When a broadcast is one**: the source's global rank has to lead to the source's tensor. -/
theorem broadcasts_iff (h : td.Documented) (group : ProcessGroup n) (passed : Passed n R) (asyncOp : Bool)
    (src : Fin n) : td.communicationAdaptation310p.Broadcasts group passed asyncOp src ↔
      passed.device = .cpu ∨
        ∃ hsrc : group.globalRank src < n, passed.tensor ⟨group.globalRank src, hsrc⟩ = passed.tensor src := by
  simp only [Broadcasts, communicationAdaptation310p]
  by_cases hdevice : passed.device = .cpu
  · have horiginal := h.broadcasts group passed asyncOp src
    simp only [broadcast310p, if_pos hdevice]
    exact iff_of_true horiginal (Or.inl hdevice)
  · simp only [broadcast310p_npu h group hdevice]
    constructor
    · intro hall
      obtain ⟨called, hcalled, htensor⟩ := hall src
      split at hcalled
      · next hsrc =>
        obtain rfl := Except.ok.inj hcalled
        exact Or.inr ⟨hsrc, htensor⟩
      · exact absurd hcalled (by simp)
    · rintro (hcpu | ⟨hsrc, htensor⟩) r
      · exact absurd hcpu hdevice
      · exact ⟨_, dif_pos hsrc, htensor⟩

/-- A member whose place in the group is its global rank broadcasts its tensor. -/
theorem broadcasts_of_globalRank_eq (h : td.Documented) {group : ProcessGroup n} {src : Fin n}
    (hsrc : group.globalRank src = src) (passed : Passed n R) (asyncOp : Bool) :
    td.communicationAdaptation310p.Broadcasts group passed asyncOp src := by
  refine (broadcasts_iff h group passed asyncOp src).mpr (Or.inr ⟨hsrc ▸ src.isLt, ?_⟩)
  exact congrArg passed.tensor (Fin.ext hsrc)

/-! ## All-reduce -/

omit [LinearOrder R] in
theorem getD_stackReduce {f : List R → R} {shape : List ℕ} {k : ℕ} (hk : k < shape.prod) (xs : Fin n → Shaped R) :
    (stackReduce f shape (List.ofFn xs)).data.getD k 0 = f (List.ofFn fun r => (xs r).data.getD k 0) := by
  rw [stackReduce, List.getD_eq_getElem?_getD, List.getElem?_map, List.getElem?_range hk, Option.map_some,
    Option.getD_some, List.map_ofFn]
  rfl

/-- **What is returned is the reduction.** -/
theorem isReduction_stackReduce (hn : 0 < n) (passed : Passed n R) :
    passed.IsReduction .sum (stackReduce List.sum passed.shape (List.ofFn passed.tensor)) ∧
      passed.IsReduction .max
        (stackReduce (fun xs => xs.max?.getD 0) passed.shape (List.ofFn passed.tensor)) := by
  refine ⟨⟨rfl, fun k hk => ?_⟩, ⟨rfl, fun k hk => ?_⟩⟩
  · rw [getD_stackReduce hk]
    exact List.sum_ofFn
  · rw [getD_stackReduce hk]
    obtain ⟨x, hx⟩ : ∃ x, (List.ofFn fun r => (passed.tensor r).data.getD k 0).max? = some x :=
      Option.ne_none_iff_exists'.mp fun hnone =>
        hn.ne' (List.length_ofFn.symm.trans (congrArg List.length (List.max?_eq_none_iff.mp hnone)))
    obtain ⟨hmem, hle⟩ := List.max?_eq_some_iff.mp hx
    rw [hx, Option.getD_some]
    exact ⟨(List.mem_ofFn' _ _).mp hmem, fun y hy => hle y ((List.mem_ofFn' _ _).mpr hy)⟩

theorem allReduce310p_int64 (h : td.Documented) (group : ProcessGroup n) {passed : Passed n R}
    (hdtype : passed.dtype = .int64) {op : ReduceOp} (hop : op = .sum ∨ op = .max) (asyncOp : Bool) (rank : Fin n) :
    ∃ x, passed.IsReduction op x ∧
      td.allReduce310p group passed op asyncOp rank = .ok ⟨passed.tensor rank, .tensor x⟩ := by
  have htensor : (List.ofFn passed.tensor).getD rank (passed.tensor rank) = passed.tensor rank := by
    rw [List.getD_eq_getElem?_getD, List.getElem?_ofFn, dif_pos rank.isLt, Option.getD_some]
  obtain ⟨hsum, hmax⟩ := isReduction_stackReduce rank.pos passed
  simp only [allReduce310p, hdtype, ne_eq, not_true_eq_false, if_false, h.tensorLists_eq, htensor]
  rcases hop with rfl | rfl
  · exact ⟨_, hsum, rfl⟩
  · exact ⟨_, hmax, rfl⟩

/-- **When an all-reduce works in place**: the tensors have to be the reduction already. -/
theorem reducesInPlace_iff (h : td.Documented) (group : ProcessGroup n) (passed : Passed n R) (asyncOp : Bool)
    {op : ReduceOp} (hop : op = .sum ∨ op = .max) :
    td.communicationAdaptation310p.ReducesInPlace group passed asyncOp op ↔
      passed.dtype ≠ .int64 ∨ ∀ r, passed.IsReduction op (passed.tensor r) := by
  simp only [ReducesInPlace, communicationAdaptation310p]
  by_cases hdtype : passed.dtype = .int64
  · rw [or_iff_right (not_not.mpr hdtype)]
    refine forall_congr' fun r => ?_
    obtain ⟨x, -, hx⟩ := allReduce310p_int64 h group hdtype hop asyncOp r
    rw [hx]
    constructor
    · rintro ⟨called, hcalled, hreduction⟩
      obtain rfl := Except.ok.inj hcalled
      exact hreduction
    · exact fun hreduction => ⟨_, rfl, hreduction⟩
  · have horiginal := h.reducesInPlace group passed asyncOp op hop
    simp only [allReduce310p, if_pos hdtype]
    exact iff_of_true horiginal (Or.inl hdtype)

/-- **When the replacements keep the meaning of the originals.**  A broadcast does on the CPU, or if the member
whose place in the group is the source's global rank holds the source's tensor; an all-reduce does unless the
dtype is `int64`, or if every tensor is the reduction beforehand. -/
theorem communicationAdaptation310p_iff (h : td.Documented) (group : ProcessGroup n) (passed : Passed n R)
    (asyncOp : Bool) :
    (∀ src : Fin n, td.communicationAdaptation310p.Broadcasts group passed asyncOp src ↔
      passed.device = .cpu ∨
        ∃ hsrc : group.globalRank src < n, passed.tensor ⟨group.globalRank src, hsrc⟩ = passed.tensor src) ∧
    ∀ op, op = .sum ∨ op = .max → (td.communicationAdaptation310p.ReducesInPlace group passed asyncOp op ↔
      passed.dtype ≠ .int64 ∨ ∀ r, passed.IsReduction op (passed.tensor r)) :=
  ⟨broadcasts_iff h group passed asyncOp, fun _ hop => reducesInPlace_iff h group passed asyncOp hop⟩

/-! ## A group away from rank zero -/

/-- The collectives, computed at once for the whole group. -/
def direct : TorchDistributed R where
  emptyLike x := x
  allGather _ _ tensors _ := List.ofFn tensors
  broadcast group passed src asyncOp _ :=
    match (List.finRange _).find? (group.globalRank · = src) with
    | some m => .ok ⟨passed.tensor m, if asyncOp then .handle else .nothing⟩
    | none => .error .indexError
  allReduce _ passed op asyncOp _ :=
    let returned := if asyncOp then .handle else .nothing
    match op with
    | .sum => .ok ⟨stackReduce List.sum passed.shape (List.ofFn passed.tensor), returned⟩
    | .max => .ok ⟨stackReduce (fun xs => xs.max?.getD 0) passed.shape (List.ofFn passed.tensor), returned⟩
    | op => .error (.notImplementOp op)

theorem documented_direct : (direct (R := R)).Documented where
  shape_emptyLike _ := rfl
  allGather_eq _ _ _ _ _ _ := rfl
  broadcasts group passed asyncOp src r := by
    have hsome : ((List.finRange _).find? (group.globalRank · = group.globalRank src)).isSome := by
      rw [List.find?_isSome]
      exact ⟨src, List.mem_finRange src, decide_eq_true rfl⟩
    obtain ⟨m, hm⟩ := Option.isSome_iff_exists.mp hsome
    have hrank : decide (group.globalRank m = group.globalRank src) = true :=
      List.find?_some (p := fun m => decide (group.globalRank m = group.globalRank src)) hm
    obtain rfl : m = src := group.injective (of_decide_eq_true hrank)
    refine ⟨⟨passed.tensor m, if asyncOp then .handle else .nothing⟩, ?_, rfl⟩
    simp only [direct, hm]
  reducesInPlace group passed asyncOp op hop r := by
    obtain ⟨hsum, hmax⟩ := isReduction_stackReduce r.pos passed
    rcases hop with rfl | rfl
    · exact ⟨_, rfl, hsum⟩
    · exact ⟨_, rfl, hmax⟩

end TorchDistributed

end Meaning

/-- Global ranks two and three. -/
def secondPair : ProcessGroup 2 := ⟨fun r => r + 2, fun _ _ h => Fin.ext (Nat.add_right_cancel h)⟩

/-- One entry a member. -/
def onePlus : Passed 2 ℤ := ⟨.npu, .int64, [1], fun r => ⟨[1], [r + 1], rfl⟩, fun _ => rfl⟩

open TorchDistributed in
theorem communicationAdaptation310p_iff_secondPair :
    (direct (R := ℤ)).communicationAdaptation310p.Broadcasts secondPair onePlus false 0 ↔
      onePlus.device = .cpu ∨ ∃ hsrc : secondPair.globalRank 0 < 2,
        onePlus.tensor ⟨secondPair.globalRank 0, hsrc⟩ = onePlus.tensor 0 :=
  (communicationAdaptation310p_iff documented_direct secondPair onePlus false).1 0

open TorchDistributed in
/-- **Neither keeps its meaning on this group.** -/
theorem not_broadcasts_secondPair :
    ¬ (direct (R := ℤ)).communicationAdaptation310p.Broadcasts secondPair onePlus false 0 ∧
      ¬ (direct (R := ℤ)).communicationAdaptation310p.ReducesInPlace secondPair onePlus false .sum := by
  refine ⟨fun hall => ?_, fun hall => ?_⟩
  · obtain ⟨called, hcalled, -⟩ := hall 0
    exact absurd hcalled (by simp [communicationAdaptation310p, broadcast310p, onePlus, tensorLists, direct,
      secondPair])
  · obtain ⟨called, hcalled, -, hreduction⟩ := hall 0
    obtain rfl := Except.ok.inj hcalled
    have hentry : (1 : ℤ) = ∑ r : Fin 2, (onePlus.tensor r).data.getD 0 0 := hreduction 0 Nat.one_pos
    exact absurd hentry (by decide)

end VllmAscend
