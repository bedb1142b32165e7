import VllmAscend.Machinery.WhileLoop

/-!
# Ops/TokenDispatcherWithMC2 — what the MC2 operators are given

    fused_experts_with_mc2     ── dispatch(ids, count, mode) ──▸ mlp ──▸ combine(ids, count)
    TokenDispatcherWithMC2     token_dispatch │ token_combine, over the object's own fields

The dispatcher takes the fused functions apart: it hands its arguments to the dispatch operator in one
method, keeps what the other needs, and hands that to the combine operator later.  Without
quantisation it hands over what the fused function does.  With quantisation it does not
(`agreesWithFused_iff`): the mode is that of the unquantised path, the ids are not mapped by
`log2phy`, and the combine operator is told of no redundant experts
(`sameExperts_iff`).
-/

namespace VllmAscend.Mc2

open Machinery

/-- The arguments of both operators that only some devices take. -/
structure TpKwargs where
  groupTp : String
  tpWorldSize : ℕ
  tpRankId : ℕ
deriving DecidableEq

/-- The arguments of `npu_moe_distribute_dispatch` and of its second version, over the tensors
`τ`. -/
structure DispatchKwargs (τ : Type) where
  x : τ
  expertIds : List (List ℕ)
  expertShardType : ℕ
  sharedExpertRankNum : ℕ
  moeExpertNum : ℕ
  globalBs : ℕ
  quantMode : ℕ
  groupEp : String
  epWorldSize : ℕ
  epRankId : ℕ
  tp : Option TpKwargs
  xActiveMask : Option τ

/-- Under which name the combine operator takes the indices of the dispatch. -/
inductive AssistInfo (τ : Type) where
  | assistInfoForCombine (info : τ)
  | expandIdx (info : τ)

/-- The arguments of `npu_moe_distribute_combine` and of its second version. -/
structure CombineKwargs (τ : Type) where
  expandX : τ
  expertIds : List (List ℕ)
  expertScales : τ
  expertShardType : ℕ
  sharedExpertRankNum : ℕ
  moeExpertNum : ℕ
  globalBs : ℕ
  epSendCounts : τ
  groupEp : String
  epWorldSize : ℕ
  epRankId : ℕ
  assistInfo : AssistInfo τ
  tp : Option (τ × TpKwargs)
  xActiveMask : Option τ

/-- `output[0:5]` of the dispatch operator, and `output[5]`. -/
structure DispatchOutput (τ : Type) where
  expandX : τ
  dynamicScale : τ
  assistInfoForCombine : τ
  expertTokenNums : τ
  epRecvCounts : τ
  tpRecvCounts : τ

/-- The device, the group and the operators a step runs with. -/
structure Device (τ : Type) where
  groupName : String
  epWorldSize : ℕ
  epRankId : ℕ
  isA3 : Bool
  isTorchair : Bool
  enableDispatchV2 : Bool
  mc2Mask : τ
  toFloat32 : τ → τ
  /-- `torch.empty(1, dtype=torch.int32)` -/
  emptyCounts : τ
  distributeDispatch : DispatchKwargs τ → DispatchOutput τ
  /-- the expert layers between the operators -/
  applyMlp : DispatchOutput τ → τ

inductive Mc2Error where
  /-- `len(None)` -/
  | typeError
  | assertion
  /-- `log2phy[topk_ids]` out of range -/
  | indexError
deriving DecidableEq

/-- The arguments of a step. -/
structure StepArgs (τ : Type) where
  hiddenStates : τ
  topkWeights : τ
  topkIds : List (List ℕ)
  expertMap : Option (List ℤ)
  log2phy : Option (List ℕ)
  globalRedundantExpertNum : ℕ

/-- What the two operators are given in a step. -/
structure Calls (τ : Type) where
  dispatch : DispatchKwargs τ
  combine : CombineKwargs τ

section Kwargs

variable {τ : Type} (dev : Device τ)

def needExtraArgs : Bool := dev.isA3 || dev.isTorchair

def tpKwargs : Option TpKwargs :=
  if needExtraArgs dev then some ⟨dev.groupName, 1, 0⟩ else none

def activeMask : Option τ :=
  if dev.isA3 && dev.enableDispatchV2 then some dev.mc2Mask else none

def assistInfo (output : DispatchOutput τ) : AssistInfo τ :=
  if dev.enableDispatchV2 then .assistInfoForCombine output.assistInfoForCombine
  else .expandIdx output.assistInfoForCombine

/-- The dictionary of the first stage, which all three callers fill alike but for three entries. -/
def dispatchKwargs (x : τ) (expertIds : List (List ℕ)) (moeExpertNum quantMode : ℕ) :
    DispatchKwargs τ where
  x := x
  expertIds := expertIds
  expertShardType := 0
  sharedExpertRankNum := 0
  moeExpertNum := moeExpertNum
  globalBs := 0
  quantMode := quantMode
  groupEp := dev.groupName
  epWorldSize := dev.epWorldSize
  epRankId := dev.epRankId
  tp := tpKwargs dev
  xActiveMask := activeMask dev

/-- The dictionary of the third stage. -/
def combineKwargs (expandX topkWeights : τ) (expertIds : List (List ℕ)) (moeExpertNum : ℕ)
    (output : DispatchOutput τ) (tpRecvCounts : τ) : CombineKwargs τ where
  expandX := expandX
  expertIds := expertIds
  expertScales := dev.toFloat32 topkWeights
  expertShardType := 0
  sharedExpertRankNum := 0
  moeExpertNum := moeExpertNum
  globalBs := 0
  epSendCounts := output.epRecvCounts
  groupEp := dev.groupName
  epWorldSize := dev.epWorldSize
  epRankId := dev.epRankId
  assistInfo := assistInfo dev output
  tp := (tpKwargs dev).map fun tp => (tpRecvCounts, tp)
  xActiveMask := activeMask dev

end Kwargs

/-- `len(expert_map)`. -/
def lenExpertMap : Option (List ℤ) → Except Mc2Error ℕ
  | none => .error .typeError
  | some expertMap => .ok expertMap.length

/-- `len(expert_map) + global_redundant_expert_num`, or the latter without a map. -/
def replicatedExpertNum (expertMap : Option (List ℤ)) (globalRedundantExpertNum : ℕ) : ℕ :=
  match expertMap with
  | some expertMap => expertMap.length + globalRedundantExpertNum
  | none => globalRedundantExpertNum

/-- `log2phy[topk_ids]`. -/
def mapIds (log2phy : List ℕ) (topkIds : List (List ℕ)) : Except Mc2Error (List (List ℕ)) :=
  match topkIds.mapM fun row => row.mapM fun id => log2phy[id]? with
  | none => .error .indexError
  | some ids => .ok ids

/-- The ids of the experts' replicas, where there is a map to them. -/
def physicalIds (log2phy : Option (List ℕ)) (topkIds : List (List ℕ)) :
    Except Mc2Error (List (List ℕ)) :=
  match log2phy with
  | some log2phy => mapIds log2phy topkIds
  | none => .ok topkIds

/-! ## The fused functions -/

section Fused

variable {τ : Type} (dev : Device τ) (args : StepArgs τ)

/-- `fused_experts_with_mc2` of `quantization/w8a8_dynamic`. -/
def fusedExpertsWithMc2Quant : Except Mc2Error (Calls τ) := do
  let topkIds ← physicalIds args.log2phy args.topkIds
  let moeExpertNum := replicatedExpertNum args.expertMap args.globalRedundantExpertNum
  let kwargs := dispatchKwargs dev args.hiddenStates topkIds moeExpertNum 2
  let output := dev.distributeDispatch kwargs
  let downOut := dev.applyMlp output
  return ⟨kwargs, combineKwargs dev downOut args.topkWeights topkIds moeExpertNum output
    dev.emptyCounts⟩

/-- `fused_experts_with_mc2` of `ops/fused_moe`. -/
def fusedExpertsWithMc2 : Except Mc2Error (Calls τ) := do
  let moeExpertNum ← lenExpertMap args.expertMap
  let kwargs := dispatchKwargs dev args.hiddenStates args.topkIds moeExpertNum 0
  let output := dev.distributeDispatch kwargs
  let downOut := dev.applyMlp output
  return ⟨kwargs, combineKwargs dev downOut args.topkWeights args.topkIds moeExpertNum output
    output.tpRecvCounts⟩

end Fused

/-! ## The dispatcher -/

/-- `TokenDispatcherWithMC2`: its quantisation flag, and the fields that a step sets. -/
structure TokenDispatcherWithMC2 (τ : Type) where
  withQuant : Bool
  expertMap : Option (List ℤ)
  topkIds : Option (List (List ℕ))
  topkWeights : Option τ
  output : Option (DispatchOutput τ)

section Dispatcher

variable {τ : Type} (dev : Device τ)

/-- `get_dispatch_mc2_kwargs`. -/
def TokenDispatcherWithMC2.getDispatchMc2Kwargs (self : TokenDispatcherWithMC2 τ)
    (hiddenStates : τ) (topkIds : List (List ℕ)) (expertMap : Option (List ℤ))
    (globalRedundantExpertNum : ℕ) : Except Mc2Error (DispatchKwargs τ) := do
  let quantMode := 0
  let moeExpertNum ←
    if self.withQuant then .ok (replicatedExpertNum expertMap globalRedundantExpertNum)
    else lenExpertMap expertMap
  return dispatchKwargs dev hiddenStates topkIds moeExpertNum quantMode

/-- `token_dispatch`, with what it hands to the operator.  It takes `log2phy` and does not read
it. -/
def TokenDispatcherWithMC2.tokenDispatch (self : TokenDispatcherWithMC2 τ) (args : StepArgs τ) :
    Except Mc2Error (TokenDispatcherWithMC2 τ × DispatchKwargs τ × DispatchOutput τ) := do
  let self := { self with
    expertMap := args.expertMap
    topkIds := some args.topkIds
    topkWeights := some args.topkWeights }
  let kwargs ← self.getDispatchMc2Kwargs dev args.hiddenStates args.topkIds args.expertMap
    args.globalRedundantExpertNum
  let output := dev.distributeDispatch kwargs
  return ({ self with output := some output }, kwargs, output)

/-- `get_combine_mc_kwargs`. -/
def TokenDispatcherWithMC2.getCombineMcKwargs (self : TokenDispatcherWithMC2 τ)
    (hiddenStates : τ) : Except Mc2Error (CombineKwargs τ) :=
  match self.expertMap, self.topkWeights, self.topkIds, self.output with
  | some expertMap, some topkWeights, some topkIds, some output =>
    let tpRecvCounts := if self.withQuant then dev.emptyCounts else output.tpRecvCounts
    .ok (combineKwargs dev hiddenStates topkWeights topkIds expertMap.length output tpRecvCounts)
  | _, _, _, _ => .error .assertion

/-- A step: `token_dispatch`, the expert layers, `token_combine`. -/
def TokenDispatcherWithMC2.step (self : TokenDispatcherWithMC2 τ) (args : StepArgs τ) :
    Except Mc2Error (Calls τ) := do
  let (self, dispatch, output) ← self.tokenDispatch dev args
  let combine ← self.getCombineMcKwargs dev (dev.applyMlp output)
  return ⟨dispatch, combine⟩

end Dispatcher

/-! ## Agreement -/

/-- What the two operators are told about the experts. -/
structure Handed where
  dispatchIds : List (List ℕ)
  dispatchCount : ℕ
  quantMode : ℕ
  combineIds : List (List ℕ)
  combineCount : ℕ
deriving DecidableEq

section Agreement

variable {τ : Type} {dev : Device τ} {disp : TokenDispatcherWithMC2 τ} {args : StepArgs τ}

def Calls.handed (c : Calls τ) : Handed :=
  ⟨c.dispatch.expertIds, c.dispatch.moeExpertNum, c.dispatch.quantMode, c.combine.expertIds,
    c.combine.moeExpertNum⟩

/-- The function that a dispatcher replaces. -/
def replaced (dev : Device τ) (withQuant : Bool) (args : StepArgs τ) : Except Mc2Error (Calls τ) :=
  if withQuant then fusedExpertsWithMc2Quant dev args else fusedExpertsWithMc2 dev args

/-- **A step of the dispatcher agrees with the function it replaces**, and with itdisp. -/
structure AgreesWithFused (dev : Device τ) (disp : TokenDispatcherWithMC2 τ) (args : StepArgs τ) :
    Prop where
  handed : (disp.step dev args).map Calls.handed =
    (replaced dev disp.withQuant args).map Calls.handed
  sameIds : ∀ c, disp.step dev args = .ok c → c.dispatch.expertIds = c.combine.expertIds
  sameCount : ∀ c, disp.step dev args = .ok c →
    c.dispatch.moeExpertNum = c.combine.moeExpertNum
  below : ∀ c, disp.step dev args = .ok c →
    ∀ row ∈ c.dispatch.expertIds, ∀ id ∈ row, id < c.dispatch.moeExpertNum

/-- **Without quantisation the two methods make up the fused function**, whatever an earlier step
has left in the object. -/
theorem step_eq_fused (h : disp.withQuant = false) :
    disp.step dev args = fusedExpertsWithMc2 dev args := by
  rw [TokenDispatcherWithMC2.step, TokenDispatcherWithMC2.tokenDispatch,
    TokenDispatcherWithMC2.getDispatchMc2Kwargs, fusedExpertsWithMc2]
  cases hmap : args.expertMap with
  | none =>
    simp only [h]
    rfl
  | some expertMap =>
    simp only [h]
    simp [lenExpertMap, TokenDispatcherWithMC2.getCombineMcKwargs, bind, Except.bind, pure,
      Except.pure]

/-- With quantisation and an expert map a step hands over the router's own ids. -/
theorem step_quant (h : disp.withQuant = true) {expertMap : List ℤ}
    (hmap : args.expertMap = some expertMap) :
    (disp.step dev args).map Calls.handed =
      .ok ⟨args.topkIds, expertMap.length + args.globalRedundantExpertNum, 0, args.topkIds,
        expertMap.length⟩ := by
  rw [TokenDispatcherWithMC2.step, TokenDispatcherWithMC2.tokenDispatch,
    TokenDispatcherWithMC2.getDispatchMc2Kwargs]
  simp [h, hmap, TokenDispatcherWithMC2.getCombineMcKwargs, bind, Except.bind, pure, Except.pure,
    replicatedExpertNum]
  rfl

/-- Without a map the combine method stops. -/
theorem step_quant_none (h : disp.withQuant = true) (hmap : args.expertMap = none) :
    disp.step dev args = .error .assertion := by
  rw [TokenDispatcherWithMC2.step, TokenDispatcherWithMC2.tokenDispatch,
    TokenDispatcherWithMC2.getDispatchMc2Kwargs]
  simp [h, hmap, TokenDispatcherWithMC2.getCombineMcKwargs, bind, Except.bind, pure, Except.pure]

theorem fusedQuant_handed : (fusedExpertsWithMc2Quant dev args).map Calls.handed =
    (physicalIds args.log2phy args.topkIds).map fun ids =>
      ⟨ids, replicatedExpertNum args.expertMap args.globalRedundantExpertNum, 2, ids,
        replicatedExpertNum args.expertMap args.globalRedundantExpertNum⟩ := by
  rw [fusedExpertsWithMc2Quant]
  cases physicalIds args.log2phy args.topkIds <;> rfl

theorem fused_eq_ok {c : Calls τ} (h : fusedExpertsWithMc2 dev args = .ok c) :
    ∃ expertMap, args.expertMap = some expertMap ∧
      c.handed = ⟨args.topkIds, expertMap.length, 0, args.topkIds, expertMap.length⟩ := by
  rw [fusedExpertsWithMc2, bind_eq_ok] at h
  obtain ⟨n, hn, hc⟩ := h
  cases hmap : args.expertMap with
  | none =>
    rw [hmap] at hn
    contradiction
  | some expertMap =>
    rw [hmap] at hn
    obtain rfl : expertMap.length = n := Except.ok.inj hn
    cases hc
    exact ⟨expertMap, rfl, rfl⟩

/-- **Apart from the mode a quantised step agrees exactly when no expert is replicated**: the
router's ids are the physical ones, and there are no redundant experts. -/
theorem sameExperts_iff (h : disp.withQuant = true) {expertMap : List ℤ}
    (hmap : args.expertMap = some expertMap) {ids : List (List ℕ)}
    (hids : physicalIds args.log2phy args.topkIds = .ok ids) :
    (disp.step dev args).map (fun c => { c.handed with quantMode := 2 }) =
      (fusedExpertsWithMc2Quant dev args).map Calls.handed ↔
    ids = args.topkIds ∧ args.globalRedundantExpertNum = 0 := by
  have hstep : (disp.step dev args).map (fun c => { c.handed with quantMode := 2 }) =
      ((disp.step dev args).map Calls.handed).map fun t => { t with quantMode := 2 } := by
    cases disp.step dev args <;> rfl
  rw [hstep, step_quant h hmap, fusedQuant_handed, hids, hmap]
  simp only [Except.map, replicatedExpertNum, Except.ok.injEq, Handed.mk.injEq, true_and]
  constructor
  · rintro ⟨hsame, -, hcount⟩
    exact ⟨hsame.symm, by omega⟩
  · rintro ⟨rfl, hzero⟩
    rw [hzero]
    exact ⟨rfl, rfl, rfl⟩

/-- **The dispatcher agrees with the function it replaces exactly without quantisation.** -/
theorem agreesWithFused_iff (hlogical : ∀ expertMap, args.expertMap = some expertMap →
      ∀ row ∈ args.topkIds, ∀ id ∈ row, id < expertMap.length) :
    AgreesWithFused dev disp args ↔ disp.withQuant = false := by
  constructor
  · intro hagrees
    by_contra hquant
    rw [Bool.not_eq_false] at hquant
    have hhanded := hagrees.handed
    rw [replaced, if_pos hquant, fusedQuant_handed] at hhanded
    cases hmap : args.expertMap with
    | none =>
      rw [step_quant_none hquant hmap] at hhanded
      -- the fused function raises for an id outside of the map only
      have hraise : ∀ e, physicalIds args.log2phy args.topkIds = .error e → e = .indexError := by
        intro e he
        cases hlog : args.log2phy with
        | none =>
          rw [hlog] at he
          contradiction
        | some log2phy =>
          rw [hlog] at he
          change mapIds log2phy args.topkIds = .error e at he
          rw [mapIds] at he
          split at he
          · exact (Except.error.inj he).symm
          · contradiction
      cases hids : physicalIds args.log2phy args.topkIds with
      | error e =>
        rw [hids, hraise e hids] at hhanded
        cases hhanded
      | ok ids =>
        rw [hids] at hhanded
        cases hhanded
    | some expertMap =>
      rw [step_quant hquant hmap] at hhanded
      cases hids : physicalIds args.log2phy args.topkIds with
      | error e =>
        rw [hids] at hhanded
        cases hhanded
      | ok ids =>
        rw [hids] at hhanded
        have hmode := congrArg Handed.quantMode (Except.ok.inj hhanded)
        contradiction
  · intro hquant
    have hstep : disp.step dev args = fusedExpertsWithMc2 dev args := step_eq_fused hquant
    have hhanded : ∀ c, disp.step dev args = .ok c → ∃ expertMap,
        args.expertMap = some expertMap ∧ c.handed =
          ⟨args.topkIds, expertMap.length, 0, args.topkIds, expertMap.length⟩ :=
      fun c hc => fused_eq_ok (hstep ▸ hc)
    refine ⟨by rw [hstep, replaced, hquant]; rfl, fun c hc => ?_, fun c hc => ?_, fun c hc => ?_⟩
    · obtain ⟨expertMap, -, heq⟩ := hhanded c hc
      exact (congrArg Handed.dispatchIds heq).trans (congrArg Handed.combineIds heq).symm
    · obtain ⟨expertMap, -, heq⟩ := hhanded c hc
      exact (congrArg Handed.dispatchCount heq).trans (congrArg Handed.combineCount heq).symm
    · obtain ⟨expertMap, hmap, heq⟩ := hhanded c hc
      have hids : c.dispatch.expertIds = args.topkIds := congrArg Handed.dispatchIds heq
      have hcount : c.dispatch.moeExpertNum = expertMap.length := congrArg Handed.dispatchCount heq
      rw [hids, hcount]
      exact hlogical expertMap hmap

end Agreement

/-! ## Two experts, one of them twice -/

/-- A device whose tensors say nothing. -/
def bareDevice : Device Unit where
  groupName := "mc2"
  epWorldSize := 1
  epRankId := 0
  isA3 := true
  isTorchair := false
  enableDispatchV2 := true
  mc2Mask := ()
  toFloat32 := id
  emptyCounts := ()
  distributeDispatch := fun _ => ⟨(), (), (), (), (), ()⟩
  applyMlp := fun _ => ()

/-- A dispatcher before its first step. -/
def freshDispatcher (withQuant : Bool) : TokenDispatcherWithMC2 Unit :=
  ⟨withQuant, none, none, none, none⟩

/-- One token, for the second of two experts; its replica has the id two. -/
def replicatedArgs : StepArgs Unit where
  hiddenStates := ()
  topkWeights := ()
  topkIds := [[1]]
  expertMap := some [0, 1]
  log2phy := some [0, 2]
  globalRedundantExpertNum := 1

theorem agreesWithFused_withoutQuant :
    AgreesWithFused bareDevice (freshDispatcher false) replicatedArgs ↔
      (freshDispatcher false).withQuant = false :=
  agreesWithFused_iff fun expertMap hmap => by
    cases hmap
    decide

/-- **With quantisation the expert, the count and the mode all differ.** -/
theorem not_agreesWithFused :
    ((freshDispatcher true).step bareDevice replicatedArgs).map Calls.handed =
      .ok ⟨[[1]], 3, 0, [[1]], 2⟩ ∧
    (fusedExpertsWithMc2Quant bareDevice replicatedArgs).map Calls.handed =
      .ok ⟨[[2]], 3, 2, [[2]], 3⟩ ∧
    ¬ AgreesWithFused bareDevice (freshDispatcher true) replicatedArgs := by
  refine ⟨rfl, rfl, fun h => ?_⟩
  have hmode := congrArg Handed.quantMode (Except.ok.inj h.handed)
  contradiction

end VllmAscend.Mc2
