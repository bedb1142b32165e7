import VllmAscend.Machinery.Collective

/-!
# Distributed/AllToAll — `NPUCommunicator.all_to_all`

    rank s   its input   cut along scatter_dim     chunk 0 │ … │ chunk r │ …
    rank r   a buffer    for chunk r of rank s     joined along gather_dim

Buffers are made of a rank's own chunks.  With sizes, that is its chunk for itself with the length that rank
`s` is to send; without, it is its chunk for `s`, which is as long as what `s` sends only if the two chunks
agree (`allToAll_iff`).  Chunks of `tensor_split` that are not of one length do not.
-/

namespace VllmAscend

open Machinery

variable {α : Type} {n : ℕ}

/-- `dim`, as `torch` reads it for a tensor of `rank` dimensions. -/
def torchDim (rank : ℕ) (dim : ℤ) : Option ℕ :=
  if 0 ≤ dim ∧ dim < rank then some dim.toNat
  else if dim < 0 ∧ 0 ≤ dim + rank then some (dim + rank).toNat else none

/-- What a rank calls `all_to_all` with. -/
structure AllToAllCall (α : Type) where
  input_ : Shaped α
  scatterDim : ℤ
  gatherDim : ℤ
  scatterSizes : Option (List ℕ)
  gatherSizes : Option (List ℕ)

namespace AllToAllCall

/-- A negative `dim` counted from the end. -/
def wrap (call : AllToAllCall α) (dim : ℤ) : Option ℕ :=
  torchDim call.input_.shape.length (if dim < 0 then dim + call.input_.shape.length else dim)

/-- `input_list` -/
def inputList (call : AllToAllCall α) (worldSize scatterDim : ℕ) : Option (List (Shaped α)) :=
  match call.scatterSizes, call.gatherSizes with
  | some scatterSizes, some _ => call.input_.split scatterSizes scatterDim
  | _, _ => call.input_.split (tensorSplitSizes (call.input_.size scatterDim) worldSize) scatterDim

/-- The shapes of `output_list`. -/
def outputShapes (call : AllToAllCall α) (rank : Fin n) (inputs : Fin n → Shaped α) (gatherDim : ℕ) :
    Option (Fin n → List ℕ) :=
  match call.scatterSizes, call.gatherSizes with
  | some _, some gatherSizes =>
    let tensorShapeBase := (inputs rank).shape
    collect fun i => (gatherSizes[(i : ℕ)]?).map fun size => tensorShapeBase.set gatherDim size
  | _, _ => some fun i => (inputs i).shape

end AllToAllCall

/-- `all_to_all`, called by every rank of the group. -/
def NPUCommunicator.allToAll (calls : Fin n → AllToAllCall α) : Option (Fin n → Shaped α) := do
  let scatterDims ← collect fun r => (calls r).wrap (calls r).scatterDim
  let gatherDims ← collect fun r => (calls r).wrap (calls r).gatherDim
  let inputs ← collect fun r => ((calls r).inputList n (scatterDims r)).bind (byRank n)
  let buffers ← collect fun r => (calls r).outputShapes r (inputs r) (gatherDims r)
  let outputs ← Machinery.allToAll buffers inputs
  collect fun r => Shaped.cat (List.ofFn (outputs r)) (gatherDims r)

/-- `GroupCoordinatorPatch.all_to_all` -/
def GroupCoordinatorPatch.allToAll (calls : Fin n → AllToAllCall α) : Option (Fin n → Shaped α) :=
  if n = 1 then some fun r => (calls r).input_
  else if ∀ r, -((calls r).input_.shape.length : ℤ) ≤ (calls r).scatterDim ∧
      (calls r).scatterDim < (calls r).input_.shape.length ∧
      -((calls r).input_.shape.length : ℤ) ≤ (calls r).gatherDim ∧
      (calls r).gatherDim < (calls r).input_.shape.length then
    NPUCommunicator.allToAll calls
  else none

/-! ## Calls -/

/-- `dim` names dimension `d`, counted from the front or from the end. -/
def NamesDim (rank : ℕ) (dim : ℤ) (d : ℕ) : Prop := d < rank ∧ (dim = d ∨ dim + rank = d)

theorem AllToAllCall.wrap_eq {call : AllToAllCall α} {dim : ℤ} {d : ℕ}
    (h : NamesDim call.input_.shape.length dim d) : call.wrap dim = some d := by
  obtain ⟨hd, hdim | hdim⟩ := h
  · rw [wrap, if_neg (by omega), torchDim, if_pos (by omega), hdim, Int.toNat_natCast]
  · rw [wrap, if_pos (by omega), hdim, torchDim, if_pos (by omega), Int.toNat_natCast]

/-- Groups of several ranks exchange through their communicator. -/
theorem GroupCoordinatorPatch.allToAll_eq {calls : Fin n → AllToAllCall α} (hn : n ≠ 1)
    (hscatter : ∀ r, ∃ d, NamesDim (calls r).input_.shape.length (calls r).scatterDim d)
    (hgather : ∀ r, ∃ e, NamesDim (calls r).input_.shape.length (calls r).gatherDim e) :
    GroupCoordinatorPatch.allToAll calls = NPUCommunicator.allToAll calls := by
  refine (if_neg hn).trans (if_pos fun r => ?_)
  obtain ⟨d, hd, hdim⟩ := hscatter r
  obtain ⟨e, he, hdim'⟩ := hgather r
  omega

/-- **What the ranks are to get**: chunk `r` of every input, in rank order. -/
def IsExchange (xs : Fin n → Shaped α) (sizes : Fin n → List ℕ) (scatterDim gatherDim : ℕ)
    (ys : Fin n → Shaped α) : Prop :=
  ∃ chunks : Fin n → Fin n → Shaped α,
    (∀ s, (xs s).split (sizes s) scatterDim = some (List.ofFn (chunks s))) ∧
      ∀ r, Shaped.cat (List.ofFn fun s => chunks s r) gatherDim = some (ys r)

/-- **Chunks agree**: what `s` has for `r` has the shape of what `r` has for `s`. -/
def ChunksAgree (xs : Fin n → Shaped α) (scatterDim : ℕ) : Prop :=
  ∀ r s : Fin n,
    (xs s).shape.set scatterDim ((tensorSplitSizes ((xs s).size scatterDim) n).getD r 0) =
      (xs r).shape.set scatterDim ((tensorSplitSizes ((xs r).size scatterDim) n).getD s 0)

/-! ## One exchange -/

variable {chunks : Fin n → Fin n → Shaped α} {d e : ℕ}

/-- **An exchange** of chunks returns if the buffers have the shapes of what is sent. -/
theorem NPUCommunicator.allToAll_eq (calls : Fin n → AllToAllCall α) (buffers : Fin n → Fin n → List ℕ)
    {ys : Fin n → Shaped α}
    (hscatter : ∀ r, (calls r).wrap (calls r).scatterDim = some d)
    (hgather : ∀ r, (calls r).wrap (calls r).gatherDim = some e)
    (hinputs : ∀ r, (calls r).inputList n d = some (List.ofFn (chunks r)))
    (hbuffers : ∀ r, (calls r).outputShapes r (chunks r) e = some (buffers r))
    (hys : ∀ r, Shaped.cat (List.ofFn fun s => chunks s r) e = some (ys r)) :
    NPUCommunicator.allToAll calls = some ys ↔ ∀ r s, buffers r s = (chunks s r).shape := by
  have hchunks : ∀ r, ((calls r).inputList n d).bind (byRank n) = some (chunks r) := fun r => by
    rw [hinputs, Option.bind_some, byRank_ofFn]
  simp only [NPUCommunicator.allToAll, Option.bind_eq_bind]
  rw [collect_eq_some.mpr hscatter, Option.bind_some, collect_eq_some.mpr hgather, Option.bind_some,
    collect_eq_some.mpr hchunks, Option.bind_some, collect_eq_some.mpr hbuffers, Option.bind_some]
  by_cases hall : ∀ r s, buffers r s = (chunks s r).shape
  · rw [Machinery.allToAll, if_pos hall, Option.bind_some]
    exact ⟨fun _ => hall, fun _ => collect_eq_some.mpr hys⟩
  · rw [Machinery.allToAll, if_neg hall]
    exact ⟨fun h => absurd h (Option.some_ne_none ys).symm, fun h => absurd h hall⟩

/-- Chunks of one shape except along the gather dimension are joined. -/
theorem exists_joined {xs : Fin n → Shaped α} {sizes : Fin n → Fin n → ℕ} {shape : List ℕ}
    (hn : 0 < n) (hd : d < shape.length) (he : e < shape.length)
    (hshape : ∀ s, (xs s).shape = shape.set e ((xs s).size e))
    (hsizes : d ≠ e → ∀ r s s', sizes s r = sizes s' r)
    (hcut : ∀ s, (xs s).IsCut (sizes s) d (chunks s)) (r : Fin n) :
    ∃ y, Shaped.cat (List.ofFn fun s => chunks s r) e = some y ∧
      y.shape = (shape.set d (sizes ⟨0, hn⟩ r)).set e (List.ofFn fun s => (chunks s r).size e).sum ∧
      y.IsCut (fun s => (chunks s r).size e) e (fun s => chunks s r) := by
  refine Shaped.exists_cat_isCut (fun s => chunks s r) _ hn (by rwa [List.length_set]) fun s => ?_
  have hchunk := (hcut s).shape_eq r
  rw [hshape s] at hchunk
  by_cases hde : d = e
  · subst hde
    rw [List.set_set] at hchunk ⊢
    rw [Shaped.size, hchunk, Shaped.getD_set hd]
  · rw [hsizes hde r s ⟨0, hn⟩, List.set_comm _ _ (Ne.symm hde)] at hchunk
    rw [Shaped.size, hchunk, Shaped.getD_set (by rwa [List.length_set])]

/-! ## Both modes -/

section Modes

variable {xs : Fin n → Shaped α} {shape : List ℕ} {scatterDim gatherDim : ℤ}

/-- **With sizes**: what `s` scatters to `r` is what `r` gathers from `s`. -/
theorem allToAll_sizes (hn : 0 < n) (hscatter : NamesDim shape.length scatterDim d)
    (hgather : NamesDim shape.length gatherDim d) (hshape : ∀ s, (xs s).shape = shape.set d ((xs s).size d))
    (sizes : Fin n → Fin n → ℕ) (hsum : ∀ s, (List.ofFn (sizes s)).sum = (xs s).size d) :
    ∃ (chunks : Fin n → Fin n → Shaped α) (ys : Fin n → Shaped α), (∀ s, (xs s).IsCut (sizes s) d (chunks s)) ∧
      (∀ r, Shaped.cat (List.ofFn fun s => chunks s r) d = some (ys r)) ∧
      (∀ r, (ys r).shape = shape.set d ((ys r).size d)) ∧
      (∀ r, (ys r).IsCut (fun s => sizes s r) d fun s => chunks s r) ∧
      NPUCommunicator.allToAll (fun r => ⟨xs r, scatterDim, gatherDim, some (List.ofFn (sizes r)),
        some (List.ofFn fun s => sizes s r)⟩) = some ys := by
  have hlength : ∀ s, (xs s).shape.length = shape.length := fun s => by rw [hshape s, List.length_set]
  choose chunks hcut using fun s =>
    Shaped.exists_isCut (xs s) (sizes s) (hlength s ▸ hscatter.1) (hsum s)
  have hsize : ∀ s r, (chunks s r).shape = shape.set d (sizes s r) := fun s r => by
    rw [(hcut s).shape_eq r, hshape s, List.set_set]
  have hchunkSize : ∀ s r, (chunks s r).size d = sizes s r := fun s r => by
    rw [Shaped.size, hsize, Shaped.getD_set hscatter.1]
  choose ys hys hysShape hysCut using
    exists_joined hn hscatter.1 hscatter.1 hshape (fun hne => absurd rfl hne) hcut
  refine ⟨chunks, ys, hcut, hys, fun r => ?_, fun r => ?_, ?_⟩
  · rw [Shaped.size, hysShape r, List.set_set, Shaped.getD_set hscatter.1]
  · have hcutr := hysCut r
    simp only [hchunkSize] at hcutr
    exact hcutr
  · refine (NPUCommunicator.allToAll_eq (fun r => ⟨xs r, scatterDim, gatherDim, some (List.ofFn (sizes r)),
      some (List.ofFn fun s => sizes s r)⟩) (fun r s => shape.set d (sizes s r)) (fun r => ?_) (fun r => ?_)
      (fun r => (hcut r).split_eq) (fun r => ?_) hys).mpr fun r s => (hsize s r).symm
    · exact AllToAllCall.wrap_eq (by rw [hlength r]; exact hscatter)
    · exact AllToAllCall.wrap_eq (by rw [hlength r]; exact hgather)
    · refine collect_eq_some.mpr fun i => ?_
      rw [List.getElem?_ofFn, dif_pos i.isLt, Option.map_some, hsize, List.set_set]

/-- **Without sizes**: buffers have the shapes of what is sent where chunks agree. -/
theorem allToAll_tensorSplit (hn : 0 < n) (hscatter : NamesDim shape.length scatterDim d)
    (hgather : NamesDim shape.length gatherDim e)
    (hshape : ∀ s, (xs s).shape = shape.set e ((xs s).size e)) :
    ∃ (chunks : Fin n → Fin n → Shaped α) (ys : Fin n → Shaped α),
      (∀ s, (xs s).split (tensorSplitSizes ((xs s).size d) n) d = some (List.ofFn (chunks s))) ∧
      (∀ r, Shaped.cat (List.ofFn fun s => chunks s r) e = some (ys r)) ∧
      (NPUCommunicator.allToAll (fun r => ⟨xs r, scatterDim, gatherDim, none, none⟩) = some ys ↔
        ChunksAgree xs d) := by
  have hlength : ∀ s, (xs s).shape.length = shape.length := fun s => by rw [hshape s, List.length_set]
  have hofFn : ∀ len, tensorSplitSizes len n =
      List.ofFn fun r : Fin n => (tensorSplitSizes len n).getD r 0 := fun len => by
    refine List.ext_getElem (by simp) fun i hi _ => ?_
    rw [List.getElem_ofFn, List.getD_eq_getElem]
  choose chunks hcut using fun s => Shaped.exists_isCut (xs s) (d := d)
    (fun r : Fin n => (tensorSplitSizes ((xs s).size d) n).getD r 0) (hlength s ▸ hscatter.1)
    (by rw [← hofFn, sum_tensorSplitSizes hn])
  have hsplit : ∀ s, (xs s).split (tensorSplitSizes ((xs s).size d) n) d = some (List.ofFn (chunks s)) :=
    fun s => by rw [hofFn]; exact (hcut s).split_eq
  have hsame : d ≠ e → ∀ r s s' : Fin n, (tensorSplitSizes ((xs s).size d) n).getD r 0 =
      (tensorSplitSizes ((xs s').size d) n).getD r 0 := fun hde r s s' => by
    have hsize : ∀ s, (xs s).size d = shape.getD d 0 := fun s => by
      rw [Shaped.size, hshape s, List.getD_eq_getElem?_getD, List.getElem?_set_ne (Ne.symm hde),
        ← List.getD_eq_getElem?_getD]
    rw [hsize, hsize]
  choose ys hys _ _ using exists_joined hn hscatter.1 hgather.1 hshape hsame hcut
  refine ⟨chunks, ys, hsplit, hys, ?_⟩
  refine (NPUCommunicator.allToAll_eq (fun r => ⟨xs r, scatterDim, gatherDim, none, none⟩)
    (fun r s => (chunks r s).shape) (fun r => ?_) (fun r => ?_) hsplit (fun r => rfl) hys).trans ?_
  · exact AllToAllCall.wrap_eq (by rw [hlength r]; exact hscatter)
  · exact AllToAllCall.wrap_eq (by rw [hlength r]; exact hgather)
  · refine forall_congr' fun r => forall_congr' fun s => ?_
    rw [(hcut r).shape_eq, (hcut s).shape_eq]
    exact eq_comm

/-- **Back again**: with the sizes swapped every rank gets its input. -/
theorem allToAll_back (hn : 0 < n) (hscatter : NamesDim shape.length scatterDim d)
    (hgather : NamesDim shape.length gatherDim d) {sizes : Fin n → Fin n → ℕ} {ys : Fin n → Shaped α}
    (hcut : ∀ s, (xs s).IsCut (sizes s) d (chunks s)) (hys : ∀ r, (ys r).shape = shape.set d ((ys r).size d))
    (hycut : ∀ r, (ys r).IsCut (fun s => sizes s r) d fun s => chunks s r)
    (hsum : ∀ r, (List.ofFn fun s => sizes s r).sum = (ys r).size d) :
    NPUCommunicator.allToAll (fun r => ⟨ys r, scatterDim, gatherDim, some (List.ofFn fun s => sizes s r),
      some (List.ofFn (sizes r))⟩) = some xs := by
  obtain ⟨chunks', zs, hcut', hzs, _, _, hback⟩ :=
    allToAll_sizes hn hscatter hgather hys (fun r s => sizes s r) hsum
  have hchunks : ∀ r s, chunks' r s = chunks s r := fun r s => by
    have hlists := Option.some.inj ((hcut' r).split_eq.symm.trans (hycut r).split_eq)
    exact congrFun (List.ofFn_injective hlists) s
  have hxs : zs = xs := funext fun r => by
    have hr := hzs r
    simp only [hchunks, (hcut r).cat_eq hn] at hr
    exact (Option.some.inj hr).symm
  rw [hback, hxs]

/-- For tensors of one shape, **chunks agree if the group divides the dimension**. -/
theorem chunksAgree_iff (hn : 0 < n) (hd : d < shape.length) (hshape : ∀ s, (xs s).shape = shape) :
    ChunksAgree xs d ↔ n ∣ shape.getD d 0 := by
  have hsize : ∀ s, (xs s).size d = shape.getD d 0 := fun s => by rw [Shaped.size, hshape]
  constructor
  · intro h
    have hends := h ⟨0, hn⟩ ⟨n - 1, Nat.sub_lt hn Nat.one_pos⟩
    rw [hshape, hshape, hsize, hsize] at hends
    have hget := congrArg (fun shape : List ℕ => shape.getD d 0) hends
    simp only [Shaped.getD_set hd] at hget
    rw [getD_tensorSplitSizes hn, getD_tensorSplitSizes (Nat.sub_lt hn Nat.one_pos)] at hget
    have hlt := Nat.mod_lt (shape.getD d 0) hn
    refine Nat.dvd_of_mod_eq_zero ?_
    by_contra hne
    rw [if_pos (Nat.pos_of_ne_zero hne), if_neg (by omega)] at hget
    omega
  · intro h r s
    rw [hshape, hshape, hsize, hsize, tensorSplitSizes_of_dvd h]
    simp only [List.getD_eq_getElem?_getD, List.getElem?_replicate, r.isLt, s.isLt, if_true]

end Modes

/-- **`all_to_all` is the exchange** of chunks, and with sizes is undone by the exchange with the sizes
swapped; without sizes it is where chunks agree, for tensors of one shape where the group divides the scatter
dimension. -/
theorem allToAll_iff (xs : Fin n → Shaped α) (shape : List ℕ) (scatterDim gatherDim : ℤ) (hn : 0 < n)
    (hscatter : NamesDim shape.length scatterDim d) (hgather : NamesDim shape.length gatherDim e)
    (hshape : ∀ s, (xs s).shape = shape.set e ((xs s).size e)) :
    (d = e → ∀ sizes : Fin n → Fin n → ℕ, (∀ s, (List.ofFn (sizes s)).sum = (xs s).size d) →
      ∃ ys, IsExchange xs (fun s => List.ofFn (sizes s)) d e ys ∧
        NPUCommunicator.allToAll (fun r => ⟨xs r, scatterDim, gatherDim, some (List.ofFn (sizes r)),
          some (List.ofFn fun s => sizes s r)⟩) = some ys ∧
        NPUCommunicator.allToAll (fun r => ⟨ys r, scatterDim, gatherDim,
          some (List.ofFn fun s => sizes s r), some (List.ofFn (sizes r))⟩) = some xs) ∧
    ∃ ys, IsExchange xs (fun s => tensorSplitSizes ((xs s).size d) n) d e ys ∧
      (NPUCommunicator.allToAll (fun r => ⟨xs r, scatterDim, gatherDim, none, none⟩) = some ys ↔
        ChunksAgree xs d) ∧
      ((∀ s, (xs s).shape = shape) → (ChunksAgree xs d ↔ n ∣ shape.getD d 0)) := by
  refine ⟨?_, ?_⟩
  · rintro rfl sizes hsum
    obtain ⟨chunks, ys, hcut, hys, hysShape, hysCut, hreturned⟩ :=
      allToAll_sizes hn hscatter hgather hshape sizes hsum
    refine ⟨ys, ⟨chunks, fun s => (hcut s).split_eq, hys⟩, hreturned, ?_⟩
    refine allToAll_back hn hscatter hgather hcut hysShape hysCut fun r => ?_
    have hsplit := (hysCut r).split_eq
    rw [Shaped.split] at hsplit
    by_contra hne
    rw [if_neg fun h => hne h.2] at hsplit
    exact absurd hsplit (Option.some_ne_none _).symm
  · obtain ⟨chunks, ys, hsplit, hys, hiff⟩ := allToAll_tensorSplit hn hscatter hgather hshape
    exact ⟨ys, ⟨chunks, hsplit, hys⟩, hiff, chunksAgree_iff hn hscatter.1⟩

/-- Two ranks with three entries each, in the mode without sizes. -/
theorem allToAll_iff_three :
    ∃ ys, IsExchange (fun _ : Fin 2 => (⟨[3], [0, 1, 2], rfl⟩ : Shaped ℕ))
        (fun _ => tensorSplitSizes 3 2) 0 0 ys ∧
      (NPUCommunicator.allToAll (fun _ : Fin 2 => ⟨⟨[3], [0, 1, 2], rfl⟩, 0, -1, none, none⟩) = some ys ↔
        2 ∣ 3) := by
  obtain ⟨_, ys, hys, hiff, hsame⟩ := allToAll_iff (fun _ : Fin 2 => (⟨[3], [0, 1, 2], rfl⟩ : Shaped ℕ)) [3] 0 (-1)
    (d := 0) (e := 0) Nat.two_pos
    ⟨Nat.one_pos, .inl rfl⟩ ⟨Nat.one_pos, .inr rfl⟩ fun _ => rfl
  exact ⟨ys, hys, hiff.trans (hsame fun _ => rfl)⟩

/-- **Chunks of two lengths**: rank 0 has two entries for itself and one for rank 1, which has two for it. -/
theorem not_allToAll_three :
    IsExchange ![(⟨[3], [0, 1, 2], rfl⟩ : Shaped ℕ), ⟨[3], [3, 4, 5], rfl⟩] (fun _ => tensorSplitSizes 3 2) 0 0
        ![⟨[4], [0, 1, 3, 4], rfl⟩, ⟨[2], [2, 5], rfl⟩] ∧
      NPUCommunicator.allToAll ![⟨⟨[3], [0, 1, 2], rfl⟩, 0, -1, none, none⟩,
        (⟨⟨[3], [3, 4, 5], rfl⟩, 0, -1, none, none⟩ : AllToAllCall ℕ)] = none := by
  refine ⟨⟨![![⟨[2], [0, 1], rfl⟩, ⟨[1], [2], rfl⟩], ![⟨[2], [3, 4], rfl⟩, ⟨[1], [5], rfl⟩]], ?_, ?_⟩, rfl⟩
  · decide
  · decide

end VllmAscend
