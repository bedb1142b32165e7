import VllmAscend.Sample.RejectionSampler

/-!
# Sample/GreedyVerification — the vectorised greedy pass is a scan of each request

    drafts    3 7 7        argmax   3 7 9        emitted   3 7 9
    drafts    3 7 9        argmax   3 7 9        emitted   3 7 9 bonus

`greedyTokens` scans one request: the target's choices up to and including the first that differs
from the draft, or all of them and the bonus token.  The pass computes the same with masks over the
whole batch (`rejectionGreedySamplePytorch_eq`), and so does the fast path for one draft a request.
-/

namespace VllmAscend

open Machinery

/-! ## The scan -/

/-- **What greedy verification emits** for the drafts of a request, each with the target's choice
at its position. -/
def greedyTokens : List (ℤ × ℤ) → ℤ → List ℤ
  | [], bonus => [bonus]
  | (draft, choice) :: rest, bonus =>
    if draft = choice then choice :: greedyTokens rest bonus else [choice]

/-- The front of a row overwritten. -/
def overwritten (tokens row : List ℤ) : List ℤ := tokens ++ row.drop tokens.length

/-- One more token after the front. -/
theorem setItem_overwritten (tokens row : List ℤ) (x : ℤ) (h : tokens.length < row.length) :
    setItem (overwritten tokens row) tokens.length x = some (overwritten (tokens ++ [x]) row) := by
  rw [overwritten, List.drop_eq_getElem_cons h, setItem_append _ _ _ _ rfl, overwritten]
  simp

/-- The first position whose draft is not the target's choice, the number of drafts when there is
none. -/
def firstMismatch (drafts : List (ℤ × ℤ)) : ℕ := drafts.findIdx fun p => decide (p.1 ≠ p.2)

theorem firstMismatch_le (drafts : List (ℤ × ℤ)) : firstMismatch drafts ≤ drafts.length :=
  List.findIdx_le_length

/-- The number of choices copied. -/
def copyLength (drafts : List (ℤ × ℤ)) : ℕ := min (firstMismatch drafts + 1) drafts.length

theorem greedyTokens_eq (bonus : ℤ) : ∀ drafts : List (ℤ × ℤ),
    greedyTokens drafts bonus = (drafts.map Prod.snd).take (copyLength drafts) ++
      if drafts.length ≤ firstMismatch drafts then [bonus] else []
  | [] => by simp [greedyTokens]
  | (draft, choice) :: rest => by
    have htail := greedyTokens_eq bonus rest
    by_cases h : draft = choice
    · have hfirst : firstMismatch ((draft, choice) :: rest) = firstMismatch rest + 1 := by
        simp [firstMismatch, List.findIdx_cons, h]
      have hcopy : copyLength ((draft, choice) :: rest) = copyLength rest + 1 := by
        rw [copyLength, copyLength, hfirst, List.length_cons]
        omega
      rw [greedyTokens, if_pos h, htail, hcopy, hfirst]
      simp
    · have hfirst : firstMismatch ((draft, choice) :: rest) = 0 := by
        simp [firstMismatch, List.findIdx_cons, h]
      have hcopy : copyLength ((draft, choice) :: rest) = 1 := by
        rw [copyLength, hfirst, List.length_cons]
        omega
      rw [greedyTokens, if_neg h, hcopy, hfirst]
      simp

theorem length_greedyTokens (bonus : ℤ) (drafts : List (ℤ × ℤ)) :
    1 ≤ (greedyTokens drafts bonus).length ∧
      (greedyTokens drafts bonus).length ≤ drafts.length + 1 := by
  induction drafts with
  | nil => simp [greedyTokens]
  | cons p rest ih =>
    rw [greedyTokens]
    split
    · simp only [List.length_cons]
      omega
    · simp

/-! ## The first mismatch -/

/-- A request as the greedy pass sees it, with its row of the output buffer. -/
structure GreedyRequest where
  drafts : List (ℤ × ℤ)
  bonus : ℤ
  isGreedy : Bool
  row : List ℤ

/-- The row the pass leaves. -/
def GreedyRequest.verified (r : GreedyRequest) : List ℤ :=
  if r.isGreedy then overwritten (greedyTokens r.drafts r.bonus) r.row else r.row

/-- The least mismatch position of a row, `sentinel` where there is none. -/
theorem min?_mismatches (drafts : List (ℤ × ℤ)) {w : ℕ} (hw : 0 < w) (hlen : drafts.length ≤ w) :
    (drafts.mapIdx (fun j p => if decide (p.1 ≠ p.2) then (j : ℤ) else (w : ℤ) * 2) ++
        List.replicate (w - drafts.length) ((w : ℤ) * 2)).min? =
      some (if firstMismatch drafts < drafts.length then (firstMismatch drafts : ℤ)
        else (w : ℤ) * 2) := by
  rw [List.min?_eq_some_iff]
  have hle := firstMismatch_le drafts
  refine ⟨?_, fun b hb => ?_⟩
  · split
    · next hlt =>
      have hfound : decide ((drafts[firstMismatch drafts]).1 ≠ (drafts[firstMismatch drafts]).2) :=
        List.findIdx_getElem (w := hlt)
      refine List.mem_append_left _ (List.mem_mapIdx.mpr ⟨firstMismatch drafts, hlt, ?_⟩)
      rw [if_pos hfound]
    · next hge =>
      obtain hlt | heq := hlen.lt_or_eq
      · exact List.mem_append_right _ (List.mem_replicate.mpr ⟨by omega, rfl⟩)
      · have hpos : 0 < drafts.length := by omega
        have hfirst : 0 < drafts.findIdx fun p : ℤ × ℤ => decide (p.1 ≠ p.2) := by
          change 0 < firstMismatch drafts
          omega
        have hnot := List.not_of_lt_findIdx hfirst
        refine List.mem_append_left _ (List.mem_mapIdx.mpr ⟨0, hpos, ?_⟩)
        rw [if_neg (by simpa using hnot)]
  · have hbound : (firstMismatch drafts : ℤ) ≤ (w : ℤ) * 2 := by omega
    obtain hb | hb := List.mem_append.mp hb
    · obtain ⟨j, hj, rfl⟩ := List.mem_mapIdx.mp hb
      by_cases hp : decide ((drafts[j]).1 ≠ (drafts[j]).2) = true
      · have hfirst : firstMismatch drafts ≤ j := by
          by_contra hlt
          exact absurd hp (by simpa using List.not_of_lt_findIdx (Nat.lt_of_not_le hlt))
        rw [if_pos hp]
        split <;> omega
      · rw [if_neg hp]
        split <;> omega
    · obtain ⟨_, rfl⟩ := List.mem_replicate.mp hb
      split <;> omega

section Pass

variable (rs : List GreedyRequest) (w : ℕ)

/-- The entries of the batch's drafts. -/
abbrev draftEntries : List (ℕ × Entry (ℤ × ℤ)) := entries GreedyRequest.drafts rs

theorem firstMismatchPosPerReq_eq (hlen : ∀ r ∈ rs, r.drafts.length ≤ w) :
    firstMismatchPosPerReq rs.length (rs.map fun r => r.drafts.length)
      ((draftEntries rs).map fun e => (e.1 : ℤ)) ((draftEntries rs).map fun e => (e.2.pos : ℤ))
      ((draftEntries rs).map fun e => decide (e.2.val.1 ≠ e.2.val.2)) w =
        some (rs.map fun r => (firstMismatch r.drafts : ℤ)) := by
  unfold firstMismatchPosPerReq
  split
  · next hw =>
    have hnil : ∀ r ∈ rs, (firstMismatch r.drafts : ℤ) = 0 := fun r hr => by
      have := firstMismatch_le r.drafts
      have := hlen r hr
      omega
    rw [List.map_congr_left hnil, List.map_const']
    rfl
  · next hw =>
    have hpos := scatter₂_entries GreedyRequest.drafts (fun e => (e.pos : ℤ))
      (List.replicate w (-1)) rs (by simpa using hlen)
    have hmis := scatter₂_entries GreedyRequest.drafts
      (fun e => decide (e.val.1 ≠ e.val.2)) (List.replicate w false) rs
      (by simpa using hlen)
    have hmin : ∀ d ∈ placed GreedyRequest.drafts 0 rs,
        (List.zipWith (fun (mismatch : Bool) (pos : ℤ) => if mismatch then pos else (w : ℤ) * 2)
          ((d.entries GreedyRequest.drafts).map (fun e => decide (e.val.1 ≠ e.val.2)) ++
            (List.replicate w false).drop d.data.drafts.length)
          ((d.entries GreedyRequest.drafts).map (fun e => (e.pos : ℤ)) ++
            (List.replicate w (-1)).drop d.data.drafts.length)).min? =
          some (if firstMismatch d.data.drafts < d.data.drafts.length
            then (firstMismatch d.data.drafts : ℤ) else (w : ℤ) * 2) := by
      intro d hd
      have hle := hlen d.data (mem_of_mem_placed _ hd)
      rw [← min?_mismatches d.data.drafts (Nat.pos_of_ne_zero hw) hle]
      have hfront : (d.entries GreedyRequest.drafts).map (fun e =>
          if decide (e.val.1 ≠ e.val.2) then (e.pos : ℤ) else (w : ℤ) * 2) =
            d.data.drafts.mapIdx fun j p =>
              if decide (p.1 ≠ p.2) then (j : ℤ) else (w : ℤ) * 2 := by
        refine List.ext_getElem (by simp) fun j hj hj' => by simp [Placed.entries]
      rw [← hfront, List.zipWith_append (by simp), List.zipWith_map, List.zipWith_self,
        List.drop_replicate, List.drop_replicate, List.zipWith_replicate, min_self]
      rfl
    rw [hpos, hmis]
    let least (r : GreedyRequest) : ℤ :=
      if firstMismatch r.drafts < r.drafts.length then (firstMismatch r.drafts : ℤ) else (w : ℤ) * 2
    have hleast := map_placed GreedyRequest.drafts least 0 rs
    have hgather := gather_nonzero (fun r => decide (least r = (w : ℤ) * 2))
      (fun r => (r.drafts.length : ℤ)) rs
    have hscatter := scatter_nonzero (fun r => decide (least r = (w : ℤ) * 2)) least
      (fun r => (r.drafts.length : ℤ)) rs
    simp only [Option.bind_eq_bind, Option.bind_some, List.zipWith_map, List.zipWith_self,
      mapM_map_eq_some hmin]
    change (gather ((rs.map fun r => r.drafts.length).map Nat.cast) (nonzero
      (((placed GreedyRequest.drafts 0 rs).map fun d => least d.data).map
        fun pos => decide (pos = (w : ℤ) * 2)))).bind _ = _
    rw [hleast, List.map_map, List.map_map]
    change (gather (rs.map fun r => (r.drafts.length : ℤ)) (nonzero
      (rs.map fun r => decide (least r = (w : ℤ) * 2)))).bind _ = _
    rw [hgather, Option.bind_some]
    refine hscatter.trans (congrArg some (List.map_congr_left fun r hr => ?_))
    have hle := firstMismatch_le r.drafts
    have hbound := hlen r hr
    simp only [least, decide_eq_true_eq]
    split <;> split <;> omega

/-- Where the copied choices of a request stand in its row. -/
def GreedyRequest.copies (r : GreedyRequest) : List (ℤ × ℤ) :=
  if r.isGreedy then
    (segment 0 (copyLength r.drafts)).zip ((r.drafts.map Prod.snd).take (copyLength r.drafts))
  else []

/-- The row after the choices are copied. -/
def GreedyRequest.copied (r : GreedyRequest) : List ℤ :=
  if r.isGreedy then overwritten ((r.drafts.map Prod.snd).take (copyLength r.drafts)) r.row
  else r.row

theorem copyLength_le (drafts : List (ℤ × ℤ)) : copyLength drafts ≤ drafts.length :=
  min_le_right _ _

/-- **The copies of one row.** -/
theorem GreedyRequest.foldlM_copies {r : GreedyRequest} (hlen : r.drafts.length ≤ r.row.length) :
    r.copies.foldlM (fun row e => setItem row e.1 e.2) r.row = some r.copied := by
  unfold copies copied
  have hle := copyLength_le r.drafts
  split
  · have hchoices : ((r.drafts.map Prod.snd).take (copyLength r.drafts)).length =
        copyLength r.drafts := by simp [hle]
    have hscatter := scatter_segment [] (r.row.take (copyLength r.drafts))
      ((r.drafts.map Prod.snd).take (copyLength r.drafts)) (r.row.drop (copyLength r.drafts))
      (by rw [hchoices, List.length_take]; omega)
    rw [scatter, if_pos (by simp), hchoices] at hscatter
    rw [overwritten, hchoices]
    simpa using hscatter
  · rfl

/-- **The bonus token of one row.** -/
theorem GreedyRequest.setItem_copied {r : GreedyRequest} (hlen : r.drafts.length < r.row.length) :
    (if r.isGreedy && decide ((r.drafts.length : ℤ) ≤ firstMismatch r.drafts) then
      setItem r.copied r.drafts.length r.bonus else some r.copied) = some r.verified := by
  unfold copied verified
  have hle := copyLength_le r.drafts
  rw [greedyTokens_eq]
  cases r.isGreedy with
  | false => rfl
  | true =>
    by_cases hfull : r.drafts.length ≤ firstMismatch r.drafts
    · have hcopy : copyLength r.drafts = r.drafts.length := by
        rw [copyLength]
        omega
      have hchoices : ((r.drafts.map Prod.snd).take r.drafts.length).length = r.drafts.length := by
        simp
      have hset := setItem_overwritten ((r.drafts.map Prod.snd).take r.drafts.length) r.row r.bonus
        (by omega)
      rw [hchoices] at hset
      simpa [hfull, hcopy] using hset
    · simp [hfull]

/-- `final_copy_mask` of a request. -/
def GreedyRequest.copyMask (r : GreedyRequest) : List Bool :=
  (arange (w + 1)).map fun c => decide (c < (copyLength r.drafts : ℤ)) && r.isGreedy

/-- `needs_bonus` of a request. -/
def GreedyRequest.needsBonus (r : GreedyRequest) : Bool :=
  r.isGreedy && decide ((r.drafts.length : ℤ) ≤ firstMismatch r.drafts)

/-- The columns the copy mask of a request leaves. -/
theorem GreedyRequest.select_copyMask {r : GreedyRequest} (hlen : r.drafts.length ≤ w) :
    select (r.copyMask w) (arange (w + 1)) =
      if r.isGreedy then segment 0 (copyLength r.drafts) else [] := by
  have hselect := select_lt r.isGreedy (copyLength r.drafts) 0 (arange (w + 1))
  rw [length_arange] at hselect
  refine hselect.trans ?_
  have hle := copyLength_le r.drafts
  rw [arange, segment_take]
  congr 2
  omega

theorem nonzero₂_copyMask (hlen : ∀ r ∈ rs, r.drafts.length ≤ w) :
    nonzero₂ (rs.map (GreedyRequest.copyMask w)) =
      (tagged 0 (rs.map GreedyRequest.copies)).map fun e => (e.1, e.2.1) := by
  rw [nonzero₂, List.map_map, ← tagged_map Prod.fst, List.map_map]
  refine congrArg (tagged 0) (List.map_congr_left fun r hr => ?_)
  have hmask : (r.copyMask w).length = w + 1 := by simp [GreedyRequest.copyMask]
  have hle := copyLength_le r.drafts
  rw [Function.comp_apply, Function.comp_apply, nonzero, hmask,
    GreedyRequest.select_copyMask w (hlen r hr), GreedyRequest.copies]
  split
  · rw [List.map_fst_zip (by simp [hle])]
  · rfl

/-- **The copied choices are the target's at the copied columns.** -/
theorem gather_copies (hlen : ∀ r ∈ rs, r.drafts.length ≤ w) :
    gather ((rs.flatMap GreedyRequest.drafts).map Prod.snd)
        (select₂ (rs.map (GreedyRequest.copyMask w))
          (((placed GreedyRequest.drafts 0 rs).map fun d => (d.start : ℤ)).map
            fun s => (arange (w + 1)).map fun c => s + c)) =
      some ((tagged 0 (rs.map GreedyRequest.copies)).map fun e => e.2.2) := by
  have hrow : ∀ d ∈ placed GreedyRequest.drafts 0 rs,
      gather (rs.flatMap GreedyRequest.drafts)
        (select (d.data.copyMask w) ((arange (w + 1)).map fun c => (d.start : ℤ) + c)) =
          some (if d.data.isGreedy then d.data.drafts.take (copyLength d.data.drafts) else []) := by
    intro d hd
    have hle := hlen d.data (mem_of_mem_placed _ hd)
    rw [map_select, GreedyRequest.select_copyMask w hle]
    split
    · rw [map_add_segment, add_zero]
      exact gather_placed hd (copyLength_le _)
    · rfl
  rw [select₂, List.map_map, ← map_placed GreedyRequest.drafts (GreedyRequest.copyMask w) 0 rs,
    List.zipWith_map, List.zipWith_self, gather_map]
  refine (congrArg (Option.map (List.map Prod.snd)) (gather_flatten hrow)).trans ?_
  have hcomp : (fun e : ℕ × ℤ × ℤ => e.2.2) = Prod.snd ∘ Prod.snd := rfl
  rw [Option.map_some, hcomp, ← List.map_map, tagged_map_snd, List.map_flatten, List.map_flatten,
    List.map_map, List.map_map, ← map_placed GreedyRequest.drafts
      (List.map Prod.snd ∘ GreedyRequest.copies) 0 rs]
  refine congrArg (fun l : List (List ℤ) => some l.flatten) (List.map_congr_left fun d _ => ?_)
  simp only [Function.comp_apply, GreedyRequest.copies]
  split
  · rw [List.map_snd_zip (by simp), List.map_take]
  · rfl

/-- **The greedy pass is the scan of each greedy request**, and leaves the other rows alone. -/
theorem rejectionGreedySamplePytorch_eq (hlen : ∀ r ∈ rs, r.drafts.length ≤ w)
    (hrow : ∀ r ∈ rs, r.row.length = w + 1) :
    rejectionGreedySamplePytorch (rs.map GreedyRequest.row)
      (cumsum 0 ((rs.map fun r => r.drafts.length).map Nat.cast))
      ((rs.flatMap GreedyRequest.drafts).map Prod.fst)
      ((rs.flatMap GreedyRequest.drafts).map Prod.snd) (rs.map GreedyRequest.bonus)
      (rs.map fun r => r.drafts.length) w (some (rs.map GreedyRequest.isGreedy)) =
        some (rs.map GreedyRequest.verified) := by
  have hstarts := cumsum_sub_placed GreedyRequest.drafts rs
  have hrows := (entries_map_row GreedyRequest.drafts rs).symm
  have hvals := (entries_map_val GreedyRequest.drafts rs).symm
  have hindex := (entries_map_index GreedyRequest.drafts rs).symm
  have hfirst := firstMismatchPosPerReq_eq rs w hlen
  have hpos : List.zipWith (· - ·)
      ((entries GreedyRequest.drafts rs).map fun e => ((e.2.start + e.2.pos : ℕ) : ℤ))
      ((entries GreedyRequest.drafts rs).map fun e => (e.2.start : ℤ)) =
        (draftEntries rs).map fun e => (e.2.pos : ℤ) := by
    rw [List.zipWith_map, List.zipWith_self]
    refine List.map_congr_left fun e _ => ?_
    push_cast
    omega
  have hmis : List.zipWith (fun d a => decide (d ≠ a))
      ((rs.flatMap GreedyRequest.drafts).map Prod.fst)
      ((rs.flatMap GreedyRequest.drafts).map Prod.snd) =
        (draftEntries rs).map fun e => decide (e.2.val.1 ≠ e.2.val.2) := by
    rw [List.zipWith_map, List.zipWith_self, hvals, List.map_map]
    rfl
  unfold rejectionGreedySamplePytorch
  simp only [Option.bind_eq_bind, Option.getD_some, List.length_map, hstarts, hrows, hindex,
    gather_starts, Option.bind_some, hpos, hmis, hfirst]
  have hmask : List.zipWith (fun (len : ℤ) greedy =>
      (arange (w + 1)).map fun c => decide (c < len) && greedy)
      (List.zipWith (fun (pos : ℤ) (n : ℕ) => min (pos + 1) n)
        (rs.map fun r => (firstMismatch r.drafts : ℤ)) (rs.map fun r => r.drafts.length))
      (rs.map GreedyRequest.isGreedy) = rs.map (GreedyRequest.copyMask w) := by
    simp only [List.zipWith_map, List.zipWith_self]
    refine List.map_congr_left fun r _ => ?_
    rw [GreedyRequest.copyMask, copyLength]
    push_cast
    rfl
  have hbonus : List.zipWith (fun greedy (e : ℤ × ℕ) => greedy && decide ((e.2 : ℤ) ≤ e.1))
      (rs.map GreedyRequest.isGreedy) ((rs.map fun r => (firstMismatch r.drafts : ℤ)).zip
        (rs.map fun r => r.drafts.length)) = rs.map GreedyRequest.needsBonus := by
    rw [List.zip_map', List.zipWith_map, List.zipWith_self]
    rfl
  have hcopied := scatter₂_rows rs GreedyRequest.row GreedyRequest.copies
    GreedyRequest.copied fun r hr => GreedyRequest.foldlM_copies (by
      have := hlen r hr
      have := hrow r hr
      omega)
  simp only [hmask, hbonus, gather_copies rs w hlen, nonzero₂_copyMask rs w hlen,
    Option.bind_some]
  simp only [List.map_map, Function.comp_def, hcopied, Option.bind_some]
  split
  · rw [gather_nonzero, gather_nonzero]
    exact scatter₂_nonzero _ GreedyRequest.copied _ _ _ fun r hr =>
      GreedyRequest.setItem_copied (by
        have := hlen r hr
        have := hrow r hr
        omega)
  · next hnone =>
    -- no row needs its bonus token
    refine congrArg some (List.map_congr_left fun r hr => ?_)
    have hbonus : r.needsBonus = false :=
      Bool.eq_false_iff.mpr fun h => hnone (by simpa using ⟨r, hr, h⟩)
    have hset := GreedyRequest.setItem_copied (r := r) (by
      have := hlen r hr
      have := hrow r hr
      omega)
    rw [GreedyRequest.needsBonus] at hbonus
    rw [hbonus] at hset
    simpa using hset

/-- **The fast path, for one draft a request, is the same scan.** -/
theorem rejectionGreedySampleSpecLen1Pytorch_eq (hone : ∀ r ∈ rs, r.drafts.length = 1)
    (hrow : ∀ r ∈ rs, 2 ≤ r.row.length) (hgreedy : ∀ r ∈ rs, r.isGreedy = true) :
    rejectionGreedySampleSpecLen1Pytorch (rs.map GreedyRequest.row)
      ((rs.flatMap GreedyRequest.drafts).map Prod.fst)
      ((rs.flatMap GreedyRequest.drafts).map Prod.snd) (rs.map GreedyRequest.bonus) =
        some (rs.map GreedyRequest.verified) := by
  let first (r : GreedyRequest) : ℤ × ℤ := r.drafts.headD (0, 0)
  have hfirst : ∀ r ∈ rs, r.drafts = [first r] := fun r hr => by
    obtain ⟨p, hp⟩ := List.length_eq_one_iff.mp (hone r hr)
    simp [first, hp]
  have hflat : rs.flatMap GreedyRequest.drafts = rs.map first := by
    rw [List.flatMap_congr hfirst, List.map_eq_flatMap]
  have hcolumn : (rs.map fun r => (r.row, (first r).2)).mapM (fun e => setItem e.1 0 e.2) =
      some (rs.map fun r => (first r).2 :: r.row.tail) := mapM_map_eq_some fun r hr => by
    obtain ⟨x, rest, hx⟩ := List.exists_cons_of_length_pos (l := r.row) (by
      have := hrow r hr
      omega)
    rw [hx]
    exact setItem_append [] rest x _ rfl
  have hcols : ((nonzero (rs.map fun r => decide ((first r).1 = (first r).2))).map fun _ => (1 : ℤ)) =
      (rs.filter fun r => decide ((first r).1 = (first r).2)).map fun _ => 1 := by
    rw [List.map_const', List.map_const', length_nonzero]
  unfold rejectionGreedySampleSpecLen1Pytorch
  rw [hflat]
  simp only [List.length_map, guard_true, Option.bind_eq_bind, Option.bind_some, List.zip_map',
    List.zipWith_map, List.zipWith_self, List.map_map, Function.comp_def, hcolumn, hcols,
    select_map]
  refine scatter₂_nonzero _ (fun r => (first r).2 :: r.row.tail) (fun _ => 1) _ _ fun r hr => ?_
  obtain ⟨x, y, rest, hx⟩ : ∃ x y rest, r.row = x :: y :: rest := by
    have hlen := hrow r hr
    match hrow : r.row with
    | x :: y :: rest => exact ⟨x, y, rest, rfl⟩
    | [x] => simp [hrow] at hlen
    | [] => simp [hrow] at hlen
  have hset := setItem_append [(first r).2] rest y r.bonus (j := 1) rfl
  rw [GreedyRequest.verified, hgreedy r hr, hfirst r hr, hx]
  by_cases h : (first r).1 = (first r).2
  · simpa [h, greedyTokens, overwritten] using hset
  · simp [h, greedyTokens, overwritten]

end Pass

/-! ## The sampler on an all-greedy batch -/

section AllGreedy

variable (reqs : List (List (ℤ × ℤ) × ℤ)) (w : ℕ)

/-- A request of an all-greedy batch, in a fresh output buffer. -/
def GreedyRequest.fresh (r : List (ℤ × ℤ) × ℤ) : GreedyRequest where
  drafts := r.1
  bonus := r.2
  isGreedy := true
  row := List.replicate (w + 1) placeholderTokenId

/-- **What an all-greedy batch returns.** -/
def greedyRows : List (List ℤ) := reqs.map fun r =>
  overwritten (greedyTokens r.1 r.2) (List.replicate (w + 1) placeholderTokenId)

theorem flatMap_fresh :
    (reqs.map (GreedyRequest.fresh w)).flatMap GreedyRequest.drafts = reqs.flatMap Prod.fst := by
  rw [List.flatMap_map]
  rfl

theorem map_verified_fresh :
    (reqs.map (GreedyRequest.fresh w)).map GreedyRequest.verified = greedyRows reqs w := by
  rw [List.map_map]
  rfl

/-- The slow path, where `is_greedy` is `None`. -/
theorem greedyPass_allGreedy (hlen : ∀ r ∈ reqs, r.1.length ≤ w) :
    rejectionGreedySamplePytorch
      (List.replicate reqs.length (List.replicate (w + 1) placeholderTokenId))
      (cumsum 0 ((reqs.map fun r => r.1.length).map Nat.cast))
      ((reqs.flatMap Prod.fst).map Prod.fst) ((reqs.flatMap Prod.fst).map Prod.snd)
      (reqs.map Prod.snd) (reqs.map fun r => r.1.length) w none = some (greedyRows reqs w) := by
  have hpass := rejectionGreedySamplePytorch_eq (reqs.map (GreedyRequest.fresh w)) w
    (List.forall_mem_map.mpr hlen) (List.forall_mem_map.mpr fun _ _ => List.length_replicate)
  rw [flatMap_fresh, map_verified_fresh] at hpass
  simp only [List.map_map, Function.comp_def, GreedyRequest.fresh, List.map_const'] at hpass
  rw [← hpass, List.map_map]
  unfold rejectionGreedySamplePytorch
  rw [List.length_replicate]
  rfl

/-- The fast path. -/
theorem fastPath_allGreedy (hlen : ∀ r ∈ reqs, r.1.length ≤ w)
    (hone : ∀ r ∈ reqs, r.1.length = 1) :
    rejectionGreedySampleSpecLen1Pytorch
      (List.replicate reqs.length (List.replicate (w + 1) placeholderTokenId))
      ((reqs.flatMap Prod.fst).map Prod.fst) ((reqs.flatMap Prod.fst).map Prod.snd)
      (reqs.map Prod.snd) = some (greedyRows reqs w) := by
  have hrow : ∀ r ∈ reqs.map (GreedyRequest.fresh w), 2 ≤ r.row.length := by
    refine List.forall_mem_map.mpr fun r hr => ?_
    have := hlen r hr
    have := hone r hr
    simp only [GreedyRequest.fresh, List.length_replicate]
    omega
  have hpass := rejectionGreedySampleSpecLen1Pytorch_eq (reqs.map (GreedyRequest.fresh w))
    (List.forall_mem_map.mpr hone) hrow (List.forall_mem_map.mpr fun _ _ => rfl)
  rw [flatMap_fresh, map_verified_fresh] at hpass
  simp only [List.map_map, Function.comp_def, GreedyRequest.fresh, List.map_const'] at hpass
  exact hpass

variable {K : Type} [LinearOrder K] [Zero K] [One K] [Sub K] [Div K]

/-- **On an all-greedy batch the sampler is the scan of each request**, whichever path it takes. -/
theorem rejectionSample_allGreedy (hlen : ∀ r ∈ reqs, r.1.length ≤ w)
    (draftProbs : Option (List (List K))) {targetProbs : List (List K)} (uniformProbs : List K)
    (q : List (List K)) {metadata : SamplingMetadata}
    (htarget : targetProbs.map argmax = (reqs.flatMap Prod.fst).map fun p => some p.2)
    (hgreedy : metadata.allGreedy = true) (hrandom : metadata.allRandom = true ↔ reqs = []) :
    rejectionSample ((reqs.flatMap Prod.fst).map Prod.fst) (reqs.map fun r => r.1.length) w
      (cumsum 0 ((reqs.map fun r => r.1.length).map Nat.cast)) draftProbs targetProbs
      (reqs.map Prod.snd) metadata uniformProbs q = some (greedyRows reqs w) := by
  have htokens : targetProbs.length = (reqs.flatMap Prod.fst).length := by
    simpa using congrArg List.length htarget
  have hargmax : targetProbs.mapM argmax = some ((reqs.flatMap Prod.fst).map Prod.snd) := by
    have hid : targetProbs.mapM argmax = (targetProbs.map argmax).mapM id := by
      rw [List.mapM_map]
      rfl
    rw [hid, htarget]
    exact mapM_map_eq_some fun _ _ => rfl
  unfold rejectionSample
  simp only [List.length_map, htokens, guard_true, Option.bind_eq_bind, hgreedy, if_true, Option.bind_some]
  by_cases hempty : reqs = []
  · subst hempty
    have htarget : targetProbs = [] := by simpa using htokens
    subst htarget
    rw [hrandom.mpr rfl]
    rfl
  · have hrandom : metadata.allRandom = false :=
      Bool.eq_false_iff.mpr fun h => hempty (hrandom.mp h)
    have hcounts : (reqs.map fun r => r.1.length) ≠ [] := by simpa using hempty
    obtain ⟨fewest, hfewest⟩ := Option.isSome_iff_exists.mp (List.isSome_min?_of_ne_nil hcounts)
    obtain ⟨most, hmost⟩ := Option.isSome_iff_exists.mp (List.isSome_max?_of_ne_nil hcounts)
    by_cases hfast : fewest = 1 ∧ most = 1
    · obtain ⟨rfl, rfl⟩ := hfast
      have hone : ∀ r ∈ reqs, r.1.length = 1 := fun r hr => by
        have hmem := List.mem_map_of_mem (f := fun r : List (ℤ × ℤ) × ℤ => r.1.length) hr
        exact le_antisymm ((List.max?_eq_some_iff.mp hmost).2 _ hmem)
          ((List.min?_eq_some_iff.mp hfewest).2 _ hmem)
      simp [hrandom, hargmax, hfewest, hmost, fastPath_allGreedy reqs w hlen hone]
    · have hslow : ¬ (fewest = 1 ∧ most = 1 ∧ True) := by simpa using hfast
      simp only [hrandom, Bool.false_eq_true, if_false, hargmax, hfewest, hmost, hslow,
        greedyPass_allGreedy reqs w hlen, Option.bind_some]
      rfl

/-- **Greedy verification is its per-request definition**: on an all-greedy batch `rejection_sample`
returns the scan of every request, whichever path it takes, and on a mixed batch the greedy pass
writes the scan of the greedy requests and leaves the other rows as they were. -/
theorem greedy_rows_verified (reqs : List (List (ℤ × ℤ) × ℤ)) (w : ℕ)
    (hlen : ∀ r ∈ reqs, r.1.length ≤ w) (draftProbs : Option (List (List K)))
    {targetProbs : List (List K)} (uniformProbs : List K) (q : List (List K))
    {metadata : SamplingMetadata}
    (htarget : targetProbs.map argmax = (reqs.flatMap Prod.fst).map fun p => some p.2)
    (hgreedy : metadata.allGreedy = true) (hrandom : metadata.allRandom = true ↔ reqs = [])
    (rs : List GreedyRequest) (hdrafts : ∀ r ∈ rs, r.drafts.length ≤ w)
    (hrow : ∀ r ∈ rs, r.row.length = w + 1) :
    rejectionSample ((reqs.flatMap Prod.fst).map Prod.fst) (reqs.map fun r => r.1.length) w
        (cumsum 0 ((reqs.map fun r => r.1.length).map Nat.cast)) draftProbs targetProbs
        (reqs.map Prod.snd) metadata uniformProbs q =
      some (reqs.map fun r =>
        overwritten (greedyTokens r.1 r.2) (List.replicate (w + 1) placeholderTokenId)) ∧
    rejectionGreedySamplePytorch (rs.map GreedyRequest.row)
        (cumsum 0 ((rs.map fun r => r.drafts.length).map Nat.cast))
        ((rs.flatMap GreedyRequest.drafts).map Prod.fst)
        ((rs.flatMap GreedyRequest.drafts).map Prod.snd) (rs.map GreedyRequest.bonus)
        (rs.map fun r => r.drafts.length) w (some (rs.map GreedyRequest.isGreedy)) =
      some (rs.map fun r =>
        if r.isGreedy then overwritten (greedyTokens r.drafts r.bonus) r.row else r.row) :=
  ⟨rejectionSample_allGreedy reqs w hlen draftProbs uniformProbs q htarget hgreedy hrandom,
    rejectionGreedySamplePytorch_eq rs w hdrafts hrow⟩

end AllGreedy

/-- The metadata of a batch of greedy requests. -/
def SamplingMetadata.greedy : SamplingMetadata where
  temperature := none
  allGreedy := true
  allRandom := false
  topP := none
  topK := none
  maxNumLogprobs := none
  promptTokenIds := none
  frequencyPenalties := []
  presencePenalties := []
  repetitionPenalties := []
  noPenalties := true
  allowedTokenIdsMask := none

/-- One request rejects its second draft and one has no drafts; beside them a random row. -/
theorem greedy_rows_verified_small :
    rejectionSample [0, 0] [2, 0] 2 [2, 2] none [[1 / 2, 1 / 4], [1 / 4, (1 / 2 : ℚ)]] [5, 6]
        SamplingMetadata.greedy [] [] = some [[0, 1, -1], [6, -1, -1]] ∧
      rejectionGreedySamplePytorch [[-1, -1, -1], [-1, -1, -1]] [1, 2] [3, 4] [3, 4] [7, 8] [1, 1] 2
        (some [false, true]) = some [[-1, -1, -1], [4, 8, -1]] :=
  greedy_rows_verified [([(0, 0), (0, 1)], 5), ([], 6)] 2 (by decide) none [] [] (by decide +kernel)
    rfl (by decide) [⟨[(3, 3)], 7, false, [-1, -1, -1]⟩, ⟨[(4, 4)], 8, true, [-1, -1, -1]⟩]
    (by decide) (by decide)

end VllmAscend
