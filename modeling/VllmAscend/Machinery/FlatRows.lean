import VllmAscend.Machinery.Ragged
import VllmAscend.Machinery.Rows

/-!
# Machinery/FlatRows — vectors computed for all entries of a batch at once

    counts            2      0   3
    repeat(x, counts) x₀ x₀      x₂ x₂ x₂
    batched arange    0 1        0 1 2

Vectorised code computes one flat vector from another, entry by entry; each of them is one list for
each row, one behind the other.  Repeats (`repeatInterleave_map`), the positions in the rows
(`batchedArange`), arithmetic (`zipWith_flatMap_rows`) and reads from a matrix laid out flat
(`gather_flatten_row`) all keep that form.
-/

namespace Machinery

variable {α β γ δ : Type}

/-- A repeat of what is computed from the rows. -/
theorem repeatInterleave_map (g : δ → α) (n : δ → ℕ) : ∀ ds : List δ,
    repeatInterleave (ds.map g) (ds.map n) = ds.flatMap fun d => List.replicate (n d) (g d)
  | [] => rfl
  | d :: ds => by
    have htail := repeatInterleave_map g n ds
    rw [repeatInterleave] at htail
    rw [List.map_cons, List.map_cons, repeatInterleave, List.zipWith_cons_cons, List.flatten_cons, htail,
      List.flatMap_cons]

/-- **Arithmetic on two flat vectors** is arithmetic in every row. -/
theorem zipWith_flatMap_rows (f : α → β → γ) {a : δ → List α} {b : δ → List β} : ∀ {ds : List δ},
    (∀ d ∈ ds, (a d).length = (b d).length) →
      List.zipWith f (ds.flatMap a) (ds.flatMap b) = ds.flatMap fun d => List.zipWith f (a d) (b d)
  | [], _ => rfl
  | d :: ds, h => by
    rw [List.flatMap_cons, List.flatMap_cons, List.zipWith_append (h d (.head _)),
      zipWith_flatMap_rows f fun d hd => h d (.tail _ hd), List.flatMap_cons]

theorem zipWith_segment_replicate (s : ℤ) (n : ℕ) :
    List.zipWith (· - ·) (segment s n) (List.replicate n s) = segment 0 n := by
  refine List.ext_getElem (by simp) fun j hj hj' => ?_
  simp [segment]

theorem zipWith_segment_starts : ∀ (s : ℕ) (ns : List ℕ),
    List.zipWith (· - ·) (segment s ns.sum) (repeatInterleave ((starts s ns).map Nat.cast) ns) =
      ns.flatMap (segment 0)
  | s, [] => rfl
  | s, n :: ns => by
    have htail := zipWith_segment_starts (s + n) ns
    rw [Nat.cast_add, repeatInterleave] at htail
    rw [starts, List.map_cons, repeatInterleave, List.zipWith_cons_cons, List.flatten_cons,
      List.sum_cons, segment_add, List.zipWith_append (by simp), zipWith_segment_replicate, htail,
      List.flatMap_cons]

/-- **The positions of the entries in their rows**: places in the flat vector less the starts of the rows,
and these from the running sums. -/
theorem batchedArange (ns : List ℕ) :
    List.zipWith (· - ·) (arange ns.sum)
        (repeatInterleave
          (List.zipWith (· - ·) (cumsum 0 (ns.map Nat.cast)) (ns.map Nat.cast)) ns) =
      ns.flatMap (segment 0) := by
  have hstarts := cumsum_sub 0 ns
  rw [Nat.cast_zero] at hstarts
  rw [hstarts]
  exact zipWith_segment_starts 0 ns

theorem zipWith_replicate_segment (x : ℤ) (n : ℕ) :
    List.zipWith (· + ·) (List.replicate n x) (segment 0 n) = segment x n := by
  refine List.ext_getElem (by simp) fun j hj hj' => ?_
  simp [segment]

/-- **Consecutive places in every row**: a repeat of the places where they begin, plus the positions. -/
theorem zipWith_repeatInterleave_segment (g : δ → ℤ) (n : δ → ℕ) (ds : List δ) :
    List.zipWith (· + ·) (repeatInterleave (ds.map g) (ds.map n)) ((ds.map n).flatMap (segment 0)) =
      ds.flatMap fun d => segment (g d) (n d) := by
  rw [repeatInterleave_map, List.flatMap_map, zipWith_flatMap_rows _ (by simp)]
  exact List.flatMap_congr fun d _ => zipWith_replicate_segment _ _

/-- **The rows are the flat vector**, place by place. -/
theorem flatMap_placed_segment (f : δ → List α) : ∀ (s : ℕ) (ds : List δ),
    ((placed f s ds).flatMap fun d => segment d.start (f d.data).length) = segment s (ds.flatMap f).length
  | _, [] => rfl
  | s, d :: ds => by
    rw [placed, List.flatMap_cons, flatMap_placed_segment f (s + (f d).length) ds, List.flatMap_cons,
      List.length_append, segment_add, Nat.cast_add]

/-- Reads of the end of a row. -/
theorem gather_placed_drop {f : δ → List α} {ds : List δ} {d : Placed δ} (hd : d ∈ placed f 0 ds) (k : ℕ)
    (rest : List α) :
    gather (ds.flatMap f ++ rest) (segment (d.start + k : ℕ) ((f d.data).length - k)) =
      some ((f d.data).drop k) := by
  obtain ⟨before, after, hflat, hstart⟩ := exists_flatMap_eq hd
  obtain hle | hlt := le_or_gt k (f d.data).length
  · have hsplit : ds.flatMap f ++ rest =
        before ++ (f d.data).take k ++ (f d.data).drop k ++ (after ++ rest) := by
      rw [hflat, List.append_assoc before ((f d.data).take k), List.take_append_drop, List.append_assoc]
    have hgather := gather_segment (before ++ (f d.data).take k) ((f d.data).drop k) (after ++ rest)
      (n := (f d.data).length - k) (by rw [List.length_drop])
    rw [List.length_append, List.length_take_of_le hle, ← List.length_drop, List.take_length,
      List.length_drop] at hgather
    rw [hsplit, hstart, Nat.zero_add]
    exact hgather
  · rw [Nat.sub_eq_zero_of_le hlt.le, List.drop_of_length_le hlt.le]
    rfl

/-- The last running sum, of at least one number. -/
theorem item_cumsum {ns : List ℤ} (hne : ns ≠ []) : item (cumsum 0 ns) (-1) = some ns.sum := by
  have hlast := getLast?_cumsum 0 ns
  obtain ⟨n, rest, rfl⟩ := List.exists_cons_of_ne_nil hne
  rwa [cumsum, List.getLast?_cons_cons, ← cumsum, zero_add, ← item_neg_one] at hlast

/-- An entry of a matrix that is laid out flat. -/
theorem getElem?_flatten_row {n : ℕ} : ∀ {ls : List (List α)} {i j : ℕ} {row : List α},
    (∀ l ∈ ls, l.length = n) → ls[i]? = some row → j < n → ls.flatten[i * n + j]? = row[j]?
  | l :: ls, 0, j, row, h, hrow, hj => by
    cases hrow
    rw [Nat.zero_mul, Nat.zero_add, List.flatten_cons,
      List.getElem?_append_left (by rwa [h l (.head _)])]
  | l :: ls, i + 1, j, row, h, hrow, hj => by
    have htail := getElem?_flatten_row (fun l hl => h l (.tail _ hl)) hrow hj
    have hle : l.length ≤ (i + 1) * n + j := by
      rw [h l (.head _), Nat.succ_mul]
      omega
    rw [List.flatten_cons, List.getElem?_append_right hle, h l (.head _), Nat.succ_mul, ← htail]
    congr 1
    omega

/-- **Reads from a matrix that is laid out flat**, all in row `i`. -/
theorem gather_flatten_row {n i : ℕ} {ls : List (List α)} {row : List α} (hls : ∀ l ∈ ls, l.length = n)
    (hrow : ls[i]? = some row) {es : List γ} {col : γ → ℕ} {val : γ → α}
    (hval : ∀ e ∈ es, row[col e]? = some (val e)) :
    gather ls.flatten (es.map fun e => ((i * n + col e : ℕ) : ℤ)) = some (es.map val) := by
  refine gather_eq_some fun e he => ?_
  have hlt := (List.getElem?_eq_some_iff.mp (hval e he)).1
  rw [hls row (List.mem_of_getElem? hrow)] at hlt
  rw [item_natCast, getElem?_flatten_row hls hrow hlt, hval e he]

/-- Reads that are the same all along a row. -/
theorem gather_replicate {xs : List α} {i : ℤ} {x : α} (n : ℕ) (h : item xs i = some x) :
    gather xs (List.replicate n i) = some (List.replicate n x) := by
  have hconst := gather_eq_some (g := fun _ => x) (l := List.range n)
    fun _ _ => h
  rwa [List.map_const', List.map_const', List.length_range] at hconst

/-- **Reads row by row.** -/
theorem gather_flatMap {xs : List α} {idx : δ → List ℤ} {out : δ → List α} {ds : List δ}
    (h : ∀ d ∈ ds, gather xs (idx d) = some (out d)) :
    gather xs (ds.flatMap idx) = some (ds.flatMap out) := by
  rw [List.flatMap_def, List.flatMap_def]
  exact gather_flatten h

/-- What the rows compute without their numbers. -/
theorem flatMap_zipIdx (g : δ → List α) (ds : List δ) : (ds.zipIdx.flatMap fun d => g d.1) = ds.flatMap g := by
  rw [List.flatMap_def, List.flatMap_def, ← Function.comp_def, ← List.map_map, List.zipIdx_map_fst]

/-- **Blocks of one size do not overlap.** -/
theorem block_unique {n b b' o o' : ℤ} (h : b * n + o = b' * n + o') (ho : 0 ≤ o ∧ o < n)
    (ho' : 0 ≤ o' ∧ o' < n) : b = b' ∧ o = o' := by
  have hn : 0 < n := lt_of_le_of_lt ho.1 ho.2
  have hb : (b * n + o) / n = b := by
    rw [add_comm, Int.add_mul_ediv_right _ _ hn.ne', Int.ediv_eq_zero_of_lt ho.1 ho.2, zero_add]
  have hb' : (b' * n + o') / n = b' := by
    rw [add_comm, Int.add_mul_ediv_right _ _ hn.ne', Int.ediv_eq_zero_of_lt ho'.1 ho'.2, zero_add]
  rw [h, hb'] at hb
  subst hb
  exact ⟨rfl, add_left_cancel h⟩

/-! ## Rows by their keys -/

section Keys

variable [DecidableEq δ] (size : δ → ℕ) (ds : List δ)

/-- Where the rows of a key start. -/
def startOf (d : δ) : ℕ := ((ds.takeWhile (· ≠ d)).map size).sum

/-- The places of the rows of a key. -/
def placesOf (d : δ) : List ℕ := List.range' (startOf size ds d) (size d)

variable {size ds}

theorem startOf_append {before after : List δ} {d : δ} (h : d ∉ before) :
    startOf size (before ++ d :: after) d = (before.map size).sum := by
  rw [startOf, List.takeWhile_append_of_pos fun x hx => by
      simpa using ne_of_mem_of_not_mem hx h,
    List.takeWhile_cons_of_neg (by simp), List.append_nil]

/-- **All places, each once.** -/
theorem flatMap_placesOf (h : ds.Nodup) :
    ds.flatMap (placesOf size ds) = List.range (ds.map size).sum := by
  have key : ∀ (after before : List δ), ds = before ++ after →
      after.flatMap (placesOf size ds) = List.range' (before.map size).sum (after.map size).sum := by
    intro after
    induction after with
    | nil => exact fun _ _ => rfl
    | cons d after ih =>
      intro before hds
      have hbefore : d ∉ before := by
        rw [hds, List.nodup_append] at h
        exact fun hmem => h.2.2 d hmem d (.head _) rfl
      have htail := ih (before ++ [d]) (by rw [hds, List.append_assoc]; rfl)
      rw [List.map_append, List.sum_append, List.map_singleton, List.sum_singleton] at htail
      rw [List.flatMap_cons, htail, placesOf, hds, startOf_append hbefore, List.map_cons, List.sum_cons,
        ← List.range'_append_1]
  rw [key ds [] rfl, List.range_eq_range']
  rfl

/-- Two keys have no place in common. -/
theorem placesOf_disjoint (h : ds.Nodup) {d d' : δ} (hd : d ∈ ds) (hd' : d' ∈ ds) (hne : d ≠ d') :
    List.Disjoint (placesOf size ds d) (placesOf size ds d') := by
  have hall : (ds.flatMap (placesOf size ds)).Nodup := by
    rw [flatMap_placesOf h]
    exact List.nodup_range
  have hsymm : Std.Symm (Function.onFun List.Disjoint (placesOf size ds)) :=
    ⟨fun _ _ hdisjoint => hdisjoint.symm⟩
  exact (List.nodup_flatMap.mp hall).2.forall hd hd' hne

/-- **The places of some of the keys**, in any order, each once. -/
theorem nodup_flatMap_placesOf (h : ds.Nodup) {order : List δ} (horder : order.Nodup)
    (hsub : ∀ d ∈ order, d ∈ ds) : (order.flatMap (placesOf size ds)).Nodup :=
  List.nodup_flatMap.mpr ⟨fun _ _ => List.nodup_range', horder.imp_of_mem fun hd hd' hne =>
    placesOf_disjoint h (hsub _ hd) (hsub _ hd') hne⟩

theorem mem_placesOf {d : δ} {t : ℕ} :
    t ∈ placesOf size ds d ↔ ∃ i < size d, t = startOf size ds d + i := by
  rw [placesOf, List.mem_range'_1]
  constructor
  · exact fun h => ⟨t - startOf size ds d, by omega, by omega⟩
  · rintro ⟨i, hi, rfl⟩
    omega

/-- A place of a key is one of the flat vector. -/
theorem placesOf_lt (h : ds.Nodup) {d : δ} (hd : d ∈ ds) {i : ℕ} (hi : i < size d) :
    startOf size ds d + i < (ds.map size).sum := by
  have hmem : startOf size ds d + i ∈ ds.flatMap (placesOf size ds) :=
    List.mem_flatMap.mpr ⟨d, hd, mem_placesOf.mpr ⟨i, hi, rfl⟩⟩
  rw [flatMap_placesOf h] at hmem
  exact List.mem_range.mp hmem

/-- **A flat vector is the rows of its keys.** -/
theorem eq_flatMap_of_places (h : ds.Nodup) {xs : List α} {g : δ → List α}
    (hlength : xs.length = (ds.map size).sum) (hg : ∀ d ∈ ds, (g d).length = size d)
    (hget : ∀ d ∈ ds, ∀ i < size d, xs[startOf size ds d + i]? = (g d)[i]?) :
    xs = ds.flatMap g := by
  have hsizes : ∀ l : List δ, (∀ d ∈ l, d ∈ ds) → (l.flatMap g).length = (l.map size).sum := by
    intro l hl
    rw [List.length_flatMap]
    exact congrArg List.sum (List.map_congr_left fun d hd => hg d (hl d hd))
  have htotal := hsizes ds fun _ hd => hd
  refine List.ext_getElem? fun t => ?_
  obtain hlt | hge := Nat.lt_or_ge t (ds.map size).sum
  · obtain ⟨before, d, after, j, hds, ht, hj, hflat⟩ := exists_row_of_lt (htotal.symm ▸ hlt)
    have hd : d ∈ ds := hds ▸ List.mem_append_right _ (.head _)
    have hbefore : d ∉ before := by
      have hnodup := hds ▸ h
      rw [List.nodup_append] at hnodup
      exact fun hmem => hnodup.2.2 d hmem d (.head _) rfl
    have hstart : startOf size ds d = (before.flatMap g).length := by
      rw [hsizes before fun x hx => hds ▸ List.mem_append_left _ hx]
      conv_lhs => rw [hds]
      exact startOf_append hbefore
    rw [hflat, ht, ← hstart]
    exact hget d hd j (hg d hd ▸ hj)
  · rw [List.getElem?_eq_none (hlength.trans_le hge), List.getElem?_eq_none (htotal.trans_le hge)]

/-- The entry of a flat vector at a place of a key. -/
theorem getElem?_flatMap_startOf {g : δ → List α} (h : ds.Nodup) (hg : ∀ d ∈ ds, (g d).length = size d)
    {d : δ} (hd : d ∈ ds) {i : ℕ} (hi : i < size d) :
    (ds.flatMap g)[startOf size ds d + i]? = (g d)[i]? := by
  obtain ⟨before, after, hds⟩ := List.append_of_mem hd
  have hbefore : d ∉ before := by
    have hnodup := hds ▸ h
    rw [List.nodup_append] at hnodup
    exact fun hmem => hnodup.2.2 d hmem d (.head _) rfl
  have hstart : startOf size ds d = (before.flatMap g).length := by
    rw [List.length_flatMap, List.map_congr_left fun x hx => hg x (hds ▸ List.mem_append_left _ hx)]
    conv_lhs => rw [hds]
    exact startOf_append hbefore
  have hrow : i < (g d).length := (hg d hd).symm ▸ hi
  rw [hstart]
  conv_lhs => rw [hds]
  rw [List.flatMap_append, List.flatMap_cons, List.getElem?_append_right (Nat.le_add_right _ _),
    Nat.add_sub_cancel_left, List.getElem?_append_left hrow]

/-- The rows of the keys, placed. -/
theorem placed_map_startOf {β : Type} (h : ds.Nodup) (f : β → List α) (row : δ → β) :
    placed f 0 (ds.map row) = ds.map fun d => ⟨startOf (fun d => (f (row d)).length) ds d, row d⟩ := by
  have key : ∀ (after before : List δ), ds = before ++ after →
      placed f (before.map fun d => (f (row d)).length).sum (after.map row) =
        after.map fun d => ⟨startOf (fun d => (f (row d)).length) ds d, row d⟩ := by
    intro after
    induction after with
    | nil => exact fun _ _ => rfl
    | cons d after ih =>
      intro before hds
      have hbefore : d ∉ before := by
        rw [hds, List.nodup_append] at h
        exact fun hmem => h.2.2 d hmem d (.head _) rfl
      have htail := ih (before ++ [d]) (by rw [hds, List.append_assoc]; rfl)
      rw [List.map_append, List.sum_append, List.map_singleton, List.sum_singleton] at htail
      rw [List.map_cons, placed, htail, List.map_cons]
      congr 2
      conv_rhs => rw [hds]
      exact (startOf_append hbefore).symm
  exact key ds [] rfl

end Keys

/-- **Changes at different places all stand**, and nothing else changes. -/
theorem foldlM_modifyItem_nodup {key : γ → ℕ} {f : γ → α → α} : ∀ {es : List γ} {l : List α},
    (es.map key).Nodup → (∀ e ∈ es, key e < l.length) →
      ∃ out, es.foldlM (fun xs e => modifyItem (fun x => some (f e x)) xs (key e)) l = some out ∧
        out.length = l.length ∧ (∀ e ∈ es, out[key e]? = l[key e]?.map (f e)) ∧
          ∀ t ∉ es.map key, out[t]? = l[t]?
  | [], xs, _, _ => ⟨xs, rfl, rfl, by simp, fun _ _ => rfl⟩
  | e :: es, xs, hnodup, h => by
    have hlt := h e (.head _)
    rw [List.map_cons, List.nodup_cons] at hnodup
    have hstep := modifyItem_natCast (fun x => some (f e x)) (List.getElem?_eq_getElem hlt)
    obtain ⟨out, hout, hlength, hown, hother⟩ := foldlM_modifyItem_nodup
      (l := xs.set (key e) (f e xs[key e])) hnodup.2 fun e' he' => by
        rw [List.length_set]
        exact h e' (.tail _ he')
    refine ⟨out, ?_, hlength.trans List.length_set, fun e' he' => ?_, fun t ht => ?_⟩
    · rw [List.foldlM_cons, hstep]
      exact hout
    · obtain rfl | he' := List.mem_cons.mp he'
      · rw [hother _ hnodup.1, List.getElem?_set_self hlt, List.getElem?_eq_getElem hlt]
        rfl
      · have hne : key e ≠ key e' := fun heq => hnodup.1 (heq ▸ List.mem_map_of_mem he')
        rw [hown e' he', List.getElem?_set_ne hne]
    · rw [List.map_cons, List.mem_cons, not_or] at ht
      rw [hother t ht.2, List.getElem?_set_ne (Ne.symm ht.1)]

/-- A list sorted by keys that are all different is the only one. -/
theorem mergeSort_eq_of_perm {key : α → ℕ} {l l' : List α} (hperm : l.Perm l')
    (hsorted : l'.Pairwise fun a b => key a < key b) :
    l.mergeSort (fun a b => decide (key a ≤ key b)) = l' := by
  have hle : (l.mergeSort fun a b => decide (key a ≤ key b)).Pairwise fun a b => key a ≤ key b :=
    (List.pairwise_mergeSort
      (fun a b c hab hbc => decide_eq_true ((of_decide_eq_true hab).trans (of_decide_eq_true hbc)))
      (fun a b => by
        obtain hab | hba := Nat.le_total (key a) (key b)
        · rw [decide_eq_true hab, Bool.true_or]
        · rw [decide_eq_true hba, Bool.or_true]) l).imp fun h => of_decide_eq_true h
  have hperm' := (List.mergeSort_perm l fun a b => decide (key a ≤ key b)).trans hperm
  refine hperm'.eq_of_pairwise (fun a b ha hb hab hba => ?_) hle (hsorted.imp fun h => h.le)
  have hsymm : Std.Symm fun a b : α => key a ≠ key b := ⟨fun _ _ hne => hne.symm⟩
  have hdistinct : l'.Pairwise fun a b => key a ≠ key b := hsorted.imp fun hlt => hlt.ne
  exact not_not.mp fun hne =>
    hdistinct.forall (hperm'.mem_iff.mp ha) hb hne (Nat.le_antisymm hab hba)

end Machinery
