import VllmAscend.Machinery.Grouping

/-!
# Machinery/FixedBlocks — groups of rows in blocks of one length

    groups          a b c | d |     | e
    blocks of 2     a b | d · | · · | e ·
    dropped         c

Where a group starts is the running maximum of the places that open one (`cummax_markers`), so a row knows
its place in the group; the first rows of a group go to its block and the others to one cell behind all
blocks (`scatter_blocks`).  Blocks of one length are what parties exchange (`allToAllSingle_eq`).
-/

namespace Machinery

variable {α β δ : Type}

/-! ## Blocks -/

/-- The first `m` rows, and empty slots up to `m`. -/
def padBlock (m : ℕ) (rows : List α) : List (Option α) :=
  (rows.take m).map some ++ List.replicate (m - rows.length) none

@[simp] theorem length_padBlock (m : ℕ) (rows : List α) : (padBlock m rows).length = m := by
  rw [padBlock, List.length_append, List.length_map, List.length_take, List.length_replicate]
  omega

@[simp] theorem reduceOption_padBlock (m : ℕ) (rows : List α) :
    (padBlock m rows).reduceOption = rows.take m := by
  rw [padBlock, List.reduceOption_append, List.reduceOption_replicate_none, List.append_nil]
  simp [List.reduceOption]

theorem reduceOption_flatMap (g : δ → List (Option α)) : ∀ ds : List δ,
    (ds.flatMap g).reduceOption = ds.flatMap fun d => (g d).reduceOption
  | [] => rfl
  | d :: ds => by
    rw [List.flatMap_cons, List.reduceOption_append, reduceOption_flatMap g ds, List.flatMap_cons]

theorem length_flatMap_const {g : δ → List α} {m : ℕ} : ∀ {ds : List δ},
    (∀ d ∈ ds, (g d).length = m) → (ds.flatMap g).length = ds.length * m
  | [], _ => by simp
  | d :: ds, h => by
    rw [List.flatMap_cons, List.length_append, h d (.head _),
      length_flatMap_const fun d' hd' => h d' (.tail _ hd'), List.length_cons, Nat.succ_mul, Nat.add_comm]

theorem getD_map_range {n i : ℕ} (hi : i < n) (g : ℕ → α) (z : α) : ((List.range n).map g).getD i z = g i := by
  rw [List.getD_eq_getElem?_getD, List.getElem?_map, List.getElem?_range hi]
  rfl

/-- **A chunk of blocks of one length is a block.** -/
theorem chunk_flatMap {g : δ → List α} {m : ℕ} {d : δ} : ∀ {ds : List δ} {r : ℕ},
    (∀ d ∈ ds, (g d).length = m) → ds[r]? = some d →
      ((ds.flatMap g).drop (r * m)).take m = g d
  | d' :: ds, 0, h, hd => by
    cases hd
    rw [Nat.zero_mul, List.drop_zero, List.flatMap_cons, ← h d (.head _), List.take_left]
  | d' :: ds, r + 1, h, hd => by
    have hrest : ds[r]? = some d := hd
    rw [List.flatMap_cons, Nat.succ_mul, Nat.add_comm, ← List.drop_drop, ← h d' (.head _), List.drop_left,
      h d' (.head _)]
    exact chunk_flatMap (fun d hd => h d (.tail _ hd)) hrest

/-- `all_to_all_single` with equal splits: what `rank` receives of everyone's input. -/
def allToAllSingle (inputs : List (List α)) (rank : ℕ) : List α :=
  inputs.flatMap fun input =>
    (input.drop (rank * (input.length / inputs.length))).take (input.length / inputs.length)

/-- **Everyone's block for the rank**, in the order of the parties. -/
theorem allToAllSingle_eq {γ : Type} {ss : List δ} {ts : List γ} {g : δ → γ → List α} {m : ℕ}
    (hss : ss.length = ts.length) (hlen : ∀ s ∈ ss, ∀ t ∈ ts, (g s t).length = m) {r : ℕ} {t : γ}
    (ht : ts[r]? = some t) :
    allToAllSingle (ss.map fun s => ts.flatMap (g s)) r = ss.flatMap fun s => g s t := by
  have hpos : 0 < ts.length := List.length_pos_of_mem (List.mem_of_getElem? ht)
  rw [allToAllSingle, List.flatMap_map]
  refine List.flatMap_congr fun s hs => ?_
  rw [length_flatMap_const (hlen s hs), List.length_map, hss, Nat.mul_div_cancel_left m hpos]
  exact chunk_flatMap (hlen s hs) ht

/-! ## Masked assignment -/

/-- The entries of `xs`, those under the mask replaced by the values one after the other. -/
def fill : List Bool → List α → List α → List α
  | true :: mask, _ :: xs, v :: vals => v :: fill mask xs vals
  | false :: mask, x :: xs, vals => x :: fill mask xs vals
  | _, xs, _ => xs

/-- `xs[mask] = vals` -/
def setMasked (mask : List Bool) (xs vals : List α) : Option (List α) :=
  if mask.length = xs.length ∧ vals.length = mask.count true then some (fill mask xs vals) else none

theorem select_fill : ∀ {mask : List Bool} {xs vals : List α}, mask.length = xs.length →
    vals.length = mask.count true → select mask (fill mask xs vals) = vals
  | [], xs, vals, hxs, hvals => by
    rw [List.eq_nil_of_length_eq_zero hvals, List.eq_nil_of_length_eq_zero hxs.symm]
    rfl
  | true :: mask, x :: xs, v :: vals, hxs, hvals => by
    rw [List.count_cons_self, List.length_cons, Nat.add_right_cancel_iff] at hvals
    rw [fill, select_cons, if_pos rfl, select_fill (Nat.succ.inj hxs) hvals]
  | true :: mask, x :: xs, [], _, hvals => by simp at hvals
  | false :: mask, x :: xs, vals, hxs, hvals => by
    rw [List.count_cons_of_ne (by decide)] at hvals
    rw [fill, select_cons, if_neg (by decide), select_fill (Nat.succ.inj hxs) hvals]

theorem fill_map (b : δ → Bool) (z v : δ → α) : ∀ ds : List δ,
    fill (ds.map b) (ds.map z) ((ds.filter b).map v) = ds.map fun d => if b d then v d else z d
  | [] => rfl
  | d :: ds => by
    have htail := fill_map b z v ds
    cases hb : b d with
    | true => simp [hb, fill, htail]
    | false => simp [hb, fill, htail]

/-- **A mask computed row by row fills rows.** -/
theorem setMasked_map (b : δ → Bool) (z v : δ → α) (ds : List δ) :
    setMasked (ds.map b) (ds.map z) ((ds.filter b).map v) =
      some (ds.map fun d => if b d then v d else z d) := by
  have hcount : ((ds.filter b).map v).length = (ds.map b).count true := by
    rw [List.length_map, List.count, List.countP_map, List.countP_eq_length_filter]
    exact congrArg List.length (List.filter_congr fun d _ => by simp)
  rw [setMasked, if_pos ⟨by simp, hcount⟩, fill_map]

/-- The slots that hold a row. -/
theorem filter_isSome_map (z : β) (v : α → β) : ∀ slots : List (Option α),
    (slots.filter Option.isSome).map (fun slot => slot.elim z v) = slots.reduceOption.map v
  | [] => rfl
  | some x :: slots => congrArg (v x :: ·) (filter_isSome_map z v slots)
  | none :: slots => filter_isSome_map z v slots

/-! ## The place in a group -/

def cummaxFrom (c : ℤ) : List ℤ → List ℤ
  | [] => []
  | x :: xs => max c x :: cummaxFrom (max c x) xs

/-- `cummax(xs)`, without the places. -/
def cummax : List ℤ → List ℤ
  | [] => []
  | x :: xs => x :: cummaxFrom x xs

/-- The places, from `s` on, that open a group behind `prev`, and −1 for the others. -/
def markers (prev : Option ℤ) (s : ℤ) : List ℤ → List ℤ
  | [] => []
  | x :: xs => (if prev ≠ some x then s else -1) :: markers (some x) (s + 1) xs

theorem markers_some : ∀ (p s : ℤ) (xs : List ℤ),
    List.zipWith (fun new i => if new then i else -1)
        (List.zipWith (fun r r' => decide (r ≠ r')) xs (p :: xs).dropLast) (segment s xs.length) =
      markers (some p) s xs
  | _, _, [] => rfl
  | p, s, x :: xs => by
    have htail := markers_some x (s + 1) xs
    rw [List.dropLast_cons_cons, List.zipWith_cons_cons, List.length_cons, segment_succ,
      List.zipWith_cons_cons, htail, markers]
    refine congrArg (· :: _) ?_
    by_cases hx : x = p
    · simp [hx]
    · simp [hx, Ne.symm hx]

/-- The markers, by comparison with the row in front. -/
theorem markers_eq (xs : List ℤ) :
    List.zipWith (fun new i => if new then i else -1)
        (true :: List.zipWith (fun r r' => decide (r ≠ r')) xs.tail xs.dropLast) (arange xs.length) =
      markers none 0 xs := by
  cases xs with
  | nil => rfl
  | cons x xs =>
    have htail := markers_some x (0 + 1) xs
    rw [List.length_cons, arange, segment_succ, List.zipWith_cons_cons, List.tail_cons, htail, markers]
    rfl

/-- Within a group nothing is greater than its start. -/
theorem cummaxFrom_run {c k : ℤ} (hc : -1 ≤ c) (rest : List ℤ) : ∀ (n : ℕ) (s : ℤ),
    cummaxFrom c (markers (some k) s (List.replicate n k ++ rest)) =
      List.replicate n c ++ cummaxFrom c (markers (some k) (s + n) rest)
  | 0, s => by simp
  | n + 1, s => by
    have hmax : max c (-1) = c := max_eq_left hc
    have htail := cummaxFrom_run (k := k) hc rest n (s + 1)
    rw [List.replicate_succ, List.cons_append, markers, if_neg (by simp), cummaxFrom, hmax, htail,
      List.replicate_succ, List.cons_append, Nat.cast_succ]
    congr 4
    ring

/-- **The running maximum is the start of the group.** -/
theorem cummax_markers {key : δ → ℤ} {f : δ → List α} : ∀ {ds : List δ} {c : ℤ} {s : ℕ} {prev : Option ℤ},
    -1 ≤ c → c ≤ s → (ds.map key).Nodup → (∀ d ∈ ds, prev ≠ some (key d)) →
      cummaxFrom c (markers prev s (ds.flatMap fun d => List.replicate (f d).length (key d))) =
        (placed f s ds).flatMap fun d => List.replicate (f d.data).length (d.start : ℤ)
  | [], _, _, _, _, _, _, _ => rfl
  | d :: ds, c, s, prev, hlow, hhigh, hnodup, hprev => by
    rw [List.map_cons, List.nodup_cons] at hnodup
    rw [List.flatMap_cons, placed, List.flatMap_cons]
    cases hn : (f d).length with
    | zero =>
      exact cummax_markers hlow hhigh hnodup.2 fun d' hd' => hprev d' (.tail _ hd')
    | succ n =>
      have hmax : max c s = s := max_eq_right hhigh
      have htail := cummax_markers (f := f) (c := s) (s := s + (n + 1)) (by omega)
        (by omega) hnodup.2 fun d' hd' heq => hnodup.1 (List.mem_map.mpr ⟨d', hd', (Option.some.inj heq).symm⟩)
      rw [List.replicate_succ, List.cons_append, markers, if_pos (hprev d (.head _)), cummaxFrom, hmax,
        cummaxFrom_run (by omega), List.replicate_succ, List.cons_append]
      refine congrArg (_ :: ·) (congrArg (_ ++ ·) ?_)
      rw [← htail]
      congr 2
      push_cast
      ring

/-- The starts, entry by entry. -/
theorem flatMap_starts (f : δ → List α) (ds : List δ) :
    ((placed f 0 ds).flatMap fun d => List.replicate (f d.data).length (d.start : ℤ)) =
      (entries f ds).map fun e => (e.2.start : ℤ) := by
  have hcomp : (fun e : ℕ × Entry α => (e.2.start : ℤ)) = (fun e : Entry α => (e.start : ℤ)) ∘ Prod.snd :=
    rfl
  rw [entries, hcomp, ← List.map_map, tagged_map_snd, List.map_flatten, List.map_map, List.flatMap_def]
  refine congrArg List.flatten (List.map_congr_left fun d _ => ?_)
  refine (List.eq_replicate_iff.mpr ⟨by simp, fun i hi => ?_⟩).symm
  obtain ⟨e, he, rfl⟩ := List.mem_map.mp hi
  rw [(Placed.mem_entries he).1]

/-- The numbers of the groups, entry by entry. -/
theorem flatMap_groups (f : ℕ → List α) (n : ℕ) :
    ((List.range n).flatMap fun d => List.replicate (f d).length (d : ℤ)) =
      (entries f (List.range n)).map fun e => (e.1 : ℤ) := by
  rw [entries_map_row, repeatInterleave, List.length_range, arange, segment, List.zipWith_map_left,
    List.zipWith_map_right, List.zipWith_self, List.flatMap_def]
  simp

/-- The places in the groups, entry by entry. -/
theorem tagged_range (f : δ → List α) (ds : List δ) :
    tagged 0 (ds.map fun d => List.range (f d).length) =
      (entries f ds).map fun e => (e.1, e.2.pos) := by
  rw [entries, ← tagged_map, List.map_map, ← map_placed f (fun d => List.range (f d).length) 0 ds]
  refine congrArg (tagged 0) (List.map_congr_left fun d _ => List.ext_getElem (by simp) fun j hj hj' => ?_)
  simp [Placed.entries]

/-- An entry of numbered groups stands in its group. -/
theorem getElem?_of_mem_entries {f : ℕ → List α} {n : ℕ} {e : ℕ × Entry α}
    (he : e ∈ entries f (List.range n)) : (f e.1)[e.2.pos]? = some e.2.val := by
  obtain ⟨d, hd, hmem⟩ := mem_entries (r := e.1) (e := e.2) he
  have hdata := getElem?_of_placed hd
  rw [List.getElem?_eq_some_iff] at hdata
  obtain ⟨hlt, hdata⟩ := hdata
  rw [List.getElem_range] at hdata
  rw [hdata]
  exact (Placed.mem_entries hmem).2

/-! ## Into the blocks -/

/-- Whatever is written to the last cell stays there. -/
theorem scatter_last_cell (front : List α) : ∀ (vals : List α) (x : α),
    ∃ y, scatter (front ++ [x]) (List.replicate vals.length (front.length : ℤ)) vals =
      some (front ++ [y])
  | [], x => ⟨x, rfl⟩
  | v :: vals, x => by
    obtain ⟨y, hy⟩ := scatter_last_cell front vals v
    refine ⟨y, ?_⟩
    rw [List.length_cons, List.replicate_succ, scatter_cons, setItem_append _ _ _ _ rfl, Option.bind_some]
    exact hy

/-- The rows of one group, the first `m` to its block and the others to the last cell. -/
theorem scatter_block (before after : List α) (m : ℕ) (z x : α) (rows : List α) (last : ℕ)
    (hlast : last = before.length + m + after.length) :
    ∃ y, scatter (before ++ List.replicate m z ++ after ++ [x])
        ((List.range rows.length).map fun j => if j < m then ((before.length + j : ℕ) : ℤ) else last) rows =
      some (before ++ (rows.take m ++ List.replicate (m - rows.length) z) ++ after ++ [y]) := by
  have hfront := scatter_segment before (List.replicate (min m rows.length) z) (rows.take m)
    (List.replicate (m - rows.length) z ++ after ++ [x]) (by simp)
  obtain ⟨y, hy⟩ := scatter_last_cell
    (before ++ (rows.take m ++ List.replicate (m - rows.length) z) ++ after) (rows.drop m) x
  have hlen : (before ++ (rows.take m ++ List.replicate (m - rows.length) z) ++ after).length = last := by
    simp only [List.length_append, List.length_take, List.length_replicate]
    omega
  have hindex : ((List.range rows.length).map fun j =>
      if j < m then ((before.length + j : ℕ) : ℤ) else last) =
        segment before.length (rows.take m).length ++ List.replicate (rows.drop m).length (last : ℤ) := by
    refine List.ext_getElem (by simp; omega) fun j hj hj' => ?_
    rw [List.getElem_map, List.getElem_range]
    by_cases hjm : j < m
    · rw [if_pos hjm, List.getElem_append_left (by simp at hj ⊢; omega)]
      simp [segment]
    · rw [if_neg hjm, List.getElem_append_right (by simp; omega), List.getElem_replicate]
  have hblock : List.replicate m z =
      List.replicate (min m rows.length) z ++ List.replicate (m - rows.length) z := by
    rw [List.replicate_append_replicate]
    congr 1
    omega
  have hsplit : before ++ List.replicate m z ++ after ++ [x] =
      before ++ List.replicate (min m rows.length) z ++
        (List.replicate (m - rows.length) z ++ after ++ [x]) := by
    rw [hblock]
    simp only [List.append_assoc]
  have happend := @scatter_append _ (before ++ List.replicate m z ++ after ++ [x])
    (segment before.length (rows.take m).length) (List.replicate (rows.drop m).length (last : ℤ))
    (rows.take m) (rows.drop m) (by simp) (by simp)
  refine ⟨y, ?_⟩
  rw [List.take_append_drop, hsplit, hfront, Option.bind_some] at happend
  rw [hlen] at hy
  rw [hindex, hsplit, happend, ← hy]
  simp only [List.append_assoc]

theorem length_tagged (k : ℕ) (rows : List (List α)) :
    (tagged k rows).length = (rows.map List.length).sum := by
  rw [← List.length_map Prod.snd, tagged_map_snd, List.length_flatten]

/-- **Every group to its block.** -/
theorem scatter_blocks {f : δ → List α} (m : ℕ) (z : α) : ∀ {ds : List δ} {before : List α} {k : ℕ} (x : α),
    before.length = k * m →
      ∃ y, scatter (before ++ List.replicate (ds.length * m) z ++ [x])
          ((tagged k (ds.map fun d => List.range (f d).length)).map fun e =>
            if e.2 < m then ((e.1 * m + e.2 : ℕ) : ℤ) else ((k + ds.length) * m : ℕ)) (ds.flatMap f) =
        some (before ++ (ds.flatMap fun d => (f d).take m ++ List.replicate (m - (f d).length) z) ++ [y])
  | [], before, k, x, _ => ⟨x, by simp [scatter, tagged]⟩
  | d :: ds, before, k, x, hk => by
    obtain ⟨y, hy⟩ := scatter_block before (List.replicate (ds.length * m) z) m z x (f d)
      ((k + (ds.length + 1)) * m) (by
        rw [hk, List.length_replicate]
        ring)
    have hlength : (before ++ ((f d).take m ++ List.replicate (m - (f d).length) z)).length =
        (k + 1) * m := by
      rw [Nat.succ_mul]
      simp only [List.length_append, List.length_take, List.length_replicate]
      omega
    obtain ⟨y', hy'⟩ := @scatter_blocks f m z ds _ (k + 1) y hlength
    refine ⟨y', ?_⟩
    have hrest : List.replicate ((d :: ds).length * m) z =
        List.replicate m z ++ List.replicate (ds.length * m) z := by
      rw [List.replicate_append_replicate, List.length_cons, Nat.succ_mul, Nat.add_comm]
    have hlast : k + (d :: ds).length = k + 1 + ds.length := by
      rw [List.length_cons]
      omega
    rw [hk] at hy
    rw [hlast, List.map_cons, tagged, List.map_append, List.map_map, List.flatMap_cons,
      scatter_append (by simp) (by simp [length_tagged, Function.comp_def]), hrest, ← List.append_assoc]
    have hlast' : k + (ds.length + 1) = k + 1 + ds.length := by omega
    rw [hlast'] at hy
    simp only [List.append_assoc] at hy hy'
    simp only [Function.comp_def, hy, Option.bind_some, hy', List.flatMap_cons, List.append_assoc]

/-- **The first rows of the groups are the first rows of all** when only the last group with rows has more
of them than its block. -/
theorem take_consecutive_iff {f : δ → List α} {num : α → ℕ} {m : ℕ} (hm : 1 ≤ m) :
    ∀ {ds : List δ} {s n : ℕ}, (ds.flatMap f).map num = List.range' s n →
      ((ds.flatMap fun d => (f d).take m).map num =
          List.range' s (ds.flatMap fun d => (f d).take m).length ↔
        ds.Pairwise fun d d' => m < (f d).length → f d' = [])
  | [], _, _, _ => by simp
  | d :: ds, s, n, hnum => by
    rw [List.flatMap_cons, List.map_append, eq_comm, List.range'_eq_append_iff] at hnum
    obtain ⟨k, hk, hd, hds⟩ := hnum
    rw [Nat.mul_one] at hds
    have hlen : (f d).length = k := by
      have hlength := congrArg List.length hd
      rwa [List.length_map, List.length_range'] at hlength
    have ih := take_consecutive_iff hm hds
    rw [List.flatMap_cons, List.map_append, List.length_append, List.map_take, hd, List.pairwise_cons,
      List.length_take, hlen]
    by_cases hle : k ≤ m
    · rw [List.take_of_length_le (by rwa [List.length_range']), min_eq_right hle, ← List.range'_append_1,
        List.append_cancel_left_eq, ih]
      exact (and_iff_right fun d' _ hlt => absurd hlt (by omega)).symm
    · have htake : (List.range' s k).take m = List.range' s m := by
        rw [List.take_range'_of_length_ge (by omega)]
      rw [htake, min_eq_left (by omega), ← List.range'_append_1, List.append_cancel_left_eq]
      have hempty : (∀ d' ∈ ds, f d' = []) → (ds.flatMap fun d => (f d).take m) = [] := fun hnil =>
        List.flatMap_eq_nil_iff.mpr fun d' hd' => by rw [hnil d' hd', List.take_nil]
      constructor
      · intro hrest
        have hnil : ∀ d' ∈ ds, f d' = [] := fun d' hd' => by
          by_contra hne
          obtain ⟨x, hx⟩ := List.exists_mem_of_ne_nil ((f d').take m) (by
            rw [ne_eq, List.take_eq_nil_iff, not_or]
            exact ⟨by omega, hne⟩)
          have hpos : 0 < (ds.flatMap fun d => (f d).take m).length :=
            List.length_pos_of_mem (List.mem_flatMap.mpr ⟨d', hd', hx⟩)
          -- the next number is one of a row behind the group, which has a greater one
          have hnext : s + m ∈ (ds.flatMap fun d => (f d).take m).map num := by
            rw [hrest, List.mem_range'_1]
            omega
          obtain ⟨y, hy, hynum⟩ := List.mem_map.mp hnext
          obtain ⟨d'', hd'', hy⟩ := List.mem_flatMap.mp hy
          have hbehind : num y ∈ (ds.flatMap f).map num :=
            List.mem_map_of_mem (List.mem_flatMap.mpr ⟨d'', hd'', List.mem_of_mem_take hy⟩)
          rw [hds, List.mem_range'_1] at hbehind
          omega
        refine ⟨fun d' hd' _ => hnil d' hd', ih.mp ?_⟩
        rw [hempty hnil]
        rfl
      · intro hrest
        rw [hempty fun d' hd' => hrest.1 d' hd' (by omega)]
        rfl

end Machinery
