import VllmAscend.Machinery.Tensor

/-!
# Machinery/Ragged — batches of rows of different lengths, flattened

    rows     [a b]  []  [c d e]
    flat     a b c d e              starts  0 2 2        running sums  2 2 5
    row of   0 0 2 2 2              position of  0 1 0 1 2

A ragged batch is laid out as one flat tensor with the running sums of the row lengths beside it.
Vectorised code computes row numbers, positions and masks for the flat tensor; each is a map over
one list, the entries of the batch with their places (`entries`), and a scatter over such entries
is a scatter in every row (`scatter₂_rows`).
-/

namespace Machinery

variable {α β δ : Type}

/-! ## Running sums -/

/-- `cumsum(ns)`, from `s` on -/
def cumsum (s : ℤ) : List ℤ → List ℤ
  | [] => []
  | n :: ns => (s + n) :: cumsum (s + n) ns

/-- Where each row of the flattened batch starts. -/
def starts (s : ℕ) : List ℕ → List ℕ
  | [] => []
  | n :: ns => s :: starts (s + n) ns

/-- `repeat_interleave(xs, counts)` -/
def repeatInterleave (xs : List α) (counts : List ℕ) : List α :=
  (List.zipWith (fun x n => List.replicate n x) xs counts).flatten

@[simp] theorem length_cumsum : ∀ (s : ℤ) (ns : List ℤ), (cumsum s ns).length = ns.length
  | _, [] => rfl
  | s, n :: ns => congrArg (· + 1) (length_cumsum (s + n) ns)

@[simp] theorem length_starts : ∀ (s : ℕ) (ns : List ℕ), (starts s ns).length = ns.length
  | _, [] => rfl
  | s, n :: ns => congrArg (· + 1) (length_starts (s + n) ns)

/-- **A running sum without its own row is the row's start.** -/
theorem cumsum_sub : ∀ (s : ℕ) (ns : List ℕ),
    List.zipWith (· - ·) (cumsum s (ns.map Nat.cast)) (ns.map Nat.cast) =
      (starts s ns).map Nat.cast
  | _, [] => rfl
  | s, n :: ns => by
    have htail := cumsum_sub (s + n) ns
    rw [Nat.cast_add] at htail
    rw [List.map_cons, cumsum, List.zipWith_cons_cons, starts, List.map_cons, htail,
      add_sub_cancel_right]

/-- The running sums with a leading zero, without the last of them. -/
theorem cons_cumsum_dropLast : ∀ (s : ℕ) (ns : List ℕ),
    ((s : ℤ) :: cumsum s (ns.map Nat.cast)).dropLast = (starts s ns).map Nat.cast
  | _, [] => rfl
  | s, n :: ns => by
    have htail := cons_cumsum_dropLast (s + n) ns
    rw [Nat.cast_add] at htail
    rw [List.map_cons, cumsum, List.dropLast_cons_cons, htail]
    rfl

/-- The differences of the running sums are the lengths. -/
theorem cumsum_diff (s : ℤ) : ∀ ns : List ℤ,
    List.zipWith (· - ·) (cumsum s ns) (s :: cumsum s ns).dropLast = ns := by
  intro ns
  induction ns generalizing s with
  | nil => rfl
  | cons n ns ih =>
    rw [cumsum, List.dropLast_cons_cons, List.zipWith_cons_cons, ih, add_sub_cancel_left]

/-- The last running sum is the sum. -/
theorem getLast?_cumsum : ∀ (s : ℤ) (ns : List ℤ), (s :: cumsum s ns).getLast? = some (s + ns.sum)
  | s, [] => by simp [cumsum]
  | s, n :: ns => by
    rw [cumsum, List.getLast?_cons_cons, getLast?_cumsum, List.sum_cons, add_assoc]

/-- A flat tensor of one value. -/
theorem flatMap_replicate_eq (n : δ → ℕ) (x : α) (ds : List δ) :
    (ds.flatMap fun d => List.replicate (n d) x) = List.replicate (ds.map n).sum x := by
  induction ds with
  | nil => rfl
  | cons d ds ih => rw [List.flatMap_cons, ih, List.replicate_append_replicate, List.map_cons,
      List.sum_cons]

/-! ## Entries of a batch -/

/-- Every entry with the number of its row, rows counted from `k`. -/
def tagged (k : ℕ) : List (List α) → List (ℕ × α)
  | [] => []
  | row :: rows => row.map (k, ·) ++ tagged (k + 1) rows

theorem tagged_map (g : α → β) : ∀ (k : ℕ) (rows : List (List α)),
    tagged k (rows.map (List.map g)) = (tagged k rows).map fun e => (e.1, g e.2)
  | _, [] => rfl
  | k, row :: rows => by
    simp only [List.map_cons, tagged, List.map_append, List.map_map, tagged_map g (k + 1) rows,
      Function.comp_def]

theorem tagged_map_snd : ∀ (k : ℕ) (rows : List (List α)),
    (tagged k rows).map Prod.snd = rows.flatten
  | _, [] => rfl
  | k, row :: rows => by
    simp [tagged, tagged_map_snd (k + 1) rows]

theorem tagged_map_fst : ∀ (k : ℕ) (rows : List (List α)),
    (tagged k rows).map (fun e => (e.1 : ℤ)) =
      repeatInterleave (segment k rows.length) (rows.map List.length)
  | _, [] => rfl
  | k, row :: rows => by
    have htail := tagged_map_fst (k + 1) rows
    rw [Nat.cast_add, Nat.cast_one] at htail
    rw [tagged, List.map_append, htail, List.length_cons, segment_succ, List.map_cons,
      repeatInterleave, repeatInterleave, List.zipWith_cons_cons, List.flatten_cons, List.map_map]
    simp [Function.comp_def]

theorem mem_tagged {r : ℕ} {x : α} : ∀ {rows : List (List α)} {k : ℕ},
    (r, x) ∈ tagged k rows → ∃ j row, r = k + j ∧ rows[j]? = some row ∧ x ∈ row
  | [], _, h => by simp [tagged] at h
  | row :: rows, k, h => by
    obtain h | h := List.mem_append.mp h
    · obtain ⟨y, hy, heq⟩ := List.mem_map.mp h
      cases heq
      exact ⟨0, row, rfl, rfl, hy⟩
    · obtain ⟨j, row', hr, hrow, hx⟩ := mem_tagged h
      exact ⟨j + 1, row', by omega, hrow, hx⟩

/-- A row of the batch and where it starts in the flat tensor. -/
structure Placed (δ : Type) where
  start : ℕ
  data : δ

/-- An entry, where its row starts and where in the row it stands. -/
structure Entry (α : Type) where
  start : ℕ
  pos : ℕ
  val : α

section Layout

variable (f : δ → List α)

/-- The rows of a batch with their starts, when row `d` has the entries `f d`. -/
def placed (s : ℕ) : List δ → List (Placed δ)
  | [] => []
  | d :: ds => ⟨s, d⟩ :: placed (s + (f d).length) ds

/-- The entries of a row. -/
def Placed.entries (d : Placed δ) : List (Entry α) := (f d.data).mapIdx fun j x => ⟨d.start, j, x⟩

/-- **The entries of the batch**, in the order of the flat tensor. -/
def entries (ds : List δ) : List (ℕ × Entry α) := tagged 0 ((placed f 0 ds).map (Placed.entries f))

@[simp] theorem map_data_placed : ∀ (s : ℕ) (ds : List δ), (placed f s ds).map Placed.data = ds
  | _, [] => rfl
  | s, d :: ds => congrArg (d :: ·) (map_data_placed (s + (f d).length) ds)

@[simp] theorem map_start_placed : ∀ (s : ℕ) (ds : List δ),
    (placed f s ds).map Placed.start = starts s (ds.map fun d => (f d).length)
  | _, [] => rfl
  | s, d :: ds => congrArg (s :: ·) (map_start_placed (s + (f d).length) ds)

/-- Rows of the same lengths start at the same places. -/
theorem placed_congr (g : δ → List β) : ∀ {s : ℕ} {ds : List δ},
    (∀ d ∈ ds, (f d).length = (g d).length) → placed f s ds = placed g s ds
  | _, [], _ => rfl
  | s, d :: ds, h => by
    rw [placed, placed, h d (.head _), placed_congr g fun d' hd' => h d' (.tail _ hd')]

variable {f} in
/-- Where row `r` starts. -/
theorem start_eq {d : Placed δ} : ∀ {s r : ℕ} {ds : List δ}, (placed f s ds)[r]? = some d →
    d.start = s + ((ds.take r).flatMap f).length
  | _, _, [], h => by simp [placed] at h
  | _, 0, _ :: _, h => by
    cases h
    rfl
  | s, r + 1, d' :: ds, h => by
    have hrest : (placed f (s + (f d').length) ds)[r]? = some d := h
    rw [start_eq hrest]
    simp [Nat.add_assoc]

/-- **The starts, from the running sums of the lengths.** -/
theorem cumsum_sub_placed (ds : List δ) :
    List.zipWith (· - ·) (cumsum 0 ((ds.map fun d => (f d).length).map Nat.cast))
        ((ds.map fun d => (f d).length).map Nat.cast) =
      (placed f 0 ds).map fun d => (d.start : ℤ) := by
  refine (cumsum_sub 0 _).trans ?_
  rw [← map_start_placed f, List.map_map]
  rfl

/-- The starts, from the running sums with their leading zero. -/
theorem cons_cumsum_dropLast_placed (ds : List δ) :
    (0 :: cumsum 0 ((ds.map fun d => (f d).length).map Nat.cast)).dropLast =
      (placed f 0 ds).map fun d => (d.start : ℤ) := by
  refine (cons_cumsum_dropLast 0 _).trans ?_
  rw [← map_start_placed f, List.map_map]
  rfl

/-- What is computed from a row alone. -/
theorem map_placed (g : δ → β) (s : ℕ) (ds : List δ) :
    ((placed f s ds).map fun d => g d.data) = ds.map g := by
  rw [← Function.comp_def, ← List.map_map, map_data_placed]

theorem flatMap_placed (g : δ → List β) (s : ℕ) (ds : List δ) :
    ((placed f s ds).flatMap fun d => g d.data) = ds.flatMap g := by
  rw [List.flatMap_def, map_placed, List.flatMap_def]

theorem mem_of_mem_placed {s : ℕ} {ds : List δ} {d : Placed δ} (h : d ∈ placed f s ds) :
    d.data ∈ ds := by
  rw [← map_data_placed f s ds]
  exact List.mem_map_of_mem h

@[simp] theorem length_placed (s : ℕ) (ds : List δ) : (placed f s ds).length = ds.length := by
  rw [← List.length_map Placed.data, map_data_placed]

@[simp] theorem Placed.length_entries (d : Placed δ) :
    (d.entries f).length = (f d.data).length := by
  simp [Placed.entries]

variable {f} in
/-- Every entry of a row stands in it. -/
theorem Placed.mem_entries {d : Placed δ} {e : Entry α} (he : e ∈ d.entries f) :
    e.start = d.start ∧ (f d.data)[e.pos]? = some e.val := by
  obtain ⟨j, hj, rfl⟩ := List.mem_mapIdx.mp he
  exact ⟨rfl, by simp [hj]⟩

variable {f} in
/-- **Every entry of the batch stands in its row.** -/
theorem mem_entries {ds : List δ} {r : ℕ} {e : Entry α} (h : (r, e) ∈ entries f ds) :
    ∃ d, (placed f 0 ds)[r]? = some d ∧ e ∈ d.entries f := by
  obtain ⟨j, row, hr, hrow, he⟩ := mem_tagged h
  rw [List.getElem?_map, Option.map_eq_some_iff] at hrow
  obtain ⟨d, hd, rfl⟩ := hrow
  exact ⟨d, by rw [hr, Nat.zero_add]; exact hd, he⟩

theorem Placed.entries_map_val (d : Placed δ) : (d.entries f).map Entry.val = f d.data := by
  refine List.ext_getElem (by simp) fun j hj hj' => ?_
  simp [Placed.entries]

/-- The values of the entries are the flat tensor. -/
theorem entries_map_val (ds : List δ) :
    (entries f ds).map (fun e => e.2.val) = ds.flatMap f := by
  have hcomp : (fun e : ℕ × Entry α => e.2.val) = Entry.val ∘ Prod.snd := rfl
  rw [entries, hcomp, ← List.map_map, tagged_map_snd, List.map_flatten, List.map_map,
    List.flatMap_def, ← map_placed f f 0 ds]
  exact congrArg List.flatten (List.map_congr_left fun d _ => Placed.entries_map_val f d)

/-- The row numbers of the entries. -/
theorem entries_map_row (ds : List δ) :
    (entries f ds).map (fun e => (e.1 : ℤ)) =
      repeatInterleave (arange ds.length) (ds.map fun d => (f d).length) := by
  rw [entries, tagged_map_fst, List.map_map, List.length_map, length_placed,
    ← map_placed f (fun d => (f d).length) 0 ds]
  exact congrArg _ (List.map_congr_left fun d _ => Placed.length_entries f d)

/-- A row's entries stand side by side in the flat tensor. -/
theorem Placed.entries_map_index (d : Placed δ) :
    (d.entries f).map (fun e => ((e.start + e.pos : ℕ) : ℤ)) =
      segment d.start (f d.data).length := by
  refine List.ext_getElem (by simp) fun j hj hj' => ?_
  simp [Placed.entries, segment]

theorem tagged_map_index : ∀ (k s : ℕ) (ds : List δ),
    (tagged k ((placed f s ds).map (Placed.entries f))).map
        (fun e => ((e.2.start + e.2.pos : ℕ) : ℤ)) = segment s (ds.flatMap f).length
  | _, _, [] => rfl
  | k, s, d :: ds => by
    have htail := tagged_map_index (k + 1) (s + (f d).length) ds
    rw [placed, List.map_cons, tagged, List.map_append, htail, List.map_map, List.flatMap_cons,
      List.length_append, segment_add, Nat.cast_add]
    exact congrArg (· ++ _) (Placed.entries_map_index f ⟨s, d⟩)

/-- **The entries stand side by side in the flat tensor.** -/
theorem entries_map_index (ds : List δ) :
    (entries f ds).map (fun e => ((e.2.start + e.2.pos : ℕ) : ℤ)) =
      arange (ds.flatMap f).length :=
  tagged_map_index f 0 0 ds

/-- **The start of each entry's row**, looked up by the row numbers. -/
theorem gather_starts (ds : List δ) :
    gather ((placed f 0 ds).map fun d => (d.start : ℤ)) ((entries f ds).map fun e => (e.1 : ℤ)) =
      some ((entries f ds).map fun e => (e.2.start : ℤ)) := by
  refine gather_eq_some fun e he => ?_
  obtain ⟨d, hd, hmem⟩ := mem_entries he
  rw [item_natCast, List.getElem?_map, hd, (Placed.mem_entries hmem).1]
  rfl

/-- **The ends of the rows are the running sums of the lengths.** -/
theorem cumsum_placed : ∀ (s : ℕ) (ds : List δ),
    cumsum s ((ds.map fun d => (f d).length).map Nat.cast) =
      (placed f s ds).map fun d => (d.start : ℤ) + (f d.data).length
  | _, [] => rfl
  | s, d :: ds => by
    have htail := cumsum_placed (s + (f d).length) ds
    rw [Nat.cast_add] at htail
    rw [List.map_cons, List.map_cons, cumsum, htail]
    rfl

variable {f} in
/-- The end of one row. -/
theorem getElem?_cumsum {d : Placed δ} {s r : ℕ} {ds : List δ} (h : (placed f s ds)[r]? = some d) :
    (cumsum s ((ds.map fun d => (f d).length).map Nat.cast))[r]? =
      some ((d.start : ℤ) + (f d.data).length) := by
  rw [cumsum_placed, List.getElem?_map, h]
  rfl

variable {f} in
/-- Where a row starts, in the running sums with their leading zero. -/
theorem getElem?_cons_cumsum {d : Placed δ} : ∀ {s r : ℕ} {ds : List δ},
    (placed f s ds)[r]? = some d →
      ((s : ℤ) :: cumsum s ((ds.map fun d => (f d).length).map Nat.cast))[r]? = some (d.start : ℤ)
  | _, _, [], h => by simp [placed] at h
  | _, 0, _ :: _, h => by
    cases h
    rfl
  | s, r + 1, d' :: ds, h => by
    have hrest : (placed f (s + (f d').length) ds)[r]? = some d := h
    have htail := getElem?_cons_cumsum hrest
    rwa [Nat.cast_add] at htail

/-- A row of the batch has its place. -/
theorem exists_placed {r : ℕ} {x : δ} {s : ℕ} {ds : List δ} (h : ds[r]? = some x) :
    ∃ d, (placed f s ds)[r]? = some d ∧ d.data = x := by
  rw [← map_data_placed f s ds, List.getElem?_map, Option.map_eq_some_iff] at h
  exact h

variable {f} in
theorem getElem?_of_placed {r : ℕ} {d : Placed δ} {s : ℕ} {ds : List δ}
    (h : (placed f s ds)[r]? = some d) : ds[r]? = some d.data := by
  rw [← map_data_placed f s ds, List.getElem?_map, h]
  rfl

variable {f} in
/-- **…and the next row starts there.** -/
theorem start_succ {d d' : Placed δ} : ∀ {s r : ℕ} {ds : List δ}, (placed f s ds)[r]? = some d →
    (placed f s ds)[r + 1]? = some d' → d'.start = d.start + (f d.data).length
  | _, _, [], h, _ => by simp [placed] at h
  | _, 0, [_], _, h' => by simp [placed] at h'
  | _, 0, _ :: _ :: _, h, h' => by
    cases h
    cases h'
    rfl
  | s, r + 1, e :: ds, h, h' => by
    have hrest : (placed f (s + (f e).length) ds)[r]? = some d := h
    have hnext : (placed f (s + (f e).length) ds)[r + 1]? = some d' := h'
    exact start_succ hrest hnext

end Layout

/-! ## Scattering into the rows of a matrix -/

/-- A scatter whose entries are all in one row. -/
theorem foldlM_row (before after : List (List α)) : ∀ (es : List (ℤ × α)) (row : List α),
    (es.map (before.length, ·)).foldlM
        (fun m (e : ℕ × ℤ × α) => modifyItem (fun row => setItem row e.2.1 e.2.2) m e.1)
        (before ++ row :: after) =
      (es.foldlM (fun row e => setItem row e.1 e.2) row).map fun row => before ++ row :: after
  | [], row => rfl
  | e :: es, row => by
    rw [List.map_cons, List.foldlM_cons, List.foldlM_cons, modifyItem_append _ _ _ _ rfl]
    cases setItem row e.1 e.2 with
    | none => rfl
    | some row' => exact foldlM_row before after es row'

/-- …and one with entries in every row. -/
theorem foldlM_tagged {f h : δ → List α} {g : δ → List (ℤ × α)} :
    ∀ {ds : List δ} (before : List (List α)),
      (∀ d ∈ ds, (g d).foldlM (fun row e => setItem row e.1 e.2) (f d) = some (h d)) →
      (tagged before.length (ds.map g)).foldlM
        (fun m (e : ℕ × ℤ × α) => modifyItem (fun row => setItem row e.2.1 e.2.2) m e.1)
        (before ++ ds.map f) = some (before ++ ds.map h)
  | [], before, _ => by simp [tagged]
  | d :: ds, before, hrow => by
    have htail := foldlM_tagged (before ++ [h d]) fun d' hd' => hrow d' (.tail _ hd')
    rw [List.length_append, List.length_singleton] at htail
    rw [List.map_cons, List.map_cons, List.map_cons, tagged, List.foldlM_append, foldlM_row,
      hrow d (.head _)]
    simpa using htail

/-- **A scatter is a scatter in every row.** -/
theorem scatter₂_rows (ds : List δ) (f : δ → List α) (g : δ → List (ℤ × α)) (h : δ → List α)
    (hrow : ∀ d ∈ ds, (g d).foldlM (fun row e => setItem row e.1 e.2) (f d) = some (h d)) :
    scatter₂ (ds.map f) ((tagged 0 (ds.map g)).map fun e => (e.1 : ℤ))
      ((tagged 0 (ds.map g)).map fun e => e.2.1) ((tagged 0 (ds.map g)).map fun e => e.2.2) =
        some (ds.map h) := by
  have hfold := foldlM_tagged [] hrow
  rw [scatter₂, if_pos (by simp), List.zip_map', List.zip_map', List.foldlM_map]
  exact hfold

/-- **Laying the flat tensor out in the rows of a matrix**: each row of the batch overwrites the front
of its row. -/
theorem scatter₂_entries (f : δ → List α) (φ : Entry α → β) (init : List β) (ds : List δ)
    (hlen : ∀ d ∈ ds, (f d).length ≤ init.length) :
    scatter₂ (List.replicate ds.length init) ((entries f ds).map fun e => (e.1 : ℤ))
      ((entries f ds).map fun e => (e.2.pos : ℤ)) ((entries f ds).map fun e => φ e.2) =
        some ((placed f 0 ds).map fun d =>
          (d.entries f).map φ ++ init.drop (f d.data).length) := by
  have hrow : ∀ d ∈ placed f 0 ds,
      ((d.entries f).map fun e => ((e.pos : ℤ), φ e)).foldlM
        (fun row e => setItem row e.1 e.2) init =
          some ((d.entries f).map φ ++ init.drop (f d.data).length) := by
    intro d hd
    have hle : (f d.data).length ≤ init.length := hlen d.data (mem_of_mem_placed f hd)
    have hzip : ((d.entries f).map fun e => ((e.pos : ℤ), φ e)) =
        (segment 0 (f d.data).length).zip ((d.entries f).map φ) := by
      refine List.ext_getElem (by simp) fun j hj hj' => ?_
      simp [Placed.entries, segment]
    have hscatter := scatter_segment [] (init.take (f d.data).length) ((d.entries f).map φ)
      (init.drop (f d.data).length) (by simp [hle])
    rw [scatter, if_pos (by simp)] at hscatter
    rw [hzip]
    simpa using hscatter
  have hrows := scatter₂_rows (placed f 0 ds) (fun _ => init)
    (fun d : Placed δ => (d.entries f).map fun e => ((e.pos : ℤ), φ e)) _ hrow
  have htag : tagged 0 ((placed f 0 ds).map fun d : Placed δ =>
      (d.entries f).map fun e => ((e.pos : ℤ), φ e)) =
        (entries f ds).map fun e => (e.1, (e.2.pos : ℤ), φ e.2) := by
    rw [entries, ← tagged_map fun e : Entry α => ((e.pos : ℤ), φ e), List.map_map]
    rfl
  rw [List.map_const', length_placed, htag, List.map_map, List.map_map, List.map_map] at hrows
  exact hrows

/-! ## Masks -/

/-- `xs[mask]` -/
def select (mask : List Bool) (xs : List α) : List α := ((xs.zip mask).filter Prod.snd).map Prod.fst

/-- `where(mask)[0]` -/
def nonzero (mask : List Bool) : List ℤ := select mask (arange mask.length)

/-- `where(mask)` of a matrix, row by row. -/
def nonzero₂ (mask : List (List Bool)) : List (ℕ × ℤ) := tagged 0 (mask.map nonzero)

/-- `m[mask]` of a matrix, row by row. -/
def select₂ (mask : List (List Bool)) (m : List (List α)) : List α :=
  (List.zipWith select mask m).flatten

@[simp] theorem select_nil (mask : List Bool) : select mask ([] : List α) = [] := rfl

theorem select_cons (b : Bool) (mask : List Bool) (x : α) (xs : List α) :
    select (b :: mask) (x :: xs) = if b then x :: select mask xs else select mask xs := by
  cases b <;> rfl

theorem map_select (g : α → β) (mask : List Bool) (xs : List α) :
    select mask (xs.map g) = (select mask xs).map g := by
  rw [select, select, List.zip_map_left, List.filter_map, List.map_map, List.map_map]
  rfl

/-- **A mask computed row by row picks rows.** -/
theorem select_map (b : δ → Bool) (c : δ → α) (ds : List δ) :
    select (ds.map b) (ds.map c) = (ds.filter b).map c := by
  induction ds with
  | nil => rfl
  | cons d ds ih =>
    rw [List.map_cons, List.map_cons, select_cons, ih]
    cases hb : b d <;> simp [hb]

/-- The rows such a mask names. -/
theorem select_segment (b : δ → Bool) (x : δ → α) : ∀ (k : ℕ) (ds : List δ),
    select (ds.map b) (segment k ds.length) =
      (tagged k (ds.map fun d => if b d then [x d] else [])).map fun e => (e.1 : ℤ)
  | _, [] => rfl
  | k, d :: ds => by
    have htail := select_segment b x (k + 1) ds
    rw [Nat.cast_add, Nat.cast_one] at htail
    rw [List.map_cons, List.length_cons, segment_succ, select_cons, htail, List.map_cons, tagged]
    cases b d <;> rfl

theorem nonzero_map (b : δ → Bool) (x : δ → α) (ds : List δ) :
    nonzero (ds.map b) =
      (tagged 0 (ds.map fun d => if b d then [x d] else [])).map fun e => (e.1 : ℤ) := by
  rw [nonzero, List.length_map]
  exact select_segment b x 0 ds

/-- The entries of the rows a mask names. -/
theorem flatten_map_if (b : δ → Bool) (x : δ → α) (ds : List δ) :
    (ds.map fun d => if b d then [x d] else []).flatten = (ds.filter b).map x := by
  induction ds with
  | nil => rfl
  | cons d ds ih =>
    rw [List.map_cons, List.flatten_cons, ih]
    cases hb : b d <;> simp [hb]

/-- **`xs[where(mask)]` is `xs[mask]`.** -/
theorem gather_nonzero (b : δ → Bool) (c : δ → α) (ds : List δ) :
    gather (ds.map c) (nonzero (ds.map b)) = some ((ds.filter b).map c) := by
  rw [nonzero_map b c, ← flatten_map_if b c, ← tagged_map_snd 0]
  refine gather_eq_some fun e he => ?_
  obtain ⟨j, row, hr, hrow, hx⟩ := mem_tagged he
  rw [List.getElem?_map, Option.map_eq_some_iff] at hrow
  obtain ⟨d, hd, rfl⟩ := hrow
  have hval : e.2 = c d := by
    cases hb : b d <;> simp [hb] at hx
    exact hx
  rw [item_natCast, hr, Nat.zero_add, List.getElem?_map, hd, hval]
  rfl

theorem length_nonzero (b : δ → Bool) (ds : List δ) :
    (nonzero (ds.map b)).length = (ds.filter b).length := by
  have hflat := congrArg List.length (flatten_map_if b id ds)
  rw [← tagged_map_snd 0, List.length_map, List.length_map] at hflat
  rw [nonzero_map b id, List.length_map, hflat]

/-- **A scatter of at most one entry a row.** -/
theorem scatter₂_nonzero {ds : List δ} (b : δ → Bool) (f : δ → List α) (c : δ → ℤ) (v : δ → α)
    (h : δ → List α)
    (hrow : ∀ d ∈ ds, (if b d then setItem (f d) (c d) (v d) else some (f d)) = some (h d)) :
    scatter₂ (ds.map f) (nonzero (ds.map b)) ((ds.filter b).map c) ((ds.filter b).map v) =
      some (ds.map h) := by
  have hfold : ∀ d ∈ ds, (if b d then [(c d, v d)] else []).foldlM
      (fun row e => setItem row e.1 e.2) (f d) = some (h d) := by
    intro d hd
    rw [← hrow d hd]
    cases b d <;> simp
  have hscatter := scatter₂_rows ds f (fun d => if b d then [(c d, v d)] else []) h hfold
  have hflat := flatten_map_if b (fun d => (c d, v d)) ds
  rw [← tagged_map_snd 0] at hflat
  have hcols := congrArg (List.map Prod.fst) hflat
  have hvals := congrArg (List.map Prod.snd) hflat
  simp only [List.map_map, Function.comp_def] at hcols hvals
  rwa [hcols, hvals, ← nonzero_map] at hscatter

/-- **A masked assignment of one tensor to another.** -/
theorem scatter_nonzero (b : δ → Bool) (f c : δ → α) (ds : List δ) :
    scatter (ds.map f) (nonzero (ds.map b)) ((ds.filter b).map c) =
      some (ds.map fun d => if b d then c d else f d) := by
  have key : ∀ (ds : List δ) (before : List α),
      ((select (ds.map b) (segment before.length ds.length)).zip ((ds.filter b).map c)).foldlM
        (fun xs e => setItem xs e.1 e.2) (before ++ ds.map f) =
          some (before ++ ds.map fun d => if b d then c d else f d) := by
    intro ds
    induction ds with
    | nil => simp
    | cons d ds ih =>
      intro before
      have htail := fun y => ih (before ++ [y])
      simp only [List.length_append, List.length_singleton, Nat.cast_add, Nat.cast_one,
        List.append_assoc, List.singleton_append] at htail
      rw [List.length_cons, segment_succ]
      simp only [List.map_cons, select_cons]
      cases hb : b d with
      | false => simpa [hb] using htail (f d)
      | true =>
        simp only [if_true, List.filter_cons_of_pos hb, List.map_cons, List.zip_cons_cons,
          List.foldlM_cons, setItem_append _ _ _ _ rfl]
        exact htail (c d)
  have hlen : (nonzero (ds.map b)).length = ((ds.filter b).map c).length := by
    rw [length_nonzero, List.length_map]
  rw [scatter, if_pos hlen, nonzero, List.length_map]
  exact key ds []

/-- The mask of the places before `t`, switched on or off as a whole. -/
theorem select_lt (g : Bool) (t : ℤ) : ∀ (s : ℤ) (xs : List α),
    select ((segment s xs.length).map fun c => decide (c < t) && g) xs =
      if g then xs.take (t - s).toNat else []
  | s, [] => by simp
  | s, x :: xs => by
    rw [List.length_cons, segment_succ, List.map_cons, select_cons, select_lt g t (s + 1) xs]
    cases g with
    | false => simp
    | true =>
      by_cases h : s < t
      · have hsub : (t - s).toNat = (t - (s + 1)).toNat + 1 := by omega
        simp [h, hsub]
      · have hsub : (t - s).toNat = 0 := by omega
        have hsub' : (t - (s + 1)).toNat = 0 := by omega
        simp [h, hsub, hsub']

/-- The places of a block before `n`. -/
theorem select_offsets (s : ℤ) (b n : ℕ) :
    select ((arange b).map fun o => decide (o < (n : ℤ))) ((arange b).map fun o => s + o) =
      segment s (min n b) := by
  have h := select_lt true n 0 (arange b)
  simp only [length_arange, Bool.and_true, if_true, sub_zero, Int.toNat_natCast] at h
  rw [map_select]
  refine (congrArg (List.map _) h).trans ?_
  rw [arange, segment_take, map_add_segment, add_zero]

/-! ## Gathering from and scattering into the flat tensor -/

/-- Two scatters one after the other. -/
theorem scatter_append {xs : List α} {i₁ i₂ : List ℤ} {v₁ v₂ : List α}
    (h₁ : i₁.length = v₁.length) (h₂ : i₂.length = v₂.length) :
    scatter xs (i₁ ++ i₂) (v₁ ++ v₂) = (scatter xs i₁ v₁).bind fun xs => scatter xs i₂ v₂ := by
  simp only [scatter, List.length_append, h₁, h₂, if_true, List.zip_append h₁, List.foldlM_append]
  rfl

theorem scatter_rows_from {old new : δ → List α} : ∀ (before : List α) {ds : List δ},
    (∀ d ∈ ds, (new d).length ≤ (old d).length) →
      scatter (before ++ ds.flatMap old)
          ((placed old before.length ds).flatMap fun d => segment d.start (new d.data).length)
          (ds.flatMap new) =
        some (before ++ ds.flatMap fun d => new d ++ (old d).drop (new d).length)
  | before, [], _ => by simp [placed, scatter]
  | before, d :: ds, h => by
    have hlen := h d (.head _)
    have htail := scatter_rows_from (before ++ (new d ++ (old d).drop (new d).length))
      fun d' hd' => h d' (.tail _ hd')
    have hhead := scatter_segment before ((old d).take (new d).length) (new d)
      ((old d).drop (new d).length ++ ds.flatMap old) (by simp [hlen])
    have hlength : (before ++ (new d ++ (old d).drop (new d).length)).length =
        before.length + (old d).length := by
      simp only [List.length_append, List.length_drop]
      omega
    have hcount : ((placed old (before.length + (old d).length) ds).flatMap fun d =>
        segment d.start (new d.data).length).length = (ds.flatMap new).length := by
      rw [List.length_flatMap, List.length_flatMap,
        ← map_placed old (fun d => (new d).length) (before.length + (old d).length) ds]
      simp
    have hsplit : before ++ (old d).take (new d).length ++
        ((old d).drop (new d).length ++ ds.flatMap old) = before ++ (d :: ds).flatMap old := by
      rw [List.flatMap_cons, List.append_assoc, ← List.append_assoc ((old d).take _),
        List.take_append_drop]
    rw [hsplit] at hhead
    rw [hlength] at htail
    have hindex : (placed old before.length (d :: ds)).flatMap (fun d =>
        segment d.start (new d.data).length) = segment before.length (new d).length ++
          (placed old (before.length + (old d).length) ds).flatMap fun d =>
            segment d.start (new d.data).length := rfl
    rw [hindex, List.flatMap_cons (f := new), scatter_append (by simp) hcount, hhead,
      Option.bind_some,
      show before ++ new d ++ ((old d).drop (new d).length ++ ds.flatMap old) =
        before ++ (new d ++ (old d).drop (new d).length) ++ ds.flatMap old by simp, htail]
    simp

/-- **A scatter over the fronts of the rows** of the flat tensor. -/
theorem scatter_rows (old new : δ → List α) (ds : List δ)
    (h : ∀ d ∈ ds, (new d).length ≤ (old d).length) :
    scatter (ds.flatMap old)
        ((placed old 0 ds).flatMap fun d => segment d.start (new d.data).length)
        (ds.flatMap new) =
      some (ds.flatMap fun d => new d ++ (old d).drop (new d).length) :=
  scatter_rows_from [] h

theorem scatter_cons (xs : List α) (i : ℤ) (is : List ℤ) (v : α) (vs : List α) :
    scatter xs (i :: is) (v :: vs) = (setItem xs i v).bind fun xs => scatter xs is vs := by
  by_cases h : is.length = vs.length
  · simp only [scatter, List.length_cons, h, if_true, List.zip_cons_cons, List.foldlM_cons]
    rfl
  · cases setItem xs i v <;> simp [scatter, h]

/-- **A scatter at the last place of every row.** -/
theorem scatter_last (front : δ → List α) (old new : δ → α) (after : List α) :
    ∀ (before : List α) (ds : List δ),
      scatter (before ++ (ds.flatMap fun d => front d ++ [old d]) ++ after)
          ((placed (fun d => front d ++ [old d]) before.length ds).map fun d =>
            (d.start : ℤ) + (front d.data).length) (ds.map new) =
        some (before ++ (ds.flatMap fun d => front d ++ [new d]) ++ after)
  | before, [] => by simp [placed, scatter]
  | before, d :: ds => by
    have htail := scatter_last front old new after (before ++ (front d ++ [new d])) ds
    have hlength : (before ++ (front d ++ [new d])).length =
        before.length + (front d ++ [old d]).length := by simp
    rw [hlength] at htail
    have hhead := setItem_append (before ++ front d)
      ((ds.flatMap fun d => front d ++ [old d]) ++ after) (old d) (new d)
      (j := before.length + (front d).length) List.length_append
    have hsplit : before ++ ((d :: ds).flatMap fun d => front d ++ [old d]) ++ after =
        before ++ front d ++ old d :: ((ds.flatMap fun d => front d ++ [old d]) ++ after) := by
      simp
    rw [hsplit, placed, List.map_cons, List.map_cons, scatter_cons, ← Nat.cast_add, hhead,
      Option.bind_some]
    simpa using htail

/-- **The flat tensor shifted by one place**: each row loses its first entry and gets some other at
its end. -/
theorem shifted_rows {f : δ → List α} (x : α) : ∀ {ds : List δ}, ds ≠ [] → (∀ d ∈ ds, f d ≠ []) →
    ∃ last : List α, last.length = ds.length ∧
      (ds.flatMap f).tail ++ [x] = (ds.zip last).flatMap fun d => (f d.1).tail ++ [d.2]
  | [d], _, _ => ⟨[x], rfl, by simp⟩
  | d :: d' :: ds, _, hrow => by
    obtain ⟨last, hlen, hshift⟩ := shifted_rows x (List.cons_ne_nil d' ds)
      fun r hr => hrow r (.tail _ hr)
    obtain ⟨a, row, ha⟩ := List.exists_cons_of_ne_nil (hrow d (.head _))
    obtain ⟨b, row', hb⟩ := List.exists_cons_of_ne_nil (hrow d' (.tail _ (.head _)))
    refine ⟨b :: last, by simp [hlen], ?_⟩
    refine Eq.trans ?_ (congrArg ((f d).tail ++ [b] ++ ·) hshift)
    simp [ha, hb]

/-- **Flat tensors with the same row lengths are equal row by row.** -/
theorem flatMap_inj {f g : δ → List α} : ∀ {ds : List δ},
    (∀ d ∈ ds, (f d).length = (g d).length) → ds.flatMap f = ds.flatMap g → ∀ d ∈ ds, f d = g d
  | [], _, _ => by simp
  | d :: ds, hlen, h => by
    rw [List.flatMap_cons, List.flatMap_cons] at h
    obtain ⟨hhead, htail⟩ := List.append_inj h (hlen d (.head _))
    have hrest := flatMap_inj (fun d' hd' => hlen d' (.tail _ hd')) htail
    intro d' hd'
    obtain rfl | hd' := List.mem_cons.mp hd'
    · exact hhead
    · exact hrest d' hd'

/-- A gather over consecutive places. -/
theorem gather_segment : ∀ (before row after : List α) {n : ℕ}, n ≤ row.length →
    gather (before ++ row ++ after) (segment before.length n) = some (row.take n)
  | _, _, _, 0, _ => by simp [gather]
  | before, x :: row, after, n + 1, h => by
    have htail := gather_segment (before ++ [x]) row after (Nat.le_of_succ_le_succ h)
    rw [List.length_append, List.length_singleton, Nat.cast_add, Nat.cast_one] at htail
    have hsplit : before ++ x :: row ++ after = before ++ [x] ++ row ++ after := by simp
    have hhead : item (before ++ [x] ++ row ++ after) before.length = some x := by simp
    rw [gather] at htail ⊢
    rw [segment_succ, List.mapM_cons, hsplit, hhead, htail]
    rfl

/-- Where a row of the batch stands in the flat tensor. -/
theorem exists_flatMap_eq {f : δ → List α} {d : Placed δ} : ∀ {s : ℕ} {ds : List δ},
    d ∈ placed f s ds →
      ∃ before after, ds.flatMap f = before ++ f d.data ++ after ∧ d.start = s + before.length
  | _, [], h => by simp [placed] at h
  | s, d' :: ds, h => by
    obtain rfl | h := List.mem_cons.mp h
    · exact ⟨[], ds.flatMap f, rfl, rfl⟩
    · obtain ⟨before, after, hflat, hstart⟩ := exists_flatMap_eq h
      refine ⟨f d' ++ before, after, by simp [hflat], ?_⟩
      rw [hstart, List.length_append, Nat.add_assoc]

/-- **Every place of the flat tensor is in one row.** -/
theorem exists_row_of_lt {f : δ → List α} : ∀ {ds : List δ} {t : ℕ}, t < (ds.flatMap f).length →
    ∃ before d after j, ds = before ++ d :: after ∧ t = (before.flatMap f).length + j ∧
      j < (f d).length ∧ (ds.flatMap f)[t]? = (f d)[j]?
  | [], t, h => absurd h (Nat.not_lt_zero t)
  | d :: ds, t, h => by
    rw [List.flatMap_cons] at h ⊢
    by_cases hrow : t < (f d).length
    · exact ⟨[], d, ds, t, rfl, by simp, hrow, List.getElem?_append_left hrow⟩
    · have hle : (f d).length ≤ t := Nat.le_of_not_lt hrow
      rw [List.length_append] at h
      have hrest : t - (f d).length < (ds.flatMap f).length := by omega
      obtain ⟨before, e, after, j, rfl, ht, hj, hget⟩ := exists_row_of_lt hrest
      refine ⟨d :: before, e, after, j, rfl, ?_, hj, ?_⟩
      · rw [List.flatMap_cons, List.length_append]
        omega
      · rw [List.getElem?_append_right hle, hget]

/-- **Gathering the first entries of a row.** -/
theorem gather_placed {f : δ → List α} {ds : List δ} {d : Placed δ} (hd : d ∈ placed f 0 ds)
    {n : ℕ} (hn : n ≤ (f d.data).length) :
    gather (ds.flatMap f) (segment d.start n) = some ((f d.data).take n) := by
  obtain ⟨before, after, hflat, hstart⟩ := exists_flatMap_eq hd
  rw [hflat, hstart, Nat.zero_add]
  exact gather_segment before (f d.data) after hn

/-- An entry of a row, read from the flat tensor. -/
theorem getElem?_flatMap_placed {f : δ → List α} {ds : List δ} {d : Placed δ}
    (hd : d ∈ placed f 0 ds) {j : ℕ} (hj : j < (f d.data).length) :
    (ds.flatMap f)[d.start + j]? = (f d.data)[j]? := by
  obtain ⟨before, after, hflat, hstart⟩ := exists_flatMap_eq hd
  rw [hflat, hstart, Nat.zero_add, List.append_assoc, List.getElem?_append_right (by omega),
    Nat.add_sub_cancel_left, List.getElem?_append_left hj]

/-- The same, for a tensor computed entry by entry. -/
theorem item_flatMap_placed {f : δ → List α} (g : α → β) {ds : List δ} {d : Placed δ}
    (hd : d ∈ placed f 0 ds) {j : ℕ} {x : α} (hx : (f d.data)[j]? = some x) :
    item ((ds.flatMap f).map g) ((d.start : ℤ) + j) = some (g x) := by
  have hj : j < (f d.data).length := (List.getElem?_eq_some_iff.mp hx).1
  rw [← Nat.cast_add, item_natCast, List.getElem?_map, getElem?_flatMap_placed hd hj, hx]
  rfl

/-- **Gathering the last entry of every row.** -/
theorem gather_last {f : δ → List α} {last : δ → α} {ds : List δ}
    (hlast : ∀ d ∈ ds, (f d).getLast? = some (last d)) :
    gather (ds.flatMap f) ((cumsum 0 ((ds.map fun d => (f d).length).map Nat.cast)).map (· - 1)) =
      some (ds.map last) := by
  have hends := cumsum_placed f 0 ds
  rw [Nat.cast_zero] at hends
  rw [hends, List.map_map, ← map_placed f last 0 ds]
  refine gather_eq_some fun d hd => ?_
  have hrow := hlast d.data (mem_of_mem_placed f hd)
  rw [List.getLast?_eq_getElem?] at hrow
  have hlt := (List.getElem?_eq_some_iff.mp hrow).1
  have hitem := item_flatMap_placed id hd hrow
  rw [List.map_id] at hitem
  rw [← id_eq (last d.data), ← hitem]
  refine congrArg _ ?_
  simp only [Function.comp_apply]
  omega

/-- Gathering row by row. -/
theorem gather_flatten {xs : List α} {idx : δ → List ℤ} {out : δ → List α} :
    ∀ {ds : List δ}, (∀ d ∈ ds, gather xs (idx d) = some (out d)) →
      gather xs (ds.map idx).flatten = some (ds.map out).flatten
  | [], _ => rfl
  | d :: ds, h => by
    have hhead := h d (.head _)
    have htail := gather_flatten fun d' hd' => h d' (.tail _ hd')
    rw [gather] at hhead htail ⊢
    rw [List.map_cons, List.flatten_cons, List.mapM_append, hhead, htail]
    rfl

end Machinery
