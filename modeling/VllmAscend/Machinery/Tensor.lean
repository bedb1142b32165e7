import Mathlib

/-!
# Machinery/Tensor — one- and two-dimensional tensors, indexed the way array libraries do

    gather  xs [i₀, i₁, …]       =  [xs[i₀], xs[i₁], …]
    scatter xs [i₀, i₁, …] vals  =  xs with xs[i₀] := vals₀, xs[i₁] := vals₁, …

A tensor is the list of its entries, a matrix the list of its rows.  An index counts from the end
when it is negative, and an index outside the dimension raises (`none`).  Loops over the rows of a
matrix that touch one row in each round act row by row (`foldlM_range_rows`), and a scatter over
consecutive places overwrites a segment (`scatter_segment`).
-/

namespace Machinery

variable {α β γ : Type}

/-! ## Indices -/

/-- The place index `i` names in a dimension of size `n`. -/
def place (n : ℕ) (i : ℤ) : Option ℕ :=
  if 0 ≤ i then if i < n then some i.toNat else none
  else if 0 ≤ i + n then some (i + n).toNat else none

theorem place_natCast {n j : ℕ} (h : j < n) : place n j = some j := by
  simp [place, h]

/-- `xs[i]` -/
def item (xs : List α) (i : ℤ) : Option α := (place xs.length i).bind fun j => xs[j]?

@[simp] theorem item_natCast (xs : List α) (j : ℕ) : item xs j = xs[j]? := by
  by_cases h : j < xs.length
  · simp [item, place_natCast h]
  · simp [item, place, h]

/-- `xs[-1]` -/
theorem item_neg_one (xs : List α) : item xs (-1) = xs.getLast? := by
  cases xs with
  | nil => rfl
  | cons x xs =>
    have hplace : place (x :: xs).length (-1) = some xs.length := by
      simp [place]
    rw [item, hplace, Option.bind_some, List.getLast?_eq_getElem?]
    rfl

/-- `xs[i] = f(xs[i])` -/
def modifyItem (f : α → Option α) (xs : List α) (i : ℤ) : Option (List α) := do
  let j ← place xs.length i
  let x ← xs[j]?
  let y ← f x
  return xs.set j y

/-- `xs[i] = x` -/
def setItem (xs : List α) (i : ℤ) (x : α) : Option (List α) := modifyItem (fun _ => some x) xs i

/-- **Only the named entry changes.** -/
theorem modifyItem_append (f : α → Option α) (before after : List α) (x : α) {j : ℕ}
    (hj : before.length = j) :
    modifyItem f (before ++ x :: after) j = (f x).map fun y => before ++ y :: after := by
  subst hj
  have hlt : before.length < (before ++ x :: after).length := by simp
  rw [modifyItem, place_natCast hlt]
  cases hf : f x <;> simp [hf]

theorem modifyItem_natCast (f : α → Option α) {xs : List α} {j : ℕ} {x : α} (hx : xs[j]? = some x) :
    modifyItem f xs j = (f x).map fun y => xs.set j y := by
  have hlt := (List.getElem?_eq_some_iff.mp hx).1
  rw [modifyItem, place_natCast hlt]
  cases hf : f x <;> simp [hx, hf]

theorem setItem_natCast {xs : List α} {j : ℕ} (y : α) (h : j < xs.length) :
    setItem xs j y = some (xs.set j y) :=
  modifyItem_natCast _ (List.getElem?_eq_getElem h)

theorem setItem_append (before after : List α) (x y : α) {j : ℕ} (hj : before.length = j) :
    setItem (before ++ x :: after) j y = some (before ++ y :: after) := by
  rw [setItem, modifyItem_append _ _ _ _ hj]
  rfl

/-! ## Gathering and scattering -/

/-- `xs[idx]` -/
def gather (xs : List α) (idx : List ℤ) : Option (List α) := idx.mapM (item xs)

/-- `xs[idx] = vals` -/
def scatter (xs : List α) (idx : List ℤ) (vals : List α) : Option (List α) :=
  if idx.length = vals.length then
    (idx.zip vals).foldlM (fun xs e => setItem xs e.1 e.2) xs
  else none

/-- `m[rows, cols] = vals` -/
def scatter₂ (m : List (List α)) (rows cols : List ℤ) (vals : List α) : Option (List (List α)) :=
  if rows.length = cols.length ∧ cols.length = vals.length then
    ((rows.zip cols).zip vals).foldlM
      (fun m e => modifyItem (fun row => setItem row e.1.2 e.2) m e.1.1) m
  else none

/-- A map that returns at every entry. -/
theorem mapM_map_eq_some {f : α → Option β} {c : γ → α} {g : γ → β} :
    ∀ {l : List γ}, (∀ d ∈ l, f (c d) = some (g d)) → (l.map c).mapM f = some (l.map g)
  | [], _ => rfl
  | d :: l, h => by
    have htail := mapM_map_eq_some fun d' hd' => h d' (.tail _ hd')
    rw [List.map_cons, List.mapM_cons, h d (.head _), htail]
    rfl

/-- **Gathering returns what each index names.** -/
theorem gather_eq_some {xs : List α} {idx : γ → ℤ} {g : γ → α} {l : List γ}
    (h : ∀ e ∈ l, item xs (idx e) = some (g e)) : gather xs (l.map idx) = some (l.map g) :=
  mapM_map_eq_some h

theorem item_map (g : α → β) (xs : List α) (i : ℤ) : item (xs.map g) i = (item xs i).map g := by
  simp [item, Option.map_bind]

theorem gather_map (g : α → β) (xs : List α) (idx : List ℤ) :
    gather (xs.map g) idx = (gather xs idx).map (List.map g) := by
  induction idx with
  | nil => rfl
  | cons i idx ih =>
    rw [gather] at ih ⊢
    rw [gather, List.mapM_cons, List.mapM_cons, item_map, ih, gather]
    cases item xs i <;> cases idx.mapM (item xs) <;> rfl

/-! ## Segments -/

/-- `arange(s, s + n)` -/
def segment (s : ℤ) (n : ℕ) : List ℤ := (List.range n).map fun j : ℕ => s + j

/-- `arange(n)` -/
def arange (n : ℕ) : List ℤ := segment 0 n

@[simp] theorem length_segment (s : ℤ) (n : ℕ) : (segment s n).length = n := by simp [segment]

@[simp] theorem length_arange (n : ℕ) : (arange n).length = n := by simp [arange]

@[simp] theorem segment_zero (s : ℤ) : segment s 0 = [] := rfl

theorem segment_succ (s : ℤ) (n : ℕ) : segment s (n + 1) = s :: segment (s + 1) n := by
  rw [segment, segment, List.range_succ_eq_map, List.map_cons, List.map_map]
  refine congrArg₂ List.cons (by simp) (List.map_congr_left fun j _ => ?_)
  simp only [Function.comp_apply, Nat.succ_eq_add_one, Nat.cast_add, Nat.cast_one]
  omega

theorem segment_add (s : ℤ) (n k : ℕ) : segment s (n + k) = segment s n ++ segment (s + n) k := by
  simp only [segment, List.range_add, List.map_append, List.map_map, Function.comp_def,
    Nat.cast_add, add_assoc]

theorem segment_take (s : ℤ) (n k : ℕ) : (segment s n).take k = segment s (min k n) := by
  rw [segment, segment, ← List.map_take, List.take_range]

theorem map_add_segment (s t : ℤ) (n : ℕ) : (segment t n).map (s + ·) = segment (s + t) n := by
  simp [segment, Function.comp_def, add_assoc]

theorem getElem?_segment (s : ℤ) {n j : ℕ} (h : j < n) : (segment s n)[j]? = some (s + j) := by
  simp [segment, h]

/-- Where a bound of a slice falls. -/
def sliceBound (n : ℕ) (i : ℤ) : ℕ := if 0 ≤ i then min i.toNat n else (i + n).toNat

theorem sliceBound_natCast {n j : ℕ} (h : j ≤ n) : sliceBound n j = j := by
  rw [sliceBound, if_pos (Int.natCast_nonneg j), Int.toNat_natCast, min_eq_left h]

/-- `xs[i:j] = ys`, with one value for each place or one for all of them. -/
def setSlice (xs : List α) (i j : ℤ) (ys : List α) : Option (List α) :=
  let start := sliceBound xs.length i
  let n := sliceBound xs.length j - start
  if ys.length = n then some (xs.take start ++ ys ++ xs.drop (start + n))
  else match ys with
    | [y] => some (xs.take start ++ List.replicate n y ++ xs.drop (start + n))
    | _ => none

/-- **A slice of the right length is overwritten.** -/
theorem setSlice_append (before old new after : List α) {i j : ℤ} (hi : i = before.length)
    (hj : j = before.length + new.length) (hlen : old.length = new.length) :
    setSlice (before ++ old ++ after) i j new = some (before ++ new ++ after) := by
  have hstart : sliceBound (before ++ old ++ after).length i = before.length := by
    rw [hi, sliceBound_natCast (by simp only [List.length_append]; omega)]
  have hstop : sliceBound (before ++ old ++ after).length j = before.length + new.length := by
    rw [hj, ← Nat.cast_add, sliceBound_natCast (by simp only [List.length_append]; omega)]
  have hdrop : (before ++ old ++ after).drop (before.length + new.length) = after := by
    rw [← hlen, ← List.length_append, List.drop_left]
  simp only [setSlice, hstart, hstop, Nat.add_sub_cancel_left, if_true, hdrop]
  rw [List.append_assoc before, List.take_left]

/-- **A scatter over consecutive places overwrites them.** -/
theorem scatter_segment : ∀ (before old new after : List α), old.length = new.length →
    scatter (before ++ old ++ after) (segment before.length new.length) new =
      some (before ++ new ++ after)
  | before, [], [], after, _ => by simp [scatter]
  | before, x :: old, y :: new, after, h => by
    have hlen : old.length = new.length := by simpa using h
    have htail := scatter_segment (before ++ [y]) old new after hlen
    rw [scatter, if_pos (by simp)] at htail ⊢
    rw [List.length_cons, segment_succ, List.zip_cons_cons, List.foldlM_cons,
      show before ++ x :: old ++ after = before ++ x :: (old ++ after) by simp,
      setItem_append before (old ++ after) x y rfl]
    simpa using htail

/-! ## Loops -/

/-- **A loop whose states are known.** -/
theorem foldlM_range_eq {S : Type} {step : S → ℕ → Option S} (state : ℕ → S) {n : ℕ}
    (hstep : ∀ j < n, step (state j) j = some (state (j + 1))) :
    (List.range n).foldlM step (state 0) = some (state n) := by
  induction n with
  | zero => rfl
  | succ n ih =>
    have hloop := ih fun j hj => hstep j (Nat.lt_succ_of_lt hj)
    rw [List.range_succ, List.foldlM_append, hloop]
    change ([n].foldlM step (state n) : Option S) = _
    rw [List.foldlM_cons, hstep n (Nat.lt_succ_self n)]
    rfl

/-- **A loop that finishes one row in each round** turns every row into its own result; `emb` is the
state the rows are part of. -/
theorem foldlM_range_rows {S : Type} (emb : List α → S) {step : S → ℕ → Option S} {n : ℕ}
    {rows outs : List α} (hrows : rows.length = n) (houts : outs.length = n)
    (hstep : ∀ r x y before after, rows[r]? = some x → outs[r]? = some y → before.length = r →
      before = outs.take r → step (emb (before ++ x :: after)) r =
        some (emb (before ++ y :: after))) :
    (List.range n).foldlM step (emb rows) = some (emb outs) := by
  -- after `k` rounds the first `k` rows are done
  have hloop : (List.range n).foldlM step (emb (outs.take 0 ++ rows.drop 0)) =
      some (emb (outs.take n ++ rows.drop n)) :=
    foldlM_range_eq (fun k => emb (outs.take k ++ rows.drop k)) fun k hk => by
      have hrow : k < rows.length := hrows ▸ hk
      have hout : k < outs.length := houts ▸ hk
      rw [List.drop_eq_getElem_cons hrow, hstep k rows[k] outs[k] _ _
        (List.getElem?_eq_getElem hrow) (List.getElem?_eq_getElem hout)
        (by rw [List.length_take]; omega) rfl, List.take_succ_eq_append_getElem hout, List.append_assoc]
      rfl
  have hall : outs.take n ++ rows.drop n = outs := by
    rw [List.take_of_length_le houts.le, List.drop_of_length_le hrows.le, List.append_nil]
  rwa [List.take_zero, List.drop_zero, List.nil_append, hall] at hloop

end Machinery
