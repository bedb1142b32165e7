import Mathlib.Algebra.BigOperators.Group.List.Basic
import Mathlib.Algebra.Ring.Defs
import Mathlib.Data.Nat.Basic
import Mathlib.Tactic.Ring

/-!
# Machinery/VectorUnit — the local memory of a vector core, and its reductions

    repeat r reads    src[r·cm … r·cm + cm)     the groups of m entries
             writes   dst[r·c … r·c + c)        their sums

A local tensor has a size, and an access that leaves it has no result.  Queues hand its tensors from the
copies to the computation and back: a queue that is idle has all its tensors to give, with whatever they
held before.

A reduction takes its source repeat after repeat.  It may write back into its source: what a repeat writes
lies before what the next ones read, so the sums are those of the source as it was (`reduceInPlace_eq`).
Sums of sums are the sums of longer groups (`groupSums_groupSums`).
-/

namespace Machinery

variable {R : Type}

/-- The last round of a loop. -/
theorem foldlM_range_succ {S : Type} (f : S → ℕ → Option S) (s : S) (n : ℕ) :
    (List.range (n + 1)).foldlM f s = ((List.range n).foldlM f s).bind fun s => f s n := by
  rw [List.range_succ, List.foldlM_append]
  exact congrArg (Option.bind _) (funext fun s => bind_pure (f s n))

/-! ## Local tensors -/

/-- A tensor in the memory of a core. -/
structure LocalTensor (R : Type) where
  size : ℕ
  data : ℕ → R

namespace LocalTensor

variable (t : LocalTensor R)

/-- Entries of a tensor, from an offset on. -/
def read (offset n : ℕ) : Option (ℕ → R) :=
  if offset + n ≤ t.size then some fun e => t.data (offset + e) else none

/-- The tensor with entries replaced, from an offset on. -/
def put (offset n : ℕ) (v : ℕ → R) : LocalTensor R where
  size := t.size
  data a := if offset ≤ a ∧ a < offset + n then v (a - offset) else t.data a

def write (offset n : ℕ) (v : ℕ → R) : Option (LocalTensor R) :=
  if offset + n ≤ t.size then some (t.put offset n v) else none

/-- A copy moves whole blocks. -/
def dataCopy (block n : ℕ) (v : ℕ → R) : Option (LocalTensor R) :=
  if block ∣ n then t.write 0 n v else none

variable {t} {offset n : ℕ} {v : ℕ → R}

theorem read_eq (h : offset + n ≤ t.size) : t.read offset n = some fun e => t.data (offset + e) := if_pos h

theorem write_eq (h : offset + n ≤ t.size) : t.write offset n v = some (t.put offset n v) := if_pos h

theorem dataCopy_eq {block : ℕ} (hblock : block ∣ n) : t.dataCopy block n v = t.write 0 n v := if_pos hblock

@[simp] theorem size_put : (t.put offset n v).size = t.size := rfl

theorem data_put {e : ℕ} (he : e < n) : (t.put offset n v).data (offset + e) = v e :=
  (if_pos ⟨Nat.le_add_right _ _, Nat.add_lt_add_left he _⟩).trans (congrArg v (Nat.add_sub_cancel_left ..))

theorem data_put_zero {e : ℕ} (he : e < n) : (t.put 0 n v).data e = v e :=
  if_pos ⟨Nat.zero_le e, (Nat.zero_add n).symm ▸ he⟩

theorem data_put_of_lt {a : ℕ} (ha : a < offset) : (t.put offset n v).data a = t.data a :=
  if_neg fun h => absurd h.1 (Nat.not_le.mpr ha)

theorem data_put_of_le {a : ℕ} (ha : offset + n ≤ a) : (t.put offset n v).data a = t.data a :=
  if_neg fun h => absurd h.2 (Nat.not_lt.mpr ha)

theorem put_congr {v' : ℕ → R} (h : ∀ e < n, v e = v' e) : t.put offset n v = t.put offset n v' := by
  refine congrArg (LocalTensor.mk t.size) (funext fun a => ?_)
  split
  · next hin => exact h _ (by omega)
  · rfl

/-- A read from the beginning. -/
theorem exists_read (h : n ≤ t.size) : ∃ w : ℕ → R, t.read 0 n = some w ∧ ∀ e, w e = t.data e :=
  ⟨_, read_eq (by rwa [Nat.zero_add]), fun e => by rw [Nat.zero_add]⟩

/-- A write to the beginning. -/
theorem exists_write (v : ℕ → R) (h : n ≤ t.size) :
    ∃ t', t.write 0 n v = some t' ∧ t'.size = t.size ∧ ∀ e < n, t'.data e = v e :=
  ⟨_, write_eq (by rwa [Nat.zero_add]), rfl, fun _ he => data_put_zero he⟩

/-- Two writes, the second right behind the first. -/
theorem put_put {m : ℕ} {w : ℕ → R} :
    (t.put offset n v).put (offset + n) m w = t.put offset (n + m) fun e => if e < n then v e else w (e - n) := by
  refine congrArg (LocalTensor.mk t.size) (funext fun a => ?_)
  simp only [put]
  by_cases hlow : offset ≤ a
  · obtain ⟨e, rfl⟩ := Nat.exists_eq_add_of_le hlow
    rw [Nat.add_sub_cancel_left]
    by_cases hn : e < n
    · rw [if_neg (by omega), if_pos (by omega), if_pos (by omega), if_pos hn]
    · by_cases hm : e < n + m
      · rw [if_pos (by omega), if_pos (by omega), if_neg hn, Nat.add_sub_add_left]
      · rw [if_neg (by omega), if_neg (by omega), if_neg (by omega)]
  · rw [if_neg (by omega), if_neg (by omega), if_neg (by omega)]

theorem put_zero_put {m : ℕ} {w : ℕ → R} :
    (t.put 0 n v).put n m w = t.put 0 (n + m) fun e => if e < n then v e else w (e - n) := by
  have hput : (t.put 0 n v).put (0 + n) m w = t.put 0 (n + m) fun e => if e < n then v e else w (e - n) := put_put
  rwa [Nat.zero_add] at hput

theorem put_none : t.put offset 0 v = t := by
  refine congrArg (LocalTensor.mk t.size) (funext fun a => if_neg (by omega))

/-- **Entry by entry** a tensor is copied. -/
theorem foldlM_entries {src dst : LocalTensor R} {m : ℕ} (hdst : offset + m ≤ dst.size) : m ≤ src.size →
    (List.range m).foldlM (fun dst j => do
      let entry ← src.read j 1
      dst.write (offset + j) 1 entry) dst = some (dst.put offset m src.data) := by
  induction m with
  | zero =>
    intro _
    rw [put_none]
    rfl
  | succ m ih =>
    intro hsrc
    rw [foldlM_range_succ, ih (by omega) (by omega), Option.bind_some, read_eq hsrc, Option.bind_eq_bind,
      Option.bind_some, write_eq (by rw [size_put]; omega), put_put]
    refine congrArg some (put_congr fun e he => ?_)
    split
    · rfl
    · rw [Nat.add_sub_cancel' (by omega)]

/-- **Over and over** the entries of a tensor are copied into a longer one. -/
theorem foldlM_repeat {src dst : LocalTensor R} {m count : ℕ} (hsrc : m ≤ src.size) : count * m ≤ dst.size →
    (List.range count).foldlM (fun dst i => (List.range m).foldlM (fun dst j => do
      let entry ← src.read j 1
      dst.write (i * m + j) 1 entry) dst) dst = some (dst.put 0 (count * m) fun a => src.data (a % m)) := by
  induction count with
  | zero =>
    intro _
    rw [Nat.zero_mul, put_none]
    rfl
  | succ count ih =>
    intro hdst
    rw [Nat.succ_mul] at hdst ⊢
    rw [foldlM_range_succ, ih (by omega), Option.bind_some, foldlM_entries (by rwa [size_put]) hsrc, put_zero_put]
    refine congrArg some (put_congr fun e he => ?_)
    split
    · rfl
    · obtain ⟨j, rfl⟩ := Nat.exists_eq_add_of_le (Nat.not_lt.mp ‹_›)
      rw [Nat.add_sub_cancel_left, Nat.mul_comm, Nat.mul_add_mod, Nat.mod_eq_of_lt (by omega)]

end LocalTensor

/-! ## Queues -/

/-- The tensors of a queue: those to be filled, and those filled that wait for their reader. -/
structure TQue (R : Type) where
  free : List (LocalTensor R)
  queued : List (LocalTensor R)

namespace TQue

variable (q : TQue R)

def allocTensor : Option (LocalTensor R × TQue R) :=
  match q.free with
  | [] => none
  | t :: free => some (t, { q with free })

def enQue (t : LocalTensor R) : TQue R := { q with queued := q.queued ++ [t] }

def deQue : Option (LocalTensor R × TQue R) :=
  match q.queued with
  | [] => none
  | t :: queued => some (t, { q with queued })

def freeTensor (t : LocalTensor R) : TQue R := { q with free := q.free ++ [t] }

/-- All tensors of the queue are free. -/
structure Idle (num size : ℕ) : Prop where
  queued : q.queued = []
  free : q.free.length = num
  sizes : ∀ t ∈ q.free, t.size = size

/-- One tensor waits for its reader, the others are free. -/
structure Loaded (num size : ℕ) (t : LocalTensor R) : Prop where
  queued : q.queued = [t]
  free : q.free.length + 1 = num
  sizes : ∀ t ∈ q.free, t.size = size
  size : t.size = size

variable {q} {num size : ℕ} {t : LocalTensor R}

/-- **An idle queue has a tensor to fill.** -/
theorem Idle.fill {n : ℕ} (h : q.Idle num size) (hnum : 0 < num) (v : ℕ → R) (hn : n ≤ size) :
    ∃ t q' t', q.allocTensor = some (t, q') ∧ t.write 0 n v = some t' ∧ (q'.enQue t').Loaded num size t' ∧
      ∀ e < n, t'.data e = v e := by
  obtain ⟨free, queued⟩ := q
  obtain ⟨rfl, hfree, hsizes⟩ := h
  rcases free with _ | ⟨t, free⟩
  · exact absurd hfree hnum.ne
  · have ht : t.size = size := hsizes t List.mem_cons_self
    obtain ⟨t', hwrite, hsize, hdata⟩ := t.exists_write v (ht ▸ hn)
    refine ⟨t, _, t', rfl, hwrite, ⟨rfl, hfree, ?_, hsize.trans ht⟩, hdata⟩
    exact fun u hu => hsizes u (List.mem_cons_of_mem t hu)

/-- **A queue whose tensor is read and given back is idle.** -/
theorem Loaded.deQue (h : q.Loaded num size t) : ∃ q', q.deQue = some (t, q') ∧ (q'.freeTensor t).Idle num size := by
  obtain ⟨free, queued⟩ := q
  obtain ⟨rfl, hfree, hsizes, hsize⟩ := h
  refine ⟨_, rfl, rfl, ?_, fun u hu => ?_⟩
  · rw [← hfree]
    exact List.length_append
  · rcases List.mem_append.mp hu with hu | hu
    · exact hsizes u hu
    · rw [List.mem_singleton.mp hu, hsize]

end TQue

/-! ## Reductions -/

section Reductions

variable [AddCommMonoid R]

/-- The sums of the groups of `m` entries. -/
def groupSums (m : ℕ) (v : ℕ → R) (b : ℕ) : R := ((List.range m).map fun e => v (m * b + e)).sum

/-- A reduction into another tensor. -/
def reduceInto (c m : ℕ) (src : LocalTensor R) (offset repeats : ℕ) (dst : LocalTensor R) :
    Option (LocalTensor R) :=
  (List.range repeats).foldlM (fun dst r => do
    let v ← src.read (r * (c * m)) (c * m)
    dst.write (offset + r * c) c (groupSums m v)) dst

/-- A reduction into its source. -/
def reduceInPlace (c m repeats : ℕ) (t : LocalTensor R) : Option (LocalTensor R) :=
  (List.range repeats).foldlM (fun t r => do
    let v ← t.read (r * (c * m)) (c * m)
    t.write (r * c) c (groupSums m v)) t

variable {c m repeats offset : ℕ} {v w : ℕ → R}

theorem groupSums_congr {b : ℕ} (h : ∀ e < m, v (m * b + e) = w (m * b + e)) : groupSums m v b = groupSums m w b :=
  congrArg List.sum (List.map_congr_left fun e he => h e (List.mem_range.mp he))

/-- The groups of a repeat are groups of the whole. -/
theorem groupSums_shift (r b : ℕ) :
    groupSums m (fun e => v (r * (c * m) + e)) b = groupSums m v (r * c + b) := by
  refine congrArg List.sum (List.map_congr_left fun e _ => congrArg v ?_)
  ring

theorem sum_range_mul (f : ℕ → R) (n : ℕ) : ∀ m : ℕ,
    ((List.range m).map fun e => ((List.range n).map fun k => f (n * e + k)).sum).sum =
      ((List.range (m * n)).map f).sum
  | 0 => by
    rw [Nat.zero_mul]
    rfl
  | m + 1 => by
    rw [List.range_succ, List.map_append, List.sum_append, sum_range_mul f n m, Nat.succ_mul, List.range_add,
      List.map_append, List.sum_append, List.map_map, List.map_singleton, List.sum_singleton, Nat.mul_comm n m]
    rfl

/-- **Sums of sums** are the sums of longer groups. -/
theorem groupSums_groupSums (n b : ℕ) : groupSums m (groupSums n v) b = groupSums (m * n) v b := by
  have hsum := sum_range_mul (fun e => v (m * n * b + e)) n m
  rw [groupSums, groupSums, ← hsum]
  refine congrArg List.sum (List.map_congr_left fun e _ => congrArg List.sum (List.map_congr_left fun k _ => ?_))
  refine congrArg v ?_
  ring

/-- The sums that a repeat adds stand behind those of the repeats before it. -/
theorem put_groupSums (t : LocalTensor R) (r : ℕ) :
    (t.put offset (r * c) (groupSums m v)).put (offset + r * c) c (groupSums m fun e => v (r * (c * m) + e)) =
      t.put offset ((r + 1) * c) (groupSums m v) := by
  rw [LocalTensor.put_put, ← Nat.succ_mul]
  refine LocalTensor.put_congr fun e _ => ?_
  split
  · rfl
  · rw [groupSums_shift]
    congr 1
    omega

/-- **What a reduction leaves**: the sums of the groups. -/
theorem reduceInto_eq {src dst : LocalTensor R} (hdst : offset + repeats * c ≤ dst.size) :
    repeats * (c * m) ≤ src.size →
      reduceInto c m src offset repeats dst = some (dst.put offset (repeats * c) (groupSums m src.data)) := by
  induction repeats with
  | zero =>
    intro _
    rw [Nat.zero_mul, LocalTensor.put_none]
    rfl
  | succ r ih =>
    rw [Nat.succ_mul] at hdst ⊢
    rw [Nat.succ_mul]
    intro hsrc
    have hloop := ih (by omega) (by omega)
    rw [reduceInto] at hloop ⊢
    rw [foldlM_range_succ, hloop, ← Nat.succ_mul, ← put_groupSums, Option.bind_some, LocalTensor.read_eq hsrc,
      Option.bind_eq_bind, Option.bind_some, LocalTensor.write_eq (by rw [LocalTensor.size_put]; omega)]

/-- **A reduction into its source leaves the sums of what was there.** -/
theorem reduceInPlace_eq {t : LocalTensor R} (hm : 0 < m) :
    repeats * (c * m) ≤ t.size →
      reduceInPlace c m repeats t = some (t.put 0 (repeats * c) (groupSums m t.data)) := by
  induction repeats with
  | zero =>
    intro _
    rw [Nat.zero_mul, LocalTensor.put_none]
    rfl
  | succ r ih =>
    intro hsize
    rw [Nat.succ_mul] at hsize
    have hloop := ih (by omega)
    have hle : c ≤ c * m := Nat.le_mul_of_pos_right c hm
    have hbehind : r * c ≤ r * (c * m) := Nat.mul_le_mul_left r hle
    -- what the repeat reads lies behind what was written so far
    have hread : (t.put 0 (r * c) (groupSums m t.data)).read (r * (c * m)) (c * m) =
        some fun e => t.data (r * (c * m) + e) := by
      rw [LocalTensor.read_eq (by rwa [LocalTensor.size_put])]
      exact congrArg some (funext fun e => LocalTensor.data_put_of_le (by omega))
    rw [reduceInPlace] at hloop ⊢
    rw [foldlM_range_succ, hloop, ← put_groupSums, Option.bind_some, hread, Option.bind_eq_bind, Option.bind_some,
      LocalTensor.write_eq (by rw [LocalTensor.size_put]; omega), Nat.zero_add]

/-- Groups of sums that a tensor holds at its beginning. -/
theorem groupSums_put {t : LocalTensor R} {n k b : ℕ} (h : m * b + m ≤ k) :
    groupSums m (t.put 0 k (groupSums n v)).data b = groupSums (m * n) v b := by
  rw [← groupSums_groupSums]
  exact groupSums_congr fun e he => LocalTensor.data_put_zero (by omega)

end Reductions

end Machinery
