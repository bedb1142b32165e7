import Mathlib

/-!
# Machinery/Paging — tokens kept in pages

    tokens   start ⋯⋯ start + b ⋯⋯ start + 2 * b ⋯⋯ stop
    pages    └─ page 0 ─┘└── page 1 ──┘└─ page 2 ─┘

A sequence of tokens is kept in pages of `b` tokens; the last page may be partly filled.  `Pages`
is the list of the pages of a range of tokens that begins with a page, and `pageOf` the page a token
is in.  The last pages of a longer range are those of a shorter one exactly when both ranges end in
the same page (`Pages.zip_last_iff`).
-/

namespace Machinery

universe u

variable {α : Type u} {b start stop n : ℕ}

/-- **The pages of a range of tokens** from `start`, the first token of a page, up to `stop`. -/
structure Pages (α : Type u) (b start stop : ℕ) where
  list : List α
  nodup : list.Nodup
  aligned : b ∣ start
  length_eq : start / b + list.length = stop ⌈/⌉ b

/-- Everything up to a token fits in the pages before it exactly when the range ends there. -/
theorem lt_ceilDiv_iff (hb : 0 < b) {c : ℕ} : c < n ⌈/⌉ b ↔ b * c < n := by
  rw [← not_le, ceilDiv_le_iff_le_mul hb, not_le]

/-- The page of a token of the range is in front of where the range ends. -/
theorem div_lt_ceilDiv (hb : 0 < b) {t : ℕ} (ht : t < n) : t / b < n ⌈/⌉ b := by
  rw [lt_ceilDiv_iff hb]
  exact (Nat.mul_div_le t b).trans_lt ht

namespace Pages

/-- The page that holds a token. -/
def pageOf (p : Pages α b start stop) (t : ℕ) : Option α := p.list[t / b - start / b]?

/-- **Every token of the range is in a page.** -/
theorem exists_pageOf (p : Pages α b start stop) (hb : 0 < b) {t : ℕ} (hstart : start ≤ t)
    (hstop : t < stop) : ∃ x, p.pageOf t = some x := by
  have hlen := p.length_eq
  have hpage := div_lt_ceilDiv hb hstop
  have hle := Nat.div_le_div_right (c := b) hstart
  exact ⟨_, List.getElem?_eq_getElem (by omega)⟩

/-- A range that is not empty has a page. -/
theorem length_pos (p : Pages α b start stop) (hb : 0 < b) (h : start < stop) :
    0 < p.list.length := by
  have hlen := p.length_eq
  have hpage := div_lt_ceilDiv hb h
  omega

/-- The page of the `i`-th page's first token. -/
theorem pageOf_start_add (p : Pages α b start stop) (hb : 0 < b) (i : ℕ) :
    p.pageOf (start + i * b) = p.list[i]? := by
  rw [pageOf, Nat.add_mul_div_right _ _ hb, Nat.add_sub_cancel_left]

/-- The page of a token, when the range begins with the first one. -/
theorem pageOf_zero (p : Pages α b 0 n) (t : ℕ) : p.pageOf t = p.list[t / b]? := by
  rw [pageOf, Nat.zero_div, Nat.sub_zero]

/-- Two ranges end in the same page exactly when the longer has as many more pages as the shorter
one leaves out at its start. -/
theorem ceilDiv_eq_iff (p : Pages α b 0 n) (q : Pages α b start stop) :
    n ⌈/⌉ b = stop ⌈/⌉ b ↔ p.list.length = start / b + q.list.length := by
  rw [← p.length_eq, ← q.length_eq, Nat.zero_div, Nat.zero_add]

/-- **Copying the last pages**: matched up with the pages of a shorter range, they are the pages of
the same tokens exactly when both ranges end in the same page. -/
theorem zip_last_iff (p : Pages α b 0 n) (q : Pages α b start stop) (hb : 0 < b) {len : ℕ}
    (hlen : start < len) (hn : len ≤ n) (hstop : len ≤ stop)
    (hle : q.list.length ≤ p.list.length) :
    (∀ i, start + i * b < len → ∃ x y, p.pageOf (start + i * b) = some x ∧
      q.pageOf (start + i * b) = some y ∧
      (x, y) ∈ (p.list.drop (p.list.length - q.list.length)).zip q.list) ↔
      n ⌈/⌉ b = stop ⌈/⌉ b := by
  rw [p.ceilDiv_eq_iff q]
  constructor
  · intro h
    obtain ⟨x, y, hx, hy, hmem⟩ := h 0 (by omega)
    -- the first page of the shorter range is nowhere else in it, so it is matched up at its place
    obtain ⟨j, hj⟩ := List.mem_iff_getElem?.mp hmem
    obtain ⟨hxj, hyj⟩ := List.getElem?_zip_eq_some.mp hj
    rw [q.pageOf_start_add hb] at hy
    have hlt := (List.getElem?_eq_some_iff.mp hyj).1
    obtain rfl : j = 0 := (List.getElem?_inj hlt q.nodup).mp (hyj.trans hy.symm)
    rw [p.pageOf_zero, Nat.zero_mul, Nat.add_zero] at hx
    rw [List.getElem?_drop, Nat.add_zero] at hxj
    have hpage := (List.getElem?_eq_some_iff.mp hx).1
    have hat := (List.getElem?_inj hpage p.nodup).mp (hx.trans hxj.symm)
    omega
  · intro hlength i hi
    obtain ⟨x, hx⟩ := p.exists_pageOf hb (Nat.zero_le _) (hi.trans_le hn)
    obtain ⟨y, hy⟩ := q.exists_pageOf hb (Nat.le_add_right _ _) (hi.trans_le hstop)
    refine ⟨x, y, hx, hy, List.mem_iff_getElem?.mpr ⟨i, List.getElem?_zip_eq_some.mpr ⟨?_, ?_⟩⟩⟩
    · rw [p.pageOf_zero, Nat.add_mul_div_right _ _ hb] at hx
      rw [List.getElem?_drop, ← hx]
      congr 1
      omega
    · rw [← hy, q.pageOf_start_add hb]

end Pages

end Machinery
