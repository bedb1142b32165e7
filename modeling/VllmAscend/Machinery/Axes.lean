import Mathlib

/-!
# Machinery/Axes — tensors of a fixed shape, and what is done to their axes

    view      (a, b·c) ⟶ (a, b, c)            x[i, j·c + k]  at  [i, j, k]
    split     (a, b, c+d) ⟶ (a, b, c), (a, b, d)
    bmm       (n, a, c) × (n, c, d) ⟶ (n, a, d)

A tensor is a function of its indices.  Every operation but the products only renames indices, so two
ways through the same tensor are compared entry by entry.
-/

namespace Machinery

variable {K : Type} {a b c d n : ℕ}

abbrev Tensor₂ (K : Type) (a b : ℕ) := Fin a → Fin b → K

abbrev Tensor₃ (K : Type) (a b c : ℕ) := Fin a → Fin b → Fin c → K

/-! ## Renaming indices -/

/-- `x.T` -/
def transpose₂ (x : Tensor₂ K a b) : Tensor₂ K b a := fun j i => x i j

/-- `x.transpose(0, 1)` -/
def transpose₀₁ (x : Tensor₃ K a b c) : Tensor₃ K b a c := fun j i k => x i j k

/-- `x.permute(1, 2, 0)` -/
def permute₁₂₀ (x : Tensor₃ K a b c) : Tensor₃ K b c a := fun j k i => x i j k

/-- `x.view(a, b, c)`, row by row. -/
def view (x : Tensor₂ K a (b * c)) : Tensor₃ K a b c := fun i j k => x i (finProdFinEquiv (j, k))

/-- `x.reshape(a, b * c)` -/
def reshape (x : Tensor₃ K a b c) : Tensor₂ K a (b * c) :=
  fun i jk => x i (finProdFinEquiv.symm jk).1 (finProdFinEquiv.symm jk).2

/-- `x.unsqueeze(1)` -/
def unsqueeze₁ (x : Tensor₂ K a c) : Tensor₃ K a 1 c := fun i _ k => x i k

/-- `x.expand(a, b, c)` -/
def expand (x : Tensor₃ K a 1 c) : Tensor₃ K a b c := fun i _ k => x i 0 k

/-- `x.split([c, d], dim=-1)` -/
def split (x : Tensor₃ K a b (c + d)) : Tensor₃ K a b c × Tensor₃ K a b d :=
  (fun i j k => x i j (Fin.castAdd d k), fun i j k => x i j (Fin.natAdd c k))

/-- `cat([x, y], dim=-1)` -/
def cat (x : Tensor₃ K a b c) (y : Tensor₃ K a b d) : Tensor₃ K a b (c + d) :=
  fun i j => Fin.append (x i j) (y i j)

@[simp] theorem view_reshape (x : Tensor₃ K a b c) : view (reshape x) = x :=
  funext₃ fun i j k => by rw [view, reshape, Equiv.symm_apply_apply]

/-- **The place of an entry in a view.** -/
theorem view_index (j : Fin b) (k : Fin c) : (finProdFinEquiv (j, k) : ℕ) = j * c + k := by
  rw [finProdFinEquiv_apply_val, Nat.mul_comm, Nat.add_comm]

@[simp] theorem split_cat (x : Tensor₃ K a b c) (y : Tensor₃ K a b d) : split (cat x y) = (x, y) := by
  refine Prod.ext (funext₃ fun i j k => ?_) (funext₃ fun i j k => ?_)
  · exact Fin.append_left _ _ k
  · exact Fin.append_right _ _ k

@[simp] theorem expand_cat (x : Tensor₃ K a 1 c) (y : Tensor₃ K a 1 d) :
    (expand (cat x y) : Tensor₃ K a b (c + d)) = cat (expand x) (expand y) := rfl

/-! ## Products -/

section Products

variable [CommRing K]

/-- `torch.bmm(x, y)` -/
def bmm (x : Tensor₃ K n a c) (y : Tensor₃ K n c d) : Tensor₃ K n a d :=
  fun m i k => ∑ j, x m i j * y m j k

/-- `torch.eye(a)` -/
def eye (a : ℕ) : Tensor₂ K a a := fun i j => if i = j then 1 else 0

/-- The product of every query with every key, for each head. -/
def dotScores (q : Tensor₃ K a n c) (k : Tensor₃ K b n c) : Tensor₃ K a n b :=
  fun i m j => ∑ e, q i m e * k j m e

/-- **Concatenated queries and keys** add their products up. -/
theorem dotScores_cat (q : Tensor₃ K a n c) (q' : Tensor₃ K a n d) (k : Tensor₃ K b n c)
    (k' : Tensor₃ K b n d) :
    dotScores (cat q q') (cat k k') = fun i m j => dotScores q k i m j + dotScores q' k' i m j := by
  funext i m j
  simp only [dotScores, cat, Fin.sum_univ_add, Fin.append_left, Fin.append_right]

/-- The rows of `v`, weighted for every query and head. -/
def weightedSum (w : Tensor₃ K a n b) (v : Tensor₃ K b n c) : Tensor₃ K a n c :=
  fun i m k => ∑ j, w i m j * v j m k

/-- **A product moves from the queries to the keys.** -/
theorem sum_mul_sum_comm {ι κ : Type} [Fintype ι] [Fintype κ] (x : ι → K) (w : ι → κ → K)
    (y : κ → K) : ∑ k, (∑ i, x i * w i k) * y k = ∑ i, x i * ∑ k, y k * w i k := by
  calc ∑ k, (∑ i, x i * w i k) * y k
      = ∑ k, ∑ i, x i * (y k * w i k) := by
        refine Finset.sum_congr rfl fun k _ => ?_
        rw [Finset.sum_mul]
        exact Finset.sum_congr rfl fun i _ => by ring
    _ = ∑ i, ∑ k, x i * (y k * w i k) := Finset.sum_comm
    _ = ∑ i, x i * ∑ k, y k * w i k :=
        Finset.sum_congr rfl fun i _ => (Finset.mul_sum _ _ _).symm

end Products

end Machinery
