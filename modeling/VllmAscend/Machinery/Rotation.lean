import Mathlib.Algebra.BigOperators.Fin
import Mathlib.Algebra.Ring.Defs
import Mathlib.Logic.Equiv.Fin.Basic

/-!
# Machinery/Rotation — vectors rotated pair by pair

    adjacent    (x₀ x₁)(x₂ x₃) …             the pair i is at the places 2i and 2i + 1
    halved      x₀ x₁ … │ x_m x_{m+1} …      the pair i is at the places i and i + m

What a rotation does depends on where its pairs are: renaming the places takes one rotation to the other
(`rotatePairs_comp`), and products of two rotated vectors do not see it (`sum_comp_mul_comp`).
-/

namespace Machinery

variable {R : Type} {m d : ℕ}

/-- The pairs are next to each other. -/
def adjacent (hd : m * 2 = d) : Fin m × Fin 2 ≃ Fin d := finProdFinEquiv.trans (finCongr hd)

/-- The pairs are half a vector apart. -/
def halved (hd : m * 2 = d) : Fin m × Fin 2 ≃ Fin d :=
  (Equiv.prodComm _ _).trans (finProdFinEquiv.trans (finCongr ((Nat.mul_comm 2 m).trans hd)))

theorem adjacent_val (hd : m * 2 = d) (i : Fin m) (s : Fin 2) : (adjacent hd (i, s) : ℕ) = 2 * i + s :=
  Nat.add_comm _ _

theorem halved_val (hd : m * 2 = d) (i : Fin m) (s : Fin 2) : (halved hd (i, s) : ℕ) = m * s + i :=
  Nat.add_comm _ _

/-- The place that is renamed to `e`: first the even ones, then the odd ones. -/
def evenThenOdd (hd : m * 2 = d) : Equiv.Perm (Fin d) := (halved hd).symm.trans (adjacent hd)

@[simp] theorem evenThenOdd_halved (hd : m * 2 = d) (p : Fin m × Fin 2) :
    evenThenOdd hd (halved hd p) = adjacent hd p :=
  congrArg (adjacent hd) ((halved hd).symm_apply_apply p)

/-- **Even places first, then the odd ones.** -/
theorem evenThenOdd_val (hd : m * 2 = d) (e : Fin d) :
    (evenThenOdd hd e : ℕ) = if (e : ℕ) < m then 2 * (e : ℕ) else 2 * ((e : ℕ) - m) + 1 := by
  obtain ⟨⟨i, s⟩, rfl⟩ := (halved hd).surjective e
  rw [evenThenOdd_halved, adjacent_val, halved_val]
  have hi := i.isLt
  match s with
  | 0 => simp
  | 1 => simp

section Rotations

variable [CommRing R]

/-- A vector rotated pair by pair, the pair `i` by the angle of `cos i` and `sin i`. -/
def rotatePairs (index : Fin m × Fin 2 ≃ Fin d) (cos sin : Fin m → R) (x : Fin d → R) : Fin d → R :=
  fun e =>
    let i := (index.symm e).1
    if (index.symm e).2 = 0 then x (index (i, 0)) * cos i - x (index (i, 1)) * sin i
    else x (index (i, 1)) * cos i + x (index (i, 0)) * sin i

variable (index index' : Fin m × Fin 2 ≃ Fin d) (cos sin : Fin m → R) (x : Fin d → R)

@[simp] theorem rotatePairs_zero (i : Fin m) : rotatePairs index cos sin x (index (i, 0)) =
    x (index (i, 0)) * cos i - x (index (i, 1)) * sin i := by
  simp [rotatePairs]

@[simp] theorem rotatePairs_one (i : Fin m) : rotatePairs index cos sin x (index (i, 1)) =
    x (index (i, 1)) * cos i + x (index (i, 0)) * sin i := by
  simp [rotatePairs]

/-- **Rotating renamed pairs** is renaming rotated ones. -/
theorem rotatePairs_comp :
    rotatePairs index' cos sin (x ∘ index'.symm.trans index) =
      rotatePairs index cos sin x ∘ index'.symm.trans index := by
  funext e
  obtain ⟨⟨i, s⟩, rfl⟩ := index'.surjective e
  match s with
  | 0 => simp
  | 1 => simp

/-- **A product does not see a renaming.** -/
theorem sum_comp_mul_comp (σ : Equiv.Perm (Fin d)) (y : Fin d → R) :
    ∑ e, (x ∘ σ) e * (y ∘ σ) e = ∑ e, x e * y e :=
  Equiv.sum_comp σ fun e => x e * y e

end Rotations

end Machinery
