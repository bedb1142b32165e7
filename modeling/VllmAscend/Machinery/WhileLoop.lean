import Mathlib

/-!
# Machinery/WhileLoop — `while True:` over a body that can fail

    s ──again──▸ s₁ ──again──▸ ⋯ ──again──▸ sₙ ──leave──▸ t

A body either goes round again, leaves the loop (`break`, or a loop condition that is false), or
raises.  `whileLoop` runs it with a bound on the number of rounds; `Rounds` is the unbounded
relation the bound does not change, and `whileLoop_ne_exhausted` is how a measure shows that the
bound is never met.
-/

namespace Machinery

open Relation

universe u v w

variable {ε : Type u} {σ : Type w}

/-- How one round of a loop body ends. -/
inductive Pass (σ : Type w) where
  /-- `continue`, or the end of the body -/
  | again (s : σ)
  /-- `break`, or a false loop condition -/
  | leave (s : σ)

/-- `while True: body`, in at most `fuel` rounds; running out of them is the failure
`exhausted`. -/
def whileLoop (exhausted : ε) (body : σ → Except ε (Pass σ)) : ℕ → σ → Except ε σ
  | 0, _ => .error exhausted
  | fuel + 1, s =>
    match body s with
    | .error e => .error e
    | .ok (.leave t) => .ok t
    | .ok (.again t) => whileLoop exhausted body fuel t

/-- Any number of rounds of the body that do not leave the loop. -/
def Rounds (body : σ → Except ε (Pass σ)) : σ → σ → Prop :=
  ReflTransGen fun a b => body a = .ok (.again b)

/-- **A bind returns exactly when both of its halves do.** -/
theorem bind_eq_ok {α β : Type v} {x : Except ε α} {f : α → Except ε β} {b : β} :
    (x >>= f) = .ok b ↔ ∃ a, x = .ok a ∧ f a = .ok b := by
  cases x <;> simp [Bind.bind, Except.bind]

/-- A bind raises when its first half does, or when the first half returns and the second
raises. -/
theorem bind_eq_error {α β : Type v} {x : Except ε α} {f : α → Except ε β} {e : ε} :
    (x >>= f) = .error e ↔ x = .error e ∨ ∃ a, x = .ok a ∧ f a = .error e := by
  cases x <;> simp [Bind.bind, Except.bind]

/-- A map that returns, over what the function returns when it does. -/
theorem eq_map_of_mapM_ok {α β : Type} {f : α → Except ε β} {g : α → β}
    (hg : ∀ x y, f x = .ok y → y = g x) : ∀ {xs : List α} {ys : List β}, xs.mapM f = .ok ys →
      ys = xs.map g
  | [], ys, h => by
    cases h
    rfl
  | x :: xs, ys, h => by
    rw [List.mapM_cons, bind_eq_ok] at h
    obtain ⟨y, hy, h⟩ := h
    rw [bind_eq_ok] at h
    obtain ⟨zs, hzs, h⟩ := h
    cases h
    rw [List.map_cons, hg x y hy, eq_map_of_mapM_ok hg hzs]

/-- What an evaluation that returns returns. -/
theorem exists_of_isOk {α : Type v} {x : Except ε α} (h : x.isOk = true) : ∃ a, x = .ok a := by
  cases x with
  | ok a => exact ⟨a, rfl⟩
  | error e => contradiction

section Rules

variable {exhausted : ε} {body : σ → Except ε (Pass σ)}

/-- **A loop that returns went round some number of times and then left.** -/
theorem whileLoop_eq_ok : ∀ {fuel : ℕ} {s t : σ}, whileLoop exhausted body fuel s = .ok t →
    ∃ u, Rounds body s u ∧ body u = .ok (.leave t)
  | 0, _, _, h => nomatch h
  | fuel + 1, s, t, h => by
    rw [whileLoop] at h
    split at h
    · contradiction
    · next u hu =>
      cases h
      exact ⟨s, ReflTransGen.refl, hu⟩
    · next u hu =>
      obtain ⟨v, hv, hleave⟩ := whileLoop_eq_ok h
      exact ⟨v, ReflTransGen.head hu hv, hleave⟩

/-- **A loop that raises ran out of rounds or raised in one of them.** -/
theorem whileLoop_eq_error : ∀ {fuel : ℕ} {s : σ} {e : ε},
    whileLoop exhausted body fuel s = .error e →
      e = exhausted ∨ ∃ u, Rounds body s u ∧ body u = .error e
  | 0, _, _, h => Or.inl (Except.error.inj h).symm
  | fuel + 1, s, e, h => by
    rw [whileLoop] at h
    split at h
    · next e' he =>
      cases h
      exact Or.inr ⟨s, ReflTransGen.refl, he⟩
    · contradiction
    · next u hu =>
      refine (whileLoop_eq_error h).imp_right ?_
      rintro ⟨v, hv, herr⟩
      exact ⟨v, ReflTransGen.head hu hv, herr⟩

/-- **The rule for rounds**: what a round keeps, any number of rounds keeps. -/
theorem Rounds.invariant {I : σ → Prop} (again : ∀ a b, I a → body a = .ok (.again b) → I b)
    {s t : σ} (h : Rounds body s t) (hs : I s) : I t := by
  induction h with
  | refl => exact hs
  | tail _ hround ih => exact again _ _ ih hround

/-- **The rule for loops**: an invariant of the rounds, and what leaving makes of it. -/
theorem whileLoop_invariant {I J : σ → Prop} {fuel : ℕ} {s t : σ}
    (again : ∀ a b, I a → body a = .ok (.again b) → I b)
    (leave : ∀ a b, I a → body a = .ok (.leave b) → J b)
    (h : whileLoop exhausted body fuel s = .ok t) (hs : I s) : J t := by
  obtain ⟨u, hu, ht⟩ := whileLoop_eq_ok h
  exact leave u t (hu.invariant again hs) ht

/-- **Termination**: when every round decreases a measure that starts below the bound, the bound
is not what ends the loop. -/
theorem whileLoop_ne_exhausted (μ : σ → ℕ)
    (again : ∀ a b, body a = .ok (.again b) → μ b < μ a)
    (raises : ∀ a, body a ≠ .error exhausted) :
    ∀ {fuel : ℕ} {s : σ}, μ s < fuel → whileLoop exhausted body fuel s ≠ .error exhausted
  | 0, _, h => absurd h (Nat.not_lt_zero _)
  | fuel + 1, s, h => by
    rw [whileLoop]
    split
    · next e he =>
      intro heq
      cases heq
      exact raises s he
    · exact fun heq => nomatch heq
    · next u hu =>
      have hμ := again s u hu
      exact whileLoop_ne_exhausted μ again raises (by omega)

/-- **Total correctness**: an invariant under which no round raises and every round decreases a
measure. -/
theorem whileLoop_returns {I J : σ → Prop} (μ : σ → ℕ)
    (round : ∀ a, I a → (∃ b, body a = .ok (.leave b) ∧ J b) ∨
      ∃ b, body a = .ok (.again b) ∧ I b ∧ μ b < μ a) :
    ∀ {fuel : ℕ} {s : σ}, μ s < fuel → I s → ∃ t, whileLoop exhausted body fuel s = .ok t ∧ J t
  | 0, _, h, _ => absurd h (Nat.not_lt_zero _)
  | fuel + 1, s, h, hs => by
    rw [whileLoop]
    obtain ⟨t, ht, hJ⟩ | ⟨u, hu, hI, hμ⟩ := round s hs
    · rw [ht]
      exact ⟨t, rfl, hJ⟩
    · rw [hu]
      exact whileLoop_returns μ round (by omega) hI

end Rules

end Machinery
