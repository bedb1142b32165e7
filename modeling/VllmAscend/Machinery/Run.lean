import Mathlib

/-!
# Machinery/Run — runs of a machine whose steps can fail

    s ──a₁──▸ s₁ ──a₂──▸ ⋯ ──aₙ──▸ t        allowed sᵢ aᵢ₊₁

A machine is a step function on states and events; a run takes one event after the other, each
allowed in the state it is taken in.  Invariants go along runs (`Run.invariant`), and a run under a
stronger guard is a run under a weaker one (`Run.mono`).
-/

namespace Machinery

open Relation

universe u v w

variable {S : Type u} {A : Type v} {ε : Type w}

/-- The states that steps on allowed events lead to. -/
def Run (step : S → A → Except ε S) (allowed : S → A → Prop) : S → S → Prop :=
  ReflTransGen fun s t => ∃ a, allowed s a ∧ step s a = .ok t

namespace Run

variable {step : S → A → Except ε S} {allowed : S → A → Prop} {s t : S}

theorem refl : Run step allowed s s := ReflTransGen.refl

theorem snoc {a : A} {u : S} (h : Run step allowed s t) (ha : allowed t a)
    (hu : step t a = .ok u) : Run step allowed s u :=
  ReflTransGen.tail h ⟨a, ha, hu⟩

/-- **What every allowed step keeps, every run keeps.** -/
theorem invariant {I : S → Prop}
    (keeps : ∀ s a t, I s → allowed s a → step s a = .ok t → I t)
    (h : Run step allowed s t) (hs : I s) : I t := by
  induction h with
  | refl => exact hs
  | tail _ hstep ih =>
    obtain ⟨a, ha, hu⟩ := hstep
    exact keeps _ a _ ih ha hu

/-- A weaker guard allows more runs. -/
theorem mono {allowed' : S → A → Prop} (hle : ∀ s a, allowed s a → allowed' s a)
    (h : Run step allowed s t) : Run step allowed' s t := by
  induction h with
  | refl => exact Run.refl
  | tail _ hstep ih =>
    obtain ⟨a, ha, hu⟩ := hstep
    exact ih.snoc (hle _ a ha) hu

end Run

/-- The machine fed a list of events. -/
def feed (step : S → A → Except ε S) : S → List A → Except ε S
  | s, [] => .ok s
  | s, a :: as =>
    match step s a with
    | .error e => .error e
    | .ok t => feed step t as

/-- An evaluation that returns a state with some property. -/
def Returns (x : Except ε S) (P : S → Prop) : Prop := ∃ s, x = .ok s ∧ P s

theorem Returns.of_eq_ok {x : Except ε S} {P : S → Prop} {s : S} (h : Returns x P)
    (hs : x = .ok s) : P s := by
  obtain ⟨t, ht, hP⟩ := h
  cases ht.symm.trans hs
  exact hP

instance (x : Except ε S) (P : S → Prop) [DecidablePred P] : Decidable (Returns x P) :=
  match x with
  | .ok s => decidable_of_iff (P s) ⟨fun h => ⟨s, rfl, h⟩, fun ⟨_, h, hP⟩ => by cases h; exact hP⟩
  | .error _ => isFalse fun ⟨_, h, _⟩ => nomatch h

/-- Every event of the list is allowed when its turn comes. -/
def AllowedAlong (step : S → A → Except ε S) (allowed : S → A → Prop) : S → List A → Prop
  | _, [] => True
  | s, a :: as => allowed s a ∧ ∀ t, step s a = .ok t → AllowedAlong step allowed t as

instance AllowedAlong.decidable {step : S → A → Except ε S} {allowed : S → A → Prop}
    [∀ s a, Decidable (allowed s a)] :
    ∀ (s : S) (as : List A), Decidable (AllowedAlong step allowed s as)
  | _, [] => isTrue trivial
  | s, a :: as =>
    match h : step s a with
    | .ok t =>
      have : Decidable (AllowedAlong step allowed t as) := decidable t as
      decidable_of_iff (allowed s a ∧ AllowedAlong step allowed t as)
        ⟨fun hall => ⟨hall.1, fun u hu => by cases h.symm.trans hu; exact hall.2⟩,
          fun hall => ⟨hall.1, hall.2 t h⟩⟩
    | .error _ =>
      decidable_of_iff (allowed s a)
        ⟨fun ha => ⟨ha, fun u hu => by cases h.symm.trans hu⟩, fun hall => hall.1⟩

/-- **Feeding a list of allowed events is a run.** -/
theorem Run.of_feed {step : S → A → Except ε S} {allowed : S → A → Prop} :
    ∀ {as : List A} {s t : S}, feed step s as = .ok t → AllowedAlong step allowed s as →
      Run step allowed s t
  | [], s, t, h, _ => by cases h; exact Run.refl
  | a :: as, s, t, h, hallowed => by
    rw [feed] at h
    split at h
    · contradiction
    · next u hu =>
      exact ReflTransGen.head ⟨a, hallowed.1, hu⟩ (Run.of_feed h (hallowed.2 u hu))

end Machinery
