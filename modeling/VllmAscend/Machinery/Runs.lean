import Mathlib.Data.List.SplitBy
import Mathlib.Data.List.Range

/-!
# Machinery/Runs — a list cut where it breaks off

    list      x₀ x₁ │ x₂ x₃ x₄ │ x₅           a cut wherever the relation fails
    flags        0    1   0  0   1

`List.splitBy` makes the runs.  Seen entry by entry a run either goes on or a new one starts
(`splitBy_cons_cons`), and a run of pairs that go up by one is given by its first pair (`eq_map_range`).
-/

namespace Machinery

variable {α : Type}

/-- **A run goes on, or a new one starts.** -/
theorem splitBy_cons_cons (r : α → α → Bool) (x y : α) (ys : List α) : (x :: y :: ys).splitBy r =
    if r x y then ((y :: ys).splitBy r).modifyHead (x :: ·) else [x] :: (y :: ys).splitBy r := by
  split
  · next hr =>
    have hsome : (y :: ys).splitBy r ≠ [] := List.splitBy_ne_nil.mpr (List.cons_ne_nil y ys)
    obtain ⟨g, gs, hg⟩ := List.exists_cons_of_ne_nil hsome
    obtain ⟨hflatten, hnil, hchain, hbreak⟩ := List.splitBy_eq_iff.mp hg
    have hne : g ≠ [] := fun hempty => hnil (List.mem_cons.mpr (Or.inl hempty.symm))
    obtain ⟨z, zs, rfl⟩ := List.exists_cons_of_ne_nil hne
    obtain rfl : y = z := (List.cons.inj hflatten).1
    rw [hg, List.modifyHead_cons]
    refine List.splitBy_eq_iff.mpr ⟨congrArg (x :: ·) hflatten, ?_, ?_, ?_⟩
    · rw [List.mem_cons, not_or]
      exact ⟨(List.cons_ne_nil x _).symm, fun hmem => hnil (List.mem_cons_of_mem _ hmem)⟩
    · rintro m (_ | ⟨_, hmem⟩)
      · exact (hchain _ List.mem_cons_self).cons_cons hr
      · exact hchain m (List.mem_cons_of_mem _ hmem)
    · cases gs with
      | nil => exact List.isChain_singleton _
      | cons h hs =>
        obtain ⟨⟨ha, hb, hfalse⟩, hrest⟩ := List.isChain_cons_cons.mp hbreak
        refine List.isChain_cons_cons.mpr ⟨⟨List.cons_ne_nil _ _, hb, ?_⟩, hrest⟩
        rwa [List.getLast_cons_cons]
  · next hr =>
    have hbreak : ∀ z ∈ [x].getLast?, r z y = false := fun z hz => by
      obtain rfl := Option.some.inj hz
      exact Bool.not_eq_true _ ▸ hr
    have hsplit := List.splitBy_append_cons (l := [x]) ys hbreak
    rwa [List.splitBy_of_isChain (List.cons_ne_nil x []) (List.isChain_singleton x)] at hsplit

/-- Both entries of a pair go up by one. -/
def follows (x y : ℕ × ℕ) : Bool := y.1 == x.1 + 1 && y.2 == x.2 + 1

theorem follows_iff {x y : ℕ × ℕ} : follows x y = true ↔ y = (x.1 + 1, x.2 + 1) := by
  rw [follows, Bool.and_eq_true, beq_iff_eq, beq_iff_eq, Prod.ext_iff]

/-- **A run is given by its first pair.** -/
theorem eq_map_range : ∀ {xs : List (ℕ × ℕ)} {x : ℕ × ℕ},
    (x :: xs).IsChain (fun x y => follows x y = true) →
      x :: xs = (List.range (xs.length + 1)).map fun i => (x.1 + i, x.2 + i)
  | [], x, _ => rfl
  | y :: ys, x, h => by
    obtain ⟨hxy, hrest⟩ := List.isChain_cons_cons.mp h
    obtain rfl := follows_iff.mp hxy
    rw [List.length_cons, List.range_succ_eq_map, List.map_cons, List.map_map, eq_map_range hrest]
    refine congrArg₂ List.cons rfl (List.map_congr_left fun i _ => ?_)
    simp only [Function.comp_apply, Nat.succ_eq_add_one, Nat.add_assoc, Nat.add_comm 1 i]

end Machinery
