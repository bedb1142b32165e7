import Mathlib

/-!
# Machinery/Slots — a table of slots and the index that finds a key in it

    slots  =  [k₀, –, k₁, k₂, –]          index k₁ = 2

A table holds each key in one slot or leaves the slot empty, and an index says which slot a key is
in.  Keys come and go by the slot (`Indexes.remove`, `Indexes.fill`, `Indexes.append`), move into an
empty slot (`Indexes.move`), change places (`Indexes.swap`), and empty slots at the end are cut off
(`Indexes.take`).  `holes` are the empty slots, and `Indexes.length_keys` counts the others.
-/

namespace Machinery

universe u

variable {K : Type u}

/-- **The index is the exact inverse of the slots.** -/
def Indexes (index : K → Option ℕ) (slots : List (Option K)) : Prop :=
  ∀ k i, index k = some i ↔ slots[i]? = some (some k)

/-- The empty slots. -/
def holes (slots : List (Option K)) : Finset ℕ :=
  (Finset.range slots.length).filter fun i => (slots[i]?.join).isNone

theorem mem_holes {slots : List (Option K)} {i : ℕ} : i ∈ holes slots ↔ slots[i]? = some none := by
  rw [holes, Finset.mem_filter, Finset.mem_range]
  constructor
  · rintro ⟨hlt, hnone⟩
    rw [List.getElem?_eq_getElem hlt] at hnone ⊢
    simpa using hnone
  · intro h
    obtain ⟨hlt, hi⟩ := List.getElem?_eq_some_iff.mp h
    exact ⟨hlt, by simp [h]⟩

@[simp] theorem holes_nil : holes ([] : List (Option K)) = ∅ := rfl

theorem lt_of_mem_holes {slots : List (Option K)} {i : ℕ} (h : i ∈ holes slots) :
    i < slots.length :=
  (List.getElem?_eq_some_iff.mp (mem_holes.mp h)).1

/-- Slots change only where they are written. -/
theorem mem_holes_set {slots : List (Option K)} {x : Option K} {i j : ℕ} (hi : i < slots.length) :
    j ∈ holes (slots.set i x) ↔ if j = i then x = none else j ∈ holes slots := by
  rw [mem_holes, List.getElem?_set]
  obtain rfl | hne := eq_or_ne j i
  · simp [hi]
  · rw [if_neg hne.symm, if_neg hne, mem_holes]

theorem holes_set_none {slots : List (Option K)} {i : ℕ} (hi : i < slots.length) :
    holes (slots.set i none) = insert i (holes slots) := by
  ext j
  rw [mem_holes_set hi, Finset.mem_insert]
  split <;> simp_all

theorem holes_set_some {slots : List (Option K)} {k : K} {i : ℕ} (hi : i < slots.length) :
    holes (slots.set i (some k)) = (holes slots).erase i := by
  ext j
  rw [mem_holes_set hi, Finset.mem_erase]
  split <;> simp_all

theorem getElem?_concat (slots : List (Option K)) (x : Option K) (j : ℕ) :
    (slots ++ [x])[j]? = if j = slots.length then some x else slots[j]? := by
  rw [List.getElem?_append]
  obtain hlt | rfl | hgt := Nat.lt_trichotomy j slots.length
  · rw [if_pos hlt, if_neg hlt.ne]
  · simp
  · rw [if_neg hgt.not_gt, if_neg hgt.ne', List.getElem?_eq_none hgt.le,
      List.getElem?_eq_none (by rw [List.length_singleton]; omega)]

theorem holes_append_some (slots : List (Option K)) (k : K) :
    holes (slots ++ [some k]) = holes slots := by
  ext j
  rw [mem_holes, mem_holes, getElem?_concat]
  split
  · next heq => simp [heq]
  · rfl

namespace Indexes

variable {index : K → Option ℕ} {slots : List (Option K)} {k k' : K} {i j : ℕ}

theorem lt (h : Indexes index slots) (hk : index k = some i) : i < slots.length :=
  (List.getElem?_eq_some_iff.mp ((h k i).mp hk)).1

theorem notMem_holes (h : Indexes index slots) (hk : index k = some i) : i ∉ holes slots := by
  rw [mem_holes, (h k i).mp hk]
  simp

/-- Two keys are in two slots. -/
theorem inj (h : Indexes index slots) (hk : index k = some i) (hk' : index k' = some i) :
    k = k' := by
  have heq := ((h k i).mp hk).symm.trans ((h k' i).mp hk')
  simpa using heq

/-- A slot that is not empty holds a key. -/
theorem exists_of_notMem_holes (hi : i < slots.length) (hnot : i ∉ holes slots) :
    ∃ k, slots[i]? = some (some k) := by
  cases hx : slots[i]? with
  | none => exact absurd (List.getElem?_eq_none_iff.mp hx) (Nat.not_le.mpr hi)
  | some x =>
    cases x with
    | none => exact absurd (mem_holes.mpr hx) hnot
    | some k => exact ⟨k, rfl⟩

theorem nil : Indexes (fun _ : K => none) [] := by
  intro k i
  simp

section Writes

variable [DecidableEq K]

/-- **A key leaves its slot.** -/
theorem remove (h : Indexes index slots) (hk : index k = some i) :
    Indexes (Function.update index k none) (slots.set i none) := by
  intro k' j
  rw [List.getElem?_set, Function.update_apply]
  by_cases hij : i = j
  · subst hij
    rw [if_pos rfl, if_pos (h.lt hk)]
    by_cases hkk : k' = k
    · simp [hkk]
    · rw [if_neg hkk]
      constructor
      · intro hk'
        exact absurd (h.inj hk' hk) hkk
      · intro hnone
        simp at hnone
  · rw [if_neg hij]
    by_cases hkk : k' = k
    · subst hkk
      rw [if_pos rfl, ← h k' j, hk]
      simp [hij]
    · rw [if_neg hkk, h k' j]

/-- **A key that is in no slot goes into an empty one.** -/
theorem fill (h : Indexes index slots) (hk : index k = none) (hi : i ∈ holes slots) :
    Indexes (Function.update index k (some i)) (slots.set i (some k)) := by
  intro k' j
  rw [List.getElem?_set, Function.update_apply]
  by_cases hkk : k' = k
  · subst hkk
    have hnot : slots[j]? ≠ some (some k') := fun hj => by simp [(h k' j).mpr hj] at hk
    rw [if_pos rfl]
    by_cases hij : i = j
    · subst hij
      simp [lt_of_mem_holes hi]
    · simp [hij, hnot]
  · rw [if_neg hkk, h k' j]
    by_cases hij : i = j
    · subst hij
      rw [if_pos rfl, if_pos (lt_of_mem_holes hi), mem_holes.mp hi]
      simp [Ne.symm hkk]
    · rw [if_neg hij]

/-- …or behind the last one. -/
theorem append (h : Indexes index slots) (hk : index k = none) :
    Indexes (Function.update index k (some slots.length)) (slots ++ [some k]) := by
  intro k' j
  rw [getElem?_concat, Function.update_apply]
  by_cases hkk : k' = k
  · subst hkk
    have hnot : slots[j]? ≠ some (some k') := fun hj => by simp [(h k' j).mpr hj] at hk
    rw [if_pos rfl]
    by_cases hj : j = slots.length
    · simp [hj]
    · simp [hj, hnot, Ne.symm hj]
  · rw [if_neg hkk, h k' j]
    by_cases hj : j = slots.length
    · subst hj
      simp [Ne.symm hkk]
    · rw [if_neg hj]

/-- **A key moves into an empty slot.** -/
theorem move (h : Indexes index slots) (hk : index k = some i) (hj : j ∈ holes slots) :
    Indexes (Function.update index k (some j)) ((slots.set j (some k)).set i none) := by
  have hne : j ≠ i := by
    rintro rfl
    exact h.notMem_holes hk hj
  have hremoved := h.remove hk
  have hfilled := hremoved.fill (k := k) (i := j) (by simp)
    (by rw [holes_set_none (h.lt hk)]; exact Finset.mem_insert_of_mem hj)
  rw [Function.update_idem, List.set_comm _ _ hne.symm] at hfilled
  exact hfilled

/-- **Two keys change places.** -/
theorem swap (h : Indexes index slots) (hk : index k = some i) (hk' : index k' = some j) :
    Indexes (Function.update (Function.update index k (some j)) k' (some i))
      ((slots.set i (some k')).set j (some k)) := by
  obtain rfl | hne := eq_or_ne k k'
  · obtain rfl : i = j := Option.some.inj (hk.symm.trans hk')
    rw [Function.update_idem, List.set_set, ← hk, Function.update_eq_self]
    obtain ⟨hi, hget⟩ := List.getElem?_eq_some_iff.mp ((h k i).mp hk)
    rwa [← hget, List.set_getElem_self]
  · -- the first key steps out, the second takes its slot, and the first takes the slot left
    have hij : i ≠ j := fun heq => hne (h.inj hk (heq ▸ hk'))
    have hout := h.remove hk
    have hi : i ∈ holes (slots.set i none) := by
      rw [holes_set_none (h.lt hk)]
      exact Finset.mem_insert_self _ _
    have hmoved := hout.move (k := k') (i := j) (by rw [Function.update_of_ne hne.symm, hk']) hi
    have hj : j ∈ holes (((slots.set i none).set i (some k')).set j none) := by
      rw [holes_set_none (by simpa using h.lt hk')]
      exact Finset.mem_insert_self _ _
    have hback := hmoved.fill (k := k) (by simp [Function.update_of_ne hne]) hj
    rw [List.set_set, List.set_set, Function.update_comm hne, Function.update_idem] at hback
    rwa [Function.update_comm hne]

end Writes

/-- **Empty slots at the end can go.** -/
theorem take (h : Indexes index slots) {n : ℕ}
    (hend : ∀ i, n ≤ i → i < slots.length → i ∈ holes slots) :
    Indexes index (slots.take n) := by
  intro k i
  rw [h k i, List.getElem?_take]
  split
  · rfl
  · next hlt =>
    refine ⟨fun hk => ?_, fun hk => by simp at hk⟩
    have hmem := hend i (Nat.le_of_not_lt hlt) (List.getElem?_eq_some_iff.mp hk).1
    rw [mem_holes, hk] at hmem
    simp at hmem

/-- **Every slot is empty or holds one of the keys.** -/
theorem length_keys (h : Indexes index slots) {keys : List K} (hnodup : keys.Nodup)
    (hkeys : ∀ k, k ∈ keys ↔ (index k).isSome) :
    keys.length + (holes slots).card = slots.length := by
  classical
  have hsub : holes slots ⊆ Finset.range slots.length := Finset.filter_subset _ _
  have hcard : keys.toFinset.card = (Finset.range slots.length \ holes slots).card := by
    refine Finset.card_bij (fun k _ => (index k).getD 0) ?_ ?_ ?_
    · intro k hk
      obtain ⟨i, hi⟩ := Option.isSome_iff_exists.mp ((hkeys k).mp (List.mem_toFinset.mp hk))
      simp [hi, h.lt hi, h.notMem_holes hi]
    · intro k hk k' hk' heq
      obtain ⟨i, hi⟩ := Option.isSome_iff_exists.mp ((hkeys k).mp (List.mem_toFinset.mp hk))
      obtain ⟨i', hi'⟩ := Option.isSome_iff_exists.mp ((hkeys k').mp (List.mem_toFinset.mp hk'))
      rw [hi, hi', Option.getD_some, Option.getD_some] at heq
      exact h.inj hi (heq ▸ hi')
    · intro i hi
      rw [Finset.mem_sdiff, Finset.mem_range] at hi
      obtain ⟨k, hk⟩ := exists_of_notMem_holes hi.1 hi.2
      have hik := (h k i).mpr hk
      exact ⟨k, List.mem_toFinset.mpr ((hkeys k).mpr (by simp [hik])), by simp [hik]⟩
  rw [← List.toFinset_card_of_nodup hnodup, hcard, Finset.card_sdiff_add_card_eq_card hsub,
    Finset.card_range]

end Indexes

end Machinery
