import VllmAscend.Machinery.Tensor

/-!
# Machinery/LastIndex — writes at repeated indices, and where an entry stands

    row        [7, 2, 7, 3]
    lastIdx    7 ↦ 2,  2 ↦ 1,  3 ↦ 3
    indices    7 ↦ [0, 2],  2 ↦ [1],  3 ↦ [3]

Writing `0, 1, 2, …` under the entries of a row leaves the last place of each entry, in a dictionary
(`lookup_insertIdx`) as in a tensor (`scatter_arange`).  Collecting the places instead leaves all of
them (`lookup_collectIdx`).
-/

namespace Machinery

variable {α β : Type} [DecidableEq α]

/-- The last place of `x`. -/
def lastIdx (x : α) : List α → Option ℕ
  | [] => none
  | y :: ys => ((lastIdx x ys).map (· + 1)).or (if y = x then some 0 else none)

theorem getElem?_of_lastIdx {x : α} : ∀ {xs : List α} {j : ℕ}, lastIdx x xs = some j →
    xs[j]? = some x
  | y :: ys, j, h => by
    rw [lastIdx] at h
    obtain hlast | ⟨-, hhead⟩ := Option.or_eq_some_iff.mp h
    · obtain ⟨i, hi, rfl⟩ := Option.map_eq_some_iff.mp hlast
      rw [List.getElem?_cons_succ]
      exact getElem?_of_lastIdx hi
    · split at hhead
      · next heq =>
        cases hhead
        rw [List.getElem?_cons_zero, heq]
      · cases hhead

theorem lastIdx_eq_none {x : α} : ∀ {xs : List α}, lastIdx x xs = none ↔ x ∉ xs
  | [] => by simp [lastIdx]
  | y :: ys => by
    have ih : lastIdx x ys = none ↔ x ∉ ys := lastIdx_eq_none
    rw [lastIdx, Option.or_eq_none_iff, Option.map_eq_none_iff, ih, List.mem_cons, not_or, and_comm]
    simp [eq_comm]

/-- The entry is somewhere, so it is somewhere last. -/
theorem exists_lastIdx {x : α} {xs : List α} (h : x ∈ xs) : ∃ j, lastIdx x xs = some j :=
  Option.ne_none_iff_exists'.mp fun hnone => lastIdx_eq_none.mp hnone h

/-- **Without repeats the last place is the only one.** -/
theorem lastIdx_of_nodup {x : α} {xs : List α} (hnodup : xs.Nodup) {j : ℕ} (h : xs[j]? = some x) :
    lastIdx x xs = some j := by
  obtain ⟨i, hi⟩ := exists_lastIdx (List.mem_of_getElem? h)
  have hlt := (List.getElem?_eq_some_iff.mp h).1
  rw [hi, (List.getElem?_inj hlt hnodup).mp (h.trans (getElem?_of_lastIdx hi).symm)]

/-! ## A dictionary of places -/

/-- `for i, x in enumerate(xs): d[x] = i`, counting from `s` on. -/
def insertIdx (d : AList fun _ : α => ℕ) (s : ℕ) (xs : List α) : AList fun _ : α => ℕ :=
  (xs.zipIdx s).foldl (fun d e => d.insert e.1 e.2) d

/-- **Each entry has its last place.** -/
theorem lookup_insertIdx (x : α) : ∀ (xs : List α) (s : ℕ) (d : AList fun _ : α => ℕ),
    (insertIdx d s xs).lookup x = ((lastIdx x xs).map (s + ·)).or (d.lookup x)
  | [], _, _ => rfl
  | y :: ys, s, d => by
    have ih := lookup_insertIdx x ys (s + 1) (d.insert y s)
    rw [insertIdx] at ih ⊢
    rw [List.zipIdx_cons, List.foldl_cons, ih, lastIdx]
    cases hlast : lastIdx x ys with
    | some j =>
      simp only [Option.map_some, Option.some_or, Option.some.injEq]
      omega
    | none =>
      simp only [Option.map_none, Option.none_or]
      split
      · next heq => rw [heq, AList.lookup_insert, Option.map_some, Option.some_or, Nat.add_zero]
      · next hne => rw [AList.lookup_insert_ne (Ne.symm hne), Option.map_none, Option.none_or]

/-- `for i, x in enumerate(xs): d[x].append(i)`, with an empty list for a new key. -/
def collectIdx (d : AList fun _ : α => List ℕ) (s : ℕ) (xs : List α) : AList fun _ : α => List ℕ :=
  (xs.zipIdx s).foldl
    (fun d e =>
      let d := if e.1 ∈ d then d else d.insert e.1 []
      d.insert e.1 ((d.lookup e.1).getD [] ++ [e.2])) d

theorem mem_collectIdx {x : α} : ∀ {xs : List α} {s : ℕ} {d : AList fun _ : α => List ℕ},
    x ∈ collectIdx d s xs ↔ x ∈ d ∨ x ∈ xs
  | [], _, _ => by simp [collectIdx]
  | y :: ys, s, d => by
    rw [collectIdx, List.zipIdx_cons, List.foldl_cons]
    refine (mem_collectIdx).trans ?_
    by_cases hy : y ∈ d <;> simp [hy] <;> tauto

/-- **Each entry has all its places.** -/
theorem lookup_collectIdx (x : α) : ∀ (xs : List α) (s : ℕ) (d : AList fun _ : α => List ℕ),
    ((collectIdx d s xs).lookup x).getD [] = (d.lookup x).getD [] ++
      ((xs.zipIdx s).filter fun e => e.1 = x).map Prod.snd
  | [], _, d => by simp [collectIdx]
  | y :: ys, s, d => by
    have hopen : ((if y ∈ d then d else d.insert y []).lookup y).getD [] = (d.lookup y).getD [] := by
      split
      · rfl
      · next hy =>
        rw [AList.lookup_insert, AList.lookup_eq_none.mpr hy]
        rfl
    rw [collectIdx, List.zipIdx_cons, List.foldl_cons]
    refine (lookup_collectIdx x ys _ _).trans ?_
    by_cases heq : y = x
    · subst heq
      simp only [AList.lookup_insert, Option.getD_some, hopen, decide_true, List.filter_cons_of_pos,
        List.map_cons, List.append_assoc, List.singleton_append]
    · have hother : (if y ∈ d then d else d.insert y []).lookup x = d.lookup x := by
        split
        · rfl
        · rw [AList.lookup_insert_ne (Ne.symm heq)]
      simp only [AList.lookup_insert_ne (Ne.symm heq), hother, heq, decide_false,
        Bool.false_eq_true, not_false_eq_true, List.filter_cons_of_neg]

/-- What the collected places are, for a key of the dictionary. -/
theorem mem_of_mem_collectIdx {xs : List α} {x : α} {is : List ℕ}
    (h : (collectIdx ∅ 0 xs).lookup x = some is) : is ≠ [] ∧ ∀ i ∈ is, xs[i]? = some x := by
  have his := lookup_collectIdx x xs 0 ∅
  rw [h, Option.getD_some, AList.lookup_empty, Option.getD_none, List.nil_append] at his
  have hmem : ∀ i, i ∈ is ↔ xs[i]? = some x := fun i => by
    rw [his]
    simp [List.mem_map, List.mem_filter, List.mk_mem_zipIdx_iff_getElem?]
  refine ⟨fun hnil => ?_, fun i => (hmem i).mp⟩
  have hx : x ∈ xs := by
    have hkey : x ∈ collectIdx ∅ 0 xs := AList.lookup_isSome.mp (by rw [h]; rfl)
    exact (mem_collectIdx.mp hkey).resolve_left (AList.notMem_empty x)
  obtain ⟨i, hi⟩ := List.mem_iff_getElem?.mp hx
  have hin := (hmem i).mpr hi
  rw [hnil] at hin
  cases hin

/-! ## A tensor of places -/

theorem setItem_of_nonneg {xs : List β} {i : ℤ} (y : β) (h : 0 ≤ i ∧ i < xs.length) :
    setItem xs i y = some (xs.set i.toNat y) := by
  obtain ⟨j, rfl⟩ := Int.eq_ofNat_of_zero_le h.1
  exact setItem_natCast y (by exact_mod_cast h.2)

/-- **The last of the places written under an entry stands.** -/
theorem foldlM_setItem_segment : ∀ {ids : List ℤ} {s : ℤ} {xs : List ℤ},
    (∀ i ∈ ids, 0 ≤ i ∧ i < xs.length) →
      ∃ out, (ids.zip (segment s ids.length)).foldlM (fun xs e => setItem xs e.1 e.2) xs = some out ∧
        out.length = xs.length ∧ ∀ x : ℕ, x < xs.length →
          out[x]? = ((lastIdx (x : ℤ) ids).map fun j : ℕ => s + j).or xs[x]?
  | [], _, xs, _ => ⟨xs, rfl, rfl, fun _ _ => rfl⟩
  | i :: ids, s, xs, h => by
    obtain ⟨hnonneg, hlt⟩ := h i (.head _)
    have hlen : (xs.set i.toNat s).length = xs.length := List.length_set
    obtain ⟨out, hout, houtLen, hget⟩ := foldlM_setItem_segment (s := s + 1) fun i' hi' => by
        rw [hlen]
        exact h i' (.tail _ hi')
    refine ⟨out, ?_, houtLen.trans hlen, fun x hx => ?_⟩
    · rw [List.length_cons, segment_succ, List.zip_cons_cons, List.foldlM_cons,
        setItem_of_nonneg s ⟨hnonneg, hlt⟩]
      exact hout
    · rw [hget x (by rwa [hlen]), lastIdx]
      cases hlast : lastIdx (x : ℤ) ids with
      | some j =>
        simp only [Option.map_some, Option.some_or, Option.some.injEq]
        omega
      | none =>
        simp only [Option.map_none, Option.none_or]
        split
        · next heq =>
          subst heq
          rw [Int.toNat_natCast, List.getElem?_set_self hx]
          simp
        · next hne =>
          rw [List.getElem?_set_ne (by omega)]
          rfl

/-- **`xs[ids] = arange(len(ids))`** -/
theorem scatter_arange {ids xs : List ℤ} (h : ∀ i ∈ ids, 0 ≤ i ∧ i < xs.length) :
    ∃ out, scatter xs ids (arange ids.length) = some out ∧ out.length = xs.length ∧
      ∀ x : ℕ, x < xs.length →
        out[x]? = ((lastIdx (x : ℤ) ids).map fun j : ℕ => (j : ℤ)).or xs[x]? := by
  obtain ⟨out, hout, hlen, hget⟩ := foldlM_setItem_segment (s := 0) h
  refine ⟨out, ?_, hlen, fun x hx => ?_⟩
  · rw [scatter, if_pos (length_arange _).symm]
    exact hout
  · simpa using hget x hx

theorem foldlM_congr_mem {E S : Type} {f g : S → E → Option S} : ∀ {es : List E} {s : S},
    (∀ s, ∀ e ∈ es, f s e = g s e) → es.foldlM f s = es.foldlM g s
  | [], _, _ => rfl
  | e :: es, s, h => by
    rw [List.foldlM_cons, List.foldlM_cons, h s e (.head _)]
    exact congrArg (g s e >>= ·) (funext fun s' =>
      foldlM_congr_mem fun s'' e' he' => h s'' e' (.tail _ he'))

/-- **Writes at different indices all stand.** -/
theorem foldlM_setItem_nodup {E : Type} {key : E → ℤ} {val : E → β} :
    ∀ {es : List E} {xs : List β}, (es.map key).Nodup →
      (∀ e ∈ es, 0 ≤ key e ∧ key e < xs.length) →
        ∃ out, es.foldlM (fun xs e => setItem xs (key e) (val e)) xs = some out ∧
          out.length = xs.length ∧ (∀ e ∈ es, out[(key e).toNat]? = some (val e)) ∧
            ∀ x : ℕ, (x : ℤ) ∉ es.map key → out[x]? = xs[x]?
  | [], xs, _, _ => ⟨xs, rfl, rfl, by simp, fun _ _ => rfl⟩
  | e :: es, xs, hnodup, h => by
    obtain ⟨hnonneg, hlt⟩ := h e (.head _)
    rw [List.map_cons, List.nodup_cons] at hnodup
    have hlen : (xs.set (key e).toNat (val e)).length = xs.length := List.length_set
    obtain ⟨out, hout, houtLen, hown, hother⟩ := foldlM_setItem_nodup hnodup.2 fun e' he' => by
        rw [hlen]
        exact h e' (.tail _ he')
    have hcast : (((key e).toNat : ℕ) : ℤ) = key e := Int.toNat_of_nonneg hnonneg
    refine ⟨out, ?_, houtLen.trans hlen, fun e' he' => ?_, fun x hx => ?_⟩
    · rw [List.foldlM_cons, setItem_of_nonneg _ ⟨hnonneg, hlt⟩]
      exact hout
    · obtain rfl | he' := List.mem_cons.mp he'
      · rw [hother _ (by rw [hcast]; exact hnodup.1), List.getElem?_set_self (by omega)]
      · exact hown e' he'
    · rw [List.map_cons, List.mem_cons, not_or] at hx
      rw [hother x hx.2, List.getElem?_set_ne (by omega)]

end Machinery
