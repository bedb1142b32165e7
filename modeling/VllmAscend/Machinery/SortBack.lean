import VllmAscend.Machinery.Exchange
import VllmAscend.Machinery.FlatRows
import VllmAscend.Machinery.LastIndex

/-!
# Machinery/SortBack — rows sorted by a key, and put back

    rows      a b c d         keys     2 0 1 0
    sorted    b d c a         where each row went   3 0 2 1
    back      a b c d         gathered by where it went

The places that a sort leaves undo it, for every tensor that is sorted along (`SortedBack`).  Keys that are
made of counts, block by block, are the keys of the rows that were counted (`repeatInterleave_groups`).
-/

namespace Machinery

variable {α β δ : Type}

/-- A map that returns at every entry of a list. -/
theorem mapM_eq_some_map {f : α → Option β} {g : α → β} {l : List α} (h : ∀ x ∈ l, f x = some (g x)) :
    l.mapM f = some (l.map g) := by
  have hmap := mapM_map_eq_some (c := id) h
  rwa [List.map_id] at hmap

/-! ## The sort -/

section Keys

variable {κ : Type} [LinearOrder κ]

/-- A function that returns the order of any keys. -/
def Argsorts (sort : List κ → List ℤ) : Prop :=
  ∀ keys, IsArgsort (fun a b : κ => decide (a < b)) keys (sort keys)

/-- The stable sort. -/
def argsort [Inhabited κ] (keys : List κ) : List ℤ :=
  (arange keys.length).insertionSort fun i j => keys.getD i.toNat default ≤ keys.getD j.toNat default

theorem argsort_argsorts [Inhabited κ] : Argsorts (argsort (κ := κ)) := by
  intro keys
  have hperm : (argsort keys).Perm (arange keys.length) := List.perm_insertionSort _ _
  have hgather : gather keys (argsort keys) =
      some ((argsort keys).map fun i => keys.getD i.toNat default) :=
    gather_of_mem (fun i hi => hperm.mem_iff.mp hi) fun j x hx => by
      rw [Int.toNat_natCast, List.getD_eq_getElem?_getD, hx, Option.getD_some]
  have hsorted : (argsort keys).Pairwise fun i j =>
      keys.getD i.toNat default ≤ keys.getD j.toNat default := by
    have : IsTrans ℤ fun i j => keys.getD i.toNat default ≤ keys.getD j.toNat default :=
      ⟨fun _ _ _ => le_trans⟩
    have : Std.Total fun i j : ℤ => keys.getD i.toNat default ≤ keys.getD j.toNat default :=
      ⟨fun _ _ => le_total _ _⟩
    exact List.pairwise_insertionSort _ _
  refine ⟨hperm, fun out hout => ?_⟩
  obtain rfl := Option.some.inj (hgather.symm.trans hout)
  rw [List.pairwise_map]
  exact hsorted.imp fun hle => decide_eq_false (not_lt.mpr hle)

/-- **The sort of a permutation undoes it.** -/
theorem gather_argsort {xs ys : List α} {p : List ℤ} (hp : p.Perm (arange xs.length))
    (hys : gather xs p = some ys) : gather ys (argsort p) = some xs := by
  have hsort := argsort_argsorts p
  rw [← List.map_id p] at hsort
  have hback := gather_argsort_argsort hp hys (fun i _ j _ => rfl) hsort
  rwa [List.map_id] at hback

/-- **And a permutation undoes its sort.** -/
theorem gather_of_gather_argsort {xs out : List α} {p : List ℤ} (hp : p.Perm (arange xs.length))
    (hout : gather xs (argsort p) = some out) : gather out p = some xs := by
  have hlength : p.length = xs.length := by rw [hp.length_eq, length_arange]
  have hq : (argsort p).Perm (arange xs.length) := hlength ▸ (argsort_argsorts p).perm
  have hpq : gather p (argsort p) = some (arange xs.length) :=
    gather_argsort (by rwa [length_arange]) (gather_range hp)
  have hqr : gather (argsort p) (argsort (argsort p)) = some (arange xs.length) :=
    gather_argsort (by rwa [length_arange]) (gather_range hq)
  have hr : (argsort (argsort p)).Perm (arange xs.length) := by
    have hperm := (argsort_argsorts (argsort p)).perm
    rwa [hq.length_eq, length_arange] at hperm
  have hback : argsort (argsort p) = p := by
    have hassoc := gather_gather hpq hqr
    rw [gather_range hr, ← hlength, gather_arange] at hassoc
    exact Option.some.inj hassoc
  rw [hback] at hqr
  rw [gather_gather hout hqr, gather_arange]

omit [LinearOrder κ] in
/-- **A sort of images that keep the order** is a sort. -/
theorem IsArgsort.of_map {γ : Type} {lt : κ → κ → Bool} {lt' : γ → γ → Bool} {f : κ → γ} {keys : List κ}
    {p : List ℤ} (h : IsArgsort lt' (keys.map f) p)
    (hlt : ∀ a ∈ keys, ∀ b ∈ keys, lt' (f a) (f b) = lt a b) : IsArgsort lt keys p := by
  have hperm := h.perm
  rw [List.length_map] at hperm
  refine ⟨hperm, fun out hout => ?_⟩
  obtain ⟨out', hout', hmem⟩ := gather_perm hperm
  obtain rfl := Option.some.inj (hout'.symm.trans hout)
  have hpairs := h.sorted (out'.map f) (by rw [gather_map, hout]; rfl)
  rw [List.pairwise_map] at hpairs
  exact hpairs.imp_of_mem fun ha hb hfalse =>
    (hlt _ (hmem.mem_iff.mp hb) _ (hmem.mem_iff.mp ha)).symm.trans hfalse

end Keys

/-! ## The places undo the sort -/

/-- **Where each row went leads back to it.** -/
theorem gather_scatter {xs ys : List α} {p : List ℤ} (hp : p.Perm (arange xs.length))
    (hys : gather xs p = some ys) :
    ∃ back, scatter (List.replicate p.length 0) p (arange p.length) = some back ∧
      gather ys back = some xs := by
  have hlength : p.length = xs.length := by rw [hp.length_eq, length_arange]
  have hbounds : ∀ i ∈ p, 0 ≤ i ∧ i < (List.replicate p.length (0 : ℤ)).length := fun i hi => by
    rw [List.length_replicate, hlength]
    exact mem_arange.mp (hp.mem_iff.mp hi)
  obtain ⟨back, hback, hbackLength, hget⟩ := scatter_arange hbounds
  refine ⟨back, hback, ?_⟩
  rw [List.length_replicate] at hbackLength hget
  have hnodup : p.Nodup := by
    rw [hp.nodup_iff, arange, segment]
    exact List.nodup_range.map fun i j hij => by omega
  have hplace : ∀ t : Fin xs.length, item ys (back.getD t 0) = some (xs.get t) := by
    intro t
    obtain ⟨j, hj⟩ := List.mem_iff_getElem?.mp
      (hp.mem_iff.mpr (mem_arange.mpr ⟨Int.natCast_nonneg t, Int.ofNat_lt.mpr t.isLt⟩))
    have hwent : back[(t : ℕ)]? = some (j : ℤ) := by
      rw [hget t (hlength.symm ▸ t.isLt), lastIdx_of_nodup hnodup hj]
      rfl
    rw [List.getD_eq_getElem?_getD, hwent, Option.getD_some, item_natCast,
      (getElem?_of_mapM hys).2 j, hj, Option.bind_some, item_natCast, List.getElem?_eq_getElem t.isLt]
    rfl
  have hbackEq : back = (List.finRange xs.length).map fun t : Fin xs.length => back.getD t 0 := by
    refine List.ext_getElem (by rw [List.length_map, List.length_finRange, hbackLength, hlength])
      fun i hi _ => ?_
    rw [List.getElem_map, List.getElem_finRange]
    exact (List.getD_eq_getElem _ _ hi).symm
  rw [hbackEq, gather, mapM_map_eq_some fun t _ => hplace t, List.map_get_finRange]

/-- The rows in the order of their keys, and where each row went, of every tensor that is sorted along. -/
structure SortedBack (sort : List ℤ → List ℤ) (key : δ → ℕ) (ds sorted : List δ) (back : List ℤ) : Prop where
  gather_eq : ∀ {β : Type} (g : δ → β),
    gather (ds.map g) (sort (ds.map fun d => (key d : ℤ))) = some (sorted.map g)
  scatter_eq : scatter (List.replicate (sort (ds.map fun d => (key d : ℤ))).length 0)
    (sort (ds.map fun d => (key d : ℤ))) (arange (sort (ds.map fun d => (key d : ℤ))).length) = some back
  gather_back : ∀ {β : Type} (g : δ → β), gather (sorted.map g) back = some (ds.map g)
  perm : sorted.Perm ds
  pairwise : sorted.Pairwise fun a b => key a ≤ key b

/-- **Rows are sorted by a key and put back**, whatever the sort does among equal keys. -/
theorem exists_sortedBack {sort : List ℤ → List ℤ} (hsort : Argsorts sort) (key : δ → ℕ) (ds : List δ) :
    ∃ sorted back, SortedBack sort key ds sorted back := by
  have hargsort := hsort (ds.map fun d => (key d : ℤ))
  have hperm := hargsort.perm
  rw [List.length_map] at hperm
  obtain ⟨sorted, hsorted, hsortedPerm⟩ := gather_perm hperm
  obtain ⟨back, hback, hbackGather⟩ := gather_scatter hperm hsorted
  have hsortedOf : ∀ {β : Type} (g : δ → β),
      gather (ds.map g) (sort (ds.map fun d => (key d : ℤ))) = some (sorted.map g) := fun g => by
    rw [gather_map, hsorted]
    rfl
  refine ⟨sorted, back, hsortedOf, hback, fun g => ?_, hsortedPerm, ?_⟩
  · rw [gather_map, hbackGather]
    rfl
  · have hpairs := hargsort.sorted _ (hsortedOf _)
    rw [List.pairwise_map] at hpairs
    exact hpairs.imp fun hlt => by
      have hle := not_lt.mp (of_decide_eq_false hlt)
      exact_mod_cast hle

/-! ## Keys from counts -/

/-- **The keys of rows that were counted**, group by group within each block. -/
theorem repeatInterleave_groups {γ : Type} (ds : List γ) (m : ℕ) (group : γ → ℕ → List δ) (key : δ → ℕ)
    (hkey : ∀ d ∈ ds, ∀ e < m, ∀ x ∈ group d e, key x = e) :
    repeatInterleave (ds.flatMap fun _ => (List.range m).map fun e : ℕ => (e : ℤ))
        (ds.flatMap fun d => (List.range m).map fun e => (group d e).length) =
      (ds.flatMap fun d => (List.range m).flatMap (group d)).map fun x => (key x : ℤ) := by
  have hlength : ∀ d ∈ ds, ((List.range m).map fun e : ℕ => (e : ℤ)).length =
      ((List.range m).map fun e => (group d e).length).length := fun _ _ => by
    rw [List.length_map, List.length_map]
  rw [repeatInterleave, zipWith_flatMap_rows _ hlength, ← List.flatMap_id,
    List.flatMap_assoc, List.map_flatMap]
  refine List.flatMap_congr fun d hd => ?_
  rw [List.flatMap_id, List.zipWith_map, List.zipWith_self, ← List.flatMap_def, List.map_flatMap]
  refine List.flatMap_congr fun e he => ?_
  refine (List.eq_replicate_iff.mpr ⟨List.length_map _, fun x hx => ?_⟩).symm
  obtain ⟨y, hy, rfl⟩ := List.mem_map.mp hx
  rw [hkey d hd e (List.mem_range.mp he) y hy]

end Machinery
