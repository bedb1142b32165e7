import VllmAscend.Machinery.WhileLoop

/-!
# Machinery/KeyedFold — folds whose steps each write one key

    view s k  ──step e──▸  k = key e : R e       k ≠ key e : unchanged

A state is seen as a value for each key, and a step over an entry changes the value of the entry's
key only.  Over entries with distinct keys each value is then changed once, from what it was at the
start (`foldlM_keyed_of`, `foldlM_keyed`, `foldl_keyed`), and when the fold raises, a step would have
raised on its own (`foldlM_keyed_error`).
-/

namespace Machinery

universe u v w

variable {S K E V : Type u} {ε : Type w} (key : E → K) (view : S → K → V)

section Failing

variable {step : S → E → Except ε S} {I : S → Prop} {R : E → V → V → Prop}

/-- **One change per key**, over entries with distinct keys; `I` is what every step keeps, and `P`
what an entry finds at its key. -/
theorem foldlM_keyed_of {P : E → V → Prop}
    (hstep : ∀ s e s', I s → P e (view s (key e)) → step s e = .ok s' → I s' ∧
      R e (view s (key e)) (view s' (key e)) ∧ ∀ k, k ≠ key e → view s' k = view s k) :
    ∀ {l : List E} {s s' : S}, (l.map key).Nodup → I s → (∀ e ∈ l, P e (view s (key e))) →
      l.foldlM step s = .ok s' →
      I s' ∧ (∀ e ∈ l, R e (view s (key e)) (view s' (key e))) ∧
        ∀ k, k ∉ l.map key → view s' k = view s k
  | [], s, s', _, hs, _, h => by
    cases h
    exact ⟨hs, by simp, fun _ _ => rfl⟩
  | e :: l, s, s', hnodup, hs, hP, h => by
    rw [List.foldlM_cons, bind_eq_ok] at h
    obtain ⟨s₁, hhead, htail⟩ := h
    rw [List.map_cons, List.nodup_cons] at hnodup
    obtain ⟨hs₁, hown, hother⟩ := hstep s e s₁ hs (hP e (.head _)) hhead
    -- the first step does not touch the key of a later entry
    have hne : ∀ e' ∈ l, key e' ≠ key e := fun e' he' heq =>
      hnodup.1 (heq ▸ List.mem_map_of_mem he')
    obtain ⟨hs', hrest, hsame⟩ := foldlM_keyed_of hstep hnodup.2 hs₁
      (fun e' he' => (hother _ (hne e' he')).symm ▸ hP e' (.tail _ he')) htail
    refine ⟨hs', fun e' he' => ?_, fun k hk => ?_⟩
    · obtain rfl | he' := List.mem_cons.mp he'
      · rw [hsame _ hnodup.1]
        exact hown
      · rw [← hother _ (hne e' he')]
        exact hrest e' he'
    · rw [List.map_cons, List.mem_cons, not_or] at hk
      rw [hsame k hk.2, hother k hk.1]

/-- …whatever an entry finds there. -/
theorem foldlM_keyed
    (hstep : ∀ s e s', I s → step s e = .ok s' → I s' ∧
      R e (view s (key e)) (view s' (key e)) ∧ ∀ k, k ≠ key e → view s' k = view s k)
    {l : List E} {s s' : S} (hnodup : (l.map key).Nodup) (hs : I s) (h : l.foldlM step s = .ok s') :
      I s' ∧ (∀ e ∈ l, R e (view s (key e)) (view s' (key e))) ∧
        ∀ k, k ∉ l.map key → view s' k = view s k :=
  foldlM_keyed_of key view (P := fun _ _ => True) (fun s e s' hs _ => hstep s e s' hs) hnodup hs
    (fun _ _ => trivial) h

/-- **A fold that raises raises in a step**, on an entry whose key has the value it had at the
start. -/
theorem foldlM_keyed_error
    (hstep : ∀ s e s', I s → step s e = .ok s' → I s' ∧ ∀ k, k ≠ key e → view s' k = view s k)
    {fault : ε} : ∀ {l : List E} {s : S}, (l.map key).Nodup → I s → l.foldlM step s = .error fault →
      ∃ e ∈ l, ∃ s₁, I s₁ ∧ view s₁ (key e) = view s (key e) ∧ step s₁ e = .error fault
  | [], _, _, _, h => nomatch h
  | e :: l, s, hnodup, hs, h => by
    rw [List.map_cons, List.nodup_cons] at hnodup
    rw [List.foldlM_cons] at h
    obtain hhead | ⟨s₁, hhead, htail⟩ := bind_eq_error.mp h
    · exact ⟨e, .head _, s, hs, rfl, hhead⟩
    · obtain ⟨hs₁, hother⟩ := hstep s e s₁ hs hhead
      obtain ⟨e', he', s₂, hs₂, hview, herror⟩ := foldlM_keyed_error hstep hnodup.2 hs₁ htail
      have hne : key e' ≠ key e := fun heq => hnodup.1 (heq ▸ List.mem_map_of_mem he')
      exact ⟨e', .tail _ he', s₂, hs₂, hview.trans (hother _ hne), herror⟩

end Failing

/-- …and for steps that do not fail. -/
theorem foldl_keyed {f : S → E → S} {R : E → V → V → Prop}
    (hstep : ∀ s e, R e (view s (key e)) (view (f s e) (key e)) ∧
      ∀ k, k ≠ key e → view (f s e) k = view s k) {l : List E} {s : S}
    (hnodup : (l.map key).Nodup) :
    (∀ e ∈ l, R e (view s (key e)) (view (l.foldl f s) (key e))) ∧
      ∀ k, k ∉ l.map key → view (l.foldl f s) k = view s k := by
  have hfold : l.foldlM (fun s e => (.ok (f s e) : Except Unit S)) s = .ok (l.foldl f s) :=
    List.foldlM_pure
  have hkeeps : ∀ s e s', True → (.ok (f s e) : Except Unit S) = .ok s' → True ∧
      R e (view s (key e)) (view s' (key e)) ∧ ∀ k, k ≠ key e → view s' k = view s k := by
    intro s e s' _ h
    cases h
    exact ⟨trivial, hstep s e⟩
  exact (foldlM_keyed key view hkeeps hnodup trivial hfold).2

end Machinery
