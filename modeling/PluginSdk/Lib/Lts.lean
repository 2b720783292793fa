import Mathlib.Data.List.Induction

/-!
# Runs of labelled transition systems

A system is a relation `R s e s'`: in the state `s` it can make a step that an observer sees as the event `e` and
that leads to `s'`.  A run collects the events of its steps, one for each step, so a position in the history of a
run is a step of the run (`Steps.split`).  The rules below are the induction over a run: a state invariant
(`Steps.invariant`), also with what it says of the events (`Steps.events`), an invariant that relates the history to
the state (`Steps.history`), and the projection of the runs of one system to the runs of another (`Steps.simulate`).
-/

namespace Lts

variable {σ τ ε δ : Type*} {R : σ → ε → σ → Prop}

/-- What one more event adds to what is kept of a history. -/
theorem filterMap_snoc (f : ε → Option δ) (h : List ε) (e : ε) :
    (h ++ [e]).filterMap f = h.filterMap f ++ (f e).toList := by
  rw [List.filterMap_append]
  cases he : f e <;> simp [he]

theorem forall_mem_snoc {P : ε → Prop} {h : List ε} {e : ε} (hh : ∀ x ∈ h, P x) (he : P e) : ∀ x ∈ h ++ [e], P x := by
  intro x hx
  rcases List.mem_append.1 hx with hx | hx
  · exact hh x hx
  · rwa [List.mem_singleton.1 hx]

/-- The runs of the system `R` from `s`: the events seen, in order, and the state reached. -/
inductive Steps (R : σ → ε → σ → Prop) (s : σ) : List ε → σ → Prop
  | nil : Steps R s [] s
  | snoc {h : List ε} {t t' : σ} {e : ε} : Steps R s h t → R t e t' → Steps R s (h ++ [e]) t'

namespace Steps

/-! ### Composing and splitting runs -/

theorem single {s s' : σ} {e : ε} (h : R s e s') : Steps R s [e] s' := Steps.snoc .nil h

theorem trans {s t u : σ} {h₁ h₂ : List ε} (hst : Steps R s h₁ t) (htu : Steps R t h₂ u) :
    Steps R s (h₁ ++ h₂) u := by
  induction htu with
  | nil => simpa using hst
  | snoc _ hr ih =>
    rw [← List.append_assoc]
    exact Steps.snoc ih hr

theorem cons {s t u : σ} {e : ε} {h : List ε} (hst : R s e t) (htu : Steps R t h u) : Steps R s (e :: h) u :=
  (single hst).trans htu

/-- Running a system forward, one step after the other. -/
theorem exists_cons {s t : σ} {e : ε} {h : List ε} (hst : R s e t) (htu : ∃ u, Steps R t h u) :
    ∃ u, Steps R s (e :: h) u := by
  obtain ⟨u, hu⟩ := htu
  exact ⟨u, cons hst hu⟩

/-- Running a system forward to a state that satisfies `P`. -/
theorem exists_cons_and {P : σ → Prop} {s t : σ} {e : ε} {h : List ε} (hst : R s e t)
    (htu : ∃ u, Steps R t h u ∧ P u) : ∃ u, Steps R s (e :: h) u ∧ P u := by
  obtain ⟨u, hu, hp⟩ := htu
  exact ⟨u, cons hst hu, hp⟩

theorem snoc_inv {s u : σ} {h : List ε} {e : ε} (hr : Steps R s (h ++ [e]) u) :
    ∃ t, Steps R s h t ∧ R t e u := by
  generalize hh : h ++ [e] = h' at hr
  cases hr with
  | nil => simp at hh
  | snoc hst hr =>
    obtain ⟨rfl, he⟩ := List.append_inj' hh rfl
    obtain rfl := List.singleton_inj.1 he
    exact ⟨_, hst, hr⟩

/-- A run over a concatenation of histories passes through a state between them. -/
theorem append_inv {s u : σ} {h₁ h₂ : List ε} (h : Steps R s (h₁ ++ h₂) u) :
    ∃ t, Steps R s h₁ t ∧ Steps R t h₂ u := by
  induction h₂ using List.reverseRecOn generalizing u with
  | nil => exact ⟨u, by simpa using h, .nil⟩
  | append_singleton h₂ e ih =>
    rw [← List.append_assoc] at h
    obtain ⟨t, ht, hr⟩ := snoc_inv h
    obtain ⟨m, hm, hmt⟩ := ih ht
    exact ⟨m, hm, .snoc hmt hr⟩

/-- The step of a run at one position of its history. -/
theorem split {s u : σ} {h₁ h₂ : List ε} {e : ε} (h : Steps R s (h₁ ++ e :: h₂) u) :
    ∃ t t', Steps R s h₁ t ∧ R t e t' ∧ Steps R t' h₂ u := by
  rw [List.append_cons] at h
  obtain ⟨t', h', hu⟩ := append_inv h
  obtain ⟨t, ht, hr⟩ := snoc_inv h'
  exact ⟨t, t', ht, hr, hu⟩

/-! ### Induction over runs -/

theorem mono {R' : σ → ε → σ → Prop} (hR : ∀ s e s', R s e s' → R' s e s') {s u : σ} {h : List ε}
    (hs : Steps R s h u) : Steps R' s h u := by
  induction hs with
  | nil => exact .nil
  | snoc _ hr ih => exact .snoc ih (hR _ _ _ hr)

theorem mono_of_mem {R' : σ → ε → σ → Prop} {P : ε → Prop} (hR : ∀ s e s', P e → R s e s' → R' s e s') {s u : σ}
    {h : List ε} (hs : Steps R s h u) (hP : ∀ e ∈ h, P e) : Steps R' s h u := by
  induction hs with
  | nil => exact .nil
  | snoc _ hr ih => exact .snoc (ih fun e he => hP e (List.mem_append_left _ he)) (hR _ _ _ (hP _ (by simp)) hr)

/-- What every step keeps holds after every run. -/
theorem invariant {I : σ → Prop} (hI : ∀ s e s', R s e s' → I s → I s') {s u : σ} {h : List ε}
    (hs : Steps R s h u) (h0 : I s) : I u := by
  induction hs with
  | nil => exact h0
  | snoc _ hr ih => exact hI _ _ _ hr ih

/-- A relation between the history and the state that every step keeps holds after every run. -/
theorem history {s : σ} {I : List ε → σ → Prop} (h0 : I [] s)
    (hI : ∀ h t e t', Steps R s h t → R t e t' → I h t → I (h ++ [e]) t') {u : σ} {h : List ε}
    (hs : Steps R s h u) : I h u := by
  induction hs with
  | nil => exact h0
  | snoc hs hr ih => exact hI _ _ _ _ hs hr ih

/-- What every step from an invariant state shows holds of all events of a run. -/
theorem events {I : σ → Prop} {P : ε → Prop} (hI : ∀ s e s', R s e s' → I s → I s' ∧ P e) {s u : σ} {h : List ε}
    (hs : Steps R s h u) (h0 : I s) : I u ∧ ∀ e ∈ h, P e := by
  induction hs with
  | nil => exact ⟨h0, by simp⟩
  | snoc _ hr ih =>
    obtain ⟨hI', hh⟩ := ih
    obtain ⟨hinv, he⟩ := hI _ _ _ hr hI'
    exact ⟨hinv, forall_mem_snoc hh he⟩

/-- If every step of `R` is a run of `Q` on the projected state, every run of `R` projects to a run of `Q`. -/
theorem simulate {Q : τ → δ → τ → Prop} {f : σ → τ} {g : ε → List δ}
    (hR : ∀ s e s', R s e s' → Steps Q (f s) (g e) (f s')) {s u : σ} {h : List ε} (hs : Steps R s h u) :
    Steps Q (f s) (h.flatMap g) (f u) := by
  induction hs with
  | nil => exact .nil
  | snoc _ hr ih =>
    rw [List.flatMap_append, List.flatMap_singleton]
    exact ih.trans (hR _ _ _ hr)

end Steps

end Lts
