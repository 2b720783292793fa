import PluginSdk.Lib.Lts

/-!
# Refinement of labelled transition systems

A system `R` refines a system `Q` along a map `f` of the states if each step of `R` is a run of `Q` between the
images that shows the same, where what is shown of an event is up to the observer.  The steps are only compared from
states that satisfy an invariant of `R`.  Then every run of `R` is a run of `Q` that shows the same (`Refines.run`),
and what `Q` keeps holds of the images (`Refines.invariant`).  Refinements compose (`Refines.comp`).
-/

namespace Lts

variable {σ τ υ ε δ γ ω : Type*} {R : σ → ε → σ → Prop} {Q : τ → δ → τ → Prop} {P : υ → γ → υ → Prop}
  {I : σ → Prop} {J : τ → Prop} {f : σ → τ} {g : τ → υ} {obsR : ε → Option ω} {obsQ : δ → Option ω}
  {obsP : γ → Option ω}

structure Refines (R : σ → ε → σ → Prop) (Q : τ → δ → τ → Prop) (I : σ → Prop) (f : σ → τ) (obsR : ε → Option ω)
    (obsQ : δ → Option ω) : Prop where
  keeps : ∀ {s e s'}, I s → R s e s' → I s'
  simulates : ∀ {s e s'}, I s → R s e s' → ∃ l, Steps Q (f s) l (f s') ∧ l.filterMap obsQ = (obsR e).toList

namespace Refines

theorem run (hf : Refines R Q I f obsR obsQ) {s u : σ} {h : List ε} (hs : I s) (hr : Steps R s h u) :
    ∃ l, Steps Q (f s) l (f u) ∧ l.filterMap obsQ = h.filterMap obsR := by
  suffices hu : I u ∧ ∃ l, Steps Q (f s) l (f u) ∧ l.filterMap obsQ = h.filterMap obsR from hu.2
  induction hr with
  | nil => exact ⟨hs, [], .nil, rfl⟩
  | @snoc h t t' e _ hstep ih =>
    obtain ⟨ht, l, hl, hshow⟩ := ih
    obtain ⟨l', hl', hshow'⟩ := hf.simulates ht hstep
    refine ⟨hf.keeps ht hstep, l ++ l', hl.trans hl', ?_⟩
    rw [List.filterMap_append, List.filterMap_append, hshow, hshow']
    cases he : obsR e <;> simp [he]

/-- What every step of `Q` keeps holds of the image of every state that a run of `R` reaches. -/
theorem invariant (hf : Refines R Q I f obsR obsQ) (hJ : ∀ t d t', Q t d t' → J t → J t') {s u : σ} {h : List ε}
    (hs : I s) (hr : Steps R s h u) (h0 : J (f s)) : J (f u) := by
  obtain ⟨l, hl, -⟩ := hf.run hs hr
  exact hl.invariant hJ h0

/-- A step that is one step of `Q`. -/
theorem simulates_step {s s' : σ} {e : ε} {d : δ} (hQ : Q (f s) d (f s')) (hd : obsQ d = obsR e) :
    ∃ l, Steps Q (f s) l (f s') ∧ l.filterMap obsQ = (obsR e).toList := by
  refine ⟨[d], Steps.single hQ, ?_⟩
  rw [← hd]
  cases h : obsQ d <;> simp [h]

/-- A step that `Q` does not see. -/
theorem simulates_stutter {s s' : σ} {e : ε} (hf : f s' = f s) (he : obsR e = none) :
    ∃ l, Steps Q (f s) l (f s') ∧ l.filterMap obsQ = (obsR e).toList :=
  ⟨[], by rw [hf]; exact .nil, by simp [he]⟩

theorem comp (hf : Refines R Q I f obsR obsQ) (hg : Refines Q P J g obsQ obsP) (hIJ : ∀ s, I s → J (f s)) :
    Refines R P I (g ∘ f) obsR obsP where
  keeps := hf.keeps
  simulates hs hstep := by
    obtain ⟨l, hl, hshow⟩ := hf.simulates hs hstep
    obtain ⟨l', hl', hshow'⟩ := hg.run (hIJ _ hs) hl
    exact ⟨l', hl', hshow'.trans hshow⟩

end Refines

end Lts
