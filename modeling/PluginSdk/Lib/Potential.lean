import Mathlib.Algebra.GroupWithZero.Nat
import PluginSdk.Lib.Lts

/-!
# Potentials of runs

A potential is a number for each state.  If every step pays its cost from the potential, up to what it gains, the
total cost of a run is bounded by the potential at its start and the total gain (`Steps.potential`).  If a step is
possible as long as the goal is not reached, and every such step lowers the potential, the goal can be reached
(`Steps.exists_goal`); where lowering the potential takes several steps, the rule is `Reaches.of_lower`.
-/

namespace Lts.Steps

variable {σ ε : Type*} {R : σ → ε → σ → Prop} {I : σ → Prop} {m : σ → Nat} {s u : σ} {h : List ε}

theorem potential {c g : ε → Nat} (hI : ∀ s e s', I s → R s e s' → I s' ∧ m s' + c e ≤ m s + g e)
    (hs : I s) (hr : Steps R s h u) : m u + (h.map c).sum ≤ m s + (h.map g).sum := by
  suffices hu : I u ∧ m u + (h.map c).sum ≤ m s + (h.map g).sum from hu.2
  induction hr with
  | nil => exact ⟨hs, Nat.le_refl _⟩
  | snoc _ hstep ih =>
    obtain ⟨ht, hle⟩ := ih
    obtain ⟨ht', hle'⟩ := hI _ _ _ ht hstep
    refine ⟨ht', ?_⟩
    simp only [List.map_append, List.sum_append, List.map_cons, List.map_nil, List.sum_singleton]
    omega

/-- Steps that gain nothing. -/
theorem spend {c : ε → Nat} (hI : ∀ s e s', I s → R s e s' → I s' ∧ m s' + c e ≤ m s) (hs : I s)
    (hr : Steps R s h u) : m u + (h.map c).sum ≤ m s := by
  have hle := potential (g := fun _ => 0) hI hs hr
  have hzero : (h.map fun _ => 0).sum = 0 := by
    clear hr hle
    induction h with
    | nil => rfl
    | cons e h ih => rw [List.map_cons, List.sum_cons, ih]
  omega

theorem exists_goal {P : σ → Prop} (hI : ∀ s, I s → P s ∨ ∃ e s', R s e s' ∧ I s' ∧ m s' < m s) (hs : I s) :
    ∃ h u, Steps R s h u ∧ I u ∧ P u ∧ h.length ≤ m s := by
  induction hn : m s using Nat.strongRecOn generalizing s with
  | _ n ih =>
    subst hn
    rcases hI s hs with hP | ⟨e, s', hstep, hs', hlt⟩
    · exact ⟨[], s, .nil, hs, hP, Nat.zero_le _⟩
    · obtain ⟨h, u, hr, hu, hP, hlength⟩ := ih _ hlt hs' rfl
      exact ⟨e :: h, u, .cons hstep hr, hu, hP, by rw [List.length_cons]; omega⟩

end Lts.Steps

namespace Lts

variable {σ ε : Type*} {R : σ → ε → σ → Prop} {I P Q : σ → Prop} {m : σ → Nat} {s t : σ} {e : ε}

/-- Some run of the system leads from `s` to a state with `P`. -/
def Reaches (R : σ → ε → σ → Prop) (s : σ) (P : σ → Prop) : Prop := ∃ h u, Steps R s h u ∧ P u

namespace Reaches

theorem here (hP : P s) : Reaches R s P := ⟨[], s, .nil, hP⟩

theorem step (hs : R s e t) (ht : Reaches R t P) : Reaches R s P := by
  obtain ⟨h, u, hu, hP⟩ := ht
  exact ⟨e :: h, u, .cons hs hu, hP⟩

theorem single (hs : R s e t) (hP : P t) : Reaches R s P := .step hs (.here hP)

/-- What every step keeps can be used from the state that is reached first. -/
theorem trans (hI : ∀ s e s', R s e s' → I s → I s') (h0 : I s) (hs : Reaches R s P)
    (hP : ∀ u, I u → P u → Reaches R u Q) : Reaches R s Q := by
  obtain ⟨h₁, u, hu, hPu⟩ := hs
  obtain ⟨h₂, v, hv, hQ⟩ := hP u (hu.invariant hI h0) hPu
  exact ⟨h₁ ++ h₂, v, hu.trans hv, hQ⟩

theorem of_lower (hI : ∀ s, I s → P s ∨ Reaches R s fun u => I u ∧ m u < m s) (hs : I s) : Reaches R s P := by
  induction hn : m s using Nat.strongRecOn generalizing s with
  | _ n ih =>
    subst hn
    rcases hI s hs with hP | ⟨h₁, t, ht, hIt, hlt⟩
    · exact .here hP
    · obtain ⟨h₂, u, hu, hP⟩ := ih _ hlt hIt rfl
      exact ⟨h₁ ++ h₂, u, ht.trans hu, hP⟩

end Reaches

end Lts
