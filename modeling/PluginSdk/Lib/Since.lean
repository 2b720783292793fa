import PluginSdk.Lib.Lts

/-!
# What has happened since

`Since p q h`: an event of the history `h` meets `p`, and no later one meets `q`.  One more event either meets `p`, or
leaves things as they were unless it meets `q` (`since_snoc`).
-/

namespace Lts

variable {ε : Type*} {p q p' q' : ε → Prop} {h h₁ h₂ : List ε} {e : ε}

/-- An event of the history meets `p`, and no later one meets `q`. -/
def Since (p q : ε → Prop) (h : List ε) : Prop :=
  ∃ h₁ e h₂, h = h₁ ++ e :: h₂ ∧ p e ∧ ∀ e' ∈ h₂, ¬ q e'

@[simp] theorem not_since_nil : ¬ Since p q [] := by
  rintro ⟨h₁, e, h₂, h, -⟩
  simp at h

theorem since_snoc : Since p q (h ++ [e]) ↔ p e ∨ Since p q h ∧ ¬ q e := by
  constructor
  · rintro ⟨h₁, e', h₂, heq, hp, hq⟩
    induction h₂ using List.reverseRecOn with
    | nil =>
      obtain ⟨-, he⟩ := List.append_inj' heq rfl
      rw [List.singleton_inj.1 he]
      exact Or.inl hp
    | append_singleton h₂ f =>
      rw [← List.cons_append, ← List.append_assoc] at heq
      obtain ⟨rfl, he⟩ := List.append_inj' heq rfl
      obtain rfl := List.singleton_inj.1 he
      exact Or.inr ⟨⟨h₁, e', h₂, rfl, hp, fun x hx => hq x (by simp [hx])⟩, hq e (by simp)⟩
  · rintro (hp | ⟨⟨h₁, e', h₂, rfl, hp, hq⟩, he⟩)
    · exact ⟨h, e, [], rfl, hp, by simp⟩
    · exact ⟨h₁, e', h₂ ++ [e], by simp, hp, forall_mem_snoc hq he⟩

/-- An event that meets neither changes nothing. -/
theorem since_snoc_of_not (hp : ¬ p e) (hq : ¬ q e) : Since p q (h ++ [e]) ↔ Since p q h := by
  rw [since_snoc]
  tauto

/-- The first event that meets `p`. -/
theorem exists_first (h : ∃ e ∈ h₁, p e) : ∃ a e b, h₁ = a ++ e :: b ∧ (∀ x ∈ a, ¬ p x) ∧ p e := by
  classical
  cases hfind : h₁.find? fun e => decide (p e) with
  | none =>
    obtain ⟨e, he, hp⟩ := h
    rw [List.find?_eq_none] at hfind
    exact absurd (decide_eq_true hp) (hfind e he)
  | some e =>
    obtain ⟨hp, a, b, rfl, ha⟩ := List.find?_eq_some_iff_append.1 hfind
    exact ⟨a, e, b, rfl, by simpa using ha, by simpa using hp⟩

end Lts
