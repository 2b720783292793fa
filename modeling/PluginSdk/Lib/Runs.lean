import PluginSdk.Lib.Program

/-!
# Programs against an environment

An environment is a relation `env s o r s'`: in the state `s` it may answer the operation `o` with `r` and go to
`s'`.  A run (`Runs`) takes a program and a state as far as some answers go.  The runs of a sequence are the runs of
its parts, one after the other (`Runs.bind_inv`, `Runs.except_bind_inv`).  An environment that can answer whatever a
program asks takes it to its end (`Runs.exists_pure`), because programs are well-founded.
-/

namespace Program

variable {Op : Type} {Reply : Op → Type} {σ α β err : Type} {env : σ → (o : Op) → Reply o → σ → Prop}

/-- `Runs env s p t q`: the environment takes `p` to `q`, and goes from `s` to `t` on the way. -/
inductive Runs (env : σ → (o : Op) → Reply o → σ → Prop) : σ → Program Op Reply α → σ → Program Op Reply α → Prop
  | refl {s : σ} {p : Program Op Reply α} : Runs env s p s p
  | step {s s' t : σ} {o : Op} {k : Reply o → Program Op Reply α} {q : Program Op Reply α} {r : Reply o} :
      env s o r s' → Runs env s' (k r) t q → Runs env s (.op o k) t q

/-- The environment that also counts the operations. -/
def counting (env : σ → (o : Op) → Reply o → σ → Prop) (s : σ × Nat) (o : Op) (r : Reply o) (s' : σ × Nat) : Prop :=
  env s.1 o r s'.1 ∧ s'.2 = s.2 + 1

namespace Runs

variable {s t u : σ}

private theorem single {o : Op} {k : Reply o → Program Op Reply α} {r : Reply o} (h : env s o r t) :
    Runs env s (.op o k) t (k r) := .step h .refl

private theorem trans {p q r : Program Op Reply α} (h₁ : Runs env s p t q) (h₂ : Runs env t q u r) :
    Runs env s p u r := by
  induction h₁ with
  | refl => exact h₂
  | step hr _ ih => exact .step hr (ih h₂)

theorem snoc {p : Program Op Reply α} {o : Op} {k : Reply o → Program Op Reply α} {r : Reply o}
    (h : Runs env s p t (.op o k)) (hr : env t o r u) : Runs env s p u (k r) := h.trans (single hr)

theorem pure_inv {a : α} {q : Program Op Reply α} (h : Runs env s (.pure a) t q) : t = s ∧ q = .pure a := by
  cases h with
  | refl => exact ⟨rfl, rfl⟩

/-- One operation and then the rest: the operation is still to be answered, or the rest goes on with its reply. -/
theorem op_bind_inv {o : Op} {f : Reply o → Except err α} {g : α → ExceptT err (Program Op Reply) β}
    {q : Program Op Reply (Except err β)}
    (h : Runs env s (ExceptT.mk (Program.op o fun r => .pure (f r)) >>= g).run t q) :
    (t = s ∧ q = (ExceptT.mk (Program.op o fun r => .pure (f r)) >>= g).run) ∨
      ∃ r m, env s o r m ∧ Runs env m (ExceptT.mk (.pure (f r)) >>= g).run t q := by
  rw [ExceptT.run_bind] at h ⊢
  cases h with
  | refl => exact Or.inl ⟨rfl, rfl⟩
  | step hr hk => exact Or.inr ⟨_, _, hr, hk⟩

theorem ok_bind {x : Except err α} {a : α} {g : α → ExceptT err (Program Op Reply) β}
    {q : Program Op Reply (Except err β)} (h : Runs env s (ExceptT.mk (.pure x) >>= g).run t q) (hx : x = .ok a) :
    Runs env s (g a).run t q := by
  subst hx
  exact h

theorem error_bind {x : Except err α} {e : err} {g : α → ExceptT err (Program Op Reply) β}
    {q : Program Op Reply (Except err β)} (h : Runs env s (ExceptT.mk (.pure x) >>= g).run t q) (hx : x = .error e) :
    t = s ∧ q = .pure (.error e) := by
  subst hx
  exact pure_inv h

/-- A run of `p` and then `f` is inside `p`, or `p` has returned and it is inside `f`. -/
theorem bind_inv {p : Program Op Reply α} {f : α → Program Op Reply β} {q : Program Op Reply β}
    (h : Runs env s (p >>= f) t q) :
    (∃ p', q = (p' >>= f) ∧ Runs env s p t p') ∨ ∃ a m, Runs env s p m (.pure a) ∧ Runs env m (f a) t q := by
  induction p generalizing s with
  | pure a => exact Or.inr ⟨a, s, .refl, h⟩
  | op o k ih =>
    rw [op_bind] at h
    cases h with
    | refl => exact Or.inl ⟨.op o k, rfl, .refl⟩
    | step hr hk =>
      rcases ih _ hk with ⟨p', rfl, hp'⟩ | ⟨a, m, h₁, h₂⟩
      · exact Or.inl ⟨p', rfl, .step hr hp'⟩
      · exact Or.inr ⟨a, m, .step hr h₁, h₂⟩

/-- A run of a sequence that may stop with an error is inside its first part, or has passed it, or has stopped in
it. -/
theorem except_bind_inv {x : ExceptT err (Program Op Reply) α} {f : α → ExceptT err (Program Op Reply) β}
    {q : Program Op Reply (Except err β)} (h : Runs env s (x >>= f).run t q) :
    (∃ p', Runs env s x.run t p' ∧ (∀ a, p' ≠ .pure (.ok a)) ∧
        ∀ r, q = .pure r → ∃ e, r = .error e ∧ p' = .pure (.error e)) ∨
      ∃ a m, Runs env s x.run m (.pure (.ok a)) ∧ Runs env m (f a).run t q := by
  rw [ExceptT.run_bind] at h
  rcases bind_inv h with ⟨p', rfl, hp⟩ | ⟨r, m, h₁, h₂⟩
  · cases p' with
    | op o k => exact Or.inl ⟨_, hp, fun a ha => (by cases ha), fun r hr => by simp at hr⟩
    | pure r =>
      cases r with
      | error e => exact Or.inl ⟨_, hp, fun a ha => (by cases ha), fun r hr => ⟨e, (Program.pure.inj hr).symm, rfl⟩⟩
      | ok a => exact Or.inr ⟨a, t, hp, .refl⟩
  · cases r with
    | error e =>
      obtain ⟨rfl, rfl⟩ := pure_inv h₂
      exact Or.inl ⟨_, h₁, fun a ha => (by cases ha), fun r hr => ⟨e, (Program.pure.inj hr).symm, rfl⟩⟩
    | ok a => exact Or.inr ⟨a, m, h₁, h₂⟩

/-! ### Counted runs -/

/-- Any run can be counted. -/
theorem counted {p q : Program Op Reply α} (h : Runs env s p t q) (n : Nat) :
    ∃ n', Runs (counting env) (s, n) p (t, n') q := by
  induction h generalizing n with
  | refl => exact ⟨n, .refl⟩
  | step hr _ ih =>
    obtain ⟨n', hn⟩ := ih (n + 1)
    exact ⟨n', .step ⟨hr, rfl⟩ hn⟩

/-! ### Programs that come to their end -/

/-- What a program can come to is fixed by the program it started as. -/
theorem all {P : Op → Prop} {p q : Program Op Reply α} (h : Runs env s p t q) (hp : p.All P) : q.All P := by
  induction h with
  | refl => exact hp
  | step _ _ ih => exact ih (hp.2 _)

/-- A program whose operations can all be answered has a run to its end. -/
theorem exists_pure {P : Op → Prop} (henv : ∀ s o, P o → ∃ r s', env s o r s') {p : Program Op Reply α} (hp : p.All P)
    (s : σ) : ∃ t a, Runs env s p t (.pure a) := by
  induction p generalizing s with
  | pure a => exact ⟨s, a, .refl⟩
  | op o k ih =>
    obtain ⟨r, s', hr⟩ := henv s o hp.1
    obtain ⟨t, a, h⟩ := ih r (hp.2 r) s'
    exact ⟨t, a, .step hr h⟩

end Runs

end Program
