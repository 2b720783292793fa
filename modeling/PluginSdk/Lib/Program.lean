import Mathlib.Control.Monad.Basic

/-!
# Programs and their executions

A program either has returned or performs an operation and goes on with the reply.  `Op` and `Reply` say which
operations there are and what each is answered with; nothing is said about how an answer comes about.  An
execution (`Exec`) feeds a program some replies and collects what they show to an observer, as `Shows` prescribes.
The executions of a sequence are the executions of its parts, one after the other (`Exec.bind_inv`,
`Exec.bind_pure_inv`), also when the first part may stop with an error (`Exec.ok_bind_inv`).  Where only the result
counts (`Returns`), the parts are put together by rewriting (`returns_bind`, `returns_ok_bind`).
-/

/-- Programs over the operations `Op`, each answered in its type of replies. -/
inductive Program (Op : Type) (Reply : Op → Type) (α : Type) : Type
  | pure (a : α) : Program Op Reply α
  | op (o : Op) (k : Reply o → Program Op Reply α) : Program Op Reply α

namespace Program

variable {Op : Type} {Reply : Op → Type} {α β γ ε err : Type}

def bind : Program Op Reply α → (α → Program Op Reply β) → Program Op Reply β
  | .pure a, f => f a
  | .op o k, f => .op o fun r => (k r).bind f

instance : Monad (Program Op Reply) where
  pure := .pure
  bind := .bind

@[simp] theorem pure_eq (a : α) : (Pure.pure a : Program Op Reply α) = .pure a := rfl

@[simp] theorem pure_bind (a : α) (f : α → Program Op Reply β) :
    ((.pure a : Program Op Reply α) >>= f) = f a := rfl

@[simp] theorem op_bind (o : Op) (k : Reply o → Program Op Reply α) (f : α → Program Op Reply β) :
    (.op o k >>= f) = .op o fun r => k r >>= f := rfl

@[simp] theorem bind_pure (p : Program Op Reply α) : (p >>= Program.pure) = p := by
  induction p with
  | pure a => rfl
  | op o k ih => exact congrArg (Program.op o) (funext ih)

private theorem bind_assoc (p : Program Op Reply α) (f : α → Program Op Reply β) (g : β → Program Op Reply γ) :
    (p >>= f >>= g) = p >>= fun a => f a >>= g := by
  induction p with
  | pure a => rfl
  | op o k ih => exact congrArg (Program.op o) (funext ih)

instance : LawfulMonad (Program Op Reply) := LawfulMonad.mk' _ bind_pure (fun _ _ => rfl) bind_assoc

/-- All operations that the program can come to meet `P`. -/
def All (P : Op → Prop) : Program Op Reply α → Prop
  | .pure _ => True
  | .op o k => P o ∧ ∀ r, (k r).All P

private theorem All.bind {P : Op → Prop} {p : Program Op Reply α} {f : α → Program Op Reply β} (hp : p.All P)
    (hf : ∀ a, (f a).All P) : (p >>= f).All P := by
  induction p with
  | pure a => exact hf a
  | op o k ih => exact ⟨hp.1, fun r => ih r (hp.2 r)⟩

theorem All.except_bind {P : Op → Prop} {x : ExceptT err (Program Op Reply) α}
    {f : α → ExceptT err (Program Op Reply) β} (hx : x.run.All P) (hf : ∀ a, (f a).run.All P) :
    (x >>= f).run.All P := by
  rw [ExceptT.run_bind]
  refine hx.bind fun r => ?_
  cases r with
  | error e => trivial
  | ok a => exact hf a

theorem All.imp {P Q : Op → Prop} {p : Program Op Reply α} (hp : p.All P) (hPQ : ∀ o, P o → Q o) : p.All Q := by
  induction p with
  | pure a => trivial
  | op o k ih => exact ⟨hPQ o hp.1, fun r => ih r (hp.2 r)⟩

/-! ### Results -/

/-- Some replies that `R` admits take the program to the result `a`. -/
def Returns (R : (o : Op) → Reply o → Prop) : Program Op Reply α → α → Prop
  | .pure b, a => b = a
  | .op o k, a => ∃ r, R o r ∧ (k r).Returns R a

section Results

variable {R : (o : Op) → Reply o → Prop}

@[simp] theorem returns_pure {a b : α} : (.pure b : Program Op Reply α).Returns R a ↔ b = a := Iff.rfl

@[simp] theorem returns_op {o : Op} {k : Reply o → Program Op Reply α} {a : α} :
    (Program.op o k).Returns R a ↔ ∃ r, R o r ∧ (k r).Returns R a := Iff.rfl

private theorem returns_bind {p : Program Op Reply α} {f : α → Program Op Reply β} {b : β} :
    (p >>= f).Returns R b ↔ ∃ a, p.Returns R a ∧ (f a).Returns R b := by
  induction p with
  | pure a => simp
  | op o k ih =>
    rw [op_bind, returns_op]
    simp only [ih, returns_op]
    constructor
    · rintro ⟨r, hr, a, hk, hf⟩
      exact ⟨a, ⟨r, hr, hk⟩, hf⟩
    · rintro ⟨a, ⟨r, hr, hk⟩, hf⟩
      exact ⟨r, hr, a, hk, hf⟩

/-- A sequence returns without an error if both parts do. -/
theorem returns_ok_bind {x : ExceptT err (Program Op Reply) α} {f : α → ExceptT err (Program Op Reply) β} {b : β} :
    (x >>= f).run.Returns R (.ok b) ↔ ∃ a, x.run.Returns R (.ok a) ∧ (f a).run.Returns R (.ok b) := by
  rw [ExceptT.run_bind, returns_bind]
  constructor
  · rintro ⟨r, hx, hf⟩
    cases r with
    | error e => cases hf
    | ok a => exact ⟨a, hx, hf⟩
  · rintro ⟨a, hx, hf⟩
    exact ⟨.ok a, hx, hf⟩

/-- All operations that the program can come to meet `P`, as long as it is answered as `R` admits. -/
def AllUnder (R : (o : Op) → Reply o → Prop) (P : Op → Prop) : Program Op Reply α → Prop
  | .pure _ => True
  | .op o k => P o ∧ ∀ r, R o r → (k r).AllUnder R P

/-- The second part may rely on what the first can return. -/
theorem AllUnder.bind {P : Op → Prop} {p : Program Op Reply α} {f : α → Program Op Reply β} (hp : p.AllUnder R P)
    (hf : ∀ a, p.Returns R a → (f a).AllUnder R P) : (p >>= f).AllUnder R P := by
  induction p with
  | pure a => exact hf a rfl
  | op o k ih => exact ⟨hp.1, fun r hr => ih r (hp.2 r hr) fun a ha => hf a ⟨r, hr, ha⟩⟩

theorem AllUnder.except_bind {P : Op → Prop} {x : ExceptT err (Program Op Reply) α}
    {f : α → ExceptT err (Program Op Reply) β} (hx : x.run.AllUnder R P)
    (hf : ∀ a, x.run.Returns R (.ok a) → (f a).run.AllUnder R P) : (x >>= f).run.AllUnder R P := by
  rw [ExceptT.run_bind]
  refine hx.bind fun r hr => ?_
  cases r with
  | error e => trivial
  | ok a => exact hf a hr

/-- A program whose operations can all be answered returns. -/
theorem All.exists_returns {P : Op → Prop} {p : Program Op Reply α} (hp : p.All P) (hR : ∀ o, P o → ∃ r, R o r) :
    ∃ a, p.Returns R a := by
  induction p with
  | pure a => exact ⟨a, rfl⟩
  | op o k ih =>
    obtain ⟨r, hr⟩ := hR o hp.1
    obtain ⟨a, ha⟩ := ih r (hp.2 r)
    exact ⟨a, r, hr, ha⟩

end Results

/-! ### Executions -/

variable {Shows : (o : Op) → Reply o → List ε → Prop}

/-- `Exec Shows p es q`: some replies take `p` to `q`, and `es` is what they show. -/
inductive Exec (Shows : (o : Op) → Reply o → List ε → Prop) :
    Program Op Reply α → List ε → Program Op Reply α → Prop
  | nil {p : Program Op Reply α} : Exec Shows p [] p
  | cons {o : Op} {k : Reply o → Program Op Reply α} {q : Program Op Reply α} {r : Reply o} {es₁ es₂ : List ε} :
      Shows o r es₁ → Exec Shows (k r) es₂ q → Exec Shows (.op o k) (es₁ ++ es₂) q

namespace Exec

theorem snoc {p : Program Op Reply α} {o : Op} {k : Reply o → Program Op Reply α} {es es' : List ε}
    (h : Exec Shows p es (.op o k)) {r : Reply o} (hr : Shows o r es') : Exec Shows p (es ++ es') (k r) := by
  generalize hq : Program.op o k = q at h
  induction h with
  | nil =>
    subst hq
    simpa using Exec.cons hr (.nil (p := k r))
  | cons hs _ ih =>
    rw [List.append_assoc]
    exact .cons hs (ih hq)

/-- What a program can come to is fixed by the program it started as. -/
theorem all {P : Op → Prop} {p q : Program Op Reply α} {es : List ε} (h : Exec Shows p es q)
    (hp : p.All P) : q.All P := by
  induction h with
  | nil => exact hp
  | cons _ _ ih => exact ih (hp.2 _)

theorem allUnder {R : (o : Op) → Reply o → Prop} {P : Op → Prop} {p q : Program Op Reply α} {es : List ε}
    (h : Exec Shows p es q) (hR : ∀ o r es, Shows o r es → R o r) (hp : p.AllUnder R P) : q.AllUnder R P := by
  induction h with
  | nil => exact hp
  | cons hs _ ih => exact ih (hp.2 _ (hR _ _ _ hs))

/-- What an execution ends with is a result of its program. -/
theorem returns {p : Program Op Reply α} {es : List ε} {a : α} (h : Exec Shows p es (.pure a)) :
    p.Returns (fun _ _ => True) a := by
  generalize hq : Program.pure a = q at h
  induction h with
  | nil =>
    subst hq
    rfl
  | cons _ _ ih => exact ⟨_, trivial, ih hq⟩

theorem pure_inv {a : α} {es : List ε} {q : Program Op Reply α} (h : Exec Shows (.pure a) es q) :
    es = [] ∧ q = .pure a := by
  cases h with
  | nil => exact ⟨rfl, rfl⟩

/-- An execution of `p` and then `f` is inside `p`, or `p` has returned and it is inside `f`. -/
theorem bind_inv {p : Program Op Reply α} {f : α → Program Op Reply β} {es : List ε} {q : Program Op Reply β}
    (h : Exec Shows (p >>= f) es q) :
    (∃ p', q = (p' >>= f) ∧ Exec Shows p es p') ∨
      ∃ a es₁ es₂, es = es₁ ++ es₂ ∧ Exec Shows p es₁ (.pure a) ∧ Exec Shows (f a) es₂ q := by
  induction p generalizing es with
  | pure a => exact Or.inr ⟨a, [], es, rfl, .nil, h⟩
  | op o k ih =>
    rw [op_bind] at h
    cases h with
    | nil => exact Or.inl ⟨.op o k, rfl, .nil⟩
    | cons hs hk =>
      rcases ih _ hk with ⟨p', rfl, hp'⟩ | ⟨a, es₁, es₂, rfl, h₁, h₂⟩
      · exact Or.inl ⟨p', rfl, .cons hs hp'⟩
      · exact Or.inr ⟨a, _ ++ es₁, es₂, by rw [List.append_assoc], .cons hs h₁, h₂⟩

/-- An execution of `p` and then `f` to a result is one of `p` to a result and then one of `f`. -/
theorem bind_pure_inv {p : Program Op Reply α} {f : α → Program Op Reply β} {es : List ε} {b : β}
    (h : Exec Shows (p >>= f) es (.pure b)) :
    ∃ a es₁ es₂, es = es₁ ++ es₂ ∧ Exec Shows p es₁ (.pure a) ∧ Exec Shows (f a) es₂ (.pure b) := by
  rcases bind_inv h with ⟨p', hp', hx⟩ | h
  · cases p' with
    | pure a => exact ⟨a, es, [], by simp, hx, by rw [hp']; exact .nil⟩
    | op o k => simp at hp'
  · exact h

/-- A sequence that ends without an error has run its first part without an error. -/
theorem ok_bind_inv {x : ExceptT err (Program Op Reply) α} {f : α → ExceptT err (Program Op Reply) β}
    {es : List ε} {b : β} (h : Exec Shows (x >>= f).run es (.pure (.ok b))) :
    ∃ a es₁ es₂, es = es₁ ++ es₂ ∧ Exec Shows x.run es₁ (.pure (.ok a)) ∧
      Exec Shows (f a).run es₂ (.pure (.ok b)) := by
  rw [ExceptT.run_bind] at h
  obtain ⟨r, es₁, es₂, rfl, h₁, h₂⟩ := bind_pure_inv h
  cases r with
  | error e =>
    obtain ⟨_, h'⟩ := pure_inv h₂
    simp at h'
  | ok a => exact ⟨a, es₁, es₂, rfl, h₁, h₂⟩

end Exec

end Program
