import Mathlib.Data.Nat.Notation

/-!
# Code that may unwind

How a piece of code ends where panics unwind: it returns, or a panic leaves it with a payload, or the process is
aborted.  Destructors run on both ways out of a scope (`dropping`), and one that panics during an unwinding aborts.
`catchUnwind` stops an unwinding and nothing else, so what runs after it is outside of its protection.
-/

inductive Unwind (ε α : Type)
  | returns (a : α)
  | panics (payload : ε)
  | aborts

namespace Unwind

variable {ε α β : Type}

/-- Code with no unwinding inside, such as a call into somebody else's code. -/
def ofExcept : Except ε α → Unwind ε α
  | .ok a => returns a
  | .error payload => panics payload

protected def bind : Unwind ε α → (α → Unwind ε β) → Unwind ε β
  | returns a, f => f a
  | panics payload, _ => panics payload
  | aborts, _ => aborts

instance : Monad (Unwind ε) where
  pure := returns
  bind := Unwind.bind

def catchUnwind : Unwind ε α → Unwind ε (Except ε α)
  | returns a => returns (.ok a)
  | panics payload => returns (.error payload)
  | aborts => aborts

/-- `x` in a scope that drops something at its end, and what that drop does. -/
def dropping (drop : Except ε Unit) (x : Unwind ε α) : Unwind ε α :=
  match x, drop with
  | x, .ok () => x
  | returns _, .error payload => panics payload
  | panics _, .error _ | aborts, .error _ => aborts

/-- The code returns. -/
def Returns (x : Unwind ε α) : Prop := ∃ a, x = returns a

@[simp] theorem returns_returns (a : α) : (returns a : Unwind ε α).Returns := ⟨a, rfl⟩

@[simp] theorem not_returns_panics (payload : ε) : ¬ (panics payload : Unwind ε α).Returns := by
  rintro ⟨a, h⟩
  cases h

@[simp] theorem not_returns_aborts : ¬ (aborts : Unwind ε α).Returns := by
  rintro ⟨a, h⟩
  cases h

@[simp] theorem pure_eq (a : α) : (pure a : Unwind ε α) = returns a := rfl

@[simp] theorem returns_bind (a : α) (f : α → Unwind ε β) : (returns a >>= f) = f a := rfl

/-- A sequence returns if both of its parts do. -/
theorem returns_bind_iff {x : Unwind ε α} {f : α → Unwind ε β} :
    (x >>= f).Returns ↔ ∃ a, x = returns a ∧ (f a).Returns := by
  constructor
  · intro h
    cases x with
    | returns a => exact ⟨a, rfl, h⟩
    | panics payload => exact absurd h (not_returns_panics payload)
    | aborts => exact absurd h not_returns_aborts
  · rintro ⟨a, rfl, h⟩
    exact h

@[simp] theorem dropping_ok (x : Unwind ε α) : dropping (.ok ()) x = x := by
  cases x <;> rfl

/-- A scope is left by returning only if the drop at its end returns too. -/
theorem returns_dropping_iff {drop : Except ε Unit} {x : Unwind ε α} :
    (dropping drop x).Returns ↔ x.Returns ∧ drop = .ok () := by
  cases drop with
  | ok u => simp [show dropping (.ok u) x = x from dropping_ok x]
  | error payload => cases x <;> simp [dropping]

end Unwind
