import Mathlib.Data.Nat.Notation

/-!
# Cancellation of a job

The value that an action, its clones and the session loop share.  It leaves `active` once, by the compare-exchange of
`cancel` or of `finish`, whichever comes first.
-/

namespace PluginSdk

/-- The value of a `CancellationState`. -/
inductive CancellationValue
  | active | cancelled | finished
deriving DecidableEq

namespace CancellationValue

/-- The compare-exchange of `CancellationController::cancel`. -/
def cancel : CancellationValue → CancellationValue
  | active => cancelled
  | value => value

/-- The compare-exchange of `CancellationController::finish`. -/
def finish : CancellationValue → CancellationValue
  | active => finished
  | value => value

@[simp] theorem cancel_ne_active (value : CancellationValue) : value.cancel ≠ active := by
  cases value <;> simp [cancel]

@[simp] theorem finish_ne_active (value : CancellationValue) : value.finish ≠ active := by
  cases value <;> simp [finish]

/-- Whoever exchanges first decides. -/
theorem cancel_of_ne {value : CancellationValue} (h : value ≠ active) : value.cancel = value := by
  cases value <;> simp_all [cancel]

theorem finish_of_ne {value : CancellationValue} (h : value ≠ active) : value.finish = value := by
  cases value <;> simp_all [finish]

end CancellationValue

end PluginSdk
