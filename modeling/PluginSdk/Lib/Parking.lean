import Mathlib.Logic.Function.Basic
import PluginSdk.Lib.Lts

/-!
# Registering, checking, parking

Waiters that park until a condition is met.  A waiter registers for notifications, checks the condition after that,
and parks if it is blocked.  Whoever unblocks the condition notifies all registered waiters after that, and a
notification is not kept for those that register later.  With both orders as they are no waiter parks for ever: once
the condition is unblocked and no notification is outstanding, every waiter that has found it blocked has been
notified (`Parking.notified_of_checked`).
-/

namespace Parking

open Lts

variable {ι : Type}

/-- Where a waiter is; `notified` tells if its registration has been notified. -/
inductive Phase
  | out
  | registered (notified : Bool)
  /-- It has found the condition blocked, and parks or has parked. -/
  | checked (notified : Bool)

structure State (ι : Type) where
  blocked : Prop
  /-- An unblocking has still to be notified. -/
  outstanding : Prop
  waiters : ι → Phase

def Phase.notify : Phase → Phase
  | out => out
  | registered _ => registered true
  | checked _ => checked true

inductive Event (ι : Type)
  | left (i : ι)
  | registered (i : ι)
  | checked (i : ι)
  | unblocked
  | notified

variable [DecidableEq ι] {s s' : State ι}

inductive Step : State ι → Event ι → State ι → Prop
  | leave {s : State ι} {i : ι} : Step s (.left i) { s with waiters := Function.update s.waiters i .out }
  | register {s : State ι} {i : ι} {notified : Bool} : s.waiters i = .out →
      Step s (.registered i) { s with waiters := Function.update s.waiters i (.registered notified) }
  | check {s : State ι} {i : ι} {notified : Bool} : s.waiters i = .registered notified → s.blocked →
      Step s (.checked i) { s with waiters := Function.update s.waiters i (.checked notified) }
  | unblock {s : State ι} : Step s .unblocked { s with blocked := False, outstanding := True }
  | notify {s : State ι} {outstanding : Prop} :
      Step s .notified { s with outstanding, waiters := fun i => (s.waiters i).notify }

/-- A waiter that has found the condition blocked has been notified, unless the notification is still to come. -/
def Awaited (s : State ι) : Prop :=
  ∀ i notified, s.waiters i = .checked notified → s.blocked ∨ s.outstanding ∨ notified = true

private theorem Step.awaited {e : Event ι} (hs : Step s e s') (ha : Awaited s) : Awaited s' := by
  intro i notified hi
  have hother : ∀ {j : ι} {phase : Phase}, Function.update s.waiters j phase i = .checked notified →
      (phase = .checked notified → s.blocked ∨ s.outstanding ∨ notified = true) →
      s.blocked ∨ s.outstanding ∨ notified = true := by
    intro j phase hupdate hself
    by_cases hj : i = j
    · subst hj
      rw [Function.update_self] at hupdate
      exact hself hupdate
    · rw [Function.update_of_ne hj] at hupdate
      exact ha i notified hupdate
  cases hs with
  | leave => exact hother hi fun h => by cases h
  | register => exact hother hi fun h => by cases h
  -- the check is made after the registration, so the unblocking that follows it notifies this waiter
  | check _ hblocked => exact hother hi fun _ => Or.inl hblocked
  | unblock => exact Or.inr (Or.inl trivial)
  | notify =>
    have hnotify : (s.waiters i).notify = .checked notified := hi
    cases hw : s.waiters i with
    | out =>
      rw [hw] at hnotify
      cases hnotify
    | registered notified' =>
      rw [hw] at hnotify
      cases hnotify
    | checked notified' =>
      rw [hw] at hnotify
      cases hnotify
      exact Or.inr (Or.inr rfl)

private theorem awaited {h : List (Event ι)} (hr : Steps Step s h s') (h0 : ∀ i, s.waiters i = .out) :
    Awaited s' := by
  refine hr.invariant (fun _ _ _ hs ih => hs.awaited ih) (fun i notified hi => ?_)
  rw [h0 i] at hi
  cases hi

/-- No wakeup is lost. -/
theorem notified_of_checked {h : List (Event ι)} (hr : Steps Step s h s') (h0 : ∀ i, s.waiters i = .out)
    (hblocked : ¬ s'.blocked) (houtstanding : ¬ s'.outstanding) {i : ι} {notified : Bool}
    (hi : s'.waiters i = .checked notified) : notified = true :=
  ((awaited hr h0 i notified hi).resolve_left hblocked).resolve_left houtstanding

end Parking
