import PluginSdk.Process
import PluginSdk.Lib.Parking

/-!
# Waiting for a cancellation

`Cancellation::cancelled` and the two transitions of the controller, one atomic step after the other and in any
order.  A waiter gets a `Notified`, enables it, loads the value, and returns or parks; a transition exchanges the
value and, if that has succeeded, notifies the waiters.  `Notify::notify_waiters` is taken as documented: it
notifies every `Notified` that is enabled, it may notify one that is not, and it keeps nothing for later ones.  The
first exchange decides for good, and no wakeup is lost (`CancellationState.cancellation_decides`), because the
waiters follow the discipline of `Parking`.
-/

namespace PluginSdk

open Lts

/-- `is_cancelled`. -/
def CancellationValue.isCancelled (value : CancellationValue) : Bool := value == .cancelled

/-- The compare-exchanges of the controller. -/
inductive Transition
  | cancel | finish
deriving DecidableEq

def Transition.exchange : Transition → CancellationValue → CancellationValue
  | cancel => .cancel
  | finish => .finish

private theorem Transition.exchange_active_ne (t : Transition) : t.exchange .active ≠ .active := by
  cases t with
  | cancel => exact CancellationValue.cancel_ne_active .active
  | finish => exact CancellationValue.finish_ne_active .active

/-- Where a call of `cancelled` is; `notified` tells if its `Notified` has been notified. -/
inductive Waiter
  | idle
  /-- At the top of the loop. -/
  | looping
  | created (notified : Bool)
  | enabled (notified : Bool)
  | loaded (notified : Bool) (value : CancellationValue)
  | parked (notified : Bool)
  | returned
  | dropped
deriving DecidableEq

/-- What `notify_waiters` does to a waiter; `early` if it reaches a `Notified` that is not enabled yet. -/
def Waiter.notify (early : Bool) : Waiter → Waiter
  | created notified => created (notified || early)
  | enabled _ => enabled true
  | loaded _ value => loaded true value
  | parked _ => parked true
  | waiter => waiter

/-- Where a call of `cancel` or `finish` is. -/
inductive TransitionCall
  | idle | notifying | returned
deriving DecidableEq

/-- The value, the waiters on `changed`, and the calls of the controller. -/
structure CancellationState where
  value : CancellationValue
  waiters : Nat → Waiter
  calls : Nat → TransitionCall

inductive CancellationEvent
  | called (waiter : Nat)
  | created (waiter : Nat)
  | enabled (waiter : Nat)
  | loaded (waiter : Nat) (value : CancellationValue)
  | parked (waiter : Nat)
  | woken (waiter : Nat)
  | returned (waiter : Nat)
  /-- The future of the waiter is dropped at its await. -/
  | dropped (waiter : Nat)
  | exchanged (call : Nat) (t : Transition) (succeeded : Bool)
  | notified (call : Nat)
  /-- A clone has been asked `is_cancelled`. -/
  | isCancelled (clone : Nat) (answer : Bool)

/-- A waiter that has loaded `active` goes on to park; one that has loaded anything else does not wait any more. -/
def Waiter.phase : Waiter → Parking.Phase
  | enabled notified => .registered notified
  | loaded notified .active | parked notified => .checked notified
  | _ => .out

/-- What an event is for the discipline of the waiters. -/
def CancellationEvent.discipline : CancellationEvent → List (Parking.Event Nat)
  | enabled w => [.registered w]
  | loaded w .active => [.checked w]
  | loaded w _ | woken w | dropped w => [.left w]
  | exchanged _ _ true => [.unblocked]
  | notified _ => [.notified]
  | _ => []

private theorem Waiter.phase_loaded {value : CancellationValue} (h : value ≠ .active) (notified : Bool) :
    (Waiter.loaded notified value).phase = .out := by
  cases value with
  | active => exact absurd rfl h
  | cancelled | finished => rfl

private theorem CancellationEvent.discipline_loaded {value : CancellationValue} (h : value ≠ .active) (w : Nat) :
    (CancellationEvent.loaded w value).discipline = [.left w] := by
  cases value with
  | active => exact absurd rfl h
  | cancelled | finished => rfl

private theorem Waiter.phase_notify (waiter : Waiter) (early : Bool) :
    (waiter.notify early).phase = waiter.phase.notify := by
  cases waiter with
  | loaded notified value => cases value <;> rfl
  | _ => rfl

/-- The waiter that makes the step. -/
def CancellationEvent.waiter : CancellationEvent → Option Nat
  | called w | created w | enabled w | loaded w _ | parked w | woken w | returned w | dropped w => some w
  | _ => none

namespace CancellationState

/-- `CancellationController::new`. -/
def init : CancellationState := ⟨.active, fun _ => .idle, fun _ => .idle⟩

def setWaiter (s : CancellationState) (w : Nat) (waiter : Waiter) : CancellationState :=
  { s with waiters := Function.update s.waiters w waiter }

inductive Step : CancellationState → CancellationEvent → CancellationState → Prop
  | call {s : CancellationState} {w : Nat} : s.waiters w = .idle → Step s (.called w) (s.setWaiter w .looping)
  | create {s : CancellationState} {w : Nat} : s.waiters w = .looping →
      Step s (.created w) (s.setWaiter w (.created false))
  | enable {s : CancellationState} {w : Nat} {notified : Bool} : s.waiters w = .created notified →
      Step s (.enabled w) (s.setWaiter w (.enabled notified))
  | load {s : CancellationState} {w : Nat} {notified : Bool} : s.waiters w = .enabled notified →
      Step s (.loaded w s.value) (s.setWaiter w (.loaded notified s.value))
  | returns {s : CancellationState} {w : Nat} {notified : Bool} {value : CancellationValue} :
      s.waiters w = .loaded notified value → value ≠ .active → Step s (.returned w) (s.setWaiter w .returned)
  | park {s : CancellationState} {w : Nat} {notified : Bool} : s.waiters w = .loaded notified .active →
      Step s (.parked w) (s.setWaiter w (.parked notified))
  | wake {s : CancellationState} {w : Nat} : s.waiters w = .parked true → Step s (.woken w) (s.setWaiter w .looping)
  | drop {s : CancellationState} {w : Nat} {notified : Bool} : s.waiters w = .parked notified →
      Step s (.dropped w) (s.setWaiter w .dropped)
  | exchange {s : CancellationState} {c : Nat} {t : Transition} : s.calls c = .idle → s.value = .active →
      Step s (.exchanged c t true)
        { s with value := t.exchange s.value, calls := Function.update s.calls c .notifying }
  | exchangeFailed {s : CancellationState} {c : Nat} {t : Transition} : s.calls c = .idle → s.value ≠ .active →
      Step s (.exchanged c t false) { s with calls := Function.update s.calls c .returned }
  | notify {s : CancellationState} {c : Nat} {early : Nat → Bool} : s.calls c = .notifying →
      Step s (.notified c)
        { s with
          waiters := fun w => (s.waiters w).notify (early w)
          calls := Function.update s.calls c .returned }
  | isCancelled {s : CancellationState} {clone : Nat} : Step s (.isCancelled clone s.value.isCancelled) s

variable {s s' : CancellationState} {e : CancellationEvent} {h : List CancellationEvent}

/-! ### The decision -/

/-- The history holds an exchange. -/
def Exchanged (h : List CancellationEvent) : Prop := ∃ c t succeeded, .exchanged c t succeeded ∈ h

/-- A value that has been decided stays. -/
private theorem Step.value (hs : Step s e s') (hv : s.value ≠ .active) : s'.value = s.value := by
  cases hs with
  | exchange _ hactive => exact absurd hactive hv
  | _ => rfl

private theorem value_of_decided (hr : Steps Step s h s') (hv : s.value ≠ .active) : s'.value = s.value := by
  refine Steps.invariant (I := fun s' => s'.value = s.value) (fun t e t' hs ih => ?_) hr rfl
  rw [hs.value (ih ▸ hv), ih]

/-- The value is active as long as nobody has tried to exchange it. -/
theorem active_iff (hr : Steps Step init h s) : s.value = .active ↔ ¬ Exchanged h := by
  refine Steps.history (I := fun h s => s.value = .active ↔ ¬ Exchanged h) ?_ (fun h s e s' _ hs ih => ?_) hr
  · simp [init, Exchanged]
  · have hsilent : (∀ c t succeeded, e ≠ .exchanged c t succeeded) → s'.value = s.value →
        (s'.value = .active ↔ ¬ Exchanged (h ++ [e])) := by
      intro he hvalue
      rw [hvalue, ih]
      simp [Exchanged, fun c t succeeded => (he c t succeeded).symm]
    cases hs with
    | exchange _ hactive =>
      rw [hactive]
      refine iff_of_false (Transition.exchange_active_ne _) (not_not.2 ?_)
      exact ⟨_, _, _, List.mem_append_right _ (List.mem_singleton.2 rfl)⟩
    | exchangeFailed _ hv =>
      refine iff_of_false hv (not_not.2 ?_)
      exact ⟨_, _, _, List.mem_append_right _ (List.mem_singleton.2 rfl)⟩
    | _ => exact hsilent (by simp) rfl

private theorem decided_once (hr : Steps Step init h s) {h₁ h₂ : List CancellationEvent} {c : Nat} {t : Transition}
    {succeeded : Bool} (hh : h = h₁ ++ .exchanged c t succeeded :: h₂) : succeeded = true ↔ ¬ Exchanged h₁ := by
  subst hh
  obtain ⟨s₁, s₂, hbefore, hs, -⟩ := hr.split
  rw [← active_iff hbefore]
  cases hs with
  | exchange _ hactive => exact iff_of_true rfl hactive
  | exchangeFailed _ hv => exact iff_of_false Bool.false_ne_true hv

/-- The answers after the first exchange. -/
theorem decided_for_good {t : Transition} {c : Nat} (hs : Step s (.exchanged c t true) s') {u : CancellationState}
    (hr : Steps Step s' h u) : u.value = t.exchange .active ∧
      ∀ clone answer, .isCancelled clone answer ∈ h → (answer = true ↔ t = .cancel) := by
  have hvalue : s'.value = t.exchange .active := by
    cases hs with
    | exchange _ hactive => rw [← hactive]
  have hdecided : ∀ {w : List CancellationEvent} {v : CancellationState}, Steps Step s' w v →
      v.value = t.exchange .active := by
    intro w v hw
    rw [value_of_decided hw (hvalue ▸ Transition.exchange_active_ne t), hvalue]
  refine ⟨hdecided hr, fun clone answer hmem => ?_⟩
  obtain ⟨w₁, w₂, rfl⟩ := List.append_of_mem hmem
  obtain ⟨v, v', hw, hread, -⟩ := hr.split
  have hv := hdecided hw
  cases hread with
  | isCancelled =>
    rw [hv]
    cases t <;> decide

/-! ### The discipline of the waiters -/

/-- The waiters as the discipline sees them, and what they wait for. -/
def discipline (s : CancellationState) : Parking.State Nat :=
  ⟨s.value = .active, ∃ c, s.calls c = .notifying, Waiter.phase ∘ s.waiters⟩

private theorem discipline_setWaiter (s : CancellationState) (w : Nat) (waiter : Waiter) :
    (s.setWaiter w waiter).discipline =
      { s.discipline with waiters := Function.update s.discipline.waiters w waiter.phase } := by
  simp only [discipline, setWaiter, Function.comp_update]

/-- A step that leaves the phase of its waiter alone. -/
private theorem discipline_same {w : Nat} {waiter : Waiter} (hphase : waiter.phase = (s.waiters w).phase) :
    (s.setWaiter w waiter).discipline = s.discipline := by
  rw [discipline_setWaiter, hphase]
  have hself : Function.update s.discipline.waiters w (s.waiters w).phase = s.discipline.waiters :=
    Function.update_eq_self w s.discipline.waiters
  rw [hself]

private theorem Step.discipline (hs : Step s e s') : Steps Parking.Step s.discipline e.discipline s'.discipline := by
  have hsame : s'.discipline = s.discipline → Steps Parking.Step s.discipline [] s'.discipline := by
    intro heq
    rw [heq]
    exact .nil
  cases hs with
  | call hw | create hw | park hw => exact hsame (discipline_same (by rw [hw]; rfl))
  | returns hw hv => exact hsame (discipline_same (by rw [hw, Waiter.phase_loaded hv]; rfl))
  | @enable w notified hw =>
    rw [discipline_setWaiter]
    refine .single (.register ?_)
    show (s.waiters w).phase = .out
    rw [hw]
    rfl
  | @load w notified hw =>
    rw [discipline_setWaiter]
    by_cases hv : s.value = .active
    · rw [hv]
      refine .single (.check ?_ hv)
      show (s.waiters w).phase = .registered notified
      rw [hw]
      rfl
    · rw [CancellationEvent.discipline_loaded hv, Waiter.phase_loaded hv]
      exact .single .leave
  | wake | drop =>
    rw [discipline_setWaiter]
    exact .single .leave
  | @exchange c t _ hactive =>
    have hblocked : (t.exchange s.value = .active) = False := by
      rw [hactive]
      exact eq_false t.exchange_active_ne
    have houtstanding : (∃ c', Function.update s.calls c .notifying c' = .notifying) = True :=
      eq_true ⟨c, Function.update_self ..⟩
    unfold CancellationState.discipline
    dsimp only
    rw [hblocked, houtstanding]
    exact .single .unblock
  | @exchangeFailed c t hidle =>
    -- a call that has failed notifies nobody
    have houtstanding : ∀ c', Function.update s.calls c .returned c' = .notifying ↔ s.calls c' = .notifying := by
      intro c'
      by_cases hc : c' = c
      · subst hc
        rw [Function.update_self, hidle]
        simp
      · rw [Function.update_of_ne hc]
    refine hsame ?_
    unfold CancellationState.discipline
    simp only [houtstanding]
  | @notify c early =>
    have hwaiters : (Waiter.phase ∘ fun w => (s.waiters w).notify (early w)) = fun w =>
      ((Waiter.phase ∘ s.waiters) w).notify :=
      funext fun w => Waiter.phase_notify (s.waiters w) (early w)
    unfold CancellationState.discipline
    dsimp only
    rw [hwaiters]
    exact .single .notify
  | isCancelled => exact hsame rfl

/-- Every waiter that is about to park, or has parked, has been or will be notified of the decision. -/
theorem notified_of_decided (hr : Steps Step init h s) (hv : s.value ≠ .active) (hcalls : ∀ c, s.calls c ≠ .notifying)
    {w : Nat} {notified : Bool} (hw : (s.waiters w).phase = .checked notified) : notified = true := by
  have hrun : Steps Parking.Step init.discipline (h.flatMap CancellationEvent.discipline) s.discipline :=
    hr.simulate fun _ _ _ hs => hs.discipline
  refine Parking.notified_of_checked hrun (fun _ => rfl) hv ?_ hw
  rintro ⟨c, hc⟩
  exact hcalls c hc

/-! ### What the waiters have loaded -/

/-- A waiter that has loaded a decision has loaded the decision. -/
def Loaded (s : CancellationState) : Prop :=
  ∀ w notified value, s.waiters w = .loaded notified value → value ≠ .active → s.value = value

private theorem Step.loaded (hs : Step s e s') (hl : Loaded s) : Loaded s' := by
  have hother : ∀ {w : Nat} {waiter : Waiter}, (∀ notified value, waiter = .loaded notified value → value ≠ .active →
      s.value = value) → Loaded (s.setWaiter w waiter) := by
    intro w waiter hself w' notified value hw hv
    have hupdate : Function.update s.waiters w waiter w' = .loaded notified value := hw
    by_cases hw' : w' = w
    · subst hw'
      rw [Function.update_self] at hupdate
      exact hself notified value hupdate hv
    · rw [Function.update_of_ne hw'] at hupdate
      exact hl w' notified value hupdate hv
  cases hs with
  | load =>
    refine hother fun notified value heq _ => ?_
    cases heq
    rfl
  | exchange _ hactive =>
    intro w notified value hw hv
    exact absurd (hl w notified value hw hv) (hactive ▸ hv.symm)
  | exchangeFailed => exact hl
  | isCancelled => exact hl
  | @notify c early =>
    intro w notified value hw hv
    have hnotify : (s.waiters w).notify (early w) = .loaded notified value := hw
    cases hbefore : s.waiters w with
    | loaded notified' value' =>
      rw [hbefore] at hnotify
      cases hnotify
      exact hl w notified' value hbefore hv
    | _ =>
      rw [hbefore] at hnotify
      cases hnotify
  | _ => exact hother (by simp)

private theorem loaded (hr : Steps Step init h s) : Loaded s :=
  hr.invariant (fun _ _ _ hs ih => hs.loaded ih) (fun w notified value hw => by cases hw)

/-! ### Single decision, no lost wakeup -/

/-- The first exchange succeeds and no other one does, and what it has decided is what every clone sees from then
on.  Once there is a decision and its notification is out, nobody is parked without having been notified; and nobody
returns before there is one. -/
theorem cancellation_decides (hr : Steps Step init h s) :
    (∀ h₁ c t succeeded h₂, h = h₁ ++ CancellationEvent.exchanged c t succeeded :: h₂ →
      (succeeded = true ↔ ¬ Exchanged h₁)) ∧
    (∀ h₁ h₂ s₁, h = h₁ ++ h₂ → Steps Step init h₁ s₁ → Steps Step s₁ h₂ s → s₁.value ≠ .active →
      s.value = s₁.value) ∧
    (∀ h₁ c t h₂, h = h₁ ++ CancellationEvent.exchanged c t true :: h₂ → s.value = t.exchange .active ∧
      ∀ clone answer, .isCancelled clone answer ∈ h₂ → (answer = true ↔ t = .cancel)) ∧
    (s.value ≠ .active → (∀ c, s.calls c ≠ .notifying) →
      ∀ w notified, s.waiters w = .parked notified → notified = true) ∧
    ∀ h₁ w h₂, h = h₁ ++ CancellationEvent.returned w :: h₂ →
      Exchanged h₁ ∧ ∀ s₁, Steps Step init h₁ s₁ → ∀ s₂, Step s₁ (.returned w) s₂ → s₁.value ≠ .active := by
  refine ⟨?_, ?_, ?_, ?_, ?_⟩
  · intro h₁ c t succeeded h₂ hh
    exact decided_once hr hh
  · intro h₁ h₂ s₁ _ _ hrest hv
    exact value_of_decided hrest hv
  · rintro h₁ c t h₂ rfl
    obtain ⟨s₁, s₂, -, hs, hrest⟩ := hr.split
    exact decided_for_good hs hrest
  · intro hv hcalls w notified hw
    exact notified_of_decided hr hv hcalls (by rw [hw]; rfl)
  · rintro h₁ w h₂ rfl
    have hreturns : ∀ {s₁ s₂ : CancellationState}, Steps Step init h₁ s₁ → Step s₁ (.returned w) s₂ →
      s₁.value ≠ .active := by
      intro s₁ s₂ hbefore hs
      cases hs with
      | returns hw hv =>
        rw [loaded hbefore _ _ _ hw hv]
        exact hv
    obtain ⟨s₁, s₂, hbefore, hs, -⟩ := hr.split
    refine ⟨?_, fun s₁ hbefore s₂ hs => hreturns hbefore hs⟩
    by_contra hnone
    exact hreturns hbefore hs ((active_iff hbefore).2 hnone)

/-- Two transitions race, and a waiter parks between the exchange and its notification. -/
def sampleRace : List CancellationEvent :=
  [.called 0, .created 0, .enabled 0, .loaded 0 .active, .exchanged 0 .cancel true, .exchanged 1 .finish false,
    .parked 0, .notified 0, .woken 0, .created 0, .enabled 0, .loaded 0 .cancelled, .returned 0, .isCancelled 5 true]

private theorem sampleRace_steps : ∃ s, Steps Step init sampleRace s := by
  refine Steps.exists_cons (.call rfl) (Steps.exists_cons (.create rfl) ?_)
  refine Steps.exists_cons (.enable rfl) (Steps.exists_cons (.load rfl) ?_)
  refine Steps.exists_cons (.exchange rfl rfl) (Steps.exists_cons (.exchangeFailed rfl (by decide)) ?_)
  refine Steps.exists_cons (.park rfl) (Steps.exists_cons (@Step.notify _ _ (fun _ => false) rfl) ?_)
  refine Steps.exists_cons (.wake rfl) (Steps.exists_cons (.create rfl) ?_)
  refine Steps.exists_cons (.enable rfl) (Steps.exists_cons (.load rfl) ?_)
  exact Steps.exists_cons (.returns rfl (by decide)) ⟨_, .single .isCancelled⟩

theorem cancellation_decides_sampleRace : ∃ s, Steps Step init sampleRace s ∧ s.value = .cancelled := by
  obtain ⟨s, hr⟩ := sampleRace_steps
  have hdecides := (cancellation_decides hr).2.2.1 (sampleRace.take 4) 0 .cancel (sampleRace.drop 5) rfl
  exact ⟨s, hr, hdecides.1⟩

/-! ### A decided wait comes to its end -/

/-- The waiter can return without a step of anybody else. -/
def Returns (w : Nat) (s : CancellationState) : Prop :=
  ∃ es s', Steps Step s es s' ∧ (∀ e ∈ es, e.waiter = some w) ∧ s'.waiters w = .returned

private theorem Returns.of_step {w : Nat} (hs : Step s e s') (he : e.waiter = some w)
    (hr : Returns w s') : Returns w s := by
  obtain ⟨es, t, hsteps, hes, ht⟩ := hr
  refine ⟨e :: es, t, .cons hs hsteps, ?_, ht⟩
  intro e' he'
  rcases List.mem_cons.1 he' with rfl | he'
  · exact he
  · exact hes e' he'

private theorem returns_of_loaded {w : Nat} {notified : Bool} {value : CancellationValue}
    (hw : s.waiters w = .loaded notified value) (hne : value ≠ .active) : Returns w s :=
  .of_step (.returns hw hne) rfl ⟨[], _, .nil, by simp, Function.update_self ..⟩

section Phases

variable {w : Nat} {notified : Bool} (hv : s.value ≠ .active)
include hv

private theorem returns_of_enabled (hw : s.waiters w = .enabled notified) : Returns w s := by
  refine .of_step (.load hw) rfl ?_
  exact @returns_of_loaded (s.setWaiter w (.loaded notified s.value)) w notified _ (Function.update_self ..) hv

private theorem returns_of_created (hw : s.waiters w = .created notified) : Returns w s := by
  refine .of_step (.enable hw) rfl ?_
  exact @returns_of_enabled (s.setWaiter w (.enabled notified)) w notified hv (Function.update_self ..)

private theorem returns_of_looping (hw : s.waiters w = .looping) : Returns w s := by
  refine .of_step (.create hw) rfl ?_
  exact @returns_of_created (s.setWaiter w (.created false)) w false hv (Function.update_self ..)

private theorem returns_of_woken (hw : s.waiters w = .parked true) : Returns w s := by
  refine .of_step (.wake hw) rfl ?_
  exact @returns_of_looping (s.setWaiter w .looping) w hv (Function.update_self ..)

end Phases

/-- Once there is a decision and its notification is out, every call of `cancelled` comes to its end by itself. -/
theorem decided_returns (hr : Steps Step init h s) (hv : s.value ≠ .active)
    (hcalls : ∀ c, s.calls c ≠ .notifying) (w : Nat) :
    s.waiters w = .idle ∨ s.waiters w = .returned ∨ s.waiters w = .dropped ∨ Returns w s := by
  cases hw : s.waiters w with
  | idle => exact Or.inl rfl
  | returned => exact Or.inr (Or.inl rfl)
  | dropped => exact Or.inr (Or.inr (Or.inl rfl))
  | looping => exact Or.inr (Or.inr (Or.inr (returns_of_looping hv hw)))
  | created notified => exact Or.inr (Or.inr (Or.inr (returns_of_created hv hw)))
  | enabled notified => exact Or.inr (Or.inr (Or.inr (returns_of_enabled hv hw)))
  | parked notified =>
    obtain rfl := notified_of_decided hr hv hcalls (by rw [hw]; rfl)
    exact Or.inr (Or.inr (Or.inr (returns_of_woken hv hw)))
  | loaded notified value =>
    refine Or.inr (Or.inr (Or.inr ?_))
    by_cases hne : value = .active
    · -- it parks on a `Notified` that has been notified, and is woken at once
      subst hne
      obtain rfl := notified_of_decided hr hv hcalls (by rw [hw]; rfl)
      refine .of_step (.park hw) rfl ?_
      exact @returns_of_woken (s.setWaiter w (.parked true)) w hv (Function.update_self ..)
    · exact returns_of_loaded hw hne

/-! ### The values of the session -/

/-- No call is between its exchange and its notification, and no call from the `n`th on has been made. -/
def Quiet (n : Nat) (s : CancellationState) : Prop := (∀ c, s.calls c ≠ .notifying) ∧ ∀ c, n ≤ c → s.calls c = .idle

/-- A transition that nobody interrupts. -/
theorem exists_transition {n : Nat} (hq : Quiet n s) (t : Transition) :
    ∃ es s', Steps Step s es s' ∧ s'.value = t.exchange s.value ∧ Quiet (n + 1) s' := by
  have hidle := hq.2 n le_rfl
  have hquiet : ∀ {x : CancellationState}, x.calls = Function.update s.calls n .returned → Quiet (n + 1) x := by
    intro x hx
    constructor
    · intro c
      rw [hx]
      by_cases hc : c = n
      · subst hc
        simp
      · rw [Function.update_of_ne hc]
        exact hq.1 c
    · intro c hc
      rw [hx, Function.update_of_ne (by omega)]
      exact hq.2 c (by omega)
  by_cases hv : s.value = .active
  · refine ⟨_, _, .cons (.exchange hidle hv)
      (.single (@Step.notify _ n (fun _ => false) (Function.update_self ..))), rfl, ?_⟩
    exact hquiet (Function.update_idem ..)
  · refine ⟨_, _, .single (@Step.exchangeFailed s n t hidle hv), ?_, hquiet rfl⟩
    cases t with
    | cancel => exact (CancellationValue.cancel_of_ne hv).symm
    | finish => exact (CancellationValue.finish_of_ne hv).symm

end CancellationState

namespace Serve

variable {s s' : Serve} {e : ServeEvent} {i : Nat}

private theorem cancelAll_cell (cells : Nat → CancellationValue) (controllers : List Nat) (i : Nat) :
    cancelAll cells controllers i = cells i ∨ ∃ t : Transition,
      cancelAll cells controllers i = t.exchange (cells i) := by
  unfold cancelAll
  by_cases hmem : i ∈ controllers
  · exact Or.inr ⟨.cancel, if_pos hmem⟩
  · exact Or.inl (if_neg hmem)

private theorem Processed.cell {envelope : PluginEnvelope} {call : Option Nat}
    (hp : Processed s envelope s' call) (i : Nat) :
    s'.cells i = s.cells i ∨ ∃ t : Transition, s'.cells i = t.exchange (s.cells i) := by
  cases hp with
  | cancelled | shutdown => exact cancelAll_cell _ _ i
  | _ => exact Or.inl rfl

/-- A step of the session leaves the value of a job alone, or makes a transition of it; that of a new job is
active. -/
theorem Step.cell (hs : Step s e s') (hi : i < s'.spawned) :
    s.spawned ≤ i ∧ s'.cells i = .active ∨
      i < s.spawned ∧ (s'.cells i = s.cells i ∨ ∃ t : Transition, s'.cells i = t.exchange (s.cells i)) := by
  cases hs with
  | context hs => cases hs <;> exact Or.inr ⟨hi, Or.inl rfl⟩
  | task hs =>
    cases hs with
    | @finish inst =>
      refine Or.inr ⟨hi, ?_⟩
      by_cases hinst : i = inst
      · subst hinst
        exact Or.inr ⟨.finish, Function.update_self ..⟩
      · exact Or.inl (Function.update_of_ne hinst ..)
    | _ => exact Or.inr ⟨hi, Or.inl rfl⟩
  | loop hs =>
    cases hs with
    | @receive envelope =>
      have hp := process_processed s envelope
      exact Or.inr ⟨hp.tasks.2 ▸ hi, hp.cell i⟩
    | @spawn job =>
      have hle : i < s.spawned + 1 := hi
      by_cases hnew : i = s.spawned
      · subst hnew
        exact Or.inl ⟨le_rfl, Function.update_self ..⟩
      · exact Or.inr ⟨by omega, Or.inl (Function.update_of_ne hnew ..)⟩
    | join _ _ _ hsettle =>
      obtain ⟨job, -, rfl, -⟩ := JobManager.settle_join hsettle
      exact Or.inr ⟨hi, Or.inl rfl⟩
    | _ => exact Or.inr ⟨hi, Or.inl rfl⟩

/-- The value of every job of a session is one that its controller has brought about, with all waiters notified. -/
theorem cell_run {setup : Setup} {h : List ServeEvent} (hr : Steps Step (init setup) h s) (hi : i < s.spawned) :
    ∃ es x n, Steps CancellationState.Step .init es x ∧ x.value = s.cells i ∧ x.Quiet n := by
  refine Steps.invariant (I := fun s => ∀ i, i < s.spawned → ∃ es x n, Steps CancellationState.Step .init es x ∧
    x.value = s.cells i ∧ x.Quiet n) (fun s e s' hs ih i hi => ?_) hr (fun i hi => absurd hi (Nat.not_lt_zero i)) i hi
  rcases hs.cell hi with ⟨-, hactive⟩ | ⟨hold, hcell⟩
  · exact ⟨[], .init, 0, .nil, hactive.symm, fun c hc => (by cases hc), fun _ _ => rfl⟩
  · obtain ⟨es, x, n, hx, hvalue, hq⟩ := ih i hold
    rcases hcell with hsame | ⟨t, ht⟩
    · exact ⟨es, x, n, hx, hvalue.trans hsame.symm, hq⟩
    · obtain ⟨es', x', hx', hvalue', hq'⟩ := CancellationState.exists_transition hq t
      exact ⟨es ++ es', x', n + 1, hx.trans hx', by rw [hvalue', hvalue, ht], hq'⟩

end Serve

end PluginSdk
