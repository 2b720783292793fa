import PluginSdk.Jobs
import PluginSdk.Lib.Unwind

/-!
# The supervisor of an action

`run_action` between the code of an action and its supervisor task.  The code of the action may panic wherever it
runs: when the handler is called, when its future is polled, when the future is dropped, and when the payload of a
panic is dropped.  The first two are caught.  A conduct says what the code does at one such place, and it is
contained if what runs outside of the two catches returns; then, and only then, the supervisor goes on or ends with
an output (`returns_runAction_iff`).
-/

namespace PluginSdk

/-- The payload of a panic: a text, or a value of another type. -/
inductive PanicPayload (V : Type)
  | str (message : String)
  | string (message : String)
  | other (value : V)

/-- The values of other types, with what dropping one does. -/
class DropValue (V : Type) where
  drop : V → Except (PanicPayload V) Unit

inductive Poll (α : Type)
  | pending
  | ready (output : α)

variable {V : Type}

namespace PanicPayload

def downcastStr : PanicPayload V → Option String
  | str message => some message
  | _ => none

def downcastString : PanicPayload V → Option String
  | string message => some message
  | _ => none

def drop [DropValue V] : PanicPayload V → Except (PanicPayload V) Unit
  | str _ | string _ => .ok ()
  | other value => DropValue.drop value

/-- The error of an action that has panicked. -/
def error (payload : PanicPayload V) : SdkError :=
  let message := (payload.downcastStr.or payload.downcastString).getD "non-string panic payload"
  .action ("action task panicked: " ++ message)

end PanicPayload

/-! ### The code of the supervisor -/

section RunAction

variable [DropValue V]

/-- The payload is dropped when the error has been made. -/
def actionPanic (payload : PanicPayload V) : Unwind (PanicPayload V) SdkError :=
  .dropping payload.drop (.returns payload.error)

def callHandler (handler : Except (PanicPayload V) Unit) : Unwind (PanicPayload V) (Except SdkError Unit) := do
  match ← Unwind.catchUnwind (.ofExcept handler) with
  | .ok future => return .ok future
  | .error payload => return .error (← actionPanic payload)

/-- The closure of the `poll_fn`. -/
def pollAction (polled : Except (PanicPayload V) (Poll Output)) : Unwind (PanicPayload V) (Poll Output) := do
  match ← Unwind.catchUnwind (.ofExcept polled) with
  | .ok output => return output
  | .error payload => return .ready (.error (← actionPanic payload))

/-- The await of the `poll_fn`, which owns the future: unless it is still pending, its scope ends and drops the
future. -/
def awaitAction (polled : Except (PanicPayload V) (Poll Output)) (drop : Except (PanicPayload V) Unit) :
    Unwind (PanicPayload V) (Poll Output) :=
  match pollAction polled with
  | .returns .pending => .returns .pending
  | outcome => outcome.dropping drop

/-- What the code of an action does the next time that it runs. -/
inductive Conduct (V : Type)
  /-- The call of the handler. -/
  | call (handler : Except (PanicPayload V) Unit)
  /-- A poll of the future; if it was the last one, the future is dropped. -/
  | poll (polled : Except (PanicPayload V) (Poll Output)) (drop : Except (PanicPayload V) Unit)

/-- `run_action` up to where the code of the action runs next. -/
def runAction : Conduct V → Unwind (PanicPayload V) (Poll Output)
  | .call handler => do
    match ← callHandler handler with
    | .ok () => return .pending
    | .error e => return .ready (.error e)
  | .poll polled drop => awaitAction polled drop

/-- How far the supervisor task is with `run_action`. -/
inductive Supervisor (V : Type)
  | spawned
  | polling
  | ended (outcome : Unwind (PanicPayload V) Output)

namespace Supervisor

def after : Unwind (PanicPayload V) (Poll Output) → Supervisor V
  | .returns .pending => polling
  | .returns (.ready output) => ended (.returns output)
  | .panics payload => ended (.panics payload)
  | .aborts => ended .aborts

def step : Supervisor V → Conduct V → Option (Supervisor V)
  | spawned, .call handler => some (after (runAction (.call handler)))
  | polling, .poll polled drop => some (after (runAction (.poll polled drop)))
  | _, _ => none

end Supervisor

/-! ### Contained panics -/

namespace Conduct

/-- What runs outside of the catches returns: the drop of the payload of a panic, and the drop of the future. -/
def Contained : Conduct V → Prop
  | call (.ok ()) | poll (.ok .pending) _ => True
  | call (.error payload) => payload.drop = .ok ()
  | poll (.ok (.ready _)) drop => drop = .ok ()
  | poll (.error payload) drop => payload.drop = .ok () ∧ drop = .ok ()

/-- The panic that has left the code of the action. -/
def panicked : Conduct V → Option (PanicPayload V)
  | call (.error payload) | poll (.error payload) _ => some payload
  | _ => none

/-- What the code of the action has come to: it goes on, or has ended with an output, or with a panic. -/
def yield : Conduct V → Poll Output
  | call (.ok ()) => .pending
  | poll (.ok polled) _ => polled
  | call (.error payload) | poll (.error payload) _ => .ready (.error payload.error)

end Conduct

private theorem returns_actionPanic_iff {payload : PanicPayload V} :
    (actionPanic payload).Returns ↔ payload.drop = .ok () := by
  unfold actionPanic
  rw [Unwind.returns_dropping_iff]
  simp

private theorem actionPanic_of_drop {payload : PanicPayload V} (h : payload.drop = .ok ()) :
    actionPanic payload = .returns payload.error := by
  unfold actionPanic
  rw [h, Unwind.dropping_ok]

private theorem callHandler_error (payload : PanicPayload V) :
    callHandler (.error payload) = do return .error (← actionPanic payload) := rfl

private theorem pollAction_error (payload : PanicPayload V) :
    pollAction (.error payload) = do return .ready (.error (← actionPanic payload)) := rfl

/-- The await returns if the poll does and, unless the future is still pending, its drop does. -/
private theorem returns_awaitAction_iff {polled : Except (PanicPayload V) (Poll Output)}
    {drop : Except (PanicPayload V) Unit} : (awaitAction polled drop).Returns ↔
      (pollAction polled).Returns ∧ (pollAction polled = .returns .pending ∨ drop = .ok ()) := by
  unfold awaitAction
  cases hp : pollAction polled with
  | returns output =>
    cases output with
    | pending => simp
    | ready output => simp [Unwind.returns_dropping_iff]
  | panics payload => simp [Unwind.returns_dropping_iff]
  | aborts => simp [Unwind.returns_dropping_iff]

/-- A contained conduct is reported as it is. -/
theorem runAction_of_contained {c : Conduct V} (h : c.Contained) : runAction c = .returns c.yield := by
  cases c with
  | call handler =>
    cases handler with
    | ok future => rfl
    | error payload =>
      have hpanic := actionPanic_of_drop h
      simp [runAction, callHandler_error, hpanic, Conduct.yield]
  | poll polled drop =>
    cases polled with
    | ok output =>
      cases output with
      | pending => rfl
      | ready output =>
        obtain rfl : drop = .ok () := h
        rfl
    | error payload =>
      obtain ⟨hdrop, rfl⟩ := h
      have hpanic := actionPanic_of_drop hdrop
      simp [runAction, awaitAction, pollAction_error, hpanic, Conduct.yield]

/-- What runs outside of the catches decides whether a panic leaves the supervisor, and nothing else. -/
theorem returns_runAction_iff {c : Conduct V} : (runAction c).Returns ↔ c.Contained := by
  refine ⟨fun h => ?_, fun h => ⟨_, runAction_of_contained h⟩⟩
  cases c with
  | call handler =>
    cases handler with
    | ok future => trivial
    | error payload =>
      obtain ⟨_, hcall, -⟩ := Unwind.returns_bind_iff.1 h
      rw [callHandler_error] at hcall
      obtain ⟨e, he, -⟩ := Unwind.returns_bind_iff.1 ⟨_, hcall⟩
      exact returns_actionPanic_iff.1 ⟨e, he⟩
  | poll polled drop =>
    obtain ⟨hpoll, hdrop⟩ := returns_awaitAction_iff.1 h
    cases polled with
    | ok output =>
      cases output with
      | pending => trivial
      | ready output => exact hdrop.resolve_left (fun hpending => by cases hpending)
    | error payload =>
      rw [pollAction_error] at hpoll hdrop
      obtain ⟨e, he, -⟩ := Unwind.returns_bind_iff.1 hpoll
      rw [he] at hdrop
      exact ⟨returns_actionPanic_iff.1 ⟨e, he⟩, hdrop.resolve_left (fun hpending => by cases hpending)⟩

end RunAction

end PluginSdk
