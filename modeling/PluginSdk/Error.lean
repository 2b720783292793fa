import PluginSdk.Protocol

/-!
# Errors of the SDK

`SdkError` with its message and the protocol form in which it is sent to the host.  The boxed source of a runtime
failure is kept as its text, so its `Display` and its `Drop`, which may be code of the user, are taken to return.
-/

namespace PluginSdk

inductive SdkError
  | environment (message : String)
  | invalidArgument (message : String)
  | transport (message : String)
  | protocol (message : String)
  | host (error : ProtocolError)
  | action (message : String)
  | cancelled
  /-- `source` is what the `Display` of the boxed error has written. -/
  | runtime (operation : String) (source : String)
deriving DecidableEq

namespace SdkError

/-- The `Display` form. -/
def display : SdkError → String
  | environment message | invalidArgument message | transport message | protocol message | action message => message
  | host error => error.message
  | cancelled => "action was cancelled"
  | runtime operation source => operation ++ ": " ++ source

/-- The code of an error that did not come from the host. -/
def localCode : SdkError → ErrorCode
  | invalidArgument _ => .invalidArgument
  | environment _ | transport _ | runtime _ _ => .unavailable
  | protocol _ => .failedPrecondition
  | action _ => .internal
  | cancelled => .cancelled
  | host _ => .unspecified

def retryable : SdkError → Bool
  | environment _ | transport _ | runtime _ _ => true
  | _ => false

def protocolError : SdkError → ProtocolError
  | host error => error
  | error =>
    { code := error.localCode.toInt
      message := error.display
      retryable := error.retryable
      metadata := []
      details := [] }

end SdkError

/-- A sequence of fallible steps succeeds when both steps do. -/
theorem bind_eq_ok {α β : Type} {x : Except SdkError α} {f : α → Except SdkError β} {b : β} :
    (x >>= f) = .ok b ↔ ∃ a, x = .ok a ∧ f a = .ok b := by
  constructor
  · intro h
    cases x with
    | error e => cases h
    | ok a => exact ⟨a, rfl, h⟩
  · rintro ⟨a, rfl, h⟩
    exact h

end PluginSdk
