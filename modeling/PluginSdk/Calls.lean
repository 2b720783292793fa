import PluginSdk.Serve

/-!
# Calls through a context

The calls that actions make through the contexts of their jobs, at the granularity of their loads of the cancellation
value.  A poll of a `select!` loads the value first; only if the poll has found it active does it go on to the other
future, and that one may enqueue at once.  Between the load and the enqueue nothing keeps the session loop or another
task from going on.
-/

namespace PluginSdk

/-! ### Operations -/

/-- The methods of `ActionContext` that reach the host. -/
inductive Operation
  | hostCall (call : HostCall)
  | getConfig (path : Option ConfigPath)
  | invokeConfigFunction (function : ConfigFunctionRef) (arguments : List ConfigValue)
  | log (level : LogLevel) (target message : String) (fields : List (String × ConfigValue))
  | storeArtifact (descriptor : ArtifactDescriptor)

inductive Returned
  | response (response : HostCallResponse)
  | configured (response : GetConfigResponse)
  | invoked (response : InvokeConfigFunctionResponse)
  | logged
  | stored (artifact : StoredArtifact)

def Operation.program (platform : Platform) (context : ActionContext) : Operation → ContextProgram Returned
  | hostCall call => do
    let response ← context.hostCall call
    pure (.response response)
  | getConfig path => do
    let response ← context.getConfig path
    pure (.configured response)
  | invokeConfigFunction function arguments => do
    let response ← context.invokeConfigFunction function arguments
    pure (.invoked response)
  | log level target message fields => do
    context.log level target message fields
    pure .logged
  | storeArtifact descriptor => do
    let artifact ← context.storeArtifact platform descriptor
    pure (.stored artifact)

/-- A log record is checked, and then sent at once. -/
theorem Operation.log_program (platform : Platform) (context : ActionContext) {level : LogLevel}
    {target message : String} {fields : List (String × ConfigValue)} (hlevel : level ≠ .unspecified)
    (htarget : target ≠ "") (hfields : ActionContext.validateFields fields = .ok ()) :
    ((Operation.log level target message fields).program platform context).run =
      .op .ensureActive fun (active : Bool) =>
        if active then
          .op .now fun timestamp =>
            if validTimestamp timestamp then
              .op (.send context.trace (.log ⟨some timestamp, level, target, message, fields⟩)) fun r =>
                .pure ((ContextProgram.selected r).map fun _ => .logged)
            else .pure (.error (.environment "system clock is outside the protobuf Timestamp domain"))
        else .pure (.error .cancelled) := by
  simp only [Operation.program, ActionContext.log, if_neg hlevel, if_neg htarget, hfields]
  refine congrArg (Program.op ContextOp.ensureActive) (funext fun active => ?_)
  cases (active : Bool) with
  | false => rfl
  | true =>
    refine congrArg (Program.op ContextOp.now) (funext fun timestamp => ?_)
    change ExceptT.run ((if validTimestamp timestamp then
      ContextProgram.send context.trace (.log ⟨some timestamp, level, target, message, fields⟩)
      else ContextProgram.lift (.error (.environment "system clock is outside the protobuf Timestamp domain"))) >>=
        fun _ => pure Returned.logged) = _
    by_cases ht : validTimestamp timestamp
    · rw [if_pos ht, if_pos ht]
      refine congrArg (Program.op _) (funext fun r => ?_)
      rcases r with _ | (_ | _) <;> rfl
    · rw [if_neg ht, if_neg ht]
      rfl

/-- The artifact that a call has stored. -/
def Returned.artifacts : Except SdkError Returned → List StoredArtifact
  | .ok (.stored artifact) => [artifact]
  | _ => []

namespace ContextOp

/-- The result of a `select!` whose first poll of `cancelled()` is ready; only these operations are raced. -/
def cancelled : (o : ContextOp) → Option o.Reply
  | ensureActive | now => none
  | send _ _ => some (Selected.cancelled : Selected (Except SdkError Unit))
  | request _ _ => some (Selected.cancelled : Selected (Except SdkError Payload))
  | streamPosition | seekStart _ => some (Selected.cancelled : Selected (Except String Nat))
  | read _ | readExact _ => some (Selected.cancelled : Selected (Except String (List UInt8)))

/-- What the source of an artifact can answer with. -/
def Io : (o : ContextOp) → o.Reply → Prop
  | streamPosition, r | seekStart _, r => ∃ result, r = Selected.ready (α := Except String Nat) result
  | read limit, r => ∃ result, r = Selected.ready (α := Except String (List UInt8)) result ∧
      ∀ bytes, result = .ok bytes → bytes.length ≤ limit
  | readExact length, r => ∃ result, r = Selected.ready (α := Except String (List UInt8)) result ∧
      ∀ bytes, result = .ok bytes → bytes.length = length
  | _, _ => False

end ContextOp

/-! ### A running call -/

/-- A request under way: its message ID, whether it is enqueued, and the reply in its oneshot. -/
structure Ticket where
  id : Nat
  sent : Bool
  reply : Option Payload

/-- A call whose future is alive. -/
structure ContextCall where
  actor : Actor
  context : ActionContext
  program : Program ContextOp ContextOp.Reply (Except SdkError Returned)
  /-- The current poll has found the cancellation value active, and polls the other future. -/
  polled : Bool
  ticket : Option Ticket

namespace ContextCall

/-- The operation under way is answered. -/
def resume (c : ContextCall) (program : Program ContextOp ContextOp.Reply (Except SdkError Returned)) : ContextCall :=
  { c with program, polled := false, ticket := none }

/-- The call waits for the sender lock no more, and holds it: its request has an ID and is not enqueued. -/
def Holds (c : ContextCall) : Prop := ∃ t, c.ticket = some t ∧ t.sent = false

/-- The value that the context shares with the session loop. -/
def IsActive (c : ContextCall) (s : Serve) : Prop := s.cells c.context.cancellation = .active

instance (c : ContextCall) (s : Serve) : Decidable (c.IsActive s) := inferInstanceAs (Decidable (_ = _))

/-- The steps of one call, and what they do to the link. -/
inductive Step (call : Nat) : Serve → ContextCall → ServeEvent → Serve → ContextCall → Prop
  | ensureActive {s : Serve} {c : ContextCall} {k : Bool → _} : s.CanAct c.actor → c.program = .op .ensureActive k →
      Step call s c (.internal c.actor call) s (c.resume (k (decide (c.IsActive s))))
  | now {s : Serve} {c : ContextCall} {timestamp : Timestamp} {k : Timestamp → _} : s.CanAct c.actor →
      c.program = .op .now k → Step call s c (.internal c.actor call) s (c.resume (k timestamp))
  /-- The load of `cancelled()` at the start of a poll. -/
  | poll {s : Serve} {c : ContextCall} {o : ContextOp} {k : o.Reply → _} : s.CanAct c.actor → c.program = .op o k →
      o.cancelled.isSome → c.polled = false → c.IsActive s →
      Step call s c (.internal c.actor call) s { c with polled := true }
  | cancelled {s : Serve} {c : ContextCall} {o : ContextOp} {k : o.Reply → _} {r : o.Reply} : s.CanAct c.actor →
      c.program = .op o k → o.cancelled = some r → c.polled = false → ¬ c.IsActive s → ¬ c.Holds →
      Step call s c (.internal c.actor call) s (c.resume (k r))
  /-- The dropped request takes its waiter out of the routing table and lets go of the lock. -/
  | cancelledReserved {s : Serve} {c : ContextCall} {o : ContextOp} {k : o.Reply → _} {r : o.Reply}
      {reservation : Reservation} : s.CanAct c.actor → c.program = .op o k → o.cancelled = some r →
      c.polled = false → ¬ c.IsActive s → c.Holds → s.link.reserved = some reservation → reservation.call = call →
      Step call s c (.released call) { s with link := s.link.release reservation } (c.resume (k r))
  /-- The poll ends with nothing ready. -/
  | suspend {s : Serve} {c : ContextCall} : s.CanAct c.actor → c.polled = true →
      Step call s c (.internal c.actor call) s { c with polled := false }
  | io {s : Serve} {c : ContextCall} {o : ContextOp} {k : o.Reply → _} {r : o.Reply} : s.CanAct c.actor →
      c.program = .op o k → c.polled = true → o.Io r → Step call s c (.internal c.actor call) s (c.resume (k r))
  | emit {s : Serve} {c : ContextCall} {trace : TraceContext} {payload : Payload}
      {k : Selected (Except SdkError Unit) → _} {link : HostLink} {env : PluginEnvelope} : s.CanAct c.actor →
      c.program = .op (.send trace payload) k → c.polled = true → s.link.reserved = none → s.link.HasRoom →
      s.link.send ⟨none, trace, payload⟩ = (link, .ok env) →
      Step call s c (.emitted c.actor call env) { s with link } (c.resume (k (.ready (.ok ()))))
  | emitFailed {s : Serve} {c : ContextCall} {trace : TraceContext} {payload : Payload}
      {k : Selected (Except SdkError Unit) → _} {link : HostLink} {e : SdkError} : s.CanAct c.actor →
      c.program = .op (.send trace payload) k → c.polled = true → s.link.reserved = none →
      s.link.send ⟨none, trace, payload⟩ = (link, .error e) →
      Step call s c (.refused c.actor call e) { s with link } (c.resume (k (.ready (.error e))))
  | reserve {s : Serve} {c : ContextCall} {trace : TraceContext} {payload : Payload}
      {k : Selected (Except SdkError Payload) → _} {link : HostLink} {id : Nat} : s.CanAct c.actor →
      c.program = .op (.request trace payload) k → c.polled = true → c.ticket = none → s.link.reserved = none →
      s.link.reserve call ⟨none, trace, payload⟩ = (link, .ok id) →
      Step call s c (.reserved c.actor call id) { s with link } { c with ticket := some ⟨id, false, none⟩ }
  | reserveFailed {s : Serve} {c : ContextCall} {trace : TraceContext} {payload : Payload}
      {k : Selected (Except SdkError Payload) → _} {link : HostLink} {e : SdkError} : s.CanAct c.actor →
      c.program = .op (.request trace payload) k → c.polled = true → c.ticket = none → s.link.reserved = none →
      s.link.reserve call ⟨none, trace, payload⟩ = (link, .error e) →
      Step call s c (.refused c.actor call e) { s with link } (c.resume (k (.ready (.error e))))
  | commit {s : Serve} {c : ContextCall} {trace : TraceContext} {payload : Payload}
      {k : Selected (Except SdkError Payload) → _} {id : Nat} {reply : Option Payload} : s.CanAct c.actor →
      c.program = .op (.request trace payload) k → c.polled = true → c.ticket = some ⟨id, false, reply⟩ →
      s.link.reserved = some ⟨call, id, ⟨none, trace, payload⟩⟩ → s.link.closed = false → s.link.HasRoom →
      Step call s c (.emitted c.actor call (s.link.identity.stamp id ⟨none, trace, payload⟩))
        { s with link := s.link.commit ⟨call, id, ⟨none, trace, payload⟩⟩ }
        { c with ticket := some ⟨id, true, reply⟩ }
  | commitFailed {s : Serve} {c : ContextCall} {trace : TraceContext} {payload : Payload}
      {k : Selected (Except SdkError Payload) → _} {id : Nat} {reply : Option Payload} : s.CanAct c.actor →
      c.program = .op (.request trace payload) k → c.polled = true → c.ticket = some ⟨id, false, reply⟩ →
      s.link.reserved = some ⟨call, id, ⟨none, trace, payload⟩⟩ → s.link.closed = true →
      Step call s c (.refused c.actor call outputClosed)
        { s with link := s.link.release ⟨call, id, ⟨none, trace, payload⟩⟩ }
        (c.resume (k (.ready (.error outputClosed))))
  | answer {s : Serve} {c : ContextCall} {trace : TraceContext} {payload answer : Payload}
      {k : Selected (Except SdkError Payload) → _} {id : Nat} : s.CanAct c.actor →
      c.program = .op (.request trace payload) k → c.polled = true → c.ticket = some ⟨id, true, some answer⟩ →
      Step call s c (.internal c.actor call) s (c.resume (k (.ready (HostClient.received answer))))
  /-- The waiter was taken out of the routing table without a reply. -/
  | disconnect {s : Serve} {c : ContextCall} {trace : TraceContext} {payload : Payload}
      {k : Selected (Except SdkError Payload) → _} {id : Nat} : s.CanAct c.actor →
      c.program = .op (.request trace payload) k → c.polled = true → c.ticket = some ⟨id, true, none⟩ →
      s.link.pending.lookup id = none →
      Step call s c (.internal c.actor call) s
        (c.resume (k (.ready (.error (.runtime "wait for host response" "channel closed")))))

theorem Step.ensureActive_of_active {call : Nat} {s : Serve} {c : ContextCall} {k : Bool → _} (ha : s.CanAct c.actor)
    (hp : c.program = .op .ensureActive k) (hactive : c.IsActive s) :
    Step call s c (.internal c.actor call) s (c.resume (k true)) := by
  have hs : Step call s c (.internal c.actor call) s (c.resume (k (decide (c.IsActive s)))) := .ensureActive ha hp
  rwa [decide_eq_true hactive] at hs

end ContextCall

end PluginSdk
