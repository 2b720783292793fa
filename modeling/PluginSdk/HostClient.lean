import PluginSdk.Sender
import PluginSdk.Lib.Lts
import PluginSdk.Lib.Table

/-!
# Concurrent requests to the host

`HostClient::request` and `SessionSender::enqueue` at the granularity of their await points.  Any number of calls run
concurrently; each waits for the sender lock, allocates an ID and registers its waiter under the lock, waits for
channel capacity, enqueues, disarms its guard, and waits for the reply.  At each of the three waits its future may be
dropped.  A plain `send` (a log record, a chunk, an envelope of the session loop) is a call that registers no waiter.
The serve loop routes the replies of the host, one at a time, until one of them fails.
-/

namespace PluginSdk

/-- A waiter in the routing table: the trace that its request carried, and the call whose oneshot it holds. -/
structure PendingResponse where
  expectedTrace : TraceContext
  response : Nat
deriving DecidableEq

abbrev Pending := Table Nat PendingResponse

namespace HostClient

/-- The registration of a waiter under its message ID. -/
def register (pending : Pending) (messageId : Nat) (waiter : PendingResponse) : Except SdkError Pending :=
  match pending.lookup messageId with
  | none => .ok (pending.insert messageId waiter)
  | some _ => .error (.protocol "plugin reused a pending request message ID")

theorem register_eq_ok {pending pending' : Pending} {k : Nat} {w : PendingResponse} :
    register pending k w = .ok pending' ↔ pending.lookup k = none ∧ pending' = pending.insert k w := by
  unfold register
  cases pending.lookup k with
  | none => exact ⟨fun h => (by cases h; exact ⟨rfl, rfl⟩), fun ⟨_, h⟩ => h ▸ rfl⟩
  | some v => exact ⟨fun h => (by cases h), fun ⟨h, _⟩ => (by cases h)⟩

theorem register_eq_error {pending : Pending} {k : Nat} {w : PendingResponse} {e : SdkError} :
    register pending k w = .error e ↔
      k ∈ pending ∧ e = .protocol "plugin reused a pending request message ID" := by
  unfold register
  rw [← AList.lookup_isSome]
  cases pending.lookup k with
  | none => exact ⟨fun h => (by cases h), fun ⟨h, _⟩ => (by cases h)⟩
  | some v => exact ⟨fun h => (by cases h; exact ⟨rfl, rfl⟩), fun ⟨_, h⟩ => h ▸ rfl⟩

/-- `PendingGuard::drop` before the request was sent. -/
def unregister (pending : Pending) (messageId : Nat) : Pending := pending.erase messageId

def noPendingRequest : SdkError := .protocol "response names no pending plugin request"

def traceDiffers : SdkError := .protocol "response trace context differs from its plugin request"

/-- Takes the waiter that a reply names out of the table; the reply is for it if the traces agree. -/
def route (pending : Pending) (replyTo : Nat) (trace : TraceContext) :
    Pending × Except SdkError PendingResponse :=
  match pending.lookup replyTo with
  | none => (pending, .error noPendingRequest)
  | some waiter =>
    (pending.erase replyTo, if waiter.expectedTrace ≠ trace then .error traceDiffers else .ok waiter)

/-- Whatever comes of a reply, the table has no entry under its ID any more. -/
theorem route_fst (pending : Pending) (replyTo : Nat) (trace : TraceContext) :
    (route pending replyTo trace).1 = pending.erase replyTo := by
  unfold route
  cases h : pending.lookup replyTo with
  | none => exact (AList.erase_of_notMem (AList.lookup_eq_none.1 h)).symm
  | some w => rfl

theorem route_snd_eq_ok {pending : Pending} {replyTo : Nat} {trace : TraceContext} {w : PendingResponse} :
    (route pending replyTo trace).2 = .ok w ↔ pending.lookup replyTo = some w ∧ w.expectedTrace = trace := by
  unfold route
  cases pending.lookup replyTo with
  | none => exact ⟨fun h => (by cases h), fun ⟨h, _⟩ => (by cases h)⟩
  | some v =>
    by_cases ht : v.expectedTrace = trace
    · simp only [ht, ne_eq, not_true_eq_false, if_false, Except.ok.injEq, Option.some.injEq]
      exact ⟨fun h => ⟨h, h ▸ ht⟩, fun h => h.1⟩
    · simp only [ne_eq, ht, not_false_eq_true, if_true, Option.some.injEq]
      exact ⟨fun h => (by cases h), fun ⟨h, h'⟩ => absurd (h ▸ h') ht⟩

theorem route_snd_of_none {pending : Pending} {replyTo : Nat} (trace : TraceContext)
    (h : pending.lookup replyTo = none) : (route pending replyTo trace).2 = .error noPendingRequest := by
  unfold route
  rw [h]

/-- What `request` makes of the payload of a reply. -/
def received : Payload → Except SdkError Payload
  | .protocolError error => .error (.host error)
  | payload => .ok payload

end HostClient

/-! ### The calls -/

/-- What a call sends, and whether it registers a waiter for a reply. -/
structure SendSpec where
  replyTo : Option Nat
  trace : TraceContext
  payload : Payload
  registered : Bool

/-- What a call returns: the ID of what it sent, or the payload of the reply. -/
inductive Sent
  | id (messageId : Nat)
  | reply (payload : Payload)

inductive Phase
  /-- Waiting for the sender lock. -/
  | locking
  /-- Holding the lock, with an ID and its waiter registered, waiting for channel capacity. -/
  | sending (id : Nat)
  /-- Enqueued, with the guard still armed; there is no await point here. -/
  | sent (id : Nat)
  /-- Waiting for the reply. -/
  | waiting (id : Nat)
  | done (result : Except SdkError Sent)
  | dropped

/-- The call has been given an ID. -/
def Phase.hasId : Phase → Bool
  | .sending _ | .sent _ | .waiting _ => true
  | .locking | .done _ | .dropped => false

structure RequestCall where
  spec : SendSpec
  phase : Phase

/-- The oneshot channel between the router and a call. -/
inductive Oneshot
  | empty
  | filled (payload : Payload)
  | closed

/-- A reply of the host, as the serve loop hands it to `route`. -/
structure HostReply where
  replyTo : Nat
  trace : TraceContext
  payload : Payload

structure Requests where
  identity : SessionIdentity
  capacity : Nat
  sender : SenderState
  /-- The call that holds the sender lock. -/
  holder : Option Nat
  pending : Pending
  /-- Every envelope that has entered the output channel, in order. -/
  wire : List PluginEnvelope
  /-- How many of them the output stream has taken out. -/
  consumed : Nat
  closed : Bool
  calls : Nat → Option RequestCall
  inbox : Nat → Oneshot
  /-- The error with which the serve loop ended on a reply. -/
  ended : Option SdkError

namespace Requests

/-- A new session: nothing sent, nobody waiting. -/
def init (identity : SessionIdentity) (capacity : Nat) : Requests where
  identity := identity
  capacity := capacity
  sender := { nextMessageId := 1 }
  holder := none
  pending := ∅
  wire := []
  consumed := 0
  closed := false
  calls := fun _ => none
  inbox := fun _ => .empty
  ended := none

def setPhase (s : Requests) (c : Nat) (spec : SendSpec) (phase : Phase) : Requests :=
  { s with calls := Function.update s.calls c (some { spec, phase }) }

/-- Releases the lock of a call that did not enqueue, and drops its guard. -/
def release (s : Requests) (spec : SendSpec) (id : Nat) : Requests :=
  { s with
    holder := none
    pending := if spec.registered then HostClient.unregister s.pending id else s.pending }

inductive Event
  | began (call : Nat) (spec : SendSpec)
  | allocated (call : Nat) (id : Nat)
  | enqueued (call : Nat) (envelope : PluginEnvelope)
  | disarmed (call : Nat)
  | returned (call : Nat) (result : Except SdkError Sent)
  | dropped (call : Nat)
  | consumed
  | closed
  /-- A reply that was routed to a call, or that ended the session. -/
  | routed (reply : HostReply) (result : Except SdkError Nat)

/-- The atomic steps of the calls, the output stream and the router. -/
inductive Step : Requests → Event → Requests → Prop
  | begin {s : Requests} {c : Nat} {spec : SendSpec} : s.calls c = none →
      Step s (.began c spec) (s.setPhase c spec .locking)
  | exhausted {s : Requests} {c : Nat} {spec : SendSpec} {e : SdkError} : s.calls c = some ⟨spec, .locking⟩ →
      s.holder = none → s.sender.allocate = .error e →
      Step s (.returned c (.error e)) (s.setPhase c spec (.done (.error e)))
  | allocate {s : Requests} {c id : Nat} {spec : SendSpec} {sender : SenderState} :
      s.calls c = some ⟨spec, .locking⟩ → s.holder = none → s.sender.allocate = .ok (id, sender) →
      spec.registered = false →
      Step s (.allocated c id) { s.setPhase c spec (.sending id) with sender, holder := some c }
  | register {s : Requests} {c id : Nat} {spec : SendSpec} {sender : SenderState} {pending : Pending} :
      s.calls c = some ⟨spec, .locking⟩ → s.holder = none → s.sender.allocate = .ok (id, sender) →
      spec.registered = true → HostClient.register s.pending id ⟨spec.trace, c⟩ = .ok pending →
      Step s (.allocated c id) { s.setPhase c spec (.sending id) with sender, holder := some c, pending }
  | registerFailed {s : Requests} {c id : Nat} {spec : SendSpec} {sender : SenderState} {e : SdkError} :
      s.calls c = some ⟨spec, .locking⟩ → s.holder = none → s.sender.allocate = .ok (id, sender) →
      spec.registered = true → HostClient.register s.pending id ⟨spec.trace, c⟩ = .error e →
      Step s (.returned c (.error e)) { s.setPhase c spec (.done (.error e)) with sender }
  | enqueue {s : Requests} {c id : Nat} {spec : SendSpec} : s.calls c = some ⟨spec, .sending id⟩ →
      s.closed = false → s.wire.length - s.consumed < s.capacity →
      Step s (.enqueued c (s.identity.envelope id spec.replyTo spec.trace spec.payload))
        { s.setPhase c spec (if spec.registered then .sent id else .done (.ok (.id id))) with
          holder := none
          wire := s.wire ++ [s.identity.envelope id spec.replyTo spec.trace spec.payload] }
  | sendFailed {s : Requests} {c id : Nat} {spec : SendSpec} : s.calls c = some ⟨spec, .sending id⟩ →
      s.closed = true →
      Step s (.returned c (.error outputClosed)) ((s.setPhase c spec (.done (.error outputClosed))).release spec id)
  | disarm {s : Requests} {c id : Nat} {spec : SendSpec} : s.calls c = some ⟨spec, .sent id⟩ →
      Step s (.disarmed c) (s.setPhase c spec (.waiting id))
  | receive {s : Requests} {c id : Nat} {spec : SendSpec} {payload : Payload} :
      s.calls c = some ⟨spec, .waiting id⟩ → s.inbox c = .filled payload →
      Step s (.returned c ((HostClient.received payload).map .reply))
        (s.setPhase c spec (.done ((HostClient.received payload).map .reply)))
  | receiveFailed {s : Requests} {c id : Nat} {spec : SendSpec} : s.calls c = some ⟨spec, .waiting id⟩ →
      s.inbox c = .closed →
      Step s (.returned c (.error (.runtime "wait for host response" "channel closed")))
        (s.setPhase c spec (.done (.error (.runtime "wait for host response" "channel closed"))))
  | dropLocking {s : Requests} {c : Nat} {spec : SendSpec} : s.calls c = some ⟨spec, .locking⟩ →
      Step s (.dropped c) (s.setPhase c spec .dropped)
  | dropSending {s : Requests} {c id : Nat} {spec : SendSpec} : s.calls c = some ⟨spec, .sending id⟩ →
      Step s (.dropped c) ((s.setPhase c spec .dropped).release spec id)
  | dropWaiting {s : Requests} {c id : Nat} {spec : SendSpec} : s.calls c = some ⟨spec, .waiting id⟩ →
      Step s (.dropped c) (s.setPhase c spec .dropped)
  | consume {s : Requests} : s.closed = false → s.consumed < s.wire.length →
      Step s .consumed { s with consumed := s.consumed + 1 }
  | close {s : Requests} : Step s .closed { s with closed := true }
  | route {s : Requests} {reply : HostReply} {trace : TraceContext} {c : Nat} : s.ended = none →
      (HostClient.route s.pending reply.replyTo reply.trace).2 = .ok ⟨trace, c⟩ →
      Step s (.routed reply (.ok c))
        { s with
          pending := (HostClient.route s.pending reply.replyTo reply.trace).1
          inbox := Function.update s.inbox c (.filled reply.payload) }
  | routeFailed {s : Requests} {reply : HostReply} {e : SdkError} : s.ended = none →
      (HostClient.route s.pending reply.replyTo reply.trace).2 = .error e →
      Step s (.routed reply (.error e))
        { s with
          pending := (HostClient.route s.pending reply.replyTo reply.trace).1
          inbox := match s.pending.lookup reply.replyTo with
            | some waiter => Function.update s.inbox waiter.response .closed
            | none => s.inbox
          ended := some e }

end Requests

end PluginSdk
