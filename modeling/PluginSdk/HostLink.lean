import PluginSdk.HostClient

/-!
# The link to the host

What the session and its actions share of the sender and of the routing table, with the sender lock resolved: an
envelope is allocated its ID and enqueued in one step, except that a request first reserves its ID and registers its
waiter, and holds the lock until it is enqueued or given up.  An ID whose enqueue was given up is burned.
-/

namespace PluginSdk

/-- What a sender hands to `SessionSender`. -/
structure Outgoing where
  replyTo : Option Nat
  trace : TraceContext
  payload : Payload

/-- A request that holds the sender lock: its ID is allocated and its waiter registered. -/
structure Reservation where
  call : Nat
  id : Nat
  outgoing : Outgoing

structure HostLink where
  identity : SessionIdentity
  capacity : Nat
  sender : SenderState
  reserved : Option Reservation
  pending : Pending
  /-- Every envelope that has entered the output channel, in order. -/
  wire : List PluginEnvelope
  /-- How many of them the output stream has taken out. -/
  consumed : Nat
  closed : Bool

def SessionIdentity.stamp (identity : SessionIdentity) (id : Nat) (o : Outgoing) : PluginEnvelope :=
  identity.envelope id o.replyTo o.trace o.payload

namespace HostLink

def init (identity : SessionIdentity) (capacity : Nat) : HostLink where
  identity := identity
  capacity := capacity
  sender := { nextMessageId := 1 }
  reserved := none
  pending := ∅
  wire := []
  consumed := 0
  closed := false

/-- The output channel has room for one more envelope. -/
def HasRoom (l : HostLink) : Prop := l.wire.length - l.consumed < l.capacity

instance (l : HostLink) : Decidable l.HasRoom := inferInstanceAs (Decidable (_ < _))

/-- `send`: the envelope that is enqueued, under the next ID, or the error. -/
def send (l : HostLink) (o : Outgoing) : HostLink × Except SdkError PluginEnvelope :=
  match l.sender.allocate with
  | .error e => (l, .error e)
  | .ok (id, sender) =>
    if l.closed then ({ l with sender }, .error outputClosed)
    else ({ l with sender, wire := l.wire ++ [l.identity.stamp id o] }, .ok (l.identity.stamp id o))

/-- The first half of a request: its ID and its waiter. -/
def reserve (l : HostLink) (call : Nat) (o : Outgoing) : HostLink × Except SdkError Nat :=
  match l.sender.allocate with
  | .error e => (l, .error e)
  | .ok (id, sender) =>
    match HostClient.register l.pending id ⟨o.trace, call⟩ with
    | .error e => ({ l with sender }, .error e)
    | .ok pending => ({ l with sender, pending, reserved := some ⟨call, id, o⟩ }, .ok id)

/-- The second half of a request: its envelope. -/
def commit (l : HostLink) (r : Reservation) : HostLink :=
  { l with reserved := none, wire := l.wire ++ [l.identity.stamp r.id r.outgoing] }

/-- A request that is given up between its halves: its guard takes the waiter out again. -/
def release (l : HostLink) (r : Reservation) : HostLink :=
  { l with reserved := none, pending := HostClient.unregister l.pending r.id }

/-- An ID is allocated to a sender that then gives up. -/
def burn (l : HostLink) : HostLink :=
  match l.sender.allocate with
  | .error _ => l
  | .ok (_, sender) => { l with sender }

/-- A reply is routed: the call that it is for, or the error. -/
def route (l : HostLink) (replyTo : Nat) (trace : TraceContext) : HostLink × Except SdkError Nat :=
  ({ l with pending := (HostClient.route l.pending replyTo trace).1 },
    (HostClient.route l.pending replyTo trace).2.map (·.response))

/-- The handshake sends the hello of the plugin and its ready message. -/
def handshake (l : HostLink) (trace : TraceContext) (hello : PluginHello) : HostLink :=
  ((l.send ⟨none, trace, .pluginHello hello⟩).1.send ⟨none, trace, .ready⟩).1

/-- An accepted envelope is stamped with the next ID and comes last on the wire. -/
theorem send_eq_ok {l l' : HostLink} {o : Outgoing} {env : PluginEnvelope} (h : l.send o = (l', .ok env)) :
    env = l.identity.stamp l.sender.nextMessageId o ∧
      l' = { l with sender := ⟨l.sender.nextMessageId + 1⟩, wire := l.wire ++ [env] } := by
  unfold send at h
  cases ha : l.sender.allocate with
  | error e => simp [ha] at h
  | ok r =>
    obtain ⟨id, ⟨next⟩⟩ := r
    obtain ⟨rfl, rfl, -⟩ := SenderState.allocate_eq_ok.1 ha
    simp only [ha] at h
    split at h
    · simp at h
    · simp only [Prod.mk.injEq, Except.ok.injEq] at h
      obtain ⟨rfl, rfl⟩ := h
      exact ⟨rfl, rfl⟩

/-- Nothing is accepted once the output channel is closed. -/
theorem closed_of_send {l l' : HostLink} {o : Outgoing} {env : PluginEnvelope} (h : l.send o = (l', .ok env)) :
    l.closed = false := by
  unfold send at h
  split at h
  · simp at h
  · split at h
    · simp at h
    · rename_i hclosed
      simpa using hclosed

/-- A failed send changes nothing but the next ID. -/
theorem send_eq_error {l l' : HostLink} {o : Outgoing} {e : SdkError} (h : l.send o = (l', .error e)) :
    l' = { l with sender := l'.sender } := by
  unfold send at h
  split at h
  · simp only [Prod.mk.injEq] at h
    rw [← h.1]
  · split at h
    · simp only [Prod.mk.injEq] at h
      rw [← h.1]
    · simp at h

/-- A reservation has the next ID and the waiter of its call. -/
theorem reserve_eq_ok {l l' : HostLink} {call id : Nat} {o : Outgoing} (h : l.reserve call o = (l', .ok id)) :
    id = l.sender.nextMessageId ∧
      l' = { l with
        sender := ⟨id + 1⟩
        pending := l.pending.insert id ⟨o.trace, call⟩
        reserved := some ⟨call, id, o⟩ } := by
  unfold reserve at h
  cases ha : l.sender.allocate with
  | error e => simp [ha] at h
  | ok r =>
    obtain ⟨id', ⟨next⟩⟩ := r
    obtain ⟨rfl, rfl, -⟩ := SenderState.allocate_eq_ok.1 ha
    simp only [ha] at h
    cases hr : HostClient.register l.pending l.sender.nextMessageId ⟨o.trace, call⟩ with
    | error e => simp [hr] at h
    | ok pending =>
      obtain ⟨-, rfl⟩ := HostClient.register_eq_ok.1 hr
      simp only [hr, Prod.mk.injEq, Except.ok.injEq] at h
      obtain ⟨rfl, rfl⟩ := h
      exact ⟨rfl, rfl⟩

/-- A failed reservation changes nothing but the next ID. -/
theorem reserve_eq_error {l l' : HostLink} {call : Nat} {o : Outgoing} {e : SdkError}
    (h : l.reserve call o = (l', .error e)) : l' = { l with sender := l'.sender } := by
  unfold reserve at h
  split at h
  · simp only [Prod.mk.injEq] at h
    rw [← h.1]
  · split at h
    · simp only [Prod.mk.injEq] at h
      rw [← h.1]
    · simp at h

theorem burn_eq (l : HostLink) : l.burn = { l with sender := l.burn.sender } := by
  unfold burn
  split <;> rfl

/-- Routing changes nothing but the table of waiters. -/
theorem route_eq {l l' : HostLink} {replyTo : Nat} {trace : TraceContext} {r : Except SdkError Nat}
    (h : l.route replyTo trace = (l', r)) : l' = { l with pending := l.pending.erase replyTo } := by
  unfold route at h
  rw [HostClient.route_fst] at h
  exact (congrArg Prod.fst h).symm

/-- A reply to a registered request is handed to its call. -/
theorem route_of_lookup {l : HostLink} {replyTo call : Nat} {trace : TraceContext}
    (h : l.pending.lookup replyTo = some ⟨trace, call⟩) :
    l.route replyTo trace = ({ l with pending := l.pending.erase replyTo }, .ok call) := by
  unfold route
  rw [HostClient.route_fst, HostClient.route_snd_eq_ok.2 ⟨h, rfl⟩]
  rfl

end HostLink

end PluginSdk
