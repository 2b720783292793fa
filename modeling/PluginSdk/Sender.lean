import PluginSdk.Validation

/-!
# Envelopes and message IDs

Both directions of the stream.  Inbound, `validateEnvelope` accepts an envelope of the session with a larger message
ID and a trace within the negotiated limits.  Outbound, the sender hands out message IDs under its lock and stamps
the session's identity on every envelope.
-/

namespace PluginSdk

/-- `checked_add` on `u64`. -/
def checkedAddU64 (a b : Nat) : Option Nat := if a + b < 2 ^ 64 then some (a + b) else none

theorem checkedAddU64_eq_some {a b n : Nat} (h : checkedAddU64 a b = some n) : n = a + b := by
  unfold checkedAddU64 at h
  split at h
  · exact (Option.some.inj h).symm
  · cases h

theorem checkedAddU64_lt {a b n : Nat} (h : checkedAddU64 a b = some n) : n < 2 ^ 64 := by
  unfold checkedAddU64 at h
  split at h
  · rwa [← Option.some.inj h]
  · cases h

/-- `checked_add` on `u32`. -/
def checkedAddU32 (a b : Nat) : Option Nat := if a + b < 2 ^ 32 then some (a + b) else none

/-- The bound of the output channel. -/
def outgoingCapacity : Nat := 256

structure SessionIdentity where
  sessionId : String
  instanceId : String
deriving DecidableEq

/-! ### Inbound envelopes -/

structure SessionState where
  identity : SessionIdentity
  lastHostMessageId : Nat
  maximumCallDepth : Nat
  maximumCausalDepth : Nat
deriving DecidableEq

/-- The checks of `run_session` on the first envelope: the greeting of the host, its trace, and the session that it
opens. -/
def openSession (pluginId : String) (first : PluginEnvelope) :
    Except SdkError (HostHello × TraceContext × SessionState) :=
  if first.messageId = 0 then .error (.protocol "host message IDs must be nonzero and strictly increasing")
  else if first.sessionId = "" ∨ first.pluginInstanceId = "" then
    .error (.protocol "HostHello envelope omitted its session or instance identity")
  else if first.replyTo.isSome then .error (.protocol "HostHello must not reply to another message")
  else
    match first.payload with
    | some (.hostHello hello) => do
      Validation.hostHello pluginId hello
      let trace ← Validation.trace first hello.maximumCallDepth hello.maximumCausalDepth
      .ok (hello, trace,
        { identity := { sessionId := first.sessionId, instanceId := first.pluginInstanceId }
          lastHostMessageId := first.messageId
          maximumCallDepth := hello.maximumCallDepth
          maximumCausalDepth := hello.maximumCausalDepth })
    | _ => .error (.protocol "HostHello must be the first host message")

/-- The trace of a valid envelope, and the session that has accepted its message ID. -/
def validateEnvelope (envelope : PluginEnvelope) (session : SessionState) :
    Except SdkError (TraceContext × SessionState) :=
  if envelope.messageId = 0 ∨ envelope.messageId ≤ session.lastHostMessageId then
    .error (.protocol "host message IDs must be nonzero and strictly increasing")
  else if envelope.sessionId ≠ session.identity.sessionId ∨
      envelope.pluginInstanceId ≠ session.identity.instanceId then
    .error (.protocol "host envelope belongs to another plugin instance")
  else do
    let trace ← Validation.trace envelope session.maximumCallDepth session.maximumCausalDepth
    .ok (trace, { session with lastHostMessageId := envelope.messageId })

/-- A trace that passes the check of `Validation.trace`. -/
structure TraceContext.Within (trace : TraceContext) (maximumCallDepth maximumCausalDepth : Nat) : Prop where
  correlation : trace.correlationId ≠ ""
  call : trace.callDepth ≤ maximumCallDepth
  causal : trace.causalDepth ≤ maximumCausalDepth

private theorem trace_eq_ok {envelope : PluginEnvelope} {call causal : Nat} {trace : TraceContext} :
    Validation.trace envelope call causal = .ok trace ↔
      envelope.trace = some trace ∧ trace.Within call causal := by
  unfold Validation.trace
  cases henv : envelope.trace with
  | none => simp
  | some t =>
    by_cases hc : t.correlationId = ""
    · simp only [Option.filter, hc, bne_self_eq_false, Bool.false_eq_true, if_false, Option.some.injEq]
      exact ⟨fun h => (by cases h), fun ⟨h, hw⟩ => absurd (h ▸ hc) hw.correlation⟩
    · simp only [Option.filter, bne_iff_ne.2 hc, if_true, Option.some.injEq]
      split
      · rename_i hd
        exact ⟨fun h => (by cases h), fun ⟨h, hw⟩ => by
          subst h
          exact absurd hd (by have := hw.call; have := hw.causal; omega)⟩
      · rename_i hd
        constructor
        · intro h
          cases h
          exact ⟨rfl, hc, by omega, by omega⟩
        · rintro ⟨rfl, -⟩
          rfl

/-- What `validateEnvelope` accepts. -/
theorem validateEnvelope_eq_ok {envelope : PluginEnvelope} {session session' : SessionState} {trace : TraceContext} :
    validateEnvelope envelope session = .ok (trace, session') ↔
      session.lastHostMessageId < envelope.messageId ∧
      envelope.sessionId = session.identity.sessionId ∧
      envelope.pluginInstanceId = session.identity.instanceId ∧
      envelope.trace = some trace ∧ trace.Within session.maximumCallDepth session.maximumCausalDepth ∧
      session' = { session with lastHostMessageId := envelope.messageId } := by
  unfold validateEnvelope
  split
  · rename_i h
    exact ⟨fun h' => (by cases h'), fun h' => by omega⟩
  · split
    · rename_i h
      exact ⟨fun h' => (by cases h'), fun h' => by simp [h'.2.1, h'.2.2.1] at h⟩
    · rename_i hid hsession
      rw [bind_eq_ok]
      simp only [not_or, ne_eq, Decidable.not_not] at hsession
      constructor
      · rintro ⟨t, ht, h⟩
        cases h
        obtain ⟨htrace, hw⟩ := trace_eq_ok.1 ht
        exact ⟨by omega, hsession.1, hsession.2, htrace, hw, rfl⟩
      · rintro ⟨-, -, -, htrace, hw, rfl⟩
        exact ⟨trace, trace_eq_ok.2 ⟨htrace, hw⟩, rfl⟩

/-- The trace of the greeting is within the limits that it sets. -/
theorem openSession_eq_ok {pluginId : String} {first : PluginEnvelope} {hello : HostHello} {trace : TraceContext}
    {session : SessionState} (h : openSession pluginId first = .ok (hello, trace, session)) :
    Validation.hostHello pluginId hello = .ok () ∧ first.payload = some (.hostHello hello) ∧
      first.trace = some trace ∧ trace.Within session.maximumCallDepth session.maximumCausalDepth ∧
      session.maximumCallDepth = hello.maximumCallDepth ∧ session.maximumCausalDepth = hello.maximumCausalDepth ∧
      session.identity = ⟨first.sessionId, first.pluginInstanceId⟩ ∧ session.lastHostMessageId = first.messageId := by
  unfold openSession at h
  split at h
  · cases h
  · split at h
    · cases h
    · split at h
      · cases h
      · split at h
        · rename_i hpayload
          obtain ⟨_, hhello, h⟩ := bind_eq_ok.1 h
          obtain ⟨t, ht, h⟩ := bind_eq_ok.1 h
          cases h
          obtain ⟨htrace, hw⟩ := trace_eq_ok.1 ht
          exact ⟨hhello, hpayload, htrace, hw, rfl, rfl, rfl, rfl⟩
        · cases h

/-! ### Outbound envelopes -/

structure SenderState where
  nextMessageId : Nat
deriving DecidableEq

/-- The ID of the next envelope. -/
def SenderState.allocate (state : SenderState) : Except SdkError (Nat × SenderState) :=
  match checkedAddU64 state.nextMessageId 1 with
  | some next => .ok (state.nextMessageId, { nextMessageId := next })
  | none => .error (.protocol "plugin exhausted message IDs")

theorem SenderState.allocate_eq_ok {state state' : SenderState} {id : Nat} :
    state.allocate = .ok (id, state') ↔
      id = state.nextMessageId ∧ state'.nextMessageId = state.nextMessageId + 1 ∧
      state.nextMessageId + 1 < 2 ^ 64 := by
  unfold allocate checkedAddU64
  by_cases h : state.nextMessageId + 1 < 2 ^ 64
  · rw [if_pos h]
    constructor
    · intro he
      cases he
      exact ⟨rfl, rfl, h⟩
    · rintro ⟨rfl, hs, -⟩
      cases state'
      cases hs
      rfl
  · rw [if_neg h]
    exact ⟨fun he => (by cases he), fun he => absurd he.2.2 h⟩

theorem SenderState.allocate_eq_error {state : SenderState} {e : SdkError} :
    state.allocate = .error e ↔
      2 ^ 64 ≤ state.nextMessageId + 1 ∧ e = .protocol "plugin exhausted message IDs" := by
  unfold allocate checkedAddU64
  by_cases h : state.nextMessageId + 1 < 2 ^ 64
  · rw [if_pos h]
    exact ⟨fun he => (by cases he), fun he => by omega⟩
  · rw [if_neg h]
    constructor
    · intro he
      cases he
      exact ⟨by omega, rfl⟩
    · rintro ⟨-, rfl⟩
      rfl

/-- The envelope that a sender of the session puts on the wire. -/
def SessionIdentity.envelope (identity : SessionIdentity) (messageId : Nat) (replyTo : Option Nat)
    (trace : TraceContext) (payload : Payload) : PluginEnvelope :=
  { messageId
    replyTo
    sessionId := identity.sessionId
    pluginInstanceId := identity.instanceId
    trace := some trace
    payload := some payload }

def outputClosed : SdkError := .transport "plugin output stream closed"

end PluginSdk
