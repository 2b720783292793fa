import PluginSdk.Serve

/-!
# The handshake

`run_session` from its first envelope on.  The greeting of the host opens the session and fixes its identity and its
limits; the plugin greets back, waits for the ready message of the host, sends its own, and only then serves.  The
output stream takes out what has been sent, and may go away, at any point.
-/

namespace PluginSdk

open Lts

structure Plugin where
  pluginId : String
  version : String
  actions : Table String RegisteredAction
  maximumConcurrentJobs : Nat

/-- The greeting of the plugin, under the name that the host has given it. -/
def Plugin.hello (plugin : Plugin) (hello : HostHello) : PluginHello :=
  { pluginId := some plugin.pluginId
    pluginName := hello.pluginName
    actions := plugin.actions.toPairs.map fun entry => ⟨entry.1, entry.2.description⟩
    pluginVersion := plugin.version }

/-- A session that the first envelope of the host has opened. -/
structure Opening (plugin : Plugin) where
  first : PluginEnvelope
  hello : HostHello
  trace : TraceContext
  session : SessionState
  valid : openSession plugin.pluginId first = .ok (hello, trace, session)

/-- What the serve loop is started with. -/
def Opening.setup {plugin : Plugin} (o : Opening plugin) (session : SessionState) : Setup where
  session := session
  host := ⟨session.identity.sessionId, o.hello.maximumArtifactChunkBytes, o.hello.maximumCallDepth⟩
  handshakeTrace := o.trace
  hello := plugin.hello o.hello
  actions := plugin.actions
  maximumConcurrentJobs := plugin.maximumConcurrentJobs

/-- The checks on the second envelope of the host. -/
def receiveReady (ready : PluginEnvelope) (handshakeTrace : TraceContext) (session : SessionState) :
    Except SdkError SessionState := do
  let (_, session) ← validateEnvelope ready session
  match ready.payload with
  | some .ready =>
    if ready.replyTo.isSome ∨ ready.trace ≠ some handshakeTrace then
      .error (.protocol "host SessionReady must follow PluginHello with the HostHello trace")
    else .ok session
  | _ => .error (.protocol "host SessionReady must follow PluginHello with the HostHello trace")

/-- Where the handshake is once the session is open. -/
inductive Handshake (plugin : Plugin)
  /-- Sending the greeting of the plugin. -/
  | greeting (o : Opening plugin)
  /-- Waiting for the ready message of the host. -/
  | awaiting (o : Opening plugin)
  /-- Sending the ready message of the plugin. -/
  | readying (o : Opening plugin) (session : SessionState)

inductive Connection (plugin : Plugin)
  | opening (closed : Bool)
  | shaking (phase : Handshake plugin) (link : HostLink)
  | serving (s : Serve)
  | finished (result : Except SdkError Unit)

namespace Connection

variable {plugin : Plugin}

inductive Step : Connection plugin → ServeEvent → Connection plugin → Prop
  | opened {closed : Bool} (o : Opening plugin) : Step (.opening closed) (.received o.first none)
      (.shaking (.greeting o) { HostLink.init o.session.identity outgoingCapacity with closed })
  | refused {closed : Bool} {first : PluginEnvelope} {e : SdkError} : openSession plugin.pluginId first = .error e →
      Step (.opening closed) (.received first none) (.finished (.error e))
  | hostClosed {closed : Bool} {e : SdkError} : Step (.opening closed) (.hostClosed e) (.finished (.error e))
  | closing {closed : Bool} : Step (.opening closed) .closed (.opening true)
  | greet {o : Opening plugin} {link link' : HostLink} {env : PluginEnvelope} : link.HasRoom →
      link.send ⟨none, o.trace, .pluginHello (plugin.hello o.hello)⟩ = (link', .ok env) →
      Step (.shaking (.greeting o) link) (.sent env) (.shaking (.awaiting o) link')
  | greetFailed {o : Opening plugin} {link link' : HostLink} {e : SdkError} :
      link.send ⟨none, o.trace, .pluginHello (plugin.hello o.hello)⟩ = (link', .error e) →
      Step (.shaking (.greeting o) link) (.sendFailed e) (.finished (.error e))
  | accepted {o : Opening plugin} {link : HostLink} {ready : PluginEnvelope} {session : SessionState} :
      receiveReady ready o.trace o.session = .ok session →
      Step (.shaking (.awaiting o) link) (.received ready none) (.shaking (.readying o session) link)
  | rejected {o : Opening plugin} {link : HostLink} {ready : PluginEnvelope} {e : SdkError} :
      receiveReady ready o.trace o.session = .error e →
      Step (.shaking (.awaiting o) link) (.received ready none) (.finished (.error e))
  | awaitFailed {o : Opening plugin} {link : HostLink} {e : SdkError} :
      Step (.shaking (.awaiting o) link) (.hostClosed e) (.finished (.error e))
  | ready {o : Opening plugin} {session : SessionState} {link link' : HostLink} {env : PluginEnvelope} :
      link.HasRoom → link.send ⟨none, o.trace, .ready⟩ = (link', .ok env) →
      Step (.shaking (.readying o session) link) (.sent env)
        (.serving { Serve.init (o.setup session) with link := link' })
  | readyFailed {o : Opening plugin} {session : SessionState} {link link' : HostLink} {e : SdkError} :
      link.send ⟨none, o.trace, .ready⟩ = (link', .error e) →
      Step (.shaking (.readying o session) link) (.sendFailed e) (.finished (.error e))
  | consume {phase : Handshake plugin} {link : HostLink} : link.closed = false → link.consumed < link.wire.length →
      Step (.shaking phase link) .consumed (.shaking phase { link with consumed := link.consumed + 1 })
  | close {phase : Handshake plugin} {link : HostLink} :
      Step (.shaking phase link) .closed (.shaking phase { link with closed := true })
  | serve {s s' : Serve} {e : ServeEvent} : Serve.Step s e s' → Step (.serving s) e (.serving s')
  /-- `wait_for_host_close` refuses whatever still comes. -/
  | extra {s : Serve} {deadline : Timestamp} {envelope : PluginEnvelope} : s.loop = .returned (.ok deadline) →
      Step (.serving s) (.received envelope none)
        (.finished (.error (.protocol "host sent a message after ShutdownRequest")))

end Connection

/-! ### What the handshake accepts -/

/-- The greeting of a host that the plugin accepts. -/
structure Greets (plugin : Plugin) (first : PluginEnvelope) (hello : HostHello) (trace : TraceContext) : Prop where
  messageId : first.messageId ≠ 0
  sessionId : first.sessionId ≠ ""
  pluginInstanceId : first.pluginInstanceId ≠ ""
  replyTo : first.replyTo = none
  payload : first.payload = some (.hostHello hello)
  valid : Validation.hostHello plugin.pluginId hello = .ok ()
  trace : Validation.trace first hello.maximumCallDepth hello.maximumCausalDepth = .ok trace

/-- The second envelope of a host that the plugin accepts. -/
structure Readies (first ready : PluginEnvelope) : Prop where
  messageId : first.messageId < ready.messageId
  sessionId : ready.sessionId = first.sessionId
  pluginInstanceId : ready.pluginInstanceId = first.pluginInstanceId
  replyTo : ready.replyTo = none
  trace : ready.trace = first.trace
  payload : ready.payload = some .ready

theorem Opening.greets {plugin : Plugin} (o : Opening plugin) : Greets plugin o.first o.hello o.trace := by
  have h := o.valid
  unfold openSession at h
  split at h
  · cases h
  · rename_i hid
    split at h
    · cases h
    · rename_i hidentity
      split at h
      · cases h
      · rename_i hreply
        split at h
        · rename_i hello hpayload
          obtain ⟨_, hhello, h⟩ := bind_eq_ok.1 h
          obtain ⟨trace, htrace, h⟩ := bind_eq_ok.1 h
          obtain ⟨heq, hrest⟩ := Prod.mk.inj (Except.ok.inj h)
          rw [← heq, ← (Prod.mk.inj hrest).1]
          simp only [not_or] at hidentity
          exact ⟨hid, hidentity.1, hidentity.2, by simpa using hreply, hpayload, hhello, htrace⟩
        · cases h

theorem receiveReady_eq_ok {ready : PluginEnvelope} {trace : TraceContext} {session session' : SessionState}
    (h : receiveReady ready trace session = .ok session') :
    (∃ t, validateEnvelope ready session = .ok (t, session')) ∧ ready.replyTo = none ∧ ready.trace = some trace ∧
      ready.payload = some .ready := by
  unfold receiveReady at h
  obtain ⟨⟨t, s⟩, hv, h⟩ := bind_eq_ok.1 h
  simp only at h
  split at h
  · rename_i hpayload
    split at h
    · cases h
    · rename_i hc
      cases h
      simp only [not_or, ne_eq, not_not] at hc
      exact ⟨⟨t, hv⟩, by simpa using hc.1, hc.2, hpayload⟩
  · cases h

namespace Opening

variable {plugin : Plugin} (o : Opening plugin) {envelope : PluginEnvelope} {session : SessionState}

theorem readies (h : receiveReady envelope o.trace o.session = .ok session) : Readies o.first envelope := by
  obtain ⟨⟨t, hv⟩, hreply, htrace, hpayload⟩ := receiveReady_eq_ok h
  obtain ⟨-, -, hfirst, -, -, -, hidentity, hlast⟩ := openSession_eq_ok o.valid
  obtain ⟨hlt, hs, hp, -, -, -⟩ := validateEnvelope_eq_ok.1 hv
  rw [hidentity] at hs hp
  exact ⟨hlast ▸ hlt, hs, hp, hreply, htrace.trans hfirst.symm, hpayload⟩

theorem identity_of_ready (h : receiveReady envelope o.trace o.session = .ok session) :
    session.identity = o.session.identity ∧ session.lastHostMessageId = envelope.messageId := by
  obtain ⟨⟨t, hv⟩, -⟩ := receiveReady_eq_ok h
  obtain ⟨-, -, -, -, -, heq⟩ := validateEnvelope_eq_ok.1 hv
  rw [heq]
  exact ⟨rfl, rfl⟩

/-- The actions are told the ID of the session itself, whose handles they may use, and its bound on the depth of
calls. -/
theorem setup_host (h : receiveReady envelope o.trace o.session = .ok session) :
    (o.setup session).host.sessionId = (o.setup session).session.identity.sessionId ∧
      (o.setup session).host.maximumCallDepth = (o.setup session).session.maximumCallDepth := by
  obtain ⟨⟨t, hv⟩, -⟩ := receiveReady_eq_ok h
  obtain ⟨-, -, -, -, -, heq⟩ := validateEnvelope_eq_ok.1 hv
  obtain ⟨-, -, -, -, hcall, -⟩ := openSession_eq_ok o.valid
  refine ⟨rfl, hcall.symm.trans ?_⟩
  rw [show (o.setup session).session = session from rfl, heq]

/-- The two envelopes that the plugin sends. -/
def greeting : PluginEnvelope := o.session.identity.stamp 1 ⟨none, o.trace, .pluginHello (plugin.hello o.hello)⟩

def ready : PluginEnvelope := o.session.identity.stamp 2 ⟨none, o.trace, .ready⟩

/-- The link before the session serves. -/
def link (wire : List PluginEnvelope) (consumed : Nat) (closed : Bool) : HostLink :=
  { HostLink.init o.session.identity outgoingCapacity with sender := ⟨wire.length + 1⟩, wire, consumed, closed }

end Opening

end PluginSdk
