import PluginSdk.Routing
import PluginSdk.Host

/-!
# The outbound stream

All envelopes of a session go through one sender.  Because the sender lock is held from the allocation of an ID to
its enqueue, the IDs on the wire increase (`Requests.Ordered`).  The traces on the wire are the traces of the
envelopes that the session has accepted, or of host calls made under them, so the stream passes the check that the
session itself makes on inbound envelopes (`Outbound.validStream`).
-/

namespace PluginSdk

open Lts

namespace Requests

variable {identity : SessionIdentity} {capacity : Nat}

/-! ### Order on the wire -/

/-- The call holds the sender lock, with the ID `k`. -/
def Sending (s : Requests) (c k : Nat) : Prop := ∃ spec, s.calls c = some ⟨spec, .sending k⟩

/-- The IDs on the wire increase, and an ID that waits for channel capacity is larger than all of them. -/
structure Ordered (s : Requests) : Prop where
  holder : ∀ {c k}, s.Sending c k → s.holder = some c
  next : ∀ {c k}, s.Sending c k → k + 1 = s.sender.nextMessageId
  above : ∀ {c k}, s.Sending c k → ∀ env ∈ s.wire, env.messageId < k
  lt : ∀ env ∈ s.wire, env.messageId < s.sender.nextMessageId
  increasing : (s.wire.map (·.messageId)).Pairwise (· < ·)

private theorem sending_update {s s' : Requests} {c c' k : Nat} {call : RequestCall}
    (hcalls : s'.calls = Function.update s.calls c (some call)) (h : s'.Sending c' k) :
    s.Sending c' k ∧ c' ≠ c ∨ c' = c ∧ call.phase = .sending k := by
  obtain ⟨spec, h⟩ := h
  rw [hcalls] at h
  by_cases hc : c' = c
  · subst hc
    rw [Function.update_self] at h
    cases h
    exact Or.inr ⟨rfl, rfl⟩
  · rw [Function.update_of_ne hc] at h
    exact Or.inl ⟨⟨spec, h⟩, hc⟩

/-- A step that starts no enqueue and ends none keeps the order. -/
private theorem Ordered.keep {s s' : Requests} (ho : s.Ordered) (hs : ∀ {c k}, s'.Sending c k → s.Sending c k)
    (hholder : s'.holder = s.holder) (hsender : s.sender.nextMessageId ≤ s'.sender.nextMessageId)
    (hnext : s.holder ≠ none → s'.sender = s.sender) (hwire : s'.wire = s.wire) : s'.Ordered where
  holder h := hholder ▸ ho.holder (hs h)
  next h := by
    rw [hnext (by rw [ho.holder (hs h)]; simp)]
    exact ho.next (hs h)
  above h := hwire ▸ ho.above (hs h)
  lt env henv := lt_of_lt_of_le (ho.lt env (hwire ▸ henv)) hsender
  increasing := hwire ▸ ho.increasing

private theorem Ordered.keep_call {s s' : Requests} {c : Nat} {call : RequestCall} (ho : s.Ordered)
    (hcalls : s'.calls = Function.update s.calls c (some call)) (hphase : ∀ k, call.phase ≠ .sending k)
    (hholder : s'.holder = s.holder) (hsender : s'.sender = s.sender) (hwire : s'.wire = s.wire) : s'.Ordered := by
  refine ho.keep (fun h => ?_) hholder (le_of_eq (by rw [hsender])) (fun _ => hsender) hwire
  rcases sending_update hcalls h with ⟨h, -⟩ | ⟨-, h⟩
  · exact h
  · exact absurd h (hphase _)

/-- The call that takes the lock gets an ID above the wire. -/
private theorem Ordered.allocated {s s' : Requests} {c k : Nat} {spec : SendSpec} (ho : s.Ordered)
    (hfree : s.holder = none) (hk : k = s.sender.nextMessageId) (hnext : s'.sender.nextMessageId = k + 1)
    (hcalls : s'.calls = Function.update s.calls c (some ⟨spec, .sending k⟩)) (hholder : s'.holder = some c)
    (hwire : s'.wire = s.wire) : s'.Ordered := by
  have honly : ∀ {c' k'}, s'.Sending c' k' → c' = c ∧ k' = k := by
    intro c' k' h
    rcases sending_update hcalls h with ⟨h, -⟩ | ⟨hc, h⟩
    · exact absurd ((ho.holder h).symm.trans hfree) (by simp)
    · cases h
      exact ⟨hc, rfl⟩
  refine ⟨fun h => ?_, fun h => ?_, fun h env henv => ?_, fun env henv => ?_, hwire ▸ ho.increasing⟩
  · rw [hholder, (honly h).1]
  · rw [hnext, (honly h).2]
  · rw [(honly h).2, hk]
    exact ho.lt env (hwire ▸ henv)
  · have := ho.lt env (hwire ▸ henv)
    omega

/-- The call that holds the lock is the only one whose ID is not on the wire; when it lets go, its ID is there or
is burned. -/
private theorem Ordered.released {s s' : Requests} {c k : Nat} {call : RequestCall} (ho : s.Ordered)
    (hc : s.Sending c k) (hcalls : s'.calls = Function.update s.calls c (some call))
    (hphase : ∀ k, call.phase ≠ .sending k) (hsender : s'.sender = s.sender)
    (hwire : s'.wire = s.wire ∨ ∃ env, env.messageId = k ∧ s'.wire = s.wire ++ [env]) : s'.Ordered := by
  have hnone : ∀ {c' k'}, ¬ s'.Sending c' k' := by
    intro c' k' h
    rcases sending_update hcalls h with ⟨h, hne⟩ | ⟨-, h⟩
    · exact hne (Option.some.inj ((ho.holder h).symm.trans (ho.holder hc)))
    · exact hphase _ h
  refine ⟨fun h => absurd h hnone, fun h => absurd h hnone, fun h => absurd h hnone, ?_, ?_⟩
  · rw [hsender]
    intro env henv
    rcases hwire with hwire | ⟨env', rfl, hwire⟩ <;> rw [hwire] at henv
    · exact ho.lt env henv
    · rcases List.mem_append.1 henv with henv | henv
      · exact ho.lt env henv
      · rw [List.mem_singleton.1 henv]
        have := ho.next hc
        omega
  · rcases hwire with hwire | ⟨env', rfl, hwire⟩ <;> rw [hwire]
    · exact ho.increasing
    · rw [List.map_append, List.pairwise_append]
      refine ⟨ho.increasing, by simp, fun a ha b hb => ?_⟩
      obtain ⟨env, henv, rfl⟩ := List.mem_map.1 ha
      rw [List.map_singleton, List.mem_singleton] at hb
      exact hb ▸ ho.above hc env henv

theorem Step.ordered {s s' : Requests} {e : Event} (hs : Step s e s') (ho : s.Ordered) : s'.Ordered := by
  cases hs with
  | allocate _ hfree ha =>
    obtain ⟨rfl, hnext, -⟩ := SenderState.allocate_eq_ok.1 ha
    exact ho.allocated hfree rfl hnext rfl rfl rfl
  | register _ hfree ha =>
    obtain ⟨rfl, hnext, -⟩ := SenderState.allocate_eq_ok.1 ha
    exact ho.allocated hfree rfl hnext rfl rfl rfl
  | registerFailed _ hfree ha =>
    obtain ⟨-, hnext, -⟩ := SenderState.allocate_eq_ok.1 ha
    refine ho.keep (fun h => ?_) rfl (by simp [hnext]) (fun hn => absurd hfree hn) rfl
    rcases sending_update rfl h with ⟨h, -⟩ | ⟨-, h⟩
    · exact h
    · cases h
  | enqueue hc =>
    refine ho.released ⟨_, hc⟩ rfl (fun k => ?_) rfl (Or.inr ⟨_, rfl, rfl⟩)
    dsimp only
    split <;> simp
  | sendFailed hc => exact ho.released ⟨_, hc⟩ rfl (by simp) rfl (Or.inl rfl)
  | dropSending hc => exact ho.released ⟨_, hc⟩ rfl (by simp) rfl (Or.inl rfl)
  | consume => exact ho.keep id rfl le_rfl (fun _ => rfl) rfl
  | close => exact ho.keep id rfl le_rfl (fun _ => rfl) rfl
  | route => exact ho.keep id rfl le_rfl (fun _ => rfl) rfl
  | routeFailed => exact ho.keep id rfl le_rfl (fun _ => rfl) rfl
  | _ => exact ho.keep_call rfl (by simp) rfl rfl rfl

theorem ordered {identity : SessionIdentity} {capacity : Nat} {h : List Event} {s : Requests}
    (hr : Steps Step (init identity capacity) h s) : s.Ordered := by
  refine hr.invariant (fun _ _ _ hs ho => hs.ordered ho) ⟨?_, ?_, ?_, ?_, ?_⟩
  · rintro c k ⟨spec, h⟩
    cases h
  · rintro c k ⟨spec, h⟩
    cases h
  · rintro c k ⟨spec, h⟩
    cases h
  · simp [init]
  · simp [init]

/-- The error of every send once the counter is exhausted. -/
def idsExhausted : SdkError := .protocol "plugin exhausted message IDs"

/-- The call has no ID, or is over. -/
def WithoutId (s : Requests) (c : Nat) : Prop := ∀ call, s.calls c = some call → call.phase.hasId = false

private theorem WithoutId.update {s s' : Requests} {c c₁ : Nat} {call : RequestCall} (hc : s.WithoutId c)
    (hcalls : s'.calls = Function.update s.calls c₁ (some call)) (hphase : c = c₁ → call.phase.hasId = false) :
    s'.WithoutId c := by
  intro call' h
  rw [hcalls] at h
  by_cases hcc : c = c₁
  · subst hcc
    rw [Function.update_self] at h
    cases h
    exact hphase rfl
  · rw [Function.update_of_ne hcc] at h
    exact hc call' h

/-- A sender that hands out no ID leaves a call without one, and refuses it. -/
private theorem Step.withoutId {s s' : Requests} {e : Event} (hs : Step s e s') {c : Nat}
    (hn : 2 ^ 64 ≤ s.sender.nextMessageId + 1) (hc : s.WithoutId c) :
    s'.WithoutId c ∧ (∀ env, e ≠ .enqueued c env) ∧ ∀ r, e = .returned c r → r = .error idsExhausted := by
  have hno : ∀ {id sender}, s.sender.allocate ≠ .ok (id, sender) := by
    intro id sender ha
    obtain ⟨-, -, hlt⟩ := SenderState.allocate_eq_ok.1 ha
    omega
  have hne : ∀ {c₁ call}, s.calls c₁ = some call → call.phase.hasId = true → c ≠ c₁ := by
    rintro c₁ call hcall hphase rfl
    rw [hc call hcall] at hphase
    cases hphase
  cases hs with
  | begin => exact ⟨hc.update rfl fun _ => rfl, by simp, by simp⟩
  | exhausted _ _ ha =>
    obtain ⟨-, rfl⟩ := SenderState.allocate_eq_error.1 ha
    refine ⟨hc.update rfl fun _ => rfl, by simp, fun r hr => ?_⟩
    cases hr
    rfl
  | allocate _ _ ha => exact absurd ha hno
  | register _ _ ha => exact absurd ha hno
  | registerFailed _ _ ha => exact absurd ha hno
  | enqueue hcall =>
    have h := hne hcall rfl
    exact ⟨hc.update rfl fun hcc => absurd hcc h, by simp [Ne.symm h], by simp⟩
  | sendFailed hcall =>
    have h := hne hcall rfl
    exact ⟨hc.update rfl fun hcc => absurd hcc h, by simp, by simp [Ne.symm h]⟩
  | disarm hcall =>
    have h := hne hcall rfl
    exact ⟨hc.update rfl fun hcc => absurd hcc h, by simp, by simp⟩
  | receive hcall =>
    have h := hne hcall rfl
    exact ⟨hc.update rfl fun hcc => absurd hcc h, by simp, by simp [Ne.symm h]⟩
  | receiveFailed hcall =>
    have h := hne hcall rfl
    exact ⟨hc.update rfl fun hcc => absurd hcc h, by simp, by simp [Ne.symm h]⟩
  | dropLocking => exact ⟨hc.update rfl fun _ => rfl, by simp, by simp⟩
  | dropSending => exact ⟨hc.update rfl fun _ => rfl, by simp, by simp⟩
  | dropWaiting => exact ⟨hc.update rfl fun _ => rfl, by simp, by simp⟩
  | consume => exact ⟨hc, by simp, by simp⟩
  | close => exact ⟨hc, by simp, by simp⟩
  | route => exact ⟨hc, by simp, by simp⟩
  | routeFailed => exact ⟨hc, by simp, by simp⟩

/-- Once the counter is exhausted, every later send fails. -/
theorem exhausted_forever {h : List Event} {s s' : Requests} {e : SdkError} (hr : Steps Step s h s')
    (he : s.sender.allocate = .error e) {c : Nat} (hc : s.WithoutId c) :
    (∀ env, .enqueued c env ∉ h) ∧ ∀ r, .returned c r ∈ h → r = .error idsExhausted := by
  have hall : 2 ^ 64 ≤ s'.sender.nextMessageId + 1 ∧ s'.WithoutId c ∧ (∀ env, .enqueued c env ∉ h) ∧
      ∀ r, .returned c r ∈ h → r = .error idsExhausted := by
    refine Steps.history (I := fun h s' => 2 ^ 64 ≤ s'.sender.nextMessageId + 1 ∧ s'.WithoutId c ∧
      (∀ env, .enqueued c env ∉ h) ∧ ∀ r, .returned c r ∈ h → r = .error idsExhausted)
      ⟨(SenderState.allocate_eq_error.1 he).1, hc, by simp, by simp⟩ (fun h t e t' _ hs ht => ?_) hr
    obtain ⟨hn, hid, henq, hret⟩ := ht
    obtain ⟨hid', henq', hret'⟩ := hs.withoutId hn hid
    have hn' : 2 ^ 64 ≤ t'.sender.nextMessageId + 1 := by
      rcases hs.numbering with ⟨-, -, -, hlt⟩ | ⟨-, hle⟩ <;> omega
    refine ⟨hn', hid', fun env hmem => ?_, fun r hmem => ?_⟩
    · rcases List.mem_append.1 hmem with hmem | hmem
      · exact henq env hmem
      · exact henq' env (List.mem_singleton.1 hmem).symm
    · rcases List.mem_append.1 hmem with hmem | hmem
      · exact hret r hmem
      · exact hret' r (List.mem_singleton.1 hmem).symm
  exact hall.2.2

end Requests

/-! ### The stream of a session -/

/-- The senders of a session, and the traces of the envelopes that the session has accepted. -/
structure Outbound where
  requests : Requests
  session : SessionState
  known : List TraceContext

namespace Outbound

inductive Event
  | received (envelope : PluginEnvelope)
  | request (e : Requests.Event)

/-- The trace is one that a sender of the session may use: the trace of an accepted envelope, or of a host call of a
job with such a trace.  The loop, the contexts of the jobs and the handshake use no other (`Session.outbound_run`). -/
def MaySend (s : Outbound) (trace : TraceContext) : Prop :=
  trace ∈ s.known ∨ ∃ context : ActionContext, context.trace ∈ s.known ∧
    context.host.maximumCallDepth = s.session.maximumCallDepth ∧ context.hostCallTrace = .ok trace

inductive Step : Outbound → Event → Outbound → Prop
  | receive {s : Outbound} {envelope : PluginEnvelope} {trace : TraceContext} {session : SessionState} :
      validateEnvelope envelope s.session = .ok (trace, session) →
      Step s (.received envelope) { s with session, known := trace :: s.known }
  | request {s : Outbound} {e : Requests.Event} {requests : Requests} : Requests.Step s.requests e requests →
      (∀ c spec, e = .began c spec → s.MaySend spec.trace) →
      Step s (.request e) { s with requests }

/-- The session after its first envelope, whose trace the handshake uses. -/
def start (session : SessionState) (handshakeTrace : TraceContext) (capacity : Nat) : Outbound where
  requests := .init session.identity capacity
  session := session
  known := [handshakeTrace]

def Event.requests : Event → List Requests.Event
  | received _ => []
  | request e => [e]

variable {session : SessionState} {handshakeTrace : TraceContext} {capacity : Nat} {h : List Event} {s : Outbound}

/-- The senders run as described, whatever the session receives. -/
theorem requests_steps {s s' : Outbound} (hr : Steps Step s h s') :
    Steps Requests.Step s.requests (h.flatMap Event.requests) s'.requests := by
  refine hr.simulate (f := Outbound.requests) (g := Event.requests) fun s e s' hs => ?_
  cases hs with
  | receive _ => exact .nil
  | request hs _ => exact .single hs

/-- The limits of the session never change, and every trace in use is within them. -/
structure Bounded (session : SessionState) (h : List Event) (s : Outbound) : Prop where
  identity : s.session.identity = session.identity
  call : s.session.maximumCallDepth = session.maximumCallDepth
  causal : s.session.maximumCausalDepth = session.maximumCausalDepth
  known : ∀ t ∈ s.known, t.Within session.maximumCallDepth session.maximumCausalDepth
  began : ∀ {c spec}, .request (.began c spec) ∈ h →
    spec.trace.Within session.maximumCallDepth session.maximumCausalDepth

private theorem bounded (hw : handshakeTrace.Within session.maximumCallDepth session.maximumCausalDepth)
    (hr : Steps Step (start session handshakeTrace capacity) h s) : Bounded session h s := by
  refine Steps.history (I := Bounded session) ⟨rfl, rfl, rfl, by simpa [start] using hw, by simp⟩
    (fun h s e s' _ hs hb => ?_) hr
  cases hs with
  | receive hv =>
    obtain ⟨-, -, -, -, hw', rfl⟩ := validateEnvelope_eq_ok.1 hv
    rw [hb.call, hb.causal] at hw'
    refine ⟨hb.identity, hb.call, hb.causal, List.forall_mem_cons.2 ⟨hw', hb.known⟩, fun hbegan => ?_⟩
    exact hb.began (by simpa using hbegan)
  | request hs hmay =>
    refine ⟨hb.identity, hb.call, hb.causal, hb.known, fun {c spec} hbegan => ?_⟩
    rcases List.mem_append.1 hbegan with hbegan | hbegan
    · exact hb.began hbegan
    · rw [List.mem_singleton, Event.request.injEq] at hbegan
      rcases hmay c spec hbegan.symm with hknown | ⟨context, hknown, hmax, htrace⟩
      · exact hb.known _ hknown
      · -- a host call is one level deeper than its job, and `hostCallTrace` has checked that level
        have hjob := hb.known _ hknown
        rw [← hb.call, ← hmax] at hjob ⊢
        exact ActionContext.hostCallTrace_within htrace hjob

/-! ### The check of the peer -/

/-- A peer that validates the envelopes in order. -/
def peerRun (peer : SessionState) (wire : List PluginEnvelope) : Except SdkError SessionState :=
  wire.foldlM (fun peer envelope => (validateEnvelope envelope peer).map Prod.snd) peer

/-- The envelope belongs to the session and its trace is within the limits. -/
def Valid (session : SessionState) (envelope : PluginEnvelope) : Prop :=
  envelope.sessionId = session.identity.sessionId ∧ envelope.pluginInstanceId = session.identity.instanceId ∧
    ∃ t, envelope.trace = some t ∧ t.Within session.maximumCallDepth session.maximumCausalDepth

/-- A peer accepts valid envelopes whose IDs increase from the last one it has accepted. -/
private theorem peerRun_ok {peer : SessionState} {wire : List PluginEnvelope} (hv : ∀ env ∈ wire, Valid peer env)
    (hi : (wire.map (·.messageId)).Pairwise (· < ·)) (hlast : ∀ env ∈ wire, peer.lastHostMessageId < env.messageId) :
    ∃ peer', peerRun peer wire = .ok peer' := by
  induction wire generalizing peer with
  | nil => exact ⟨peer, rfl⟩
  | cons env rest ih =>
    obtain ⟨⟨hs, hp, t, ht, hw⟩, hvrest⟩ := List.forall_mem_cons.1 hv
    rw [List.map_cons, List.pairwise_cons] at hi
    have hok := validateEnvelope_eq_ok.2 ⟨hlast env List.mem_cons_self, hs, hp, ht, hw, rfl⟩
    have hrest : ∃ peer', peerRun { peer with lastHostMessageId := env.messageId } rest = .ok peer' :=
      ih hvrest hi.2 fun env' henv' => hi.1 _ (List.mem_map_of_mem henv')
    obtain ⟨peer', hpeer⟩ := hrest
    refine ⟨peer', ?_⟩
    unfold peerRun at hpeer ⊢
    rw [List.foldlM_cons, hok]
    exact hpeer

private theorem wire_valid (hw : handshakeTrace.Within session.maximumCallDepth session.maximumCausalDepth)
    (hr : Steps Step (start session handshakeTrace capacity) h s) : ∀ env ∈ s.requests.wire, Valid session env := by
  intro env henv
  have hr' := requests_steps hr
  obtain ⟨c, he⟩ := (Requests.mem_wire hr').1 henv
  obtain ⟨spec, hbegan, -, henv⟩ := Requests.enqueued_inv hr' he
  obtain ⟨e, he, hmem⟩ := List.mem_flatMap.1 hbegan
  rw [henv]
  refine ⟨rfl, rfl, spec.trace, rfl, (bounded hw hr).began (c := c) ?_⟩
  cases e with
  | received _ => cases hmem
  | request e => rwa [← List.mem_singleton.1 hmem] at he

/-- A stream that a symmetric peer accepts, with the identity of the greeting and the limits that it sets: the IDs are
nonzero and increase strictly within `u64`. -/
structure ValidStream (first : PluginEnvelope) (hello : HostHello) (wire : List PluginEnvelope) : Prop where
  increasing : (wire.map (·.messageId)).Pairwise (· < ·)
  ids : ∀ env ∈ wire, 0 < env.messageId ∧ env.messageId < 2 ^ 64
  identity : ∀ env ∈ wire, env.sessionId = first.sessionId ∧ env.pluginInstanceId = first.pluginInstanceId
  traces : ∀ env ∈ wire, ∃ t, env.trace = some t ∧ t.Within hello.maximumCallDepth hello.maximumCausalDepth
  accepted : ∀ n, ∃ peer, peerRun ⟨⟨first.sessionId, first.pluginInstanceId⟩, 0, hello.maximumCallDepth,
    hello.maximumCausalDepth⟩ (wire.take n) = .ok peer

/-- The session accepts a reply that echoes a trace of its own stream. -/
def AcceptsEchoes (session : SessionState) (wire : List PluginEnvelope) : Prop :=
  ∀ env ∈ wire, ∀ reply, reply.trace = env.trace → reply.sessionId = session.identity.sessionId →
    reply.pluginInstanceId = session.identity.instanceId → session.lastHostMessageId < reply.messageId →
    ∃ t session', validateEnvelope reply session = .ok (t, session')

section Opened

variable {pluginId : String} {first : PluginEnvelope} {hello : HostHello}
  (ho : openSession pluginId first = .ok (hello, handshakeTrace, session))
include ho

theorem validStream (hr : Steps Step (start session handshakeTrace capacity) h s) :
    ValidStream first hello s.requests.wire := by
  obtain ⟨-, -, -, hw, hcall, hcausal, hid, -⟩ := openSession_eq_ok ho
  have hr' := requests_steps hr
  have hinc := (Requests.ordered hr').increasing
  have hvalid : ∀ env ∈ s.requests.wire, Valid ⟨⟨first.sessionId, first.pluginInstanceId⟩, 0, hello.maximumCallDepth,
      hello.maximumCausalDepth⟩ env := by
    intro env henv
    obtain ⟨hs, hp, t, ht, htw⟩ := wire_valid hw hr env henv
    rw [hid] at hs hp
    rw [hcall, hcausal] at htw
    exact ⟨hs, hp, t, ht, htw⟩
  have hids : ∀ env ∈ s.requests.wire, 0 < env.messageId ∧ env.messageId < 2 ^ 64 := by
    intro env henv
    obtain ⟨c, he⟩ := (Requests.mem_wire hr').1 henv
    obtain ⟨-, -, ha, -⟩ := Requests.enqueued_inv hr' he
    exact ⟨(Requests.numbered hr').pos ha, (Requests.numbered hr').bounded ha⟩
  refine ⟨hinc, hids, fun env henv => ?_, fun env henv => (hvalid env henv).2.2, fun n => ?_⟩
  · obtain ⟨hs, hp, -⟩ := hvalid env henv
    exact ⟨hs, hp⟩
  · refine peerRun_ok (fun env henv => hvalid env (List.mem_of_mem_take henv)) ?_ fun env henv => ?_
    · rw [List.map_take]
      exact hinc.sublist (List.take_sublist _ _)
    · exact (hids env (List.mem_of_mem_take henv)).1

theorem acceptsEchoes (hr : Steps Step (start session handshakeTrace capacity) h s) :
    AcceptsEchoes s.session s.requests.wire := by
  obtain ⟨-, -, -, hw, -⟩ := openSession_eq_ok ho
  have hb := bounded hw hr
  intro env henv reply htrace hs hp hlast
  obtain ⟨-, -, t, ht, htw⟩ := wire_valid hw hr env henv
  rw [← hb.call, ← hb.causal] at htw
  exact ⟨t, _, validateEnvelope_eq_ok.2 ⟨hlast, hs, hp, htrace.trans ht, htw, rfl⟩⟩

end Opened

/-- Once the counter is exhausted every later send fails. -/
theorem exhausted_forever {s' : Outbound} {e : SdkError} {c : Nat} (hr : Steps Step s h s')
    (he : s.requests.sender.allocate = .error e) (hc : s.requests.WithoutId c) :
    (∀ env, .request (.enqueued c env) ∉ h) ∧
      ∀ r, .request (.returned c r) ∈ h → r = .error Requests.idsExhausted := by
  obtain ⟨henq, hret⟩ := Requests.exhausted_forever (requests_steps hr) he hc
  exact ⟨fun env hmem => henq env (List.mem_flatMap.2 ⟨_, hmem, by simp [Event.requests]⟩),
    fun r hmem => hret r (List.mem_flatMap.2 ⟨_, hmem, by simp [Event.requests]⟩)⟩

end Outbound

end PluginSdk
