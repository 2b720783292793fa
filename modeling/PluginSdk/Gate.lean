import PluginSdk.Handshake
import PluginSdk.Window

/-!
# The gate of the handshake

What a session sends and starts is gated by what it has received (`Connection.handshake_gate`).  A session that serves
is one that the serve loop reaches from what the handshake has agreed on (`Connection.serving_reachable`), so whatever
holds of all runs of the serve loop holds of it.
-/

namespace PluginSdk

open Lts

/-! ### Envelopes in and out -/

/-- The envelope that an event takes from the host. -/
def ServeEvent.inbound : ServeEvent → Option PluginEnvelope
  | .received envelope _ => some envelope
  | _ => none

/-- The event starts an action, or is a step of one. -/
def ServeEvent.OfAction : ServeEvent → Prop
  | .spawned _ _ | .task _ _ _ => True
  | _ => False

def inbound (h : List ServeEvent) : List PluginEnvelope := h.filterMap ServeEvent.inbound

def outbound (h : List ServeEvent) : List PluginEnvelope := h.filterMap ServeEvent.enqueued

theorem inbound_snoc (h : List ServeEvent) (e : ServeEvent) : inbound (h ++ [e]) = inbound h ++ e.inbound.toList :=
  filterMap_snoc ..

private theorem outbound_snoc (h : List ServeEvent) (e : ServeEvent) :
    outbound (h ++ [e]) = outbound h ++ e.enqueued.toList :=
  filterMap_snoc ..

namespace Serve

variable {s s' : Serve} {e : ServeEvent} {h : List ServeEvent} {setup : Setup}

theorem Processed.valid {envelope : PluginEnvelope} {call : Option Nat} (hp : Processed s envelope s' call)
    (hlive : s'.Live) : ∃ trace, validateEnvelope envelope s.session = .ok (trace, s'.session) := by
  cases hp with
  | failed => exact absurd hlive (by simp [Live, fail])
  | replied hv => exact ⟨_, hv⟩
  | accepted hreq | refused hreq | cancelled hreq | acknowledged hreq | heartbeat hreq | shutdown hreq =>
    exact ⟨_, hreq.valid⟩

/-- Only taking an envelope touches what the session has accepted. -/
theorem Step.session_eq (hs : Step s e s') (he : e.inbound = none) : s'.session = s.session := by
  cases hs with
  | task hs => exact hs.frame.session
  | context hs => exact hs.frame.session
  | loop hs =>
    cases hs with
    | receive => cases he
    | _ => rfl

/-- What a loop that still runs has accepted. -/
structure Pinned (setup : Setup) (h : List ServeEvent) (s : Serve) : Prop where
  identity : s.session.identity = setup.session.identity
  last : setup.session.lastHostMessageId ≤ s.session.lastHostMessageId
  ids : ∀ r ∈ inbound h, r.messageId ≤ s.session.lastHostMessageId

theorem pinned (hr : Steps Step (init setup) h s) : s.Live → Pinned setup h s := by
  refine Steps.history (I := fun h s => s.Live → Pinned setup h s) (fun _ => ⟨rfl, le_rfl, by simp [inbound]⟩)
    (fun h s e s' _ hs ih hlive => ?_) hr
  have hp := ih (hs.live hlive)
  cases hin : e.inbound with
  | none =>
    have heq := hs.session_eq hin
    refine ⟨heq ▸ hp.identity, heq ▸ hp.last, fun r hmem => ?_⟩
    rw [inbound_snoc, hin, Option.toList_none, List.append_nil] at hmem
    exact heq ▸ hp.ids r hmem
  | some envelope =>
    obtain ⟨call, rfl⟩ : ∃ call, e = .received envelope call := by
      cases e with
      | received envelope' call => exact ⟨call, by rw [Option.some.inj hin]⟩
      | _ => cases hin
    obtain ⟨trace, hv⟩ := hs.received_inv.2.valid hlive
    obtain ⟨hlt, -, -, -, -, heq⟩ := validateEnvelope_eq_ok.1 hv
    refine ⟨by rw [heq]; exact hp.identity, by rw [heq]; exact hp.last.trans hlt.le, fun r hmem => ?_⟩
    rw [inbound_snoc] at hmem
    rcases List.mem_append.1 hmem with hmem | hmem
    · rw [heq]
      exact (hp.ids r hmem).trans hlt.le
    · rw [heq, List.mem_singleton.1 hmem]

end Serve

/-! ### The order of the handshake -/

/-- What a session has received and sent, in the order of the handshake. -/
inductive Gate (plugin : Plugin) : List PluginEnvelope → List PluginEnvelope → Prop
  | silent {inb : List PluginEnvelope} : Gate plugin inb []
  | greeted (o : Opening plugin) {rest : List PluginEnvelope} : Gate plugin (o.first :: rest) [o.greeting]
  | ready (o : Opening plugin) {envelope : PluginEnvelope} {session : SessionState}
      {rest more : List PluginEnvelope} : receiveReady envelope o.trace o.session = .ok session →
      Gate plugin (o.first :: envelope :: rest) (o.greeting :: o.ready :: more)

private theorem Gate.receive {plugin : Plugin} {inb out : List PluginEnvelope} (hg : Gate plugin inb out)
    (more : List PluginEnvelope) : Gate plugin (inb ++ more) out := by
  cases hg with
  | silent => exact .silent
  | greeted o => exact .greeted o
  | ready o hready => exact .ready o hready

/-- The output stream takes some envelopes out. -/
private theorem Serve.consume_steps {s : Serve} (hclosed : s.link.closed = false) (k : Nat)
    (hk : s.link.consumed + k ≤ s.link.wire.length) :
    Steps Serve.Step s (List.replicate k .consumed)
      { s with link := { s.link with consumed := s.link.consumed + k } } := by
  induction k with
  | zero => exact .nil
  | succ k ih =>
    rw [List.replicate_succ']
    refine .snoc (ih (by omega)) ?_
    exact .context (.consume hclosed (by simp only; omega))

private theorem inbound_consumed (k : Nat) : inbound (List.replicate k .consumed) = [] :=
  List.filterMap_eq_nil_iff.2 fun e he => by rw [List.eq_of_mem_replicate he]; rfl

private theorem outbound_consumed (k : Nat) : outbound (List.replicate k .consumed) = [] :=
  List.filterMap_eq_nil_iff.2 fun e he => by rw [List.eq_of_mem_replicate he]; rfl

namespace Connection

variable {plugin : Plugin} {c c' : Connection plugin} {e : ServeEvent} {h : List ServeEvent}

/-- How a connection has come to its state. -/
inductive Trail : Connection plugin → List PluginEnvelope → List PluginEnvelope → Prop
  | opening {closed : Bool} : Trail (.opening closed) [] []
  | greeting (o : Opening plugin) {closed : Bool} : Trail (.shaking (.greeting o) (o.link [] 0 closed)) [o.first] []
  | awaiting (o : Opening plugin) {consumed : Nat} {closed : Bool} : consumed ≤ 1 →
      Trail (.shaking (.awaiting o) (o.link [o.greeting] consumed closed)) [o.first] [o.greeting]
  | readying (o : Opening plugin) {envelope : PluginEnvelope} {session : SessionState} {consumed : Nat}
      {closed : Bool} : consumed ≤ 1 → receiveReady envelope o.trace o.session = .ok session →
      Trail (.shaking (.readying o session) (o.link [o.greeting] consumed closed)) [o.first, envelope] [o.greeting]
  | serving (o : Opening plugin) {envelope : PluginEnvelope} {session : SessionState} {s : Serve}
      {w : List ServeEvent} : receiveReady envelope o.trace o.session = .ok session →
      Steps Serve.Step (.init (o.setup session)) w s →
      Trail (.serving s) (o.first :: envelope :: inbound w) (o.greeting :: o.ready :: outbound w)
  | finished {result : Except SdkError Unit} {inb out : List PluginEnvelope} : Gate plugin inb out →
      Trail (.finished result) inb out

private theorem Trail.gate {inb out : List PluginEnvelope} (ht : Trail c inb out) : Gate plugin inb out := by
  cases ht with
  | opening | greeting => exact .silent
  | awaiting o => exact .greeted o
  | readying o _ _ => exact .greeted o
  | serving o hready => exact .ready o hready
  | finished hg => exact hg

/-- The link that the loop starts with holds the two envelopes of the handshake. -/
theorem init_link (o : Opening plugin) {envelope : PluginEnvelope} {session : SessionState}
    (hready : receiveReady envelope o.trace o.session = .ok session) :
    (Serve.init (o.setup session)).link = o.link [o.greeting, o.ready] 0 false := by
  rw [Serve.init_link]
  simp [Opening.setup, Opening.link, Opening.greeting, Opening.ready, HostLink.init, (o.identity_of_ready hready).1]

/-- The loop starts from what the handshake has left, up to what the output stream has taken out already. -/
private theorem serving_start (o : Opening plugin) {envelope env : PluginEnvelope}
    {session : SessionState} {consumed : Nat} {closed : Bool} {link : HostLink} (hc : consumed ≤ 1)
    (hready : receiveReady envelope o.trace o.session = .ok session)
    (hsend : (o.link [o.greeting] consumed closed).send ⟨none, o.trace, .ready⟩ = (link, .ok env)) :
    env = o.ready ∧ Steps Serve.Step (.init (o.setup session)) (List.replicate consumed .consumed)
      { Serve.init (o.setup session) with link } := by
  obtain ⟨henv, hlink⟩ := HostLink.send_eq_ok hsend
  have hclosed : closed = false := HostLink.closed_of_send hsend
  have hinit := init_link o hready
  have hle : (Serve.init (o.setup session)).link.consumed + consumed ≤
    (Serve.init (o.setup session)).link.wire.length := by
    rw [hinit]
    simp only [Opening.link, List.length_cons, List.length_nil]
    omega
  have hsteps := Serve.consume_steps (s := Serve.init (o.setup session)) rfl consumed hle
  have hend : link = { (Serve.init (o.setup session)).link with
      consumed := (Serve.init (o.setup session)).link.consumed + consumed } := by
    rw [hinit, hlink, henv, hclosed]
    simp [Opening.link, Opening.ready, HostLink.init]
  rw [hend]
  exact ⟨henv, hsteps⟩

private theorem Step.trail {inb out : List PluginEnvelope} (hs : Step c e c') (ht : Trail c inb out) :
    Trail c' (inb ++ e.inbound.toList) (out ++ e.enqueued.toList) := by
  have hstop : ∀ {result : Except SdkError Unit}, e.enqueued = none →
      Trail (.finished result : Connection plugin) (inb ++ e.inbound.toList) (out ++ e.enqueued.toList) := by
    intro result he
    rw [he, Option.toList_none, List.append_nil]
    exact .finished (ht.gate.receive _)
  cases hs with
  | opened o =>
    cases ht with
    | opening => exact .greeting o
  | refused => exact hstop rfl
  | hostClosed => exact hstop rfl
  | closing =>
    cases ht with
    | opening => exact .opening
  | greet _ hsend =>
    cases ht with
    | greeting =>
      obtain ⟨rfl, rfl⟩ := HostLink.send_eq_ok hsend
      exact .awaiting _ (Nat.zero_le 1)
  | greetFailed => exact hstop rfl
  | accepted hready =>
    cases ht with
    | awaiting _ hc => exact .readying _ hc hready
  | rejected => exact hstop rfl
  | awaitFailed => exact hstop rfl
  | ready _ hsend =>
    cases ht with
    | readying _ hc hready =>
      obtain ⟨rfl, hsteps⟩ := serving_start _ hc hready hsend
      have htrail := Trail.serving _ hready hsteps
      rwa [inbound_consumed, outbound_consumed] at htrail
  | readyFailed => exact hstop rfl
  | consume _ hlt =>
    cases ht with
    | greeting => exact absurd hlt (by simp [Opening.link])
    | awaiting o => exact .awaiting o (by simpa [Opening.link] using hlt)
    | readying o _ hready => exact .readying o (by simpa [Opening.link] using hlt) hready
  | close =>
    cases ht with
    | greeting o => exact .greeting o
    | awaiting o hc => exact .awaiting o hc
    | readying o hc hready => exact .readying o hc hready
  | serve hs =>
    cases ht with
    | serving o hready hr =>
      have htrail := Trail.serving o hready (hr.snoc hs)
      rwa [inbound_snoc, outbound_snoc, ← List.cons_append, ← List.cons_append, ← List.cons_append,
        ← List.cons_append] at htrail
  | extra => exact hstop rfl

theorem trail (hr : Steps Step (.opening false) h c) : Trail c (inbound h) (outbound h) := by
  refine Steps.history (I := fun h c => Trail c (inbound h) (outbound h)) .opening (fun h c e c' _ hs ht => ?_) hr
  rw [inbound_snoc, outbound_snoc]
  exact hs.trail ht

/-- A session that serves is one that the serve loop reaches, from what the handshake has agreed on. -/
theorem serving_reachable {s : Serve} (hr : Steps Step (.opening false) h (.serving s : Connection plugin)) :
    ∃ (o : Opening plugin) (session : SessionState) (w : List ServeEvent),
      Steps Serve.Step (.init (o.setup session)) w s ∧ session.identity = o.session.identity := by
  have ht := trail hr
  generalize inbound h = inb at ht
  generalize outbound h = out at ht
  cases ht with
  | serving o hready hserve => exact ⟨o, _, _, hserve, (o.identity_of_ready hready).1⟩

/-- Actions are started only by a session that serves. -/
private theorem starts_serving (hr : Steps Step (.opening false) h c) (hstart : ∃ e ∈ h, e.OfAction) :
    2 ≤ (outbound h).length := by
  refine Steps.history (I := fun h _ => (∃ e ∈ h, e.OfAction) → 2 ≤ (outbound h).length) (by simp)
    (fun h c e c' hr hs ih => ?_) hr hstart
  rintro ⟨x, hmem, hx⟩
  rw [outbound_snoc, List.length_append]
  rcases List.mem_append.1 hmem with hmem | hmem
  · exact (ih ⟨x, hmem, hx⟩).trans (Nat.le_add_right _ _)
  · rw [List.mem_singleton.1 hmem] at hx
    have hserving : ∃ s, c = .serving s := by
      cases hs with
      | serve => exact ⟨_, rfl⟩
      | _ => exact hx.elim
    obtain ⟨s, rfl⟩ := hserving
    have ht := trail hr
    generalize inbound h = inb at ht
    generalize outbound h = out at ht ⊢
    cases ht with
    | serving => simp only [List.length_cons]; omega

/-- What a session that still serves has accepted: its identity is that of the greeting, and the IDs have grown. -/
private theorem serving_pinned {s : Serve} (hr : Steps Step (.opening false) h (.serving s : Connection plugin))
    (hlive : s.Live) : ∃ first rest, inbound h = first :: rest ∧
      s.session.identity = ⟨first.sessionId, first.pluginInstanceId⟩ ∧
      ∀ r ∈ inbound h, r.messageId ≤ s.session.lastHostMessageId := by
  have ht := trail hr
  generalize inbound h = inb at ht ⊢
  generalize outbound h = out at ht
  cases ht with
  | @serving o envelope session _ w hready hserve =>
    have hp := Serve.pinned hserve hlive
    obtain ⟨-, -, -, -, -, -, hidentity, -⟩ := openSession_eq_ok o.valid
    obtain ⟨hsame, hlast⟩ := o.identity_of_ready hready
    have hlow : envelope.messageId ≤ s.session.lastHostMessageId := hlast ▸ hp.last
    refine ⟨o.first, _, rfl, hp.identity.trans (hsame.trans hidentity), ?_⟩
    rw [List.forall_mem_cons, List.forall_mem_cons]
    exact ⟨(o.readies hready).messageId.le.trans hlow, hlow, hp.ids⟩

/-- An envelope that a serving session takes belongs to it and comes after all that it has accepted, or the session
fails on it; after the shutdown every envelope is refused. -/
private theorem serving_received {s : Serve} {envelope : PluginEnvelope} {call : Option Nat}
    (hr : Steps Step (.opening false) h (.serving s : Connection plugin))
    (hs : Step (.serving s) (.received envelope call) c') :
    (∃ first rest trace, inbound h = first :: rest ∧
      validateEnvelope envelope s.session =
        .ok (trace, { s.session with lastHostMessageId := envelope.messageId }) ∧
      (∀ r ∈ inbound h, r.messageId < envelope.messageId) ∧
      envelope.sessionId = first.sessionId ∧ envelope.pluginInstanceId = first.pluginInstanceId ∧
      c' = .serving (s.process envelope).1) ∨
    (∃ e, validateEnvelope envelope s.session = .error e ∧ c' = .serving (s.fail e)) ∨
    ∃ deadline e, s.loop = .returned (.ok deadline) ∧ c' = .finished (.error e) := by
  cases hs with
  | extra hloop => exact Or.inr (Or.inr ⟨_, _, hloop, rfl⟩)
  | serve hs =>
    cases hs with
    | task hs => cases hs
    | context hs => cases hs
    | loop hs =>
      cases hs with
      | receive hloop =>
        cases hv : validateEnvelope envelope s.session with
        | error e =>
          have hprocess : s.process envelope = (s.fail e, none) := by
            unfold Serve.process
            rw [hv]
          exact Or.inr (Or.inl ⟨e, rfl, by rw [hprocess]⟩)
        | ok r =>
          obtain ⟨trace, session⟩ := r
          obtain ⟨first, rest, hin, hidentity, hids⟩ := serving_pinned hr (by simp [Serve.Live, hloop])
          obtain ⟨hlt, hsession, hinstance, -, -, rfl⟩ := validateEnvelope_eq_ok.1 hv
          rw [hidentity] at hsession hinstance
          exact Or.inl ⟨first, rest, trace, hin, rfl, fun r hmem => (hids r hmem).trans_lt hlt,
            hsession, hinstance, rfl⟩

/-- A session that has failed does nothing more. -/
private theorem failed_silent {s : Serve} {e : SdkError}
    (hr : Steps Step (.serving (s.fail e) : Connection plugin) h c) : ∀ x ∈ h, x.ofLoop = false := by
  refine (hr.events (I := fun c => ∃ s', c = .serving s' ∧ s'.loop = .returned (.error e))
    (fun c x c' hs hfailed => ?_) ⟨_, rfl, rfl⟩).2
  obtain ⟨s', rfl, hloop⟩ := hfailed
  cases hs with
  | extra hloop' => cases hloop.symm.trans hloop'
  | serve hs =>
    cases hs with
    | loop hs =>
      have hlive := hs.live
      simp [Serve.Live, hloop] at hlive
    | task hs => exact ⟨⟨_, rfl, hs.frame.loop.trans hloop⟩, hs.ofLoop⟩
    | context hs => exact ⟨⟨_, rfl, hs.frame.loop.trans hloop⟩, hs.ofLoop⟩

/-- The gate of a session.  Nothing is sent before the greeting of the host, the ready message is sent only after
that of the host, nothing else is sent and no action is started before it; and whatever a serving session then acts
on belongs to the session of the greeting and has a larger ID than all that was accepted before, while an envelope
that fails the check only ends the session. -/
theorem handshake_gate (hr : Steps Step (.opening false) h c) :
    (∀ env₁ out, outbound h = env₁ :: out → ∃ first rest hello trace, inbound h = first :: rest ∧
      Greets plugin first hello trace ∧ env₁.replyTo = none ∧ env₁.trace = some trace ∧
      env₁.payload = some (.pluginHello (plugin.hello hello)) ∧
      ∀ env₂ out', out = env₂ :: out' → ∃ second rest', rest = second :: rest' ∧ Readies first second ∧
        env₂.replyTo = none ∧ env₂.trace = some trace ∧ env₂.payload = some .ready) ∧
    ((∃ e ∈ h, e.OfAction) → 2 ≤ (outbound h).length) ∧
    ∀ s envelope call c', c = .serving s → Step c (.received envelope call) c' →
      (∃ first rest trace, inbound h = first :: rest ∧
        validateEnvelope envelope s.session =
          .ok (trace, { s.session with lastHostMessageId := envelope.messageId }) ∧
        (∀ r ∈ inbound h, r.messageId < envelope.messageId) ∧
        envelope.sessionId = first.sessionId ∧ envelope.pluginInstanceId = first.pluginInstanceId ∧
        c' = .serving (s.process envelope).1) ∨
      (∃ e, validateEnvelope envelope s.session = .error e ∧ c' = .serving (s.fail e) ∧
        ∀ h' c'', Steps Step c' h' c'' → ∀ x ∈ h', x.ofLoop = false) ∨
      ∃ deadline e, s.loop = .returned (.ok deadline) ∧ c' = .finished (.error e) := by
  refine ⟨fun env₁ out hout => ?_, starts_serving hr, fun s envelope call c' hc hs => ?_⟩
  · have hg := (trail hr).gate
    rw [hout] at hg
    generalize inbound h = inb at hg ⊢
    cases hg with
    | greeted o => exact ⟨o.first, _, o.hello, o.trace, rfl, o.greets, rfl, rfl, rfl, by simp⟩
    | ready o hready =>
      refine ⟨o.first, _, o.hello, o.trace, rfl, o.greets, rfl, rfl, rfl, fun env₂ out' hout' => ?_⟩
      cases hout'
      exact ⟨_, _, rfl, o.readies hready, rfl, rfl, rfl⟩
  · subst hc
    rcases serving_received hr hs with haccepted | ⟨e, hv, rfl⟩ | hextra
    · exact Or.inl haccepted
    · exact Or.inr (Or.inl ⟨e, hv, rfl, fun h' c'' hr' => failed_silent hr'⟩)
    · exact Or.inr (Or.inr hextra)

open Serve (sampleTrace sampleRequest)

def samplePlugin : Plugin where
  pluginId := "org.example.echo"
  version := "1.0.0"
  actions := (∅ : Table String RegisteredAction).insert "echo" ⟨"Echoes."⟩
  maximumConcurrentJobs := 1

def sampleGreeting : HostHello :=
  { node := some ⟨some "0f337c0c-51d6-44a9-a691-a31fce775ab1", some "primary-node"⟩
    maximumCallDepth := 10
    maximumCausalDepth := 10
    maximumArtifactChunkBytes := 2
    pluginId := some "org.example.echo"
    pluginName := some "echo" }

def sampleOpening : Opening samplePlugin where
  first := sampleRequest 1 (.hostHello sampleGreeting)
  hello := sampleGreeting
  trace := sampleTrace
  session := ⟨⟨"session", "instance"⟩, 1, 10, 10⟩
  valid := by decide +kernel

/-- Both sides greet and are ready. -/
def sampleHandshake : List ServeEvent :=
  [.received sampleOpening.first none, .sent sampleOpening.greeting, .received (sampleRequest 2 .ready) none,
    .sent sampleOpening.ready]

private theorem sampleHandshake_steps :
    ∃ c, Steps Step (.opening false : Connection samplePlugin) sampleHandshake c := by
  have hready : receiveReady (sampleRequest 2 .ready) sampleOpening.trace sampleOpening.session =
      .ok ⟨⟨"session", "instance"⟩, 2, 10, 10⟩ := by decide +kernel
  refine Steps.exists_cons (.opened sampleOpening) ?_
  refine Steps.exists_cons (.greet (by decide) rfl) ?_
  refine Steps.exists_cons (.accepted hready) ?_
  exact ⟨_, .single (.ready (by decide) rfl)⟩

theorem handshake_gate_sampleHandshake : ∃ first rest hello trace,
    inbound sampleHandshake = first :: rest ∧ Greets samplePlugin first hello trace := by
  obtain ⟨c, hr⟩ := sampleHandshake_steps
  obtain ⟨first, rest, hello, trace, hin, hgreets, -⟩ := (handshake_gate hr).1 sampleOpening.greeting _ rfl
  exact ⟨first, rest, hello, trace, hin, hgreets⟩

end Connection

end PluginSdk
