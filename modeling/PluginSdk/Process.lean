import PluginSdk.Serve

/-!
# What the steps of the serve loop can do

One inversion lemma for each function that a step calls: the ways in which the loop can take an envelope
(`Processed`), and what the tasks and the contexts leave alone.  The proofs about whole runs use these and never
unfold the functions.
-/

namespace PluginSdk

open Lts

/-- The event is a step of the session loop. -/
def ServeEvent.ofLoop : ServeEvent → Bool
  | .task _ _ _ | .reserved _ _ _ | .emitted _ _ _ | .refused _ _ _ | .internal _ _ | .released
      _ | .burned | .consumed
  | .closed => false
  | _ => true

/-- The envelope that an event puts on the wire. -/
def ServeEvent.enqueued : ServeEvent → Option PluginEnvelope
  | .sent envelope | .emitted _ _ envelope => some envelope
  | _ => none

namespace Serve

/-! ### Envelopes of the host -/

/-- The loop takes a request of the host: the envelope is valid, and no reply. -/
structure Request (s : Serve) (envelope : PluginEnvelope) (trace : TraceContext) (session : SessionState)
    (payload : Payload) : Prop where
  valid : validateEnvelope envelope s.session = .ok (trace, session)
  replyTo : envelope.replyTo = none
  payload : envelope.payload = some payload

theorem Request.payload_eq {s : Serve} {envelope : PluginEnvelope} {trace : TraceContext} {session : SessionState}
    {p q : Payload} (hreq : s.Request envelope trace session p) (hq : envelope.payload = some q) : p = q :=
  Option.some.inj (hreq.payload.symm.trans hq)

/-- What the loop makes of an envelope. -/
inductive Processed (s : Serve) (envelope : PluginEnvelope) : Serve → Option Nat → Prop
  | failed {session : SessionState} {pending : Pending} {e : SdkError} :
      s.session.lastHostMessageId ≤ session.lastHostMessageId →
      Processed s envelope ({ s with session, link := { s.link with pending } }.fail e) none
  | replied {session : SessionState} {trace : TraceContext} {replyTo call : Nat} {payload : Payload}
      {link : HostLink} : validateEnvelope envelope s.session = .ok (trace, session) →
      envelope.replyTo = some replyTo → envelope.payload = some payload →
      s.link.route replyTo trace = (link, .ok call) → Processed s envelope { s with session, link } (some call)
  | accepted {session : SessionState} {trace : TraceContext} {request : StartJobRequest} {jobId : String}
      {invocation : ActionInvocation} : s.Request envelope trace session (.startJob request) →
      s.jobs.Startable request jobId invocation → s.jobs.active.size < s.jobs.maximumConcurrentJobs →
      Processed s envelope
        { s with
          session
          loop := .sending [⟨some envelope.messageId, trace, .jobAccepted ⟨some ⟨jobId⟩⟩⟩]
            (.spawn ⟨jobId, request.deadline, trace, envelope.messageId, invocation.arguments⟩) } none
  | refused {session : SessionState} {trace : TraceContext} {request : StartJobRequest} {jobId : String}
      {invocation : ActionInvocation} : s.Request envelope trace session (.startJob request) →
      s.jobs.Startable request jobId invocation → s.jobs.maximumConcurrentJobs ≤ s.jobs.active.size →
      Processed s envelope
        { s with
          session
          loop := .sending
            [⟨some envelope.messageId, trace, .protocolError (capacityError s.jobs.maximumConcurrentJobs)⟩] .head }
        none
  | cancelled {session : SessionState} {trace : TraceContext} {request : CancelJobRequest} {jobId : String}
      {job : ActiveJob} : s.Request envelope trace session (.cancelJob request) →
      request.jobId = some ⟨jobId⟩ → s.jobs.active.lookup jobId = some job →
      Processed s envelope
        { s with
          session
          jobs :=
            { s.jobs with
              active := s.jobs.active.insert jobId
                { job with cancellations := job.cancellations ++ [⟨envelope.messageId, trace, ⟨jobId⟩⟩] } }
          cells := cancelAll s.cells [job.controller]
          loop := .sending [] .head } none
  | acknowledged {session : SessionState} {trace : TraceContext} {request : CancelJobRequest} {jobId : String} :
      s.Request envelope trace session (.cancelJob request) → request.jobId = some ⟨jobId⟩ →
      s.jobs.active.lookup jobId = none →
      Processed s envelope
        { s with
          session
          loop := .sending [⟨some envelope.messageId, trace, .cancelJobAcknowledged ⟨some ⟨jobId⟩⟩⟩] .head } none
  | heartbeat {session : SessionState} {trace : TraceContext} {heartbeat : Heartbeat} :
      s.Request envelope trace session (.heartbeat heartbeat) →
      Processed s envelope
        { s with session, loop := .sending [⟨some envelope.messageId, trace, .heartbeat heartbeat⟩] .head } none
  | shutdown {session : SessionState} {trace : TraceContext} {request : ShutdownRequest} {deadline : Timestamp} :
      s.Request envelope trace session (.shutdown request) → Validation.shutdown request = .ok deadline →
      Processed s envelope
        { s with
          session
          cells := cancelAll s.cells s.jobs.controllers
          loop := .draining ⟨some envelope.messageId, trace, .shutdownAcknowledged⟩ deadline } none

private theorem processed_fail {s : Serve} {envelope : PluginEnvelope} {session : SessionState} (e : SdkError)
    (hlast : s.session.lastHostMessageId ≤ session.lastHostMessageId) :
    Processed s envelope ({ s with session }.fail e) none := by
  have h : Processed s envelope ({ s with session, link := { s.link with pending := s.link.pending } }.fail e) none :=
    .failed hlast
  exact h

/-- A valid envelope has a larger ID than the last one. -/
private theorem last_le_of_validate {envelope : PluginEnvelope} {session session' : SessionState}
    {trace : TraceContext} (hv : validateEnvelope envelope session = .ok (trace, session')) :
    session.lastHostMessageId ≤ session'.lastHostMessageId := by
  obtain ⟨hlt, -, -, -, -, rfl⟩ := validateEnvelope_eq_ok.1 hv
  exact hlt.le

private theorem processed_reply {s : Serve} {envelope : PluginEnvelope} {trace : TraceContext}
    {session : SessionState} {replyTo : Nat} (hv : validateEnvelope envelope s.session = .ok (trace, session))
    (hr : envelope.replyTo = some replyTo) :
    Processed s envelope ({ s with session }.reply replyTo trace envelope.payload).1
      ({ s with session }.reply replyTo trace envelope.payload).2 := by
  unfold reply
  cases hp : envelope.payload with
  | none => exact processed_fail _ (last_le_of_validate hv)
  | some payload =>
    dsimp only
    cases checkReply payload with
    | error e => exact processed_fail e (last_le_of_validate hv)
    | ok _ =>
      dsimp only
      cases hroute : s.link.route replyTo trace with
      | mk link r =>
        cases r with
        | ok call => exact .replied hv hr hp hroute
        | error e =>
          have hlink : link = { s.link with pending := (HostClient.route s.link.pending replyTo trace).1 } :=
            (congrArg Prod.fst hroute).symm
          rw [hlink]
          exact .failed (last_le_of_validate hv)

private theorem processed_request {s : Serve} {envelope : PluginEnvelope} {trace : TraceContext}
    {session : SessionState} (hv : validateEnvelope envelope s.session = .ok (trace, session))
    (hr : envelope.replyTo = none) :
    Processed s envelope ({ s with session }.request envelope.messageId trace envelope.payload) none := by
  unfold request
  split
  · rename_i request hp
    cases hs : s.jobs.start envelope.messageId trace request with
    | error e => exact processed_fail e (last_le_of_validate hv)
    | ok r =>
      obtain ⟨jobId, invocation, hok⟩ := JobManager.startable_of_start hs
      rw [JobManager.start_of_startable hok] at hs
      split at hs
      · rename_i hfull
        cases hs
        exact .refused ⟨hv, hr, hp⟩ hok hfull
      · rename_i hfull
        cases hs
        exact .accepted ⟨hv, hr, hp⟩ hok (not_le.1 hfull)
  · rename_i request hp
    cases hs : s.jobs.cancel envelope.messageId trace request with
    | error e => exact processed_fail e (last_le_of_validate hv)
    | ok r =>
      unfold JobManager.cancel at hs
      obtain ⟨jobId, hj, hs⟩ := bind_eq_ok.1 hs
      obtain ⟨_, -, hs⟩ := bind_eq_ok.1 hs
      cases hl : s.jobs.active.lookup jobId with
      | some job =>
        rw [hl] at hs
        cases hs
        exact .cancelled ⟨hv, hr, hp⟩ (Validation.jobId_eq_ok hj) hl
      | none =>
        rw [hl] at hs
        cases hs
        have hcells : cancelAll s.cells [] = s.cells := funext fun cell => by simp [cancelAll]
        have h := Processed.acknowledged ⟨hv, hr, hp⟩ (Validation.jobId_eq_ok hj) hl
        rw [← hcells] at h
        exact h
  · rename_i heartbeat hp
    exact .heartbeat ⟨hv, hr, hp⟩
  · rename_i request hp
    cases hs : Validation.shutdown request with
    | error e => exact processed_fail e (last_le_of_validate hv)
    | ok deadline => exact .shutdown ⟨hv, hr, hp⟩ hs
  · rename_i error hp
    cases Validation.protocolError error with
    | error e => exact processed_fail e (last_le_of_validate hv)
    | ok _ => exact processed_fail _ (last_le_of_validate hv)
  · exact processed_fail _ (last_le_of_validate hv)
  · exact processed_fail _ (last_le_of_validate hv)

theorem process_processed (s : Serve) (envelope : PluginEnvelope) :
    Processed s envelope (s.process envelope).1 (s.process envelope).2 := by
  unfold process
  cases hv : validateEnvelope envelope s.session with
  | error e => exact processed_fail e le_rfl
  | ok r =>
    obtain ⟨trace, session⟩ := r
    cases hr : envelope.replyTo with
    | some replyTo => exact processed_reply hv hr
    | none => exact processed_request hv hr

theorem Processed.last_le {s s' : Serve} {envelope : PluginEnvelope} {call : Option Nat}
    (hp : Processed s envelope s' call) : s.session.lastHostMessageId ≤ s'.session.lastHostMessageId := by
  cases hp with
  | failed h => exact h
  | replied hv => exact last_le_of_validate hv
  | accepted hreq | refused hreq | cancelled hreq | acknowledged hreq | heartbeat hreq | shutdown hreq =>
    exact last_le_of_validate hreq.valid

/-- Taking an envelope touches no task. -/
theorem Processed.tasks {s s' : Serve} {envelope : PluginEnvelope} {call : Option Nat}
    (hp : Processed s envelope s' call) : s'.jobs.tasks = s.jobs.tasks ∧ s'.spawned = s.spawned := by
  cases hp <;> exact ⟨rfl, rfl⟩

/-- The outcomes of an otherwise valid request for a job. -/
theorem process_of_startable {s : Serve} {envelope : PluginEnvelope} {trace : TraceContext} {session : SessionState}
    {request : StartJobRequest} {jobId : String} {invocation : ActionInvocation}
    (hreq : s.Request envelope trace session (.startJob request)) (hok : s.jobs.Startable request jobId invocation) :
    s.process envelope =
      if s.jobs.maximumConcurrentJobs ≤ s.jobs.active.size then
        ({ s with
          session
          loop := .sending
            [⟨some envelope.messageId, trace, .protocolError (capacityError s.jobs.maximumConcurrentJobs)⟩] .head },
              none)
      else
        ({ s with
          session
          loop := .sending [⟨some envelope.messageId, trace, .jobAccepted ⟨some ⟨jobId⟩⟩⟩]
            (.spawn ⟨jobId, request.deadline, trace, envelope.messageId, invocation.arguments⟩) }, none) := by
  have hstart : s.jobs.start envelope.messageId trace request = _ := JobManager.start_of_startable hok
  unfold process
  by_cases hfull : s.jobs.maximumConcurrentJobs ≤ s.jobs.active.size
  · rw [if_pos hfull] at hstart ⊢
    simp only [hreq.valid, hreq.replyTo, hreq.payload, Serve.request, hstart]
  · rw [if_neg hfull] at hstart ⊢
    simp only [hreq.valid, hreq.replyTo, hreq.payload, Serve.request, hstart]

/-- The outcome of a valid cancellation of an active job. -/
theorem process_of_cancel {s : Serve} {envelope : PluginEnvelope} {trace : TraceContext} {session : SessionState}
    {request : CancelJobRequest} {jobId : String} {job : ActiveJob}
    (hreq : s.Request envelope trace session (.cancelJob request)) (hid : Validation.jobId request.jobId = .ok jobId)
    (hreason : Validation.cancellationReason request.reason = .ok ()) (hl : s.jobs.active.lookup jobId = some job) :
    s.process envelope =
      ({ s with
        session
        jobs :=
          { s.jobs with
            active := s.jobs.active.insert jobId
              { job with cancellations := job.cancellations ++ [⟨envelope.messageId, trace, ⟨jobId⟩⟩] } }
        cells := cancelAll s.cells [job.controller]
        loop := .sending [] .head }, none) := by
  unfold process
  simp only [hreq.valid, hreq.replyTo, hreq.payload, Serve.request, JobManager.cancel_of_lookup hid hreason hl]

/-- The outcome of a valid shutdown. -/
theorem process_of_shutdown {s : Serve} {envelope : PluginEnvelope} {trace : TraceContext} {session : SessionState}
    {request : ShutdownRequest} {deadline : Timestamp} (hreq : s.Request envelope trace session (.shutdown request))
    (hok : Validation.shutdown request = .ok deadline) :
    s.process envelope =
      ({ s with
        session
        cells := cancelAll s.cells s.jobs.controllers
        loop := .draining ⟨some envelope.messageId, trace, .shutdownAcknowledged⟩ deadline }, none) := by
  unfold process
  simp only [hreq.valid, hreq.replyTo, hreq.payload, Serve.request, hok]

/-- The outcome of a valid reply to a registered request. -/
theorem process_of_reply {s : Serve} {envelope : PluginEnvelope} {trace : TraceContext} {session : SessionState}
    {payload : Payload} {replyTo call : Nat} (hvalid : validateEnvelope envelope s.session = .ok (trace, session))
    (hreply : envelope.replyTo = some replyTo) (hpayload : envelope.payload = some payload)
    (hcheck : checkReply payload = .ok ()) (hl : s.link.pending.lookup replyTo = some ⟨trace, call⟩) :
    s.process envelope =
      ({ s with session, link := { s.link with pending := s.link.pending.erase replyTo } }, some call) := by
  unfold process
  simp only [hvalid, hreply, hpayload, reply, hcheck, HostLink.route_of_lookup hl]

theorem LoopStep.of_process {s s' : Serve} {envelope : PluginEnvelope} {call : Option Nat} (hloop : s.loop = .head)
    (h : s.process envelope = (s', call)) : LoopStep s (.received envelope call) s' := by
  have hs : LoopStep s (.received envelope (s.process envelope).2) (s.process envelope).1 := .receive hloop
  rwa [h] at hs

theorem Step.received_inv {s s' : Serve} {envelope : PluginEnvelope} {call : Option Nat}
    (hs : Step s (.received envelope call) s') : s.loop = .head ∧ Processed s envelope s' call := by
  cases hs with
  | task hs => cases hs
  | context hs => cases hs
  | loop hs =>
    cases hs with
    | receive hloop => exact ⟨hloop, process_processed s envelope⟩

/-! ### Tasks and contexts -/

/-- What the tasks and the contexts leave alone. -/
structure Frame (s s' : Serve) : Prop where
  loop : s'.loop = s.loop
  active : s'.jobs.active = s.jobs.active
  keys : taskKeys s'.jobs.tasks = taskKeys s.jobs.tasks
  maximum : s'.jobs.maximumConcurrentJobs = s.jobs.maximumConcurrentJobs
  spawned : s'.spawned = s.spawned
  session : s'.session = s.session

theorem taskKeys_setPhase (s : Serve) (inst : Nat) (phase : TaskPhase) :
    taskKeys (s.setPhase inst phase).jobs.tasks = taskKeys s.jobs.tasks := by
  simp only [setPhase, taskKeys, List.map_map]
  refine List.map_congr_left fun t _ => ?_
  simp only [Function.comp_apply]
  split <;> rfl

theorem TaskStep.frame {s s' : Serve} {e : ServeEvent} (hs : TaskStep s e s') : Frame s s' := by
  cases hs with
  | act => exact ⟨rfl, rfl, rfl, rfl, rfl, rfl⟩
  | _ => exact ⟨rfl, rfl, taskKeys_setPhase .., rfl, rfl, rfl⟩

theorem ContextStep.frame {s s' : Serve} {e : ServeEvent} (hs : ContextStep s e s') : Frame s s' := by
  cases hs <;> exact ⟨rfl, rfl, rfl, rfl, rfl, rfl⟩

theorem LoopStep.ofLoop {s s' : Serve} {e : ServeEvent} (hs : LoopStep s e s') : e.ofLoop = true := by
  cases hs <;> rfl

theorem TaskStep.ofLoop {s s' : Serve} {e : ServeEvent} (hs : TaskStep s e s') : e.ofLoop = false := by
  cases hs <;> rfl

theorem ContextStep.ofLoop {s s' : Serve} {e : ServeEvent} (hs : ContextStep s e s') : e.ofLoop = false := by
  cases hs <;> rfl

/-- A context touches nothing but the link. -/
theorem ContextStep.link {s s' : Serve} {e : ServeEvent} (hs : ContextStep s e s') :
    s' = { s with link := s'.link } := by
  cases hs <;> rfl

/-- A task does not touch the link. -/
theorem TaskStep.link {s s' : Serve} {e : ServeEvent} (hs : TaskStep s e s') : s'.link = s.link := by
  cases hs <;> rfl

/-! ### The wire -/

/-- The link after the handshake. -/
theorem init_link (setup : Setup) : (init setup).link =
    { identity := setup.session.identity
      capacity := outgoingCapacity
      sender := ⟨3⟩
      reserved := none
      pending := ∅
      wire := [setup.session.identity.stamp 1 ⟨none, setup.handshakeTrace, .pluginHello setup.hello⟩,
        setup.session.identity.stamp 2 ⟨none, setup.handshakeTrace, .ready⟩]
      consumed := 0
      closed := false } := rfl

/-- Taking an envelope enqueues nothing. -/
theorem Processed.link {s s' : Serve} {envelope : PluginEnvelope} {call : Option Nat}
    (hp : Processed s envelope s' call) : ∃ pending, s'.link = { s.link with pending } := by
  cases hp with
  | replied _ _ _ hroute => exact ⟨_, HostLink.route_eq hroute⟩
  | _ => exact ⟨_, rfl⟩

/-- The wire grows by the envelope that a step enqueues, and only by it. -/
theorem Step.wire {s s' : Serve} {e : ServeEvent} (hs : Step s e s') :
    s'.link.wire = s.link.wire ++ e.enqueued.toList := by
  have hsame : s'.link.wire = s.link.wire → e.enqueued = none → s'.link.wire = s.link.wire ++ e.enqueued.toList := by
    intro hw he
    rw [hw, he]
    simp
  cases hs with
  | task hs => exact hsame (by rw [hs.link]) (by cases hs <;> rfl)
  | context hs =>
    cases hs with
    | emit _ _ _ hsend => rw [(HostLink.send_eq_ok hsend).2]; rfl
    | emitFailed _ _ hsend => exact hsame (by rw [HostLink.send_eq_error hsend]) rfl
    | reserve _ _ hreserve => exact hsame (by rw [(HostLink.reserve_eq_ok hreserve).2]) rfl
    | reserveFailed _ _ hreserve => exact hsame (by rw [HostLink.reserve_eq_error hreserve]) rfl
    | commit => rfl
    | burn => exact hsame (by rw [HostLink.burn_eq]) rfl
    | _ => exact hsame rfl rfl
  | loop hs =>
    cases hs with
    | receive =>
      obtain ⟨pending, hl⟩ := (process_processed s _).link
      exact hsame (by rw [hl]) rfl
    | send _ _ _ hsend => rw [(HostLink.send_eq_ok hsend).2]; rfl
    | sendFailed _ _ hsend => exact hsame (by simp only [fail]; rw [HostLink.send_eq_error hsend]) rfl
    | acknowledge _ _ _ hsend => rw [(HostLink.send_eq_ok hsend).2]; rfl
    | acknowledgeFailed _ _ hsend => exact hsame (by simp only [fail]; rw [HostLink.send_eq_error hsend]) rfl
    | _ => exact hsame rfl rfl

theorem wire_eq {s s' : Serve} {h : List ServeEvent} (hr : Steps Step s h s') :
    s'.link.wire = s.link.wire ++ h.filterMap ServeEvent.enqueued := by
  refine Steps.history (I := fun h s' => s'.link.wire = s.link.wire ++ h.filterMap ServeEvent.enqueued)
    (by simp) (fun h t e t' _ hs ih => ?_) hr
  rw [hs.wire, ih, List.filterMap_append, List.append_assoc]
  congr 1

/-- A request that waits for channel capacity is no reply. -/
theorem reserved_replyTo {setup : Setup} {h : List ServeEvent} {s : Serve} (hr : Steps Step (init setup) h s) :
    ∀ r, s.link.reserved = some r → r.outgoing.replyTo = none := by
  refine hr.invariant (I := fun s => ∀ r, s.link.reserved = some r → r.outgoing.replyTo = none)
    (fun s e s' hs ih => ?_) (by simp [init_link])
  have hsame : s'.link.reserved = s.link.reserved → ∀ r, s'.link.reserved = some r → r.outgoing.replyTo = none :=
    fun heq r hr => ih r (heq ▸ hr)
  cases hs with
  | task hs => exact hsame (by rw [hs.link])
  | context hs =>
    cases hs with
    | emit _ _ _ hsend => exact hsame (by rw [(HostLink.send_eq_ok hsend).2])
    | emitFailed _ _ hsend => exact hsame (by rw [HostLink.send_eq_error hsend])
    | reserve _ _ hreserve =>
      rw [(HostLink.reserve_eq_ok hreserve).2]
      intro r hr
      cases hr
      rfl
    | reserveFailed _ _ hreserve => exact hsame (by rw [HostLink.reserve_eq_error hreserve])
    | commit => simp [HostLink.commit]
    | commitFailed => simp [HostLink.release]
    | release => simp [HostLink.release]
    | burn => exact hsame (by rw [HostLink.burn_eq])
    | _ => exact hsame rfl
  | loop hs =>
    cases hs with
    | receive =>
      obtain ⟨pending, hl⟩ := (process_processed s _).link
      exact hsame (by rw [hl])
    | send _ _ _ hsend => exact hsame (by rw [(HostLink.send_eq_ok hsend).2])
    | sendFailed _ _ hsend => exact hsame (by simp only [fail]; rw [HostLink.send_eq_error hsend])
    | acknowledge _ _ _ hsend => exact hsame (by rw [(HostLink.send_eq_ok hsend).2])
    | acknowledgeFailed _ _ hsend => exact hsame (by simp only [fail]; rw [HostLink.send_eq_error hsend])
    | _ => exact hsame rfl

/-! ### A small session -/

def sampleTrace : TraceContext := ⟨"correlation", none, 0, 0, none, none⟩

def sampleJobId : String := "0f337c0c-51d6-44a9-a691-a31fce775ab1"

def sampleSetup : Setup where
  session := ⟨⟨"session", "instance"⟩, 2, 10, 10⟩
  host := ⟨"session", 2, 10⟩
  handshakeTrace := sampleTrace
  hello := ⟨some "org.example.echo", some "echo", [⟨"echo", "Echoes."⟩], "1.0.0"⟩
  actions := (∅ : Table String RegisteredAction).insert "echo" ⟨"Echoes."⟩
  maximumConcurrentJobs := 1

/-- A request of the host in the sample session. -/
def sampleRequest (messageId : Nat) (payload : Payload) : PluginEnvelope where
  messageId := messageId
  replyTo := none
  sessionId := "session"
  pluginInstanceId := "instance"
  trace := some sampleTrace
  payload := some payload

def sampleStart : PluginEnvelope := sampleRequest 3 (.startJob ⟨some ⟨sampleJobId⟩, none, some ⟨"echo", []⟩⟩)

def sampleCancel : PluginEnvelope := sampleRequest 4 (.cancelJob ⟨some ⟨sampleJobId⟩, 1⟩)

def sampleReply (id replyTo : Nat) (payload : Payload) : PluginEnvelope :=
  sampleSetup.session.identity.stamp id ⟨some replyTo, sampleTrace, payload⟩

theorem sampleRequest_valid {s : Serve} {last id : Nat} {payload : Payload}
    (hs : s.session = ⟨⟨"session", "instance"⟩, last, 10, 10⟩) (hid : last < id) :
    s.Request (sampleRequest id payload) sampleTrace ⟨⟨"session", "instance"⟩, id, 10, 10⟩ payload := by
  refine ⟨validateEnvelope_eq_ok.2 ?_, rfl, rfl⟩
  rw [hs]
  exact ⟨hid, rfl, rfl, rfl, ⟨by decide, Nat.zero_le _, Nat.zero_le _⟩, rfl⟩

theorem sampleReply_valid {session : SessionState} {last id replyTo : Nat} {payload : Payload}
    (hs : session = ⟨⟨"session", "instance"⟩, last, 10, 10⟩) (hid : last < id) :
    validateEnvelope (sampleReply id replyTo payload) session =
      .ok (sampleTrace, ⟨⟨"session", "instance"⟩, id, 10, 10⟩) := by
  rw [hs]
  exact validateEnvelope_eq_ok.2 ⟨hid, rfl, rfl, rfl, ⟨by decide, Nat.zero_le _, Nat.zero_le _⟩, rfl⟩

theorem jobId_sampleJobId : Validation.jobId (some ⟨sampleJobId⟩) = .ok sampleJobId := by decide +kernel

def sampleAccepted : PluginEnvelope := sampleReply 3 3 (.jobAccepted ⟨some ⟨sampleJobId⟩⟩)

def sampleAcknowledged : PluginEnvelope := sampleReply 4 4 (.cancelJobAcknowledged ⟨some ⟨sampleJobId⟩⟩)

/-- A job is accepted and cancelled, its action ends, and its cancellation is acknowledged. -/
def sampleRun : List ServeEvent :=
  [.received sampleStart none, .sent sampleAccepted,
    .spawned 0 ⟨sampleJobId, none, sampleTrace, 0, 3, sampleSetup.host⟩,
    .received sampleCancel none, .resumed,
    .task 0 sampleJobId .started, .task 0 sampleJobId (.ended (.ok (.error .cancelled))),
    .task 0 sampleJobId .finished, .task 0 sampleJobId .completed, .joined 0 sampleJobId,
    .sent sampleAcknowledged, .settled sampleJobId]

theorem sampleRun_steps : ∃ s, Steps Step (init sampleSetup) sampleRun s := by
  have hstart : (init sampleSetup).Request sampleStart sampleTrace ⟨⟨"session", "instance"⟩, 3, 10, 10⟩
      (.startJob ⟨some ⟨sampleJobId⟩, none, some ⟨"echo", []⟩⟩) := sampleRequest_valid rfl (by decide)
  have hok : (init sampleSetup).jobs.Startable ⟨some ⟨sampleJobId⟩, none, some ⟨"echo", []⟩⟩
    sampleJobId ⟨"echo", []⟩ :=
    ⟨jobId_sampleJobId, rfl, rfl, rfl, by decide⟩
  refine Steps.exists_cons (.loop (.of_process rfl ((process_of_startable hstart hok).trans (if_neg (by decide))))) ?_
  refine Steps.exists_cons (.loop (.send rfl rfl (by decide) rfl)) ?_
  refine Steps.exists_cons (.loop (@LoopStep.spawn _ ⟨sampleJobId, none, sampleTrace, 3, []⟩ rfl rfl)) ?_
  refine Steps.exists_cons (.loop (.of_process rfl
    (process_of_cancel (sampleRequest_valid rfl (by decide)) jobId_sampleJobId rfl rfl))) ?_
  refine Steps.exists_cons (.loop (.resume rfl)) ?_
  refine Steps.exists_cons (.task (.start (List.mem_singleton.2 rfl))) ?_
  refine Steps.exists_cons (.task (.stop (List.mem_singleton.2 rfl))) ?_
  refine Steps.exists_cons (.task (.finish (List.mem_singleton.2 rfl))) ?_
  refine Steps.exists_cons (.task (.complete (List.mem_singleton.2 rfl))) ?_
  refine Steps.exists_cons (.loop (.join rfl (by decide) (List.mem_singleton.2 rfl) rfl)) ?_
  refine Steps.exists_cons (.loop (.send rfl rfl (by decide) rfl)) ?_
  exact ⟨_, .single (.loop (.remove rfl rfl))⟩

end Serve

end PluginSdk
