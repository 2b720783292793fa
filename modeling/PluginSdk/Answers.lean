import PluginSdk.Origins

/-!
# Answers to host calls

What a host call returns: a response of its own kind whose values are valid in the session, or the error of the host
(`hostCall_returns_ok`, `hostCall_returns_host`).
-/

namespace PluginSdk

open Program Lts

/-! ### Kinds -/

def HostCall.kind : HostCall → HostCallKind
  | .readDocument _ => .readDocument
  | .listDirectory _ => .listDirectory
  | .getDirectoryTree _ => .getDirectoryTree
  | .readCrdt _ => .readCrdt
  | .commitDocuments _ => .commitDocuments
  | .getConfig _ => .getConfig
  | .invokeConfigFunction _ => .invokeConfigFunction

/-- The kind of call that a result answers; an error answers none. -/
def HostCallResult.kind : HostCallResult → Option HostCallKind
  | .readDocument _ => some .readDocument
  | .listDirectory _ => some .listDirectory
  | .getDirectoryTree _ => some .getDirectoryTree
  | .readCrdt _ => some .readCrdt
  | .commitDocuments _ => some .commitDocuments
  | .getConfig _ => some .getConfig
  | .invokeConfigFunction _ => some .invokeConfigFunction
  | .error _ => none

/-- The configuration values of a result. -/
def HostCallResult.values : HostCallResult → List ConfigValue
  | .getConfig response => response.value.toList
  | .invokeConfigFunction response => response.results
  | _ => []

/-- A valid answer to a call of the kind. -/
def HostCallResponse.Answers (response : HostCallResponse) (kind : HostCallKind) (sessionId : String) : Prop :=
  ∃ result, response.result = some result ∧ result.kind = some kind ∧
    validateSessionValues result.values sessionId = .ok ()

namespace HostCallKind

variable {call : HostCall} {kind : HostCallKind} {response : HostCallResponse} {sessionId : String}

/-- A call is of the kind that its check finds. -/
private theorem kind_of_validate (h : validate call sessionId = .ok kind) : kind = call.kind := by
  cases call with
  | getConfig request =>
    unfold validate at h
    simp only at h
    split at h
    · cases h
    · cases h
      rfl
  | invokeConfigFunction request =>
    unfold validate at h
    simp only at h
    split at h
    · cases h
    · split at h
      · cases h
      · obtain ⟨_, -, h⟩ := bind_eq_ok.1 h
        cases h
        rfl
  | _ =>
    cases h
    rfl

/-- A result of the kind of the call is checked for its values. -/
private theorem validateResponse_of_kind {result : HostCallResult} (h : result.kind = some kind) :
    kind.validateResponse ⟨some result⟩ sessionId = validateSessionValues result.values sessionId := by
  cases result with
  | getConfig response =>
    cases h
    obtain ⟨value⟩ := response
    cases value <;> rfl
  | error error => cases h
  | _ =>
    cases h
    rfl

/-- A result of another kind is refused. -/
private theorem validateResponse_of_ne {result : HostCallResult} (hno : ∀ error, result ≠ .error error)
    (h : result.kind ≠ some kind) : kind.validateResponse ⟨some result⟩ sessionId =
      .error (.protocol "host returned another response kind for HostCallRequest") := by
  cases result with
  | error error => exact absurd rfl (hno error)
  | _ => cases kind <;> first | rfl | exact absurd rfl h

/-- A result that is no error is accepted if and only if it is a valid answer of the kind of the call. -/
theorem validateResponse_eq_ok {result : HostCallResult} (hno : ∀ error, result ≠ .error error) :
    kind.validateResponse ⟨some result⟩ sessionId = .ok () ↔ HostCallResponse.Answers
    ⟨some result⟩ kind sessionId := by
  constructor
  · intro h
    by_cases hkind : result.kind = some kind
    · rw [validateResponse_of_kind hkind] at h
      exact ⟨result, rfl, hkind, h⟩
    · rw [validateResponse_of_ne hno hkind] at h
      cases h
  · rintro ⟨result', heq, hkind, hvalues⟩
    cases heq
    rw [validateResponse_of_kind hkind, hvalues]

end HostCallKind

/-- The response that a call takes out of a payload. -/
theorem callResponse_eq_ok {payload : Payload} {response : HostCallResponse} :
    callResponse payload = .ok response ↔
      payload = .hostResult response ∧ ∃ result, response.result = some result ∧ ∀ error, result ≠ .error error := by
  constructor
  · intro h
    unfold callResponse at h
    split at h
    · split at h
      · obtain ⟨_, -, h⟩ := bind_eq_ok.1 h
        cases h
      · rename_i response' result hno hresult
        cases h
        exact ⟨rfl, result, hresult, hno⟩
      · cases h
    · cases h
  · rintro ⟨rfl, result, hresult, hno⟩
    unfold callResponse
    simp only
    split
    · rename_i error herror
      exact absurd (Option.some.inj (hresult.symm.trans herror)) (hno error)
    · rfl
    · rename_i hnone
      rw [hresult] at hnone
      cases hnone

/-! ### Results of a host call -/

namespace ContextProgram

variable {α : Type} {R : (o : ContextOp) → o.Reply → Prop}

private theorem returns_lift {x r : Except SdkError α} : (lift x).run.Returns R r ↔ x = r := Iff.rfl

private theorem returns_ok {a b : α} : (pure a : ContextProgram α).run.Returns R (.ok b) ↔ a = b := by
  constructor
  · intro h
    cases h
    rfl
  · rintro rfl
    rfl

private theorem returns_ensureActive {u : Unit} :
    ensureActive.run.Returns R (.ok u) ↔ R .ensureActive (show Bool from true) := by
  constructor
  · rintro ⟨active, hactive, h⟩
    cases (active : Bool) with
    | true => exact hactive
    | false => cases h
  · intro hactive
    exact ⟨_, hactive, rfl⟩

private theorem returns_request {trace : TraceContext} {payload answer : Payload} :
    (request trace payload).run.Returns R (.ok answer) ↔
      R (.request trace payload) (Selected.ready (α := Except SdkError Payload) (.ok answer)) := by
  constructor
  · rintro ⟨r, hr, h⟩
    rcases r with _ | (e | answer')
    · cases h
    · cases h
    · cases h
      exact hr
  · intro hr
    exact ⟨_, hr, rfl⟩

end ContextProgram

namespace ActionContext

variable {context : ActionContext} {call : HostCall} {response : HostCallResponse}

/-- The call may be made: it passes its check, and it is not too deep. -/
def Allows (context : ActionContext) (call : HostCall) : Prop :=
  (∃ kind, HostCallKind.validate call context.host.sessionId = .ok kind) ∧
    context.trace.callDepth + 1 ≤ context.host.maximumCallDepth

/-- The trace of a host call is that of the job, with the `StartJob` as its parent and one level deeper. -/
theorem hostCallTrace_eq_ok {trace : TraceContext} (h : context.hostCallTrace = .ok trace) :
    context.trace.callDepth + 1 ≤ context.host.maximumCallDepth ∧
      trace = { context.trace with
        parentCallId := some context.parentCallId
        callDepth := context.trace.callDepth + 1 } := by
  unfold hostCallTrace checkedAddU32 at h
  by_cases hlt : context.trace.callDepth + 1 < 2 ^ 32
  · rw [if_pos hlt] at h
    simp only at h
    by_cases hdepth : context.trace.callDepth + 1 > context.host.maximumCallDepth
    · rw [if_pos hdepth] at h
      cases h
    · rw [if_neg hdepth] at h
      cases h
      exact ⟨not_lt.1 hdepth, rfl⟩
  · rw [if_neg hlt] at h
    cases h

/-- The depth of a host call does not overflow below a limit of 32 bits. -/
private theorem hostCallTrace_of_le (hle : context.trace.callDepth + 1 ≤ context.host.maximumCallDepth)
    (hmax : context.host.maximumCallDepth < 2 ^ 32) : ∃ trace, context.hostCallTrace = .ok trace := by
  have hlt : context.trace.callDepth + 1 < 2 ^ 32 := by omega
  have hdepth : ¬ context.trace.callDepth + 1 > context.host.maximumCallDepth := by omega
  unfold hostCallTrace checkedAddU32
  rw [if_pos hlt]
  simp only
  rw [if_neg hdepth]
  exact ⟨_, rfl⟩

/-- When a host call returns a response. -/
private theorem hostCall_returns_ok {R : (o : ContextOp) → o.Reply → Prop} :
    (context.hostCall call).run.Returns R (.ok response) ↔
      R .ensureActive (show Bool from true) ∧ ∃ kind trace payload,
        HostCallKind.validate call context.host.sessionId = .ok kind ∧ context.hostCallTrace = .ok trace ∧
        R (.request trace (.hostCall ⟨some call⟩)) (Selected.ready (α := Except SdkError Payload) (.ok payload)) ∧
        callResponse payload = .ok response ∧ kind.validateResponse response context.host.sessionId = .ok () := by
  unfold hostCall
  simp only [returns_ok_bind, ContextProgram.returns_lift, ContextProgram.returns_ensureActive,
    ContextProgram.returns_request, ContextProgram.returns_ok]
  constructor
  · rintro ⟨_, hactive, kind, hkind, trace, htrace, payload, hr, _, hpayload, _, hvalid, rfl⟩
    exact ⟨hactive, kind, trace, payload, hkind, htrace, hr, hpayload, hvalid⟩
  · rintro ⟨hactive, kind, trace, payload, hkind, htrace, hr, hpayload, hvalid⟩
    exact ⟨(), hactive, kind, hkind, trace, htrace, payload, hr, response, hpayload, (), hvalid, rfl⟩

/-- Whatever a host call is answered with, its response is a valid answer of its own kind. -/
theorem answers_of_hostCall (h : (context.hostCall call).run.Returns (fun _ _ => True) (.ok response)) :
    response.Answers call.kind context.host.sessionId := by
  obtain ⟨-, kind, -, payload, hkind, -, -, hpayload, hvalid⟩ := hostCall_returns_ok.1 h
  obtain ⟨-, result, hresult, hno⟩ := callResponse_eq_ok.1 hpayload
  obtain ⟨_⟩ := response
  cases hresult
  rw [← HostCallKind.kind_of_validate hkind]
  exact (HostCallKind.validateResponse_eq_ok hno).1 hvalid

/-- What a call that is not cancelled is answered with when the host replies with `payload`. -/
def Replying (payload : Payload) : (o : ContextOp) → o.Reply → Prop
  | .ensureActive, active => active = (show Bool from true)
  | .request _ _, r => r = Selected.ready (HostClient.received payload)
  | _, _ => False

private theorem received_eq_ok {payload answer : Payload} (h : HostClient.received payload = .ok answer) :
    answer = payload := by
  unfold HostClient.received at h
  split at h
  · cases h
  · exact (Except.ok.inj h).symm

/-- A host call always returns when the host replies. -/
theorem hostCall_returns (call : HostCall) (payload : Payload) :
    ∃ result, (context.hostCall call).run.Returns (Replying payload) result := by
  have hall : (context.hostCall call).run.All fun o => ∃ r, Replying payload o r := by
    refine All.except_bind ⟨⟨_, rfl⟩, fun _ => trivial⟩ fun _ => ContextProgram.lift_bind_all fun _ _ => ?_
    refine ContextProgram.lift_bind_all fun _ _ => All.except_bind ⟨⟨_, rfl⟩, fun _ => trivial⟩ fun _ => ?_
    exact ContextProgram.lift_bind_all fun _ _ => ContextProgram.lift_bind_all fun _ _ => trivial
  exact hall.exists_returns fun _ => id

/-- It returns the response of the host if and only if that is a valid answer to an allowed call. -/
private theorem hostCall_returns_response (hmax : context.host.maximumCallDepth < 2 ^ 32) {payload : Payload} :
    (context.hostCall call).run.Returns (Replying payload) (.ok response) ↔
      context.Allows call ∧ payload = .hostResult response ∧ response.Answers call.kind context.host.sessionId := by
  rw [hostCall_returns_ok]
  constructor
  · rintro ⟨-, kind, trace, answer, hkind, htrace, hr, hpayload, hvalid⟩
    obtain rfl : answer = payload := received_eq_ok (Selected.ready.inj hr).symm
    obtain ⟨rfl, result, hresult, hno⟩ := callResponse_eq_ok.1 hpayload
    obtain ⟨_⟩ := response
    cases hresult
    rw [← HostCallKind.kind_of_validate hkind, ← HostCallKind.validateResponse_eq_ok hno]
    exact ⟨⟨⟨kind, hkind⟩, (hostCallTrace_eq_ok htrace).1⟩, rfl, hvalid⟩
  · rintro ⟨⟨⟨kind, hkind⟩, hdepth⟩, rfl, hanswers⟩
    obtain ⟨trace, htrace⟩ := hostCallTrace_of_le hdepth hmax
    have hanswers' := hanswers
    obtain ⟨result, hresult, hanswered, -⟩ := hanswers'
    have hno : ∀ error, result ≠ .error error := by
      rintro error rfl
      cases hanswered
    refine ⟨rfl, kind, trace, .hostResult response, hkind, htrace, rfl, ?_, ?_⟩
    · exact callResponse_eq_ok.2 ⟨rfl, result, hresult, hno⟩
    · obtain ⟨_⟩ := response
      cases hresult
      rw [HostCallKind.validateResponse_eq_ok hno, HostCallKind.kind_of_validate hkind]
      exact hanswers

/-- What a call of the kind makes of the payload that answers its request. -/
def answered (context : ActionContext) (kind : HostCallKind) (payload : Payload) :
    Except SdkError HostCallResponse := do
  let response ← callResponse payload
  kind.validateResponse response context.host.sessionId
  .ok response

/-- An allowed call is one request. -/
theorem hostCall_run {kind : HostCallKind} {trace : TraceContext}
    (hkind : HostCallKind.validate call context.host.sessionId = .ok kind)
    (htrace : context.hostCallTrace = .ok trace) : (context.hostCall call).run =
      .op .ensureActive fun (active : Bool) =>
        if active then
          .op (.request trace (.hostCall ⟨some call⟩)) fun r =>
            .pure (ContextProgram.selected r >>= context.answered kind)
        else .pure (.error .cancelled) := by
  simp only [hostCall, hkind, htrace]
  refine congrArg (Program.op ContextOp.ensureActive) (funext fun active => ?_)
  cases (active : Bool) with
  | false => rfl
  | true =>
    refine congrArg (Program.op _) (funext fun r => ?_)
    rcases r with _ | (_ | payload)
    · rfl
    · rfl
    · change (ContextProgram.lift (callResponse payload) >>= fun response =>
        ContextProgram.lift (kind.validateResponse response context.host.sessionId) >>= fun _ => pure response).run =
          .pure (context.answered kind payload)
      unfold answered
      cases callResponse payload with
      | error e => rfl
      | ok response =>
        change (ContextProgram.lift (kind.validateResponse response context.host.sessionId) >>= fun _ =>
          pure response).run = .pure (kind.validateResponse response context.host.sessionId >>= fun _ => .ok response)
        cases kind.validateResponse response context.host.sessionId <;> rfl

/-- An error of the host comes back as it is. -/
private theorem hostCall_returns_host (hmax : context.host.maximumCallDepth < 2 ^ 32) (hallows : context.Allows call)
    {payload : Payload} {error : ProtocolError}
    (herror : payload = .hostResult ⟨some (.error error)⟩ ∧ Validation.protocolError error = .ok () ∨
      payload = .protocolError error) {result : Except SdkError HostCallResponse}
    (h : (context.hostCall call).run.Returns (Replying payload) result) : result = .error (.host error) := by
  obtain ⟨⟨kind, hkind⟩, hdepth⟩ := hallows
  obtain ⟨trace, htrace⟩ := hostCallTrace_of_le hdepth hmax
  rw [hostCall_run hkind htrace] at h
  obtain ⟨_, rfl, r, hr, rfl⟩ := h
  have hr : r = Selected.ready (HostClient.received payload) := hr
  rw [hr]
  rcases herror with ⟨rfl, hvalid⟩ | rfl
  · have hresponse : callResponse (.hostResult ⟨some (.error error)⟩) = .error (.host error) := by
      simp only [callResponse, hvalid]
      rfl
    change context.answered kind (.hostResult ⟨some (.error error)⟩) = _
    unfold answered
    rw [hresponse]
    rfl
  · rfl

end ActionContext

/-- The event enqueues an allowed call of a job that the host has started, under the trace of the job. -/
def ServeEvent.Calls (host : HostParameters) (h : List ServeEvent) (envelope : PluginEnvelope)
    (request : HostCallRequest) (e : ServeEvent) : Prop :=
  ∃ actor number context call, e = .emitted actor number envelope ∧ .spawned actor.inst context ∈ h ∧
    context.StartedIn host h ∧ request = ⟨some call⟩ ∧ context.Allows call ∧
    envelope.trace = some { context.trace with
      parentCallId := some context.parentCallId
      callDepth := context.trace.callDepth + 1 }

namespace Session

variable {platform : Platform} {x : Session} {h : List ServeEvent} {setup : Setup}

private theorem hostCall_enqueued (hr : Steps (Step platform) (init setup) h x) :
    ∀ h₁ e h₂ envelope request, h = h₁ ++ e :: h₂ → e.enqueued = some envelope →
      envelope.payload = some (.hostCall request) → e.Calls setup.host h₁ envelope request := by
  rintro h₁ e h₂ envelope request rfl henqueued hpayload
  obtain ⟨y, y', hy, hs, -⟩ := hr.split
  cases e with
  | emitted actor number env =>
    obtain rfl : env = envelope := Option.some.inj henqueued
    obtain ⟨context, trace, payload, hspawned, hstarted, htrace, hpayload', hchecked⟩ := emitted_checked hy hs
    obtain rfl : payload = .hostCall request := Option.some.inj (hpayload'.symm.trans hpayload)
    obtain ⟨hcall, call, kind, hrequest, hkind⟩ := hchecked
    obtain ⟨hdepth, rfl⟩ := ActionContext.hostCallTrace_eq_ok hcall
    exact ⟨actor, number, context, call, rfl, hspawned, hstarted, hrequest, ⟨⟨kind, hkind⟩, hdepth⟩, htrace⟩
  | sent env =>
    obtain rfl : env = envelope := Option.some.inj henqueued
    obtain ⟨payload, hpayload', hloop⟩ := Serve.sent_ofLoop (Serve.queued (run_serve hy)) hs.serve
    obtain rfl : payload = .hostCall request := Option.some.inj (hpayload'.symm.trans hpayload)
    exact hloop.elim
  | _ => cases henqueued

/-- A host call reaches the wire only if it is allowed, under the trace of its job, and yields exactly a valid
answer of its own kind or the error of the host. -/
theorem hostCall_answered (hr : Steps (Step platform) (init setup) h x) {context : ActionContext}
    (hmax : context.host.maximumCallDepth < 2 ^ 32) (call : HostCall) (payload : Payload) :
    (∀ h₁ e h₂ envelope request, h = h₁ ++ e :: h₂ → e.enqueued = some envelope →
      envelope.payload = some (.hostCall request) → e.Calls setup.host h₁ envelope request) ∧
    (∃ result, (context.hostCall call).run.Returns (ActionContext.Replying payload) result) ∧
    (∀ response, (context.hostCall call).run.Returns (ActionContext.Replying payload) (.ok response) ↔
      context.Allows call ∧ payload = .hostResult response ∧ response.Answers call.kind context.host.sessionId) ∧
    (∀ error, context.Allows call →
      (payload = .hostResult ⟨some (.error error)⟩ ∧ Validation.protocolError error = .ok () ∨
        payload = .protocolError error) →
      ∀ result, (context.hostCall call).run.Returns (ActionContext.Replying payload) result →
        result = .error (.host error)) ∧
    (∀ path response, (context.hostCall (.getConfig ⟨path⟩)).run.Returns (fun _ _ => True) (.ok response) →
      ∃ value, response.result = some (.getConfig value)) ∧
    ∀ function arguments response,
      (context.hostCall (.invokeConfigFunction ⟨some function, arguments⟩)).run.Returns (fun _ _ => True)
        (.ok response) → ∃ value, response.result = some (.invokeConfigFunction value) := by
  refine ⟨hostCall_enqueued hr, context.hostCall_returns call payload,
    fun response => ActionContext.hostCall_returns_response hmax,
    fun error hallows herror result => ActionContext.hostCall_returns_host hmax hallows herror, ?_, ?_⟩
  · intro path response h
    obtain ⟨result, hresult, hkind, -⟩ := ActionContext.answers_of_hostCall h
    cases result with
    | getConfig value => exact ⟨value, hresult⟩
    | _ => cases hkind
  · intro function arguments response h
    obtain ⟨result, hresult, hkind, -⟩ := ActionContext.answers_of_hostCall h
    cases result with
    | invokeConfigFunction value => exact ⟨value, hresult⟩
    | _ => cases hkind

/-- A host call that finds the cancellation value active and the channel with room waits for its reply. -/
theorem hostCall_steps {actor : Actor} {number id : Nat} {context : ActionContext} {call : HostCall}
    {kind : HostCallKind} {trace : TraceContext} {link : HostLink} (hact : x.serve.CanAct actor)
    (hcontext : x.contexts actor.inst = some context) (hnumber : x.calls number = none)
    (hactive : x.serve.cells context.cancellation = .active)
    (hkind : HostCallKind.validate call context.host.sessionId = .ok kind)
    (htrace : context.hostCallTrace = .ok trace) (hfree : x.serve.link.reserved = none)
    (hreserve : x.serve.link.reserve number ⟨none, trace, .hostCall ⟨some call⟩⟩ = (link, .ok id))
    (hclosed : x.serve.link.closed = false) (hroom : x.serve.link.HasRoom) :
    ∃ c : ContextCall, c.ticket = some ⟨id, true, none⟩ ∧ Steps (Step platform) x
      (List.replicate 3 (ServeEvent.internal actor number) ++ [.reserved actor number id,
        .emitted actor number (x.serve.link.identity.stamp id ⟨none, trace, .hostCall ⟨some call⟩⟩)])
      ({ x with
        serve :=
          { x.serve with
            link := link.commit ⟨number, id, ⟨none, trace, .hostCall ⟨some call⟩⟩⟩ } }.setCall number (some c)) := by
  have hbegin : Step platform x (.internal actor number) _ :=
    @Step.begin platform x actor number context (.hostCall call) hact hcontext hnumber
  have hprogram : (Operation.program platform context (.hostCall call)).run = _ :=
    congrArg (fun p => ExceptT.run (ExceptT.mk p >>= fun response => pure (Returned.response response)))
      (ActionContext.hostCall_run hkind htrace)
  rw [hprogram] at hbegin
  obtain ⟨-, rfl⟩ := HostLink.reserve_eq_ok hreserve
  refine ⟨_, ?_, .cons hbegin (.cons (.of_call (.ensureActive_of_active hact rfl hactive))
    (.cons (.of_call (.poll hact rfl rfl rfl hactive)) (.cons (.of_link (.reserve hact rfl rfl rfl hfree hreserve))
      (.single (.of_link (.commit hact rfl rfl rfl rfl hclosed hroom))))))⟩
  rfl

open Serve (sampleTrace sampleJobId sampleSetup sampleStart sampleAccepted)

/-- The trace of a host call of the sample job. -/
def sampleCallTrace : TraceContext := { sampleTrace with parentCallId := some 3, callDepth := 1 }

/-- The action of the sample session makes a host call. -/
def sampleCalling : List ServeEvent :=
  [ServeEvent.received sampleStart none, .sent sampleAccepted, .spawned 0 sampleContext,
    .task 0 sampleJobId .started] ++ List.replicate 3 (ServeEvent.internal sampleAction 0) ++
    [ServeEvent.reserved sampleAction 0 4]

def sampleCalled (call : HostCall) : PluginEnvelope :=
  sampleSetup.session.identity.stamp 4 ⟨none, sampleCallTrace, .hostCall ⟨some call⟩⟩

theorem sampleCalled_steps {call : HostCall} {kind : HostCallKind}
    (hkind : HostCallKind.validate call sampleContext.host.sessionId = .ok kind) :
    ∃ (u : Session) (c : ContextCall), Steps (Step samplePlatform) (init sampleSetup)
        (sampleCalling ++ [ServeEvent.emitted sampleAction 0 (sampleCalled call)]) u ∧
      u.calls 0 = some c ∧ c.ticket = some ⟨4, true, none⟩ ∧ u.serve.loop = .head ∧
      u.serve.session = ⟨⟨"session", "instance"⟩, 3, 10, 10⟩ ∧ u.serve.link.reserved = none ∧
      u.serve.link.pending.lookup 4 = some ⟨sampleCallTrace, 0⟩ := by
  obtain ⟨c, hticket, hu⟩ := @hostCall_steps samplePlatform sampleRunning sampleAction 0 4 sampleContext call kind
    sampleCallTrace _ sampleAction_canAct rfl rfl rfl hkind rfl rfl rfl rfl (by decide)
  exact ⟨_, c, sampleRunning_steps.trans hu, calls_setCall_self .., hticket, rfl, rfl, rfl, rfl⟩

def sampleCall : HostCall := .getConfig ⟨none⟩

theorem hostCall_answered_sampleCall :
    (∃ context, ServeEvent.spawned 0 context ∈ sampleCalling ∧ context.Allows sampleCall) ∧
      (sampleContext.hostCall sampleCall).run.Returns
        (ActionContext.Replying (.hostResult ⟨some (.getConfig ⟨none⟩)⟩)) (.ok ⟨some (.getConfig ⟨none⟩)⟩) := by
  obtain ⟨u, -, hu, -⟩ := @sampleCalled_steps sampleCall .getConfig rfl
  obtain ⟨hwire, -, hok, -⟩ := @hostCall_answered _ _ _ _ hu sampleContext (by decide) sampleCall
    (.hostResult ⟨some (.getConfig ⟨none⟩)⟩)
  obtain ⟨actor, number, context, call, he, hspawned, -, hrequest, hallows, -⟩ :=
    hwire sampleCalling _ [] (sampleCalled sampleCall) _ rfl rfl rfl
  cases he
  cases hrequest
  refine ⟨⟨context, hspawned, hallows⟩, (hok _).2 ⟨⟨⟨.getConfig, rfl⟩, by decide⟩, rfl, ?_⟩⟩
  exact ⟨_, rfl, rfl, rfl⟩

end Session

end PluginSdk
