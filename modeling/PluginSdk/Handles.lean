import PluginSdk.Answers
import PluginSdk.Terminal

/-!
# Function handles stay in their session

The six ways of configuration values: out of an action in its result, in the fields of a log record and in the
arguments of a configuration function, into it in the answers to host calls.  Results and log fields hold no
function handle, the others only handles of the session (`handles_contained`).  The ID of the session is the one that
its actions are told; after a handshake it is the session's own (`Opening.setup_host`).
-/

namespace PluginSdk

open Program Lts ConfigValue

/-- The values in a payload of the plugin are durable where they leave the session, and otherwise of the session. -/
def Payload.Contained (sessionId : String) : Payload → Prop
  | .jobUpdate update => ∀ value, update.result = some value → Grammatical none value
  | .log record => ∀ field ∈ record.fields, Grammatical none field.2
  | .hostCall ⟨some (.invokeConfigFunction request)⟩ =>
    ∃ function, request.function = some function ∧ function.sessionId = sessionId ∧ function.functionId ≠ "" ∧
      ∀ v ∈ request.arguments, Grammatical (some sessionId) v
  | _ => True

/-- The configuration values that a call returns. -/
def Returned.values : Returned → List ConfigValue
  | .response answer => (answer.result.map HostCallResult.values).getD []
  | .configured answer => answer.value.toList
  | .invoked answer => answer.results
  | .logged | .stored _ => []

/-- Whatever the host replies, an operation returns only values that are valid in the session. -/
private theorem Operation.returned_values {platform : Platform} {context : ActionContext} {operation : Operation}
    {returned : Returned}
    (h : (operation.program platform context).run.Returns (fun _ _ => True) (.ok returned)) :
    ∀ v ∈ returned.values, Grammatical (some context.host.sessionId) v := by
  rw [← validateSessionValues_eq_ok]
  have hanswers : ∀ {call response}, (context.hostCall call).run.Returns (fun _ _ => True) (.ok response) →
      ∀ result, response.result = some result →
        validateSessionValues result.values context.host.sessionId = .ok () := by
    intro call response hcall result hresult
    obtain ⟨result', heq, -, hvalues⟩ := ActionContext.answers_of_hostCall hcall
    obtain rfl : result = result' := Option.some.inj (hresult.symm.trans heq)
    exact hvalues
  cases operation with
  | hostCall call =>
    obtain ⟨response, hcall, hreturned⟩ := returns_ok_bind.1 h
    cases hreturned
    obtain ⟨result, hresult, -⟩ := ActionContext.answers_of_hostCall hcall
    simp only [Returned.values, hresult]
    exact hanswers hcall result hresult
  | getConfig path =>
    obtain ⟨response, hconfig, hreturned⟩ := returns_ok_bind.1 h
    cases hreturned
    obtain ⟨answer, hcall, hanswer⟩ := returns_ok_bind.1 hconfig
    split at hanswer
    · rename_i value hresult
      cases hanswer
      exact hanswers hcall _ hresult
    · cases hanswer
  | invokeConfigFunction function arguments =>
    obtain ⟨response, hinvoke, hreturned⟩ := returns_ok_bind.1 h
    cases hreturned
    obtain ⟨answer, hcall, hanswer⟩ := returns_ok_bind.1 hinvoke
    split at hanswer
    · rename_i value hresult
      cases hanswer
      exact hanswers hcall _ hresult
    · cases hanswer
  | log level target message fields =>
    obtain ⟨_, -, hreturned⟩ := returns_ok_bind.1 h
    cases hreturned
    rfl
  | storeArtifact descriptor =>
    obtain ⟨_, -, hreturned⟩ := returns_ok_bind.1 h
    cases hreturned
    rfl

theorem ActionContext.validateFields_eq_ok {fields : List (String × ConfigValue)} :
    validateFields fields = .ok () ↔ ∀ field ∈ fields, Grammatical none field.2 := by
  induction fields with
  | nil => simp [validateFields]
  | cons field rest ih =>
    obtain ⟨key, value⟩ := field
    unfold validateFields
    rw [List.forall_mem_cons, ← ih, ← validateSerializable_eq_ok, bind_eq_ok]
    exact ⟨fun ⟨_, h⟩ => h, fun h => ⟨(), h⟩⟩

/-- A call of a configuration function has passed the check of its function and of its arguments. -/
theorem HostCallKind.invokeConfigFunction_of_validate {request : InvokeConfigFunctionRequest} {sessionId : String}
    {kind : HostCallKind} (h : validate (.invokeConfigFunction request) sessionId = .ok kind) :
    ∃ function, request.function = some function ∧ function.sessionId = sessionId ∧ function.functionId ≠ "" ∧
      ∀ v ∈ request.arguments, Grammatical (some sessionId) v := by
  unfold validate at h
  simp only at h
  split at h
  · cases h
  · rename_i function hfunction
    by_cases hforeign : function.sessionId ≠ sessionId ∨ function.functionId = ""
    · rw [if_pos hforeign] at h
      cases h
    · rw [if_neg hforeign] at h
      obtain ⟨_, harguments, -⟩ := bind_eq_ok.1 h
      obtain ⟨hsession, hid⟩ := not_or.1 hforeign
      exact ⟨function, hfunction, not_not.1 hsession, hid, validateSessionValues_eq_ok.1 harguments⟩

namespace Session

variable {platform : Platform} {x x' : Session} {e : ServeEvent} {h : List ServeEvent} {setup : Setup}

/-- Every envelope on the wire is of the handshake, or was enqueued by a step of the run. -/
private theorem mem_wire (hr : Steps (Step platform) (init setup) h x) {envelope : PluginEnvelope}
    (henvelope : envelope ∈ x.serve.link.wire) :
    (∃ hello, envelope.payload = some (.pluginHello hello)) ∨ envelope.payload = some .ready ∨
      ∃ h₁ e y y', Steps (Step platform) (init setup) h₁ y ∧ Step platform y e y' ∧ e.enqueued = some envelope := by
  rw [Serve.wire_eq (run_serve hr)] at henvelope
  rcases List.mem_append.1 henvelope with hhandshake | hrun
  · have hhandshake : envelope ∈ (Serve.init setup).link.wire := hhandshake
    rw [Serve.init_link] at hhandshake
    simp only [List.mem_cons, List.not_mem_nil, or_false] at hhandshake
    rcases hhandshake with rfl | rfl
    · exact Or.inl ⟨_, rfl⟩
    · exact Or.inr (Or.inl rfl)
  · obtain ⟨e, he, henqueued⟩ := List.mem_filterMap.1 hrun
    obtain ⟨h₁, h₂, rfl⟩ := List.append_of_mem he
    obtain ⟨y, y', hy, hs, -⟩ := hr.split
    exact Or.inr (Or.inr ⟨h₁, e, y, y', hy, hs, henqueued⟩)

private theorem Step.contained (hr : Steps (Step platform) (init setup) h x) (hs : Step platform x e x')
    {envelope : PluginEnvelope} {payload : Payload} (henqueued : e.enqueued = some envelope)
    (hpayload : envelope.payload = some payload) : payload.Contained setup.host.sessionId := by
  cases e with
  | emitted actor call env =>
    obtain rfl : env = envelope := Option.some.inj henqueued
    obtain ⟨context, trace, payload', -, ⟨hhost, -⟩, -, hpayload', hchecked⟩ := emitted_checked hr hs
    obtain rfl : payload' = payload := Option.some.inj (hpayload'.symm.trans hpayload)
    cases payload' with
    | log record => exact ActionContext.validateFields_eq_ok.1 hchecked.2
    | hostCall request =>
      obtain ⟨-, call, kind, rfl, hkind⟩ := hchecked
      rw [hhost] at hkind
      cases call with
      | invokeConfigFunction request => exact HostCallKind.invokeConfigFunction_of_validate hkind
      | _ => trivial
    | jobUpdate => exact hchecked.elim
    | _ => trivial
  | sent env =>
    obtain rfl : env = envelope := Option.some.inj henqueued
    have hq := Serve.queued (run_serve hr)
    cases payload with
    | jobUpdate update =>
      obtain ⟨jobId, output, -, rfl, -⟩ := hs.sent_update hq (provenance_run hr) hpayload
      intro value hvalue
      rcases terminalUpdate_cases jobId output with ⟨result, rfl, hreportable, hupdate⟩ | ⟨error, -, hupdate⟩
      · rw [hupdate] at hvalue
        exact validateSerializable_eq_ok.1 (hreportable.durable value hvalue)
      · rw [hupdate] at hvalue
        cases hvalue
    | log | hostCall =>
      obtain ⟨payload', hpayload', hloop⟩ := Serve.sent_ofLoop hq hs.serve
      obtain rfl := Option.some.inj (hpayload'.symm.trans hpayload)
      exact hloop.elim
    | _ => trivial
  | _ => cases henqueued

/-- What leaves the session holds no function handle, what is sent to the host or handed to an action none of another
session, and all of it is grammatical. -/
theorem handles_contained (hr : Steps (Step platform) (init setup) h x) :
    (∀ envelope ∈ x.serve.link.wire,
      (∀ update value, envelope.payload = some (.jobUpdate update) → update.result = some value →
        Grammatical none value ∧ ∀ d function, ¬ value.Node d (.functionValue function)) ∧
      (∀ record field, envelope.payload = some (.log record) → field ∈ record.fields →
        Grammatical none field.2 ∧ ∀ d function, ¬ field.2.Node d (.functionValue function)) ∧
      ∀ request, envelope.payload = some (.hostCall ⟨some (.invokeConfigFunction request)⟩) →
        ∃ function, request.function = some function ∧ function.sessionId = setup.host.sessionId ∧
          function.functionId ≠ "" ∧ ∀ v ∈ request.arguments, Grammatical (some setup.host.sessionId) v) ∧
    ∀ call c returned, x.calls call = some c → c.program = .pure (.ok returned) →
      ∀ v ∈ returned.values, Grammatical (some setup.host.sessionId) v := by
  have hdurable : ∀ {v}, Grammatical none v → Grammatical none v ∧ ∀ d function,
    ¬ v.Node d (.functionValue function) :=
    fun hv => ⟨hv, (@grammatical_none_iff _ setup.host.sessionId).1 hv |>.2⟩
  have hwire : ∀ envelope ∈ x.serve.link.wire, ∀ payload, envelope.payload = some payload →
      payload.Contained setup.host.sessionId := by
    intro envelope henvelope payload hpayload
    rcases mem_wire hr henvelope with ⟨hello, hhello⟩ | hready | ⟨h₁, e, y, y', hy, hs, henqueued⟩
    · obtain rfl := Option.some.inj (hhello.symm.trans hpayload)
      trivial
    · obtain rfl := Option.some.inj (hready.symm.trans hpayload)
      trivial
    · exact hs.contained hy henqueued hpayload
  refine ⟨fun envelope henvelope => ⟨?_, ?_, ?_⟩, fun call c returned hc hreturned => ?_⟩
  · intro update value hpayload hvalue
    exact hdurable (hwire envelope henvelope _ hpayload value hvalue)
  · intro record field hpayload hfield
    exact hdurable (hwire envelope henvelope _ hpayload field hfield)
  · intro request hpayload
    exact hwire envelope henvelope _ hpayload
  · obtain ⟨operation, es, hexec, -⟩ := (provenance_run hr).calls call c hc
    rw [hreturned] at hexec
    obtain ⟨hhost, -⟩ := startedIn_of_call hr hc
    rw [← hhost]
    exact Operation.returned_values hexec.returns

/-- A call of a function of the sample session, with the function itself as an argument. -/
def sampleInvocation : InvokeConfigFunctionRequest :=
  ⟨some ⟨"session", "f"⟩, [.listValue [.functionValue ⟨"session", "f"⟩]]⟩

theorem handles_contained_sampleInvocation : ∃ u, Steps (Step samplePlatform) (init Serve.sampleSetup)
    (sampleCalling ++ [.emitted sampleAction 0 (sampleCalled (.invokeConfigFunction sampleInvocation))]) u ∧
    ∀ v ∈ sampleInvocation.arguments, Grammatical (some "session") v := by
  obtain ⟨u, -, hu, -⟩ := @sampleCalled_steps (.invokeConfigFunction sampleInvocation) .invokeConfigFunction rfl
  have hmem : sampleCalled (.invokeConfigFunction sampleInvocation) ∈ u.serve.link.wire := by
    rw [Serve.wire_eq (run_serve hu)]
    simp [ServeEvent.enqueued]
  obtain ⟨function, -, -, -, harguments⟩ := ((handles_contained hu).1 _ hmem).2.2 sampleInvocation rfl
  exact ⟨u, hu, harguments⟩

end Session

end PluginSdk
