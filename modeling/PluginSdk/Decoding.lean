import PluginSdk.WellFormed
import PluginSdk.WireDepth

/-!
# What the host can decode

The nesting of whole envelopes on the wire.  Of everything that a session enqueues, the host can fail to decode only
an update, a log record or a call of a configuration function with a value that nests too deep, and a document
request that does (`Session.outbound_decodable`).  As the values have been validated, more than thirty map levels
must stand above each other for that.
-/

namespace PluginSdk

open Lts ConfigValue

/-! ### The nesting of each payload -/

def NodeIdentity.wire (node : NodeIdentity) : Message :=
  .mk (nested node.nodeId (fun _ => .leaf) ++ nested node.nodeName fun _ => .leaf)

def HostHello.wire (hello : HostHello) : Message :=
  .mk (nested hello.node NodeIdentity.wire ++ nested hello.pluginId (fun _ => .leaf) ++
    nested hello.pluginName fun _ => .leaf)

def PluginHello.wire (hello : PluginHello) : Message :=
  .mk (nested hello.pluginId (fun _ => .leaf) ++ nested hello.pluginName (fun _ => .leaf) ++
    hello.actions.map fun _ => .leaf)

def StartJobRequest.wire (request : StartJobRequest) : Message :=
  .mk (nested request.jobId (fun _ => .leaf) ++ nested request.deadline (fun _ => .leaf) ++
    nested request.invocation fun _ => .leaf)

/-- A message whose only nested message is an ID. -/
def labelled {α : Type} (id : Option α) : Message := .mk (nested id fun _ => .leaf)

def ConfigPath.wire (path : ConfigPath) : Message := .mk (path.segments.map fun _ => .leaf)

def GetConfigRequest.wire (request : GetConfigRequest) : Message := .mk (nested request.path ConfigPath.wire)

def HostCall.wire : HostCall → Message
  | .readDocument request | .listDirectory request | .getDirectoryTree request | .readCrdt request
  | .commitDocuments request => request.wire
  | .getConfig request => request.wire
  | .invokeConfigFunction request => request.wire

def HostCallResult.wire : HostCallResult → Message
  | .readDocument response | .listDirectory response | .getDirectoryTree response | .readCrdt response
  | .commitDocuments response => response.wire
  | .getConfig response => response.wire
  | .invokeConfigFunction response => response.wire
  | .error e => e.wire

def ArtifactTransferStart.wire (start : ArtifactTransferStart) : Message :=
  .mk (nested start.jobId (fun _ => .leaf) ++ nested start.artifact ArtifactDescriptor.wire)

/-- The message in the `oneof payload` of an envelope. -/
def Payload.wire : Payload → Message
  | .hostHello hello => hello.wire
  | .pluginHello hello => hello.wire
  | .startJob request => request.wire
  | .jobAccepted accepted => labelled accepted.jobId
  | .jobUpdate update => update.wire
  | .hostCall request => .mk (nested request.call HostCall.wire)
  | .hostResult response => .mk (nested response.result HostCallResult.wire)
  | .log record => record.wire
  | .shutdown request => .mk (nested request.gracePeriodDeadline fun _ => .leaf)
  | .protocolError error => error.wire
  | .artifactStart start => start.wire
  | .artifactAccepted accepted => labelled accepted.artifactId
  | .artifactChunk chunk => labelled chunk.artifactId
  | .artifactComplete complete => labelled complete.artifactId
  | .artifactStored stored => labelled stored.artifactId
  | .cancelJob request => labelled request.jobId
  | .cancelJobAcknowledged acknowledged => labelled acknowledged.jobId
  | .ready | .heartbeat _ | .shutdownAcknowledged => .leaf

def PluginEnvelope.wire (envelope : PluginEnvelope) : Message :=
  .mk (nested envelope.trace (fun _ => .leaf) ++ nested envelope.payload Payload.wire)

/-- The host can decode the envelope. -/
def PluginEnvelope.Decodable (envelope : PluginEnvelope) : Prop := envelope.wire.decodable decodeBudget = true

/-- A message with values is nested as in its own position. -/
private theorem ValueMessage.wire_payload (m : ValueMessage) : m.payload.wire = m.wire := by
  cases m <;> rfl

private theorem depth_labelled_le {α : Type} (id : Option α) : (labelled id).depth ≤ 1 := by
  rw [labelled, Message.depth_mk_le, forall_mem_nested]
  simp

private theorem depth_nested_le {α : Type} {field : Option α} {wire : α → Message} {n : Nat}
    (h : ∀ a, field = some a → (wire a).depth ≤ n) : (Message.mk (nested field wire)).depth ≤ n + 1 := by
  rw [Message.depth_mk_le, forall_mem_nested]
  intro a ha
  exact Nat.add_le_add_right (h a (Option.mem_toList.1 ha)) 1

/-! ### Decodable envelopes -/

/-- The document request in a payload. -/
def Payload.document : Payload → Option DocumentMessage
  | .hostCall ⟨some (.readDocument request)⟩ | .hostCall ⟨some (.listDirectory request)⟩
  | .hostCall ⟨some (.getDirectoryTree request)⟩ | .hostCall ⟨some (.readCrdt request)⟩
  | .hostCall ⟨some (.commitDocuments request)⟩ => some request
  | _ => none

/-- The values in a payload of the plugin, each with the messages that enclose it in its envelope, its own
included. -/
def Payload.values : Payload → List (Nat × ConfigValue)
  | .jobUpdate update => update.result.toList.map (2, ·)
  | .log record => record.fields.map fun field => (3, field.2)
  | .hostCall ⟨some (.invokeConfigFunction request)⟩ => request.arguments.map (3, ·)
  | _ => []

/-- Neither a value nor a document request nests too deep. -/
structure Payload.Fits (payload : Payload) : Prop where
  values : ∀ v ∈ payload.values, ∀ p ∈ v.2.places 0 0, v.1 + p.cost ≤ decodeBudget
  document : ∀ request, payload.document = some request → request.wire.depth + 2 ≤ decodeBudget

namespace PluginEnvelope

variable {envelope : PluginEnvelope} {payload : Payload}

private theorem decodable_iff_depth (hpayload : envelope.payload = some payload) :
    envelope.Decodable ↔ payload.wire.depth + 1 ≤ decodeBudget := by
  rw [Decodable, Message.decodable_iff, wire, Message.depth_mk_le, List.forall_mem_append, forall_mem_nested,
    forall_mem_nested, hpayload, Option.toList_some, List.forall_mem_singleton, Message.depth_leaf]
  exact and_iff_right fun _ _ => by decide

/-- An envelope with values. -/
theorem decodable_iff_values {m : ValueMessage} (hpayload : envelope.payload = some m.payload) :
    envelope.Decodable ↔ ∀ v ∈ m.values, ∀ p ∈ v.places 0 0, m.enclosing + p.cost ≤ decodeBudget := by
  rw [decodable_iff_depth hpayload, m.wire_payload, ← m.survives_iff none, ValueMessage.Survives,
    Message.decodable_iff, ValueMessage.envelopeWire, Message.depth_mk_le]
  simp [nested]

/-- An envelope without values. -/
private theorem decodable_of_depth_le (hpayload : envelope.payload = some payload) (h : payload.wire.depth ≤ 3) :
    envelope.Decodable :=
  (decodable_iff_depth hpayload).2 (by simp only [decodeBudget]; omega)

end PluginEnvelope

private theorem depth_start_le (start : ArtifactTransferStart) : start.wire.depth ≤ 2 := by
  rw [ArtifactTransferStart.wire, Message.depth_mk_le, List.forall_mem_append, forall_mem_nested, forall_mem_nested]
  exact ⟨fun _ _ => by simp, fun descriptor _ => Nat.add_le_add_right (depth_descriptor_le descriptor) 1⟩

private theorem depth_getConfig_le (request : GetConfigRequest) : request.wire.depth ≤ 2 := by
  refine depth_nested_le fun path _ => ?_
  rw [ConfigPath.wire, Message.depth_mk_le]
  simp

namespace Payload

variable {payload : Payload} {host : HostParameters} {envelope : PluginEnvelope}

private theorem Fits.of_none (hvalues : payload.values = []) (hdocument : payload.document = none) :
    payload.Fits := by
  constructor
  · simp [hvalues]
  · simp [hdocument]

private theorem fits_iff_values {m : ValueMessage} (hvalues : payload.values = m.values.map (m.enclosing, ·))
    (hdocument : payload.document = none) :
    payload.Fits ↔ ∀ v ∈ m.values, ∀ p ∈ v.places 0 0, m.enclosing + p.cost ≤ decodeBudget := by
  constructor
  · intro h v hv
    exact h.values (m.enclosing, v) (by rw [hvalues]; exact List.mem_map_of_mem hv)
  · intro h
    refine ⟨fun v hv => ?_, by simp [hdocument]⟩
    rw [hvalues] at hv
    obtain ⟨w, hw, rfl⟩ := List.mem_map.1 hv
    exact h w hw

private theorem fits_iff_document {request : DocumentMessage} (hvalues : payload.values = [])
    (hdocument : payload.document = some request) : payload.Fits ↔ request.wire.depth + 2 ≤ decodeBudget := by
  constructor
  · intro h
    exact h.document request hdocument
  · intro h
    refine ⟨by simp [hvalues], fun request' hrequest' => ?_⟩
    rw [hdocument] at hrequest'
    cases hrequest'
    exact h

/-- A well-formed envelope can be decoded if and only if its values and its document request fit. -/
private theorem WellFormed.decodable_iff (hw : payload.WellFormed host) (hpayload : envelope.payload = some payload) :
    envelope.Decodable ↔ payload.Fits := by
  have hshallow : payload.wire.depth ≤ 3 → payload.values = [] → payload.document = none →
      (envelope.Decodable ↔ payload.Fits) := fun hdepth hvalues hdocument =>
    iff_of_true (PluginEnvelope.decodable_of_depth_le hpayload hdepth) (.of_none hvalues hdocument)
  have hdocument : ∀ request : DocumentMessage, payload.wire = .mk [request.wire] → payload.values = [] →
      payload.document = some request → (envelope.Decodable ↔ payload.Fits) := by
    intro request hwire hvalues hdocument
    rw [PluginEnvelope.decodable_iff_depth hpayload, fits_iff_document hvalues hdocument, hwire]
    change _ + 1 ≤ 99 + 1 ↔ _ + 1 + 1 ≤ 99 + 1
    rw [Nat.add_le_add_iff_right, depth_mk_singleton_le]
    omega
  have hmessage : ∀ m : ValueMessage, payload = m.payload → payload.values = m.values.map (m.enclosing, ·) →
      payload.document = none → (envelope.Decodable ↔ payload.Fits) := by
    intro m hm hvalues hdocument
    rw [PluginEnvelope.decodable_iff_values (hm ▸ hpayload), fits_iff_values hvalues hdocument]
  cases payload with
  | jobUpdate update =>
    exact hmessage (.jobUpdate update) rfl rfl rfl
  | log record =>
    exact hmessage (.log record) rfl (by simp [values, ValueMessage.values, ValueMessage.enclosing]) rfl
  | hostCall request =>
    obtain ⟨call⟩ := request
    obtain ⟨call, rfl, -⟩ := hw
    cases call with
    | getConfig request =>
      exact hshallow (depth_mk_singleton_le.2 (Nat.add_le_add_right (depth_getConfig_le request) 1)) rfl rfl
    | invokeConfigFunction request =>
      exact hmessage (.invokeConfigFunction request) rfl rfl rfl
    | _ => exact hdocument _ rfl rfl rfl
  | heartbeat | shutdownAcknowledged => exact hshallow (by simp [wire]) rfl rfl
  | protocolError error => exact hshallow (by have := depth_error_le error; simp only [wire]; omega) rfl rfl
  | artifactStart start => exact hshallow (by have := depth_start_le start; simp only [wire]; omega) rfl rfl
  | jobAccepted | artifactChunk | artifactComplete | cancelJobAcknowledged =>
    exact hshallow ((depth_labelled_le _).trans (by decide)) rfl rfl
  | _ => exact hw.elim

/-- The values of a well-formed payload are grammatical. -/
private theorem WellFormed.grammatical (hw : payload.WellFormed host) :
    ∀ v ∈ payload.values, v.1 ≤ 3 ∧ ∃ session, Grammatical session v.2 := by
  intro v hv
  cases payload with
  | jobUpdate update =>
    obtain ⟨value, hvalue, rfl⟩ := List.mem_map.1 hv
    have hvalue := Option.mem_toList.1 hvalue
    rcases hw.outcome with hsucceeded | hfailed
    · exact ⟨Nat.le_succ 2, none, hsucceeded.result value hvalue⟩
    · rw [hfailed.result] at hvalue
      cases hvalue
  | log record =>
    obtain ⟨field, hfield, rfl⟩ := List.mem_map.1 hv
    exact ⟨le_rfl, none, hw.fields field hfield⟩
  | hostCall request =>
    obtain ⟨call⟩ := request
    obtain ⟨call, rfl, hcall⟩ := hw
    cases call with
    | invokeConfigFunction request =>
      obtain ⟨value, hvalue, rfl⟩ := List.mem_map.1 hv
      obtain ⟨function, -, -, -, harguments⟩ := hcall
      exact ⟨le_rfl, _, harguments value hvalue⟩
    | _ => cases hv
  | _ => cases hv

/-- A value that nests too deep has more than thirty map levels. -/
private theorem WellFormed.deep_of_not_fits (hw : payload.WellFormed host) (h : ¬ payload.Fits) :
    (∃ v ∈ payload.values, ∃ p ∈ v.2.places 0 0, 30 < p.maps) ∨
      ∃ request, payload.document = some request ∧ 98 < request.wire.depth := by
  by_contra hshallow
  push Not at hshallow
  obtain ⟨hvalues, hdocument⟩ := hshallow
  refine h ⟨fun v hv p hp => ?_, fun request hrequest => ?_⟩
  · obtain ⟨henclosing, session, hgrammatical⟩ := hw.grammatical v hv
    have hlevels := levels_le_of_validate v.2 0 0 session (grammatical_iff.1 hgrammatical) p hp
    have hmaps := hvalues v hv p hp
    have hbool := Bool.toNat_le p.isMessage
    simp only [Place.cost, decodeBudget, maximumValueDepth] at *
    omega
  · have := hdocument request hrequest
    simp only [decodeBudget]
    omega

end Payload

namespace Session

variable {platform : Platform} {x : Session} {h : List ServeEvent} {setup : Setup}

/-- The envelopes of a session that the host can decode; every other one has a value with more than thirty map
levels, or a document request that the action has nested too deep itself. -/
theorem outbound_decodable (hr : Steps (Step platform) (init setup) h x) : ∀ envelope ∈ outbound h,
    ∃ payload, envelope.payload = some payload ∧ (envelope.Decodable ↔ payload.Fits) ∧
      (¬ envelope.Decodable → (∃ v ∈ payload.values, ∃ p ∈ v.2.places 0 0, 30 < p.maps) ∨
        ∃ request, payload.document = some request ∧ 98 < request.wire.depth) := by
  intro envelope henvelope
  obtain ⟨payload, hpayload, hwell, -⟩ := (enqueued_wellFormed hr henvelope).payload
  have hiff := hwell.decodable_iff hpayload
  exact ⟨payload, hpayload, hiff, fun hdeep => hwell.deep_of_not_fits (hiff.not.1 hdeep)⟩

theorem outbound_decodable_sampleInvocation : ∃ u, Steps (Step samplePlatform) (init Serve.sampleSetup)
    (sampleCalling ++ [.emitted sampleAction 0 (sampleCalled (.invokeConfigFunction sampleInvocation))]) u ∧
    (sampleCalled (.invokeConfigFunction sampleInvocation)).Decodable := by
  obtain ⟨u, -, hu, -⟩ := @sampleCalled_steps (.invokeConfigFunction sampleInvocation) .invokeConfigFunction rfl
  obtain ⟨payload, hpayload, hiff, -⟩ := outbound_decodable hu (sampleCalled (.invokeConfigFunction sampleInvocation))
    (List.mem_filterMap.2 ⟨_, List.mem_append_right _ (List.mem_singleton_self _), rfl⟩)
  obtain rfl := Option.some.inj hpayload
  refine ⟨u, hu, hiff.2 ⟨fun v hv p hp => ?_, fun request hrequest => by cases hrequest⟩⟩
  obtain ⟨value, hvalue, rfl⟩ := List.mem_map.1 hv
  obtain rfl := List.mem_singleton.1 hvalue
  revert p
  decide

end Session

end PluginSdk
