import PluginSdk.Artifact
import PluginSdk.Cancellation

/-!
# What an action does through its context

Host calls, log records and artifact transfers as programs, and the result that an action returns.  A stored artifact
carries the proof that its descriptor was validated, so the ID that `into_wire` expects is there.
-/

namespace PluginSdk

/-- What the actions know of the host from the handshake. -/
structure HostParameters where
  sessionId : String
  maximumArtifactChunkBytes : Nat
  maximumCallDepth : Nat
deriving DecidableEq

/-- The context of a job; `cancellation` is the address of the value that it shares with the session loop. -/
structure ActionContext where
  jobId : String
  deadline : Option Timestamp
  trace : TraceContext
  cancellation : Nat
  parentCallId : Nat
  host : HostParameters
deriving DecidableEq

/-! ### Results of an action -/

structure StoredArtifact where
  jobId : String
  descriptor : ArtifactDescriptor
  artifactId : PluginArtifactId
  valid : validateDescriptor descriptor = .ok artifactId

structure ActionResult where
  result : Option ConfigValue
  artifacts : List StoredArtifact

/-- The loop of `into_wire` over the artifacts, with the IDs that it has seen. -/
def checkArtifacts (jobId : String) : List String → List StoredArtifact → Except SdkError Unit
  | _, [] => .ok ()
  | seen, artifact :: rest =>
    if artifact.jobId ≠ jobId then
      .error (.invalidArgument "job results may reference only artifacts stored by that job")
    else if artifact.artifactId.value ∈ seen then
      .error (.invalidArgument "job results must not reference the same artifact more than once")
    else checkArtifacts jobId (artifact.artifactId.value :: seen) rest

def validateResult : Option ConfigValue → Except SdkError Unit
  | some result => validateSerializable result
  | none => .ok ()

def ActionResult.intoWire (output : ActionResult) (jobId : String) :
    Except SdkError (Option ConfigValue × List ArtifactDescriptor) := do
  validateResult output.result
  checkArtifacts jobId [] output.artifacts
  .ok (output.result, output.artifacts.map (·.descriptor))

theorem checkArtifacts_eq_ok {jobId : String} {seen : List String} {artifacts : List StoredArtifact} :
    checkArtifacts jobId seen artifacts = .ok () ↔
      (∀ a ∈ artifacts, a.jobId = jobId ∧ a.artifactId.value ∉ seen) ∧
        (artifacts.map fun a => a.artifactId.value).Nodup := by
  induction artifacts generalizing seen with
  | nil => simp [checkArtifacts]
  | cons a rest ih =>
    unfold checkArtifacts
    by_cases hj : a.jobId = jobId
    · by_cases hs : a.artifactId.value ∈ seen
      · simp [hj, hs]
      · rw [if_neg (not_not.2 hj), if_neg hs, ih, List.map_cons, List.nodup_cons, List.forall_mem_cons]
        constructor
        · rintro ⟨hrest, hnd⟩
          refine ⟨⟨⟨hj, hs⟩, fun b hb =>
            ⟨(hrest b hb).1, fun h => (hrest b hb).2 (List.mem_cons_of_mem _ h)⟩⟩, ?_, hnd⟩
          intro hmem
          obtain ⟨b, hb, he⟩ := List.mem_map.1 hmem
          exact (hrest b hb).2 (he ▸ List.mem_cons_self)
        · rintro ⟨⟨-, hrest⟩, hne, hnd⟩
          refine ⟨fun b hb => ⟨(hrest b hb).1, fun hmem => ?_⟩, hnd⟩
          rcases List.mem_cons.1 hmem with he | hmem
          · exact hne (he ▸ List.mem_map_of_mem hb)
          · exact (hrest b hb).2 hmem
    · simp [hj]

theorem ActionResult.intoWire_eq_ok {output : ActionResult} {jobId : String} {result : Option ConfigValue}
    {artifacts : List ArtifactDescriptor} (h : output.intoWire jobId = .ok (result, artifacts)) :
    result = output.result ∧ artifacts = output.artifacts.map (·.descriptor) ∧
      (∀ a ∈ output.artifacts, a.jobId = jobId) ∧
      (output.artifacts.map fun a => a.artifactId.value).Nodup := by
  unfold ActionResult.intoWire at h
  obtain ⟨-, -, h⟩ := bind_eq_ok.1 h
  obtain ⟨_, hc, h⟩ := bind_eq_ok.1 h
  obtain ⟨hjob, hnd⟩ := checkArtifacts_eq_ok.1 hc
  cases h
  exact ⟨rfl, rfl, fun a ha => (hjob a ha).1, hnd⟩

/-! ### Host calls -/

inductive HostCallKind
  | readDocument | listDirectory | getDirectoryTree | readCrdt | commitDocuments | getConfig | invokeConfigFunction
deriving DecidableEq

namespace HostCallKind

def validate (call : HostCall) (sessionId : String) : Except SdkError HostCallKind :=
  match call with
  | .readDocument _ => .ok readDocument
  | .listDirectory _ => .ok listDirectory
  | .getDirectoryTree _ => .ok getDirectoryTree
  | .readCrdt _ => .ok readCrdt
  | .commitDocuments _ => .ok commitDocuments
  | .getConfig request =>
    if request.path.any fun path => decide (.unset ∈ path.segments) then
      .error (.invalidArgument "configuration path segments must specify a key or index")
    else .ok getConfig
  | .invokeConfigFunction request =>
    match request.function with
    | none => .error (.invalidArgument "configuration function reference is required")
    | some function =>
      if function.sessionId ≠ sessionId ∨ function.functionId = "" then
        .error (.invalidArgument "configuration function must belong to the active session")
      else do
        validateSessionValues request.arguments sessionId
        .ok invokeConfigFunction

def validateResponse (kind : HostCallKind) (response : HostCallResponse) (sessionId : String) :
    Except SdkError Unit :=
  match kind, response.result with
  | readDocument, some (.readDocument _) | listDirectory, some (.listDirectory _)
  | getDirectoryTree, some (.getDirectoryTree _) | readCrdt, some (.readCrdt _)
  | commitDocuments, some (.commitDocuments _) => .ok ()
  | getConfig, some (.getConfig response) =>
    match response.value with
    | some configured => validateSessionValues [configured] sessionId
    | none => .ok ()
  | invokeConfigFunction, some (.invokeConfigFunction response) => validateSessionValues response.results sessionId
  | _, some (.error error) => Validation.protocolError error
  | _, some _ => .error (.protocol "host returned another response kind for HostCallRequest")
  | _, none => .error (.protocol "HostCallResponse result is required")

end HostCallKind

/-- What `HostClient::call` makes of the payload that answers its request. -/
def callResponse (payload : Payload) : Except SdkError HostCallResponse :=
  match payload with
  | .hostResult response =>
    match response.result with
    | some (.error error) => do
      Validation.protocolError error
      .error (.host error)
    | some _ => .ok response
    | none => .error (.protocol "HostCallResponse result is required")
  | _ => .error (.protocol "host call received another response kind")

namespace ActionContext

/-- The trace of a host call: a child of the job's, one level deeper. -/
def hostCallTrace (context : ActionContext) : Except SdkError TraceContext :=
  match checkedAddU32 context.trace.callDepth 1 with
  | none => .error (.protocol "host-call depth overflowed")
  | some callDepth =>
    if callDepth > context.host.maximumCallDepth then
      .error (.protocol "host call exceeds the negotiated call-depth limit")
    else .ok { context.trace with parentCallId := some context.parentCallId, callDepth }

/-- The trace of a host call is within the limits if the trace of its job is. -/
theorem hostCallTrace_within {context : ActionContext} {trace : TraceContext} {causal : Nat}
    (h : context.hostCallTrace = .ok trace)
    (hw : context.trace.Within context.host.maximumCallDepth causal) :
    trace.Within context.host.maximumCallDepth causal := by
  unfold hostCallTrace at h
  split at h
  · cases h
  · split at h
    · cases h
    · cases h
      exact ⟨hw.correlation, by simp only; omega, hw.causal⟩

def hostCall (context : ActionContext) (call : HostCall) : ContextProgram HostCallResponse := do
  .ensureActive
  let kind ← .lift (HostCallKind.validate call context.host.sessionId)
  let trace ← .lift context.hostCallTrace
  let payload ← .request trace (.hostCall ⟨some call⟩)
  let response ← .lift (callResponse payload)
  .lift (kind.validateResponse response context.host.sessionId)
  pure response

def getConfig (context : ActionContext) (path : Option ConfigPath) : ContextProgram GetConfigResponse := do
  let response ← context.hostCall (.getConfig ⟨path⟩)
  match response.result with
  | some (.getConfig value) => pure value
  | _ => .lift (.error (.protocol "host returned another response kind for GetConfig"))

def invokeConfigFunction (context : ActionContext) (function : ConfigFunctionRef) (arguments : List ConfigValue) :
    ContextProgram InvokeConfigFunctionResponse := do
  let response ← context.hostCall (.invokeConfigFunction ⟨some function, arguments⟩)
  match response.result with
  | some (.invokeConfigFunction value) => pure value
  | _ => .lift (.error (.protocol "host returned another response kind for InvokeConfigFunction"))

/-! ### Log records -/

/-- `validate_serializable` on the values of a map, stopping at the first error. -/
def validateFields : List (String × ConfigValue) → Except SdkError Unit
  | [] => .ok ()
  | (_, value) :: rest => do
    validateSerializable value
    validateFields rest

def log (context : ActionContext) (level : LogLevel) (target message : String)
    (fields : List (String × ConfigValue)) : ContextProgram Unit := do
  .ensureActive
  if level = .unspecified then .lift (.error (.invalidArgument "log level must not be unspecified"))
  else if target = "" then .lift (.error (.invalidArgument "log target must not be empty"))
  else
    .lift (validateFields fields)
    let timestamp ← .now
    if validTimestamp timestamp then
      .send context.trace (.log ⟨some timestamp, level, target, message, fields⟩)
    else .lift (.error (.environment "system clock is outside the protobuf Timestamp domain"))

/-! ### Artifact transfers -/

/-- `ActionContext::request`. -/
def request (context : ActionContext) (payload : Payload) : ContextProgram Payload := do
  .ensureActive
  .request context.trace payload

/-- The loop that sends the chunks from `index` on; `remaining` bytes are left. -/
def sendChunks (context : ActionContext) (artifactId : PluginArtifactId) (chunkBytes : Nat) :
    Nat → Nat → Nat → ContextProgram Unit
  | 0, _, _ => pure ()
  | chunks + 1, index, remaining => do
    .ensureActive
    let data ← .readExact (min remaining chunkBytes) "read validated artifact source"
    .send context.trace (.artifactChunk ⟨some artifactId, index, data⟩)
    sendChunks context artifactId chunkBytes chunks (index + 1) (remaining - min remaining chunkBytes)

def acceptedBy (artifactId : PluginArtifactId) : Payload → Bool
  | .artifactAccepted accepted => accepted.artifactId.any fun id => id.value == artifactId.value
  | _ => false

def storedBy (artifactId : PluginArtifactId) : Payload → Bool
  | .artifactStored stored => stored.artifactId == some artifactId
  | _ => false

/-- The transfer of an artifact whose descriptor and source have been validated. -/
def transfer (platform : Platform) (context : ActionContext) (descriptor : ArtifactDescriptor)
    (artifactId : PluginArtifactId) : ContextProgram Unit := do
  .ensureActive
  let plan ← .lift (artifactPlan platform descriptor.sizeBytes context.host.maximumArtifactChunkBytes)
  let start ← context.request (.artifactStart ⟨some ⟨context.jobId⟩, some descriptor, plan.chunkCount⟩)
  if acceptedBy artifactId start then
    sendChunks context artifactId plan.chunkBytes plan.chunkCount 0 descriptor.sizeBytes
    let complete ← context.request (.artifactComplete ⟨some artifactId⟩)
    if storedBy artifactId complete then pure ()
    else .lift (.error (.protocol "host did not confirm the same artifact ID"))
  else .lift (.error (.protocol "host did not accept the same artifact transfer"))

def storeArtifact (platform : Platform) (context : ActionContext) (descriptor : ArtifactDescriptor) :
    ContextProgram StoredArtifact := do
  .ensureActive
  match h : validateDescriptor descriptor with
  | .error e => .lift (.error e)
  | .ok artifactId =>
    validateSource platform descriptor
    transfer platform context descriptor artifactId
    pure ⟨context.jobId, descriptor, artifactId, h⟩

/-- The operation on a valid descriptor. -/
theorem storeArtifact_of_valid {platform : Platform} {context : ActionContext} {descriptor : ArtifactDescriptor}
    {artifactId : PluginArtifactId} (h : validateDescriptor descriptor = .ok artifactId) :
    context.storeArtifact platform descriptor = (do
      .ensureActive
      validateSource platform descriptor
      context.transfer platform descriptor artifactId
      pure ⟨context.jobId, descriptor, artifactId, h⟩) := by
  unfold storeArtifact
  congr 1
  funext _
  split
  · rename_i heq
    rw [h] at heq
    cases heq
  · rename_i heq
    rw [h] at heq
    cases heq
    rfl

/-- The operation on an invalid descriptor. -/
theorem storeArtifact_of_invalid {platform : Platform} {context : ActionContext} {descriptor : ArtifactDescriptor}
    {e : SdkError} (h : validateDescriptor descriptor = .error e) :
    context.storeArtifact platform descriptor = (do
      .ensureActive
      .lift (.error e)) := by
  unfold storeArtifact
  congr 1
  funext _
  split
  · rename_i heq
    rw [h] at heq
    cases heq
    rfl
  · rename_i heq
    rw [h] at heq
    cases heq

end ActionContext

end PluginSdk
