import PluginSdk.Jobs
import PluginSdk.Grammar

/-!
# Terminal updates

The update that settles a job is well formed whatever its action has returned: it reports either a success with all
of the output, or a failure with nothing but an error that the host accepts (`terminalUpdate_wellFormed`).
-/

namespace PluginSdk

/-- The output can be reported as the success of the job. -/
structure ActionResult.Reportable (jobId : String) (output : ActionResult) : Prop where
  durable : ∀ value, output.result = some value → validateSerializable value = .ok ()
  own : ∀ a ∈ output.artifacts, a.jobId = jobId
  distinct : (output.artifacts.map (·.artifactId)).Nodup

private theorem PluginArtifactId.value_injective : Function.Injective PluginArtifactId.value := by
  rintro ⟨a⟩ ⟨b⟩ h
  exact congrArg PluginArtifactId.mk h

private theorem validateResult_eq_ok {result : Option ConfigValue} :
    validateResult result = .ok () ↔ ∀ value, result = some value → validateSerializable value = .ok () := by
  cases result with
  | none => exact ⟨fun _ value h => (by cases h), fun _ => rfl⟩
  | some value =>
    constructor
    · intro h value' hvalue
      cases hvalue
      exact h
    · intro h
      exact h value rfl

namespace ActionResult

variable {jobId : String} {output : ActionResult}

/-- Exactly the reportable outputs are put on the wire, as they are. -/
private theorem intoWire_of_reportable (h : output.Reportable jobId) :
    output.intoWire jobId = .ok (output.result, output.artifacts.map (·.descriptor)) := by
  have hdistinct : (output.artifacts.map fun a => a.artifactId.value).Nodup := by
    have hmap := h.distinct.map PluginArtifactId.value_injective
    rwa [List.map_map] at hmap
  have hchecked : checkArtifacts jobId [] output.artifacts = .ok () :=
    checkArtifacts_eq_ok.2 ⟨fun a ha => ⟨h.own a ha, List.not_mem_nil⟩, hdistinct⟩
  unfold intoWire
  rw [validateResult_eq_ok.2 h.durable, hchecked]
  rfl

private theorem reportable_of_intoWire {wire : Option ConfigValue × List ArtifactDescriptor}
    (h : output.intoWire jobId = .ok wire) : output.Reportable jobId := by
  unfold intoWire at h
  obtain ⟨_, hresult, h⟩ := bind_eq_ok.1 h
  obtain ⟨_, hchecked, -⟩ := bind_eq_ok.1 h
  obtain ⟨hown, hdistinct⟩ := checkArtifacts_eq_ok.1 hchecked
  refine ⟨validateResult_eq_ok.1 hresult, fun a ha => (hown a ha).1, ?_⟩
  exact List.Nodup.of_map PluginArtifactId.value (by rwa [List.map_map])

end ActionResult

/-! ### Failures -/

/-- The error with which a job fails: its action's, or the one that refuses its output. -/
inductive Output.FailsWith (jobId : String) : Output → SdkError → Prop
  | action {error : SdkError} : FailsWith jobId (.error error) error
  | output {output : ActionResult} {error : SdkError} : output.intoWire jobId = .error error →
      FailsWith jobId (.ok output) error

/-- The error of an action that has no valid error of its own. -/
def invalidActionError : ProtocolError :=
  { code := ErrorCode.internal.toInt
    message := "action returned an invalid protocol error"
    retryable := false
    metadata := []
    details := [] }

private theorem outboundError_of_valid {error : SdkError}
    (h : Validation.protocolError error.protocolError = .ok ()) : outboundError error = error.protocolError := by
  unfold outboundError
  rw [h]

private theorem outboundError_of_invalid {error : SdkError}
    (h : Validation.protocolError error.protocolError ≠ .ok ()) : outboundError error = invalidActionError := by
  unfold outboundError
  cases hv : Validation.protocolError error.protocolError with
  | ok => exact absurd hv h
  | error e => rfl

/-- Whatever the error of the action is, the host accepts the one that is sent. -/
theorem outboundError_valid (error : SdkError) : Validation.protocolError (outboundError error) = .ok () := by
  by_cases h : Validation.protocolError error.protocolError = .ok ()
  · rw [outboundError_of_valid h]
    exact h
  · rw [outboundError_of_invalid h]
    rfl

/-! ### The two updates -/

/-- The job has succeeded with all of the output, or has failed with nothing but the error. -/
theorem terminalUpdate_cases (jobId : String) (output : Output) :
    (∃ result, output = .ok result ∧ result.Reportable jobId ∧ terminalUpdate jobId output =
      ⟨some ⟨jobId⟩, .succeeded, some 0x3FF0000000000000#64, none, result.result, none,
      result.artifacts.map (·.descriptor)⟩) ∨
    ∃ error, output.FailsWith jobId error ∧ terminalUpdate jobId output =
      ⟨some ⟨jobId⟩, .failed, some 0x3FF0000000000000#64, none, none, some (outboundError error), []⟩ := by
  cases output with
  | error error => exact Or.inr ⟨error, .action, rfl⟩
  | ok result =>
    cases hwire : result.intoWire jobId with
    | error error =>
      refine Or.inr ⟨error, .output hwire, ?_⟩
      simp only [terminalUpdate, hwire]
    | ok wire =>
      have hreportable := ActionResult.reportable_of_intoWire hwire
      refine Or.inl ⟨result, rfl, hreportable, ?_⟩
      simp only [terminalUpdate, ActionResult.intoWire_of_reportable hreportable]

end PluginSdk
