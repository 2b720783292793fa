import PluginSdk.Error

/-!
# Validation of configuration values

The two validators of `value.rs`: durable values (results, log fields), which must not contain a function handle,
and values of one session, whose function handles must belong to it.
-/

namespace PluginSdk

/-- `ConfigValue` depth is zero-based. -/
def maximumValueDepth : Nat := 33
def protobufTimestampMinSeconds : Int := -62135596800
def protobufTimestampMaxSeconds : Int := 253402300799
def protobufDurationMaxSeconds : Int := 315576000000
def protobufMaxNanoseconds : Int := 999999999

def validTimestamp (value : Timestamp) : Bool :=
  decide (protobufTimestampMinSeconds ≤ value.seconds) && decide (value.seconds ≤ protobufTimestampMaxSeconds) &&
    (decide (0 ≤ value.nanos) && decide (value.nanos ≤ protobufMaxNanoseconds))

def validDuration (value : Duration) : Bool :=
  decide (-protobufDurationMaxSeconds ≤ value.seconds) && decide (value.seconds ≤ protobufDurationMaxSeconds) &&
    (decide (-protobufMaxNanoseconds ≤ value.nanos) && decide (value.nanos ≤ protobufMaxNanoseconds)) &&
    !(decide (value.seconds > 0) && decide (value.nanos < 0)) &&
    !(decide (value.seconds < 0) && decide (value.nanos > 0))

/-- `f64::is_finite`: the exponent is not all ones. -/
def isFinite (bits : BitVec 64) : Bool := bits.extractLsb' 52 11 != 0x7FF#11

def invalid (message : String) : SdkError := .invalidArgument message

/-- The check of a function handle. -/
def validateFunction (function : ConfigFunctionRef) : Option String → Except SdkError Unit
  | some sessionId =>
    if function.sessionId = sessionId ∧ function.functionId ≠ "" then .ok ()
    else if function.sessionId ≠ sessionId then
      .error (.protocol "configuration function belongs to another plugin session")
    else .error (invalid "configuration function ID must not be empty")
  | none => .error (invalid "session-scoped configuration functions cannot be stored or logged")

mutual
def validate (value : ConfigValue) (depth : Nat) (functionSession : Option String) : Except SdkError Unit :=
  if depth > maximumValueDepth then .error (invalid "ConfigValue nesting exceeds the supported limit")
  else
    match value with
    | .nullValue value =>
      if value = 0 then .ok () else .error (invalid "ConfigValue contains an unknown null value")
    | .boolValue _ | .integerValue _ | .stringValue _ | .bytesValue _ => .ok ()
    | .numberValue bits =>
      if isFinite bits then .ok () else .error (invalid "ConfigValue numbers must be finite")
    | .listValue values => validateList values (depth + 1) functionSession
    | .mapValue entries => validateEntries entries (depth + 1) functionSession
    | .functionValue function => validateFunction function functionSession
    | .timestampValue value =>
      if validTimestamp value then .ok ()
      else .error (invalid "ConfigValue timestamp is outside the protobuf Timestamp domain")
    | .durationValue value =>
      if validDuration value then .ok ()
      else .error (invalid "ConfigValue duration is outside the protobuf Duration domain")
    | .unset => .error (invalid "ConfigValue kind is required")

/-- `validate` on the elements of a list, stopping at the first error. -/
def validateList (values : List ConfigValue) (depth : Nat) (functionSession : Option String) :
    Except SdkError Unit :=
  match values with
  | [] => .ok ()
  | value :: rest => do
    validate value depth functionSession
    validateList rest depth functionSession

/-- `validate` on the entries of a map, stopping at the first error. -/
def validateEntries (entries : List (String × ConfigValue)) (depth : Nat) (functionSession : Option String) :
    Except SdkError Unit :=
  match entries with
  | [] => .ok ()
  | (_, value) :: rest => do
    validate value depth functionSession
    validateEntries rest depth functionSession
end

theorem validateList_cons_eq_ok {v : ConfigValue} {vs : List ConfigValue} {depth : Nat} {session : Option String} :
    validateList (v :: vs) depth session = .ok () ↔
      validate v depth session = .ok () ∧ validateList vs depth session = .ok () := by
  rw [validateList, bind_eq_ok]
  exact ⟨fun ⟨(), h⟩ => h, fun h => ⟨(), h⟩⟩

theorem validateEntries_cons_eq_ok {k : String} {v : ConfigValue} {es : List (String × ConfigValue)} {depth : Nat}
    {session : Option String} : validateEntries ((k, v) :: es) depth session = .ok () ↔
      validate v depth session = .ok () ∧ validateEntries es depth session = .ok () := by
  rw [validateEntries, bind_eq_ok]
  exact ⟨fun ⟨(), h⟩ => h, fun h => ⟨(), h⟩⟩

theorem depth_le_of_validate {v : ConfigValue} {depth : Nat} {session : Option String}
    (h : validate v depth session = .ok ()) : depth ≤ maximumValueDepth := by
  by_contra hlt
  rw [validate.eq_def, if_pos (by omega)] at h
  cases h

def validateSerializable (value : ConfigValue) : Except SdkError Unit := validate value 0 none

def validateSessionValues (values : List ConfigValue) (sessionId : String) : Except SdkError Unit :=
  validateList values 0 (some sessionId)

end PluginSdk
