import PluginSdk.Value

/-!
# Validation of host messages

The checks of `validation.rs` on the messages of the host, with their errors.  UUIDs are 32 hexadecimal digits,
parsed and printed as the `uuid` crate documents it.
-/

namespace PluginSdk

/-! ### UUIDs -/

structure Uuid where
  digits : List (Fin 16)
  length_digits : digits.length = 32

namespace Uuid

def hexDigit (c : Char) : Option (Fin 16) :=
  if '0' ≤ c ∧ c ≤ '9' then some (Fin.ofNat 16 (c.toNat - '0'.toNat))
  else if 'a' ≤ c ∧ c ≤ 'f' then some (Fin.ofNat 16 (c.toNat - 'a'.toNat + 10))
  else if 'A' ≤ c ∧ c ≤ 'F' then some (Fin.ofNat 16 (c.toNat - 'A'.toNat + 10))
  else none

/-- The lowercase character of a digit. -/
def digitChar (d : Fin 16) : Char :=
  if d.val < 10 then Char.ofNat ('0'.toNat + d.val) else Char.ofNat ('a'.toNat + (d.val - 10))

def parseSimple (s : List Char) : Option Uuid :=
  match s.mapM hexDigit with
  | some digits => if h : digits.length = 32 then some ⟨digits, h⟩ else none
  | none => none

def parseHyphenated (s : List Char) : Option Uuid :=
  if s.length = 36 ∧ s[8]? = some '-' ∧ s[13]? = some '-' ∧ s[18]? = some '-' ∧ s[23]? = some '-' then
    parseSimple (s.take 8 ++ (s.drop 9).take 4 ++ (s.drop 14).take 4 ++ (s.drop 19).take 4 ++ s.drop 24)
  else none

/-- `Uuid::parse_str`: the simple, hyphenated, braced and `urn:uuid:` forms, with digits in either case. -/
def parseStr (value : String) : Option Uuid :=
  let s := value.toList
  if s.length = 32 then parseSimple s
  else if s.length = 36 then parseHyphenated s
  else if s.length = 38 ∧ s.head? = some '{' ∧ s.getLast? = some '}' then parseHyphenated (s.drop 1).dropLast
  else if "urn:uuid:".toList.isPrefixOf s then parseHyphenated (s.drop 9)
  else none

/-- The version nibble, the high half of byte 6. -/
def version (id : Uuid) : Option (Fin 16) := id.digits[12]?

def hyphenated (id : Uuid) : String :=
  let s := id.digits.map digitChar
  String.ofList (s.take 8 ++ '-' :: (s.drop 8).take 4 ++ '-' :: (s.drop 12).take 4 ++ '-' :: (s.drop 16).take 4 ++
    '-' :: s.drop 20)

end Uuid

namespace Validation

def maximumDnsLabelBytes : Nat := 63

def canonicalUuidV4 (value : String) : Bool :=
  match Uuid.parseStr value with
  | some id => id.version == some 4 && id.hyphenated == value
  | none => false

def isLowercaseOrDigit (byte : UInt8) : Bool :=
  ('a'.toUInt8 ≤ byte && byte ≤ 'z'.toUInt8) || ('0'.toUInt8 ≤ byte && byte ≤ '9'.toUInt8)

def validDnsLabel (value : String) : Bool :=
  let bytes := value.toUTF8.toList
  !bytes.isEmpty && decide (bytes.length ≤ maximumDnsLabelBytes) && bytes.head?.any isLowercaseOrDigit &&
    bytes.getLast?.any isLowercaseOrDigit && bytes.all fun byte => isLowercaseOrDigit byte || byte == '-'.toUInt8

/-! ### Messages of the host -/

def hostHello (pluginId : String) (hello : HostHello) : Except SdkError Unit :=
  let validNode := hello.node.any fun node => node.nodeId.any canonicalUuidV4 && node.nodeName.any validDnsLabel
  let validPlugin := hello.pluginId.any (· == pluginId) && hello.pluginName.any validDnsLabel
  if !validNode || !validPlugin || hello.maximumCallDepth == 0 || hello.maximumCausalDepth == 0 ||
      hello.maximumArtifactChunkBytes == 0 then
    .error (.protocol "HostHello does not describe the expected plugin instance")
  else .ok ()

def trace (envelope : PluginEnvelope) (maximumCallDepth maximumCausalDepth : Nat) : Except SdkError TraceContext :=
  match envelope.trace.filter fun trace => trace.correlationId != "" with
  | none => .error (.protocol "host omitted correlation context")
  | some trace =>
    if trace.callDepth > maximumCallDepth ∨ trace.causalDepth > maximumCausalDepth then
      .error (.protocol "host envelope exceeds a negotiated trace depth limit")
    else .ok trace

def jobId (jobId : Option PluginJobId) : Except SdkError String :=
  match jobId with
  | none => .error (.protocol "job ID is required")
  | some id =>
    if canonicalUuidV4 id.value then .ok id.value else .error (.protocol "job ID must be a canonical UUID v4")

def timestamp (value : Option Timestamp) (field : String) : Except SdkError Timestamp :=
  match value.filter validTimestamp with
  | some value => .ok value
  | none => .error (.protocol (field ++ " must be a valid protobuf Timestamp"))

def optionalTimestamp (value : Option Timestamp) (field : String) : Except SdkError Unit :=
  match value with
  | some value => (timestamp (some value) field).map fun _ => ()
  | none => .ok ()

/-- The reason does not alter the cancellation, so unknown nonzero reasons are accepted. -/
def cancellationReason (value : Int) : Except SdkError Unit :=
  if value = 0 then .error (.protocol "CancelJobRequest reason must not be unspecified") else .ok ()

def shutdown (request : ShutdownRequest) : Except SdkError Timestamp :=
  if request.reason = "" then .error (.protocol "ShutdownRequest reason must not be empty")
  else timestamp request.gracePeriodDeadline "ShutdownRequest grace-period deadline"

def protocolError (error : ProtocolError) : Except SdkError Unit :=
  if error.code ≠ ErrorCode.unspecified.toInt ∧ error.message ≠ "" then .ok ()
  else .error (.protocol "ProtocolError code and message must be specified")

example : canonicalUuidV4 "0f337c0c-51d6-44a9-a691-a31fce775ab1" = true ∧
    canonicalUuidV4 "0f337c0c-51d6-14a9-a691-a31fce775ab1" = false ∧
    canonicalUuidV4 "0F337C0C-51D6-44A9-A691-A31FCE775AB1" = false := by decide

end Validation

end PluginSdk
