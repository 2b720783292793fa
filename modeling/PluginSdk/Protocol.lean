import PluginSdk.Lib.Nesting
import Mathlib.Data.BitVec

/-!
# The plugin protocol

The messages of `proto/oll` that the SDK builds or reads, with the fields it uses.  A message-typed field is an
`Option`, as in the generated code; unsigned and signed integers are `Nat` and `Int`, and the places where the
width of a counter matters check it themselves.  A `double` is its bit pattern.  Document requests and responses
pass through the SDK unread, so of them only the nesting of their encoding is kept.
-/

namespace PluginSdk

/-! ### Shared messages -/

structure PluginJobId where
  value : String
deriving DecidableEq

structure PluginArtifactId where
  value : String
deriving DecidableEq

structure Timestamp where
  seconds : Int
  nanos : Int
deriving DecidableEq

structure Duration where
  seconds : Int
  nanos : Int
deriving DecidableEq

structure TraceContext where
  correlationId : String
  parentCallId : Option Nat
  callDepth : Nat
  causalDepth : Nat
  taskId : Option String
  taskGroupId : Option String
deriving DecidableEq

inductive ErrorCode
  | unspecified | invalidArgument | notFound | alreadyExists | revisionConflict | callDepthExceeded
  | causalDepthExceeded | deadlineExceeded | cancelled | unavailable | protocolMismatch | failedPrecondition
  | internal | payloadTooLarge | unsupported
deriving DecidableEq

/-- The number of an error code on the wire. -/
def ErrorCode.toInt : ErrorCode → Int
  | unspecified => 0
  | invalidArgument => 1
  | notFound => 2
  | alreadyExists => 3
  | revisionConflict => 4
  | callDepthExceeded => 5
  | causalDepthExceeded => 6
  | deadlineExceeded => 7
  | cancelled => 8
  | unavailable => 9
  | protocolMismatch => 10
  | failedPrecondition => 11
  | internal => 12
  | payloadTooLarge => 13
  | unsupported => 14

/-- `google.protobuf.Any`. -/
structure AnyMessage where
  typeUrl : String
  value : List UInt8
deriving DecidableEq

structure ProtocolError where
  code : Int
  message : String
  retryable : Bool
  metadata : List (String × String)
  details : List AnyMessage
deriving DecidableEq

/-! ### Configuration values -/

structure ConfigFunctionRef where
  sessionId : String
  functionId : String
deriving DecidableEq

/-- A `ConfigValue` with its `oneof kind`; `unset` is a value without a kind. -/
inductive ConfigValue
  | unset
  | nullValue (value : Int)
  | boolValue (value : Bool)
  | integerValue (value : Int)
  | numberValue (bits : BitVec 64)
  | stringValue (value : String)
  | bytesValue (value : List UInt8)
  | listValue (values : List ConfigValue)
  | mapValue (entries : List (String × ConfigValue))
  | functionValue (function : ConfigFunctionRef)
  | timestampValue (value : Timestamp)
  | durationValue (value : Duration)

inductive ConfigPathSegment
  | unset
  | key (key : String)
  | index (index : Nat)
deriving DecidableEq

structure ConfigPath where
  segments : List ConfigPathSegment

structure GetConfigRequest where
  path : Option ConfigPath

structure GetConfigResponse where
  value : Option ConfigValue

structure InvokeConfigFunctionRequest where
  function : Option ConfigFunctionRef
  arguments : List ConfigValue

structure InvokeConfigFunctionResponse where
  results : List ConfigValue

/-! ### Host calls -/

/-- A request or response of `document.proto`. -/
structure DocumentMessage where
  wire : Message

/-- The `oneof call` of `HostCallRequest`. -/
inductive HostCall
  | readDocument (request : DocumentMessage)
  | listDirectory (request : DocumentMessage)
  | getDirectoryTree (request : DocumentMessage)
  | readCrdt (request : DocumentMessage)
  | commitDocuments (request : DocumentMessage)
  | getConfig (request : GetConfigRequest)
  | invokeConfigFunction (request : InvokeConfigFunctionRequest)

structure HostCallRequest where
  call : Option HostCall

/-- The `oneof result` of `HostCallResponse`. -/
inductive HostCallResult
  | readDocument (response : DocumentMessage)
  | listDirectory (response : DocumentMessage)
  | getDirectoryTree (response : DocumentMessage)
  | readCrdt (response : DocumentMessage)
  | commitDocuments (response : DocumentMessage)
  | getConfig (response : GetConfigResponse)
  | invokeConfigFunction (response : InvokeConfigFunctionResponse)
  | error (error : ProtocolError)

structure HostCallResponse where
  result : Option HostCallResult

/-! ### Artifacts and logs -/

structure ArtifactDescriptor where
  artifactId : Option PluginArtifactId
  fileName : String
  mediaType : String
  sizeBytes : Nat
  sha256 : List UInt8
deriving DecidableEq

structure ArtifactTransferStart where
  jobId : Option PluginJobId
  artifact : Option ArtifactDescriptor
  chunkCount : Nat
deriving DecidableEq

structure ArtifactTransferAccepted where
  artifactId : Option PluginArtifactId
deriving DecidableEq

structure ArtifactTransferChunk where
  artifactId : Option PluginArtifactId
  chunkIndex : Nat
  data : List UInt8
deriving DecidableEq

structure ArtifactTransferComplete where
  artifactId : Option PluginArtifactId
deriving DecidableEq

structure ArtifactStored where
  artifactId : Option PluginArtifactId
deriving DecidableEq

inductive LogLevel
  | unspecified | trace | debug | info | warn | error
deriving DecidableEq

structure LogRecord where
  timestamp : Option Timestamp
  level : LogLevel
  target : String
  message : String
  fields : List (String × ConfigValue)

/-! ### Jobs and the session -/

structure ActionInvocation where
  action : String
  arguments : List String
deriving DecidableEq

/-- `invocation` is a `oneof` with the single variant `action`. -/
structure StartJobRequest where
  jobId : Option PluginJobId
  deadline : Option Timestamp
  invocation : Option ActionInvocation
deriving DecidableEq

structure JobAccepted where
  jobId : Option PluginJobId
deriving DecidableEq

inductive JobState
  | unspecified | running | succeeded | failed
deriving DecidableEq

structure JobUpdate where
  jobId : Option PluginJobId
  state : JobState
  progress : Option (BitVec 64)
  statusMessage : Option String
  result : Option ConfigValue
  error : Option ProtocolError
  artifacts : List ArtifactDescriptor

/-- `reason` is the number of a `JobCancellationReason`, of which `0` is the unspecified one. -/
structure CancelJobRequest where
  jobId : Option PluginJobId
  reason : Int
deriving DecidableEq

structure CancelJobAcknowledged where
  jobId : Option PluginJobId
deriving DecidableEq

structure NodeIdentity where
  nodeId : Option String
  nodeName : Option String
deriving DecidableEq

structure HostHello where
  node : Option NodeIdentity
  maximumCallDepth : Nat
  maximumCausalDepth : Nat
  maximumArtifactChunkBytes : Nat
  pluginId : Option String
  pluginName : Option String
deriving DecidableEq

structure ActionDescriptor where
  name : String
  description : String
deriving DecidableEq

structure PluginHello where
  pluginId : Option String
  pluginName : Option String
  actions : List ActionDescriptor
  pluginVersion : String
deriving DecidableEq

structure Heartbeat where
  nonce : Nat
deriving DecidableEq

structure ShutdownRequest where
  reason : String
  gracePeriodDeadline : Option Timestamp
deriving DecidableEq

/-- The `oneof payload` of `PluginEnvelope`. -/
inductive Payload
  | hostHello (hello : HostHello)
  | pluginHello (hello : PluginHello)
  | ready
  | startJob (request : StartJobRequest)
  | jobAccepted (accepted : JobAccepted)
  | jobUpdate (update : JobUpdate)
  | hostCall (request : HostCallRequest)
  | hostResult (response : HostCallResponse)
  | log (record : LogRecord)
  | heartbeat (heartbeat : Heartbeat)
  | shutdown (request : ShutdownRequest)
  | shutdownAcknowledged
  | protocolError (error : ProtocolError)
  | artifactStart (start : ArtifactTransferStart)
  | artifactAccepted (accepted : ArtifactTransferAccepted)
  | artifactChunk (chunk : ArtifactTransferChunk)
  | artifactComplete (complete : ArtifactTransferComplete)
  | artifactStored (stored : ArtifactStored)
  | cancelJob (request : CancelJobRequest)
  | cancelJobAcknowledged (acknowledged : CancelJobAcknowledged)

structure PluginEnvelope where
  messageId : Nat
  replyTo : Option Nat
  sessionId : String
  pluginInstanceId : String
  trace : Option TraceContext
  payload : Option Payload

end PluginSdk
