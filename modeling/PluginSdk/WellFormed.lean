import PluginSdk.Conformance
import PluginSdk.Handles
import PluginSdk.ReplyOrder

/-!
# What the host receives

Whatever the actions ask of their contexts and end with, every envelope that a session enqueues is well formed: it
carries one of eleven payloads, which keeps the rules of its kind, and replies if and only if it is of a kind that
does (`Session.outbound_wellFormed`).  What a context sends has been checked on the way
(`Operation.program_wellFormed`), what the loop sends is well formed as soon as it is in the queue (`Serve.Proper`).
-/

namespace PluginSdk

open Program Lts ConfigValue

/-! ### Well-formed messages -/

def PluginJobId.Canonical (id : PluginJobId) : Prop := Validation.canonicalUuidV4 id.value = true

def PluginArtifactId.Canonical (id : PluginArtifactId) : Prop := Validation.canonicalUuidV4 id.value = true

def ProtocolError.WellFormed (error : ProtocolError) : Prop := error.code ≠ 0 ∧ error.message ≠ ""

structure ArtifactDescriptor.WellFormed (descriptor : ArtifactDescriptor) : Prop where
  artifactId : ∃ id, descriptor.artifactId = some id ∧ id.Canonical
  /-- A basename of 1 to 191 bytes. -/
  length : descriptor.fileName.toUTF8.toList ≠ [] ∧ descriptor.fileName.toUTF8.toList.length ≤ 191
  basename : descriptor.fileName ≠ "." ∧ descriptor.fileName ≠ ".." ∧ '/' ∉ descriptor.fileName.toList ∧
    0 ∉ descriptor.fileName.toUTF8.toList
  mediaType : descriptor.mediaType ≠ ""
  sha256 : descriptor.sha256.length = 32

/-- The action has succeeded: artifacts once each, and a durable result. -/
structure JobUpdate.Succeeded (update : JobUpdate) : Prop where
  state : update.state = .succeeded
  result : ∀ value, update.result = some value → Grammatical none value
  error : update.error = none
  artifacts : ∀ descriptor ∈ update.artifacts, descriptor.WellFormed
  distinct : (update.artifacts.map (·.artifactId)).Nodup

structure JobUpdate.Failed (update : JobUpdate) : Prop where
  state : update.state = .failed
  result : update.result = none
  error : ∃ error, update.error = some error ∧ error.WellFormed
  artifacts : update.artifacts = []

structure JobUpdate.WellFormed (update : JobUpdate) : Prop where
  jobId : ∃ id, update.jobId = some id ∧ id.Canonical
  outcome : update.Succeeded ∨ update.Failed

structure LogRecord.WellFormed (record : LogRecord) : Prop where
  timestamp : ∃ timestamp, record.timestamp = some timestamp ∧ TimestampDomain timestamp
  level : record.level ≠ .unspecified
  target : record.target ≠ ""
  fields : ∀ field ∈ record.fields, Grammatical none field.2

/-- Every segment of a path is set; a function belongs to the session, and so do its arguments. -/
def HostCall.WellFormed (sessionId : String) : HostCall → Prop
  | .getConfig request => ∀ path, request.path = some path → .unset ∉ path.segments
  | .invokeConfigFunction request =>
    ∃ function, request.function = some function ∧ function.sessionId = sessionId ∧ function.functionId ≠ "" ∧
      ∀ v ∈ request.arguments, Grammatical (some sessionId) v
  | _ => True

/-- The largest chunk that is sent to the host. -/
def HostParameters.chunkBytes (host : HostParameters) : Nat :=
  min host.maximumArtifactChunkBytes artifactIoBufferBytes

/-- The announced chunks are as many as the artifact needs. -/
structure ArtifactTransferStart.WellFormed (host : HostParameters) (start : ArtifactTransferStart) : Prop where
  jobId : ∃ id, start.jobId = some id ∧ id.Canonical
  artifact : ∃ descriptor, start.artifact = some descriptor ∧ descriptor.WellFormed ∧
    start.chunkCount = Pieces.number host.chunkBytes descriptor.sizeBytes
  chunkCount : start.chunkCount < 2 ^ 32

structure ArtifactTransferChunk.WellFormed (host : HostParameters) (chunk : ArtifactTransferChunk) : Prop where
  artifactId : ∃ id, chunk.artifactId = some id ∧ id.Canonical
  chunkIndex : chunk.chunkIndex < 2 ^ 32
  data : chunk.data ≠ [] ∧ chunk.data.length ≤ host.chunkBytes

/-- The payloads that a session sends after its handshake. -/
def Payload.WellFormed (host : HostParameters) : Payload → Prop
  | .jobAccepted accepted => ∃ id, accepted.jobId = some id ∧ id.Canonical
  | .jobUpdate update => update.WellFormed
  | .hostCall request => ∃ call, request.call = some call ∧ call.WellFormed host.sessionId
  | .log record => record.WellFormed
  | .heartbeat _ | .shutdownAcknowledged => True
  | .protocolError error => error.WellFormed
  | .artifactStart start => start.WellFormed host
  | .artifactChunk chunk => chunk.WellFormed host
  | .artifactComplete complete => ∃ id, complete.artifactId = some id ∧ id.Canonical
  | .cancelJobAcknowledged acknowledged => ∃ id, acknowledged.jobId = some id ∧ id.Canonical
  | _ => False

/-- The payloads that answer a request of the host. -/
def Payload.IsReply : Payload → Prop
  | .jobAccepted _ | .heartbeat _ | .protocolError _ | .cancelJobAcknowledged _ | .shutdownAcknowledged => True
  | _ => False

structure PluginEnvelope.WellFormed (host : HostParameters) (envelope : PluginEnvelope) : Prop where
  payload : ∃ payload, envelope.payload = some payload ∧ payload.WellFormed host ∧
    (envelope.replyTo.isSome ↔ payload.IsReply)

/-! ### What the checks ensure -/

private theorem ProtocolError.wellFormed_iff {error : ProtocolError} :
    Validation.protocolError error = .ok () ↔ error.WellFormed :=
  ite_eq_ok

private theorem ArtifactDescriptor.wellFormed_of_validate {descriptor : ArtifactDescriptor}
    {artifactId : PluginArtifactId} (h : validateDescriptor descriptor = .ok artifactId) :
    descriptor.WellFormed ∧ artifactId.Canonical := by
  have hfilter := filter_of_validateDescriptor h
  obtain ⟨hid, hcanonical⟩ := Option.filter_eq_some_iff.1 hfilter
  unfold validateDescriptor at h
  simp only [hfilter] at h
  by_cases hname : descriptor.fileName.toUTF8.toList = [] ∨
      descriptor.fileName.toUTF8.toList.length > maximumArtifactFileNameBytes ∨ descriptor.fileName = "." ∨
      descriptor.fileName = ".." ∨ 0 ∈ descriptor.fileName.toUTF8.toList ∨ '/' ∈ descriptor.fileName.toList
  · rw [if_pos hname] at h
    cases h
  · rw [if_neg hname] at h
    by_cases hmedia : descriptor.mediaType = "" ∨ descriptor.sha256.length ≠ sha256DigestBytes
    · rw [if_pos hmedia] at h
      cases h
    · simp only [not_or, not_lt] at hname hmedia
      obtain ⟨hne, hlength, hdot, hdots, hnul, hslash⟩ := hname
      exact ⟨⟨⟨artifactId, hid, hcanonical⟩, ⟨hne, hlength⟩, ⟨hdot, hdots, hslash, hnul⟩, hmedia.1,
        not_not.1 hmedia.2⟩, hcanonical⟩

private theorem HostCall.wellFormed_of_validate {call : HostCall} {sessionId : String} {kind : HostCallKind}
    (h : HostCallKind.validate call sessionId = .ok kind) : call.WellFormed sessionId := by
  cases call with
  | getConfig request =>
    intro path hpath hunset
    unfold HostCallKind.validate at h
    simp only at h
    rw [if_pos (by simpa [hpath] using hunset)] at h
    cases h
  | invokeConfigFunction request => exact HostCallKind.invokeConfigFunction_of_validate h
  | _ => trivial

/-- The update that settles a job is well formed if the ID of the job is. -/
theorem terminalUpdate_sound {jobId : String} (hid : PluginJobId.Canonical ⟨jobId⟩) (output : Output) :
    (terminalUpdate jobId output).WellFormed := by
  rcases terminalUpdate_cases jobId output with ⟨result, -, hreportable, hupdate⟩ | ⟨error, -, hupdate⟩
  · rw [hupdate]
    refine ⟨⟨_, rfl, hid⟩, Or.inl ⟨rfl, fun value hvalue => ?_, rfl, fun descriptor hmem => ?_, ?_⟩⟩
    · exact validateSerializable_eq_ok.1 (hreportable.durable value hvalue)
    · obtain ⟨a, -, rfl⟩ := List.mem_map.1 hmem
      exact (ArtifactDescriptor.wellFormed_of_validate a.valid).1
    · have hids : (result.artifacts.map (·.descriptor)).map (·.artifactId) =
          (result.artifacts.map (·.artifactId)).map some := by
        rw [List.map_map, List.map_map]
        exact List.map_congr_left fun a _ => artifactId_of_validateDescriptor a.valid
      rw [hids]
      exact hreportable.distinct.map (Option.some_injective _)
  · rw [hupdate]
    have herror := ProtocolError.wellFormed_iff.1 (outboundError_valid error)
    exact ⟨⟨_, rfl, hid⟩, Or.inr ⟨rfl, rfl, ⟨_, rfl, herror⟩, rfl⟩⟩

/-! ### What a context sends -/

/-- What a context of the job may send. -/
def ContextOp.WellFormed (host : HostParameters) : ContextOp → Prop
  | .send _ payload | .request _ payload => payload.WellFormed host ∧ ¬ payload.IsReply
  | _ => True

/-- An answer that a call may get. -/
def ContextOp.Answered (o : ContextOp) (r : o.Reply) : Prop := ∃ es, Shows o r es

section Programs

variable {platform : Platform} {context : ActionContext}

private theorem ensureActive_wellFormed :
    ContextProgram.ensureActive.run.AllUnder ContextOp.Answered (ContextOp.WellFormed context.host) :=
  ⟨trivial, fun _ _ => trivial⟩

/-- What comes after a check may rely on it. -/
private theorem ContextProgram.lift_bind_allUnder {α β : Type} {R : (o : ContextOp) → o.Reply → Prop}
    {P : ContextOp → Prop} {x : Except SdkError α} {f : α → ContextProgram β}
    (h : ∀ a, x = .ok a → (f a).run.AllUnder R P) : (ContextProgram.lift x >>= f).run.AllUnder R P := by
  cases x with
  | error e => trivial
  | ok a => exact h a rfl

private theorem send_wellFormed {trace : TraceContext} {payload : Payload} (hp : payload.WellFormed context.host)
    (hown : ¬ payload.IsReply) :
    (ContextProgram.send trace payload).run.AllUnder ContextOp.Answered (ContextOp.WellFormed context.host) :=
  ⟨⟨hp, hown⟩, fun _ _ => trivial⟩

private theorem request_wellFormed {payload : Payload} (hp : payload.WellFormed context.host)
    (hown : ¬ payload.IsReply) :
    (context.request payload).run.AllUnder ContextOp.Answered (ContextOp.WellFormed context.host) :=
  ensureActive_wellFormed.except_bind fun _ _ => ⟨⟨hp, hown⟩, fun _ _ => trivial⟩

private theorem hostCall_wellFormed (call : HostCall) :
    (context.hostCall call).run.AllUnder ContextOp.Answered (ContextOp.WellFormed context.host) := by
  refine ensureActive_wellFormed.except_bind fun _ _ => ContextProgram.lift_bind_allUnder fun kind hkind => ?_
  refine ContextProgram.lift_bind_allUnder fun trace _ => ?_
  have hcall : Payload.WellFormed context.host (.hostCall ⟨some call⟩) :=
    ⟨call, rfl, HostCall.wellFormed_of_validate hkind⟩
  refine AllUnder.except_bind ⟨⟨hcall, id⟩, fun _ _ => trivial⟩ fun payload _ => ?_
  refine ContextProgram.lift_bind_allUnder fun response _ => ?_
  exact ContextProgram.lift_bind_allUnder fun _ _ => trivial

private theorem log_wellFormed (level : LogLevel) (target message : String) (fields : List (String × ConfigValue)) :
    (context.log level target message fields).run.AllUnder ContextOp.Answered
    (ContextOp.WellFormed context.host) := by
  refine ensureActive_wellFormed.except_bind fun _ _ => ?_
  by_cases hlevel : level = .unspecified
  · rw [if_pos hlevel]
    trivial
  · rw [if_neg hlevel]
    by_cases htarget : target = ""
    · rw [if_pos htarget]
      trivial
    · rw [if_neg htarget]
      refine ContextProgram.lift_bind_allUnder fun _ hfields => ?_
      refine AllUnder.except_bind ⟨trivial, fun _ _ => trivial⟩ fun timestamp _ => ?_
      by_cases htimestamp : validTimestamp timestamp = true
      · rw [if_pos htimestamp]
        refine send_wellFormed ⟨⟨timestamp, rfl, validTimestamp_eq_true.1 htimestamp⟩, hlevel, htarget, ?_⟩ id
        exact ActionContext.validateFields_eq_ok.1 hfields
      · rw [if_neg htimestamp]
        trivial

private theorem readToEnd_wellFormed (reads size : Nat) (bytes : List UInt8) :
    (readToEnd reads size bytes).run.AllUnder ContextOp.Answered (ContextOp.WellFormed context.host) := by
  induction reads generalizing size bytes with
  | zero => trivial
  | succ reads ih =>
    refine AllUnder.except_bind ⟨trivial, fun _ _ => trivial⟩ fun read _ => ?_
    split
    · trivial
    · split
      · trivial
      · exact ih _ _

private theorem validateSource_wellFormed (descriptor : ArtifactDescriptor) :
    (validateSource platform descriptor).run.AllUnder ContextOp.Answered (ContextOp.WellFormed context.host) := by
  refine AllUnder.except_bind ⟨trivial, fun _ _ => trivial⟩ fun start _ => ?_
  refine (readToEnd_wellFormed ..).except_bind fun result _ => ?_
  refine AllUnder.except_bind ⟨trivial, fun _ _ => trivial⟩ fun _ _ => ?_
  split <;> trivial

/-- The source yields as many bytes as are asked of it. -/
private theorem length_of_readExact {length : Nat} {operation : String} {data : List UInt8}
    (h : (ContextProgram.readExact length operation).run.Returns ContextOp.Answered (.ok data)) :
    data.length = length := by
  obtain ⟨r, ⟨es, -, hlength⟩, hr⟩ := h
  cases r with
  | cancelled => cases hr
  | ready result =>
    cases result with
    | error source => cases hr
    | ok bytes =>
      cases hr
      exact hlength data rfl

/-- Every chunk that is still to be sent has some of the remaining bytes. -/
private theorem sendChunks_wellFormed {artifactId : PluginArtifactId} (hid : artifactId.Canonical)
    (hpos : 0 < context.host.chunkBytes) (chunks index remaining : Nat) (hindex : index + chunks < 2 ^ 32)
    (hneeded : ∀ i < chunks, i * context.host.chunkBytes < remaining) :
    (context.sendChunks artifactId context.host.chunkBytes chunks index remaining).run.AllUnder ContextOp.Answered
      (ContextOp.WellFormed context.host) := by
  induction chunks generalizing index remaining with
  | zero => trivial
  | succ chunks ih =>
    refine ensureActive_wellFormed.except_bind fun _ _ => ?_
    refine AllUnder.except_bind ⟨trivial, fun _ _ => trivial⟩ fun data hdata => ?_
    have hlength := length_of_readExact hdata
    have hsome := hneeded 0 (Nat.succ_pos chunks)
    have hchunk : Payload.WellFormed context.host (.artifactChunk ⟨some artifactId, index, data⟩) := by
      refine ⟨⟨artifactId, rfl, hid⟩, Nat.lt_of_le_of_lt (Nat.le_add_right _ _) hindex, ?_, ?_⟩
      · rw [← List.length_pos_iff, hlength]
        omega
      · exact hlength.trans_le (Nat.min_le_right _ _)
    refine (send_wellFormed hchunk id).except_bind fun _ _ => ih _ _ (by omega) fun i hi => ?_
    have hnext := hneeded (i + 1) (by omega)
    rw [Nat.succ_mul] at hnext
    omega

private theorem transfer_wellFormed {descriptor : ArtifactDescriptor} {artifactId : PluginArtifactId}
    (hjob : PluginJobId.Canonical ⟨context.jobId⟩) (hvalid : validateDescriptor descriptor = .ok artifactId) :
    (context.transfer platform descriptor artifactId).run.AllUnder ContextOp.Answered
    (ContextOp.WellFormed context.host) := by
  obtain ⟨hdescriptor, hid⟩ := ArtifactDescriptor.wellFormed_of_validate hvalid
  refine ensureActive_wellFormed.except_bind fun _ _ => ContextProgram.lift_bind_allUnder fun plan hplan => ?_
  obtain ⟨hlimit, hbytes, hcount⟩ := artifactPlan_eq_ok hplan
  have hlt := chunkCount_lt hplan
  have hbytes : plan.chunkBytes = context.host.chunkBytes := hbytes
  have hpos : 0 < context.host.chunkBytes := chunkBytes_pos hlimit
  rw [hbytes] at hcount
  have hstart : Payload.WellFormed context.host
      (.artifactStart ⟨some ⟨context.jobId⟩, some descriptor, plan.chunkCount⟩) :=
    ⟨⟨_, rfl, hjob⟩, ⟨descriptor, rfl, hdescriptor, hcount⟩, hlt⟩
  have hcomplete : Payload.WellFormed context.host (.artifactComplete ⟨some artifactId⟩) := ⟨artifactId, rfl, hid⟩
  refine (request_wellFormed hstart id).except_bind fun start _ => ?_
  split
  · rw [hbytes]
    refine (sendChunks_wellFormed hid hpos _ _ _ (by omega) fun i hi => ?_).except_bind fun _ _ => ?_
    · rw [hcount] at hi
      exact (Pieces.lt_number_iff hpos).1 hi
    · refine (request_wellFormed hcomplete id).except_bind fun complete _ => ?_
      split <;> trivial
  · trivial

/-- Whatever an action asks of its context, and whatever it is answered with, only well-formed payloads are sent. -/
theorem Operation.program_wellFormed (hjob : PluginJobId.Canonical ⟨context.jobId⟩) (operation : Operation) :
    (operation.program platform context).run.AllUnder ContextOp.Answered (ContextOp.WellFormed context.host) := by
  cases operation with
  | hostCall call => exact (hostCall_wellFormed call).except_bind fun _ _ => trivial
  | getConfig path =>
    refine AllUnder.except_bind ((hostCall_wellFormed _).except_bind fun response _ => ?_) fun _ _ => trivial
    split <;> trivial
  | invokeConfigFunction function arguments =>
    refine AllUnder.except_bind ((hostCall_wellFormed _).except_bind fun response _ => ?_) fun _ _ => trivial
    split <;> trivial
  | log level target message fields =>
    exact (log_wellFormed level target message fields).except_bind fun _ _ => trivial
  | storeArtifact descriptor =>
    refine AllUnder.except_bind (ensureActive_wellFormed.except_bind fun _ _ => ?_) fun _ _ => trivial
    split
    · trivial
    · rename_i hvalid
      refine (validateSource_wellFormed _).except_bind fun _ _ => ?_
      exact (transfer_wellFormed hjob hvalid).except_bind fun _ _ => trivial

end Programs

/-! ### What the loop sends -/

/-- The message is well formed, and a reply if its kind is one. -/
structure Outgoing.WellFormed (host : HostParameters) (o : Outgoing) : Prop where
  payload : o.payload.WellFormed host
  reply : o.replyTo.isSome ↔ o.payload.IsReply

private theorem Validation.canonical_of_jobId {id : Option PluginJobId} {jobId : String}
    (h : Validation.jobId id = .ok jobId) : PluginJobId.Canonical ⟨jobId⟩ := by
  obtain rfl := Validation.jobId_eq_ok h
  unfold Validation.jobId at h
  by_cases hid : Validation.canonicalUuidV4 jobId = true
  · exact hid
  · simp only at h
    rw [if_neg hid] at h
    cases h

namespace Serve

variable {s s' : Serve} {e : ServeEvent} {h : List ServeEvent} {setup : Setup} {host : HostParameters}
  {envelope : PluginEnvelope} {jobId : String}

/-- All that the loop is to send is well formed, and so are the IDs of its jobs. -/
structure Proper (host : HostParameters) (s : Serve) : Prop where
  active : ∀ jobId ∈ s.jobs.active, PluginJobId.Canonical ⟨jobId⟩
  queue : ∀ o ∈ s.loop.queue, o.WellFormed host
  accepted : ∀ queue job, s.loop = .sending queue (.spawn job) → PluginJobId.Canonical ⟨job.jobId⟩
  shutdown : ∀ o, s.loop.shutdown = some o → o.WellFormed host

/-- The loop has nothing to send. -/
private theorem Proper.idle (hp : s.Proper host) (hactive : ∀ jobId ∈ s'.jobs.active, jobId ∈ s.jobs.active)
    (hloop : ∀ queue next, s'.loop ≠ .sending queue next) (hshut : s'.loop.shutdown = none) : s'.Proper host := by
  have hqueue : s'.loop.queue = [] := by
    cases hl : s'.loop with
    | sending queue next => exact absurd hl (hloop queue next)
    | _ => rfl
  refine ⟨fun jobId hj => hp.active jobId (hactive jobId hj), by simp [hqueue], fun queue job hl =>
    ?_, by simp [hshut]⟩
  exact absurd hl (hloop _ _)

/-- The loop has something to send, and starts no job after it. -/
private theorem Proper.start (hp : s.Proper host) (hactive : ∀ jobId ∈ s'.jobs.active, jobId ∈ s.jobs.active)
    {queue : List Outgoing} {next : Next} (hloop : s'.loop = .sending queue next)
    (hqueue : ∀ o ∈ queue, o.WellFormed host) (hnext : ∀ job, next ≠ .spawn job)
    (hshut : s'.loop.shutdown = s.loop.shutdown ∨ s'.loop.shutdown = none) : s'.Proper host := by
  refine ⟨fun jobId hj => hp.active jobId (hactive jobId hj), by rwa [hloop], fun queue' job hl => ?_, fun o ho => ?_⟩
  · rw [hloop] at hl
    cases hl
    exact absurd rfl (hnext job)
  · rcases hshut with hshut | hshut
    · exact hp.shutdown o (hshut ▸ ho)
    · rw [hshut] at ho
      cases ho

private theorem acknowledgement_wellFormed {c : PendingCancellation} (hid : c.jobId.Canonical) :
    c.acknowledgement.WellFormed host :=
  ⟨⟨_, rfl, hid⟩, iff_of_true rfl trivial⟩

/-- What the loop makes of an envelope is well formed. -/
private theorem Proper.process (hp : s.Proper host) (hhead : s.loop = .head) (envelope : PluginEnvelope) :
    (s.process envelope).1.Proper host := by
  have hobeys := @live_process s envelope (by simp [Live, hhead])
  have hprocessed := process_processed s envelope
  generalize (s.process envelope).1 = s' at hobeys hprocessed
  generalize (s.process envelope).2 = call at hprocessed
  have hsame : ∀ {t : Serve}, t.jobs.active = s.jobs.active → ∀ jobId ∈ t.jobs.active, jobId ∈ s.jobs.active :=
    fun heq jobId hj => heq ▸ hj
  cases hprocessed with
  | failed => exact hp.idle (hsame rfl) (by simp [fail]) rfl
  | replied => exact hp.idle (hsame rfl) (by simp [hhead]) (by simp [hhead, Loop.shutdown])
  | @accepted _ _ _ jobId _ hreq hok =>
    have hid := Validation.canonical_of_jobId hok.id
    refine ⟨fun _ hj => hp.active _ hj, fun o ho => ?_, fun queue job hl => ?_, by simp [Loop.shutdown]⟩
    · obtain rfl := List.mem_singleton.1 ho
      exact ⟨⟨_, rfl, hid⟩, iff_of_true rfl trivial⟩
    · cases hl
      exact hid
  | refused =>
    refine hp.start (hsame rfl) rfl (fun o ho => ?_) (by simp) (Or.inr rfl)
    obtain rfl := List.mem_singleton.1 ho
    exact ⟨⟨by simp [capacityError, ErrorCode.toInt], by simp [capacityError]⟩, iff_of_true rfl trivial⟩
  | @cancelled _ _ _ jobId job _ _ hl =>
    refine hp.start (fun jobId' hj => ?_) rfl (by simp) (by simp) (Or.inr rfl)
    rcases (AList.mem_insert _).1 hj with rfl | hj
    · exact AList.mem_of_lookup hl
    · exact hj
  | @acknowledged _ _ request jobId hreq hid =>
    refine hp.start (hsame rfl) rfl (fun o ho => ?_) (by simp) (Or.inr rfl)
    obtain rfl := List.mem_singleton.1 ho
    obtain ⟨_, _, -, hrequest⟩ := hobeys.1 trivial
    rw [hreq.replyTo, hreq.payload] at hrequest
    obtain ⟨⟨jobId', hjob⟩, -⟩ := hrequest
    rw [hid] at hjob
    obtain rfl : jobId = jobId' := congrArg PluginJobId.value (Option.some.inj (Validation.jobId_eq_ok hjob))
    exact ⟨⟨_, rfl, Validation.canonical_of_jobId hjob⟩, iff_of_true rfl trivial⟩
  | heartbeat =>
    refine hp.start (hsame rfl) rfl (fun o ho => ?_) (by simp) (Or.inr rfl)
    obtain rfl := List.mem_singleton.1 ho
    exact ⟨trivial, iff_of_true rfl trivial⟩
  | shutdown =>
    refine ⟨fun _ hj => hp.active _ hj, by simp [Loop.queue], by simp, fun o ho => ?_⟩
    cases ho
    exact ⟨trivial, iff_of_true rfl trivial⟩

private theorem LoopStep.proper (hs : LoopStep s e s') (hq : s.Queued) (hp : s.Proper host) : s'.Proper host := by
  have hsame : ∀ {t : Serve}, t.jobs.active = s.jobs.active → ∀ jobId ∈ t.jobs.active, jobId ∈ s.jobs.active :=
    fun heq jobId hj => heq ▸ hj
  cases hs with
  | receive hhead => exact hp.process hhead _
  | @send o queue next link env hloop =>
    have hqueue : ∀ o' ∈ queue, o'.WellFormed host := by
      intro o' ho'
      refine hp.queue o' ?_
      rw [hloop]
      exact List.mem_cons_of_mem _ ho'
    refine ⟨hp.active, hqueue, fun queue' job hl => ?_, fun o' ho' => hp.shutdown o' ?_⟩
    · cases hl
      exact hp.accepted _ job hloop
    · rw [hloop]
      cases next <;> exact ho'
  | @spawn job hloop =>
    refine ⟨fun jobId hj => ?_, by simp [Loop.queue], by simp, by simp [Loop.shutdown]⟩
    rcases (AList.mem_insert _).1 hj with rfl | hj
    · exact hp.accepted _ job hloop
    · exact hp.active jobId hj
  | @join inst jobId output jobs queue _ _ _ hsettle =>
    obtain ⟨job, hl, rfl, rfl⟩ := JobManager.settle_join hsettle
    have hid := hp.active jobId (AList.mem_of_lookup hl)
    refine hp.start (fun jobId' hj => ?_) rfl (fun o ho => ?_) (by simp) (Or.inr rfl)
    · rcases (AList.mem_insert _).1 hj with rfl | hj
      · exact AList.mem_of_lookup hl
      · exact hj
    · unfold JobManager.settlement at ho
      split at ho
      · obtain rfl := List.mem_singleton.1 ho
        exact ⟨terminalUpdate_sound hid output, iff_of_false (by simp) id⟩
      · obtain ⟨c, hc, rfl⟩ := List.mem_map.1 ho
        exact acknowledgement_wellFormed (hq.labels hl hc ▸ hid)
  | remove hloop => exact hp.idle (fun jobId hj => (AList.mem_erase.1 hj).2) (by simp) rfl
  | drain hloop => exact ⟨hp.active, hp.queue, hp.accepted, hp.shutdown⟩
  | @takeCancellations o deadline entries hloop _ hperm =>
    refine hp.start (fun jobId hj => ?_) rfl (fun o' ho' => ?_) (by simp) (Or.inl (by rw [hloop]; rfl))
    · obtain ⟨job, hl⟩ := AList.exists_lookup_of_mem hj
      change (s.jobs.active.mapValues _).lookup jobId = some job at hl
      rw [AList.lookup_mapValues, Option.map_eq_some_iff] at hl
      obtain ⟨job', hl, -⟩ := hl
      exact AList.mem_of_lookup hl
    · obtain ⟨entry, hentry, hmem⟩ := List.mem_flatMap.1 ho'
      obtain ⟨c, hc, rfl⟩ := List.mem_map.1 hmem
      have hl : s.jobs.active.lookup entry.1 = some entry.2 := AList.lookup_eq_some_iff.2 (hperm.subset hentry)
      exact acknowledgement_wellFormed (hq.labels hl hc ▸ hp.active _ (AList.mem_of_lookup hl))
  | clear hloop =>
    refine ⟨by simp, by simp [Loop.queue], by simp, fun o' ho' => hp.shutdown o' ?_⟩
    rw [hloop]
    exact ho'
  | _ => exact hp.idle (hsame rfl) (by simp [fail]) rfl

private theorem Step.proper (hs : Step s e s') (hq : s.Queued) (hp : s.Proper host) : s'.Proper host := by
  have hframe : Frame s s' → s'.Proper host := by
    rintro hf
    refine ⟨hf.active ▸ hp.active, ?_, ?_, ?_⟩ <;> rw [hf.loop]
    · exact hp.queue
    · exact hp.accepted
    · exact hp.shutdown
  cases hs with
  | loop hs => exact hs.proper hq hp
  | task hs => exact hframe hs.frame
  | context hs => exact hframe hs.frame

private theorem proper (hr : Steps Step (init setup) h s) : s.Proper host := by
  refine (hr.invariant (I := fun s => s.Queued ∧ s.Proper host)
    (fun _ _ _ hs hi => ⟨hs.queued hi.1, hs.proper hi.1 hi.2⟩) ⟨queued .nil, ?_⟩).2
  constructor <;> simp [init, Loop.queue, Loop.shutdown]

private theorem Step.sent_wellFormed (hp : s.Proper host) (hs : Step s (.sent envelope) s') :
    envelope.WellFormed host := by
  have hstamp : ∀ {o : Outgoing} {identity : SessionIdentity} {id : Nat}, o.WellFormed host →
      (identity.stamp id o).WellFormed host := fun ho => ⟨⟨_, rfl, ho.payload, ho.reply⟩⟩
  cases hs with
  | task hs => cases hs
  | context hs => cases hs
  | loop hs =>
    cases hs with
    | send hloop _ _ hsend =>
      obtain ⟨rfl, -⟩ := HostLink.send_eq_ok hsend
      exact hstamp (hp.queue _ (by rw [hloop]; exact List.mem_cons_self))
    | acknowledge hloop _ _ hsend =>
      obtain ⟨rfl, -⟩ := HostLink.send_eq_ok hsend
      exact hstamp (hp.shutdown _ (by rw [hloop]; rfl))

end Serve

/-! ### Sessions -/

namespace Session

variable {platform : Platform} {x x' : Session} {e : ServeEvent} {h : List ServeEvent} {setup : Setup}

/-- The ID of a job that has a context is canonical. -/
private theorem canonical_of_spawned (hr : Steps (Step platform) (init setup) h x) {inst : Nat}
    {context : ActionContext} (hmem : .spawned inst context ∈ h) : PluginJobId.Canonical ⟨context.jobId⟩ := by
  obtain ⟨h₁, h₂, rfl⟩ := List.append_of_mem hmem
  obtain ⟨y, y', hy, hs, -⟩ := hr.split
  obtain ⟨job, hloop, rfl⟩ := hs.serve.spawned_inv
  have hproper : y.serve.Proper setup.host := Serve.proper (run_serve hy)
  exact hproper.accepted _ job hloop

/-- A context sends only well-formed envelopes, none of them a reply. -/
private theorem Step.emitted_wellFormed (hr : Steps (Step platform) (init setup) h x) {actor : Actor} {call : Nat}
    {envelope : PluginEnvelope} (hs : Step platform x (.emitted actor call envelope) x') :
    envelope.WellFormed setup.host := by
  have hreply : envelope.replyTo = none := by
    have hres := Serve.reserved_replyTo (run_serve hr)
    cases hs.serve with
    | loop hs => cases hs
    | task hs => cases hs
    | context hs => exact Option.map_eq_none_iff.1 (hs.reply_eq_none hres)
  cases hs with
  | loop hs => cases hs
  | task hs => cases hs
  | stream _ hstream => exact hstream.elim
  | @call _ c _ _ _ hc hs =>
    obtain ⟨operation, es, hexec, -⟩ := (provenance_run hr).calls _ _ hc
    have hid := canonical_of_spawned hr ((Session.spawned hr).calls _ _ hc)
    have hall := hexec.allUnder (fun o r es hshows => ⟨es, hshows⟩) (Operation.program_wellFormed hid operation)
    obtain ⟨-, o, k, trace, payload, hprogram, ho, -, hpayload⟩ := hs.emitted_inv
    obtain ⟨hhost, -⟩ := startedIn_of_call hr hc
    rw [hprogram, hhost] at hall
    have hsent : payload.WellFormed setup.host ∧ ¬ payload.IsReply := by
      rcases ho with rfl | rfl
      all_goals exact hall.1
    exact ⟨⟨payload, hpayload, hsent.1, iff_of_false (by simp [hreply]) hsent.2⟩⟩

/-- What is enqueued is well formed, whoever enqueues it. -/
theorem enqueued_wellFormed (hr : Steps (Step platform) (init setup) h x) {envelope : PluginEnvelope}
    (henvelope : envelope ∈ outbound h) : envelope.WellFormed setup.host := by
  obtain ⟨e, he, henqueued⟩ := List.mem_filterMap.1 henvelope
  obtain ⟨h₁, h₂, rfl⟩ := List.append_of_mem he
  obtain ⟨y, y', hy, hs, -⟩ := hr.split
  cases e with
  | sent env =>
    obtain rfl : env = envelope := Option.some.inj henqueued
    exact hs.serve.sent_wellFormed (Serve.proper (run_serve hy))
  | emitted actor call env =>
    obtain rfl : env = envelope := Option.some.inj henqueued
    exact hs.emitted_wellFormed hy
  | _ => cases henqueued

/-- On the wire there are the greeting, the ready message, and from then on well-formed envelopes only. -/
theorem outbound_wellFormed (hr : Steps (Step platform) (init setup) h x) :
    ∃ greeting ready, x.serve.link.wire = greeting :: ready :: outbound h ∧
      greeting.payload = some (.pluginHello setup.hello) ∧ ready.payload = some .ready ∧
      ∀ envelope ∈ outbound h, envelope.WellFormed setup.host := by
  have hwire : x.serve.link.wire = (Serve.init setup).link.wire ++ outbound h := Serve.wire_eq (run_serve hr)
  rw [Serve.init_link] at hwire
  exact ⟨_, _, hwire, rfl, rfl, fun envelope henvelope => enqueued_wellFormed hr henvelope⟩

theorem outbound_wellFormed_sampleInvocation : ∃ u, Steps (Step samplePlatform) (init Serve.sampleSetup)
    (sampleCalling ++ [.emitted sampleAction 0 (sampleCalled (.invokeConfigFunction sampleInvocation))]) u ∧
    HostCall.WellFormed "session" (.invokeConfigFunction sampleInvocation) := by
  obtain ⟨u, -, hu, -⟩ := @sampleCalled_steps (.invokeConfigFunction sampleInvocation) .invokeConfigFunction rfl
  obtain ⟨-, -, -, -, -, hall⟩ := outbound_wellFormed hu
  obtain ⟨payload, hpayload, hwell, -⟩ := (hall (sampleCalled (.invokeConfigFunction sampleInvocation))
    (List.mem_filterMap.2 ⟨_, List.mem_append_right _ (List.mem_singleton_self _), rfl⟩)).payload
  obtain rfl := Option.some.inj hpayload
  obtain ⟨call, hcall, hwell⟩ := hwell
  obtain rfl := Option.some.inj hcall
  exact ⟨u, hu, hwell⟩

end Session

end PluginSdk
