import PluginSdk.Jobs
import PluginSdk.Lib.Lts

/-!
# The serve loop

The session loop with its job manager, the tasks of the jobs, and the link to the host that the loop shares with the
contexts of the actions.  The loop takes an envelope or a finished task, whichever `select!` yields, handles it to the
end, and only then takes the next.  The tasks and the contexts run in between, at any point.  What an action does is
left open here: it may send anything a context can send, at any time, and end with any result.
-/

namespace PluginSdk

/-- Where the session loop is. -/
inductive Loop
  /-- In the `select!`. -/
  | head
  /-- Sending, one envelope after the other. -/
  | sending (queue : List Outgoing) (next : Next)
  /-- In the join loop of `JobManager::shutdown`, with all tasks aborted. -/
  | draining (acknowledgement : Outgoing) (deadline : Timestamp)
  /-- Sending the acknowledgement of the shutdown. -/
  | acknowledging (acknowledgement : Outgoing) (deadline : Timestamp)
  /-- Waiting for the output stream to consume the acknowledgement, the last of the first `count` envelopes. -/
  | consuming (count : Nat) (deadline : Timestamp)
  | returned (result : Except SdkError Timestamp)
  | panicked (message : String)

/-- Who makes a step through a context.  A context is cloned and handed on freely. -/
structure Actor where
  /-- The action that the context was made for. -/
  inst : Nat
  /-- The action whose own future makes the step, if it is not a task that was spawned. -/
  future : Option Nat
deriving DecidableEq

inductive TaskEvent
  | started
  | acted
  | ended (result : Except String Output)
  | aborted
  | finished
  | completed

inductive ServeEvent
  /-- The loop has taken an envelope, and has handed a reply to the call `delivered`. -/
  | received (envelope : PluginEnvelope) (delivered : Option Nat)
  | hostClosed (e : SdkError)
  /-- The loop has enqueued an envelope. -/
  | sent (envelope : PluginEnvelope)
  | sendFailed (e : SdkError)
  | resumed
  | spawned (inst : Nat) (context : ActionContext)
  | joined (inst : Nat) (jobId : String)
  | joinFailed (inst : Nat) (jobId : String)
  | settled (jobId : String)
  /-- Joined by the shutdown. -/
  | drained (inst : Nat) (jobId : String)
  | cancellationsTaken
  | cleared
  | returned (result : Except SdkError Timestamp)
  | panicked
  | task (inst : Nat) (jobId : String) (e : TaskEvent)
  /-- The steps of a call that is made through a context. -/
  | reserved (actor : Actor) (call : Nat) (id : Nat)
  | emitted (actor : Actor) (call : Nat) (envelope : PluginEnvelope)
  | refused (actor : Actor) (call : Nat) (e : SdkError)
  | internal (actor : Actor) (call : Nat)
  /-- A future is dropped between reserving an ID and enqueueing. -/
  | released (call : Nat)
  | burned
  | consumed
  | closed

/-- What the serve loop is started with after the handshake. -/
structure Setup where
  session : SessionState
  host : HostParameters
  handshakeTrace : TraceContext
  hello : PluginHello
  actions : Table String RegisteredAction
  maximumConcurrentJobs : Nat

structure Serve where
  session : SessionState
  host : HostParameters
  link : HostLink
  jobs : JobManager
  cells : Nat → CancellationValue
  /-- How many jobs have been spawned; the next one gets this address. -/
  spawned : Nat
  loop : Loop

namespace Serve

/-- The start of `serve`. -/
def init (setup : Setup) : Serve where
  session := setup.session
  host := setup.host
  link := (HostLink.init setup.session.identity outgoingCapacity).handshake setup.handshakeTrace setup.hello
  jobs :=
    { actions := setup.actions
      maximumConcurrentJobs := setup.maximumConcurrentJobs
      active := ∅
      tasks := [] }
  cells := fun _ => .active
  spawned := 0
  loop := .head

/-! ### Envelopes of the host -/

def fail (s : Serve) (e : SdkError) : Serve := { s with loop := .returned (.error e) }

def checkReply : Payload → Except SdkError Unit
  | .protocolError error => Validation.protocolError error
  | _ => .ok ()

/-- An envelope that replies to one of the plugin's. -/
def reply (s : Serve) (replyTo : Nat) (trace : TraceContext) (payload : Option Payload) : Serve × Option Nat :=
  match payload with
  | none => (s.fail (.protocol "response payload is required"), none)
  | some payload =>
    match checkReply payload with
    | .error e => (s.fail e, none)
    | .ok () =>
      match s.link.route replyTo trace with
      | (link, .error e) => ({ s with link }.fail e, none)
      | (link, .ok call) => ({ s with link }, some call)

/-- A request of the host. -/
def request (s : Serve) (messageId : Nat) (trace : TraceContext) (payload : Option Payload) : Serve :=
  match payload with
  | some (.startJob request) =>
    match s.jobs.start messageId trace request with
    | .error e => s.fail e
    | .ok (o, next) => { s with loop := .sending [o] next }
  | some (.cancelJob request) =>
    match s.jobs.cancel messageId trace request with
    | .error e => s.fail e
    | .ok (jobs, controllers, queue) =>
      { s with jobs, cells := cancelAll s.cells controllers, loop := .sending queue .head }
  | some (.heartbeat heartbeat) => { s with loop := .sending [⟨some messageId, trace, .heartbeat heartbeat⟩] .head }
  | some (.shutdown request) =>
    match Validation.shutdown request with
    | .error e => s.fail e
    | .ok deadline =>
      { s with
        cells := cancelAll s.cells s.jobs.controllers
        loop := .draining ⟨some messageId, trace, .shutdownAcknowledged⟩ deadline }
  | some (.protocolError error) =>
    match Validation.protocolError error with
    | .error e => s.fail e
    | .ok () => s.fail (.host error)
  | some _ => s.fail (.protocol "unexpected host-initiated message")
  | none => s.fail (.protocol "payload is required")

/-- The body of the loop on an envelope, up to its first await, and the call that a reply was handed to. -/
def process (s : Serve) (envelope : PluginEnvelope) : Serve × Option Nat :=
  match validateEnvelope envelope s.session with
  | .error e => (s.fail e, none)
  | .ok (trace, session) =>
    match envelope.replyTo with
    | some replyTo => { s with session }.reply replyTo trace envelope.payload
    | none => ({ s with session }.request envelope.messageId trace envelope.payload, none)

/-! ### The steps of the loop -/

/-- The context that an accepted job is started with. -/
def context (s : Serve) (job : AcceptedJob) : ActionContext :=
  { jobId := job.jobId
    deadline := job.deadline
    trace := job.trace
    cancellation := s.spawned
    parentCallId := job.messageId
    host := s.host }

inductive LoopStep : Serve → ServeEvent → Serve → Prop
  | receive {s : Serve} {envelope : PluginEnvelope} : s.loop = .head →
      LoopStep s (.received envelope (s.process envelope).2) (s.process envelope).1
  | hostClosed {s : Serve} {e : SdkError} : s.loop = .head → LoopStep s (.hostClosed e) (s.fail e)
  | send {s : Serve} {o : Outgoing} {queue : List Outgoing} {next : Next} {link : HostLink} {env : PluginEnvelope} :
      s.loop = .sending (o :: queue) next → s.link.reserved = none → s.link.HasRoom →
      s.link.send o = (link, .ok env) → LoopStep s (.sent env) { s with link, loop := .sending queue next }
  | sendFailed {s : Serve} {o : Outgoing} {queue : List Outgoing} {next : Next} {link : HostLink} {e : SdkError} :
      s.loop = .sending (o :: queue) next → s.link.reserved = none → s.link.send o = (link, .error e) →
      LoopStep s (.sendFailed e) ({ s with link }.fail e)
  | resume {s : Serve} : s.loop = .sending [] .head → LoopStep s .resumed { s with loop := .head }
  | spawn {s : Serve} {job : AcceptedJob} : s.loop = .sending [] (.spawn job) →
      s.jobs.active.lookup job.jobId = none →
      LoopStep s (.spawned s.spawned (s.context job))
        { s with
          jobs := s.jobs.spawn job s.spawned
          cells := Function.update s.cells s.spawned .active
          spawned := s.spawned + 1
          loop := .head }
  | spawnReplaced {s : Serve} {job : AcceptedJob} {replaced : ActiveJob} : s.loop = .sending [] (.spawn job) →
      s.jobs.active.lookup job.jobId = some replaced →
      LoopStep s .panicked { s with loop := .panicked "validated active job was replaced" }
  | join {s : Serve} {inst : Nat} {jobId : String} {output : Output} {jobs : JobManager} {queue : List Outgoing} :
      s.loop = .head → s.jobs.hasActiveJobs → ⟨inst, jobId, .completed (.ok output)⟩ ∈ s.jobs.tasks →
      (s.jobs.join ⟨inst, jobId, .completed (.ok output)⟩).settle jobId output = some (jobs, queue) →
      LoopStep s (.joined inst jobId) { s with jobs, loop := .sending queue (.remove jobId) }
  | joinUnknown {s : Serve} {inst : Nat} {jobId : String} {output : Output} :
      s.loop = .head → s.jobs.hasActiveJobs → ⟨inst, jobId, .completed (.ok output)⟩ ∈ s.jobs.tasks →
      (s.jobs.join ⟨inst, jobId, .completed (.ok output)⟩).settle jobId output = none →
      LoopStep s .panicked { s with loop := .panicked "completed action belongs to an active job" }
  | joinFailed {s : Serve} {inst : Nat} {jobId : String} {source : String} :
      s.loop = .head → s.jobs.hasActiveJobs → ⟨inst, jobId, .completed (.error source)⟩ ∈ s.jobs.tasks →
      LoopStep s (.joinFailed inst jobId)
        ({ s with jobs := s.jobs.join ⟨inst, jobId, .completed (.error source)⟩ }.fail
          (.action ("action supervisor task ended without a result: " ++ source)))
  | joinEmpty {s : Serve} : s.loop = .head → s.jobs.hasActiveJobs → s.jobs.tasks = [] →
      LoopStep s .panicked { s with loop := .panicked "active job count matches JoinSet tasks" }
  | remove {s : Serve} {jobId : String} {job : ActiveJob} : s.loop = .sending [] (.remove jobId) →
      s.jobs.active.lookup jobId = some job →
      LoopStep s (.settled jobId)
        { s with jobs := { s.jobs with active := s.jobs.active.erase jobId }, loop := .head }
  | removeUnknown {s : Serve} {jobId : String} : s.loop = .sending [] (.remove jobId) →
      s.jobs.active.lookup jobId = none →
      LoopStep s .panicked { s with loop := .panicked "settled action remained active until its output was queued" }
  | drain {s : Serve} {o : Outgoing} {deadline : Timestamp} {inst : Nat} {jobId : String}
      {result : Except String Output} : s.loop = .draining o deadline →
      ⟨inst, jobId, .completed result⟩ ∈ s.jobs.tasks →
      LoopStep s (.drained inst jobId) { s with jobs := s.jobs.join ⟨inst, jobId, .completed result⟩ }
  | takeCancellations {s : Serve} {o : Outgoing} {deadline : Timestamp} {entries : List (String × ActiveJob)} :
      s.loop = .draining o deadline → s.jobs.tasks = [] → entries.Perm s.jobs.active.toPairs →
      LoopStep s .cancellationsTaken
        { s with
          jobs := s.jobs.takeCancellations
          loop := .sending (JobManager.acknowledgements entries) (.clear o deadline) }
  | clear {s : Serve} {o : Outgoing} {deadline : Timestamp} : s.loop = .sending [] (.clear o deadline) →
      LoopStep s .cleared { s with jobs := { s.jobs with active := ∅ }, loop := .acknowledging o deadline }
  | acknowledge {s : Serve} {o : Outgoing} {deadline : Timestamp} {link : HostLink} {env : PluginEnvelope} :
      s.loop = .acknowledging o deadline → s.link.reserved = none → s.link.HasRoom →
      s.link.send o = (link, .ok env) →
      LoopStep s (.sent env) { s with link, loop := .consuming link.wire.length deadline }
  | acknowledgeFailed {s : Serve} {o : Outgoing} {deadline : Timestamp} {link : HostLink} {e : SdkError} :
      s.loop = .acknowledging o deadline → s.link.reserved = none → s.link.send o = (link, .error e) →
      LoopStep s (.sendFailed e) ({ s with link }.fail e)
  | finish {s : Serve} {count : Nat} {deadline : Timestamp} : s.loop = .consuming count deadline →
      count ≤ s.link.consumed → LoopStep s (.returned (.ok deadline)) { s with loop := .returned (.ok deadline) }
  | finishFailed {s : Serve} {count : Nat} {deadline : Timestamp} : s.loop = .consuming count deadline →
      s.link.consumed < count → s.link.closed = true →
      LoopStep s (.returned (.error (.runtime "wait for plugin output stream consumption" "channel closed")))
        (s.fail (.runtime "wait for plugin output stream consumption" "channel closed"))

/-! ### The steps of the tasks -/

/-- The loop has aborted the tasks, or has dropped the job manager and with it the tasks. -/
def Aborting (s : Serve) : Prop :=
  match s.loop with
  | .draining _ _ | .returned _ | .panicked _ => True
  | _ => False

def setPhase (s : Serve) (inst : Nat) (phase : TaskPhase) : Serve :=
  { s with
    jobs := { s.jobs with tasks := s.jobs.tasks.map fun t => if t.inst = inst then { t with phase } else t } }

inductive TaskStep : Serve → ServeEvent → Serve → Prop
  | start {s : Serve} {inst : Nat} {jobId : String} : ⟨inst, jobId, .spawned⟩ ∈ s.jobs.tasks →
      TaskStep s (.task inst jobId .started) (s.setPhase inst .running)
  | act {s : Serve} {inst : Nat} {jobId : String} : ⟨inst, jobId, .running⟩ ∈ s.jobs.tasks →
      TaskStep s (.task inst jobId .acted) s
  | stop {s : Serve} {inst : Nat} {jobId : String} {result : Except String Output} :
      ⟨inst, jobId, .running⟩ ∈ s.jobs.tasks →
      TaskStep s (.task inst jobId (.ended result)) (s.setPhase inst (.ended result))
  | abort {s : Serve} {inst : Nat} {jobId : String} : s.Aborting → ⟨inst, jobId, .running⟩ ∈ s.jobs.tasks →
      TaskStep s (.task inst jobId .aborted) (s.setPhase inst (.ended (.error "task was cancelled")))
  /-- A task that was never polled has no finish guard yet. -/
  | abortSpawned {s : Serve} {inst : Nat} {jobId : String} : s.Aborting → ⟨inst, jobId, .spawned⟩ ∈ s.jobs.tasks →
      TaskStep s (.task inst jobId .aborted) (s.setPhase inst (.completed (.error "task was cancelled")))
  | finish {s : Serve} {inst : Nat} {jobId : String} {result : Except String Output} :
      ⟨inst, jobId, .ended result⟩ ∈ s.jobs.tasks →
      TaskStep s (.task inst jobId .finished)
        { s.setPhase inst (.finished result) with
          cells := Function.update s.cells inst (s.cells inst).finish }
  | complete {s : Serve} {inst : Nat} {jobId : String} {result : Except String Output} :
      ⟨inst, jobId, .finished result⟩ ∈ s.jobs.tasks →
      TaskStep s (.task inst jobId .completed) (s.setPhase inst (.completed result))

/-! ### The steps of the contexts and of the output stream -/

/-- The context exists, and a future makes steps only while it runs. -/
def CanAct (s : Serve) (actor : Actor) : Prop :=
  actor.inst < s.spawned ∧ ∀ inst, actor.future = some inst → ∃ jobId, ⟨inst, jobId, .running⟩ ∈ s.jobs.tasks

inductive ContextStep : Serve → ServeEvent → Serve → Prop
  | internal {s : Serve} {actor : Actor} {call : Nat} : s.CanAct actor → ContextStep s (.internal actor call) s
  | emit {s : Serve} {actor : Actor} {call : Nat} {trace : TraceContext} {payload : Payload} {link : HostLink}
      {env : PluginEnvelope} : s.CanAct actor → s.link.reserved = none → s.link.HasRoom →
      s.link.send ⟨none, trace, payload⟩ = (link, .ok env) →
      ContextStep s (.emitted actor call env) { s with link }
  | emitFailed {s : Serve} {actor : Actor} {call : Nat} {trace : TraceContext} {payload : Payload} {link : HostLink}
      {e : SdkError} : s.CanAct actor → s.link.reserved = none →
      s.link.send ⟨none, trace, payload⟩ = (link, .error e) →
      ContextStep s (.refused actor call e) { s with link }
  | reserve {s : Serve} {actor : Actor} {call id : Nat} {trace : TraceContext} {payload : Payload}
      {link : HostLink} : s.CanAct actor → s.link.reserved = none →
      s.link.reserve call ⟨none, trace, payload⟩ = (link, .ok id) →
      ContextStep s (.reserved actor call id) { s with link }
  | reserveFailed {s : Serve} {actor : Actor} {call : Nat} {trace : TraceContext} {payload : Payload}
      {link : HostLink} {e : SdkError} : s.CanAct actor → s.link.reserved = none →
      s.link.reserve call ⟨none, trace, payload⟩ = (link, .error e) →
      ContextStep s (.refused actor call e) { s with link }
  | commit {s : Serve} {actor : Actor} {r : Reservation} : s.CanAct actor → s.link.reserved = some r →
      s.link.closed = false → s.link.HasRoom →
      ContextStep s (.emitted actor r.call (s.link.identity.stamp r.id r.outgoing)) { s with link := s.link.commit r }
  | commitFailed {s : Serve} {actor : Actor} {r : Reservation} : s.CanAct actor → s.link.reserved = some r →
      s.link.closed = true →
      ContextStep s (.refused actor r.call outputClosed) { s with link := s.link.release r }
  | release {s : Serve} {r : Reservation} : s.link.reserved = some r →
      ContextStep s (.released r.call) { s with link := s.link.release r }
  | burn {s : Serve} : s.link.reserved = none → ContextStep s .burned { s with link := s.link.burn }
  | consume {s : Serve} : s.link.closed = false → s.link.consumed < s.link.wire.length →
      ContextStep s .consumed { s with link := { s.link with consumed := s.link.consumed + 1 } }
  | close {s : Serve} : ContextStep s .closed { s with link := { s.link with closed := true } }

inductive Step : Serve → ServeEvent → Serve → Prop
  | loop {s s' : Serve} {e : ServeEvent} : LoopStep s e s' → Step s e s'
  | task {s s' : Serve} {e : ServeEvent} : TaskStep s e s' → Step s e s'
  | context {s s' : Serve} {e : ServeEvent} : ContextStep s e s' → Step s e s'

end Serve

end PluginSdk
