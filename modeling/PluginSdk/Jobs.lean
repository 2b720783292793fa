import PluginSdk.HostLink
import PluginSdk.Host

/-!
# The job manager

The table of active jobs and the set of their tasks, with the operations of `JobManager`.  An operation that has to
send returns what it sends, in order; what it does once everything is enqueued is its `Next`.
-/

namespace PluginSdk

structure RegisteredAction where
  description : String
deriving DecidableEq

/-- The result of an action. -/
abbrev Output : Type := Except SdkError ActionResult

structure PendingCancellation where
  replyTo : Nat
  trace : TraceContext
  jobId : PluginJobId
deriving DecidableEq

/-- An active job; `controller` is the address of its cancellation value, which no other job ever has. -/
structure ActiveJob where
  controller : Nat
  trace : TraceContext
  cancellations : List PendingCancellation
deriving DecidableEq

/-- The supervisor task of an action.  Its action future returns, panics or is dropped (`ended`), then the finish
guard is dropped (`finished`), then the task has completed, with a result or with a join error. -/
inductive TaskPhase
  | spawned
  | running
  | ended (result : Except String Output)
  | finished (result : Except String Output)
  | completed (result : Except String Output)

/-- The result of a task whose action has ended. -/
def TaskPhase.result : TaskPhase → Option (Except String Output)
  | .ended result | .finished result | .completed result => some result
  | .spawned | .running => none

/-- A task of the `JoinSet`; `inst` is the address of its job's cancellation value. -/
structure Task where
  inst : Nat
  jobId : String
  phase : TaskPhase

structure JobManager where
  actions : Table String RegisteredAction
  maximumConcurrentJobs : Nat
  active : Table String ActiveJob
  tasks : List Task

/-- A job whose acceptance is being sent. -/
structure AcceptedJob where
  jobId : String
  deadline : Option Timestamp
  trace : TraceContext
  messageId : Nat
  arguments : List String

/-- What the session loop does once everything it has to send is enqueued. -/
inductive Next
  | head
  | spawn (job : AcceptedJob)
  | remove (jobId : String)
  | clear (acknowledgement : Outgoing) (deadline : Timestamp)

def capacityMetadataKey : String := "maximum_concurrent_jobs"

def capacityError (maximum : Nat) : ProtocolError :=
  { code := ErrorCode.unavailable.toInt
    message := "plugin action capacity is currently exhausted"
    retryable := true
    metadata := [(capacityMetadataKey, toString maximum)]
    details := [] }

/-- What a host is told that asks for one job too many: it may ask again. -/
structure ProtocolError.OfCapacity (error : ProtocolError) (maximum : Nat) : Prop where
  code : error.code = ErrorCode.unavailable.toInt
  message : error.message = "plugin action capacity is currently exhausted"
  retryable : error.retryable = true
  metadata : error.metadata = [("maximum_concurrent_jobs", toString maximum)]
  details : error.details = []

theorem capacityError_ofCapacity (maximum : Nat) : (capacityError maximum).OfCapacity maximum :=
  ⟨rfl, rfl, rfl, rfl, rfl⟩

def outboundError (error : SdkError) : ProtocolError :=
  match Validation.protocolError error.protocolError with
  | .ok () => error.protocolError
  | .error _ =>
    { code := ErrorCode.internal.toInt
      message := "action returned an invalid protocol error"
      retryable := false
      metadata := []
      details := [] }

/-- The update that settles a job; its progress is `1.0`. -/
def terminalUpdate (jobId : String) (output : Output) : JobUpdate :=
  let (state, result, error, artifacts) :
    JobState × Option ConfigValue × Option ProtocolError × List ArtifactDescriptor :=
    match output with
    | .ok output =>
      match output.intoWire jobId with
      | .ok (result, artifacts) => (.succeeded, result, none, artifacts)
      | .error error => (.failed, none, some (outboundError error), [])
    | .error error => (.failed, none, some (outboundError error), [])
  { jobId := some ⟨jobId⟩
    state
    progress := some 0x3FF0000000000000#64
    statusMessage := none
    result
    error
    artifacts }

/-- An update that settles a job is about that job, and the last one of it. -/
theorem terminalUpdate_terminal (jobId : String) (output : Output) :
    (terminalUpdate jobId output).jobId = some ⟨jobId⟩ ∧
    ((terminalUpdate jobId output).state = .succeeded ∨ (terminalUpdate jobId output).state = .failed) := by
  refine ⟨rfl, ?_⟩
  cases output with
  | error e => simp [terminalUpdate]
  | ok output => cases hwire : output.intoWire jobId <;> simp [terminalUpdate, hwire]

/-- `send_cancellation_acknowledgement`. -/
def PendingCancellation.acknowledgement (cancellation : PendingCancellation) : Outgoing :=
  ⟨some cancellation.replyTo, cancellation.trace, .cancelJobAcknowledged ⟨some cancellation.jobId⟩⟩

/-- `cancel` on the values of some jobs. -/
def cancelAll (cells : Nat → CancellationValue) (controllers : List Nat) : Nat → CancellationValue :=
  fun cell => if cell ∈ controllers then (cells cell).cancel else cells cell

namespace JobManager

def hasActiveJobs (jobs : JobManager) : Prop := jobs.active.size ≠ 0

instance (jobs : JobManager) : Decidable jobs.hasActiveJobs := inferInstanceAs (Decidable (_ ≠ _))

/-- The job is accepted, or refused because the table is full. -/
def start (jobs : JobManager) (messageId : Nat) (trace : TraceContext) (request : StartJobRequest) :
    Except SdkError (Outgoing × Next) := do
  let jobId ← Validation.jobId request.jobId
  Validation.optionalTimestamp request.deadline "StartJobRequest deadline"
  if (jobs.active.lookup jobId).isSome then .error (.protocol "duplicate active job ID")
  else
    match request.invocation with
    | none => .error (.protocol "unsupported job invocation")
    | some invocation =>
      if (jobs.actions.lookup invocation.action).isNone then
        .error (.protocol ("unknown action `" ++ invocation.action ++ "`"))
      else if jobs.maximumConcurrentJobs ≤ jobs.active.size then
        .ok (⟨some messageId, trace, .protocolError (capacityError jobs.maximumConcurrentJobs)⟩, .head)
      else
        .ok (⟨some messageId, trace, .jobAccepted ⟨some ⟨jobId⟩⟩⟩,
          .spawn ⟨jobId, request.deadline, trace, messageId, invocation.arguments⟩)

/-- The task and the table entry of an accepted job, at a fresh address. -/
def spawn (jobs : JobManager) (job : AcceptedJob) (inst : Nat) : JobManager :=
  { jobs with
    active := jobs.active.insert job.jobId ⟨inst, job.trace, []⟩
    tasks := jobs.tasks ++ [⟨inst, job.jobId, .spawned⟩] }

/-- The cancellation of an active job is acknowledged when the job settles, any other at once.  The second component
is the value to cancel. -/
def cancel (jobs : JobManager) (messageId : Nat) (trace : TraceContext) (request : CancelJobRequest) :
    Except SdkError (JobManager × List Nat × List Outgoing) := do
  let jobId ← Validation.jobId request.jobId
  Validation.cancellationReason request.reason
  let acknowledgement : PendingCancellation := ⟨messageId, trace, ⟨jobId⟩⟩
  match jobs.active.lookup jobId with
  | some job =>
    .ok ({ jobs with
      active := jobs.active.insert jobId { job with cancellations := job.cancellations ++ [acknowledgement] } },
      [job.controller], [])
  | none => .ok (jobs, [], [acknowledgement.acknowledgement])

/-- The task has been joined. -/
def join (jobs : JobManager) (task : Task) : JobManager :=
  { jobs with tasks := jobs.tasks.filter fun t => t.inst != task.inst }

/-- The job of a joined task: its update, or the acknowledgements of its cancellations.  There is no result where the
source expects an active job. -/
def settle (jobs : JobManager) (jobId : String) (output : Output) : Option (JobManager × List Outgoing) :=
  match jobs.active.lookup jobId with
  | none => none
  | some job =>
    some ({ jobs with active := jobs.active.insert jobId { job with cancellations := [] } },
      if job.cancellations = [] then [⟨none, job.trace, .jobUpdate (terminalUpdate jobId output)⟩]
      else job.cancellations.map (·.acknowledgement))

/-- The controllers of the active jobs. -/
def controllers (jobs : JobManager) : List Nat := jobs.active.toPairs.map fun entry => entry.2.controller

/-- The pending cancellations are taken out of the table. -/
def takeCancellations (jobs : JobManager) : JobManager :=
  { jobs with active := jobs.active.mapValues fun job => { job with cancellations := [] } }

/-- The acknowledgements of all pending cancellations, in some order of the jobs. -/
def acknowledgements (entries : List (String × ActiveJob)) : List Outgoing :=
  entries.flatMap fun entry => entry.2.cancellations.map (·.acknowledgement)

end JobManager

/-! ### What the operations can do -/

theorem Validation.jobId_eq_ok {id : Option PluginJobId} {jobId : String} (h : Validation.jobId id = .ok jobId) :
    id = some ⟨jobId⟩ := by
  unfold Validation.jobId at h
  split at h
  · cases h
  · split at h
    · cases h
      rfl
    · cases h

/-- The active jobs as pairs of an address and an ID. -/
def activeKeys (active : Table String ActiveJob) : List (Nat × String) :=
  active.toPairs.map fun entry => (entry.2.controller, entry.1)

/-- The tasks as pairs of an address and an ID. -/
def taskKeys (tasks : List Task) : List (Nat × String) := tasks.map fun t => (t.inst, t.jobId)

namespace JobManager

/-- A request that `start` refuses only for capacity. -/
structure Startable (jobs : JobManager) (request : StartJobRequest) (jobId : String)
    (invocation : ActionInvocation) : Prop where
  id : Validation.jobId request.jobId = .ok jobId
  deadline : Validation.optionalTimestamp request.deadline "StartJobRequest deadline" = .ok ()
  inactive : jobs.active.lookup jobId = none
  action : request.invocation = some invocation
  known : (jobs.actions.lookup invocation.action).isSome

/-- The two outcomes of a valid request. -/
theorem start_of_startable {jobs : JobManager} {messageId : Nat} {trace : TraceContext} {request : StartJobRequest}
    {jobId : String} {invocation : ActionInvocation} (h : jobs.Startable request jobId invocation) :
    jobs.start messageId trace request =
      if jobs.maximumConcurrentJobs ≤ jobs.active.size then
        .ok (⟨some messageId, trace, .protocolError (capacityError jobs.maximumConcurrentJobs)⟩, .head)
      else
        .ok (⟨some messageId, trace, .jobAccepted ⟨some ⟨jobId⟩⟩⟩,
          .spawn ⟨jobId, request.deadline, trace, messageId, invocation.arguments⟩) := by
  obtain ⟨a, ha⟩ := Option.isSome_iff_exists.1 h.known
  unfold start
  rw [h.id, h.deadline]
  change (if (jobs.active.lookup jobId).isSome then _ else _) = _
  rw [h.inactive, h.action]
  simp only [Option.isSome_none, Bool.false_eq_true, if_false, ha, Option.isNone_some]

/-- An accepted or refused request is valid. -/
theorem startable_of_start {jobs : JobManager} {messageId : Nat} {trace : TraceContext} {request : StartJobRequest}
    {r : Outgoing × Next} (h : jobs.start messageId trace request = .ok r) :
    ∃ jobId invocation, jobs.Startable request jobId invocation := by
  unfold start at h
  obtain ⟨jobId, hj, h⟩ := bind_eq_ok.1 h
  obtain ⟨_, hd, h⟩ := bind_eq_ok.1 h
  by_cases ha : (jobs.active.lookup jobId).isSome
  · rw [if_pos ha] at h
    cases h
  · rw [if_neg ha] at h
    cases hi : request.invocation with
    | none => simp [hi] at h
    | some invocation =>
      by_cases hn : (jobs.actions.lookup invocation.action).isNone
      · simp [hi, hn] at h
      · refine ⟨jobId, invocation, hj, hd, by simpa using ha, hi, ?_⟩
        simpa [Option.isSome_iff_ne_none] using hn

/-- The cancellation of an active job is recorded in the table. -/
theorem cancel_of_lookup {jobs : JobManager} {messageId : Nat} {trace : TraceContext} {request : CancelJobRequest}
    {jobId : String} {job : ActiveJob} (hid : Validation.jobId request.jobId = .ok jobId)
    (hreason : Validation.cancellationReason request.reason = .ok ()) (hl : jobs.active.lookup jobId = some job) :
    jobs.cancel messageId trace request =
      .ok ({ jobs with
        active := jobs.active.insert jobId
          { job with cancellations := job.cancellations ++ [⟨messageId, trace, ⟨jobId⟩⟩] } },
          [job.controller], []) := by
  unfold cancel
  rw [hid, hreason]
  change (match jobs.active.lookup jobId with | some job => _ | none => _) = _
  rw [hl]

/-- What is sent for a job that has finished. -/
def settlement (jobId : String) (job : ActiveJob) (output : Output) : List Outgoing :=
  if job.cancellations = [] then [⟨none, job.trace, .jobUpdate (terminalUpdate jobId output)⟩]
  else job.cancellations.map (·.acknowledgement)

/-- A finished job gives up its pending cancellations to its settlement. -/
theorem settle_join {jobs jobs' : JobManager} {task : Task} {jobId : String} {output : Output} {queue : List Outgoing}
    (h : (jobs.join task).settle jobId output = some (jobs', queue)) :
    ∃ job, jobs.active.lookup jobId = some job ∧
      jobs' = { jobs with
        active := jobs.active.insert jobId { job with cancellations := [] }
        tasks := (jobs.join task).tasks } ∧
      queue = settlement jobId job output := by
  unfold settle at h
  change (match jobs.active.lookup jobId with | none => _ | some job => _) = _ at h
  cases hl : jobs.active.lookup jobId with
  | none => simp [hl] at h
  | some job =>
    simp only [hl, Option.some.injEq, Prod.mk.injEq] at h
    exact ⟨job, rfl, h.1.symm, h.2.symm⟩

theorem settle_join_eq_none {jobs : JobManager} {task : Task} {jobId : String} {output : Output}
    (h : (jobs.join task).settle jobId output = none) : jobs.active.lookup jobId = none := by
  unfold settle at h
  change (match jobs.active.lookup jobId with | none => _ | some job => _) = _ at h
  cases hl : jobs.active.lookup jobId with
  | none => rfl
  | some job => simp [hl] at h

end JobManager

end PluginSdk
