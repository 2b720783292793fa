import Mathlib.Data.Finmap
import PluginSdk.Conformance
import PluginSdk.Lib.Refinement

/-!
# The service that a plugin gives

What a plugin is for, without its tasks, its queue and the contexts of its actions: a service with a ledger of open
jobs.  It takes one request at a time, or settles one job, and then changes the ledger and decides on its answers at
once.  The answers are told in order before anything else is taken.  The serve loop refines the service
(`Serve.refines_service`): however the tasks and the contexts run in between, what the host asks and what the loop
tells it is what the service is asked and tells (`Serve.gives_service`).
-/

namespace PluginSdk

open Lts

/-! ### The service -/

/-- An open job: the trace of its request, and the cancellations that wait for it. -/
structure OpenJob where
  trace : TraceContext
  cancellations : List PendingCancellation

/-- What settles an open job. -/
def OpenJob.settlement (job : OpenJob) (jobId : String) (output : Output) : List Outgoing :=
  if job.cancellations = [] then [⟨none, job.trace, .jobUpdate (terminalUpdate jobId output)⟩]
  else job.cancellations.map (·.acknowledgement)

abbrev OpenJobs : Type := Finmap fun _ : String => OpenJob

inductive Service.Phase
  | serving
  /-- The shutdown has been asked for. -/
  | closing (acknowledgement : Outgoing)
  | closed
  | failed

structure Service where
  jobs : OpenJobs
  /-- What has been decided and not told yet. -/
  due : List Outgoing
  phase : Service.Phase

namespace Service

inductive Event
  | asked (envelope : PluginEnvelope)
  | settled (jobId : String) (output : Output)
  | closed
  | told (o : Outgoing)
  | failed (envelope : Option PluginEnvelope)

def init : Service := ⟨∅, [], .serving⟩

def broken : Service := ⟨∅, [], .failed⟩

/-- The service takes a request. -/
structure Asked (σ : Service) (envelope : PluginEnvelope) (trace : TraceContext) (payload : Payload) : Prop where
  serving : σ.phase = .serving
  idle : σ.due = []
  replyTo : envelope.replyTo = none
  trace : envelope.trace = some trace
  payload : envelope.payload = some payload

/-- The steps of the service for some actions, of which `maximum` may be open at a time.  It may fail at any point. -/
inductive Step (actions : Table String RegisteredAction) (maximum : Nat) : Service → Event → Service → Prop
  | accept {σ : Service} {envelope : PluginEnvelope} {trace : TraceContext}
      {request : StartJobRequest} {jobId : String} {invocation : ActionInvocation} :
      σ.Asked envelope trace (.startJob request) → request.Obeys actions (· ∈ σ.jobs) jobId invocation →
      σ.jobs.keys.card < maximum → Step actions maximum σ (.asked envelope)
        { σ with
          jobs := σ.jobs.insert jobId ⟨trace, []⟩
          due := [⟨some envelope.messageId, trace, .jobAccepted ⟨some ⟨jobId⟩⟩⟩] }
  | refuse {σ : Service} {envelope : PluginEnvelope} {trace : TraceContext}
      {request : StartJobRequest} {jobId : String} {invocation : ActionInvocation} :
      σ.Asked envelope trace (.startJob request) → request.Obeys actions (· ∈ σ.jobs) jobId invocation →
      maximum ≤ σ.jobs.keys.card → Step actions maximum σ (.asked envelope)
        { σ with due := [⟨some envelope.messageId, trace, .protocolError (capacityError maximum)⟩] }
  | cancel {σ : Service} {envelope : PluginEnvelope} {trace : TraceContext}
      {request : CancelJobRequest} {jobId : String} {job : OpenJob} : σ.Asked envelope trace (.cancelJob request) →
      request.jobId = some ⟨jobId⟩ → σ.jobs.lookup jobId = some job →
      Step actions maximum σ (.asked envelope)
        { σ with
          jobs := σ.jobs.insert jobId
            { job with cancellations := job.cancellations ++ [⟨envelope.messageId, trace, ⟨jobId⟩⟩] } }
  | acknowledge {σ : Service} {envelope : PluginEnvelope} {trace : TraceContext} {request : CancelJobRequest}
      {jobId : String} : σ.Asked envelope trace (.cancelJob request) → request.jobId = some ⟨jobId⟩ → jobId ∉ σ.jobs →
      Step actions maximum σ (.asked envelope)
        { σ with due := [⟨some envelope.messageId, trace, .cancelJobAcknowledged ⟨some ⟨jobId⟩⟩⟩] }
  | heartbeat {σ : Service} {envelope : PluginEnvelope} {trace : TraceContext} {heartbeat : Heartbeat} :
      σ.Asked envelope trace (.heartbeat heartbeat) →
      Step actions maximum σ (.asked envelope)
      { σ with due := [⟨some envelope.messageId, trace, .heartbeat heartbeat⟩] }
  | shutdown {σ : Service} {envelope : PluginEnvelope} {trace : TraceContext} {request : ShutdownRequest}
      {deadline : Timestamp} : σ.Asked envelope trace (.shutdown request) →
      Validation.shutdown request = .ok deadline → Step actions maximum σ (.asked envelope)
        { σ with phase := .closing ⟨some envelope.messageId, trace, .shutdownAcknowledged⟩ }
  | settle {σ : Service} {jobId : String} {job : OpenJob} {output : Output} : σ.phase = .serving → σ.due = [] →
      σ.jobs.lookup jobId = some job →
      Step actions maximum σ (.settled jobId output)
        { σ with jobs := σ.jobs.erase jobId, due := job.settlement jobId output }
  /-- The cancellations that still wait are acknowledged, in some order of the jobs. -/
  | close {σ : Service} {o : Outgoing} {entries : List (Sigma fun _ : String => OpenJob)} : σ.phase = .closing o →
      σ.due = [] → (entries : Multiset _) = σ.jobs.entries →
      Step actions maximum σ .closed
        ⟨∅, (entries.flatMap fun entry => entry.2.cancellations.map (·.acknowledgement)) ++ [o], .closed⟩
  | tell {σ : Service} {o : Outgoing} {due : List Outgoing} : σ.due = o :: due →
      Step actions maximum σ (.told o) { σ with due }
  | fail {σ : Service} {envelope : Option PluginEnvelope} : Step actions maximum σ (.failed envelope) broken

variable {actions : Table String RegisteredAction} {maximum : Nat} {σ σ' : Service} {l : List Event}

/-- A service that has failed does nothing more. -/
private theorem broken_of_step {e : Event} (hs : Step actions maximum σ e σ') (h : σ = broken) : σ' = broken := by
  subst h
  cases hs with
  | fail => rfl
  | accept hasked | refuse hasked | cancel hasked | acknowledge hasked | heartbeat hasked | shutdown hasked =>
    exact absurd hasked.serving Phase.noConfusion
  | settle hserving => exact absurd hserving Phase.noConfusion
  | close hclosing => exact absurd hclosing Phase.noConfusion
  | tell hdue => exact absurd hdue (List.cons_ne_nil _ _).symm

private theorem broken_of_failed (hr : Steps (Step actions maximum) σ l σ') {envelope : Option PluginEnvelope}
    (hmem : .failed envelope ∈ l) : σ' = broken := by
  obtain ⟨l₁, l₂, rfl⟩ := List.append_of_mem hmem
  obtain ⟨t, t', -, hs, hrest⟩ := hr.split
  have hbroken : t' = broken := by
    cases hs
    rfl
  exact hrest.invariant (I := fun t => t = broken) (fun _ _ _ hs h => broken_of_step hs h) hbroken

end Service

/-! ### What the host sees of it -/

/-- A request of the host, or what is told to it. -/
inductive HostView
  | asked (envelope : PluginEnvelope)
  | told (replyTo : Option Nat) (trace : Option TraceContext) (payload : Option Payload)

def Service.Event.hostView : Service.Event → Option HostView
  | .asked envelope => some (.asked envelope)
  | .told o => some (.told o.replyTo (some o.trace) (some o.payload))
  | .failed envelope => envelope.map .asked
  | .settled _ _ | .closed => none

def ServeEvent.hostView : ServeEvent → Option HostView
  | .received envelope _ => if envelope.replyTo = none then some (.asked envelope) else none
  | .sent envelope => some (.told envelope.replyTo envelope.trace envelope.payload)
  | _ => none

/-! ### The jobs of the loop -/

def ActiveJob.openJob (job : ActiveJob) : OpenJob := ⟨job.trace, job.cancellations⟩

/-- The jobs of a table, without the addresses of their cancellation values. -/
def openJobs (active : Table String ActiveJob) : OpenJobs := (active.mapValues ActiveJob.openJob).toFinmap

section OpenJobs

variable {active : Table String ActiveJob} {jobId : String} {job : ActiveJob}

private theorem lookup_openJobs (active : Table String ActiveJob) (jobId : String) :
    (openJobs active).lookup jobId = (active.lookup jobId).map ActiveJob.openJob := by
  unfold openJobs
  rw [Finmap.lookup_toFinmap, AList.lookup_mapValues]

private theorem mem_openJobs : jobId ∈ openJobs active ↔ (active.lookup jobId).isSome := by
  rw [← Finmap.lookup_isSome, lookup_openJobs, Option.isSome_map]

private theorem lookup_openJobs_of (hl : active.lookup jobId = some job) :
    (openJobs active).lookup jobId = some job.openJob := by
  rw [lookup_openJobs, hl]
  rfl

private theorem notMem_openJobs (hl : active.lookup jobId = none) : jobId ∉ openJobs active := by
  rw [mem_openJobs, hl]
  exact Bool.false_ne_true

private theorem openJobs_insert :
    openJobs (active.insert jobId job) = (openJobs active).insert jobId job.openJob := by
  refine Finmap.ext_lookup fun J => ?_
  by_cases hj : J = jobId
  · subst hj
    rw [lookup_openJobs, AList.lookup_insert, Finmap.lookup_insert]
    rfl
  · rw [lookup_openJobs, AList.lookup_insert_ne hj, Finmap.lookup_insert_of_ne _ hj, lookup_openJobs]

private theorem openJobs_erase : openJobs (active.erase jobId) = (openJobs active).erase jobId := by
  refine Finmap.ext_lookup fun J => ?_
  by_cases hj : J = jobId
  · subst hj
    rw [lookup_openJobs, AList.lookup_erase, Finmap.lookup_erase]
    rfl
  · rw [lookup_openJobs, AList.lookup_erase_ne hj, Finmap.lookup_erase_ne hj, lookup_openJobs]

private theorem erase_insert {jobs : OpenJobs} {job : OpenJob} :
    (jobs.insert jobId job).erase jobId = jobs.erase jobId := by
  refine Finmap.ext_lookup fun J => ?_
  by_cases hj : J = jobId
  · rw [hj, Finmap.lookup_erase, Finmap.lookup_erase]
  · rw [Finmap.lookup_erase_ne hj, Finmap.lookup_erase_ne hj, Finmap.lookup_insert_of_ne _ hj]

/-- The entries of a table, as those of its open jobs. -/
def openEntries (entries : List (String × ActiveJob)) : List (Sigma fun _ : String => OpenJob) :=
  entries.map fun entry => ⟨entry.1, entry.2.openJob⟩

private theorem entries_openJobs {entries : List (String × ActiveJob)} (h : entries.Perm active.toPairs) :
    (openEntries entries : Multiset (Sigma fun _ : String => OpenJob)) = (openJobs active).entries := by
  have hentries : (openJobs active).entries =
    (openEntries active.toPairs : Multiset (Sigma fun _ : String => OpenJob)) := by
    unfold openJobs openEntries AList.toPairs AList.mapValues
    simp [Function.comp_def]
  rw [hentries]
  exact Multiset.coe_eq_coe.2 (h.map _)

private theorem acknowledgements_eq (entries : List (String × ActiveJob)) : JobManager.acknowledgements entries =
    (openEntries entries).flatMap fun entry => entry.2.cancellations.map (·.acknowledgement) := by
  unfold JobManager.acknowledgements openEntries
  rw [List.flatMap_map]
  rfl

private theorem card_openJobs (active : Table String ActiveJob) : (openJobs active).keys.card = active.size := by
  have hval : (openJobs active).keys.val = ((active.mapValues ActiveJob.openJob).keys : Multiset String) :=
    Finmap.keys_val _
  rw [Finset.card_def, hval, Multiset.coe_card, ← AList.map_fst_toPairs, List.length_map, AList.toPairs_mapValues,
    List.length_map, AList.size_eq_length]

end OpenJobs

namespace Serve

variable {s s' : Serve} {e : ServeEvent} {h : List ServeEvent} {setup : Setup} {queue : List Outgoing} {o : Outgoing}
  {deadline : Timestamp} {jobId : String} {job : AcceptedJob}

/-- The service that the loop gives: what it sends is decided already. -/
def service (s : Serve) : Service :=
  match s.loop with
  | .head => ⟨openJobs s.jobs.active, [], .serving⟩
  | .sending queue .head => ⟨openJobs s.jobs.active, queue, .serving⟩
  | .sending queue (.spawn job) => ⟨(openJobs s.jobs.active).insert job.jobId ⟨job.trace, []⟩, queue, .serving⟩
  | .sending queue (.remove jobId) => ⟨(openJobs s.jobs.active).erase jobId, queue, .serving⟩
  | .draining o _ => ⟨openJobs s.jobs.active, [], .closing o⟩
  | .sending queue (.clear o _) => ⟨∅, queue ++ [o], .closed⟩
  | .acknowledging o _ => ⟨∅, [o], .closed⟩
  | .consuming _ _ | .returned (.ok _) => ⟨∅, [], .closed⟩
  | .returned (.error _) | .panicked _ => .broken

private theorem service_head (hloop : s.loop = .head) : s.service = ⟨openJobs s.jobs.active, [], .serving⟩ := by
  unfold service
  rw [hloop]

private theorem service_draining (hloop : s.loop = .draining o deadline) :
    s.service = ⟨openJobs s.jobs.active, [], .closing o⟩ := by
  unfold service
  rw [hloop]

private theorem service_spawn (hloop : s.loop = .sending queue (.spawn job)) :
    s.service = ⟨(openJobs s.jobs.active).insert job.jobId ⟨job.trace, []⟩, queue, .serving⟩ := by
  unfold service
  rw [hloop]

private theorem service_remove (hloop : s.loop = .sending queue (.remove jobId)) :
    s.service = ⟨(openJobs s.jobs.active).erase jobId, queue, .serving⟩ := by
  unfold service
  rw [hloop]

private theorem service_clear (hloop : s.loop = .sending queue (.clear o deadline)) :
    s.service = ⟨∅, queue ++ [o], .closed⟩ := by
  unfold service
  rw [hloop]

private theorem service_acknowledging (hloop : s.loop = .acknowledging o deadline) :
    s.service = ⟨∅, [o], .closed⟩ := by
  unfold service
  rw [hloop]

private theorem service_consuming {count : Nat} (hloop : s.loop = .consuming count deadline) :
    s.service = ⟨∅, [], .closed⟩ := by
  unfold service
  rw [hloop]

private theorem service_congr (hloop : s'.loop = s.loop) (hactive : s'.jobs.active = s.jobs.active) :
    s'.service = s.service := by
  unfold service
  rw [hloop, hactive]

/-- The envelope that is sent next is the next that is told. -/
private theorem service_send {next : Next} (hloop : s.loop = .sending (o :: queue) next)
    (hloop' : s'.loop = .sending queue next) (hactive : s'.jobs.active = s.jobs.active) :
    s.service.due = o :: s'.service.due ∧ s'.service = { s.service with due := s'.service.due } := by
  unfold service
  rw [hloop, hloop', hactive]
  cases next <;> exact ⟨rfl, rfl⟩

/-- A step of the loop is a step of the service, or the service does not see it. -/
def Serves (setup : Setup) (s : Serve) (e : ServeEvent) (s' : Serve) : Prop :=
  ∃ l, Steps (Service.Step setup.actions setup.maximumConcurrentJobs) s.service l s'.service ∧
    l.filterMap Service.Event.hostView = e.hostView.toList

private theorem serves_fail (hend : s'.service = .broken) (he : e.hostView = none) : Serves setup s e s' := by
  refine Refines.simulates_step (d := .failed none) ?_ he.symm
  rw [hend]
  exact .fail

private theorem serves_asked {envelope : PluginEnvelope} {call : Option Nat} (hreply : envelope.replyTo = none)
    (hstep : Service.Step setup.actions setup.maximumConcurrentJobs s.service (.asked envelope) s'.service) :
    Serves setup s (.received envelope call) s' := by
  refine Refines.simulates_step hstep ?_
  simp [Service.Event.hostView, ServeEvent.hostView, hreply]

private theorem Request.asked {envelope : PluginEnvelope} {trace : TraceContext} {session : SessionState}
    {payload : Payload} (hreq : s.Request envelope trace session payload) :
    Service.Asked ⟨openJobs s.jobs.active, [], .serving⟩ envelope trace payload := by
  obtain ⟨-, -, -, htrace, -⟩ := validateEnvelope_eq_ok.1 hreq.valid
  exact ⟨rfl, rfl, hreq.replyTo, htrace, hreq.payload⟩

private theorem obeys_of_startable {request : StartJobRequest} {invocation : ActionInvocation}
    (hok : s.jobs.Startable request jobId invocation) :
    request.Obeys s.jobs.actions (· ∈ openJobs s.jobs.active) jobId invocation := by
  exact ⟨hok.id, hok.deadline, notMem_openJobs hok.inactive, hok.action, hok.known⟩

private theorem Processed.serves {envelope : PluginEnvelope} {call : Option Nat} (hp : Processed s envelope s' call)
    (hr : Steps Step (init setup) h s) (hloop : s.loop = .head) : Serves setup s (.received envelope call) s' := by
  have hactions : s.jobs.actions = setup.actions := Serve.actions_eq hr
  have hmaximum : s.jobs.maximumConcurrentJobs = setup.maximumConcurrentJobs := maximum_eq hr
  cases hp with
  | failed =>
    -- a request on which the loop fails is still one that the host has made
    by_cases hreply : envelope.replyTo = none
    · refine Refines.simulates_step (d := .failed (some envelope)) .fail ?_
      simp [Service.Event.hostView, ServeEvent.hostView, hreply]
    · exact serves_fail rfl (by simp [ServeEvent.hostView, hreply])
  | replied _ hreply =>
    exact Refines.simulates_stutter (service_congr rfl rfl) (by simp [ServeEvent.hostView, hreply])
  | accepted hreq hok hroom =>
    refine serves_asked hreq.replyTo ?_
    have hobeys := obeys_of_startable hok
    rw [hactions] at hobeys
    rw [hmaximum, ← card_openJobs] at hroom
    rw [service_head hloop]
    exact .accept hreq.asked hobeys hroom
  | refused hreq hok hfull =>
    refine serves_asked hreq.replyTo ?_
    have hobeys := obeys_of_startable hok
    rw [hactions] at hobeys
    rw [hmaximum, ← card_openJobs] at hfull
    rw [service_head hloop, hmaximum]
    exact .refuse hreq.asked hobeys hfull
  | @cancelled session trace request jobId job hreq hid hl =>
    refine serves_asked hreq.replyTo ?_
    rw [service_head hloop]
    simp only [service, openJobs_insert]
    exact .cancel hreq.asked hid (lookup_openJobs_of hl)
  | acknowledged hreq hid hl =>
    refine serves_asked hreq.replyTo ?_
    rw [service_head hloop]
    exact .acknowledge hreq.asked hid (notMem_openJobs hl)
  | heartbeat hreq =>
    refine serves_asked hreq.replyTo ?_
    rw [service_head hloop]
    exact .heartbeat hreq.asked
  | shutdown hreq hdeadline =>
    refine serves_asked hreq.replyTo ?_
    rw [service_head hloop]
    exact .shutdown hreq.asked hdeadline

/-- Sending is telling. -/
private theorem serves_send {next : Next} {envelope : PluginEnvelope} {link link' : HostLink}
    (hloop : s.loop = .sending (o :: queue) next) (hloop' : s'.loop = .sending queue next)
    (hactive : s'.jobs.active = s.jobs.active) (hsend : link.send o = (link', .ok envelope)) :
    Serves setup s (.sent envelope) s' := by
  obtain ⟨rfl, -⟩ := HostLink.send_eq_ok hsend
  obtain ⟨hdue, heq⟩ := service_send hloop hloop' hactive
  refine Refines.simulates_step (d := .told o) ?_ rfl
  rw [heq]
  exact .tell hdue

private theorem LoopStep.serves (hs : LoopStep s e s') (hr : Steps Step (init setup) h s) : Serves setup s e s' := by
  cases hs with
  | receive hloop => exact (process_processed s _).serves hr hloop
  | send hloop _ _ hsend => exact serves_send hloop rfl rfl hsend
  | resume hloop =>
    refine Refines.simulates_stutter ?_ rfl
    rw [service_head rfl]
    unfold service
    rw [hloop]
  | spawn hloop =>
    refine Refines.simulates_stutter ?_ rfl
    rw [service_head rfl, service_spawn hloop]
    exact congrArg (fun jobs => (⟨jobs, [], .serving⟩ : Service)) openJobs_insert
  | @join inst jobId output jobs queue hloop _ _ hsettle =>
    obtain ⟨job, hl, rfl, rfl⟩ := JobManager.settle_join hsettle
    refine Refines.simulates_step (d := .settled jobId output) ?_ rfl
    rw [service_head hloop, service_remove rfl, openJobs_insert, erase_insert]
    have hstep : Service.Step setup.actions setup.maximumConcurrentJobs ⟨openJobs s.jobs.active, [], .serving⟩
      (.settled jobId output) _ := .settle rfl rfl (lookup_openJobs_of hl)
    exact hstep
  | remove hloop =>
    refine Refines.simulates_stutter ?_ rfl
    rw [service_head rfl, service_remove hloop]
    exact congrArg (fun jobs => (⟨jobs, [], .serving⟩ : Service)) openJobs_erase
  | drain hloop => exact Refines.simulates_stutter (service_congr rfl rfl) rfl
  | takeCancellations hloop _ hperm =>
    -- the order in which the loop walks the table is the order in which the service answers
    refine Refines.simulates_step (d := .closed) ?_ rfl
    rw [service_draining hloop, service_clear rfl, acknowledgements_eq]
    exact .close rfl rfl (entries_openJobs hperm)
  | clear hloop =>
    refine Refines.simulates_stutter ?_ rfl
    rw [service_clear hloop, service_acknowledging rfl]
    rfl
  | @acknowledge o deadline link env hloop _ _ hsend =>
    obtain ⟨rfl, -⟩ := HostLink.send_eq_ok hsend
    refine Refines.simulates_step (d := .told o) ?_ rfl
    rw [service_acknowledging hloop, service_consuming rfl]
    exact .tell rfl
  | finish hloop =>
    refine Refines.simulates_stutter ?_ rfl
    rw [service_consuming hloop]
    rfl
  | _ => exact serves_fail rfl rfl

/-- However the tasks and the contexts run in between, the loop gives the service. -/
theorem refines_service (setup : Setup) : Refines Step (Service.Step setup.actions setup.maximumConcurrentJobs)
    (fun s => ∃ h, Steps Step (init setup) h s) service ServeEvent.hostView Service.Event.hostView where
  keeps := by
    rintro s e s' ⟨h, hr⟩ hs
    exact ⟨_, hr.snoc hs⟩
  simulates := by
    rintro s e s' ⟨h, hr⟩ hs
    -- the tasks and the contexts leave the place of the loop and its table alone
    cases hs with
    | loop hs => exact hs.serves hr
    | task hs =>
      refine Refines.simulates_stutter (service_congr hs.frame.loop hs.frame.active) ?_
      cases hs <;> rfl
    | context hs =>
      refine Refines.simulates_stutter (service_congr hs.frame.loop hs.frame.active) ?_
      cases hs <;> rfl

private theorem service_ne_broken (hlive : s.Live) : s.service ≠ .broken := by
  intro hbroken
  have hphase : s.service.phase = .failed := by rw [hbroken]; rfl
  unfold Live at hlive
  unfold service at hphase
  cases hloop : s.loop with
  | returned | panicked =>
    rw [hloop] at hlive
    exact hlive
  | sending queue next =>
    rw [hloop] at hphase
    cases next <;> exact absurd hphase Service.Phase.noConfusion
  | _ =>
    rw [hloop] at hphase
    exact absurd hphase Service.Phase.noConfusion

/-- What the host has asked and the loop has told it are what a run of the service is asked and tells, one request
after the other, and as long as the loop runs, of a service that has not failed. -/
theorem gives_service (hr : Steps Step (init setup) h s) :
    ∃ l, Steps (Service.Step setup.actions setup.maximumConcurrentJobs) .init l s.service ∧
      l.filterMap Service.Event.hostView = h.filterMap ServeEvent.hostView ∧
      (s.Live → ∀ envelope, .failed envelope ∉ l) := by
  obtain ⟨l, hl, hview⟩ := (refines_service setup).run ⟨[], .nil⟩ hr
  refine ⟨l, hl, hview, fun hlive envelope hmem => ?_⟩
  exact service_ne_broken hlive (Service.broken_of_failed hl hmem)

/-- In the sample run the host starts a job and cancels it, and is told of the acceptance and of the
acknowledgement. -/
theorem gives_service_sampleRun :
    ∃ l σ, Steps (Service.Step sampleSetup.actions sampleSetup.maximumConcurrentJobs) .init l σ ∧
    l.filterMap Service.Event.hostView = [.asked sampleStart,
      .told sampleAccepted.replyTo sampleAccepted.trace sampleAccepted.payload, .asked sampleCancel,
      .told sampleAcknowledged.replyTo sampleAcknowledged.trace sampleAcknowledged.payload] := by
  obtain ⟨s, hr⟩ := sampleRun_steps
  obtain ⟨l, hl, hview, -⟩ := gives_service hr
  exact ⟨l, _, hl, hview⟩

end Serve

end PluginSdk
