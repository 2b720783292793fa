import PluginSdk.Atomicity
import PluginSdk.Gate
import PluginSdk.Settlement

/-!
# Conforming hosts

What the protocol asks of a host, by the envelopes that have passed alone (`Conforms`): IDs that increase, the
identity and the limits of the session, replies to what the plugin has asked, and requests that are valid for the
jobs that are open.  A session takes exactly the envelopes that conform, and a reply to a request that is about to
be enqueued (`Session.admission`).
-/

namespace PluginSdk

open Lts Program

/-! ### The protocol -/

/-- The payload asks the host for a reply. -/
def Payload.Asks : Payload → Prop
  | .hostCall _ | .artifactStart _ | .artifactComplete _ => True
  | _ => False

/-- The envelope asks for a reply under its trace. -/
def PluginEnvelope.Asks (envelope : PluginEnvelope) (trace : TraceContext) : Prop :=
  envelope.trace = some trace ∧ ∃ payload, envelope.payload = some payload ∧ payload.Asks

/-- The plugin has asked for a reply under the ID and the trace, and has none yet. -/
def Owes (h : List ServeEvent) (id : Nat) (trace : TraceContext) : Prop :=
  (∃ envelope ∈ outbound h, envelope.messageId = id ∧ envelope.Asks trace) ∧ ∀ r ∈ inbound h, r.replyTo ≠ some id

/-- The job has been accepted, and no update and no acknowledgement has been sent for it since. -/
def Open (h : List ServeEvent) (jobId : String) : Prop :=
  Since (·.Accepts jobId) (fun e => e.updates jobId ≠ none ∨ e.acknowledges jobId ≠ none) h

/-- A request for one of the actions, for a job that is not open. -/
structure StartJobRequest.Obeys (actions : Table String RegisteredAction) (opened : String → Prop)
    (request : StartJobRequest) (jobId : String) (invocation : ActionInvocation) : Prop where
  id : Validation.jobId request.jobId = .ok jobId
  deadline : Validation.optionalTimestamp request.deadline "StartJobRequest deadline" = .ok ()
  closed : ¬ opened jobId
  action : request.invocation = some invocation
  known : (actions.lookup invocation.action).isSome

/-- What may follow a valid header: a reply that is owed, or a request. -/
def Obeys (actions : Table String RegisteredAction) (opened : String → Prop) (owed : Nat → Prop) :
    Option Nat → Option Payload → Prop
  | some id, some payload => Serve.checkReply payload = .ok () ∧ owed id
  | none, some (.startJob request) => ∃ jobId invocation, request.Obeys actions opened jobId invocation
  | none, some (.cancelJob request) => (∃ jobId, Validation.jobId request.jobId = .ok jobId) ∧
      Validation.cancellationReason request.reason = .ok ()
  | none, some (.heartbeat _) => True
  | none, some (.shutdown request) => ∃ deadline, Validation.shutdown request = .ok deadline
  | _, _ => False

/-- An envelope that the protocol allows the host after the history `h`. -/
structure Conforms (setup : Setup) (h : List ServeEvent) (owed : Nat → TraceContext → Prop)
  (envelope : PluginEnvelope) :
    Prop where
  last : setup.session.lastHostMessageId < envelope.messageId
  later : ∀ r ∈ inbound h, r.messageId < envelope.messageId
  sessionId : envelope.sessionId = setup.session.identity.sessionId
  pluginInstanceId : envelope.pluginInstanceId = setup.session.identity.instanceId
  obeys : ∃ trace, envelope.trace = some trace ∧
    trace.Within setup.session.maximumCallDepth setup.session.maximumCausalDepth ∧
    Obeys setup.actions (Open h) (fun id => owed id trace) envelope.replyTo envelope.payload

theorem Obeys.congr {actions : Table String RegisteredAction} {opened opened' : String → Prop}
    {owed owed' : Nat → Prop} {replyTo : Option Nat} {payload : Option Payload}
    (hopened : ∀ jobId, opened jobId ↔ opened' jobId) (howed : ∀ id, owed id ↔ owed' id) :
    Obeys actions opened owed replyTo payload ↔ Obeys actions opened' owed' replyTo payload := by
  have ho : opened = opened' := funext fun jobId => propext (hopened jobId)
  have hw : owed = owed' := funext fun id => propext (howed id)
  rw [ho, hw]

/-! ### What the loop takes -/

theorem HostLink.route_snd_eq_ok {l : HostLink} {replyTo call : Nat} {trace : TraceContext} :
    (l.route replyTo trace).2 = .ok call ↔ l.pending.lookup replyTo = some ⟨trace, call⟩ := by
  constructor
  · intro h
    unfold route at h
    cases hw : (HostClient.route l.pending replyTo trace).2 with
    | error e =>
      rw [hw] at h
      cases h
    | ok w =>
      rw [hw] at h
      obtain ⟨hl, rfl⟩ := HostClient.route_snd_eq_ok.1 hw
      obtain ⟨t, c⟩ := w
      cases h
      exact hl
  · intro h
    rw [route_of_lookup h]

namespace Serve

variable {s s' : Serve} {e : ServeEvent} {h : List ServeEvent} {setup : Setup} {envelope : PluginEnvelope}

theorem live_congr (hloop : s'.loop = s.loop) : s'.Live ↔ s.Live := by
  unfold Live
  rw [hloop]

theorem not_live_fail (s : Serve) (e : SdkError) : ¬ (s.fail e).Live := id

/-- A reply is taken if its payload is valid and a waiter waits for it under its trace. -/
theorem live_reply (hlive : s.Live) {replyTo : Nat} {trace : TraceContext} {payload : Option Payload} :
    (s.reply replyTo trace payload).1.Live ↔ ∃ p, payload = some p ∧ checkReply p = .ok () ∧
      ∃ call, s.link.pending.lookup replyTo = some ⟨trace, call⟩ := by
  cases payload with
  | none =>
    refine iff_of_false (not_live_fail _ _) ?_
    rintro ⟨p, hp, -⟩
    cases hp
  | some p =>
    simp only [Option.some.injEq, exists_eq_left']
    unfold reply
    cases hc : checkReply p with
    | error e =>
      refine iff_of_false ?_ (by simp)
      simp only [hc]
      exact not_live_fail _ _
    | ok =>
      simp only [hc, true_and, ← HostLink.route_snd_eq_ok]
      cases hroute : s.link.route replyTo trace with
      | mk link result =>
        cases result with
        | error e => exact iff_of_false (not_live_fail _ _) (by simp)
        | ok call => exact iff_of_true hlive ⟨call, rfl⟩

private theorem startable_iff {jobs : JobManager} {request : StartJobRequest} {jobId : String}
    {invocation : ActionInvocation} :
    jobs.Startable request jobId invocation ↔
      request.Obeys jobs.actions (fun J => (jobs.active.lookup J).isSome) jobId invocation := by
  constructor
  · intro h
    exact ⟨h.id, h.deadline, by simp [h.inactive], h.action, h.known⟩
  · intro h
    exact ⟨h.id, h.deadline, by simpa using h.closed, h.action, h.known⟩

/-- A cancellation is taken whether its job is active or not. -/
theorem cancel_ok_iff (jobs : JobManager) (messageId : Nat) (trace : TraceContext) (request : CancelJobRequest) :
    (∃ r, jobs.cancel messageId trace request = .ok r) ↔ (∃ jobId, Validation.jobId request.jobId = .ok jobId) ∧
      Validation.cancellationReason request.reason = .ok () := by
  constructor
  · rintro ⟨r, h⟩
    unfold JobManager.cancel at h
    obtain ⟨jobId, hj, h⟩ := bind_eq_ok.1 h
    obtain ⟨_, hreason, -⟩ := bind_eq_ok.1 h
    exact ⟨⟨jobId, hj⟩, hreason⟩
  · rintro ⟨⟨jobId, hj⟩, hreason⟩
    unfold JobManager.cancel
    cases hl : jobs.active.lookup jobId with
    | none => exact ⟨_, bind_eq_ok.2 ⟨jobId, hj, bind_eq_ok.2 ⟨(), hreason, by rw [hl]⟩⟩⟩
    | some job => exact ⟨_, bind_eq_ok.2 ⟨jobId, hj, bind_eq_ok.2 ⟨(), hreason, by rw [hl]⟩⟩⟩

/-- A request is taken if it is valid and starts no job that is active. -/
theorem live_request (owed : Nat → Prop) {messageId : Nat} {trace : TraceContext} {payload : Option Payload} :
    (s.request messageId trace payload).Live ↔
      Obeys s.jobs.actions (fun jobId => (s.jobs.active.lookup jobId).isSome) owed none payload := by
  unfold request
  split
  · rename_i request
    have hstart : (∃ jobId invocation, s.jobs.Startable request jobId invocation) ↔
        ∃ r, s.jobs.start messageId trace request = .ok r := by
      constructor
      · rintro ⟨jobId, invocation, hok⟩
        rw [JobManager.start_of_startable hok]
        split <;> exact ⟨_, rfl⟩
      · rintro ⟨r, hr⟩
        exact JobManager.startable_of_start hr
    simp only [Obeys, ← startable_iff, hstart]
    cases hr : s.jobs.start messageId trace request with
    | error e => exact iff_of_false (not_live_fail _ _) (by simp)
    | ok r => exact iff_of_true trivial ⟨r, rfl⟩
  · rename_i request
    simp only [Obeys, ← cancel_ok_iff s.jobs messageId trace]
    cases hr : s.jobs.cancel messageId trace request with
    | error e => exact iff_of_false (not_live_fail _ _) (by simp)
    | ok r => exact iff_of_true trivial ⟨r, rfl⟩
  · exact iff_of_true trivial trivial
  · rename_i request
    simp only [Obeys]
    cases hr : Validation.shutdown request with
    | error e => exact iff_of_false (not_live_fail _ _) (by simp)
    | ok deadline => exact iff_of_true trivial ⟨deadline, rfl⟩
  · rename_i error
    refine iff_of_false ?_ id
    cases Validation.protocolError error <;> exact not_live_fail _ _
  · rename_i payload hstart hcancel hheartbeat hshutdown _
    refine iff_of_false (not_live_fail _ _) ?_
    cases payload <;> simp_all [Obeys]
  · exact iff_of_false (not_live_fail _ _) id

/-- The loop takes a valid envelope that obeys the protocol, as its own state has it, and fails on any other. -/
theorem live_process (hlive : s.Live) : (s.process envelope).1.Live ↔
    ∃ trace session, validateEnvelope envelope s.session = .ok (trace, session) ∧
      Obeys s.jobs.actions (fun jobId => (s.jobs.active.lookup jobId).isSome)
        (fun id => ∃ call, s.link.pending.lookup id = some ⟨trace, call⟩) envelope.replyTo envelope.payload := by
  unfold process
  cases hv : validateEnvelope envelope s.session with
  | error e => exact iff_of_false (not_live_fail _ _) (by simp)
  | ok r =>
    obtain ⟨trace, session⟩ := r
    simp only [Except.ok.injEq, Prod.mk.injEq, and_assoc, exists_and_left, exists_eq_left']
    cases hreply : envelope.replyTo with
    | some replyTo =>
      have hlive' : ({ s with session } : Serve).Live := hlive
      refine (live_reply hlive').trans ?_
      cases envelope.payload with
      | none => exact iff_of_false (by simp) id
      | some p => simp [Obeys]
    | none => exact live_request (s := { s with session }) _

/-! ### The session and its jobs -/

private theorem Processed.actions_eq {call : Option Nat} (hp : Processed s envelope s' call) :
    s'.jobs.actions = s.jobs.actions := by
  cases hp <;> rfl

private theorem Step.actions_eq (hs : Step s e s') : s'.jobs.actions = s.jobs.actions := by
  cases hs with
  | task hs => cases hs <;> rfl
  | context hs => cases hs <;> rfl
  | loop hs =>
    cases hs with
    | receive => exact (process_processed s _).actions_eq
    | join _ _ _ hsettle =>
      obtain ⟨job, -, rfl, -⟩ := JobManager.settle_join hsettle
      rfl
    | _ => rfl

theorem actions_eq (hr : Steps Step (init setup) h s) : s.jobs.actions = setup.actions :=
  hr.invariant (I := fun s => s.jobs.actions = setup.actions) (fun _ _ _ hs ih => hs.actions_eq.trans ih) rfl

/-- A session that has not ended differs from what it was set up with by its last accepted ID only. -/
theorem session_eq (hr : Steps Step (init setup) h s) (hlive : s.Live) :
    s.session = { setup.session with lastHostMessageId := s.session.lastHostMessageId } ∧
      (s.session.lastHostMessageId = setup.session.lastHostMessageId ∨
        ∃ r ∈ inbound h, r.messageId = s.session.lastHostMessageId) := by
  refine Steps.history (I := fun h s => s.Live →
      s.session = { setup.session with lastHostMessageId := s.session.lastHostMessageId } ∧
      (s.session.lastHostMessageId = setup.session.lastHostMessageId ∨
        ∃ r ∈ inbound h, r.messageId = s.session.lastHostMessageId))
    (fun _ => ⟨rfl, Or.inl rfl⟩) (fun h s e s' _ hs ih hlive => ?_) hr hlive
  obtain ⟨heq, hlast⟩ := ih (hs.live hlive)
  cases hin : e.inbound with
  | none =>
    rw [hs.session_eq hin, inbound_snoc, hin, Option.toList_none, List.append_nil]
    exact ⟨heq, hlast⟩
  | some envelope =>
    obtain ⟨call, rfl⟩ : ∃ call, e = .received envelope call := by
      cases e with
      | received envelope' call => exact ⟨call, by rw [Option.some.inj hin]⟩
      | _ => cases hin
    obtain ⟨trace, hv⟩ := hs.received_inv.2.valid hlive
    obtain ⟨-, -, -, -, -, hs'⟩ := validateEnvelope_eq_ok.1 hv
    rw [hs']
    refine ⟨by rw [heq], Or.inr ⟨envelope, ?_, rfl⟩⟩
    rw [inbound_snoc, hin]
    simp

/-- The envelopes with a valid header, by the history. -/
theorem validate_iff (hr : Steps Step (init setup) h s) (hlive : s.Live) {trace : TraceContext} :
    (∃ session, validateEnvelope envelope s.session = .ok (trace, session)) ↔
      setup.session.lastHostMessageId < envelope.messageId ∧ (∀ r ∈ inbound h, r.messageId < envelope.messageId) ∧
      envelope.sessionId = setup.session.identity.sessionId ∧
      envelope.pluginInstanceId = setup.session.identity.instanceId ∧ envelope.trace = some trace ∧
      trace.Within setup.session.maximumCallDepth setup.session.maximumCausalDepth := by
  obtain ⟨heq, hlast⟩ := session_eq hr hlive
  have hp := pinned hr hlive
  have hids : s.session.lastHostMessageId < envelope.messageId ↔
      setup.session.lastHostMessageId < envelope.messageId ∧ ∀ r ∈ inbound h, r.messageId < envelope.messageId := by
    constructor
    · intro hlt
      exact ⟨hp.last.trans_lt hlt, fun r hr => (hp.ids r hr).trans_lt hlt⟩
    · rintro ⟨hlt, hlater⟩
      rcases hlast with hlast | ⟨r, hmem, hlast⟩
      · rwa [hlast]
      · rw [← hlast]
        exact hlater r hmem
  have hidentity : s.session.identity = setup.session.identity := hp.identity
  have hcall : s.session.maximumCallDepth = setup.session.maximumCallDepth := by rw [heq]
  have hcausal : s.session.maximumCausalDepth = setup.session.maximumCausalDepth := by rw [heq]
  simp only [validateEnvelope_eq_ok, exists_and_left, exists_eq, and_true, hids, hidentity, hcall, hcausal, and_assoc]

theorem not_ending_of_head (hloop : s.loop = .head) : ¬ s.Ending := by
  simp [Ending, hloop]

/-- At the head of the loop the active jobs are the open ones. -/
theorem open_iff (hr : Steps Step (init setup) h s) (hloop : s.loop = .head) (J : String) :
    (s.jobs.active.lookup J).isSome ↔ Open h J := by
  rw [← held_of_not_spawn (by simp [hloop]), ← since_accepts_iff hr (by simp [Live, hloop])]
  constructor
  · rintro ⟨h₁, a, w, rfl, ha, hw⟩
    refine ⟨h₁, a, w, rfl, ha, fun x hx => ?_⟩
    obtain ⟨t, t', ht, hs, hrest⟩ := hr.split
    have hm := matched ht
    have hq := queued ht
    obtain ⟨acc, rfl⟩ : ∃ acc, a = .sent acc := by
      cases a with
      | sent acc => exact ⟨acc, rfl⟩
      | _ => exact ha.elim
    obtain ⟨-, -, hst⟩ := standing_run (hs.matched hm) (hs.queued hq) hrest hw (hs.standing_of_accepts hm hq ha)
    unfold Standing at hst
    rw [hloop] at hst
    obtain ⟨-, hacks, hupdates⟩ := hst
    rw [List.filterMap_eq_nil_iff] at hacks hupdates
    simp [hacks x hx, hupdates x hx]
  · rintro ⟨h₁, a, w, rfl, ha, hw⟩
    refine ⟨h₁, a, w, rfl, ha, ?_⟩
    -- the first event that closes the window would have updated or acknowledged the job, or have ended the loop
    by_contra hclosed
    push Not at hclosed
    obtain ⟨w₁, x, w₂, rfl, hw₁, hx⟩ := exists_first hclosed
    obtain ⟨acc, rfl⟩ : ∃ acc, a = .sent acc := by
      cases a with
      | sent acc => exact ⟨acc, rfl⟩
      | _ => exact ha.elim
    have hwindow := window hr ha hw₁ hx
    have hsettled := settledIn_of_window hwindow
    have hacks : w₁.filterMap (·.acknowledges J) = [] :=
      List.filterMap_eq_nil_iff.2 fun y hy => by simpa using (not_or.1 (hw y (List.mem_append_left _ hy))).2
    have hupdates : w₁.filterMap (·.updates J) = [] :=
      List.filterMap_eq_nil_iff.2 fun y hy => by simpa using (not_or.1 (hw y (List.mem_append_left _ hy))).1
    by_cases hc : w₁.filterMap (·.cancels J) = []
    · rcases (hsettled.uncancelled hc).2 with ⟨output, -, -, hu⟩ | ⟨rfl, -⟩
      · rw [hupdates] at hu
        cases hu
      · rw [← List.cons_append, ← List.append_assoc] at hr
        obtain ⟨t, t', -, hs, hrest⟩ := hr.split
        have hending : t'.Ending := by
          cases hs with
          | task hs => cases hs
          | context hs => cases hs
          | loop hs =>
            cases hs with
            | clear => trivial
        exact not_ending_of_head hloop (hrest.invariant (fun _ _ _ hs hending => hs.ending hending) hending)
    · exact hc ((hsettled.cancelled hc).2.symm.trans hacks)

end Serve

end PluginSdk
