import PluginSdk.Provenance

/-!
# Where contexts come from

Every context was made for a request of the host that started its job, with the parameters of the handshake
(`Serve.origins`), and every call has the context of its action (`Session.spawned_of_call`).  So whatever is enqueued
through a context has passed the checks of the context of such a job (`Session.emitted_checked`).
-/

namespace PluginSdk

open Lts

/-- The request of the host that starts a job. -/
structure PluginEnvelope.Starts (start : PluginEnvelope) (messageId : Nat) (trace : TraceContext) (jobId : String)
    (deadline : Option Timestamp) : Prop where
  replyTo : start.replyTo = none
  messageId : start.messageId = messageId
  trace : start.trace = some trace
  payload : ∃ invocation, start.payload = some (.startJob ⟨some ⟨jobId⟩, deadline, some invocation⟩)

/-- The context is that of a job that the host has started. -/
def ActionContext.StartedIn (context : ActionContext) (host : HostParameters) (h : List ServeEvent) : Prop :=
  context.host = host ∧ ∃ start, .received start none ∈ h ∧
    start.Starts context.parentCallId context.trace context.jobId context.deadline

private theorem ActionContext.StartedIn.mono {context : ActionContext} {host : HostParameters} {h : List ServeEvent}
    (hs : context.StartedIn host h) (e : ServeEvent) : context.StartedIn host (h ++ [e]) := by
  obtain ⟨hhost, start, hmem, hstarts⟩ := hs
  exact ⟨hhost, start, List.mem_append_left _ hmem, hstarts⟩

namespace Serve

variable {s s' : Serve} {e : ServeEvent} {h : List ServeEvent} {setup : Setup}

private theorem Processed.starts {envelope : PluginEnvelope} {call : Option Nat} (hp : Processed s envelope s' call)
    (hhead : s.loop = .head) {queue : List Outgoing} {job : AcceptedJob}
    (hloop : s'.loop = .sending queue (.spawn job)) :
    call = none ∧ envelope.Starts job.messageId job.trace job.jobId job.deadline := by
  cases hp with
  | @accepted session trace request jobId invocation hreq hok =>
    cases hloop
    obtain ⟨-, -, -, htrace, -, -⟩ := validateEnvelope_eq_ok.1 hreq.valid
    have hid : request.jobId = some ⟨jobId⟩ := Validation.jobId_eq_ok hok.id
    refine ⟨rfl, hreq.replyTo, rfl, htrace, invocation, ?_⟩
    rw [hreq.payload, ← hid, ← hok.action]
  | failed => cases hloop
  | replied => exact absurd (hhead.symm.trans hloop) (by simp)
  | refused | cancelled | acknowledged | heartbeat | shutdown => cases hloop

private theorem Processed.host {envelope : PluginEnvelope} {call : Option Nat} (hp : Processed s envelope s' call) :
    s'.host = s.host := by
  cases hp <;> rfl

/-- The parameters of the handshake never change. -/
theorem Step.host (hs : Step s e s') : s'.host = s.host := by
  cases hs with
  | task hs => cases hs <;> rfl
  | context hs => cases hs <;> rfl
  | loop hs =>
    cases hs with
    | @receive envelope => exact (process_processed s envelope).host
    | _ => rfl

/-- A job that is accepted has been started by the host. -/
private theorem Step.starts (hs : Step s e s') {queue : List Outgoing} {job : AcceptedJob}
    (hloop : s'.loop = .sending queue (.spawn job)) :
    (∃ queue', s.loop = .sending queue' (.spawn job)) ∨
      ∃ start, e = .received start none ∧ start.Starts job.messageId job.trace job.jobId job.deadline := by
  cases hs with
  | task hs => exact Or.inl ⟨queue, hs.frame.loop ▸ hloop⟩
  | context hs => exact Or.inl ⟨queue, hs.frame.loop ▸ hloop⟩
  | loop hs =>
    cases hs with
    | @receive envelope hhead =>
      obtain ⟨hcall, hstarts⟩ := (process_processed s envelope).starts hhead hloop
      exact Or.inr ⟨envelope, by rw [hcall], hstarts⟩
    | send hsending =>
      cases hloop
      exact Or.inl ⟨_, hsending⟩
    | drain hdraining => exact absurd (hdraining.symm.trans hloop) (by simp)
    | _ => cases hloop

theorem Step.spawned_inv {inst : Nat} {context : ActionContext} (hs : Step s (.spawned inst context) s') :
    ∃ job, s.loop = .sending [] (.spawn job) ∧ context = s.context job := by
  cases hs with
  | task hs => cases hs
  | context hs => cases hs
  | loop hs =>
    cases hs with
    | spawn hloop => exact ⟨_, hloop, rfl⟩

structure Origins (setup : Setup) (h : List ServeEvent) (s : Serve) : Prop where
  host : s.host = setup.host
  accepted : ∀ queue job, s.loop = .sending queue (.spawn job) →
    ∃ start, .received start none ∈ h ∧ start.Starts job.messageId job.trace job.jobId job.deadline
  spawned : ∀ inst context, .spawned inst context ∈ h → context.StartedIn setup.host h

private theorem Step.origins (hs : Step s e s') (ho : Origins setup h s) : Origins setup (h ++ [e]) s' := by
  refine ⟨hs.host.trans ho.host, fun queue job hloop => ?_, fun inst context hmem => ?_⟩
  · rcases hs.starts hloop with ⟨queue', hloop'⟩ | ⟨start, rfl, hstarts⟩
    · obtain ⟨start, hmem, hstarts⟩ := ho.accepted queue' job hloop'
      exact ⟨start, List.mem_append_left _ hmem, hstarts⟩
    · exact ⟨start, by simp, hstarts⟩
  · rcases List.mem_append.1 hmem with hmem | hmem
    · exact (ho.spawned inst context hmem).mono e
    · obtain rfl := List.mem_singleton.1 hmem
      obtain ⟨job, hloop, rfl⟩ := hs.spawned_inv
      obtain ⟨start, hmem, hstarts⟩ := ho.accepted [] job hloop
      exact ⟨ho.host, start, List.mem_append_left _ hmem, hstarts⟩

theorem origins (hr : Steps Step (init setup) h s) : Origins setup h s :=
  Steps.history (I := Origins setup) ⟨rfl, by simp [init], by simp⟩ (fun _ _ _ _ _ hs ho => hs.origins ho) hr

end Serve

/-- A call keeps its actor and its context. -/
theorem ContextCall.Step.context_eq {call : Nat} {s s' : Serve} {c c' : ContextCall} {e : ServeEvent}
    (hs : ContextCall.Step call s c e s' c') : c'.actor = c.actor ∧ c'.context = c.context := by
  cases hs <;> exact ⟨rfl, rfl⟩

namespace Session

variable {platform : Platform} {x x' : Session} {e : ServeEvent} {h : List ServeEvent} {setup : Setup}

private theorem deliver_contexts (x : Session) (call replyTo : Nat) (payload : Payload) :
    (x.deliver call replyTo payload).contexts = x.contexts := by
  unfold deliver
  split
  · rfl
  · split
    · rfl
    · split <;> rfl

/-- A context that an event makes known is that of a spawned job. -/
private theorem observe_contexts {inst : Nat} {context : ActionContext}
    (h : (x.observe e).contexts inst = some context) :
    x.contexts inst = some context ∨ e = .spawned inst context := by
  unfold observe at h
  split at h
  · rename_i inst' context'
    dsimp only at h
    by_cases hinst : inst = inst'
    · subst hinst
      rw [Function.update_self, Option.some.injEq] at h
      exact Or.inr (h ▸ rfl)
    · rw [Function.update_of_ne hinst] at h
      exact Or.inl h
  · split at h
    · rw [deliver_contexts] at h
      exact Or.inl h
    · exact Or.inl h
  · exact Or.inl h

/-- The contexts that a session knows and those of its calls. -/
structure Spawned (h : List ServeEvent) (x : Session) : Prop where
  contexts : ∀ inst context, x.contexts inst = some context → .spawned inst context ∈ h
  calls : ∀ call c, x.calls call = some c → .spawned c.actor.inst c.context ∈ h

private theorem Step.spawned (hs : Step platform x e x') (hx : Spawned h x) : Spawned (h ++ [e]) x' := by
  have hcontexts : ∀ inst context, x.contexts inst = some context → .spawned inst context ∈ h ++ [e] :=
    fun inst context hc => List.mem_append_left _ (hx.contexts inst context hc)
  have hcalls : ∀ call c, x.calls call = some c → .spawned c.actor.inst c.context ∈ h ++ [e] :=
    fun call c hc => List.mem_append_left _ (hx.calls call c hc)
  cases hs with
  | loop =>
    refine ⟨fun inst context hc => ?_, fun call c hc => ?_⟩
    · rcases observe_contexts hc with hc | rfl
      · exact hcontexts inst context hc
      · simp
    · rcases observe_calls hc with hold | ⟨c, t, reply, answer, -, hold, -, -, -, rfl⟩
      · exact hcalls call c hold
      · exact hcalls call c hold
  | task => exact ⟨hcontexts, hcalls⟩
  | stream => exact ⟨hcontexts, hcalls⟩
  | begin _ hcontext =>
    refine ⟨hcontexts, fun call c hc => ?_⟩
    rcases setCall_calls hc with ⟨rfl, heq⟩ | hc
    · cases heq
      exact hcontexts _ _ hcontext
    · exact hcalls call c hc
  | call hc hs =>
    refine ⟨hcontexts, fun call c' hc' => ?_⟩
    rcases setCall_calls hc' with ⟨rfl, heq⟩ | hc'
    · cases heq
      obtain ⟨hactor, hcontext⟩ := hs.context_eq
      rw [hactor, hcontext]
      exact hcalls _ _ hc
    · exact hcalls call c' hc'
  | returned | drop | dropReserved =>
    refine ⟨hcontexts, fun call c hc => ?_⟩
    rcases setCall_calls hc with ⟨-, heq⟩ | hc
    · cases heq
    · exact hcalls call c hc

theorem spawned (hr : Steps (Step platform) (init setup) h x) : Spawned h x := by
  refine Steps.history (I := Spawned) ⟨?_, ?_⟩ (fun _ _ _ _ _ hs hx => hs.spawned hx) hr
  · intro inst context hc
    cases hc
  · intro call c hc
    cases hc

/-- Every call has the context of a job that the host has started. -/
theorem startedIn_of_call (hr : Steps (Step platform) (init setup) h x) {call : Nat} {c : ContextCall}
    (hc : x.calls call = some c) : c.context.StartedIn setup.host h :=
  (Serve.origins (run_serve hr)).spawned _ _ ((spawned hr).calls call c hc)

/-- What is enqueued through a context has passed its checks. -/
theorem emitted_checked (hr : Steps (Step platform) (init setup) h x) {actor : Actor} {call : Nat}
    {envelope : PluginEnvelope} (hs : Step platform x (.emitted actor call envelope) x') :
    ∃ context trace payload, .spawned actor.inst context ∈ h ∧ context.StartedIn setup.host h ∧
      envelope.trace = some trace ∧ envelope.payload = some payload ∧ payload.Checked context trace := by
  cases hs with
  | loop hs => cases hs
  | task hs => cases hs
  | stream _ hstream => exact hstream.elim
  | call hc hs =>
    obtain ⟨operation, es, hexec, -⟩ := (provenance_run hr).calls _ _ hc
    have hall := hexec.all (Operation.program_checked operation)
    have hspawned := (spawned hr).calls _ _ hc
    have hstarted := startedIn_of_call hr hc
    obtain ⟨rfl, o, k, trace, payload, hprogram, ho, htrace, hpayload⟩ := hs.emitted_inv
    rw [hprogram] at hall
    rcases ho with rfl | rfl
    all_goals exact ⟨_, trace, payload, hspawned, hstarted, htrace, hpayload, hall.1⟩

end Session

end PluginSdk
