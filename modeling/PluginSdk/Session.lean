import PluginSdk.Calls
import PluginSdk.Process

/-!
# A session with its calls

The serve loop together with the calls that actions make through their contexts.  An action, and whatever task it
hands a clone to, may begin any operation at any time, and may drop its future; a stored artifact can be kept and
returned by any action.  Every step of a session is a step of its serve loop with open contexts
(`Session.Step.serve`), so what holds of all runs there holds here.
-/

namespace PluginSdk

open Lts

structure Session where
  serve : Serve
  /-- The contexts made so far, by the action that they were made for. -/
  contexts : Nat → Option ActionContext
  calls : Nat → Option ContextCall
  /-- The artifacts that calls have returned. -/
  stored : List StoredArtifact

namespace Session

def init (setup : Setup) : Session where
  serve := .init setup
  contexts := fun _ => none
  calls := fun _ => none
  stored := []

def setCall (x : Session) (call : Nat) (c : Option ContextCall) : Session :=
  { x with calls := Function.update x.calls call c }

/-- The router puts a reply into the oneshot of the request that it names; a dropped receiver discards it. -/
def deliver (x : Session) (call replyTo : Nat) (payload : Payload) : Session :=
  match x.calls call with
  | none => x
  | some c =>
    match c.ticket with
    | none => x
    | some t =>
      if t.id = replyTo then x.setCall call (some { c with ticket := some { t with reply := some payload } }) else x

/-- What an event of the loop does outside of the serve loop. -/
def observe (x : Session) : ServeEvent → Session
  | .spawned inst context => { x with contexts := Function.update x.contexts inst (some context) }
  | .received envelope (some call) =>
    match envelope.replyTo, envelope.payload with
    | some replyTo, some payload => x.deliver call replyTo payload
    | _, _ => x
  | _ => x

end Session

namespace ServeEvent

/-- The artifacts of the result with which an action has ended. -/
def artifacts : ServeEvent → List StoredArtifact
  | .task _ _ (.ended (.ok (.ok output))) => output.artifacts
  | _ => []

/-- The action whose future is gone. -/
def drops : ServeEvent → Option Nat
  | .task inst _ (.ended _) | .task inst _ .aborted => some inst
  | _ => none

/-- A step of the output stream, or of a sender that gives up. -/
def OfStream : ServeEvent → Prop
  | .burned | .consumed | .closed => True
  | _ => False

end ServeEvent

namespace Session

inductive Step (platform : Platform) : Session → ServeEvent → Session → Prop
  | loop {x : Session} {e : ServeEvent} {serve : Serve} : Serve.LoopStep x.serve e serve →
      Step platform x e { x.observe e with serve }
  /-- An action returns only artifacts that some call has returned, and its calls are dropped with its future. -/
  | task {x : Session} {e : ServeEvent} {serve : Serve} : Serve.TaskStep x.serve e serve →
      (∀ a ∈ e.artifacts, a ∈ x.stored) →
      (∀ inst, e.drops = some inst → ∀ call c, x.calls call = some c → c.actor.future ≠ some inst) →
      Step platform x e { x with serve }
  | stream {x : Session} {e : ServeEvent} {serve : Serve} : Serve.ContextStep x.serve e serve → e.OfStream →
      Step platform x e { x with serve }
  | begin {x : Session} {actor : Actor} {call : Nat} {context : ActionContext} {operation : Operation} :
      x.serve.CanAct actor → x.contexts actor.inst = some context → x.calls call = none →
      Step platform x (.internal actor call)
        (x.setCall call (some ⟨actor, context, (operation.program platform context).run, false, none⟩))
  | call {x : Session} {call : Nat} {c c' : ContextCall} {e : ServeEvent} {serve : Serve} : x.calls call = some c →
      ContextCall.Step call x.serve c e serve c' →
      Step platform x e { x.setCall call (some c') with serve }
  | returned {x : Session} {call : Nat} {c : ContextCall} {result : Except SdkError Returned} :
      x.calls call = some c → x.serve.CanAct c.actor → c.program = .pure result →
      Step platform x (.internal c.actor call)
        { x.setCall call none with stored := Returned.artifacts result ++ x.stored }
  | drop {x : Session} {call : Nat} {c : ContextCall} : x.calls call = some c → x.serve.CanAct c.actor → ¬ c.Holds →
      Step platform x (.internal c.actor call) (x.setCall call none)
  | dropReserved {x : Session} {c : ContextCall} {r : Reservation} : x.calls r.call = some c →
      x.serve.CanAct c.actor → c.Holds → x.serve.link.reserved = some r →
      Step platform x (.released r.call)
        { x.setCall r.call none with serve := { x.serve with link := x.serve.link.release r } }

end Session

variable {platform : Platform} {x x' : Session} {e : ServeEvent} {h : List ServeEvent} {setup : Setup}

/-- A call uses the context as an open one may. -/
theorem ContextCall.Step.serve {call : Nat} {s s' : Serve} {c c' : ContextCall}
    (hs : ContextCall.Step call s c e s' c') : Serve.ContextStep s e s' := by
  cases hs with
  | ensureActive ha | now ha | poll ha | cancelled ha | suspend ha | io ha | answer ha | disconnect ha =>
    exact .internal ha
  | cancelledReserved _ _ _ _ _ _ hr hcall =>
    subst hcall
    exact .release hr
  | emit ha _ _ hr hroom hsend => exact .emit ha hr hroom hsend
  | emitFailed ha _ _ hr hsend => exact .emitFailed ha hr hsend
  | reserve ha _ _ _ hr hres => exact .reserve ha hr hres
  | reserveFailed ha _ _ _ hr hres => exact .reserveFailed ha hr hres
  | commit ha _ _ _ hr hclosed hroom => exact .commit ha hr hclosed hroom
  | commitFailed ha _ _ _ hr hclosed => exact .commitFailed ha hr hclosed

/-- What a call enqueues is the payload that its program sends or requests. -/
theorem ContextCall.Step.emitted_inv {call call' : Nat} {s s' : Serve} {c c' : ContextCall} {actor : Actor}
    {envelope : PluginEnvelope} (hs : ContextCall.Step call s c (.emitted actor call' envelope) s' c') :
    c.actor = actor ∧ ∃ o k trace payload, c.program = .op o k ∧
    (o = .send trace payload ∨ o = .request trace payload) ∧
      envelope.trace = some trace ∧ envelope.payload = some payload := by
  cases hs with
  | emit _ hprogram _ _ _ hsend =>
    obtain ⟨rfl, -⟩ := HostLink.send_eq_ok hsend
    exact ⟨rfl, _, _, _, _, hprogram, Or.inl rfl, rfl, rfl⟩
  | commit _ hprogram => exact ⟨rfl, _, _, _, _, hprogram, Or.inr rfl, rfl, rfl⟩

namespace Session

@[simp] theorem setCall_stored (x : Session) (call : Nat) (c : Option ContextCall) :
  (x.setCall call c).stored = x.stored := rfl

@[simp] theorem deliver_stored (x : Session) (call replyTo : Nat) (payload : Payload) :
    (x.deliver call replyTo payload).stored = x.stored := by
  unfold deliver
  split
  · rfl
  · split
    · rfl
    · split <;> rfl

@[simp] theorem observe_stored (x : Session) (e : ServeEvent) : (x.observe e).stored = x.stored := by
  unfold observe
  split
  · rfl
  · split
    · exact deliver_stored ..
    · rfl
  · rfl

theorem calls_setCall_self (x : Session) (call : Nat) (c : Option ContextCall) : (x.setCall call c).calls call = c :=
  Function.update_self ..

theorem setCall_calls {call call' : Nat} {c : Option ContextCall} {c' : ContextCall}
    (h : (x.setCall call c).calls call' = some c') : call' = call ∧ c = some c' ∨ x.calls call' = some c' := by
  change Function.update x.calls call c call' = some c' at h
  by_cases hcall : call' = call
  · subst hcall
    rw [Function.update_self] at h
    exact Or.inl ⟨rfl, h⟩
  · rw [Function.update_of_ne hcall] at h
    exact Or.inr h

/-- What the loop does to a call is to put a reply into the oneshot of its request. -/
theorem observe_calls {call : Nat} {c' : ContextCall} (h : (x.observe e).calls call = some c') :
    x.calls call = some c' ∨ ∃ c t reply answer, e = .received reply (some call) ∧ x.calls call = some c ∧
      c.ticket = some t ∧ reply.replyTo = some t.id ∧ reply.payload = some answer ∧
      c' = { c with ticket := some { t with reply := some answer } } := by
  unfold observe at h
  split at h
  · exact Or.inl h
  · rename_i envelope call'
    split at h
    · rename_i replyTo payload hreply hpayload
      unfold deliver at h
      split at h
      · exact Or.inl h
      · rename_i c hc
        split at h
        · exact Or.inl h
        · rename_i t ht
          split at h
          · rename_i hid
            rcases setCall_calls h with ⟨rfl, heq⟩ | hold
            · exact Or.inr ⟨c, t, envelope, payload, rfl, hc, ht, hid ▸ hreply, hpayload, (Option.some.inj heq).symm⟩
            · exact Or.inl hold
          · exact Or.inl h
    · exact Or.inl h
  · exact Or.inl h

theorem Step.serve (hs : Step platform x e x') : Serve.Step x.serve e x'.serve := by
  cases hs with
  | loop hs => exact .loop hs
  | task hs => exact .task hs
  | stream hs => exact .context hs
  | begin ha => exact .context (.internal ha)
  | call _ hs => exact .context hs.serve
  | returned _ ha => exact .context (.internal ha)
  | drop _ ha => exact .context (.internal ha)
  | dropReserved _ _ _ hr => exact .context (.release hr)

/-- A run of a session is a run of its serve loop. -/
theorem run_serve (hr : Steps (Step platform) x h x') : Steps Serve.Step x.serve h x'.serve := by
  have hsim := hr.simulate (f := Session.serve) (g := fun e => [e]) fun x e x' hs => Steps.single hs.serve
  rwa [List.flatMap_singleton'] at hsim

/-! ### Running a call

The steps of one call leave the other calls alone.
-/

theorem Step.of_link {call : Nat} {c c' : ContextCall} {serve : Serve}
    (hs : ContextCall.Step call x.serve c e serve c') :
    Step platform (x.setCall call (some c)) e ({ x with serve }.setCall call (some c')) := by
  have hstep : Step platform (x.setCall call (some c)) e _ := .call (Function.update_self ..) hs
  simpa [setCall, Function.update_idem] using hstep

theorem Step.of_call {call : Nat} {c c' : ContextCall} (hs : ContextCall.Step call x.serve c e x.serve c') :
    Step platform (x.setCall call (some c)) e (x.setCall call (some c')) := .of_link hs

theorem Step.of_reply {call : Nat} {c : ContextCall} {t : Ticket} {reply : PluginEnvelope}
    {answer : Payload} {serve : Serve} (hs : Serve.LoopStep x.serve (.received reply (some call)) serve)
    (ht : c.ticket = some t) (hreply : reply.replyTo = some t.id) (hpayload : reply.payload = some answer) :
    Step platform (x.setCall call (some c)) (.received reply (some call))
      ({ x with serve }.setCall call (some { c with ticket := some { t with reply := some answer } })) := by
  have hstep : Step platform (x.setCall call (some c)) (.received reply (some call)) _ := .loop hs
  simpa [observe, hreply, hpayload, deliver, setCall, ht, Function.update_idem] using hstep

theorem Step.of_returned {call : Nat} {c : ContextCall} {result : Except SdkError Returned}
    (hact : x.serve.CanAct c.actor) (hp : c.program = .pure result) :
    Step platform (x.setCall call (some c)) (.internal c.actor call)
      { x.setCall call none with stored := Returned.artifacts result ++ x.stored } := by
  have hstep : Step platform (x.setCall call (some c)) (.internal c.actor call) _ :=
    .returned (Function.update_self ..) hact hp
  simpa [setCall, Function.update_idem] using hstep

/-- An operation on the source of an artifact that finds the cancellation value active. -/
theorem io_steps {c : ContextCall} {call : Nat} {o : ContextOp} {k : o.Reply → _} {es : List ServeEvent} (r : o.Reply)
    (hact : x.serve.CanAct c.actor) (hp : c.program = .op o k) (hpolled : c.polled = false)
    (hactive : c.IsActive x.serve) (hraced : o.cancelled.isSome) (hr : o.Io r)
    (hrest : ∃ u, Steps (Step platform) (x.setCall call (some (c.resume (k r)))) es u) :
    ∃ u, Steps (Step platform) (x.setCall call (some c))
    (.internal c.actor call :: .internal c.actor call :: es) u := by
  refine Steps.exists_cons (.of_call (.poll hact hp hraced hpolled hactive)) ?_
  exact Steps.exists_cons (.of_call (.io hact hp rfl hr)) hrest

/-- A request that finds the cancellation value active, and its reply. -/
theorem request_steps {c : ContextCall} {call id : Nat} {trace : TraceContext} {payload answer : Payload}
    {k : Selected (Except SdkError Payload) → _} {link : HostLink} {reply : PluginEnvelope} {session : SessionState}
    {es : List ServeEvent} (hact : x.serve.CanAct c.actor) (hp : c.program = .op (.request trace payload) k)
    (hpolled : c.polled = false) (hticket : c.ticket = none) (hactive : c.IsActive x.serve)
    (hloop : x.serve.loop = .head) (hreserved : x.serve.link.reserved = none)
    (hreserve : x.serve.link.reserve call ⟨none, trace, payload⟩ = (link, .ok id))
    (hclosed : x.serve.link.closed = false) (hroom : x.serve.link.HasRoom)
    (hvalid : validateEnvelope reply x.serve.session = .ok (trace, session)) (hreply : reply.replyTo = some id)
    (hpayload : reply.payload = some answer) (hcheck : Serve.checkReply answer = .ok ())
    (hrest : ∃ u, Steps (Step platform)
      ({ x with
        serve :=
          { x.serve with
            session
            link :=
              { x.serve.link with
                sender := ⟨id + 1⟩
                reserved := none
                pending := HostClient.unregister (x.serve.link.pending.insert id ⟨trace, call⟩) id
                wire := x.serve.link.wire ++ [x.serve.link.identity.stamp id ⟨none, trace, payload⟩] } }
                }.setCall call
        (some (c.resume (k (Selected.ready (HostClient.received answer)))))) es u) :
    ∃ u, Steps (Step platform) (x.setCall call (some c)) (.internal c.actor call :: .reserved c.actor call id ::
      .emitted c.actor call (x.serve.link.identity.stamp id ⟨none, trace, payload⟩) :: .received reply (some call) ::
      .internal c.actor call :: es) u := by
  obtain ⟨-, rfl⟩ := HostLink.reserve_eq_ok hreserve
  refine Steps.exists_cons (.of_call (.poll hact hp rfl hpolled hactive)) ?_
  refine Steps.exists_cons (.of_link (.reserve hact hp rfl hticket hreserved hreserve)) ?_
  refine Steps.exists_cons (.of_link (.commit hact hp rfl rfl rfl hclosed hroom)) ?_
  refine Steps.exists_cons (.of_reply (.of_process hloop (Serve.process_of_reply hvalid hreply hpayload hcheck
    (AList.lookup_insert _))) rfl hreply hpayload) ?_
  exact Steps.exists_cons (.of_call (.answer hact hp rfl rfl)) hrest

/-! ### A session with a job that runs -/

open Serve (sampleTrace sampleJobId sampleSetup sampleStart sampleAccepted)

def sampleContext : ActionContext := ⟨sampleJobId, none, sampleTrace, 0, 3, sampleSetup.host⟩

/-- The digest of the bytes `1`, `2` and `3`. -/
def sampleDigest : List UInt8 :=
  [3, 144, 88, 198, 242, 192, 203, 73, 44, 83, 59, 10, 77, 20, 239, 119, 204, 15, 120, 171, 204, 206,
    213, 40, 125, 132, 161, 162, 1, 28, 251, 129]

def samplePlatform : Platform := ⟨2 ^ 64 - 1, by decide, fun _ => sampleDigest⟩

/-- An envelope of the plugin in the sample session. -/
def sampleEnvelope (id : Nat) (payload : Payload) : PluginEnvelope :=
  sampleSetup.session.identity.stamp id ⟨none, sampleTrace, payload⟩

/-- The sample session with a job that runs. -/
def sampleRunning : Session where
  serve :=
    { Serve.init sampleSetup with
      session := ⟨⟨"session", "instance"⟩, 3, 10, 10⟩
      link :=
        { (Serve.init sampleSetup).link with
          sender := ⟨4⟩
          wire := (Serve.init sampleSetup).link.wire ++ [sampleAccepted] }
      jobs :=
        { (Serve.init sampleSetup).jobs with
          active := (∅ : Table String ActiveJob).insert sampleJobId ⟨0, sampleTrace, []⟩
          tasks := [⟨0, sampleJobId, .running⟩] }
      cells := Function.update (fun _ => .active) 0 .active
      spawned := 1 }
  contexts := Function.update (fun _ => none) 0 (some sampleContext)
  calls := fun _ => none
  stored := []

theorem sampleRunning_steps : Steps (Step platform) (init sampleSetup)
    [.received sampleStart none, .sent sampleAccepted, .spawned 0 sampleContext, .task 0 sampleJobId .started]
    sampleRunning := by
  have hstart : (Serve.init sampleSetup).Request sampleStart sampleTrace ⟨⟨"session", "instance"⟩, 3, 10, 10⟩
      (.startJob ⟨some ⟨sampleJobId⟩, none, some ⟨"echo", []⟩⟩) := Serve.sampleRequest_valid rfl (by decide)
  have hok : (Serve.init sampleSetup).jobs.Startable ⟨some ⟨sampleJobId⟩, none, some ⟨"echo", []⟩⟩ sampleJobId
      ⟨"echo", []⟩ := ⟨Serve.jobId_sampleJobId, rfl, rfl, rfl, by decide⟩
  refine .cons (.loop (.of_process rfl ((Serve.process_of_startable hstart hok).trans (if_neg (by decide))))) ?_
  refine .cons (.loop (.send rfl rfl (by decide) rfl)) ?_
  refine .cons (.loop (@Serve.LoopStep.spawn _ ⟨sampleJobId, none, sampleTrace, 3, []⟩ rfl rfl)) ?_
  exact .single (.task (.start (List.mem_singleton.2 rfl)) (by simp [ServeEvent.artifacts])
    (by simp [ServeEvent.drops]))

end Session

end PluginSdk
