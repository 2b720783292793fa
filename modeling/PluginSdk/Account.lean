import PluginSdk.Checks
import PluginSdk.Session
import PluginSdk.Transfer

/-!
# The account of a call

The execution of a running call is in the history of the session, with what its request under way has shown so far
(`ContextCall.Accounted`).  Every step of the call keeps that, and so does the reply that the loop puts into its
oneshot.
-/

namespace PluginSdk

open Lts Program

variable {platform : Platform} {h : List ServeEvent} {e : ServeEvent}

/-! ### What contexts send -/

def Payload.OfContext : Payload → Prop
  | .hostCall _ | .log _ | .artifactStart _ | .artifactChunk _ | .artifactComplete _ => True
  | _ => False

def ContextOp.OfContext : ContextOp → Prop
  | .send _ payload | .request _ payload => payload.OfContext
  | _ => True

private theorem Payload.Checked.ofContext {context : ActionContext} {trace : TraceContext} {payload : Payload}
    (h : payload.Checked context trace) : payload.OfContext := by
  cases payload <;> first | exact trivial | exact h

/-- Whatever an action asks of its context, only these payloads are sent. -/
theorem Operation.program_all {context : ActionContext} (operation : Operation) :
    (operation.program platform context).run.All ContextOp.OfContext := by
  refine operation.program_checked.imp fun o ho => ?_
  cases o with
  | send | request => exact Payload.Checked.ofContext ho
  | _ => trivial

/-! ### The account of a call -/

/-- The request of the ticket, if it is enqueued. -/
def Ticket.ShowsRequest (actor : Actor) (call : Nat) (payload : Payload) (t : Ticket) (es : List ServeEvent) : Prop :=
  if t.sent then ∃ envelope : PluginEnvelope, envelope.messageId = t.id ∧ envelope.payload = some payload ∧
    es = [.emitted actor call envelope]
  else es = []

/-- The reply of the ticket, if there is one. -/
def Ticket.ShowsReply (call : Nat) (t : Ticket) (es : List ServeEvent) : Prop :=
  match t.reply with
  | some answer => ∃ reply : PluginEnvelope, reply.replyTo = some t.id ∧ reply.payload = some answer ∧
      es = [.received reply (some call)]
  | none => es = []

/-- What the request under way has shown, in either order. -/
def Ticket.Shows (actor : Actor) (call : Nat) (payload : Payload) (t : Ticket) (es : List ServeEvent) : Prop :=
  ∃ es₁ es₂, t.ShowsRequest actor call payload es₁ ∧ t.ShowsReply call es₂ ∧ (es = es₁ ++ es₂ ∨ es = es₂ ++ es₁)

private theorem Ticket.Shows.exchanged {actor : Actor} {call id : Nat} {payload answer : Payload}
    {es : List ServeEvent} (h : Ticket.Shows actor call payload ⟨id, true, some answer⟩ es) :
    Exchanged payload answer es := by
  obtain ⟨_, _, ⟨envelope, rfl, hp, rfl⟩, ⟨reply, hid, ha, rfl⟩, hes⟩ := h
  exact ⟨actor, call, envelope, reply, hp, hid, ha, hes⟩

/-- The execution of the call is in the history, with what its request under way has shown. -/
def ContextCall.Accounted (platform : Platform) (h : List ServeEvent) (call : Nat) (c : ContextCall) : Prop :=
  ∃ operation es, Exec Shows (Operation.program platform c.context operation).run es c.program ∧ es.Sublist h ∧
    ∀ t, c.ticket = some t → ∃ trace payload k es', c.program = .op (.request trace payload) k ∧
      t.Shows c.actor call payload es' ∧ (es ++ es').Sublist h

namespace ContextCall

variable {call : Nat} {c c' : ContextCall} {s s' : Serve}

theorem Accounted.mono (ha : c.Accounted platform h call) (e : ServeEvent) :
    c.Accounted platform (h ++ [e]) call := by
  obtain ⟨operation, es, hexec, hsub, hticket⟩ := ha
  refine ⟨operation, es, hexec, hsub.trans (List.sublist_append_left _ _), fun t ht => ?_⟩
  obtain ⟨trace, payload, k, es', hp, hshows, hsub'⟩ := hticket t ht
  exact ⟨trace, payload, k, es', hp, hshows, hsub'.trans (List.sublist_append_left _ _)⟩

/-- The operation under way is answered, and the answer shows nothing that has not been seen. -/
private theorem Accounted.resume {o : ContextOp} {k : o.Reply → _} {r : o.Reply} (ha : c.Accounted platform h call)
    (hp : c.program = .op o k) (hr : Shows o r []) : (c.resume (k r)).Accounted platform (h ++ [e]) call := by
  obtain ⟨operation, es, hexec, hsub, -⟩ := ha
  rw [hp] at hexec
  refine ⟨operation, es ++ [], hexec.snoc hr, ?_, fun t ht => by cases ht⟩
  rw [List.append_nil]
  exact hsub.trans (List.sublist_append_left _ _)

theorem Step.accounted (hs : ContextCall.Step call s c e s' c') (ha : c.Accounted platform h call) :
    c'.Accounted platform (h ++ [e]) call := by
  cases hs with
  | ensureActive _ hp => exact ha.resume hp rfl
  | now _ hp => exact ha.resume hp rfl
  | poll => exact ha.mono _
  | suspend => exact ha.mono _
  | cancelled _ hp hr => exact ha.resume hp (shows_cancelled hr)
  | cancelledReserved _ hp hr => exact ha.resume hp (shows_cancelled hr)
  | io _ hp _ hr => exact ha.resume hp (shows_io hr)
  | emitFailed _ hp => exact ha.resume hp fun hr => by cases hr
  | reserveFailed _ hp => exact ha.resume hp fun answer hr => by cases hr
  | commitFailed _ hp => exact ha.resume hp fun answer hr => by cases hr
  | disconnect _ hp => exact ha.resume hp fun answer hr => by cases hr
  | emit _ hp _ _ _ hsend =>
    obtain ⟨operation, es, hexec, hsub, -⟩ := ha
    obtain ⟨rfl, -⟩ := HostLink.send_eq_ok hsend
    rw [hp] at hexec
    refine ⟨operation, _, hexec.snoc fun _ => ⟨_, rfl, _, _, _, rfl, rfl⟩, hsub.append_right _,
      fun t ht => by cases ht⟩
  | reserve _ hp =>
    obtain ⟨operation, es, hexec, hsub, -⟩ := ha
    refine ⟨operation, es, hexec, hsub.trans (List.sublist_append_left _ _), fun t ht => ?_⟩
    cases ht
    refine ⟨_, _, _, [], hp, ⟨[], [], rfl, rfl, Or.inl rfl⟩, ?_⟩
    rw [List.append_nil]
    exact hsub.trans (List.sublist_append_left _ _)
  | @commit trace payload k id reply _ hp _ ht =>
    obtain ⟨operation, es, hexec, hsub, hticket⟩ := ha
    refine ⟨operation, es, hexec, hsub.trans (List.sublist_append_left _ _), fun t ht' => ?_⟩
    cases ht'
    obtain ⟨trace', payload', k', es', hp', ⟨es₁, es₂, h₁, h₂, hes⟩, hsub'⟩ := hticket _ ht
    obtain rfl : es₁ = [] := h₁
    obtain rfl : es' = es₂ := by simpa using hes
    have hreq : Ticket.ShowsRequest c.actor call payload ⟨id, true, reply⟩
        [.emitted c.actor call (s.link.identity.stamp id ⟨none, trace, payload⟩)] := ⟨_, rfl, rfl, rfl⟩
    refine ⟨trace, payload, k, es' ++ [_], hp, ⟨_, es', hreq, h₂, Or.inr rfl⟩, ?_⟩
    rw [← List.append_assoc]
    exact hsub'.append_right _
  | @answer trace payload answer k id _ hp _ ht =>
    obtain ⟨operation, es, hexec, hsub, hticket⟩ := ha
    obtain ⟨trace', payload', k', es', hp', hshows, hsub'⟩ := hticket _ ht
    rw [hp] at hexec hp'
    cases hp'
    refine ⟨operation, es ++ es', hexec.snoc fun answer' hr => ?_, hsub'.trans (List.sublist_append_left _ _),
      fun t ht => by cases ht⟩
    have heq : HostClient.received answer = .ok answer' := Selected.ready.inj hr
    obtain rfl : answer = answer' := by
      unfold HostClient.received at heq
      split at heq
      · cases heq
      · exact Except.ok.inj heq
    exact hshows.exchanged

/-- A reply is put into the oneshot of a call. -/
theorem Accounted.deliver {t : Ticket} {reply : PluginEnvelope} {answer : Payload} (ha : c.Accounted platform h call)
    (ht : c.ticket = some t) (hid : reply.replyTo = some t.id) (hp : reply.payload = some answer) :
    ContextCall.Accounted platform (h ++ [ServeEvent.received reply (some call)]) call
      { c with ticket := some { t with reply := some answer } } := by
  obtain ⟨operation, es, hexec, hsub, hticket⟩ := ha
  refine ⟨operation, es, hexec, hsub.trans (List.sublist_append_left _ _), fun t' ht' => ?_⟩
  cases ht'
  obtain ⟨trace, payload, k, es', hp', ⟨es₁, es₂, h₁, h₂, hes⟩, hsub'⟩ := hticket t ht
  refine ⟨trace, payload, k, es₁ ++ [_], hp', ⟨es₁, [_], h₁, ⟨reply, hid, hp, rfl⟩, Or.inl rfl⟩, ?_⟩
  have hsub₁ : es₁.Sublist es' := by
    rcases hes with rfl | rfl
    · exact List.sublist_append_left _ _
    · exact List.sublist_append_right _ _
  rw [← List.append_assoc]
  exact ((hsub₁.append_left es).trans hsub').append_right _

end ContextCall

/-- Only `store_artifact` returns a stored artifact. -/
theorem Operation.stored_inv {operation : Operation} {context : ActionContext} {es : List ServeEvent}
    {artifact : StoredArtifact}
    (hexec : Exec Shows (operation.program platform context).run es (.pure (.ok (.stored artifact)))) :
    ∃ es', es'.Sublist es ∧ Transferred artifact.jobId artifact.descriptor es' := by
  have hlast : ∀ {α : Type} {p : ContextProgram α} {f : α → Returned},
      Exec Shows (p >>= fun a => pure (f a)).run es (.pure (.ok (.stored artifact))) →
      ∃ a, f a = .stored artifact ∧ Exec Shows p.run es (.pure (.ok a)) := by
    intro α p f hexec
    obtain ⟨a, es₁, es₂, rfl, hp, hf⟩ := Exec.ok_bind_inv hexec
    obtain ⟨rfl, hr⟩ := Exec.pure_inv hf
    refine ⟨a, (Except.ok.inj (Program.pure.inj hr)).symm, ?_⟩
    rwa [List.append_nil]
  cases operation with
  | storeArtifact descriptor =>
    obtain ⟨a, ha, hp⟩ := hlast hexec
    cases ha
    exact storeArtifact_inv hp
  | hostCall | getConfig | invokeConfigFunction | log =>
    obtain ⟨a, ha, -⟩ := hlast hexec
    cases ha

end PluginSdk
