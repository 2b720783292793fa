import PluginSdk.Provenance
import PluginSdk.Stream

/-!
# A session whose call stores an artifact

A session next to the source that one of its calls reads, and what that call has exchanged with the host so far.
The other calls, the actions and the loop go on as they like, and the call may be cancelled, dropped or answered
wrongly at any time.  What it has put on the wire is always a part of the canonical stream of the artifact
(`Storing.artifact_streamed`).
-/

namespace PluginSdk

open Lts Program Pieces

/-- What the step puts on the wire for the call. -/
def ServeEvent.sentBy (call : Nat) : ServeEvent → Option Payload
  | .emitted _ call' envelope => if call' = call then envelope.payload else none
  | _ => none

/-- What the call has put on the wire, in order. -/
def sentBy (call : Nat) (h : List ServeEvent) : List Payload := h.filterMap (ServeEvent.sentBy call)

/-- The answer that the call takes on its way to `c'`. -/
def ContextCall.taken (c c' : ContextCall) : List Exchange :=
  match c.ticket, c'.ticket with
  | some ⟨_, true, some answer⟩, none => if c.polled then [.answered answer] else []
  | _, _ => []

/-- What the call exchanges with the host in a step. -/
def Session.exchanged (x : Session) (call : Nat) (e : ServeEvent) (x' : Session) : List Exchange :=
  ((e.sentBy call).map .put).toList ++
    match x.calls call, x'.calls call with
    | some c, some c' => c.taken c'
    | _, _ => []

/-- How a program goes on with its source: it waits, or is answered by the source, or its source has failed; or it has
asked for something else. -/
inductive Source.Follows {α : Type} : Source → Program ContextOp ContextOp.Reply α →
  Program ContextOp ContextOp.Reply α →
    Source → Prop
  | idle {source : Source} {p : Program ContextOp ContextOp.Reply α} : Follows source p p source
  | other {source : Source} {o : ContextOp} {k : o.Reply → Program ContextOp ContextOp.Reply α} {r : o.Reply} :
      ¬ o.OfSource → Follows source (.op o k) (k r) source
  | yields {source source' : Source} {o : ContextOp} {k : o.Reply → Program ContextOp ContextOp.Reply α}
      {r : o.Reply} : source.Yields o r source' → Follows source (.op o k) (k r) source'
  | failed {source source' : Source} {o : ContextOp} {k : o.Reply → Program ContextOp ContextOp.Reply α}
      {r : o.Reply} : o.Failed r → Follows source (.op o k) (k r) source'

structure Storing where
  session : Session
  source : Source
  exchanged : List Exchange

/-- A step of the session.  The call is not begun again, and goes on with its source. -/
structure Storing.Step (platform : Platform) (call : Nat) (s : Storing) (e : ServeEvent) (s' : Storing) : Prop where
  step : Session.Step platform s.session e s'.session
  once : s.session.calls call = none → s'.session.calls call = none
  follows : ∀ c c', s.session.calls call = some c → s'.session.calls call = some c' →
    s.source.Follows c.program c'.program s'.source
  exchanged : s'.exchanged = s.exchanged ++ s.session.exchanged call e s'.session

variable {platform : Platform} {call : Nat} {h : List ServeEvent} {e : ServeEvent}

/-! ### The steps of one call in a session -/

namespace Session

variable {x x' : Session}

/-- What a step of the session is for one of its calls. -/
inductive CallStep (call : Nat) (x : Session) (e : ServeEvent) (x' : Session) : Prop
  | unchanged : x'.calls call = x.calls call → e.sentBy call = none → CallStep call x e x'
  | delivered {c : ContextCall} {t : Ticket} {reply : PluginEnvelope} {answer : Payload} :
      e = .received reply (some call) → reply.payload = some answer → x.calls call = some c → c.ticket = some t →
      x'.calls call = some { c with ticket := some { t with reply := some answer } } → CallStep call x e x'
  | begun {c : ContextCall} : x.calls call = none → x'.calls call = some c → CallStep call x e x'
  | advanced {c c' : ContextCall} : x.calls call = some c → x'.calls call = some c' →
      ContextCall.Step call x.serve c e x'.serve c' → CallStep call x e x'
  | gone {c : ContextCall} : x.calls call = some c → x'.calls call = none → e.sentBy call = none →
      CallStep call x e x'

private theorem setCall_ne {call' : Nat} {c : Option ContextCall} (hne : call ≠ call') :
    (x.setCall call' c).calls call = x.calls call := Function.update_of_ne hne ..

private theorem observe_calls_none (hx : (x.observe e).calls call = none) : x.calls call = none := by
  unfold observe at hx
  split at hx
  · exact hx
  · rename_i envelope call'
    split at hx
    · unfold deliver at hx
      split at hx
      · exact hx
      · split at hx
        · exact hx
        · split at hx
          · by_cases hcall : call = call'
            · subst hcall
              rw [calls_setCall_self] at hx
              cases hx
            · rwa [setCall_ne hcall] at hx
          · exact hx
    · exact hx
  · exact hx

/-- Only the call itself puts something on the wire for it. -/
private theorem sentBy_ne {call' : Nat} {c c' : ContextCall} {s s' : Serve} (hs : ContextCall.Step call' s c e s' c')
    (hne : call ≠ call') : e.sentBy call = none := by
  cases hs with
  | emit | commit => exact if_neg (Ne.symm hne)
  | _ => rfl

private theorem Step.callStep (hs : Step platform x e x') (call : Nat) : CallStep call x e x' := by
  cases hs with
  | loop hs =>
    have hsent : e.sentBy call = none := by cases hs <;> rfl
    cases hc : (x.observe e).calls call with
    | none => exact .unchanged (hc.trans (observe_calls_none hc).symm) hsent
    | some c' =>
      rcases observe_calls hc with hold | ⟨c, t, reply, answer, rfl, hold, ht, -, hpayload, rfl⟩
      · exact .unchanged (hc.trans hold.symm) hsent
      · exact .delivered rfl hpayload hold ht hc
  | task hs => exact .unchanged rfl (by cases hs <;> rfl)
  | stream _ hstream => exact .unchanged rfl (by cases e <;> first | rfl | exact hstream.elim)
  | @begin actor call' context operation _ _ hnone =>
    by_cases hcall : call = call'
    · subst hcall
      exact .begun hnone (calls_setCall_self ..)
    · exact .unchanged (setCall_ne hcall) rfl
  | @call call' c c' _ serve hc hs =>
    by_cases hcall : call = call'
    · subst hcall
      exact .advanced hc (calls_setCall_self ..) hs
    · exact .unchanged (setCall_ne hcall) (sentBy_ne hs hcall)
  | @returned call' c result hc =>
    by_cases hcall : call = call'
    · subst hcall
      exact .gone hc (calls_setCall_self ..) rfl
    · exact .unchanged (setCall_ne hcall) rfl
  | @drop call' c hc =>
    by_cases hcall : call = call'
    · subst hcall
      exact .gone hc (calls_setCall_self ..) rfl
    · exact .unchanged (setCall_ne hcall) rfl
  | @dropReserved c r hc =>
    by_cases hcall : call = r.call
    · subst hcall
      exact .gone hc (calls_setCall_self ..) rfl
    · exact .unchanged (setCall_ne hcall) rfl

end Session

/-! ### The account of the call -/

namespace Source.Follows

variable {α : Type} {source source' : Source} {p p' q : Program ContextOp ContextOp.Reply α}
  {s : Source × List Exchange} {es : List Exchange}

/-- Only what is asked of the source moves it. -/
private theorem source_eq {o : ContextOp} {k : o.Reply → Program ContextOp ContextOp.Reply α}
    (h : Follows source (.op o k) p' source') (ho : ¬ o.OfSource) : source' = source := by
  cases h with
  | idle => rfl
  | other => rfl
  | yields hyields => cases hyields <;> exact (ho trivial).elim
  | failed hfailed => cases o <;> first | exact (ho trivial).elim | exact hfailed.elim

/-- A program that has asked its source, or that has not gone on. -/
private theorem runs (h : Follows source p p' source') (hruns : Runs Carries s q (source, es) p)
    (hp : (∃ o k, p = .op o k ∧ o.OfSource) ∨ p' = p) : Runs Carries s q (source', es) p' := by
  cases h with
  | idle => exact hruns
  | other ho =>
    rcases hp with ⟨o, k, heq, hsource⟩ | heq
    · cases heq
      exact absurd hsource ho
    · rwa [heq]
  | yields hyields => exact hruns.snoc (.yields hyields)
  | failed hfailed => exact hruns.snoc (.failed hfailed)

end Source.Follows

/-- What the call has exchanged: what its program has come to show, and the request that is under way. -/
def ContextCall.Trails (c : ContextCall) (es exchanged : List Exchange) : Prop :=
  match c.ticket with
  | none => exchanged = es
  | some t => ∃ trace payload k, c.program = .op (.request trace payload) k ∧
      exchanged = es ++ if t.sent then [.put payload] else []

namespace ContextCall

variable {s s' : Serve} {c c' : ContextCall} {source source' : Source} {es exchanged : List Exchange}
  {start : Source × List Exchange} {p : Program ContextOp ContextOp.Reply (Except SdkError Returned)}

/-- Only a request has a ticket. -/
private theorem Trails.eq_of_op {o : ContextOp} {k : o.Reply → _} (ht : c.Trails es exchanged)
    (hp : c.program = .op o k) (ho : ∀ trace payload, o ≠ .request trace payload) :
    c.ticket = none ∧ exchanged = es := by
  unfold Trails at ht
  cases hticket : c.ticket with
  | none =>
    rw [hticket] at ht
    exact ⟨rfl, ht⟩
  | some t =>
    rw [hticket] at ht
    obtain ⟨trace, payload, k', hp', -⟩ := ht
    rw [hp] at hp'
    cases hp'
    exact absurd rfl (ho trace payload)

/-- A call that is dropped has come as far as one that is cancelled. -/
private theorem Trails.runs (ht : c.Trails es exchanged) (hruns : Runs Carries start p (source, es) c.program) :
    ∃ source' q, Runs Carries start p (source', exchanged) q := by
  unfold Trails at ht
  cases hticket : c.ticket with
  | none =>
    rw [hticket] at ht
    exact ⟨source, c.program, ht ▸ hruns⟩
  | some t =>
    rw [hticket] at ht
    obtain ⟨trace, payload, k, hp, rfl⟩ := ht
    rw [hp] at hruns
    have hcancelled : ∀ answer, (Selected.cancelled : Selected (Except SdkError Payload)) ≠ .ready (.ok answer) :=
      fun answer h => by cases h
    refine ⟨source, _, hruns.snoc (.unanswered hcancelled ?_)⟩
    by_cases hsent : t.sent
    · rw [if_pos hsent]
      exact Or.inr rfl
    · rw [if_neg hsent]
      exact Or.inl rfl

/-- The call goes on with what it has come to show. -/
private theorem trails_resume {q : Program ContextOp ContextOp.Reply (Except SdkError Returned)}
    (heq : exchanged = es) : (c.resume q).Trails es exchanged := heq

private theorem taken_of_ticket (h : c'.ticket = c.ticket) : c.taken c' = [] := by
  unfold taken
  rw [h]
  rcases c.ticket with _ | ⟨id, _ | _, _ | answer⟩ <;> rfl

private theorem taken_of_some {t : Ticket} (h : c'.ticket = some t) : c.taken c' = [] := by
  unfold taken
  rw [h]
  rcases c.ticket with _ | ⟨id, _ | _, _ | answer⟩ <;> rfl

private theorem taken_of_none (h : c.ticket = none) : c.taken c' = [] := by
  unfold taken
  rw [h]

private theorem taken_of_unanswered {t : Ticket} (h : c.ticket = some t)
    (ht : c.polled = false ∨ t.sent = false ∨ t.reply = none) : c.taken c' = [] := by
  obtain ⟨id, sent, reply⟩ := t
  unfold taken
  rw [h]
  rcases ht with hpolled | rfl | rfl
  · rw [hpolled]
    split <;> rfl
  · rfl
  · cases sent <;> rfl

/-- What an enqueued request has put on the wire, answered or not, is left as it is when the request ends. -/
private theorem Trails.request {trace : TraceContext} {payload : Payload} {k : Selected (Except SdkError Payload) → _}
    {r : Selected (Except SdkError Payload)} (ht : c.Trails es exchanged)
    (hp : c.program = .op (.request trace payload) k) (hf : source.Follows c.program (k r) source')
    (hruns : Runs Carries start p (source, es) c.program) (hr : ∀ answer, r ≠ .ready (.ok answer)) :
    Runs Carries start p (source', exchanged) (k r) := by
  rw [hp] at hruns hf
  obtain rfl := hf.source_eq id
  unfold Trails at ht
  cases hticket : c.ticket with
  | none =>
    rw [hticket] at ht
    have hsnoc := hruns.snoc (.unanswered hr (Or.inl rfl))
    rwa [List.append_nil, ← show exchanged = es from ht] at hsnoc
  | some t =>
    rw [hticket] at ht
    obtain ⟨trace', payload', k', hp', rfl⟩ := ht
    cases hp.symm.trans hp'
    refine hruns.snoc (.unanswered hr ?_)
    by_cases hsent : t.sent
    · rw [if_pos hsent]
      exact Or.inr rfl
    · rw [if_neg hsent]
      exact Or.inl rfl

/-- The call is cancelled: what it was waiting for is dropped. -/
private theorem Trails.cancelled {o : ContextOp} {k : o.Reply → _} {r : o.Reply} (ht : c.Trails es exchanged)
    (hp : c.program = .op o k) (hr : o.cancelled = some r) (hf : source.Follows c.program (k r) source')
    (hruns : Runs Carries start p (source, es) c.program) : Runs Carries start p (source', exchanged) (k r) := by
  cases o with
  | ensureActive | now => cases hr
  | send trace payload =>
    obtain ⟨-, rfl⟩ := ht.eq_of_op hp fun _ _ => by simp
    rw [hp] at hruns hf
    obtain rfl := hf.source_eq id
    cases hr
    exact hruns.snoc (.unsent fun h => by cases h)
  | request trace payload =>
    cases hr
    exact ht.request hp hf hruns fun answer h => by cases h
  | streamPosition | read | seekStart | readExact =>
    obtain ⟨-, rfl⟩ := ht.eq_of_op hp fun _ _ => by simp
    rw [hp] at hruns hf
    exact hf.runs hruns (Or.inl ⟨_, _, rfl, trivial⟩)

private theorem Step.trails (hs : ContextCall.Step call s c e s' c')
    (hf : source.Follows c.program c'.program source') (hruns : Runs Carries start p (source, es) c.program)
    (ht : c.Trails es exchanged) : ∃ es', Runs Carries start p (source', es') c'.program ∧
      c'.Trails es' (exchanged ++ (((e.sentBy call).map .put).toList ++ c.taken c')) := by
  cases hs with
  | ensureActive _ hp =>
    obtain ⟨hticket, rfl⟩ := ht.eq_of_op hp fun _ _ => by simp
    rw [hp] at hruns hf
    obtain rfl := hf.source_eq id
    exact ⟨exchanged, hruns.snoc .ensureActive, trails_resume (by simp [ServeEvent.sentBy, taken_of_none hticket])⟩
  | now _ hp =>
    obtain ⟨hticket, rfl⟩ := ht.eq_of_op hp fun _ _ => by simp
    rw [hp] at hruns hf
    obtain rfl := hf.source_eq id
    exact ⟨exchanged, hruns.snoc .now, trails_resume (by simp [ServeEvent.sentBy, taken_of_none hticket])⟩
  | poll =>
    refine ⟨es, hf.runs hruns (Or.inr rfl), ?_⟩
    have htrails : ContextCall.Trails { c with polled := true } es exchanged := ht
    rw [show c.taken { c with polled := true } = [] from taken_of_ticket rfl]
    simpa [ServeEvent.sentBy] using htrails
  | suspend =>
    refine ⟨es, hf.runs hruns (Or.inr rfl), ?_⟩
    have htrails : ContextCall.Trails { c with polled := false } es exchanged := ht
    rw [show c.taken { c with polled := false } = [] from taken_of_ticket rfl]
    simpa [ServeEvent.sentBy] using htrails
  | cancelled _ hp hr hpolled =>
    refine ⟨exchanged, ht.cancelled hp hr hf hruns, trails_resume ?_⟩
    cases hticket : c.ticket with
    | none => simp [ServeEvent.sentBy, taken_of_none hticket]
    | some t => simp [ServeEvent.sentBy, taken_of_unanswered hticket (Or.inl hpolled)]
  | cancelledReserved _ hp hr hpolled _ hholds =>
    obtain ⟨t, hticket, -⟩ := hholds
    refine ⟨exchanged, ht.cancelled hp hr hf hruns, trails_resume ?_⟩
    simp [ServeEvent.sentBy, taken_of_unanswered hticket (Or.inl hpolled)]
  | @io o k r _ hp _ hr =>
    have ho : o.OfSource := by cases o <;> trivial
    obtain ⟨hticket, rfl⟩ := ht.eq_of_op hp fun _ _ h => by rw [h] at ho; exact ho
    rw [hp] at hruns hf
    refine ⟨exchanged, hf.runs hruns (Or.inl ⟨_, _, rfl, ho⟩), trails_resume ?_⟩
    simp [ServeEvent.sentBy, taken_of_none hticket]
  | emit _ hp _ _ _ hsend =>
    obtain ⟨hticket, rfl⟩ := ht.eq_of_op hp fun _ _ => by simp
    obtain ⟨rfl, -⟩ := HostLink.send_eq_ok hsend
    rw [hp] at hruns hf
    obtain rfl := hf.source_eq id
    refine ⟨_, hruns.snoc .sent, trails_resume ?_⟩
    rw [taken_of_none hticket]
    simp [ServeEvent.sentBy, SessionIdentity.stamp, SessionIdentity.envelope]
  | emitFailed _ hp =>
    obtain ⟨hticket, rfl⟩ := ht.eq_of_op hp fun _ _ => by simp
    rw [hp] at hruns hf
    obtain rfl := hf.source_eq id
    refine ⟨_, hruns.snoc (.unsent fun h => by cases h), trails_resume ?_⟩
    simp [ServeEvent.sentBy, taken_of_none hticket]
  | reserve _ hp _ hticket =>
    refine ⟨es, hf.runs hruns (Or.inr rfl), _, _, _, hp, ?_⟩
    unfold Trails at ht
    rw [hticket] at ht
    simpa [ServeEvent.sentBy, taken_of_none hticket] using ht
  | reserveFailed _ hp _ hticket =>
    refine ⟨exchanged, ht.request hp hf hruns (fun answer h => by cases h), trails_resume ?_⟩
    simp [ServeEvent.sentBy, taken_of_none hticket]
  | commit _ hp _ hticket =>
    refine ⟨es, hf.runs hruns (Or.inr rfl), _, _, _, hp, ?_⟩
    unfold Trails at ht
    rw [hticket] at ht
    obtain ⟨trace, payload, k, hp', rfl⟩ := ht
    cases hp.symm.trans hp'
    rw [taken_of_unanswered hticket (Or.inr (Or.inl rfl))]
    simp [ServeEvent.sentBy, SessionIdentity.stamp, SessionIdentity.envelope]
  | commitFailed _ hp _ hticket =>
    refine ⟨exchanged, ht.request hp hf hruns (fun answer h => by cases h), trails_resume ?_⟩
    simp [ServeEvent.sentBy, taken_of_unanswered hticket (Or.inr (Or.inl rfl))]
  | answer _ hp hpolled hticket =>
    unfold Trails at ht
    rw [hticket] at ht
    obtain ⟨trace, payload, k, hp', rfl⟩ := ht
    cases hp.symm.trans hp'
    rw [hp] at hruns hf
    obtain rfl := hf.source_eq id
    refine ⟨_, hruns.snoc .answered, trails_resume ?_⟩
    simp [ServeEvent.sentBy, taken, hticket, hpolled, resume]
  | disconnect _ hp _ hticket =>
    refine ⟨exchanged, ht.request hp hf hruns (fun answer h => by cases h), trails_resume ?_⟩
    simp [ServeEvent.sentBy, taken_of_unanswered hticket (Or.inr (Or.inr rfl))]

/-- A reply comes only from the loop. -/
private theorem Step.ticket_reply (hs : ContextCall.Step call s c e s' c') {t' : Ticket} {answer : Payload}
    (ht : c'.ticket = some t') (hreply : t'.reply = some answer) :
    ∃ t, c.ticket = some t ∧ t.reply = some answer := by
  cases hs with
  | poll => exact ⟨t', ht, hreply⟩
  | suspend => exact ⟨t', ht, hreply⟩
  | reserve =>
    cases ht
    cases hreply
  | commit _ _ _ hticket =>
    cases ht
    exact ⟨_, hticket, hreply⟩
  | _ => cases ht

/-- What a call takes is the reply in its ticket. -/
private theorem answered_of_taken {answer : Payload} (h : .answered answer ∈ c.taken c') :
    ∃ t, c.ticket = some t ∧ t.reply = some answer := by
  unfold taken at h
  split at h
  · rename_i hticket _
    split at h
    · cases List.mem_singleton.1 h
      exact ⟨_, hticket, rfl⟩
    · cases h
  · cases h

end ContextCall

namespace Storing

variable {context : ActionContext} {descriptor : ArtifactDescriptor} {source : Source} {s s' : Storing}
  {wire : List PluginEnvelope}

/-- The program that the call begins with. -/
def start (platform : Platform) (context : ActionContext) (descriptor : ArtifactDescriptor) :
    Program ContextOp ContextOp.Reply (Except SdkError Returned) :=
  ((Operation.storeArtifact descriptor).program platform context).run

/-- The reply has been handed to the call. -/
def Replied (h : List ServeEvent) (call : Nat) (answer : Payload) : Prop :=
  ∃ reply, .received reply (some call) ∈ h ∧ reply.payload = some answer

/-- Where the call is, and what it has exchanged. -/
structure Accounts (platform : Platform) (call : Nat) (context : ActionContext) (descriptor : ArtifactDescriptor)
    (source : Source) (wire : List PluginEnvelope) (h : List ServeEvent) (s : Storing) : Prop where
  running : ∀ c, s.session.calls call = some c → ∃ es,
    Runs Carries (source, []) (start platform context descriptor) (s.source, es) c.program ∧ c.Trails es s.exchanged
  stopped : ∃ source' q, Runs Carries (source, []) (start platform context descriptor) (source', s.exchanged) q
  tickets : ∀ c t answer, s.session.calls call = some c → c.ticket = some t → t.reply = some answer →
    Replied h call answer
  answers : ∀ answer, .answered answer ∈ s.exchanged → Replied h call answer
  sent : puts s.exchanged = sentBy call h
  wire : s.session.serve.link.wire = wire ++ h.filterMap ServeEvent.enqueued

private theorem Replied.mono {answer : Payload} (hr : Replied h call answer) (e : ServeEvent) :
    Replied (h ++ [e]) call answer := by
  obtain ⟨reply, hmem, hpayload⟩ := hr
  exact ⟨reply, List.mem_append_left _ hmem, hpayload⟩

private theorem puts_taken (c c' : ContextCall) : puts (c.taken c') = [] := by
  unfold ContextCall.taken
  split
  · split <;> rfl
  · rfl

private theorem exchanged_of_calls {x x' : Session} {c c' : ContextCall} (hc : x.calls call = some c)
    (hc' : x'.calls call = some c') : x.exchanged call e x' = ((e.sentBy call).map .put).toList ++ c.taken c' := by
  unfold Session.exchanged
  rw [hc, hc']

/-- A step in which the call does not go on. -/
private theorem exchanged_of_none {x x' : Session} (hsent : e.sentBy call = none)
    (hcalls : ∀ c c', x.calls call = some c → x'.calls call = some c' → c.taken c' = []) :
    x.exchanged call e x' = [] := by
  unfold Session.exchanged
  rw [hsent]
  cases hc : x.calls call with
  | none => rfl
  | some c =>
    cases hc' : x'.calls call with
    | none => rfl
    | some c' => exact hcalls c c' hc hc'

private theorem puts_exchanged (x : Session) (call : Nat) (e : ServeEvent) (x' : Session) :
    puts (x.exchanged call e x') = (e.sentBy call).toList := by
  unfold Session.exchanged
  rw [puts_append]
  have htaken : puts (match x.calls call, x'.calls call with
      | some c, some c' => c.taken c'
      | _, _ => []) = [] := by
    split
    · exact puts_taken ..
    · rfl
  rw [htaken, List.append_nil]
  cases e.sentBy call <;> rfl

private theorem Step.accounts (hs : Step platform call s e s')
    (ha : Accounts platform call context descriptor source wire h s) :
    Accounts platform call context descriptor source wire (h ++ [e]) s' := by
  have hsent : puts s'.exchanged = sentBy call (h ++ [e]) := by
    rw [hs.exchanged, puts_append, puts_exchanged, ha.sent, sentBy, sentBy, List.filterMap_append]
    cases he : e.sentBy call <;> simp [he]
  have hwire : s'.session.serve.link.wire = wire ++ (h ++ [e]).filterMap ServeEvent.enqueued := by
    rw [hs.step.serve.wire, ha.wire, List.filterMap_append, List.append_assoc]
    cases he : e.enqueued <;> simp [he]
  -- What has been exchanged stays as it is unless the call itself makes the step.
  have hkeep : s'.exchanged = s.exchanged →
      (∀ c', s'.session.calls call = some c' → ∃ c, s.session.calls call = some c ∧ c'.program = c.program ∧
        ∀ es, c.Trails es s.exchanged → c'.Trails es s.exchanged) →
      (∀ c t answer, s'.session.calls call = some c → c.ticket = some t → t.reply = some answer →
        Replied (h ++ [e]) call answer) → Accounts platform call context descriptor source wire (h ++ [e]) s' := by
    intro hexchanged hcalls htickets
    refine ⟨fun c' hc' => ?_, ?_, htickets, fun answer hanswer => ?_, hsent, hwire⟩
    · obtain ⟨c, hc, hprogram, htrails⟩ := hcalls c' hc'
      obtain ⟨es, hruns, htrail⟩ := ha.running c hc
      refine ⟨es, (hs.follows c c' hc hc').runs hruns (Or.inr hprogram), ?_⟩
      rw [hexchanged]
      exact htrails es htrail
    · rw [hexchanged]
      exact ha.stopped
    · rw [hexchanged] at hanswer
      exact (ha.answers answer hanswer).mono e
  cases hs.step.callStep call with
  | unchanged hcalls he =>
    have hnone : s.session.exchanged call e s'.session = [] := by
      refine exchanged_of_none he fun c c' hc hc' => ?_
      rw [hcalls, hc] at hc'
      cases hc'
      exact ContextCall.taken_of_ticket rfl
    refine hkeep (by rw [hs.exchanged, hnone, List.append_nil]) (fun c' hc' => ?_) fun c t answer hc ht hreply => ?_
    · exact ⟨c', hcalls ▸ hc', rfl, fun es ht => ht⟩
    · exact (ha.tickets c t answer (hcalls ▸ hc) ht hreply).mono e
  | @delivered c t reply answer he hpayload hc hticket hc' =>
    have hnone : s.session.exchanged call e s'.session = [] := by
      refine exchanged_of_none (by rw [he]; rfl) fun c₁ c₁' hc₁ hc₁' => ?_
      rw [hc'] at hc₁'
      cases hc₁'
      exact ContextCall.taken_of_some rfl
    refine hkeep (by rw [hs.exchanged, hnone, List.append_nil]) (fun c₁ hc₁ => ?_)
      fun c₁ t₁ answer₁ hc₁ ht₁ hreply => ?_
    · rw [hc'] at hc₁
      cases hc₁
      refine ⟨c, hc, rfl, fun es ht => ?_⟩
      unfold ContextCall.Trails at ht
      rw [hticket] at ht
      exact ht
    · rw [hc'] at hc₁
      cases hc₁
      cases ht₁
      cases hreply
      exact ⟨reply, List.mem_append_right _ (List.mem_singleton.2 he.symm), hpayload⟩
  | begun hnone hc' =>
    rw [hs.once hnone] at hc'
    cases hc'
  | @advanced c c' hc hc' hstep =>
    obtain ⟨es, hruns, htrail⟩ := ha.running c hc
    obtain ⟨es', hruns', htrail'⟩ := hstep.trails (hs.follows c c' hc hc') hruns htrail
    have hexchanged := hs.exchanged
    rw [exchanged_of_calls hc hc'] at hexchanged
    rw [← hexchanged] at htrail'
    refine ⟨fun c₁ hc₁ => ?_, htrail'.runs hruns', fun c₁ t answer hc₁ ht hreply => ?_,
      fun answer hanswer => ?_, hsent, hwire⟩
    · rw [hc'] at hc₁
      cases hc₁
      exact ⟨es', hruns', htrail'⟩
    · rw [hc'] at hc₁
      cases hc₁
      obtain ⟨t₀, ht₀, hreply₀⟩ := hstep.ticket_reply ht hreply
      exact (ha.tickets c t₀ answer hc ht₀ hreply₀).mono e
    · rw [hexchanged, List.mem_append, List.mem_append] at hanswer
      rcases hanswer with hold | hput | htaken
      · exact (ha.answers answer hold).mono e
      · cases he : e.sentBy call <;> simp [he] at hput
      · obtain ⟨t, ht, hreply⟩ := ContextCall.answered_of_taken htaken
        exact (ha.tickets c t answer hc ht hreply).mono e
  | @gone c hc hnone he =>
    have hexchanged : s.session.exchanged call e s'.session = [] := by
      refine exchanged_of_none he fun c₁ c₁' _ hc₁' => ?_
      rw [hnone] at hc₁'
      cases hc₁'
    refine hkeep (by rw [hs.exchanged, hexchanged, List.append_nil]) (fun c' hc' => ?_) fun c t answer hc' => ?_
    · rw [hnone] at hc'
      cases hc'
    · rw [hnone] at hc'
      cases hc'

private theorem Accounts.outcome (ha : Accounts platform call context descriptor source wire h s) :
    s.exchanged = wholeExchange context.jobId descriptor
        (artifactPieces context.host.maximumArtifactChunkBytes source.unread) ∨
      Short (wholeExchange context.jobId descriptor
        (artifactPieces context.host.maximumArtifactChunkBytes source.unread)) s.exchanged := by
  obtain ⟨_, q, hruns⟩ := ha.stopped
  rcases storeArtifact_runs hruns with ⟨-, hwhole⟩ | ⟨-, hshort⟩
  · exact Or.inl hwhole
  · exact Or.inr hshort

private theorem accounts_run (hr : Steps (Step platform call) s h s')
    (h0 : Accounts platform call context descriptor source wire [] s) :
    Accounts platform call context descriptor source wire h s' :=
  Steps.history h0 (fun _ _ _ _ _ hs ha => hs.accounts ha) hr

/-- The first thing that is exchanged is the start, the second one its acceptance. -/
private theorem accepted_of_chunk {jobId : String} {pieces : List (List UInt8)} {before : List Exchange}
    {chunk : ArtifactTransferChunk}
    (h : before ++ [.put (.artifactChunk chunk)] <+: wholeExchange jobId descriptor pieces) :
    .answered (.artifactAccepted ⟨descriptor.artifactId⟩) ∈ before := by
  unfold wholeExchange at h
  rcases before with _ | ⟨first, _ | ⟨second, before⟩⟩
  · obtain ⟨rest, hrest⟩ := h
    cases hrest
  · obtain ⟨rest, hrest⟩ := h
    simp at hrest
  · obtain ⟨rest, hrest⟩ := h
    simp only [List.cons_append, List.cons.injEq] at hrest
    rw [hrest.2.1]
    simp

/-- Whatever the other calls do, and wherever the call is stopped: what it has put on the wire is a prefix of the
stream of the artifact, whose chunks make up the bytes of the source and have the length of the limit, except for
the last one.  No chunk comes before the host has accepted the transfer, and the call succeeds if and only if it has
exchanged the whole stream.  On the way the counter of the remaining bytes is exact, and `0` once all chunks have
been sent. -/
theorem artifact_streamed {actor : Actor} {x : Session} (hlimit : 1 ≤ context.host.maximumArtifactChunkBytes)
    (hbegun : x.calls call = some ⟨actor, context, start platform context descriptor, false, none⟩)
    (hr : Steps (Step platform call) ⟨x, source, []⟩ h s) :
    (∀ pieces chunkBytes, pieces = artifactPieces context.host.maximumArtifactChunkBytes source.unread →
      chunkBytes = min context.host.maximumArtifactChunkBytes artifactIoBufferBytes →
      pieces.flatten = source.unread ∧ (∀ c ∈ pieces, c ≠ [] ∧ c.length ≤ chunkBytes) ∧
      (∀ c ∈ pieces.dropLast, c.length = chunkBytes) ∧
      sentBy call h <+: artifactStream context.jobId descriptor pieces ∧
      (∀ c result, s.session.calls call = some c → c.program = .pure result →
        ((∃ returned, result = .ok returned) ↔ s.exchanged = wholeExchange context.jobId descriptor pieces)) ∧
      ∀ artifactId es es' source' q,
        Runs Carries (source, es) (context.sendChunks artifactId chunkBytes pieces.length 0 source.unread.length).run
          (source', es') q →
        ∃ i rest, InIteration context artifactId chunkBytes pieces.length 0 source.unread es es' source' q i rest) ∧
    s.session.serve.link.wire = x.serve.link.wire ++ h.filterMap ServeEvent.enqueued ∧
    sentBy call h = puts s.exchanged ∧
    (∀ answer, .answered answer ∈ s.exchanged → Replied h call answer) ∧
    ∀ h₁ actor' envelope h₂ chunk, h = h₁ ++ .emitted actor' call envelope :: h₂ →
      envelope.payload = some (.artifactChunk chunk) →
      Replied h₁ call (.artifactAccepted ⟨descriptor.artifactId⟩) := by
  have h0 : Accounts platform call context descriptor source x.serve.link.wire [] ⟨x, source, []⟩ := by
    refine ⟨fun c hc => ?_, ⟨source, _, .refl⟩, fun c t answer hc ht => ?_, fun answer hanswer => ?_, rfl, by simp⟩
    · rw [hbegun] at hc
      cases hc
      exact ⟨[], .refl, rfl⟩
    · rw [hbegun] at hc
      cases hc
      cases ht
    · cases hanswer
  have ha := accounts_run hr h0
  have hpos : 0 < min context.host.maximumArtifactChunkBytes artifactIoBufferBytes := by
    unfold artifactIoBufferBytes
    omega
  refine ⟨?_, ha.wire, ha.sent.symm, ha.answers, ?_⟩
  · rintro pieces chunkBytes rfl rfl
    refine ⟨flatten_cut hpos _, fun c hc => mem_cut hpos hc, fun c hc => mem_dropLast_cut hpos hc, ?_, ?_, ?_⟩
    · rw [← ha.sent, ← puts_wholeExchange]
      rcases ha.outcome with hwhole | hshort
      · rw [hwhole]
      · exact hshort.puts_prefix
    · intro c result hc hp
      obtain ⟨es, hruns, htrail⟩ := ha.running c hc
      have hes : s.exchanged = es := by
        unfold ContextCall.Trails at htrail
        cases hticket : c.ticket with
        | none =>
          rw [hticket] at htrail
          exact htrail
        | some t =>
          rw [hticket] at htrail
          obtain ⟨_, _, _, hp', -⟩ := htrail
          cases hp.symm.trans hp'
      rw [hp] at hruns
      rw [hes]
      rcases storeArtifact_runs hruns with ⟨⟨returned, hreturned⟩, hwhole⟩ | ⟨hfailed, hshort⟩
      · exact ⟨fun _ => hwhole, fun _ => ⟨returned, Program.pure.inj hreturned⟩⟩
      · constructor
        · rintro ⟨returned, rfl⟩
          exact absurd rfl (hfailed returned)
        · intro hwhole
          exact absurd hwhole hshort.ne
    · intro artifactId es es' source' q hruns
      refine sendChunks_runs ?_ hruns
      rw [artifactPieces, length_cut]
      exact covers_number hpos _
  · rintro h₁ actor' envelope h₂ chunk rfl hpayload
    obtain ⟨t, t', ht, hs, -⟩ := hr.split
    have hbefore := accounts_run ht h0
    have hafter := hs.accounts hbefore
    have hput : t'.exchanged = t.exchanged ++ .put (.artifactChunk chunk) ::
        (match t.session.calls call, t'.session.calls call with
        | some c, some c' => c.taken c'
        | _, _ => []) := by
      rw [hs.exchanged]
      unfold Session.exchanged
      rw [show ServeEvent.sentBy call (.emitted actor' call envelope) = _ from (if_pos rfl).trans hpayload]
      rfl
    have hprefix : t.exchanged ++ [.put (.artifactChunk chunk)] <+: wholeExchange context.jobId descriptor
        (artifactPieces context.host.maximumArtifactChunkBytes source.unread) := by
      rcases hafter.outcome with hwhole | hshort
      · rw [← hwhole, hput]
        exact ⟨_, List.append_assoc ..⟩
      · exact hshort.put_prefix hput
    exact hbefore.answers _ (accepted_of_chunk hprefix)

/-! ### A transfer in two chunks -/

open Serve (sampleJobId sampleReply sampleReply_valid)
open Session (sampleAction sampleAction_canAct sampleArtifact sampleContext sampleDescriptor sampleDescriptor_valid
  samplePlatform sampleRunning sampleStoring)

variable {P : Storing → Prop}

private theorem Step.of_session {x y : Session} {c c' : ContextCall} {source' : Source} {es : List Exchange}
    (hs : Session.Step platform (x.setCall call (some c)) e (y.setCall call (some c')))
    (hf : source.Follows c.program c'.program source') :
    Step platform call ⟨x.setCall call (some c), source, es⟩ e ⟨y.setCall call (some c'), source',
      es ++ (((e.sentBy call).map .put).toList ++ c.taken c')⟩ := by
  have hc : (x.setCall call (some c)).calls call = some c := Function.update_self ..
  have hc' : (y.setCall call (some c')).calls call = some c' := Function.update_self ..
  refine ⟨hs, fun hnone => ?_, fun c₁ c₁' hc₁ hc₁' => ?_, ?_⟩
  · rw [hc] at hnone
    cases hnone
  · rw [hc] at hc₁
    rw [hc'] at hc₁'
    cases hc₁
    cases hc₁'
    exact hf
  · rw [exchanged_of_calls hc hc']

private theorem Step.of_link {x : Session} {c c' : ContextCall} {serve : Serve} {source' : Source}
    {es : List Exchange} (hs : ContextCall.Step call x.serve c e serve c')
    (hf : source.Follows c.program c'.program source') :
    Step platform call ⟨x.setCall call (some c), source, es⟩ e
      ⟨{ x with serve }.setCall call (some c'), source',
        es ++ (((e.sentBy call).map .put).toList ++ c.taken c')⟩ :=
  .of_session (.of_link hs) hf

private theorem io_steps {x : Session} {c : ContextCall} {o : ContextOp} {k : o.Reply → _} {es : List Exchange}
    {rest : List ServeEvent} {source' : Source} (r : o.Reply) (hact : x.serve.CanAct c.actor)
    (hp : c.program = .op o k) (hpolled : c.polled = false) (hactive : c.IsActive x.serve)
    (hraced : o.cancelled.isSome) (hr : o.Io r) (hyields : source.Yields o r source')
    (hrest : ∀ es', ∃ u,
      Steps (Step platform call) ⟨x.setCall call (some (c.resume (k r))), source', es'⟩ rest u ∧ P u) :
    ∃ u, Steps (Step platform call) ⟨x.setCall call (some c), source, es⟩
      (.internal c.actor call :: .internal c.actor call :: rest) u ∧ P u := by
  refine Steps.exists_cons_and (.of_link (.poll hact hp hraced hpolled hactive) .idle) ?_
  refine Steps.exists_cons_and (.of_link (.io hact hp rfl hr) ?_) (hrest _)
  change source.Follows c.program (k r) source'
  rw [hp]
  exact .yields hyields

private theorem request_steps {x : Session} {c : ContextCall} {id : Nat} {trace : TraceContext}
    {payload answer : Payload} {k : Selected (Except SdkError Payload) → _} {link : HostLink}
    {reply : PluginEnvelope} {session : SessionState} {es : List Exchange} {rest : List ServeEvent}
    (hact : x.serve.CanAct c.actor) (hp : c.program = .op (.request trace payload) k) (hpolled : c.polled = false)
    (hticket : c.ticket = none) (hactive : c.IsActive x.serve) (hloop : x.serve.loop = .head)
    (hreserved : x.serve.link.reserved = none)
    (hreserve : x.serve.link.reserve call ⟨none, trace, payload⟩ = (link, .ok id))
    (hclosed : x.serve.link.closed = false) (hroom : x.serve.link.HasRoom)
    (hvalid : validateEnvelope reply x.serve.session = .ok (trace, session)) (hreply : reply.replyTo = some id)
    (hpayload : reply.payload = some answer) (hcheck : Serve.checkReply answer = .ok ())
    (hrest : ∀ es', ∃ u, Steps (Step platform call)
      ⟨({ x with
        serve :=
          { x.serve with
            session
            link :=
              { x.serve.link with
                sender := ⟨id + 1⟩
                reserved := none
                pending := HostClient.unregister (x.serve.link.pending.insert id ⟨trace, call⟩) id
                wire := x.serve.link.wire ++ [x.serve.link.identity.stamp id ⟨none, trace, payload⟩] } } }.setCall
        call (some (c.resume (k (Selected.ready (HostClient.received answer)))))), source, es'⟩ rest u ∧ P u) :
    ∃ u, Steps (Step platform call) ⟨x.setCall call (some c), source, es⟩
      (.internal c.actor call :: .reserved c.actor call id ::
        .emitted c.actor call (x.serve.link.identity.stamp id ⟨none, trace, payload⟩) ::
        .received reply (some call) :: .internal c.actor call :: rest) u ∧ P u := by
  obtain ⟨-, rfl⟩ := HostLink.reserve_eq_ok hreserve
  refine Steps.exists_cons_and (.of_link (.poll hact hp rfl hpolled hactive) .idle) ?_
  refine Steps.exists_cons_and (.of_link (.reserve hact hp rfl hticket hreserved hreserve) .idle) ?_
  refine Steps.exists_cons_and (.of_link (.commit hact hp rfl rfl rfl hclosed hroom) .idle) ?_
  refine Steps.exists_cons_and (.of_session
    (.of_reply (.of_process hloop (Serve.process_of_reply hvalid hreply hpayload hcheck (AList.lookup_insert _))) rfl
    hreply hpayload) .idle) ?_
  refine Steps.exists_cons_and (.of_link (.answer hact hp rfl rfl) ?_) (hrest _)
  change source.Follows c.program (k _) source
  rw [hp]
  exact .other fun h => h

/-- The source of the sample artifact; the call begins at its second byte. -/
def sampleSource : Source := ⟨[0, 1, 2, 3], 1⟩

/-- What the call does from its beginning until it has the artifact. -/
def sampleTransferred : List ServeEvent := (sampleStoring.drop 1).dropLast

private theorem sampleTransferred_steps : ∃ u,
    Steps (Step samplePlatform 0) ⟨sampleRunning.setCall 0 (some
      ⟨sampleAction, sampleContext, start samplePlatform sampleContext sampleDescriptor, false, none⟩),
      sampleSource, []⟩ sampleTransferred u ∧
    ∃ c, u.session.calls 0 = some c ∧ c.program = .pure (.ok (.stored sampleArtifact)) := by
  have hact := sampleAction_canAct
  have hprogram : start samplePlatform sampleContext sampleDescriptor = _ :=
    congrArg (fun p => ExceptT.run (p >>= fun artifact => pure (Returned.stored artifact)))
      (ActionContext.storeArtifact_of_valid sampleDescriptor_valid)
  rw [hprogram]
  refine Steps.exists_cons_and (.of_link (.ensureActive_of_active hact rfl rfl) (.other id)) ?_
  -- the pass over the source that checks it
  refine @io_steps _ _ _ _ _ _ .streamPosition _ _ _ _ (Selected.ready (.ok 1)) hact rfl rfl rfl rfl
    ⟨_, rfl⟩ .position fun _ => ?_
  refine @io_steps _ _ _ _ _ _ (.read artifactIoBufferBytes) _ _ _ _
    (Selected.ready (.ok [1, 2, 3])) hact rfl rfl rfl rfl ⟨_, rfl, by simp [artifactIoBufferBytes]⟩
    (.read (by simp) (by decide) (by decide)) fun _ => ?_
  refine @io_steps _ _ _ _ _ _ (.read artifactIoBufferBytes) _ _ _ _ (Selected.ready (.ok [])) hact rfl rfl rfl rfl
    ⟨_, rfl, by simp⟩ (.endOfFile rfl) fun _ => ?_
  refine @io_steps _ _ _ _ _ _ (.seekStart 1) _ _ _ _ (Selected.ready (.ok 1)) hact rfl rfl rfl rfl ⟨_, rfl⟩ .seek
    fun _ => ?_
  refine Steps.exists_cons_and (.of_link (.ensureActive_of_active hact rfl rfl) (.other id)) ?_
  refine Steps.exists_cons_and (.of_link (.ensureActive_of_active hact rfl rfl) (.other id)) ?_
  refine request_steps hact rfl rfl rfl rfl rfl rfl rfl rfl (by decide)
    (@sampleReply_valid _ 3 4 _ _ rfl (by decide)) rfl rfl rfl fun _ => ?_
  -- two bytes fit into a chunk
  refine Steps.exists_cons_and (.of_link (.ensureActive_of_active hact rfl rfl) (.other id)) ?_
  refine @io_steps _ _ _ _ _ _ (.readExact 2) _ _ _ _ (Selected.ready (.ok [1, 2])) hact rfl rfl rfl rfl
    ⟨_, rfl, by simp⟩ (.readExact (by decide)) fun _ => ?_
  refine Steps.exists_cons_and (.of_link (.poll hact rfl rfl rfl rfl) .idle) ?_
  refine Steps.exists_cons_and (.of_link (.emit hact rfl rfl rfl (by decide) rfl) (.other id)) ?_
  refine Steps.exists_cons_and (.of_link (.ensureActive_of_active hact rfl rfl) (.other id)) ?_
  refine @io_steps _ _ _ _ _ _ (.readExact 1) _ _ _ _ (Selected.ready (.ok [3])) hact rfl rfl rfl rfl
    ⟨_, rfl, by simp⟩ (.readExact (by decide)) fun _ => ?_
  refine Steps.exists_cons_and (.of_link (.poll hact rfl rfl rfl rfl) .idle) ?_
  refine Steps.exists_cons_and (.of_link (.emit hact rfl rfl rfl (by decide) rfl) (.other id)) ?_
  refine Steps.exists_cons_and (.of_link (.ensureActive_of_active hact rfl rfl) (.other id)) ?_
  refine request_steps hact rfl rfl rfl rfl rfl rfl rfl rfl (by decide)
    (@sampleReply_valid _ 4 5 _ _ rfl (by decide)) rfl rfl rfl fun _ => ?_
  exact ⟨_, .nil, _, Session.calls_setCall_self .., rfl⟩

/-- The source of three bytes goes over in two chunks, and the call is told that they are stored. -/
theorem artifact_streamed_sampleTransferred : ∃ u,
    Steps (Step samplePlatform 0) ⟨sampleRunning.setCall 0 (some
      ⟨sampleAction, sampleContext, start samplePlatform sampleContext sampleDescriptor, false, none⟩),
      sampleSource, []⟩ sampleTransferred u ∧
    sentBy 0 sampleTransferred = artifactStream sampleJobId sampleDescriptor [[1, 2], [3]] ∧
    u.exchanged = wholeExchange sampleJobId sampleDescriptor [[1, 2], [3]] := by
  obtain ⟨u, hu, c, hc, hp⟩ := sampleTransferred_steps
  obtain ⟨-, -, -, -, hok, -⟩ := (artifact_streamed (by decide) rfl hu).1 [[1, 2], [3]] _ (by decide) rfl
  exact ⟨u, hu, rfl, (hok c _ hc hp).1 ⟨_, rfl⟩⟩

end Storing

end PluginSdk
