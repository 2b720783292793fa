import PluginSdk.Conformance
import PluginSdk.Source

/-!
# What a session admits

The waiters in the routing table are the requests that have been asked and not replied to (`Session.routing`), so the
host can tell from the envelopes which replies are owed.  A session takes exactly the envelopes of a conforming host
(`Session.admission`).
-/

namespace PluginSdk

open Lts Program

variable {platform : Platform} {context : ActionContext}

/-! ### What asks for a reply -/

/-- What is requested asks for a reply, and what is only sent does not. -/
def ContextOp.Asking : ContextOp → Prop
  | .send _ payload => ¬ payload.Asks
  | .request _ payload => payload.Asks
  | _ => True

private theorem ensureActive_asking : ContextProgram.ensureActive.run.All ContextOp.Asking :=
  ⟨trivial, fun _ => trivial⟩

private theorem request_asking {payload : Payload} (hp : payload.Asks) :
    (context.request payload).run.All ContextOp.Asking :=
  ensureActive_asking.except_bind fun _ => ⟨hp, fun _ => trivial⟩

private theorem hostCall_asking (call : HostCall) : (context.hostCall call).run.All ContextOp.Asking := by
  refine ensureActive_asking.except_bind fun _ => ContextProgram.lift_bind_all fun kind _ => ?_
  refine ContextProgram.lift_bind_all fun trace _ => All.except_bind ⟨trivial, fun _ => trivial⟩ fun payload => ?_
  exact ContextProgram.lift_bind_all fun _ _ => ContextProgram.lift_bind_all fun _ _ => trivial

private theorem log_asking (level : LogLevel) (target message : String) (fields : List (String × ConfigValue)) :
    (context.log level target message fields).run.All ContextOp.Asking := by
  refine ensureActive_asking.except_bind fun _ => ?_
  split
  · trivial
  · split
    · trivial
    · refine ContextProgram.lift_bind_all fun _ _ => All.except_bind ⟨trivial, fun _ => trivial⟩ fun timestamp => ?_
      split
      · exact ⟨id, fun _ => trivial⟩
      · trivial

/-- What a source serves asks nothing of the host. -/
private theorem validateSource_asking (descriptor : ArtifactDescriptor) :
    (validateSource platform descriptor).run.All ContextOp.Asking := by
  refine validateSource_serves.imp fun o ho => ?_
  cases o <;> trivial

private theorem sendChunks_asking (artifactId : PluginArtifactId) (chunkBytes chunks index remaining : Nat) :
    (context.sendChunks artifactId chunkBytes chunks index remaining).run.All ContextOp.Asking := by
  induction chunks generalizing index remaining with
  | zero => trivial
  | succ chunks ih =>
    refine ensureActive_asking.except_bind fun _ => All.except_bind ⟨trivial, fun _ => trivial⟩ fun data => ?_
    exact All.except_bind ⟨id, fun _ => trivial⟩ fun _ => ih _ _

private theorem transfer_asking (descriptor : ArtifactDescriptor) (artifactId : PluginArtifactId) :
    (context.transfer platform descriptor artifactId).run.All ContextOp.Asking := by
  refine ensureActive_asking.except_bind fun _ => ContextProgram.lift_bind_all fun plan _ => ?_
  refine All.except_bind (request_asking trivial) fun start => ?_
  split
  · refine (sendChunks_asking ..).except_bind fun _ => All.except_bind (request_asking trivial) fun complete => ?_
    split <;> trivial
  · trivial

private theorem Operation.program_asking (operation : Operation) :
    (operation.program platform context).run.All ContextOp.Asking := by
  cases operation with
  | hostCall call => exact (hostCall_asking call).except_bind fun _ => trivial
  | getConfig path =>
    refine All.except_bind ((hostCall_asking _).except_bind fun response => ?_) fun _ => trivial
    split <;> trivial
  | invokeConfigFunction function arguments =>
    refine All.except_bind ((hostCall_asking _).except_bind fun response => ?_) fun _ => trivial
    split <;> trivial
  | log level target message fields => exact (log_asking level target message fields).except_bind fun _ => trivial
  | storeArtifact descriptor =>
    refine All.except_bind (ensureActive_asking.except_bind fun _ => ?_) fun _ => trivial
    split
    · trivial
    · exact (validateSource_asking _).except_bind fun _ => (transfer_asking ..).except_bind fun _ => trivial

private theorem Payload.OfLoop.not_asks {payload : Payload} (hp : payload.OfLoop) : ¬ payload.Asks := by
  cases payload <;> first | exact id | exact hp.elim

/-! ### Requests and their waiters -/

namespace HostLink

/-- A request for a reply holds the lock, or is on the wire. -/
def Asking (l : HostLink) (id : Nat) (trace : TraceContext) : Prop :=
  (∃ r, l.reserved = some r ∧ r.id = id ∧ r.outgoing.trace = trace) ∨
    ∃ envelope ∈ l.wire, envelope.messageId = id ∧ envelope.Asks trace

/-- What a step of a session does to the link, in terms of what it asks of the host and what it takes from it. -/
inductive Traffic (l : HostLink) : ServeEvent → HostLink → Prop
  | quiet {e : ServeEvent} {l' : HostLink} : e.inbound = none → l'.pending = l.pending → l'.reserved = l.reserved →
      l'.wire = l.wire → l.sender.nextMessageId ≤ l'.sender.nextMessageId → Traffic l e l'
  | told {e : ServeEvent} {o : Outgoing} : e.inbound = none → ¬ o.payload.Asks →
      Traffic l e { l with
        sender := ⟨l.sender.nextMessageId + 1⟩
        wire := l.wire ++ [l.identity.stamp l.sender.nextMessageId o] }
  | reserved {e : ServeEvent} {call : Nat} {o : Outgoing} : e.inbound = none → o.payload.Asks → l.reserved = none →
      Traffic l e { l with
        sender := ⟨l.sender.nextMessageId + 1⟩
        pending := l.pending.insert l.sender.nextMessageId ⟨o.trace, call⟩
        reserved := some ⟨call, l.sender.nextMessageId, o⟩ }
  | committed {e : ServeEvent} {r : Reservation} : e.inbound = none → l.reserved = some r → Traffic l e (l.commit r)
  | released {e : ServeEvent} {r : Reservation} : e.inbound = none → l.reserved = some r → Traffic l e (l.release r)
  | requested {envelope : PluginEnvelope} {call : Option Nat} : envelope.replyTo = none →
      Traffic l (.received envelope call) l
  | replied {envelope : PluginEnvelope} {replyTo call : Nat} {trace : TraceContext} :
      envelope.replyTo = some replyTo → l.pending.lookup replyTo = some ⟨trace, call⟩ →
      Traffic l (.received envelope (some call)) { l with pending := l.pending.erase replyTo }

/-- A waiter is registered exactly for each request that has no reply yet. -/
structure Routing (h : List ServeEvent) (l : HostLink) : Prop where
  asks : ∀ r, l.reserved = some r → r.outgoing.payload.Asks
  waits : ∀ id trace, (∃ call, l.pending.lookup id = some ⟨trace, call⟩) ↔
    l.Asking id trace ∧ ∀ r ∈ inbound h, r.replyTo ≠ some id
  fresh : ∀ r ∈ inbound h, ∀ id, r.replyTo = some id → id < l.sender.nextMessageId

variable {l l' : HostLink} {e : ServeEvent} {h : List ServeEvent} {id : Nat} {trace : TraceContext}

private theorem Sound.asking_lt (hl : l.Sound) (ha : l.Asking id trace) : id < l.sender.nextMessageId := by
  rcases ha with ⟨r, hr, rfl, -⟩ | ⟨envelope, henv, rfl, -⟩
  · exact (hl.reserved r hr).1
  · exact hl.lt envelope henv

private theorem le_of_fst_eq {α : Type} {n : Nat} {r : HostLink × α} {a : α} (hle : n ≤ r.1.sender.nextMessageId)
    (hr : r = (l', a)) : n ≤ l'.sender.nextMessageId := by
  rwa [hr] at hle

private theorem inbound_snoc_of_none (he : e.inbound = none) : inbound (h ++ [e]) = inbound h := by
  rw [inbound_snoc, he, Option.toList_none, List.append_nil]

namespace Routing

/-- A step that takes nothing from the host. -/
private theorem of_none (hr : Routing h l) (he : e.inbound = none)
    (hasks : ∀ r, l'.reserved = some r → r.outgoing.payload.Asks)
    (hle : l.sender.nextMessageId ≤ l'.sender.nextMessageId)
    (hwaits : ∀ id trace, (∃ call, l'.pending.lookup id = some ⟨trace, call⟩) ↔
      l'.Asking id trace ∧ ∀ r ∈ inbound h, r.replyTo ≠ some id) : Routing (h ++ [e]) l' := by
  have hin : inbound (h ++ [e]) = inbound h := inbound_snoc_of_none he
  refine ⟨hasks, fun id trace => ?_, fun r hmem id hid => ?_⟩
  · rw [hin]
    exact hwaits id trace
  · rw [hin] at hmem
    exact (hr.fresh r hmem id hid).trans_le hle

private theorem quiet (hr : Routing h l) (he : e.inbound = none) (hpending : l'.pending = l.pending)
    (hreserved : l'.reserved = l.reserved) (hwire : l'.wire = l.wire)
    (hle : l.sender.nextMessageId ≤ l'.sender.nextMessageId) : Routing (h ++ [e]) l' := by
  refine hr.of_none he (fun r h => hr.asks r (hreserved ▸ h)) hle fun id trace => ?_
  have hasking : l'.Asking id trace ↔ l.Asking id trace := by
    unfold Asking
    rw [hreserved, hwire]
  rw [hpending, hasking]
  exact hr.waits id trace

private theorem told {o : Outgoing} (hr : Routing h l) (he : e.inbound = none) (ho : ¬ o.payload.Asks) :
    Routing (h ++ [e]) { l with
      sender := ⟨l.sender.nextMessageId + 1⟩
      wire := l.wire ++ [l.identity.stamp l.sender.nextMessageId o] } := by
  refine hr.of_none he hr.asks (Nat.le_succ _) fun id trace => ?_
  rw [hr.waits id trace]
  refine and_congr_left fun _ => or_congr_right ?_
  simp only [List.mem_append, List.mem_singleton]
  constructor
  · rintro ⟨envelope, henv, hask⟩
    exact ⟨envelope, Or.inl henv, hask⟩
  · rintro ⟨envelope, henv | rfl, hask⟩
    · exact ⟨envelope, henv, hask⟩
    · obtain ⟨-, -, p, hp, hp'⟩ := hask
      cases hp
      exact absurd hp' ho

private theorem reserve {call : Nat} {o : Outgoing} (hr : Routing h l) (hl : l.Sound) (he : e.inbound = none)
    (ho : o.payload.Asks) (hfree : l.reserved = none) : Routing (h ++ [e]) { l with
      sender := ⟨l.sender.nextMessageId + 1⟩
      pending := l.pending.insert l.sender.nextMessageId ⟨o.trace, call⟩
      reserved := some ⟨call, l.sender.nextMessageId, o⟩ } := by
  refine hr.of_none he (fun r h => by cases h; exact ho) (Nat.le_succ _) fun id trace => ?_
  by_cases hid : id = l.sender.nextMessageId
  · subst hid
    -- the ID is fresh: it is on no envelope, and nothing has replied to it
    have hwire : ¬ ∃ envelope ∈ l.wire, envelope.messageId = l.sender.nextMessageId ∧ envelope.Asks trace := by
      rintro ⟨envelope, henv, heq, -⟩
      exact absurd (hl.lt envelope henv) (by omega)
    have hnew : ∀ r ∈ inbound h, r.replyTo ≠ some l.sender.nextMessageId :=
      fun r hmem heq => absurd (hr.fresh r hmem _ heq) (lt_irrefl _)
    rw [AList.lookup_insert]
    constructor
    · rintro ⟨call, heq⟩
      cases heq
      exact ⟨Or.inl ⟨_, rfl, rfl, rfl⟩, hnew⟩
    · rintro ⟨⟨r, hr, -, htrace⟩ | hask, -⟩
      · cases hr
        exact ⟨call, by rw [← htrace]⟩
      · exact absurd hask hwire
  · rw [AList.lookup_insert_ne hid, hr.waits id trace]
    refine and_congr_left fun _ => ?_
    constructor
    · rintro (⟨r, hr, -⟩ | hask)
      · rw [hfree] at hr
        cases hr
      · exact Or.inr hask
    · rintro (⟨r, hr, heq, -⟩ | hask)
      · cases hr
        exact absurd heq.symm hid
      · exact Or.inr hask

private theorem commit {r : Reservation} (hr : Routing h l) (he : e.inbound = none)
    (hreserved : l.reserved = some r) : Routing (h ++ [e]) (l.commit r) := by
  refine hr.of_none he (fun r h => (by cases h)) le_rfl fun id trace => ?_
  refine (hr.waits id trace).trans (and_congr_left fun _ => ?_)
  constructor
  · rintro (⟨r', hr', rfl, rfl⟩ | ⟨envelope, henv, hask⟩)
    · cases hreserved.symm.trans hr'
      exact Or.inr ⟨_, List.mem_append_right _ (List.mem_singleton_self _), rfl, rfl, _, rfl, hr.asks r hreserved⟩
    · exact Or.inr ⟨envelope, List.mem_append_left _ henv, hask⟩
  · rintro (⟨r', hr', -⟩ | ⟨envelope, henv, heq, hask⟩)
    · cases hr'
    · rcases List.mem_append.1 henv with henv | henv
      · exact Or.inr ⟨envelope, henv, heq, hask⟩
      · rw [List.mem_singleton.1 henv] at heq hask
        exact Or.inl ⟨r, hreserved, heq, Option.some.inj hask.1⟩

private theorem release {r : Reservation} (hr : Routing h l) (hl : l.Sound) (he : e.inbound = none)
    (hreserved : l.reserved = some r) : Routing (h ++ [e]) (l.release r) := by
  refine hr.of_none he (fun r h => (by cases h)) le_rfl fun id trace => ?_
  by_cases hid : id = r.id
  · subst hid
    -- the ID was never on the wire, so nothing asks under it any more
    have hwire : ¬ ∃ envelope ∈ l.wire, envelope.messageId = r.id ∧ envelope.Asks trace := by
      rintro ⟨envelope, henv, heq, -⟩
      exact absurd ((hl.reserved r hreserved).2 envelope henv) (by omega)
    refine iff_of_false ?_ ?_
    · rintro ⟨call, heq⟩
      have hnone : (l.release r).pending.lookup r.id = none := AList.lookup_erase ..
      rw [hnone] at heq
      cases heq
    · rintro ⟨⟨r', hr', -⟩ | hask, -⟩
      · cases hr'
      · exact hwire hask
  · have hlookup : (l.release r).pending.lookup id = l.pending.lookup id := AList.lookup_erase_ne hid
    rw [hlookup, hr.waits id trace]
    refine and_congr_left fun _ => ?_
    constructor
    · rintro (⟨r', hr', heq, -⟩ | hask)
      · cases hreserved.symm.trans hr'
        exact absurd heq.symm hid
      · exact Or.inr hask
    · rintro (⟨r', hr', -⟩ | hask)
      · cases hr'
      · exact Or.inr hask

private theorem request {envelope : PluginEnvelope} {call : Option Nat} (hr : Routing h l)
    (hnone : envelope.replyTo = none) : Routing (h ++ [.received envelope call]) l := by
  have hin : inbound (h ++ [.received envelope call]) = inbound h ++ [envelope] := inbound_snoc ..
  refine ⟨hr.asks, fun id trace => ?_, fun r hmem id hid => ?_⟩
  · rw [hin, hr.waits id trace, List.forall_mem_append, List.forall_mem_singleton, hnone]
    simp
  · rw [hin] at hmem
    rcases List.mem_append.1 hmem with hmem | hmem
    · exact hr.fresh r hmem id hid
    · rw [List.mem_singleton.1 hmem, hnone] at hid
      cases hid

private theorem reply {envelope : PluginEnvelope} {replyTo call : Nat} {trace : TraceContext}
    (hr : Routing h l) (hl : l.Sound) (hreply : envelope.replyTo = some replyTo)
    (hlookup : l.pending.lookup replyTo = some ⟨trace, call⟩) :
    Routing (h ++ [.received envelope (some call)]) { l with pending := l.pending.erase replyTo } := by
  have hin : inbound (h ++ [.received envelope (some call)]) = inbound h ++ [envelope] := inbound_snoc ..
  refine ⟨hr.asks, fun id trace' => ?_, fun r hmem id hid => ?_⟩
  · rw [hin, List.forall_mem_append, List.forall_mem_singleton, hreply]
    by_cases hid : id = replyTo
    · subst hid
      rw [AList.lookup_erase]
      simp
    · rw [AList.lookup_erase_ne hid, hr.waits id trace']
      simp only [ne_eq, Option.some.injEq, Ne.symm hid, not_false_eq_true, and_true]
      exact Iff.rfl
  · rw [hin] at hmem
    rcases List.mem_append.1 hmem with hmem | hmem
    · exact hr.fresh r hmem id hid
    · rw [List.mem_singleton.1 hmem, hreply] at hid
      cases hid
      exact hl.asking_lt ((hr.waits replyTo trace).1 ⟨call, hlookup⟩).1

end Routing

private theorem Traffic.routing (ht : Traffic l e l') (hl : l.Sound) (hr : Routing h l) : Routing (h ++ [e]) l' := by
  cases ht with
  | quiet he hpending hreserved hwire hle => exact hr.quiet he hpending hreserved hwire hle
  | told he ho => exact hr.told he ho
  | reserved he ho hfree => exact hr.reserve hl he ho hfree
  | committed he hreserved => exact hr.commit he hreserved
  | released he hreserved => exact hr.release hl he hreserved
  | requested hnone => exact hr.request hnone
  | replied hreply hlookup => exact hr.reply hl hreply hlookup

end HostLink

namespace Session

variable {x x' : Session} {e : ServeEvent} {h : List ServeEvent} {setup : Setup} {envelope : PluginEnvelope}

open HostLink (Traffic Routing)

private theorem traffic_of_processed {s s' : Serve} {call : Option Nat} (hp : Serve.Processed s envelope s' call)
    (hlive : s'.Live) : Traffic s.link (.received envelope call) s'.link := by
  cases hp with
  | failed => exact absurd hlive (Serve.not_live_fail _ _)
  | @replied session trace replyTo call payload link _ hreply _ hroute =>
    have hlookup : s.link.pending.lookup replyTo = some ⟨trace, call⟩ :=
      HostLink.route_snd_eq_ok.1 (by rw [hroute])
    have hlink := HostLink.route_eq hroute
    subst hlink
    exact .replied hreply hlookup
  | accepted hreq | refused hreq | cancelled hreq | acknowledged hreq | heartbeat hreq | shutdown hreq =>
    exact .requested hreq.replyTo

private theorem Traffic.of_link_eq {l l' : HostLink} (he : e.inbound = none)
    (hlink : l' = { l with sender := l'.sender }) (hle : l.sender.nextMessageId ≤ l'.sender.nextMessageId) :
    Traffic l e l' := by
  refine .quiet he ?_ ?_ ?_ hle <;> rw [hlink]

/-- What the loop sends asks for no reply. -/
private theorem traffic_of_sent {s s' : Serve} {o : Outgoing} {link : HostLink}
    {sent : PluginEnvelope} (hq : s.Queued) (hs : Serve.Step s (.sent sent) s')
    (hsend : s.link.send o = (link, .ok sent)) : Traffic s.link (.sent sent) link := by
  obtain ⟨payload, hpayload, hloop⟩ := Serve.sent_ofLoop hq hs
  obtain ⟨rfl, hlink⟩ := HostLink.send_eq_ok hsend
  cases hpayload
  subst hlink
  exact .told rfl hloop.not_asks

/-- What a step of a session that goes on does to the link. -/
private theorem Step.traffic (hr : Steps (Step platform) (init setup) h x) (hs : Step platform x e x')
    (hlive : x'.serve.Live) : Traffic x.serve.link e x'.serve.link := by
  have hsame : e.inbound = none → x'.serve.link = x.serve.link → Traffic x.serve.link e x'.serve.link := by
    intro he hlink
    rw [hlink]
    exact .quiet he rfl rfl rfl le_rfl
  cases hs with
  | loop hs =>
    have hstep := Serve.Step.loop hs
    cases hs with
    | receive => exact traffic_of_processed (Serve.process_processed _ _) hlive
    | send _ _ _ hsend | acknowledge _ _ _ hsend => exact traffic_of_sent (Serve.queued (run_serve hr)) hstep hsend
    | sendFailed | acknowledgeFailed => exact absurd hlive (Serve.not_live_fail _ _)
    | _ => exact hsame rfl rfl
  | task hs => exact hsame (by cases hs <;> rfl) hs.link
  | stream hs hstream =>
    cases hs with
    | burn =>
      refine Traffic.of_link_eq rfl (HostLink.burn_eq _) (HostLink.burn_le _)
    | consume => exact .quiet rfl rfl rfl rfl le_rfl
    | close => exact .quiet rfl rfl rfl rfl le_rfl
    | _ => exact hstream.elim
  | begin => exact hsame rfl rfl
  | call hc hs =>
    -- the program of the call says whether what it enqueues asks for a reply
    obtain ⟨operation, es, hexec, -⟩ := (provenance_run hr).calls _ _ hc
    have hall := hexec.all (Operation.program_asking operation)
    cases hs with
    | emit _ hprogram _ _ _ hsend =>
      rw [hprogram] at hall
      obtain ⟨rfl, hlink⟩ := HostLink.send_eq_ok hsend
      subst hlink
      exact .told rfl hall.1
    | emitFailed _ _ _ _ hsend =>
      refine Traffic.of_link_eq rfl (HostLink.send_eq_error hsend) ?_
      exact HostLink.le_of_fst_eq (HostLink.send_le _ _) hsend
    | reserve _ hprogram _ _ hfree hreserve =>
      rw [hprogram] at hall
      obtain ⟨rfl, hlink⟩ := HostLink.reserve_eq_ok hreserve
      subst hlink
      exact .reserved rfl hall.1 hfree
    | reserveFailed _ _ _ _ _ hreserve =>
      refine Traffic.of_link_eq rfl (HostLink.reserve_eq_error hreserve) ?_
      exact HostLink.le_of_fst_eq (HostLink.reserve_le _ _ _) hreserve
    | commit _ _ _ _ hreserved => exact .committed rfl hreserved
    | commitFailed _ _ _ _ hreserved => exact .released rfl hreserved
    | cancelledReserved _ _ _ _ _ _ hreserved => exact .released rfl hreserved
    | _ => exact hsame rfl rfl
  | returned => exact hsame rfl rfl
  | drop => exact hsame rfl rfl
  | dropReserved _ _ _ hreserved => exact .released rfl hreserved

private theorem routing_init (setup : Setup) : Routing [] (init setup).serve.link := by
  have hlink : (init setup).serve.link = _ := Serve.init_link setup
  rw [hlink]
  refine ⟨fun r hr => (by cases hr), fun id trace => ?_, fun r hmem => (by cases hmem)⟩
  refine iff_of_false (by simp) ?_
  rintro ⟨⟨r, hr, -⟩ | ⟨envelope, henv, -, -, p, hp, hask⟩, -⟩
  · cases hr
  · simp only [List.mem_cons, List.not_mem_nil, or_false] at henv
    rcases henv with rfl | rfl
    · cases hp
      exact hask
    · cases hp
      exact hask

/-- The waiters of a session that goes on are the requests that have no reply. -/
theorem routing (hr : Steps (Step platform) (init setup) h x) (hlive : x.serve.Live) : Routing h x.serve.link := by
  refine Steps.history (I := fun h x => x.serve.Live → Routing h x.serve.link) (fun _ => routing_init setup)
    (fun h x e x' hr hs ih hlive => ?_) hr hlive
  exact (hs.traffic hr hlive).routing (link_sound hr) (ih (hs.serve.live hlive))

/-- The greeting of the plugin asks for no reply. -/
theorem asking_iff (hr : Steps (Step platform) (init setup) h x) {id : Nat} {trace : TraceContext} :
    (∃ envelope ∈ x.serve.link.wire, envelope.messageId = id ∧ envelope.Asks trace) ↔
      ∃ envelope ∈ outbound h, envelope.messageId = id ∧ envelope.Asks trace := by
  have hwire : x.serve.link.wire = (Serve.init setup).link.wire ++ outbound h := Serve.wire_eq (run_serve hr)
  have hinit : (Serve.init setup).link.wire = _ := congrArg HostLink.wire (Serve.init_link setup)
  rw [hwire, hinit]
  simp only [List.mem_append, List.mem_cons, List.not_mem_nil, or_false]
  constructor
  · rintro ⟨envelope, (rfl | rfl) | henv, hid, hask⟩
    · obtain ⟨-, p, hp, hask⟩ := hask
      cases hp
      exact hask.elim
    · obtain ⟨-, p, hp, hask⟩ := hask
      cases hp
      exact hask.elim
    · exact ⟨envelope, henv, hid, hask⟩
  · rintro ⟨envelope, henv, hask⟩
    exact ⟨envelope, Or.inr henv, hask⟩

/-- A request that holds the sender lock, and that the host has already replied to if it has guessed its ID. -/
def Reserves (x : Session) (h : List ServeEvent) (id : Nat) (trace : TraceContext) : Prop :=
  (∃ r, x.serve.link.reserved = some r ∧ r.id = id ∧ r.outgoing.trace = trace) ∧ ∀ r ∈ inbound h, r.replyTo ≠ some id

/-- The replies that a session takes. -/
theorem waits_iff (hr : Steps (Step platform) (init setup) h x) (hlive : x.serve.Live) {id : Nat}
    {trace : TraceContext} :
    (∃ call, x.serve.link.pending.lookup id = some ⟨trace, call⟩) ↔ Owes h id trace ∨ x.Reserves h id trace := by
  rw [(routing hr hlive).waits id trace, HostLink.Asking, asking_iff hr, or_and_right, or_comm]
  exact Iff.rfl

/-- What the loop takes by its state is what conforms by the history. -/
theorem conforms_iff (hr : Steps (Step platform) (init setup) h x) (hloop : x.serve.loop = .head) :
    (x.serve.process envelope).1.Live ↔
      Conforms setup h (fun id trace => Owes h id trace ∨ x.Reserves h id trace) envelope := by
  have hserve := run_serve hr
  have hlive : x.serve.Live := by simp [Serve.Live, hloop]
  have hobeys : ∀ trace, Obeys x.serve.jobs.actions (fun jobId => (x.serve.jobs.active.lookup jobId).isSome)
        (fun id => ∃ call, x.serve.link.pending.lookup id = some ⟨trace, call⟩) envelope.replyTo envelope.payload ↔
      Obeys setup.actions (Open h) (fun id => Owes h id trace ∨ x.Reserves h id trace) envelope.replyTo
      envelope.payload := by
    intro trace
    rw [Serve.actions_eq hserve]
    exact Obeys.congr (Serve.open_iff hserve hloop) fun id => waits_iff hr hlive
  rw [Serve.live_process hlive]
  constructor
  · rintro ⟨trace, session, hv, ho⟩
    obtain ⟨hlast, hlater, hsession, hinstance, htrace, hwithin⟩ := (Serve.validate_iff hserve hlive).1 ⟨session, hv⟩
    exact ⟨hlast, hlater, hsession, hinstance, trace, htrace, hwithin, (hobeys trace).1 ho⟩
  · rintro ⟨hlast, hlater, hsession, hinstance, trace, htrace, hwithin, ho⟩
    obtain ⟨session, hv⟩ := (Serve.validate_iff hserve hlive).2 ⟨hlast, hlater, hsession, hinstance, htrace, hwithin⟩
    exact ⟨trace, session, hv, (hobeys trace).2 ho⟩

private theorem received_eq {s s' : Serve} {call : Option Nat} (hs : Serve.Step s (.received envelope call) s') :
    s.loop = .head ∧ s' = (s.process envelope).1 := by
  cases hs with
  | task hs => cases hs
  | context hs => cases hs
  | loop hs =>
    cases hs with
    | receive hloop => exact ⟨hloop, rfl⟩

private theorem fails_of_not_live {s : Serve} {call : Option Nat} {s' : Serve}
    (hp : Serve.Processed s envelope s' call) (hlive : s.Live) (hend : ¬ s'.Live) :
    ∃ e, s'.loop = .returned (.error e) := by
  cases hp with
  | failed => exact ⟨_, rfl⟩
  | replied => exact absurd hlive hend
  | _ => exact absurd trivial hend

/-- A session takes exactly the envelopes that the protocol allows the host, and replies to a request that is just
being enqueued; on any other envelope it fails. -/
theorem admission (hr : Steps (Step platform) (init setup) h x) {call : Option Nat}
    (hs : Step platform x (.received envelope call) x') :
    (Conforms setup h (fun id trace => Owes h id trace ∨ x.Reserves h id trace) envelope → x'.serve.Live) ∧
      (¬ Conforms setup h (fun id trace => Owes h id trace ∨ x.Reserves h id trace) envelope →
        ∃ e, x'.serve.loop = .returned (.error e)) := by
  obtain ⟨hloop, heq⟩ := received_eq hs.serve
  rw [← conforms_iff hr hloop, ← heq]
  refine ⟨id, fun hend => fails_of_not_live hs.serve.received_inv.2 ?_ hend⟩
  simp [Serve.Live, hloop]

open Serve (sampleRequest sampleStart sampleAccepted sampleSetup sampleTrace sampleJobId)

/-- While the sample job runs, a heartbeat is taken, and a second request for the same job fails the session. -/
theorem admission_sampleRunning : (sampleRunning.serve.process (sampleRequest 4 (.heartbeat ⟨7⟩))).1.Live ∧
    ∃ e, (sampleRunning.serve.process
      (sampleRequest 4 (.startJob ⟨some ⟨sampleJobId⟩, none, some ⟨"echo", []⟩⟩))).1.loop =
        .returned (.error e) := by
  have hheartbeat : Step samplePlatform sampleRunning (.received (sampleRequest 4 (.heartbeat ⟨7⟩)) _) _ :=
    .loop (.receive rfl)
  have hstart : Step samplePlatform sampleRunning
      (.received (sampleRequest 4 (.startJob ⟨some ⟨sampleJobId⟩, none, some ⟨"echo", []⟩⟩)) _) _ :=
    .loop (.receive rfl)
  refine ⟨(admission sampleRunning_steps hheartbeat).1 ?_, (admission sampleRunning_steps hstart).2 ?_⟩
  · refine ⟨by decide, by simp [inbound, ServeEvent.inbound, sampleStart, sampleRequest], rfl, rfl,
      sampleTrace, rfl, ?_, trivial⟩
    exact ⟨by decide, Nat.zero_le _, Nat.zero_le _⟩
  · rintro ⟨-, -, -, -, trace, -, -, jobId, invocation, hobeys⟩
    have hid : jobId = sampleJobId := Except.ok.inj (hobeys.id.symm.trans Serve.jobId_sampleJobId)
    subst hid
    exact hobeys.closed ⟨[.received sampleStart none], .sent sampleAccepted, _, rfl, rfl,
      by simp [ServeEvent.updates, ServeEvent.acknowledges]⟩

end Session

end PluginSdk
