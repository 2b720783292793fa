import PluginSdk.Atomicity
import PluginSdk.Bracketing
import PluginSdk.Gate
import PluginSdk.ReplyOrder

/-!
# The stream of a session

Every run of a session, from its greeting on, is a run of the outbound layer with the same wire
(`Session.outbound_run`): whatever the loop, the calls of the actions and the handshake send has the trace of an
envelope that the session has accepted, or of a host call made under one.  So the stream of every session is valid
for a symmetric peer (`outbound_valid`).
-/

namespace PluginSdk

open Lts

/-! ### The link and the calls -/

def Outgoing.spec (o : Outgoing) (registered : Bool) : SendSpec := ⟨o.replyTo, o.trace, o.payload, registered⟩

private theorem HostLink.lookup_of_reserve {l l' : HostLink} {o : Outgoing} {call id : Nat}
    (h : l.reserve call o = (l', .ok id)) : l.sender.allocate = .ok (id, ⟨id + 1⟩) ∧ l.pending.lookup id = none := by
  unfold reserve at h
  cases ha : l.sender.allocate with
  | error e => simp [ha] at h
  | ok r =>
    obtain ⟨id', ⟨next⟩⟩ := r
    obtain ⟨rfl, rfl, -⟩ := SenderState.allocate_eq_ok.1 ha
    cases hr : HostClient.register l.pending l.sender.nextMessageId ⟨o.trace, call⟩ with
    | error e => simp [ha, hr] at h
    | ok pending =>
      simp only [ha, hr, Prod.mk.injEq, Except.ok.injEq] at h
      obtain ⟨-, rfl⟩ := h
      exact ⟨rfl, (HostClient.register_eq_ok.1 hr).1⟩

private theorem HostLink.allocate_of_send {l l' : HostLink} {o : Outgoing} {env : PluginEnvelope}
    (h : l.send o = (l', .ok env)) :
    l.sender.allocate = .ok (l.sender.nextMessageId, ⟨l.sender.nextMessageId + 1⟩) := by
  unfold send at h
  cases ha : l.sender.allocate with
  | error e => simp [ha] at h
  | ok r =>
    obtain ⟨id, ⟨next⟩⟩ := r
    obtain ⟨rfl, rfl, -⟩ := SenderState.allocate_eq_ok.1 ha
    rfl

namespace Requests

variable {l l' : HostLink} {r r' : Requests} {o : Outgoing} {trace : TraceContext} {v : Reservation} {e : SdkError}

/-- Almost all numbers are left for calls to come. -/
def Fresh (calls : Nat → Option RequestCall) : Prop := ∃ n, ∀ c, n ≤ c → calls c = none

private theorem Fresh.update {calls : Nat → Option RequestCall} (hf : Fresh calls) (c : Nat)
    (call : Option RequestCall) : Fresh (Function.update calls c call) := by
  obtain ⟨n, hn⟩ := hf
  refine ⟨max n (c + 1), fun c' hc' => ?_⟩
  rw [Function.update_of_ne (by omega)]
  exact hn c' (by omega)

/-- The call that holds the sender lock is the one that has reserved an ID on the link. -/
def HeldBy (r : Requests) : Option Reservation → Prop
  | none => r.holder = none
  | some v => ∃ c, r.holder = some c ∧ r.calls c = some ⟨v.outgoing.spec true, .sending v.id⟩

/-- The calls have left the link as it is; only their numbers are their own. -/
structure Linked (l : HostLink) (r : Requests) : Prop where
  identity : r.identity = l.identity
  capacity : r.capacity = l.capacity
  sender : r.sender = l.sender
  wire : r.wire = l.wire
  consumed : r.consumed = l.consumed
  closed : r.closed = l.closed
  held : r.HeldBy l.reserved
  pending : ∀ k, (r.pending.lookup k).map (·.expectedTrace) = (l.pending.lookup k).map (·.expectedTrace)
  fresh : Fresh r.calls

/-- A run in which every call that begins has the trace, and no reply is routed. -/
def SendsUnder (trace : TraceContext) (r r' : Requests) : Prop :=
  ∃ h, Steps Step r h r' ∧ (∀ c spec, .began c spec ∈ h → spec.trace = trace) ∧ r'.ended = r.ended

private theorem SendsUnder.refl (trace : TraceContext) (r : Requests) : r.SendsUnder trace r :=
  ⟨[], .nil, by simp, rfl⟩

/-- A waiter leaves both tables. -/
private theorem lookup_erase {p q : Pending}
    (h : ∀ k, (p.lookup k).map (·.expectedTrace) = (q.lookup k).map (·.expectedTrace)) (id k : Nat) :
    ((p.erase id).lookup k).map (·.expectedTrace) = ((q.erase id).lookup k).map (·.expectedTrace) := by
  by_cases hk : k = id
  · subst hk
    rw [AList.lookup_erase, AList.lookup_erase]
  · rw [AList.lookup_erase_ne hk, AList.lookup_erase_ne hk]
    exact h k

namespace Linked

private theorem free (hl : Linked l r) (hfree : l.reserved = none) : r.holder = none := by
  have hheld := hl.held
  rw [hfree] at hheld
  exact hheld

private theorem exists_fresh (hl : Linked l r) : ∃ c, r.calls c = none := by
  obtain ⟨n, hn⟩ := hl.fresh
  exact ⟨n, hn n le_rfl⟩

private theorem lookup_eq_none (hl : Linked l r) {k : Nat} :
    r.pending.lookup k = none ↔ l.pending.lookup k = none := by
  rw [← Option.map_eq_none_iff, hl.pending k, Option.map_eq_none_iff]

private theorem send (hl : Linked l r) {env : PluginEnvelope} (hfree : l.reserved = none) (hroom : l.HasRoom)
    (hsend : l.send o = (l', .ok env)) : ∃ r', r.SendsUnder o.trace r' ∧ Linked l' r' := by
  obtain ⟨c, hc⟩ := hl.exists_fresh
  have hholder := hl.free hfree
  have hclosed := HostLink.closed_of_send hsend
  have ha := HostLink.allocate_of_send hsend
  obtain ⟨rfl, rfl⟩ := HostLink.send_eq_ok hsend
  cases r
  obtain ⟨rfl, rfl, rfl, rfl, rfl, rfl, hheld, hpending, hfresh⟩ := hl
  have hrun : Steps Step _ [.began c (o.spec false), .allocated c l.sender.nextMessageId, .enqueued c _] _ :=
    .cons (.begin hc) (.cons (.allocate (setPhase_self ..) hholder ha rfl)
      (.single (.enqueue (setPhase_self ..) hclosed hroom)))
  refine ⟨_, ⟨_, hrun, by simp [Outgoing.spec], rfl⟩, ⟨rfl, rfl, rfl, rfl, rfl, rfl, ?_, hpending, ?_⟩⟩
  · rw [hfree]
    rfl
  · exact ((hfresh.update ..).update ..).update ..

/-- A sender without message IDs. -/
private theorem exhausted (hl : Linked l r) (o : Outgoing) (registered : Bool) (hfree : l.reserved = none)
    (ha : l.sender.allocate = .error e) : ∃ r', r.SendsUnder o.trace r' ∧ Linked l r' := by
  obtain ⟨c, hc⟩ := hl.exists_fresh
  have hholder := hl.free hfree
  have hbegin : Step r (.began c (o.spec registered)) _ := .begin hc
  cases r
  obtain ⟨rfl, rfl, rfl, rfl, rfl, rfl, hheld, hpending, hfresh⟩ := hl
  refine ⟨_, ⟨_, .cons hbegin (.single (.exhausted (setPhase_self ..) hholder ha)), by simp [Outgoing.spec], rfl⟩,
    ⟨rfl, rfl, rfl, rfl, rfl, rfl, ?_, hpending, ?_⟩⟩
  · rw [hfree]
    exact hholder
  · exact (hfresh.update ..).update ..

/-- A send that fails has no ID, or finds the channel closed. -/
private theorem sendFailed (hl : Linked l r) (hfree : l.reserved = none) (hsend : l.send o = (l', .error e)) :
    ∃ r', r.SendsUnder o.trace r' ∧ Linked l' r' := by
  unfold HostLink.send at hsend
  cases ha : l.sender.allocate with
  | error e' =>
    simp only [ha, Prod.mk.injEq, Except.error.injEq] at hsend
    obtain ⟨rfl, rfl⟩ := hsend
    exact hl.exhausted o false hfree ha
  | ok a =>
    obtain ⟨id, sender⟩ := a
    obtain ⟨c, hc⟩ := hl.exists_fresh
    have hholder := hl.free hfree
    have hbegin : Step r (.began c (o.spec false)) _ := .begin hc
    cases hclosed : l.closed with
    | false => simp [ha, hclosed] at hsend
    | true =>
      simp only [ha, hclosed, if_true, Prod.mk.injEq, Except.error.injEq] at hsend
      obtain ⟨rfl, rfl⟩ := hsend
      cases r
      obtain ⟨rfl, rfl, rfl, rfl, rfl, rfl, hheld, hpending, hfresh⟩ := hl
      refine ⟨_, ⟨_, .cons hbegin (.cons (.allocate (setPhase_self ..) hholder ha rfl)
        (.single (.sendFailed (setPhase_self ..) hclosed))), by simp [Outgoing.spec], rfl⟩,
        ⟨rfl, rfl, rfl, rfl, rfl, hclosed, ?_, hpending, ?_⟩⟩
      · rw [hfree]
        rfl
      · exact ((hfresh.update ..).update ..).update ..

private theorem reserve (hl : Linked l r) {call id : Nat} (hfree : l.reserved = none)
    (hreserve : l.reserve call o = (l', .ok id)) : ∃ r', r.SendsUnder o.trace r' ∧ Linked l' r' := by
  obtain ⟨c, hc⟩ := hl.exists_fresh
  have hholder := hl.free hfree
  obtain ⟨ha, hnone⟩ := HostLink.lookup_of_reserve hreserve
  rw [← hl.lookup_eq_none] at hnone
  obtain ⟨rfl, rfl⟩ := HostLink.reserve_eq_ok hreserve
  have hregister := HostClient.register_eq_ok.2 ⟨hnone, (rfl : _ = r.pending.insert _ ⟨o.trace, c⟩)⟩
  cases r
  obtain ⟨rfl, rfl, rfl, rfl, rfl, rfl, hheld, hpending, hfresh⟩ := hl
  refine ⟨_, ⟨_, .cons (@Step.begin _ c (o.spec true) hc)
    (.single (.register (setPhase_self ..) hholder ha rfl hregister)), by simp [Outgoing.spec], rfl⟩,
    ⟨rfl, rfl, rfl, rfl, rfl, rfl, ⟨c, rfl, setPhase_self ..⟩, fun k => ?_, ?_⟩⟩
  · by_cases hk : k = l.sender.nextMessageId
    · subst hk
      simp [AList.lookup_insert]
    · simpa [AList.lookup_insert_ne hk] using hpending k
  · exact (hfresh.update ..).update ..

private theorem reserveFailed (hl : Linked l r) {call : Nat} (hfree : l.reserved = none)
    (hreserve : l.reserve call o = (l', .error e)) : ∃ r', r.SendsUnder o.trace r' ∧ Linked l' r' := by
  unfold HostLink.reserve at hreserve
  cases ha : l.sender.allocate with
  | error e' =>
    simp only [ha, Prod.mk.injEq, Except.error.injEq] at hreserve
    obtain ⟨rfl, rfl⟩ := hreserve
    exact hl.exhausted o true hfree ha
  | ok a =>
    obtain ⟨id, sender⟩ := a
    obtain ⟨c, hc⟩ := hl.exists_fresh
    have hholder := hl.free hfree
    have hbegin : Step r (.began c (o.spec true)) _ := .begin hc
    cases hregister : HostClient.register l.pending id ⟨o.trace, call⟩ with
    | ok pending => simp [ha, hregister] at hreserve
    | error e' =>
      simp only [ha, hregister, Prod.mk.injEq, Except.error.injEq] at hreserve
      obtain ⟨rfl, rfl⟩ := hreserve
      obtain ⟨hmem, rfl⟩ := HostClient.register_eq_error.1 hregister
      have hmem' : id ∈ r.pending := by
        rw [← AList.lookup_isSome, Option.isSome_iff_ne_none, ne_eq, hl.lookup_eq_none]
        rwa [← AList.lookup_isSome, Option.isSome_iff_ne_none] at hmem
      have hrefused := HostClient.register_eq_error (w := ⟨o.trace, c⟩) |>.2 ⟨hmem', rfl⟩
      cases r
      obtain ⟨rfl, rfl, rfl, rfl, rfl, rfl, hheld, hpending, hfresh⟩ := hl
      refine ⟨_, ⟨_, .cons hbegin (.single (.registerFailed (setPhase_self ..) hholder ha rfl hrefused)),
        by simp [Outgoing.spec], rfl⟩, ⟨rfl, rfl, rfl, rfl, rfl, rfl, ?_, hpending, ?_⟩⟩
      · rw [hfree]
        exact hholder
      · exact (hfresh.update ..).update ..

/-- The request that holds the lock is enqueued. -/
private theorem commit (hl : Linked l r) (trace : TraceContext) (hv : l.reserved = some v)
    (hclosed : l.closed = false) (hroom : l.HasRoom) : ∃ r', r.SendsUnder trace r' ∧ Linked (l.commit v) r' := by
  have hheld := hl.held
  rw [hv] at hheld
  obtain ⟨c, -, hc⟩ := hheld
  cases r
  obtain ⟨rfl, rfl, rfl, rfl, rfl, rfl, -, hpending, hfresh⟩ := hl
  exact ⟨_, ⟨_, .single (.enqueue hc hclosed hroom), by simp, rfl⟩,
    ⟨rfl, rfl, rfl, rfl, rfl, rfl, rfl, hpending, hfresh.update ..⟩⟩

/-- The request that holds the lock is given up. -/
private theorem release (hl : Linked l r) (trace : TraceContext) (hv : l.reserved = some v) :
    ∃ r', r.SendsUnder trace r' ∧ Linked (l.release v) r' := by
  have hheld := hl.held
  rw [hv] at hheld
  obtain ⟨c, -, hc⟩ := hheld
  cases r
  obtain ⟨rfl, rfl, rfl, rfl, rfl, rfl, -, hpending, hfresh⟩ := hl
  exact ⟨_, ⟨_, .single (.dropSending hc), by simp, rfl⟩,
    ⟨rfl, rfl, rfl, rfl, rfl, rfl, rfl, lookup_erase hpending v.id, hfresh.update ..⟩⟩

/-- A sender that is dropped with an ID, whatever it was to send. -/
private theorem burn (hl : Linked l r) (trace : TraceContext) (hfree : l.reserved = none) :
    ∃ r', r.SendsUnder trace r' ∧ Linked l.burn r' := by
  cases ha : l.sender.allocate with
  | error e =>
    have hburn : l.burn = l := by simp [HostLink.burn, ha]
    exact ⟨r, .refl trace r, by rwa [hburn]⟩
  | ok a =>
    obtain ⟨id, sender⟩ := a
    obtain ⟨c, hc⟩ := hl.exists_fresh
    have hholder := hl.free hfree
    rw [HostLink.burn_of_allocate ha]
    cases r
    obtain ⟨rfl, rfl, rfl, rfl, rfl, rfl, hheld, hpending, hfresh⟩ := hl
    refine ⟨_, ⟨_, .cons (@Step.begin _ c ⟨none, trace, .ready, false⟩ hc)
      (.cons (.allocate (setPhase_self ..) hholder ha rfl) (.single (.dropSending (setPhase_self ..)))),
      by simp, rfl⟩, ⟨rfl, rfl, rfl, rfl, rfl, rfl, ?_, hpending, ?_⟩⟩
    · rw [hfree]
      rfl
    · exact ((hfresh.update ..).update ..).update ..

private theorem consume (hl : Linked l r) (trace : TraceContext) (hclosed : l.closed = false)
    (hlt : l.consumed < l.wire.length) :
    ∃ r', r.SendsUnder trace r' ∧ Linked { l with consumed := l.consumed + 1 } r' := by
  cases r
  obtain ⟨rfl, rfl, rfl, rfl, rfl, rfl, hheld, hpending, hfresh⟩ := hl
  exact ⟨_, ⟨_, .single (.consume hclosed hlt), by simp, rfl⟩,
    ⟨rfl, rfl, rfl, rfl, rfl, rfl, hheld, hpending, hfresh⟩⟩

private theorem close (hl : Linked l r) (trace : TraceContext) :
    ∃ r', r.SendsUnder trace r' ∧ Linked { l with closed := true } r' := by
  cases r
  obtain ⟨rfl, rfl, rfl, rfl, rfl, rfl, hheld, hpending, hfresh⟩ := hl
  exact ⟨_, ⟨_, .single .close, by simp, rfl⟩, ⟨rfl, rfl, rfl, rfl, rfl, rfl, hheld, hpending, hfresh⟩⟩

/-- A reply is routed, or ends the session. -/
private theorem route (hl : Linked l r) (hrun : r.ended = none) {replyTo : Nat} {result : Except SdkError Nat}
    (payload : Payload) (hroute : l.route replyTo trace = (l', result)) :
    ∃ e r', Step r e r' ∧ (∀ c spec, e ≠ .began c spec) ∧ Linked l' r' ∧
    (r'.ended = none ∨ ∃ e, result = .error e) := by
  have hlink := HostLink.route_eq hroute
  subst hlink
  have hpending := lookup_erase hl.pending replyTo
  rw [← HostClient.route_fst r.pending replyTo trace] at hpending
  cases ha : (HostClient.route r.pending replyTo trace).2 with
  | ok w =>
    refine ⟨_, _, @Step.route r ⟨replyTo, trace, payload⟩ w.expectedTrace w.response hrun ha,
      by simp, ?_, Or.inl hrun⟩
    exact ⟨hl.identity, hl.capacity, hl.sender, hl.wire, hl.consumed, hl.closed, hl.held, hpending, hl.fresh⟩
  | error e =>
    refine ⟨_, _, @Step.routeFailed r ⟨replyTo, trace, payload⟩ e hrun ha, by simp, ?_, Or.inr ?_⟩
    · exact ⟨hl.identity, hl.capacity, hl.sender, hl.wire, hl.consumed, hl.closed, hl.held, hpending, hl.fresh⟩
    · -- the waiter that the link has found would have been found by the call as well
      cases result with
      | error e => exact ⟨e, rfl⟩
      | ok call =>
        have hok : (HostClient.route l.pending replyTo trace).2.map (·.response) = .ok call :=
          congrArg Prod.snd hroute
        cases hw : (HostClient.route l.pending replyTo trace).2 with
        | error e => simp [hw, Except.map] at hok
        | ok w =>
          obtain ⟨hlookup, htrace⟩ := HostClient.route_snd_eq_ok.1 hw
          have hsame := hl.pending replyTo
          rw [hlookup, Option.map_some, Option.map_eq_some_iff] at hsame
          obtain ⟨w', hlookup', htrace'⟩ := hsame
          have hfound := HostClient.route_snd_eq_ok.2 ⟨hlookup', htrace'.trans htrace⟩
          cases ha.symm.trans hfound

end Linked

end Requests

/-! ### Traces -/

namespace Serve

variable {s s' : Serve} {e : ServeEvent} {P Q : TraceContext → Prop}

/-- All that the loop is to send has a trace of the kind, also what it will send for the jobs that it has accepted. -/
structure Traced (P : TraceContext → Prop) (s : Serve) : Prop where
  queue : ∀ o ∈ s.loop.queue, P o.trace
  accepted : ∀ queue job, s.loop = .sending queue (.spawn job) → P job.trace
  shutdown : ∀ o, s.loop.shutdown = some o → P o.trace
  active : ∀ jobId job, s.jobs.active.lookup jobId = some job → P job.trace ∧ ∀ c ∈ job.cancellations, P c.trace

private theorem Traced.mono (ht : s.Traced P) (hPQ : ∀ t, P t → Q t) : s.Traced Q where
  queue o ho := hPQ _ (ht.queue o ho)
  accepted queue job hloop := hPQ _ (ht.accepted queue job hloop)
  shutdown o ho := hPQ _ (ht.shutdown o ho)
  active jobId job hl := ⟨hPQ _ (ht.active jobId job hl).1, fun c hc => hPQ _ ((ht.active jobId job hl).2 c hc)⟩

/-- The loop has nothing to send. -/
private theorem Traced.idle (ht : s.Traced P)
    (hactive : ∀ jobId job, s'.jobs.active.lookup jobId = some job → s.jobs.active.lookup jobId = some job)
    (hqueue : s'.loop.queue = []) (hloop : ∀ queue job, s'.loop ≠ .sending queue (.spawn job))
    (hshut : s'.loop.shutdown = none) : s'.Traced P where
  queue := by simp [hqueue]
  accepted queue job hl := absurd hl (hloop queue job)
  shutdown := by simp [hshut]
  active jobId job hl := ht.active jobId job (hactive jobId job hl)

/-- The loop has something to send, and starts no job after it. -/
private theorem Traced.start (hqueue : ∀ o ∈ s.loop.queue, P o.trace)
    (hloop : ∀ queue job, s.loop ≠ .sending queue (.spawn job)) (hshut : ∀ o, s.loop.shutdown = some o → P o.trace)
    (hactive : ∀ jobId job, s.jobs.active.lookup jobId = some job →
      P job.trace ∧ ∀ c ∈ job.cancellations, P c.trace) : s.Traced P where
  queue := hqueue
  accepted queue job hl := absurd hl (hloop queue job)
  shutdown := hshut
  active := hactive

/-- What the loop makes of an envelope has the trace of the envelope. -/
private theorem Traced.process (ht : s.Traced P) (hhead : s.loop = .head) {envelope : PluginEnvelope}
    (hnew : ∀ trace session, validateEnvelope envelope s.session = .ok (trace, session) → P trace) :
    (s.process envelope).1.Traced P := by
  have hp := process_processed s envelope
  generalize (s.process envelope).1 = s' at hp
  generalize (s.process envelope).2 = call at hp
  cases hp with
  | failed => exact ht.idle (fun _ _ hl => hl) rfl nofun rfl
  | replied =>
    exact ht.idle (fun _ _ hl => hl) (by simp [hhead, Loop.queue]) (by simp [hhead]) (by simp [hhead, Loop.shutdown])
  | accepted hreq =>
    have htrace := hnew _ _ hreq.valid
    refine ⟨by simpa [Loop.queue] using htrace, fun queue job hl => ?_, by simp [Loop.shutdown], ht.active⟩
    cases hl
    exact htrace
  | refused hreq | acknowledged hreq | heartbeat hreq =>
    exact .start (by simpa [Loop.queue] using hnew _ _ hreq.valid) (by simp) (by simp [Loop.shutdown]) ht.active
  | @cancelled _ trace _ jobId job hreq _ hl =>
    refine .start (by simp [Loop.queue]) (by simp) (by simp [Loop.shutdown]) fun jobId' job' hl' => ?_
    rcases AList.lookup_insert_cases hl' with ⟨-, rfl⟩ | hold
    · obtain ⟨htrace, hall⟩ := ht.active jobId job hl
      refine ⟨htrace, fun c hc => ?_⟩
      rcases List.mem_append.1 hc with hc | hc
      · exact hall c hc
      · rw [List.mem_singleton.1 hc]
        exact hnew _ _ hreq.valid
    · exact ht.active jobId' job' hold
  | shutdown hreq =>
    refine .start (by simp [Loop.queue]) (by simp) (fun o ho => ?_) ht.active
    cases ho
    exact hnew _ _ hreq.valid

private theorem LoopStep.traced (hs : LoopStep s e s') (ht : s.Traced P)
    (hnew : ∀ envelope call trace session, e = .received envelope call →
      validateEnvelope envelope s.session = .ok (trace, session) → P trace) : s'.Traced P := by
  cases hs with
  | receive hhead => exact ht.process hhead fun trace session => hnew _ _ trace session rfl
  | @send o queue next link env hloop =>
    refine ⟨fun o' ho' => ht.queue o' ?_, fun queue' job hl => ?_, fun o' ho' => ht.shutdown o' ?_, ht.active⟩
    · rw [hloop]
      exact List.mem_cons_of_mem _ ho'
    · cases hl
      exact ht.accepted _ job hloop
    · rw [hloop]
      cases next <;> exact ho'
  | @spawn job hloop =>
    refine .start (by simp [Loop.queue]) (by simp) (by simp [Loop.shutdown]) fun jobId' job' hl' => ?_
    rcases AList.lookup_insert_cases hl' with ⟨-, rfl⟩ | hold
    · exact ⟨ht.accepted _ job hloop, by simp⟩
    · exact ht.active jobId' job' hold
  | @join inst jobId output jobs queue _ _ _ hsettle =>
    obtain ⟨job, hl, rfl, rfl⟩ := JobManager.settle_join hsettle
    obtain ⟨htrace, hall⟩ := ht.active jobId job hl
    refine .start (fun o ho => ?_) (by simp) (by simp [Loop.shutdown]) fun jobId' job' hl' => ?_
    · change o ∈ JobManager.settlement jobId job output at ho
      unfold JobManager.settlement at ho
      split at ho
      · rw [List.mem_singleton.1 ho]
        exact htrace
      · obtain ⟨c, hc, rfl⟩ := List.mem_map.1 ho
        exact hall c hc
    · rcases AList.lookup_insert_cases hl' with ⟨-, rfl⟩ | hold
      · exact ⟨htrace, by simp⟩
      · exact ht.active jobId' job' hold
  | remove => exact ht.idle (fun _ _ hl => AList.lookup_of_erase hl) rfl (by simp) rfl
  | drain hloop => exact ⟨ht.queue, ht.accepted, ht.shutdown, ht.active⟩
  | @takeCancellations o deadline entries hloop _ hperm =>
    refine .start (fun o' ho' => ?_) (by simp) (fun o' ho' => ht.shutdown o' ?_) fun jobId' job' hl' => ?_
    · obtain ⟨entry, hentry, hmem⟩ := List.mem_flatMap.1 ho'
      obtain ⟨c, hc, rfl⟩ := List.mem_map.1 hmem
      exact (ht.active entry.1 entry.2 (AList.lookup_eq_some_iff.2 (hperm.subset hentry))).2 c hc
    · rw [hloop]
      exact ho'
    · change (s.jobs.active.mapValues _).lookup jobId' = some job' at hl'
      rw [AList.lookup_mapValues, Option.map_eq_some_iff] at hl'
      obtain ⟨job, hl, rfl⟩ := hl'
      exact ⟨(ht.active jobId' job hl).1, by simp⟩
  | clear hloop =>
    refine .start (by simp [Loop.queue]) (by simp) (fun o' ho' => ht.shutdown o' ?_) (by simp)
    rw [hloop]
    exact ho'
  | _ => exact ht.idle (fun _ _ hl => hl) rfl (by simp [fail]) rfl

private theorem Step.traced (hs : Step s e s') (ht : s.Traced P)
    (hnew : ∀ envelope call trace session, e = .received envelope call →
      validateEnvelope envelope s.session = .ok (trace, session) → P trace) : s'.Traced P := by
  have hframe : Frame s s' → s'.Traced P := by
    intro hf
    refine ⟨?_, ?_, ?_, hf.active ▸ ht.active⟩ <;> rw [hf.loop]
    · exact ht.queue
    · exact ht.accepted
    · exact ht.shutdown
  cases hs with
  | loop hs => exact hs.traced ht hnew
  | task hs => exact hframe hs.frame
  | context hs => exact hframe hs.frame

end Serve

/-! ### The steps of a session as steps of its senders -/

namespace Serve

variable {v v' : Serve} {e : ServeEvent} {r : Requests} {P : TraceContext → Prop} {t : TraceContext}

/-- An envelope moves the session on if it is valid, and ends the loop otherwise. -/
private theorem process_session (v : Serve) (envelope : PluginEnvelope) :
    (∃ e, validateEnvelope envelope v.session = .error e ∧ v.process envelope = (v.fail e, none)) ∨
      ∃ trace session, validateEnvelope envelope v.session = .ok (trace, session) ∧
        (v.process envelope).1.session = session := by
  unfold process
  cases validateEnvelope envelope v.session with
  | error e => exact Or.inl ⟨e, rfl, rfl⟩
  | ok a =>
    obtain ⟨trace, session⟩ := a
    refine Or.inr ⟨trace, session, rfl, ?_⟩
    cases envelope.replyTo with
    | none =>
      dsimp only [request]
      repeat' split
      all_goals rfl
    | some replyTo =>
      dsimp only [reply]
      repeat' split
      all_goals rfl

/-- A loop that has returned stays so. -/
private theorem Step.returned (hs : Step v e v') {result : Except SdkError Timestamp}
    (hloop : v.loop = .returned result) : v'.loop = .returned result := by
  cases hs with
  | task hs => rw [hs.frame.loop, hloop]
  | context hs => rw [hs.frame.loop, hloop]
  | loop hs =>
    have hlive := hs.live
    simp [Live, hloop] at hlive

/-- What the loop sends has the trace of an accepted envelope. -/
private theorem LoopStep.sends (hs : LoopStep v e v') (hl : Requests.Linked v.link r) (ht : v.Traced P) (h0 : P t)
    (hsent : ∀ envelope call, e ≠ .received envelope call) :
    v'.session = v.session ∧ ∃ trace r', P trace ∧ r.SendsUnder trace r' ∧ Requests.Linked v'.link r' := by
  have hquiet : v'.session = v.session → v'.link = v.link →
      v'.session = v.session ∧ ∃ trace r', P trace ∧ r.SendsUnder trace r' ∧ Requests.Linked v'.link r' :=
    fun hsession hlink => ⟨hsession, t, r, h0, .refl t r, hlink ▸ hl⟩
  cases hs with
  | receive => exact absurd rfl (hsent _ _)
  | @send o queue next link env hloop hfree hroom hsend =>
    obtain ⟨r', hsends, hl'⟩ := hl.send hfree hroom hsend
    exact ⟨rfl, o.trace, r', ht.queue o (by rw [hloop]; exact List.mem_cons_self), hsends, hl'⟩
  | @sendFailed o queue next link e hloop hfree hsend =>
    obtain ⟨r', hsends, hl'⟩ := hl.sendFailed hfree hsend
    exact ⟨rfl, o.trace, r', ht.queue o (by rw [hloop]; exact List.mem_cons_self), hsends, hl'⟩
  | @acknowledge o deadline link env hloop hfree hroom hsend =>
    obtain ⟨r', hsends, hl'⟩ := hl.send hfree hroom hsend
    exact ⟨rfl, o.trace, r', ht.shutdown o (by rw [hloop]; rfl), hsends, hl'⟩
  | @acknowledgeFailed o deadline link e hloop hfree hsend =>
    obtain ⟨r', hsends, hl'⟩ := hl.sendFailed hfree hsend
    exact ⟨rfl, o.trace, r', ht.shutdown o (by rw [hloop]; rfl), hsends, hl'⟩
  | _ => exact hquiet rfl rfl

/-- A sender that is dropped, and the output stream, send nothing. -/
private theorem ContextStep.sends (hs : ContextStep v e v') (he : e.OfStream) (hl : Requests.Linked v.link r)
    (trace : TraceContext) : ∃ r', r.SendsUnder trace r' ∧ Requests.Linked v'.link r' := by
  cases hs with
  | burn hfree => exact hl.burn trace hfree
  | consume hclosed hlt => exact hl.consume trace hclosed hlt
  | close => exact hl.close trace
  | _ => exact he.elim

end Serve

/-- What a call sends has the trace that its program gives it. -/
private theorem ContextCall.Step.sends {call : Nat} {v v' : Serve} {c c' : ContextCall}
    {e : ServeEvent} {r : Requests} {P : TraceContext → Prop} {t : TraceContext}
    (hs : ContextCall.Step call v c e v' c') (hl : Requests.Linked v.link r) (h0 : P t)
    (hP : ∀ o k trace payload, c.program = .op o k →
      (o = .send trace payload ∨ o = .request trace payload) → P trace) :
    ∃ trace r', P trace ∧ r.SendsUnder trace r' ∧ Requests.Linked v'.link r' := by
  cases hs with
  | emit _ hprogram _ hfree hroom hsend =>
    obtain ⟨r', hsends, hl'⟩ := hl.send hfree hroom hsend
    exact ⟨_, r', hP _ _ _ _ hprogram (Or.inl rfl), hsends, hl'⟩
  | emitFailed _ hprogram _ hfree hsend =>
    obtain ⟨r', hsends, hl'⟩ := hl.sendFailed hfree hsend
    exact ⟨_, r', hP _ _ _ _ hprogram (Or.inl rfl), hsends, hl'⟩
  | reserve _ hprogram _ _ hfree hreserve =>
    obtain ⟨r', hsends, hl'⟩ := hl.reserve hfree hreserve
    exact ⟨_, r', hP _ _ _ _ hprogram (Or.inr rfl), hsends, hl'⟩
  | reserveFailed _ hprogram _ _ hfree hreserve =>
    obtain ⟨r', hsends, hl'⟩ := hl.reserveFailed hfree hreserve
    exact ⟨_, r', hP _ _ _ _ hprogram (Or.inr rfl), hsends, hl'⟩
  | commit _ _ _ _ hv hclosed hroom =>
    obtain ⟨r', hsends, hl'⟩ := hl.commit t hv hclosed hroom
    exact ⟨t, r', h0, hsends, hl'⟩
  | commitFailed _ _ _ _ hv =>
    obtain ⟨r', hsends, hl'⟩ := hl.release t hv
    exact ⟨t, r', h0, hsends, hl'⟩
  | cancelledReserved _ _ _ _ _ _ hv =>
    obtain ⟨r', hsends, hl'⟩ := hl.release t hv
    exact ⟨t, r', h0, hsends, hl'⟩
  | _ => exact ⟨t, r, h0, .refl t r, hl⟩

namespace Outbound

variable {s : Outbound} {trace : TraceContext}

/-- Whatever a context sends, its trace is one that a sender of the session may use. -/
private theorem maySend_of_checked {context : ActionContext} {payload : Payload} (hknown : context.trace ∈ s.known)
    (hdepth : context.host.maximumCallDepth = s.session.maximumCallDepth) (hp : payload.Checked context trace) :
    s.MaySend trace := by
  cases payload with
  | hostCall => exact Or.inr ⟨context, hknown, hdepth, hp.1⟩
  | log => exact Or.inl (hp.1 ▸ hknown)
  | artifactStart | artifactChunk | artifactComplete =>
    obtain rfl : trace = context.trace := hp
    exact Or.inl hknown
  | _ => exact hp.elim

/-- Senders whose traces are allowed are senders of the session. -/
private theorem steps_of_sends {r' : Requests} (hs : s.requests.SendsUnder trace r') (hmay : s.MaySend trace) :
    ∃ w, Steps Step s w { s with requests := r' } := by
  obtain ⟨h, hr, hbegan, -⟩ := hs
  suffices hall : ∀ {h : List Requests.Event} {r : Requests}, Steps Requests.Step s.requests h r →
      (∀ c spec, .began c spec ∈ h → spec.trace = trace) → ∃ w, Steps Step s w { s with requests := r } from
    hall hr hbegan
  intro h r hr hbegan
  induction hr with
  | nil => exact ⟨[], .nil⟩
  | snoc _ hstep ih =>
    obtain ⟨w, hw⟩ := ih fun c spec hmem => hbegan c spec (List.mem_append_left _ hmem)
    refine ⟨_, hw.snoc (.request hstep fun c spec he => ?_)⟩
    rw [hbegan c spec (by simp [he])]
    exact hmay

/-- A session with the history `h`, and its senders. -/
structure Related (h : List ServeEvent) (v : Serve) (s : Outbound) : Prop where
  linked : Requests.Linked v.link s.requests
  session : s.session = v.session
  ended : s.requests.ended ≠ none → ∃ result, v.loop = .returned result
  traced : v.Traced (· ∈ s.known)
  contexts : ∀ inst context, .spawned inst context ∈ h → context.trace ∈ s.known
  depth : v.host.maximumCallDepth = s.session.maximumCallDepth
  known : ∃ t, t ∈ s.known

namespace Related

variable {h : List ServeEvent} {v v' : Serve} {e : ServeEvent}

private theorem spawned (hrel : Related h v s) (hs : Serve.Step v e v') :
    ∀ inst context, .spawned inst context ∈ h ++ [e] → context.trace ∈ s.known := by
  intro inst context hmem
  rcases List.mem_append.1 hmem with hmem | hmem
  · exact hrel.contexts inst context hmem
  · obtain rfl := List.mem_singleton.1 hmem
    obtain ⟨job, hloop, rfl⟩ := hs.spawned_inv
    exact hrel.traced.accepted _ job hloop

/-- A step that accepts nothing. -/
private theorem sends (hrel : Related h v s) (hs : Serve.Step v e v') {r' : Requests}
    (hsession : v'.session = v.session) (hnew : ∀ envelope call t session, e = .received envelope call →
      validateEnvelope envelope v.session ≠ .ok (t, session))
    (hmay : s.MaySend trace) (hsends : s.requests.SendsUnder trace r') (hlinked : Requests.Linked v'.link r') :
    ∃ w s', Steps Step s w s' ∧ Related (h ++ [e]) v' s' := by
  obtain ⟨w, hw⟩ := steps_of_sends hsends hmay
  obtain ⟨-, -, -, hended⟩ := hsends
  refine ⟨w, _, hw, hlinked, hrel.session.trans hsession.symm, fun hne => ?_, ?_, hrel.spawned hs, ?_, hrel.known⟩
  · obtain ⟨result, hloop⟩ := hrel.ended (hended ▸ hne)
    exact ⟨result, hs.returned hloop⟩
  · exact hs.traced hrel.traced fun envelope call t session he hv => absurd hv (hnew envelope call t session he)
  · rw [hs.host]
    exact hrel.depth

/-- The loop takes an envelope. -/
private theorem received (hrel : Related h v s) (hhead : v.loop = .head) (envelope : PluginEnvelope) :
    ∃ w s', Steps Step s w s' ∧
      Related (h ++ [.received envelope (v.process envelope).2]) (v.process envelope).1 s' := by
  have hs : Serve.Step v (.received envelope (v.process envelope).2) (v.process envelope).1 := .loop (.receive hhead)
  rcases v.process_session envelope with ⟨e, hv, hprocess⟩ | ⟨trace, session, hv, hsession⟩
  · obtain ⟨t, ht⟩ := hrel.known
    rw [hprocess] at hs ⊢
    refine hrel.sends hs rfl (fun envelope' call t session he => ?_) (Or.inl ht) (.refl t s.requests) hrel.linked
    cases he
    simp [hv]
  · have hreceive : Step s (.received envelope) { s with session, known := trace :: s.known } :=
      .receive (hrel.session ▸ hv)
    obtain ⟨-, -, -, -, -, hlast⟩ := validateEnvelope_eq_ok.1 hv
    have htraced : (v.process envelope).1.Traced (· ∈ trace :: s.known) := by
      refine hs.traced (hrel.traced.mono fun t ht => List.mem_cons_of_mem _ ht)
        fun envelope' call t session' he hv' => ?_
      cases he
      cases hv.symm.trans hv'
      exact List.mem_cons_self
    have hdepth : (v.process envelope).1.host.maximumCallDepth = session.maximumCallDepth := by
      rw [hs.host, hrel.depth, hrel.session, hlast]
    have hcontexts := fun inst context hmem => List.mem_cons_of_mem trace (hrel.spawned hs inst context hmem)
    have hrun : s.requests.ended = none := by
      by_contra hne
      obtain ⟨result, hloop⟩ := hrel.ended hne
      cases hhead.symm.trans hloop
    rcases Serve.process_routes v envelope with ⟨hlink, -⟩ | ⟨replyTo, t, payload, result, -, -, hroute, -, hfailed⟩
    · refine ⟨_, _, .single hreceive, ?_, hsession.symm, fun hne => absurd hrun hne, htraced,
        hcontexts, hdepth, trace, List.mem_cons_self⟩
      rw [hlink]
      exact hrel.linked
    · obtain ⟨e, r', hstep, hbegan, hlinked, hended⟩ := hrel.linked.route hrun payload hroute
      refine ⟨_, _, .cons hreceive (.single (.request hstep fun c spec he => absurd he (hbegan c spec))), hlinked,
        hsession.symm, fun hne => ?_, htraced, hcontexts, hdepth, trace, List.mem_cons_self⟩
      rcases hended with hended | ⟨e, he⟩
      · exact absurd hended hne
      · exact ⟨_, hfailed e he⟩

end Related

end Outbound

namespace Session

variable {platform : Platform} {x x' : Session} {e : ServeEvent} {h : List ServeEvent} {setup : Setup} {s : Outbound}

/-- The trace of what a call sends next is allowed. -/
private theorem maySend_of_call (hr : Steps (Step platform) (init setup) h x)
    (hrel : Outbound.Related h x.serve s) {call : Nat} {c : ContextCall} (hc : x.calls call = some c) {o : ContextOp}
    {k : o.Reply → _} {trace : TraceContext} {payload : Payload} (hprogram : c.program = .op o k)
    (ho : o = .send trace payload ∨ o = .request trace payload) : s.MaySend trace := by
  obtain ⟨operation, es, hexec, -⟩ := (provenance_run hr).calls _ _ hc
  have hall := hexec.all (Operation.program_checked operation)
  obtain ⟨hhost, -⟩ := startedIn_of_call hr hc
  have hknown := hrel.contexts _ _ ((spawned hr).calls _ _ hc)
  have hdepth : c.context.host.maximumCallDepth = s.session.maximumCallDepth := by
    rw [hhost, ← (Serve.origins (run_serve hr)).host]
    exact hrel.depth
  rw [hprogram] at hall
  rcases ho with rfl | rfl
  all_goals exact Outbound.maySend_of_checked hknown hdepth hall.1

/-- Each step of a session is a run of its senders. -/
private theorem Step.related (hr : Steps (Step platform) (init setup) h x) (hs : Step platform x e x')
    (hrel : Outbound.Related h x.serve s) :
    ∃ w s', Steps Outbound.Step s w s' ∧ Outbound.Related (h ++ [e]) x'.serve s' := by
  obtain ⟨t, ht⟩ := hrel.known
  have hmay : s.MaySend t := Or.inl ht
  have hquiet : (∀ envelope call, e ≠ .received envelope call) → x'.serve.session = x.serve.session →
      (∃ trace r', s.MaySend trace ∧ s.requests.SendsUnder trace r' ∧ Requests.Linked x'.serve.link r') →
      ∃ w s', Steps Outbound.Step s w s' ∧ Outbound.Related (h ++ [e]) x'.serve s' := by
    rintro he hsession ⟨trace, r', hmay, hsends, hlinked⟩
    exact hrel.sends hs.serve hsession (fun envelope call _ _ heq => absurd heq (he envelope call))
      hmay hsends hlinked
  have hlinked := hrel.linked
  cases hs with
  | loop hs =>
    by_cases he : ∃ envelope call, e = .received envelope call
    · obtain ⟨envelope, call, rfl⟩ := he
      cases hs with
      | receive hhead => exact hrel.received hhead envelope
    · push Not at he
      obtain ⟨hsession, trace, r', htrace, hsends, hlinked'⟩ := hs.sends hlinked hrel.traced ht he
      exact hquiet he hsession ⟨trace, r', Or.inl htrace, hsends, hlinked'⟩
  | task hs =>
    refine hquiet (by cases hs <;> simp) hs.frame.session ⟨t, _, hmay, .refl t _, ?_⟩
    rw [hs.link]
    exact hlinked
  | stream hs he =>
    obtain ⟨r', hsends, hlinked'⟩ := hs.sends he hlinked t
    exact hquiet (by cases hs <;> simp) hs.frame.session ⟨t, r', hmay, hsends, hlinked'⟩
  | begin | returned | drop => exact hquiet (by simp) rfl ⟨t, _, hmay, .refl t _, hlinked⟩
  | call hc hs =>
    refine hquiet (by cases hs <;> simp) hs.serve.frame.session
      (hs.sends hlinked hmay fun o k trace payload hprogram ho => ?_)
    exact maySend_of_call hr hrel hc hprogram ho
  | dropReserved _ _ _ hv =>
    obtain ⟨r', hsends, hlinked'⟩ := hlinked.release t hv
    exact hquiet (by simp) rfl ⟨t, r', hmay, hsends, hlinked'⟩

end Session

namespace Opening

variable {plugin : Plugin} (o : Opening plugin) {ready : PluginEnvelope} {session : SessionState}

/-- The handshake as steps of the senders. -/
private theorem related (hready : receiveReady ready o.trace o.session = .ok session) :
    ∃ w s, Steps Outbound.Step (.start o.session o.trace outgoingCapacity) w s ∧
      Outbound.Related [] (Serve.init (o.setup session)) s := by
  obtain ⟨⟨t, hv⟩, -⟩ := receiveReady_eq_ok hready
  have hstart : Requests.Linked (HostLink.init o.session.identity outgoingCapacity)
      (Outbound.start o.session o.trace outgoingCapacity).requests :=
    ⟨rfl, rfl, rfl, rfl, rfl, rfl, rfl, fun _ => rfl, 0, fun _ _ => rfl⟩
  have hknown : o.trace ∈ (Outbound.start o.session o.trace outgoingCapacity).known := List.mem_singleton.2 rfl
  have hroom₁ : (HostLink.init o.session.identity outgoingCapacity).HasRoom := Nat.zero_lt_succ 255
  have hroom₂ : (Opening.link o [o.greeting] 0 false).HasRoom := Nat.one_lt_succ_succ 254
  obtain ⟨r₁, hsends₁, hlinked₁⟩ :=
    @Requests.Linked.send _ _ _ ⟨none, o.trace, .pluginHello (plugin.hello o.hello)⟩ hstart _ rfl hroom₁ rfl
  obtain ⟨w₁, hw₁⟩ := Outbound.steps_of_sends hsends₁ (Or.inl hknown)
  have hreceive : Outbound.Step { Outbound.start o.session o.trace outgoingCapacity with requests := r₁ }
      (.received ready) _ := .receive hv
  obtain ⟨r₂, hsends₂, hlinked₂⟩ := @Requests.Linked.send _ _ _ ⟨none, o.trace, .ready⟩ hlinked₁ _ rfl hroom₂ rfl
  obtain ⟨w₂, hw₂⟩ := Outbound.steps_of_sends (s := ⟨r₁, session, [t, o.trace]⟩) hsends₂
    (Or.inl (List.mem_cons_of_mem _ (List.mem_singleton.2 rfl)))
  refine ⟨_, _, hw₁.trans (.cons hreceive hw₂), ?_, rfl, ?_, ?_, by simp, ?_, t, List.mem_cons_self⟩
  · rw [Connection.init_link o hready]
    exact hlinked₂
  · intro hne
    exact absurd (hsends₂.choose_spec.2.2.trans hsends₁.choose_spec.2.2) hne
  · constructor <;> simp [Serve.init, Loop.queue, Loop.shutdown]
  · exact (o.setup_host hready).2

end Opening

namespace Session

variable {plugin : Plugin} {platform : Platform} {x x' : Session} {h : List ServeEvent}

/-- Every run of a session, from its greeting on, is a run of its senders. -/
theorem outbound_run (o : Opening plugin) {ready : PluginEnvelope} {session : SessionState}
    (hready : receiveReady ready o.trace o.session = .ok session)
    (hr : Steps (Step platform) (init (o.setup session)) h x) :
    ∃ w s, Steps Outbound.Step (.start o.session o.trace outgoingCapacity) w s ∧ Outbound.Related h x.serve s := by
  refine Steps.history (I := fun h x => ∃ w s, Steps Outbound.Step (.start o.session o.trace outgoingCapacity) w s ∧
    Outbound.Related h x.serve s) (o.related hready) (fun h x e x' hr hs ih => ?_) hr
  obtain ⟨w, s, hw, hrel⟩ := ih
  obtain ⟨w', s', hw', hrel'⟩ := hs.related hr hrel
  exact ⟨_, s', hw.trans hw', hrel'⟩

end Session

/-! ### The end of the message IDs -/

/-- A failure to send that the event reports is that of a sender without message IDs. -/
def ServeEvent.OnlyExhausted : ServeEvent → Prop
  | .sendFailed e | .refused _ _ e => e = Requests.idsExhausted
  | _ => True

namespace Serve

variable {v v' : Serve} {e : ServeEvent}

/-- A link that nobody holds, and that has no message ID to give. -/
structure Spent (v : Serve) : Prop where
  free : v.link.reserved = none
  exhausted : v.link.sender.allocate = .error Requests.idsExhausted

private theorem Step.spent (hs : Step v e v') (hspent : v.Spent) :
    v'.Spent ∧ v'.link.wire = v.link.wire ∧ e.OnlyExhausted := by
  obtain ⟨hfree, ha⟩ := hspent
  have hsend : ∀ o, v.link.send o = (v.link, .error Requests.idsExhausted) := fun o => by simp [HostLink.send, ha]
  have hreserve : ∀ call o, v.link.reserve call o = (v.link, .error Requests.idsExhausted) := fun call o => by
    simp [HostLink.reserve, ha]
  have hkeep : v'.link.reserved = v.link.reserved → v'.link.sender = v.link.sender → v'.link.wire = v.link.wire →
      e.OnlyExhausted → v'.Spent ∧ v'.link.wire = v.link.wire ∧ e.OnlyExhausted :=
    fun hreserved hsender hwire he => ⟨⟨hreserved.trans hfree, hsender ▸ ha⟩, hwire, he⟩
  cases hs with
  | task hs => exact hkeep (by rw [hs.link]) (by rw [hs.link]) (by rw [hs.link]) (by cases hs <;> trivial)
  | context hs =>
    cases hs with
    | emit _ _ _ hok => cases (hsend _).symm.trans hok
    | emitFailed _ _ herr =>
      cases (hsend _).symm.trans herr
      exact hkeep rfl rfl rfl rfl
    | reserve _ _ hok => cases (hreserve _ _).symm.trans hok
    | reserveFailed _ _ herr =>
      cases (hreserve _ _).symm.trans herr
      exact hkeep rfl rfl rfl rfl
    | commit _ hv => cases hfree.symm.trans hv
    | commitFailed _ hv => cases hfree.symm.trans hv
    | release hv => cases hfree.symm.trans hv
    | burn =>
      have hburn : v.link.burn = v.link := by simp [HostLink.burn, ha]
      exact hkeep (by rw [hburn]) (by rw [hburn]) (by rw [hburn]) trivial
    | _ => exact hkeep rfl rfl rfl trivial
  | loop hs =>
    cases hs with
    | receive =>
      obtain ⟨pending, hlink⟩ := (process_processed v _).link
      exact hkeep (by rw [hlink]) (by rw [hlink]) (by rw [hlink]) trivial
    | send _ _ _ hok => cases (hsend _).symm.trans hok
    | acknowledge _ _ _ hok => cases (hsend _).symm.trans hok
    | sendFailed _ _ herr | acknowledgeFailed _ _ herr =>
      cases (hsend _).symm.trans herr
      exact hkeep rfl rfl rfl rfl
    | _ => exact hkeep rfl rfl rfl trivial

private theorem Spent.run {w : List ServeEvent} (hspent : v.Spent) (hr : Steps Step v w v') :
    v'.link.wire = v.link.wire ∧ ∀ e ∈ w, e.OnlyExhausted := by
  have hstep : ∀ u e u', Step u e u' → u.Spent ∧ u.link.wire = v.link.wire →
      (u'.Spent ∧ u'.link.wire = v.link.wire) ∧ e.OnlyExhausted := by
    rintro u e u' hs ⟨hspent, hwire⟩
    obtain ⟨hspent', hwire', he⟩ := hs.spent hspent
    exact ⟨⟨hspent', hwire'.trans hwire⟩, he⟩
  obtain ⟨⟨-, hwire⟩, hall⟩ := hr.events hstep ⟨hspent, rfl⟩
  exact ⟨hwire, hall⟩

end Serve

/-! ### Validity for the peer -/

/-- Whoever sends, and wherever senders are dropped or fail, the stream of a session is valid for a symmetric peer,
and the session accepts a reply to each of its envelopes; a sender without message IDs sends nothing more.  The runs
of the loop and of the calls are such runs of senders. -/
theorem outbound_valid {plugin : Plugin} (o : Opening plugin) :
    (∀ {capacity w s}, Steps Outbound.Step (.start o.session o.trace capacity) w s →
      Outbound.ValidStream o.first o.hello s.requests.wire ∧ Outbound.AcceptsEchoes s.session s.requests.wire ∧
      ∀ e w' s' c, s.requests.sender.allocate = .error e → Steps Outbound.Step s w' s' → s.requests.WithoutId c →
        (∀ env, .request (.enqueued c env) ∉ w') ∧
        ∀ r, .request (.returned c r) ∈ w' → r = .error Requests.idsExhausted) ∧
    ∀ {platform ready session h x}, receiveReady ready o.trace o.session = .ok session →
      Steps (Session.Step platform) (.init (o.setup session)) h x →
      (∃ w s, Steps Outbound.Step (.start o.session o.trace outgoingCapacity) w s ∧
        s.requests.wire = x.serve.link.wire ∧ s.requests.sender = x.serve.link.sender ∧
        s.session = x.serve.session) ∧
      Outbound.ValidStream o.first o.hello x.serve.link.wire ∧
      Outbound.AcceptsEchoes x.serve.session x.serve.link.wire ∧
      ∀ e h' x', x.serve.link.sender.allocate = .error e → x.serve.link.reserved = none →
        Steps (Session.Step platform) x h' x' →
        x'.serve.link.wire = x.serve.link.wire ∧ ∀ e ∈ h', e.OnlyExhausted := by
  refine ⟨fun hr => ⟨Outbound.validStream o.valid hr, Outbound.acceptsEchoes o.valid hr, fun e w' s' c he hr' hc =>
    Outbound.exhausted_forever hr' he hc⟩, fun hready hr => ?_⟩
  obtain ⟨w, s, hw, hrel⟩ := Session.outbound_run o hready hr
  have hwire := hrel.linked.wire
  have hvalid := Outbound.validStream o.valid hw
  have hechoes := Outbound.acceptsEchoes o.valid hw
  rw [hwire] at hvalid
  rw [hwire, hrel.session] at hechoes
  refine ⟨⟨w, s, hw, hwire, hrel.linked.sender, hrel.session⟩, hvalid, hechoes, fun e h' x' he hfree hr' => ?_⟩
  obtain ⟨-, rfl⟩ := SenderState.allocate_eq_error.1 he
  exact Serve.Spent.run ⟨hfree, he⟩ (Session.run_serve hr')

namespace Session

open Serve (sampleTrace sampleSetup sampleAccepted sampleRequest)
open Connection (sampleOpening)

/-! ### A stream with a log record and a host call -/

def sampleLogged : PluginEnvelope := sampleEnvelope 4 (.log sampleRecord)

def sampleRequested : PluginEnvelope :=
  sampleSetup.session.identity.stamp 5 ⟨none, sampleCallTrace, .hostCall ⟨some sampleCall⟩⟩

def samplePolling : Session := sampleRunning.setCall 0 (some (logging sampleClone sampleContext sampleRecord))

/-- The log record is enqueued. -/
def sampleLogging : Session :=
  { samplePolling.setCall 0 (some
    ((logging sampleClone sampleContext sampleRecord).resume (.pure (.ok .logged)))) with
    serve :=
      { samplePolling.serve with
        link := (samplePolling.serve.link.send ⟨none, sampleTrace, .log sampleRecord⟩).1 } }

/-- A clone of the context logs, and then the action makes a host call, which waits for its reply. -/
def sampleStream : List ServeEvent :=
  samplePolled ++ ServeEvent.emitted sampleClone 0 sampleLogged ::
    (List.replicate 3 (ServeEvent.internal sampleAction 1) ++ [ServeEvent.reserved sampleAction 1 5,
      .emitted sampleAction 1 sampleRequested])

private theorem sampleStream_steps : ∃ u, Steps (Step samplePlatform)
    (init (sampleOpening.setup ⟨⟨"session", "instance"⟩, 2, 10, 10⟩))
      sampleStream u ∧
    u.serve.link.wire = [sampleOpening.greeting, sampleOpening.ready, sampleAccepted, sampleLogged,
    sampleRequested] := by
  have hlog : Step samplePlatform samplePolling (.emitted sampleClone 0 sampleLogged) sampleLogging :=
    @logging_emit _ samplePolling _ _ sampleRecord 0 _ _ rfl ⟨Nat.one_pos, by simp [sampleClone]⟩ rfl (by decide) rfl
  obtain ⟨c, -, hcall⟩ := @hostCall_steps samplePlatform sampleLogging sampleAction 1 5 sampleContext
    sampleCall .getConfig sampleCallTrace _ sampleAction_canAct rfl rfl rfl rfl rfl rfl rfl rfl (by decide)
  exact ⟨_, samplePolled_steps.trans (.cons hlog hcall), rfl⟩

/-- The stream of this session, and what the peer makes of it. -/
theorem outbound_valid_sampleStream : ∃ (u : Session) (w : List Outbound.Event) (s : Outbound),
    Steps (Step samplePlatform) (init (sampleOpening.setup ⟨⟨"session", "instance"⟩, 2, 10, 10⟩)) sampleStream u ∧
    Steps Outbound.Step (.start sampleOpening.session sampleOpening.trace outgoingCapacity) w s ∧
    s.requests.wire = [sampleOpening.greeting, sampleOpening.ready, sampleAccepted, sampleLogged, sampleRequested] ∧
    Outbound.ValidStream sampleOpening.first sampleOpening.hello s.requests.wire ∧
    Outbound.AcceptsEchoes u.serve.session u.serve.link.wire := by
  obtain ⟨u, hu, hwire⟩ := sampleStream_steps
  have hready : receiveReady (sampleRequest 2 .ready) sampleOpening.trace sampleOpening.session =
      .ok ⟨⟨"session", "instance"⟩, 2, 10, 10⟩ := by decide +kernel
  obtain ⟨⟨w, s, hw, heq, -⟩, -, hechoes, -⟩ := (outbound_valid sampleOpening).2 hready hu
  obtain ⟨hvalid, -⟩ := (outbound_valid sampleOpening).1 hw
  exact ⟨u, w, s, hu, hw, heq.trans hwire, hvalid, hechoes⟩

end Session

end PluginSdk
