import PluginSdk.Settlement

/-!
# Graceful shutdown

When `serve` returns without an error, all tasks are joined, all cancellations are acknowledged, and the output
stream has taken out everything up to the acknowledgement of the shutdown (`Serve.shutdown_drains`).  Where the
output stream goes away before that, the loop can only fail, and it always can (`Serve.exists_fails`).
-/

namespace PluginSdk

open Lts

namespace Serve

variable {s s' : Serve} {e : ServeEvent} {h : List ServeEvent} {setup : Setup}

/-! ### The output stream -/

/-- What the output stream has taken out of the channel, in order. -/
def output (s : Serve) : List PluginEnvelope := s.link.wire.take s.link.consumed

/-- A step enqueues at the end of the channel, or takes out the oldest envelope, or closes the channel for good. -/
theorem Step.link (hs : Step s e s') :
    (s'.link.consumed = s.link.consumed ∨
      e = .consumed ∧ s.link.closed = false ∧ s.link.consumed < s.link.wire.length ∧
        s'.link.consumed = s.link.consumed + 1) ∧
    (s'.link.closed = s.link.closed ∨ e = .closed ∧ s'.link.closed = true) := by
  have hsame : s'.link.consumed = s.link.consumed ∧ s'.link.closed = s.link.closed →
      (s'.link.consumed = s.link.consumed ∨
        e = .consumed ∧ s.link.closed = false ∧ s.link.consumed < s.link.wire.length ∧
          s'.link.consumed = s.link.consumed + 1) ∧
      (s'.link.closed = s.link.closed ∨ e = .closed ∧ s'.link.closed = true) :=
    fun h => ⟨Or.inl h.1, Or.inl h.2⟩
  cases hs with
  | task hs => exact hsame (by rw [hs.link]; exact ⟨rfl, rfl⟩)
  | context hs =>
    cases hs with
    | emit _ _ _ hsend => exact hsame (by rw [(HostLink.send_eq_ok hsend).2]; exact ⟨rfl, rfl⟩)
    | emitFailed _ _ hsend => exact hsame (by rw [HostLink.send_eq_error hsend]; exact ⟨rfl, rfl⟩)
    | reserve _ _ hreserve => exact hsame (by rw [(HostLink.reserve_eq_ok hreserve).2]; exact ⟨rfl, rfl⟩)
    | reserveFailed _ _ hreserve => exact hsame (by rw [HostLink.reserve_eq_error hreserve]; exact ⟨rfl, rfl⟩)
    | burn => exact hsame (by rw [HostLink.burn_eq]; exact ⟨rfl, rfl⟩)
    | consume hclosed hlt => exact ⟨Or.inr ⟨rfl, hclosed, hlt, rfl⟩, Or.inl rfl⟩
    | close => exact ⟨Or.inl rfl, Or.inr ⟨rfl, rfl⟩⟩
    | _ => exact hsame ⟨rfl, rfl⟩
  | loop hs =>
    cases hs with
    | receive =>
      obtain ⟨pending, hl⟩ := (process_processed s _).link
      exact hsame (by rw [hl]; exact ⟨rfl, rfl⟩)
    | send _ _ _ hsend => exact hsame (by rw [(HostLink.send_eq_ok hsend).2]; exact ⟨rfl, rfl⟩)
    | sendFailed _ _ hsend => exact hsame (by simp only [fail]; rw [HostLink.send_eq_error hsend]; exact ⟨rfl, rfl⟩)
    | acknowledge _ _ _ hsend => exact hsame (by rw [(HostLink.send_eq_ok hsend).2]; exact ⟨rfl, rfl⟩)
    | acknowledgeFailed _ _ hsend =>
      exact hsame (by simp only [fail]; rw [HostLink.send_eq_error hsend]; exact ⟨rfl, rfl⟩)
    | _ => exact hsame ⟨rfl, rfl⟩

private theorem Step.closed_inv (hs : Step s .closed s') :
    s' = { s with link := { s.link with closed := true } } := by
  cases hs with
  | loop hs => cases hs
  | task hs => cases hs
  | context hs =>
    cases hs with
    | close => rfl

/-- No more is taken out than there is. -/
private theorem consumed_le (hr : Steps Step (init setup) h s) : s.link.consumed ≤ s.link.wire.length := by
  refine hr.invariant (I := fun s => s.link.consumed ≤ s.link.wire.length) (fun s e s' hs hle => ?_)
    (by simp [init_link])
  have hwire := congrArg List.length hs.wire
  rw [List.length_append] at hwire
  rcases hs.link.1 with heq | ⟨-, -, hlt, heq⟩ <;> omega

/-- Once the output stream has gone away nothing more is taken out. -/
private theorem output_of_closed (hle : s.link.consumed ≤ s.link.wire.length)
    (hclosed : s.link.closed = true) {u : Serve} (hr : Steps Step s h u) :
    u.link.closed = true ∧ u.output = s.output := by
  have hall : u.link.closed = true ∧ u.output = s.output ∧ u.link.consumed ≤ u.link.wire.length := by
    refine hr.invariant (I := fun u => u.link.closed = true ∧ u.output = s.output ∧
      u.link.consumed ≤ u.link.wire.length) (fun t e t' hs ht => ?_) ⟨hclosed, rfl, hle⟩
    obtain ⟨hclosed, hout, hle⟩ := ht
    have hwire := hs.wire
    have hlength := congrArg List.length hwire
    rw [List.length_append] at hlength
    have hconsumed : t'.link.consumed = t.link.consumed := by
      rcases hs.link.1 with heq | ⟨-, hopen, -⟩
      · exact heq
      · rw [hclosed] at hopen
        cases hopen
    refine ⟨?_, ?_, by omega⟩
    · rcases hs.link.2 with heq | ⟨-, hclosed'⟩
      · rw [heq, hclosed]
      · exact hclosed'
    · rw [← hout]
      unfold Serve.output
      rw [hwire, hconsumed, List.take_append_of_le_length hle]
  exact ⟨hall.1, hall.2.1⟩

/-! ### The acknowledgement of the shutdown -/

/-- The acknowledgement of the shutdown is the `count`-th envelope of the run. -/
def AcknowledgedAt (setup : Setup) (h : List ServeEvent) (count : Nat) : Prop :=
  ∃ h₁ ack h₂, h = h₁ ++ .sent ack :: h₂ ∧ ack.payload = some .shutdownAcknowledged ∧
    count = ((init setup).link.wire ++ h₁.filterMap ServeEvent.enqueued).length + 1

private theorem AcknowledgedAt.mono {count : Nat} (ha : AcknowledgedAt setup h count) (e : ServeEvent) :
    AcknowledgedAt setup (h ++ [e]) count := by
  obtain ⟨h₁, ack, h₂, rfl, hp, hcount⟩ := ha
  exact ⟨h₁, ack, h₂ ++ [e], by simp, hp, hcount⟩

/-- What a shutdown has come to. -/
structure Drained (setup : Setup) (h : List ServeEvent) (s : Serve) : Prop where
  consuming : ∀ count deadline, s.loop = .consuming count deadline → AcknowledgedAt setup h count
  returned : ∀ deadline, s.loop = .returned (.ok deadline) →
    s.jobs.tasks = [] ∧ activeKeys s.jobs.active = [] ∧ ∃ count, AcknowledgedAt setup h count ∧
    count ≤ s.link.consumed

private theorem Processed.not_finishing {envelope : PluginEnvelope} {call : Option Nat}
    (hp : Processed s envelope s' call) (hloop : s.loop = .head) :
    (∀ count deadline, s'.loop ≠ .consuming count deadline) ∧ ∀ deadline, s'.loop ≠ .returned (.ok deadline) := by
  cases hp with
  | replied => simp [hloop]
  | failed => simp [fail]
  | _ => simp

private theorem Step.drained (hm : s.Matched) (hq : s.Queued)
    (hwire : s.link.wire = (init setup).link.wire ++ h.filterMap ServeEvent.enqueued) (hs : Step s e s')
    (hd : Drained setup h s) : Drained setup (h ++ [e]) s' := by
  have hconsumed : s.link.consumed ≤ s'.link.consumed := by
    rcases hs.link.1 with heq | ⟨-, -, -, heq⟩ <;> omega
  have hframe : Frame s s' → Drained setup (h ++ [e]) s' := by
    intro hf
    refine ⟨fun count deadline hloop => ?_, fun deadline hloop => ?_⟩
    · exact (hd.consuming count deadline (hf.loop ▸ hloop)).mono e
    · obtain ⟨htasks, hactive, count, ha, hle⟩ := hd.returned deadline (hf.loop ▸ hloop)
      have hkeys := hf.keys
      rw [htasks] at hkeys
      refine ⟨List.map_eq_nil_iff.1 hkeys, by rw [hf.active]; exact hactive, count, ha.mono e, hle.trans hconsumed⟩
  have hother : (∀ count deadline, s'.loop ≠ .consuming count deadline) →
    (∀ deadline, s'.loop ≠ .returned (.ok deadline)) →
      Drained setup (h ++ [e]) s' := by
    intro hc hr
    exact ⟨fun count deadline hloop => absurd hloop (hc count deadline), fun deadline hloop =>
      absurd hloop (hr deadline)⟩
  cases hs with
  | task hs => exact hframe hs.frame
  | context hs => exact hframe hs.frame
  | loop hs =>
    cases hs with
    | @receive envelope hloop =>
      obtain ⟨hc, hr⟩ := (process_processed s envelope).not_finishing hloop
      exact hother hc hr
    | drain hloop => exact hother (by simp [hloop]) (by simp [hloop])
    | @acknowledge o deadline link env hloop _ _ hsend =>
      obtain ⟨rfl, rfl⟩ := HostLink.send_eq_ok hsend
      refine ⟨fun count deadline' hloop' => ?_, by simp⟩
      cases hloop'
      refine ⟨h, _, [], rfl, ?_, ?_⟩
      · rw [← hq.shutdown (by rw [hloop]; rfl)]
        rfl
      · rw [List.length_append, hwire]
        rfl
    | @finish count deadline hloop hle =>
      have hagree := hm.agree
      unfold Matches at hagree
      rw [hloop] at hagree
      refine ⟨by simp, fun deadline' hloop' => ?_⟩
      exact ⟨hagree.1, hagree.2, count, (hd.consuming count deadline hloop).mono _, hle⟩
    | _ => exact hother (by simp [fail]) (by simp [fail])

theorem drained (hr : Steps Step (init setup) h s) : Drained setup h s := by
  refine Steps.history (I := Drained setup) ⟨by simp [init], by simp [init]⟩ (fun h s e s' hr hs hd => ?_) hr
  exact hs.drained (matched hr) (queued hr) (wire_eq hr) hd

/-- The envelopes up to the acknowledgement of the shutdown, where the output stream has taken it out. -/
theorem AcknowledgedAt.output {count : Nat} (ha : AcknowledgedAt setup h count) (hr : Steps Step (init setup) h s)
    (hle : count ≤ s.link.consumed) :
    ∃ h₁ ack h₂, h = h₁ ++ .sent ack :: h₂ ∧ ack.payload = some .shutdownAcknowledged ∧
      (init setup).link.wire ++ h₁.filterMap ServeEvent.enqueued ++ [ack] <+: s.output := by
  obtain ⟨h₁, ack, h₂, rfl, hp, rfl⟩ := ha
  refine ⟨h₁, ack, h₂, rfl, hp, ?_⟩
  have hwire : s.link.wire = ((init setup).link.wire ++ h₁.filterMap ServeEvent.enqueued ++ [ack]) ++
      h₂.filterMap ServeEvent.enqueued := by
    rw [wire_eq hr, List.filterMap_append, List.filterMap_cons]
    simp [ServeEvent.enqueued]
  unfold Serve.output
  rw [hwire]
  refine List.prefix_take_iff.2 ⟨List.prefix_append _ _, ?_⟩
  rw [List.length_append]
  exact hle

/-! ### The cancellations -/

/-- One element has the label if no two have the same. -/
private theorem filter_of_nodup {α β : Type} [DecidableEq β] {l : List α} {f : α → Option β}
    (hnd : (l.filterMap f).Nodup) {a : α} {b : β} (ha : a ∈ l) (hb : f a = some b) :
    l.filter (fun x => f x = some b) = [a] := by
  induction l with
  | nil => cases ha
  | cons x rest ih =>
    rw [List.filterMap_cons] at hnd
    by_cases hx : f x = some b
    · simp only [hx, List.nodup_cons] at hnd
      have hrest : ∀ y ∈ rest, f y ≠ some b := fun y hy hf => hnd.1 (List.mem_filterMap.2 ⟨y, hy, hf⟩)
      have hax : a = x := (List.mem_cons.1 ha).resolve_right fun h => hrest a h hb
      rw [List.filter_cons_of_pos (by simpa using hx), hax, List.filter_eq_nil_iff.2 fun y hy =>
        by simpa using hrest y hy]
    · have hne : a ≠ x := by
        rintro rfl
        exact hx hb
      rw [List.filter_cons_of_neg (by simpa using hx)]
      refine ih ?_ ((List.mem_cons.1 ha).resolve_left hne)
      split at hnd
      · exact hnd
      · exact (List.nodup_cons.1 hnd).2

/-- Only the loop replies. -/
private theorem sent_of_reply (hr : Steps Step (init setup) h s) {envelope : PluginEnvelope}
    (hmem : envelope ∈ s.link.wire) {id : Nat} (hreply : envelope.replyTo = some id) : .sent envelope ∈ h := by
  rw [wire_eq hr] at hmem
  rcases List.mem_append.1 hmem with hhandshake | hrun
  · rw [init_link] at hhandshake
    simp only [List.mem_cons, List.not_mem_nil, or_false] at hhandshake
    rcases hhandshake with rfl | rfl
    · cases hreply
    · cases hreply
  · obtain ⟨e, he, henqueued⟩ := List.mem_filterMap.1 hrun
    cases e with
    | sent env =>
      obtain rfl : env = envelope := Option.some.inj henqueued
      exact he
    | emitted actor call env =>
      obtain rfl : env = envelope := Option.some.inj henqueued
      obtain ⟨h₁, h₂, rfl⟩ := List.append_of_mem he
      obtain ⟨t, t', ht, hs, -⟩ := hr.split
      have hnone : env.replyTo = none := by
        cases hs with
        | loop hs => cases hs
        | task hs => cases hs
        | context hs =>
          cases hs with
          | emit _ _ _ hsend =>
            obtain ⟨rfl, -⟩ := HostLink.send_eq_ok hsend
            rfl
          | commit _ hreserved => exact reserved_replyTo ht _ hreserved
      rw [hnone] at hreply
      cases hreply
    | _ => cases henqueued

/-- The only kind of request that is answered by the acknowledgement of a cancellation. -/
private theorem cancelJob_of_answer {maximum : Nat} {p : Payload} {jobId : PluginJobId}
    (h : AnswerPayload maximum p (.cancelJobAcknowledged ⟨some jobId⟩)) :
    ∃ request, p = .cancelJob request ∧ request.jobId = some jobId := by
  cases p with
  | cancelJob request =>
    have hanswer : Payload.cancelJobAcknowledged ⟨some jobId⟩ = .cancelJobAcknowledged ⟨request.jobId⟩ := h
    exact ⟨request, rfl, by simpa using hanswer.symm⟩
  | startJob => rcases h with h | ⟨error, h, -⟩ <;> cases h
  | heartbeat => cases h
  | shutdown => cases h
  | _ => exact h.elim

/-- A pending cancellation has its acknowledgement, and no other reply, when the loop returns without an error. -/
theorem acknowledged_once {deadline : Timestamp} (hr : Steps Step (init setup) h s)
    (hloop : s.loop = .returned (.ok deadline)) {a b : List ServeEvent} {t : Serve} (hab : h = a ++ b)
    (ht : Steps Step (init setup) a t) (hhead : t.loop = .head) {c : PendingCancellation}
    (hc : c ∈ pendingCancellations t.jobs.active) :
    ∃ ack, s.link.wire.filter (fun envelope => envelope.replyTo = some c.replyTo) = [ack] ∧ ack.trace = some c.trace ∧
      ack.payload = some (.cancelJobAcknowledged ⟨some c.jobId⟩) := by
  have howed : (⟨c.replyTo, some c.trace, some (.cancelJobAcknowledged ⟨some c.jobId⟩)⟩ : Reply) ∈
    t.replied + t.owed := by
    obtain ⟨entry, hentry, hc⟩ := List.mem_flatMap.1 hc
    have hack : c.acknowledgement ∈ JobManager.acknowledgements t.jobs.active.toPairs :=
      List.mem_flatMap.2 ⟨entry, hentry, List.mem_map_of_mem hc⟩
    rw [show t.owed = pendingReplies t.jobs.active by simp only [owed, hhead]]
    exact Multiset.mem_add.2 (Or.inr (Multiset.mem_coe.2 (List.mem_filterMap.2 ⟨_, hack, rfl⟩)))
  obtain ⟨request, hrequest, hanswers⟩ := answers_of_replied ht howed
  have hnd := nodup_wire_replyTo hr
  obtain ⟨hids, hperm⟩ := requests_of_returned hr hloop
  have hmem : request ∈ requests h := by
    rw [hab, requests, List.filterMap_append]
    exact List.mem_append_left _ hrequest
  have hid : c.replyTo ∈ s.link.wire.filterMap (·.replyTo) := by
    refine hperm.subset ?_
    rw [show c.replyTo = request.messageId from hanswers.replyTo]
    exact List.mem_map_of_mem hmem
  obtain ⟨ack, hack, hreply⟩ := List.mem_filterMap.1 hid
  have hlabel : ack.reply = some ⟨c.replyTo, ack.trace, ack.payload⟩ := by
    simp [PluginEnvelope.reply, hreply]
  obtain ⟨request', hmem', hanswers'⟩ := answers_of_replied hr
    (Multiset.mem_add.2 (Or.inl (Multiset.mem_coe.2 (List.mem_filterMap.2 ⟨ack, hack, hlabel⟩))))
  -- no two requests have the same message ID
  obtain rfl : request = request' :=
    List.inj_on_of_nodup_map hids hmem hmem' (hanswers.replyTo.symm.trans hanswers'.replyTo)
  refine ⟨ack, filter_of_nodup hnd hack hreply, hanswers'.trace.trans hanswers.trace.symm, ?_⟩
  obtain ⟨p, q, hp, hq, hanswer⟩ := hanswers.payload
  obtain ⟨p', q', hp', hq', hanswer'⟩ := hanswers'.payload
  obtain rfl : p = p' := Option.some.inj (hp.symm.trans hp')
  cases hq
  obtain ⟨cancel, rfl, hjob⟩ := cancelJob_of_answer hanswer
  have hpayload : ack.payload = some q' := hq'
  rw [hpayload, show q' = _ from hanswer', hjob]

/-! ### A shutdown whose output stream has gone away -/

/-- The task can be brought to its end, while the loop waits. -/
def Completes (inst : Nat) (jobId : String) (s : Serve) : Prop :=
  ∃ w u result, Steps Step s w u ∧ ⟨inst, jobId, .completed result⟩ ∈ u.jobs.tasks ∧
    u.loop = s.loop ∧ u.link = s.link ∧ u.jobs.tasks.length = s.jobs.tasks.length

section Tasks

variable {inst : Nat} {jobId : String}

private theorem Completes.of_step (hs : TaskStep s e s') (hc : Completes inst jobId s') : Completes inst jobId s := by
  obtain ⟨w, u, result, hw, hmem, hloop, hlink, hlength⟩ := hc
  have hkeys := congrArg List.length hs.frame.keys
  rw [taskKeys, taskKeys, List.length_map, List.length_map] at hkeys
  exact ⟨e :: w, u, result, .cons (.task hs) hw, hmem, hloop.trans hs.frame.loop, hlink.trans hs.link,
    hlength.trans hkeys⟩

private theorem mem_setPhase_self {phase phase' : TaskPhase} (ht : ⟨inst, jobId, phase⟩ ∈ s.jobs.tasks) :
    ⟨inst, jobId, phase'⟩ ∈ (s.setPhase inst phase').jobs.tasks :=
  List.mem_map.2 ⟨_, ht, if_pos rfl⟩

private theorem completes_of_completed {result : Except String Output}
    (ht : ⟨inst, jobId, .completed result⟩ ∈ s.jobs.tasks) : Completes inst jobId s :=
  ⟨[], s, result, .nil, ht, rfl, rfl, rfl⟩

private theorem completes_of_ended {result : Except String Output}
    (ht : ⟨inst, jobId, .ended result⟩ ∈ s.jobs.tasks) : Completes inst jobId s := by
  have hfinished := @mem_setPhase_self _ _ _ _ (.finished result) ht
  refine .of_step (.finish ht) (.of_step (.complete hfinished) ?_)
  exact completes_of_completed (mem_setPhase_self hfinished)

/-- An aborted task comes to its end, wherever it is. -/
theorem completes (ha : s.Aborting) {phase : TaskPhase} (ht : ⟨inst, jobId, phase⟩ ∈ s.jobs.tasks) :
    Completes inst jobId s := by
  cases phase with
  | spawned => exact .of_step (.abortSpawned ha ht) (completes_of_completed (mem_setPhase_self ht))
  | running => exact .of_step (.abort ha ht) (completes_of_ended (mem_setPhase_self ht))
  | ended result => exact completes_of_ended ht
  | finished result => exact .of_step (.complete ht) (completes_of_completed (mem_setPhase_self ht))
  | completed result => exact completes_of_completed ht

end Tasks

/-- The loop can come to its end with an error. -/
def CanFail (s : Serve) : Prop := ∃ w u e, Steps Step s w u ∧ u.loop = .returned (.error e)

private theorem CanFail.of_steps {w : List ServeEvent} {u : Serve} (hw : Steps Step s w u)
    (hc : CanFail u) : CanFail s := by
  obtain ⟨w', v, e, hw', hloop⟩ := hc
  exact ⟨w ++ w', v, e, hw.trans hw', hloop⟩

private theorem CanFail.of_step (hs : LoopStep s e s') (hc : CanFail s') : CanFail s :=
  .of_steps (.single (.loop hs)) hc

/-- Whoever holds the sender lock gives up when the channel is closed. -/
private theorem exists_unreserved (s : Serve) :
    ∃ w link, Steps Step s w { s with link } ∧ link.reserved = none ∧ link.closed = s.link.closed := by
  cases hr : s.link.reserved with
  | none => exact ⟨[], s.link, .nil, hr, rfl⟩
  | some r => exact ⟨_, s.link.release r, .single (.context (.release hr)), rfl, rfl⟩

private theorem send_of_closed {l : HostLink} (o : Outgoing) (hclosed : l.closed = true) :
    ∃ l' e, l.send o = (l', .error e) := by
  unfold HostLink.send
  cases l.sender.allocate with
  | error e => exact ⟨_, _, rfl⟩
  | ok r =>
    simp only
    rw [if_pos hclosed]
    exact ⟨_, _, rfl⟩

section Closed

variable {o : Outgoing} {deadline : Timestamp} {queue : List Outgoing}

private theorem canFail_sending {next : Next} (hclosed : s.link.closed = true)
    (hloop : s.loop = .sending (o :: queue) next) : CanFail s := by
  obtain ⟨w, link, hw, hnone, heq⟩ := exists_unreserved s
  obtain ⟨link', e, hsend⟩ := send_of_closed o (heq.trans hclosed)
  refine .of_steps hw ?_
  exact ⟨_, _, e, .single (.loop (.sendFailed hloop hnone hsend)), rfl⟩

private theorem canFail_acknowledging (hclosed : s.link.closed = true) (hloop : s.loop = .acknowledging o deadline) :
    CanFail s := by
  obtain ⟨w, link, hw, hnone, heq⟩ := exists_unreserved s
  obtain ⟨link', e, hsend⟩ := send_of_closed o (heq.trans hclosed)
  refine .of_steps hw ?_
  exact ⟨_, _, e, .single (.loop (.acknowledgeFailed hloop hnone hsend)), rfl⟩

private theorem canFail_clearing (hclosed : s.link.closed = true)
    (hloop : s.loop = .sending queue (.clear o deadline)) : CanFail s := by
  cases queue with
  | nil => exact .of_step (.clear hloop) (canFail_acknowledging hclosed rfl)
  | cons o' queue => exact canFail_sending hclosed hloop

private theorem canFail_draining (hclosed : s.link.closed = true) (hloop : s.loop = .draining o deadline) :
    CanFail s := by
  -- one task after the other is brought to its end and joined
  induction hn : s.jobs.tasks.length using Nat.strong_induction_on generalizing s with
  | h n ih =>
    cases htasks : s.jobs.tasks with
    | nil =>
      refine .of_step (.takeCancellations hloop htasks (List.Perm.refl _)) ?_
      exact canFail_clearing hclosed rfl
    | cons t rest =>
      have hmem : ⟨t.inst, t.jobId, t.phase⟩ ∈ s.jobs.tasks := by
        rw [htasks]
        exact List.mem_cons_self
      have haborting : s.Aborting := by
        unfold Aborting
        rw [hloop]
        trivial
      obtain ⟨w, u, result, hw, hcompleted, hloop', hlink, hlength⟩ := completes haborting hmem
      have hdraining : u.loop = .draining o deadline := hloop'.trans hloop
      have hlt : (u.jobs.join ⟨t.inst, t.jobId, .completed result⟩).tasks.length < n := by
        rw [← hn, ← hlength]
        exact List.length_filter_lt_length_iff_exists.2 ⟨_, hcompleted, by simp⟩
      refine .of_steps hw (.of_step (.drain hdraining hcompleted) ?_)
      exact ih _ hlt (by rw [hlink]; exact hclosed) hdraining rfl

end Closed

/-- A shutdown whose output stream has gone away too early can always come to its end, and only with an error. -/
theorem exists_fails (hr : Steps Step (init setup) h s) (hclosed : s.link.closed = true)
    (hout : ∀ envelope ∈ s.output, envelope.payload ≠ some .shutdownAcknowledged) :
    (∀ deadline, s.loop ≠ .returned (.ok deadline)) ∧ (s.Closing → CanFail s) := by
  have hd := drained hr
  have hfew : ∀ {count}, AcknowledgedAt setup h count → s.link.consumed < count := by
    intro count ha
    by_contra hle
    obtain ⟨h₁, ack, h₂, -, hp, htaken⟩ := ha.output hr (not_lt.1 hle)
    exact hout ack (htaken.subset (by simp)) hp
  have hreturned : ∀ deadline, s.loop ≠ .returned (.ok deadline) := by
    intro deadline hloop
    obtain ⟨-, -, count, ha, hle⟩ := hd.returned deadline hloop
    have hlt := hfew ha
    omega
  refine ⟨hreturned, fun hclosing => ?_⟩
  unfold Closing at hclosing
  split at hclosing
  · rename_i hloop
    exact canFail_draining hclosed hloop
  · rename_i hloop
    exact canFail_clearing hclosed hloop
  · rename_i hloop
    exact canFail_acknowledging hclosed hloop
  · rename_i count deadline hloop
    exact ⟨_, _, _, .single (.loop (.finishFailed hloop (hfew (hd.consuming _ _ hloop)) hclosed)), rfl⟩
  · rename_i deadline hloop
    exact absurd hloop (hreturned deadline)
  · exact hclosing.elim

/-- When `serve` returns without an error, no job and no task is left, every pending cancellation has been
acknowledged once before the shutdown is, and the output stream has taken out everything up to the acknowledgement
of the shutdown.  If the output stream goes away before it has taken that out, the loop does not return without an
error, and a shutdown under way can come to its end with one. -/
theorem shutdown_drains (hr : Steps Step (init setup) h s) :
    (∀ deadline, s.loop = .returned (.ok deadline) → s.jobs.active = ∅ ∧ s.jobs.tasks = [] ∧
      ∃ h₁ ack h₂, h = h₁ ++ ServeEvent.sent ack :: h₂ ∧ ack.payload = some .shutdownAcknowledged ∧
        (∀ envelope, .sent envelope ∉ h₂) ∧
        (init setup).link.wire ++ h₁.filterMap ServeEvent.enqueued ++ [ack] <+: s.output ∧
        ∀ a b t, h = a ++ b → Steps Step (init setup) a t → t.loop = .head →
          ∀ c ∈ pendingCancellations t.jobs.active, ∃ acknowledged,
            s.link.wire.filter (fun envelope => envelope.replyTo = some c.replyTo) = [acknowledged] ∧
            acknowledged.trace = some c.trace ∧
            acknowledged.payload = some (.cancelJobAcknowledged ⟨some c.jobId⟩) ∧ .sent acknowledged ∈ h₁) ∧
    ∀ h₁ t t' h₂, h = h₁ ++ ServeEvent.closed :: h₂ → Steps Step (init setup) h₁ t → Step t .closed t' →
      Steps Step t' h₂ s →
      (∀ envelope ∈ t.output, envelope.payload ≠ some .shutdownAcknowledged) →
      (∀ deadline, s.loop ≠ .returned (.ok deadline)) ∧
        (s.Closing → ∃ w u e, Steps Step s w u ∧ u.loop = .returned (.error e)) := by
  constructor
  · intro deadline hloop
    obtain ⟨htasks, hactive, count, ha, hle⟩ := (drained hr).returned deadline hloop
    obtain ⟨h₁, ack, h₂, rfl, hp, htaken⟩ := ha.output hr hle
    have hempty : s.jobs.active = ∅ := by
      have hpairs := List.map_eq_nil_iff.1 hactive
      exact AList.ext (List.map_eq_nil_iff.1 hpairs)
    obtain ⟨u, u', hu, hsent, hrest⟩ := hr.split
    have hlast : ∀ envelope, .sent envelope ∉ h₂ := fun envelope hmem =>
      (after_shutdown (J := "") hu hsent hp hrest).2 _ hmem envelope rfl
    refine ⟨hempty, htasks, h₁, ack, h₂, rfl, hp, hlast, htaken, fun a b t hab ht hhead c hc => ?_⟩
    obtain ⟨acknowledged, hfilter, htrace, hpayload⟩ := acknowledged_once hr hloop hab ht hhead hc
    have hmem : acknowledged ∈ s.link.wire.filter (fun envelope => envelope.replyTo = some c.replyTo) := by
      rw [hfilter]
      exact List.mem_singleton.2 rfl
    obtain ⟨hwire, hreply⟩ := List.mem_filter.1 hmem
    refine ⟨acknowledged, hfilter, htrace, hpayload, ?_⟩
    rcases List.mem_append.1 (sent_of_reply hr hwire (by simpa using hreply)) with hbefore | hafter
    · exact hbefore
    · rcases List.mem_cons.1 hafter with heq | hafter
      · cases heq
        rw [hp] at hpayload
        cases hpayload
      · exact absurd hafter (hlast _)
  · intro h₁ t t' h₂ _ ht hclose hrest hout
    obtain rfl := hclose.closed_inv
    have ht' := ht.snoc hclose
    obtain ⟨hclosed', hout'⟩ := output_of_closed (consumed_le ht') rfl hrest
    refine exists_fails hr hclosed' ?_
    rw [hout']
    exact hout

/-- The host shuts the plugin down while the cancellation of a job is pending. -/
def sampleShutdown : List ServeEvent :=
  [ServeEvent.received sampleStart none, .sent sampleAccepted,
    .spawned 0 ⟨sampleJobId, none, sampleTrace, 0, 3, sampleSetup.host⟩, .received sampleCancel none, .resumed,
    .received (sampleRequest 5 (.shutdown ⟨"maintenance", some ⟨0, 0⟩⟩)) none, .task 0 sampleJobId .aborted,
    .drained 0 sampleJobId, .cancellationsTaken, .sent sampleAcknowledged, .cleared,
    .sent (sampleReply 5 5 .shutdownAcknowledged)] ++
    List.replicate 5 ServeEvent.consumed ++ [ServeEvent.returned (.ok ⟨0, 0⟩)]

private theorem sampleShutdown_steps : ∃ s, Steps Step (init sampleSetup) sampleShutdown s := by
  have hstart : (init sampleSetup).Request sampleStart sampleTrace ⟨⟨"session", "instance"⟩, 3, 10, 10⟩
      (.startJob ⟨some ⟨sampleJobId⟩, none, some ⟨"echo", []⟩⟩) := sampleRequest_valid rfl (by decide)
  have hok : (init sampleSetup).jobs.Startable ⟨some ⟨sampleJobId⟩, none, some ⟨"echo", []⟩⟩
    sampleJobId ⟨"echo", []⟩ :=
    ⟨jobId_sampleJobId, rfl, rfl, rfl, by decide⟩
  refine Steps.exists_cons (.loop (.of_process rfl ((process_of_startable hstart hok).trans (if_neg (by decide))))) ?_
  refine Steps.exists_cons (.loop (.send rfl rfl (by decide) rfl)) ?_
  refine Steps.exists_cons (.loop (@LoopStep.spawn _ ⟨sampleJobId, none, sampleTrace, 3, []⟩ rfl rfl)) ?_
  refine Steps.exists_cons (.loop (.of_process rfl
    (process_of_cancel (sampleRequest_valid rfl (by decide)) jobId_sampleJobId rfl rfl))) ?_
  refine Steps.exists_cons (.loop (.resume rfl)) ?_
  refine Steps.exists_cons (.loop
    (.of_process rfl (process_of_shutdown (sampleRequest_valid rfl (by decide)) rfl))) ?_
  refine Steps.exists_cons (.task (.abortSpawned trivial (List.mem_singleton.2 rfl))) ?_
  refine Steps.exists_cons (.loop (.drain rfl (List.mem_singleton.2 rfl))) ?_
  refine Steps.exists_cons (.loop (.takeCancellations rfl rfl (List.Perm.refl _))) ?_
  refine Steps.exists_cons (.loop (.send rfl rfl (by decide) rfl)) ?_
  refine Steps.exists_cons (.loop (.clear rfl)) ?_
  refine Steps.exists_cons (.loop (.acknowledge rfl rfl (by decide) rfl)) ?_
  refine Steps.exists_cons (.context (.consume rfl (by decide))) ?_
  refine Steps.exists_cons (.context (.consume rfl (by decide))) ?_
  refine Steps.exists_cons (.context (.consume rfl (by decide))) ?_
  refine Steps.exists_cons (.context (.consume rfl (by decide))) ?_
  refine Steps.exists_cons (.context (.consume rfl (by decide))) ?_
  exact ⟨_, .single (.loop (.finish rfl (by decide)))⟩

theorem shutdown_drains_sampleShutdown : ∃ s, Steps Step (init sampleSetup) sampleShutdown s ∧ s.jobs.active = ∅ ∧
    s.jobs.tasks = [] ∧ ∃ ack ∈ s.output, ack.payload = some .shutdownAcknowledged := by
  obtain ⟨s, hr⟩ := sampleShutdown_steps
  obtain ⟨t, -, hs⟩ := hr.snoc_inv
  have hloop : s.loop = .returned (.ok ⟨0, 0⟩) := by
    cases hs with
    | task hs => cases hs
    | context hs => cases hs
    | loop hs =>
      cases hs with
      | finish => rfl
  obtain ⟨hactive, htasks, h₁, ack, h₂, -, hp, -, htaken, -⟩ := (shutdown_drains hr).1 _ hloop
  exact ⟨s, hr, hactive, htasks, ack, htaken.subset (by simp), hp⟩

end Serve

end PluginSdk
