import PluginSdk.JobTable

/-!
# What the loop sends

The loop sends only the replies to requests that concern no active job, the acceptance of a new job, the settlement
of a finished one, and at the end of a shutdown the acknowledgements (`Serve.Queued`).  So each kind of envelope of
a job is sent at one place.
-/

namespace PluginSdk

open Lts

/-- What the loop may have to send before its next step. -/
def Next.Sends (active : Table String ActiveJob) (next : Next) (o : Outgoing) : Prop :=
  match next with
  | .head =>
    (∃ error, o.payload = .protocolError error) ∨ (∃ heartbeat, o.payload = .heartbeat heartbeat) ∨
      ∃ jobId, o.payload = .cancelJobAcknowledged ⟨some ⟨jobId⟩⟩ ∧ active.lookup jobId = none
  | .spawn job => o.payload = .jobAccepted ⟨some ⟨job.jobId⟩⟩
  | .remove jobId =>
    o.payload = .cancelJobAcknowledged ⟨some ⟨jobId⟩⟩ ∨ ∃ update, o.payload = .jobUpdate update ∧
      update.jobId = some ⟨jobId⟩
  | .clear _ _ => ∃ jobId, o.payload = .cancelJobAcknowledged ⟨some ⟨jobId⟩⟩ ∧ jobId ∈ active

/-- Five kinds of payload are sent, an acceptance for a new job only and an update for a finished one only. -/
private theorem Next.Sends.kind {active : Table String ActiveJob} {next : Next} {o : Outgoing}
    (ho : next.Sends active o) :
    (∃ error, o.payload = .protocolError error) ∨ (∃ heartbeat, o.payload = .heartbeat heartbeat) ∨
      (∃ jobId, o.payload = .cancelJobAcknowledged ⟨some ⟨jobId⟩⟩) ∨
      (∃ job, o.payload = .jobAccepted ⟨some ⟨job.jobId⟩⟩ ∧ next = .spawn job) ∨
      ∃ update jobId, o.payload = .jobUpdate update ∧ next = .remove jobId ∧ update.jobId = some ⟨jobId⟩ := by
  cases next with
  | head =>
    rcases ho with ho | ho | ⟨jobId, ho, -⟩
    · exact .inl ho
    · exact .inr (.inl ho)
    · exact .inr (.inr (.inl ⟨jobId, ho⟩))
  | spawn job => exact .inr (.inr (.inr (.inl ⟨job, ho, rfl⟩)))
  | remove jobId =>
    rcases ho with ho | ⟨update, ho, hid⟩
    · exact .inr (.inr (.inl ⟨jobId, ho⟩))
    · exact .inr (.inr (.inr (.inr ⟨update, jobId, ho, rfl, hid⟩)))
  | clear =>
    obtain ⟨jobId, ho, -⟩ := ho
    exact .inr (.inr (.inl ⟨jobId, ho⟩))

theorem Next.Sends.accepted {active : Table String ActiveJob} {next : Next} {o : Outgoing} {J : String}
    (ho : next.Sends active o) (hp : o.payload = .jobAccepted ⟨some ⟨J⟩⟩) :
    ∃ job, next = .spawn job ∧ job.jobId = J := by
  rcases ho.kind with ⟨_, h⟩ | ⟨_, h⟩ | ⟨_, h⟩ | ⟨job, h, hnext⟩ | ⟨_, _, h, -⟩ <;> rw [hp] at h
  all_goals cases h
  exact ⟨job, hnext, rfl⟩

theorem Next.Sends.update {active : Table String ActiveJob} {next : Next} {o : Outgoing} {update : JobUpdate}
    (ho : next.Sends active o) (hp : o.payload = .jobUpdate update) :
    ∃ jobId, next = .remove jobId ∧ update.jobId = some ⟨jobId⟩ := by
  rcases ho.kind with ⟨_, h⟩ | ⟨_, h⟩ | ⟨_, h⟩ | ⟨_, h, -⟩ | ⟨_, jobId, h, hnext, hid⟩ <;> rw [hp] at h
  all_goals cases h
  exact ⟨jobId, hnext, hid⟩

theorem Next.Sends.not_shutdown {active : Table String ActiveJob} {next : Next} {o : Outgoing}
    (ho : next.Sends active o) : o.payload ≠ .shutdownAcknowledged := by
  intro hp
  rcases ho.kind with ⟨_, h⟩ | ⟨_, h⟩ | ⟨_, h⟩ | ⟨_, h, -⟩ | ⟨_, _, h, -⟩ <;> rw [hp] at h
  all_goals cases h

/-- The acknowledgement with which a shutdown ends. -/
def Loop.shutdown : Loop → Option Outgoing
  | .draining o _ | .sending _ (.clear o _) | .acknowledging o _ => some o
  | _ => none

namespace Serve

variable {s s' : Serve} {e : ServeEvent}

structure Queued (s : Serve) : Prop where
  labels : ∀ {jobId job c}, s.jobs.active.lookup jobId = some job → c ∈ job.cancellations → c.jobId = ⟨jobId⟩
  queue : ∀ {queue next o}, s.loop = .sending queue next → o ∈ queue → next.Sends s.jobs.active o
  acceptance : ∀ {queue job}, s.loop = .sending queue (.spawn job) → queue.length ≤ 1
  shutdown : ∀ {o}, s.loop.shutdown = some o → o.payload = .shutdownAcknowledged

private theorem Queued.keep (hq : s.Queued) (hactive : s'.jobs.active = s.jobs.active)
    (hqueue : ∀ {queue next o}, s'.loop = .sending queue next → o ∈ queue → next.Sends s'.jobs.active o)
    (haccept : ∀ {queue job}, s'.loop = .sending queue (.spawn job) → queue.length ≤ 1)
    (hshut : ∀ {o}, s'.loop.shutdown = some o → o.payload = .shutdownAcknowledged) : s'.Queued :=
  ⟨hactive ▸ hq.labels, hqueue, haccept, hshut⟩

/-- The loop has something to send, and then goes on with `next`. -/
private theorem Queued.start (hq : s.Queued) (hactive : s'.jobs.active = s.jobs.active) {o : Outgoing} {next : Next}
    (hloop : s'.loop = .sending [o] next) (ho : next.Sends s'.jobs.active o) (hshut : s'.loop.shutdown = none) :
    s'.Queued := by
  refine hq.keep hactive (fun h hmem => ?_) (fun h => ?_) fun h => by rw [hshut] at h; cases h
  · rw [hloop] at h
    cases h
    rw [List.mem_singleton.1 hmem]
    exact ho
  · rw [hloop] at h
    cases h
    exact le_rfl

private theorem Queued.idle (hq : s.Queued) (hactive : s'.jobs.active = s.jobs.active)
    (hloop : ∀ queue next, s'.loop ≠ .sending queue next) (hshut : s'.loop.shutdown = none) : s'.Queued :=
  hq.keep hactive (fun h => absurd h (hloop _ _)) (fun h => absurd h (hloop _ _)) fun h => by rw [hshut] at h; cases h

private theorem Frame.queued (hf : Frame s s') (hq : s.Queued) : s'.Queued :=
  ⟨hf.active ▸ hq.labels, fun h => hf.active ▸ hq.queue (hf.loop ▸ h), fun h => hq.acceptance (hf.loop ▸ h),
    fun h => hq.shutdown (hf.loop ▸ h)⟩

private theorem Processed.queued {envelope : PluginEnvelope} {call : Option Nat} (hp : Processed s envelope s' call)
    (hloop : s.loop = .head) (hq : s.Queued) : s'.Queued := by
  cases hp with
  | failed => exact hq.idle rfl (by simp [fail]) rfl
  | replied => exact hq.idle rfl (by simp [hloop]) (by simp [hloop, Loop.shutdown])
  | accepted => exact hq.start rfl rfl rfl rfl
  | refused => exact hq.start rfl rfl (Or.inl ⟨_, rfl⟩) rfl
  | @cancelled session trace request jobId job _ _ hl =>
    refine ⟨fun {jobId' job' c} hl' hc => ?_, fun h hmem => ?_, by simp, by simp [Loop.shutdown]⟩
    · change (s.jobs.active.insert jobId _).lookup jobId' = some job' at hl'
      by_cases hj : jobId' = jobId
      · subst hj
        rw [AList.lookup_insert, Option.some.injEq] at hl'
        subst hl'
        rcases List.mem_append.1 hc with hc | hc
        · exact hq.labels hl hc
        · rw [List.mem_singleton.1 hc]
      · rw [AList.lookup_insert_ne hj] at hl'
        exact hq.labels hl' hc
    · cases h
      simp at hmem
  | acknowledged _ _ hl => exact hq.start rfl rfl (Or.inr (Or.inr ⟨_, rfl, hl⟩)) rfl
  | heartbeat => exact hq.start rfl rfl (Or.inr (Or.inl ⟨_, rfl⟩)) rfl
  | shutdown =>
    refine hq.keep rfl (by simp) (by simp) fun h => ?_
    cases h
    rfl

private theorem LoopStep.queued (hs : LoopStep s e s') (hq : s.Queued) : s'.Queued := by
  cases hs with
  | receive hloop => exact (process_processed s _).queued hloop hq
  | @send o queue next link env hloop =>
    refine hq.keep rfl (fun h hmem => ?_) (fun h => ?_) fun h => ?_
    · cases h
      exact hq.queue hloop (List.mem_cons_of_mem _ hmem)
    · cases h
      have hlen := hq.acceptance hloop
      rw [List.length_cons] at hlen
      omega
    · refine hq.shutdown ?_
      rw [hloop]
      cases next <;> exact h
  | @spawn job _ hinactive =>
    refine ⟨fun {jobId' job' c} hl hc => ?_, by simp, by simp, by simp [Loop.shutdown]⟩
    change (s.jobs.active.insert job.jobId _).lookup jobId' = some job' at hl
    by_cases hj : jobId' = job.jobId
    · subst hj
      rw [AList.lookup_insert, Option.some.injEq] at hl
      subst hl
      simp at hc
    · rw [AList.lookup_insert_ne hj] at hl
      exact hq.labels hl hc
  | @join i jobId output jobs queue _ _ _ hsettle =>
    obtain ⟨job, hl, rfl, rfl⟩ := JobManager.settle_join hsettle
    refine ⟨fun {jobId' job' c} hl' hc => ?_, fun {queue next o} h hmem => ?_, by simp, by simp [Loop.shutdown]⟩
    · change (s.jobs.active.insert jobId _).lookup jobId' = some job' at hl'
      by_cases hj : jobId' = jobId
      · subst hj
        rw [AList.lookup_insert, Option.some.injEq] at hl'
        subst hl'
        simp at hc
      · rw [AList.lookup_insert_ne hj] at hl'
        exact hq.labels hl' hc
    · cases h
      unfold JobManager.settlement at hmem
      split at hmem
      · rw [List.mem_singleton.1 hmem]
        exact Or.inr ⟨_, rfl, rfl⟩
      · obtain ⟨c, hc, rfl⟩ := List.mem_map.1 hmem
        exact Or.inl (by rw [← hq.labels hl hc]; rfl)
  | @remove jobId =>
    refine ⟨fun {jobId' job' c} hl hc => ?_, by simp, by simp, by simp [Loop.shutdown]⟩
    change (s.jobs.active.erase jobId).lookup jobId' = some job' at hl
    by_cases hj : jobId' = jobId
    · subst hj
      rw [AList.lookup_erase] at hl
      cases hl
    · rw [AList.lookup_erase_ne hj] at hl
      exact hq.labels hl hc
  | drain hloop => exact ⟨hq.labels, hq.queue, hq.acceptance, hq.shutdown⟩
  | @takeCancellations o deadline entries hloop _ hperm =>
    refine ⟨fun {jobId' job' c} hl hc => ?_, fun {queue next o'} h hmem => ?_, by simp, fun h => ?_⟩
    · change (s.jobs.active.mapValues _).lookup jobId' = some job' at hl
      rw [AList.lookup_mapValues, Option.map_eq_some_iff] at hl
      obtain ⟨job, -, rfl⟩ := hl
      simp at hc
    · cases h
      obtain ⟨entry, hentry, hmem⟩ := List.mem_flatMap.1 hmem
      obtain ⟨c, hc, rfl⟩ := List.mem_map.1 hmem
      have hl : s.jobs.active.lookup entry.1 = some entry.2 := AList.lookup_eq_some_iff.2 (hperm.subset hentry)
      refine ⟨entry.1, by rw [← hq.labels hl hc]; rfl, ?_⟩
      refine AList.mem_of_lookup (v := { entry.2 with cancellations := [] }) ?_
      change (s.jobs.active.mapValues _).lookup entry.1 = _
      rw [AList.lookup_mapValues, hl]
      rfl
    · cases h
      exact hq.shutdown (by rw [hloop]; rfl)
  | @clear o deadline hloop =>
    refine ⟨by simp, by simp, by simp, fun h => ?_⟩
    cases h
    exact hq.shutdown (by rw [hloop]; rfl)
  | _ => exact hq.idle rfl (by simp [fail]) rfl

theorem Step.queued (hs : Step s e s') (hq : s.Queued) : s'.Queued := by
  cases hs with
  | loop hs => exact hs.queued hq
  | task hs => exact hs.frame.queued hq
  | context hs => exact hs.frame.queued hq

theorem queued {setup : Setup} {h : List ServeEvent} (hr : Steps Step (init setup) h s) : s.Queued := by
  refine hr.invariant (fun s e s' hs hq => hs.queued hq) ⟨?_, ?_, ?_, ?_⟩ <;> simp [init, Loop.shutdown]

/-- Where the loop is when it enqueues an envelope. -/
theorem sent_inv {envelope : PluginEnvelope} (hq : s.Queued) (hs : Step s (.sent envelope) s') :
    (∃ o queue next, s.loop = .sending (o :: queue) next ∧ s'.loop = .sending queue next ∧
      s'.jobs = s.jobs ∧ envelope.payload = some o.payload ∧ envelope.replyTo = o.replyTo ∧
      envelope.trace = some o.trace ∧ next.Sends s.jobs.active o) ∨
    (∃ o deadline count, s.loop = .acknowledging o deadline ∧ s'.loop = .consuming count deadline ∧
      s'.jobs = s.jobs ∧ envelope.payload = some .shutdownAcknowledged) := by
  cases hs with
  | task hs => cases hs
  | context hs => cases hs
  | loop hs =>
    cases hs with
    | send hloop _ _ hsend =>
      obtain ⟨rfl, -⟩ := HostLink.send_eq_ok hsend
      exact Or.inl ⟨_, _, _, hloop, rfl, rfl, rfl, rfl, rfl, hq.queue hloop List.mem_cons_self⟩
    | acknowledge hloop _ _ hsend =>
      obtain ⟨rfl, -⟩ := HostLink.send_eq_ok hsend
      refine Or.inr ⟨_, _, _, hloop, rfl, rfl, ?_⟩
      rw [← hq.shutdown (by rw [hloop]; rfl)]
      rfl

end Serve

/-- What the loop sends for itself. -/
def Payload.OfLoop : Payload → Prop
  | .protocolError _ | .heartbeat _ | .jobAccepted _ | .jobUpdate _ | .cancelJobAcknowledged _
  | .shutdownAcknowledged => True
  | _ => False

private theorem Next.Sends.ofLoop {active : Table String ActiveJob} {next : Next} {o : Outgoing}
    (ho : next.Sends active o) : o.payload.OfLoop := by
  rcases ho.kind with ⟨_, h⟩ | ⟨_, h⟩ | ⟨_, h⟩ | ⟨_, h, -⟩ | ⟨_, _, h, -⟩
  all_goals
    rw [h]
    trivial

theorem Serve.sent_ofLoop {s s' : Serve} {envelope : PluginEnvelope} (hq : s.Queued)
    (hs : Step s (.sent envelope) s') : ∃ payload, envelope.payload = some payload ∧ payload.OfLoop := by
  rcases sent_inv hq hs with ⟨o, _, _, -, -, -, hp, -, -, ho⟩ | ⟨_, _, _, -, -, -, hp⟩
  · exact ⟨o.payload, hp, ho.ofLoop⟩
  · exact ⟨_, hp, trivial⟩

end PluginSdk
