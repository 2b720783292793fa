import PluginSdk.Standing

/-!
# The window of a job

A job has been accepted and has not left the table since exactly while the table holds it
(`Serve.since_accepts_iff`), so the history of a run shows which jobs are active.  Once the loop has taken a
shutdown it accepts and updates no job.
-/

namespace PluginSdk

open Lts

namespace Serve

variable {s s' : Serve} {e : ServeEvent} {J : String}

/-! ### The window between acceptance and removal -/

/-- The loop has not ended. -/
def Live (s : Serve) : Prop :=
  match s.loop with
  | .returned _ | .panicked _ => False
  | _ => True

theorem LoopStep.live (hs : LoopStep s e s') : s.Live := by
  unfold Live
  cases hs <;> simp_all

theorem Step.live (hs : Step s e s') (hlive : s'.Live) : s.Live := by
  cases hs with
  | loop hs => exact hs.live
  | task hs =>
    unfold Live at hlive ⊢
    rwa [hs.frame.loop] at hlive
  | context hs =>
    unfold Live at hlive ⊢
    rwa [hs.frame.loop] at hlive

/-- The job is in the table, or its acceptance has just been enqueued. -/
def Held (J : String) (s : Serve) : Prop :=
  (s.jobs.active.lookup J).isSome ∨ ∃ job, s.loop = .sending [] (.spawn job) ∧ job.jobId = J

theorem held_of_not_spawn (h : ∀ job, s.loop ≠ .sending [] (.spawn job)) :
    Held J s ↔ (s.jobs.active.lookup J).isSome := by
  constructor
  · rintro (h' | ⟨job, hloop, -⟩)
    · exact h'
    · exact absurd hloop (h job)
  · exact Or.inl

theorem Processed.lookup_isSome {envelope : PluginEnvelope} {call : Option Nat} (hp : Processed s envelope s' call) :
    (s'.jobs.active.lookup J).isSome = (s.jobs.active.lookup J).isSome ∧
      ((∀ job, s.loop ≠ .sending [] (.spawn job)) → ∀ job, s'.loop ≠ .sending [] (.spawn job)) := by
  cases hp with
  | @cancelled _ _ _ jobId _ _ _ hl =>
    refine ⟨?_, by simp⟩
    by_cases hj : J = jobId
    · subst hj
      rw [hl]
      simp [AList.lookup_insert]
    · simp [AList.lookup_insert_ne hj]
  | replied => exact ⟨rfl, id⟩
  | failed => exact ⟨rfl, by simp [fail]⟩
  | _ => exact ⟨rfl, by simp⟩

private theorem LoopStep.held (hq : s.Queued) (hs : LoopStep s e s') (hlive : s'.Live) :
    Held J s' ↔ e.Accepts J ∨ Held J s ∧ ¬ e.Closes J := by
  have hkeep : (∀ job, s.loop ≠ .sending [] (.spawn job)) → (∀ job, s'.loop ≠ .sending [] (.spawn job)) →
      (s'.jobs.active.lookup J).isSome = (s.jobs.active.lookup J).isSome → ¬ e.Accepts J → ¬ e.Closes J →
      (Held J s' ↔ e.Accepts J ∨ Held J s ∧ ¬ e.Closes J) := by
    intro h h' hsome ha hc
    rw [held_of_not_spawn h, held_of_not_spawn h', hsome]
    simp [ha, hc]
  cases hs with
  | receive hloop =>
    obtain ⟨hsome, hspawn⟩ := (process_processed s _).lookup_isSome
    exact hkeep (by simp [hloop]) (hspawn (by simp [hloop])) hsome id id
  | @send o queue next link env hloop _ _ hsend =>
    have ho := hq.queue hloop List.mem_cons_self
    obtain ⟨rfl, -⟩ := HostLink.send_eq_ok hsend
    have hother : (∀ job, next ≠ .spawn job) →
        ¬ (ServeEvent.sent (s.link.identity.stamp s.link.sender.nextMessageId o)).Accepts J := by
      intro hne ha
      obtain ⟨job, hnext, -⟩ := ho.accepted (Option.some.inj ha)
      exact hne job hnext
    cases next with
    | head => exact hkeep (by simp [hloop]) (by simp) rfl (hother (by simp)) id
    | spawn job =>
      have hlen := hq.acceptance hloop
      obtain rfl : queue = [] := by
        rw [List.length_cons] at hlen
        exact List.length_eq_zero_iff.1 (by omega)
      have ho : o.payload = .jobAccepted ⟨some ⟨job.jobId⟩⟩ := ho
      have haccepts : (ServeEvent.sent (s.link.identity.stamp s.link.sender.nextMessageId o)).Accepts J ↔
          job.jobId = J := by
        simp [ServeEvent.Accepts, SessionIdentity.stamp, SessionIdentity.envelope, ho]
      rw [haccepts, held_of_not_spawn (s := s) (by simp [hloop])]
      constructor
      · rintro (h | ⟨job', hl, hj⟩)
        · exact Or.inr ⟨h, id⟩
        · cases hl
          exact Or.inl hj
      · rintro (h | ⟨h, -⟩)
        · exact Or.inr ⟨job, rfl, h⟩
        · exact Or.inl h
    | remove jobId => exact hkeep (by simp [hloop]) (by simp) rfl (hother (by simp)) id
    | clear o' deadline => exact hkeep (by simp [hloop]) (by simp) rfl (hother (by simp)) id
  | resume hloop => exact hkeep (by simp [hloop]) (by simp) rfl id id
  | @spawn job hloop hinactive =>
    rw [held_of_not_spawn (by simp)]
    change ((s.jobs.active.insert job.jobId _).lookup J).isSome ↔ False ∨ Held J s ∧ ¬ False
    by_cases hj : J = job.jobId
    · subst hj
      rw [AList.lookup_insert]
      exact ⟨fun _ => Or.inr ⟨Or.inr ⟨job, hloop, rfl⟩, id⟩, fun _ => rfl⟩
    · rw [AList.lookup_insert_ne hj]
      constructor
      · intro h
        exact Or.inr ⟨Or.inl h, id⟩
      · rintro (h | ⟨h | ⟨job', hl, hj'⟩, -⟩)
        · exact h.elim
        · exact h
        · rw [hloop] at hl
          cases hl
          exact absurd hj'.symm hj
  | @join i jobId output jobs queue hloop _ _ hsettle =>
    obtain ⟨job, hl, rfl, -⟩ := JobManager.settle_join hsettle
    refine hkeep (by simp [hloop]) (by simp) ?_ id id
    change ((s.jobs.active.insert jobId _).lookup J).isSome = _
    by_cases hj : J = jobId
    · subst hj
      rw [AList.lookup_insert, hl]
      rfl
    · rw [AList.lookup_insert_ne hj]
  | @remove jobId job hloop hl =>
    rw [held_of_not_spawn (by simp), held_of_not_spawn (s := s) (by simp [hloop])]
    change ((s.jobs.active.erase jobId).lookup J).isSome ↔ False ∨ _ ∧ ¬ jobId = J
    by_cases hj : J = jobId
    · subst hj
      simp [AList.lookup_erase]
    · rw [AList.lookup_erase_ne hj]
      simp [Ne.symm hj]
  | drain hloop => exact hkeep (by simp [hloop]) (by simp [hloop]) rfl id id
  | takeCancellations hloop =>
    refine hkeep (by simp [hloop]) (by simp) ?_ id id
    change ((s.jobs.active.mapValues _).lookup J).isSome = _
    rw [AList.lookup_mapValues, Option.isSome_map]
  | clear hloop =>
    rw [held_of_not_spawn (by simp)]
    change ((∅ : Table String ActiveJob).lookup J).isSome ↔ False ∨ _ ∧ ¬ True
    simp
  | @acknowledge o deadline link env hloop _ _ hsend =>
    obtain ⟨rfl, -⟩ := HostLink.send_eq_ok hsend
    refine hkeep (by simp [hloop]) (by simp) rfl (fun ha => ?_) id
    have ho := hq.shutdown (o := o) (by rw [hloop]; rfl)
    rw [show o.payload = _ from Option.some.inj ha] at ho
    cases ho
  | _ => exact hlive.elim

private theorem Step.held (hq : s.Queued) (hs : Step s e s') (hlive : s'.Live) :
    Held J s' ↔ e.Accepts J ∨ Held J s ∧ ¬ e.Closes J := by
  have hframe : Frame s s' → ¬ e.Accepts J → ¬ e.Closes J → (Held J s' ↔ e.Accepts J ∨ Held J s ∧ ¬ e.Closes J) := by
    intro hf ha hc
    unfold Held
    rw [hf.active, hf.loop]
    simp [ha, hc]
  cases hs with
  | task hs => exact hframe hs.frame (by cases hs <;> exact id) (by cases hs <;> exact id)
  | context hs => exact hframe hs.frame (by cases hs <;> exact id) (by cases hs <;> exact id)
  | loop hs => exact hs.held hq hlive

/-- A job has been accepted and not been removed since exactly while it is in the table. -/
theorem since_accepts_iff {setup : Setup} {h : List ServeEvent} (hr : Steps Step (init setup) h s) (hlive : s.Live) :
    Since (·.Accepts J) (·.Closes J) h ↔ Held J s := by
  refine Steps.history (I := fun h s => s.Live → (Since (·.Accepts J) (·.Closes J) h ↔ Held J s))
    (fun _ => ?_) (fun h s e s' hr hs ih hlive => ?_) hr hlive
  · simp [Held, init]
  · rw [since_snoc, ih (hs.live hlive), hs.held (queued hr) hlive]

/-- The loop has taken a shutdown, or has ended. -/
def Ending (s : Serve) : Prop :=
  match s.loop with
  | .draining _ _ | .sending _ (.clear _ _) | .acknowledging _ _ | .consuming _ _ | .returned _ | .panicked _ => True
  | _ => False

theorem Step.ending (hs : Step s e s') (h : s.Ending) : s'.Ending := by
  unfold Ending at h ⊢
  cases hs with
  | task hs => rwa [hs.frame.loop]
  | context hs => rwa [hs.frame.loop]
  | loop hs =>
    cases hs with
    | @send o queue next link env hloop =>
      rw [hloop] at h
      cases next <;> exact h
    | drain hloop => rwa [hloop] at h ⊢
    | takeCancellations | clear | acknowledge | finish => trivial
    | hostClosed | sendFailed | joinFailed | acknowledgeFailed | finishFailed => trivial
    | spawnReplaced | joinUnknown | joinEmpty | removeUnknown => trivial
    | receive hloop | resume hloop | spawn hloop | join hloop | remove hloop =>
      rw [hloop] at h
      exact h.elim

/-- A shutdown accepts and updates no job any more. -/
private theorem Step.ending_silent (hq : s.Queued) (hs : Step s e s') (h : s.Ending) :
    ¬ e.Accepts J ∧ e.updates J = none := by
  have hsent : ∀ envelope, e = .sent envelope → ¬ e.Accepts J ∧ e.updates J = none := by
    rintro envelope rfl
    unfold Ending at h
    rcases sent_inv hq hs with ⟨o, queue, next, hloop, -, -, hp, -, -, ho⟩ | ⟨o, deadline, count, hloop, -, -, hp⟩
    · rw [hloop] at h
      cases next with
      | clear o' deadline =>
        obtain ⟨jobId, ho, -⟩ := ho
        rw [ho] at hp
        simp [ServeEvent.Accepts, ServeEvent.updates, hp, Payload.updates]
      | _ => exact h.elim
    · simp [ServeEvent.Accepts, ServeEvent.updates, hp, Payload.updates]
  cases e with
  | sent envelope => exact hsent envelope rfl
  | _ => exact ⟨id, rfl⟩

/-- A job is accepted only when it is not active. -/
theorem accepts_inactive {setup : Setup} {h : List ServeEvent} (hr : Steps Step (init setup) h s) (hs : Step s e s')
    (ha : e.Accepts J) : ¬ Since (·.Accepts J) (·.Closes J) h := by
  have hq := queued hr
  cases e with
  | sent envelope =>
    rcases sent_inv hq hs with ⟨o, queue, next, hloop, -, -, hp, -, -, ho⟩ | ⟨_, _, _, -, -, -, hp⟩
    · have hp' : o.payload = .jobAccepted ⟨some ⟨J⟩⟩ := Option.some.inj (hp.symm.trans ha)
      obtain ⟨job, rfl, hj⟩ := ho.accepted hp'
      rw [since_accepts_iff hr (by simp [Live, hloop]), held_of_not_spawn (by simp [hloop])]
      have hnone := ((matched hr).admitted hloop).1
      rw [← hj, hnone]
      simp
    · exact absurd (hp.symm.trans ha) (by simp)
  | _ => exact ha.elim

/-- A job is updated only while it is active. -/
theorem updates_active {setup : Setup} {h : List ServeEvent} (hr : Steps Step (init setup) h s) (hs : Step s e s')
    (hu : e.updates J ≠ none) : Since (·.Accepts J) (·.Closes J) h := by
  have hq := queued hr
  cases e with
  | sent envelope =>
    rcases sent_inv hq hs with ⟨o, queue, next, hloop, -, -, hp, -, -, ho⟩ | ⟨_, _, _, -, -, -, hp⟩
    · obtain ⟨update, hpu, hid⟩ : ∃ update, o.payload = .jobUpdate update ∧ update.jobId = some ⟨J⟩ := by
        simp only [ServeEvent.updates, hp, Option.bind_some] at hu
        cases hpayload : o.payload with
        | jobUpdate update =>
          refine ⟨update, rfl, ?_⟩
          by_contra hne
          simp [hpayload, Payload.updates, hne] at hu
        | _ => simp [hpayload, Payload.updates] at hu
      obtain ⟨jobId, rfl, hid'⟩ := ho.update hpu
      obtain rfl : jobId = J := by simpa [hid'] using hid
      rw [since_accepts_iff hr (by simp [Live, hloop]), held_of_not_spawn (by simp [hloop])]
      have hagree := (matched hr).agree
      unfold Matches at hagree
      rw [hloop] at hagree
      obtain ⟨i, hperm⟩ := hagree
      obtain ⟨job, hl, -⟩ := mem_activeKeys.1 (hperm.subset List.mem_cons_self)
      rw [hl]
      rfl
    · exact absurd (by simp [ServeEvent.updates, hp, Payload.updates]) hu
  | _ => exact absurd rfl hu

private theorem Processed.ending {envelope : PluginEnvelope} {call : Option Nat} {request : ShutdownRequest}
    (hp : Processed s envelope s' call) (hnone : envelope.replyTo = none)
    (hpayload : envelope.payload = some (.shutdown request)) : s'.Ending := by
  cases hp with
  | failed => trivial
  | replied _ hr => simp [hnone] at hr
  | shutdown => trivial
  | accepted hreq | refused hreq | cancelled hreq | acknowledged hreq | heartbeat hreq =>
    cases hreq.payload_eq hpayload

theorem Step.ending_of_shutdown {envelope : PluginEnvelope} {call : Option Nat} {request : ShutdownRequest}
    (hs : Step s (.received envelope call) s') (hnone : envelope.replyTo = none)
    (hp : envelope.payload = some (.shutdown request)) : s'.Ending :=
  hs.received_inv.2.ending hnone hp

theorem ending_run {t u : Serve} {w : List ServeEvent} (hq : t.Queued) (he : t.Ending) (hr : Steps Step t w u)
    (J : String) : ∀ x ∈ w, ¬ x.Accepts J ∧ x.updates J = none := by
  refine (hr.events (I := fun t => t.Queued ∧ t.Ending) (fun s e s' hs ih => ?_) ⟨hq, he⟩).2
  obtain ⟨hq, he⟩ := ih
  exact ⟨⟨hs.queued hq, hs.ending he⟩, hs.ending_silent hq he⟩

/-- The loop waits for its last acknowledgement to be consumed, or has ended. -/
def Consuming (s : Serve) : Prop :=
  match s.loop with
  | .consuming _ _ | .returned _ | .panicked _ => True
  | _ => False

private theorem Step.consuming (hs : Step s e s') (hc : s.Consuming) :
    s'.Consuming ∧ ∀ envelope, e ≠ .sent envelope := by
  unfold Consuming at hc ⊢
  cases hs with
  | task hs => exact ⟨by rwa [hs.frame.loop], by cases hs <;> simp⟩
  | context hs => exact ⟨by rwa [hs.frame.loop], by cases hs <;> simp⟩
  | loop hs => cases hs <;> simp_all [fail]

/-- When the shutdown is acknowledged the table is empty, and the loop sends nothing more. -/
theorem after_shutdown {setup : Setup} {h w : List ServeEvent} {envelope : PluginEnvelope} {u : Serve}
    (hr : Steps Step (init setup) h s) (hs : Step s (.sent envelope) s')
    (hp : envelope.payload = some .shutdownAcknowledged) (hrest : Steps Step s' w u) :
    ¬ Since (·.Accepts J) (·.Closes J) h ∧ ∀ x ∈ w, ∀ envelope', x ≠ .sent envelope' := by
  rcases sent_inv (queued hr) hs with ⟨o, queue, next, -, -, -, hp', -, -, ho⟩ | ⟨o, d, count, hloop, hloop', -, -⟩
  · exact absurd (Option.some.inj (hp'.symm.trans hp)) ho.not_shutdown
  · constructor
    · rw [since_accepts_iff hr (by simp [Live, hloop]), held_of_not_spawn (by simp [hloop])]
      have hagree := (matched hr).agree
      unfold Matches at hagree
      rw [hloop] at hagree
      intro hsome
      obtain ⟨job, hl⟩ := Option.isSome_iff_exists.1 hsome
      have hmem := mem_activeKeys.2 ⟨job, hl, rfl⟩
      rw [hagree.2] at hmem
      cases hmem
    · have hconsuming : s'.Consuming := by simp [Consuming, hloop']
      exact (hrest.events (fun _ _ _ hs hc => hs.consuming hc) hconsuming).2

end Serve

end PluginSdk
