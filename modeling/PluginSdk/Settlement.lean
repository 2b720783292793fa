import PluginSdk.Lifetime
import PluginSdk.Replies

/-!
# Settlement

Every accepted job is settled once: in its window the loop sends either its terminal update or one acknowledgement for
each of its cancellations, and outside of its window it sends no update for it and acknowledges every cancellation at
once (`Serve.settled_once`).
-/

namespace PluginSdk

open Lts

namespace Serve

variable {s s' : Serve} {e : ServeEvent} {J : String} {w : List ServeEvent}

/-! ### The task of a job -/

/-- The address of a task names its job. -/
private theorem Step.jobId_eq (hm : s.Matched) (hs : Step s e s') {t u : Task} (ht : t ∈ s'.jobs.tasks)
    (hu : u ∈ s.jobs.tasks) (hinst : u.inst = t.inst) : u.jobId = t.jobId := by
  have hukey : (u.inst, u.jobId) ∈ taskKeys s.jobs.tasks := mem_taskKeys.2 ⟨u.phase, hu⟩
  have htkey : (t.inst, t.jobId) ∈ taskKeys s'.jobs.tasks := mem_taskKeys.2 ⟨t.phase, ht⟩
  have hold : (t.inst, t.jobId) ∈ taskKeys s.jobs.tasks := by
    cases hs with
    | task hs => exact hs.frame.keys ▸ htkey
    | context hs => exact hs.frame.keys ▸ htkey
    | loop hs =>
      rcases hs.tasks.2 _ htkey with hold | hfresh
      · exact hold
      · have hlt := hm.fresh _ (hm.subperm.subset hukey)
        dsimp only at hlt hfresh
        omega
  exact congrArg Prod.snd (List.inj_on_of_nodup_map hm.nodup_tasks hukey hold hinst)

private theorem Step.owned (hm : s.Matched) (hs : Step s e s') (ho : Owned J w s) : Owned J (w ++ [e]) s' := by
  intro t ht hj output hresult
  rcases hs.result ht hresult with ⟨u, hu, hinst, hresult'⟩ | ⟨jobId, rfl⟩ | ⟨-, hcancelled⟩
  · have hended := ho u hu ((hs.jobId_eq hm ht hu hinst).trans hj) output hresult'
    rw [hinst] at hended
    exact List.mem_append_left _ hended
  · cases hs with
    | loop hs => cases hs
    | context hs => cases hs
    | task hs =>
      cases hs with
      | stop hmem =>
        have hid : jobId = t.jobId := Step.jobId_eq hm (.task (.stop hmem)) ht hmem rfl
        simp [hid, hj]
  · cases hcancelled

/-! ### Exactly once -/

/-- A job has just been accepted. -/
theorem Step.standing_of_accepts {acc : PluginEnvelope} (hm : s.Matched) (hq : s.Queued) (hs : Step s (.sent acc) s')
    (ha : (ServeEvent.sent acc).Accepts J) : Owned J [] s' ∧ Standing J [] s' := by
  have hm' := hs.matched hm
  rcases sent_inv hq hs with ⟨o, queue, next, hloop, hloop', -, hp, -, -, ho⟩ | ⟨_, _, _, -, -, -, hp⟩
  · obtain ⟨job, rfl, hj⟩ := ho.accepted (Option.some.inj (hp.symm.trans ha))
    have hlen := hq.acceptance hloop
    rw [List.length_cons] at hlen
    obtain rfl : queue = [] := List.length_eq_zero_iff.1 (by omega)
    refine ⟨fun t ht htj => ?_, ?_⟩
    · -- the job is not in the table yet, so it has no task
      obtain ⟨entry, hl, -⟩ := hm'.lookup_of_task ht
      obtain ⟨hnone, -⟩ := hm'.admitted hloop'
      rw [htj, ← hj, hnone] at hl
      cases hl
    · unfold Standing
      rw [hloop']
      simp [hj, Settling]
  · exact absurd (hp.symm.trans ha) (by simp)

/-- The account of a job over a run that starts where its acceptance has just been enqueued. -/
theorem standing_run {t u : Serve} (hm : t.Matched) (hq : t.Queued) (hr : Steps Step t w u)
    (hw : ∀ x ∈ w, ¬ x.Closes J) (ht : Owned J [] t ∧ Standing J [] t) :
    u.Queued ∧ Owned J w u ∧ Standing J w u := by
  have hrun : u.Matched ∧ u.Queued ∧ Owned J w u ∧ Standing J w u := by
    refine Steps.history (I := fun w u => (∀ x ∈ w, ¬ x.Closes J) → u.Matched ∧ u.Queued ∧
      Owned J w u ∧ Standing J w u) (fun _ => ⟨hm, hq, ht⟩) (fun w t e t' _ hs ih hw => ?_) hr hw
    obtain ⟨hm, hq, ho, hst⟩ := ih fun x hx => hw x (List.mem_append_left _ hx)
    exact ⟨hs.matched hm, hs.queued hq, hs.owned hm ho, hs.standing hq ho (hw e (by simp)) hst⟩
  exact hrun.2

/-- What has been sent for a job in its window. -/
theorem window {setup : Setup} {h₁ h₂ : List ServeEvent} {acc : PluginEnvelope}
    (hr : Steps Step (init setup) (h₁ ++ .sent acc :: (w ++ e :: h₂)) s) (ha : (ServeEvent.sent acc).Accepts J)
    (hw : ∀ x ∈ w, ¬ x.Closes J) (he : e.Closes J) :
    (∃ output, e = .settled J ∧ Joined J w output ∧ Settling J w [] (expected J w output)) ∨
      e = .cleared ∧ Settling J w [] [] := by
  obtain ⟨t, t', ht, hacc, hrest⟩ := hr.split
  obtain ⟨u, u', hu, hs, -⟩ := hrest.split
  have hm := matched ht
  have hq := queued ht
  obtain ⟨-, -, hst⟩ := standing_run (hacc.matched hm) (hacc.queued hq) hu hw (hacc.standing_of_accepts hm hq ha)
  unfold Standing at hst
  cases hs with
  | task hs => exact absurd he (by cases hs <;> exact id)
  | context hs => exact absurd he (by cases hs <;> exact id)
  | loop hs =>
    cases hs with
    | @remove jobId job hloop _ =>
      have hj : jobId = J := he
      subst hj
      rw [hloop] at hst
      simp only [if_true] at hst
      obtain ⟨output, hjoined, hst⟩ := hst
      exact Or.inl ⟨output, rfl, hjoined, hst⟩
    | clear hloop =>
      rw [hloop] at hst
      exact Or.inr ⟨rfl, hst⟩
    | _ => exact absurd he id

/-! ### Cancellations of other jobs -/

private theorem Processed.late {envelope : PluginEnvelope} {call : Option Nat} {id : Nat}
    (hp : Processed s envelope s' call) (hc : (ServeEvent.received envelope call).cancels J = some id)
    (hl : s.jobs.active.lookup J = none) :
    s'.jobs = s.jobs ∧ (s'.Live → ∃ trace, envelope.trace = some trace ∧
      s'.loop = .sending [⟨some id, trace, .cancelJobAcknowledged ⟨some ⟨J⟩⟩⟩] .head) := by
  obtain ⟨request, hpayload, hnone, hid, rfl⟩ := ServeEvent.cancels_eq_some hc
  cases hp with
  | failed => exact ⟨rfl, fun h => h.elim⟩
  | replied _ hr => simp [hnone] at hr
  | cancelled hreq hid' hl' =>
    cases hreq.payload_eq hpayload
    rw [hid] at hid'
    cases hid'
    rw [hl] at hl'
    cases hl'
  | acknowledged hreq hid' =>
    cases hreq.payload_eq hpayload
    rw [hid] at hid'
    cases hid'
    obtain ⟨-, -, -, htrace, -, -⟩ := validateEnvelope_eq_ok.1 hreq.valid
    exact ⟨rfl, fun _ => ⟨_, htrace, rfl⟩⟩
  | accepted hreq | refused hreq | heartbeat hreq | shutdown hreq => cases hreq.payload_eq hpayload

private theorem late {setup : Setup} {h : List ServeEvent} {envelope : PluginEnvelope} {call : Option Nat} {id : Nat}
    (hs : Step s (.received envelope call) s') (hr : Steps Step (init setup) h s)
    (hc : (ServeEvent.received envelope call).cancels J = some id) (hlate : ¬ Since (·.Accepts J) (·.Closes J) h) :
    s'.jobs = s.jobs ∧ (s'.Live → ∃ trace, envelope.trace = some trace ∧
      s'.loop = .sending [⟨some id, trace, .cancelJobAcknowledged ⟨some ⟨J⟩⟩⟩] .head) := by
  obtain ⟨hloop, hp⟩ := hs.received_inv
  refine hp.late hc ?_
  rw [since_accepts_iff hr (by simp [Live, hloop]), held_of_not_spawn (by simp [hloop])] at hlate
  simpa using hlate

theorem Step.ofLoop_of_not_live (hs : Step s e s') (hn : ¬ s.Live) : e.ofLoop = false := by
  cases hs with
  | task hs => exact hs.ofLoop
  | context hs => exact hs.ofLoop
  | loop hs => exact absurd hs.live hn

/-- A loop that has ended makes no step. -/
private theorem ended_of_not_live {t u : Serve} (hr : Steps Step t w u) (hn : ¬ t.Live) : ∀ x ∈ w, x.ofLoop = false :=
  (hr.events (I := fun t => ¬ t.Live)
    (fun _ _ _ hs hn => ⟨fun hlive => hn (hs.live hlive), hs.ofLoop_of_not_live hn⟩) hn).2

/-- The first thing that the loop does with something to send is to send it. -/
theorem first_send {t u : Serve} {o : Outgoing} {queue : List Outgoing} {next : Next} (hr : Steps Step t w u)
    (hloop : t.loop = .sending (o :: queue) next) :
    (∀ x ∈ w, x.ofLoop = false) ∨ ∃ a x b, w = a ++ x :: b ∧ (∀ y ∈ a, y.ofLoop = false) ∧
      ((∃ err, x = .sendFailed err) ∨ ∃ envelope, x = .sent envelope ∧ envelope.reply = o.reply) := by
  have hall : ((∀ x ∈ w, x.ofLoop = false) ∧ u.loop = .sending (o :: queue) next) ∨
      ∃ a x b, w = a ++ x :: b ∧ (∀ y ∈ a, y.ofLoop = false) ∧
        ((∃ err, x = .sendFailed err) ∨ ∃ envelope, x = .sent envelope ∧ envelope.reply = o.reply) := by
    refine Steps.history (I := fun w u => ((∀ x ∈ w, x.ofLoop = false) ∧ u.loop = .sending (o :: queue) next) ∨
      ∃ a x b, w = a ++ x :: b ∧ (∀ y ∈ a, y.ofLoop = false) ∧
        ((∃ err, x = .sendFailed err) ∨ ∃ envelope, x = .sent envelope ∧ envelope.reply = o.reply))
      (Or.inl ⟨by simp, hloop⟩) (fun w t e t' _ hs ih => ?_) hr
    rcases ih with ⟨hw, hloop⟩ | ⟨a, x, b, rfl, ha, hx⟩
    · have hframe : Frame t t' → e.ofLoop = false → (∀ x ∈ w ++ [e], x.ofLoop = false) ∧
          t'.loop = .sending (o :: queue) next := by
        intro hf he
        exact ⟨forall_mem_snoc hw he, hf.loop.trans hloop⟩
      cases hs with
      | task hs => exact Or.inl (hframe hs.frame hs.ofLoop)
      | context hs => exact Or.inl (hframe hs.frame hs.ofLoop)
      | loop hs =>
        refine Or.inr ⟨w, e, [], rfl, hw, ?_⟩
        cases hs with
        | send hloop' _ _ hsend =>
          rw [hloop] at hloop'
          cases hloop'
          obtain ⟨rfl, -⟩ := HostLink.send_eq_ok hsend
          exact Or.inr ⟨_, rfl, rfl⟩
        | sendFailed => exact Or.inl ⟨_, rfl⟩
        | _ => simp_all
    · exact Or.inr ⟨a, x, b ++ [e], by simp, ha, hx⟩
  rcases hall with ⟨hw, -⟩ | h
  · exact Or.inl hw
  · exact Or.inr h

/-- No request is acknowledged twice. -/
theorem nodup_acknowledges {setup : Setup} {h : List ServeEvent} (hr : Steps Step (init setup) h s) (J : String) :
    (h.filterMap (·.acknowledges J)).Nodup := by
  have hsub : ∀ h : List ServeEvent, (h.filterMap (·.acknowledges J)).Sublist
      ((h.filterMap ServeEvent.enqueued).filterMap (·.replyTo)) := by
    intro h
    induction h with
    | nil => exact .slnil
    | cons e h ih =>
      have he : ∀ id, e.acknowledges J = some id → ∃ envelope, e.enqueued = some envelope ∧
        envelope.replyTo = some id := by
        intro id hid
        cases e with
        | sent envelope =>
          refine ⟨envelope, rfl, ?_⟩
          simp only [ServeEvent.acknowledges] at hid
          split at hid
          · exact hid
          · cases hid
        | _ => cases hid
      cases hid : e.acknowledges J with
      | none =>
        rw [List.filterMap_cons_none hid]
        refine ih.trans ?_
        rw [List.filterMap_cons]
        split
        · exact List.Sublist.refl _
        · exact (List.sublist_cons_self _ _).filterMap _
      | some id =>
        obtain ⟨envelope, henq, hreply⟩ := he id hid
        rw [List.filterMap_cons_some hid, List.filterMap_cons_some henq, List.filterMap_cons_some hreply]
        exact ih.cons_cons id
  have hnd := nodup_wire_replyTo hr
  rw [wire_eq hr, List.filterMap_append] at hnd
  exact (hnd.sublist (List.sublist_append_right _ _)).sublist (hsub h)

/-- A late cancellation is acknowledged at once, and only once. -/
private theorem late_acknowledged {setup : Setup} {h₁ h₂ : List ServeEvent} {envelope : PluginEnvelope}
    {call : Option Nat} {id : Nat} (hr : Steps Step (init setup) (h₁ ++ .received envelope call :: h₂) s)
    (hc : (ServeEvent.received envelope call).cancels J = some id) (hlate : ¬ Since (·.Accepts J) (·.Closes J) h₁)
    (hloop : ∃ x ∈ h₂, x.ofLoop = true) (hsends : ∀ err, .sendFailed err ∉ h₂) :
    (∃ a ack b, h₂ = a ++ ServeEvent.sent ack :: b ∧ (∀ x ∈ a, x.ofLoop = false) ∧
        ack.reply = some ⟨id, envelope.trace, some (.cancelJobAcknowledged ⟨some ⟨J⟩⟩)⟩) ∧
      (h₂.filterMap (·.acknowledges J)).count id = 1 := by
  obtain ⟨t, t', ht, hs, hrest⟩ := hr.split
  obtain ⟨hjobs, hlive⟩ := late hs ht hc hlate
  have hlive' : t'.Live := by
    by_contra hn
    obtain ⟨x, hx, hloop⟩ := hloop
    rw [ended_of_not_live hrest hn x hx] at hloop
    cases hloop
  obtain ⟨trace, htrace, hloop'⟩ := hlive hlive'
  rcases first_send hrest hloop' with hno | ⟨a, x, b, rfl, ha, ⟨err, rfl⟩ | ⟨ack, rfl, hack⟩⟩
  · obtain ⟨x, hx, hloop⟩ := hloop
    rw [hno x hx] at hloop
    cases hloop
  · exact absurd (by simp) (hsends err)
  · have hreply : ack.reply = some ⟨id, envelope.trace, some (.cancelJobAcknowledged ⟨some ⟨J⟩⟩)⟩ := by
      rw [hack, htrace]
      rfl
    refine ⟨⟨a, ack, b, rfl, ha, hreply⟩, ?_⟩
    have hnd := nodup_acknowledges hr J
    rw [List.filterMap_append] at hnd
    refine List.count_eq_one_of_mem ((hnd.sublist (List.sublist_append_right _ _)).sublist
      ((List.sublist_cons_self _ _).filterMap _)) (List.mem_filterMap.2 ⟨.sent ack, by simp, ?_⟩)
    obtain ⟨k, hk, heq⟩ := Option.map_eq_some_iff.1 hreply
    simp only [Reply.mk.injEq] at heq
    obtain ⟨rfl, -, hpayload⟩ := heq
    simp [ServeEvent.acknowledges, hpayload, hk, Payload.acknowledges]

/-- What is sent for a job in its window `w`, which ends with `e`: the terminal update of what its own task has
ended with, or the acknowledgements of its cancellations. -/
structure SettledIn (J : String) (w : List ServeEvent) (e : ServeEvent) : Prop where
  uncancelled : w.filterMap (·.cancels J) = [] → w.filterMap (·.acknowledges J) = [] ∧
    ((∃ output, e = .settled J ∧ Joined J w output ∧ w.filterMap (·.updates J) = [terminalUpdate J output]) ∨
      e = .cleared ∧ w.filterMap (·.updates J) = [])
  cancelled : w.filterMap (·.cancels J) ≠ [] → w.filterMap (·.updates J) = [] ∧
    w.filterMap (·.acknowledges J) = w.filterMap (·.cancels J)
  terminal : ∀ update ∈ w.filterMap (·.updates J),
    update.jobId = some ⟨J⟩ ∧ (update.state = .succeeded ∨ update.state = .failed)

theorem settledIn_of_window
    (h : (∃ output, e = .settled J ∧ Joined J w output ∧ Settling J w [] (expected J w output)) ∨
      e = .cleared ∧ Settling J w [] []) : SettledIn J w e := by
  unfold Settling expected at h
  simp only [List.filterMap_nil, List.append_nil] at h
  refine ⟨fun hc => ?_, fun hc => ?_, fun update hmem => ?_⟩
  · rw [hc] at h
    rcases h with ⟨output, he, hjoined, hu, ha⟩ | ⟨he, hu, ha⟩
    · exact ⟨ha, Or.inl ⟨output, he, hjoined, by simpa using hu⟩⟩
    · exact ⟨ha, Or.inr ⟨he, hu⟩⟩
  · rcases h with ⟨output, -, -, hu, ha⟩ | ⟨-, hu, ha⟩
    · rw [if_neg hc] at hu
      exact ⟨hu, ha⟩
    · exact ⟨hu, ha⟩
  · rcases h with ⟨output, -, -, hu, -⟩ | ⟨-, hu, -⟩
    · rw [hu] at hmem
      split at hmem
      · rw [List.mem_singleton.1 hmem]
        exact terminalUpdate_terminal J output
      · cases hmem
    · rw [hu] at hmem
      cases hmem

/-- Every accepted job is settled exactly once.  In its window it gets one terminal update and no acknowledgement,
or no update and one acknowledgement for each cancellation; it is accepted and updated in no other way; a
cancellation outside of the window is acknowledged at once and leaves the table as it is; after a shutdown no job is
accepted or updated, and when the shutdown is acknowledged every window is closed and nothing more is sent. -/
theorem settled_once {setup : Setup} {h : List ServeEvent} (hr : Steps Step (init setup) h s) (J : String) :
    (∀ h₁ acc w e h₂, h = h₁ ++ ServeEvent.sent acc :: (w ++ e :: h₂) → (ServeEvent.sent acc).Accepts J →
      (∀ x ∈ w, ¬ x.Closes J) → e.Closes J → SettledIn J w e) ∧
    (∀ h₁ e h₂, h = h₁ ++ e :: h₂ → (e.Accepts J → ¬ Since (·.Accepts J) (·.Closes J) h₁) ∧
      (e.updates J ≠ none → Since (·.Accepts J) (·.Closes J) h₁)) ∧
    (∀ h₁ envelope call h₂ id, h = h₁ ++ ServeEvent.received envelope call :: h₂ →
      (ServeEvent.received envelope call).cancels J = some id → ¬ Since (·.Accepts J) (·.Closes J) h₁ →
      (∀ s₀ s₁, Steps Step (init setup) h₁ s₀ → Step s₀ (.received envelope call) s₁ → s₁.jobs = s₀.jobs) ∧
      ((∃ x ∈ h₂, x.ofLoop = true) → (∀ err, .sendFailed err ∉ h₂) →
        (∃ a ack b, h₂ = a ++ ServeEvent.sent ack :: b ∧ (∀ x ∈ a, x.ofLoop = false) ∧
          ack.reply = some ⟨id, envelope.trace, some (.cancelJobAcknowledged ⟨some ⟨J⟩⟩)⟩) ∧
        (h₂.filterMap (·.acknowledges J)).count id = 1)) ∧
    (∀ h₁ envelope call request h₂, h = h₁ ++ ServeEvent.received envelope call :: h₂ → envelope.replyTo = none →
      envelope.payload = some (.shutdown request) → ∀ x ∈ h₂, ¬ x.Accepts J ∧ x.updates J = none) ∧
    ∀ h₁ envelope h₂, h = h₁ ++ ServeEvent.sent envelope :: h₂ → envelope.payload = some .shutdownAcknowledged →
      ¬ Since (·.Accepts J) (·.Closes J) h₁ ∧ ∀ x ∈ h₂, ∀ envelope', x ≠ .sent envelope' := by
  refine ⟨?_, ?_, ?_, ?_, ?_⟩
  · rintro h₁ acc w e h₂ rfl ha hw he
    exact settledIn_of_window (window hr ha hw he)
  · rintro h₁ e h₂ rfl
    obtain ⟨t, t', ht, hs, -⟩ := hr.split
    exact ⟨fun ha => accepts_inactive ht hs ha, fun hu => updates_active ht hs hu⟩
  · rintro h₁ envelope call h₂ id rfl hc hlate
    exact ⟨fun s₀ s₁ hs₀ hs₁ => (late hs₁ hs₀ hc hlate).1, late_acknowledged hr hc hlate⟩
  · rintro h₁ envelope call request h₂ rfl hnone hp
    obtain ⟨t, t', ht, hs, hrest⟩ := hr.split
    exact ending_run (hs.queued (queued ht)) (hs.ending_of_shutdown hnone hp) hrest J
  · rintro h₁ envelope h₂ rfl hp
    obtain ⟨t, t', ht, hs, hrest⟩ := hr.split
    exact after_shutdown ht hs hp hrest

theorem settled_once_sampleRun : ∃ s, Steps Step (init sampleSetup) sampleRun s ∧
    SettledIn sampleJobId (sampleRun.drop 2).dropLast (.settled sampleJobId) := by
  obtain ⟨s, hr⟩ := sampleRun_steps
  refine ⟨s, hr, (settled_once hr sampleJobId).1 [.received sampleStart none] sampleAccepted _ _ [] rfl rfl ?_ rfl⟩
  simp [sampleRun, ServeEvent.Closes]

end Serve

end PluginSdk
