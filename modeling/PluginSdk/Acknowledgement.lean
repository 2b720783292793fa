import PluginSdk.Lifetime
import PluginSdk.Settlement

/-!
# Acknowledged cancellations

A cancellation of an active job waits in the table entry of the job until the task of the job has been joined, by the
loop or by the shutdown (`Serve.Waiting`).  So whoever reads its acknowledgement knows that the action is over, and
until then the job keeps its place in the table (`Serve.acknowledged_over`).
-/

namespace PluginSdk

open Lts

namespace Serve

variable {s s' : Serve} {e : ServeEvent} {J : String} {id i : Nat} {w : List ServeEvent}

/-! ### A cancellation that waits -/

/-- The job is in the table, at its address. -/
def Occupies (J : String) (i : Nat) (s : Serve) : Prop :=
  ∃ job, s.jobs.active.lookup J = some job ∧ job.controller = i

/-- The cancellation is recorded in the entry of its job. -/
def Recorded (J : String) (i id : Nat) (s : Serve) : Prop :=
  ∃ job, s.jobs.active.lookup J = some job ∧ job.controller = i ∧ id ∈ job.cancellations.map (·.replyTo)

/-- The acknowledgement is in the queue of the loop, after the task of the job has been joined. -/
def Queueing (J : String) (i id : Nat) (queue : List Outgoing) (s : Serve) : Prop :=
  Occupies J i s ∧ Over i s ∧ id ∈ queue.filterMap (·.acknowledges J)

/-- Where a cancellation that has not been acknowledged is, by the place of the loop. -/
def Waiting (J : String) (i id : Nat) (s : Serve) : Prop :=
  match s.loop with
  | .head | .sending _ .head | .sending _ (.spawn _) | .draining _ _ => Recorded J i id s
  | .sending queue (.remove jobId) => if jobId = J then Queueing J i id queue s else Recorded J i id s
  | .sending queue (.clear _ _) => Queueing J i id queue s
  | .acknowledging _ _ | .consuming _ _ => False
  | .returned _ | .panicked _ => True

private theorem Recorded.occupies (h : Recorded J i id s) : Occupies J i s := by
  obtain ⟨job, hl, hi, -⟩ := h
  exact ⟨job, hl, hi⟩

private theorem Recorded.of_lookup (h : Recorded J i id s) (hl : s'.jobs.active.lookup J = s.jobs.active.lookup J) :
    Recorded J i id s' := by
  unfold Recorded
  rwa [hl]

/-- The job of a waiting cancellation is in the table. -/
private theorem Waiting.occupies (h : Waiting J i id s) (hlive : s.Live) : Occupies J i s := by
  unfold Waiting at h
  unfold Live at hlive
  split at h
  · exact h.occupies
  · exact h.occupies
  · exact h.occupies
  · exact h.occupies
  · split at h
    · exact h.1
    · exact h.occupies
  · exact h.1
  · exact h.elim
  · exact h.elim
  · rename_i hloop
    rw [hloop] at hlive
    exact hlive.elim
  · rename_i hloop
    rw [hloop] at hlive
    exact hlive.elim

private theorem Processed.waiting {envelope : PluginEnvelope} {call : Option Nat} (hp : Processed s envelope s' call)
    (hloop : s.loop = .head) (hr : Recorded J i id s) : Waiting J i id s' := by
  cases hp with
  | failed => trivial
  | replied =>
    unfold Waiting
    simp only [hloop]
    exact hr.of_lookup rfl
  | @cancelled session trace request jobId job' _ _ hl' =>
    change Recorded J i id _
    by_cases hj : J = jobId
    · subst hj
      obtain ⟨job, hl, hi, hmem⟩ := hr
      cases hl.symm.trans hl'
      refine ⟨_, AList.lookup_insert _, hi, ?_⟩
      rw [List.map_append]
      exact List.mem_append_left _ hmem
    · exact hr.of_lookup (AList.lookup_insert_ne hj)
  | _ => exact hr.of_lookup rfl

/-- The task that is joined for a job is the one at the address of its table entry. -/
private theorem over_of_join (hm : s.Matched) {jobId : String} {result : Except String Output}
    (ht : ⟨i, jobId, .completed result⟩ ∈ s.jobs.tasks) (hspawned : s'.spawned = s.spawned)
    (htasks : s'.jobs.tasks = (s.jobs.join ⟨i, jobId, .completed result⟩).tasks) : Over i s' := by
  refine ⟨hspawned ▸ hm.inst_lt ht, fun jobId' hmem => ?_⟩
  have hnd := ((taskKeys_join hm.nodup_tasks ht).map Prod.fst).nodup_iff.1 hm.nodup_tasks
  rw [List.map_cons, List.nodup_cons] at hnd
  rw [htasks] at hmem
  exact hnd.1 (List.mem_map.2 ⟨_, hmem, rfl⟩)

/-- What the entry of a job holds is acknowledged when the job is settled. -/
private theorem Recorded.settle (hm : s.Matched) (hq : s.Queued) {inst : Nat} {jobId : String} {output : Output}
    {jobs : JobManager} {queue : List Outgoing} (hr : Recorded J i id s)
    (ht : ⟨inst, jobId, .completed (.ok output)⟩ ∈ s.jobs.tasks)
    (hsettle : (s.jobs.join ⟨inst, jobId, .completed (.ok output)⟩).settle jobId output = some (jobs, queue)) :
    Waiting J i id { s with jobs, loop := .sending queue (.remove jobId) } := by
  obtain ⟨job', hl', rfl, rfl⟩ := JobManager.settle_join hsettle
  unfold Waiting
  simp only
  by_cases hj : jobId = J
  · subst hj
    rw [if_pos rfl]
    obtain ⟨job, hl, hi, hmem⟩ := hr
    cases hl.symm.trans hl'
    obtain ⟨job'', hl'', hi'⟩ := hm.lookup_of_task ht
    cases hl.symm.trans hl''
    obtain rfl : inst = i := hi'.symm.trans hi
    refine ⟨⟨_, AList.lookup_insert _, hi⟩, over_of_join hm ht rfl rfl, ?_⟩
    rwa [(settlement_of_labels output fun c hc => hq.labels hl hc).2]
  · rw [if_neg hj]
    exact hr.of_lookup (AList.lookup_insert_ne (Ne.symm hj))

/-- What the table holds is acknowledged when the shutdown takes the cancellations. -/
private theorem Recorded.take (hm : s.Matched) (hq : s.Queued) {o : Outgoing} {deadline : Timestamp}
    {entries : List (String × ActiveJob)} (hr : Recorded J i id s) (ht : s.jobs.tasks = [])
    (hperm : entries.Perm s.jobs.active.toPairs) :
    Waiting J i id
      { s with
        jobs := s.jobs.takeCancellations
        loop := .sending (JobManager.acknowledgements entries) (.clear o deadline) } := by
  obtain ⟨job, hl, hi, hmem⟩ := hr
  have hlabels : ∀ entry ∈ entries, ∀ c ∈ entry.2.cancellations, c.jobId = ⟨entry.1⟩ := by
    intro entry hentry c hc
    exact hq.labels (AList.lookup_eq_some_iff.2 (hperm.subset hentry)) hc
  have hnd : (entries.map Prod.fst).Nodup := by
    rw [(hperm.map Prod.fst).nodup_iff, AList.map_fst_toPairs]
    exact s.jobs.active.nodupKeys
  refine ⟨⟨{ job with cancellations := [] }, ?_, hi⟩, ⟨?_, fun jobId => ?_⟩, ?_⟩
  · change (s.jobs.active.mapValues _).lookup J = _
    rw [AList.lookup_mapValues, hl]
    rfl
  · exact hm.fresh _ (mem_activeKeys.2 ⟨job, hl, hi⟩)
  · change _ ∉ taskKeys s.jobs.tasks
    rw [ht]
    simp [taskKeys]
  · rwa [acknowledgements_of_mem hlabels hnd (hperm.symm.subset (AList.lookup_eq_some_iff.1 hl))]

private theorem LoopStep.waiting (hm : s.Matched) (hq : s.Queued) (hs : LoopStep s e s')
    (he : e.acknowledges J ≠ some id) (hw : Waiting J i id s) : Waiting J i id s' := by
  have hover : Over i s → Over i s' := fun ho => ((Step.loop hs).over ho).1
  unfold Waiting at hw
  cases hs with
  | receive hloop =>
    rw [hloop] at hw
    exact (process_processed s _).waiting hloop hw
  | @send o queue next link env hloop _ _ hsend =>
    obtain ⟨rfl, -⟩ := HostLink.send_eq_ok hsend
    have hqueue : Queueing J i id (o :: queue) s → Queueing J i id queue
      { s with link, loop := .sending queue next } := by
      rintro ⟨hocc, ho, hmem⟩
      refine ⟨hocc, hover ho, ?_⟩
      have hne : o.acknowledges J ≠ some id := he
      obtain ⟨o', ho', hack⟩ := List.mem_filterMap.1 hmem
      rcases List.mem_cons.1 ho' with rfl | ho'
      · exact absurd hack hne
      · exact List.mem_filterMap.2 ⟨o', ho', hack⟩
    rw [hloop] at hw
    cases next with
    | head => exact hw
    | spawn job => exact hw
    | remove jobId =>
      unfold Waiting
      by_cases hj : jobId = J
      · simp only [if_pos hj] at hw ⊢
        exact hqueue hw
      · simp only [if_neg hj] at hw ⊢
        exact hw
    | clear o' deadline => exact hqueue hw
  | resume hloop =>
    rw [hloop] at hw
    exact hw
  | @spawn job hloop hinactive =>
    rw [hloop] at hw
    have hj : J ≠ job.jobId := by
      rintro rfl
      obtain ⟨job', hl, -⟩ := hw
      rw [hinactive] at hl
      cases hl
    exact hw.of_lookup (AList.lookup_insert_ne hj)
  | join hloop _ ht hsettle =>
    rw [hloop] at hw
    exact Recorded.settle hm hq hw ht hsettle
  | @remove jobId job hloop hl =>
    rw [hloop] at hw
    simp only at hw
    by_cases hj : jobId = J
    · rw [if_pos hj] at hw
      cases hw.2.2
    · rw [if_neg hj] at hw
      exact hw.of_lookup (AList.lookup_erase_ne (Ne.symm hj))
  | drain hloop =>
    unfold Waiting
    rw [hloop] at hw
    simp only [hloop]
    exact hw
  | takeCancellations hloop ht hperm =>
    rw [hloop] at hw
    exact Recorded.take hm hq hw ht hperm
  | clear hloop =>
    rw [hloop] at hw
    cases hw.2.2
  | acknowledge hloop =>
    rw [hloop] at hw
    exact hw
  | _ => trivial

private theorem Step.waiting (hm : s.Matched) (hq : s.Queued) (hs : Step s e s') (he : e.acknowledges J ≠ some id)
    (hw : Waiting J i id s) : Waiting J i id s' := by
  have hframe : Frame s s' → (Over i s → Over i s') → Waiting J i id s' := by
    intro hf hover
    unfold Waiting Recorded Queueing Occupies at hw ⊢
    rw [hf.loop, hf.active]
    split at hw <;> try exact hw
    · split at hw
      · rename_i hj
        rw [if_pos hj]
        exact ⟨hw.1, hover hw.2.1, hw.2.2⟩
      · rename_i hj
        rwa [if_neg hj]
    · exact ⟨hw.1, hover hw.2.1, hw.2.2⟩
  cases hs with
  | loop hs => exact hs.waiting hm hq he hw
  | task hs => exact hframe hs.frame fun ho => ((Step.task hs).over ho).1
  | context hs => exact hframe hs.frame fun ho => ((Step.context hs).over ho).1

private theorem waiting_run {t u : Serve} (hm : t.Matched) (hq : t.Queued) (hr : Steps Step t w u)
    (hw : id ∉ w.filterMap (·.acknowledges J)) (ht : Waiting J i id t) : u.Matched ∧ u.Queued ∧ Waiting J i id u := by
  refine Steps.history (I := fun w u => id ∉ w.filterMap (·.acknowledges J) → u.Matched ∧ u.Queued ∧ Waiting J i id u)
    (fun _ => ⟨hm, hq, ht⟩) (fun w t e t' _ hs ih hw => ?_) hr hw
  rw [List.filterMap_append, List.mem_append, not_or] at hw
  obtain ⟨hm, hq, ht⟩ := ih hw.1
  have he : e.acknowledges J ≠ some id := fun he => hw.2 (by simp [he])
  exact ⟨hs.matched hm, hs.queued hq, hs.waiting hm hq he ht⟩

private theorem Processed.recorded {envelope : PluginEnvelope} {call : Option Nat} {job : ActiveJob}
    (hp : Processed s envelope s' call) (hc : (ServeEvent.received envelope call).cancels J = some id)
    (hl : s.jobs.active.lookup J = some job) : Waiting J job.controller id s' := by
  obtain ⟨request, hpayload, hnone, hid, rfl⟩ := ServeEvent.cancels_eq_some hc
  cases hp with
  | failed => trivial
  | replied _ hr => simp [hnone] at hr
  | cancelled hreq hid' hl' =>
    cases hreq.payload_eq hpayload
    rw [hid] at hid'
    cases hid'
    cases hl.symm.trans hl'
    exact ⟨_, AList.lookup_insert _, rfl, by simp⟩
  | acknowledged hreq hid' hl' =>
    cases hreq.payload_eq hpayload
    rw [hid] at hid'
    cases hid'
    rw [hl] at hl'
    cases hl'
  | accepted hreq | refused hreq | heartbeat hreq | shutdown hreq => cases hreq.payload_eq hpayload

/-! ### The joining of a task -/

private theorem Step.over_of_joined (hm : s.Matched) (hs : Step s e s') (he : e = .joined i J ∨ e = .drained i J) :
    (∃ result, ⟨i, J, .completed result⟩ ∈ s.jobs.tasks) ∧ Over i s' := by
  cases hs with
  | task hs => cases hs <;> simp at he
  | context hs => cases hs <;> simp at he
  | loop hs =>
    cases hs with
    | @join inst jobId output jobs queue _ _ ht hsettle =>
      obtain ⟨rfl, rfl⟩ : inst = i ∧ jobId = J := by simpa using he
      obtain ⟨job, -, rfl, -⟩ := JobManager.settle_join hsettle
      exact ⟨⟨_, ht⟩, over_of_join hm ht rfl rfl⟩
    | @drain o deadline inst jobId result _ ht =>
      obtain ⟨rfl, rfl⟩ : inst = i ∧ jobId = J := by simpa using he
      exact ⟨⟨_, ht⟩, over_of_join hm ht rfl rfl⟩
    | _ => simp at he

/-- A task leaves the set only by being joined. -/
private theorem Step.joins (hm : s.Matched) (hs : Step s e s') (ht : (i, J) ∈ taskKeys s.jobs.tasks) :
    (i, J) ∈ taskKeys s'.jobs.tasks ∨ e = .joined i J ∨ e = .drained i J ∨ ¬ s'.Live := by
  have hjoin : ∀ {inst jobId result}, ⟨inst, jobId, .completed result⟩ ∈ s.jobs.tasks →
      (i, J) ∈ taskKeys (s.jobs.join ⟨inst, jobId, .completed result⟩).tasks ∨ inst = i ∧ jobId = J := by
    intro inst jobId result hmem
    rcases List.mem_cons.1 ((taskKeys_join hm.nodup_tasks hmem).subset ht) with heq | hrest
    · exact Or.inr ⟨(congrArg Prod.fst heq).symm, (congrArg Prod.snd heq).symm⟩
    · exact Or.inl hrest
  cases hs with
  | task hs => exact Or.inl (hs.frame.keys ▸ ht)
  | context hs => exact Or.inl (hs.frame.keys ▸ ht)
  | loop hs =>
    cases hs with
    | receive => exact Or.inl ((process_processed s _).tasks.1 ▸ ht)
    | spawn =>
      refine Or.inl ?_
      simp only [JobManager.spawn, taskKeys, List.map_append, List.mem_append]
      exact Or.inl ht
    | @join inst jobId output jobs queue _ _ hmem hsettle =>
      obtain ⟨job, -, rfl, -⟩ := JobManager.settle_join hsettle
      rcases hjoin hmem with hrest | ⟨rfl, rfl⟩
      · exact Or.inl hrest
      · exact Or.inr (Or.inl rfl)
    | joinFailed => exact Or.inr (Or.inr (Or.inr id))
    | drain _ hmem =>
      rcases hjoin hmem with hrest | ⟨rfl, rfl⟩
      · exact Or.inl hrest
      · exact Or.inr (Or.inr (Or.inl rfl))
    | _ => exact Or.inl ht

private theorem joined_of_run {t u : Serve} (hm : t.Matched) (hr : Steps Step t w u)
    (ht : (i, J) ∈ taskKeys t.jobs.tasks) (hu : (i, J) ∉ taskKeys u.jobs.tasks) (hlive : u.Live) :
    ∃ a x b, w = a ++ x :: b ∧ (x = .joined i J ∨ x = .drained i J) := by
  have hall : u.Matched ∧ (u.Live → (i, J) ∈ taskKeys u.jobs.tasks ∨
      ∃ a x b, w = a ++ x :: b ∧ (x = .joined i J ∨ x = .drained i J)) := by
    refine Steps.history (I := fun w u => u.Matched ∧ (u.Live → (i, J) ∈ taskKeys u.jobs.tasks ∨
      ∃ a x b, w = a ++ x :: b ∧ (x = .joined i J ∨ x = .drained i J))) ⟨hm, fun _ => Or.inl ht⟩
      (fun w t e t' _ hs ih => ?_) hr
    obtain ⟨hm, ih⟩ := ih
    refine ⟨hs.matched hm, fun hlive => ?_⟩
    rcases ih (hs.live hlive) with ht | ⟨a, x, b, rfl, hx⟩
    · rcases hs.joins hm ht with ht | he | he | hn
      · exact Or.inl ht
      · exact Or.inr ⟨w, e, [], rfl, Or.inl he⟩
      · exact Or.inr ⟨w, e, [], rfl, Or.inr he⟩
      · exact absurd hlive hn
    · exact Or.inr ⟨a, x, b ++ [e], by simp, hx⟩
  exact (hall.2 hlive).resolve_left hu

/-! ### The slot of a cancelled job -/

/-- The job keeps its slot: another start with its ID is a duplicate, and it counts against the capacity. -/
structure KeepsSlot (J : String) (i : Nat) (s : Serve) : Prop where
  occupies : Occupies J i s
  duplicate : ∀ messageId trace request, Validation.jobId request.jobId = .ok J →
    Validation.optionalTimestamp request.deadline "StartJobRequest deadline" = .ok () →
    s.request messageId trace (some (.startJob request)) = s.fail (.protocol "duplicate active job ID")
  counted : ∀ messageId trace request acceptance job, s.jobs.start messageId trace request = .ok
    (acceptance, .spawn job) → (s.jobs.active.erase J).size + 1 < s.jobs.maximumConcurrentJobs

private theorem Occupies.keepsSlot (h : Occupies J i s) : KeepsSlot J i s := by
  obtain ⟨job, hl, hi⟩ := id h
  refine ⟨h, fun messageId trace request hid hdeadline => ?_, fun messageId trace request acceptance job' hok => ?_⟩
  · have herr : s.jobs.start messageId trace request = .error (.protocol "duplicate active job ID") := by
      unfold JobManager.start
      rw [hid, hdeadline]
      simp only [bind, Except.bind, hl, Option.isSome_some, if_true]
    unfold Serve.request
    simp only [herr]
  · have hlen := (activeKeys_erase hl).length_eq
    rw [List.length_cons, length_activeKeys, length_activeKeys] at hlen
    obtain ⟨jobId, invocation, hstart⟩ := JobManager.startable_of_start hok
    rw [JobManager.start_of_startable hstart] at hok
    split at hok
    · cases hok
    · rename_i hroom
      omega

/-- A reply to a cancellation of the job is its acknowledgement. -/
private theorem acknowledges_of_reply {setup : Setup} {h : List ServeEvent} {envelope ack : PluginEnvelope}
    {call : Option Nat} (hr : Steps Step (init setup) h s) (hs : Step s (.sent ack) s')
    (hmem : .received envelope call ∈ h) (hc : (ServeEvent.received envelope call).cancels J = some id)
    (hreply : ack.replyTo = some id) : ack.payload = some (.cancelJobAcknowledged ⟨some ⟨J⟩⟩) := by
  obtain ⟨request, hpayload, hnone, hid, rfl⟩ := ServeEvent.cancels_eq_some hc
  obtain ⟨taken, answers, lost, hl⟩ := ledger (hr.trans (.single hs))
  have hrun : ¬ s'.Failed := by
    rcases sent_inv (queued hr) hs with ⟨o, queue, next, -, hloop, -⟩ | ⟨o, deadline, count, -, hloop, -⟩ <;>
      simp [Failed, hloop]
  obtain ⟨rfl, -⟩ := hl.complete hrun
  have hreq : envelope ∈ requests (h ++ [.sent ack]) :=
    List.mem_filterMap.2 ⟨_, List.mem_append_left _ hmem, by simp [ServeEvent.request, hnone]⟩
  have hrep : ack.reply = some ⟨envelope.messageId, ack.trace, ack.payload⟩ := by
    simp [PluginEnvelope.reply, hreply]
  have hans : (⟨envelope.messageId, ack.trace, ack.payload⟩ : Reply) ∈ answers := by
    rw [← Multiset.mem_coe, ← hl.balance, hs.replied]
    simp [ServeEvent.enqueued, hrep]
  obtain ⟨request', hmem', ha⟩ := hl.answer hans
  -- no two requests have the same message ID
  obtain rfl : envelope = request' := List.inj_on_of_nodup_map hl.nodup hreq hmem' ha.replyTo
  obtain ⟨p, q, hp, hq, hanswer⟩ := ha.payload
  obtain rfl : .cancelJob request = p := Option.some.inj (hpayload.symm.trans hp)
  change ack.payload = some q at hq
  rw [hq, show q = _ from hanswer, hid]

private theorem not_acknowledging (h : Waiting J i id s) {o : Outgoing} {deadline : Timestamp}
    (hloop : s.loop = .acknowledging o deadline) : False := by
  unfold Waiting at h
  rwa [hloop] at h

/-- What is acknowledged has been joined. -/
private theorem Waiting.over_of_sent {ack : PluginEnvelope} (hw : Waiting J i id s) (hq : s.Queued)
    (hs : Step s (.sent ack) s') (he : (ServeEvent.sent ack).acknowledges J = some id) : Over i s := by
  rcases sent_inv hq hs with ⟨o, queue, next, hloop, -, -, hp, hreply, -, ho⟩ | ⟨o, deadline, count, hloop, -⟩
  · obtain ⟨hack, hpay⟩ : o.payload.acknowledges J = true ∧ o.replyTo = some id := by
      simp only [ServeEvent.acknowledges, hp, Option.any_some, hreply] at he
      split at he
      · exact ⟨‹_›, he⟩
      · cases he
    -- while the job is in the table, the loop acknowledges it only in its settlement and in the shutdown
    unfold Waiting at hw
    rw [hloop] at hw
    have hactive : Recorded J i id s → (s.jobs.active.lookup J).isSome := by
      rintro ⟨job, hl, -⟩
      rw [hl]
      rfl
    have hsilent : Recorded J i id s → (∀ jobId, next = .remove jobId → jobId ≠ J) →
        (∀ o' deadline, next ≠ .clear o' deadline) → False := by
      intro hr hremove hclear
      have h : (ServeEvent.sent (s.link.identity.stamp 0 o)).acknowledges J = none :=
        (silent_of_sends ho (hactive hr) hremove hclear).acknowledges
      simp [ServeEvent.acknowledges, SessionIdentity.stamp, SessionIdentity.envelope, hack, hpay] at h
    cases next with
    | head => exact (hsilent hw (by simp) (by simp)).elim
    | spawn job => exact (hsilent hw (by simp) (by simp)).elim
    | remove jobId =>
      simp only at hw
      by_cases hj : jobId = J
      · rw [if_pos hj] at hw
        exact hw.2.1
      · rw [if_neg hj] at hw
        refine (hsilent hw (fun jobId' h => ?_) (by simp)).elim
        cases h
        exact hj
    | clear o' deadline => exact hw.2.1
  · exact (not_acknowledging hw hloop).elim

/-- An acknowledged cancellation means that the action is over.  As long as the cancellation of an active job has no
reply the job keeps its slot; its reply is the acknowledgement, and before the loop enqueues it the task of the job
has been joined: its future had ended, its cancellation value has left `active`, and the future makes no step any
more. -/
theorem acknowledged_over {setup : Setup} {h₁ w : List ServeEvent} {s s' u : Serve} {envelope : PluginEnvelope}
    {call : Option Nat} {J : String} {id : Nat} {job : ActiveJob} (hr : Steps Step (init setup) h₁ s)
    (hl : s.jobs.active.lookup J = some job) (hs : Step s (.received envelope call) s')
    (hc : (ServeEvent.received envelope call).cancels J = some id) (hw : Steps Step s' w u) :
    (u.Live → (∀ reply, .sent reply ∈ w → reply.replyTo ≠ some id) → KeepsSlot J job.controller u) ∧
    ∀ ack u', Step u (.sent ack) u' → ack.replyTo = some id →
      ack.payload = some (.cancelJobAcknowledged ⟨some ⟨J⟩⟩) ∧ u.cells job.controller ≠ .active ∧
      ∃ a x b, w = a ++ x :: b ∧ (x = .joined job.controller J ∨ x = .drained job.controller J) ∧
        EndedIn job.controller (h₁ ++ .received envelope call :: a) ∧
        ∀ w' v, Steps Step u' w' v → ∀ e ∈ b ++ .sent ack :: w', e.own ≠ some job.controller := by
  have hm := matched hr
  have hq := queued hr
  obtain ⟨hloop, hp⟩ := hs.received_inv
  have hstart := hp.recorded hc hl
  have hrw : Steps Step (init setup) (h₁ ++ .received envelope call :: w) u := hr.trans (.cons hs hw)
  refine ⟨fun hlive hnone => ?_, fun ack u' hack hreply => ?_⟩
  · refine ((waiting_run (hs.matched hm) (hs.queued hq) hw ?_ hstart).2.2.occupies hlive).keepsSlot
    intro hmem
    obtain ⟨x, hx, hid⟩ := List.mem_filterMap.1 hmem
    cases x with
    | sent reply =>
      simp only [ServeEvent.acknowledges] at hid
      split at hid
      · exact hnone reply hx hid
      · cases hid
    | _ => cases hid
  · have hpayload := acknowledges_of_reply hrw hack (by simp) hc hreply
    have hid : (ServeEvent.sent ack).acknowledges J = some id := by
      simp [ServeEvent.acknowledges, hpayload, Payload.acknowledges, hreply]
    have hnot : id ∉ w.filterMap (·.acknowledges J) := by
      have hnd := nodup_acknowledges (hrw.trans (.single hack)) J
      rw [List.filterMap_append, List.filterMap_append] at hnd
      intro hmem
      refine (List.nodup_append.1 hnd).2.2 id (List.mem_append_right _ ?_) id (by simp [hid]) rfl
      rw [List.filterMap_cons]
      split
      · exact hmem
      · exact List.mem_cons_of_mem _ hmem
    obtain ⟨hmu, hqu, hwait⟩ := waiting_run (hs.matched hm) (hs.queued hq) hw hnot hstart
    have hover := hwait.over_of_sent hqu hack hid
    have hlive : u.Live := by
      rcases sent_inv hqu hack with ⟨o, queue, next, hloop, -⟩ | ⟨o, deadline, count, hloop, -⟩ <;> simp [Live, hloop]
    have htask : (job.controller, J) ∈ taskKeys s'.jobs.tasks := by
      have hagree := hm.agree
      unfold Matches at hagree
      rw [hloop] at hagree
      rw [hp.tasks.1]
      exact hagree.symm.subset (mem_activeKeys.2 ⟨job, hl, rfl⟩)
    obtain ⟨a, x, b, rfl, hx⟩ := joined_of_run (hs.matched hm) hw htask (hover.2 J) hlive
    obtain ⟨t, t', ha, hjoin, hb⟩ := hw.split
    have hrt : Steps Step (init setup) (h₁ ++ .received envelope call :: a) t := hr.trans (.cons hs ha)
    obtain ⟨⟨result, hmem⟩, hover'⟩ := hjoin.over_of_joined (matched hrt) hx
    refine ⟨hpayload, ((lifetimes hrw).finished hlive _ hover).1, a, x, b, rfl, hx,
      (lifetimes hrt).ended _ hmem trivial, fun w' v hw' => ?_⟩
    exact (over_run (hb.trans (.cons hack hw')) hover').2

theorem acknowledged_over_sampleRun : ∃ s s' u u' job, Steps Step (init sampleSetup) (sampleRun.take 3) s ∧
    s.jobs.active.lookup sampleJobId = some job ∧ Step s (.received sampleCancel none) s' ∧
    Steps Step s' ((sampleRun.drop 4).take 6) u ∧ Step u (.sent sampleAcknowledged) u' ∧
    u.cells job.controller ≠ .active := by
  obtain ⟨v, hr⟩ := sampleRun_steps
  have hrun : Steps Step (init sampleSetup) (sampleRun.take 3 ++ .received sampleCancel none ::
      ((sampleRun.drop 4).take 6 ++ .sent sampleAcknowledged :: [.settled sampleJobId])) v := hr
  obtain ⟨s, s', hs, hcancel, hrest⟩ := hrun.split
  obtain ⟨u, u', hw, hack, -⟩ := hrest.split
  have hloop := hcancel.received_inv.1
  have hsince : Since (·.Accepts sampleJobId) (·.Closes sampleJobId) (sampleRun.take 3) :=
    ⟨[_], _, [_], rfl, rfl, by simp [ServeEvent.Closes]⟩
  rw [since_accepts_iff hs (by simp [Live, hloop]), held_of_not_spawn (by simp [hloop])] at hsince
  obtain ⟨job, hl⟩ := Option.isSome_iff_exists.1 hsince
  exact ⟨s, s', u, u', job, hs, hl, hcancel, hw, hack,
    ((acknowledged_over hs hl hcancel rfl hw).2 sampleAcknowledged u' hack rfl).2.1⟩

end Serve

end PluginSdk
